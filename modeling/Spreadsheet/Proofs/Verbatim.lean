import Spreadsheet.Proofs.SectionScan

/-!
# Where literals in quotes are copied

A literal is copied as it is unless it holds a tag or, before the digit places, these same digit
places (`literals_verbatim_iff`). A text in which a tag stands is never displayed, and where the
digit places are found inside the literal its opening quote is displayed too, so both conditions
are needed.
-/

namespace Spreadsheet

theorem Value.DateIs.isNumber_or_isDated {v : Value} {date : Calendar.Date}
    (h : v.DateIs date) : (∃ x : Number, v = x.toValue) ∨ v.IsDated := by
  cases h with
  | date d => exact .inr (.date _)
  | moment t => exact .inr (.moment _)
  | serial _ => exact .inl ⟨_, rfl⟩

namespace Format

open Text

variable {cs p : List Char}

/-! ## A number between two literals -/

theorem brackets_inQuotes (q : List Char) : brackets (inQuotes q) = brackets q := by
  unfold inQuotes
  rw [List.cons_append, brackets_cons_of_ne (by decide), brackets_append]
  exact List.append_nil _

/-- Under a single section with digit places and without a tag a number stands in these places, behind
its sign. -/
theorem display_places_signed {places : List Char} (hplaces : IsPlaces places)
    (hcs : isPlain (String.ofList cs) = false) (hsingle : splitSections cs = [cs])
    (htag : ¬ HasTag cs) (hbare : outsideQuotes cs = places) (x : Number) :
    display x.toValue (some (String.ofList cs)) = renderPlaces x.abs cs >>= fun body =>
      .ok ⟨String.ofList (if x.isNegative then '-' :: body else body), none⟩ := by
  have hdate := Bool.eq_false_iff.1 (hplaces.isDateSection_eq hbare)
  rw [display_of_number hcs x.countsAs, String.toList_ofList, hsingle,
    showNumber_single (prepare_of_not_hasTag htag), if_neg hdate, renderNumber_eq,
    hplaces.timesPercent_eq hbare]
  rfl

theorem display_places {places : List Char} {x : Number} (hplaces : IsPlaces places)
    (hx : x.isNegative = false) (hcs : isPlain (String.ofList cs) = false)
    (hsingle : splitSections cs = [cs]) (htag : ¬ HasTag cs) (hbare : outsideQuotes cs = places) :
    display x.toValue (some (String.ofList cs)) =
      renderPlaces x.abs cs >>= fun body => .ok ⟨String.ofList body, none⟩ := by
  rw [display_places_signed hplaces hcs hsingle htag hbare, hx]
  rfl

namespace IsPlaces

theorem display_signed (h : IsPlaces p) (x : Number) :
    display x.toValue (some (String.ofList p)) = fillPattern x.abs p >>= fun body =>
      .ok ⟨String.ofList (if x.isNegative then '-' :: body else body), none⟩ := by
  have hbare : outsideQuotes p = p := outsideQuotes_of_noQuote (h.not_mem (by decide))
  have htag : ¬ HasTag p := fun htag => h.not_mem (c := '[') (by decide)
    (htag.subset List.mem_cons_self)
  have hcut := cutAround?_self p []
  have hnil : literal [] = [] := by rw [literal]
  rw [List.append_nil] at hcut
  rw [display_places_signed h h.isPlain_eq (splitSections_bare (ne_marks h.noMark)) htag hbare,
    h.renderPlaces_of_cut hbare hcut]
  cases fillPattern x.abs p with
  | error f => rfl
  | ok body =>
    have hbody : literal [] ++ body ++ literal [] = body := by rw [hnil, List.append_nil]; rfl
    exact congrArg (fun body => Except.ok (⟨String.ofList (if x.isNegative then '-' :: body
      else body), none⟩ : Shown)) hbody

theorem display_eq (h : IsPlaces p) {x : Number} (hx : x.isNegative = false) :
    display x.toValue (some (String.ofList p)) =
      fillPattern x.abs p >>= fun body => .ok ⟨String.ofList body, none⟩ := by
  rw [h.display_signed, hx]
  rfl

end IsPlaces

namespace NumberSpelling

variable (f : NumberSpelling)

theorem outsideQuotes_chars : outsideQuotes f.chars = f.places := by
  have hbehind := outsideQuotes_inQuotes f.behind_noQuote []
  rw [outsideQuotes_nil, List.append_nil] at hbehind
  unfold chars
  rw [List.append_assoc, outsideQuotes_inQuotes f.before_noQuote,
    outsideQuotes_append (f.isPlaces.not_mem (by decide)), hbehind, List.append_nil]

theorem isSection_chars : IsSection f.chars where
  even := by
    have hbehind := (even_count_inQuotes f.behind_noQuote []).2 Even.zero
    rw [List.append_nil] at hbehind
    unfold chars
    rwa [List.append_assoc, even_count_inQuotes f.before_noQuote,
      even_count_append (f.isPlaces.not_mem (by decide))]
  unmarked := by
    rw [f.outsideQuotes_chars]
    exact f.isPlaces.not_mem (by decide)

theorem splitSections_chars : splitSections f.chars = [f.chars] :=
  f.isSection_chars.splitSections_eq

theorem isPlain_chars : isPlain (String.ofList f.chars) = false := by
  refine isPlain_eq_false (c := '"') ?_ (by decide)
  exact List.mem_append_left _ (List.mem_append_left _ List.mem_cons_self)

theorem hasTag_chars : HasTag f.chars ↔ HasTag (f.before ++ f.behind) := by
  refine hasTag_congr ?_
  unfold chars
  rw [brackets_append, brackets_append, brackets_append, brackets_of_noMark f.isPlaces.noMark,
    List.append_nil, brackets_inQuotes, brackets_inQuotes]

/-- Where the first literal does not hold the digit places, both literals are copied. -/
theorem renderPlaces_chars (h : ¬ f.places <:+: f.before) (x : Number) :
    renderPlaces x f.chars =
      fillPattern x f.places >>= fun body => .ok (f.before ++ body ++ f.behind) := by
  have hcut := cutAround?_inQuotes f.isPlaces.ne_nil (f.isPlaces.not_mem (by decide)) h
    (inQuotes f.behind)
  rw [← List.append_assoc] at hcut
  rw [f.isPlaces.renderPlaces_of_cut f.outsideQuotes_chars hcut,
    literal_inQuotes f.before_noQuote, literal_inQuotes f.behind_noQuote]

/-- Where the first literal holds the digit places, the number is shown inside of it, behind its
opening quote. -/
theorem renderPlaces_chars_of_infix (h : f.places <:+: f.before) (x : Number) :
    ∃ a b, renderPlaces x f.chars =
      fillPattern x f.places >>= fun body => .ok ('"' :: (a ++ body ++ b)) := by
  obtain ⟨a, b, hcut, ha⟩ := cutAround?_of_infix f.isPlaces.ne_nil
    (f.isPlaces.not_mem (by decide)) h (f.places ++ inQuotes f.behind)
  refine ⟨literal a, literal b, ?_⟩
  rw [← List.append_assoc] at hcut
  rw [f.isPlaces.renderPlaces_of_cut f.outsideQuotes_chars hcut,
    literal_openQuote fun hmem => f.before_noQuote (ha.subset hmem)]
  rfl

/-- The literals are copied around a number unless they hold a tag, or the first one the digit
places. -/
theorem display_eq_around_iff {x : Number} {s : Shown} (hx : x.isNegative = false)
    (hs : display x.toValue (some (String.ofList f.places)) = .ok s) :
    display x.toValue (some (String.ofList f.chars)) = .ok (f.around s) ↔
      ¬ HasTag (f.before ++ f.behind) ∧ ¬ f.places <:+: f.before := by
  rw [f.isPlaces.display_eq hx] at hs
  obtain ⟨body, hbody, hs⟩ := exists_of_bind hs
  cases hs
  constructor
  · intro h
    have htag : ¬ HasTag (f.before ++ f.behind) := by
      refine fun htag => not_hasTag_display (.inl ⟨x, rfl⟩) h (htag.trans ?_)
      show (f.before ++ f.behind).Sublist
        (String.ofList f.before ++ String.ofList body ++ String.ofList f.behind).toList
      simp only [String.toList_append, String.toList_ofList]
      exact (List.sublist_append_left _ _).append (List.Sublist.refl _)
    refine ⟨htag, fun hinfix => ?_⟩
    obtain ⟨a, b, hrender⟩ := f.renderPlaces_chars_of_infix hinfix x.abs
    rw [display_places f.isPlaces hx f.isPlain_chars f.splitSections_chars
      (fun h => htag (f.hasTag_chars.1 h)) f.outsideQuotes_chars, hrender, hbody] at h
    -- The text starts with the opening quote, which the first literal does not.
    have htext := congrArg String.toList (congrArg Shown.text (Except.ok.inj h))
    simp only [around, String.toList_append, String.toList_ofList] at htext
    cases hbefore : f.before with
    | nil =>
      rw [hbefore] at hinfix
      exact f.isPlaces.ne_nil (List.infix_nil.1 hinfix)
    | cons d rest =>
      rw [hbefore] at htext
      obtain ⟨rfl, -⟩ := List.cons.inj htext
      exact f.before_noQuote (by rw [hbefore]; exact List.mem_cons_self)
  · rintro ⟨htag, hinfix⟩
    rw [display_places f.isPlaces hx f.isPlain_chars f.splitSections_chars
      (fun h => htag (f.hasTag_chars.1 h)) f.outsideQuotes_chars,
      f.renderPlaces_chars hinfix, hbody]
    show Except.ok (⟨String.ofList (f.before ++ body ++ f.behind), none⟩ : Shown) = _
    rw [String.ofList_append, String.ofList_append]
    rfl

end NumberSpelling

/-! ## A date with literals -/

theorem runs_bare (us : List Char) (ps : List Piece) :
    runs (us.map .bare ++ ps) = (us ++ (runs ps).1, (runs ps).2) := by
  induction us with
  | nil => rfl
  | cons c rest ih =>
    rw [List.map_cons, List.cons_append, runs, ih]
    rfl

namespace DateSpelling

variable (f : DateSpelling)

theorem first_noMark : ∀ c ∈ f.first, c ∉ ['"', '[', ']', ';'] := fun c hc =>
  f.bare_noMark c (List.mem_append_left _ hc)

theorem more_noMark : ∀ m ∈ f.more, ∀ c ∈ m.2, c ∉ ['"', '[', ']', ';'] := fun m hm c hc =>
  f.bare_noMark c (List.mem_append_right _ (List.mem_flatMap.2 ⟨m, hm, hc⟩))

theorem outsideQuotes_chars : outsideQuotes f.chars = f.first ++ f.more.flatMap Prod.snd := by
  have hmore : ∀ more : List (List Char × List Char), (∀ m ∈ more, '"' ∉ m.1) →
      (∀ m ∈ more, '"' ∉ m.2) →
      outsideQuotes (more.flatMap fun m => inQuotes m.1 ++ m.2) = more.flatMap Prod.snd := by
    intro more hquote hmark
    induction more with
    | nil => exact outsideQuotes_nil
    | cons m rest ih =>
      obtain ⟨hq, hquote⟩ := List.forall_mem_cons.1 hquote
      obtain ⟨hm, hmark⟩ := List.forall_mem_cons.1 hmark
      rw [List.flatMap_cons, List.append_assoc, outsideQuotes_inQuotes hq,
        outsideQuotes_append hm, ih hquote hmark]
      rfl
  unfold chars
  rw [outsideQuotes_append (noQuote_of_noMark f.first_noMark),
    hmore f.more f.literal_noQuote fun m hm => noQuote_of_noMark (f.more_noMark m hm)]

theorem isSection_chars : IsSection f.chars where
  even := by
    have hmore : ∀ more : List (List Char × List Char), (∀ m ∈ more, '"' ∉ m.1) →
        (∀ m ∈ more, '"' ∉ m.2) →
        Even ((more.flatMap fun m => inQuotes m.1 ++ m.2).count '"') := by
      intro more hquote hmark
      induction more with
      | nil => exact Even.zero
      | cons m rest ih =>
        obtain ⟨hq, hquote⟩ := List.forall_mem_cons.1 hquote
        obtain ⟨hm, hmark⟩ := List.forall_mem_cons.1 hmark
        rw [List.flatMap_cons, List.append_assoc, even_count_inQuotes hq, even_count_append hm]
        exact ih hquote hmark
    unfold chars
    rw [even_count_append (noQuote_of_noMark f.first_noMark)]
    exact hmore f.more f.literal_noQuote fun m hm => noQuote_of_noMark (f.more_noMark m hm)
  unmarked := by
    rw [f.outsideQuotes_chars]
    exact fun hmem => f.bare_noMark _ hmem (by decide)

theorem splitSections_chars : splitSections f.chars = [f.chars] :=
  f.isSection_chars.splitSections_eq

theorem runs_chars : runs (pieces f.chars) = (f.first, f.more) := by
  have hmore : ∀ more : List (List Char × List Char), (∀ m ∈ more, '"' ∉ m.1) →
      (∀ m ∈ more, '"' ∉ m.2) →
      runs (pieces (more.flatMap fun m => inQuotes m.1 ++ m.2)) = ([], more) := by
    intro more hquote hmark
    induction more with
    | nil =>
      rw [List.flatMap_nil, pieces]
      rfl
    | cons m rest ih =>
      obtain ⟨hq, hquote⟩ := List.forall_mem_cons.1 hquote
      obtain ⟨hm, hmark⟩ := List.forall_mem_cons.1 hmark
      rw [List.flatMap_cons, List.append_assoc, pieces_inQuotes hq, pieces_append hm, runs,
        runs_bare, ih hquote hmark, List.append_nil]
  unfold chars
  rw [pieces_append (noQuote_of_noMark f.first_noMark), runs_bare,
    hmore f.more f.literal_noQuote fun m hm => noQuote_of_noMark (f.more_noMark m hm),
    List.append_nil]

theorem isDateSection_chars : isDateSection f.chars = true := by
  have hbare : outsideQuotes (f.first ++ f.more.flatMap Prod.snd) = outsideQuotes f.chars := by
    rw [f.outsideQuotes_chars]
    exact outsideQuotes_of_noQuote (noQuote_of_noMark f.bare_noMark)
  have hdate := f.asksDate
  unfold isDateSection at hdate ⊢
  rwa [hbare] at hdate

theorem isPlain_chars : isPlain (String.ofList f.chars) = false := by
  refine Bool.eq_false_iff.2 fun hplain => ?_
  have hbare : ∀ c ∈ outsideQuotes f.chars, c ∈ f.chars := by
    intro c hc
    rw [f.outsideQuotes_chars] at hc
    refine (List.mem_append.1 hc).elim (List.mem_append_left _) fun hc => ?_
    obtain ⟨m, hm, hc⟩ := List.mem_flatMap.1 hc
    exact List.mem_append_right _ (List.mem_flatMap.2 ⟨m, hm, List.mem_append_right _ hc⟩)
  have hletters := hasDateToken_eq_false fun c hc =>
    isDateLetter_of_plain (isPlainChar_of_mem hplain (hbare c hc))
  have hdate := f.isDateSection_chars
  unfold isDateSection at hdate
  dsimp only at hdate
  rw [hletters, Bool.and_false] at hdate
  cases hdate

theorem hasTag_chars : HasTag f.chars ↔ HasTag f.literals := by
  have hmore : ∀ more : List (List Char × List Char), (∀ m ∈ more, brackets m.2 = []) →
      brackets (more.flatMap fun m => inQuotes m.1 ++ m.2) = brackets (more.flatMap Prod.fst) := by
    intro more hnone
    induction more with
    | nil => rfl
    | cons m rest ih =>
      obtain ⟨hm, hnone⟩ := List.forall_mem_cons.1 hnone
      simp only [List.flatMap_cons, brackets_append, brackets_inQuotes, hm, ih hnone,
        List.append_nil]
  refine hasTag_congr ?_
  unfold chars literals
  rw [brackets_append, brackets_of_noMark f.first_noMark,
    hmore f.more fun m hm => brackets_of_noMark (f.more_noMark m hm)]
  rfl

theorem literals_sublist (date : Calendar.Date) : f.literals.Sublist (f.filled date) := by
  have hmore : ∀ more : List (List Char × List Char), (more.flatMap Prod.fst).Sublist
      (more.flatMap fun m => m.1 ++ fillDate date m.2) := by
    intro more
    induction more with
    | nil => exact List.Sublist.refl _
    | cons m rest ih =>
      rw [List.flatMap_cons, List.flatMap_cons]
      exact (List.sublist_append_left _ _).append ih
  exact (hmore f.more).trans (List.sublist_append_right _ _)

/-- Under a section without a tag that asks for a date, a value is shown as its date. -/
theorem display_chars {v : Value} {date : Calendar.Date} (hv : v.DateIs date)
    (htag : ¬ HasTag f.chars) :
    display v (some (String.ofList f.chars)) = .ok ⟨String.ofList (f.filled date), none⟩ := by
  have hrender : renderDate date f.chars = String.ofList (f.filled date) := by
    unfold renderDate
    rw [f.runs_chars]
    rfl
  have hdate : ∀ serial, showDate date serial [f.chars] =
      .ok ⟨String.ofList (f.filled date), none⟩ := by
    intro serial
    rw [showDate_single (prepare_of_not_hasTag htag), if_pos f.isDateSection_chars, hrender]
  cases hv with
  | date d =>
    rw [display_of_not_plain f.isPlain_chars, String.toList_ofList, f.splitSections_chars]
    exact hdate _
  | moment t =>
    rw [display_of_not_plain f.isPlain_chars, String.toList_ofList, f.splitSections_chars]
    exact hdate _
  | @serial x d hx =>
    rw [display_of_number f.isPlain_chars x.countsAs, String.toList_ofList, f.splitSections_chars,
      showNumber_single (prepare_of_not_hasTag htag), if_pos f.isDateSection_chars, hx, ← hrender]
    rfl

/-- The literals of a date are copied unless they hold a tag. -/
theorem display_eq_filled_iff {v : Value} {date : Calendar.Date} (hv : v.DateIs date) :
    display v (some (String.ofList f.chars)) = .ok ⟨String.ofList (f.filled date), none⟩ ↔
      ¬ HasTag f.literals := by
  refine ⟨fun h htag => ?_, fun htag => f.display_chars hv fun h => htag (f.hasTag_chars.1 h)⟩
  refine not_hasTag_display hv.isNumber_or_isDated h ?_
  rw [String.toList_ofList]
  exact htag.trans (f.literals_sublist date)

end DateSpelling

/-- **Where literals in quotes are copied.** A number that is not negative, under digit places
between two literals, is shown as under the digit places alone, between the two literals and in no
color, exactly when no tag stands in the literals and the first one does not hold the digit places.
A value with a date, under date letters with literals among them, is shown as the date with its
letters filled in and the literals as they are exactly when no tag stands in the literals. -/
theorem literals_verbatim_iff (v : Value) :
    (∀ (f : NumberSpelling) (x : Number) (s : Shown), v = x.toValue → x.isNegative = false →
      display v (some (String.ofList f.places)) = .ok s →
      (display v (some (String.ofList f.chars)) = .ok (f.around s) ↔
        ¬ HasTag (f.before ++ f.behind) ∧ ¬ f.places <:+: f.before)) ∧
    ∀ (f : DateSpelling) (date : Calendar.Date), v.DateIs date →
      (display v (some (String.ofList f.chars)) = .ok ⟨String.ofList (f.filled date), none⟩ ↔
        ¬ HasTag f.literals) := by
  constructor
  · rintro f x s rfl hx hs
    exact f.display_eq_around_iff hx hs
  · intro f date hv
    exact f.display_eq_filled_iff hv

/-- A price: digit places between the name of a currency and a unit. -/
def price : NumberSpelling where
  before := ['E', 'U', 'R', ' ']
  places := ['0', '.', '0', '0']
  behind := ['/', 'd', 'a', 'y']
  before_noQuote := by decide
  isPlaces := .point (by decide) (List.forall_mem_nil _) (forall_mem_of_all (by decide))
  behind_noQuote := by decide

/-- A year behind its name. -/
def year : DateSpelling where
  first := []
  more := [(['y', ';', ' '], ['y', 'y', 'y', 'y'])]
  literal_noQuote := List.forall_mem_singleton.2 (by decide)
  bare_noMark := forall_mem_of_all (by decide)
  asksDate := by decide +kernel

theorem price_and_year_verbatim :
    display (.int 5) (some (String.ofList price.chars)) = .ok ⟨"EUR 5.00/day", none⟩ ∧
      display (.date .first) (some (String.ofList year.chars)) = .ok ⟨"y; 0001", none⟩ := by
  have hplaces : display (Number.int 5).toValue (some (String.ofList price.places)) =
      .ok ⟨"5.00", none⟩ := by decide +kernel
  have hnumber := ((literals_verbatim_iff (.int 5)).1 price (.int 5) ⟨"5.00", none⟩ rfl (by decide)
    hplaces).2 (by decide)
  have hdate := ((literals_verbatim_iff (.date .first)).2 year .first (.date _)).2 (by decide)
  exact ⟨hnumber.trans (by decide +kernel), hdate.trans (by decide +kernel)⟩

/-- Digit places between two literals of which the first one holds them too. -/
def zeroZero : NumberSpelling where
  before := ['0']
  places := ['0']
  behind := []
  before_noQuote := by decide
  isPlaces := .whole (by decide) (List.forall_mem_nil _)
  behind_noQuote := by decide

/-- The literals are not always copied: a number is filled in where the first literal holds the
digit places, and the quotes around it stay. -/
theorem zeroZero_not_verbatim :
    display (.int 5) (some (String.ofList zeroZero.places)) = .ok ⟨"5", none⟩ ∧
      display (.int 5) (some (String.ofList zeroZero.chars)) = .ok ⟨"\"50\"", none⟩ ∧
      zeroZero.around ⟨"5", none⟩ = ⟨"05", none⟩ := by
  decide +kernel

end Format

end Spreadsheet
