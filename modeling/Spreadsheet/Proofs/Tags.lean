import Mathlib.Data.List.Basic
import Spreadsheet.Format.Percent
import Spreadsheet.Format.Spelling
import Spreadsheet.Proofs.NumeralText
import Spreadsheet.Proofs.Refusal

/-!
# Tags never show

What is left of a section has no tag (`not_hasTag_pattern`), and each way of rendering it copies
brackets from left to right or drops them (`brackets_literal`, `brackets_renderDate`,
`brackets_renderNumber`). So the text that a format shows for a number or a date holds no bracket
that is closed behind (`not_hasTag_display`). A section without a tag is taken as it is
(`prepare_of_not_hasTag`).
-/

namespace Spreadsheet

theorem Number.countsAs (x : Number) : x.toValue.CountsAs x := by
  cases x with
  | int n => exact .int n
  | float x => exact .float x

namespace Format

variable {c mark : Char} {cs ds a b : List Char} {rule : List Char → Option (List Char)}

/-! ## Brackets -/

def brackets (cs : List Char) : List Char := cs.filter fun c => c == '[' || c == ']'

theorem brackets_append (cs ds : List Char) : brackets (cs ++ ds) = brackets cs ++ brackets ds :=
  List.filter_append ..

theorem brackets_eq_nil (h : ∀ c ∈ cs, c ≠ '[' ∧ c ≠ ']') : brackets cs = [] := by
  refine List.filter_eq_nil_iff.2 fun c hc => ?_
  simp [h c hc]

theorem brackets_cons_of_ne (h : c ≠ '[' ∧ c ≠ ']') (cs : List Char) :
    brackets (c :: cs) = brackets cs := by
  refine List.filter_cons_of_neg ?_
  simp [h]

theorem brackets_cons_sublist (h : (brackets cs).Sublist (brackets ds)) (c : Char) :
    (brackets (c :: cs)).Sublist (brackets (c :: ds)) := by
  have hc := brackets_append [c]
  rw [← List.singleton_append, hc, ← List.singleton_append (l := ds), hc]
  exact (List.Sublist.refl _).append h

theorem brackets_sublist_cons (c : Char) (cs : List Char) :
    (brackets cs).Sublist (brackets (c :: cs)) :=
  (List.sublist_cons_self c cs).filter _

theorem hasTag_brackets : HasTag (brackets cs) ↔ HasTag cs :=
  ⟨fun h => h.trans List.filter_sublist, fun h => h.filter fun c => c == '[' || c == ']'⟩

theorem HasTag.of_brackets (h : HasTag cs) (hsub : (brackets cs).Sublist (brackets ds)) :
    HasTag ds :=
  hasTag_brackets.1 ((hasTag_brackets.2 h).trans hsub)

theorem hasTag_congr (h : brackets cs = brackets ds) : HasTag cs ↔ HasTag ds := by
  rw [← hasTag_brackets, h, hasTag_brackets]

theorem hasTag_cons : HasTag (c :: cs) ↔ HasTag cs ∨ c = '[' ∧ ']' ∈ cs := by
  unfold HasTag
  rw [List.sublist_cons_iff]
  refine or_congr_right ⟨?_, ?_⟩
  · rintro ⟨r, heq, hr⟩
    cases heq
    exact ⟨rfl, List.singleton_sublist.1 hr⟩
  · rintro ⟨rfl, hmem⟩
    exact ⟨_, rfl, List.singleton_sublist.2 hmem⟩

/-! ## Cutting at a mark -/

theorem cutAt?_append (h : mark ∉ cs) (ds : List Char) :
    cutAt? mark (cs ++ mark :: ds) = some (cs, ds) := by
  induction cs with
  | nil => exact if_pos rfl
  | cons c rest ih =>
    obtain ⟨hc, hrest⟩ := not_or.1 (fun hmem => h (List.mem_cons.2 hmem))
    rw [List.cons_append, cutAt?, if_neg (Ne.symm hc), ih hrest]
    rfl

theorem cutAt?_eq_none (h : mark ∉ cs) : cutAt? mark cs = none := by
  induction cs with
  | nil => rfl
  | cons c rest ih =>
    obtain ⟨hc, hrest⟩ := not_or.1 (fun hmem => h (List.mem_cons.2 hmem))
    rw [cutAt?, if_neg (Ne.symm hc), ih hrest]
    rfl

theorem eq_of_cutAt? (h : cutAt? mark cs = some (a, b)) : cs = a ++ mark :: b ∧ mark ∉ a := by
  by_cases hmem : mark ∈ cs
  · obtain ⟨x, y, hcs, hx⟩ := List.eq_append_cons_of_mem hmem
    rw [hcs, cutAt?_append hx] at h
    cases h
    exact ⟨hcs, hx⟩
  · rw [cutAt?_eq_none hmem] at h
    cases h

/-! ## Taking tags out -/

theorem eq_of_takeTag? (h : takeTag? cs = some (a, b)) : cs = '[' :: (a ++ ']' :: b) := by
  unfold takeTag? at h
  split at h
  · rw [(eq_of_cutAt? h).1]
  · cases h

theorem takeTag?_of_not_hasTag (h : ¬ HasTag cs) : takeTag? cs = none := by
  cases htag : takeTag? cs with
  | none => rfl
  | some found =>
    refine absurd ?_ h
    rw [eq_of_takeTag? htag]
    exact hasTag_cons.2 (.inr ⟨rfl, List.mem_append_right _ List.mem_cons_self⟩)

theorem takeTag?_bracket (h : ']' ∈ cs) : (takeTag? ('[' :: cs)).isSome = true := by
  obtain ⟨x, y, hcs, hx⟩ := List.eq_append_cons_of_mem h
  show (cutAt? ']' cs).isSome = true
  rw [hcs, cutAt?_append hx]
  rfl

theorem replaceTags_of_not_hasTag (h : ¬ HasTag cs) : replaceTags rule cs = cs := by
  induction cs with
  | nil => rw [replaceTags]
  | cons c rest ih =>
    have hrest : ¬ HasTag rest := fun hrest => h (hasTag_cons.2 (.inl hrest))
    rw [replaceTags, takeTag?_of_not_hasTag h]
    dsimp only
    rw [ih hrest]

theorem colorTags_of_not_hasTag (h : ¬ HasTag cs) : colorTags cs = [] := by
  induction cs with
  | nil => rw [colorTags]
  | cons c rest ih =>
    have hrest : ¬ HasTag rest := fun hrest => h (hasTag_cons.2 (.inl hrest))
    rw [colorTags, takeTag?_of_not_hasTag h]
    exact ih hrest

theorem pattern_of_not_hasTag (h : ¬ HasTag cs) : pattern cs = cs := by
  unfold pattern
  simp only [replaceTags_of_not_hasTag h]

/-- A section without a tag is taken as it is, and names no color. -/
theorem prepare_of_not_hasTag (h : ¬ HasTag cs) : prepare cs = .ok (cs, none) := by
  rw [prepare_eq, colorTags_of_not_hasTag h, pattern_of_not_hasTag h]

/-- A character is left by a replacement only if it was there, where the rule puts none of its kind
in. -/
theorem mem_of_mem_replaceTags (hrule : ∀ content t, rule content = some t → c ∈ t → c ∈ content)
    (h : c ∈ replaceTags rule cs) : c ∈ cs := by
  fun_induction replaceTags rule cs with
  | case1 => exact h
  | case2 d rest content rest' htag text htext ih =>
    rw [eq_of_takeTag? htag]
    rcases List.mem_append.1 h with hc | hc
    · exact List.mem_cons_of_mem _ (List.mem_append_left _ (hrule content text htext hc))
    · exact List.mem_cons_of_mem _ (List.mem_append_right _ (List.mem_cons_of_mem _ (ih hc)))
  | case3 d rest content rest' htag htext ih =>
    exact List.mem_cons.2 ((List.mem_cons.1 h).imp_right ih)
  | case4 d rest htag ih => exact List.mem_cons.2 ((List.mem_cons.1 h).imp_right ih)

/-- When all tags are dropped, none is left: what follows an opening bracket that stays has no
closing one. -/
theorem not_hasTag_dropped (cs : List Char) : ¬ HasTag (replaceTags (fun _ => some []) cs) := by
  generalize hrule : (fun _ : List Char => some ([] : List Char)) = rule
  have hsome : ∀ content, rule content = some [] := fun content => by rw [← hrule]
  fun_induction replaceTags rule cs with
  | case1 => exact fun h => by cases h
  | case2 d rest content rest' htag text htext ih =>
    cases (hsome content).symm.trans htext
    exact ih
  | case3 d rest content rest' htag htext ih => cases (hsome content).symm.trans htext
  | case4 d rest htag ih =>
    intro h
    rcases hasTag_cons.1 h with hrest | ⟨rfl, hmem⟩
    · exact ih hrest
    · have hclosed : ']' ∈ rest := by
        refine mem_of_mem_replaceTags (fun content t ht hc => ?_) hmem
        cases (hsome content).symm.trans ht
        cases hc
      have hsome := takeTag?_bracket hclosed
      rw [htag] at hsome
      cases hsome

/-- What is left of a section has no tag. -/
theorem not_hasTag_pattern (raw : List Char) : ¬ HasTag (pattern raw) := not_hasTag_dropped _

/-! ## Literals and dates -/

theorem brackets_literal (cs : List Char) : (brackets (literal cs)).Sublist (brackets cs) := by
  fun_induction literal cs with
  | case1 => exact List.Sublist.refl _
  | case2 c => exact List.Sublist.refl _
  | case3 d rest content rest' hcut ih =>
    rw [(eq_of_cutAt? hcut).1, brackets_append, brackets_cons_of_ne (by decide), brackets_append,
      brackets_cons_of_ne (by decide)]
    exact (List.Sublist.refl _).append ih
  | case4 d rest hcut ih => exact brackets_cons_sublist ih _
  | case5 c rest _ ih => exact brackets_cons_sublist ih _
  | case6 d rest _ _ ih =>
    exact (brackets_cons_sublist ih d).trans (brackets_sublist_cons _ _)
  | case7 d rest _ _ _ ih =>
    rw [brackets_cons_of_ne (by decide)]
    exact ih.trans ((brackets_sublist_cons _ _).trans (brackets_sublist_cons _ _))
  | case8 d rest _ _ _ _ ih =>
    exact ih.trans ((brackets_sublist_cons _ _).trans (brackets_sublist_cons _ _))
  | case9 c d rest _ _ _ _ _ ih => exact brackets_cons_sublist ih _

theorem noBracket_of_numeral (h : ∀ c ∈ cs, isNumeralChar c = true) : brackets cs = [] := by
  refine brackets_eq_nil fun c hc => ⟨?_, ?_⟩
  · exact Text.ne_of_kind (h c hc) (by decide)
  · exact Text.ne_of_kind (h c hc) (by decide)

theorem brackets_getD {names : List String} (h : ∀ name ∈ names, brackets name.toList = [])
    (n : Nat) : brackets (names.getD n "").toList = [] := by
  rw [List.getD_eq_getElem?_getD]
  cases hname : names[n]? with
  | none => rfl
  | some name => exact h name (List.mem_of_getElem? hname)

theorem brackets_abbreviation {name : String} (h : brackets name.toList = []) :
    brackets (Calendar.abbreviation name).toList = [] := by
  unfold Calendar.abbreviation
  rw [String.toList_ofList]
  refine List.sublist_nil.1 ?_
  rw [← h]
  exact (List.take_sublist 3 _).filter _

theorem DatePart.brackets_text (part : DatePart) (date : Calendar.Date) :
    brackets (part.text date).toList = [] := by
  have hnumber : ∀ width n, brackets (Calendar.paddedText width n).toList = [] := fun width n =>
    noBracket_of_numeral (Calendar.paddedText_numeral width n).forall_mem
  have hmonth : brackets date.monthName.toList = [] := brackets_getD (by decide) _
  have hweekday : brackets date.weekdayName.toList = [] := brackets_getD (by decide) _
  cases part with
  | monthName => exact hmonth
  | monthShort => exact brackets_abbreviation hmonth
  | weekdayName => exact hweekday
  | weekdayShort => exact brackets_abbreviation hweekday
  | _ => exact hnumber _ _

theorem brackets_fillDate (date : Calendar.Date) (cs : List Char) :
    (brackets (fillDate date cs)).Sublist (brackets cs) := by
  fun_induction fillDate date cs with
  | case1 => exact List.Sublist.refl _
  | case2 c rest part length htoken ih =>
    rw [brackets_append, part.brackets_text, List.nil_append]
    refine ih.trans (((List.drop_sublist _ rest).filter _).trans (brackets_sublist_cons c rest))
  | case3 c rest htoken ih => exact brackets_cons_sublist ih c

/-- The characters of a piece of a pattern, without the quotes. -/
def Piece.chars : Piece → List Char
  | .quoted content => content
  | .bare c => [c]

/-- Taken apart into pieces, a pattern loses nothing but quotes. -/
theorem brackets_pieces (cs : List Char) :
    brackets ((pieces cs).flatMap Piece.chars) = brackets cs := by
  fun_induction pieces cs with
  | case1 => rfl
  | case2 rest content rest' hcut ih =>
    rw [(eq_of_cutAt? hcut).1, brackets_cons_of_ne (by decide), brackets_append,
      brackets_cons_of_ne (by decide), List.flatMap_cons, brackets_append, ih]
    rfl
  | case3 rest hcut ih =>
    rw [List.flatMap_cons, brackets_append, ih, ← brackets_append]
    rfl
  | case4 c rest hc ih =>
    rw [List.flatMap_cons, brackets_append, ih, ← brackets_append]
    rfl

theorem flatMap_runs (ps : List Piece) :
    (runs ps).1 ++ (runs ps).2.flatMap (fun m => m.1 ++ m.2) = ps.flatMap Piece.chars := by
  induction ps with
  | nil => rfl
  | cons p rest ih =>
    rw [List.flatMap_cons, ← ih]
    cases p with
    | quoted content =>
      show [] ++ List.flatMap _ ((content, (runs rest).1) :: (runs rest).2) = content ++ _
      rw [List.nil_append, List.flatMap_cons, List.append_assoc]
    | bare c => rfl

theorem brackets_renderDate (date : Calendar.Date) (s : List Char) :
    (brackets (renderDate date s).toList).Sublist (brackets s) := by
  have hmore : ∀ more : List (List Char × List Char),
      (brackets (more.flatMap fun m => m.1 ++ fillDate date m.2)).Sublist
        (brackets (more.flatMap fun m => m.1 ++ m.2)) := by
    intro more
    induction more with
    | nil => exact List.Sublist.refl _
    | cons m rest ih =>
      simp only [List.flatMap_cons, brackets_append]
      exact ((List.Sublist.refl _).append (brackets_fillDate date m.2)).append ih
  rw [← brackets_pieces s, ← flatMap_runs]
  unfold renderDate
  dsimp only
  rw [String.toList_ofList, brackets_append, brackets_append]
  exact (brackets_fillDate date _).append (hmore _)

/-! ## Numbers -/

theorem eq_of_cutAround? {part : List Char} (h : cutAround? part cs = some (a, b)) :
    cs = a ++ part ++ b := by
  induction cs generalizing a with
  | nil =>
    unfold cutAround? at h
    split at h
    · next hnil =>
      cases h
      rw [List.isEmpty_iff.1 hnil]
      rfl
    · cases h
  | cons c rest ih =>
    unfold cutAround? at h
    split at h
    · next hprefix =>
      cases h
      rw [List.nil_append]
      exact (List.prefix_iff_eq_append.1 (List.isPrefixOf_iff_prefix.1 hprefix)).symm
    · obtain ⟨⟨x, y⟩, hcut, heq⟩ := Option.map_eq_some_iff.1 h
      cases heq
      rw [ih hcut]
      rfl

theorem brackets_fillPattern {x : Number} {places body : List Char}
    (h : fillPattern x places = .ok body) : brackets body = [] := by
  unfold fillPattern at h
  cases hx : x.toFloat with
  | error f =>
    rw [hx] at h
    cases h
  | ok y =>
    rw [hx] at h
    cases h
    exact noBracket_of_numeral (Numeral.fixed_numeral _ _ _)

theorem brackets_renderPlaces {x : Number} {s body : List Char}
    (h : renderPlaces x s = .ok body) : (brackets body).Sublist (brackets s) := by
  unfold renderPlaces at h
  split at h
  · cases h
    exact brackets_literal s
  · next places _ =>
    obtain ⟨filled, hfilled, h⟩ := exists_of_bind h
    have hnone := brackets_fillPattern hfilled
    split at h
    · cases h
      rw [hnone]
      exact List.nil_sublist _
    · next before behind hcut =>
      cases h
      rw [eq_of_cutAround? hcut]
      simp only [brackets_append, hnone, List.append_nil]
      exact ((brackets_literal before).trans (List.sublist_append_left _ _)).append
        (brackets_literal behind)

theorem brackets_renderNumber {x : Number} {s body : List Char}
    (h : renderNumber x s = .ok body) : (brackets body).Sublist (brackets s) := by
  rw [renderNumber_eq] at h
  obtain ⟨y, -, h⟩ := exists_of_bind h
  exact brackets_renderPlaces h

/-! ## Values -/

section

variable {v : Value} {x : Number} {s : Shown}

theorem not_hasTag_of_numeral {t : String} (h : NumeralText t.toList) : ¬ HasTag t.toList := by
  intro htag
  have hnil := hasTag_brackets.2 htag
  rw [noBracket_of_numeral h.forall_mem] at hnil
  cases hnil

theorem not_hasTag_showPlain (hv : ∀ t, v.display = .ok t → NumeralText t.toList)
    (h : showPlain v = .ok s) : ¬ HasTag s.text.toList := by
  obtain ⟨t, ht, h⟩ := exists_of_bind h
  cases h
  exact not_hasTag_of_numeral (hv t ht)

theorem not_hasTag_showNumber (hv : ∀ t, v.display = .ok t → NumeralText t.toList)
    {sections : List (List Char)} (h : showNumber v x sections = .ok s) :
    ¬ HasTag s.text.toList := by
  have hpattern := not_hasTag_pattern (sectionFor x sections)
  obtain ⟨minus, y, -, heq⟩ := showNumber_eq v x sections
  rw [heq] at h
  obtain ⟨⟨_, color⟩, hprepare, h⟩ := exists_of_bind h
  cases pattern_of_prepare hprepare
  dsimp only at h
  split at h
  · obtain ⟨date, -, h⟩ := exists_of_bind h
    split at h
    · cases h
      exact fun htag => hpattern (htag.of_brackets (brackets_renderDate _ _))
    · exact not_hasTag_showPlain hv h
  · obtain ⟨body, hbody, h⟩ := exists_of_bind h
    cases h
    intro htag
    rw [String.toList_ofList] at htag
    refine hpattern (htag.of_brackets ?_)
    cases minus with
    | false => exact brackets_renderNumber hbody
    | true =>
      rw [if_pos rfl, brackets_cons_of_ne (by decide)]
      exact brackets_renderNumber hbody

/-- The serial number of a date is a number or, beyond the doubles, nothing. -/
theorem serialOf_cases {w : Value} (h : serialOf v = .ok w) :
    w = .null ∨ ∃ x : Number, w = x.toValue := by
  obtain ⟨number, -, h⟩ := exists_of_bind h
  cases h
  cases number with
  | none => exact .inl rfl
  | some x => exact .inr ⟨x, rfl⟩

theorem not_hasTag_showDate {date : Calendar.Date} {sections : List (List Char)}
    (h : showDate date (serialOf v) sections = .ok s) : ¬ HasTag s.text.toList := by
  obtain ⟨⟨_, color⟩, hprepare, h⟩ := exists_of_bind h
  cases pattern_of_prepare hprepare
  dsimp only at h
  split at h
  · cases h
    exact fun htag => not_hasTag_pattern _ (htag.of_brackets (brackets_renderDate _ _))
  · obtain ⟨w, hw, h⟩ := exists_of_bind h
    rcases serialOf_cases hw with rfl | ⟨x, rfl⟩
    · cases h
      decide
    · have hnumber : numberOf? x.toValue = .ok (some x) := by cases x <;> rfl
      rw [hnumber] at h
      exact not_hasTag_showNumber (fun _ => Number.display_numeral) h

/-- A number or a date never shows a tag, whatever the format. -/
theorem not_hasTag_display {format : String} (hv : (∃ x : Number, v = x.toValue) ∨ v.IsDated)
    (h : display v (some format) = .ok s) : ¬ HasTag s.text.toList := by
  have hplain : ∀ t, v.display = .ok t → NumeralText t.toList := by
    intro t ht
    rcases hv with ⟨x, rfl⟩ | hv
    · exact Number.display_numeral ht
    · exact hv.display_numeral ht
  cases hf : isPlain format with
  | true =>
    rw [display_of_plain hf] at h
    exact not_hasTag_showPlain hplain h
  | false =>
    rcases hv with ⟨x, rfl⟩ | ⟨d⟩ | ⟨t⟩
    · rw [display_of_number hf x.countsAs] at h
      exact not_hasTag_showNumber hplain h
    · rw [display_of_not_plain hf] at h
      exact not_hasTag_showDate h
    · rw [display_of_not_plain hf] at h
      exact not_hasTag_showDate h

end

end Format

end Spreadsheet
