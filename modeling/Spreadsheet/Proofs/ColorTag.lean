import Spreadsheet.Proofs.SectionScan

/-!
# What a color tag changes

A color tag in front of a format is taken out of the section and names the color
(`prepare_tagged`); all that follows reads what is left of the section, so that the text is the
same with and without the tag (`display_text_congr`). Only the formats that leave values as they
are are recognized before the tag is taken out: behind a tag such a format is a section like
others, and shows its own letters in place of a number (`showNumber_plain`). So the tag changes the
text of every value that a format can change (`display_tagged_text_iff`).
-/

namespace Spreadsheet

open Numeral Text

/-! ## Characters of plain formats -/

theorem isDigit_of_plain {c : Char} (h : isPlainChar c = true) : isDigit c = false := by
  have letters : ∀ d ∈ ['g', 'e', 'n', 'r', 'a', 'l'], isDigit d = false :=
    forall_mem_of_all (by decide)
  unfold isPlainChar at h
  rw [Bool.or_eq_true, Bool.or_eq_true] at h
  rcases h with (hblank | hat) | hletter
  · exact forall_blank hblank (by decide)
  · rw [eq_of_beq hat]
    decide
  · have hmem := List.contains_iff_mem.1 hletter
    unfold lowerAscii at hmem
    split at hmem
    · next hcapital =>
      have hlow : 65 ≤ c.toNat := hcapital.1
      have hhigh : c.toNat ≤ 90 := hcapital.2
      have hdigit : ¬ ('0' ≤ c ∧ c ≤ '9') := fun h => by
        have hnine : c.toNat ≤ 57 := h.2
        omega
      unfold isDigit digitValue?
      rw [if_pos (by omega), if_neg hdigit]
      rfl
    · exact letters c hmem

theorem lowerAscii_ne_of_numeral {c : Char} (h : isNumeralChar c = true) : lowerAscii c ≠ 'g' := by
  have marks : ∀ d ∈ "+-.,:einfaT".toList, lowerAscii d ≠ 'g' := forall_mem_of_all (by decide)
  unfold isNumeralChar at h
  rw [Bool.or_eq_true] at h
  rcases h with hdigit | hmark
  · intro hg
    have hle : c.toNat ≤ 57 := (of_decide_eq_true hdigit : '0' ≤ c ∧ c ≤ '9').2
    have hsame : lowerAscii c = c := if_neg fun hcapital => by
      have hlow : 65 ≤ c.toNat := hcapital.1
      omega
    rw [hsame] at hg
    rw [hg] at hdigit
    exact absurd hdigit (by decide)
  · exact marks c (List.contains_iff_mem.1 hmark)

/-- A text without a digit writes no number. -/
theorem DecimalText.read?_eq_none {cs : List Char} (h : ∀ c ∈ cs, isDigit c = false) :
    DecimalText.read? cs = none := by
  have hbody : ∀ c ∈ (takeSign cs).2, isDigit c = false := by
    intro c hc
    refine h c ?_
    unfold takeSign at hc
    split at hc
    · exact List.mem_cons_of_mem _ hc
    · exact List.mem_cons_of_mem _ hc
    · exact hc
  have none_taken : ∀ {ds : List Char}, (∀ c ∈ ds, isDigit c = false) →
      ds.takeWhile isDigit = [] ∧ ds.dropWhile isDigit = ds := by
    intro ds hds
    cases ds with
    | nil => exact ⟨rfl, rfl⟩
    | cons d rest =>
      have hd : ¬ isDigit d = true := Bool.eq_false_iff.1 (hds d List.mem_cons_self)
      exact ⟨List.takeWhile_cons_of_neg hd, List.dropWhile_cons_of_neg hd⟩
  have htail : ∀ c ∈ (takeSign cs).2.tail, isDigit c = false := fun c hc =>
    hbody c (List.mem_of_mem_tail hc)
  unfold DecimalText.read?
  dsimp only
  rw [(none_taken hbody).1, (none_taken hbody).2]
  split
  · rw [(none_taken htail).1]
    rfl
  · rfl

namespace Format

variable {tag f raw raw' s : List Char} {color color' : Option String} {v : Value} {x : Number}

/-- A plain format is empty or has a character that no text of a number or date has. -/
theorem eq_nil_or_exists_of_plain (h : isPlain (String.ofList f) = true) :
    f = [] ∨ ∃ c ∈ f, isNumeralChar c = false := by
  unfold isPlain at h
  rw [String.toList_ofList, Bool.or_eq_true, Bool.or_eq_true] at h
  rcases h with (hempty | hat) | hword
  · rw [beq_iff_eq, String.ofList_eq_empty_iff] at hempty
    exact .inl hempty
  · refine .inr ⟨'@', mem_of_mem_trimBy (p := isBlank) ?_, by decide⟩
    rw [show trimBy isBlank f = ['@'] from eq_of_beq hat]
    exact List.mem_singleton_self _
  · have hg : 'g' ∈ (trimBy isBlank f).map lowerAscii := by
      rw [show (trimBy isBlank f).map lowerAscii = _ from eq_of_beq hword]
      exact List.mem_cons_self
    obtain ⟨c, hc, hlower⟩ := List.mem_map.1 hg
    refine .inr ⟨c, mem_of_mem_trimBy hc, Bool.eq_false_iff.2 fun hnumeral => ?_⟩
    exact lowerAscii_ne_of_numeral hnumeral hlower

/-! ## The tag -/

theorem isAsciiLetter_of_mem_colors {name : String} {c : Char} (hname : name ∈ colors)
    (hc : c ∈ name.toList) : isAsciiLetter c = true := by
  have letters : ∀ name ∈ colors, name.toList.all isAsciiLetter = true := by decide
  exact List.all_eq_true.1 (letters name hname) c hc

/-- The letters of a tag that names a color are letters, in some sense, so none is a mark. -/
theorem not_mem_of_colorOf? {mark : Char} (hmark : tagLetter mark = mark)
    (hletter : isAsciiLetter mark = false) (h : (colorOf? tag).isSome = true) : mark ∉ tag := by
  intro hmem
  obtain ⟨name, hname⟩ := Option.isSome_iff_exists.1 h
  unfold colorOf? at hname
  have hsame : name.toList = tag.map tagLetter :=
    eq_of_beq (List.find?_some (p := fun name : String => name.toList == tag.map tagLetter) hname)
  have hmark' : mark ∈ name.toList := by
    rw [hsame, List.mem_map]
    exact ⟨mark, hmem, hmark⟩
  rw [isAsciiLetter_of_mem_colors (List.mem_of_find?_eq_some hname) hmark'] at hletter
  cases hletter

/-- A name of a color with letters in either case of ASCII names that color. -/
theorem colorOf?_of_lowerAscii (tag : List Char) {name : String} (hname : name ∈ colors)
    (h : tag.map lowerAscii = name.toList) :
    colorOf? tag = some name ∧ isFalseColor tag = false := by
  have found : ∀ name ∈ colors, colors.find? (fun other => other.toList == name.toList) =
      some name := by
    decide
  have hascii : ∀ c ∈ tag, isAsciiLetter (lowerAscii c) = true := by
    intro c hc
    refine isAsciiLetter_of_mem_colors hname ?_
    rw [← h]
    exact List.mem_map_of_mem hc
  -- The letters beyond ASCII are no capitals of ASCII, so they would stay.
  have hother : ∀ c ∈ tag, ∀ d, isAsciiLetter (lowerAscii d) = false → c ≠ d := by
    rintro c hc d hd rfl
    rw [hascii c hc] at hd
    cases hd
  have hmap : tag.map tagLetter = name.toList := by
    rw [← h]
    refine List.map_congr_left fun c hc => ?_
    have hi := hother c hc '\u0130' (by decide)
    have hi' := hother c hc '\u0131' (by decide)
    unfold tagLetter
    rw [if_neg (hother c hc '\u212a' (by decide)), if_neg (not_or.2 ⟨hi, hi'⟩)]
  constructor
  · unfold colorOf?
    rw [hmap]
    exact found name hname
  · refine List.any_eq_false.2 fun c hc => ?_
    rw [Bool.or_eq_true, beq_iff_eq, beq_iff_eq]
    exact not_or.2 ⟨hother c hc _ (by decide), hother c hc _ (by decide)⟩

theorem takeTag?_tagged (h : ']' ∉ tag) (f : List Char) : takeTag? (tagged tag f) = some (tag, f) :=
  cutAt?_append h f

theorem replaceTags_tagged {rule : List Char → Option (List Char)} {text : List Char}
    (h : ']' ∉ tag) (htext : rule tag = some text) (f : List Char) :
    replaceTags rule (tagged tag f) = text ++ replaceTags rule f := by
  have htake := takeTag?_tagged h f
  unfold tagged at htake ⊢
  rw [replaceTags]
  split
  · next heq =>
    cases htake.symm.trans heq
    rw [htext]
  · next heq => cases htake.symm.trans heq

theorem colorTags_tagged (h : ']' ∉ tag) (hcolor : (colorOf? tag).isSome = true) (f : List Char) :
    colorTags (tagged tag f) = tag :: colorTags f := by
  have htake := takeTag?_tagged h f
  unfold tagged at htake ⊢
  rw [colorTags]
  split
  · next heq =>
    cases htake.symm.trans heq
    rw [if_pos hcolor]
  · next heq => cases htake.symm.trans heq

/-- The color tag is taken out and names the color. -/
theorem prepare_tagged (hcolor : (colorOf? tag).isSome = true) (htrue : isFalseColor tag = false)
    (hf : ¬ HasTag f) : prepare (tagged tag f) = .ok (f, colorOf? tag) := by
  have hclose : ']' ∉ tag := not_mem_of_colorOf? (by decide) (by decide) hcolor
  obtain ⟨name, hname⟩ := Option.isSome_iff_exists.1 hcolor
  have hrule : (colorOf? tag).map (fun _ => ([] : List Char)) = some [] := by
    rw [hname]
    rfl
  have hpattern : pattern (tagged tag f) = f := by
    unfold pattern
    dsimp only
    rw [replaceTags_tagged hclose hrule, List.nil_append]
    simp only [replaceTags_of_not_hasTag hf]
  rw [prepare_eq, colorTags_tagged hclose hcolor, hpattern]
  dsimp only
  rw [if_neg (Bool.eq_false_iff.1 htrue)]

/-! ## The text depends on what is left of a section -/

theorem showPlain_text (v : Value) : (showPlain v).map Shown.text = v.display := by
  unfold showPlain
  cases v.display <;> rfl

theorem showNumber_text_congr (h : prepare raw = .ok (s, color))
    (h' : prepare raw' = .ok (s, color')) (v : Value) (x : Number) :
    (showNumber v x [raw]).map Shown.text = (showNumber v x [raw']).map Shown.text := by
  rw [showNumber_single h, showNumber_single h']
  split
  · cases dateOfNumber x.abs with
    | error f => rfl
    | ok date => cases date <;> rfl
  · cases renderNumber x.abs s <;> rfl

theorem showDate_text_congr (h : prepare raw = .ok (s, color))
    (h' : prepare raw' = .ok (s, color')) (date : Calendar.Date) (serial : Except Fault Value) :
    (showDate date serial [raw]).map Shown.text = (showDate date serial [raw']).map Shown.text := by
  rw [showDate_single h, showDate_single h']
  split
  · rfl
  · cases serial with
    | error f => rfl
    | ok w =>
      show (numberOf? w >>= _).map Shown.text = (numberOf? w >>= _).map Shown.text
      cases numberOf? w with
      | error f => rfl
      | ok number =>
        cases number with
        | none => cases w <;> rfl
        | some x => exact showNumber_text_congr h h' w x

/-- Two formats of one section each, of which the same is left without tags, show the same text. -/
theorem display_text_congr (hraw : isPlain (String.ofList raw) = false)
    (hraw' : isPlain (String.ofList raw') = false) (hsingle : splitSections raw = [raw])
    (hsingle' : splitSections raw' = [raw']) (h : prepare raw = .ok (s, color))
    (h' : prepare raw' = .ok (s, color')) (v : Value) :
    (display v (some (String.ofList raw))).map Shown.text =
      (display v (some (String.ofList raw'))).map Shown.text := by
  rw [display_of_not_plain hraw, display_of_not_plain hraw', String.toList_ofList,
    String.toList_ofList, hsingle, hsingle']
  cases v with
  | int n => exact showNumber_text_congr h h' _ _
  | float x => exact showNumber_text_congr h h' _ _
  | text t =>
    show (Value.numberOfText t >>= _).map Shown.text = (Value.numberOfText t >>= _).map Shown.text
    cases Value.numberOfText t with
    | error f => rfl
    | ok number =>
      cases number with
      | none => rfl
      | some x => exact showNumber_text_congr h h' _ x
  | date d => exact showDate_text_congr h h' _ _
  | moment t => exact showDate_text_congr h h' _ _
  | _ => rfl

/-! ## A plain format as a section -/

section

variable (hplain : isPlain (String.ofList f) = true)

include hplain

/-- As a section a plain format is a mere literal. -/
theorem plain_section : isDateSection f = false ∧ ∀ x, renderNumber x f = .ok f := by
  have hchar : ∀ c ∈ f, isPlainChar c = true := fun c hc => isPlainChar_of_mem hplain hc
  have hmark : ∀ {c d : Char}, c ∈ f → isPlainChar d = false → c ≠ d := fun hc hd =>
    ne_of_kind (hchar _ hc) hd
  have hbare : outsideQuotes f = f :=
    outsideQuotes_of_noQuote fun hc => hmark hc (by decide) rfl
  have hplaces : ∀ c ∈ f, isPlace c = false ∧ c ≠ '.' := by
    refine fun c hc => ⟨Bool.eq_false_iff.2 fun hplace => ?_, hmark hc (by decide)⟩
    rcases isPlace_cases hplace with rfl | rfl | rfl <;> exact hmark hc (by decide) rfl
  have hliteral : literal f = f := literal_eq_self fun c hc hmem => by
    have marks : ∀ d ∈ ['"', '\\', '_', '*'], isPlainChar d = false :=
      forall_mem_of_all (by decide)
    exact hmark hc (marks c hmem) rfl
  constructor
  · unfold isDateSection
    dsimp only
    rw [hbare, hasDateToken_eq_false fun c hc => isDateLetter_of_plain (hchar c hc), Bool.and_false]
  · intro x
    have hpercent : timesPercent x f = .ok x := by
      refine if_neg fun hmem => ?_
      rw [hbare] at hmem
      exact hmark (List.contains_iff_mem.1 hmem) (by decide) rfl
    rw [renderNumber_eq, hpercent]
    show renderPlaces x f = _
    unfold renderPlaces
    rw [hbare, findPattern?_eq_none hplaces, hliteral]

/-- A number is shown as the letters of the format, perhaps with a minus sign. -/
theorem showNumber_plain (h : prepare raw = .ok (f, color)) (v : Value) (x : Number) :
    showNumber v x [raw] =
      .ok ⟨String.ofList (if x.isNegative then '-' :: f else f), color⟩ := by
  obtain ⟨hdate, hrender⟩ := plain_section hplain
  rw [showNumber_single h, if_neg (Bool.eq_false_iff.1 hdate), hrender]
  rfl

theorem plain_ne_numeral {t : String} (ht : NumeralText t.toList) (minus : Bool) :
    String.ofList (if minus then '-' :: f else f) ≠ t := by
  rintro rfl
  rw [String.toList_ofList] at ht
  rcases eq_nil_or_exists_of_plain hplain with rfl | ⟨c, hc, hnot⟩
  · obtain ⟨d, hd, hne⟩ := ht.notSign
    cases minus with
    | false => cases hd
    | true => exact hne (List.mem_singleton.1 hd)
  · have hmem : c ∈ if minus then '-' :: f else f := by
      cases minus with
      | false => exact hc
      | true => exact List.mem_cons_of_mem _ hc
    rw [ht.forall_mem c hmem] at hnot
    cases hnot

theorem numberOfText_plain (minus : Bool) :
    Value.numberOfText (String.ofList (if minus then '-' :: f else f)) = .ok none := by
  have hdigit : ∀ c ∈ stripChars (if minus then '-' :: f else f), isDigit c = false := by
    intro c hc
    have hmem := mem_of_mem_trimBy hc
    cases minus with
    | false => exact isDigit_of_plain (isPlainChar_of_mem hplain hmem)
    | true =>
      rcases List.mem_cons.1 hmem with rfl | hmem
      · decide
      · exact isDigit_of_plain (isPlainChar_of_mem hplain hmem)
  unfold Value.numberOfText
  rw [String.toList_ofList, DecimalText.read?_eq_none hdigit]

/-- Behind a tag a plain format changes the text of a date or a moment. -/
theorem showDate_plain_ne (h : prepare raw = .ok (f, color)) (hv : v.IsDated)
    (date : Calendar.Date) :
    (showDate date (serialOf v) [raw]).map Shown.text ≠ v.display := by
  obtain ⟨t, ht⟩ : ∃ t, v.display = .ok t := by
    cases hv <;> exact ⟨_, rfl⟩
  have hnumeral := hv.display_numeral ht
  rw [showDate_single h, if_neg (Bool.eq_false_iff.1 (plain_section hplain).1), ht]
  cases hserial : serialOf v with
  | error e => exact fun heq => by cases heq
  | ok w =>
    rcases serialOf_cases hserial with rfl | ⟨x, rfl⟩
    · -- A moment without serial number is shown as nothing.
      intro heq
      have hempty : "" = t := Except.ok.inj heq
      obtain ⟨c, hc, -⟩ := hnumeral.notSign
      rw [← hempty] at hc
      cases hc
    · have hnumber : numberOf? x.toValue = .ok (some x) := by cases x <;> rfl
      show (numberOf? x.toValue >>= _).map Shown.text ≠ _
      rw [hnumber]
      show (showNumber x.toValue x [raw]).map Shown.text ≠ _
      rw [showNumber_plain hplain h]
      exact fun heq => plain_ne_numeral hplain hnumeral _ (Except.ok.inj heq)

end

/-! ## All values -/

/-- Under a single section some values are shown as they are. -/
theorem display_unformatted (hsingle : splitSections raw = [raw]) (hv : v.Unformatted) :
    display v (some (String.ofList raw)) = showPlain v := by
  cases hplain : isPlain (String.ofList raw) with
  | true => exact display_of_plain hplain v
  | false =>
    rw [display_of_not_plain hplain, String.toList_ofList, hsingle]
    cases hv with
    | null => rfl
    | bool b => rfl
    | @text s h =>
      show (Value.numberOfText s >>= _) = _
      rw [h]
      rfl
    | collection h => cases h <;> rfl

/-- Behind a tag a plain format changes the text of each value that a format can change. -/
theorem display_tagged_ne (hplain : isPlain (String.ofList f) = true)
    (hraw : isPlain (String.ofList raw) = false) (hsingle : splitSections raw = [raw])
    (h : prepare raw = .ok (f, color)) (hv : ¬ v.Unformatted) :
    (display v (some (String.ofList raw))).map Shown.text ≠ v.display := by
  rw [display_of_not_plain hraw, String.toList_ofList, hsingle]
  have hnumber : ∀ x : Number, (showNumber v x [raw]).map Shown.text =
      .ok (String.ofList (if x.isNegative then '-' :: f else f)) := by
    intro x
    rw [showNumber_plain hplain h]
    rfl
  cases v with
  | null => exact absurd .null hv
  | bool b => exact absurd (.bool b) hv
  | list items => exact absurd (.collection (.list items)) hv
  | record fields => exact absurd (.collection (.record fields)) hv
  | date d => exact showDate_plain_ne hplain h (.date d) d
  | moment t => exact showDate_plain_ne hplain h (.moment t) t.date
  | int n =>
    intro heq
    have htext := (hnumber (.int n)).symm.trans heq
    exact plain_ne_numeral hplain (Number.display_numeral (x := .int n) htext.symm) _ rfl
  | float x =>
    intro heq
    have htext := (hnumber (.float x)).symm.trans heq
    exact plain_ne_numeral hplain (Number.display_numeral (x := .float x) htext.symm) _ rfl
  | text t =>
    show (Value.numberOfText t >>= _).map Shown.text ≠ .ok t
    cases hread : Value.numberOfText t with
    | error e => exact fun heq => by cases heq
    | ok number =>
      cases number with
      | none => exact absurd (.text hread) hv
      | some x =>
        intro heq
        have htext : String.ofList (if x.isNegative then '-' :: f else f) = t :=
          Except.ok.inj ((hnumber x).symm.trans heq)
        have hnone := numberOfText_plain hplain x.isNegative
        rw [htext, hread] at hnone
        cases hnone

/-- **What a color tag changes.** In front of a format of one section without brackets and quotes a
tag that names a color leaves the text of a value as it is exactly when the format is not plain or
the value is one that no format changes. -/
theorem display_tagged_text_iff (tag f : List Char) (v : Value)
    (hcolor : (colorOf? tag).isSome = true) (htrue : isFalseColor tag = false)
    (hf : ∀ c ∈ f, c ∉ ['"', '[', ']', ';']) :
    (display v (some (String.ofList (tagged tag f)))).map Shown.text =
        (display v (some (String.ofList f))).map Shown.text ↔
      isPlain (String.ofList f) = false ∨ v.Unformatted := by
  have htag : ¬ HasTag f := fun h => hf _ (h.subset List.mem_cons_self) (by decide)
  have hprepare := prepare_tagged hcolor htrue htag
  have hraw : isPlain (String.ofList (tagged tag f)) = false :=
    isPlain_eq_false (c := '[') List.mem_cons_self (by decide)
  have hsingle : splitSections f = [f] := splitSections_bare (ne_marks hf)
  have hsingle' : splitSections (tagged tag f) = [tagged tag f] := by
    have hquote : '"' ∉ tag := not_mem_of_colorOf? (by decide) (by decide) hcolor
    have hcut : ';' ∉ tag := not_mem_of_colorOf? (by decide) (by decide) hcolor
    refine splitSections_bare (List.forall_mem_cons.2 ⟨by decide, List.forall_mem_append.2
      ⟨fun c hc => ⟨?_, ?_⟩, List.forall_mem_cons.2 ⟨by decide, ne_marks hf⟩⟩⟩)
    · exact ne_of_mem_of_not_mem hc hquote
    · exact ne_of_mem_of_not_mem hc hcut
  constructor
  · intro h
    by_contra hneither
    obtain ⟨hplain, hv⟩ := not_or.1 hneither
    have hplain : isPlain (String.ofList f) = true := Bool.not_eq_false _ ▸ hplain
    rw [display_of_plain hplain, showPlain_text] at h
    exact display_tagged_ne hplain hraw hsingle' hprepare hv h
  · rintro (hplain | hv)
    · exact display_text_congr hraw hplain hsingle' hsingle hprepare
        (prepare_of_not_hasTag htag) v
    · rw [display_unformatted hsingle' hv, display_unformatted hsingle hv]

theorem red_keeps_places :
    (display (.int 5) (some (String.ofList (tagged ['r', 'E', 'd'] ['0', '.', '0'])))).map
      Shown.text = .ok "5.0" := by
  obtain ⟨hred, htrue⟩ := colorOf?_of_lowerAscii ['r', 'E', 'd']
    (show "red" ∈ colors by decide) (by decide)
  have hcolor : (colorOf? ['r', 'E', 'd']).isSome = true := by
    rw [hred]
    rfl
  have hsame := (display_tagged_text_iff ['r', 'E', 'd'] ['0', '.', '0'] (.int 5) hcolor htrue
    (forall_mem_of_all (by decide))).2 (.inl (by decide))
  exact hsame.trans (by decide +kernel)

/-- A tag does not always keep the text: behind it the format for values as they are is a mere
word. -/
theorem red_general_shows_word :
    ¬ ∀ (tag f : List Char) (v : Value), (colorOf? tag).isSome = true → isFalseColor tag = false →
      (∀ c ∈ f, c ∉ ['"', '[', ']', ';']) →
      (display v (some (String.ofList (tagged tag f)))).map Shown.text =
        (display v (some (String.ofList f))).map Shown.text := by
  intro h
  have hsame := h ['R', 'e', 'd'] "General".toList (.int 5) (by decide) (by decide)
    (forall_mem_of_all (by decide))
  have hword : (display (.int 5) (some (String.ofList
      (tagged ['R', 'e', 'd'] "General".toList)))).map Shown.text = .ok "General" := by
    decide +kernel
  have hfive : (display (.int 5) (some (String.ofList "General".toList))).map Shown.text =
      .ok "5" := by decide +kernel
  rw [hword, hfive] at hsame
  exact absurd (Except.ok.inj hsame) (by decide)

end Format

end Spreadsheet
