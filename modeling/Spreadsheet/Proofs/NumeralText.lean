import Spreadsheet.Format.Refusal
import Spreadsheet.Numeral.Reading

/-!
# Characters of the texts of numbers and dates

A number or a date that is shown as it is, or a number that fills digit places, has a text of digits
and of few other characters (`Value.display_numeral`, `fixed_numeral`). None of these is a bracket,
an at sign or a `g`, and the text is never empty or a mere sign, so that it is neither a tag nor one
of the formats that leave a value as it is.
-/

namespace Spreadsheet

open Numeral Text Calendar

/-- The character is a digit, a sign or a mark between digits, or a letter of an exponent, of
infinity, of a double that is no number or of a moment.
-/
def isNumeralChar (c : Char) : Bool := isAsciiDigit c || "+-.,:einfaT".toList.contains c

/-- A text of such characters that is more than a sign. -/
structure NumeralText (cs : List Char) : Prop where
  forall_mem : ∀ c ∈ cs, isNumeralChar c = true
  notSign : ∃ c ∈ cs, c ≠ '-'

theorem isNumeralChar_of_digit {c : Char} (h : isAsciiDigit c = true) : isNumeralChar c = true := by
  unfold isNumeralChar
  rw [h, Bool.true_or]

namespace NumeralText

variable {cs ds : List Char}

theorem cons {c : Char} (hc : isNumeralChar c = true) (h : NumeralText cs) :
    NumeralText (c :: cs) := by
  obtain ⟨d, hd, hne⟩ := h.notSign
  exact ⟨List.forall_mem_cons.2 ⟨hc, h.forall_mem⟩, d, List.mem_cons_of_mem _ hd, hne⟩

theorem append (h : NumeralText cs) (hds : ∀ c ∈ ds, isNumeralChar c = true) :
    NumeralText (cs ++ ds) := by
  obtain ⟨d, hd, hne⟩ := h.notSign
  exact ⟨List.forall_mem_append.2 ⟨h.forall_mem, hds⟩, d, List.mem_append_left _ hd, hne⟩

theorem signed (h : NumeralText cs) (negative : Bool) :
    NumeralText (if negative then '-' :: cs else cs) := by
  cases negative with
  | false => exact h
  | true => exact h.cons (by decide)

theorem of_digits (hne : cs ≠ []) (h : ∀ c ∈ cs, isAsciiDigit c = true) : NumeralText cs := by
  obtain ⟨c, rest, rfl⟩ := List.exists_cons_of_ne_nil hne
  refine ⟨fun d hd => isNumeralChar_of_digit (h d hd), c, List.mem_cons_self, ?_⟩
  exact ne_of_kind (h c List.mem_cons_self) (by decide)

end NumeralText

/-! ## Whole numbers -/

namespace Numeral

theorem digitsOf_ne_nil (n : Nat) : digitsOf n ≠ [] := Nat.toDigits_ne_nil

theorem digitsOf_numeral (n : Nat) : NumeralText (digitsOf n) :=
  .of_digits (digitsOf_ne_nil n) fun _ => isAsciiDigit_of_mem_digitsOf

theorem toString_int_numeral (n : Int) : NumeralText (toString n).toList := by
  cases n with
  | ofNat n =>
    show NumeralText (Nat.repr n).toList
    rw [Nat.toList_repr]
    exact digitsOf_numeral n
  | negSucc n =>
    show NumeralText ("-" ++ Nat.repr (n + 1)).toList
    rw [String.toList_append, Nat.toList_repr]
    exact (digitsOf_numeral (n + 1)).signed true

theorem forall_mem_groupThousands_go {p : Char → Prop} (hcomma : p ',') {cs : List Char}
    (h : ∀ c ∈ cs, p c) (k : Nat) : ∀ c ∈ groupThousands.go k cs, p c := by
  induction cs generalizing k with
  | nil => exact h
  | cons d rest ih =>
    obtain ⟨hd, hrest⟩ := List.forall_mem_cons.1 h
    unfold groupThousands.go
    split
    · exact List.forall_mem_cons.2 ⟨hcomma, List.forall_mem_cons.2 ⟨hd, ih hrest (k + 1)⟩⟩
    · exact List.forall_mem_cons.2 ⟨hd, ih hrest (k + 1)⟩

theorem forall_mem_groupThousands {p : Char → Prop} (hcomma : p ',') {cs : List Char}
    (h : ∀ c ∈ cs, p c) : ∀ c ∈ groupThousands cs, p c := by
  intro c hc
  refine forall_mem_groupThousands_go hcomma (fun d hd => ?_) 0 c (List.mem_reverse.1 hc)
  exact h d (List.mem_reverse.1 hd)

theorem forall_mem_padZeros {p : Char → Prop} (hzero : p '0') {cs : List Char}
    (h : ∀ c ∈ cs, p c) (width : Nat) : ∀ c ∈ padZeros width cs, p c := by
  refine List.forall_mem_append.2 ⟨fun c hc => ?_, h⟩
  rw [List.eq_of_mem_replicate hc]
  exact hzero

/-! ## Doubles -/

theorem placesText_numeral (q places : Nat) (grouped : Bool) :
    ∀ c ∈ placesText q places grouped, isNumeralChar c = true := by
  have hdigits : ∀ c ∈ padZeros (places + 1) (digitsOf q), isNumeralChar c = true :=
    forall_mem_padZeros (by decide) (digitsOf_numeral q).forall_mem _
  unfold placesText
  refine List.forall_mem_append.2 ⟨?_, ?_⟩
  · split
    · exact forall_mem_groupThousands (by decide) fun c hc => hdigits c (List.mem_of_mem_take hc)
    · exact fun c hc => hdigits c (List.mem_of_mem_take hc)
  · split
    · exact fun c hc => absurd hc List.not_mem_nil
    · exact List.forall_mem_cons.2 ⟨by decide, fun c hc => hdigits c (List.mem_of_mem_drop hc)⟩

theorem nonFiniteText_numeral (negative : Bool) {name : String} (h : name = "nan" ∨ name = "inf") :
    NumeralText (nonFiniteText negative name).toList := by
  have hname : NumeralText name.toList := by
    rcases h with rfl | rfl
    · exact ⟨forall_mem_of_all (by decide), 'n', by decide, by decide⟩
    · exact ⟨forall_mem_of_all (by decide), 'i', by decide, by decide⟩
  cases negative with
  | false => exact hname
  | true =>
    show NumeralText ("-" ++ name).toList
    rw [String.toList_append]
    exact hname.signed true

/-- A number with a fixed count of places. -/
theorem fixed_numeral (x : Float) (places : Nat) (grouped : Bool) :
    ∀ c ∈ (fixed x places grouped).toList, isNumeralChar c = true := by
  unfold fixed
  split
  · exact forall_mem_of_all (by decide)
  · exact (nonFiniteText_numeral _ (.inr rfl)).forall_mem
  · rw [String.toList_ofList]
    split
    · exact List.forall_mem_cons.2 ⟨by decide, placesText_numeral _ _ _⟩
    · exact placesText_numeral _ _ _

theorem forall_mem_dropTrailingZeros {p : Char → Prop} {cs : List Char} (h : ∀ c ∈ cs, p c) :
    ∀ c ∈ dropTrailingZeros cs, p c := by
  intro c hc
  have hmem := (List.dropWhile_suffix _).subset (List.mem_reverse.1 hc)
  exact h c (List.mem_reverse.1 hmem)

theorem exponentText_numeral (e : Int) : NumeralText (exponentText e) := by
  refine ⟨?_, 'e', List.mem_cons_self, by decide⟩
  refine List.forall_mem_cons.2 ⟨by decide, List.forall_mem_cons.2 ⟨?_, ?_⟩⟩
  · split <;> decide
  · exact forall_mem_padZeros (by decide) (digitsOf_numeral _).forall_mem _

theorem Layout.text_numeral (layout : Layout) {digits : List Char}
    (h : ∀ c ∈ digits, isAsciiDigit c = true) (e : Int) : NumeralText (layout.text digits e) := by
  have hnumeral : ∀ c ∈ digits, isNumeralChar c = true := fun c hc =>
    isNumeralChar_of_digit (h c hc)
  have hzeros : ∀ k, ∀ c ∈ List.replicate k '0', isAsciiDigit c = true := by
    intro k c hc
    rw [List.eq_of_mem_replicate hc]
    decide
  unfold Layout.text
  split
  · split
    · refine ⟨?_, '0', List.mem_cons_self, by decide⟩
      refine List.forall_mem_cons.2 ⟨by decide, List.forall_mem_cons.2 ⟨by decide, ?_⟩⟩
      exact List.forall_mem_append.2 ⟨fun c hc => isNumeralChar_of_digit (hzeros _ c hc), hnumeral⟩
    · -- The whole part is as long as the exponent asks for, so it is not empty.
      have hwhole : NumeralText (digits.take (e.toNat + 1) ++
          List.replicate (e.toNat + 1 - digits.length) '0') := by
        refine .of_digits (fun hnil => ?_) (List.forall_mem_append.2
          ⟨fun c hc => h c (List.mem_of_mem_take hc), hzeros _⟩)
        have hlength := congrArg List.length hnil
        simp only [List.length_append, List.length_take, List.length_replicate,
          List.length_nil] at hlength
        omega
      dsimp only
      split
      · split
        · exact hwhole.append (forall_mem_of_all (by decide))
        · exact hwhole
      · exact hwhole.append (List.forall_mem_cons.2
          ⟨by decide, fun c hc => hnumeral c (List.mem_of_mem_drop hc)⟩)
  · split
    · exact exponentText_numeral e
    · exact (exponentText_numeral e).cons (hnumeral _ List.mem_cons_self)
    · next d rest _ =>
      have hrest : ∀ c ∈ d :: rest, isNumeralChar c = true := hnumeral
      obtain ⟨hd, hrest⟩ := List.forall_mem_cons.1 hrest
      obtain ⟨hexponent, c, hc, hne⟩ := exponentText_numeral e
      refine ⟨List.forall_mem_cons.2 ⟨hd, List.forall_mem_cons.2 ⟨by decide,
        List.forall_mem_append.2 ⟨hrest, hexponent⟩⟩⟩, c, ?_, hne⟩
      exact List.mem_cons_of_mem _ (List.mem_cons_of_mem _ (List.mem_append_right _ hc))

theorem roundedDigits_digits (m : Nat) (e : Int) (count : Nat) :
    ∀ c ∈ (roundedDigits m e count).1, isAsciiDigit c = true := by
  unfold roundedDigits
  dsimp only
  split
  · exact fun c hc => isAsciiDigit_of_mem_digitsOf (List.mem_of_mem_take hc)
  · exact fun c hc => isAsciiDigit_of_mem_digitsOf hc

theorem significant_numeral (x : Float) (count : Nat) :
    NumeralText (significant x count).toList := by
  unfold significant
  split
  · exact nonFiniteText_numeral false (.inl rfl)
  · exact nonFiniteText_numeral _ (.inr rfl)
  · next m e _ =>
    rw [String.toList_ofList]
    refine NumeralText.signed ?_ _
    split
    · exact .of_digits (by decide) (forall_mem_of_all (by decide))
    · exact displayLayout.text_numeral
        (forall_mem_dropTrailingZeros (roundedDigits_digits m e count)) _

end Numeral

theorem displayFloat_numeral (x : Float) : NumeralText (Value.displayFloat x).toList := by
  unfold Value.displayFloat
  split
  · split
    · exact toString_int_numeral _
    · exact significant_numeral x 10
  · exact significant_numeral x 10

theorem integerText_numeral {n : Int} {s : String} (h : integerText n = .ok s) :
    NumeralText s.toList := by
  unfold integerText integerText? at h
  dsimp only at h
  split at h
  · next heq =>
    split at heq
    · cases heq
      cases h
      rw [String.toList_ofList]
      have hsigned := (digitsOf_numeral n.natAbs).signed (decide (n < 0))
      simpa using hsigned
    · cases heq
  · cases h

/-- The text of a number as it is. -/
theorem Number.display_numeral {x : Number} {s : String} (h : x.toValue.display = .ok s) :
    NumeralText s.toList := by
  cases x with
  | int n => exact integerText_numeral (n := n) h
  | float x =>
    cases h
    exact displayFloat_numeral x

/-! ## Dates -/

namespace Calendar

theorem paddedText_digits (width n : Nat) :
    ∀ c ∈ (paddedText width n).toList, isAsciiDigit c = true := by
  unfold paddedText
  rw [String.toList_ofList]
  exact forall_mem_padZeros (by decide) (fun c hc => isAsciiDigit_of_mem_digitsOf hc) width

theorem paddedText_numeral (width n : Nat) : NumeralText (paddedText width n).toList := by
  refine .of_digits (fun hnil => ?_) (paddedText_digits width n)
  unfold paddedText at hnil
  rw [String.toList_ofList] at hnil
  exact Nat.toDigits_ne_nil (List.append_eq_nil_iff.1 hnil).2

theorem Date.isoText_numeral (d : Date) : NumeralText d.isoText.toList := by
  unfold Date.isoText
  simp only [String.toList_append]
  refine (((paddedText_numeral _ _).append ?_).append (paddedText_numeral _ _).forall_mem).append ?_
    |>.append (paddedText_numeral _ _).forall_mem
  · exact forall_mem_of_all (by decide)
  · exact forall_mem_of_all (by decide)

theorem offsetText_numeral (offset : Int) : ∀ c ∈ (offsetText offset).toList, isNumeralChar c := by
  have hsign : ∀ c ∈ (if offset < 0 then "-" else "+").toList, isNumeralChar c = true := by
    split <;> exact forall_mem_of_all (by decide)
  unfold offsetText
  simp only [String.toList_append, List.forall_mem_append]
  refine ⟨⟨⟨⟨hsign, (paddedText_numeral _ _).forall_mem⟩, forall_mem_of_all (by decide)⟩,
    (paddedText_numeral _ _).forall_mem⟩, ?_⟩
  split
  · exact forall_mem_of_all (by decide)
  · rw [String.toList_append]
    exact List.forall_mem_append.2
      ⟨forall_mem_of_all (by decide), (paddedText_numeral _ _).forall_mem⟩

theorem Moment.isoText_numeral (t : Moment) : NumeralText (t.isoText "T").toList := by
  have hmicros : ∀ micro, ∀ c ∈ (if micro = 0 then "" else "." ++ paddedText 6 micro).toList,
      isNumeralChar c = true := by
    intro micro
    split
    · exact forall_mem_of_all (by decide)
    · rw [String.toList_append]
      exact List.forall_mem_append.2
        ⟨forall_mem_of_all (by decide), (paddedText_numeral _ _).forall_mem⟩
  have hoffset : ∀ c ∈ ((t.offset.map offsetText).getD "").toList, isNumeralChar c = true := by
    cases t.offset with
    | none => exact forall_mem_of_all (by decide)
    | some offset => exact offsetText_numeral offset
  unfold Moment.isoText
  simp only [String.toList_append, List.append_assoc]
  refine t.date.isoText_numeral.append ?_
  simp only [List.forall_mem_append]
  have hcolon : ∀ c ∈ ":".toList, isNumeralChar c = true := forall_mem_of_all (by decide)
  exact ⟨forall_mem_of_all (by decide), (paddedText_numeral _ _).forall_mem, hcolon,
    (paddedText_numeral _ _).forall_mem, hcolon, (paddedText_numeral _ _).forall_mem,
    hmicros _, hoffset⟩

end Calendar

/-- The text of a date or a moment as it is. -/
theorem Value.IsDated.display_numeral {v : Value} {s : String} (hv : v.IsDated)
    (h : v.display = .ok s) : NumeralText s.toList := by
  cases hv with
  | date d =>
    have htext : d.isoText = s := Except.ok.inj h
    rw [← htext]
    exact d.isoText_numeral
  | moment t =>
    have htext : t.isoText "T" = s := Except.ok.inj h
    rw [← htext]
    exact t.isoText_numeral

end Spreadsheet
