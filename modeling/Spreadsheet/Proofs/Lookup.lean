import Spreadsheet.Proofs.RangeReference
import Spreadsheet.Workbook.LookupRefusal

/-!
# When lookups return

A lookup reads a reference or a range and takes the contents of the cells that it finds; a range
takes the number of each of them. Each of these steps fails for its own causes (`parse_faulty`,
`parseRange_faulty`, `number?_faulty`), and together they are the causes for which a lookup fails
(`lookups_return`).
-/

namespace Spreadsheet

open Numeral

/-- The number of a value cannot be taken for one of three causes. -/
theorem Value.number?_faulty (v : Value) : Faulty v.number? ↔ v.FailsAsNumber := by
  cases v with
  | int n =>
    have hint : (Value.int n).FailsAsNumber ↔ ofInt? n = none := by
      rw [ofInt?_eq_none_iff]
      exact ⟨fun h => by cases h with | int h => exact h, .int⟩
    rw [hint]
    unfold number?
    dsimp only
    cases ofInt? n with
    | none => exact iff_of_true ⟨_, rfl⟩ rfl
    | some x => exact iff_of_false (Faulty.ok_iff _).1 nofun
  | text s =>
    have htext : (Value.text s).FailsAsNumber ↔ LongNumeral s :=
      ⟨fun h => by cases h with | text h => exact h, .text⟩
    rw [htext]
    exact numberOfText_faulty s
  | moment t =>
    have hmoment : (Value.moment t).FailsAsNumber ↔ t.offset.isSome = true :=
      ⟨fun h => by cases h with | moment h => exact h, .moment⟩
    rw [hmoment]
    unfold number?
    dsimp only
    split
    · next h => exact iff_of_true ⟨_, rfl⟩ h
    · next h => exact iff_of_false (Faulty.ok_iff _).1 h
  | _ => exact iff_of_false (Faulty.ok_iff _).1 nofun

namespace Workbook

open Reference

theorem numbersOf_faulty (vs : List Value) :
    Faulty (numbersOf vs) ↔ ∃ v ∈ vs, v.FailsAsNumber := by
  induction vs with
  | nil => simp [numbersOf]
  | cons v rest ih =>
    rw [List.exists_mem_cons_iff, ← Value.number?_faulty, ← ih, numbersOf]
    refine Faulty.bind_or_iff fun n => ?_
    cases n with
    | none => exact Iff.rfl
    | some n => exact Faulty.bind_ok_iff fun _ => Faulty.pure_iff _

section

variable (w : Workbook) (table : TableId)

/-! ## Cells -/

theorem valueAt_faulty (reference : String) : Faulty (w.valueAt reference table) ↔
    (∃ n, w.tableIndex? table = some n) ∧ Overlong reference := by
  unfold valueAt
  cases w.tableIndex? table with
  | none => exact iff_of_false (Faulty.ok_iff _).1 fun ⟨⟨_, h⟩, _⟩ => by cases h
  | some n =>
    rw [← parse_faulty, and_iff_right ⟨n, rfl⟩]
    refine Faulty.bind_ok_iff fun at_ => ?_
    cases at_ with
    | none => exact Faulty.ok_iff _
    | some at_ =>
      dsimp only
      cases w.cell? n at_.row at_.col with
      | none => exact Faulty.ok_iff _
      | some c => exact Faulty.ok_iff _

section

variable {reference : String} {c : Cell}

theorem valueAt_of_parse {n : Nat} {at_ : Coordinate} (htable : w.tableIndex? table = some n)
    (hparse : parse reference = .ok (some at_)) : w.valueAt reference table =
      .ok ((w.cell? n at_.row at_.col).elim Sentinel.reference.value Cell.content) := by
  unfold valueAt
  rw [htable, hparse]
  dsimp only [Bind.bind, Except.bind]
  cases w.cell? n at_.row at_.col with
  | none => rfl
  | some c => rfl

theorem valueAt_of_names (h : w.Names reference table c) :
    w.valueAt reference table = .ok c.content := by
  obtain ⟨n, at_, htable, hparse, hcell⟩ := h
  rw [valueAt_of_parse w table htable hparse, hcell]
  rfl

theorem valueAt_of_not_names (hread : w.tableIndex? table = none ∨ ¬ Overlong reference)
    (h : ¬ ∃ c, w.Names reference table c) :
    w.valueAt reference table = .ok Sentinel.reference.value := by
  cases htable : w.tableIndex? table with
  | none =>
    unfold valueAt
    rw [htable]
  | some n =>
    rw [htable] at hread
    have hfaulty := mt (parse_faulty reference).1 (hread.resolve_left nofun)
    obtain ⟨read, hparse⟩ := Faulty.not_iff.1 hfaulty
    cases read with
    | none =>
      unfold valueAt
      rw [htable, hparse]
      rfl
    | some at_ =>
      rw [valueAt_of_parse w table htable hparse]
      cases hcell : w.cell? n at_.row at_.col with
      | none => rfl
      | some c => exact absurd ⟨c, n, at_, htable, hparse, hcell⟩ h

end

theorem not_index_and_iff {P : Prop} :
    ¬ ((∃ n, w.tableIndex? table = some n) ∧ P) ↔ w.tableIndex? table = none ∨ ¬ P := by
  rw [not_and_or, ← Option.isSome_iff_exists, Bool.not_eq_true, Option.isSome_eq_false_iff,
    Option.isNone_iff_eq_none]

/-! ## Ranges -/

theorem expand_faulty (range : String) : Faulty (expand range) ↔ OverlongRange range := by
  rw [← parseRange_faulty]
  exact Faulty.bind_ok_iff fun _ => Faulty.pure_iff _

theorem covers_iff {range : String} {c : Cell} {n : Nat} {positions : List (Nat × Nat)}
    (htable : w.tableIndex? table = some n) (hexpand : expand range = .ok (some positions)) :
    w.Covers range table c ↔ c ∈ w.cellsAt n positions := by
  unfold cellsAt
  rw [List.mem_filterMap]
  constructor
  · rintro ⟨n', positions', htable', hexpand', hcell⟩
    cases htable.symm.trans htable'
    cases hexpand.symm.trans hexpand'
    exact hcell
  · exact fun hcell => ⟨n, positions, htable, hexpand, hcell⟩

theorem numbersIn_faulty (range : String) : Faulty (w.numbersIn range table) ↔
    (∃ n, w.tableIndex? table = some n) ∧
      (OverlongRange range ∨ ∃ c, w.Covers range table c ∧ c.content.FailsAsNumber) := by
  unfold numbersIn
  cases htable : w.tableIndex? table with
  | none => exact iff_of_false (Faulty.ok_iff _).1 fun ⟨⟨_, h⟩, _⟩ => by cases h
  | some n =>
    rw [and_iff_right ⟨n, rfl⟩, ← expand_faulty]
    refine Faulty.bind_iff.trans (or_congr_right ?_)
    constructor
    · rintro ⟨positions, hexpand, hfaulty⟩
      cases positions with
      | none => exact absurd hfaulty (Faulty.ok_iff _).1
      | some positions =>
        obtain ⟨v, hv, hfails⟩ :=
          (numbersOf_faulty _).1 ((Faulty.bind_ok_iff fun _ => Faulty.pure_iff _).1 hfaulty)
        obtain ⟨c, hc, rfl⟩ := List.mem_map.1 hv
        exact ⟨c, (covers_iff w table htable hexpand).2 hc, hfails⟩
    · rintro ⟨c, ⟨n', positions, htable', hexpand, hcell⟩, hfails⟩
      have hc := (covers_iff w table htable hexpand).1 ⟨n', positions, htable', hexpand, hcell⟩
      refine ⟨some positions, hexpand, (Faulty.bind_ok_iff fun _ => Faulty.pure_iff _).2 ?_⟩
      exact (numbersOf_faulty _).2 ⟨_, List.mem_map_of_mem hc, hfails⟩

/-- **When lookups return.** The lookup of a reference returns unless the table exists and the row
number has more digits than text may have; it gives the content of the cell that the reference
names, or `#REF!` where it names none. The lookup of a range returns unless the table exists and
either a row number has too many digits or the content of a covered cell counts as a number that
cannot be taken. -/
theorem lookups_return :
    (∀ reference, (∃ v, w.valueAt reference table = .ok v) ↔
      w.tableIndex? table = none ∨ ¬ Overlong reference) ∧
    (∀ reference v, w.valueAt reference table = .ok v ↔
      (∃ c, w.Names reference table c ∧ v = c.content) ∨
        (w.tableIndex? table = none ∨ ¬ Overlong reference) ∧
          (¬ ∃ c, w.Names reference table c) ∧ v = Sentinel.reference.value) ∧
    ∀ range, (∃ numbers, w.numbersIn range table = .ok numbers) ↔
      w.tableIndex? table = none ∨
        ¬ (OverlongRange range ∨ ∃ c, w.Covers range table c ∧ c.content.FailsAsNumber) := by
  have returns : ∀ reference, (∃ v, w.valueAt reference table = .ok v) ↔
      w.tableIndex? table = none ∨ ¬ Overlong reference := fun reference => by
    rw [← Faulty.not_iff, valueAt_faulty, not_index_and_iff]
  refine ⟨returns, fun reference v => ⟨fun h => ?_, ?_⟩, fun range => ?_⟩
  · by_cases hnames : ∃ c, w.Names reference table c
    · obtain ⟨c, hc⟩ := hnames
      rw [valueAt_of_names w table hc] at h
      cases h
      exact .inl ⟨c, hc, rfl⟩
    · have hread := (returns reference).1 ⟨v, h⟩
      rw [valueAt_of_not_names w table hread hnames] at h
      cases h
      exact .inr ⟨hread, hnames, rfl⟩
  · rintro (⟨c, hc, rfl⟩ | ⟨hread, hnames, rfl⟩)
    · exact valueAt_of_names w table hc
    · exact valueAt_of_not_names w table hread hnames
  · rw [← Faulty.not_iff, numbersIn_faulty, not_index_and_iff]

end

/-- The reference to column `A` and a row number with one digit too many. -/
def farBelow : Spelling where
  absoluteCol := false
  letters := ['A']
  absoluteRow := false
  digits := List.replicate 4301 '1'
  letters_ne_nil := by decide
  all_letters := Text.forall_mem_of_all rfl
  digits_ne_nil := List.cons_ne_nil _ _
  all_digits c hc := by
    rw [List.eq_of_mem_replicate hc]
    decide

theorem numbersIn_large {n : Int} (hn : doubleLimit ≤ n.natAbs) :
    numbersIn [[[{ value := .int n }]]] "A1:A1" (.index 0) = .error .tooLarge := by
  have hexpand : expand "A1:A1" = .ok (some [(0, 0)]) := by rfl
  have hnumber : (Value.int n).number? = .error .tooLarge := by
    unfold Value.number?
    dsimp only
    rw [(ofInt?_eq_none_iff n).2 hn]
    rfl
  unfold numbersIn
  rw [hexpand]
  show (do return some (← numbersOf [.int n])) = _
  rw [numbersOf, hnumber]
  rfl

/-- The lookup of a row with one digit too many fails, and so does that of a range over a whole
number beyond the doubles. -/
theorem lookups_fail :
    valueAt [[[{ value := .int 1 }]]] (String.ofList ('A' :: List.replicate 4301 '1')) (.index 0) =
      .error .digitLimit ∧
    numbersIn [[[{ value := .int doubleLimit }]]] "A1:A1" (.index 0) = .error .tooLarge := by
  have hrow : parse (String.ofList ('A' :: List.replicate 4301 '1')) = .error .digitLimit := by
    have hlength : farBelow.digits.length = 4301 := List.length_replicate
    have hread := farBelow.parse_eq farBelow.spells_chars
    rw [hlength, if_pos (by decide)] at hread
    exact hread
  constructor
  · unfold valueAt
    rw [hrow]
    rfl
  · exact numbersIn_large (Int.natAbs_natCast doubleLimit).ge

end Workbook

end Spreadsheet
