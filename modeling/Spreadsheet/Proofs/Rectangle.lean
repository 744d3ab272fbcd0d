import Spreadsheet.Proofs.RangeReference

/-!
# The rectangle of a range

The positions that a range covers are those of the rectangle between its corners, each of them once,
row by row and from left to right (`expand_rectangle`). Only the position of a corner matters, not
how it is written, and any two opposite corners give the same list.
-/

namespace Spreadsheet.Reference

open Text Numeral

/-! ## Positions between two corners -/

theorem mem_between {low high n : Nat} : n ∈ between low high ↔ low ≤ n ∧ n ≤ high := by
  unfold between
  rw [List.mem_range'_1]
  omega

theorem between_increasing (low high : Nat) : (between low high).Pairwise (· < ·) :=
  List.pairwise_lt_range' 1

section

variable (a b : Coordinate)

theorem mem_rectangle {row col : Nat} : (row, col) ∈ rectangle a b ↔
    (min a.row b.row ≤ row ∧ row ≤ max a.row b.row) ∧
      min a.col b.col ≤ col ∧ col ≤ max a.col b.col := by
  unfold rectangle
  rw [List.mem_flatMap]
  constructor
  · rintro ⟨row', hrow, hmem⟩
    obtain ⟨col', hcol, heq⟩ := List.mem_map.1 hmem
    cases heq
    exact ⟨mem_between.1 hrow, mem_between.1 hcol⟩
  · rintro ⟨hrow, hcol⟩
    exact ⟨row, mem_between.2 hrow, List.mem_map.2 ⟨col, mem_between.2 hcol, rfl⟩⟩

theorem rectangle_increasing : (rectangle a b).Pairwise (Prod.Lex (· < ·) (· < ·)) := by
  unfold rectangle
  rw [List.pairwise_flatMap]
  constructor
  · -- Within a row the columns increase, from one row to the next the rows do.
    intro row _
    rw [List.pairwise_map]
    exact (between_increasing _ _).imp fun hcol => .right row hcol
  · refine (between_increasing _ _).imp fun hrow p hp q hq => ?_
    obtain ⟨col, -, rfl⟩ := List.mem_map.1 hp
    obtain ⟨col', -, rfl⟩ := List.mem_map.1 hq
    exact .left col col' hrow

theorem nodup_rectangle : (rectangle a b).Nodup := by
  refine List.Pairwise.imp (fun {p q} hlex heq => ?_) (rectangle_increasing a b)
  rw [heq] at hlex
  cases hlex with
  | left _ _ hlt => exact Nat.lt_irrefl _ hlt
  | right _ hlt => exact Nat.lt_irrefl _ hlt

theorem length_rectangle : (rectangle a b).length =
    (((a.row : Int) - b.row).natAbs + 1) * (((a.col : Int) - b.col).natAbs + 1) := by
  have side : ∀ m n : Nat, max m n + 1 - min m n = ((m : Int) - n).natAbs + 1 := by
    intro m n
    omega
  unfold rectangle between
  rw [List.length_flatMap]
  simp only [List.length_map, List.length_range', List.map_const', List.sum_replicate_nat, side]

theorem rectangle_eq {a b a' b' : Coordinate} (h : SameRectangle a b a' b') :
    rectangle a' b' = rectangle a b := by
  have corner : ∀ {m n m' n' : Nat}, m' = m ∧ n' = n ∨ m' = n ∧ n' = m →
      min m' n' = min m n ∧ max m' n' = max m n := by
    intro m n m' n' hsame
    omega
  unfold rectangle
  rw [(corner h.1).1, (corner h.1).2, (corner h.2).1, (corner h.2).2]

end

/-! ## Corners as they are written -/

/-- Marks, the case of letters and blanks do not change the position that is read. -/
theorem parse_restyled {text text' : String} {at_ : Coordinate} (hstyle : Restyled text text')
    (h : parse text = .ok (some at_)) :
    ∃ at', parse text' = .ok (some at') ∧ at'.row = at_.row ∧ at'.col = at_.col := by
  obtain ⟨s, t, hs, ht, hletters, hdigits⟩ := hstyle
  have hrow : t.rowNumber = s.rowNumber := by
    unfold Spelling.rowNumber
    rw [hdigits]
  have hcol : columnIndex (String.ofList t.letters) = columnIndex (String.ofList s.letters) := by
    unfold columnIndex
    rw [hletters]
  rw [s.parse_eq hs] at h
  split at h
  · cases h
  · next hlength =>
    split at h
    · cases h
    · next hnumber =>
      cases h
      refine ⟨t.coordinate, ?_, ?_, ?_⟩
      · rw [t.parse_eq ht, ← hdigits, if_neg hlength, hrow, if_neg hnumber]
      · unfold Spelling.coordinate
        rw [hrow]
      · unfold Spelling.coordinate
        rw [hcol]

section

variable {first last : String} {a b : Coordinate}

theorem expand_eq (hfirst : parse first = .ok (some a)) (hlast : parse last = .ok (some b)) :
    expand (first ++ ":" ++ last) = .ok (some (rectangle a b)) := by
  unfold expand
  rw [parseRange_of_corners (corners_of_parse hfirst hlast)]
  rfl

/-- **A range is its rectangle.** Two references with a colon between cover the positions from the
one row to the other and from the one column to the other, each of them once, row by row and from
left to right. The list is the same for any opposite corners of the rectangle, and for any marks, case
of letters and blanks around the references. -/
theorem expand_rectangle (hfirst : parse first = .ok (some a)) (hlast : parse last = .ok (some b)) :
    ∃ positions, expand (first ++ ":" ++ last) = .ok (some positions) ∧
      (∀ row col, (row, col) ∈ positions ↔
        (min a.row b.row ≤ row ∧ row ≤ max a.row b.row) ∧
          min a.col b.col ≤ col ∧ col ≤ max a.col b.col) ∧
      positions.Nodup ∧
      positions.Pairwise (Prod.Lex (· < ·) (· < ·)) ∧
      positions.length =
        (((a.row : Int) - b.row).natAbs + 1) * (((a.col : Int) - b.col).natAbs + 1) ∧
      (∀ first' last' a' b', parse first' = .ok (some a') → parse last' = .ok (some b') →
        SameRectangle a b a' b' → expand (first' ++ ":" ++ last') = .ok (some positions)) ∧
      ∀ first' last', Restyled first first' → Restyled last last' →
        expand (first' ++ ":" ++ last') = .ok (some positions) := by
  refine ⟨rectangle a b, expand_eq hfirst hlast, fun _ _ => mem_rectangle a b, nodup_rectangle a b,
    rectangle_increasing a b, length_rectangle a b, ?_, ?_⟩
  · intro first' last' a' b' hfirst' hlast' hsame
    rw [expand_eq hfirst' hlast', rectangle_eq hsame]
  · intro first' last' hstyle hstyle'
    obtain ⟨a', hfirst', hrow, hcol⟩ := parse_restyled hstyle hfirst
    obtain ⟨b', hlast', hrow', hcol'⟩ := parse_restyled hstyle' hlast
    rw [expand_eq hfirst' hlast', rectangle_eq ⟨.inl ⟨hrow, hrow'⟩, .inl ⟨hcol, hcol'⟩⟩]

end

/-- Four cells, between two corners, between the other two, and with other marks, letters and blanks
around the first ones. -/
theorem expand_rectangle_four :
    parse "B2" = .ok (some ⟨1, 1, false, false⟩) ∧ parse "a$1" = .ok (some ⟨0, 0, true, false⟩) ∧
    parse "A2" = .ok (some ⟨1, 0, false, false⟩) ∧ parse "B1" = .ok (some ⟨0, 1, false, false⟩) ∧
    Restyled "B2" " $b2" ∧ Restyled "a$1" "A1 " ∧
    ∃ positions, expand ("B2" ++ ":" ++ "a$1") = .ok (some positions) ∧ positions.length = 4 ∧
      expand ("A2" ++ ":" ++ "B1") = .ok (some positions) ∧
      expand (" $b2" ++ ":" ++ "A1 ") = .ok (some positions) := by
  have hfirst : parse "B2" = .ok (some ⟨1, 1, false, false⟩) := by rfl
  have hlast : parse "a$1" = .ok (some ⟨0, 0, true, false⟩) := by rfl
  have hother : parse "A2" = .ok (some ⟨1, 0, false, false⟩) := by rfl
  have hopposite : parse "B1" = .ok (some ⟨0, 1, false, false⟩) := by rfl
  have hstyle : Restyled "B2" " $b2" :=
    ⟨⟨false, ['B'], false, ['2'], by decide, forall_mem_of_all rfl, by decide, forall_mem_of_all rfl⟩,
      ⟨true, ['b'], false, ['2'], by decide, forall_mem_of_all rfl, by decide, forall_mem_of_all rfl⟩,
      by rfl, by rfl, by rfl, by rfl⟩
  have hstyle' : Restyled "a$1" "A1 " :=
    ⟨⟨false, ['a'], true, ['1'], by decide, forall_mem_of_all rfl, by decide, forall_mem_of_all rfl⟩,
      ⟨false, ['A'], false, ['1'], by decide, forall_mem_of_all rfl, by decide, forall_mem_of_all rfl⟩,
      by rfl, by rfl, by rfl, by rfl⟩
  obtain ⟨positions, hexpand, -, -, -, hlength, hcorners, hstyles⟩ := expand_rectangle hfirst hlast
  exact ⟨hfirst, hlast, hother, hopposite, hstyle, hstyle', positions, hexpand, hlength,
    hcorners _ _ _ _ hother hopposite ⟨.inl ⟨rfl, rfl⟩, .inr ⟨rfl, rfl⟩⟩,
    hstyles _ _ hstyle hstyle'⟩

end Spreadsheet.Reference
