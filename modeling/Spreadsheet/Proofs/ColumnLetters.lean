import Mathlib.Data.List.Induction
import Spreadsheet.Proofs.OperandText
import Spreadsheet.Reference.Coordinate

/-!
# Letters and indices of columns

Counted from 1, a column has the number that its letters write in base 26 with the digits 1 to 26
(`columnNumber`). Every number is written by one row of capitals, the one that `lettersOf` gives: the
last letter is the remainder of the predecessor, the others write its quotient.
-/

namespace Spreadsheet.Reference

open Text

/-- The number of the column with some capital letters, counted from 1. -/
def columnNumber (cs : List Char) : Nat := cs.foldl (fun n c => n * 26 + (c.toNat - 64)) 0

theorem columnNumber_concat (cs : List Char) (c : Char) :
    columnNumber (cs ++ [c]) = columnNumber cs * 26 + (c.toNat - 64) := by
  unfold columnNumber
  rw [List.foldl_append]
  rfl

/-- A capital letter by its place in the alphabet. -/
theorem toNat_capital {k : Nat} (hk : k < 26) : (Char.ofNat (65 + k)).toNat = 65 + k := by
  have all : ∀ k < 26, (Char.ofNat (65 + k)).toNat = 65 + k := by decide
  exact all k hk

theorem isCapital_iff {c : Char} : isCapital c = true ↔ 65 ≤ c.toNat ∧ c.toNat ≤ 90 :=
  decide_eq_true_iff

theorem lettersOf_zero : lettersOf 0 = [] := by
  rw [lettersOf, if_pos rfl]

theorem lettersOf_of_pos {n : Nat} (hn : 0 < n) :
    lettersOf n = lettersOf ((n - 1) / 26) ++ [Char.ofNat (65 + (n - 1) % 26)] := by
  rw [lettersOf, if_neg (Nat.ne_of_gt hn)]

theorem columnNumber_lettersOf (n : Nat) : columnNumber (lettersOf n) = n := by
  induction n using Nat.strongRecOn with
  | ind n ih =>
    obtain rfl | hn := Nat.eq_zero_or_pos n
    · rw [lettersOf_zero]
      rfl
    · have hlast := toNat_capital (Nat.mod_lt (n - 1) (by decide : 26 > 0))
      rw [lettersOf_of_pos hn, columnNumber_concat, ih _ (by omega), hlast]
      omega

theorem isCapital_of_mem_lettersOf {n : Nat} {c : Char} (h : c ∈ lettersOf n) :
    isCapital c = true := by
  induction n using Nat.strongRecOn with
  | ind n ih =>
    obtain rfl | hn := Nat.eq_zero_or_pos n
    · rw [lettersOf_zero] at h
      cases h
    · have hlast := toNat_capital (Nat.mod_lt (n - 1) (by decide : 26 > 0))
      rw [lettersOf_of_pos hn] at h
      rcases List.mem_append.1 h with h | h
      · exact ih _ (by omega) h
      · rw [List.mem_singleton.1 h, isCapital_iff, hlast]
        omega

theorem lettersOf_ne_nil {n : Nat} (hn : 0 < n) : lettersOf n ≠ [] := by
  rw [lettersOf_of_pos hn]
  exact List.concat_ne_nil _ _

theorem lettersOf_columnNumber {cs : List Char} (h : ∀ c ∈ cs, isCapital c = true) :
    lettersOf (columnNumber cs) = cs := by
  induction cs using List.reverseRecOn with
  | nil => exact lettersOf_zero
  | append_singleton cs c ih =>
    have hc := isCapital_iff.1 (h c (List.mem_append_right _ List.mem_cons_self))
    have hrest := ih fun d hd => h d (List.mem_append_left _ hd)
    have hquotient : (columnNumber cs * 26 + (c.toNat - 64) - 1) / 26 = columnNumber cs := by omega
    have hremainder : 65 + (columnNumber cs * 26 + (c.toNat - 64) - 1) % 26 = c.toNat := by omega
    rw [columnNumber_concat, lettersOf_of_pos (by omega), hquotient, hremainder, hrest,
      Char.ofNat_toNat]

theorem columnNumber_pos {cs : List Char} (hne : cs ≠ []) (h : ∀ c ∈ cs, isCapital c = true) :
    0 < columnNumber cs := by
  refine Nat.pos_of_ne_zero fun hzero => hne ?_
  rw [← lettersOf_columnNumber h, hzero, lettersOf_zero]

/-! ## Indices -/

theorem isAsciiLetter_of_isCapital {c : Char} (h : isCapital c = true) : isAsciiLetter c = true :=
  decide_eq_true (.inr (of_decide_eq_true h))

theorem lt_of_isAsciiLetter {c : Char} (h : isAsciiLetter c = true) : c.toNat < 0x80 :=
  (IsReferenceChar.of_letter h).2.2

/-- The upper case of letters is capitals. -/
theorem isCapital_of_mem_map {cs : List Char} (h : ∀ c ∈ cs, isAsciiLetter c = true) :
    ∀ c ∈ cs.map upperAscii, isCapital c = true := by
  intro c hc
  obtain ⟨d, hd, rfl⟩ := List.mem_map.1 hc
  rcases of_decide_eq_true (h d hd) with hsmall | hcapital
  · exact isCapital_upperAscii hsmall
  · have hd : isCapital d = true := decide_eq_true hcapital
    rw [(IsUpper.of_capital hd).1]
    exact hd

/-- Of capitals the distances from the character before `A` are the digits that are counted. -/
theorem foldl_capitals {cs : List Char} (h : ∀ c ∈ cs, isCapital c = true) (n : Nat) :
    cs.foldl (fun (n : Int) c => n * 26 + ((c.toNat : Int) - 64)) n =
      (cs.foldl (fun n c => n * 26 + (c.toNat - 64)) n : Nat) := by
  induction cs generalizing n with
  | nil => rfl
  | cons c rest ih =>
    have hc := isCapital_iff.1 (h c List.mem_cons_self)
    have hstep : (n : Int) * 26 + ((c.toNat : Int) - 64) = (n * 26 + (c.toNat - 64) : Nat) := by
      omega
    rw [List.foldl_cons, List.foldl_cons, hstep]
    exact ih (fun d hd => h d (List.mem_cons_of_mem _ hd)) _

section

variable {cs : List Char} (h : ∀ c ∈ cs, isAsciiLetter c = true)

include h

theorem upper_letters : upper (String.ofList cs) = String.ofList (cs.map upperAscii) :=
  upper_ascii fun c hc => lt_of_isAsciiLetter (h c hc)

/-- Letters are counted as their capitals. -/
theorem columnIndex_ofList :
    columnIndex (String.ofList cs) = (columnNumber (cs.map upperAscii) : Int) - 1 := by
  unfold columnIndex columnNumber
  rw [upper_letters h, String.toList_ofList, ← foldl_capitals (isCapital_of_mem_map h)]
  rfl

theorem columnIndex_nonneg (hne : cs ≠ []) : 0 ≤ columnIndex (String.ofList cs) := by
  have hpos := columnNumber_pos (fun hnil => hne (List.map_eq_nil_iff.1 hnil))
    (isCapital_of_mem_map h)
  rw [columnIndex_ofList h]
  omega

/-- The index of letters leads back to these letters as capitals. -/
theorem columnLetters_columnIndex :
    columnLetters (columnIndex (String.ofList cs)) = upper (String.ofList cs) := by
  unfold columnLetters
  rw [columnIndex_ofList h, Int.sub_add_cancel, Int.toNat_natCast,
    lettersOf_columnNumber (isCapital_of_mem_map h), upper_letters h]

end

/-- The upper case of capitals. -/
theorem upper_capitals {cs : List Char} (h : ∀ c ∈ cs, isCapital c = true) :
    upper (String.ofList cs) = String.ofList cs := by
  rw [upper_letters fun c hc => isAsciiLetter_of_isCapital (h c hc),
    map_upperAscii fun c hc => .of_capital (h c hc)]

/-- The letters of a column lead back to its index. -/
theorem columnIndex_columnLetters (n : Nat) : columnIndex (columnLetters n) = n := by
  have hcapitals : ∀ c ∈ lettersOf (n + 1), isCapital c = true := fun c hc =>
    isCapital_of_mem_lettersOf hc
  have hnumber : ((n : Int) + 1).toNat = n + 1 := rfl
  unfold columnLetters
  rw [hnumber, columnIndex_ofList fun c hc => isAsciiLetter_of_isCapital (hcapitals c hc),
    map_upperAscii fun c hc => .of_capital (hcapitals c hc), columnNumber_lettersOf]
  omega

end Spreadsheet.Reference
