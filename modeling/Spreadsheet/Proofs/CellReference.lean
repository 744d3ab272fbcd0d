import Mathlib.Data.List.Induction
import Spreadsheet.Proofs.ColumnLetters
import Spreadsheet.Proofs.Refusal
import Spreadsheet.Reference.Spelling

/-!
# References to cells

What is read from a text depends on nothing but its spelling (`Spelling.parse_eq`), and a text that
is not spelled as a reference is none (`exists_spells_or`). Written back, a position has the bare form
of its spelling (`make_coordinate`): reading and writing are inverse to one another
(`references_inverse`).
-/

namespace Spreadsheet.Reference

open Text Numeral

/-! ## Kinds of characters -/

theorem isAsciiDigit_of_isDigit {c : Char} (hc : c.toNat < 0x80) (h : isDigit c = true) :
    isAsciiDigit c = true := by
  unfold isDigit digitValue? at h
  rw [if_pos hc] at h
  split at h
  · next hrange => exact decide_eq_true hrange
  · cases h

theorem isAsciiLetter_of_isDigit {c : Char} (h : isDigit c = true) : isAsciiLetter c = false := by
  refine Bool.eq_false_iff.2 fun hletter => ?_
  have hdigit := isAsciiDigit_of_isDigit (lt_of_isAsciiLetter hletter) h
  rw [not_letter_of_digit hdigit] at hletter
  cases hletter

/-! ## Parts of a reference -/

theorem takeDollar_dollar {present : Bool} {rest : List Char}
    (h : ∀ c, rest.head? = some c → c ≠ '$') : takeDollar (dollar present ++ rest) = (present, rest) := by
  cases present with
  | true => rfl
  | false =>
    show takeDollar rest = (false, rest)
    unfold takeDollar
    split
    · exact absurd rfl (h '$' rfl)
    · rfl

theorem dollar_takeDollar (cs : List Char) : dollar (takeDollar cs).1 ++ (takeDollar cs).2 = cs := by
  unfold takeDollar
  split
  · rfl
  · rfl

namespace Spelling

variable (s : Spelling) {text : String}

theorem head_letters {c : Char} (h : s.letters.head? = some c) : isAsciiLetter c = true :=
  s.all_letters c (List.mem_of_head? h)

theorem head_digits {c : Char} (h : s.digits.head? = some c) : isDigit c = true :=
  s.all_digits c (List.mem_of_head? h)

/-- The characters of a reference. -/
theorem mem_chars {c : Char} (h : c ∈ s.chars) :
    c = '$' ∨ isAsciiLetter c = true ∨ isDigit c = true := by
  have mark : ∀ {present : Bool}, c ∈ dollar present → c = '$' := by
    intro present hc
    cases present with
    | false => cases hc
    | true => exact List.mem_singleton.1 hc
  unfold chars at h
  rcases List.mem_append.1 h with h | h
  · rcases List.mem_append.1 h with h | h
    · rcases List.mem_append.1 h with h | h
      · exact .inl (mark h)
      · exact .inr (.inl (s.all_letters c h))
    · exact .inl (mark h)
  · exact .inr (.inr (s.all_digits c h))

/-- The first mark is read, and what stands behind it is left. -/
theorem takeDollar_chars :
    takeDollar s.chars = (s.absoluteCol, s.letters ++ (dollar s.absoluteRow ++ s.digits)) := by
  unfold chars
  rw [List.append_assoc, List.append_assoc]
  refine takeDollar_dollar fun c hc => ?_
  rw [List.head?_append_of_ne_nil _ s.letters_ne_nil] at hc
  exact ne_of_kind (s.head_letters hc) (by decide)

theorem takeDollar_digits :
    takeDollar (dollar s.absoluteRow ++ s.digits) = (s.absoluteRow, s.digits) :=
  takeDollar_dollar fun _ hc => ne_of_kind (s.head_digits hc) (by decide)

/-- Behind the letters comes no other letter. -/
theorem stop {c : Char} (h : (dollar s.absoluteRow ++ s.digits).head? = some c) :
    isAsciiLetter c = false := by
  cases hmark : s.absoluteRow with
  | false =>
    rw [hmark] at h
    exact isAsciiLetter_of_isDigit (s.head_digits h)
  | true =>
    rw [hmark] at h
    cases h
    decide

/-- What is read from a text that is spelled as a reference. -/
theorem parse_eq (h : s.Spells text) :
    parse text = if maxDigits < s.digits.length then .error .digitLimit
      else .ok (if s.rowNumber = 0 then none else some s.coordinate) := by
  have hform : (s.letters.isEmpty || s.digits.isEmpty || !s.digits.all isDigit) = false := by
    rw [List.isEmpty_eq_false_iff.2 s.letters_ne_nil, List.isEmpty_eq_false_iff.2 s.digits_ne_nil,
      List.all_eq_true.2 s.all_digits]
    rfl
  unfold parse
  rw [h, takeDollar_chars]
  dsimp only
  rw [takeWhile_word s.all_letters fun _ => s.stop, dropWhile_word s.all_letters fun _ => s.stop,
    takeDollar_digits]
  dsimp only
  rw [hform]
  unfold coordinate rowNumber
  by_cases hlong : maxDigits < s.digits.length
  · rw [if_pos hlong, if_neg Bool.false_ne_true, if_pos hlong]
  · rw [if_neg hlong, if_neg Bool.false_ne_true, if_neg hlong]
    cases digitsValue s.digits with
    | zero => rfl
    | succ row => rfl

end Spelling

/-- A text is spelled as a reference, or nothing is read from it. -/
theorem exists_spells_or (text : String) : (∃ s : Spelling, s.Spells text) ∨ parse text = .ok none := by
  unfold parse
  generalize hcs : stripChars text.toList = cs
  have hchars := dollar_takeDollar cs
  generalize takeDollar cs = marked at hchars
  obtain ⟨absoluteCol, rest⟩ := marked
  dsimp only at hchars ⊢
  have hrest := dollar_takeDollar (rest.dropWhile isAsciiLetter)
  generalize takeDollar (rest.dropWhile isAsciiLetter) = marked at hrest
  obtain ⟨absoluteRow, digits⟩ := marked
  dsimp only at hrest ⊢
  split
  · exact .inr rfl
  · next hform =>
    simp only [Bool.or_eq_true, not_or, Bool.not_eq_true, Bool.not_eq_false', List.all_eq_true,
      List.isEmpty_eq_false_iff] at hform
    obtain ⟨⟨hletters, hdigits⟩, hall⟩ := hform
    refine .inl ⟨⟨absoluteCol, rest.takeWhile isAsciiLetter, absoluteRow, digits, hletters,
      fun c hc => List.mem_takeWhile_imp hc, hdigits, hall⟩, ?_⟩
    show stripChars text.toList = _ ++ _ ++ _ ++ digits
    rw [List.append_assoc, List.append_assoc, hrest, List.takeWhile_append_dropWhile, hchars, hcs]

theorem parse_of_not_spelled {text : String} (h : ¬ ∃ s : Spelling, s.Spells text) :
    parse text = .ok none :=
  (exists_spells_or text).resolve_left h

/-- A position is read from the texts that are spelled as a reference with a row number, which is not
zero and not too long. -/
theorem parse_eq_some_iff {text : String} {at_ : Coordinate} :
    parse text = .ok (some at_) ↔ ∃ s : Spelling, s.Spells text ∧ s.digits.length ≤ maxDigits ∧
      s.rowNumber ≠ 0 ∧ at_ = s.coordinate := by
  constructor
  · intro h
    obtain ⟨s, hs⟩ | hnone := exists_spells_or text
    · refine ⟨s, hs, ?_⟩
      rw [s.parse_eq hs] at h
      split at h
      · cases h
      · next hlength =>
        split at h
        · cases h
        · next hrow =>
          cases h
          exact ⟨Nat.le_of_not_lt hlength, hrow, rfl⟩
    · rw [hnone] at h
      cases h
  · rintro ⟨s, hs, hlength, hrow, rfl⟩
    rw [s.parse_eq hs, if_neg (Nat.not_lt.2 hlength), if_neg hrow]

/-- Reading a reference fails on a row number that is too long and on nothing else. -/
theorem parse_faulty (text : String) : Faulty (parse text) ↔ Overlong text := by
  constructor
  · intro h
    obtain ⟨s, hs⟩ | hnone := exists_spells_or text
    · refine ⟨s, hs, ?_⟩
      rw [s.parse_eq hs] at h
      by_contra hlength
      rw [if_neg hlength] at h
      exact (Faulty.ok_iff _).1 h
    · rw [hnone] at h
      exact absurd h (Faulty.ok_iff _).1
  · rintro ⟨s, hs, hlength⟩
    rw [s.parse_eq hs, if_pos hlength]
    exact ⟨_, rfl⟩

/-! ## Zeros before a number -/

theorem digitsValue_concat {ds : List Char} {c : Char} (h : ∀ d ∈ ds ++ [c], isAsciiDigit d = true) :
    digitsValue (ds ++ [c]) = digitsValue ds * 10 + (c.toNat - 48) := by
  unfold digitsValue
  rw [List.foldl_append, List.foldl_cons, List.foldl_nil,
    digitValue?_of_ascii (h c (List.mem_append_right _ List.mem_cons_self))]
  rfl

/-- A digit is the character of its value. -/
theorem digitChar_of_digit {c : Char} (h : isAsciiDigit c = true) :
    Nat.digitChar (c.toNat - 48) = c ∧ c.toNat - 48 < 10 ∧ (c.toNat = 48 ↔ c = '0') := by
  have hlast : c.toNat ≤ 57 := (of_decide_eq_true h).2
  have hascii : c.toNat < 128 := by omega
  revert h
  exact forall_ascii hascii (by decide)

/-- The digits of the number that digits write are those behind the zeros in front. -/
theorem dropWhile_zeros {ds : List Char} (h : ∀ d ∈ ds, isAsciiDigit d = true) :
    ds.dropWhile (· == '0') = if digitsValue ds = 0 then [] else digitsOf (digitsValue ds) := by
  induction ds using List.reverseRecOn with
  | nil => rfl
  | append_singleton ds c ih =>
    have hdigit := h c (List.mem_append_right _ List.mem_cons_self)
    have hlow : 48 ≤ c.toNat := (of_decide_eq_true hdigit).1
    obtain ⟨hchar, hlt, hzero⟩ := digitChar_of_digit hdigit
    rw [List.dropWhile_append, ih fun d hd => h d (List.mem_append_left _ hd), digitsValue_concat h]
    generalize digitsValue ds = n
    by_cases hn : n = 0
    · subst hn
      rw [if_pos rfl, List.isEmpty_nil, if_pos rfl, Nat.zero_mul, Nat.zero_add]
      by_cases hc : c = '0'
      · rw [if_pos (by rw [hzero.2 hc]), hc]
        rfl
      · rw [if_neg fun hsub => hc (hzero.1 (by omega)), List.dropWhile_cons,
          if_neg (by simpa using hc)]
        unfold digitsOf
        rw [Nat.toDigits_of_lt_base hlt, hchar]
    · have hne : digitsOf n ≠ [] := Nat.toDigits_ne_nil
      have hquotient : (n * 10 + (c.toNat - 48)) / 10 = n := by omega
      have hremainder : (n * 10 + (c.toNat - 48)) % 10 = c.toNat - 48 := by omega
      rw [if_neg hn, List.isEmpty_eq_false_iff.2 hne, if_neg Bool.false_ne_true, if_neg (by omega)]
      unfold digitsOf
      rw [Nat.toDigits_of_base_le (n := n * 10 + (c.toNat - 48)) (by decide) (by omega), hquotient,
        hremainder, hchar]

/-! ## Writing a reference -/

/-- The reference to a position, where its row number is not too long. -/
theorem make_eq {row : Nat} (col : Nat) (h : (digitsOf (row + 1)).length ≤ maxDigits) :
    make row col = .ok (columnLetters col ++ String.ofList (digitsOf (row + 1))) := by
  have htext : integerText (row + 1) = .ok (String.ofList (digitsOf (row + 1))) := by
    unfold integerText integerText?
    have hrow : ((row : Int) + 1).natAbs = row + 1 := rfl
    have hsign : ¬ (row : Int) + 1 < 0 := by omega
    rw [hrow]
    dsimp only
    rw [if_pos h, if_neg hsign]
  unfold make
  rw [htext]
  rfl

/-- The spelling of the reference to a position. -/
def Spelling.ofPosition (row col : Nat) : Spelling where
  absoluteCol := false
  letters := lettersOf (col + 1)
  absoluteRow := false
  digits := digitsOf (row + 1)
  letters_ne_nil := lettersOf_ne_nil (Nat.succ_pos col)
  all_letters _ hc := isAsciiLetter_of_isCapital (isCapital_of_mem_lettersOf hc)
  digits_ne_nil := Nat.toDigits_ne_nil
  all_digits _ hc := isDigit_of_ascii (isAsciiDigit_of_mem_digitsOf hc)

theorem Spelling.ofPosition_coordinate (row col : Nat) :
    (ofPosition row col).rowNumber = row + 1 ∧
      (ofPosition row col).coordinate = ⟨row, col, false, false⟩ := by
  have hrow : (ofPosition row col).rowNumber = row + 1 := digitsValue_digitsOf (row + 1)
  have hcol : columnIndex (String.ofList (lettersOf (col + 1))) = col :=
    columnIndex_columnLetters col
  refine ⟨hrow, ?_⟩
  unfold coordinate
  rw [hrow]
  show (⟨row, (columnIndex (String.ofList (lettersOf (col + 1)))).toNat, false, false⟩ : Coordinate) = _
  rw [hcol]
  rfl

theorem not_blank {c : Char} (h : c = '$' ∨ isAsciiLetter c = true ∨ isDigit c = true) :
    isBlank c = false := by
  refine Bool.eq_false_iff.2 fun hblank => ?_
  revert h
  exact forall_blank hblank (by decide)

/-- A reference without blanks around it. -/
theorem Spelling.spells_chars (s : Spelling) : s.Spells (String.ofList s.chars) := by
  unfold Spells
  rw [String.toList_ofList]
  exact trimBy_eq_self fun c hc => not_blank (s.mem_chars hc)

/-- The reference to a position is read as this position. -/
theorem parse_make {row : Nat} (col : Nat) (h : (digitsOf (row + 1)).length ≤ maxDigits) :
    ∃ text, make row col = .ok text ∧ parse text = .ok (some ⟨row, col, false, false⟩) := by
  obtain ⟨hrow, hat⟩ := Spelling.ofPosition_coordinate row col
  have htext : columnLetters col ++ String.ofList (digitsOf (row + 1)) =
      String.ofList (Spelling.ofPosition row col).chars := by
    have hchars : (Spelling.ofPosition row col).chars = lettersOf (col + 1) ++ digitsOf (row + 1) := by
      simp [Spelling.chars, Spelling.ofPosition, dollar]
    rw [hchars, String.ofList_append]
    rfl
  refine ⟨_, make_eq col h, ?_⟩
  rw [htext]
  refine parse_eq_some_iff.2 ⟨_, Spelling.spells_chars _, h, ?_, hat.symm⟩
  rw [hrow]
  exact Nat.succ_ne_zero row

/-- The reference to the position of a spelling in the digits of ASCII is its bare form. -/
theorem make_coordinate (s : Spelling) (hascii : ∀ c ∈ s.digits, isAsciiDigit c = true)
    (hlength : s.digits.length ≤ maxDigits) (hrow : s.rowNumber ≠ 0) :
    make s.coordinate.row s.coordinate.col = .ok s.bare := by
  have hzeros : s.digits.dropWhile (· == '0') = if s.rowNumber = 0 then [] else digitsOf s.rowNumber :=
    dropWhile_zeros hascii
  have hnumber : s.coordinate.row + 1 = s.rowNumber :=
    Nat.sub_add_cancel (Nat.pos_of_ne_zero hrow)
  have hcol : (s.coordinate.col : Int) = columnIndex (String.ofList s.letters) := by
    have hnonneg := columnIndex_nonneg s.all_letters s.letters_ne_nil
    unfold Spelling.coordinate
    dsimp only
    rw [Int.toNat_of_nonneg hnonneg]
  rw [if_neg hrow] at hzeros
  have hdigits : digitsOf (s.coordinate.row + 1) = s.digits.dropWhile (· == '0') := by
    rw [hnumber, hzeros]
  have hshort : (digitsOf (s.coordinate.row + 1)).length ≤ maxDigits := by
    rw [hdigits]
    exact (s.digits.dropWhile_sublist _).length_le.trans hlength
  rw [make_eq _ hshort, hdigits, hcol, columnLetters_columnIndex s.all_letters]
  rfl

/-! ## Reading and writing are inverse -/

/-- In a text of ASCII a row number has digits of ASCII, no more than the text has. -/
theorem Spelling.digits_ascii {s : Spelling} {text : String} (h : s.Spells text)
    (hascii : ∀ c ∈ text.toList, c.toNat < 0x80) :
    (∀ c ∈ s.digits, isAsciiDigit c = true) ∧
      s.digits.length ≤ text.toList.countP isAsciiDigit := by
  have hsublist : s.digits.Sublist text.toList := by
    have hstrip := trimBy_sublist isBlank text.toList
    have hchars : trimBy isBlank text.toList = s.chars := h
    rw [hchars] at hstrip
    exact (List.sublist_append_right
      (dollar s.absoluteCol ++ s.letters ++ dollar s.absoluteRow) s.digits).trans hstrip
  have hall : ∀ c ∈ s.digits, isAsciiDigit c = true := fun c hc =>
    isAsciiDigit_of_isDigit (hascii c (hsublist.mem hc)) (s.all_digits c hc)
  refine ⟨hall, ?_⟩
  rw [← List.countP_eq_length.2 hall]
  exact hsublist.countP_le

/-- **References and positions are inverse to one another.** The reference to a position is read as
this position. A text of ASCII without too many digits is read as a reference exactly when it is
spelled as one with a row number of at least 1, and the reference to what is read is the bare form of
the text. Indices and capital letters of columns lead to each other. -/
theorem references_inverse :
    (∀ row col : Nat, (digitsOf (row + 1)).length ≤ maxDigits →
      ∃ text, make row col = .ok text ∧ parse text = .ok (some ⟨row, col, false, false⟩)) ∧
    (∀ text : String, (∀ c ∈ text.toList, c.toNat < 0x80) →
      text.toList.countP isAsciiDigit ≤ maxDigits →
      (∃ read, parse text = .ok read) ∧
      ((∃ at_, parse text = .ok (some at_)) ↔ ∃ s : Spelling, s.Spells text ∧ 1 ≤ s.rowNumber) ∧
      ∀ (s : Spelling) (at_ : Coordinate), s.Spells text → parse text = .ok (some at_) →
        make at_.row at_.col = .ok s.bare) ∧
    (∀ n : Nat, columnIndex (columnLetters n) = n ∧ columnLetters n ≠ "" ∧
      ∀ c ∈ (columnLetters n).toList, isCapital c = true) ∧
    ∀ letters : String, letters ≠ "" → (∀ c ∈ letters.toList, isCapital c = true) →
      ∃ n : Nat, columnIndex letters = n ∧ columnLetters n = letters := by
  refine ⟨fun row col => parse_make col, fun text hascii hcount => ?_, fun n => ?_,
    fun letters hne hcapitals => ?_⟩
  · have short : ∀ s : Spelling, s.Spells text → s.digits.length ≤ maxDigits := fun s hs =>
      (s.digits_ascii hs hascii).2.trans hcount
    refine ⟨?_, ?_, fun s at_ hs hat => ?_⟩
    · rw [← Faulty.not_iff, parse_faulty]
      rintro ⟨s, hs, hlong⟩
      exact Nat.not_lt.2 (short s hs) hlong
    · constructor
      · rintro ⟨at_, hat⟩
        obtain ⟨s, hs, -, hrow, -⟩ := parse_eq_some_iff.1 hat
        exact ⟨s, hs, Nat.one_le_iff_ne_zero.2 hrow⟩
      · rintro ⟨s, hs, hrow⟩
        exact ⟨_, parse_eq_some_iff.2 ⟨s, hs, short s hs, Nat.one_le_iff_ne_zero.1 hrow, rfl⟩⟩
    · rw [s.parse_eq hs, if_neg (Nat.not_lt.2 (short s hs))] at hat
      split at hat
      · cases hat
      · next hrow =>
        cases hat
        exact make_coordinate s (s.digits_ascii hs hascii).1 (short s hs) hrow
  · refine ⟨columnIndex_columnLetters n, fun hnil => ?_, fun c hc => ?_⟩
    · have hletters := congrArg String.toList hnil
      unfold columnLetters at hletters
      rw [String.toList_ofList] at hletters
      exact lettersOf_ne_nil (Nat.succ_pos n) hletters
    · unfold columnLetters at hc
      rw [String.toList_ofList] at hc
      exact isCapital_of_mem_lettersOf hc
  · have hletters : ∀ c ∈ letters.toList, isAsciiLetter c = true := fun c hc =>
      isAsciiLetter_of_isCapital (hcapitals c hc)
    have hchars : letters.toList ≠ [] := fun hnil => hne (String.toList_inj.1 hnil)
    have hindex := columnIndex_nonneg hletters hchars
    have hback := columnLetters_columnIndex hletters
    rw [upper_capitals hcapitals] at hback
    rw [String.ofList_toList] at hindex hback
    refine ⟨(columnIndex letters).toNat, (Int.toNat_of_nonneg hindex).symm, ?_⟩
    rw [Int.toNat_of_nonneg hindex]
    exact hback

/-- The column `AA` and the row 10, both marked, in small letters and with zeros. -/
def absoluteAA : Spelling where
  absoluteCol := true
  letters := ['a', 'a']
  absoluteRow := true
  digits := ['0', '0', '1', '0']
  letters_ne_nil := by decide
  all_letters := forall_mem_of_all rfl
  digits_ne_nil := by decide
  all_digits := forall_mem_of_all rfl

/-- A reference behind the last one of two letters, and one with marks, small letters and zeros. -/
theorem references_inverse_absolute :
    (digitsOf 10).length ≤ maxDigits ∧
    (∃ text, make (9 : Nat) (702 : Nat) = .ok text ∧
      parse text = .ok (some ⟨9, 702, false, false⟩)) ∧
    (∀ c ∈ " $aa$0010 ".toList, c.toNat < 0x80) ∧
    " $aa$0010 ".toList.countP isAsciiDigit ≤ maxDigits ∧
    absoluteAA.Spells " $aa$0010 " ∧
    parse " $aa$0010 " = .ok (some ⟨9, 26, true, true⟩) ∧
    make (9 : Nat) (26 : Nat) = .ok absoluteAA.bare ∧ absoluteAA.bare = "AA10" ∧
    (∀ c ∈ "ZZ".toList, isCapital c = true) ∧
    ∃ n : Nat, columnIndex "ZZ" = n ∧ columnLetters n = "ZZ" := by
  have hdigits : (digitsOf 10).length ≤ maxDigits := by decide
  have hascii : ∀ c ∈ " $aa$0010 ".toList, c.toNat < 0x80 := forall_mem_of_all rfl
  have hcount : " $aa$0010 ".toList.countP isAsciiDigit ≤ maxDigits := by decide
  have hspells : absoluteAA.Spells " $aa$0010 " := by
    unfold Spelling.Spells
    rfl
  have hparse : parse " $aa$0010 " = .ok (some ⟨9, 26, true, true⟩) := by rfl
  have hcapitals : ∀ c ∈ "ZZ".toList, isCapital c = true := forall_mem_of_all rfl
  obtain ⟨hwrite, hread, -, hletters⟩ := references_inverse
  exact ⟨hdigits, hwrite 9 702 hdigits, hascii, hcount, hspells, hparse,
    (hread _ hascii hcount).2.2 absoluteAA _ hspells hparse, by rfl, hcapitals,
    hletters "ZZ" (by decide) hcapitals⟩

end Spreadsheet.Reference
