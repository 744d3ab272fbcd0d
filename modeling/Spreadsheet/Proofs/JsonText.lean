import Spreadsheet.Json.Reader
import Spreadsheet.Json.Writer
import Spreadsheet.Value.Plain

/-!
# Text in JSON

Each character of a text is written in one of four ways (`written_stringChar`), and each of these is
read back as the character, whatever stands behind it. Only the escape of a first half takes notice of
what follows: if that is the escape of a second half, both are read as one character. So a text is read
back if its halves stand apart (`takeString?_stringText`).
-/

namespace Spreadsheet.Json

open Text

/-! ## Hexadecimal digits -/

theorem hexValue?_digitChar {d : Nat} (h : d < 16) : hexValue? (Nat.digitChar d) = some d := by
  have all : ∀ d < 16, hexValue? (Nat.digitChar d) = some d := by decide
  exact all d h

theorem hexText_four {n : Nat} (h : n < 0x10000) :
    hexText 4 n = [Nat.digitChar (n / 4096), Nat.digitChar (n / 256 % 16),
      Nat.digitChar (n / 16 % 16), Nat.digitChar (n % 16)] := by
  have step : ∀ {m : Nat}, 16 ≤ m →
      Nat.toDigits 16 m = Nat.toDigits 16 (m / 16) ++ [Nat.digitChar (m % 16)] :=
    fun hm => Nat.toDigits_of_base_le (by decide) hm
  have last : ∀ {m : Nat}, m < 16 → Nat.toDigits 16 m = [Nat.digitChar m] :=
    fun hm => Nat.toDigits_of_lt_base hm
  have h256 : n / 256 = n / 16 / 16 := by omega
  have h4096 : n / 4096 = n / 16 / 16 / 16 := by omega
  unfold hexText
  rw [h256, h4096]
  by_cases h1 : n < 16
  · rw [last h1, show n / 16 = 0 by omega, Nat.mod_eq_of_lt h1]
    rfl
  · rw [step (by omega)]
    by_cases h2 : n / 16 < 16
    · rw [last h2, show n / 16 / 16 = 0 by omega, Nat.mod_eq_of_lt h2]
      rfl
    · rw [step (by omega)]
      by_cases h3 : n / 16 / 16 < 16
      · rw [last h3, show n / 16 / 16 / 16 = 0 by omega, Nat.mod_eq_of_lt h3]
        rfl
      · rw [step (by omega), last (by omega)]
        rfl

/-- The escape of a code unit has four digits that write it. -/
theorem escapedUnit_eq {n : Nat} (h : n < 0x10000) : ∃ a b c d,
    escapedUnit n = ['\\', 'u', a, b, c, d] ∧ hex4? a b c d = some n := by
  refine ⟨_, _, _, _, congrArg ('\\' :: 'u' :: ·) (hexText_four h), ?_⟩
  unfold hex4? hexNumber?
  simp only [List.foldl_cons, List.foldl_nil, hexValue?_digitChar (show n / 4096 < 16 by omega),
    hexValue?_digitChar (show n / 256 % 16 < 16 by omega),
    hexValue?_digitChar (show n / 16 % 16 < 16 by omega),
    hexValue?_digitChar (show n % 16 < 16 by omega), Option.bind_eq_bind, Option.bind_some,
    Option.pure_def, Option.some.injEq]
  omega

/-! ## How characters are written -/

/-- The ways in which a character stands inside a string. -/
inductive Written (c : Char) : List Char → Prop
  | plain : c ≠ '"' → c ≠ '\\' → 0x20 ≤ c.toNat → Written c [c]
  | escaped {d : Char} : escaped? d = some c → Written c ['\\', d]
  | unit {n : Nat} : n < 0x10000 → charOfCode n = c → (isHalfCode n = true → half? c = some n) →
    Written c (escapedUnit n)
  | pair {high low : Nat} : 0xd800 ≤ high → high < 0xdc00 → 0xdc00 ≤ low → low < 0xe000 →
    joinHalves high low = c → Written c (escapedUnit high ++ escapedUnit low)

theorem isHalfCode_toNat (c : Char) : isHalfCode c.toNat = false := by
  have hvalid : c.toNat < 0xd800 ∨ 0xdfff < c.toNat ∧ c.toNat < 0x110000 := c.valid
  exact decide_eq_false (by omega)

theorem written_unit {c : Char} (h : c.toNat < 0x10000) : Written c (escapedUnit c.toNat) := by
  refine .unit h ?_ fun hhalf => ?_
  · unfold charOfCode
    rw [isHalfCode_toNat, if_neg Bool.false_ne_true, Char.ofNat_toNat]
  · rw [isHalfCode_toNat] at hhalf
    cases hhalf

theorem written_half {c : Char} {n : Nat} (h : half? c = some n) : Written c (escapedUnit n) := by
  have hcode := h
  unfold half? at hcode
  simp only [Option.ite_none_right_eq_some, Option.some.injEq] at hcode
  obtain ⟨hhalf, rfl⟩ := hcode
  have hrange := of_decide_eq_true hhalf
  refine .unit (by omega) ?_ fun _ => h
  unfold charOfCode
  rw [hhalf, if_pos rfl, Nat.sub_add_cancel (by omega), Char.ofNat_toNat]

theorem written_pair {c : Char} (h : 0x10000 ≤ c.toNat) :
    Written c (escapedUnit (halvesOf c).1 ++ escapedUnit (halvesOf c).2) := by
  have hvalid : c.toNat < 0xd800 ∨ 0xdfff < c.toNat ∧ c.toNat < 0x110000 := c.valid
  obtain ⟨k, hk⟩ := Nat.exists_eq_add_of_le h
  have hhalves : halvesOf c = (0xd800 + k / 0x400, 0xdc00 + k % 0x400) := by
    unfold halvesOf
    rw [hk, Nat.add_sub_cancel_left]
  have hcode : 0x10000 + (0xd800 + k / 0x400 - 0xd800) * 0x400 +
      (0xdc00 + k % 0x400 - 0xdc00) = c.toNat := by omega
  rw [hhalves]
  dsimp only
  refine .pair (by omega) (by omega) (by omega) (by omega) ?_
  unfold joinHalves
  rw [hcode, Char.ofNat_toNat]

theorem written_stringChar (c : Char) : Written c (stringChar c) := by
  unfold stringChar
  split
  case h_8 hquote hslash _ _ _ _ _ =>
    by_cases hplain : 0x20 ≤ c.toNat ∧ c.toNat < 0x7f
    · rw [if_pos hplain]
      exact .plain hquote hslash hplain.1
    · rw [if_neg hplain]
      by_cases hunit : c.toNat < 0x10000
      · rw [if_pos hunit]
        exact written_unit hunit
      · rw [if_neg hunit]
        cases hhalf : half? c with
        | some n => exact written_half hhalf
        | none => exact written_pair (Nat.le_of_not_lt hunit)
  all_goals exact .escaped rfl

/-! ## Reading characters -/

section

variable {c : Char} {cs s rest : List Char}

theorem takeString?_plain (hquote : c ≠ '"') (hslash : c ≠ '\\') (hc : 0x20 ≤ c.toNat)
    (h : takeString? cs = some (s, rest)) : takeString? (c :: cs) = some (c :: s, rest) := by
  rw [takeString?, h, if_neg (not_or.2 ⟨by omega, hslash⟩)]
  · rfl
  · exact hquote
  · exact fun _ _ _ _ _ _ _ _ _ hc _ => hslash hc
  · exact fun _ _ _ _ _ hc _ => hslash hc
  · exact fun _ _ hc _ => hslash hc

theorem takeString?_escaped {d : Char} (hd : escaped? d = some c)
    (h : takeString? cs = some (s, rest)) : takeString? ('\\' :: d :: cs) = some (c :: s, rest) := by
  have hu : d ≠ 'u' := by
    rintro rfl
    cases hd
  rw [takeString?, hd, h]
  · rfl
  · exact fun _ _ _ _ _ _ _ _ _ hd _ => hu hd
  · exact fun _ _ _ _ _ hd _ => hu hd

/-- The text starts with the escape of a second half. -/
def StartsLow (cs : List Char) : Prop :=
  ∃ e f g h tail m, cs = '\\' :: 'u' :: e :: f :: g :: h :: tail ∧ hex4? e f g h = some m ∧
    0xdc00 ≤ m ∧ m < 0xe000

/-- An escape without a number is not read. -/
theorem takeString?_of_no_number {a b c d : Char} (h : hex4? a b c d = none) (cs : List Char) :
    takeString? ('\\' :: 'u' :: a :: b :: c :: d :: cs) = none := by
  by_cases hnext : ∃ e f g k tail, cs = '\\' :: 'u' :: e :: f :: g :: k :: tail
  · obtain ⟨e, f, g, k, tail, rfl⟩ := hnext
    rw [takeString?, h]
    rfl
  · rw [takeString?, h]
    · rfl
    · exact fun e f g k tail hcs => hnext ⟨e, f, g, k, tail, hcs⟩

theorem takeString?_unit {n : Nat} (hn : n < 0x10000)
    (hapart : ¬ (0xd800 ≤ n ∧ n < 0xdc00 ∧ StartsLow cs)) (h : takeString? cs = some (s, rest)) :
    takeString? (escapedUnit n ++ cs) = some (charOfCode n :: s, rest) := by
  obtain ⟨a, b, c, d, hunit, hhex⟩ := escapedUnit_eq hn
  rw [hunit]
  by_cases hnext : ∃ e f g h tail, cs = '\\' :: 'u' :: e :: f :: g :: h :: tail
  · obtain ⟨e, f, g, k, tail, rfl⟩ := hnext
    cases hlow : hex4? e f g k with
    | none =>
      rw [takeString?_of_no_number hlow] at h
      cases h
    | some m =>
      have hjoin : ¬ (0xd800 ≤ n ∧ n < 0xdc00 ∧ 0xdc00 ≤ m ∧ m < 0xe000) := fun hjoin =>
        hapart ⟨hjoin.1, hjoin.2.1, e, f, g, k, tail, m, rfl, hlow, hjoin.2.2⟩
      show takeString? ('\\' :: 'u' :: a :: b :: c :: d :: '\\' :: 'u' :: e :: f :: g :: k :: tail) = _
      rw [takeString?, hhex, hlow]
      simp only [Option.bind_eq_bind, Option.bind_some, if_neg hjoin, h]
      rfl
  · show takeString? ('\\' :: 'u' :: a :: b :: c :: d :: cs) = _
    rw [takeString?, hhex, h]
    · rfl
    · exact fun e f g k tail hcs => hnext ⟨e, f, g, k, tail, hcs⟩

theorem takeString?_pair {high low : Nat} (hhigh : 0xd800 ≤ high) (hhigh' : high < 0xdc00)
    (hlow : 0xdc00 ≤ low) (hlow' : low < 0xe000) (h : takeString? cs = some (s, rest)) :
    takeString? (escapedUnit high ++ escapedUnit low ++ cs) =
      some (joinHalves high low :: s, rest) := by
  obtain ⟨a, b, c, d, hunit, hhex⟩ := escapedUnit_eq (show high < 0x10000 by omega)
  obtain ⟨e, f, g, k, hunit', hhex'⟩ := escapedUnit_eq (show low < 0x10000 by omega)
  rw [hunit, hunit']
  show takeString? ('\\' :: 'u' :: a :: b :: c :: d :: '\\' :: 'u' :: e :: f :: g :: k :: cs) = _
  rw [takeString?, hhex, hhex']
  simp only [Option.bind_eq_bind, Option.bind_some, h]
  rw [if_pos ⟨hhigh, hhigh', hlow, hlow'⟩]
  rfl

end

/-! ## Reading texts -/

/-- What is written of a text starts with the escape of a second half only where the text does. -/
theorem exists_of_startsLow {s rest : List Char}
    (h : StartsLow (s.flatMap stringChar ++ '"' :: rest)) :
    ∃ c more, s = c :: more ∧ isLowHalf c = true := by
  obtain ⟨e, f, g, k, tail, m, hstart, hhex, hlow, hlow'⟩ := h
  cases s with
  | nil => cases hstart
  | cons c more =>
    refine ⟨c, more, rfl, ?_⟩
    rw [List.flatMap_cons, List.append_assoc] at hstart
    generalize more.flatMap stringChar ++ '"' :: rest = after at hstart
    have hwritten := written_stringChar c
    generalize stringChar c = cs at hstart hwritten
    cases hwritten with
    | plain _ hslash => exact absurd (List.cons.inj hstart).1 hslash
    | escaped hd =>
      cases (List.cons.inj (List.cons.inj hstart).2).1
      cases hd
    | unit hn _ hhalf =>
      obtain ⟨a, b, c', d, hunit, hhex'⟩ := escapedUnit_eq hn
      rw [hunit] at hstart
      cases hstart
      cases hhex.symm.trans hhex'
      unfold isLowHalf
      rw [hhalf (decide_eq_true ⟨by omega, hlow'⟩)]
      exact decide_eq_true hlow
    | pair _ hhigh =>
      obtain ⟨a, b, c', d, hunit, hhex'⟩ := escapedUnit_eq (n := _) (Nat.lt_trans hhigh (by decide))
      rw [hunit] at hstart
      cases hstart
      cases hhex.symm.trans hhex'
      omega

/-- A text whose halves stand apart is read back up to the quote behind it. -/
theorem takeString?_stringText {s : List Char}
    (h : s.IsChain fun a b => ¬ (isHighHalf a = true ∧ isLowHalf b = true)) (rest : List Char) :
    takeString? (s.flatMap stringChar ++ '"' :: rest) = some (s, rest) := by
  induction s with
  | nil => rfl
  | cons c more ih =>
    have hmore := ih h.tail
    have hapart : ∀ n, half? c = some n → ¬ (0xd800 ≤ n ∧ n < 0xdc00 ∧
        StartsLow (more.flatMap stringChar ++ '"' :: rest)) := by
      rintro n hn ⟨-, hhigh, hlow⟩
      obtain ⟨d, tail, rfl, hd⟩ := exists_of_startsLow hlow
      refine h.rel ⟨?_, hd⟩
      unfold isHighHalf
      rw [hn]
      exact decide_eq_true hhigh
    rw [List.flatMap_cons, List.append_assoc]
    have hwritten := written_stringChar c
    generalize stringChar c = cs at hwritten
    cases hwritten with
    | plain hquote hslash hc => exact takeString?_plain hquote hslash hc hmore
    | escaped hd => exact takeString?_escaped hd hmore
    | unit hn hc hhalf =>
      rw [← hc]
      refine takeString?_unit hn (fun hlow => ?_) hmore
      exact hapart _ (hhalf (decide_eq_true ⟨hlow.1, by omega⟩)) hlow
    | pair hhigh hhigh' hlow hlow' hc =>
      rw [← hc]
      exact takeString?_pair hhigh hhigh' hlow hlow' hmore

/-! ## Control characters -/

theorem visible_of_mem_escapedUnit {n : Nat} (h : n < 0x10000) {d : Char}
    (hd : d ∈ escapedUnit n) : 0x20 ≤ d.toNat := by
  have hdigit : ∀ m < 16, 0x20 ≤ (Nat.digitChar m).toNat := by decide
  unfold escapedUnit at hd
  rw [hexText_four h] at hd
  simp only [List.mem_cons, List.not_mem_nil, or_false] at hd
  rcases hd with rfl | rfl | rfl | rfl | rfl | rfl
  · decide
  · decide
  all_goals exact hdigit _ (by omega)

theorem visible_of_escaped {c d : Char} (h : escaped? d = some c) : 0x20 ≤ d.toNat := by
  unfold escaped? at h
  split at h
  all_goals first | decide | cases h

/-- No control character stands in a string. -/
theorem visible_of_mem_stringChar {c d : Char} (h : d ∈ stringChar c) : 0x20 ≤ d.toNat := by
  have hwritten := written_stringChar c
  generalize stringChar c = cs at h hwritten
  cases hwritten with
  | plain _ _ hc => rwa [List.mem_singleton.1 h]
  | escaped hd =>
    simp only [List.mem_cons, List.not_mem_nil, or_false] at h
    rcases h with rfl | rfl
    · decide
    · exact visible_of_escaped hd
  | unit hn => exact visible_of_mem_escapedUnit hn h
  | pair _ hhigh _ hlow =>
    rcases List.mem_append.1 h with h | h
    · exact visible_of_mem_escapedUnit (by omega) h
    · exact visible_of_mem_escapedUnit (by omega) h

end Spreadsheet.Json
