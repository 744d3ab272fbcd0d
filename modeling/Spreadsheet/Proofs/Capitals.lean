import Spreadsheet.Proofs.CellReference

/-!
# References in upper case

The case of its letters does not matter to a reference (`parse_map_upperAscii`). The upper case of a
text in any script is read like the text with the capitals of ASCII in place of the few letters beyond
ASCII that have them (`parse_upper`): every other character that upper case changes is none that may
stand in a reference, and among its capitals is one that may not either.
-/

namespace Spreadsheet.Reference

open Text Numeral

/-! ## Case -/

/-- A character in upper case is of the same kind. -/
theorem upperAscii_kinds (c : Char) : isBlank (upperAscii c) = isBlank c ∧
    isAsciiLetter (upperAscii c) = isAsciiLetter c ∧ digitValue? (upperAscii c) = digitValue? c ∧
    (upperAscii c = '$' ↔ c = '$') := by
  by_cases h : 'a' ≤ c ∧ c ≤ 'z'
  · have hlast : c.toNat ≤ 122 := h.2
    have hascii : c.toNat < 128 := by omega
    clear h
    exact forall_ascii hascii (by decide +kernel)
  · have hself : upperAscii c = c := if_neg h
    rw [hself]
    exact ⟨rfl, rfl, rfl, Iff.rfl⟩

theorem takeDollar_map (cs : List Char) :
    takeDollar (cs.map upperAscii) = ((takeDollar cs).1, (takeDollar cs).2.map upperAscii) := by
  have hdollar : upperAscii '$' = '$' := rfl
  cases cs with
  | nil => rfl
  | cons c rest =>
    by_cases hc : c = '$'
    · rw [hc, List.map_cons, hdollar]
      rfl
    · have plain : ∀ {d : Char} (ds : List Char), d ≠ '$' → takeDollar (d :: ds) = (false, d :: ds) :=
        fun ds hd => @takeDollar_dollar false _ fun _ he => by cases he; exact hd
      have hupper : upperAscii c ≠ '$' := fun h => hc ((upperAscii_kinds c).2.2.2.1 h)
      rw [List.map_cons, plain _ hupper, plain _ hc]
      rfl

theorem digitsValue_map (cs : List Char) : digitsValue (cs.map upperAscii) = digitsValue cs := by
  unfold digitsValue
  rw [List.foldl_map]
  exact congrArg (fun value : Char → Option Nat =>
    cs.foldl (fun n c => n * 10 + (value c).getD 0) 0) (funext fun c => (upperAscii_kinds c).2.2.1)

theorem columnIndex_map {cs : List Char} (h : ∀ c ∈ cs, isAsciiLetter c = true) :
    columnIndex (String.ofList (cs.map upperAscii)) = columnIndex (String.ofList cs) := by
  have hcapitals := isCapital_of_mem_map h
  rw [columnIndex_ofList h, columnIndex_ofList fun c hc => isAsciiLetter_of_isCapital (hcapitals c hc),
    map_upperAscii fun c hc => .of_capital (hcapitals c hc)]

/-- A reference with small letters is read like the one with their capitals. -/
theorem parse_map_upperAscii (cs : List Char) :
    parse (String.ofList (cs.map upperAscii)) = parse (String.ofList cs) := by
  have hletter : isAsciiLetter ∘ upperAscii = isAsciiLetter :=
    funext fun c => (upperAscii_kinds c).2.1
  have hdigit : isDigit ∘ upperAscii = isDigit :=
    funext fun c => congrArg Option.isSome (upperAscii_kinds c).2.2.1
  have hstrip : stripChars (cs.map upperAscii) = (stripChars cs).map upperAscii :=
    trimBy_map (fun c => (upperAscii_kinds c).1) cs
  unfold parse
  rw [String.toList_ofList, String.toList_ofList, hstrip, takeDollar_map]
  dsimp only
  rw [List.takeWhile_map, List.dropWhile_map, hletter, takeDollar_map]
  dsimp only
  rw [List.all_map, hdigit, digitsValue_map, List.length_map, List.isEmpty_map, List.isEmpty_map,
    columnIndex_map fun c hc => List.mem_takeWhile_imp hc]

/-! ## Characters that may not stand in a reference -/

/-- The character may stand in a reference or among the blanks around it. -/
def mayStand (c : Char) : Bool := isBlank c || c == '$' || isAsciiLetter c || isDigit c

/-- A text with any other character is no reference. -/
theorem parse_of_not_mayStand {text : String} {c : Char} (hc : c ∈ text.toList)
    (h : mayStand c = false) : parse text = .ok none := by
  unfold mayStand at h
  rw [Bool.or_eq_false_iff, Bool.or_eq_false_iff, Bool.or_eq_false_iff, beq_eq_false_iff_ne] at h
  obtain ⟨⟨⟨hblank, hdollar⟩, hletter⟩, hdigit⟩ := h
  refine parse_of_not_spelled ?_
  rintro ⟨s, hs⟩
  rcases mem_trimBy (p := isBlank) hc with hkind | hmem
  · exact Bool.false_ne_true (hblank.symm.trans hkind)
  · rw [show trimBy isBlank text.toList = s.chars from hs] at hmem
    rcases s.mem_chars hmem with hkind | hkind | hkind
    · exact hdollar hkind
    · exact Bool.false_ne_true (hletter.symm.trans hkind)
    · exact Bool.false_ne_true (hdigit.symm.trans hkind)

/-- The first and the last code of each blank and of the digits of each script. -/
def spans : List (Nat × Nat) :=
  blankCodes.map (fun n => (n, n)) ++ zeroCodes.map fun z => (z, z + 9)

/-- The codes are beyond ASCII, and none of them is that of a blank or of a digit. -/
def isClear (first last : Nat) : Bool :=
  Nat.ble 0x80 first && spans.all fun span => Nat.blt last span.1 || Nat.blt span.2 first

theorem isClear_iff {first last : Nat} : isClear first last = true ↔
    0x80 ≤ first ∧ ∀ span ∈ spans, last < span.1 ∨ span.2 < first := by
  simp [isClear, Nat.blt]

section

variable {first last : Nat} (h : isClear first last = true)

include h

theorem mayStand_of_clear {c : Char} (hfirst : first ≤ c.toNat) (hlast : c.toNat ≤ last) :
    mayStand c = false := by
  obtain ⟨hbeyond, hclear⟩ := isClear_iff.1 h
  have outside : ∀ {low high : Nat}, (low, high) ∈ spans → ¬ (low ≤ c.toNat ∧ c.toNat ≤ high) := by
    intro low high hspan hrange
    rcases hclear _ hspan with hbelow | habove
    · omega
    · omega
  have hlow : 0x80 ≤ c.toNat := hbeyond.trans hfirst
  unfold mayStand
  rw [Bool.or_eq_false_iff, Bool.or_eq_false_iff, Bool.or_eq_false_iff, beq_eq_false_iff_ne]
  refine ⟨⟨⟨Bool.eq_false_iff.2 fun hblank => ?_, ?_⟩, Bool.eq_false_iff.2 fun hletter => ?_⟩,
    Bool.eq_false_iff.2 fun hdigit => ?_⟩
  · refine outside (List.mem_append_left _ (List.mem_map_of_mem ?_)) ⟨Nat.le_refl _, Nat.le_refl _⟩
    exact List.contains_iff_mem.1 hblank
  · rintro rfl
    exact absurd hlow (by decide)
  · exact absurd (lt_of_isAsciiLetter hletter) (Nat.not_lt.2 hlow)
  · unfold isDigit digitValue? at hdigit
    rw [if_neg (Nat.not_lt.2 hlow), Option.isSome_map, Option.isSome_iff_exists] at hdigit
    obtain ⟨z, hz⟩ := hdigit
    have hdecided := List.find?_some hz
    have hrange := of_decide_eq_true hdecided
    refine outside (List.mem_append_right _ (List.mem_map_of_mem (List.mem_of_find?_eq_some hz)))
      ⟨hrange.1, ?_⟩
    omega

/-- The character with one of the codes; where there is none, it is the one with the code 0. -/
theorem mayStand_ofNat_of_clear {n : Nat} (hfirst : first ≤ n) (hlast : n ≤ last) :
    mayStand (Char.ofNat n) = false := by
  by_cases hn : n.isValidChar
  · have hcode : (Char.ofNat n).toNat = n := by
      rw [Char.toNat_ofNat, if_pos hn]
    exact mayStand_of_clear h (by rw [hcode]; exact hfirst) (by rw [hcode]; exact hlast)
  · have hzero : Char.ofNat n = '\x00' := dif_neg hn
    rw [hzero]
    decide

end

/-! ## Upper case of any text -/

/-- The letters of a run may not stand in a reference, and neither may their capitals, letters of
ASCII aside. -/
theorem caseRuns_clear : ∀ r ∈ caseRuns, r.last < 0x80 ∨ isClear r.first r.last = true ∧
    (r.first = r.last ∧ isCapital (Char.ofNat (r.first + r.shift).toNat) = true ∨
      isClear (r.first + r.shift).toNat (r.last + r.shift).toNat = true) := by decide +kernel

/-- A letter with several capitals may not stand in a reference, and one of its capitals may not
either, unless all of them are letters of ASCII. -/
theorem longCapitals_clear : ∀ long ∈ longCapitals, isClear long.1 long.1 = true ∧
    ((long.2.map Char.ofNat).all isCapital = true ∨ ∃ n ∈ long.2, isClear n n = true) := by
  decide +kernel

/-- Beyond ASCII upper case keeps a character, or it changes one that may not stand in a reference:
into capitals of ASCII, or into characters among which is one that may not either. -/
theorem upperChar_beyond {c : Char} (hc : 0x80 ≤ c.toNat) : upperChar c = [c] ∨
    mayStand c = false ∧ ((∀ d ∈ upperChar c, isCapital d = true) ∨
      ∃ d ∈ upperChar c, mayStand d = false) := by
  unfold upperChar
  rw [if_neg (Nat.not_lt.2 hc)]
  split
  · next long hlong =>
    have hfound := List.find?_some hlong
    have hcode : long.1 = c.toNat := eq_of_beq hfound
    obtain ⟨hself, hcapitals⟩ := longCapitals_clear long (List.mem_of_find?_eq_some hlong)
    refine .inr ⟨mayStand_of_clear hself hcode.le hcode.ge, ?_⟩
    rcases hcapitals with hcapitals | ⟨n, hn, hclear⟩
    · exact .inl (List.all_eq_true.1 hcapitals)
    · exact .inr ⟨_, List.mem_map_of_mem hn,
        mayStand_ofNat_of_clear hclear (Nat.le_refl n) (Nat.le_refl n)⟩
  · split
    · next r hr =>
      have hcovers := List.find?_some hr
      unfold CaseRun.covers at hcovers
      rw [Bool.and_eq_true, Bool.and_eq_true, decide_eq_true_eq, decide_eq_true_eq] at hcovers
      obtain ⟨⟨hfirst, hlast⟩, -⟩ := hcovers
      obtain hascii | ⟨hself, hcapital⟩ := caseRuns_clear r (List.mem_of_find?_eq_some hr)
      · omega
      · refine .inr ⟨mayStand_of_clear hself hfirst hlast, ?_⟩
        rcases hcapital with ⟨hsingle, hcapital⟩ | hclear
        · have hcode : r.first = c.toNat := by omega
          rw [hcode] at hcapital
          refine .inl fun d hd => ?_
          rw [List.mem_singleton.1 hd]
          exact hcapital
        · exact .inr ⟨_, List.mem_singleton_self _,
            mayStand_ofNat_of_clear hclear (by omega) (by omega)⟩
    · exact .inl rfl

theorem mayStand_of_letter {c : Char} (h : isAsciiLetter c = true) : mayStand c = true := by
  unfold mayStand
  rw [h, Bool.or_true, Bool.true_or]

theorem isForeign_iff {c : Char} : isForeign c = true ↔
    0x80 ≤ c.toNat ∧ ∀ d ∈ upperChar c, isAsciiLetter d = true := by
  unfold isForeign
  rw [Bool.and_eq_true, decide_eq_true_eq, List.all_eq_true]

/-- A letter beyond ASCII with capitals of ASCII may not stand in a reference itself. -/
theorem upperChar_foreign {c : Char} (h : isForeign c = true) :
    (∀ d ∈ upperChar c, isCapital d = true) ∧ mayStand c = false := by
  obtain ⟨hc, hletters⟩ := isForeign_iff.1 h
  -- Its upper case is of letters, so it is neither the letter itself nor is there any other character.
  obtain hsame | ⟨hself, hcapitals | ⟨d, hd, hother⟩⟩ := upperChar_beyond hc
  · have hletter := hletters c (hsame ▸ List.mem_singleton_self c)
    exact absurd (lt_of_isAsciiLetter hletter) (Nat.not_lt.2 hc)
  · exact ⟨hcapitals, hself⟩
  · exact absurd (mayStand_of_letter (hletters d hd)) (Bool.eq_false_iff.1 hother)

/-- The upper case of a character is that of the capitals of ASCII that stand for it, unless neither
may stand in a reference. -/
theorem upperChar_cases (c : Char) : upperChar c = (nativeChar c).map upperAscii ∨
    (∃ d ∈ nativeChar c, mayStand d = false) ∧ ∃ d ∈ upperChar c, mayStand d = false := by
  unfold nativeChar
  by_cases hforeign : isForeign c = true
  · rw [if_pos hforeign, map_upperAscii fun d hd => .of_capital ((upperChar_foreign hforeign).1 d hd)]
    exact .inl rfl
  · rw [if_neg hforeign]
    by_cases hc : c.toNat < 0x80
    · exact .inl (upperChar_of_ascii hc)
    · have hkept : upperAscii c = c := by
        refine if_neg ?_
        rintro ⟨-, hlast⟩
        have hle : c.toNat ≤ 122 := hlast
        omega
      obtain hsame | ⟨hself, hcapitals | hcapital⟩ := upperChar_beyond (Nat.le_of_not_lt hc)
      · refine .inl ?_
        rw [hsame, List.map_singleton, hkept]
      · exact absurd (isForeign_iff.2 ⟨Nat.le_of_not_lt hc, fun d hd =>
          isAsciiLetter_of_isCapital (hcapitals d hd)⟩) hforeign
      · exact .inr ⟨⟨c, List.mem_singleton_self c, hself⟩, hcapital⟩

theorem native_eq_self {text : String} (h : ∀ c ∈ text.toList, isForeign c = false) :
    native text = text := by
  have hself : text.toList.flatMap nativeChar = text.toList.flatMap fun c => [c] :=
    List.flatMap_congr fun c hc => if_neg (Bool.eq_false_iff.1 (h c hc))
  unfold native
  rw [hself, List.flatMap_singleton', String.ofList_toList]

/-- The upper case of a text is read like the text with capitals of ASCII where there are some. -/
theorem parse_upper (text : String) : parse (upper text) = parse (native text) := by
  unfold upper native
  by_cases h : ∀ c ∈ text.toList, upperChar c = (nativeChar c).map upperAscii
  · rw [List.flatMap_congr h, ← List.map_flatMap, parse_map_upperAscii]
  · -- One character that may not stand in a reference settles both texts.
    push Not at h
    obtain ⟨c, hc, hne⟩ := h
    obtain ⟨⟨d, hd, hnative⟩, e, he, hupper⟩ := (upperChar_cases c).resolve_left hne
    have none_of_mem : ∀ {f : Char → List Char} {d : Char}, d ∈ f c → mayStand d = false →
        parse (String.ofList (text.toList.flatMap f)) = .ok none := by
      intro f d hd hkind
      refine parse_of_not_mayStand (c := d) ?_ hkind
      rw [String.toList_ofList]
      exact List.mem_flatMap.2 ⟨c, hc, hd⟩
    rw [none_of_mem he hupper, none_of_mem hd hnative]

end Spreadsheet.Reference
