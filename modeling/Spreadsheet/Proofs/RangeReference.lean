import Spreadsheet.Proofs.Capitals
import Spreadsheet.Text.Parts

/-!
# References to ranges

Upper case neither makes nor removes a colon, so a range is read from its halves, each of them with
the capitals of ASCII that its letters have (`parseRange_of_halves`). What is a range as it is
written is therefore read as one; a text that is read as a range is one as it is written exactly if
it has no letter beyond ASCII with capitals of ASCII (`parseRange_corners`).
-/

namespace Spreadsheet.Reference

open Text Numeral

/-! ## Colons -/

theorem splitColons_eq (cs : List Char) : splitColons cs = cs.splitOn ':' := by
  refine eq_splitOn rfl (fun c rest part parts h => ?_) cs
  rw [splitColons, h]

theorem halves_iff {text first last : String} :
    Halves text first last ↔ text.toList.splitOn ':' = [first.toList, last.toList] := by
  have htext : text = first ++ ":" ++ last ↔
      text.toList = first.toList ++ ':' :: last.toList := by
    rw [← String.toList_inj]
    simp
  rw [splitOn_eq_pair_iff, ← htext]
  exact Iff.rfl

theorem ofNat_ne_colon {n : Nat} (h : 58 < n) : Char.ofNat n ≠ ':' := by
  intro heq
  have hcode : (Char.ofNat n).toNat = 58 := congrArg Char.toNat heq
  rw [Char.toNat_ofNat] at hcode
  split at hcode
  · omega
  · cases hcode

theorem colon_not_mem_upperChar {c : Char} (hc : c ≠ ':') : ':' ∉ upperChar c := by
  -- In both tables every capital lies behind the colon.
  have long : ∀ entry ∈ longCapitals, ∀ n ∈ entry.2, 58 < n := by decide +kernel
  have runs : ∀ r ∈ caseRuns, 58 < r.first + r.shift := by decide +kernel
  by_cases hascii : c.toNat < 0x80
  · rw [upperChar_of_ascii hascii, List.mem_singleton]
    intro heq
    have hcapital : isCapital (upperAscii c) = false := by
      rw [← heq]
      decide
    exact hc ((upperAscii_eq_self hcapital).symm.trans heq.symm)
  · unfold upperChar
    rw [if_neg hascii]
    split
    · next entry hentry =>
      intro hmem
      obtain ⟨n, hn, heq⟩ := List.mem_map.1 hmem
      exact ofNat_ne_colon (long entry (List.mem_of_find?_eq_some hentry) n hn) heq
    · split
      · next r hr =>
        have hcovers := List.find?_some hr
        unfold CaseRun.covers at hcovers
        rw [Bool.and_eq_true, Bool.and_eq_true, decide_eq_true_eq] at hcovers
        have hrun := runs r (List.mem_of_find?_eq_some hr)
        rw [List.mem_singleton]
        exact (ofNat_ne_colon (by omega)).symm
      · rw [List.mem_singleton]
        exact hc.symm

theorem colon_not_mem_nativeChar {c : Char} (hc : c ≠ ':') : ':' ∉ nativeChar c := by
  unfold nativeChar
  split
  · exact colon_not_mem_upperChar hc
  · rw [List.mem_singleton]
    exact hc.symm

/-! ## Halves -/

section

variable {text first last : String}

theorem splitColons_upper (text : String) : splitColons (upper text).toList =
    (text.toList.splitOn ':').map fun part => part.flatMap upperChar := by
  unfold upper
  rw [splitColons_eq, String.toList_ofList,
    splitOn_flatMap (f := upperChar) rfl fun _ => colon_not_mem_upperChar]

/-- A range is read from its halves. -/
theorem parseRange_of_halves (h : Halves text first last) : parseRange text = (do
    let a ← parse (native first)
    let b ← parse (native last)
    return do
      let a ← a
      let b ← b
      return (a, b)) := by
  unfold parseRange
  rw [splitColons_upper, halves_iff.1 h]
  show (do
    let a ← parse (upper first)
    let b ← parse (upper last)
    return do
      let a ← a
      let b ← b
      return (a, b)) = _
  rw [parse_upper, parse_upper]

theorem parseRange_of_not_halves (h : ¬ ∃ first last, Halves text first last) :
    parseRange text = .ok none := by
  unfold parseRange
  rw [splitColons_upper]
  split
  · next first last hsplit =>
    obtain ⟨first', last', hparts, -, -⟩ := exists_pair_of_map hsplit
    refine absurd ⟨String.ofList first', String.ofList last', halves_iff.2 ?_⟩ h
    rw [String.toList_ofList, String.toList_ofList, hparts]
  · rfl

theorem parseRange_eq_some_iff {a b : Coordinate} : parseRange text = .ok (some (a, b)) ↔
    ∃ first last, Halves text first last ∧ parse (native first) = .ok (some a) ∧
      parse (native last) = .ok (some b) := by
  constructor
  · intro h
    by_cases hhalves : ∃ first last, Halves text first last
    · obtain ⟨first, last, hhalves⟩ := hhalves
      refine ⟨first, last, hhalves, ?_⟩
      rw [parseRange_of_halves hhalves] at h
      cases hfirst : parse (native first) with
      | error f => rw [hfirst] at h; cases h
      | ok a? =>
        rw [hfirst] at h
        cases hlast : parse (native last) with
        | error f => rw [hlast] at h; cases h
        | ok b? =>
          rw [hlast] at h
          cases a? with
          | none => cases h
          | some a' =>
            cases b? with
            | none => cases h
            | some b' =>
              cases h
              exact ⟨rfl, rfl⟩
    · rw [parseRange_of_not_halves hhalves] at h
      cases h
  · rintro ⟨first, last, hhalves, hfirst, hlast⟩
    rw [parseRange_of_halves hhalves, hfirst, hlast]
    rfl

/-- Reading a range fails on a row number that is too long and on nothing else. -/
theorem parseRange_faulty (text : String) : Faulty (parseRange text) ↔ OverlongRange text := by
  by_cases hhalves : ∃ first last, Halves text first last
  · obtain ⟨first, last, hhalves⟩ := hhalves
    have hread : Faulty (parseRange text) ↔
        Overlong (native first) ∨ Overlong (native last) := by
      rw [parseRange_of_halves hhalves, ← parse_faulty, ← parse_faulty]
      exact Faulty.bind_or_iff fun _ => Faulty.bind_ok_iff fun _ => Faulty.pure_iff _
    rw [hread]
    constructor
    · exact fun h => ⟨first, last, hhalves, h⟩
    · rintro ⟨first', last', hhalves', h⟩
      have hparts := (halves_iff.1 hhalves).symm.trans (halves_iff.1 hhalves')
      rw [List.cons.injEq, List.cons.injEq, String.toList_inj, String.toList_inj] at hparts
      rw [hparts.1, hparts.2.1]
      exact h
  · rw [parseRange_of_not_halves hhalves]
    refine iff_of_false (Faulty.ok_iff _).1 ?_
    rintro ⟨first, last, h, -⟩
    exact hhalves ⟨first, last, h⟩

/-! ## Ranges as they are written -/

theorem Halves.mem (h : Halves text first last) {c : Char} :
    c ∈ text.toList ↔ c ∈ first.toList ∨ c = ':' ∨ c ∈ last.toList := by
  rw [h.1]
  simp

/-- The halves of the native text. -/
theorem corners_native_iff {a b : Coordinate} : Corners (native text) a b ↔
    ∃ first last, Halves text first last ∧ parse (native first) = .ok (some a) ∧
      parse (native last) = .ok (some b) := by
  have hsplit : (native text).toList.splitOn ':' =
      (text.toList.splitOn ':').map fun part => part.flatMap nativeChar := by
    unfold native
    rw [String.toList_ofList,
      splitOn_flatMap (f := nativeChar) rfl fun _ => colon_not_mem_nativeChar]
  constructor
  · rintro ⟨first, last, hhalves, hfirst, hlast⟩
    have hparts := (halves_iff.1 hhalves).symm.trans hsplit
    obtain ⟨first', last', htext, hfirst', hlast'⟩ := exists_pair_of_map hparts.symm
    refine ⟨String.ofList first', String.ofList last', halves_iff.2 ?_, ?_, ?_⟩
    · rw [String.toList_ofList, String.toList_ofList, htext]
    · unfold native
      rw [String.toList_ofList, hfirst', String.ofList_toList, hfirst]
    · unfold native
      rw [String.toList_ofList, hlast', String.ofList_toList, hlast]
  · rintro ⟨first, last, hhalves, hfirst, hlast⟩
    refine ⟨native first, native last, halves_iff.2 ?_, hfirst, hlast⟩
    rw [hsplit, halves_iff.1 hhalves]
    unfold native
    rw [String.toList_ofList, String.toList_ofList]
    rfl

/-- What is a reference as it is written has no letter beyond ASCII with capitals of ASCII. -/
theorem isForeign_of_parse {at_ : Coordinate} (h : parse text = .ok (some at_)) :
    ∀ c ∈ text.toList, isForeign c = false := by
  intro c hc
  refine Bool.eq_false_iff.2 fun hforeign => ?_
  rw [parse_of_not_mayStand hc (upperChar_foreign hforeign).2] at h
  cases h

theorem Corners.isForeign_eq_false {a b : Coordinate} (h : Corners text a b) :
    ∀ c ∈ text.toList, isForeign c = false := by
  obtain ⟨first, last, hhalves, hfirst, hlast⟩ := h
  intro c hc
  rcases hhalves.mem.1 hc with hc | rfl | hc
  · exact isForeign_of_parse hfirst c hc
  · rfl
  · exact isForeign_of_parse hlast c hc

theorem parseRange_iff_native {a b : Coordinate} :
    parseRange text = .ok (some (a, b)) ↔ Corners (native text) a b :=
  parseRange_eq_some_iff.trans corners_native_iff.symm

/-- What is a range as it is written is read as one. -/
theorem parseRange_of_corners {a b : Coordinate} (h : Corners text a b) :
    parseRange text = .ok (some (a, b)) := by
  rw [parseRange_iff_native, native_eq_self h.isForeign_eq_false]
  exact h

theorem colon_not_mem_of_parse {at_ : Coordinate} (h : parse text = .ok (some at_)) :
    ':' ∉ text.toList := by
  intro hmem
  rw [parse_of_not_mayStand hmem (by decide)] at h
  cases h

/-- Two references with a colon between are a range as it is written. -/
theorem corners_of_parse {a b : Coordinate} (hfirst : parse first = .ok (some a))
    (hlast : parse last = .ok (some b)) : Corners (first ++ ":" ++ last) a b :=
  ⟨first, last, ⟨rfl, colon_not_mem_of_parse hfirst, colon_not_mem_of_parse hlast⟩, hfirst, hlast⟩

end

/-- **Ranges and the references in them.** A text is read as a range exactly if it becomes two
references with a colon between when the letters beyond ASCII with capitals of ASCII give way to
these. Two references with a colon between as they are written are just those that are read as
ranges and have no such letter. So a text is read as a range exactly if its halves are references,
unless it is read as one in spite of such a letter. -/
theorem parseRange_corners (text : String) :
    (∀ a b, parseRange text = .ok (some (a, b)) ↔ Corners (native text) a b) ∧
    (∀ a b, Corners text a b ↔
      parseRange text = .ok (some (a, b)) ∧ ∀ c ∈ text.toList, isForeign c = false) ∧
    ((∀ a b, parseRange text = .ok (some (a, b)) ↔ Corners text a b) ↔
      ¬ ((∃ a b, parseRange text = .ok (some (a, b))) ∧ ∃ c ∈ text.toList, isForeign c = true)) := by
  have written : ∀ a b, Corners text a b ↔
      parseRange text = .ok (some (a, b)) ∧ ∀ c ∈ text.toList, isForeign c = false := by
    intro a b
    constructor
    · exact fun h => ⟨parseRange_of_corners h, h.isForeign_eq_false⟩
    · rintro ⟨h, hnative⟩
      rw [parseRange_iff_native, native_eq_self hnative] at h
      exact h
  refine ⟨fun _ _ => parseRange_iff_native, written, ⟨fun hall => ?_, fun hnone a b => ?_⟩⟩
  · rintro ⟨⟨a, b, h⟩, c, hc, hforeign⟩
    have hnative := ((written a b).1 ((hall a b).1 h)).2 c hc
    exact Bool.false_ne_true (hnative.symm.trans hforeign)
  · rw [written, iff_self_and]
    intro h c hc
    exact Bool.eq_false_iff.2 fun hforeign => hnone ⟨⟨a, b, h⟩, c, hc, hforeign⟩

example : parseRange "a1:$B2" = .ok (some (⟨0, 0, false, false⟩, ⟨1, 1, false, true⟩)) := by rfl

/-- With a dotless `ı` in its first half a text is read as the range `I1:A1`, though that half is
no reference. -/
theorem dotless_range_read :
    parseRange "\u01311:A1" = .ok (some (⟨0, 8, false, false⟩, ⟨0, 0, false, false⟩)) ∧
    parse "\u01311" = .ok none ∧ ¬ ∃ a b, Corners "\u01311:A1" a b := by
  refine ⟨by rfl, by rfl, ?_⟩
  rintro ⟨a, b, hcorners⟩
  have hforeign : isForeign '\u0131' = true := by decide
  have hnative := hcorners.isForeign_eq_false '\u0131' (by decide)
  exact Bool.false_ne_true (hnative.symm.trans hforeign)

end Spreadsheet.Reference
