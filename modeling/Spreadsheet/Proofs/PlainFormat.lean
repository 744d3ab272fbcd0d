import Spreadsheet.Proofs.Tags

/-!
# Plain formats and plain sections

A format that shows values as they are has blanks, an at sign and the letters of one word and
nothing else (`isPlainChar_of_mem`), so that as a section it would be a mere literal: it has no
date letters, no digit places and no marks. The lemmas on sections say what lacks these in general.
-/

namespace Spreadsheet

open Text

/-- The character may stand in a format that shows values as they are. -/
def isPlainChar (c : Char) : Bool :=
  isBlank c || c == '@' || ['g', 'e', 'n', 'r', 'a', 'l'].contains (lowerAscii c)

def isDateLetter (c : Char) : Bool := ['y', 'm', 'd'].contains (lowerAscii c)

theorem Text.lowerAscii_of_blank {c : Char} (h : isBlank c = true) : lowerAscii c = c := by
  exact forall_blank h (by decide)

theorem isDateLetter_of_plain {c : Char} (h : isPlainChar c = true) : isDateLetter c = false := by
  have blanks : ∀ d ∈ ['y', 'm', 'd'], isBlank d = false := forall_mem_of_all (by decide)
  have letters : ∀ d ∈ ['g', 'e', 'n', 'r', 'a', 'l'], ['y', 'm', 'd'].contains d = false :=
    forall_mem_of_all (by decide)
  unfold isPlainChar at h
  rw [Bool.or_eq_true, Bool.or_eq_true] at h
  rcases h with (hblank | hat) | hletter
  · refine Bool.eq_false_iff.2 fun hletter => ?_
    unfold isDateLetter at hletter
    rw [lowerAscii_of_blank hblank] at hletter
    exact Bool.false_ne_true ((blanks c (List.contains_iff_mem.1 hletter)).symm.trans hblank)
  · rw [eq_of_beq hat]
    decide
  · exact letters _ (List.contains_iff_mem.1 hletter)

namespace Format

variable {c : Char} {cs : List Char}

theorem isPlainChar_of_mem (h : isPlain (String.ofList cs) = true) (hc : c ∈ cs) :
    isPlainChar c = true := by
  unfold isPlain at h
  rw [String.toList_ofList, Bool.or_eq_true, Bool.or_eq_true] at h
  unfold isPlainChar
  rcases h with (hempty | hat) | hword
  · rw [beq_iff_eq, String.ofList_eq_empty_iff] at hempty
    rw [hempty] at hc
    cases hc
  · rcases mem_trimBy (p := isBlank) hc with hblank | hmem
    · rw [hblank, Bool.true_or, Bool.true_or]
    · rw [show trimBy isBlank cs = ['@'] from eq_of_beq hat, List.mem_singleton] at hmem
      rw [hmem]
      decide
  · rcases mem_trimBy (p := isBlank) hc with hblank | hmem
    · rw [hblank, Bool.true_or, Bool.true_or]
    · have word : ∀ d ∈ "general".toList, ['g', 'e', 'n', 'r', 'a', 'l'].contains d = true :=
        forall_mem_of_all (by decide)
      have hletter : lowerAscii c ∈ (trimBy isBlank cs).map lowerAscii := List.mem_map_of_mem hmem
      rw [show (trimBy isBlank cs).map lowerAscii = _ from eq_of_beq hword] at hletter
      rw [word _ hletter, Bool.or_true]

theorem isPlain_eq_false (hc : c ∈ cs) (h : isPlainChar c = false) :
    isPlain (String.ofList cs) = false := by
  refine Bool.eq_false_iff.2 fun hplain => ?_
  rw [isPlainChar_of_mem hplain hc] at h
  cases h

/-! ## What a section lacks -/

theorem pieces_bare (hc : c ≠ '"') (cs : List Char) : pieces (c :: cs) = .bare c :: pieces cs := by
  rw [pieces, if_neg hc]

theorem pieces_append {us : List Char} (hus : '"' ∉ us) (cs : List Char) :
    pieces (us ++ cs) = us.map .bare ++ pieces cs := by
  induction us with
  | nil => rfl
  | cons c rest ih =>
    obtain ⟨hc, hrest⟩ := not_or.1 (fun h => hus (List.mem_cons.2 h))
    rw [List.cons_append, pieces_bare (Ne.symm hc), ih hrest]
    rfl

theorem outsideQuotes_append {us : List Char} (hus : '"' ∉ us) (cs : List Char) :
    outsideQuotes (us ++ cs) = us ++ outsideQuotes cs := by
  unfold outsideQuotes
  rw [pieces_append hus, List.filterMap_append, List.filterMap_map]
  exact congrArg (· ++ _) List.filterMap_some

theorem outsideQuotes_of_noQuote (h : '"' ∉ cs) : outsideQuotes cs = cs := by
  have happend := outsideQuotes_append h []
  have hnil : outsideQuotes [] = [] := by
    unfold outsideQuotes
    rw [pieces]
    rfl
  rwa [hnil, List.append_nil] at happend

theorem takeDateToken?_eq_none {ds : List Char} (hc : isDateLetter c = false) :
    takeDateToken? (c :: ds) = none := by
  have heads : ∀ t ∈ dateTokens, t.1.toList.head?.any (['y', 'm', 'd'].contains ·) = true := by
    decide
  unfold takeDateToken?
  rw [Option.map_eq_none_iff, List.find?_eq_none]
  intro t ht hprefix
  have hhead := heads t ht
  cases htoken : t.1.toList with
  | nil =>
    rw [htoken] at hhead
    cases hhead
  | cons d rest =>
    rw [htoken, List.map_cons, List.isPrefixOf_cons_cons, Bool.and_eq_true] at hprefix
    rw [htoken, eq_of_beq hprefix.1] at hhead
    exact Bool.false_ne_true (hc.symm.trans hhead)

theorem hasDateToken_eq_false (h : ∀ c ∈ cs, isDateLetter c = false) : hasDateToken cs = false := by
  induction cs with
  | nil => rfl
  | cons c rest ih =>
    obtain ⟨hc, hrest⟩ := List.forall_mem_cons.1 h
    rw [hasDateToken, List.take_succ_cons, takeDateToken?_eq_none hc, ih hrest]
    rfl

theorem takePattern_eq_nil (hplace : isPlace c = false) (hpoint : c ≠ '.') (cs : List Char) :
    takePattern (c :: cs) = [] := by
  unfold takePattern
  dsimp only
  rw [hplace, if_neg Bool.false_ne_true, if_neg hpoint]

theorem findPattern?_eq_none (h : ∀ c ∈ cs, isPlace c = false ∧ c ≠ '.') :
    findPattern? cs = none := by
  induction cs with
  | nil => rfl
  | cons c rest ih =>
    obtain ⟨⟨hplace, hpoint⟩, hrest⟩ := List.forall_mem_cons.1 h
    rw [findPattern?, takePattern_eq_nil hplace hpoint]
    exact ih hrest

/-- Without quotes and without the three marks for a single character a text is taken as it is. -/
theorem literal_eq_self (h : ∀ c ∈ cs, c ∉ ['"', '\\', '_', '*']) : literal cs = cs := by
  have hmark : ∀ {d : Char} {ds : List Char}, (∀ c ∈ d :: ds, c ∉ ['"', '\\', '_', '*']) →
      d ∉ ['"', '\\', '_', '*'] := fun h => h _ List.mem_cons_self
  fun_induction literal cs with
  | case1 => rfl
  | case2 c => rfl
  | case3 d rest content rest' hcut ih => exact absurd (by decide) (hmark h)
  | case4 d rest hcut ih => exact absurd (by decide) (hmark h)
  | case5 c rest _ ih => rw [ih (List.forall_mem_cons.1 h).2]
  | case6 d rest _ _ ih => exact absurd (by decide) (hmark h)
  | case7 d rest _ _ _ ih => exact absurd (by decide) (hmark h)
  | case8 d rest _ _ _ _ ih => exact absurd (by decide) (hmark h)
  | case9 c d rest _ _ _ _ _ ih => rw [ih (List.forall_mem_cons.1 h).2]

end Format

end Spreadsheet
