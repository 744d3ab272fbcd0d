import Mathlib.Algebra.Group.Nat.Even
import Mathlib.Data.List.Induction
import Spreadsheet.Format.Scan
import Spreadsheet.Proofs.QuotedText

/-!
# Sections and quotes

A format is cut at a semicolon behind which the quotes come in pairs (`splitSections_mark`,
`splitSections_other`). Where the quotes of the whole format come in pairs, that is so exactly where
a scan from the left is outside of quotes: the scan and what lies ahead of it agree at each character
(`Scan.Agrees.read`), so both find the same sections (`Scan.sections_run`).

What the scan keeps (`Scan.Reads`) gives what the sections are: joined with semicolons they are the
format, each of them has an even count of quotes, and none has a semicolon outside of them. No other
list of sections does that (`Scan.run_intercalate`); in particular a text that is a section by itself
is not cut (`IsSection.splitSections_eq`).
-/

namespace Spreadsheet

namespace Format

variable {c d : Char} {a b cs p q rest : List Char} {parts : List (List Char)}

/-! ## Quotes in pairs -/

theorem even_count_pair (ha : '"' ∉ a) (hb : '"' ∉ b) (cs : List Char) :
    Even ((a ++ '"' :: (b ++ '"' :: cs)).count '"') ↔ Even (cs.count '"') := by
  rw [List.count_append, List.count_cons_self, List.count_append, List.count_cons_self,
    List.count_eq_zero_of_not_mem ha, List.count_eq_zero_of_not_mem hb, Nat.zero_add, Nat.zero_add,
    Nat.even_add_one, Nat.even_add_one, not_not]

theorem even_count_append (ha : '"' ∉ a) (cs : List Char) :
    Even ((a ++ cs).count '"') ↔ Even (cs.count '"') := by
  rw [List.count_append, List.count_eq_zero_of_not_mem ha, Nat.zero_add]

theorem even_count_inQuotes (hq : '"' ∉ q) (cs : List Char) :
    Even ((inQuotes q ++ cs).count '"') ↔ Even (cs.count '"') := by
  have hpair := even_count_pair List.not_mem_nil hq cs
  unfold inQuotes
  rwa [List.append_assoc]

theorem even_count_of_noQuote (hcs : '"' ∉ cs) : Even (cs.count '"') := by
  rw [List.count_eq_zero_of_not_mem hcs]
  exact Even.zero

theorem QuotesPaired.even (h : QuotesPaired cs) : Even (cs.count '"') := by
  induction h with
  | unquoted h => exact even_count_of_noQuote h
  | pair ha hb _ ih => exact (even_count_pair ha hb _).2 ih

theorem QuotesPaired.of_even (h : Even (cs.count '"')) : QuotesPaired cs := by
  -- On the length: the first two quotes are a pair, and what follows them is shorter.
  induction hlength : cs.length using Nat.strong_induction_on generalizing cs with
  | _ length ih =>
    by_cases hopen : '"' ∈ cs
    · obtain ⟨a, behind, rfl, ha⟩ := List.eq_append_cons_of_mem hopen
      have hclose : '"' ∈ behind := by
        by_contra hnone
        rw [List.count_append, List.count_cons_self, List.count_eq_zero_of_not_mem ha,
          List.count_eq_zero_of_not_mem hnone] at h
        exact absurd h (by decide)
      obtain ⟨b, rest, rfl, hb⟩ := List.eq_append_cons_of_mem hclose
      refine .pair ha hb (ih rest.length ?_ ((even_count_pair ha hb rest).1 h) rfl)
      simp only [List.length_append, List.length_cons] at hlength
      omega
    · exact .unquoted hopen

theorem quotesPaired_iff : QuotesPaired cs ↔ Even (cs.count '"') :=
  ⟨QuotesPaired.even, QuotesPaired.of_even⟩

theorem quotesPaired_nil : QuotesPaired [] := .unquoted List.not_mem_nil

theorem quotesPaired_quote : QuotesPaired ('"' :: cs) ↔ ¬ QuotesPaired cs := by
  rw [quotesPaired_iff, quotesPaired_iff, List.count_cons_self, Nat.even_add_one]

theorem quotesPaired_cons (hc : c ≠ '"') : QuotesPaired (c :: cs) ↔ QuotesPaired cs := by
  rw [quotesPaired_iff, quotesPaired_iff, List.count_cons_of_ne hc]

/-! ## Cutting by the quotes behind -/

theorem splitEven_fst (cs : List Char) : (splitEven cs).1 = true ↔ QuotesPaired cs := by
  induction cs with
  | nil => exact iff_of_true rfl quotesPaired_nil
  | cons c rest ih =>
    rw [splitEven_fst_cons]
    by_cases hc : c = '"'
    · rw [if_pos hc, hc, quotesPaired_quote, ← ih, Bool.not_eq_true', Bool.not_eq_true]
    · rw [if_neg hc, quotesPaired_cons hc, ih]

/-- A semicolon ends a section if the quotes behind it come in pairs. -/
theorem splitSections_mark (h : QuotesPaired rest) :
    splitSections (';' :: rest) = [] :: splitSections rest := by
  rw [splitSections_cons, if_pos ⟨rfl, (splitEven_fst rest).2 h⟩]

theorem splitSections_other (h : ¬ (c = ';' ∧ QuotesPaired rest)) :
    splitSections (c :: rest) = (splitSections rest).modifyHead (c :: ·) := by
  rw [splitSections_cons, if_neg fun hcut => h ⟨hcut.1, (splitEven_fst rest).1 hcut.2⟩]

/-! ## The scan and what lies ahead -/

namespace Scan

variable {s : Scan}

theorem read_mark (h : s.inside = false) : s.read ';' = ⟨s.ended ++ [s.part], [], false⟩ := by
  rw [read, if_neg (by decide), if_pos ⟨rfl, h⟩]

theorem read_other (h : ¬ (c = ';' ∧ s.inside = false)) :
    s.read c = ⟨s.ended, s.part ++ [c], if c = '"' then !s.inside else s.inside⟩ := by
  rw [read, if_neg h]
  split <;> rfl

/-- Ahead of a scan the quotes come in pairs exactly if the scan is outside of quotes. -/
def Agrees (s : Scan) (cs : List Char) : Prop := QuotesPaired cs ↔ s.inside = false

theorem agrees_start (h : Even (cs.count '"')) : Agrees ⟨[], [], false⟩ cs :=
  iff_of_true (.of_even h) rfl

theorem Agrees.read (h : s.Agrees (c :: rest)) : (s.read c).Agrees rest := by
  unfold Agrees at h ⊢
  by_cases hmark : c = ';' ∧ s.inside = false
  · obtain ⟨rfl, hinside⟩ := hmark
    rw [read_mark hinside]
    exact iff_of_true ((quotesPaired_cons (by decide)).1 (h.2 hinside)) rfl
  · rw [read_other hmark]
    by_cases hc : c = '"'
    · rw [hc, quotesPaired_quote] at h
      rw [if_pos hc, Bool.not_eq_false', ← Bool.not_eq_false, ← h, not_not]
    · rw [quotesPaired_cons hc] at h
      rwa [if_neg hc]

/-- The sections of a scan when what lies ahead is cut by the quotes behind each semicolon. -/
def completed (s : Scan) (cs : List Char) : List (List Char) :=
  s.ended ++ (splitSections cs).modifyHead (s.part ++ ·)

theorem completed_read (h : s.Agrees (c :: rest)) :
    (s.read c).completed rest = s.completed (c :: rest) := by
  obtain ⟨first, more, hrest⟩ := List.exists_cons_of_ne_nil (splitSections_ne_nil rest)
  unfold completed
  -- The quotes behind the character end a section exactly if the scan does.
  by_cases hmark : c = ';' ∧ s.inside = false
  · obtain ⟨rfl, hinside⟩ := hmark
    have hpaired : QuotesPaired rest := (quotesPaired_cons (by decide)).1 (h.2 hinside)
    rw [read_mark hinside, splitSections_mark hpaired, hrest]
    simp
  · have hother : ¬ (c = ';' ∧ QuotesPaired rest) := by
      rintro ⟨rfl, hpaired⟩
      exact hmark ⟨rfl, h.1 ((quotesPaired_cons (by decide)).2 hpaired)⟩
    rw [read_other hmark, splitSections_other hother, hrest]
    simp

/-- A scan finds the sections into which a format is cut, if it agrees with what lies ahead. -/
theorem sections_run (h : s.Agrees cs) : (s.run cs).sections = s.completed cs := by
  induction cs generalizing s with
  | nil =>
    show s.ended ++ [s.part] = s.ended ++ [s.part ++ []]
    rw [List.append_nil]
  | cons c rest ih =>
    rw [← completed_read h]
    exact ih h.read

theorem Agrees.inside_run (h : s.Agrees cs) : (s.run cs).inside = false := by
  induction cs generalizing s with
  | nil => exact h.1 quotesPaired_nil
  | cons c rest ih => exact ih h.read

end Scan

/-! ## Outside of quotes -/

/-- A character stands somewhere behind an even count of quotes. -/
def StandsOutside (c : Char) (cs : List Char) : Prop :=
  ∃ before, before ++ [c] <+: cs ∧ Even (before.count '"')

theorem not_standsOutside_nil : ¬ StandsOutside c [] := by
  rintro ⟨before, hbefore, -⟩
  exact List.append_ne_nil_of_right_ne_nil before (List.cons_ne_nil c [])
    (List.prefix_nil.1 hbefore)

theorem standsOutside_concat : StandsOutside c (cs ++ [d]) ↔
    c = d ∧ Even (cs.count '"') ∨ StandsOutside c cs := by
  constructor
  · rintro ⟨before, hbefore, heven⟩
    rcases List.prefix_concat_iff.1 hbefore with heq | hbefore
    · obtain ⟨rfl, hcd⟩ := List.append_inj' heq rfl
      exact .inl ⟨List.singleton_inj.1 hcd, heven⟩
    · exact .inr ⟨before, hbefore, heven⟩
  · rintro (⟨rfl, heven⟩ | ⟨before, hbefore, heven⟩)
    · exact ⟨cs, List.prefix_refl _, heven⟩
    · exact ⟨before, hbefore.trans (List.prefix_append _ _), heven⟩

theorem standsOutside_cons (hd : d ≠ '"') :
    StandsOutside c (d :: cs) ↔ c = d ∨ StandsOutside c cs := by
  constructor
  · rintro ⟨before, hbefore, heven⟩
    cases before with
    | nil => exact .inl (List.cons_prefix_cons.1 hbefore).1
    | cons e before =>
      obtain ⟨rfl, htail⟩ := List.cons_prefix_cons.1 hbefore
      rw [List.count_cons_of_ne hd] at heven
      exact .inr ⟨before, htail, heven⟩
  · rintro (rfl | ⟨before, hbefore, heven⟩)
    · exact ⟨[], List.cons_prefix_cons.2 ⟨rfl, List.nil_prefix⟩, Even.zero⟩
    · refine ⟨d :: before, List.cons_prefix_cons.2 ⟨rfl, hbefore⟩, ?_⟩
      rwa [List.count_cons_of_ne hd]

/-- What a text with quoted text in front begins with is empty, ends in quotes or goes beyond them. -/
theorem prefix_inQuotes_cases (hq : '"' ∉ q) (h : a <+: inQuotes q ++ cs) :
    a = [] ∨ a.count '"' = 1 ∨ ∃ t, a = inQuotes q ++ t := by
  rcases List.prefix_or_prefix_of_prefix h (List.prefix_append _ _) with hshort | ⟨t, rfl⟩
  · rcases List.prefix_cons_iff.1 (show a <+: '"' :: (q ++ ['"']) from hshort) with rfl | ⟨t, rfl, ht⟩
    · exact .inl rfl
    · rcases List.prefix_concat_iff.1 ht with rfl | ht
      · exact .inr (.inr ⟨[], (List.append_nil _).symm⟩)
      · refine .inr (.inl ?_)
        rw [List.count_cons_self, List.count_eq_zero_of_not_mem fun hmem => hq (ht.subset hmem)]
  · exact .inr (.inr ⟨t, rfl⟩)

theorem standsOutside_inQuotes (hq : '"' ∉ q) (hc : c ≠ '"') :
    StandsOutside c (inQuotes q ++ cs) ↔ StandsOutside c cs := by
  constructor
  · rintro ⟨before, hbefore, heven⟩
    rcases prefix_inQuotes_cases hq ((List.prefix_append before [c]).trans hbefore) with
      rfl | hone | ⟨t, rfl⟩
    · exact absurd (List.cons_prefix_cons.1 hbefore).1 hc
    · rw [hone] at heven
      exact absurd heven (by decide)
    · rw [List.append_assoc, List.prefix_append_right_inj] at hbefore
      exact ⟨t, hbefore, (even_count_inQuotes hq t).1 heven⟩
  · rintro ⟨before, hbefore, heven⟩
    refine ⟨inQuotes q ++ before, ?_, (even_count_inQuotes hq before).2 heven⟩
    rwa [List.append_assoc, List.prefix_append_right_inj]

/-- With an even count of quotes, what is left outside of them stands behind an even count. -/
theorem mem_outsideQuotes_iff (h : Even (cs.count '"')) (hc : c ≠ '"') :
    c ∈ outsideQuotes cs ↔ StandsOutside c cs := by
  induction cs using pieces.induct with
  | case1 =>
    rw [outsideQuotes_nil]
    exact iff_of_false List.not_mem_nil not_standsOutside_nil
  | case2 behind content rest hcut ih =>
    obtain ⟨rfl, hcontent⟩ := eq_of_cutAt? hcut
    have hchars : '"' :: (content ++ '"' :: rest) = inQuotes content ++ rest := by
      unfold inQuotes
      simp
    rw [hchars, even_count_inQuotes hcontent] at h
    rw [hchars, outsideQuotes_inQuotes hcontent, standsOutside_inQuotes hcontent hc]
    exact ih h
  | case3 behind hcut ih =>
    -- A quote that is never closed would be the only one.
    have hnone : '"' ∉ behind := by
      intro hmem
      obtain ⟨x, y, rfl, hx⟩ := List.eq_append_cons_of_mem hmem
      rw [cutAt?_append hx] at hcut
      cases hcut
    rw [List.count_cons_self, List.count_eq_zero_of_not_mem hnone] at h
    exact absurd h (by decide)
  | case4 d rest hd ih =>
    have hnone : '"' ∉ [d] := fun hmem => hd (List.mem_singleton.1 hmem).symm
    have hbare := outsideQuotes_append hnone rest
    rw [List.count_cons_of_ne hd] at h
    rw [standsOutside_cons hd, ← ih h]
    show c ∈ outsideQuotes ([d] ++ rest) ↔ _
    rw [hbare, List.singleton_append, List.mem_cons]

theorem isSection_iff : IsSection cs ↔ Even (cs.count '"') ∧ ¬ StandsOutside ';' cs := by
  constructor
  · intro h
    exact ⟨h.even, fun hmark => h.unmarked ((mem_outsideQuotes_iff h.even (by decide)).2 hmark)⟩
  · rintro ⟨heven, hmark⟩
    exact ⟨heven, fun hmem => hmark ((mem_outsideQuotes_iff heven (by decide)).1 hmem)⟩

/-! ## What a scan keeps -/

theorem intercalate_concat (sep : List Char) (ls : List (List Char)) (last : List Char) :
    sep.intercalate (ls ++ [last]) = ls.flatMap (· ++ sep) ++ last := by
  induction ls with
  | nil => exact List.intercalate_singleton
  | cons l ls ih =>
    obtain ⟨first, more, hcons⟩ := List.exists_cons_of_ne_nil
      (List.append_ne_nil_of_right_ne_nil ls (List.cons_ne_nil last []))
    rw [List.flatMap_cons, List.append_assoc, ← ih, List.cons_append, hcons,
      List.intercalate_cons_cons]

namespace Scan

variable {s : Scan}

/-- A quote changes both sides of the invariant, another character neither. -/
theorem inside_concat {inside : Bool} (h : inside = false ↔ Even (p.count '"')) :
    (if c = '"' then !inside else inside) = false ↔ Even ((p ++ [c]).count '"') := by
  by_cases hc : c = '"'
  · rw [if_pos hc, hc, List.count_append, List.count_singleton_self, Nat.even_add_one, ← h,
      Bool.not_eq_false', Bool.not_eq_false]
  · rw [if_neg hc, List.count_append, List.count_singleton, h]
    simp [hc]

/-- The scan has read a text. -/
structure Reads (s : Scan) (cs : List Char) : Prop where
  join : [';'].intercalate s.sections = cs
  ended : ∀ part ∈ s.ended, IsSection part
  inside : s.inside = false ↔ Even (s.part.count '"')
  unmarked : ¬ StandsOutside ';' s.part

theorem reads_start : Reads ⟨[], [], false⟩ [] where
  join := rfl
  ended := nofun
  inside := iff_of_true rfl Even.zero
  unmarked := not_standsOutside_nil

theorem Reads.read (h : s.Reads cs) (c : Char) : (s.read c).Reads (cs ++ [c]) := by
  have hjoin : s.ended.flatMap (· ++ [';']) ++ s.part = cs := by
    rw [← intercalate_concat]
    exact h.join
  by_cases hmark : c = ';' ∧ s.inside = false
  · obtain ⟨rfl, hinside⟩ := hmark
    have hpart : IsSection s.part := isSection_iff.2 ⟨h.inside.1 hinside, h.unmarked⟩
    rw [read_mark hinside]
    exact {
      join := by
        rw [← hjoin, sections, intercalate_concat]
        simp
      ended := List.forall_mem_append.2 ⟨h.ended, List.forall_mem_singleton.2 hpart⟩
      inside := iff_of_true rfl Even.zero
      unmarked := not_standsOutside_nil }
  · rw [read_other hmark]
    exact {
      join := by
        rw [← hjoin, sections, intercalate_concat, List.append_assoc]
      ended := h.ended
      inside := inside_concat h.inside
      unmarked := by
        rw [standsOutside_concat, not_or]
        exact ⟨fun hc => hmark ⟨hc.1.symm, h.inside.2 hc.2⟩, h.unmarked⟩ }

theorem Reads.run (h : s.Reads a) (cs : List Char) : (s.run cs).Reads (a ++ cs) := by
  induction cs generalizing s a with
  | nil =>
    rw [List.append_nil]
    exact h
  | cons c rest ih =>
    rw [← List.singleton_append, ← List.append_assoc]
    exact ih (h.read c)

/-! ## Reading sections -/

theorem run_append (s : Scan) (cs ds : List Char) : s.run (cs ++ ds) = (s.run cs).run ds :=
  List.foldl_append

/-- A semicolon in quotes ends no section. -/
theorem run_unmarked (ended : List (List Char)) (h : ¬ StandsOutside ';' p) :
    ∃ inside, run ⟨ended, [], false⟩ p = ⟨ended, p, inside⟩ ∧
      (inside = false ↔ Even (p.count '"')) := by
  induction p using List.reverseRecOn with
  | nil => exact ⟨false, rfl, iff_of_true rfl Even.zero⟩
  | append_singleton p c ih =>
    rw [standsOutside_concat, not_or] at h
    obtain ⟨inside, hrun, hinside⟩ := ih h.2
    have hmark : ¬ (c = ';' ∧ inside = false) := fun hc => h.1 ⟨hc.1.symm, hinside.1 hc.2⟩
    refine ⟨if c = '"' then !inside else inside, ?_, inside_concat hinside⟩
    rw [run_append, hrun]
    exact read_other hmark

theorem run_section (ended : List (List Char)) (h : IsSection p) :
    run ⟨ended, [], false⟩ p = ⟨ended, p, false⟩ := by
  obtain ⟨inside, hrun, hinside⟩ := run_unmarked ended (isSection_iff.1 h).2
  rw [hrun, hinside.2 h.even]

/-- A scan finds the sections that have been joined. -/
theorem run_intercalate (ended : List (List Char)) (hne : parts ≠ [])
    (h : ∀ part ∈ parts, IsSection part) :
    (run ⟨ended, [], false⟩ ([';'].intercalate parts)).sections = ended ++ parts := by
  induction parts generalizing ended with
  | nil => exact absurd rfl hne
  | cons part parts ih =>
    obtain ⟨hpart, hparts⟩ := List.forall_mem_cons.1 h
    cases parts with
    | nil =>
      rw [List.intercalate_singleton, run_section ended hpart]
      rfl
    | cons next more =>
      -- The semicolon behind a section is read outside of quotes, and the scan starts again.
      have hread : run ⟨ended, [], false⟩ (part ++ [';']) = ⟨ended ++ [part], [], false⟩ := by
        rw [run_append, run_section ended hpart]
        exact read_mark (s := ⟨ended, part, false⟩) rfl
      rw [List.intercalate_cons_cons, run_append, hread, ih _ (List.cons_ne_nil _ _) hparts,
        List.append_assoc, List.singleton_append]

end Scan

/-! ## The sections of a format -/

/-- A format is cut as a scan from the left cuts it that starts in quotes if their count is odd. -/
theorem splitSections_eq_run {inside : Bool} (h : Scan.Agrees ⟨[], [], inside⟩ cs) :
    splitSections cs = (Scan.run ⟨[], [], inside⟩ cs).sections := by
  obtain ⟨first, more, hcs⟩ := List.exists_cons_of_ne_nil (splitSections_ne_nil cs)
  rw [Scan.sections_run h, Scan.completed, hcs]
  rfl

theorem IsSection.splitSections_eq (h : IsSection cs) : splitSections cs = [cs] := by
  rw [splitSections_eq_run (Scan.agrees_start h.even), Scan.run_section [] h]
  rfl

/-- Without quotes and semicolons a format is a single section. -/
theorem splitSections_bare (h : ∀ c ∈ cs, c ≠ '"' ∧ c ≠ ';') : splitSections cs = [cs] := by
  have hquote : '"' ∉ cs := fun hmem => (h _ hmem).1 rfl
  have hsection : IsSection cs := by
    refine ⟨even_count_of_noQuote hquote, ?_⟩
    rw [outsideQuotes_of_noQuote hquote]
    exact fun hmem => (h _ hmem).2 rfl
  exact hsection.splitSections_eq

/-- **Sections respect quotes.** With an even count of quotes a format is cut at the semicolons that a
scan from the left finds outside of quotes. So its sections, joined with semicolons, are the format
again, each of them has an even count of quotes and no semicolon outside of them, and no other list of
such texts gives the format. -/
theorem splitSections_respects_quotes (h : Even (cs.count '"')) :
    [';'].intercalate (splitSections cs) = cs ∧
    (∀ part ∈ splitSections cs, IsSection part) ∧
    splitSections cs = scanSections cs ∧
    ∀ parts, parts ≠ [] → [';'].intercalate parts = cs → (∀ part ∈ parts, IsSection part) →
      parts = splitSections cs := by
  have hagrees := Scan.agrees_start h
  have hscan : splitSections cs = scanSections cs := splitSections_eq_run hagrees
  have hreads : (Scan.run ⟨[], [], false⟩ cs).Reads cs := Scan.reads_start.run cs
  have hlast : IsSection (Scan.run ⟨[], [], false⟩ cs).part :=
    isSection_iff.2 ⟨hreads.inside.1 hagrees.inside_run, hreads.unmarked⟩
  refine ⟨?_, ?_, hscan, ?_⟩
  · rw [hscan]
    exact hreads.join
  · rw [hscan]
    exact List.forall_mem_append.2 ⟨hreads.ended, List.forall_mem_singleton.2 hlast⟩
  · intro parts hne hjoin hparts
    rw [hscan, ← hjoin]
    exact (Scan.run_intercalate [] hne hparts).symm

/-- The first semicolon stands in quotes, and between the other two is an empty section. -/
theorem quotedMark_sections : Even ("0\";\";;\n".toList.count '"') ∧
    splitSections "0\";\";;\n".toList = [['0', '"', ';', '"'], [], ['\n']] ∧
    [';'].intercalate [['0', '"', ';', '"'], [], ['\n']] = "0\";\";;\n".toList ∧
    (∀ part ∈ [['0', '"', ';', '"'], [], ['\n']], IsSection part) ∧
    scanSections "0\";\";;\n".toList = [['0', '"', ';', '"'], [], ['\n']] := by
  have heven : Even ("0\";\";;\n".toList.count '"') := by decide
  have hsplit : splitSections "0\";\";;\n".toList = [['0', '"', ';', '"'], [], ['\n']] := by decide
  obtain ⟨hjoin, hsections, hscan, -⟩ := splitSections_respects_quotes heven
  rw [hsplit] at hjoin hsections hscan
  exact ⟨heven, hsplit, hjoin, hsections, hscan.symm⟩

end Format

end Spreadsheet
