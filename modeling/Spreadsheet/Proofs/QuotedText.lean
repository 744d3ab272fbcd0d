import Spreadsheet.Proofs.PlainFormat

/-!
# Literals in quotes

Each step of a display passes over text in quotes: the digit places and date letters are looked for
elsewhere (`outsideQuotes_inQuotes`), and the literal is copied (`literal_inQuotes`). Two steps do
look inside: tags are taken out of the whole section, and the digit places, found outside of quotes,
are looked up again in the whole section, where the first literal may hold the same characters
(`cutAround?_inQuotes`, `cutAround?_of_infix`).
-/

namespace Spreadsheet

namespace Format

variable {c : Char} {q cs p : List Char}

/-! ## Marks -/

/-- A text without marks holds no quote and no semicolon. -/
theorem ne_marks (h : ∀ c ∈ cs, c ∉ ['"', '[', ']', ';']) : ∀ c ∈ cs, c ≠ '"' ∧ c ≠ ';' :=
  fun c hc => ⟨fun heq => h c hc (by rw [heq]; decide), fun heq => h c hc (by rw [heq]; decide)⟩

theorem noQuote_of_noMark (h : ∀ c ∈ cs, c ∉ ['"', '[', ']', ';']) : '"' ∉ cs :=
  fun hmem => h _ hmem List.mem_cons_self

theorem brackets_of_noMark (h : ∀ c ∈ cs, c ∉ ['"', '[', ']', ';']) : brackets cs = [] :=
  brackets_eq_nil fun c hc =>
    ⟨fun heq => h c hc (by rw [heq]; decide), fun heq => h c hc (by rw [heq]; decide)⟩

/-! ## Pieces -/

theorem pieces_inQuotes (hq : '"' ∉ q) (cs : List Char) :
    pieces (inQuotes q ++ cs) = .quoted q :: pieces cs := by
  have hcut : cutAt? '"' (q ++ ['"'] ++ cs) = some (q, cs) := by
    rw [List.append_assoc]
    exact cutAt?_append hq cs
  show pieces ('"' :: (q ++ ['"'] ++ cs)) = _
  rw [pieces, if_pos rfl]
  split
  · next heq =>
    rw [hcut] at heq
    cases heq
    rfl
  · next heq =>
    rw [hcut] at heq
    cases heq

theorem outsideQuotes_inQuotes (hq : '"' ∉ q) (cs : List Char) :
    outsideQuotes (inQuotes q ++ cs) = outsideQuotes cs := by
  unfold outsideQuotes
  rw [pieces_inQuotes hq]
  rfl

theorem outsideQuotes_nil : outsideQuotes [] = [] := outsideQuotes_of_noQuote List.not_mem_nil

theorem literal_inQuotes (hq : '"' ∉ q) : literal (inQuotes q) = q := by
  have hcut : cutAt? '"' (q ++ ['"']) = some (q, []) := cutAt?_append hq []
  have hnil : literal [] = [] := by rw [literal]
  obtain ⟨d, rest, hd⟩ := List.exists_cons_of_ne_nil (List.append_ne_nil_of_right_ne_nil q
    (List.cons_ne_nil '"' []))
  show literal ('"' :: (q ++ ['"'])) = q
  rw [hd] at hcut ⊢
  rw [literal, if_pos rfl]
  split
  · next heq =>
    rw [hcut] at heq
    cases heq
    rw [hnil, List.append_nil]
  · next heq =>
    rw [hcut] at heq
    cases heq

/-- A quote that is never closed is copied. -/
theorem literal_openQuote (hq : '"' ∉ q) : literal ('"' :: q) = '"' :: literal q := by
  cases q with
  | nil =>
    rw [literal, literal]
  | cons d rest =>
    have hcut := cutAt?_eq_none hq
    rw [literal, if_pos rfl]
    split
    · next heq =>
      rw [hcut] at heq
      cases heq
    · rfl

/-! ## Digit places -/

theorem isPlace_cases (h : isPlace c = true) : c = '#' ∨ c = '0' ∨ c = '?' := by
  unfold isPlace at h
  simpa [or_assoc] using h

namespace IsPlaces

theorem exists_cons (h : IsPlaces p) : ∃ c cs, p = c :: cs ∧ isPlace c = true := by
  cases h with
  | whole hc _ => exact ⟨_, _, rfl, hc⟩
  | point hc _ _ => exact ⟨_, _, rfl, hc⟩

theorem forall_mem (h : IsPlaces p) : ∀ c ∈ p, isPlace c = true ∨ c = ',' ∨ c = '.' := by
  cases h with
  | whole hc hcs =>
    exact List.forall_mem_cons.2 ⟨.inl hc, fun d hd => (hcs d hd).imp_right .inl⟩
  | point hc hcs hds =>
    refine List.forall_mem_append.2 ⟨?_, List.forall_mem_cons.2 ⟨.inr (.inr rfl), ?_⟩⟩
    · exact List.forall_mem_cons.2 ⟨.inl hc, fun d hd => (hcs d hd).imp_right .inl⟩
    · exact fun d hd => .inl (hds d hd)

/-- Digit places hold none of the characters that have another meaning. -/
theorem ne_mark (h : IsPlaces p) (hc : c ∈ p) : c ∉ ['"', '[', ']', ';', '%'] := by
  rcases h.forall_mem c hc with hplace | rfl | rfl
  · rcases isPlace_cases hplace with rfl | rfl | rfl <;> decide
  · decide
  · decide

theorem ne_nil (h : IsPlaces p) : p ≠ [] := by
  obtain ⟨c, cs, rfl, -⟩ := h.exists_cons
  exact List.cons_ne_nil c cs

theorem noMark (h : IsPlaces p) : ∀ c ∈ p, c ∉ ['"', '[', ']', ';'] := fun _ hc hmem =>
  h.ne_mark hc (List.mem_append_left ['%'] hmem)

theorem not_mem (h : IsPlaces p) (hc : c ∈ ['"', '[', ']', ';', '%']) : c ∉ p :=
  fun hmem => h.ne_mark hmem hc

theorem takePattern_eq (h : IsPlaces p) : takePattern p = p := by
  have hall : ∀ {c : Char} {cs : List Char}, isPlace c = true →
      (∀ d ∈ cs, isPlace d = true ∨ d = ',') →
      ∀ d ∈ c :: cs, (fun d => isPlace d || d == ',') d = true := by
    intro c cs hc hcs d hd
    rw [Bool.or_eq_true, beq_iff_eq]
    rcases List.mem_cons.1 hd with rfl | hd
    · exact .inl hc
    · exact hcs d hd
  have hpoint : ¬ (isPlace '.' || '.' == ',') = true := by decide
  cases h with
  | @whole c cs hc hcs =>
    have htake := List.takeWhile_eq_self_iff.2 (hall hc hcs)
    have hdrop := List.dropWhile_eq_nil_iff.2 (hall hc hcs)
    unfold takePattern
    dsimp only
    rw [if_pos hc, htake, hdrop]
  | @point c cs ds hc hcs hds =>
    have htake : (c :: cs ++ '.' :: ds).takeWhile (fun d => isPlace d || d == ',') = c :: cs := by
      rw [List.takeWhile_append_of_pos (hall hc hcs),
        List.takeWhile_cons_of_neg (p := fun d => isPlace d || d == ',') hpoint, List.append_nil]
    have hdrop : (c :: cs ++ '.' :: ds).dropWhile (fun d => isPlace d || d == ',') = '.' :: ds := by
      rw [List.dropWhile_append_of_pos (hall hc hcs),
        List.dropWhile_cons_of_neg (p := fun d => isPlace d || d == ',') hpoint]
    rw [List.cons_append] at htake hdrop ⊢
    unfold takePattern
    dsimp only
    rw [if_pos hc, htake, hdrop]
    show c :: cs ++ '.' :: ds.takeWhile isPlace = _
    rw [List.takeWhile_eq_self_iff.2 hds]
    rfl

theorem findPattern?_eq (h : IsPlaces p) : findPattern? p = some p := by
  obtain ⟨c, cs, rfl, -⟩ := h.exists_cons
  rw [findPattern?, h.takePattern_eq]
  rfl

/-- A section whose text outside of quotes is digit places asks for no date. -/
theorem isDateSection_eq (h : IsPlaces p) (hcs : outsideQuotes cs = p) :
    isDateSection cs = false := by
  obtain ⟨c, rest, rfl, hplace⟩ := h.exists_cons
  unfold isDateSection
  dsimp only
  rw [hcs, List.any_cons, hplace]
  rfl

theorem timesPercent_eq (h : IsPlaces p) (hcs : outsideQuotes cs = p) (x : Number) :
    timesPercent x cs = .ok x := by
  refine if_neg fun hmem => ?_
  rw [hcs] at hmem
  exact h.ne_mark (List.contains_iff_mem.1 hmem) (by decide)

/-- The number stands between the literals around its digit places. -/
theorem renderPlaces_of_cut {a b : List Char} (h : IsPlaces p) (hcs : outsideQuotes cs = p)
    (hcut : cutAround? p cs = some (a, b)) (x : Number) :
    renderPlaces x cs = fillPattern x p >>= fun body => .ok (literal a ++ body ++ literal b) := by
  unfold renderPlaces
  rw [hcs, h.findPattern?_eq]
  dsimp only
  rw [hcut]
  rfl

theorem isPlain_eq (h : IsPlaces p) : isPlain (String.ofList p) = false := by
  obtain ⟨c, cs, rfl, hplace⟩ := h.exists_cons
  refine isPlain_eq_false List.mem_cons_self ?_
  rcases isPlace_cases hplace with rfl | rfl | rfl <;> decide

end IsPlaces

/-! ## Looking the digit places up -/

variable {part pre post : List Char}

theorem cutAround?_self (part post : List Char) :
    cutAround? part (part ++ post) = some ([], post) := by
  have hprefix : part.isPrefixOf (part ++ post) = true :=
    List.isPrefixOf_iff_prefix.2 (List.prefix_append _ _)
  cases hcs : part ++ post with
  | nil =>
    obtain ⟨rfl, rfl⟩ := List.append_eq_nil_iff.1 hcs
    rfl
  | cons c rest =>
    rw [cutAround?, ← hcs, if_pos hprefix, List.drop_left]

/-- A part is found behind a text if it starts nowhere in that text. -/
theorem cutAround?_append
    (h : ∀ s, s <:+ pre → s ≠ [] → ¬ part <+: s ++ (part ++ post)) :
    cutAround? part (pre ++ (part ++ post)) = some (pre, post) := by
  induction pre with
  | nil => exact cutAround?_self part post
  | cons c rest ih =>
    have hhere := h (c :: rest) (List.suffix_refl _) (List.cons_ne_nil _ _)
    have hrest := ih fun s hs => h s (hs.trans (List.suffix_cons _ _))
    rw [List.cons_append, cutAround?, if_neg, hrest]
    · rfl
    · rwa [List.isPrefixOf_iff_prefix]

/-- A part that stands behind a text is found at its place there, or earlier. -/
theorem exists_cutAround? (part pre post : List Char) :
    ∃ a b, cutAround? part (pre ++ (part ++ post)) = some (a, b) ∧ a <+: pre := by
  induction pre with
  | nil => exact ⟨[], post, cutAround?_self part post, List.prefix_refl _⟩
  | cons c rest ih =>
    rw [List.cons_append, cutAround?]
    split
    · exact ⟨[], _, rfl, List.nil_prefix⟩
    · obtain ⟨a, b, hcut, ha⟩ := ih
      rw [hcut]
      exact ⟨c :: a, b, rfl, List.cons_prefix_cons.2 ⟨rfl, ha⟩⟩

/-- A part without a character reaches no further than that character. -/
theorem prefix_of_prefix_append (hc : c ∉ part) (h : part <+: pre ++ c :: post) : part <+: pre := by
  have hsplit : pre ++ c :: post = pre ++ [c] ++ post := by rw [List.append_assoc]; rfl
  rw [hsplit] at h
  rcases List.prefix_or_prefix_of_prefix h (List.prefix_append _ _) with hpart | hpre
  · rcases List.prefix_concat_iff.1 hpart with rfl | hpart
    · exact absurd (List.mem_append_right _ (List.mem_singleton_self c)) hc
    · exact hpart
  · exact absurd (hpre.subset (List.mem_append_right _ (List.mem_singleton_self c))) hc

/-- Behind a literal that does not hold it, a part without quotes is found at its place. -/
theorem cutAround?_inQuotes (hne : part ≠ []) (hpart : '"' ∉ part) (hq : ¬ part <:+: q)
    (post : List Char) :
    cutAround? part (inQuotes q ++ (part ++ post)) = some (inQuotes q, post) := by
  refine cutAround?_append fun s hs hsne hprefix => ?_
  -- What starts inside the literal ends before its closing quote.
  rcases List.suffix_concat_iff.1 (show s <:+ ('"' :: q) ++ ['"'] from hs) with rfl | ⟨t, rfl, ht⟩
  · exact hsne rfl
  · rw [List.append_assoc] at hprefix
    have hinside : part <+: t := prefix_of_prefix_append hpart hprefix
    rcases List.suffix_cons_iff.1 ht with rfl | ht
    · obtain ⟨d, rest, rfl⟩ := List.exists_cons_of_ne_nil hne
      obtain ⟨rfl, -⟩ := List.cons_prefix_cons.1 hinside
      exact hpart List.mem_cons_self
    · exact hq (hinside.isInfix.trans ht.isInfix)

/-- A part without quotes that a literal holds is found inside the literal. -/
theorem cutAround?_of_infix (hne : part ≠ []) (hpart : '"' ∉ part) (hq : part <:+: q)
    (post : List Char) :
    ∃ a b, cutAround? part (inQuotes q ++ post) = some ('"' :: a, b) ∧ a <+: q := by
  obtain ⟨x, y, rfl⟩ := hq
  obtain ⟨a, b, hcut, ha⟩ := exists_cutAround? part x (y ++ ['"'] ++ post)
  have hopen : ¬ part.isPrefixOf ('"' :: (x ++ (part ++ (y ++ ['"'] ++ post)))) = true := by
    intro hprefix
    obtain ⟨d, rest, rfl⟩ := List.exists_cons_of_ne_nil hne
    obtain ⟨rfl, -⟩ := List.cons_prefix_cons.1 (List.isPrefixOf_iff_prefix.1 hprefix)
    exact hpart List.mem_cons_self
  have hchars : inQuotes (x ++ part ++ y) ++ post =
      '"' :: (x ++ (part ++ (y ++ ['"'] ++ post))) := by
    unfold inQuotes
    simp only [List.cons_append, List.append_assoc]
  rw [hchars, cutAround?, if_neg hopen, hcut]
  exact ⟨a, b, rfl, ha.trans ((List.prefix_append x part).trans (List.prefix_append _ y))⟩

end Format

end Spreadsheet
