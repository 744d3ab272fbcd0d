/-!
# Parts of a text

`List.splitOn` cuts a text at each occurrence of a mark. The parts hold no mark, and putting other
characters in place of those that are no mark does so in every part.
-/

namespace Spreadsheet.Text

variable {mark : Char}

theorem splitOn_cons_of_ne {c : Char} (hc : c ≠ mark) (cs : List Char) :
    (c :: cs).splitOn mark = (cs.splitOn mark).modifyHead (c :: ·) := by
  rw [List.splitOn_cons_eq_if_modifyHead, if_neg fun h => hc (eq_of_beq h)]

theorem splitOn_cons_self (cs : List Char) : (mark :: cs).splitOn mark = [] :: cs.splitOn mark := by
  rw [List.splitOn_cons_eq_if_modifyHead, if_pos (beq_self_eq_true mark)]

theorem splitOn_cons_of_eq {cs part : List Char} {parts : List (List Char)}
    (h : cs.splitOn mark = part :: parts) (c : Char) : (c :: cs).splitOn mark =
      if c = mark then [] :: part :: parts else (c :: part) :: parts := by
  split
  · next hc => rw [hc, splitOn_cons_self, h]
  · next hc =>
    rw [splitOn_cons_of_ne hc, h]
    rfl

/-- A recursion that cuts a text character by character, as `List.splitOn` does. -/
theorem eq_splitOn {split : List Char → List (List Char)} (hnil : split [] = [[]])
    (hcons : ∀ c rest part parts, split rest = part :: parts → split (c :: rest) =
      if c = mark then [] :: part :: parts else (c :: part) :: parts) (cs : List Char) :
    split cs = cs.splitOn mark := by
  induction cs with
  | nil => exact hnil
  | cons c rest ih =>
    obtain ⟨part, parts, hrest⟩ := List.exists_cons_of_ne_nil (List.splitOn_ne_nil mark rest)
    rw [splitOn_cons_of_eq hrest, hcons c rest part parts (ih.trans hrest)]

theorem not_mem_of_mem_splitOn {cs part : List Char} (h : part ∈ cs.splitOn mark) :
    mark ∉ part := by
  induction cs generalizing part with
  | nil =>
    rw [List.splitOn_nil, List.mem_singleton] at h
    rw [h]
    exact List.not_mem_nil
  | cons c rest ih =>
    by_cases hc : c = mark
    · rw [hc, splitOn_cons_self, List.mem_cons] at h
      rcases h with rfl | h
      · exact List.not_mem_nil
      · exact ih h
    · obtain ⟨first, parts, hrest⟩ := List.exists_cons_of_ne_nil (List.splitOn_ne_nil mark rest)
      rw [hrest] at ih
      rw [splitOn_cons_of_ne hc, hrest, List.modifyHead_cons, List.mem_cons] at h
      rcases h with rfl | h
      · rw [List.mem_cons, not_or]
        exact ⟨Ne.symm hc, ih List.mem_cons_self⟩
      · exact ih (List.mem_cons_of_mem _ h)

/-- A text has two parts when it has a single mark, between them. -/
theorem splitOn_eq_pair_iff {cs first last : List Char} :
    cs.splitOn mark = [first, last] ↔ cs = first ++ mark :: last ∧ mark ∉ first ∧ mark ∉ last := by
  constructor
  · intro h
    have hparts : ∀ part ∈ [first, last], mark ∉ part := fun part hp =>
      not_mem_of_mem_splitOn (h ▸ hp)
    have hjoin := @List.intercalate_splitOn _ cs _ _ mark
    rw [h] at hjoin
    refine ⟨?_, hparts first List.mem_cons_self,
      hparts last (List.mem_cons_of_mem _ List.mem_cons_self)⟩
    rw [← hjoin]
    simp [List.intercalate]
  · rintro ⟨rfl, hfirst, hlast⟩
    rw [List.splitOn_append_cons_self_of_not_mem hfirst, List.splitOn_eq_singleton hlast]

theorem splitOn_append_of_not_mem {w : List Char} (hw : mark ∉ w) (cs : List Char) :
    (w ++ cs).splitOn mark = (cs.splitOn mark).modifyHead (w ++ ·) := by
  obtain ⟨first, parts, hcs⟩ := List.exists_cons_of_ne_nil (List.splitOn_ne_nil mark cs)
  rw [hcs]
  induction w with
  | nil => exact hcs
  | cons c rest ih =>
    rw [List.mem_cons, not_or] at hw
    rw [List.cons_append, splitOn_cons_of_ne (Ne.symm hw.1), ih hw.2]
    rfl

theorem exists_pair_of_map {α β : Type} {f : α → β} {l : List α} {x y : β} (h : l.map f = [x, y]) :
    ∃ a b, l = [a, b] ∧ f a = x ∧ f b = y := by
  obtain ⟨a, rest, rfl, ha, hrest⟩ := List.map_eq_cons_iff.1 h
  obtain ⟨b, rfl, hb⟩ := List.map_eq_singleton_iff.1 hrest
  exact ⟨a, b, rfl, ha, hb⟩

/-- Characters put in place of others, but not of the mark, are put into each part. -/
theorem splitOn_flatMap {f : Char → List Char} (hmark : f mark = [mark])
    (hf : ∀ c, c ≠ mark → mark ∉ f c) (cs : List Char) :
    (cs.flatMap f).splitOn mark = (cs.splitOn mark).map fun part => part.flatMap f := by
  induction cs with
  | nil => rfl
  | cons c rest ih =>
    rw [List.flatMap_cons]
    by_cases hc : c = mark
    · rw [hc, hmark, splitOn_cons_self, List.map_cons, ← ih]
      exact splitOn_cons_self _
    · obtain ⟨first, parts, hrest⟩ := List.exists_cons_of_ne_nil (List.splitOn_ne_nil mark rest)
      rw [splitOn_append_of_not_mem (hf c hc), ih, splitOn_cons_of_ne hc, hrest]
      rfl

end Spreadsheet.Text
