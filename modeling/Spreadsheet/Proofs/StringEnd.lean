import Mathlib
import Spreadsheet.Formula.StringLiteral

/-!
# The end of a string

The scanner pairs each backslash with the character behind it, while the pattern of strings counts
the backslashes before a quote. Of two matches of the pattern the one that takes less has no more
characters before its pairs of backslashes (`body_le`), so the first match is the shortest one, and
that is what the scanner takes (`takeString?_eq_some_iff`).
-/

namespace Spreadsheet

/-! ## Matches -/

namespace StringMatch

variable {cs rest : List Char} {c : Char}

/-- The empty string, closed at once. -/
def close (rest : List Char) : StringMatch ('"' :: rest) where
  body := []
  pairs := 0
  one_line := List.not_mem_nil
  no_backslash := nofun
  closes := ⟨rest, rfl⟩

/-- A string with one more pair of backslashes. -/
def pair (m : StringMatch rest) (hbody : m.body = []) : StringMatch ('\\' :: '\\' :: rest) where
  body := []
  pairs := m.pairs + 1
  one_line := List.not_mem_nil
  no_backslash := nofun
  closes := by
    have hcloses := m.closes
    rw [hbody] at hcloses
    exact List.cons_prefix_cons.2 ⟨rfl, List.cons_prefix_cons.2 ⟨rfl, hcloses⟩⟩

/-- A string with more characters in front, the last of which is no backslash where the pairs come
next. -/
def extend (m : StringMatch rest) (front : List Char) (hline : '\n' ∉ front)
    (hlast : m.body = [] → front.getLast? ≠ some '\\') : StringMatch (front ++ rest) where
  body := front ++ m.body
  pairs := m.pairs
  one_line := by
    rw [List.mem_append, not_or]
    exact ⟨hline, m.one_line⟩
  no_backslash := by
    rw [List.getLast?_append]
    cases hbody : m.body.getLast? with
    | none => exact hlast (List.getLast?_eq_none_iff.1 hbody)
    | some c =>
      have hc := m.no_backslash
      rw [hbody] at hc
      exact hc
  closes := by
    have hcloses := (List.prefix_append_right_inj front).2 m.closes
    simpa only [List.append_assoc] using hcloses

/-- How a match goes on behind the first character: it ends at a quote, takes two characters from a
backslash on, or takes any other character. -/
theorem head (m : StringMatch (c :: rest)) :
    c = '"' ∧ m.content = [] ∨
    (c = '\\' ∧ ∃ d tail, rest = d :: tail ∧ d ≠ '\n' ∧
      ∃ m' : StringMatch tail, m.content = c :: d :: m'.content) ∨
    (c ≠ '\\' ∧ c ≠ '\n' ∧ ∃ m' : StringMatch rest, m.content = c :: m'.content) := by
  obtain ⟨body, pairs, hline, hlast, hcloses⟩ := m
  unfold content
  match body with
  | [] =>
    cases pairs with
    | zero => exact .inl ⟨(List.cons_prefix_cons.1 hcloses).1.symm, rfl⟩
    | succ pairs =>
      obtain ⟨rfl, tail, rfl⟩ := List.cons_prefix_cons.1 hcloses
      exact .inr (.inl ⟨rfl, _, _, rfl, by decide,
        ⟨[], pairs, List.not_mem_nil, nofun, ⟨tail, rfl⟩⟩, rfl⟩)
  | [x] =>
    obtain ⟨rfl, hrest⟩ := List.cons_prefix_cons.1 hcloses
    refine .inr (.inr ⟨fun h => hlast (congrArg some h), fun h => hline ?_,
      ⟨[], pairs, List.not_mem_nil, nofun, hrest⟩, rfl⟩)
    rw [h]
    exact List.mem_cons_self
  | x :: y :: body =>
    obtain ⟨rfl, hrest⟩ := List.cons_prefix_cons.1 hcloses
    obtain ⟨hx, hline'⟩ := not_or.1 (List.mem_cons.not.1 hline)
    have hlast' := hlast
    rw [List.getLast?_cons_cons] at hlast'
    by_cases hslash : x = '\\'
    · obtain ⟨tail, rfl⟩ := hrest
      obtain ⟨hy, hbody⟩ := not_or.1 (List.mem_cons.not.1 hline')
      refine .inr (.inl ⟨hslash, y, _, rfl, Ne.symm hy, ⟨body, pairs, hbody, ?_, ⟨tail, rfl⟩⟩, rfl⟩)
      cases body with
      | nil => nofun
      | cons z body =>
        rw [List.getLast?_cons_cons] at hlast'
        exact hlast'
    · exact .inr (.inr ⟨hslash, Ne.symm hx, ⟨y :: body, pairs, hline', hlast', hrest⟩, rfl⟩)

theorem length_content (m : StringMatch cs) : m.content.length = m.body.length + 2 * m.pairs := by
  unfold content
  rw [List.length_append, List.length_replicate]

theorem body_isPrefix (m : StringMatch cs) : m.body <+: cs :=
  (List.append_assoc .. ▸ List.prefix_append _ _ : m.body <+: _).trans m.closes

/-- Of two matches the one that takes less is closed where the other one goes on. -/
theorem content_isPrefix {m m' : StringMatch cs} (h : m.content.length < m'.content.length) :
    m.content ++ ['"'] <+: m'.content := by
  refine List.prefix_of_prefix_length_le m.closes ((List.prefix_append _ _).trans m'.closes) ?_
  rw [List.length_append]
  exact h

/-- The match that takes less has no more characters before its pairs of backslashes: these would
reach into the pairs of the other one, and so end with a backslash. -/
theorem body_le {m m' : StringMatch cs} (h : m.content.length ≤ m'.content.length) :
    m.body.length ≤ m'.body.length := by
  by_contra hlt
  have hcontent : m.body <+: m'.content := by
    refine List.prefix_of_prefix_length_le m.body_isPrefix ((List.prefix_append _ _).trans m'.closes) ?_
    have hbody := m.length_content
    omega
  obtain ⟨r, hr⟩ := List.prefix_of_prefix_length_le m'.body_isPrefix m.body_isPrefix (by omega)
  unfold content at hcontent
  rw [← hr, List.prefix_append_right_inj] at hcontent
  obtain ⟨c, hc⟩ : ∃ c, r.getLast? = some c := by
    refine Option.isSome_iff_exists.1 (List.getLast?_isSome.2 ?_)
    rintro rfl
    rw [List.append_nil] at hr
    exact hlt (hr ▸ Nat.le_refl _)
  have hslash : c = '\\' := List.eq_of_mem_replicate (hcontent.subset (List.mem_of_getLast? hc))
  have hlast := m.no_backslash
  rw [← hr, List.getLast?_append, hc, hslash] at hlast
  exact hlast rfl

/-- Matches with equally many characters before their pairs of backslashes are the same. -/
theorem content_eq {m m' : StringMatch cs} (hbody : m.body.length = m'.body.length)
    (h : m.content.length ≤ m'.content.length) : m.content = m'.content := by
  have heq : m.body = m'.body :=
    (List.prefix_of_prefix_length_le m.body_isPrefix m'.body_isPrefix hbody.le).eq_of_length hbody
  rcases Nat.lt_or_eq_of_le h with hlt | hlen
  · have hprefix := content_isPrefix hlt
    unfold content at hprefix
    rw [heq, List.append_assoc, List.prefix_append_right_inj] at hprefix
    have hquote := hprefix.subset (List.mem_append_right _ List.mem_cons_self)
    exact absurd (List.eq_of_mem_replicate hquote) (by decide)
  · rw [length_content, length_content, hbody] at hlen
    unfold content
    rw [heq, Nat.add_left_cancel hlen]

end StringMatch

/-! ## What the scanner takes -/

namespace Token

/-- What the scanner takes is a way to match the pattern. -/
theorem exists_match_of_takeString? {cs content : List Char} (h : takeString? cs = some content) :
    ∃ m : StringMatch cs, m.content = content := by
  fun_induction takeString? cs generalizing content with
  | case1 => cases h
  | case2 rest =>
    cases h
    exact ⟨.close rest, rfl⟩
  | case3 => cases h
  | case4 c rest hline ih =>
    obtain ⟨content, hcontent, rfl⟩ := Option.map_eq_some_iff.1 h
    obtain ⟨m, rfl⟩ := ih hcontent
    by_cases hpair : m.body = [] ∧ c = '\\'
    · obtain ⟨hbody, rfl⟩ := hpair
      refine ⟨m.pair hbody, ?_⟩
      unfold StringMatch.content
      rw [hbody]
      rfl
    · refine ⟨m.extend ['\\', c] ?_ fun hbody hlast => hpair ⟨hbody, Option.some.inj hlast⟩, rfl⟩
      simp [Ne.symm hline]
  | case5 => cases h
  | case6 c rest hquote hpair hc ih =>
    obtain ⟨content, hcontent, rfl⟩ := Option.map_eq_some_iff.1 h
    obtain ⟨m, rfl⟩ := ih hcontent
    rw [not_or] at hc
    refine ⟨m.extend [c] ?_ fun _ hlast => hc.2 (Option.some.inj hlast), rfl⟩
    simp [Ne.symm hc.1]

/-- A string goes up to a quote. -/
theorem takeString?_isPrefix {cs content : List Char} (h : takeString? cs = some content) :
    content ++ ['"'] <+: cs := by
  obtain ⟨m, rfl⟩ := exists_match_of_takeString? h
  exact m.closes

/-- Where the pattern matches the scanner takes a string, and no longer one. -/
theorem takeString?_of_match {cs : List Char} (m : StringMatch cs) :
    ∃ content, takeString? cs = some content ∧ content.length ≤ m.content.length := by
  fun_induction takeString? cs with
  | case1 =>
    obtain ⟨tail, htail⟩ := m.closes
    simp at htail
  | case2 rest => exact ⟨[], rfl, Nat.zero_le _⟩
  | case3 rest =>
    obtain ⟨hc, -⟩ | ⟨-, d, tail, hrest, hd, -⟩ | ⟨hc, -⟩ := m.head
    · cases hc
    · cases hrest
      exact absurd rfl hd
    · exact absurd rfl hc
  | case4 c rest hline ih =>
    obtain ⟨hc, -⟩ | ⟨-, d, tail, hrest, hd, m', hm'⟩ | ⟨hc, -⟩ := m.head
    · cases hc
    · cases hrest
      obtain ⟨content, hcontent, hle⟩ := ih m'
      refine ⟨_, by rw [hcontent]; rfl, ?_⟩
      rw [hm']
      exact Nat.succ_le_succ (Nat.succ_le_succ hle)
    · exact absurd rfl hc
  | case5 c rest hquote hpair hc =>
    obtain ⟨rfl, -⟩ | ⟨rfl, d, tail, rfl, -⟩ | ⟨hslash, hline, -⟩ := m.head
    · exact absurd rfl hquote
    · exact absurd rfl (hpair d tail rfl)
    · exact absurd hc (not_or.2 ⟨hline, hslash⟩)
  | case6 c rest hquote hpair hc ih =>
    obtain ⟨rfl, -⟩ | ⟨rfl, -⟩ | ⟨-, -, m', hm'⟩ := m.head
    · exact absurd rfl hquote
    · exact absurd (.inr rfl) hc
    · obtain ⟨content, hcontent, hle⟩ := ih m'
      refine ⟨_, by rw [hcontent]; rfl, ?_⟩
      rw [hm']
      exact Nat.succ_le_succ hle

/-- **Two ways to find the end of a string.** The scanner takes exactly what the first match of the
pattern takes. -/
theorem takeString?_eq_some_iff {cs content : List Char} : takeString? cs = some content ↔
    ∃ m : StringMatch cs, m.IsFirst ∧ m.content = content := by
  have least : ∀ {content : List Char}, takeString? cs = some content → ∀ m : StringMatch cs,
      content.length ≤ m.content.length := by
    intro content h m
    obtain ⟨content', h', hle⟩ := takeString?_of_match m
    rw [h] at h'
    cases h'
    exact hle
  constructor
  · intro h
    obtain ⟨m, rfl⟩ := exists_match_of_takeString? h
    exact ⟨m, fun m' => StringMatch.body_le (least h m'), rfl⟩
  · rintro ⟨m, hfirst, rfl⟩
    obtain ⟨content, h, hle⟩ := takeString?_of_match m
    obtain ⟨m', rfl⟩ := exists_match_of_takeString? h
    have hbody := Nat.le_antisymm (StringMatch.body_le hle) (hfirst m')
    rw [h, StringMatch.content_eq hbody hle]

end Token

end Spreadsheet
