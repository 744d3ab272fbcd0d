import Mathlib.Data.List.TakeWhile
import Spreadsheet.Formula.Occurrence
import Spreadsheet.Proofs.StringEnd
import Spreadsheet.Proofs.TokenReading

/-!
# What the scanner takes from a text

Every token takes from the text the characters that spell it (`readOperand_taken`,
`readSymbol_taken`), so a text in which nothing unknown is met is spelled by its tokens, blanks aside
(`scan_spells`). This is the converse of reading tokens back, for all texts and not only for those in
which the tokens stand apart.
-/

namespace Spreadsheet

open Text Numeral

namespace Token

/-- A token takes so many characters off the front of a text, and they spell it. -/
def Taken (cs : List Char) (t : Token) (n : Nat) : Prop :=
  ∃ word rest, cs = word ++ rest ∧ word ≠ [] ∧ word.length = n ∧ t.capital.Spells word

theorem Taken.of_start {cs word : List Char} {t : Token} (h : word <+: cs) (hne : word ≠ [])
    (hw : t.capital.Spells word) : Taken cs t word.length := by
  obtain ⟨rest, rfl⟩ := h
  exact ⟨word, rest, rfl, hne, rfl, hw⟩

/-! ## References -/

theorem takeDollar_append (cs : List Char) : (takeDollar cs).1 ++ (takeDollar cs).2 = cs ∧
    ((takeDollar cs).1 = [] ∨ (takeDollar cs).1 = ['$']) := by
  unfold takeDollar
  split
  · exact ⟨rfl, .inr rfl⟩
  · exact ⟨rfl, .inl rfl⟩

/-- What is taken as a reference to a cell is one. -/
theorem takeCell?_eq_some {cs w rest : List Char} (h : takeCell? cs = some (w, rest)) :
    cs = w ++ rest ∧ CellText isAsciiLetter w := by
  unfold takeCell? at h
  obtain ⟨hfirst, hmark⟩ := takeDollar_append cs
  generalize takeDollar cs = marked at h hfirst hmark
  obtain ⟨mark, tail⟩ := marked
  dsimp only at h hfirst hmark
  obtain ⟨hsecond, hmark'⟩ := takeDollar_append (tail.dropWhile isAsciiLetter)
  generalize takeDollar (tail.dropWhile isAsciiLetter) = marked at h hsecond hmark'
  obtain ⟨mark', tail'⟩ := marked
  dsimp only at h hsecond hmark'
  split at h
  · cases h
  · next hne =>
    cases h
    rw [Bool.or_eq_true, not_or, List.isEmpty_iff, List.isEmpty_iff] at hne
    refine ⟨?_, .mk hmark hne.1 (fun c hc => List.mem_takeWhile_imp hc) hmark' hne.2
      fun c hc => List.mem_takeWhile_imp hc⟩
    rw [List.append_assoc, List.append_assoc, List.append_assoc, List.takeWhile_append_dropWhile,
      hsecond, List.takeWhile_append_dropWhile, hfirst]

/-- What is taken as a reference to a range is one. -/
theorem takeRange?_eq_some {cs w rest : List Char} (h : takeRange? cs = some (w, rest)) :
    cs = w ++ rest ∧ RangeText isAsciiLetter w := by
  unfold takeRange? at h
  obtain ⟨⟨first, tail⟩, hfirst, h⟩ := Option.bind_eq_some_iff.1 h
  split at h
  · next first' tail' heq =>
    cases heq
    obtain ⟨⟨last, tail'⟩, hlast, h⟩ := Option.bind_eq_some_iff.1 h
    cases h
    obtain ⟨rfl, hfirst'⟩ := takeCell?_eq_some hfirst
    obtain ⟨rfl, hlast'⟩ := takeCell?_eq_some hlast
    refine ⟨?_, .mk hfirst' hlast'⟩
    rw [List.append_assoc, List.cons_append]
  · cases h

theorem takeTable?_eq_some {cs digits rest : List Char} (h : takeTable? cs = some (digits, rest)) :
    ∃ mark, (mark = 'T' ∨ mark = 't') ∧ cs = mark :: digits ++ '!' :: rest := by
  cases cs with
  | nil => cases h
  | cons c cs =>
    unfold takeTable? at h
    dsimp only at h
    split at h
    · next tail htail =>
      split at h
      · next hc =>
        cases h
        refine ⟨c, hc.1, ?_⟩
        rw [← htail, List.cons_append, List.takeWhile_append_dropWhile]
      · cases h
    · cases h

/-- The token is a reference as a formula may write it. -/
inductive IsWritten : Token → Prop
  | cell {table : Option (List Char)} {w : List Char} : CellText isAsciiLetter w →
      IsWritten (.cell table w)
  | range {table : Option (List Char)} {w : List Char} : RangeText isAsciiLetter w →
      IsWritten (.range table w)

/-- A reference that is read takes its text. -/
theorem readReference?_taken {cs : List Char} {t : Token} {n : Nat}
    (h : readReference? cs = some (t, n)) : t.IsWritten ∧ Taken cs t n := by
  unfold readReference? at h
  rcases Option.or_eq_some_iff.1 h with hnamed | ⟨-, hbare⟩
  · obtain ⟨⟨digits, tail⟩, htable, hread⟩ := Option.bind_eq_some_iff.1 hnamed
    obtain ⟨mark, hmark, rfl⟩ := takeTable?_eq_some htable
    -- The name of the table and the reference behind it are one word.
    have named : ∀ {t : Token} {w rest : List Char}, tail = w ++ rest →
        t.capital.Spells (mark :: digits ++ '!' :: w) →
        Taken (mark :: digits ++ '!' :: tail) t (digits.length + 2 + w.length) := by
      rintro t w rest rfl hw
      rw [← length_named mark digits w]
      refine .of_start ⟨rest, ?_⟩ nofun hw
      simp only [List.append_assoc, List.cons_append]
    dsimp only at hread
    split at hread
    · next w rest hrange =>
      cases hread
      obtain ⟨htail, hw⟩ := takeRange?_eq_some hrange
      exact ⟨.range hw, named htail ⟨mark, w, hmark, rfl, rfl⟩⟩
    · obtain ⟨⟨w, rest⟩, hcell, heq⟩ := Option.map_eq_some_iff.1 hread
      cases heq
      obtain ⟨htail, hw⟩ := takeCell?_eq_some hcell
      exact ⟨.cell hw, named htail ⟨mark, w, hmark, rfl, rfl⟩⟩
  · rcases Option.or_eq_some_iff.1 hbare with hread | ⟨-, hread⟩
    · obtain ⟨⟨w, rest⟩, hrange, heq⟩ := Option.map_eq_some_iff.1 hread
      cases heq
      obtain ⟨rfl, hw⟩ := takeRange?_eq_some hrange
      exact ⟨.range hw, .of_start ⟨rest, rfl⟩ hw.ne_nil rfl⟩
    · obtain ⟨⟨w, rest⟩, hcell, heq⟩ := Option.map_eq_some_iff.1 hread
      cases heq
      obtain ⟨rfl, hw⟩ := takeCell?_eq_some hcell
      exact ⟨.cell hw, .of_start ⟨rest, rfl⟩ hw.ne_nil rfl⟩

/-! ## Other operands -/

theorem takeName_start (cs : List Char) : takeName cs <+: cs := by
  unfold takeName
  split
  · exact List.prefix_rfl
  · split
    · exact List.takeWhile_prefix _
    · exact List.nil_prefix

theorem takeExponent_start (cs : List Char) : takeExponent cs <+: cs := by
  cases cs with
  | nil => exact List.prefix_rfl
  | cons c rest =>
    have digits : ∀ (mark : List Char) {tail : List Char}, rest = mark ++ tail →
        c :: mark ++ tail.takeWhile isAsciiDigit <+: c :: rest := by
      rintro mark tail rfl
      exact (List.prefix_append_right_inj (c :: mark)).2 (List.takeWhile_prefix _)
    unfold takeExponent
    dsimp only
    split
    · split
      · exact digits ['+'] rfl
      · exact List.nil_prefix
    · split
      · exact digits ['-'] rfl
      · exact List.nil_prefix
    · split
      · exact digits [] rfl
      · exact List.nil_prefix

theorem takeNumber_start (cs : List Char) : takeNumber cs <+: cs := by
  have whole := List.takeWhile_append_dropWhile (p := isAsciiDigit) (l := cs)
  have behind : ∀ ds, ds.takeWhile isAsciiDigit ++ takeExponent (ds.dropWhile isAsciiDigit) <+: ds := by
    intro ds
    have h := (List.prefix_append_right_inj (ds.takeWhile isAsciiDigit)).2
      (takeExponent_start (ds.dropWhile isAsciiDigit))
    rw [List.takeWhile_append_dropWhile] at h
    exact h
  unfold takeNumber
  dsimp only
  split
  · next tail htail =>
    split
    · exact List.nil_prefix
    · have hfraction : tail.takeWhile isAsciiDigit ++
          takeExponent (tail.dropWhile isAsciiDigit) <+: tail := behind tail
      rw [htail] at whole
      refine Eq.subst whole ?_
      rw [List.append_assoc, List.cons_append]
      exact (List.prefix_append_right_inj _).2 (List.cons_prefix_cons.2 ⟨rfl, hfraction⟩)
  · split
    · exact List.nil_prefix
    · exact behind cs

/-- A symbol that is read takes its text. -/
theorem readSymbol_taken {cs : List Char} {t : Token} {n : Nat} (h : readSymbol cs = (t, n))
    (ht : t ≠ .unknown) : Taken cs t n ∧ (t.isReference = true → t.IsWritten) := by
  have one : ∀ {c : Char} {rest : List Char} {t : Token}, t.capital.Spells [c] →
      Taken (c :: rest) t 1 := fun hw => ⟨_, _, rfl, List.cons_ne_nil _ _, rfl, hw⟩
  have two : ∀ {c d : Char} {rest : List Char} {t : Token}, t.capital.Spells [c, d] →
      Taken (c :: d :: rest) t 2 := fun hw => ⟨[_, _], _, rfl, List.cons_ne_nil _ _, rfl, hw⟩
  unfold readSymbol at h
  split at h <;> cases h
  case h_1 | h_2 | h_3 => exact ⟨two rfl, nofun⟩
  case h_16 => exact absurd rfl ht
  all_goals exact ⟨one rfl, nofun⟩

/-- An operand or a symbol that is read where an operand is due takes its text. -/
theorem readOperand_taken {cs : List Char} {t : Token} {n : Nat} (h : readOperand cs = (t, n))
    (ht : t ≠ .unknown) : Taken cs t n ∧ (t.isReference = true → t.IsWritten) := by
  have other : ∀ {t : Token} {word : List Char}, t.isReference = false → word <+: cs → word ≠ [] →
      t.capital.Spells word → Taken cs t word.length ∧ (t.isReference = true → t.IsWritten) := by
    intro t word hother hword hne hspells
    refine ⟨.of_start hword hne hspells, fun href => ?_⟩
    rw [hother] at href
    cases href
  unfold readOperand at h
  split at h
  · next found hfound =>
    rw [h] at hfound
    obtain ⟨hwritten, htaken⟩ := readReference?_taken hfound
    exact ⟨htaken, fun _ => hwritten⟩
  · split at h
    · next hword =>
      cases h
      exact @other (.bool true) _ rfl (List.isPrefixOf_iff_prefix.1 hword) (by decide) rfl
    · split at h
      · next hword =>
        cases h
        exact @other (.bool false) _ rfl (List.isPrefixOf_iff_prefix.1 hword) (by decide) rfl
      · split at h
        · next hname =>
          cases h
          exact other rfl (takeName_start cs) hname rfl
        · split at h
          · next hnumber =>
            cases h
            exact other rfl (takeNumber_start cs) hnumber rfl
          · split at h
            · split at h
              · next content hcontent =>
                cases h
                have hlength : ('"' :: content ++ ['"']).length = content.length + 2 := by simp
                rw [← hlength]
                exact @other (.string content) _ rfl
                  (List.cons_prefix_cons.2 ⟨rfl, takeString?_isPrefix hcontent⟩) (List.cons_ne_nil _ _) rfl
              · cases h
                exact absurd rfl ht
            · exact readSymbol_taken h ht

end Token

/-! ## The whole text -/

theorem Spelled.blank {ts : List Token} {text : List Char} {c : Char} (hs : Spelled ts text)
    (hc : isGap c) (hts : ts ≠ []) : Spelled ts (c :: text) := by
  cases hs with
  | nil => exact absurd rfl hts
  | @cons gap word text t ts hgap hw hs =>
    exact @Spelled.cons (c :: gap) word text t ts (List.forall_mem_cons.2 ⟨hc, hgap⟩) hw hs

/-- A lexeme that was read is known, and a reference among them is one that a formula may write. -/
def Lexeme.IsRead (l : Lexeme) : Prop :=
  l.token ≠ .unknown ∧ (l.token.isReference = true → l.token.IsWritten)

section

variable {operand : Bool} {column : Nat} {c : Char} {rest : List Char}

theorem scan_cons_gap (hc : isGap c = true) : scan operand column (c :: rest) =
    scan operand (if c = '\n' then 1 else column + 1) rest := by
  rw [scan, if_pos hc]

variable {t : Token} {n : Nat}
  (hread : (if operand then Token.readOperand (c :: rest) else Token.readSymbol (c :: rest)) = (t, n))

include hread

/-- A token takes the characters of its text. -/
theorem read_taken (ht : t ≠ .unknown) :
    Token.Taken (c :: rest) t n ∧ Lexeme.IsRead ⟨t, column⟩ := by
  cases operand with
  | true =>
    obtain ⟨htaken, hwritten⟩ := Token.readOperand_taken hread ht
    exact ⟨htaken, ht, hwritten⟩
  | false =>
    obtain ⟨htaken, hwritten⟩ := Token.readSymbol_taken hread ht
    exact ⟨htaken, ht, hwritten⟩

variable (hc : isGap c = false)

include hc

theorem scan_cons_unknown (ht : t = .unknown) :
    scan operand column (c :: rest) = [⟨.unknown, column⟩] := by
  subst ht
  rw [scan, hc, hread]
  rfl

theorem scan_cons_token (ht : t ≠ .unknown) : scan operand column (c :: rest) =
    ⟨t, column⟩ :: scan t.awaitsOperand (column + n) (rest.drop (n - 1)) := by
  rw [scan, hc, hread]
  simp only [Bool.false_eq_true, if_false]
  rw [if_neg ht]

end

/-- **The scanner takes the whole text.** Where nothing unknown is met, the text is spelled by the
tokens that it is cut into, but for blanks at its end. The induction is on the length of what is
left, since a token may take any part of it. -/
theorem scan_spells (cs : List Char) : ∀ {operand : Bool} {column : Nat},
    (∀ l ∈ scan operand column cs, l.token ≠ .unknown) →
    (∃ text gap, cs = text ++ gap ∧ (∀ c ∈ gap, isGap c) ∧
      Spelled ((scan operand column cs).map fun l => l.token.capital) text) ∧
    ∀ l ∈ scan operand column cs, l.IsRead := by
  induction hn : cs.length using Nat.strongRecOn generalizing cs with
  | ind n ih =>
    intro operand column h
    cases cs with
    | nil =>
      rw [scan]
      exact ⟨⟨[], [], rfl, List.forall_mem_nil _, .nil⟩, List.forall_mem_nil _⟩
    | cons c rest =>
      rw [List.length_cons] at hn
      cases hc : isGap c with
      | true =>
        rw [scan_cons_gap hc] at h ⊢
        obtain ⟨⟨text, gap, hrest, hgap, hs⟩, hread⟩ := ih _ (by omega) rest rfl h
        refine ⟨?_, hread⟩
        generalize (scan operand (if c = '\n' then 1 else column + 1) rest).map
          (fun l => l.token.capital) = ts at hs ⊢
        cases ts with
        | nil =>
          cases hs
          exact ⟨[], c :: gap, congrArg _ hrest, List.forall_mem_cons.2 ⟨hc, hgap⟩, .nil⟩
        | cons t ts =>
          exact ⟨c :: text, gap, congrArg _ hrest, hgap, hs.blank hc (List.cons_ne_nil t ts)⟩
      | false =>
        obtain ⟨⟨t, length⟩, hread⟩ : ∃ found, (if operand then Token.readOperand (c :: rest)
          else Token.readSymbol (c :: rest)) = found := ⟨_, rfl⟩
        have ht : t ≠ .unknown := by
          intro ht
          rw [scan_cons_unknown hread hc ht] at h
          exact h _ List.mem_cons_self rfl
        obtain ⟨⟨word, behind, hcs, hne, hlength, hw⟩, hisRead⟩ :=
          @read_taken operand column c rest t length hread ht
        rw [scan_cons_token hread hc ht] at h ⊢
        obtain ⟨d, word, rfl⟩ := List.exists_cons_of_ne_nil hne
        obtain ⟨hd, hrest⟩ := List.cons.inj hcs
        have hdrop : rest.drop (length - 1) = behind := by
          rw [hrest, ← hlength]
          exact List.drop_left
        rw [hdrop] at h ⊢
        have hshorter : behind.length ≤ rest.length := by
          rw [← hdrop]
          exact (List.drop_sublist _ _).length_le
        obtain ⟨⟨text, gap, hbehind, hgap, hs⟩, hall⟩ := ih behind.length (by omega) behind rfl
          fun l hl => h l (List.mem_cons_of_mem _ hl)
        refine ⟨⟨d :: word ++ text, gap, ?_, hgap, .cons (List.forall_mem_nil _) hw hs⟩,
          List.forall_mem_cons.2 ⟨hisRead, hall⟩⟩
        rw [hcs, hbehind, List.append_assoc]

end Spreadsheet
