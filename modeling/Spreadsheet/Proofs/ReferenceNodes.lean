import Spreadsheet.Proofs.RangeReference
import Spreadsheet.Proofs.ScannedText
import Spreadsheet.Proofs.TokenParsing

/-!
# References from the text to the tree

The parser keeps references as they come: whatever it closes, combines or negates, the references
that have been read stand in the state in the order of the text (`step_references`). So the
references of a tree are the references among its tokens (`run_references`), and each of them is
read, for a cell or for a range, as what its token writes (`parseFormula_references`).
-/

namespace Spreadsheet

open Text Numeral Reference

/-! ## References in the state of the parser -/

/-- The references that a token brings into a tree. -/
def Token.nodes (t : Token) : List Expr := ((ParseState.operandOf? t).map Expr.references).getD []

/-- The references in what has been read of something that waits for an operand. -/
def Frame.references : Frame → List Expr
  | .call _ args => args.reverse.flatMap Expr.references
  | .binary _ left => left.references
  | .group | .plus | .minus => []

namespace ParseState

/-- The references on a stack, those that were read first in front. -/
def waiting : List Frame → List Expr
  | [] => []
  | frame :: stack => waiting stack ++ frame.references

/-- The references that have been read. -/
def references : ParseState → List Expr
  | start stack | named _ stack | called _ stack => waiting stack
  | complete e stack => waiting stack ++ e.references

/-- Closing moves references from the stack into the operand. -/
theorem close_references (level : Nat) (e : Expr) (stack : List Frame) :
    waiting (close level e stack).2 ++ (close level e stack).1.references =
      waiting stack ++ e.references := by
  fun_induction close level e stack with
  | case1 e stack h ih => rw [ih, waiting, Frame.references, List.append_nil]
  | case2 => rfl
  | case3 e stack h ih =>
    rw [ih, waiting, Frame.references, List.append_nil, Expr.references_negate]
  | case4 => rfl
  | case5 e op left stack h ih =>
    rw [ih, waiting, Frame.references, Expr.references, List.append_assoc]
  | case6 => rfl
  | case7 => rfl

theorem references_of_close {level : Nat} {e e' : Expr} {stack stack' : List Frame}
    (h : close level e stack = (e', stack')) :
    waiting stack' ++ e'.references = waiting stack ++ e.references := by
  have hclose := close_references level e stack
  rw [h] at hclose
  exact hclose

theorem stepOperand_references {stack : List Frame} {t : Token} {next : ParseState}
    (h : stepOperand stack t = some next) : next.references = waiting stack ++ t.nodes := by
  unfold stepOperand at h
  unfold Token.nodes
  cases hoperand : operandOf? t with
  | some e =>
    rw [hoperand] at h
    cases h
    rfl
  | none =>
    rw [hoperand] at h
    dsimp only at h
    rw [Option.map_none, Option.getD_none]
    split at h <;> cases h
    · exact (List.append_nil _).symm
    · rfl
    · rfl
    · rfl

/-- A step keeps the references that have been read, and adds that of the token. -/
theorem step_references {state next : ParseState} {t : Token} (h : state.step t = some next) :
    next.references = state.references ++ t.nodes := by
  cases state with
  | start stack => exact stepOperand_references h
  | named name stack =>
    cases t <;> cases h
    exact (List.append_nil _).symm
  | called name stack =>
    by_cases hclosing : t = .closing
    · subst hclosing
      cases h
      rfl
    · have hoperand : stepOperand (.call name [] :: stack) t = some next := by
        cases t with
        | closing => exact absurd rfl hclosing
        | _ => exact h
      have hwaiting : waiting (.call name [] :: stack) = waiting stack := List.append_nil _
      rw [stepOperand_references hoperand, hwaiting]
      rfl
  | complete e stack =>
    cases t with
    | operator op =>
      cases h
      have hclose := close_references op.level e stack
      rw [references, waiting, Frame.references, hclose]
      exact (List.append_nil _).symm
    | percent =>
      cases h
      rw [references, Expr.references_percent]
      exact (List.append_nil _).symm
    | comma =>
      unfold step at h
      dsimp only at h
      split at h <;> cases h
      next e' name args stack' hclose =>
        rw [references, references, ← references_of_close hclose]
        simp [waiting, Frame.references, Token.nodes, operandOf?]
    | closing =>
      unfold step at h
      dsimp only at h
      split at h <;> cases h
      next e' stack' hclose =>
        rw [references, references, ← references_of_close hclose]
        simp [waiting, Frame.references, Token.nodes, operandOf?]
      next e' name args stack' hclose =>
        rw [references, references, ← references_of_close hclose]
        simp [waiting, Frame.references, Token.nodes, operandOf?, Expr.references,
          Expr.referencesIn_eq]
    | _ => cases h

/-- The references of a tree are those of its tokens, in their order. -/
theorem run_references {lexemes : List Lexeme} {e : Expr} : ∀ {state : ParseState} {last : Nat},
    run state last lexemes = .ok e →
    e.references = state.references ++ lexemes.flatMap fun l => l.token.nodes := by
  induction lexemes with
  | nil =>
    intro state last h
    unfold run finish at h
    cases state with
    | complete x stack =>
      dsimp only at h
      cases hclose : close 0 x stack with
      | mk x' stack' =>
        rw [hclose] at h
        cases stack' with
        | nil =>
          cases h
          rw [List.flatMap_nil, List.append_nil, references, ← references_of_close hclose]
          rfl
        | cons frame rest => cases h
    | _ => cases h
  | cons l lexemes ih =>
    intro state last h
    unfold run at h
    cases hstep : state.step l.token with
    | none =>
      rw [hstep] at h
      cases h
    | some next =>
      rw [hstep] at h
      rw [ih h, step_references hstep, List.flatMap_cons, List.append_assoc]

/-- A text in which something unknown is met has no tree. -/
theorem run_known {lexemes : List Lexeme} {e : Expr} : ∀ {state : ParseState} {last : Nat},
    run state last lexemes = .ok e → ∀ l ∈ lexemes, l.token ≠ .unknown := by
  have unknown : ∀ state : ParseState, state.step .unknown = none := by
    intro state
    cases state <;> rfl
  induction lexemes with
  | nil => exact fun _ => nofun
  | cons l lexemes ih =>
    intro state last h
    unfold run at h
    cases hstep : state.step l.token with
    | none =>
      rw [hstep] at h
      cases h
    | some next =>
      rw [hstep] at h
      refine List.forall_mem_cons.2 ⟨fun hl => ?_, ih h⟩
      rw [hl, unknown] at hstep
      cases hstep

end ParseState

/-! ## Runs of digits -/

theorem ShortRuns.of_part {cs part : List Char} (h : ShortRuns cs) (hpart : part <:+: cs) :
    ShortRuns part := fun run hrun hdigits => h run (hrun.trans hpart) hdigits

/-- Capital letters make no new digits. -/
theorem ShortRuns.capitals {cs : List Char} (h : ShortRuns cs) :
    ShortRuns (cs.map upperAscii) := by
  rintro run ⟨before, behind, hcs⟩ hdigits
  obtain ⟨front, back, rfl, hfront, -⟩ := List.map_eq_append_iff.1 hcs.symm
  obtain ⟨first, run', rfl, -, rfl⟩ := List.map_eq_append_iff.1 hfront
  rw [List.length_map]
  refine h run' ⟨first, back, rfl⟩ fun c hc => ?_
  have hdigit := hdigits _ (List.mem_map_of_mem hc)
  rw [upperAscii_eq_self (isCapital_of_digit hdigit)] at hdigit
  exact hdigit

theorem SpellsReference.shortRuns {table : Option (List Char)} {reference word : List Char}
    (h : SpellsReference table reference word) (hword : ShortRuns word) : ShortRuns reference := by
  cases table with
  | none =>
    have hmap : word.map upperAscii = reference := h
    rw [← hmap]
    exact hword.capitals
  | some digits =>
    obtain ⟨mark, rest, -, rfl, rfl⟩ := h
    exact (hword.of_part ⟨mark :: digits ++ ['!'], [], by simp⟩).capitals

theorem Spelled.exists_word {ts : List Token} {text : List Char} (hs : Spelled ts text) :
    ∀ t ∈ ts, ∃ word, word <:+: text ∧ t.Spells word := by
  induction hs with
  | nil => nofun
  | @cons gap word text t ts hgap hw hs ih =>
    refine List.forall_mem_cons.2 ⟨⟨word, ⟨gap, text, rfl⟩, hw⟩, fun u hu => ?_⟩
    obtain ⟨word', hinfix, hw'⟩ := ih u hu
    exact ⟨word', hinfix.trans (List.suffix_append _ _).isInfix, hw'⟩

/-! ## Spellings -/

theorem CellText.capitals {w : List Char} (hw : CellText isAsciiLetter w) :
    CellText isAsciiLetter (w.map upperAscii) := by
  have mark : ∀ {mark : List Char}, (mark = [] ∨ mark = ['$']) →
      mark.map upperAscii = [] ∨ mark.map upperAscii = ['$'] := by
    rintro mark (rfl | rfl)
    · exact .inl rfl
    · exact .inr rfl
  obtain @⟨m, letters, m', digits, hm, hne, hletters, hm', hne', hdigits⟩ := hw
  have hupper : digits.map upperAscii = digits :=
    map_upperAscii fun c hc => .of_digit (hdigits c hc)
  rw [List.map_append, List.map_append, List.map_append, hupper]
  exact .mk (mark hm) (fun h => hne (List.map_eq_nil_iff.1 h))
    (fun c hc => isAsciiLetter_of_isCapital (isCapital_of_mem_map hletters c hc)) (mark hm') hne' hdigits

theorem RangeText.capitals {w : List Char} (hw : RangeText isAsciiLetter w) :
    RangeText isAsciiLetter (w.map upperAscii) := by
  obtain @⟨first, last, hfirst, hlast⟩ := hw
  rw [List.map_append, List.map_cons]
  exact .mk hfirst.capitals hlast.capitals

/-- A reference to a cell has a spelling, whose digits are of ASCII. -/
theorem CellText.exists_spelling {w : List Char} (hw : CellText isAsciiLetter w) :
    ∃ s : Spelling, s.chars = w ∧ ∀ c ∈ s.digits, isAsciiDigit c = true := by
  have mark : ∀ {mark : List Char}, (mark = [] ∨ mark = ['$']) →
      ∃ present, dollar present = mark := by
    rintro mark (rfl | rfl)
    · exact ⟨false, rfl⟩
    · exact ⟨true, rfl⟩
  obtain @⟨m, letters, m', digits, hm, hne, hletters, hm', hne', hdigits⟩ := hw
  obtain ⟨absoluteCol, rfl⟩ := mark hm
  obtain ⟨absoluteRow, rfl⟩ := mark hm'
  exact ⟨⟨absoluteCol, letters, absoluteRow, digits, hne, hletters, hne',
    fun c hc => isDigit_of_ascii (hdigits c hc)⟩, rfl, hdigits⟩

namespace Reference.Spelling

/-- A spelling without a long run of digits is read as its position. -/
theorem parse_chars {s : Spelling} (hshort : s.digits.length ≤ maxDigits) :
    parse (String.ofList s.chars) = .ok s.position? := by
  rw [s.parse_eq s.spells_chars, if_neg (Nat.not_lt.2 hshort)]
  rfl

theorem mayStand_chars {s : Spelling} {c : Char} (hc : c ∈ s.chars) : mayStand c = true := by
  unfold mayStand
  rcases s.mem_chars hc with rfl | hkind | hkind
  · rfl
  · rw [hkind, Bool.or_true, Bool.true_or]
  · rw [hkind, Bool.or_true]

theorem native_chars (s : Spelling) : native (String.ofList s.chars) = String.ofList s.chars := by
  refine native_eq_self fun c hc => Bool.eq_false_iff.2 fun hforeign => ?_
  rw [String.toList_ofList] at hc
  exact Bool.false_ne_true ((upperChar_foreign hforeign).2.symm.trans (mayStand_chars hc))

theorem colon_not_mem_chars (s : Spelling) : ':' ∉ (String.ofList s.chars).toList := by
  rw [String.toList_ofList]
  intro hmem
  exact Bool.false_ne_true (mayStand_chars hmem)

/-- Two spellings with a colon between are read as the range between their positions. -/
theorem parseRange_chars {s t : Spelling} (hs : s.digits.length ≤ maxDigits)
    (ht : t.digits.length ≤ maxDigits) :
    parseRange (String.ofList (s.chars ++ ':' :: t.chars)) =
      .ok (do return (← s.position?, ← t.position?)) := by
  have htext : String.ofList (s.chars ++ ':' :: t.chars) =
      String.ofList s.chars ++ ":" ++ String.ofList t.chars := by
    rw [← String.toList_inj]
    simp
  rw [parseRange_of_halves ⟨htext, s.colon_not_mem_chars, t.colon_not_mem_chars⟩, native_chars,
    native_chars, parse_chars hs, parse_chars ht]
  rfl

end Reference.Spelling

/-! ## Tokens and nodes -/

/-- A reference among the tokens becomes a node that stands for what it writes, and any other token
becomes none. -/
theorem Token.denotes_nodes {t : Token} {word : List Char}
    (ht : t.isReference = true → t.IsWritten) (hspells : t.capital.Spells word)
    (hword : ShortRuns word) : List.Forall₂ Denotes ([t.capital].filter isReference) t.nodes := by
  -- The row number of a cell is the last part of its text.
  have digits_short : ∀ {w : List Char} {s : Spelling}, ShortRuns w → s.chars <:+: w →
      (∀ c ∈ s.digits, isAsciiDigit c = true) → s.digits.length ≤ maxDigits :=
    fun hw hchars hdigits => hw _ ((List.suffix_append _ _).isInfix.trans hchars) hdigits
  cases t with
  | cell table w =>
    cases ht rfl with
    | cell hw =>
      have hcapital := SpellsReference.shortRuns hspells hword
      have hnode : (Token.cell table w).nodes =
          [.cell (String.ofList (w.map upperAscii)) (ParseState.tableOf table)] := by
        rw [← ParseState.referenceOf_ascii fun c hc => (hw.mem c hc).2.2]
        simp [nodes, ParseState.operandOf?, Expr.references]
      obtain ⟨s, hs, hdigits⟩ := hw.capitals.exists_spelling
      rw [hnode]
      show List.Forall₂ Denotes [.cell table (w.map upperAscii)] _
      rw [← hs] at hcapital ⊢
      exact .cons (.cell s (Spelling.parse_chars
        (digits_short hcapital List.infix_rfl hdigits))) .nil
  | range table w =>
    cases ht rfl with
    | range hw =>
      have hcapital := SpellsReference.shortRuns hspells hword
      have hnode : (Token.range table w).nodes =
          [.range (String.ofList (w.map upperAscii)) (ParseState.tableOf table)] := by
        rw [← ParseState.referenceOf_ascii fun c hc => (hw.mem c hc).2.2]
        simp [nodes, ParseState.operandOf?, Expr.references]
      have hrange := hw.capitals
      rw [hnode]
      show List.Forall₂ Denotes [.range table (w.map upperAscii)] _
      generalize w.map upperAscii = reference at hrange hcapital ⊢
      obtain @⟨first, last, hfirst, hlast⟩ := hrange
      obtain ⟨s, rfl, hs⟩ := hfirst.exists_spelling
      obtain ⟨t, rfl, ht⟩ := hlast.exists_spelling
      refine .cons (.range s t (Spelling.parseRange_chars ?_ ?_)) .nil
      · exact digits_short hcapital (List.prefix_append _ _).isInfix hs
      · exact digits_short hcapital ⟨s.chars ++ [':'], [], by simp⟩ ht
  | _ => exact .nil

/-! ## The whole formula -/

theorem trimBy_isInfix (p : Char → Bool) (cs : List Char) : trimBy p cs <:+: cs := by
  have hinner := ((cs.dropWhile p).reverse.dropWhile_suffix p).reverse
  rw [List.reverse_reverse] at hinner
  exact hinner.isInfix.trans (cs.dropWhile_suffix p).isInfix

theorem getLast?_trimBy {p : Char → Bool} {cs : List Char} {c : Char}
    (h : (trimBy p cs).getLast? = some c) : p c = false := by
  unfold trimBy at h
  rw [List.getLast?_reverse] at h
  have hhead := List.head?_dropWhile_not p (cs.dropWhile p).reverse
  rw [h] at hhead
  exact hhead

theorem parseFormula_eq_ok {text : String} {e : Expr} (h : parseFormula text = .ok e) :
    ∃ body, stripChars text.toList = '=' :: body ∧
      ParseState.run (.start []) 1 (scan true 2 body) = .ok e := by
  unfold parseFormula at h
  split at h
  · next body hbody =>
    refine ⟨body, hbody, ?_⟩
    dsimp only at h
    cases hrun : ParseState.run (.start []) 1 (scan true 2 body) with
    | error f =>
      rw [hrun] at h
      cases h
    | ok x =>
      rw [hrun] at h
      dsimp only [bind, Except.bind] at h
      split at h
      · cases h
      · exact h
  · cases h

/-- The text of a formula that is parsed is spelled by its tokens, with no blanks left at its end. -/
theorem exists_spelled_of_parse {text : String} {e : Expr} (h : parseFormula text = .ok e) :
    ∃ body, stripChars text.toList = '=' :: body ∧
      ParseState.run (.start []) 1 (scan true 2 body) = .ok e ∧ Spelled (tokensOf body) body ∧
      ∀ l ∈ scan true 2 body, l.IsRead := by
  obtain ⟨body, hbody, hrun⟩ := parseFormula_eq_ok h
  obtain ⟨⟨front, gap, hfront, hgap, hs⟩, hread⟩ := scan_spells body (ParseState.run_known hrun)
  have hnone : gap = [] := by
    by_contra hne
    obtain ⟨c, hc⟩ := Option.isSome_iff_exists.1 (List.getLast?_isSome.2 hne)
    have hlast : (trimBy isBlank text.toList).getLast? = some c := by
      rw [show trimBy isBlank text.toList = '=' :: body from hbody, hfront, ← List.cons_append,
        List.getLast?_append, hc]
      rfl
    have hblank := Token.isBlank_of_gap (hgap c (List.mem_of_getLast? hc))
    exact Bool.false_ne_true ((getLast?_trimBy hlast).symm.trans hblank)
  rw [hnone, List.append_nil] at hfront
  rw [← hfront] at hs
  exact ⟨body, hbody, hrun, hs, hread⟩

/-- The references that tokens bring into a tree stand for what the tokens write. -/
theorem denotes_references {lexemes : List Lexeme} {text : List Char}
    (hread : ∀ l ∈ lexemes, l.IsRead)
    (hwords : ∀ t ∈ lexemes.map fun l => l.token.capital, ∃ word, word <:+: text ∧ t.Spells word)
    (hruns : ShortRuns text) :
    List.Forall₂ Token.Denotes ((lexemes.map fun l => l.token.capital).filter Token.isReference)
      (lexemes.flatMap fun l => l.token.nodes) := by
  induction lexemes with
  | nil => exact .nil
  | cons l lexemes ih =>
    obtain ⟨hl, hlexemes⟩ := List.forall_mem_cons.1 hread
    rw [List.map_cons] at hwords
    obtain ⟨⟨word, hinfix, hword⟩, hwords⟩ := List.forall_mem_cons.1 hwords
    have hnodes := Token.denotes_nodes hl.2 hword (hruns.of_part hinfix)
    rw [List.map_cons, List.flatMap_cons, ← List.singleton_append, List.filter_append]
    exact List.rel_append hnodes (ih hlexemes hwords)

/-- **References are read as they are written.** The text of a formula that is parsed is spelled by
its tokens, and the references of its tree stand one by one for the references among these tokens,
in the same order: each names the table whose index is written and is read as the position that is
written, or as the two corners of a range, letters counting in either case and rows from one. Only a
row number of zero is read as nothing. -/
theorem parseFormula_references {text : String} {e : Expr} (h : parseFormula text = .ok e)
    (hruns : ShortRuns text.toList) :
    ∃ body, stripChars text.toList = '=' :: body ∧ Spelled (tokensOf body) body ∧
      List.Forall₂ Token.Denotes ((tokensOf body).filter Token.isReference) e.references := by
  obtain ⟨body, hbody, hrun, hs, hread⟩ := exists_spelled_of_parse h
  have hbodyRuns : ShortRuns body := by
    refine hruns.of_part (List.IsInfix.trans ?_ (trimBy_isInfix isBlank text.toList))
    rw [show trimBy isBlank text.toList = '=' :: body from hbody]
    exact (List.suffix_cons _ _).isInfix
  have hreferences : e.references = (scan true 2 body).flatMap fun l => l.token.nodes :=
    ParseState.run_references hrun
  refine ⟨body, hbody, hs, ?_⟩
  rw [hreferences]
  exact denotes_references hread hs.exists_word hbodyRuns

/-- A call with a range of another table that ends in row zero, and a cell in small letters. -/
theorem parseFormula_references_rowZero :
    parseFormula " =SUM(t01!$a$1:B0, c3)" =
      .ok (.call "SUM" [.range "$A$1:B0" (some (.index 1)), .cell "C3" none]) ∧
    ShortRuns " =SUM(t01!$a$1:B0, c3)".toList ∧
    ∃ body, stripChars " =SUM(t01!$a$1:B0, c3)".toList = '=' :: body ∧
      Spelled (tokensOf body) body ∧
      List.Forall₂ Token.Denotes ((tokensOf body).filter Token.isReference)
        [.range "$A$1:B0" (some (.index 1)), .cell "C3" none] := by
  have hparse : parseFormula " =SUM(t01!$a$1:B0, c3)" =
      .ok (.call "SUM" [.range "$A$1:B0" (some (.index 1)), .cell "C3" none]) := by cbv
  have hruns : ShortRuns " =SUM(t01!$a$1:B0, c3)".toList := fun run hrun _ =>
    hrun.length_le.trans (by decide)
  exact ⟨hparse, hruns, parseFormula_references hparse hruns⟩

end Spreadsheet
