import Mathlib.Data.List.Forall2
import Spreadsheet.Proofs.OperandText

/-!
# Reading tokens back

A text that spells tokens is cut into those tokens again (`scan_spelled`), provided that each stands
where the scanner looks for one of its kind. Tokens touch one another where no blanks are between
them, so what counts is that no token can be read on over its end: behind an operand stands a symbol
or a blank, which extends no operand, and behind `<` or `>` none of the symbols that make a longer
one.
-/

namespace Spreadsheet

open Text Numeral

namespace Token

/-! ## Tokens in their places -/

/-- An operator with a meaning, a parenthesis or a comma. -/
def IsSymbol : Token → Prop
  | .operator op => op ∈ Operator.known
  | .opening | .closing | .comma => True
  | _ => False

/-- A symbol that may stand where an operand is due. -/
def IsLeading : Token → Prop
  | .operator op => op = .sub
  | .opening | .closing => True
  | _ => False

/-- Digits within the limit on their count. -/
structure DigitText (cs : List Char) : Prop where
  ne_nil : cs ≠ []
  digits : ∀ c ∈ cs, isAsciiDigit c
  short : cs.length ≤ maxDigits

/-- The digits of the table that is named can be read, if one is. -/
def TableText (table : Option (List Char)) : Prop :=
  ∀ digits, table = some digits → DigitText digits

/-- An operand that can be read back, with its reference in upper case. -/
def IsOperand : Token → Prop
  | .number digits => DigitText digits
  | .bool _ => True
  | .string content => StringText content
  | .name letters => NameText letters
  | .cell table reference => CellText isCapital reference ∧ TableText table
  | .range table reference => RangeText isCapital reference ∧ TableText table
  | _ => False

/-- Tokens that stand where the scanner looks for their kind. -/
def Placed (operand : Bool) : List Token → Prop
  | [] => True
  | t :: ts => (if operand then t.IsOperand ∨ t.IsLeading else t.IsSymbol) ∧
      Placed t.awaitsOperand ts

/-- A token that was read beside the one that was spelled: letters of a reference count for the
same in either case. -/
inductive Reads : Token → Token → Prop
  | refl (t : Token) : Reads t t
  | cell {table : Option (List Char)} {word : List Char} : (∀ c ∈ word, c.toNat < 0x80) →
      Reads (.cell table word) (.cell table (word.map upperAscii))
  | range {table : Option (List Char)} {word : List Char} : (∀ c ∈ word, c.toNat < 0x80) →
      Reads (.range table word) (.range table (word.map upperAscii))

theorem Reads.awaitsOperand_eq {t' t : Token} (h : Reads t' t) :
    t'.awaitsOperand = t.awaitsOperand := by
  cases h <;> rfl

theorem Reads.ne_unknown {t' t : Token} (h : t'.Reads t) (ht : t ≠ .unknown) : t' ≠ .unknown := by
  cases h with
  | refl => exact ht
  | cell => nofun
  | range => nofun

theorem IsLeading.isSymbol {t : Token} (h : t.IsLeading) : t.IsSymbol := by
  cases t with
  | operator op =>
    cases h
    show Operator.sub ∈ Operator.known
    decide
  | opening => trivial
  | closing => trivial
  | _ => cases h

/-! ## Reading a symbol -/

/-- A symbol is read as such unless it can be read on. -/
theorem readSymbol_of_symbol {t : Token} {word text : List Char} (ht : t.IsSymbol)
    (hw : t.Spells word)
    (hnext : t.awaitsOperand = true → ∀ c, text.head? = some c → c ≠ '=' ∧ c ≠ '>') :
    readSymbol (word ++ text) = (t, word.length) := by
  cases t with
  | opening =>
    cases hw
    rfl
  | closing =>
    cases hw
    rfl
  | comma =>
    cases hw
    rfl
  | operator op =>
    have hhead := hnext rfl
    have hop : op ∈ Operator.known := ht
    cases hw
    cases op with
    | other symbol => exact absurd hop (Operator.other_not_mem_known symbol)
    | lt =>
      show readSymbol ('<' :: text) = _
      rw [readSymbol]
      · rfl
      · rintro rest rfl
        exact (hhead '=' rfl).1 rfl
      · rintro rest rfl
        exact (hhead '>' rfl).2 rfl
    | gt =>
      show readSymbol ('>' :: text) = _
      rw [readSymbol]
      · rfl
      · rintro rest rfl
        exact (hhead '=' rfl).1 rfl
    | _ => rfl
  | _ => cases ht

/-! ## Reading an operand -/

/-- An operand is read back, but for the case of letters in a reference. -/
theorem readOperand_of_operand {t : Token} {word text : List Char} (ht : t.IsOperand)
    (hw : t.Spells word) (hends : Ends text) :
    ∃ t', readOperand (word ++ text) = (t', word.length) ∧ t'.Reads t := by
  cases t with
  | number digits =>
    cases hw
    exact ⟨_, readOperand_of_number ht.ne_nil ht.digits hends, .refl _⟩
  | bool b =>
    cases hw
    exact ⟨_, readOperand_of_bool b hends, .refl _⟩
  | string content =>
    cases hw
    exact ⟨_, readOperand_of_string ht, .refl _⟩
  | name letters =>
    cases hw
    exact ⟨_, readOperand_of_name ht hends, .refl _⟩
  | cell table reference =>
    cases table with
    | none =>
      have hword : word.map upperAscii = reference := hw
      have htext := ht.1.of_upper hword
      subst hword
      exact ⟨_, readOperand_of_reference (readReference?_of_cell htext hends),
        .cell fun c hc => (htext.mem c hc).2.2⟩
    | some digits =>
      obtain ⟨mark, rest, hm, hrest, rfl⟩ := hw
      obtain ⟨hne, hd, -⟩ := ht.2 digits rfl
      have htext := ht.1.of_upper hrest
      subst hrest
      exact ⟨_, readOperand_of_reference (readReference?_of_named_cell hm hne hd htext hends),
        .cell fun c hc => (htext.mem c hc).2.2⟩
  | range table reference =>
    cases table with
    | none =>
      have hword : word.map upperAscii = reference := hw
      have htext := ht.1.of_upper hword
      subst hword
      exact ⟨_, readOperand_of_reference (readReference?_of_range htext hends),
        .range fun c hc => (htext.mem c hc).2.2⟩
    | some digits =>
      obtain ⟨mark, rest, hm, hrest, rfl⟩ := hw
      obtain ⟨hne, hd, -⟩ := ht.2 digits rfl
      have htext := ht.1.of_upper hrest
      subst hrest
      exact ⟨_, readOperand_of_reference (readReference?_of_named_range hm hne hd htext hends),
        .range fun c hc => (htext.mem c hc).2.2⟩
  | _ => cases ht

/-! ## The text of a token -/

theorem isBlank_of_gap {c : Char} (hc : isGap c = true) : isBlank c = true := by
  have all : ∀ d ∈ [' ', '\t', '\x0c', '\r', '\n'], isBlank d = true := forall_mem_of_all rfl
  refine all c ?_
  simpa [isGap, or_assoc] using hc

theorem not_blank_of_extends {c : Char} (hc : extendsOperand c = true) : isBlank c = false := by
  refine Bool.eq_false_iff.2 fun hblank => ?_
  revert hc
  exact forall_blank hblank (by decide)

/-- A text that neither starts nor ends with a blank. -/
structure Trimmed (cs : List Char) : Prop where
  ne_nil : cs ≠ []
  head : ∀ c, cs.head? = some c → isBlank c = false
  last : ∀ c, cs.getLast? = some c → isBlank c = false

theorem Trimmed.of_forall {cs : List Char} (hne : cs ≠ []) (h : ∀ c ∈ cs, isBlank c = false) :
    Trimmed cs :=
  ⟨hne, fun c hc => h c (List.mem_of_head? hc), fun c hc => h c (List.mem_of_getLast? hc)⟩

/-- The text of a symbol. -/
theorem IsSymbol.word {t : Token} {word : List Char} (ht : t.IsSymbol) (hw : t.Spells word) :
    (∃ c rest, word = c :: rest ∧ extendsOperand c = false ∧ c ≠ '"') ∧
      ∀ c ∈ word, isBlank c = false := by
  cases t with
  | opening =>
    cases hw
    exact ⟨⟨_, _, rfl, by decide⟩, forall_mem_of_all rfl⟩
  | closing =>
    cases hw
    exact ⟨⟨_, _, rfl, by decide⟩, forall_mem_of_all rfl⟩
  | comma =>
    cases hw
    exact ⟨⟨_, _, rfl, by decide⟩, forall_mem_of_all rfl⟩
  | operator op =>
    have hop : op ∈ Operator.known := ht
    cases hw
    cases op with
    | other symbol => exact absurd hop (Operator.other_not_mem_known symbol)
    | _ => exact ⟨⟨_, _, rfl, by decide⟩, forall_mem_of_all rfl⟩
  | _ => cases ht

/-- The text of a reference, where any way to write it within its table holds such characters. -/
theorem SpellsReference.word {table : Option (List Char)} {reference word : List Char}
    (hw : SpellsReference table reference word) (htable : TableText table)
    (href : ∀ {w : List Char}, w.map upperAscii = reference →
      w ≠ [] ∧ ∀ c ∈ w, extendsOperand c = true) :
    word ≠ [] ∧ ∀ c ∈ word, extendsOperand c = true := by
  cases table with
  | none => exact href hw
  | some digits =>
    obtain ⟨mark, rest, hm, hrest, rfl⟩ := hw
    refine ⟨nofun, fun c hc => ?_⟩
    rcases List.mem_append.1 hc with hc | hc
    · rcases List.mem_cons.1 hc with rfl | hc
      · rcases hm with rfl | rfl
        · decide
        · decide
      · exact extendsOperand_of_digit ((htable digits rfl).digits c hc)
    · rcases List.mem_cons.1 hc with rfl | hc
      · decide
      · exact (href hrest).2 c hc

/-- The text of an operand. -/
theorem IsOperand.word {t : Token} {word : List Char} (ht : t.IsOperand) (hw : t.Spells word) :
    (word ≠ [] ∧ ∀ c ∈ word, extendsOperand c = true) ∨
      ∃ content, word = '"' :: content ++ ['"'] := by
  cases t with
  | number digits =>
    cases hw
    exact .inl ⟨ht.ne_nil, fun c hc => extendsOperand_of_digit (ht.digits c hc)⟩
  | bool b =>
    cases hw
    cases b
    · exact .inl ⟨by decide, forall_mem_of_all rfl⟩
    · exact .inl ⟨by decide, forall_mem_of_all rfl⟩
  | string content => exact .inr ⟨content, hw⟩
  | name letters =>
    cases hw
    obtain ⟨c, hc, -⟩ := ht.first
    refine .inl ⟨?_, fun d hd => ?_⟩
    · rintro rfl
      cases hc
    · unfold extendsOperand
      rw [ht.chars d hd, Bool.true_or]
  | cell table reference =>
    refine .inl (SpellsReference.word hw ht.2 fun hword => ?_)
    have htext := ht.1.of_upper hword
    exact ⟨htext.ne_nil, fun c hc => (htext.mem c hc).1⟩
  | range table reference =>
    refine .inl (SpellsReference.word hw ht.2 fun hword => ?_)
    have htext := ht.1.of_upper hword
    exact ⟨htext.ne_nil, fun c hc => (htext.mem c hc).1⟩
  | _ => cases ht

theorem IsOperand.head {t : Token} {word : List Char} (ht : t.IsOperand) (hw : t.Spells word) :
    ∃ c rest, word = c :: rest ∧ (extendsOperand c = true ∨ c = '"') := by
  rcases ht.word hw with ⟨hne, hall⟩ | ⟨content, rfl⟩
  · obtain ⟨c, rest, rfl⟩ := List.exists_cons_of_ne_nil hne
    exact ⟨c, rest, rfl, .inl (hall c List.mem_cons_self)⟩
  · exact ⟨_, _, rfl, .inr rfl⟩

theorem IsOperand.awaitsOperand_eq {t : Token} (ht : t.IsOperand) : t.awaitsOperand = false := by
  cases t with
  | operator op => cases ht
  | opening => cases ht
  | comma => cases ht
  | _ => rfl

/-- A token in its place is known, and no blank stands at either end of its text. -/
theorem Placed.trimmed {operand : Bool} {t : Token} {ts : List Token} {word : List Char}
    (hp : Placed operand (t :: ts)) (hw : t.Spells word) : t ≠ .unknown ∧ Trimmed word := by
  have hknown : t ≠ .unknown := by
    rintro rfl
    cases hw
  have symbol : t.IsSymbol → Trimmed word := fun ht => by
    obtain ⟨⟨c, rest, rfl, -⟩, hall⟩ := ht.word hw
    exact .of_forall (List.cons_ne_nil c rest) hall
  refine ⟨hknown, ?_⟩
  cases operand with
  | false => exact symbol hp.1
  | true =>
    rcases hp.1 with ht | ht
    · rcases ht.word hw with ⟨hne, hall⟩ | ⟨content, rfl⟩
      · exact .of_forall hne fun c hc => not_blank_of_extends (hall c hc)
      · refine ⟨nofun, fun c hc => ?_, fun c hc => ?_⟩
        · cases hc
          decide
        · rw [List.getLast?_concat] at hc
          cases hc
          decide
    · exact symbol ht.isSymbol

/-! ## What follows a token -/

/-- Text where no operand is due extends no operand before it. -/
theorem Placed.ends {ts : List Token} {text : List Char} (hp : Placed false ts)
    (hs : Spelled ts text) : Ends text := by
  intro c hc
  cases hs with
  | nil => cases hc
  | @cons gap word rest t ts hgap hw hrest =>
    cases gap with
    | nil =>
      obtain ⟨⟨d, tail, rfl, hext, -⟩, -⟩ := IsSymbol.word hp.1 hw
      cases hc
      exact hext
    | cons d gap =>
      cases hc
      refine Bool.eq_false_iff.2 fun hext => ?_
      have hblank := isBlank_of_gap (hgap _ List.mem_cons_self)
      rw [not_blank_of_extends hext] at hblank
      cases hblank

/-- Text where an operand is due makes no longer symbol of `<` or `>` before it. -/
theorem Placed.not_symbol {ts : List Token} {text : List Char} (hp : Placed true ts)
    (hs : Spelled ts text) {c : Char} (hc : text.head? = some c) : c ≠ '=' ∧ c ≠ '>' := by
  cases hs with
  | nil => cases hc
  | @cons gap word rest t ts hgap hw hrest =>
    cases gap with
    | nil =>
      rcases hp.1 with ht | ht
      · obtain ⟨d, tail, rfl, hd⟩ := IsOperand.head ht hw
        cases hc
        rcases hd with hd | rfl
        · exact ⟨ne_of_kind hd (by decide), ne_of_kind hd (by decide)⟩
        · decide
      · cases t with
        | operator op =>
          cases ht
          cases hw
          cases hc
          decide
        | opening =>
          cases hw
          cases hc
          decide
        | closing =>
          cases hw
          cases hc
          decide
        | _ => cases ht
    | cons d gap =>
      cases hc
      have hc : isGap c = true := hgap _ List.mem_cons_self
      exact ⟨ne_of_kind hc (by decide), ne_of_kind hc (by decide)⟩

/-- A token is read back in its place. -/
theorem read_of_placed {operand : Bool} {t : Token} {ts : List Token} {word text : List Char}
    (hp : Placed operand (t :: ts)) (hw : t.Spells word) (hs : Spelled ts text) :
    ∃ t', (if operand then readOperand (word ++ text) else readSymbol (word ++ text)) =
      (t', word.length) ∧ t'.Reads t := by
  obtain ⟨ht, hrest⟩ := hp
  have symbol : t.IsSymbol → readSymbol (word ++ text) = (t, word.length) := fun ht =>
    readSymbol_of_symbol ht hw fun hawaits c hc => by
      rw [hawaits] at hrest
      exact hrest.not_symbol hs hc
  cases operand with
  | false => exact ⟨t, symbol ht, .refl t⟩
  | true =>
    rcases ht with ht | ht
    · rw [ht.awaitsOperand_eq] at hrest
      exact readOperand_of_operand ht hw (hrest.ends hs)
    · obtain ⟨⟨c, rest, rfl, hext, hquote⟩, -⟩ := ht.isSymbol.word hw
      refine ⟨t, ?_, .refl t⟩
      show readOperand (c :: (rest ++ text)) = _
      rw [readOperand_of_symbol _ hext hquote]
      exact symbol ht.isSymbol

end Token

/-! ## Scanning -/

theorem scan_gap (operand : Bool) {gap : List Char} (hgap : ∀ c ∈ gap, isGap c) (text : List Char) :
    ∀ column, ∃ column', scan operand column (gap ++ text) = scan operand column' text := by
  induction gap with
  | nil => exact fun column => ⟨column, rfl⟩
  | cons c gap ih =>
    intro column
    obtain ⟨column', h⟩ := ih (fun d hd => hgap d (List.mem_cons_of_mem _ hd))
      (if c = '\n' then 1 else column + 1)
    refine ⟨column', ?_⟩
    rw [List.cons_append, scan, if_pos (hgap c List.mem_cons_self)]
    exact h

/-- **Tokens are read back.** A text that spells tokens in their places is scanned to those tokens,
but for the case of letters in references. The induction is on the tokens that are left, each
starting behind any blanks. -/
theorem scan_spelled {ts : List Token} {text : List Char} (hs : Spelled ts text) :
    ∀ {operand : Bool} (column : Nat), Token.Placed operand ts →
    List.Forall₂ (fun l t => l.token.Reads t) (scan operand column text) ts := by
  induction hs with
  | nil =>
    intro operand column _
    rw [scan]
    exact .nil
  | @cons gap word text t ts hgap hw hs ih =>
    intro operand column hp
    obtain ⟨column', hscan⟩ := scan_gap operand hgap (word ++ text) column
    obtain ⟨t', hread, hreads⟩ := Token.read_of_placed hp hw hs
    obtain ⟨hknown, htrim⟩ := hp.trimmed hw
    obtain ⟨c, rest, rfl⟩ := List.exists_cons_of_ne_nil htrim.ne_nil
    have hc : isGap c = false := by
      refine Bool.eq_false_iff.2 fun hgap => ?_
      have hblank := htrim.head c rfl
      rw [Token.isBlank_of_gap hgap] at hblank
      cases hblank
    have hdrop : (rest ++ text).drop ((c :: rest).length - 1) = text := List.drop_left
    rw [List.cons_append] at hread
    rw [List.append_assoc, hscan, List.cons_append, scan, hc, hread]
    simp only [Bool.false_eq_true, if_false]
    rw [if_neg (hreads.ne_unknown hknown), hreads.awaitsOperand_eq, hdrop]
    exact .cons hreads (ih _ hp.2)

end Spreadsheet
