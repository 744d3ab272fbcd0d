import Spreadsheet.Proofs.TokenParsing

/-!
# Parsing undoes writing

A tree that is written with the fewest parentheses is read back by `parseFormula`, with letters of
references in either case and blanks between any tokens (`parseFormula_spelled`). Left to show is
that the tokens of a tree stand in their places, so that they are scanned as they were spelled, and
that no blanks are stripped but those behind the last token.
-/

namespace Spreadsheet

open Text Numeral
open Token (Placed DigitText TableText isBlank_of_gap)

/-! ## Tokens of a tree in their places -/

/-- The tokens stand in their places where an operand is due and a symbol follows. -/
def Fits (ts : List Token) : Prop := ∀ rest, Placed false rest → Placed true (ts ++ rest)

theorem fits_operand {t : Token} (ht : t.IsOperand) : Fits [t] := by
  intro rest hrest
  refine ⟨.inl ht, ?_⟩
  rw [ht.awaitsOperand_eq]
  exact hrest

theorem Fits.enclosed {ts : List Token} (h : Fits ts) (needed : Bool) :
    Fits (enclosed needed ts) := by
  intro rest hrest
  cases needed with
  | false => exact h rest hrest
  | true =>
    have hinner : Placed true (ts ++ .closing :: rest) := h _ ⟨trivial, hrest⟩
    show Placed true (.opening :: (ts ++ [.closing] ++ rest))
    rw [List.append_assoc]
    exact ⟨.inr trivial, hinner⟩

theorem Fits.binary {op : Operator} {tl tr : List Token} (hop : op ∈ Operator.known)
    (hl : Fits tl) (hr : Fits tr) : Fits (tl ++ .operator op :: tr) := by
  intro rest hrest
  have hright : Placed true (tr ++ rest) := hr rest hrest
  rw [List.append_assoc]
  exact hl _ ⟨hop, hright⟩

theorem placed_furtherTokens {rest : List Expr}
    (h : ∀ e ∈ rest, Fits (e.tokens lowestLevel)) {ts : List Token} (hts : Placed false ts) :
    Placed false (Expr.furtherTokens rest ++ ts) := by
  induction rest with
  | nil => exact hts
  | cons e rest ih =>
    have hrest := ih fun x hx => h x (List.mem_cons_of_mem _ hx)
    show Placed false (.comma :: (e.tokens lowestLevel ++ Expr.furtherTokens rest ++ ts))
    rw [List.append_assoc]
    exact ⟨trivial, h e List.mem_cons_self _ hrest⟩

theorem fits_call {name : String} {args : List Expr} (hname : NameText name.toList)
    (h : ∀ e ∈ args, Fits (e.tokens lowestLevel)) :
    Fits (.name name.toList :: .opening :: Expr.argumentTokens args ++ [.closing]) := by
  intro rest hrest
  have hclosing : Placed false (.closing :: rest) := ⟨trivial, hrest⟩
  have harguments : Placed true (Expr.argumentTokens args ++ .closing :: rest) := by
    cases args with
    | nil => exact ⟨.inr trivial, hrest⟩
    | cons e further =>
      have hfurther := placed_furtherTokens (fun x hx => h x (List.mem_cons_of_mem _ hx)) hclosing
      show Placed true (e.tokens lowestLevel ++ Expr.furtherTokens further ++ .closing :: rest)
      rw [List.append_assoc]
      exact h e List.mem_cons_self _ hfurther
  show Placed true
    (.name name.toList :: .opening :: (Expr.argumentTokens args ++ [.closing] ++ rest))
  rw [List.append_assoc]
  exact ⟨.inl hname, trivial, harguments⟩

theorem digitText_digitsOf {n : Nat} (h : (digitsOf n).length ≤ maxDigits) :
    DigitText (digitsOf n) :=
  ⟨Nat.toDigits_ne_nil, fun _ hc => isAsciiDigit_of_mem_digitsOf hc, h⟩

theorem tableText_tableDigits {table : Option TableId} (h : WritableTable table) :
    TableText (tableDigits table) := by
  intro digits hdigits
  cases table with
  | none => cases hdigits
  | some id =>
    cases id with
    | index n =>
      cases hdigits
      exact digitText_digitsOf h.2
    | other _ => cases hdigits

namespace Expr

mutual

theorem tokens_fit : (e : Expr) → e.Writable → ∀ place, Fits (e.tokens place)
  | .literal (.int n), h => by
    intro place
    unfold tokens
    refine Fits.enclosed ?_ _
    dsimp only
    have hnumber : (Token.number (digitsOf n.natAbs)).IsOperand := digitText_digitsOf h
    by_cases hn : n < 0
    · rw [if_pos hn]
      intro rest hrest
      exact ⟨.inr rfl, fits_operand hnumber rest hrest⟩
    · rw [if_neg hn]
      exact fits_operand hnumber
  | .literal (.bool b), _ => by
    intro place
    have hbool : (Token.bool b).IsOperand := trivial
    unfold tokens
    exact Fits.enclosed (fits_operand hbool) _
  | .literal (.text s), h => by
    intro place
    have hstring : (Token.string s.toList).IsOperand := h
    unfold tokens
    exact Fits.enclosed (fits_operand hstring) _
  | .cell reference table, ⟨href, htable⟩ => by
    intro place
    have hcell : (Token.cell (tableDigits table) reference.toList).IsOperand :=
      ⟨href, tableText_tableDigits htable⟩
    unfold tokens
    exact Fits.enclosed (fits_operand hcell) _
  | .range reference table, ⟨href, htable⟩ => by
    intro place
    have hrange : (Token.range (tableDigits table) reference.toList).IsOperand :=
      ⟨href, tableText_tableDigits htable⟩
    unfold tokens
    exact Fits.enclosed (fits_operand hrange) _
  | .call name args, ⟨hname, hargs⟩ => by
    intro place
    unfold tokens
    exact Fits.enclosed (fits_call hname (arguments_fit args hargs)) _
  | .binary op left right, ⟨hop, hleft, hright⟩ => by
    intro place
    unfold tokens
    exact Fits.enclosed (.binary hop (tokens_fit left hleft op.leftLevel)
      (tokens_fit right hright op.rightLevel)) _

theorem arguments_fit : (args : List Expr) → AllWritable args →
    ∀ e ∈ args, Fits (e.tokens lowestLevel)
  | [], _ => nofun
  | e :: rest, ⟨he, hrest⟩ => by
    intro x hx
    rcases List.mem_cons.1 hx with hx | hx
    · rw [hx]
      exact tokens_fit e he lowestLevel
    · exact arguments_fit rest hrest x hx

end

theorem tokens_placed {e : Expr} (he : e.Writable) : Placed true (e.tokens lowestLevel) := by
  have h := e.tokens_fit he lowestLevel [] trivial
  rw [List.append_nil] at h
  exact h

end Expr

/-! ## A text for every tree -/

theorem exists_spellsReference (table : Option (List Char)) {reference : List Char}
    (h : ∀ c ∈ reference, IsUpper c) : ∃ word, SpellsReference table reference word := by
  cases table with
  | none => exact ⟨reference, map_upperAscii h⟩
  | some digits =>
    exact ⟨'T' :: digits ++ '!' :: reference, 'T', reference, .inl rfl, map_upperAscii h, rfl⟩

theorem Token.IsOperand.exists_word {t : Token} (ht : t.IsOperand) : ∃ word, t.Spells word := by
  cases t with
  | number digits => exact ⟨digits, rfl⟩
  | bool b => exact ⟨_, rfl⟩
  | string content => exact ⟨_, rfl⟩
  | name letters => exact ⟨letters, rfl⟩
  | cell table reference => exact exists_spellsReference table ht.1.upper
  | range table reference => exact exists_spellsReference table ht.1.upper
  | _ => cases ht

theorem Token.IsSymbol.exists_word {t : Token} (ht : t.IsSymbol) : ∃ word, t.Spells word := by
  cases t with
  | operator op => exact ⟨_, rfl⟩
  | opening => exact ⟨_, rfl⟩
  | closing => exact ⟨_, rfl⟩
  | comma => exact ⟨_, rfl⟩
  | _ => cases ht

theorem Spelled.next {word text : List Char} {t : Token} {ts : List Token} (hw : t.Spells word)
    (hs : Spelled ts text) : Spelled (t :: ts) (word ++ text) :=
  @Spelled.cons [] word text t ts nofun hw hs

theorem Token.Placed.exists_spelled {ts : List Token} : ∀ {operand : Bool}, Placed operand ts →
    ∃ text, Spelled ts text := by
  induction ts with
  | nil => exact fun _ => ⟨[], .nil⟩
  | cons t ts ih =>
    rintro operand ⟨ht, hts⟩
    obtain ⟨text, htext⟩ := ih hts
    obtain ⟨word, hw⟩ : ∃ word, t.Spells word := by
      cases operand with
      | false => exact IsSymbol.exists_word ht
      | true =>
        rcases ht with ht | ht
        · exact ht.exists_word
        · exact ht.isSymbol.exists_word
    exact ⟨_, .next hw htext⟩

/-- Every tree that can be written has a text. -/
theorem Expr.exists_spelled {e : Expr} (he : e.Writable) :
    ∃ text, Spelled (e.tokens lowestLevel) text :=
  (Expr.tokens_placed he).exists_spelled

/-! ## The limit on digits -/

theorem Token.IsOperand.not_tooLong {t : Token} (ht : t.IsOperand) : t.isTooLong = false := by
  have within : ∀ {n : Nat}, n ≤ maxDigits → decide (n > maxDigits) = false := fun h =>
    decide_eq_false (Nat.not_lt.2 h)
  cases t with
  | number digits =>
    show (digits.all isAsciiDigit && decide (digits.length > maxDigits)) = false
    rw [within ht.short, Bool.and_false]
  | cell table reference =>
    cases table with
    | none => rfl
    | some digits => exact within (ht.2 digits rfl).short
  | range table reference =>
    cases table with
    | none => rfl
    | some digits => exact within (ht.2 digits rfl).short
  | _ => rfl

theorem Token.Placed.not_tooLong {ts : List Token} : ∀ {operand : Bool}, Placed operand ts →
    ∀ t ∈ ts, t.isTooLong = false := by
  have symbol : ∀ {t : Token}, t.IsSymbol → t.isTooLong = false := by
    intro t ht
    cases t with
    | number _ => cases ht
    | cell _ _ => cases ht
    | range _ _ => cases ht
    | _ => rfl
  induction ts with
  | nil => exact fun _ => nofun
  | cons u ts ih =>
    rintro operand ⟨hu, hts⟩ t ht
    rcases List.mem_cons.1 ht with rfl | ht
    · cases operand with
      | false => exact symbol hu
      | true =>
        rcases hu with hu | hu
        · exact hu.not_tooLong
        · exact symbol hu.isSymbol
    · exact ih hts t ht

theorem Token.Reads.isTooLong_eq {t' t : Token} (h : t'.Reads t) : t'.isTooLong = t.isTooLong := by
  cases h with
  | refl => rfl
  | @cell table _ _ => cases table <;> rfl
  | @range table _ _ => cases table <;> rfl

/-- None of the tokens that were scanned is too long if none of those that were spelled is. -/
theorem any_isTooLong {lexemes : List Lexeme} {ts : List Token}
    (h : List.Forall₂ (fun l t => l.token.Reads t) lexemes ts)
    (hts : ∀ t ∈ ts, t.isTooLong = false) :
    (lexemes.any fun l => l.token.isTooLong) = false := by
  induction h with
  | nil => rfl
  | @cons l t lexemes ts hl _ ih =>
    rw [List.any_cons, hl.isTooLong_eq, hts t List.mem_cons_self, Bool.false_or]
    exact ih fun u hu => hts u (List.mem_cons_of_mem _ hu)

/-! ## Blanks at the end -/

/-- The text of tokens in their places does not end with a blank. -/
theorem Spelled.last {ts : List Token} {text : List Char} (hs : Spelled ts text) :
    ∀ {operand : Bool}, Placed operand ts → ∀ c, text.getLast? = some c → isBlank c = false := by
  induction hs with
  | nil => exact fun _ _ => nofun
  | @cons gap word rest t ts _ hw _ ih =>
    intro operand hp c hc
    obtain ⟨-, htrim⟩ := hp.trimmed hw
    rw [List.getLast?_append] at hc
    cases hrest : rest.getLast? with
    | some d =>
      rw [hrest] at hc
      cases hc
      exact ih hp.2 c hrest
    | none =>
      obtain ⟨d, hd⟩ := Option.isSome_iff_exists.1 (List.getLast?_isSome.2 htrim.ne_nil)
      rw [hrest, List.getLast?_append, hd] at hc
      cases hc
      exact htrim.last c hd

/-! ## The round trip -/

/-- **Parsing undoes writing.** Behind the `=` a tree may be written with its letters of references
in either case, with blanks before any token and at the end: it is read back as it was. -/
theorem parseFormula_spelled {e : Expr} {text gap : List Char} (he : e.Writable)
    (hs : Spelled (e.tokens lowestLevel) text) (hgap : ∀ c ∈ gap, isGap c) :
    parseFormula (String.ofList ('=' :: (text ++ gap))) = .ok e := by
  have hplaced := Expr.tokens_placed he
  have hlast : ∀ c, ('=' :: text).getLast? = some c → isBlank c = false := by
    intro c hc
    rw [List.getLast?_cons] at hc
    cases hc
    cases h : text.getLast? with
    | none => decide
    | some d => exact hs.last hplaced d h
  have hstrip : stripChars ('=' :: (text ++ gap)) = '=' :: text :=
    trimBy_append (by decide) hlast fun c hc => isBlank_of_gap (hgap c hc)
  have hreads := scan_spelled hs 2 hplaced
  have hrun := ParseState.run_tokens he hreads 1
  have hshort := any_isTooLong hreads hplaced.not_tooLong
  unfold parseFormula
  rw [String.toList_ofList, hstrip]
  show (ParseState.run (.start []) 1 (scan true 2 text) >>= fun e =>
    if (scan true 2 text).any fun l => l.token.isTooLong then .error (.syntaxError none)
    else return e) = _
  rw [hrun, hshort]
  rfl

/-- A power with a negative base and a cell of another table, compared with a call. -/
def mixed : Expr :=
  .binary .ge (.binary .pow (.literal (.int (-2))) (.cell "$B$3" (some (.index 7))))
    (.call "SUM" [.range "A1:C$12" none, .literal (.text "a b")])

theorem mixed_writable : mixed.Writable := by
  have hcell : CellText isCapital "$B$3".toList :=
    @CellText.mk _ ['$'] ['B'] ['$'] ['3'] (by decide) (by decide) (forall_mem_of_all rfl)
      (by decide) (by decide) (forall_mem_of_all rfl)
  have hfirst : CellText isCapital "A1".toList :=
    @CellText.mk _ [] ['A'] [] ['1'] (by decide) (by decide) (forall_mem_of_all rfl)
      (by decide) (by decide) (forall_mem_of_all rfl)
  have hlast : CellText isCapital "C$12".toList :=
    @CellText.mk _ [] ['C'] ['$'] ['1', '2'] (by decide) (by decide) (forall_mem_of_all rfl)
      (by decide) (by decide) (forall_mem_of_all rfl)
  have hname : NameText "SUM".toList :=
    ⟨forall_mem_of_all rfl, ⟨'S', rfl, rfl⟩, by decide, by decide, nofun⟩
  have hnumber : (digitsOf (-2 : Int).natAbs).length ≤ maxDigits := by decide
  have htable : WritableTable (some (.index 7)) := ⟨by decide, by decide⟩
  have hstring : StringText "a b".toList := forall_mem_of_all rfl
  exact ⟨by decide, ⟨by decide, hnumber, hcell, htable⟩, hname, ⟨.mk hfirst hlast, trivial⟩,
    hstring, trivial⟩

theorem mixed_spelled :
    Spelled (mixed.tokens lowestLevel) "(-2)^ t7!$b$3>=\tSUM(a1:c$12 ,\"a b\")".toList := by
  have hcell : (Token.cell (some ['7']) "$B$3".toList).Spells "t7!$b$3".toList :=
    ⟨'t', "$b$3".toList, .inr rfl, by decide, by decide⟩
  have hrange : (Token.range none "A1:C$12".toList).Spells "a1:c$12".toList := by
    show List.map upperAscii _ = _
    decide
  have htab : ∀ c ∈ ['\t'], isGap c := forall_mem_of_all rfl
  have hspace : ∀ c ∈ [' '], isGap c := forall_mem_of_all rfl
  have hcall : Spelled [.name "SUM".toList, .opening, .range none "A1:C$12".toList, .comma,
      .string "a b".toList, .closing] "\tSUM(a1:c$12 ,\"a b\")".toList :=
    @Spelled.cons ['\t'] "SUM".toList _ _ _ htab rfl <| @Spelled.next ['('] _ _ _ rfl <|
      .next hrange <| @Spelled.cons [' '] [','] _ _ _ hspace rfl <|
      @Spelled.next "\"a b\"".toList _ _ _ rfl <| @Spelled.next [')'] _ _ _ rfl .nil
  exact @Spelled.next ['('] _ _ _ rfl <| @Spelled.next ['-'] _ _ _ rfl <|
    @Spelled.next ['2'] _ _ _ rfl <| @Spelled.next [')'] _ _ _ rfl <|
    @Spelled.next ['^'] _ _ _ rfl <| @Spelled.cons [' '] "t7!$b$3".toList _ _ _ hspace hcell <|
    @Spelled.next ['>', '='] _ _ _ rfl hcall

theorem mixed_parsed : mixed.Writable ∧
    Spelled (mixed.tokens lowestLevel) "(-2)^ t7!$b$3>=\tSUM(a1:c$12 ,\"a b\")".toList ∧
    parseFormula "=(-2)^ t7!$b$3>=\tSUM(a1:c$12 ,\"a b\")\n " = .ok mixed := by
  have hgap : ∀ c ∈ ['\n', ' '], isGap c := forall_mem_of_all rfl
  exact ⟨mixed_writable, mixed_spelled, parseFormula_spelled mixed_writable mixed_spelled hgap⟩

end Spreadsheet
