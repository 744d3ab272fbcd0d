import Spreadsheet.Proofs.ScannedText

/-!
# Strings survive

A text with its quotes and backslashes escaped is read up to its own end, whatever follows
(`takeString?_escaped`), and undoing the two kinds of escapes one after the other gives the text back
(`operandOf?_escaped`). So a quoted text is read as itself wherever an operand is due
(`parseFormula_quoted`).
-/

namespace Spreadsheet

open Text

/-! ## Escaped texts -/

namespace Token

theorem readOperand_of_takeString? {cs content : List Char} (h : takeString? cs = some content) :
    readOperand ('"' :: cs) = (.string content, content.length + 2) := by
  have hnumber : takeNumber ('"' :: cs) = [] := rfl
  rw [readOperand_of_first cs (by decide) (by decide) (by decide), hnumber, if_neg fun hne => hne rfl]
  simp only [h]

end Token

section

variable {c : Char} {cs : List Char}

theorem escaped_cons_special (h : c = '"' ∨ c = '\\') :
    escapedChars (c :: cs) = '\\' :: c :: escapedChars cs := by
  unfold escapedChars
  rw [List.flatMap_cons, if_pos h]
  rfl

theorem escaped_cons_plain (h : ¬ (c = '"' ∨ c = '\\')) :
    escapedChars (c :: cs) = c :: escapedChars cs := by
  unfold escapedChars
  rw [List.flatMap_cons, if_neg h]
  rfl

theorem quote_ne_head_escaped (h : (escapedChars cs).head? = some c) : c ≠ '"' := by
  cases cs with
  | nil => cases h
  | cons d rest =>
    by_cases hd : d = '"' ∨ d = '\\'
    · rw [escaped_cons_special hd] at h
      cases h
      decide
    · rw [escaped_cons_plain hd] at h
      cases h
      exact fun hquote => hd (.inl hquote)

end

/-- An escaped text is read up to the quote behind it. -/
theorem takeString?_escaped {cs : List Char} (hline : '\n' ∉ cs) (text : List Char) :
    Token.takeString? (escapedChars cs ++ '"' :: text) = some (escapedChars cs) := by
  induction cs with
  | nil => rfl
  | cons c rest ih =>
    rw [List.mem_cons, not_or] at hline
    have hrest := ih hline.2
    by_cases hc : c = '"' ∨ c = '\\'
    · rw [escaped_cons_special hc, List.cons_append, List.cons_append, Token.takeString?,
        if_neg (Ne.symm hline.1), hrest]
      rfl
    · rw [escaped_cons_plain hc, List.cons_append, Token.takeString?]
      · rw [if_neg, hrest]
        · rfl
        · rintro (h | h)
          · exact hline.1 h.symm
          · exact hc (.inr h)
      · exact fun h => hc (.inl h)
      · exact fun _ _ h _ => hc (.inr h)

/-! ## Undoing the escapes -/

namespace ParseState

/-- The text with its backslashes doubled, which is what is left of its escapes when those of the
quotes are undone. -/
def doubled (cs : List Char) : List Char :=
  cs.flatMap fun c => if c = '\\' then ['\\', '\\'] else [c]

theorem unescapeQuotes_of_ne {c : Char} {rest : List Char}
    (h : c = '\\' → ∀ d, rest.head? = some d → d ≠ '"') :
    unescapeQuotes (c :: rest) = c :: unescapeQuotes rest := by
  rw [unescapeQuotes]
  rintro tail rfl rfl
  exact h rfl '"' rfl rfl

theorem unescapeBackslashes_of_ne {c : Char} {rest : List Char} (h : c ≠ '\\') :
    unescapeBackslashes (c :: rest) = c :: unescapeBackslashes rest := by
  rw [unescapeBackslashes]
  rintro tail rfl
  exact absurd rfl h

/-- Undoing the escapes of quotes leaves the backslashes doubled: the second one of a pair never
comes before a quote that has no backslash of its own. -/
theorem unescapeQuotes_escaped (cs : List Char) : unescapeQuotes (escapedChars cs) = doubled cs := by
  induction cs with
  | nil => rfl
  | cons c rest ih =>
    have hdoubled : doubled (c :: rest) = (if c = '\\' then ['\\', '\\'] else [c]) ++ doubled rest :=
      List.flatMap_cons
    by_cases hquote : c = '"'
    · subst hquote
      rw [escaped_cons_special (.inl rfl), hdoubled, ← ih]
      rfl
    · by_cases hslash : c = '\\'
      · subst hslash
        rw [escaped_cons_special (.inr rfl), hdoubled, ← ih, unescapeQuotes_of_ne,
          unescapeQuotes_of_ne fun _ d hd => quote_ne_head_escaped hd]
        · rfl
        · rintro - d hd rfl
          cases hd
      · rw [escaped_cons_plain (not_or.2 ⟨hquote, hslash⟩), hdoubled, ← ih, if_neg hslash,
          unescapeQuotes_of_ne fun h => absurd h hslash]
        rfl

theorem unescapeBackslashes_doubled (cs : List Char) : unescapeBackslashes (doubled cs) = cs := by
  induction cs with
  | nil => rfl
  | cons c rest ih =>
    have hdoubled : doubled (c :: rest) = (if c = '\\' then ['\\', '\\'] else [c]) ++ doubled rest :=
      List.flatMap_cons
    by_cases hslash : c = '\\'
    · subst hslash
      rw [hdoubled, if_pos rfl]
      show '\\' :: unescapeBackslashes (doubled rest) = _
      rw [ih]
    · rw [hdoubled, if_neg hslash]
      show unescapeBackslashes (c :: doubled rest) = _
      rw [unescapeBackslashes_of_ne hslash, ih]

/-- An escaped text stands for the text. -/
theorem operandOf?_escaped (s : String) :
    operandOf? (.string (escapedChars s.toList)) = some (.literal (.text s)) := by
  show some (Expr.literal (.text (String.ofList (unescapeBackslashes (unescapeQuotes _))))) = _
  rw [unescapeQuotes_escaped, unescapeBackslashes_doubled, String.ofList_toList]

/-! ## Where an operand is due -/

theorem Awaits.step_eq {state : ParseState} {stack : List Frame} (h : state.Awaits stack)
    {t : Token} {e : Expr} (ht : operandOf? t = some e) : state.step t = some (complete e stack) := by
  have hoperand : ∀ stack, stepOperand stack t = some (complete e stack) := by
    intro stack
    unfold stepOperand
    rw [ht]
  cases h with
  | start => exact hoperand stack
  | called name stack =>
    cases t with
    | closing => cases ht
    | _ => exact hoperand _

theorem awaitsOperand_iff_start {t : Token} (ht : t.awaitsOperand = true) (frames : List Frame) :
    t.awaitsOperand = true ↔ ∃ stack, (start frames).Awaits stack :=
  ⟨fun _ => ⟨frames, .start frames⟩, fun _ => ht⟩

theorem awaitsOperand_iff_complete {t : Token} (ht : t.awaitsOperand = false) (e : Expr)
    (frames : List Frame) : t.awaitsOperand = true ↔ ∃ stack, (complete e frames).Awaits stack := by
  rw [ht]
  exact ⟨nofun, nofun⟩

theorem awaitsOperand_iff_of_stepOperand {stack : List Frame} {t : Token} {next : ParseState}
    (h : stepOperand stack t = some next) :
    t.awaitsOperand = true ↔ ∃ stack, next.Awaits stack := by
  cases t with
  | number | bool | string | cell | range =>
    cases h
    exact awaitsOperand_iff_complete rfl _ _
  | name =>
    cases h
    exact ⟨nofun, nofun⟩
  | opening =>
    cases h
    exact awaitsOperand_iff_start rfl _
  | operator op =>
    cases op with
    | add | sub =>
      cases h
      exact awaitsOperand_iff_start rfl _
    | _ => cases h
  | _ => cases h

/-- The scanner looks for an operand exactly where the parser awaits one. -/
theorem awaitsOperand_iff_of_step {state next : ParseState} {t : Token}
    (h : state.step t = some next) : t.awaitsOperand = true ↔ ∃ stack, next.Awaits stack := by
  cases state with
  | start stack => exact awaitsOperand_iff_of_stepOperand h
  | named name stack =>
    cases t with
    | opening =>
      cases h
      exact ⟨fun _ => ⟨_, .called name stack⟩, fun _ => rfl⟩
    | _ => cases h
  | called name stack =>
    cases t with
    | closing =>
      cases h
      exact awaitsOperand_iff_complete rfl _ _
    | _ => exact @awaitsOperand_iff_of_stepOperand (.call name [] :: stack) _ _ h
  | complete e stack =>
    cases t with
    | operator op =>
      cases h
      exact awaitsOperand_iff_start rfl _
    | percent =>
      cases h
      exact awaitsOperand_iff_complete rfl _ _
    | comma =>
      simp only [step] at h
      split at h <;> cases h
      exact awaitsOperand_iff_start rfl _
    | closing =>
      simp only [step] at h
      split at h <;> cases h <;> exact awaitsOperand_iff_complete rfl _ _
    | _ => cases h

end ParseState

/-! ## Quoted texts -/

/-- Where an operand is due, a quoted text is one token, whatever follows. -/
theorem scan_stringLiteral {cs : List Char} (hline : '\n' ∉ cs) (column : Nat) (text : List Char) :
    scan true column (stringLiteral cs ++ text) = ⟨.string (escapedChars cs), column⟩ ::
      scan false (column + (stringLiteral cs).length) text := by
  have hquoted : stringLiteral cs ++ text = '"' :: (escapedChars cs ++ '"' :: text) := by
    simp [stringLiteral]
  have hlength : (stringLiteral cs).length = (escapedChars cs).length + 2 := by simp [stringLiteral]
  have hread := Token.readOperand_of_takeString? (takeString?_escaped hline text)
  have hdrop : (escapedChars cs ++ '"' :: text).drop ((escapedChars cs).length + 2 - 1) = text := by
    simp
  rw [hquoted, hlength, @scan_cons_token true _ _ _ _ _ hread (by decide) nofun, hdrop]
  rfl

theorem getLast?_stringLiteral (cs : List Char) : (stringLiteral cs).getLast? = some '"' := by
  unfold stringLiteral
  rw [List.getLast?_concat]

/-- The tokens of a quoted text by itself. -/
theorem scan_stringLiteral_alone {cs : List Char} (hline : '\n' ∉ cs) (column : Nat) :
    scan true column (stringLiteral cs) = [⟨.string (escapedChars cs), column⟩] := by
  have hscan := scan_stringLiteral hline column []
  rw [List.append_nil] at hscan
  rw [hscan]
  unfold scan
  rfl

/-- **Strings survive.** A text on one line is quoted so that its string ends where the pattern of
strings says, whatever follows; where the parser awaits an operand, the scanner looks for one, takes
the quoted text as one token, and the parser reads the text from it. -/
theorem parseFormula_quoted (s : String) (hline : '\n' ∉ s.toList) :
    (∀ text content, (∃ m : StringMatch (escapedChars s.toList ++ '"' :: text),
      m.IsFirst ∧ m.content = content) ↔ content = escapedChars s.toList) ∧
    (∀ (state next : ParseState) (t : Token), state.step t = some next →
      (t.awaitsOperand = true ↔ ∃ stack, next.Awaits stack)) ∧
    (∀ column text, scan true column (stringLiteral s.toList ++ text) =
      ⟨.string (escapedChars s.toList), column⟩ ::
        scan false (column + (stringLiteral s.toList).length) text) ∧
    (∀ (state : ParseState) (stack : List Frame), state.Awaits stack → ∀ last column text,
      state.run last (scan true column (stringLiteral s.toList ++ text)) =
        ParseState.run (.complete (.literal (.text s)) stack) column
          (scan false (column + (stringLiteral s.toList).length) text)) ∧
    parseFormula (String.ofList ('=' :: stringLiteral s.toList)) = .ok (.literal (.text s)) := by
  have hend : ∀ text content, (∃ m : StringMatch (escapedChars s.toList ++ '"' :: text),
      m.IsFirst ∧ m.content = content) ↔ content = escapedChars s.toList := by
    intro text content
    rw [← Token.takeString?_eq_some_iff, takeString?_escaped hline, Option.some.injEq, eq_comm]
  have hrun : ∀ (state : ParseState) (stack : List Frame), state.Awaits stack →
      ∀ last column lexemes, state.run last (⟨.string (escapedChars s.toList), column⟩ :: lexemes) =
        ParseState.run (.complete (.literal (.text s)) stack) column lexemes := by
    intro state stack hat last column lexemes
    rw [ParseState.run, hat.step_eq (ParseState.operandOf?_escaped s)]
  have hstrip : Text.stripChars ('=' :: stringLiteral s.toList) = '=' :: stringLiteral s.toList := by
    have htrim := @trimBy_append isBlank '=' (stringLiteral s.toList) [] (by decide) ?_
      (List.forall_mem_nil _)
    · rw [List.append_nil] at htrim
      exact htrim
    · intro d hd
      rw [List.getLast?_cons, getLast?_stringLiteral] at hd
      cases hd
      decide
  refine ⟨hend, fun _ _ _ => ParseState.awaitsOperand_iff_of_step, scan_stringLiteral hline, ?_, ?_⟩
  · intro state stack hat last column text
    rw [scan_stringLiteral hline, hrun state stack hat]
  · unfold parseFormula
    rw [String.toList_ofList, hstrip]
    simp only [scan_stringLiteral_alone hline, hrun _ _ (.start [])]
    rfl

/-- A quote behind two backslashes, and a backslash at the end. -/
theorem parseFormula_quoted_backslashes : '\n' ∉ "\\\\\"+\\".toList ∧
    parseFormula "=\"\\\\\\\\\\\"+\\\\\"" = .ok (.literal (.text "\\\\\"+\\")) :=
  ⟨by decide, (parseFormula_quoted "\\\\\"+\\" (by decide)).2.2.2.2⟩

end Spreadsheet
