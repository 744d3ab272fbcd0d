import Spreadsheet.Proofs.TokenReading

/-!
# Parsing the tokens of a tree

The tokens of a tree lead the parser to that tree (`Expr.tokens_yield`). The induction is on the
tree, for every stack that is `Patient`: no operator of the part that is read closes anything on it.
Behind the part the operators of its right edge still wait, with unary signs among them, so what the
induction says is that the state stands for the part (`StandsFor`): the next symbol that binds no
more tightly than the place of the part closes all of them.
-/

namespace Spreadsheet

open Text Numeral

namespace ParseState

variable {place level : Nat} {e left right : Expr} {op : Operator} {stack : List Frame}

/-! ## Several tokens -/

def steps (state : ParseState) (ts : List Token) : Option ParseState := ts.foldlM step state

theorem steps_cons {state next : ParseState} {t : Token} (ts : List Token)
    (h : state.step t = some next) : state.steps (t :: ts) = next.steps ts := by
  show (state.step t).bind (fun next => next.steps ts) = _
  rw [h]
  rfl

theorem steps_append {state next : ParseState} {ts : List Token} (us : List Token)
    (h : state.steps ts = some next) : state.steps (ts ++ us) = next.steps us := by
  unfold steps at h ⊢
  rw [List.foldlM_append, h]
  rfl

/-- Where an argument may stand, the parser goes on as behind any other open parenthesis. -/
theorem steps_called {name : String} {ts : List Token} {stack' : List Frame}
    (h : (start (.call name [] :: stack)).steps ts = some (complete e stack')) :
    (called name stack).steps ts = some (complete e stack') := by
  cases ts with
  | nil => cases h
  | cons t ts =>
    have hstep : (called name stack).step t = (start (.call name [] :: stack)).step t := by
      cases t with
      | closing => cases h
      | _ => rfl
    show ((called name stack).step t).bind (fun next => next.steps ts) = _
    rw [hstep]
    exact h

/-! ## Closing -/

theorem close_minus (h : level ≤ signLevel) :
    close level e (.minus :: stack) = close level e.negate stack := by
  rw [close, if_pos h]

theorem close_binary (h : level < op.level ∨ level = op.level ∧ op ≠ .pow) :
    close level e (.binary op left :: stack) = close level (.binary op left e) stack := by
  rw [close, if_pos h]

theorem close_binary_waits (h : ¬ (level < op.level ∨ level = op.level ∧ op ≠ .pow)) :
    close level e (.binary op left :: stack) = (e, .binary op left :: stack) := by
  rw [close, if_neg h]

/-- No operator of some level or more closes anything on the stack. -/
def Patient (level : Nat) (stack : List Frame) : Prop :=
  ∀ op ∈ Operator.known, level ≤ op.level → ∀ e, close op.level e stack = (e, stack)

theorem Patient.mono (h : Patient level stack) {level' : Nat} (hle : level ≤ level') :
    Patient level' stack := fun op hop hlevel => h op hop (Nat.le_trans hle hlevel)

theorem Patient.nil : Patient level [] := fun _ _ _ _ => rfl

theorem Patient.group : Patient level (.group :: stack) := fun _ _ _ _ => rfl

theorem Patient.call {name : String} {args : List Expr} :
    Patient level (.call name args :: stack) := fun _ _ _ _ => rfl

end ParseState

/-! ## Levels of operators -/

namespace Operator

/-- Powers aside, operators bind less tightly than unary signs and group to the left. -/
theorem eq_pow_or_left (op : Operator) : op = pow ∨ op ≠ pow ∧ op.leftLevel = op.level ∧
    op.rightLevel = op.level + 1 ∧ op.level < signLevel := by
  cases op with
  | pow => exact .inl rfl
  | other symbol => exact .inr ⟨nofun, rfl, rfl, show 1 < 4 by decide⟩
  | _ => exact .inr (by decide)

end Operator

namespace ParseState

variable {place level : Nat} {e left right : Expr} {op : Operator} {stack : List Frame}

/-- An operator on the right side of another one leaves that one waiting. -/
theorem Patient.binary : Patient op.rightLevel (.binary op left :: stack) := by
  intro op' _ hlevel e
  refine close_binary_waits ?_
  rcases op.eq_pow_or_left with rfl | ⟨-, -, hright, -⟩
  · have hsign : signLevel ≤ op'.level := hlevel
    rcases op'.eq_pow_or_left with rfl | ⟨-, -, -, hlow⟩
    · decide
    · omega
  · rw [hright] at hlevel
    omega

/-! ## Operands -/

theorem numberOf_digitsOf (n : Nat) : numberOf (digitsOf n) = .int n := by
  have hread : DecimalText.read? (digitsOf n) = some ⟨false, digitsOf n, 0, 0, true⟩ :=
    DecimalText.read?_digits Nat.toDigits_ne_nil fun _ hc => isAsciiDigit_of_mem_digitsOf hc
  unfold numberOf
  rw [hread]
  show Value.int (digitsValue (digitsOf n)) = _
  rw [digitsValue_digitsOf]

theorem operandOf?_number {n : Int} (hn : 0 ≤ n) :
    operandOf? (.number (digitsOf n.natAbs)) = some (.literal (.int n)) := by
  show some (Expr.literal (numberOf _)) = _
  rw [numberOf_digitsOf, Int.natAbs_of_nonneg hn]

theorem unescapeQuotes_plain {cs : List Char} (h : ∀ c ∈ cs, c ≠ '\\') :
    unescapeQuotes cs = cs := by
  induction cs with
  | nil => rfl
  | cons c rest ih =>
    have hrest := ih fun d hd => h d (List.mem_cons_of_mem _ hd)
    unfold unescapeQuotes
    split
    · next heq =>
      injection heq with hc
      exact absurd hc (h c List.mem_cons_self)
    · next heq =>
      injection heq with hc htail
      rw [← hc, ← htail, hrest]
    · next heq => cases heq

theorem unescapeBackslashes_plain {cs : List Char} (h : ∀ c ∈ cs, c ≠ '\\') :
    unescapeBackslashes cs = cs := by
  induction cs with
  | nil => rfl
  | cons c rest ih =>
    have hrest := ih fun d hd => h d (List.mem_cons_of_mem _ hd)
    unfold unescapeBackslashes
    split
    · next heq =>
      injection heq with hc
      exact absurd hc (h c List.mem_cons_self)
    · next heq =>
      injection heq with hc htail
      rw [← hc, ← htail, hrest]
    · next heq => cases heq

theorem operandOf?_string {s : String} (h : StringText s.toList) :
    operandOf? (.string s.toList) = some (.literal (.text s)) := by
  have hplain : ∀ c ∈ s.toList, c ≠ '\\' := fun c hc => (h c hc).2.1
  show some (Expr.literal (.text (String.ofList _))) = _
  rw [unescapeQuotes_plain hplain, unescapeBackslashes_plain hplain, String.ofList_toList]

theorem referenceOf_ascii {word : List Char} (hword : ∀ c ∈ word, c.toNat < 0x80) :
    referenceOf word = String.ofList (word.map upperAscii) :=
  upper_ascii hword

/-- A reference that is in upper case already is kept. -/
theorem referenceOf_upper {s : String} (h : ∀ c ∈ s.toList, IsUpper c) :
    referenceOf s.toList = s := by
  rw [referenceOf_ascii fun c hc => (h c hc).2, map_upperAscii h, String.ofList_toList]

theorem tableOf_tableDigits {table : Option TableId} (h : WritableTable table) :
    tableOf (tableDigits table) = table := by
  cases table with
  | none => rfl
  | some id =>
    cases id with
    | index n =>
      show some (TableId.index (digitsValue (digitsOf n.natAbs))) = _
      rw [digitsValue_digitsOf, Int.natAbs_of_nonneg h.1]
    | other _ => cases h

section

variable {reference : String} {table : Option TableId} (htable : WritableTable table)

include htable

theorem operandOf?_cell (href : CellText isCapital reference.toList) :
    operandOf? (.cell (tableDigits table) reference.toList) = some (.cell reference table) := by
  show some (Expr.cell (referenceOf _) (tableOf _)) = _
  rw [referenceOf_upper href.upper, tableOf_tableDigits htable]

theorem operandOf?_range (href : RangeText isCapital reference.toList) :
    operandOf? (.range (tableDigits table) reference.toList) = some (.range reference table) := by
  show some (Expr.range (referenceOf _) (tableOf _)) = _
  rw [referenceOf_upper href.upper, tableOf_tableDigits htable]

end

/-! ## What stands for an expression -/

/-- An operand on one stack stands for an expression on another one, in a place of some level: a
symbol that binds no more tightly than the place closes the one to the other. Nothing waits where
the left side of a power is due. -/
structure StandsFor (place : Nat) (e : Expr) (stack : List Frame) (e' : Expr)
    (stack' : List Frame) : Prop where
  closes : ∀ level ≤ place, level ≤ signLevel → close level e' stack' = close level e stack
  whole : postfixLevel ≤ place → e' = e ∧ stack' = stack

theorem StandsFor.refl : StandsFor place e stack e stack :=
  ⟨fun _ _ _ => rfl, fun _ => ⟨rfl, rfl⟩⟩

/-- Some tokens lead to an expression in a place of some level. -/
def Yields (place : Nat) (e : Expr) (ts : List Token) : Prop :=
  ∀ stack, Patient place stack → ∃ e' stack',
    (start stack).steps ts = some (complete e' stack') ∧ StandsFor place e stack e' stack'

theorem Yields.of_complete {ts : List Token}
    (h : ∀ stack, (start stack).steps ts = some (complete e stack)) : Yields place e ts :=
  fun stack _ => ⟨e, stack, h stack, .refl⟩

theorem yields_operand {t : Token} (h : operandOf? t = some e) : Yields place e [t] := by
  refine .of_complete fun stack => ?_
  have hstep : (start stack).step t = some (complete e stack) := by
    show stepOperand stack t = _
    unfold stepOperand
    rw [h]
  exact steps_cons [] hstep

/-- Parentheses make any expression fit any place. -/
theorem Yields.enclosed {ts : List Token} (h : ∀ place ≤ e.level, Yields place e ts)
    (place : Nat) : Yields place e (enclosed (decide (e.level < place)) ts) := by
  by_cases hlevel : e.level < place
  · rw [decide_eq_true hlevel]
    refine .of_complete fun stack => ?_
    obtain ⟨e', stack', hsteps, hstands⟩ := h 0 (Nat.zero_le _) (.group :: stack) .group
    have hclose : close 0 e' stack' = (e, .group :: stack) :=
      hstands.closes 0 (Nat.zero_le _) (Nat.zero_le _)
    have hclosing : (complete e' stack').step .closing = some (complete e stack) := by
      unfold step
      dsimp only
      rw [hclose]
    show (start stack).steps (.opening :: (ts ++ [.closing])) = _
    rw [steps_cons _ (show (start stack).step .opening = some (start (.group :: stack)) from rfl),
      steps_append _ hsteps]
    exact steps_cons [] hclosing
  · rw [decide_eq_false hlevel]
    exact h place (Nat.le_of_not_lt hlevel)

/-- An operator between its sides. -/
theorem Yields.binary {tl tr : List Token} (hop : op ∈ Operator.known)
    (hl : Yields op.leftLevel left tl) (hr : Yields op.rightLevel right tr)
    (hplace : place ≤ op.level) :
    Yields place (.binary op left right) (tl ++ .operator op :: tr) := by
  intro stack hstack
  have hleft : op.level ≤ op.leftLevel := by
    rcases op.eq_pow_or_left with rfl | ⟨-, hleft, -, -⟩
    · decide
    · exact Nat.le_of_eq hleft.symm
  obtain ⟨l', ls, hlsteps, hlstands⟩ := hl stack (hstack.mono (Nat.le_trans hplace hleft))
  have hclose : close op.level l' ls = (left, stack) := by
    rw [← hstack op hop hplace left]
    rcases op.eq_pow_or_left with rfl | ⟨-, -, -, hlow⟩
    · obtain ⟨rfl, rfl⟩ := hlstands.whole (Nat.le_refl _)
      rfl
    · exact hlstands.closes op.level hleft (Nat.le_of_lt hlow)
  have hstep : (complete l' ls).step (.operator op) = some (start (.binary op left :: stack)) := by
    unfold step
    dsimp only
    rw [hclose]
  obtain ⟨e', stack', hrsteps, hrstands⟩ := hr (.binary op left :: stack) .binary
  refine ⟨e', stack', ?_, ⟨fun level hlevel hsign => ?_, fun hpost => ?_⟩⟩
  · rw [steps_append _ hlsteps, steps_cons _ hstep]
    exact hrsteps
  · -- a symbol of the level of a unary sign closes a power, which is the tightest operator
    have hcloses : level < op.level ∨ level = op.level ∧ op ≠ .pow := by
      rcases op.eq_pow_or_left with rfl | ⟨hpow, -⟩
      · exact .inl (Nat.lt_succ_of_le hsign)
      · rcases Nat.lt_or_eq_of_le (Nat.le_trans hlevel hplace) with hlt | heq
        · exact .inl hlt
        · exact .inr ⟨heq, hpow⟩
    have hright : level ≤ op.rightLevel := by
      rcases op.eq_pow_or_left with rfl | ⟨-, -, hright, -⟩
      · exact hsign
      · omega
    rw [hrstands.closes level hright hsign, close_binary hcloses]
  · exfalso
    have hmost : op.level ≤ 5 := by
      rcases op.eq_pow_or_left with rfl | ⟨-, -, -, hlow⟩
      · decide
      · exact Nat.le_of_lt (Nat.lt_succ_of_lt hlow)
    have : 6 ≤ place := hpost
    omega

/-- A negative number, its sign waiting. -/
theorem yields_negative {n : Int} (hn : n < 0) (hplace : place ≤ signLevel) :
    Yields place (.literal (.int n)) [.operator .sub, .number (digitsOf n.natAbs)] := by
  intro stack _
  have hnegate : (Expr.literal (.int n.natAbs)).negate = .literal (.int n) := by
    show Expr.literal (.int (-(n.natAbs : Int))) = _
    rw [Int.ofNat_natAbs_of_nonpos (Int.le_of_lt hn), Int.neg_neg]
  refine ⟨.literal (.int n.natAbs), .minus :: stack, ?_, ⟨fun level _ hsign => ?_, fun hpost => ?_⟩⟩
  · have hstep : (start stack).step (.operator .sub) = some (start (.minus :: stack)) := rfl
    have hoperand : (start (.minus :: stack)).step (.number (digitsOf n.natAbs)) =
        some (complete (.literal (.int n.natAbs)) (.minus :: stack)) := by
      show some (complete (.literal (numberOf _)) _) = _
      rw [numberOf_digitsOf]
    rw [steps_cons _ hstep, steps_cons _ hoperand]
    rfl
  · rw [close_minus hsign, hnegate]
  · exact absurd (Nat.le_trans hpost hplace) (by decide)

/-! ## Calls -/

section

variable {name : String} {done : List Expr}

/-- The arguments behind one that is read, up to the end of the call. -/
theorem steps_furtherTokens {rest : List Expr}
    (h : ∀ e ∈ rest, Yields lowestLevel e (e.tokens lowestLevel)) :
    ∀ {e e' : Expr} {done : List Expr} {stack' : List Frame},
    close 0 e' stack' = (e, .call name done :: stack) →
    (complete e' stack').steps (Expr.furtherTokens rest ++ [.closing]) =
      some (complete (.call name ((e :: done).reverse ++ rest)) stack) := by
  induction rest with
  | nil =>
    intro e e' done stack' hclose
    have hclosing : (complete e' stack').step .closing =
        some (complete (.call name (e :: done).reverse) stack) := by
      unfold step
      dsimp only
      rw [hclose]
    rw [List.append_nil]
    exact steps_cons [] hclosing
  | cons x rest ih =>
    intro e e' done stack' hclose
    have hcomma : (complete e' stack').step .comma =
        some (start (.call name (e :: done) :: stack)) := by
      unfold step
      dsimp only
      rw [hclose]
    obtain ⟨x', xs, hsteps, hstands⟩ := h x List.mem_cons_self _ .call
    have hclose' : close 0 x' xs = (x, .call name (e :: done) :: stack) :=
      hstands.closes 0 (Nat.zero_le _) (Nat.zero_le _)
    have hrest := ih (fun y hy => h y (List.mem_cons_of_mem _ hy)) hclose'
    show (complete e' stack').steps
      (.comma :: (x.tokens lowestLevel ++ Expr.furtherTokens rest ++ [.closing])) = _
    rw [steps_cons _ hcomma, List.append_assoc, steps_append _ hsteps, hrest, List.reverse_cons,
      List.append_assoc]
    rfl

/-- The arguments of a call, from its open parenthesis to its end. -/
theorem steps_argumentTokens {args : List Expr}
    (h : ∀ e ∈ args, Yields lowestLevel e (e.tokens lowestLevel)) :
    (called name stack).steps (Expr.argumentTokens args ++ [.closing]) =
      some (complete (.call name args) stack) := by
  cases args with
  | nil => rfl
  | cons e rest =>
    obtain ⟨e', stack', hsteps, hstands⟩ := h e List.mem_cons_self _ .call
    have hclose : close 0 e' stack' = (e, .call name [] :: stack) :=
      hstands.closes 0 (Nat.zero_le _) (Nat.zero_le _)
    show (called name stack).steps
      (e.tokens lowestLevel ++ Expr.furtherTokens rest ++ [.closing]) = _
    rw [List.append_assoc, steps_append _ (steps_called hsteps)]
    exact steps_furtherTokens (fun x hx => h x (List.mem_cons_of_mem _ hx)) hclose

theorem yields_call {args : List Expr}
    (h : ∀ e ∈ args, Yields lowestLevel e (e.tokens lowestLevel)) :
    Yields place (.call name args)
      (.name name.toList :: .opening :: Expr.argumentTokens args ++ [.closing]) := by
  refine .of_complete fun stack => ?_
  have hname : (start stack).step (.name name.toList) = some (named name stack) := by
    show some (named (String.ofList name.toList) stack) = _
    rw [String.ofList_toList]
  have hopening : (named name stack).step .opening = some (called name stack) := rfl
  show (start stack).steps
    (.name name.toList :: .opening :: (Expr.argumentTokens args ++ [.closing])) = _
  rw [steps_cons _ hname, steps_cons _ hopening]
  exact steps_argumentTokens h

end

end ParseState

namespace Expr

open ParseState

/-! ## Trees -/

mutual

/-- **The tokens of a tree lead to that tree**, in a place of any level. -/
theorem tokens_yield : (e : Expr) → e.Writable → ∀ place, Yields place e (e.tokens place)
  | .literal (.int n), _ => by
    intro place
    unfold tokens
    refine Yields.enclosed (fun place hplace => ?_) place
    dsimp only
    by_cases hn : n < 0
    · have hlevel : (Expr.literal (.int n)).level = signLevel := if_pos hn
      rw [if_pos hn]
      exact yields_negative hn (hlevel ▸ hplace)
    · rw [if_neg hn]
      exact yields_operand (operandOf?_number (Int.not_lt.1 hn))
  | .literal (.bool b), _ => by
    intro place
    unfold tokens
    exact Yields.enclosed (fun _ _ => yields_operand rfl) place
  | .literal (.text s), h => by
    intro place
    unfold tokens
    exact Yields.enclosed (fun _ _ => yields_operand (operandOf?_string h)) place
  | .cell reference table, ⟨href, htable⟩ => by
    intro place
    unfold tokens
    exact Yields.enclosed (fun _ _ => yields_operand (operandOf?_cell htable href)) place
  | .range reference table, ⟨href, htable⟩ => by
    intro place
    unfold tokens
    exact Yields.enclosed (fun _ _ => yields_operand (operandOf?_range htable href)) place
  | .call name args, ⟨_, hargs⟩ => by
    intro place
    unfold tokens
    exact Yields.enclosed (fun _ _ => yields_call (arguments_yield args hargs)) place
  | .binary op left right, ⟨hop, hleft, hright⟩ => by
    intro place
    unfold tokens
    exact Yields.enclosed (fun _ hplace => .binary hop (tokens_yield left hleft op.leftLevel)
      (tokens_yield right hright op.rightLevel) hplace) place

theorem arguments_yield : (args : List Expr) → AllWritable args →
    ∀ e ∈ args, Yields lowestLevel e (e.tokens lowestLevel)
  | [], _ => nofun
  | e :: rest, ⟨he, hrest⟩ => by
    intro x hx
    rcases List.mem_cons.1 hx with hx | hx
    · rw [hx]
      exact tokens_yield e he lowestLevel
    · exact arguments_yield rest hrest x hx

end

end Expr

namespace ParseState

/-! ## Letters in either case -/

theorem referenceOf_map {word : List Char} (hword : ∀ c ∈ word, c.toNat < 0x80) :
    referenceOf (word.map upperAscii) = referenceOf word := by
  have hupper : ∀ c ∈ word.map upperAscii, IsUpper c := by
    intro c hc
    obtain ⟨d, hd, rfl⟩ := List.mem_map.1 hc
    exact isUpper_upperAscii (hword d hd)
  rw [referenceOf_ascii hword, referenceOf_ascii fun c hc => (hupper c hc).2, map_upperAscii hupper]

section

variable {t' t : Token} (h : t'.Reads t)

include h

theorem stepOperand_reads (stack : List Frame) : stepOperand stack t' = stepOperand stack t := by
  cases h with
  | refl => rfl
  | @cell table word hword =>
    show some (complete (.cell (referenceOf word) (tableOf table)) stack) =
      some (complete (.cell (referenceOf (word.map upperAscii)) (tableOf table)) stack)
    rw [referenceOf_map hword]
  | @range table word hword =>
    show some (complete (.range (referenceOf word) (tableOf table)) stack) =
      some (complete (.range (referenceOf (word.map upperAscii)) (tableOf table)) stack)
    rw [referenceOf_map hword]

theorem step_reads (state : ParseState) : state.step t' = state.step t := by
  cases state with
  | start stack => exact stepOperand_reads h stack
  | named name stack => cases h <;> rfl
  | called name stack =>
    cases h with
    | refl => rfl
    | cell hword => exact stepOperand_reads (.cell hword) _
    | range hword => exact stepOperand_reads (.range hword) _
  | complete e stack => cases h <;> rfl

end

/-- A run over what was scanned ends as the steps over the tokens that were spelled. -/
theorem run_of_steps {lexemes : List Lexeme} {ts : List Token}
    (h : List.Forall₂ (fun l t => l.token.Reads t) lexemes ts) :
    ∀ {state last' : ParseState} (last : Nat), state.steps ts = some last' →
    last'.finish = some e → run state last lexemes = .ok e := by
  induction h with
  | nil =>
    intro state last' last hsteps hfinish
    cases hsteps
    unfold run
    rw [hfinish]
  | @cons l t lexemes ts hl _ ih =>
    intro state last' last hsteps hfinish
    unfold run
    rw [step_reads hl]
    cases hstep : state.step t with
    | none =>
      have hnone : state.steps (t :: ts) = none := by
        show (state.step t).bind _ = _
        rw [hstep]
        rfl
      rw [hnone] at hsteps
      cases hsteps
    | some next =>
      rw [steps_cons ts hstep] at hsteps
      exact ih l.column hsteps hfinish

/-- The tokens of a tree are parsed to that tree. -/
theorem run_tokens {lexemes : List Lexeme} (he : e.Writable)
    (h : List.Forall₂ (fun l t => l.token.Reads t) lexemes (e.tokens lowestLevel)) (last : Nat) :
    run (start []) last lexemes = .ok e := by
  obtain ⟨e', stack', hsteps, hstands⟩ := e.tokens_yield he lowestLevel [] .nil
  have hclose : close 0 e' stack' = (e, []) := hstands.closes 0 (Nat.zero_le _) (Nat.zero_le _)
  refine run_of_steps h last hsteps ?_
  unfold finish
  dsimp only
  rw [hclose]

end ParseState

end Spreadsheet
