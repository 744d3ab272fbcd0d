import Mathlib
import Spreadsheet.Formula.Failure
import Spreadsheet.Proofs.Dependency

/-!
# Faults stay inside

No step of an evaluation meets a fault that is not contained, as long as the parser gives none. So
every expression and every formula has a value, whatever the workbook and the keys in progress, and
an expression that fails has the value `#ERROR!`, which the aggregates around it pass over
(`evaluateFormula_answers`). The walk over the tree rests on two facts: what a source reads are
values, and each function and operator stops at contained faults only (`Contained`).
-/

namespace Spreadsheet

open Calendar Workbook MonadExcept

/-- A computation stops at no other faults than contained ones. -/
def Contained {α : Type} (x : Except Fault α) : Prop := ∀ f, x = .error f → f.isContained = true

namespace Contained

variable {α β : Type}

theorem ok (a : α) : Contained (.ok a) := by
  intro f h
  cases h

theorem error {f : Fault} (h : f.isContained = true) : Contained (.error f : Except Fault α) := by
  intro g hg
  cases hg
  exact h

theorem bind {x : Except Fault α} {k : α → Except Fault β} (hx : Contained x)
    (hk : ∀ a, Contained (k a)) : Contained (x >>= k) := by
  intro f h
  cases x with
  | error g =>
    cases h
    exact hx f rfl
  | ok a => exact hk a f h

theorem ofExcept {x : Except Fault α} (h : Contained x) :
    Contained (MonadExcept.ofExcept x : Except Fault α) := by
  rw [ofExcept_except]
  exact h

end Contained

/-! ## Values and references -/

namespace Value

theorem number?_contained (v : Value) : Contained v.number? := by
  cases v with
  | int n =>
    simp only [number?]
    split
    · exact .ok _
    · exact .error rfl
  | text s =>
    simp only [number?, numberOfText]
    split
    · exact .ok _
    · split
      · split
        · exact .ok _
        · exact .error rfl
      · exact .ok _
  | moment t =>
    simp only [number?]
    split
    · exact .error rfl
    · exact .ok _
  | _ => exact .ok _

theorem operand?_contained (v : Value) : Contained (operand? v) := by
  unfold operand?
  split
  · exact .ok _
  · exact v.number?_contained

end Value

/-- A value that is no operand stops the operator at a fault or without a number. -/
theorem Value.IsNoOperand.cases {v : Value} (h : v.IsNoOperand) :
    operand? v = .ok none ∨ ∃ f, operand? v = .error f := by
  cases ho : operand? v with
  | error f => exact .inr ⟨f, rfl⟩
  | ok n =>
    cases n with
    | none => exact .inl rfl
    | some n => exact absurd ho (h n)

theorem integerText_contained (n : Int) : Contained (integerText n) := by
  unfold integerText
  split
  · exact .ok _
  · exact .error rfl

namespace Value

mutual

theorem literal_contained (v : Value) : Contained v.literal := by
  cases v with
  | int n => exact integerText_contained n
  | list items => exact (literals_contained items).bind fun _ => .ok _
  | record fields => exact (fieldLiterals_contained fields).bind fun _ => .ok _
  | _ => exact .ok _

theorem literals_contained (vs : List Value) : Contained (literals vs) := by
  cases vs with
  | nil => exact .ok _
  | cons v rest =>
    exact (literal_contained v).bind fun _ => (literals_contained rest).bind fun _ => .ok _

theorem fieldLiterals_contained (fields : List (Value × Value)) :
    Contained (fieldLiterals fields) := by
  match fields with
  | [] => exact .ok _
  | (name, v) :: rest =>
    exact (literal_contained name).bind fun _ => (literal_contained v).bind fun _ =>
      (fieldLiterals_contained rest).bind fun _ => .ok _

end

end Value

namespace Reference

theorem parse_contained (text : String) : Contained (parse text) := by
  unfold parse
  dsimp only
  split
  · exact .ok _
  · split
    · exact .error rfl
    · split
      · exact .ok _
      · exact .ok _

theorem expand_contained (text : String) : Contained (expand text) := by
  refine Contained.bind ?_ fun _ => .ok _
  unfold parseRange
  split
  · exact (parse_contained _).bind fun _ => (parse_contained _).bind fun _ => .ok _
  · exact .ok _

end Reference

/-! ## Functions and operators -/

theorem find_contained (name : String) : Contained (Function.find name) := by
  unfold Function.find
  split
  · exact .ok _
  · exact .error rfl

namespace Number

theorem toFloat_contained (a : Number) : Contained a.toFloat := by
  cases a with
  | int n =>
    simp only [toFloat]
    split
    · exact .ok _
    · exact .error rfl
  | float x => exact .ok _

theorem combine_contained (whole : Int → Int → Int) (double : Float → Float → Float)
    (a b : Number) : Contained (combine whole double a b) := by
  unfold combine
  split
  · exact .ok _
  · exact a.toFloat_contained.bind fun _ => b.toFloat_contained.bind fun _ => .ok _

theorem div_contained (a b : Number) : Contained (a.div b) := by
  unfold div
  split
  · split
    · exact .ok _
    · exact .error rfl
  · exact a.toFloat_contained.bind fun _ => b.toFloat_contained.bind fun _ => .ok _

theorem power_contained (x y : Float) : Contained (power x y) := by
  unfold power
  dsimp only
  split
  · exact .ok _
  · split
    · split
      · exact .ok _
      · split
        · exact .ok _
        · exact .ok _
    · split
      · split
        · exact .ok _
        · exact .ok _
      · split
        · split
          · exact .error rfl
          · exact .ok _
        · split
          · exact .ok _
          · generalize (if x.abs == 1 then 1 else Float.pow x.abs y) = result
            split
            · exact .error rfl
            · exact .ok _

theorem pow_contained (a b : Number) : Contained (a.pow b) :=
  a.toFloat_contained.bind fun _ => b.toFloat_contained.bind fun _ =>
    (power_contained _ _).bind fun _ => .ok _

end Number

theorem Operator.apply_contained (op : Operator) (a b : Number) : Contained (op.apply a b) := by
  cases op with
  | add => exact (Number.combine_contained _ _ a b).bind fun _ => .ok _
  | sub => exact (Number.combine_contained _ _ a b).bind fun _ => .ok _
  | mul => exact (Number.combine_contained _ _ a b).bind fun _ => .ok _
  | div =>
    simp only [apply]
    split
    · exact .ok _
    · exact (a.div_contained b).bind fun _ => .ok _
  | pow => exact (a.pow_contained b).bind fun _ => .ok _
  | other symbol => exact .error rfl
  | _ => exact .ok _

theorem numbersOf_contained (vs : List Value) : Contained (numbersOf vs) := by
  induction vs with
  | nil => exact .ok _
  | cons v rest ih =>
    refine v.number?_contained.bind fun n => ?_
    cases n with
    | none => exact ih
    | some n => exact ih.bind fun _ => .ok _

theorem countNumbers_contained (vs : List Value) : Contained (countNumbers vs) := by
  induction vs with
  | nil => exact .ok _
  | cons v rest ih =>
    cases v with
    | bool b => exact ih
    | _ => exact (Value.number?_contained _).bind fun _ => ih.bind fun _ => .ok _

theorem total_contained (numbers : List Number) : Contained (total numbers) := by
  have from_ : ∀ sum : Number, Contained (numbers.foldlM Number.add sum) := by
    induction numbers with
    | nil => exact fun _ => .ok _
    | cons n rest ih => exact fun sum => (Number.combine_contained _ _ sum n).bind ih
  exact from_ _

theorem mean_contained (numbers : List Number) : Contained (mean numbers) := by
  unfold mean
  split
  · exact .ok _
  · exact (total_contained numbers).bind fun sum => sum.div_contained _

theorem Aggregate.apply_contained (f : Aggregate) (vs : List Value) : Contained (f.apply vs) := by
  have hnumbers := numbersOf_contained vs
  cases f with
  | sum => exact hnumbers.bind fun ns => (total_contained ns).bind fun _ => .ok _
  | average => exact hnumbers.bind fun ns => (mean_contained ns).bind fun _ => .ok _
  | count => exact (countNumbers_contained vs).bind fun _ => .ok _
  | max => exact hnumbers.bind fun _ => .ok _
  | min => exact hnumbers.bind fun _ => .ok _

theorem wholeArgument_contained (name label : String) (v : Value) :
    Contained (wholeArgument name label v) := by
  refine v.number?_contained.bind fun n => ?_
  cases n with
  | none => exact v.literal_contained.bind fun _ => .error rfl
  | some n =>
    dsimp only
    split
    · exact .ok _
    · exact .error rfl

theorem dateOf_contained (args : List Value) : Contained (dateOf args) := by
  unfold dateOf
  split
  · refine (wholeArgument_contained _ _ _).bind fun _ => (wholeArgument_contained _ _ _).bind
      fun _ => (wholeArgument_contained _ _ _).bind fun _ => ?_
    split
    · exact .ok _
    · exact .error rfl
  · exact .error rfl

theorem choose_contained (args : List Value) : Contained (choose args) := by
  unfold choose
  split
  · exact .ok _
  · exact .ok _
  · exact .error rfl

theorem Scalar.apply_contained (f : Scalar) (today : Date) (args : List Value) :
    Contained (f.apply today args) := by
  cases f with
  | cond => exact choose_contained args
  | date => exact dateOf_contained args
  | today =>
    simp only [apply]
    split
    · exact .ok _
    · exact .error rfl

/-! ## Expressions -/

theorem contain_error {f : Fault} (h : f.isContained = true) :
    contain (.error f : Except Fault Value) = .ok Sentinel.error.value := by
  show (if f.isContained then pure Sentinel.error.value else throwThe Fault f) = _
  rw [if_pos h]
  rfl

theorem Contained.exists_contain {x : Except Fault Value} (h : Contained x) :
    ∃ v, contain x = .ok v := by
  cases x with
  | ok v => exact ⟨v, rfl⟩
  | error f => exact ⟨_, contain_error (h f rfl)⟩

/-- What a source reads are values. -/
def Source.Answers (s : Source (Except Fault)) : Prop :=
  ∀ n row col x, s.read? n row col = some x → ∃ v, x = .ok v

namespace Source

variable {s : Source (Except Fault)} (hs : s.Answers)

include hs

theorem cellValue_contained (table : TableId) (reference : String) :
    Contained (s.cellValue table reference) := by
  unfold cellValue
  split
  · exact .ok _
  · refine (Reference.parse_contained reference).ofExcept.bind fun position => ?_
    cases position with
    | none => exact .ok _
    | some at_ =>
      dsimp only
      split
      · exact .ok _
      · next read hread =>
        obtain ⟨v, rfl⟩ := hs _ _ _ _ hread
        exact .ok v

theorem rangeNumbers_contained (table : TableId) (range : String) :
    Contained (s.rangeNumbers table range) := by
  unfold rangeNumbers
  split
  · exact .ok _
  · next n _ =>
    refine (Reference.expand_contained range).ofExcept.bind fun covered => ?_
    cases covered with
    | none => exact .ok _
    | some positions =>
      have numbers : ∀ reads : List (Except Fault Value), (∀ x ∈ reads, ∃ v, x = .ok v) →
          Contained (readNumbers reads) := by
        intro reads hreads
        induction reads with
        | nil => exact .ok _
        | cons x rest ih =>
          obtain ⟨v, rfl⟩ := hreads x List.mem_cons_self
          refine v.number?_contained.ofExcept.bind fun _ => ?_
          exact (ih fun y hy => hreads y (List.mem_cons_of_mem _ hy)).bind fun _ => .ok _
      refine (numbers _ fun x hx => ?_).bind fun _ => .ok _
      obtain ⟨p, -, hp⟩ := List.mem_filterMap.1 hx
      exact hs _ _ _ _ hp

end Source

namespace Expr

variable {s : Source (Except Fault)} (today : Date) (table : TableId)

mutual

/-- Every expression has a value over a source that reads values. -/
theorem exists_value_eq_ok (hs : s.Answers) (e : Expr) : ∃ v, e.value s today table = .ok v := by
  unfold value
  refine Contained.exists_contain ?_
  cases e with
  | literal v => exact .ok v
  | missing => exact .ok _
  | cell reference named => exact s.cellValue_contained hs _ _
  | range reference named =>
    refine (s.rangeNumbers_contained hs _ _).bind fun numbers => ?_
    cases numbers with
    | none => exact .ok _
    | some ns => exact .ok _
  | call name args =>
    refine (find_contained name).ofExcept.bind fun f => ?_
    cases f with
    | aggregate f =>
      exact (flatValues_contained hs args).bind fun vs => (f.apply_contained vs).ofExcept
    | scalar f =>
      obtain ⟨vs, hvs⟩ := exists_values_eq_ok hs args
      dsimp only
      rw [hvs]
      exact (f.apply_contained today vs).ofExcept
  | binary op left right =>
    obtain ⟨v, hv⟩ := exists_value_eq_ok hs left
    obtain ⟨w, hw⟩ := exists_value_eq_ok hs right
    dsimp only
    split
    · exact .ok _
    · rw [hv, hw]
      refine v.operand?_contained.ofExcept.bind fun a => w.operand?_contained.ofExcept.bind
        fun b => ?_
      cases a with
      | none => exact .ok _
      | some a =>
        cases b with
        | none => exact .ok _
        | some b => exact (op.apply_contained a b).ofExcept

theorem exists_values_eq_ok (hs : s.Answers) (args : List Expr) :
    ∃ vs, values s today table args = .ok vs := by
  cases args with
  | nil => exact ⟨[], rfl⟩
  | cons e rest =>
    obtain ⟨v, hv⟩ := exists_value_eq_ok hs e
    obtain ⟨vs, hvs⟩ := exists_values_eq_ok hs rest
    refine ⟨v :: vs, ?_⟩
    unfold values
    rw [hv, hvs]
    rfl

theorem flatValues_contained (hs : s.Answers) (args : List Expr) :
    Contained (flatValues s today table args) := by
  cases args with
  | nil => exact .ok _
  | cons e rest =>
    have append : ∀ vs, Contained (do return vs ++ (← flatValues s today table rest)) :=
      fun vs => (flatValues_contained hs rest).bind fun _ => .ok _
    have he := exists_value_eq_ok hs e
    cases e with
    | range reference named =>
      exact (s.rangeNumbers_contained hs _ _).bind fun _ => (Contained.ok _).bind append
    | cell reference named =>
      exact (s.cellValue_contained hs _ _).bind fun _ => (Contained.ok _).bind append
    | _ =>
      obtain ⟨v, hv⟩ := he
      unfold flatValues
      dsimp only
      rw [hv]
      exact append v.items

end

/-- A range is no operand. -/
theorem value_binary_of_range (op : Operator) {left right : Expr}
    (h : (left.isRange || right.isRange) = true) :
    (Expr.binary op left right).value s today table = .ok Sentinel.error.value := by
  unfold value
  dsimp only
  rw [if_pos h]
  rfl

/-- What operands with these values give, none of them a range: the result of the operator, if both
are numbers. -/
theorem value_binary_of_values (op : Operator) {left right : Expr} {v w : Value}
    (h : (left.isRange || right.isRange) = false) (hv : left.value s today table = .ok v)
    (hw : right.value s today table = .ok w) :
    (Expr.binary op left right).value s today table = contain (do
      let a ← operand? v
      let b ← operand? w
      match a, b with
      | some a, some b => op.apply a b
      | _, _ => .ok Sentinel.error.value) := by
  unfold value
  dsimp only
  rw [if_neg (by rw [h]; exact Bool.false_ne_true), hv, hw]
  simp only [ofExcept_except]
  rfl

/-- What operands with these values give: the result of the operator, if both are numbers. -/
theorem value_binary (op : Operator) {left right : Expr} {v w : Value}
    (hv : left.value s today table = .ok v) (hw : right.value s today table = .ok w) :
    (Expr.binary op left right).value s today table = .ok Sentinel.error.value ∨
    (Expr.binary op left right).value s today table = contain (do
      let a ← operand? v
      let b ← operand? w
      match a, b with
      | some a, some b => op.apply a b
      | _, _ => .ok Sentinel.error.value) := by
  cases h : left.isRange || right.isRange with
  | true => exact .inl (value_binary_of_range today table op h)
  | false => exact .inr (value_binary_of_values today table op h hv hw)

/-- An expression that fails has the value `#ERROR!`. -/
theorem value_of_fails (hs : s.Answers) {e : Expr} (h : e.Fails s today table) :
    e.value s today table = .ok Sentinel.error.value := by
  cases h with
  | missing =>
    unfold value
    rfl
  | @cell reference named f hf =>
    unfold value
    dsimp only
    rw [hf]
    exact contain_error (s.cellValue_contained hs _ _ f hf)
  | @range reference named f hf =>
    unfold value
    dsimp only
    rw [hf]
    exact contain_error (s.rangeNumbers_contained hs _ _ f hf)
  | @name name args f hf =>
    unfold value
    dsimp only
    rw [hf]
    exact contain_error (find_contained name f hf)
  | @arguments name args g f hg hf =>
    unfold value
    dsimp only
    rw [hg]
    show contain (flatValues s today table args >>= _) = _
    rw [hf]
    exact contain_error (flatValues_contained today table hs args f hf)
  | @aggregate name args g vs f hg hvs hf =>
    unfold value
    dsimp only
    rw [hg]
    show contain (flatValues s today table args >>= _) = _
    rw [hvs]
    show contain (MonadExcept.ofExcept (g.apply vs)) = _
    rw [hf]
    exact contain_error (g.apply_contained vs f hf)
  | @scalar name args g vs f hg hvs hf =>
    unfold value
    dsimp only
    rw [hg]
    show contain (values s today table args >>= _) = _
    rw [hvs]
    show contain (MonadExcept.ofExcept (g.apply today vs)) = _
    rw [hf]
    exact contain_error (g.apply_contained today vs f hf)
  | @left op left right v hv hno =>
    obtain ⟨w, hw⟩ := exists_value_eq_ok today table hs right
    rcases value_binary today table op hv hw with herror | hvalue
    · exact herror
    · rw [hvalue]
      rcases hno.cases with ha | ⟨f, ha⟩
      · rw [ha]
        cases hb : operand? w with
        | error f => exact contain_error (w.operand?_contained f hb)
        | ok b => rfl
      · rw [ha]
        exact contain_error (v.operand?_contained f ha)
  | @right op left right w hw hno =>
    obtain ⟨v, hv⟩ := exists_value_eq_ok today table hs left
    rcases value_binary today table op hv hw with herror | hvalue
    · exact herror
    · rw [hvalue]
      cases ha : operand? v with
      | error f => exact contain_error (v.operand?_contained f ha)
      | ok a =>
        rcases hno.cases with hb | ⟨f, hb⟩
        · rw [hb]
          cases a <;> rfl
        · rw [hb]
          exact contain_error (w.operand?_contained f hb)
  | @operator op left right v w a b f hv hw ha hb hf =>
    rcases value_binary today table op hv hw with herror | hvalue
    · exact herror
    · rw [hvalue, ha, hb]
      show contain (op.apply a b) = _
      rw [hf]
      exact contain_error (op.apply_contained a b f hf)
  | @power left right v w a b hv hw ha hb hf =>
    rcases value_binary today table .pow hv hw with herror | hvalue
    · exact herror
    · rw [hvalue, ha, hb]
      show contain (a.pow b >>= _) = _
      rw [hf]
      rfl

end Expr

/-! ## Formulas -/

theorem Workbook.source_answers {w : Workbook}
    {f : ∀ n text, (n, text) ∈ w.formulas → Except Fault Value}
    (hf : ∀ n text hm, ∃ v, f n text hm = .ok v) : (w.source f).Answers := by
  intro n row col x hx
  cases hc : w.cell? n row col with
  | none =>
    rw [source_read?_none w f hc] at hx
    cases hx
  | some c =>
    rw [source_read?_some w f hc] at hx
    cases hx
    cases hr : c.resolved with
    | true => exact ⟨_, Cell.read_of_resolved hr⟩
    | false =>
      obtain ht | ⟨text, ht⟩ := Option.eq_none_or_eq_some c.value.formula?
      · exact ⟨_, Cell.read_of_plain hr ht⟩
      · rw [Cell.read_of_formula hr ht]
        exact hf n text _

namespace Environment

variable {env : Environment} (hparser : ∀ text, Contained (env.parser text))

include hparser

theorem exists_enter_eq_ok {s : Source (Except Fault)} (hs : s.Answers) (table : TableId)
    (text : String) : ∃ v, env.enter s table text = .ok v := by
  refine Contained.exists_contain ((hparser text).ofExcept.bind fun e => ?_)
  obtain ⟨v, hv⟩ := e.exists_value_eq_ok env.today table hs
  rw [hv]
  exact .ok v

/-- Every formula of the workbook has a value. The induction is on the number of the workbook's
formulas that are not in progress. -/
theorem exists_formulaValue_eq_ok (depth : Nat) : ∀ (n : Nat) (text : String) (p : Progress)
    (hm : (n, text) ∈ env.workbook.formulas), env.workbook.pending p ≤ depth →
    ∃ v, env.formulaValue p n text hm = .ok v := by
  induction depth with
  | zero =>
    intro n text p hm hd
    by_cases hkey : cellKey n text ∈ p
    · exact ⟨_, env.formulaValue_of_mem hm hkey⟩
    · have := pending_cons_lt (cellKey_mem_keys hm) hkey
      omega
  | succ depth ih =>
    intro n text p hm hd
    by_cases hkey : cellKey n text ∈ p
    · exact ⟨_, env.formulaValue_of_mem hm hkey⟩
    · have hlt := pending_cons_lt (cellKey_mem_keys hm) hkey
      rw [env.formulaValue_of_not_mem hm hkey]
      refine exists_enter_eq_ok hparser (source_answers fun k inner hk => ?_) _ _
      exact ih k inner _ hk (by omega)

theorem source_answers (p : Progress) : (env.source p).Answers :=
  Workbook.source_answers fun n text hm =>
    exists_formulaValue_eq_ok hparser _ n text p hm (Nat.le_refl _)

end Environment

/-- The parser of formulas stops at contained faults only. -/
theorem parseFormula_contained (text : String) : Contained (parseFormula text) := by
  have run : ∀ (lexemes : List Lexeme) (state : ParseState) (last : Nat),
      Contained (state.run last lexemes) := by
    intro lexemes
    induction lexemes with
    | nil =>
      intro state last
      unfold ParseState.run
      split
      · exact .ok _
      · exact .error rfl
    | cons lexeme rest ih =>
      intro state last
      unfold ParseState.run
      split
      · exact ih _ _
      · exact .error rfl
  unfold parseFormula
  split
  · refine (run _ _ _).bind fun e => ?_
    split
    · exact .error rfl
    · exact .ok _
  · exact .error rfl

/-- The key of a formula can be written when the table's index has not too many digits. -/
theorem exists_formulaKey_eq_ok {n : Int}
    (hn : (Numeral.digitsOf n.natAbs).length ≤ Numeral.maxDigits) (text : String) :
    ∃ key, formulaKey (.index n) text = .ok key := by
  unfold formulaKey integerText Numeral.integerText?
  dsimp only
  rw [if_pos hn]
  exact ⟨_, rfl⟩

/-! ## Values that are passed over -/

theorem Sentinel.number?_value (k : Sentinel) : k.value.number? = .ok none := by
  cases k <;> cbv

theorem numbersOf_skip {v : Value} (hv : v.number? = .ok none) (vs ws : List Value) :
    numbersOf (vs ++ v :: ws) = numbersOf (vs ++ ws) := by
  induction vs with
  | nil =>
    rw [List.nil_append, List.nil_append, numbersOf, hv]
    rfl
  | cons u rest ih =>
    rw [List.cons_append, List.cons_append, numbersOf, numbersOf, ih]

theorem countNumbers_skip {v : Value} (hv : v.number? = .ok none) (vs ws : List Value) :
    countNumbers (vs ++ v :: ws) = countNumbers (vs ++ ws) := by
  induction vs with
  | nil =>
    rw [List.nil_append, List.nil_append,
      countNumbers_cons v ws (fun b hb => by rw [hb] at hv; cases hv), hv]
    cases countNumbers ws <;> rfl
  | cons u rest ih =>
    by_cases hb : ∃ b, u = .bool b
    · obtain ⟨b, rfl⟩ := hb
      exact ih
    · have hu : ∀ b, u ≠ .bool b := fun b h => hb ⟨b, h⟩
      rw [List.cons_append, List.cons_append, countNumbers_cons _ _ hu, countNumbers_cons _ _ hu, ih]

/-- An aggregate passes over a sentinel. -/
theorem Aggregate.apply_skip (f : Aggregate) (k : Sentinel) (vs ws : List Value) :
    f.apply (vs ++ k.value :: ws) = f.apply (vs ++ ws) := by
  unfold Aggregate.apply
  rw [numbersOf_skip k.number?_value, countNumbers_skip k.number?_value]

/-- A range passes over a cell that is read as a sentinel. -/
theorem readNumbers_skip (k : Sentinel) (reads rest : List (Except Fault Value)) :
    readNumbers (reads ++ .ok k.value :: rest) = readNumbers (reads ++ rest) := by
  induction reads with
  | nil =>
    show (MonadExcept.ofExcept k.value.number? >>= _ : Except Fault (List Number)) = _
    rw [k.number?_value]
    show (readNumbers rest >>= fun numbers => .ok numbers) = readNumbers rest
    cases readNumbers rest <;> rfl
  | cons read others ih =>
    rw [List.cons_append, List.cons_append, readNumbers, readNumbers, ih]

/-- **No fault escapes.** With a parser whose faults are all contained, as those of `parseFormula`
are, every formula has a value for every table whose index can be written, and every expression for
every table, whatever the workbook and the formulas in progress. A formula that is not parsed and an
expression that fails have the value `#ERROR!`, and aggregates and ranges pass over it like over
every sentinel. -/
theorem evaluateFormula_answers (env : Environment) (hparser : ∀ text, Contained (env.parser text))
    (p : Progress) :
    (∀ (content : Value) (n : Int), (Numeral.digitsOf n.natAbs).length ≤ Numeral.maxDigits →
      ∃ v, evaluateFormula env content (.index n) p = .ok v) ∧
    (∀ (e : Expr) (table : TableId), ∃ v, evaluate env table p e = .ok v) ∧
    (∀ (e : Expr) (table : TableId), e.Fails (env.source p) env.today table →
      evaluate env table p e = .ok Sentinel.error.value) ∧
    (∀ (content : Value) (table : TableId) text key f, content.formula? = some text →
      formulaKey table text = .ok key → key ∉ p → env.parser text = .error f →
      evaluateFormula env content table p = .ok Sentinel.error.value) ∧
    (∀ (k : Sentinel) (f : Aggregate) vs ws,
      f.apply (vs ++ k.value :: ws) = f.apply (vs ++ ws)) ∧
    (∀ (k : Sentinel) (reads rest : List (Except Fault Value)),
      readNumbers (reads ++ .ok k.value :: rest) = readNumbers (reads ++ rest)) ∧
    ∀ text, Contained (parseFormula text) := by
  have hs : ∀ q, (env.source q).Answers := Environment.source_answers hparser
  refine ⟨?_, ?_, ?_, ?_, fun k f => f.apply_skip k, readNumbers_skip, parseFormula_contained⟩
  · intro content n hn
    unfold evaluateFormula
    cases ht : content.formula? with
    | none => exact ⟨content, rfl⟩
    | some text =>
      obtain ⟨key, hkey⟩ := exists_formulaKey_eq_ok hn text
      dsimp only
      rw [hkey]
      dsimp only [bind, Except.bind]
      split
      · exact ⟨_, rfl⟩
      · exact Environment.exists_enter_eq_ok hparser (hs _) _ _
  · exact fun e table => e.exists_value_eq_ok env.today table (hs p)
  · exact fun e table h => e.value_of_fails env.today table (hs p) h
  · intro content table text key f ht hkey hp hf
    unfold evaluateFormula
    rw [ht]
    dsimp only
    rw [hkey]
    dsimp only [bind, Except.bind]
    rw [if_neg hp]
    unfold Environment.enter
    rw [hf]
    exact contain_error (hparser text f hf)

/-! ## A formula that is not parsed -/

/-- A formula on which the parser gives up, beside a number. -/
def failing : Environment where
  workbook := [[[{ value := .text "=?" }, { value := .text "7" }]]]
  parser text := if text = "=?" then .error (.supplied .recursion) else parseFormula text
  today := .first

/-- The sum passes over the formula that is not parsed. -/
theorem failing_answers :
    (∀ text, Contained (failing.parser text)) ∧
    (Numeral.digitsOf (0 : Int).natAbs).length ≤ Numeral.maxDigits ∧
    (∃ v, evaluateFormula failing (.text "=SUM(A1,B1)") (.index 0) [] = .ok v) ∧
    evaluateFormula failing (.text "=SUM(A1,B1)") (.index 0) [] = .ok (.int 7) ∧
    evaluateFormula failing (.text "=?") (.index 0) [] = .ok Sentinel.error.value ∧
    evaluate failing (.index 0) [] (.call "IF" [.missing]) = .ok Sentinel.error.value := by
  have hparser : ∀ text, Contained (failing.parser text) := by
    intro text
    show Contained (if text = "=?" then _ else _)
    split
    · exact .error rfl
    · exact parseFormula_contained text
  have hdigits : (Numeral.digitsOf (0 : Int).natAbs).length ≤ Numeral.maxDigits := by decide
  have hif : Expr.Fails (failing.source []) failing.today (.index 0) (.call "IF" [.missing]) := by
    have hvalues : Expr.values (failing.source []) failing.today (.index 0) [.missing] =
        .ok [Sentinel.error.value] := by
      unfold Expr.values Expr.value
      rfl
    exact .scalar (g := .cond) (by rfl) hvalues (by rfl)
  obtain ⟨values, -, fails, unparsed, -⟩ := evaluateFormula_answers failing hparser []
  refine ⟨hparser, hdigits, values _ 0 hdigits, by cbv, ?_, fails _ _ hif⟩
  exact unparsed _ _ "=?" "0:=?" _ (by rfl) (by rfl) List.not_mem_nil rfl

end Spreadsheet
