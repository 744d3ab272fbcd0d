import Mathlib
import Spreadsheet.Formula.Forwarding
import Spreadsheet.Proofs.Containment
import Spreadsheet.Proofs.OrderShown
import Spreadsheet.Proofs.Pass

/-!
# Loops and chains of references

Where bare references lead into a loop every formula on the way has the value `#CIRCULAR!`, with any
formulas in progress and with any of them already resolved to that: the positions that lead into
loops are closed under following references, so an evaluation among them ends only at a key that is
in progress or at a stored `#CIRCULAR!` (`Endless.formulaValue_eq`). A pass keeps this, whatever its
order (`Endless.resolveAll`).

A chain that ends never comes to one key twice: two formulas with one key forward the same cell, so
the chain would go round for ever. So its first formula has the value of its end
(`read?_of_chain`). Main statement: `bare_references`.
-/

namespace Spreadsheet

open Value Workbook Relation

/-! ## Keys -/

theorem digitsOf_injective : Function.Injective Numeral.digitsOf :=
  Function.LeftInverse.injective Numeral.digitsValue_digitsOf

/-- The key of a formula tells its table and its text. -/
theorem cellKey_inj {n m : Nat} {s t : String} (h : cellKey n s = cellKey m t) : n = m ∧ s = t := by
  have hlist : Numeral.digitsOf n ++ ':' :: s.toList = Numeral.digitsOf m ++ ':' :: t.toList := by
    have h' := congrArg String.toList h
    simpa [cellKey] using h'
  have hcolon : ∀ k, ∀ c ∈ Numeral.digitsOf k, decide (c ≠ ':') = true := by
    intro k c hc
    have hdigit := Numeral.isAsciiDigit_of_mem_digitsOf hc
    refine decide_eq_true fun heq => ?_
    subst heq
    cases hdigit
  have hdigits : Numeral.digitsOf n = Numeral.digitsOf m := by
    have h' := congrArg (List.takeWhile fun c => c ≠ ':') hlist
    rw [List.takeWhile_append_of_pos (hcolon n), List.takeWhile_append_of_pos (hcolon m)] at h'
    simpa using h'
  rw [hdigits] at hlist
  have htail := List.append_cancel_left hlist
  exact ⟨digitsOf_injective hdigits, String.toList_inj.1 (List.cons.inj htail).2⟩

/-! ## Following references -/

/-- Where every point leads to at most one, a point behind one on a loop is on a loop. -/
theorem transGen_self_of_rightUnique {α : Type} {step : α → α → Prop}
    (hunique : Relator.RightUnique step) {x y : α} (hloop : TransGen step x x) (h : step x y) :
    TransGen step y y := by
  obtain ⟨z, hz, hback⟩ := TransGen.head'_iff.1 hloop
  cases hunique h hz
  exact TransGen.tail' hback h

namespace Environment

variable {env : Environment} {p q : Nat × Nat × Nat}

namespace Refers

variable {table table' : TableId} {reference reference' : String}

theorem unique (h : env.Refers p table reference) (h' : env.Refers p table' reference') :
    table = table' ∧ reference = reference' := by
  obtain ⟨hc, ht, he⟩ := h
  obtain ⟨hc', ht', he'⟩ := h'
  cases hc.symm.trans hc'
  cases ht.symm.trans ht'
  cases he.symm.trans he'
  exact ⟨rfl, rfl⟩

/-- What a formula refers to depends on its key alone. -/
theorem of_key_eq (h : env.Refers p table reference) {c d : Cell} {text text' : String}
    (hc : env.workbook.cell? p.1 p.2.1 p.2.2 = some c) (ht : c.value.formula? = some text)
    (hd : env.workbook.cell? q.1 q.2.1 q.2.2 = some d) (ht' : d.value.formula? = some text')
    (hkey : cellKey q.1 text' = cellKey p.1 text) : env.Refers q table reference := by
  obtain ⟨hq, rfl⟩ := cellKey_inj hkey
  obtain ⟨hc', htext, he⟩ := h
  cases hc.symm.trans hc'
  cases ht.symm.trans htext
  rw [← hq]
  exact ⟨hd, ht', he⟩

end Refers

theorem forwards_rightUnique : Relator.RightUnique env.Forwards := by
  rintro p q q' ⟨h, hk, hat, -⟩ ⟨h', hk', hat', -⟩
  obtain ⟨rfl, rfl⟩ := h.unique h'
  cases hk.symm.trans hk'
  cases hat.symm.trans hat'
  rfl

/-- A position that leads into a loop leads to another one that does. -/
theorem Circles.exists_forwards (h : env.Circles p) : ∃ q, env.Forwards p q ∧ env.Circles q := by
  obtain ⟨q, hpath, hloop⟩ := h
  rcases ReflTransGen.cases_head hpath with rfl | ⟨x, hx, hrest⟩
  · obtain ⟨x, hx, hback⟩ := TransGen.head'_iff.1 hloop
    exact ⟨x, hx, p, hback, hloop⟩
  · exact ⟨x, hx, q, hrest, hloop⟩

/-! ## Going round in a loop -/

/-- From every position of a set references lead on to another one of the set, and the cells there
that are resolved store `#CIRCULAR!`. -/
structure Endless (env : Environment) (L : Set (Nat × Nat × Nat)) : Prop where
  forwards : ∀ p ∈ L, ∃ q ∈ L, env.Forwards p q
  resolved : ∀ p ∈ L, ∀ c, env.workbook.cell? p.1 p.2.1 p.2.2 = some c → c.resolved = true →
    c.resolvedValue = Sentinel.circular.value

namespace Endless

variable {L : Set (Nat × Nat × Nat)} {c : Cell} {text : String}

/-- A formula of the set is `#CIRCULAR!` when those that it may call are. -/
theorem enter_eq (h : env.Endless L) {progress : Progress}
    (hcalled : ∀ q ∈ L, ∀ d inner hm, env.workbook.cell? q.1 q.2.1 q.2.2 = some d →
      d.value.formula? = some inner →
      env.formulaValue progress q.1 inner hm = .ok Sentinel.circular.value)
    (hp : p ∈ L) (hc : env.workbook.cell? p.1 p.2.1 p.2.2 = some c)
    (ht : c.value.formula? = some text) :
    env.enter (env.source progress) (.index p.1) text = .ok Sentinel.circular.value := by
  obtain ⟨q, hq, hforwards⟩ := h.forwards p hp
  obtain ⟨⟨hc', ht', he⟩, hk, hat, hsome⟩ := hforwards
  cases hc.symm.trans hc'
  cases ht.symm.trans ht'
  obtain ⟨d, hd⟩ := Option.isSome_iff_exists.1 hsome
  refine enter_of_cellValue he (Source.cellValue_of_read? hk hat ?_)
  cases hr : d.resolved with
  | true =>
    rw [env.read?_of_resolved hd hr, h.resolved _ hq d hd hr]
  | false =>
    obtain ⟨x, -, hx⟩ := h.forwards _ hq
    obtain ⟨⟨hd', hinner, -⟩, -⟩ := hx
    cases hd.symm.trans hd'
    unfold source
    rw [source_read?_some env.workbook _ hd, Cell.read_of_formula hr hinner]
    exact congrArg some (hcalled _ hq d _ _ hd hinner)

/-- Every formula of the set is `#CIRCULAR!` on demand. The induction is on the number of keys that
are not in progress. -/
theorem formulaValue_eq (h : env.Endless L) (depth : Nat) : ∀ (progress : Progress), ∀ p ∈ L,
    ∀ c text hm, env.workbook.cell? p.1 p.2.1 p.2.2 = some c → c.value.formula? = some text →
    env.workbook.remaining progress ≤ depth →
    env.formulaValue progress p.1 text hm = .ok Sentinel.circular.value := by
  induction depth with
  | zero =>
    intro progress p hp c text hm hc ht hd
    by_cases hkey : cellKey p.1 text ∈ progress
    · exact env.formulaValue_of_mem hm hkey
    · have := remaining_cons_lt (cellKey_mem_keys hm) hkey
      omega
  | succ depth ih =>
    intro progress p hp c text hm hc ht hd
    by_cases hkey : cellKey p.1 text ∈ progress
    · exact env.formulaValue_of_mem hm hkey
    · have hlt := remaining_cons_lt (cellKey_mem_keys hm) hkey
      rw [env.formulaValue_of_not_mem hm hkey]
      refine h.enter_eq (fun q hq d inner hm' hd' hinner => ?_) hp hc ht
      exact ih _ q hq d inner hm' hd' hinner (by omega)

/-- Every cell of the set is `#CIRCULAR!` when it is evaluated. -/
theorem evaluateFormula_eq (h : env.Endless L) (hp : p ∈ L)
    (hc : env.workbook.cell? p.1 p.2.1 p.2.2 = some c) {key : String} (progress : Progress)
    (ht : c.value.formula? = some text) (hkey : formulaKey (.index p.1) text = .ok key) :
    evaluateFormula env c.value (.index p.1) progress = .ok Sentinel.circular.value := by
  unfold evaluateFormula
  rw [ht]
  dsimp only
  rw [hkey]
  show ite (key ∈ progress) _ _ = _
  split
  · rfl
  · refine h.enter_eq (fun q hq d inner hm hd hinner => ?_) hp hc ht
    exact h.formulaValue_eq _ _ q hq d inner hm hd hinner (env.workbook.remaining_le _)

end Endless

theorem endless_circles (env : Environment) (h : env.workbook.Unresolved) :
    env.Endless { p | env.Circles p } where
  forwards p hp := by
    obtain ⟨q, hq, hcircles⟩ := Circles.exists_forwards hp
    exact ⟨q, hcircles, hq⟩
  resolved p _ c hc hr := by
    rw [h _ _ _ c hc] at hr
    cases hr

/-! ## A chain that ends -/

/-- Following references ends at a position, with a value: that of a cell without a formula, or
`#REF!` where a reference names no cell. -/
inductive EndsWith (env : Environment) (p : Nat × Nat × Nat) : Value → Prop
  | plain {c : Cell} : env.workbook.cell? p.1 p.2.1 p.2.2 = some c → c.value.formula? = none →
    EndsWith env p c.value
  | dangling : env.Dangles p → EndsWith env p Sentinel.reference.value

theorem Dangles.not_forwards (h : env.Dangles p) : ¬ env.Forwards p q := by
  rintro ⟨href, hk, hat, hsome⟩
  cases h with
  | table href' hk' =>
    obtain ⟨rfl, rfl⟩ := href.unique href'
    cases hk.symm.trans hk'
  | reference href' hat' =>
    obtain ⟨rfl, rfl⟩ := href.unique href'
    cases hat.symm.trans hat'
  | cell href' hk' hat' hnone =>
    obtain ⟨rfl, rfl⟩ := href.unique href'
    cases hk.symm.trans hk'
    cases hat.symm.trans hat'
    rw [hnone] at hsome
    cases hsome

theorem EndsWith.not_forwards {v : Value} (h : env.EndsWith p v) : ¬ env.Forwards p q := by
  cases h with
  | plain hc ht =>
    rintro ⟨⟨hc', ht', -⟩, -⟩
    cases hc.symm.trans hc'
    cases ht.symm.trans ht'
  | dangling h => exact h.not_forwards

/-- No position on the way to an end is on a loop. -/
theorem EndsWith.not_loop {v : Value} (h : env.EndsWith q v)
    (hpath : ReflTransGen env.Forwards p q) : ¬ TransGen env.Forwards p p := by
  intro hloop
  have hround : ∀ y, ReflTransGen env.Forwards p y → TransGen env.Forwards y y := by
    intro y hy
    induction hy with
    | refl => exact hloop
    | tail _ hstep ih => exact transGen_self_of_rightUnique forwards_rightUnique ih hstep
  obtain ⟨x, hx, -⟩ := TransGen.head'_iff.1 (hround q hpath)
  exact h.not_forwards hx

/-- A bare reference is read as the cell that it names, beside formulas in progress which do not
have its key. -/
theorem read?_of_refers {table : TableId} {reference : String} {c : Cell} {text : String}
    {progress : Progress} {v : Value} (h : env.Refers p table reference)
    (hc : env.workbook.cell? p.1 p.2.1 p.2.2 = some c) (hnew : c.resolved = false)
    (ht : c.value.formula? = some text) (hidle : cellKey p.1 text ∉ progress)
    (hvalue : (env.source (cellKey p.1 text :: progress)).cellValue table reference = .ok v) :
    (env.source progress).read? p.1 p.2.1 p.2.2 = some (.ok v) := by
  obtain ⟨hc', ht', he⟩ := h
  cases hc.symm.trans hc'
  cases ht.symm.trans ht'
  unfold source
  rw [source_read?_some env.workbook _ hc, Cell.read_of_formula hnew ht]
  refine congrArg some ?_
  rw [env.formulaValue_of_not_mem _ hidle]
  exact enter_of_cellValue he hvalue

/-- A chain that ends is read as its end says, when no formula on it is in progress. -/
theorem read?_of_chain (hw : env.workbook.Unresolved) {v : Value} (hend : env.EndsWith q v)
    (hpath : ReflTransGen env.Forwards p q) : ∀ progress : Progress,
    (∀ s, ReflTransGen env.Forwards p s → ∀ d inner,
      env.workbook.cell? s.1 s.2.1 s.2.2 = some d → d.value.formula? = some inner →
      cellKey s.1 inner ∉ progress) →
    (env.source progress).read? p.1 p.2.1 p.2.2 = some (.ok v) := by
  induction hpath using ReflTransGen.head_induction_on with
  | refl =>
    intro progress hidle
    cases hend with
    | @plain c hc ht =>
      unfold source
      rw [source_read?_some env.workbook _ hc, Cell.read_of_plain (hw _ _ _ c hc) ht]
      rfl
    | dangling h =>
      cases h with
      | table href hk =>
        obtain ⟨hc, ht, he⟩ := id href
        exact read?_of_refers href hc (hw _ _ _ _ hc) ht (hidle _ .refl _ _ hc ht)
          (Source.cellValue_of_no_table hk)
      | reference href hat =>
        obtain ⟨hc, ht, he⟩ := id href
        exact read?_of_refers href hc (hw _ _ _ _ hc) ht (hidle _ .refl _ _ hc ht)
          (Source.cellValue_of_malformed hat)
      | cell href hk hat hnone =>
        obtain ⟨hc, ht, he⟩ := id href
        exact read?_of_refers href hc (hw _ _ _ _ hc) ht (hidle _ .refl _ _ hc ht)
          (Source.cellValue_of_no_cell hk hat (source_read?_none env.workbook _ hnone))
  | @head p x hstep hrest ih =>
    intro progress hidle
    obtain ⟨href, hk, hat, hsome⟩ := id hstep
    obtain ⟨hc, ht, he⟩ := id href
    refine read?_of_refers href hc (hw _ _ _ _ hc) ht (hidle _ .refl _ _ hc ht) ?_
    refine Source.cellValue_of_read? hk hat (ih _ fun s hs d inner hd hinner => ?_)
    refine List.not_mem_cons_of_ne_of_not_mem (fun hkey => ?_) ?_
    · have hback : env.Forwards s _ := ⟨href.of_key_eq hc ht hd hinner hkey, hk, hat, hsome⟩
      exact hend.not_loop hrest (TransGen.tail' hs hback)
    · exact hidle s (.head hstep hs) d inner hd hinner

/-- With nothing in progress an unresolved cell is evaluated as it is read, if its key can be
written. -/
theorem evaluateFormula_of_read? {n row col : Nat} {c : Cell} {v : Value}
    (hc : env.workbook.cell? n row col = some c) (hnew : c.resolved = false)
    (hn : (Numeral.digitsOf n).length ≤ Numeral.maxDigits)
    (h : (env.source []).read? n row col = some (.ok v)) :
    evaluateFormula env c.value (.index n) [] = .ok v := by
  unfold source at h
  rw [source_read?_some env.workbook _ hc] at h
  obtain ht | ⟨text, ht⟩ := Option.eq_none_or_eq_some c.value.formula?
  · rw [Cell.read_of_plain hnew ht] at h
    rw [evaluateFormula_of_plain env ht]
    exact Option.some.inj h
  · rw [Cell.read_of_formula hnew ht] at h
    obtain ⟨key, hkey⟩ := exists_formulaKey_eq_ok (n := n) hn text
    rw [evaluateFormula_of_member env ht (mem_formulas_of_cell? hc ht), hkey]
    exact Option.some.inj h

/-- A cell from which references lead to an end has the value of the end. -/
theorem evaluateFormula_of_chain (hw : env.workbook.Unresolved) {v : Value} {n row col : Nat}
    {c : Cell} (hc : env.workbook.cell? n row col = some c)
    (hn : (Numeral.digitsOf n).length ≤ Numeral.maxDigits)
    (hpath : ReflTransGen env.Forwards (n, row, col) q) (hend : env.EndsWith q v) :
    evaluateFormula env c.value (.index n) [] = .ok v :=
  evaluateFormula_of_read? hc (hw n row col c hc) hn
    (read?_of_chain hw hend hpath [] fun _ _ _ _ _ _ => List.not_mem_nil)

end Environment

/-! ## Loops during a pass -/

namespace Resolver

variable (r : Resolver) {w : Workbook} {n : Nat} {c : Cell}

/-- Resolving a cell keeps what was entered. -/
theorem resolveCell_value : (r.resolveCell w n c).1.value = c.value := by
  cases hv : r.stored w n c with
  | ok v =>
    rw [r.resolveCell_of_stored hv]
    cases r.presented (store c v) <;> rfl
  | error f =>
    unfold stored at hv
    obtain ht | ⟨text, ht⟩ := Option.eq_none_or_eq_some c.value.formula?
    · rw [ht] at hv
      cases hv
    · cases hval : evaluateFormula (r.environment w) c.value (.index n) [] with
      | error g => rw [r.resolveCell_error w n ht hval]
      | ok value =>
        rw [ht, hval] at hv
        rw [r.resolveCell_unstored w n ht hval hv]

/-- Resolving a cell keeps what was entered anywhere. -/
theorem map_value_resolveAt (w : Workbook) (x : Nat × Nat × Nat) (n row col : Nat) :
    ((r.resolveAt w x).cell? n row col).map Cell.value = (w.cell? n row col).map Cell.value := by
  rw [r.resolveAt_cell?]
  cases w.cell? n row col with
  | none => rfl
  | some c =>
    simp only [Option.map_some]
    split
    · rw [r.resolveCell_value]
    · rfl

end Resolver

namespace Environment

/-- References lead the same way over workbooks in which the same was entered. -/
theorem Forwards.forWorkbook {env : Environment} {v : Workbook} {p q : Nat × Nat × Nat}
    (hlength : v.length = env.workbook.length)
    (hvalue : ∀ n row col,
      (v.cell? n row col).map Cell.value = (env.workbook.cell? n row col).map Cell.value)
    (h : env.Forwards p q) : (env.forWorkbook v).Forwards p q := by
  obtain ⟨⟨hc, ht, he⟩, hk, hat, hsome⟩ := h
  have hentered := hvalue p.1 p.2.1 p.2.2
  rw [hc] at hentered
  obtain ⟨d, hd, hsame⟩ := Option.map_eq_some_iff.1 hentered
  refine ⟨⟨hd, hsame ▸ ht, he⟩, (tableIndex?_congr hlength _).trans hk, hat, ?_⟩
  show (v.cell? _ _ _).isSome = true
  rw [← Option.isSome_map, hvalue, Option.isSome_map]
  exact hsome

namespace Endless

variable {r : Resolver} {w : Workbook} {L : Set (Nat × Nat × Nat)} {p : Nat × Nat × Nat} {c : Cell}

/-- A cell of the set that is resolved stores `#CIRCULAR!`, if its key can be written. -/
theorem resolveCell_eq (h : (r.environment w).Endless L) (hp : p ∈ L)
    (hc : w.cell? p.1 p.2.1 p.2.2 = some c) {text key : String} (ht : c.value.formula? = some text)
    (hkey : formulaKey (.index p.1) text = .ok key) :
    (r.resolveCell w p.1 c).1.resolved = true ∧
      (r.resolveCell w p.1 c).1.resolvedValue = Sentinel.circular.value :=
  r.resolveCell_stored w p.1 ht (h.evaluateFormula_eq hp hc [] ht hkey) rfl

/-- Resolving a cell leaves a set endless. -/
theorem resolveAt (h : (r.environment w).Endless L) (x : Nat × Nat × Nat) :
    (r.environment (r.resolveAt w x)).Endless L where
  forwards p hp := by
    obtain ⟨q, hq, hforwards⟩ := h.forwards p hp
    exact ⟨q, hq, hforwards.forWorkbook (r.length_resolveAt w x) (r.map_value_resolveAt w x)⟩
  resolved p hp d hd hr := by
    have hd' : (r.resolveAt w x).cell? p.1 p.2.1 p.2.2 = some d := hd
    rw [r.resolveAt_cell?] at hd'
    obtain ⟨c, hc, rfl⟩ := Option.map_eq_some_iff.1 hd'
    split at hr
    · next hx =>
      rw [if_pos hx]
      obtain rfl : p = x := hx
      obtain ⟨q, -, ⟨⟨hc', ht, -⟩, -⟩⟩ := h.forwards p hp
      cases hc.symm.trans hc'
      cases hkey : formulaKey (.index p.1) _ with
      | ok key => exact (h.resolveCell_eq hp hc ht hkey).2
      | error f =>
        have hval : evaluateFormula (r.environment w) c.value (.index p.1) [] = .error f := by
          rw [evaluateFormula_of_member _ ht (mem_formulas_of_cell? hc ht), hkey]
          rfl
        rw [r.resolveCell_error w p.1 ht hval] at hr ⊢
        exact h.resolved p hp c hc hr
    · next hx =>
      rw [if_neg hx]
      exact h.resolved p hp c hc hr

/-- After some cells were resolved, a cell of the set that was among them stores `#CIRCULAR!`, and
so does one that was resolved before. -/
theorem resolveAll (hn : (Numeral.digitsOf p.1).length ≤ Numeral.maxDigits) (hp : p ∈ L)
    (order : List (Nat × Nat × Nat)) : ∀ {w : Workbook}, (r.environment w).Endless L →
    (p ∈ order ∨ ∃ c, w.cell? p.1 p.2.1 p.2.2 = some c ∧ c.resolved = true) →
    ∃ d, (r.resolveAll w order).cell? p.1 p.2.1 p.2.2 = some d ∧ d.resolved = true ∧
      d.resolvedValue = Sentinel.circular.value := by
  induction order with
  | nil =>
    rintro w h (hmem | ⟨c, hc, hr⟩)
    · cases hmem
    · exact ⟨c, hc, hr, h.resolved p hp c hc hr⟩
  | cons x rest ih =>
    intro w h hor
    refine ih (h.resolveAt x) ?_
    by_cases hx : p = x
    · subst hx
      obtain ⟨q, -, ⟨⟨hc, ht, -⟩, -⟩⟩ := h.forwards p hp
      obtain ⟨key, hkey⟩ := exists_formulaKey_eq_ok (n := p.1) hn _
      have hcell := r.resolveAt_cell? w p.1 p.2.1 p.2.2 p.1 p.2.1 p.2.2
      rw [show w.cell? p.1 p.2.1 p.2.2 = _ from hc, Option.map_some, if_pos rfl] at hcell
      exact .inr ⟨_, hcell, (h.resolveCell_eq hp hc ht hkey).1⟩
    · refine hor.imp (fun hmem => (List.mem_cons.1 hmem).resolve_left hx) ?_
      rintro ⟨c, hc, hr⟩
      refine ⟨c, ?_, hr⟩
      rw [r.resolveAt_cell?, hc, Option.map_some, if_neg hx]

end Endless

end Environment

/-- **Bare references.** In a workbook of unresolved cells take a cell from which references are
followed. If they lead into a loop, the cell is `#CIRCULAR!`, and it stores that once it was among
the cells resolved, whichever they are and in whatever order. If they end at a cell without a
formula, the cell has what was entered there; if they end at one that names no cell, it is
`#REF!`. -/
theorem bare_references (r : Resolver) (w : Workbook) (hw : w.Unresolved) (n row col : Nat)
    {c : Cell} (hc : w.cell? n row col = some c)
    (hn : (Numeral.digitsOf n).length ≤ Numeral.maxDigits) :
    ((r.environment w).Circles (n, row, col) →
      evaluateFormula (r.environment w) c.value (.index n) [] = .ok Sentinel.circular.value ∧
      ∀ order, (n, row, col) ∈ order → ∃ d, (r.resolveAll w order).cell? n row col = some d ∧
        d.resolved = true ∧ d.resolvedValue = Sentinel.circular.value) ∧
    (∀ q d, ReflTransGen (r.environment w).Forwards (n, row, col) q →
      w.cell? q.1 q.2.1 q.2.2 = some d → d.value.formula? = none →
      evaluateFormula (r.environment w) c.value (.index n) [] = .ok d.value) ∧
    ∀ q, ReflTransGen (r.environment w).Forwards (n, row, col) q → (r.environment w).Dangles q →
      evaluateFormula (r.environment w) c.value (.index n) [] = .ok Sentinel.reference.value := by
  refine ⟨fun hcircles => ⟨?_, fun order hmem => ?_⟩, fun q d hpath hd ht => ?_,
    fun q hpath hdangles => ?_⟩
  · obtain ⟨q, ⟨⟨hc', ht, -⟩, -⟩, -⟩ := hcircles.exists_forwards
    cases hc.symm.trans hc'
    obtain ⟨key, hkey⟩ := exists_formulaKey_eq_ok (n := n) hn _
    exact ((r.environment w).endless_circles hw).evaluateFormula_eq hcircles hc [] ht hkey
  · exact ((r.environment w).endless_circles hw).resolveAll hn hcircles order (.inl hmem)
  · exact Environment.evaluateFormula_of_chain hw hc hn hpath (.plain hd ht)
  · exact Environment.evaluateFormula_of_chain hw hc hn hpath (.dangling hdangles)

/-! ## A roundabout -/

/-- Two tables: in the first one a way into the loop of the second, a chain that ends there, and a
chain that ends at a missing table. -/
def roundabout : Workbook :=
  [[[{ value := .text "=T1!A1" }, { value := .text "=T1!B1" }, { value := .text "=D1" },
      { value := .text "=T7!A1" }]],
   [[{ value := .text "=A2" }, { value := .text "=B2" }],
    [{ value := .text "=A1" }, { value := .text "x" }]]]

theorem roundabout_unresolved : roundabout.Unresolved := by
  intro n row col c hc
  have hall : ∀ rows ∈ roundabout, ∀ cells ∈ rows, ∀ c ∈ cells, c.resolved = false := by decide
  simp only [cell?, Option.bind_eq_bind, Option.bind_eq_some_iff] at hc
  obtain ⟨rows, hrows, cells, hcells, hc⟩ := hc
  exact hall rows (List.mem_of_getElem? hrows) cells (List.mem_of_getElem? hcells) c
    (List.mem_of_getElem? hc)

theorem roundabout_forwards :
    (firstDay.environment roundabout).Forwards (0, 0, 0) (1, 0, 0) ∧
    (firstDay.environment roundabout).Forwards (1, 0, 0) (1, 1, 0) ∧
    (firstDay.environment roundabout).Forwards (1, 1, 0) (1, 0, 0) ∧
    (firstDay.environment roundabout).Forwards (0, 0, 1) (1, 0, 1) ∧
    (firstDay.environment roundabout).Forwards (1, 0, 1) (1, 1, 1) ∧
    (firstDay.environment roundabout).Forwards (0, 0, 2) (0, 0, 3) := by
  have first : Reference.parse "A1" = .ok (some ⟨0, 0, false, false⟩) := by rfl
  have below : Reference.parse "A2" = .ok (some ⟨1, 0, false, false⟩) := by rfl
  have beside : Reference.parse "B1" = .ok (some ⟨0, 1, false, false⟩) := by rfl
  have across : Reference.parse "B2" = .ok (some ⟨1, 1, false, false⟩) := by rfl
  have fourth : Reference.parse "D1" = .ok (some ⟨0, 3, false, false⟩) := by rfl
  have tail : parseFormula "=T1!A1" = .ok (.cell "A1" (some (.index 1))) := by cbv
  have out : parseFormula "=A2" = .ok (.cell "A2" none) := by cbv
  have back : parseFormula "=A1" = .ok (.cell "A1" none) := by cbv
  have start : parseFormula "=T1!B1" = .ok (.cell "B1" (some (.index 1))) := by cbv
  have on : parseFormula "=B2" = .ok (.cell "B2" none) := by cbv
  have last : parseFormula "=D1" = .ok (.cell "D1" none) := by cbv
  exact ⟨⟨⟨rfl, rfl, tail⟩, rfl, first, rfl⟩, ⟨⟨rfl, rfl, out⟩, rfl, below, rfl⟩,
    ⟨⟨rfl, rfl, back⟩, rfl, first, rfl⟩, ⟨⟨rfl, rfl, start⟩, rfl, beside, rfl⟩,
    ⟨⟨rfl, rfl, on⟩, rfl, across, rfl⟩, ⟨⟨rfl, rfl, last⟩, rfl, fourth, rfl⟩⟩

/-- From the way into the loop and from the two chains, the cells being resolved in an order that
begins inside the loop. -/
theorem roundabout_values :
    roundabout.Unresolved ∧
    (firstDay.environment roundabout).Circles (0, 0, 0) ∧
    evaluateFormula (firstDay.environment roundabout) (.text "=T1!A1") (.index 0) [] =
      .ok Sentinel.circular.value ∧
    (∃ d, (firstDay.resolveAll roundabout [(1, 1, 0), (0, 0, 0), (1, 0, 0)]).cell? 0 0 0 = some d ∧
      d.resolved = true ∧ d.resolvedValue = Sentinel.circular.value) ∧
    evaluateFormula (firstDay.environment roundabout) (.text "=T1!B1") (.index 0) [] =
      .ok (.text "x") ∧
    evaluateFormula (firstDay.environment roundabout) (.text "=D1") (.index 0) [] =
      .ok Sentinel.reference.value := by
  obtain ⟨tail, out, back, start, on, last⟩ := roundabout_forwards
  have hn : (Numeral.digitsOf 0).length ≤ Numeral.maxDigits := by decide
  have hcircles : (firstDay.environment roundabout).Circles (0, 0, 0) :=
    ⟨(1, 0, 0), .single tail, .tail (.single out) back⟩
  have hdangles : (firstDay.environment roundabout).Dangles (0, 0, 3) := by
    have hparse : parseFormula "=T7!A1" = .ok (.cell "A1" (some (.index 7))) := by cbv
    exact .table ⟨rfl, rfl, hparse⟩ rfl
  obtain ⟨loops, -, -⟩ := bare_references firstDay roundabout roundabout_unresolved 0 0 0 rfl hn
  obtain ⟨-, ends, -⟩ := bare_references firstDay roundabout roundabout_unresolved 0 0 1 rfl hn
  obtain ⟨-, -, misses⟩ := bare_references firstDay roundabout roundabout_unresolved 0 0 2 rfl hn
  exact ⟨roundabout_unresolved, hcircles, (loops hcircles).1,
    (loops hcircles).2 _ (List.mem_cons_of_mem _ List.mem_cons_self),
    ends _ _ (.tail (.single start) on) rfl rfl, misses _ (.single last) hdangles⟩

end Spreadsheet
