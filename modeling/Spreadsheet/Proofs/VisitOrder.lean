import Spreadsheet.Proofs.Filling
import Spreadsheet.Workbook.Visit

/-!
# The order in which cells are resolved

A reference to a resolved cell reads what was stored, a reference to any other the value on demand.
In a workbook without cycles whose formulas have values that store faithfully, the two count for the
same everywhere, so every cell ends as if it had been the first one resolved, whatever the order
(`resolveAll_cell?`). Every other value shows the order in some workbook. Main statement:
`resolveAll_order`.
-/

namespace Spreadsheet

open Value Workbook

/-! ## Values and what is stored of them -/

/-- The second value is the first one, or what is stored of it without loss. -/
def Value.StoredAs (v w : Value) : Prop :=
  w = v ∨ (v.numberForText = .ok w ∧ w.number? = v.number? ∧ w.isTrue = v.isTrue)

namespace Value

/-- Storing leaves a value as it is or makes the number of a text of it. -/
theorem numberForText_cases {v w : Value} (h : v.numberForText = .ok w) :
    w = v ∨ ∃ s n, v = .text s ∧ v.number? = .ok (some n) ∧ w = n.toValue := by
  cases v with
  | text s =>
    unfold numberForText at h
    cases hn : (Value.text s).number? with
    | error f =>
      rw [hn] at h
      cases h
    | ok n =>
      rw [hn] at h
      cases n with
      | none =>
        cases h
        exact .inl rfl
      | some n =>
        cases h
        exact .inr ⟨s, n, rfl, rfl, rfl⟩
  | _ =>
    cases h
    exact .inl rfl

theorem numberForText_toValue (n : Number) : n.toValue.numberForText = .ok n.toValue := by
  cases n <;> rfl

/-- What was stored stays the same when it is stored again. -/
theorem numberForText_idem {v w : Value} (h : v.numberForText = .ok w) :
    w.numberForText = .ok w := by
  rcases numberForText_cases h with rfl | ⟨s, n, rfl, hn, rfl⟩
  · exact h
  · exact numberForText_toValue n

theorem StoredAs.numberForText_eq {v w stored : Value} (h : v.StoredAs w)
    (hs : v.numberForText = .ok stored) : w.numberForText = .ok stored := by
  rcases h with rfl | ⟨hw, -, -⟩
  · exact hs
  · rw [hs] at hw
    cases hw
    exact numberForText_idem hs

theorem respected_storedAs : Respected StoredAs where
  refl _ := .inl rfl
  interchange := by
    rintro v w (rfl | ⟨hs, hn, ht⟩)
    · exact .refl _
    · rcases numberForText_cases hs with rfl | ⟨s, n, rfl, hv, rfl⟩
      · exact .refl _
      · refine .number hv (hn.trans hv) ht.symm (fun b h => by cases h) fun b h => ?_
        cases n <;> cases h

end Value

/-! ## Resolving one cell -/

namespace Resolver

variable (r : Resolver)

theorem applyDisplay_keeps {c shown : Cell} {v : Value} (h : r.applyDisplay c v = .ok shown) :
    shown.resolved = c.resolved ∧ shown.resolvedValue = c.resolvedValue := by
  have plain : ∀ {x : Except Fault String},
      (do return { c with displayValue := some (← x) } : Except Fault Cell) = .ok shown →
      shown.resolved = c.resolved ∧ shown.resolvedValue = c.resolvedValue := by
    intro x hx
    cases x with
    | error f => cases hx
    | ok s =>
      cases hx
      exact ⟨rfl, rfl⟩
  unfold applyDisplay at h
  split at h
  · exact plain h
  · exact plain h
  · next format _ _ =>
    cases hf : r.formatter v format with
    | error f =>
      rw [hf] at h
      cases h
    | ok s =>
      rw [hf] at h
      simp only [bind, Except.bind] at h
      split at h
      · cases h
        exact ⟨rfl, rfl⟩
      · cases h
        exact ⟨rfl, rfl⟩
      · cases h
        exact ⟨rfl, rfl⟩

theorem orKeep_keeps {c : Cell} {x : Except Fault Cell}
    (h : ∀ shown, x = .ok shown →
      shown.resolved = c.resolved ∧ shown.resolvedValue = c.resolvedValue) :
    (orKeep c x).1.resolved = c.resolved ∧ (orKeep c x).1.resolvedValue = c.resolvedValue := by
  cases x with
  | error f => exact ⟨rfl, rfl⟩
  | ok shown => exact h shown rfl

variable (w : Workbook) (n : Nat) {c : Cell}

theorem resolveCell_plain (h : c.value.formula? = none) :
    (r.resolveCell w n c).1.resolved = true ∧ (r.resolveCell w n c).1.resolvedValue = c.value := by
  unfold resolveCell
  rw [h]
  exact orKeep_keeps fun shown hs => r.applyDisplay_keeps hs

theorem resolveCell_error {text : String} {f : Fault} (ht : c.value.formula? = some text)
    (hv : evaluateFormula (r.environment w) c.value (.index n) [] = .error f) :
    r.resolveCell w n c = (c, some f) := by
  unfold environment at hv
  unfold resolveCell
  rw [ht]
  dsimp only
  rw [hv]

/-- The cell of a formula when its value can be stored. -/
theorem resolveCell_ok {text : String} {v stored : Value} (ht : c.value.formula? = some text)
    (hv : evaluateFormula (r.environment w) c.value (.index n) [] = .ok v)
    (hs : v.numberForText = .ok stored) :
    (r.resolveCell w n c).1 = (orKeep (store c stored) (do
      r.applyDisplay (store c stored) (← r.scaled (store c stored).format stored))).1 := by
  unfold environment at hv
  unfold resolveCell
  rw [ht]
  dsimp only
  rw [hv]
  dsimp only
  rw [hs]

/-- The cell of a formula when its value cannot be stored. -/
theorem resolveCell_unstored {text : String} {v : Value} {f : Fault}
    (ht : c.value.formula? = some text)
    (hv : evaluateFormula (r.environment w) c.value (.index n) [] = .ok v)
    (hs : v.numberForText = .error f) :
    r.resolveCell w n c = ({ c with resolved := true }, some f) := by
  unfold environment at hv
  unfold resolveCell
  rw [ht]
  dsimp only
  rw [hv]
  dsimp only
  rw [hs]

theorem resolveCell_stored {text : String} {v stored : Value} (ht : c.value.formula? = some text)
    (hv : evaluateFormula (r.environment w) c.value (.index n) [] = .ok v)
    (hs : v.numberForText = .ok stored) :
    (r.resolveCell w n c).1.resolved = true ∧ (r.resolveCell w n c).1.resolvedValue = stored := by
  rw [r.resolveCell_ok w n ht hv hs]
  refine orKeep_keeps fun shown h => ?_
  cases hscaled : r.scaled (store c stored).format stored with
  | error f =>
    rw [hscaled] at h
    cases h
  | ok v =>
    rw [hscaled] at h
    exact r.applyDisplay_keeps h

end Resolver

/-! ## A workbook some cells of which are resolved -/

/-- With nothing in progress a formula has the value of its tree, with its own key in progress. -/
theorem evaluateFormula_of_tree {env : Environment} {text : String} {e : Expr}
    (ht : (Value.text text).formula? = some text)
    (hkey : formulaKey (.index 0) text = .ok (cellKey 0 text)) (he : env.parser text = .ok e) :
    evaluateFormula env (.text text) (.index 0) [] =
      contain (e.value (env.source [cellKey 0 text]) env.today (.index 0)) :=
  evaluateFormula_eq_contain ht hkey he

/-- A workbook some cells of which were resolved, as if each had been the first one. -/
structure Resolver.Partly (r : Resolver) (w : Workbook) (visited : List (Nat × Nat × Nat))
    (v : Workbook) : Prop where
  length : v.length = w.length
  cell : ∀ n row col, v.cell? n row col = (w.cell? n row col).map fun c =>
    if (n, row, col) ∈ visited then (r.resolveCell w n c).1 else c

namespace Resolver

variable {r : Resolver} {w v : Workbook} {visited : List (Nat × Nat × Nat)}

theorem Partly.nil (r : Resolver) (w : Workbook) : r.Partly w [] w where
  length := rfl
  cell n row col := by
    cases w.cell? n row col <;> rfl

/-- A cell that is resolved as the first one stays as it is, when its formula has no value, or
stores its value without loss. -/
theorem filledIn_resolveCell (hw : w.Unresolved) (hstored : r.Faithful w) {n row col : Nat} {c : Cell}
    (hc : w.cell? n row col = some c) :
    (r.environment w).FilledIn StoredAs n c (r.resolveCell w n c).1 := by
  have hnew : c.resolved = false := hw n row col c hc
  obtain ht | ⟨text, ht⟩ := Option.eq_none_or_eq_some c.value.formula?
  · obtain ⟨hr, hv⟩ := r.resolveCell_plain w n ht
    exact .stored hnew (evaluateFormula_of_plain _ ht) hr (.inl hv)
  · cases hval : evaluateFormula (r.environment w) c.value (.index n) [] with
    | error f =>
      rw [r.resolveCell_error w n ht hval]
      exact .kept (.refl c)
    | ok value =>
      obtain ⟨stored, hs, hnum, htrue⟩ := hstored n row col c text value hc ht hval
      obtain ⟨hr, hv⟩ := r.resolveCell_stored w n ht hval hs
      refine .stored hnew hval hr ?_
      rw [hv]
      exact .inr ⟨hs, hnum, htrue⟩

/-- Resolving some cells fills a workbook in. -/
theorem Partly.filled (hw : w.Unresolved) (hstored : r.Faithful w) (hv : r.Partly w visited v) :
    (r.environment w).Filled StoredAs v where
  length := hv.length
  cell n row col := by
    rw [hv.cell]
    show Option.Rel _ (w.cell? n row col) _
    cases hc : w.cell? n row col with
    | none => exact .none
    | some c =>
      refine .some ?_
      split
      · exact filledIn_resolveCell hw hstored hc
      · exact .kept (.refl c)

/-- What a cell holds has a value over the partly resolved workbook that is the one at first or what
is stored of it. -/
theorem Partly.evaluateFormula_rel (hw : w.Unresolved) (hacyclic : (r.environment w).Acyclic)
    (hstored : r.Faithful w) (hv : r.Partly w visited v) {n row col : Nat} {c : Cell}
    (hc : w.cell? n row col = some c) :
    OutcomeRel StoredAs (evaluateFormula (r.environment w) c.value (.index n) [])
      (evaluateFormula (r.environment v) c.value (.index n) []) := by
  refine (hv.filled hw hstored).evaluateFormula_rel respected_storedAs fun text key ht hkey => ?_
  rw [formulaKey_index hkey]
  exact hacyclic.noCycle (f := (n, text)) (List.forall_mem_nil _) (mem_formulas_of_cell? hc ht)

/-- A cell that is resolved in the partly resolved workbook ends as if it had been the first one. -/
theorem Partly.resolveCell_eq (hw : w.Unresolved) (hacyclic : (r.environment w).Acyclic)
    (hstored : r.Faithful w) (hv : r.Partly w visited v) {n row col : Nat} {c : Cell}
    (hc : w.cell? n row col = some c) :
    (r.resolveCell v n c).1 = (r.resolveCell w n c).1 := by
  obtain ht | ⟨text, ht⟩ := Option.eq_none_or_eq_some c.value.formula?
  · unfold resolveCell
    rw [ht]
  · have hrel := hv.evaluateFormula_rel hw hacyclic hstored hc
    cases hval : evaluateFormula (r.environment w) c.value (.index n) [] with
    | error f =>
      rw [hval] at hrel
      cases hval' : evaluateFormula (r.environment v) c.value (.index n) [] with
      | error f' => rw [r.resolveCell_error w n ht hval, r.resolveCell_error v n ht hval']
      | ok value' =>
        rw [hval'] at hrel
        cases hrel
    | ok value =>
      obtain ⟨stored, hs, -, -⟩ := hstored n row col c text value hc ht hval
      rw [hval] at hrel
      cases hval' : evaluateFormula (r.environment v) c.value (.index n) [] with
      | error f' =>
        rw [hval'] at hrel
        cases hrel
      | ok value' =>
        rw [hval'] at hrel
        cases hrel with
        | ok hrel =>
          rw [r.resolveCell_ok w n ht hval hs,
            r.resolveCell_ok v n ht hval' (hrel.numberForText_eq hs)]

/-! ## Resolving cell after cell -/

/-- Which cell is at a position after another one was resolved. -/
theorem resolveAt_cell? (r : Resolver) (v : Workbook) (n row col n' row' col' : Nat) :
    (r.resolveAt v (n, row, col)).cell? n' row' col' = (v.cell? n' row' col').map fun c =>
      if (n', row', col') = (n, row, col) then (r.resolveCell v n c).1 else c := by
  unfold Resolver.resolveAt
  dsimp only
  cases hc : v.cell? n row col with
  | none =>
    dsimp only
    by_cases hp : (n', row', col') = (n, row, col)
    · cases hp
      rw [hc]
      rfl
    · simp only [hp, if_false, Option.map_id']
  | some c =>
    dsimp only
    rw [cell?_modifyCell]
    by_cases hp : (n', row', col') = (n, row, col)
    · cases hp
      rw [hc]
      simp only [Option.map_some, if_true]
    · simp only [hp, if_false]

theorem length_resolveAt (r : Resolver) (v : Workbook) (p : Nat × Nat × Nat) :
    (r.resolveAt v p).length = v.length := by
  unfold Resolver.resolveAt
  dsimp only
  split
  · rfl
  · exact length_modifyCell ..

theorem Partly.resolveAt (hw : w.Unresolved) (hacyclic : (r.environment w).Acyclic)
    (hstored : r.Faithful w) (hv : r.Partly w visited v) {p : Nat × Nat × Nat}
    (hnew : p ∉ visited) : r.Partly w (p :: visited) (r.resolveAt v p) := by
  obtain ⟨n, row, col⟩ := p
  refine ⟨(length_resolveAt r v _).trans hv.length, fun n' row' col' => ?_⟩
  rw [resolveAt_cell?, hv.cell]
  cases hc : w.cell? n' row' col' with
  | none => rfl
  | some c =>
    by_cases hp : (n', row', col') = (n, row, col)
    · cases hp
      simp only [Option.map_some, if_true, List.mem_cons_self, if_neg hnew]
      rw [hv.resolveCell_eq hw hacyclic hstored hc]
    · simp only [Option.map_some, List.mem_cons, hp, false_or, if_false]

theorem Partly.resolveAll (hw : w.Unresolved) (hacyclic : (r.environment w).Acyclic)
    (hstored : r.Faithful w) (order : List (Nat × Nat × Nat)) :
    ∀ {visited : List (Nat × Nat × Nat)} {v : Workbook}, r.Partly w visited v → order.Nodup →
    (∀ p ∈ order, p ∉ visited) → r.Partly w (order.reverse ++ visited) (r.resolveAll v order) := by
  induction order with
  | nil =>
    intro visited v hv _ _
    exact hv
  | cons p rest ih =>
    intro visited v hv honce hnew
    obtain ⟨hp, hrest⟩ := List.nodup_cons.1 honce
    have hstep := hv.resolveAt hw hacyclic hstored (hnew p List.mem_cons_self)
    have hfresh : ∀ q ∈ rest, q ∉ p :: visited := fun q hq =>
      List.not_mem_cons_of_ne_of_not_mem (fun h => hp (h ▸ hq))
        (hnew q (List.mem_cons_of_mem _ hq))
    have h := ih hstep hrest hfresh
    rw [List.reverse_cons, List.append_assoc]
    exact h

/-- After every cell was resolved once, each is as if it had been the first one. -/
theorem resolveAll_cell? (hw : w.Unresolved) (hacyclic : (r.environment w).Acyclic)
    (hstored : r.Faithful w) {order : List (Nat × Nat × Nat)} (horder : w.Visits order)
    (n row col : Nat) :
    (r.resolveAll w order).cell? n row col =
      (w.cell? n row col).map fun c => (r.resolveCell w n c).1 := by
  have h := Partly.resolveAll hw hacyclic hstored order (Partly.nil r w) horder.once
    fun _ _ => List.not_mem_nil
  rw [h.cell]
  cases hc : w.cell? n row col with
  | none => rfl
  | some c =>
    have hmem : (n, row, col) ∈ order.reverse ++ [] := by
      rw [List.append_nil, List.mem_reverse, horder.all, hc]
      rfl
    rw [Option.map_some, Option.map_some, if_pos hmem]

end Resolver

end Spreadsheet
