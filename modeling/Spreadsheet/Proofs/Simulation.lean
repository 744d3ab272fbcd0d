import Spreadsheet.Formula.Evaluation
import Spreadsheet.Formula.Mention
import Spreadsheet.Proofs.Interchange

/-!
# Simulations

Two evaluators walk over the same tree and differ in how they read cells and in what they keep
beside the value. A simulation relates the computations of one to those of the other and is kept by
everything that the walk does: results, sequences, faults and the handling of faults. If reading the
cells that an expression mentions is related, so are its values (`Expr.value_rel`). Whatever is
proved about evaluators as a whole comes from this one walk and a fact about reading cells.
-/

namespace Spreadsheet

open Calendar MonadExcept Value

/-- A relation between the computations of two monads that the steps of an evaluation keep. -/
structure Simulation (m n : Type → Type) [Monad m] [MonadExceptOf Fault m] [Monad n]
    [MonadExceptOf Fault n] where
  Rel : {α β : Type} → (α → β → Prop) → m α → n β → Prop
  pure : ∀ {α β : Type} {R : α → β → Prop} {a : α} {b : β}, R a b → Rel R (pure a) (pure b)
  bind : ∀ {α β γ δ : Type} {R : α → β → Prop} {S : γ → δ → Prop} {x : m α} {y : n β}
    {f : α → m γ} {g : β → n δ}, Rel R x y → (∀ a b, R a b → Rel S (f a) (g b)) →
    Rel S (x >>= f) (y >>= g)
  throw : ∀ {α β : Type} {R : α → β → Prop} (f : Fault),
    Rel R (throwThe Fault f : m α) (throwThe Fault f : n β)
  handle : ∀ {α β : Type} {R : α → β → Prop} {x : m α} {y : n β} {h : Fault → m α}
    {k : Fault → n β}, Rel R x y → (∀ f, Rel R (h f) (k f)) →
    Rel R (tryCatchThe Fault x h) (tryCatchThe Fault y k)

/-- Two plain computations with the same fault or related results. -/
def Simulation.plain : Simulation (Except Fault) (Except Fault) where
  Rel := OutcomeRel
  pure := .ok
  bind := by
    intro α β γ δ R S x y f g hxy hfg
    cases hxy with
    | ok h => exact hfg _ _ h
    | error e => exact .error e
  throw := .error
  handle := by
    intro α β R x y h k hxy hhk
    cases hxy with
    | ok h => exact .ok h
    | error f => exact hhk f

theorem ofExcept_except {α : Type} (x : Except Fault α) : (ofExcept x : Except Fault α) = x := by
  cases x <;> rfl

section

variable {m n : Type → Type} [Monad m] [MonadExceptOf Fault m] [Monad n] [MonadExceptOf Fault n]
  (sim : Simulation m n)

namespace Simulation

theorem ofExcept {α β : Type} {R : α → β → Prop} {x : Except Fault α} {y : Except Fault β}
    (h : OutcomeRel R x y) :
    sim.Rel R (MonadExcept.ofExcept x : m α) (MonadExcept.ofExcept y : n β) := by
  cases h with
  | ok h => exact sim.pure h
  | error f => exact sim.throw f

/-- The same plain computation on both sides. -/
theorem ofExcept_self {α : Type} (x : Except Fault α) :
    sim.Rel (fun a b => x = .ok a ∧ a = b) (MonadExcept.ofExcept x : m α)
      (MonadExcept.ofExcept x : n α) :=
  sim.ofExcept (.self x)

variable {V : Value → Value → Prop} (hV : Respected V)

include hV

theorem contain {x : m Value} {y : n Value} (h : sim.Rel V x y) :
    sim.Rel V (Spreadsheet.contain x) (Spreadsheet.contain y) := by
  refine sim.handle h fun f => ?_
  split
  · exact sim.pure (hV.refl _)
  · exact sim.throw f

theorem readNumbers {xs : List (m Value)} {ys : List (n Value)}
    (h : List.Forall₂ (sim.Rel V) xs ys) :
    sim.Rel (fun a b => a = b) (Spreadsheet.readNumbers xs) (Spreadsheet.readNumbers ys) := by
  induction h with
  | nil => exact sim.pure rfl
  | cons hx _ ih =>
    refine sim.bind hx fun v w hvw => ?_
    rw [(hV.interchange _ _ hvw).number?_eq]
    refine sim.bind (sim.ofExcept_self _) ?_
    rintro k _ ⟨-, rfl⟩
    refine sim.bind ih ?_
    rintro numbers _ rfl
    exact sim.pure rfl

end Simulation

theorem items_rel {V : Value → Value → Prop} (hV : Respected V) {v w : Value} (h : V v w) :
    List.Forall₂ V v.items w.items := by
  cases hV.interchange _ _ h with
  | refl => exact List.forall₂_same.2 fun u _ => hV.refl u
  | number hv hw =>
    have single : ∀ (u : Value) (n : Number), u.number? = .ok (some n) → u.items = [u] := by
      intro u n hu
      cases u with
      | list items => cases hu
      | _ => rfl
    rw [single v _ hv, single w _ hw]
    exact .cons h .nil

/-- Two sources read related values at the positions of a reference. -/
structure Source.Matches (V : Value → Value → Prop) (s : Source m) (t : Source n)
    (r : Mention) : Prop where
  table : s.tableIndex? r.table = t.tableIndex? r.table
  read : ∀ k, s.tableIndex? r.table = some k → ∀ p ∈ r.positions,
    Option.Rel (sim.Rel V) (s.read? k p.1 p.2) (t.read? k p.1 p.2)

namespace Source

variable {V : Value → Value → Prop} (hV : Respected V) {s : Source m} {t : Source n}

include hV

theorem cellValue_rel {table : TableId} {reference : String}
    (h : Matches sim V s t (.cell table reference)) :
    sim.Rel V (s.cellValue table reference) (t.cellValue table reference) := by
  have htable : s.tableIndex? table = t.tableIndex? table := h.table
  unfold cellValue
  rw [← htable]
  cases hk : s.tableIndex? table with
  | none => exact sim.pure (hV.refl _)
  | some k =>
    refine sim.bind (sim.ofExcept_self _) ?_
    rintro position _ ⟨hp, rfl⟩
    cases position with
    | none => exact sim.pure (hV.refl _)
    | some at_ =>
      have hread := h.read k hk (at_.row, at_.col) (by simp [Mention.positions, hp])
      dsimp only at hread ⊢
      generalize s.read? k at_.row at_.col = x at hread ⊢
      generalize t.read? k at_.row at_.col = y at hread ⊢
      cases hread with
      | none => exact sim.pure (hV.refl _)
      | some hxy => exact hxy

theorem rangeNumbers_rel {table : TableId} {reference : String}
    (h : Matches sim V s t (.range table reference)) :
    sim.Rel (fun a b => a = b) (s.rangeNumbers table reference)
      (t.rangeNumbers table reference) := by
  have htable : s.tableIndex? table = t.tableIndex? table := h.table
  unfold rangeNumbers
  rw [← htable]
  cases hk : s.tableIndex? table with
  | none => exact sim.pure rfl
  | some k =>
    refine sim.bind (sim.ofExcept_self _) ?_
    rintro covered _ ⟨hp, rfl⟩
    cases covered with
    | none => exact sim.pure rfl
    | some positions =>
      have hread := h.read k hk
      simp only [Mention.positions, hp] at hread
      have hreads : List.Forall₂ (sim.Rel V) (positions.filterMap fun p => s.read? k p.1 p.2)
          (positions.filterMap fun p => t.read? k p.1 p.2) := by
        refine List.rel_filterMap (R := fun p q => p = q ∧ p ∈ positions) ?_
          (List.forall₂_same.2 fun p hp => ⟨rfl, hp⟩)
        rintro p _ ⟨rfl, hp⟩
        exact hread p hp
      refine sim.bind (sim.readNumbers hV hreads) ?_
      rintro numbers _ rfl
      exact sim.pure rfl

end Source

namespace Expr

variable {V : Value → Value → Prop} {s : Source m} {t : Source n} (today : Date) (table : TableId)

mutual

/-- Expressions have related values over sources that match at everything they mention. -/
theorem value_rel (hV : Respected V) (e : Expr) (h : ∀ r ∈ e.mentions table, s.Matches sim V t r) :
    sim.Rel V (e.value s today table) (e.value t today table) := by
  unfold value
  refine sim.contain hV ?_
  cases e with
  | literal v => exact sim.pure (hV.refl v)
  | missing => exact sim.pure (hV.refl _)
  | cell reference named => exact Source.cellValue_rel sim hV (h _ List.mem_cons_self)
  | range reference named =>
    refine sim.bind (Source.rangeNumbers_rel sim hV (h _ List.mem_cons_self)) ?_
    rintro numbers _ rfl
    cases numbers with
    | none => exact sim.pure (hV.refl _)
    | some ns => exact sim.pure (hV.refl _)
  | call name args =>
    refine sim.bind (sim.ofExcept_self _) ?_
    rintro f _ ⟨-, rfl⟩
    cases f with
    | aggregate f =>
      refine sim.bind (flatValues_rel hV args h) fun vs ws hvs => ?_
      exact sim.ofExcept (.of_eq_value hV (f.apply_interchange (hvs.imp hV.interchange)))
    | scalar f =>
      refine sim.bind (values_rel hV args h) fun vs ws hvs => ?_
      exact sim.ofExcept (f.apply_interchange today hV hvs)
  | binary op left right =>
    have hl := value_rel hV left fun r hr => h r (List.mem_append_left _ hr)
    have hr := value_rel hV right fun r hr => h r (List.mem_append_right _ hr)
    dsimp only
    split
    · exact sim.pure (hV.refl _)
    · refine sim.bind hl fun v w hvw => ?_
      rw [(hV.interchange _ _ hvw).operand?_eq]
      refine sim.bind (sim.ofExcept_self _) ?_
      rintro a _ ⟨-, rfl⟩
      refine sim.bind hr fun v' w' hvw' => ?_
      rw [(hV.interchange _ _ hvw').operand?_eq]
      refine sim.bind (sim.ofExcept_self _) ?_
      rintro b _ ⟨-, rfl⟩
      cases a with
      | none => exact sim.pure (hV.refl _)
      | some a =>
        cases b with
        | none => exact sim.pure (hV.refl _)
        | some b => exact sim.ofExcept (.of_eq_value hV rfl)

theorem values_rel (hV : Respected V) (args : List Expr)
    (h : ∀ r ∈ mentionsIn table args, s.Matches sim V t r) :
    sim.Rel (List.Forall₂ V) (values s today table args) (values t today table args) := by
  cases args with
  | nil => exact sim.pure .nil
  | cons e rest =>
    have he := value_rel hV e fun r hr => h r (List.mem_append_left _ hr)
    have hrest := values_rel hV rest fun r hr => h r (List.mem_append_right _ hr)
    exact sim.bind he fun v w hvw => sim.bind hrest fun vs ws hvs => sim.pure (.cons hvw hvs)

theorem flatValues_rel (hV : Respected V) (args : List Expr)
    (h : ∀ r ∈ mentionsIn table args, s.Matches sim V t r) :
    sim.Rel (List.Forall₂ V) (flatValues s today table args) (flatValues t today table args) := by
  cases args with
  | nil => exact sim.pure .nil
  | cons e rest =>
    have hrest := flatValues_rel hV rest fun r hr => h r (List.mem_append_right _ hr)
    have append : ∀ vs ws, List.Forall₂ V vs ws →
        sim.Rel (List.Forall₂ V) (do return vs ++ (← flatValues s today table rest))
          (do return ws ++ (← flatValues t today table rest)) := fun vs ws hvs =>
      sim.bind hrest fun us xs hus => sim.pure (List.rel_append hvs hus)
    have he := value_rel hV e
    cases e with
    | range reference named =>
      refine sim.bind (Source.rangeNumbers_rel sim hV (h _ List.mem_cons_self)) ?_
      rintro numbers _ rfl
      exact sim.bind (sim.pure (List.forall₂_same.2 fun v _ => hV.refl v)) append
    | cell reference named =>
      refine sim.bind (Source.cellValue_rel sim hV (h _ List.mem_cons_self)) fun v w hvw => ?_
      exact sim.bind (sim.pure (.cons hvw .nil)) append
    | _ =>
      refine sim.bind (he fun r hr => h r (List.mem_append_left _ hr)) fun v w hvw => ?_
      exact sim.bind (sim.pure (items_rel hV hvw)) append

end

end Expr

end

end Spreadsheet
