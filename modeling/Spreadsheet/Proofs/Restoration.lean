import Spreadsheet.Proofs.Nesting

/-!
# The set of keys is given back

Whenever the machine comes to an end, at whatever depth and from whatever memory, the keys in
progress are those of the start, whether a value is given, the call is refused or a fault escapes
(`machine_restores`). A call takes out only the key that it has put in: it is let in only when the
key was not there, and all that runs in between restores the keys for itself.
-/

namespace Spreadsheet

open Value MonadExcept

/-- A computation of the machine that restores the keys; the first one only stands for the values
that it may give. -/
def Simulation.restoring : Simulation Machine Machine where
  Rel R _ y := y.Restores ∧ ∀ σ τ b, y.run σ = some (.ok b, τ) → ∃ a, R a b
  pure := by
    intro α β R a b h
    refine ⟨fun σ τ outcome hy => ?_, fun σ τ c hy => ?_⟩
    · cases hy
      rfl
    · cases hy
      exact ⟨a, h⟩
  bind := by
    intro α β γ δ R S x y f g hxy hfg
    have steps : ∀ σ υ outcome, (y >>= g).run σ = some (outcome, υ) →
        (∃ e, outcome = .error e ∧ y.run σ = some (.error e, υ)) ∨
        ∃ b τ, y.run σ = some (.ok b, τ) ∧ (g b).run τ = some (outcome, υ) := by
      intro σ υ outcome h
      obtain ⟨⟨z, τ⟩, hy, hg⟩ := Option.bind_eq_some_iff.1 h
      cases z with
      | error e =>
        cases hg
        exact .inl ⟨e, rfl, hy⟩
      | ok b => exact .inr ⟨b, τ, hy, hg⟩
    refine ⟨fun σ υ outcome h => ?_, fun σ υ c h => ?_⟩
    · rcases steps σ υ outcome h with ⟨e, -, hy⟩ | ⟨b, τ, hy, hg⟩
      · exact hxy.1 σ υ _ hy
      · obtain ⟨a, hab⟩ := hxy.2 σ τ b hy
        exact ((hfg a b hab).1 τ υ _ hg).trans (hxy.1 σ τ _ hy)
    · rcases steps σ υ _ h with ⟨e, he, -⟩ | ⟨b, τ, hy, hg⟩
      · cases he
      · obtain ⟨a, hab⟩ := hxy.2 σ τ b hy
        exact (hfg a b hab).2 τ υ c hg
  throw := by
    intro α β R f
    refine ⟨fun σ τ outcome hy => ?_, fun σ τ c hy => ?_⟩
    · cases hy
      rfl
    · cases hy
  handle := by
    intro α β R x y h k hxy hhk
    have steps : ∀ σ υ outcome, (tryCatchThe Fault y k).run σ = some (outcome, υ) →
        (∃ b, outcome = .ok b ∧ y.run σ = some (.ok b, υ)) ∨
        ∃ f τ, y.run σ = some (.error f, τ) ∧ (k f).run τ = some (outcome, υ) := by
      intro σ υ outcome h
      obtain ⟨⟨z, τ⟩, hy, hk⟩ := Option.bind_eq_some_iff.1 h
      cases z with
      | ok b =>
        cases hk
        exact .inl ⟨b, rfl, hy⟩
      | error f => exact .inr ⟨f, τ, hy, hk⟩
    refine ⟨fun σ υ outcome h => ?_, fun σ υ c h => ?_⟩
    · rcases steps σ υ outcome h with ⟨b, -, hy⟩ | ⟨f, τ, hy, hk⟩
      · exact hxy.1 σ υ _ hy
      · exact ((hhk f).1 τ υ _ hk).trans (hxy.1 σ τ _ hy)
    · rcases steps σ υ _ h with ⟨b, hb, hy⟩ | ⟨f, τ, hy, hk⟩
      · cases hb
        exact hxy.2 σ υ c hy
      · exact (hhk f).2 τ υ c hk

theorem Machine.Restores.rel {α : Type} {x : Machine α} (h : x.Restores) :
    Simulation.restoring.Rel (fun a b => a = b) x x :=
  ⟨h, fun _ _ b _ => ⟨b, rfl⟩⟩

/-- A body that restores the keys does so between two moves when the second one takes back what the
first one did to them. -/
theorem Machine.between_progress {enter leave : Snapshot → Snapshot} {body : Machine Value}
    (hbody : body.Restores) {σ υ : Memory} {outcome : Except Fault Value}
    (hback : ∀ s : Snapshot, s.progress = (enter σ.toSnapshot).progress →
      (leave s).progress = σ.progress)
    (h : (Machine.between enter leave body).run σ = some (outcome, υ)) :
    υ.progress = σ.progress := by
  obtain ⟨⟨z, τ⟩, hrun, hleft⟩ := Option.bind_eq_some_iff.1
    (show (body.run (σ.moved enter)).bind _ = some (outcome, υ) from h)
  cases hleft
  exact hback τ.toSnapshot (hbody _ _ _ hrun)

/-- A key that was free is free again after a body between putting it in and taking it out; a key
that is refused changes nothing. -/
theorem Machine.guarded_restores {key : String} {enter leave : Snapshot → Snapshot}
    {body : Machine Value} (hbody : body.Restores)
    (henter : ∀ s, (enter s).progress = insert key s.progress)
    (hleave : ∀ s, (leave s).progress = s.progress.erase key) :
    (Machine.guarded key (Machine.between enter leave body)).Restores := by
  intro σ τ outcome h
  by_cases hkey : key ∈ σ.progress
  · rw [Machine.guarded_of_mem hkey] at h
    cases h
    rfl
  · rw [Machine.guarded_of_not_mem hkey] at h
    refine Machine.between_progress hbody (fun s hs => ?_) h
    rw [hleave, hs, henter]
    exact Finset.erase_insert hkey

namespace Environment

variable (env : Environment)

/-- Expressions restore the keys when the calls that read cells do. -/
theorem value_restores (depth : Nat) (h : ∀ n text, (env.call depth n text).Restores)
    (table : TableId) (e : Expr) : (e.value (env.machineSource depth) env.today table).Restores := by
  have hmatches : ∀ r ∈ e.mentions table, (env.machineSource depth).Matches Simulation.restoring
      (fun v w => v = w) (env.machineSource depth) r := fun r _ =>
    Workbook.source_matches _ respected_eq _ fun n inner _ _ => (h n inner).rel
  exact (Expr.value_rel Simulation.restoring env.today table respected_eq e hmatches).1

theorem enter_restores (depth : Nat) (h : ∀ n text, (env.call depth n text).Restores)
    (table : TableId) (text : String) :
    (env.enter (env.machineSource depth) table text).Restores := by
  have hentered : Simulation.restoring.Rel (fun a b => a = b)
      (env.enter (env.machineSource depth) table text)
      (env.enter (env.machineSource depth) table text) := by
    refine Simulation.contain _ respected_eq ?_
    refine Simulation.bind _ (Simulation.ofExcept_self _ (env.parser text)) ?_
    rintro e _ ⟨-, rfl⟩
    exact (env.value_restores depth h table e).rel
  exact hentered.1

/-- A call restores the keys. The induction is on the depth. -/
theorem call_restores (depth : Nat) : ∀ (n : Nat) (text : String),
    (env.call depth n text).Restores := by
  induction depth with
  | zero =>
    intro n text σ τ outcome h
    cases h
  | succ depth ih =>
    intro n text σ τ outcome h
    have hbody := env.enter_restores depth ih (.index n) text
    exact Machine.between_progress
      (Machine.guarded_restores hbody (fun _ => rfl) fun _ => rfl) (fun _ hs => hs) h

end Environment

/-- **The set is given back.** However the evaluation of a formula or of an expression ends, from
whatever keys in progress and at whatever depth, the keys are the same as at the start. At any depth
above the number of the workbook's keys it does end, with what the evaluator gives: a value or a
fault that escapes. -/
theorem machine_restores (env : Environment) (table : TableId) (depth : Nat) :
    (∀ content, (machineFormula env depth content table).Restores) ∧
    (∀ e, (machineExpression env depth table e).Restores) ∧
    (env.workbook.keys.toFinset.card < depth → ∀ p : Progress,
      (∀ content, ∃ τ : Memory,
        (machineFormula env depth content table).run { progress := p.toFinset } =
          some (evaluateFormula env content table p, τ)) ∧
      ∀ e, ∃ τ : Memory,
        (machineExpression env depth table e).run { progress := p.toFinset } =
          some (evaluate env table p e, τ)) := by
  refine ⟨fun content σ τ outcome h => ?_, fun e => ?_, fun hd p => ⟨fun content => ?_, fun e => ?_⟩⟩
  · unfold machineFormula at h
    cases ht : content.formula? with
    | none =>
      rw [ht] at h
      cases h
      rfl
    | some text =>
      rw [ht] at h
      dsimp only at h
      cases hk : formulaKey table text with
      | error f =>
        rw [hk] at h
        cases h
        rfl
      | ok key =>
        rw [hk] at h
        have hbody := env.enter_restores depth (env.call_restores depth) table text
        have hguarded : (Machine.guarded key (Machine.between (·.taken key) (·.given key)
            (env.enter (env.machineSource depth) table text))).Restores :=
          Machine.guarded_restores hbody (fun _ => rfl) fun _ => rfl
        exact hguarded σ τ outcome h
  · exact env.value_restores depth (env.call_restores depth) table e
  · obtain ⟨z, τ, hrun, hz, -⟩ :=
      machineFormula_kept env content table p hd { progress := p.toFinset } rfl
    rw [hz.eq]
    exact ⟨τ, hrun⟩
  · have hstart := Workbook.Nested.start (w := env.workbook) p.toFinset
    have hrel : (Simulation.kept env.workbook { progress := p.toFinset }).Rel (fun a b => a = b)
        (evaluate env table p e) (machineExpression env depth table e) := by
      refine Expr.value_rel _ env.today _ respected_eq e fun r _ => ?_
      refine Workbook.source_matches _ respected_eq _ fun n inner hm _ => ?_
      refine env.call_kept depth n inner p _ hm hstart rfl rfl ?_
      exact Nat.lt_of_le_of_lt (env.workbook.remaining_le _) hd
    obtain ⟨z, τ, hrun, hz, -⟩ := hrel { progress := p.toFinset } rfl
    rw [hz.eq]
    exact ⟨τ, hrun⟩

/-! ## A parser that breaks off -/

/-- A formula that calls another one, on which the parser breaks off. -/
def breaking : Environment where
  workbook := [[[{ value := .text "=A2" }], [{ value := .text "=!" }]]]
  parser text := if text = "=!" then .error (.supplied .key) else parseFormula text
  today := .first

/-- The fault of the inner formula escapes, with one of the other table's in progress; with its own
key in progress the formula is refused. -/
theorem breaking_restores : breaking.workbook.keys.toFinset.card < 3 ∧
    (∃ τ : Memory, (machineFormula breaking 3 (.text "=A2") (.index 0)).run
        { progress := ["1:=A2"].toFinset } = some (.error (.supplied .key), τ) ∧
      τ.progress = ["1:=A2"].toFinset) ∧
    ∃ τ : Memory, (machineFormula breaking 3 (.text "=A2") (.index 0)).run
        { progress := ["0:=A2"].toFinset } = some (.ok (.text "#CIRCULAR!"), τ) ∧
      τ.progress = ["0:=A2"].toFinset := by
  have hkeys : breaking.workbook.keys = ["0:=A2", "0:=!"] := by cbv
  have hdepth : breaking.workbook.keys.toFinset.card < 3 := by
    rw [hkeys]
    decide
  have hbroken : evaluateFormula breaking (.text "=A2") (.index 0) ["1:=A2"] =
      .error (.supplied .key) := by cbv
  have hrefused : evaluateFormula breaking (.text "=A2") (.index 0) ["0:=A2"] =
      .ok (.text "#CIRCULAR!") := by cbv
  obtain ⟨restores, -, ends⟩ := machine_restores breaking (.index 0) 3
  obtain ⟨τ, hτ⟩ := (ends hdepth ["1:=A2"]).1 (.text "=A2")
  obtain ⟨υ, hυ⟩ := (ends hdepth ["0:=A2"]).1 (.text "=A2")
  refine ⟨hdepth, ⟨τ, ?_, restores _ _ _ _ hτ⟩, υ, ?_, restores _ _ _ _ hυ⟩
  · rw [hτ, hbroken]
  · rw [hυ, hrefused]

end Spreadsheet
