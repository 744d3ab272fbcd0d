import Mathlib
import Spreadsheet.Formula.Machine
import Spreadsheet.Proofs.Dependency

/-!
# Evaluation ends

The machine that shares one set of keys gives the value of the evaluator, whatever the workbook, the
parser and the keys in progress at the start (`machineFormula_eq`). The calls that hold keys below
the outermost one are for formulas of the workbook and have different keys at every moment, so they
are at most as many as the workbook has keys. One more call may stand on them: one that is about to
be let in, that has given its key back or that is refused. So calls nest at most two deeper than
there are keys, the outermost one and the refused one counted; where they nest that deep, every key
is held and the innermost call is refused. A single cell is enough for that (`selfCounting_nests`).

What carries this is that every call, whether it gives a value or fails, leaves the shared memory as
it was but for what is noted (`Memory.Kept`).
-/

namespace Spreadsheet

open Value MonadExcept

/-! ## Moves and the ways back -/

namespace Snapshot

variable {s : Snapshot} {key : String} {c : Nat × String}

theorem given_taken (h : key ∉ s.progress) : (s.taken key).given key = s :=
  congrArg (fun progress => { s with progress }) (Finset.erase_insert h)

theorem letOut_letIn (h : cellKey c.1 c.2 ∉ s.progress) : (s.letIn c).letOut c = s :=
  congrArg (fun progress => { s with progress }) (Finset.erase_insert h)

end Snapshot

/-! ## Calls that stand on one another -/

/-- The calls of a moment are for formulas of a workbook. The keys that they hold are in progress
and different, and all calls hold theirs but for the innermost one at most. -/
structure Workbook.Nested (w : Workbook) (s : Snapshot) : Prop where
  member : ∀ c ∈ s.standing, c ∈ w.formulas
  held : ∀ k ∈ s.keys, k ∈ s.progress
  distinct : s.keys.Nodup
  innermost : s.standing = s.holding ∨ ∃ c, s.standing = c :: s.holding

namespace Workbook.Nested

variable {w : Workbook} {s : Snapshot} {c : Nat × String} {key : String}

theorem start (progress : Finset String) : w.Nested { progress } where
  member _ h := absurd h List.not_mem_nil
  held _ h := absurd h List.not_mem_nil
  distinct := List.nodup_nil
  innermost := .inl rfl

theorem taken (h : w.Nested s) : w.Nested (s.taken key) where
  member := h.member
  held k hk := Finset.mem_insert_of_mem (h.held k hk)
  distinct := h.distinct
  innermost := h.innermost

theorem started (h : w.Nested s) (hall : s.standing = s.holding) (hc : c ∈ w.formulas) :
    w.Nested (s.started c) where
  member := List.forall_mem_cons.2 ⟨hc, h.member⟩
  held := h.held
  distinct := h.distinct
  innermost := .inr ⟨c, congrArg (c :: ·) hall⟩

theorem letIn (h : w.Nested (s.started c)) (hall : s.standing = s.holding)
    (hfree : cellKey c.1 c.2 ∉ s.progress) : w.Nested ((s.started c).letIn c) where
  member := h.member
  held k hk := by
    rcases List.mem_cons.1 hk with rfl | hk
    · exact Finset.mem_insert_self _ _
    · exact Finset.mem_insert_of_mem (h.held k hk)
  distinct := List.nodup_cons.2 ⟨fun hk => hfree (h.held _ hk), h.distinct⟩
  innermost := .inl (congrArg (c :: ·) hall)

theorem keys_subset (h : w.Nested s) : s.keys.toFinset ⊆ w.keys.toFinset := by
  intro k hk
  rw [List.mem_toFinset] at hk ⊢
  obtain ⟨c, hc, rfl⟩ := List.mem_map.1 hk
  refine cellKey_mem_keys (h.member c ?_)
  rcases h.innermost with heq | ⟨d, heq⟩ <;> rw [heq]
  · exact hc
  · exact List.mem_cons_of_mem d hc

theorem keys_card (h : w.Nested s) : s.keys.toFinset.card = s.holding.length := by
  rw [List.toFinset_card_of_nodup h.distinct, Snapshot.keys, List.length_map]

theorem holding_le (h : w.Nested s) : s.holding.length ≤ w.keys.toFinset.card :=
  h.keys_card ▸ Finset.card_le_card h.keys_subset

theorem standing_le (h : w.Nested s) : s.standing.length ≤ 1 + w.keys.toFinset.card := by
  have hle := h.holding_le
  rcases h.innermost with heq | ⟨d, heq⟩ <;> rw [heq]
  · omega
  · rw [List.length_cons]
    omega

/-- Where one call more stands than there are keys, every key is held, so also that of the
innermost call. -/
theorem refused_of_full (h : w.Nested s) (hfull : s.standing.length = 1 + w.keys.toFinset.card) :
    ∃ c, s.standing = c :: s.holding ∧ cellKey c.1 c.2 ∈ s.keys := by
  have hle := h.holding_le
  rcases h.innermost with heq | ⟨c, heq⟩
  · rw [heq] at hfull
    omega
  · refine ⟨c, heq, ?_⟩
    have hcard : w.keys.toFinset.card ≤ s.keys.toFinset.card := by
      rw [heq, List.length_cons] at hfull
      rw [h.keys_card]
      omega
    have hall := Finset.eq_of_subset_of_card_le h.keys_subset hcard
    rw [← List.mem_toFinset, hall, List.mem_toFinset]
    exact cellKey_mem_keys (h.member c (heq ▸ List.mem_cons_self))

end Workbook.Nested

/-! ## What a call leaves behind -/

/-- The memory after a computation is the one before, but for what was noted on the way. -/
structure Memory.Kept (w : Workbook) (σ τ : Memory) : Prop where
  now : τ.toSnapshot = σ.toSnapshot
  noted : ∃ moments, τ.history = moments ++ σ.history ∧ ∀ s ∈ moments, w.Nested s

namespace Memory

variable {w : Workbook} {σ τ υ : Memory}

theorem Kept.refl (σ : Memory) : Kept w σ σ where
  now := rfl
  noted := ⟨[], rfl, fun _ h => absurd h List.not_mem_nil⟩

theorem Kept.trans (h : Kept w σ τ) (h' : Kept w τ υ) : Kept w σ υ where
  now := h'.now.trans h.now
  noted := by
    obtain ⟨first, hfirst, hnested⟩ := h.noted
    obtain ⟨second, hsecond, hnested'⟩ := h'.noted
    refine ⟨second ++ first, ?_, fun s hs => ?_⟩
    · rw [hsecond, hfirst, List.append_assoc]
    · rcases List.mem_append.1 hs with hs | hs
      · exact hnested' s hs
      · exact hnested s hs

/-- A move, a stretch that keeps the memory and the move back keep the memory. -/
theorem kept_moved {enter leave : Snapshot → Snapshot} (hs : w.Nested σ.toSnapshot)
    (henter : w.Nested (enter σ.toSnapshot)) (hback : leave (enter σ.toSnapshot) = σ.toSnapshot)
    (h : Kept w (σ.moved enter) τ) : Kept w σ (τ.moved leave) := by
  have hleave : leave τ.toSnapshot = σ.toSnapshot := (congrArg leave h.now).trans hback
  refine ⟨hleave, ?_⟩
  obtain ⟨moments, hmoments, hnested⟩ := h.noted
  refine ⟨leave τ.toSnapshot :: (moments ++ [enter σ.toSnapshot]), ?_, fun s hmem => ?_⟩
  · show leave τ.toSnapshot :: τ.history = _
    rw [hmoments, List.cons_append, List.append_assoc]
    rfl
  · rcases List.mem_cons.1 hmem with rfl | hmem
    · exact hleave ▸ hs
    · rcases List.mem_append.1 hmem with hmem | hmem
      · exact hnested s hmem
      · exact List.mem_singleton.1 hmem ▸ henter

end Memory

/-! ## The machine against the evaluator -/

/-- A plain computation beside one of the machine that starts at a moment, gives the same and keeps
the memory. -/
def Simulation.kept (w : Workbook) (s : Snapshot) : Simulation (Except Fault) Machine where
  Rel R x y := ∀ σ : Memory, σ.toSnapshot = s →
    ∃ z τ, y.run σ = some (z, τ) ∧ OutcomeRel R x z ∧ σ.Kept w τ
  pure h σ _ := ⟨_, σ, rfl, .ok h, .refl σ⟩
  bind := by
    intro α β γ δ R S x y f g hxy hfg σ hs
    obtain ⟨z, τ, hy, hxz, hτ⟩ := hxy σ hs
    cases hxz with
    | error e =>
      refine ⟨.error e, τ, ?_, .error e, hτ⟩
      show y.run σ >>= _ = _
      rw [hy]
      rfl
    | ok h =>
      obtain ⟨u, υ, hg, hfu, hυ⟩ := hfg _ _ h τ (hτ.now.trans hs)
      refine ⟨u, υ, ?_, hfu, hτ.trans hυ⟩
      show y.run σ >>= _ = _
      rw [hy]
      exact hg
  throw f σ _ := ⟨_, σ, rfl, .error f, .refl σ⟩
  handle := by
    intro α β R x y h k hxy hhk σ hs
    obtain ⟨z, τ, hy, hxz, hτ⟩ := hxy σ hs
    cases hxz with
    | @ok a b h =>
      refine ⟨.ok b, τ, ?_, .ok h, hτ⟩
      show y.run σ >>= _ = _
      rw [hy]
      rfl
    | error f =>
      obtain ⟨u, υ, hk, hhu, hυ⟩ := hhk f τ (hτ.now.trans hs)
      refine ⟨u, υ, ?_, hhu, hτ.trans hυ⟩
      show y.run σ >>= _ = _
      rw [hy]
      exact hk

namespace Machine

variable {w : Workbook} {p : Progress} {s : Snapshot} {σ : Memory} {key : String}
  {x : Except Fault Value} {body : Machine Value}

theorem guarded_of_mem (h : key ∈ σ.progress) :
    (guarded key body).run σ = some (.ok Sentinel.circular.value, σ) := by
  show (ite (key ∈ σ.progress) (pure Sentinel.circular.value) _ : Machine Value).run σ = _
  rw [if_pos h]
  rfl

theorem guarded_of_not_mem (h : key ∉ σ.progress) : (guarded key body).run σ = body.run σ := by
  show (ite (key ∈ σ.progress) _ body : Machine Value).run σ = _
  rw [if_neg h]

/-- A body that keeps the memory after a move keeps it as a whole when the second move is the way
back. -/
theorem between_kept {enter leave : Snapshot → Snapshot} (hs : w.Nested s)
    (henter : w.Nested (enter s)) (hback : leave (enter s) = s)
    (h : (Simulation.kept w (enter s)).Rel (fun a b => a = b) x body) :
    (Simulation.kept w s).Rel (fun a b => a = b) x (between enter leave body) := by
  rintro σ rfl
  obtain ⟨z, τ, hbody, hxz, hτ⟩ := h (σ.moved enter) rfl
  refine ⟨z, τ.moved leave, ?_, hxz, Memory.kept_moved hs henter hback hτ⟩
  show body.run (σ.moved enter) >>= _ = _
  rw [hbody]
  rfl

/-- Keys are refused by the machine where the evaluator refuses them. -/
theorem guarded_kept (hp : s.progress = p.toFinset)
    (h : key ∉ p → (Simulation.kept w s).Rel (fun a b => a = b) x body) :
    (Simulation.kept w s).Rel (fun a b => a = b)
      (if key ∈ p then .ok Sentinel.circular.value else x) (guarded key body) := by
  intro σ hσ
  have hmem : key ∈ σ.progress ↔ key ∈ p := by
    rw [hσ, hp, List.mem_toFinset]
  by_cases hkey : key ∈ p
  · rw [if_pos hkey, guarded_of_mem (hmem.2 hkey)]
    exact ⟨_, σ, rfl, .ok rfl, .refl σ⟩
  · rw [if_neg hkey, guarded_of_not_mem (mt hmem.1 hkey)]
    exact h hkey σ hσ

end Machine

namespace Environment

variable (env : Environment)

/-- A formula has one value in the evaluator and in the machine when the formulas of the workbook
have. -/
theorem enter_kept (depth : Nat) (table : TableId) (text : String) {p : Progress} {s : Snapshot}
    (h : ∀ n inner hm, (Simulation.kept env.workbook s).Rel (fun a b => a = b)
      (env.formulaValue p n inner hm) (env.call depth n inner)) :
    (Simulation.kept env.workbook s).Rel (fun a b => a = b)
      (env.enter (env.source p) table text) (env.enter (env.machineSource depth) table text) := by
  refine Simulation.contain _ respected_eq ?_
  refine Simulation.bind _ (Simulation.ofExcept_self _ _) ?_
  rintro e _ ⟨-, rfl⟩
  refine Expr.value_rel _ env.today _ respected_eq e fun r _ => ?_
  exact Workbook.source_matches _ respected_eq _ fun n inner hm _ => h n inner hm

theorem formulaValue_eq_ite {p : Progress} {n : Nat} {text : String}
    (hm : (n, text) ∈ env.workbook.formulas) : env.formulaValue p n text hm =
      if cellKey n text ∈ p then .ok Sentinel.circular.value
      else env.enter (env.source (cellKey n text :: p)) (.index n) text := by
  by_cases hkey : cellKey n text ∈ p
  · rw [env.formulaValue_of_mem hm hkey, if_pos hkey]
  · rw [env.formulaValue_of_not_mem hm hkey, if_neg hkey]

/-- A call gives the value of the evaluator and keeps the memory, if it may nest deeper than there
are keys of the workbook not in progress. The induction is on the depth; a call starts only when all
calls that it stands on hold their keys, and these are in progress, so a key that is free is none of
theirs. -/
theorem call_kept (depth : Nat) : ∀ (n : Nat) (text : String) (p : Progress) (s : Snapshot)
    (hm : (n, text) ∈ env.workbook.formulas), env.workbook.Nested s → s.standing = s.holding →
    s.progress = p.toFinset → env.workbook.remaining p < depth →
    (Simulation.kept env.workbook s).Rel (fun a b => a = b)
      (env.formulaValue p n text hm) (env.call depth n text) := by
  induction depth with
  | zero =>
    intro n text p s hm hs hall hp hd
    omega
  | succ depth ih =>
    intro n text p s hm hs hall hp hd
    have hstarted := hs.started hall hm
    refine Machine.between_kept hs hstarted rfl ?_
    rw [env.formulaValue_eq_ite hm]
    refine Machine.guarded_kept hp fun hkey => ?_
    have hfree : cellKey n text ∉ s.progress := by
      rw [hp, List.mem_toFinset]
      exact hkey
    have hlt := Workbook.remaining_cons_lt (Workbook.cellKey_mem_keys hm) hkey
    have hin := hstarted.letIn hall hfree
    refine Machine.between_kept hstarted hin (Snapshot.letOut_letIn hfree)
      (env.enter_kept depth (.index n) text fun k inner hk => ?_)
    refine ih k inner _ _ hk hin (congrArg _ hall) ?_ (by omega)
    rw [List.toFinset_cons, ← hp]
    rfl

end Environment

/-- The outermost call keeps the memory and gives the value of the evaluator. -/
theorem machineFormula_kept (env : Environment) (content : Value) (table : TableId) (p : Progress)
    {depth : Nat} (hd : env.workbook.keys.toFinset.card < depth) :
    (Simulation.kept env.workbook { progress := p.toFinset }).Rel (fun a b => a = b)
      (evaluateFormula env content table p) (machineFormula env depth content table) := by
  unfold evaluateFormula machineFormula
  cases content.formula? with
  | none => exact Simulation.pure _ rfl
  | some text =>
    dsimp only
    have hself := (Simulation.kept env.workbook { progress := p.toFinset }).ofExcept_self
      (formulaKey table text)
    rw [ofExcept_except] at hself
    refine Simulation.bind _ hself ?_
    rintro key _ ⟨-, rfl⟩
    refine Machine.guarded_kept rfl fun hkey => ?_
    have hstart := Workbook.Nested.start (w := env.workbook) p.toFinset
    have hfree : key ∉ p.toFinset := by
      rw [List.mem_toFinset]
      exact hkey
    refine Machine.between_kept hstart hstart.taken (Snapshot.given_taken hfree)
      (env.enter_kept depth table text fun n inner hm => ?_)
    refine env.call_kept depth n inner _ _ hm hstart.taken rfl List.toFinset_cons.symm ?_
    exact Nat.lt_of_le_of_lt (env.workbook.remaining_le _) hd

/-- **Evaluation ends.** From any keys in progress and at any depth above the number of the
workbook's keys, the machine has an answer, the value of the evaluator, and the set is then what it
was. Whenever a call started, was let in, gave its key back or ended, the calls below the outermost
one were for formulas of the workbook, and those that held keys held different ones. Counting the
outermost one, at most one call more than the workbook has keys held a key, and at most two more
stood on one another; where that many did, the key of the innermost was held by another one, so that
it was refused. -/
theorem machineFormula_eq (env : Environment) (content : Value) (table : TableId) (p : Progress)
    (depth : Nat) (hd : env.workbook.keys.toFinset.card < depth) :
    ∃ τ : Memory, (machineFormula env depth content table).run { progress := p.toFinset } =
        some (evaluateFormula env content table p, τ) ∧
      τ.progress = p.toFinset ∧ τ.standing = [] ∧ τ.holding = [] ∧
      ∀ s ∈ τ.history, env.workbook.Nested s ∧
        1 + s.holding.length ≤ 1 + env.workbook.keys.toFinset.card ∧
        1 + s.standing.length ≤ 2 + env.workbook.keys.toFinset.card ∧
        (1 + s.standing.length = 2 + env.workbook.keys.toFinset.card →
          ∃ c, s.standing = c :: s.holding ∧ cellKey c.1 c.2 ∈ s.keys) := by
  obtain ⟨z, τ, hrun, hz, hτ⟩ :=
    machineFormula_kept env content table p hd { progress := p.toFinset } rfl
  rw [hz.eq]
  obtain ⟨moments, hmoments, hnested⟩ := hτ.noted
  refine ⟨τ, hrun, congrArg Snapshot.progress hτ.now, congrArg Snapshot.standing hτ.now,
    congrArg Snapshot.holding hτ.now, fun s hs => ?_⟩
  rw [hmoments, List.append_nil] at hs
  have h := hnested s hs
  have hholding := h.holding_le
  have hstanding := h.standing_le
  exact ⟨h, by omega, by omega, fun hfull => h.refused_of_full (by omega)⟩

/-! ## A tangle of formulas -/

/-- Formulas that mention themselves, each other across tables and ranges over rows of different
lengths. -/
def tangle : Environment where
  workbook :=
    [[[{ value := .text "=IF(A1,T1!A1,B1)" }, { value := .text "=COUNT(A1:C3)" }],
      [{ value := .text "=T1!A1" }]],
     [[{ value := .text "=T0!A2" }, { value := .text "=T0!A2" }]]]
  parser := parseFormula
  today := .first

/-- From a formula of the tangle, with one of the other table's in progress. -/
theorem tangle_runs : tangle.workbook.keys.toFinset.card < 5 ∧
    ∃ τ : Memory, (machineFormula tangle 5 (.text "=T1!A1") (.index 0)).run
        { progress := ["1:=T0!B1"].toFinset } = some (.ok (.text "#CIRCULAR!"), τ) ∧
      τ.progress = ["1:=T0!B1"].toFinset ∧ τ.standing = [] ∧ τ.holding = [] ∧
      ∀ s ∈ τ.history, tangle.workbook.Nested s ∧
        1 + s.holding.length ≤ 1 + tangle.workbook.keys.toFinset.card ∧
        1 + s.standing.length ≤ 2 + tangle.workbook.keys.toFinset.card ∧
        (1 + s.standing.length = 2 + tangle.workbook.keys.toFinset.card →
          ∃ c, s.standing = c :: s.holding ∧ cellKey c.1 c.2 ∈ s.keys) := by
  have hkeys : tangle.workbook.keys =
      ["0:=IF(A1,T1!A1,B1)", "0:=COUNT(A1:C3)", "0:=T1!A1", "1:=T0!A2", "1:=T0!A2"] := by cbv
  have hdepth : tangle.workbook.keys.toFinset.card < 5 := by
    rw [hkeys]
    decide
  have hvalue : evaluateFormula tangle (.text "=T1!A1") (.index 0) ["1:=T0!B1"] =
      .ok (.text "#CIRCULAR!") := by cbv
  have main := machineFormula_eq tangle (.text "=T1!A1") (.index 0) ["1:=T0!B1"] 5 hdepth
  rw [hvalue] at main
  exact ⟨hdepth, main⟩

/-! ## A formula that counts calls -/

/-- One cell, whose formula counts the calls that stand on one another: where reading the cell again
is refused, nothing is added up and nothing counted, which leaves two, the call itself and the one
refused; otherwise the formula gives one more than the call below it. -/
def selfCounting : Environment where
  workbook := [[[{ value := .text "=SUM(A1)+2-COUNT(A1)" }]]]
  parser := parseFormula
  today := .first

/-- The whole number that a computation gives. -/
def wholeOutcome? : Except Fault Value → Option Int
  | .ok (.int n) => some n
  | _ => none

theorem eq_of_wholeOutcome? {z : Except Fault Value} {n : Int} (h : wholeOutcome? z = some n) :
    z = .ok (.int n) := by
  unfold wholeOutcome? at h
  split at h
  · cases h
    rfl
  · cases h

/-- The blank makes the outermost formula another one than the cell's. It counts three calls, one
more than those that can hold keys where a workbook has one key. -/
theorem selfCounting_nests : selfCounting.workbook.keys.toFinset.card = 1 ∧
    ∃ τ : Memory, (machineFormula selfCounting 2 (.text "= SUM(A1)+2-COUNT(A1)") (.index 0)).run
        { progress := ∅ } = some (.ok (.int 3), τ) ∧
      ∃ s ∈ τ.history, 1 + selfCounting.workbook.keys.toFinset.card < 1 + s.standing.length := by
  have hkeys : selfCounting.workbook.keys = ["0:=SUM(A1)+2-COUNT(A1)"] := by cbv
  have hcard : selfCounting.workbook.keys.toFinset.card = 1 := by
    rw [hkeys]
    rfl
  have hrun : ((machineFormula selfCounting 2 (.text "= SUM(A1)+2-COUNT(A1)") (.index 0)).run
      { progress := ∅ }).any (fun r => wholeOutcome? r.1 = some 3 &&
        r.2.history.any fun s => 1 < s.standing.length) := by
    decide +kernel
  obtain ⟨⟨z, τ⟩, hτ, hr⟩ := (Option.any_eq_true _ _).1 hrun
  obtain ⟨hthree, hdeep⟩ := (Bool.and_eq_true _ _).mp hr
  obtain ⟨s, hs, htwo⟩ := List.any_eq_true.1 hdeep
  have hz : z = .ok (.int 3) := eq_of_wholeOutcome? (of_decide_eq_true hthree)
  rw [hz] at hτ
  refine ⟨hcard, τ, hτ, s, hs, ?_⟩
  rw [hcard]
  exact Nat.add_lt_add_left (of_decide_eq_true htwo) 1

end Spreadsheet
