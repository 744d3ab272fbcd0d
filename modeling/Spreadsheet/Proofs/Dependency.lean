import Mathlib.Data.Finset.Card
import Spreadsheet.Formula.Scope
import Spreadsheet.Proofs.Simulation

/-!
# Calls between formulas

Being free of cycles passes on to every formula that is called, with the caller's key in progress
(`NoCycle.of_callee`), and follows from any measure that goes down with every call
(`Acyclic.of_measure`). Readings of a workbook match at a reference when they agree on the formulas
that it stands for, unresolved (`Workbook.source_matches`).
-/

namespace Spreadsheet

open Value

/-! ## Reading a cell that a reference names -/

namespace Source

variable {s : Source (Except Fault)} {table : TableId} {reference : String} {k : Nat}
  {at_ : Reference.Coordinate}

theorem cellValue_of_read? {x : Except Fault Value} (hk : s.tableIndex? table = some k)
    (hat : Reference.parse reference = .ok (some at_)) (h : s.read? k at_.row at_.col = some x) :
    s.cellValue table reference = x := by
  unfold cellValue
  rw [hk, hat]
  dsimp only
  rw [ofExcept_except]
  dsimp only [bind, Except.bind]
  rw [h]

theorem cellValue_of_no_table (hk : s.tableIndex? table = none) :
    s.cellValue table reference = .ok Sentinel.reference.value := by
  unfold cellValue
  rw [hk]
  rfl

theorem cellValue_of_malformed (hat : Reference.parse reference = .ok none) :
    s.cellValue table reference = .ok Sentinel.reference.value := by
  unfold cellValue
  rw [hat]
  cases s.tableIndex? table <;> rfl

theorem cellValue_of_no_cell (hk : s.tableIndex? table = some k)
    (hat : Reference.parse reference = .ok (some at_)) (h : s.read? k at_.row at_.col = none) :
    s.cellValue table reference = .ok Sentinel.reference.value := by
  unfold cellValue
  rw [hk, hat]
  dsimp only
  rw [ofExcept_except]
  dsimp only [bind, Except.bind]
  rw [h]
  rfl

end Source

/-! ## Reading the cells of a workbook -/

namespace Workbook

variable {m : Type → Type} [Monad m]

theorem source_read?_none (w : Workbook) (f : ∀ k text, (k, text) ∈ w.formulas → m Value)
    {k row col : Nat} (h : w.cell? k row col = none) : (w.source f).read? k row col = none := by
  simp only [source]
  split
  · rfl
  · next c hc =>
    rw [h] at hc
    cases hc

theorem source_read?_some (w : Workbook) (f : ∀ k text, (k, text) ∈ w.formulas → m Value)
    {k row col : Nat} {c : Cell} (h : w.cell? k row col = some c) :
    (w.source f).read? k row col =
      some (c.read fun text ht => f k text (mem_formulas_of_cell? h ht)) := by
  simp only [source]
  split
  · next hc =>
    rw [h] at hc
    cases hc
  · next d hd =>
    rw [h] at hd
    cases hd
    rfl

theorem mem_openFormulas {w : Workbook} {r : Mention} {k : Nat} {p : Nat × Nat} {c : Cell}
    {text : String} (hk : w.tableIndex? r.table = some k) (hp : p ∈ r.positions)
    (hc : w.cell? k p.1 p.2 = some c) (ht : c.openFormula? = some text) :
    (k, text) ∈ w.openFormulas r := by
  unfold openFormulas
  rw [hk]
  refine List.mem_filterMap.2 ⟨p, hp, ?_⟩
  rw [hc, Option.bind_some, ht]
  rfl

theorem mem_formulas_of_mem_openFormulas {w : Workbook} {r : Mention} {f : Nat × String}
    (h : f ∈ w.openFormulas r) : f ∈ w.formulas := by
  unfold openFormulas at h
  split at h
  · cases h
  · obtain ⟨p, -, hp⟩ := List.mem_filterMap.1 h
    obtain ⟨c, hc, hf⟩ := Option.bind_eq_some_iff.1 hp
    obtain ⟨text, ht, rfl⟩ := Option.map_eq_some_iff.1 hf
    exact mem_formulas_of_cell? hc (Cell.openFormula?_eq_some.1 ht).2

end Workbook

namespace Cell

variable {m : Type → Type} [Monad m] {c : Cell}
  {f : (text : String) → c.value.formula? = some text → m Value}

theorem read_of_resolved (h : c.resolved = true) : c.read f = pure c.resolvedValue := by
  unfold read
  rw [if_pos h]

theorem read_of_plain (h : c.resolved = false) (hp : c.value.formula? = none) :
    c.read f = pure c.value := by
  unfold read
  rw [if_neg (by rw [h]; exact Bool.false_ne_true)]
  split
  · rfl
  · next ht =>
    rw [hp] at ht
    cases ht

theorem read_of_formula {text : String} (h : c.resolved = false)
    (ht : c.value.formula? = some text) : c.read f = f text ht := by
  unfold read
  rw [if_neg (by rw [h]; exact Bool.false_ne_true)]
  split
  · next hp =>
    rw [hp] at ht
    cases ht
  · next s hs =>
    rw [ht] at hs
    cases hs
    rfl

end Cell

namespace Workbook

variable {m n : Type → Type} [Monad m] [MonadExceptOf Fault m] [Monad n] [MonadExceptOf Fault n]

/-- Two workbooks are read alike at a position when their cells there are alike and the formula that
may stand there unresolved has related values. -/
theorem source_read?_rel (sim : Simulation m n) {V : Value → Value → Prop} (hV : Respected V)
    {w v : Workbook} {f : ∀ k text, (k, text) ∈ w.formulas → m Value}
    {g : ∀ k text, (k, text) ∈ v.formulas → n Value} {k row col : Nat}
    (hcells : Option.Rel Cell.ReadsAlike (w.cell? k row col) (v.cell? k row col))
    (hopen : ∀ c text hm hm', w.cell? k row col = some c → c.openFormula? = some text →
      sim.Rel V (f k text hm) (g k text hm')) :
    Option.Rel (sim.Rel V) ((w.source f).read? k row col) ((v.source g).read? k row col) := by
  generalize hc : w.cell? k row col = x at hcells
  generalize hd : v.cell? k row col = y at hcells
  cases hcells with
  | none =>
    rw [source_read?_none w f hc, source_read?_none v g hd]
    exact .none
  | @some c d halike =>
    rw [source_read?_some w f hc, source_read?_some v g hd]
    refine .some ?_
    cases halike with
    | resolved hr hr' hvalue =>
      rw [Cell.read_of_resolved hr, Cell.read_of_resolved hr', hvalue]
      exact sim.pure (hV.refl _)
    | unresolved hr hr' hvalue =>
      obtain ht | ⟨text, ht⟩ := Option.eq_none_or_eq_some c.value.formula?
      · rw [Cell.read_of_plain hr ht, Cell.read_of_plain hr' (hvalue ▸ ht), hvalue]
        exact sim.pure (hV.refl _)
      · rw [Cell.read_of_formula hr ht, Cell.read_of_formula hr' (hvalue ▸ ht)]
        exact hopen c text _ _ hc (Cell.openFormula?_eq_some.2 ⟨hr, ht⟩)

theorem rel_readsAlike_refl (x : Option Cell) : Option.Rel Cell.ReadsAlike x x := by
  cases x with
  | none => exact .none
  | some c => exact .some (.refl c)

/-- Two readings of one workbook match at a reference when the formulas that it stands for have
related values. -/
theorem source_matches (sim : Simulation m n) {V : Value → Value → Prop} (hV : Respected V)
    (w : Workbook) {f : ∀ k text, (k, text) ∈ w.formulas → m Value}
    {g : ∀ k text, (k, text) ∈ w.formulas → n Value} {r : Mention}
    (h : ∀ k text hm, (k, text) ∈ w.openFormulas r → sim.Rel V (f k text hm) (g k text hm)) :
    (w.source f).Matches sim V (w.source g) r := by
  refine ⟨rfl, fun k hk p hp => source_read?_rel sim hV (rel_readsAlike_refl _) ?_⟩
  exact fun c text hm _ hc ht => h k text hm (mem_openFormulas hk hp hc ht)

theorem tableIndex?_index {w : Workbook} {n : Nat} (h : n < w.length) :
    w.tableIndex? (.index n) = some n := by
  simp only [tableIndex?]
  rw [if_pos ⟨Int.natCast_nonneg n, Int.ofNat_lt.2 h⟩]
  rfl

theorem tableIndex?_congr {v w : Workbook} (h : v.length = w.length) (table : TableId) :
    v.tableIndex? table = w.tableIndex? table := by
  cases table with
  | index n =>
    unfold tableIndex?
    rw [h]
  | other _ => rfl

theorem source_cellValue (w : Workbook)
    (f : ∀ k text, (k, text) ∈ w.formulas → Except Fault Value) {n : Nat} {reference : String}
    {at_ : Reference.Coordinate} {c : Cell} (hn : n < w.length)
    (href : Reference.parse reference = .ok (some at_))
    (hc : w.cell? n at_.row at_.col = some c) :
    (w.source f).cellValue (.index n) reference =
      c.read fun text ht => f n text (mem_formulas_of_cell? hc ht) :=
  Source.cellValue_of_read? (tableIndex?_index hn) href (source_read?_some w f hc)

/-- How many different keys of a workbook are not in progress. -/
def remaining (w : Workbook) (p : Progress) : Nat := (w.keys.toFinset.filter fun k => k ∉ p).card

theorem remaining_le (w : Workbook) (p : Progress) : w.remaining p ≤ w.keys.toFinset.card :=
  Finset.card_filter_le _ _

theorem remaining_cons_lt {w : Workbook} {p : Progress} {k : String} (hk : k ∈ w.keys)
    (hp : k ∉ p) : w.remaining (k :: p) < w.remaining p := by
  unfold remaining
  refine Finset.card_lt_card (Finset.ssubset_iff_of_subset ?_ |>.2 ⟨k, ?_, ?_⟩)
  · intro x hx
    rw [Finset.mem_filter] at hx ⊢
    exact ⟨hx.1, fun h => hx.2 (List.mem_cons_of_mem _ h)⟩
  · rw [Finset.mem_filter, List.mem_toFinset]
    exact ⟨hk, hp⟩
  · rw [Finset.mem_filter]
    intro h
    exact h.2 List.mem_cons_self

end Workbook

namespace Environment

variable {env : Environment} {table : TableId} {text key : String} {p : Progress}

/-- A formula that is nothing but a reference has the value of the cell that it names. -/
theorem enter_of_cellValue {reference : String} {named : Option TableId} {v : Value}
    (he : env.parser text = .ok (.cell reference named))
    (h : (env.source p).cellValue (named.getD table) reference = .ok v) :
    env.enter (env.source p) table text = .ok v := by
  unfold enter
  rw [he]
  show contain (Expr.value (env.source p) env.today table (.cell reference named)) = _
  unfold Expr.value
  show contain (contain ((env.source p).cellValue (named.getD table) reference)) = _
  rw [h]
  rfl

theorem mem_mentions {e : Expr} {r : Mention} (he : env.parser text = .ok e)
    (hr : r ∈ e.mentions table) : r ∈ env.mentions table text := by
  unfold mentions
  rw [he]
  exact hr

theorem callees_eq : env.callees table text =
    (env.mentions table text).flatMap env.workbook.openFormulas := by
  unfold callees mentions
  cases env.parser text <;> rfl

theorem mem_callees {r : Mention} {f : Nat × String} (hr : r ∈ env.mentions table text)
    (hf : f ∈ env.workbook.openFormulas r) : f ∈ env.callees table text := by
  rw [callees_eq]
  exact List.mem_flatMap.2 ⟨r, hr, hf⟩

theorem mem_formulas_of_mem_callees {f : Nat × String} (h : f ∈ env.callees table text) :
    f ∈ env.workbook.formulas := by
  rw [callees_eq] at h
  obtain ⟨r, -, hf⟩ := List.mem_flatMap.1 h
  exact Workbook.mem_formulas_of_mem_openFormulas hf

namespace Reaches

theorem head {f g : Nat × String} (hf : f ∈ env.callees table text)
    (hg : env.Reaches (.index f.1) f.2 g) : env.Reaches table text g := by
  induction hg with
  | call h => exact .step (.call hf) h
  | step _ h ih => exact .step ih h

theorem mem_formulas {f : Nat × String} (h : env.Reaches table text f) :
    f ∈ env.workbook.formulas := by
  cases h with
  | call h => exact mem_formulas_of_mem_callees h
  | step _ h => exact mem_formulas_of_mem_callees h

end Reaches

/-- A formula that is called is free of cycles beside its caller. -/
theorem NoCycle.of_callee (h : env.NoCycle table text key p) {f : Nat × String}
    (hf : f ∈ env.callees table text) :
    env.NoCycle (.index f.1) f.2 (cellKey f.1 f.2) (key :: p) where
  idle :=
    List.not_mem_cons_of_ne_of_not_mem (h.no_return f (.call hf)) (h.reached_idle f (.call hf))
  reached_idle g hg := by
    have hr := Reaches.head hf hg
    exact List.not_mem_cons_of_ne_of_not_mem (h.no_return g hr) (h.reached_idle g hr)
  no_return g hg := h.acyclic f (.call hf) g hg
  acyclic g hg := h.acyclic g (.head hf hg)

/-- In a workbook without cycles every formula is free of them, beside anything in progress that is
none of the workbook's formulas. -/
theorem Acyclic.noCycle (h : env.Acyclic) (hp : ∀ k ∈ p, k ∉ env.workbook.keys)
    {f : Nat × String} (hf : f ∈ env.workbook.formulas) :
    env.NoCycle (.index f.1) f.2 (cellKey f.1 f.2) p where
  idle hmem := hp _ hmem (Workbook.cellKey_mem_keys hf)
  reached_idle _ hg hmem := hp _ hmem (Workbook.cellKey_mem_keys hg.mem_formulas)
  no_return g hg := h f hf g hg
  acyclic g hg := h g hg.mem_formulas

/-- A workbook has no cycles when some measure of keys goes down with every call. -/
theorem Acyclic.of_measure (size : String → Nat)
    (h : ∀ f ∈ env.workbook.formulas, ∀ g ∈ env.callees (.index f.1) f.2,
      size (cellKey g.1 g.2) < size (cellKey f.1 f.2)) : env.Acyclic := by
  intro f hf g hg
  have smaller : size (cellKey g.1 g.2) < size (cellKey f.1 f.2) := by
    induction hg with
    | call hg => exact h f hf _ hg
    | step hr hg ih => exact (h _ hr.mem_formulas _ hg).trans ih
  intro hkey
  rw [hkey] at smaller
  omega

end Environment

end Spreadsheet
