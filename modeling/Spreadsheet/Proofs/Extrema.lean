import Mathlib
import Spreadsheet.Proofs.Arguments
import Spreadsheet.Proofs.NumberLine

/-!
# What `MAX` and `MIN` give

Comparing two numbers compares the points at which they stand (`Number.lt_iff`), and every number
that a value counts as stands somewhere (`exists_point?_of_number?`), so the order is total on all
numbers that an aggregate meets. Keeping the better of two numbers therefore keeps an extremum of
those so far, whichever of two equal ones it is (`foldl_better`). So `MAX` and `MIN` give a number
that no other one exceeds, or that exceeds no other one (`apply_extrema`), the error where there is no
number at all, and the order of the values makes no difference to the number.
-/

namespace Spreadsheet

open Numeral Workbook

/-- One of the values counts as the number, and every number that one of them counts as stands
somewhere, on the side of it that is `below`. -/
structure Value.IsExtremum (below : WithBotTop ℚ → WithBotTop ℚ → Prop) (values : List Value)
    (x : Number) : Prop where
  counted : ∃ v ∈ values, v.number? = .ok (some x)
  bound : ∀ v ∈ values, ∀ y, v.number? = .ok (some y) →
    ∃ p q, y.point? = some p ∧ x.point? = some q ∧ below p q

/-- The aggregate picks an extremum of some values. -/
structure Aggregate.Picks (f : Aggregate) (below : WithBotTop ℚ → WithBotTop ℚ → Prop)
    (values : List Value) (r : Value) : Prop where
  apply_eq : f.apply values = .ok r
  error_iff : r = Sentinel.error.value ↔ ∀ v ∈ values, v.number? = .ok none
  extremum : r ≠ Sentinel.error.value → ∃ x, r = x.toValue ∧ Value.IsExtremum below values x
  perm : ∀ others, values.Perm others → ∃ s, f.apply others = .ok s ∧ r.SameNumber s

/-! ## Keeping the better of two -/

section

variable {α β : Type} {point : α → Option β} {below : β → β → Prop} {better : α → α → Bool}

/-- **A step.** The better of two numbers has both of them below it. -/
theorem keep_better [Std.Total below] {a b : α} {p q : β} (ha : point a = some p)
    (hb : point b = some q) (hbetter : better a b = true ↔ ¬ below q p) :
    ∃ r, point (if better a b then b else a) = some r ∧ below p r ∧ below q r := by
  have hrefl (s : β) : below s s := (Std.Total.total s s).elim id id
  by_cases h : below q p
  · rw [if_neg (fun hab => hbetter.1 hab h)]
    exact ⟨p, ha, hrefl p, h⟩
  · rw [if_pos (hbetter.2 h)]
    exact ⟨q, hb, (Std.Total.total p q).resolve_right h, hrefl q⟩

/-- **A run.** The number that is kept at the end is one of all, and all of them stand below it. -/
theorem foldl_better [Std.Total below] [IsTrans β below]
    (hbetter : ∀ {a b : α} {p q : β}, point a = some p → point b = some q →
      (better a b = true ↔ ¬ below q p))
    {a : α} {rest : List α} (h : ∀ b ∈ a :: rest, ∃ p, point b = some p) :
    ∃ best r, rest.foldl (fun best b => if better best b then b else best) a = best ∧
      point best = some r ∧ best ∈ a :: rest ∧
      ∀ b ∈ a :: rest, ∃ p, point b = some p ∧ below p r := by
  induction rest generalizing a with
  | nil =>
    obtain ⟨p, hp⟩ := h a List.mem_cons_self
    refine ⟨a, p, rfl, hp, List.mem_cons_self, ?_⟩
    intro b hb
    rw [List.mem_singleton.1 hb]
    exact ⟨p, hp, (Std.Total.total p p).elim id id⟩
  | cons b rest ih =>
    rw [List.forall_mem_cons, List.forall_mem_cons] at h
    obtain ⟨⟨p, hp⟩, ⟨q, hq⟩, hrest⟩ := h
    obtain ⟨s, hs, hps, hqs⟩ := keep_better hp hq (hbetter hp hq)
    obtain ⟨best, r, hbest, hr, hmem, hbelow⟩ :=
      ih (List.forall_mem_cons.2 ⟨⟨s, hs⟩, hrest⟩)
    rw [List.forall_mem_cons] at hbelow
    obtain ⟨⟨s', hs', hsr⟩, hbelow⟩ := hbelow
    cases hs.symm.trans hs'
    refine ⟨best, r, hbest, hr, ?_, ?_⟩
    · rcases List.mem_cons.1 hmem with rfl | hmem
      · split
        · exact List.mem_cons_of_mem _ List.mem_cons_self
        · exact List.mem_cons_self
      · exact List.mem_cons_of_mem _ (List.mem_cons_of_mem _ hmem)
    · rw [List.forall_mem_cons, List.forall_mem_cons]
      exact ⟨⟨p, hp, trans_of below hps hsr⟩, ⟨q, hq, trans_of below hqs hsr⟩, hbelow⟩

end

/-! ## Numbers of values -/

/-- Every number that a value counts as stands somewhere. -/
theorem exists_point?_of_number? {v : Value} {x : Number} (h : v.number? = .ok (some x)) :
    ∃ p, x.point? = some p := by
  cases x with
  | int n => exact ⟨_, rfl⟩
  | float x => exact Number.exists_point?_float (isNaN_of_number? h)

/-- Where no coercion fails, the numbers are taken of all values, in any order. -/
theorem exists_numbersOf {values : List Value} (h : ∀ v ∈ values, ∃ n, v.number? = .ok n) :
    ∃ ns, numbersOf values = .ok ns ∧
      ∀ x, x ∈ ns ↔ ∃ v ∈ values, v.number? = .ok (some x) := by
  induction values with
  | nil => exact ⟨[], rfl, by simp⟩
  | cons v rest ih =>
    rw [List.forall_mem_cons] at h
    obtain ⟨⟨n, hn⟩, hrest⟩ := h
    obtain ⟨ns, hns, hmem⟩ := ih hrest
    refine ⟨_, numbersOf_cons_eq_ok.2 ⟨n, ns, hn, hns, rfl⟩, fun x => ?_⟩
    simp only [List.mem_append, Option.mem_toList, hmem, List.exists_mem_cons_iff,
      hn, Except.ok.injEq]

theorem Number.toValue_ne_error (x : Number) : x.toValue ≠ Sentinel.error.value := by
  cases x <;> exact Value.noConfusion

/-! ## Aggregates that keep the better of two -/

namespace Aggregate

variable {f : Aggregate} {below : WithBotTop ℚ → WithBotTop ℚ → Prop}
  {better : Number → Number → Bool}

/-- The aggregate keeps the better of two numbers, from the first number on. -/
def Keeps (f : Aggregate) (better : Number → Number → Bool) : Prop :=
  ∀ values ns, numbersOf values = .ok ns → f.apply values = .ok (match ns with
    | [] => Sentinel.error.value
    | n :: rest => (rest.foldl (fun best k => if better best k then k else best) n).toValue)

theorem max_keeps : Aggregate.max.Keeps fun best k => best.lt k := by
  intro values ns h
  unfold apply
  dsimp only
  rw [h]
  cases ns <;> rfl

theorem min_keeps : Aggregate.min.Keeps fun best k => k.lt best := by
  intro values ns h
  unfold apply
  dsimp only
  rw [h]
  cases ns <;> rfl

/-- The error sentinel where no value counts as a number, else an extremum. -/
theorem Keeps.apply_eq [Std.Total below] [IsTrans _ below] (hf : f.Keeps better)
    (hbetter : ∀ {x y : Number} {p q}, x.point? = some p → y.point? = some q →
      (better x y = true ↔ ¬ below q p))
    {values : List Value} (h : ∀ v ∈ values, ∃ n, v.number? = .ok n) :
    (f.apply values = .ok Sentinel.error.value ∧ ∀ v ∈ values, v.number? = .ok none) ∨
      ∃ x, f.apply values = .ok x.toValue ∧ Value.IsExtremum below values x := by
  obtain ⟨ns, hns, hmem⟩ := exists_numbersOf h
  have hpoint : ∀ x ∈ ns, ∃ p, x.point? = some p := by
    intro x hx
    obtain ⟨v, -, hv⟩ := (hmem x).1 hx
    exact exists_point?_of_number? hv
  have happly := hf values ns hns
  cases ns with
  | nil =>
    refine .inl ⟨happly, fun v hv => ?_⟩
    obtain ⟨n, hn⟩ := h v hv
    cases n with
    | none => exact hn
    | some x => exact absurd ((hmem x).2 ⟨v, hv, hn⟩) List.not_mem_nil
  | cons n rest =>
    obtain ⟨best, r, hbest, hr, hcounted, hbelow⟩ := foldl_better hbetter hpoint
    refine .inr ⟨best, happly.trans (by rw [← hbest]), (hmem best).1 hcounted, ?_⟩
    intro v hv y hy
    obtain ⟨p, hp, hpr⟩ := hbelow y ((hmem y).2 ⟨v, hv, hy⟩)
    exact ⟨p, r, hp, hr, hpr⟩

/-- Two extrema of the same values in another order stand at the same point. -/
theorem sameNumber_of_perm [Std.Antisymm below] {values others : List Value}
    (hperm : values.Perm others) {x y : Number} (hx : Value.IsExtremum below values x)
    (hy : Value.IsExtremum below others y) : x.toValue.SameNumber y.toValue := by
  obtain ⟨v, hv, hvx⟩ := hx.counted
  obtain ⟨w, hw, hwy⟩ := hy.counted
  obtain ⟨p, q, hp, hq, hpq⟩ := hx.bound w (hperm.mem_iff.2 hw) y hwy
  obtain ⟨q', p', hq', hp', hqp⟩ := hy.bound v (hperm.mem_iff.1 hv) x hvx
  cases hp.symm.trans hp'
  cases hq.symm.trans hq'
  cases Std.Antisymm.antisymm _ _ hpq hqp
  exact .point hq hp

/-- An aggregate that keeps the better of two numbers picks an extremum. -/
theorem Keeps.exists_picks [Std.Total below] [IsTrans _ below] [Std.Antisymm below]
    (hf : f.Keeps better)
    (hbetter : ∀ {x y : Number} {p q}, x.point? = some p → y.point? = some q →
      (better x y = true ↔ ¬ below q p))
    {values : List Value} (h : ∀ v ∈ values, ∃ n, v.number? = .ok n) :
    ∃ r, f.Picks below values r := by
  have hothers : ∀ others, values.Perm others → ∀ v ∈ others, ∃ n, v.number? = .ok n :=
    fun others hperm v hv => h v (hperm.mem_iff.2 hv)
  rcases hf.apply_eq hbetter h with ⟨happly, hnone⟩ | ⟨x, happly, hx⟩
  · refine ⟨_, happly, iff_of_true rfl hnone, fun hne => absurd rfl hne, fun others hperm => ?_⟩
    rcases hf.apply_eq hbetter (hothers others hperm) with ⟨hsame, -⟩ | ⟨y, -, hy⟩
    · exact ⟨_, hsame, .refl _⟩
    · obtain ⟨w, hw, hwy⟩ := hy.counted
      rw [hnone w (hperm.mem_iff.2 hw)] at hwy
      cases hwy
  · obtain ⟨v, hv, hvx⟩ := hx.counted
    have hsome : ¬ ∀ w ∈ values, w.number? = .ok none := by
      intro hnone
      rw [hnone v hv] at hvx
      cases hvx
    refine ⟨_, happly, iff_of_false x.toValue_ne_error hsome, fun _ => ⟨x, rfl, hx⟩,
      fun others hperm => ?_⟩
    rcases hf.apply_eq hbetter (hothers others hperm) with ⟨-, hnone⟩ | ⟨y, hy, hextremum⟩
    · exact absurd (fun w hw => hnone w (hperm.mem_iff.1 hw)) hsome
    · exact ⟨_, hy, sameNumber_of_perm hperm hx hextremum⟩

end Aggregate

/-- **`MAX` and `MIN` give extrema.** Of values whose coercion does not fail, in any order, `MAX` gives
a number than which none stands higher and `MIN` one than which none stands lower; both give the error
sentinel exactly if no value counts as a number. -/
theorem apply_extrema (values : List Value) (h : ∀ v ∈ values, ∃ n, v.number? = .ok n) :
    (∃ r, Aggregate.max.Picks (· ≤ ·) values r) ∧ ∃ r, Aggregate.min.Picks (· ≥ ·) values r := by
  constructor
  · refine Aggregate.max_keeps.exists_picks (fun hx hy => ?_) h
    rw [Number.lt_iff hx hy, not_le]
  · refine Aggregate.min_keeps.exists_picks (fun hx hy => ?_) h
    rw [Number.lt_iff hy hx, not_le]

/-- Values of all kinds, among them `2 ^ 53` as a double, the next whole number, which is no double,
and a double that is not a number. -/
def ofEveryKind : List Value :=
  [.bool true, .float (Float.ofBits 0x4340000000000000), .text " 12 ", .int (2 ^ 53 + 1), .null,
    .text "#REF!", .date .first, .float (Float.ofBits 0x7ff8000000000000), .list [.int 7]]

/-- The greatest of these is the whole number, the least the serial number of the date. -/
theorem apply_extrema_mixed : (∀ v ∈ ofEveryKind, ∃ n, v.number? = .ok n) ∧
    Aggregate.max.Picks (· ≤ ·) ofEveryKind (.int (2 ^ 53 + 1)) ∧
    Aggregate.min.Picks (· ≥ ·) ofEveryKind (.int (-693593)) := by
  have htaken : ∀ v ∈ ofEveryKind, ∃ n, v.number? = .ok n := by
    simp only [ofEveryKind, List.forall_mem_cons, List.not_mem_nil, false_implies, implies_true,
      and_true]
    exact ⟨⟨_, rfl⟩, ⟨_, rfl⟩, ⟨_, rfl⟩, ⟨_, rfl⟩, ⟨_, rfl⟩, ⟨_, rfl⟩, ⟨_, rfl⟩, ⟨_, rfl⟩, _, rfl⟩
  obtain ⟨⟨r, hmax⟩, s, hmin⟩ := apply_extrema ofEveryKind htaken
  have hgreatest : Aggregate.max.apply ofEveryKind = .ok (.int (2 ^ 53 + 1)) := rfl
  have hleast : Aggregate.min.apply ofEveryKind = .ok (.int (-693593)) := rfl
  cases hmax.apply_eq.symm.trans hgreatest
  cases hmin.apply_eq.symm.trans hleast
  exact ⟨htaken, hmax, hmin⟩

end Spreadsheet
