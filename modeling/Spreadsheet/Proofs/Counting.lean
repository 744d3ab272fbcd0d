import Mathlib
import Spreadsheet.Formula.Supply
import Spreadsheet.Proofs.Arguments

/-!
# What is counted

`COUNT` leaves booleans out, and so it does with those that a reference to one cell reads or that
another expression evaluates to. A boolean under a range has been made a number by then and is
counted with the numbers. Everything else that counts as a number is counted wherever it stands,
unless the number of some value cannot be taken and the whole call is `#ERROR!`
(`evaluate_count`).
-/

namespace Spreadsheet

open Calendar Workbook Numeral

/-! ## Counts of values -/

theorem Value.bool_or_ne (v : Value) : (∃ b, v = .bool b) ∨ ∀ b, v ≠ .bool b := by
  cases v with
  | bool b => exact .inl ⟨b, rfl⟩
  | _ => exact .inr fun b => Value.noConfusion

theorem Value.isCountable_of_number? {v : Value} {n : Option Number} (hb : ∀ b, v ≠ .bool b)
    (h : v.number? = .ok n) : v.isCountable = n.isSome := by
  unfold isCountable
  split
  · exact absurd rfl (hb _)
  · next hn =>
    rw [h] at hn
    cases hn
    rfl
  · next hn =>
    cases n with
    | none => rfl
    | some n => exact absurd h (hn n)

theorem number?_int_of_beyond {n : Int} (h : ofInt? n = none) :
    (Value.int n).number? = .error .tooLarge := by
  simp only [Value.number?, h]
  rfl

theorem countNumbers_singleton {v : Value} {n : Option Number} (hb : ∀ b, v ≠ .bool b)
    (h : v.number? = .ok n) : countNumbers [v] = .ok (if n.isSome then 1 else 0) := by
  rw [countNumbers_cons v [] hb, h]
  cases n <;> rfl

theorem countNumbers_cons_eq_ok {v : Value} {rest : List Value} {k : Nat} :
    countNumbers (v :: rest) = .ok k ↔
      ∃ a b, countNumbers [v] = .ok a ∧ countNumbers rest = .ok b ∧ k = a + b := by
  obtain ⟨b, rfl⟩ | hb := v.bool_or_ne
  · constructor
    · exact fun h => ⟨0, k, rfl, h, (Nat.zero_add k).symm⟩
    · rintro ⟨a, b, ha, hrest, rfl⟩
      cases ha
      rw [Nat.zero_add]
      exact hrest
  · rw [countNumbers_cons v rest hb, bind_eq_ok_iff]
    constructor
    · rintro ⟨n, hn, h⟩
      obtain ⟨j, hj, h⟩ := exists_of_bind h
      refine ⟨_, j, countNumbers_singleton hb hn, hj, ?_⟩
      cases n <;> cases h <;> simp [Nat.add_comm]
    · rintro ⟨a, b, ha, hrest, rfl⟩
      rw [countNumbers_cons v [] hb] at ha
      obtain ⟨n, hn, -⟩ := exists_of_bind ha
      rw [← countNumbers_cons v [] hb, countNumbers_singleton hb hn] at ha
      cases ha
      refine ⟨n, hn, ?_⟩
      rw [hrest]
      cases n <;> simp [bind, Except.bind, pure, Except.pure, Nat.add_comm]

theorem countNumbers_append_eq_ok {vs ws : List Value} {k : Nat} :
    countNumbers (vs ++ ws) = .ok k ↔
      ∃ a b, countNumbers vs = .ok a ∧ countNumbers ws = .ok b ∧ k = a + b :=
  append_eq_ok_of_cons (f := countNumbers) Nat.add_assoc Nat.zero_add rfl
    fun _ _ _ => countNumbers_cons_eq_ok

/-! ## Counts of supplied values -/

namespace Supply

/-- None of the supplied values is refused, and so many are counted: those that count as numbers
and are no booleans, and the booleans under ranges. -/
def Counts (us : List Supply) (k : Nat) : Prop :=
  (∀ u ∈ us, ¬ u.Refused) ∧ k = us.countP (fun u => u.value.isCountable) + us.countP isCoveredBool

theorem counts_nil {k : Nat} : Counts [] k ↔ k = 0 := by
  unfold Counts
  simp

theorem counts_append {us ws : List Supply} {k : Nat} :
    Counts (us ++ ws) k ↔ ∃ a b, Counts us a ∧ Counts ws b ∧ k = a + b := by
  unfold Counts
  simp only [List.forall_mem_append, List.countP_append]
  constructor
  · rintro ⟨⟨hus, hws⟩, rfl⟩
    exact ⟨_, _, ⟨hus, rfl⟩, ⟨hws, rfl⟩, by omega⟩
  · rintro ⟨a, b, ⟨hus, rfl⟩, ⟨hws, rfl⟩, rfl⟩
    exact ⟨⟨hus, hws⟩, by omega⟩

theorem counts_singleton {u : Supply} {k : Nat} : Counts [u] k ↔ ¬ u.Refused ∧
    k = (if u.value.isCountable then 1 else 0) + if u.isCoveredBool then 1 else 0 := by
  unfold Counts
  simp

/-- A value that is supplied by itself is counted as it is. -/
theorem counts_single {v : Value} {k : Nat} :
    Counts [.single v] k ↔ countNumbers [v] = .ok k := by
  rw [counts_singleton]
  obtain ⟨b, rfl⟩ | hb := v.bool_or_ne
  · constructor
    · rintro ⟨-, rfl⟩
      rfl
    · intro h
      cases h
      refine ⟨?_, rfl⟩
      rintro ⟨h⟩
      cases h
  · cases hn : v.number? with
    | error f =>
      refine iff_of_false (fun h => h.1 (.value hn)) ?_
      rw [countNumbers_cons v [] hb, hn]
      rintro ⟨⟩
    | ok n =>
      have hrefused : ¬ (single v).Refused := by
        rintro ⟨h⟩
        rw [show (single v).value.number? = .ok n from hn] at h
        cases h
      rw [countNumbers_singleton hb hn]
      simp only [value, Value.isCountable_of_number? hb hn, isCoveredBool]
      exact ⟨fun h => by rw [h.2]; rfl, fun h => ⟨hrefused, (Except.ok.inj h).symm⟩⟩

theorem not_refused {u : Supply} {n : Option Number} (hn : u.value.number? = .ok n)
    (hu : ¬ u.value.WritesBeyond) : ¬ u.Refused := by
  rintro (h | h)
  · rw [hn] at h
    cases h
  · exact hu h

theorem isCoveredBool_iff {u : Supply} :
    u.isCoveredBool = true ↔ ∃ b, u = .covered (.bool b) := by
  unfold isCoveredBool
  split
  · next b => exact iff_of_true rfl ⟨b, rfl⟩
  · next h => exact iff_of_false Bool.false_ne_true fun ⟨b, hb⟩ => h b hb

theorem isCoveredBool_of_ne {v : Value} (hb : ∀ b, v ≠ .bool b) :
    (covered v).isCoveredBool = false := by
  rw [Bool.eq_false_iff, Ne, isCoveredBool_iff]
  rintro ⟨b, ⟨⟩⟩
  exact hb b rfl

/-- A value under a range that counts as a number is counted, a boolean among them. -/
theorem covered_counted {v : Value} {n : Number} (hn : v.number? = .ok (some n)) :
    1 = (if (covered v).value.isCountable then 1 else 0) +
      if (covered v).isCoveredBool then 1 else 0 := by
  obtain ⟨b, rfl⟩ | hb := v.bool_or_ne
  · rfl
  · rw [isCoveredBool_of_ne hb, value, Value.isCountable_of_number? hb hn]
    rfl

/-- A value under a range is made a number, and that is counted. -/
theorem counts_covered {v : Value} {k : Nat} :
    Counts [.covered v] k ↔
      ∃ n, v.number? = .ok n ∧ countNumbers (n.toList.map Number.toValue) = .ok k := by
  rw [counts_singleton]
  cases hn : v.number? with
  | error f =>
    refine iff_of_false (fun h => h.1 (.value hn)) ?_
    rintro ⟨n, h, -⟩
    cases h
  | ok n =>
    cases n with
    | none =>
      have hb : ∀ b, v ≠ .bool b := by
        rintro b rfl
        cases hn
      have hbeyond : ¬ v.WritesBeyond := by
        intro h
        obtain ⟨n, h, -⟩ := h.exists_number?
        rw [hn] at h
        cases h
      have hrefused : ¬ (covered v).Refused := not_refused hn hbeyond
      rw [isCoveredBool_of_ne hb, value, Value.isCountable_of_number? hb hn]
      constructor
      · rintro ⟨-, rfl⟩
        exact ⟨none, rfl, rfl⟩
      · rintro ⟨n, h, hk⟩
        cases h
        cases hk
        exact ⟨hrefused, rfl⟩
    | some n =>
      by_cases hbeyond : v.WritesBeyond
      · refine iff_of_false (fun h => h.1 (.beyond hbeyond)) ?_
        obtain ⟨m, hm, hbig⟩ := hbeyond.exists_number?
        rw [hn] at hm
        cases hm
        rintro ⟨n, h, hk⟩
        cases h
        change countNumbers [.int m] = _ at hk
        rw [countNumbers_cons _ [] (by rintro b ⟨⟩), number?_int_of_beyond hbig] at hk
        cases hk
      · have hrefused : ¬ (covered v).Refused := not_refused hn hbeyond
        have hcount : countNumbers [n.toValue] = .ok 1 :=
          countNumbers_singleton (by cases n <;> rintro b ⟨⟩) (number?_number? hn hbeyond)
        rw [← covered_counted hn]
        constructor
        · rintro ⟨-, rfl⟩
          exact ⟨some n, rfl, hcount⟩
        · rintro ⟨m, h, hk⟩
          cases h
          exact ⟨hrefused, Except.ok.inj (hk.symm.trans hcount)⟩

/-- Values that are supplied by themselves are counted as they are. -/
theorem counts_map_single {vs : List Value} {k : Nat} :
    Counts (vs.map .single) k ↔ countNumbers vs = .ok k := by
  induction vs generalizing k with
  | nil => rw [List.map_nil, counts_nil, countNumbers, Except.ok.injEq, eq_comm]
  | cons v rest ih =>
    rw [List.map_cons, ← List.singleton_append, counts_append, countNumbers_cons_eq_ok]
    simp only [counts_single, ih]

/-- The values under a range are made numbers, and those are counted. -/
theorem counts_map_covered {vs : List Value} {k : Nat} :
    Counts (vs.map .covered) k ↔
      ∃ ns, numbersOf vs = .ok ns ∧ countNumbers (ns.map Number.toValue) = .ok k := by
  induction vs generalizing k with
  | nil =>
    rw [List.map_nil, counts_nil]
    constructor
    · rintro rfl
      exact ⟨[], rfl, rfl⟩
    · rintro ⟨ns, hns, hk⟩
      cases hns
      cases hk
      rfl
  | cons v rest ih =>
    rw [List.map_cons, ← List.singleton_append, counts_append]
    simp only [counts_covered, ih]
    constructor
    · rintro ⟨a, b, ⟨n, hn, ha⟩, ⟨ns, hns, hb⟩, rfl⟩
      refine ⟨_, numbersOf_cons_eq_ok.2 ⟨n, ns, hn, hns, rfl⟩, ?_⟩
      rw [List.map_append]
      exact countNumbers_append_eq_ok.2 ⟨a, b, ha, hb, rfl⟩
    · rintro ⟨ns, hns, hk⟩
      obtain ⟨n, ms, hn, hms, rfl⟩ := numbersOf_cons_eq_ok.1 hns
      rw [List.map_append] at hk
      obtain ⟨a, b, ha, hb, rfl⟩ := countNumbers_append_eq_ok.1 hk
      exact ⟨a, b, ⟨n, hn, ha⟩, ⟨ms, hms, hb⟩, rfl⟩

end Supply

/-! ## Counts of arguments -/

namespace Expr

variable {s : Source (Except Fault)} {today : Date} {table : TableId}

theorem countNumbers_range {range : String} {named : Option TableId} {k : Nat} :
    (flatValues s today table [.range range named] >>= countNumbers) = .ok k ↔
      ∃ us, (Expr.range range named).supplied s today table = .ok us ∧ Supply.Counts us k := by
  unfold supplied
  simp only [flatValues, bind_assoc, pure_bind, List.append_nil]
  constructor
  · intro h
    obtain ⟨numbers, hnumbers, hk⟩ := exists_of_bind h
    obtain ⟨vs, hvs, hns⟩ := Source.rangeNumbers_eq_ok.1 ⟨numbers, hnumbers, rfl⟩
    rw [hvs]
    exact ⟨_, rfl, Supply.counts_map_covered.2 ⟨_, hns, hk⟩⟩
  · rintro ⟨us, hus, hk⟩
    obtain ⟨vs, hvs, h⟩ := exists_of_bind hus
    cases h
    obtain ⟨ns, hns, hk⟩ := Supply.counts_map_covered.1 hk
    obtain ⟨numbers, hnumbers, rfl⟩ := Source.rangeNumbers_eq_ok.2 ⟨vs, hvs, hns⟩
    rw [hnumbers]
    exact hk

/-- Values that are supplied by themselves, if they are, are counted as they are. -/
theorem countNumbers_singles {x : Except Fault (List Value)} {k : Nat} :
    (x >>= countNumbers) = .ok k ↔
      ∃ us, (do return (← x).map Supply.single) = .ok us ∧ Supply.Counts us k := by
  constructor
  · intro h
    obtain ⟨vs, rfl, hk⟩ := exists_of_bind h
    exact ⟨_, rfl, Supply.counts_map_single.2 hk⟩
  · rintro ⟨us, h, hk⟩
    obtain ⟨vs, rfl, h⟩ := exists_of_bind h
    cases h
    exact Supply.counts_map_single.1 hk

theorem countNumbers_argument {e : Expr} {k : Nat} :
    (flatValues s today table [e] >>= countNumbers) = .ok k ↔
      ∃ us, e.supplied s today table = .ok us ∧ Supply.Counts us k := by
  have item : ∀ e : Expr, (value s today table e >>= fun v => countNumbers v.items) = .ok k ↔
      ∃ us, (do return (← value s today table e).items.map Supply.single) = .ok us ∧
        Supply.Counts us k := by
    intro e
    have h := @countNumbers_singles (do return (← value s today table e).items) k
    simpa only [bind_assoc, pure_bind] using h
  cases e with
  | range reference named => exact countNumbers_range
  | cell reference named =>
    have h := @countNumbers_singles (do return [← s.cellValue (named.getD table) reference]) k
    simpa only [flatValues, supplied, bind_assoc, pure_bind, List.append_nil, List.map_cons,
      List.map_nil] using h
  | literal | call | binary | missing =>
    simpa only [flatValues, supplied, bind_assoc, pure_bind, List.append_nil] using item _

/-- The count of some arguments is that of what they supply. -/
theorem countNumbers_arguments {args : List Expr} {k : Nat} :
    (flatValues s today table args >>= countNumbers) = .ok k ↔
      ∃ us, suppliedAll s today table args = .ok us ∧ Supply.Counts us k := by
  induction args generalizing k with
  | nil =>
    constructor
    · intro h
      cases h
      exact ⟨[], rfl, Supply.counts_nil.2 rfl⟩
    · rintro ⟨us, h, hk⟩
      cases h
      rw [Supply.counts_nil.1 hk]
      rfl
  | cons e rest ih =>
    rw [flatValues_cons, suppliedAll]
    constructor
    · intro h
      obtain ⟨vs, hvs, hk⟩ := exists_of_bind h
      obtain ⟨as, has, hvs⟩ := exists_of_bind hvs
      obtain ⟨bs, hbs, hvs⟩ := exists_of_bind hvs
      cases hvs
      obtain ⟨a, b, ha, hb, rfl⟩ := countNumbers_append_eq_ok.1 hk
      obtain ⟨us, hus, hcounts⟩ := countNumbers_argument.1 (bind_eq_ok_iff.2 ⟨as, has, ha⟩)
      obtain ⟨ws, hws, hrest⟩ := ih.1 (bind_eq_ok_iff.2 ⟨bs, hbs, hb⟩)
      rw [hus, hws]
      exact ⟨_, rfl, Supply.counts_append.2 ⟨a, b, hcounts, hrest, rfl⟩⟩
    · rintro ⟨xs, hxs, hk⟩
      obtain ⟨us, hus, hxs⟩ := exists_of_bind hxs
      obtain ⟨ws, hws, hxs⟩ := exists_of_bind hxs
      cases hxs
      obtain ⟨a, b, ha, hb, rfl⟩ := Supply.counts_append.1 hk
      obtain ⟨as, has, ha⟩ := exists_of_bind (countNumbers_argument.2 ⟨us, hus, ha⟩)
      obtain ⟨bs, hbs, hb⟩ := exists_of_bind (ih.2 ⟨ws, hws, hb⟩)
      rw [has, hbs]
      exact countNumbers_append_eq_ok.2 ⟨a, b, ha, hb, rfl⟩

/-- `COUNT` is the count of what its arguments supply, or `#ERROR!` where there is none. -/
theorem value_count (hs : s.Answers) (today : Date) (table : TableId) (args : List Expr) :
    (∃ us k, suppliedAll s today table args = .ok us ∧ Supply.Counts us k ∧
      (Expr.call "COUNT" args).value s today table = .ok (.int k)) ∨
    (∀ us, suppliedAll s today table args = .ok us → ∀ k, ¬ Supply.Counts us k) ∧
      (Expr.call "COUNT" args).value s today table = .ok Sentinel.error.value := by
  have hvalue : (Expr.call "COUNT" args).value s today table =
      contain (do return .int (← flatValues s today table args >>= countNumbers)) := by
    have hname : Function.find "COUNT" = .ok (.aggregate .count) := rfl
    rw [bind_assoc]
    exact value_aggregate hname
  cases h : flatValues s today table args >>= countNumbers with
  | ok k =>
    obtain ⟨us, hus, hk⟩ := countNumbers_arguments.1 h
    rw [h] at hvalue
    exact .inl ⟨us, k, hus, hk, hvalue⟩
  | error f =>
    have hf : f.isContained = true :=
      (flatValues_contained today table hs args).bind countNumbers_contained f h
    rw [h] at hvalue
    refine .inr ⟨fun us hus k hk => ?_, hvalue.trans (contain_error hf)⟩
    rw [countNumbers_arguments.2 ⟨us, hus, hk⟩] at h
    cases h

end Expr

/-- **Booleans are counted under ranges only.** Where the arguments supply values whose numbers can
all be taken, `COUNT` is how many of them count as numbers and are no booleans, and one more for
each boolean under a range; so it leaves all booleans out exactly where none stands under a range.
Where the number of a value cannot be taken, or an argument cannot be read, it is `#ERROR!`. -/
theorem evaluate_count (env : Environment) (hparser : ∀ text, Contained (env.parser text))
    (table : TableId) (p : Progress) (args : List Expr) :
    (∀ f, suppliedValues env table p args = .error f →
      evaluate env table p (.call "COUNT" args) = .ok Sentinel.error.value) ∧
    ∀ us, suppliedValues env table p args = .ok us →
      ((∃ u ∈ us, u.Refused) →
        evaluate env table p (.call "COUNT" args) = .ok Sentinel.error.value) ∧
      ((∀ u ∈ us, ¬ u.Refused) → evaluate env table p (.call "COUNT" args) =
        .ok (.int ((us.countP fun u => u.value.isCountable) + us.countP Supply.isCoveredBool))) ∧
      (evaluate env table p (.call "COUNT" args) =
          .ok (.int (us.countP fun u => u.value.isCountable)) ↔
        (∀ u ∈ us, ¬ u.Refused) ∧ ∀ b, Supply.covered (.bool b) ∉ us) := by
  rcases Expr.value_count (Environment.source_answers hparser p) env.today table args with
    ⟨us, k, hus, ⟨htaken, rfl⟩, hvalue⟩ | ⟨hnone, hvalue⟩
  · refine ⟨fun f hf => ?_, fun ws hws => ?_⟩
    · cases (show suppliedValues env table p args = .ok us from hus).symm.trans hf
    · obtain rfl : us = ws := Except.ok.inj (hus.symm.trans hws)
      rw [Int.natCast_add] at hvalue
      refine ⟨fun ⟨u, hu, h⟩ => absurd h (htaken u hu), fun _ => hvalue, ?_⟩
      rw [show evaluate env table p (.call "COUNT" args) = _ from hvalue, Except.ok.injEq,
        Value.int.injEq, add_eq_left, Int.natCast_eq_zero, List.countP_eq_zero]
      constructor
      · exact fun h => ⟨htaken, fun b hb => h _ hb rfl⟩
      · rintro ⟨-, h⟩ u hu hbool
        obtain ⟨b, rfl⟩ := Supply.isCoveredBool_iff.1 hbool
        exact h b hu
  · refine ⟨fun _ _ => hvalue, fun us hus => ⟨fun _ => hvalue, ?_, ?_⟩⟩
    · exact fun htaken => absurd ⟨htaken, rfl⟩ (hnone us hus _)
    · constructor
      · intro h
        cases (show evaluate env table p (.call "COUNT" args) = _ from hvalue).symm.trans h
      · exact fun h => absurd ⟨h.1, rfl⟩ (hnone us hus _)

/-! ## A boolean under a range and beside it -/

/-- What a range with a boolean among its cells supplies, with a reference to the boolean. -/
def unevenSupplies : List Supply :=
  [.covered (.text "5"), .covered (.bool true), .covered (.text "5"),
    .covered Sentinel.circular.value, .covered (.date .first), .single (.bool true)]

/-- The range gives four numbers, the boolean under it among them, and the reference none. A whole
number too large for a double makes the count an error. -/
theorem uneven_count :
    (∀ text, Contained (uneven.parser text)) ∧
    suppliedValues uneven (.index 0) [] [.range "A1:B3" none, .cell "B1" none] =
      .ok unevenSupplies ∧
    (∀ u ∈ unevenSupplies, ¬ u.Refused) ∧
    evaluate uneven (.index 0) [] (.call "COUNT" [.range "A1:B3" none, .cell "B1" none]) =
      .ok (.int 4) ∧
    suppliedValues uneven (.index 0) [] [.literal (.int doubleLimit)] =
      .ok [.single (.int doubleLimit)] ∧
    (Supply.single (.int doubleLimit)).Refused ∧
    evaluate uneven (.index 0) [] (.call "COUNT" [.literal (.int doubleLimit)]) =
      .ok Sentinel.error.value := by
  have hsupplied : suppliedValues uneven (.index 0) [] [.range "A1:B3" none, .cell "B1" none] =
      .ok unevenSupplies := by cbv
  have hfive : (Value.text "5").number? = .ok (some (.int 5)) := by cbv
  have htaken : ∀ u ∈ unevenSupplies, ¬ u.Refused := by
    intro u hu
    simp only [unevenSupplies, List.mem_cons, List.not_mem_nil, or_false] at hu
    obtain rfl | rfl | rfl | rfl | rfl | rfl := hu
    · exact Supply.not_refused hfive five_not_writesBeyond
    · exact Supply.not_refused rfl (by rintro ⟨⟩)
    · exact Supply.not_refused hfive five_not_writesBeyond
    · exact Supply.not_refused (Sentinel.number?_value _) (Sentinel.not_writesBeyond _)
    · exact Supply.not_refused rfl (by rintro ⟨⟩)
    · exact Supply.not_refused rfl (by rintro ⟨⟩)
  have hlarge : suppliedValues uneven (.index 0) [] [.literal (.int doubleLimit)] =
      .ok [.single (.int doubleLimit)] := rfl
  have hrefused : (Supply.single (.int doubleLimit)).Refused :=
    .value (number?_int_of_beyond ((ofInt?_eq_none_iff _).2 (Nat.le_refl _)))
  have counted := fun args => evaluate_count uneven parseFormula_contained (.index 0) [] args
  refine ⟨parseFormula_contained, hsupplied, htaken, ?_, hlarge, hrefused, ?_⟩
  · rw [((counted _).2 _ hsupplied).2.1 htaken]
    cbv
  · exact ((counted _).2 _ hlarge).1 ⟨_, List.mem_cons_self, hrefused⟩

/-- A workbook of one cell that holds a boolean. -/
def onlyTrue : Environment where
  workbook := [[[{ value := .bool true }]]]
  parser := parseFormula
  today := .first

/-- A boolean is counted under a range, though no value is supplied that counts as a number and is
no boolean. A reference to its cell is not counted. -/
theorem boolean_counted_under_range :
    suppliedValues onlyTrue (.index 0) [] [.range "A1:A1" none] = .ok [.covered (.bool true)] ∧
    ([Supply.covered (.bool true)].countP fun u => u.value.isCountable) = 0 ∧
    evaluate onlyTrue (.index 0) [] (.call "COUNT" [.range "A1:A1" none]) = .ok (.int 1) ∧
    evaluate onlyTrue (.index 0) [] (.call "COUNT" [.cell "A1" none]) = .ok (.int 0) :=
  ⟨by rfl, by rfl, by rfl, by rfl⟩

end Spreadsheet
