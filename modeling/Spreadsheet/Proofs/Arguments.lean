import Mathlib
import Spreadsheet.Formula.Supply
import Spreadsheet.Proofs.Containment
import Spreadsheet.Proofs.DoubleRange
import Spreadsheet.Proofs.NotNumber

/-!
# Ranges and single cells as arguments

Under a range only the numbers reach an aggregate, while a reference to one cell passes on what it
reads, `#REF!` for a cell that is missing. For an aggregate that looks at numbers only this is the
same, because the number of a number is that number again (`number?_number?`): a range and the
references to its cells in order give the same numbers (`numbersAmong_range_iff_cells`) and may
replace one another among any other arguments (`evaluate_range_eq_cells`). The one exception is text
that writes a whole number too large for a double, which is a number in a cell but not under a range.
-/

namespace Spreadsheet

open Calendar Workbook Numeral

/-! ## Numbers are taken again -/

theorem isSome_ofInt? {n : Int} (h : n.natAbs < 2 ^ 54 - 1) : (ofInt? n).isSome = true := by
  rw [Option.isSome_iff_ne_none, Ne, ofInt?_eq_none_iff, Nat.not_le]
  exact Nat.lt_of_lt_of_le h le_doubleLimit

theorem number?_int {n : Int} (h : (ofInt? n).isSome = true) :
    (Value.int n).number? = .ok (some (.int n)) := by
  simp only [Value.number?]
  rw [if_pos h]

theorem number?_float {x : Float} (h : isNaN x = false) :
    (Value.float x).number? = .ok (some (.float x)) := by
  simp only [Value.number?, h]
  rfl

theorem isSome_ofInt?_serial (d : Date) : (ofInt? d.serial).isSome = true := by
  have hfirst := d.one_le_day
  have hlast : d.day ≤ 3652059 := d.day_le
  refine isSome_ofInt? ?_
  unfold Date.serial epochDay
  omega

/-- A double that a value counts as is a number. -/
theorem isNaN_of_number? {v : Value} {x : Float} (h : v.number? = .ok (some (.float x))) :
    isNaN x = false := by
  cases v with
  | float y =>
    simp only [Value.number?] at h
    split at h
    · cases h
    · next hy =>
      cases h
      exact Bool.eq_false_iff.2 hy
  | moment t =>
    simp only [Value.number?] at h
    split at h
    · cases h
    · obtain ⟨y, hy, hxy⟩ := Option.map_eq_some_iff.1 (Except.ok.inj h)
      cases hxy
      exact isNaN_of_serial? hy
  | text s =>
    simp only [Value.number?, Value.numberOfText] at h
    split at h
    · cases h
    · split at h
      · split at h <;> cases h
      · cases h
        exact isNaN_ofDecimal ..
  | int k =>
    simp only [Value.number?] at h
    split at h <;> cases h
  | bool _ | date _ | null | list _ | record _ => cases h

/-- The number that a value counts as counts as itself, unless it was written beyond the doubles. -/
theorem number?_number? {v : Value} {n : Number} (h : v.number? = .ok (some n))
    (hv : ¬ v.WritesBeyond) : n.toValue.number? = .ok (some n) := by
  cases n with
  | float x => exact number?_float (isNaN_of_number? h)
  | int k =>
    refine number?_int ?_
    cases v with
    | bool b =>
      cases h
      exact isSome_ofInt? (by cases b <;> decide)
    | int j =>
      simp only [Value.number?] at h
      split at h
      · next hj =>
        cases h
        exact hj
      · cases h
    | date d =>
      cases h
      exact isSome_ofInt?_serial d
    | moment t =>
      simp only [Value.number?] at h
      split at h
      · cases h
      · obtain ⟨x, -, hx⟩ := Option.map_eq_some_iff.1 (Except.ok.inj h)
        cases hx
    | text s =>
      rw [Option.isSome_iff_ne_none]
      exact fun hk => hv (.text h hk)
    | float x =>
      simp only [Value.number?] at h
      split at h <;> cases h
    | null | list _ | record _ => cases h

theorem Value.WritesBeyond.exists_number? {v : Value} (h : v.WritesBeyond) :
    ∃ n, v.number? = .ok (some (.int n)) ∧ ofInt? n = none := by
  obtain ⟨h, hn⟩ := h
  exact ⟨_, h, hn⟩

theorem Sentinel.not_writesBeyond (k : Sentinel) : ¬ k.value.WritesBeyond := by
  intro h
  obtain ⟨n, hn, -⟩ := h.exists_number?
  rw [k.number?_value] at hn
  cases hn

/-! ## Numbers of lists -/

theorem numbersOf_cons_eq_ok {v : Value} {rest : List Value} {ns : List Number} :
    numbersOf (v :: rest) = .ok ns ↔
      ∃ n ms, v.number? = .ok n ∧ numbersOf rest = .ok ms ∧ ns = n.toList ++ ms := by
  rw [numbersOf, bind_eq_ok_iff]
  constructor
  · rintro ⟨n, hn, h⟩
    cases n with
    | none => exact ⟨none, ns, hn, h, rfl⟩
    | some n =>
      obtain ⟨ms, hms, h⟩ := exists_of_bind h
      cases h
      exact ⟨some n, ms, hn, hms, rfl⟩
  · rintro ⟨n, ms, hn, hms, rfl⟩
    refine ⟨n, hn, ?_⟩
    cases n with
    | none => exact hms
    | some n =>
      dsimp only
      rw [hms]
      rfl

theorem numbersOf_append_eq_ok {vs ws : List Value} {ns : List Number} :
    numbersOf (vs ++ ws) = .ok ns ↔
      ∃ a b, numbersOf vs = .ok a ∧ numbersOf ws = .ok b ∧ ns = a ++ b := by
  refine append_eq_ok_of_cons (f := numbersOf) (P := fun v a => ∃ n, v.number? = .ok n ∧
    n.toList = a) List.append_assoc List.nil_append rfl fun v rest ns => ?_
  rw [numbersOf_cons_eq_ok]
  constructor
  · rintro ⟨n, ms, hn, hms, rfl⟩
    exact ⟨_, ms, ⟨n, hn, rfl⟩, hms, rfl⟩
  · rintro ⟨_, ms, ⟨n, hn, rfl⟩, hms, rfl⟩
    exact ⟨n, ms, hn, hms, rfl⟩

/-- Numbers that were taken of values are taken unchanged. -/
theorem numbersOf_map_toValue {vs : List Value} {ns : List Number} (h : numbersOf vs = .ok ns)
    (hvs : ∀ v ∈ vs, ¬ v.WritesBeyond) : numbersOf (ns.map Number.toValue) = .ok ns := by
  induction vs generalizing ns with
  | nil =>
    cases h
    rfl
  | cons v rest ih =>
    obtain ⟨n, ms, hn, hms, rfl⟩ := numbersOf_cons_eq_ok.1 h
    have hrest := ih hms fun u hu => hvs u (List.mem_cons_of_mem _ hu)
    cases n with
    | none => exact hrest
    | some n =>
      refine numbersOf_cons_eq_ok.2 ⟨some n, ms, ?_, hrest, rfl⟩
      exact number?_number? hn (hvs v List.mem_cons_self)

/-! ## Numbers under a range -/

theorem readNumbers_eq_ok {reads : List (Except Fault Value)} {ns : List Number} :
    readNumbers reads = .ok ns ↔
      ∃ vs, reads.mapM (fun read => read) = .ok vs ∧ numbersOf vs = .ok ns := by
  induction reads generalizing ns with
  | nil =>
    constructor
    · exact fun h => ⟨[], rfl, h⟩
    · rintro ⟨vs, hvs, h⟩
      cases hvs
      exact h
  | cons read rest ih =>
    rw [List.mapM_cons]
    unfold readNumbers
    simp only [ofExcept_except]
    constructor
    · intro h
      obtain ⟨v, hv, h⟩ := exists_of_bind h
      obtain ⟨n, hn, h⟩ := exists_of_bind h
      obtain ⟨ms, hms, h⟩ := exists_of_bind h
      obtain ⟨vs, hvs, hnumbers⟩ := ih.1 hms
      cases h
      refine ⟨v :: vs, ?_, numbersOf_cons_eq_ok.2 ⟨n, ms, hn, hnumbers, rfl⟩⟩
      rw [hv, hvs]
      rfl
    · rintro ⟨us, hus, hnumbers⟩
      obtain ⟨v, hv, hus⟩ := exists_of_bind hus
      obtain ⟨vs, hvs, hus⟩ := exists_of_bind hus
      cases hus
      obtain ⟨n, ms, hn, hms, rfl⟩ := numbersOf_cons_eq_ok.1 hnumbers
      rw [hv]
      dsimp only [bind, Except.bind]
      rw [hn, ih.2 ⟨vs, hvs, hms⟩]
      rfl

/-- A range gives the numbers among the values of the cells that it covers. -/
theorem Source.rangeNumbers_eq_ok {s : Source (Except Fault)} {table : TableId} {range : String}
    {ns : List Number} :
    (∃ numbers, s.rangeNumbers table range = .ok numbers ∧ numbers.getD [] = ns) ↔
      ∃ vs, s.coveredValues table range = .ok vs ∧ numbersOf vs = .ok ns := by
  unfold rangeNumbers coveredValues
  have empty : (∃ numbers : Option (List Number), Except.ok none = (.ok numbers : Except Fault _) ∧
      numbers.getD [] = ns) ↔
      ∃ vs, (.ok [] : Except Fault (List Value)) = .ok vs ∧ numbersOf vs = .ok ns := by
    constructor
    · rintro ⟨numbers, h, rfl⟩
      cases h
      exact ⟨[], rfl, rfl⟩
    · rintro ⟨vs, h, hnumbers⟩
      cases h
      cases hnumbers
      exact ⟨none, rfl, rfl⟩
  cases s.tableIndex? table with
  | none => exact empty
  | some k =>
    dsimp only
    simp only [ofExcept_except]
    cases Reference.expand range with
    | error f =>
      constructor
      · rintro ⟨numbers, h, -⟩
        cases h
      · rintro ⟨vs, h, -⟩
        cases h
    | ok covered =>
      dsimp only [bind, Except.bind]
      cases covered with
      | none => exact empty
      | some positions =>
        dsimp only
        rw [← readNumbers_eq_ok]
        constructor
        · rintro ⟨numbers, h, rfl⟩
          obtain ⟨ns, hns, h⟩ := exists_of_bind h
          cases h
          exact hns
        · intro h
          rw [h]
          exact ⟨some ns, rfl, rfl⟩

/-! ## Numbers among arguments -/

namespace Expr

variable {s : Source (Except Fault)} {today : Date} {table : TableId}

theorem flatValues_cons (e : Expr) (rest : List Expr) :
    flatValues s today table (e :: rest) = do
      let vs ← flatValues s today table [e]
      return vs ++ (← flatValues s today table rest) := by
  cases e <;> simp only [flatValues, bind_assoc, pure_bind, List.append_nil]

theorem numbersAmong_cons_eq_ok {e : Expr} {rest : List Expr} {ns : List Number} :
    numbersAmong s today table (e :: rest) = .ok ns ↔
      ∃ a b, numbersAmong s today table [e] = .ok a ∧ numbersAmong s today table rest = .ok b ∧
        ns = a ++ b := by
  unfold numbersAmong
  rw [flatValues_cons]
  constructor
  · intro h
    obtain ⟨vs, hvs, hns⟩ := exists_of_bind h
    obtain ⟨us, hus, hvs⟩ := exists_of_bind hvs
    obtain ⟨ws, hws, hvs⟩ := exists_of_bind hvs
    cases hvs
    obtain ⟨a, b, ha, hb, rfl⟩ := numbersOf_append_eq_ok.1 hns
    exact ⟨a, b, bind_eq_ok_iff.2 ⟨us, hus, ha⟩, bind_eq_ok_iff.2 ⟨ws, hws, hb⟩, rfl⟩
  · rintro ⟨a, b, ha, hb, rfl⟩
    obtain ⟨us, hus, ha⟩ := exists_of_bind ha
    obtain ⟨ws, hws, hb⟩ := exists_of_bind hb
    rw [hus, hws]
    exact numbersOf_append_eq_ok.2 ⟨a, b, ha, hb, rfl⟩

theorem numbersAmong_append_eq_ok {xs ys : List Expr} {ns : List Number} :
    numbersAmong s today table (xs ++ ys) = .ok ns ↔ ∃ a b, numbersAmong s today table xs = .ok a ∧
      numbersAmong s today table ys = .ok b ∧ ns = a ++ b :=
  append_eq_ok_of_cons (f := numbersAmong s today table) List.append_assoc List.nil_append rfl
    fun _ _ _ => numbersAmong_cons_eq_ok

/-- A reference to a cell gives the number of what it reads. -/
theorem numbersAmong_cell_eq_ok {reference : String} {named : Option TableId} {ns : List Number} :
    numbersAmong s today table [.cell reference named] = .ok ns ↔
      ∃ v n, s.cellValue (named.getD table) reference = .ok v ∧ v.number? = .ok n ∧
        ns = n.toList := by
  unfold numbersAmong
  constructor
  · intro h
    simp only [flatValues, bind_assoc, pure_bind, List.append_nil] at h
    obtain ⟨v, hv, h⟩ := exists_of_bind h
    obtain ⟨n, ms, hn, hms, rfl⟩ := numbersOf_cons_eq_ok.1 h
    cases hms
    exact ⟨v, n, hv, hn, List.append_nil _⟩
  · rintro ⟨v, n, hv, hn, rfl⟩
    simp only [flatValues, bind_assoc, pure_bind, List.append_nil]
    rw [hv]
    exact numbersOf_cons_eq_ok.2 ⟨n, [], hn, rfl, (List.append_nil _).symm⟩

/-- A range gives the numbers among the values of its cells, where none of these is written beyond
the doubles. -/
theorem numbersAmong_range_eq_ok {range : String} {named : Option TableId} {ns : List Number}
    (hvalues : ∀ vs, s.coveredValues (named.getD table) range = .ok vs →
      ∀ v ∈ vs, ¬ v.WritesBeyond) :
    numbersAmong s today table [.range range named] = .ok ns ↔
      ∃ vs, s.coveredValues (named.getD table) range = .ok vs ∧ numbersOf vs = .ok ns := by
  unfold numbersAmong
  simp only [flatValues, bind_assoc, pure_bind, List.append_nil]
  constructor
  · intro h
    obtain ⟨numbers, hnumbers, h⟩ := exists_of_bind h
    obtain ⟨vs, hvs, hns⟩ := Source.rangeNumbers_eq_ok.1 ⟨numbers, hnumbers, rfl⟩
    refine ⟨vs, hvs, ?_⟩
    rw [numbersOf_map_toValue hns (hvalues vs hvs)] at h
    cases h
    exact hns
  · rintro ⟨vs, hvs, hns⟩
    obtain ⟨numbers, hnumbers, rfl⟩ := Source.rangeNumbers_eq_ok.2 ⟨vs, hvs, hns⟩
    rw [hnumbers]
    exact numbersOf_map_toValue hns (hvalues vs hvs)

/-- References to the cells at some positions give the numbers among the values that are read
there. A missing cell gives `#REF!`, which is no number. -/
theorem numbersAmong_cells_eq_ok {references : List String} {positions : List (Nat × Nat)}
    {named : Option TableId} {k : Nat} {ns : List Number}
    (hk : s.tableIndex? (named.getD table) = some k)
    (h : List.Forall₂ Reference.Names references positions) :
    numbersAmong s today table (references.map fun r => .cell r named) = .ok ns ↔
      ∃ vs, ((positions.filterMap fun p => s.read? k p.1 p.2).mapM fun read => read) = .ok vs ∧
        numbersOf vs = .ok ns := by
  induction h generalizing ns with
  | nil =>
    constructor
    · exact fun h => ⟨[], rfl, h⟩
    · rintro ⟨vs, hvs, hns⟩
      cases hvs
      exact hns
  | @cons reference position references positions hnames _ ih =>
    obtain ⟨at_, hat, rfl⟩ := hnames
    rw [List.map_cons, numbersAmong_cons_eq_ok, List.filterMap_cons]
    simp only [numbersAmong_cell_eq_ok]
    cases hread : s.read? k at_.row at_.col with
    | none =>
      rw [Source.cellValue_of_no_cell hk hat hread, ← ih]
      constructor
      · rintro ⟨a, b, ⟨v, n, hv, hn, rfl⟩, hb, rfl⟩
        cases hv
        rw [Sentinel.number?_value] at hn
        cases hn
        exact hb
      · exact fun h => ⟨[], ns, ⟨_, none, rfl, Sentinel.number?_value _, rfl⟩, h, rfl⟩
    | some x =>
      rw [Source.cellValue_of_read? hk hat hread]
      dsimp only
      rw [List.mapM_cons]
      constructor
      · rintro ⟨a, b, ⟨v, n, rfl, hn, rfl⟩, hb, rfl⟩
        obtain ⟨vs, hvs, hns⟩ := ih.1 hb
        refine ⟨v :: vs, ?_, numbersOf_cons_eq_ok.2 ⟨n, b, hn, hns, rfl⟩⟩
        rw [hvs]
        rfl
      · rintro ⟨us, hus, hns⟩
        obtain ⟨v, hv, hus⟩ := exists_of_bind hus
        obtain ⟨vs, hvs, hus⟩ := exists_of_bind hus
        cases hus
        obtain ⟨n, ms, hn, hms, rfl⟩ := numbersOf_cons_eq_ok.1 hns
        exact ⟨_, ms, ⟨v, n, hv, hn, rfl⟩, ih.2 ⟨vs, hvs, hms⟩, rfl⟩

/-- References into a table that is missing give no numbers. -/
theorem numbersAmong_cells_of_no_table {references : List String} {named : Option TableId}
    (hk : s.tableIndex? (named.getD table) = none) :
    numbersAmong s today table (references.map fun r => .cell r named) = .ok [] := by
  induction references with
  | nil => rfl
  | cons reference rest ih =>
    refine numbersAmong_cons_eq_ok.2 ⟨[], [], numbersAmong_cell_eq_ok.2 ?_, ih, rfl⟩
    exact ⟨_, none, Source.cellValue_of_no_table hk, Sentinel.number?_value _, rfl⟩

/-- A range and the references to its cells give the same numbers. -/
theorem numbersAmong_range_iff_cells {range : String} {named : Option TableId}
    {positions : List (Nat × Nat)} {references : List String} {ns : List Number}
    (hrange : Reference.expand range = .ok (some positions))
    (hreferences : List.Forall₂ Reference.Names references positions)
    (hvalues : ∀ vs, s.coveredValues (named.getD table) range = .ok vs →
      ∀ v ∈ vs, ¬ v.WritesBeyond) :
    numbersAmong s today table [.range range named] = .ok ns ↔
      numbersAmong s today table (references.map fun r => .cell r named) = .ok ns := by
  rw [numbersAmong_range_eq_ok hvalues]
  unfold Source.coveredValues
  cases hk : s.tableIndex? (named.getD table) with
  | none =>
    rw [numbersAmong_cells_of_no_table hk]
    constructor
    · rintro ⟨vs, hvs, hns⟩
      cases hvs
      exact hns
    · exact fun h => ⟨[], rfl, h⟩
  | some k =>
    rw [numbersAmong_cells_eq_ok hk hreferences, hrange]
    rfl

/-! ## Calls of aggregates -/

/-- Arguments that give the same numbers do so among any others. -/
theorem numbersAmong_congr {xs ys : List Expr} (before after : List Expr)
    (h : ∀ ns, numbersAmong s today table xs = .ok ns ↔ numbersAmong s today table ys = .ok ns)
    (ns : List Number) :
    numbersAmong s today table (before ++ (xs ++ after)) = .ok ns ↔
      numbersAmong s today table (before ++ (ys ++ after)) = .ok ns := by
  simp only [numbersAmong_append_eq_ok, h]

theorem value_aggregate {name : String} {f : Aggregate} {args : List Expr}
    (hname : Function.find name = .ok (.aggregate f)) :
    (Expr.call name args).value s today table =
      contain (flatValues s today table args >>= f.apply) := by
  unfold value
  simp only [hname, ofExcept_except]
  rfl

end Expr

/-- Computations that stop at contained faults only and have the same results are the same once
their faults are made errors. -/
theorem contain_congr {x y : Except Fault Value} (hx : Contained x) (hy : Contained y)
    (h : ∀ v, x = .ok v ↔ y = .ok v) : contain x = contain y := by
  cases x with
  | ok v => rw [(h v).1 rfl]
  | error f =>
    cases y with
    | ok w => exact absurd ((h w).2 rfl) (by rintro ⟨⟩)
    | error g => rw [contain_error (hx f rfl), contain_error (hy g rfl)]

/-- Every aggregate but the count looks at the numbers among its values only. -/
theorem Aggregate.exists_apply_eq {f : Aggregate} (hf : f ≠ .count) :
    ∃ g : List Number → Except Fault Value, ∀ vs, f.apply vs = numbersOf vs >>= g := by
  cases f with
  | sum => exact ⟨fun ns => do return (← total ns).toValue, fun _ => rfl⟩
  | average => exact ⟨fun ns => do return (← mean ns).toValue, fun _ => rfl⟩
  | count => exact absurd rfl hf
  | max => exact ⟨fun ns => return numberOrError (greatest ns), fun _ => rfl⟩
  | min => exact ⟨fun ns => return numberOrError (least ns), fun _ => rfl⟩

/-- Arguments with the same numbers are the same to every aggregate but the count. -/
theorem Expr.value_aggregate_congr {s : Source (Except Fault)} (hs : s.Answers) (today : Date)
    (table : TableId) {name : String} {f : Aggregate} {xs ys : List Expr}
    (hname : Function.find name = .ok (.aggregate f)) (hf : f ≠ .count)
    (h : ∀ ns, numbersAmong s today table xs = .ok ns ↔ numbersAmong s today table ys = .ok ns) :
    (Expr.call name xs).value s today table = (Expr.call name ys).value s today table := by
  obtain ⟨g, hg⟩ := Aggregate.exists_apply_eq hf
  have contained : ∀ args, Contained (flatValues s today table args >>= f.apply) := fun args =>
    (flatValues_contained today table hs args).bind fun vs => f.apply_contained vs
  have through : ∀ args, (flatValues s today table args >>= f.apply) =
      numbersAmong s today table args >>= g := by
    intro args
    unfold numbersAmong
    rw [bind_assoc]
    exact congrArg _ (funext hg)
  rw [value_aggregate hname, value_aggregate hname]
  refine contain_congr (contained xs) (contained ys) fun v => ?_
  rw [through xs, through ys, bind_eq_ok_iff, bind_eq_ok_iff]
  simp only [h]

/-- What some computations return, one of them returns. -/
theorem mem_of_mapM_eq_ok {reads : List (Except Fault Value)} {vs : List Value} {v : Value}
    (h : reads.mapM (fun read => read) = .ok vs) (hv : v ∈ vs) : .ok v ∈ reads := by
  induction reads generalizing vs with
  | nil =>
    cases h
    cases hv
  | cons read rest ih =>
    rw [List.mapM_cons] at h
    obtain ⟨u, hu, h⟩ := exists_of_bind h
    obtain ⟨us, hus, h⟩ := exists_of_bind h
    cases h
    rcases List.mem_cons.1 hv with rfl | hv
    · exact hu ▸ List.mem_cons_self
    · exact List.mem_cons_of_mem _ (ih hus hv)

theorem exists_left_of_mem {α β : Type} {R : α → β → Prop} {as : List α} {bs : List β} {b : β}
    (h : List.Forall₂ R as bs) (hb : b ∈ bs) : ∃ a ∈ as, R a b := by
  induction h with
  | nil => cases hb
  | cons hab _ ih =>
    rcases List.mem_cons.1 hb with rfl | hb
    · exact ⟨_, List.mem_cons_self, hab⟩
    · obtain ⟨a, ha, hab⟩ := ih hb
      exact ⟨a, List.mem_cons_of_mem _ ha, hab⟩

/-- What a range covers is what references to its cells evaluate to. -/
theorem Environment.exists_of_mem_coveredValues (env : Environment) {table : TableId}
    {p : Progress} {range : String} {named : Option TableId} {positions : List (Nat × Nat)}
    {references : List String} {vs : List Value} {v : Value}
    (hrange : Reference.expand range = .ok (some positions))
    (hreferences : List.Forall₂ Reference.Names references positions)
    (hvs : (env.source p).coveredValues (named.getD table) range = .ok vs) (hv : v ∈ vs) :
    ∃ reference ∈ references, evaluate env table p (.cell reference named) = .ok v := by
  unfold Source.coveredValues at hvs
  cases hk : (env.source p).tableIndex? (named.getD table) with
  | none =>
    rw [hk] at hvs
    cases hvs
    cases hv
  | some k =>
    rw [hk, hrange] at hvs
    have hread := mem_of_mapM_eq_ok hvs hv
    obtain ⟨position, hposition, hread⟩ := List.mem_filterMap.1 hread
    obtain ⟨reference, hreference, at_, hat, rfl⟩ := exists_left_of_mem hreferences hposition
    refine ⟨reference, hreference, ?_⟩
    show (Expr.cell reference named).value (env.source p) env.today table = .ok v
    unfold Expr.value
    dsimp only
    rw [Source.cellValue_of_read? hk hat hread]
    rfl

/-- **A range is the list of its cells.** To `SUM`, `AVERAGE`, `MAX` and `MIN` a range among any
other arguments is what the references to its cells are, row by row and into the same table, over
every workbook and with any formulas in progress: whether the table or some cells are missing, and
whatever the cells hold or evaluate to, except text that writes a whole number too large for a
double. -/
theorem evaluate_range_eq_cells (env : Environment)
    (hparser : ∀ text, Contained (env.parser text)) (table : TableId) (p : Progress)
    {range : String} {named : Option TableId} {positions : List (Nat × Nat)}
    {references : List String} (hrange : Reference.expand range = .ok (some positions))
    (hreferences : List.Forall₂ Reference.Names references positions)
    (hvalues : ∀ reference ∈ references, ∀ v,
      evaluate env table p (.cell reference named) = .ok v → ¬ v.WritesBeyond)
    (before after : List Expr) {name : String} (hname : name ∈ ["SUM", "AVERAGE", "MAX", "MIN"]) :
    evaluate env table p (.call name (before ++ .range range named :: after)) =
      evaluate env table p
        (.call name (before ++ (references.map fun r => .cell r named) ++ after)) := by
  obtain ⟨f, hfind, hf⟩ : ∃ f, Function.find name = .ok (.aggregate f) ∧ f ≠ .count := by
    simp only [List.mem_cons, List.not_mem_nil, or_false] at hname
    obtain rfl | rfl | rfl | rfl := hname
    · exact ⟨.sum, rfl, by decide⟩
    · exact ⟨.average, rfl, by decide⟩
    · exact ⟨.max, rfl, by decide⟩
    · exact ⟨.min, rfl, by decide⟩
  have hcovered : ∀ vs, (env.source p).coveredValues (named.getD table) range = .ok vs →
      ∀ v ∈ vs, ¬ v.WritesBeyond := by
    intro vs hvs v hv
    obtain ⟨reference, hmem, hvalue⟩ :=
      env.exists_of_mem_coveredValues hrange hreferences hvs hv
    exact hvalues reference hmem v hvalue
  rw [List.append_assoc]
  have same : ∀ ns, Expr.numbersAmong (env.source p) env.today table [.range range named] = .ok ns ↔
      Expr.numbersAmong (env.source p) env.today table
        (references.map fun r => .cell r named) = .ok ns :=
    fun ns => Expr.numbersAmong_range_iff_cells hrange hreferences hcovered
  exact Expr.value_aggregate_congr (Environment.source_answers hparser p) env.today table hfind hf
    (Expr.numbersAmong_congr before after same)

/-! ## Rows of different lengths -/

/-- Rows with text, a truth value, a date and two formulas, of which the second refers to itself. -/
def uneven : Environment where
  workbook :=
    [[[{ value := .text "5" }, { value := .bool true }],
      [{ value := .text "=A1" }],
      [{ value := .text "=A3" }, { value := .date .first }]]]
  parser := parseFormula
  today := .first

theorem five_not_writesBeyond : ¬ (Value.text "5").WritesBeyond := by
  intro h
  obtain ⟨n, hn, hbig⟩ := h.exists_number?
  rw [show (Value.text "5").number? = .ok (some (.int 5)) by cbv] at hn
  cases hn
  exact Option.isSome_iff_ne_none.1 (isSome_ofInt? (by decide)) hbig

/-- The cells of a range with a hole, a circular reference and a number that is text. -/
theorem uneven_average :
    Reference.expand "A1:B3" = .ok (some [(0, 0), (0, 1), (1, 0), (1, 1), (2, 0), (2, 1)]) ∧
    List.Forall₂ Reference.Names ["A1", "B1", "A2", "B2", "A3", "B3"]
      [(0, 0), (0, 1), (1, 0), (1, 1), (2, 0), (2, 1)] ∧
    (∀ reference ∈ ["A1", "B1", "A2", "B2", "A3", "B3"], ∀ v,
      evaluate uneven (.index 0) ["0:=B7"] (.cell reference none) = .ok v → ¬ v.WritesBeyond) ∧
    "AVERAGE" ∈ ["SUM", "AVERAGE", "MAX", "MIN"] ∧
    evaluate uneven (.index 0) ["0:=B7"]
        (.call "AVERAGE" [.cell "C1" none, .range "A1:B3" none, .literal (.int 1)]) =
      evaluate uneven (.index 0) ["0:=B7"]
        (.call "AVERAGE" [.cell "C1" none, .cell "A1" none, .cell "B1" none, .cell "A2" none,
          .cell "B2" none, .cell "A3" none, .cell "B3" none, .literal (.int 1)]) := by
  have hrange : Reference.expand "A1:B3" =
      .ok (some [(0, 0), (0, 1), (1, 0), (1, 1), (2, 0), (2, 1)]) := rfl
  have hreferences : List.Forall₂ Reference.Names ["A1", "B1", "A2", "B2", "A3", "B3"]
      [(0, 0), (0, 1), (1, 0), (1, 1), (2, 0), (2, 1)] := by
    repeat' constructor
  have hvalues : ∀ reference ∈ ["A1", "B1", "A2", "B2", "A3", "B3"], ∀ v,
      evaluate uneven (.index 0) ["0:=B7"] (.cell reference none) = .ok v → ¬ v.WritesBeyond := by
    have read : ∀ reference v w, evaluate uneven (.index 0) ["0:=B7"] (.cell reference none) =
        .ok w → evaluate uneven (.index 0) ["0:=B7"] (.cell reference none) = .ok v → v = w :=
      fun reference v w hw hv => Except.ok.inj (hv.symm.trans hw)
    intro reference hmem v hv hbeyond
    simp only [List.mem_cons, List.not_mem_nil, or_false] at hmem
    obtain rfl | rfl | rfl | rfl | rfl | rfl := hmem
    · rw [read _ _ (.text "5") (by cbv) hv] at hbeyond
      exact five_not_writesBeyond hbeyond
    · rw [read _ _ (.bool true) (by cbv) hv] at hbeyond
      cases hbeyond
    · rw [read _ _ (.text "5") (by cbv) hv] at hbeyond
      exact five_not_writesBeyond hbeyond
    · rw [read _ _ Sentinel.reference.value (by cbv) hv] at hbeyond
      exact Sentinel.reference.not_writesBeyond hbeyond
    · rw [read _ _ Sentinel.circular.value (by cbv) hv] at hbeyond
      exact Sentinel.circular.not_writesBeyond hbeyond
    · rw [read _ _ (.date .first) (by cbv) hv] at hbeyond
      cases hbeyond
  refine ⟨hrange, hreferences, hvalues, by decide, ?_⟩
  exact evaluate_range_eq_cells uneven parseFormula_contained (.index 0) ["0:=B7"] hrange
    hreferences hvalues [.cell "C1" none] [.literal (.int 1)] (by decide)

end Spreadsheet
