import Spreadsheet.Proofs.Containment
import Spreadsheet.Proofs.Idempotence
import Spreadsheet.Proofs.Refusal
import Spreadsheet.Workbook.Refusal
import Spreadsheet.Workbook.Shape

/-!
# When a pass completes

A pass resolves a cell in steps, and each step fails for its own causes: the value of the formula
(`stored_faulty`), its scaling (`scaled_faulty`), its display (`shown_faulty`) and its place in the
listing (`listable_iff`). So a cell is resolved and listed exactly if the pass has no cause to
refuse it (`not_refuses_iff`). From cell to cell this says when a pass completes, and what it leaves
behind where it does not (`resolve_completes`).
-/

namespace Spreadsheet

open Numeral Workbook

/-! ## The value of a formula -/

theorem formulaKey_faulty (n : Nat) (text : String) :
    Faulty (formulaKey (.index n) text) ↔ maxDigits < (digitsOf n).length :=
  (Faulty.bind_ok_iff fun _ => Faulty.pure_iff _).trans (integerText_faulty n)

/-- With a parser whose faults are contained, only the key of a formula can keep it from a value. -/
theorem evaluateFormula_faulty {env : Environment} (hparser : ∀ text, Contained (env.parser text))
    {content : Value} {text : String} (ht : content.formula? = some text) (n : Nat) (p : Progress) :
    Faulty (evaluateFormula env content (.index n) p) ↔ maxDigits < (digitsOf n).length := by
  unfold evaluateFormula
  rw [ht, ← formulaKey_faulty n text]
  refine Faulty.bind_ok_iff fun key => ?_
  split
  · exact Faulty.ok_iff _
  · have hvalue := Environment.exists_enter_eq_ok hparser
      (Environment.source_answers hparser (key :: p)) (.index n) text
    exact iff_false_intro (Faulty.not_iff.2 hvalue)

theorem Value.numberForText_faulty (v : Value) :
    Faulty v.numberForText ↔ ∃ s, v = .text s ∧ LongNumeral s := by
  cases v with
  | text s =>
    have hread : Faulty (Value.text s).numberForText ↔ LongNumeral s := by
      refine (Faulty.bind_ok_iff fun n => ?_).trans (numberOfText_faulty s)
      cases n <;> exact Faulty.ok_iff _
    rw [hread]
    exact ⟨fun h => ⟨s, rfl, h⟩, fun ⟨_, hs, h⟩ => by cases hs; exact h⟩
  | _ => exact iff_of_false ((Faulty.ok_iff _).1) (by rintro ⟨s, ⟨⟩, -⟩)

/-! ## Listing a cell -/

namespace Cell

theorem extraText_iff (current : Option String) {extra : Option Value} :
    (∃ s, (extra.map Value.asOptionalText).getD (.ok current) = .ok s) ↔
      ¬ ∃ v, extra = some v ∧ v ≠ .null ∧ ∀ s, v ≠ .text s := by
  cases extra with
  | none => simp
  | some v => cases v <;> simp [Value.asOptionalText]

/-- A cell is listed unless it has a formula and an extra that does not fit. -/
theorem listable_iff (c : Cell) (p : Nat × Nat × Nat) :
    c.Listable p ↔ c.value.formula? = none ∨ ¬ c.Unlistable := by
  unfold Listable
  refine or_congr_right ?_
  have hnames : ¬ c.Unlistable ↔ ∀ name ∈ ["excel_format", "display_value", "text_color"], ¬ ∃ v,
      FormulaCell.extra? c name = some v ∧ v ≠ .null ∧ ∀ s, v ≠ .text s := by
    unfold Unlistable
    push Not
    rfl
  rw [hnames]
  simp only [List.forall_mem_cons]
  rw [← extraText_iff c.format, ← extraText_iff c.displayValue, ← extraText_iff c.textColor]
  unfold FormulaCell.ofCell
  dsimp only
  generalize ((FormulaCell.extra? c "excel_format").map Value.asOptionalText).getD _ = format
  generalize ((FormulaCell.extra? c "display_value").map Value.asOptionalText).getD _ = shown
  generalize ((FormulaCell.extra? c "text_color").map Value.asOptionalText).getD _ = color
  cases format <;> cases shown <;> cases color <;> simp

end Cell

/-! ## One cell -/

namespace Resolver

variable {r : Resolver} {w : Workbook} {p : Nat × Nat × Nat} {c : Cell}

theorem stored_faulty (r : Resolver) (w : Workbook) (n : Nat) (c : Cell) :
    Faulty (r.stored w n c) ↔ ∃ text, c.value.formula? = some text ∧
      (maxDigits < (digitsOf n).length ∨ ∃ s,
        evaluateFormula (r.environment w) c.value (.index n) [] = .ok (.text s) ∧
        Value.LongNumeral s) := by
  unfold stored
  cases ht : c.value.formula? with
  | none => simp
  | some text =>
    simp only [Option.some.injEq, exists_eq_left']
    rw [Faulty.bind_iff, evaluateFormula_faulty parseFormula_contained ht]
    refine or_congr_right ⟨?_, ?_⟩
    · rintro ⟨v, hv, hread⟩
      obtain ⟨s, rfl, hlong⟩ := v.numberForText_faulty.1 hread
      exact ⟨s, hv, hlong⟩
    · rintro ⟨s, hv, hlong⟩
      exact ⟨_, hv, (Value.numberForText_faulty _).2 ⟨s, rfl, hlong⟩⟩

theorem scaled_faulty (r : Resolver) (format : Option String) (v : Value) :
    Faulty (r.scaled format v) ↔ r.scaling = true ∧ isPercent format = true ∧
      ∃ n, v = .int n ∧ doubleLimit * 100 ≤ n.natAbs := by
  unfold scaled
  dsimp only
  split
  · next h =>
    rw [Bool.and_eq_true] at h
    rw [and_iff_right h.1, and_iff_right h.2]
    have divided : ∀ x : Number, Faulty (x.div (.int 100) >>= fun y => pure y.toValue) ↔
        ∃ n, x = .int n ∧ doubleLimit * 100 ≤ n.natAbs := fun x =>
      (Faulty.bind_ok_iff fun _ => Faulty.pure_iff _).trans x.div_hundred_faulty
    cases v with
    | int n => simpa using divided (.int n)
    | float x => simpa using divided (.float x)
    | _ => exact iff_of_false ((Faulty.ok_iff _).1) (by rintro ⟨n, ⟨⟩, -⟩)
  · next h =>
    rw [Bool.and_eq_true] at h
    exact iff_of_false ((Faulty.ok_iff _).1) fun hcause => h ⟨hcause.1, hcause.2.1⟩

theorem shown_faulty (hr : r.formatter = standardFormatter) (format : Option String) (v : Value) :
    Faulty (r.shown format v) ↔ Format.Unshowable v format := by
  rw [← Format.display_faulty_iff]
  by_cases hempty : format = none ∨ format = some ""
  · rw [r.shown_of_no_format hempty]
    rcases hempty with rfl | rfl <;> rfl
  · obtain ⟨format, rfl⟩ := Option.ne_none_iff_exists'.1 fun h => hempty (.inl h)
    rw [r.shown_of_format fun h => hempty (.inr (congrArg some h)), hr]
    exact Faulty.bind_ok_iff fun _ => Faulty.pure_iff _

/-- What a cell shows is its own value, or comes from the one that it stores for its formula. -/
theorem exists_shows_iff {n : Nat} {v : Value} (hv : r.stored w n c = .ok v) {P : Value → Prop} :
    (∃ x, r.Shows w n c x ∧ P x) ↔ (c.value.formula? = none ∧ P c.value) ∨
      ∃ text, c.value.formula? = some text ∧ ∃ x, r.scaled c.format v = .ok x ∧ P x := by
  constructor
  · rintro ⟨x, hx, hP⟩
    cases hx with
    | plain ht => exact .inl ⟨ht, hP⟩
    | result ht hv' hscaled =>
      cases hv.symm.trans hv'
      exact .inr ⟨_, ht, x, hscaled, hP⟩
  · rintro (⟨ht, hP⟩ | ⟨text, ht, x, hscaled, hP⟩)
    · exact ⟨_, .plain ht, hP⟩
    · exact ⟨x, .result ht hv hscaled, hP⟩

/-- A stored value that cannot be presented is one that a formula has and that cannot be scaled, or
one that cannot be shown. -/
theorem presented_faulty (hr : r.formatter = standardFormatter) {n : Nat} {v : Value}
    (hv : r.stored w n c = .ok v) : Faulty (r.presented (store c v)) ↔
      (∃ text, c.value.formula? = some text ∧ Faulty (r.scaled c.format v)) ∨
        ∃ x, r.Shows w n c x ∧ Format.Unshowable x c.format := by
  rw [exists_shows_iff hv]
  unfold presented
  rw [show (store c v).value = c.value from rfl, show (store c v).format = c.format from rfl,
    show (store c v).resolvedValue = v from rfl]
  cases ht : c.value.formula? with
  | none =>
    unfold stored at hv
    rw [ht] at hv
    cases hv
    simpa using shown_faulty hr c.format c.value
  | some text =>
    simp only [shown_faulty hr, Faulty.bind_iff, reduceCtorEq, false_and, false_or,
      Option.some.injEq, exists_eq_left']

/-- The causes to refuse a cell, in the order in which a pass comes to them. -/
theorem refuses_iff (hr : r.formatter = standardFormatter) : r.Refuses w p c ↔
    Faulty (r.stored w p.1 c) ∨ ∃ v, r.stored w p.1 c = .ok v ∧
      (Faulty (r.presented (store c v)) ∨ ¬ c.Listable p) := by
  have hlisting : ¬ c.Listable p ↔ ∃ text, c.value.formula? = some text ∧ c.Unlistable := by
    rw [c.listable_iff, not_or, not_not, ← Ne, Option.ne_none_iff_exists', exists_and_right]
  rw [hlisting, stored_faulty]
  constructor
  · intro h
    by_cases hstored : Faulty (r.stored w p.1 c)
    · exact .inl ((stored_faulty ..).1 hstored)
    obtain ⟨v, hv⟩ := Faulty.not_iff.1 hstored
    have unstored := mt (stored_faulty ..).2 hstored
    cases h with
    | key ht hkey => exact absurd ⟨_, ht, .inl hkey⟩ unstored
    | numeral ht hvalue hlong => exact absurd ⟨_, ht, .inr ⟨_, hvalue, hlong⟩⟩ unstored
    | percent ht hvalue hscaling hpercent hlimit =>
      refine .inr ⟨v, hv, .inl ((presented_faulty hr hv).2 (.inl ⟨_, ht, ?_⟩))⟩
      cases hv.symm.trans hvalue
      exact (r.scaled_faulty ..).2 ⟨hscaling, hpercent, _, rfl, hlimit⟩
    | display hx hbad =>
      exact .inr ⟨v, hv, .inl ((presented_faulty hr hv).2 (.inr ⟨_, hx, hbad⟩))⟩
    | listing ht hbad => exact .inr ⟨v, hv, .inr ⟨_, ht, hbad⟩⟩
  · rintro (⟨text, ht, hkey | ⟨s, hvalue, hlong⟩⟩ | ⟨v, hv, hbad | ⟨text, ht, hbad⟩⟩)
    · exact .key ht hkey
    · exact .numeral ht hvalue hlong
    · rcases (presented_faulty hr hv).1 hbad with ⟨text, ht, hscaled⟩ | ⟨x, hx, hbad⟩
      · obtain ⟨hscaling, hpercent, n, rfl, hlimit⟩ := (r.scaled_faulty ..).1 hscaled
        exact .percent ht hv hscaling hpercent hlimit
      · exact .display hx hbad
    · exact .listing ht hbad

theorem listable_showing (v : Value) (s : Shown) :
    ((store c v).showing s).Listable p ↔ c.Listable p := by
  rw [Cell.listable_iff, Cell.listable_iff]
  rfl

/-- A cell that a pass does not refuse is resolved and listed. -/
theorem not_refuses_iff (hr : r.formatter = standardFormatter) : ¬ r.Refuses w p c ↔
    ∃ c', r.resolveCell w p.1 c = (c', none) ∧ c'.Listable p := by
  rw [refuses_iff hr]
  constructor
  · intro h
    obtain ⟨v, hv⟩ := Faulty.not_iff.1 fun hstored => h (.inl hstored)
    obtain ⟨s, hs⟩ := Faulty.not_iff.1 fun hpresented => h (.inr ⟨v, hv, .inl hpresented⟩)
    refine ⟨_, r.resolveCell_done.2 ⟨v, s, hv, hs, rfl⟩, ?_⟩
    rw [listable_showing]
    by_contra hlist
    exact h (.inr ⟨v, hv, .inr hlist⟩)
  · rintro ⟨c', hd, hlist⟩ hbad
    obtain ⟨v, s, hv, hs, rfl⟩ := r.resolveCell_done.1 hd
    rw [listable_showing] at hlist
    simp [hv, hs, hlist] at hbad

end Resolver

/-! ## The pass -/

section

variable {r : Resolver} {w : Workbook} {p : Nat × Nat × Nat}
  {pre post order : List (Nat × Nat × Nat)}

open Resolver

/-- Cells that are not all resolved and listed have a first one among them that is not. -/
theorem not_passes_iff : ¬ r.Passes w order ↔ ∃ pre p post, order = pre ++ p :: post ∧
    r.Passes w pre ∧ ∃ c, (r.resolveAll w pre).cell? p.1 p.2.1 p.2.2 = some c ∧
      ¬ ∃ c', r.resolveCell (r.resolveAll w pre) p.1 c = (c', none) ∧ c'.Listable p := by
  constructor
  · intro h
    induction order generalizing w with
    | nil => exact absurd trivial h
    | cons p rest ih =>
      by_cases hp : ∀ c, w.cell? p.1 p.2.1 p.2.2 = some c →
          ∃ c', r.resolveCell w p.1 c = (c', none) ∧ c'.Listable p
      · obtain ⟨pre, q, post, rfl, hpre, hq⟩ := ih fun hrest => h ⟨hp, hrest⟩
        exact ⟨p :: pre, q, post, rfl, ⟨hp, hpre⟩, hq⟩
      · push Not at hp
        obtain ⟨c, hc, hbad⟩ := hp
        exact ⟨[], p, rest, rfl, trivial, c, hc, by push Not; exact hbad⟩
  · rintro ⟨pre, p, post, rfl, -, c, hc, hbad⟩ h
    exact hbad ((passes_append.1 h).2.1 c hc)

theorem not_mem_of_split (hsplit : w.positions = pre ++ p :: post) : p ∉ pre ∧
    ∀ q ∈ post, q ∉ pre ++ [p] := by
  have honce := w.nodup_positions
  rw [hsplit, ← List.singleton_append, ← List.append_assoc] at honce
  obtain ⟨hpre, -, hacross⟩ := List.nodup_append.1 honce
  obtain ⟨-, -, hlast⟩ := List.nodup_append.1 hpre
  exact ⟨fun hp => hlast p hp p (List.mem_singleton_self p) rfl,
    fun q hq hmem => hacross q hmem q hq rfl⟩

/-- A pass ends early exactly when it comes to a cell that it refuses. -/
theorem resolve_fault_ne_iff (hr : r.formatter = standardFormatter) :
    (w.resolve r).fault ≠ none ↔ ∃ pre p post, r.StopsAt w pre p post := by
  rw [Ne, resolve_fault_iff, not_passes_iff]
  refine exists_congr fun pre => exists_congr fun p => exists_congr fun post => ?_
  constructor
  · rintro ⟨hsplit, hpre, c, hc, hbad⟩
    rw [resolveAll_cell?_of_not_mem (not_mem_of_split hsplit).1] at hc
    rw [← not_refuses_iff hr, not_not] at hbad
    exact ⟨hsplit, hpre, c, hc, hbad⟩
  · rintro ⟨hsplit, hpre, c, hc, hbad⟩
    rw [← resolveAll_cell?_of_not_mem (not_mem_of_split hsplit).1] at hc
    exact ⟨hsplit, hpre, c, hc, fun hd => (not_refuses_iff hr).2 hd hbad⟩

/-- A pass that has resolved and listed the cells at some positions. -/
def Workbook.reached (w : Workbook) (r : Resolver) (pre : List (Nat × Nat × Nat)) : Resolution :=
  { w.begun.notedAll (r.resolveAll w pre) pre with workbook := r.resolveAll w pre }

theorem foldl_visit_pre (hsplit : w.positions = pre ++ p :: post) (hpre : r.Passes w pre) :
    pre.foldl (Resolution.visit r) w.begun = w.reached r pre := by
  have honce := w.nodup_positions
  rw [hsplit] at honce
  exact Resolution.foldl_visit_eq rfl (List.nodup_append.1 honce).1 hpre

theorem reached_fault (hsplit : w.positions = pre ++ p :: post) (hpre : r.Passes w pre) :
    (w.reached r pre).fault = none := by
  rw [← foldl_visit_pre hsplit hpre]
  exact (Resolution.foldl_visit_fault (s := w.begun) rfl).2 hpre

/-- A pass ends with the first cell at which it meets a fault. -/
theorem resolve_of_fault (hsplit : w.positions = pre ++ p :: post) (hpre : r.Passes w pre)
    (hstop : (Resolution.visit r (w.reached r pre) p).fault ≠ none) :
    w.resolve r = Resolution.visit r (w.reached r pre) p := by
  have hfold : w.positions.foldl (Resolution.visit r) w.begun =
      Resolution.visit r (w.reached r pre) p := by
    rw [hsplit, List.foldl_append, List.foldl_cons, foldl_visit_pre hsplit hpre,
      Resolution.foldl_visit_of_fault hstop]
  have hresolve : w.resolve r = if (w.positions.foldl (Resolution.visit r) w.begun).fault.isSome
      then w.positions.foldl (Resolution.visit r) w.begun
      else (w.positions.foldl (Resolution.visit r) w.begun).ended w.length := rfl
  rw [hresolve, hfold, if_pos (Option.isSome_iff_ne_none.2 hstop)]

/-- What a pass leaves that ends early: the cells up to the one that it refuses are renewed. -/
theorem resolve_workbook_of_stopsAt (hr : r.formatter = standardFormatter)
    (h : r.StopsAt w pre p post) : (w.resolve r).workbook = r.resolveAll w (pre ++ [p]) := by
  obtain ⟨hsplit, hpre, c, hc, hbad⟩ := h
  have hfault := reached_fault hsplit hpre
  have hstop : (Resolution.visit r (w.reached r pre) p).fault ≠ none := by
    rw [Ne, Resolution.visit_fault_iff hfault]
    rw [← resolveAll_cell?_of_not_mem (not_mem_of_split hsplit).1] at hc
    exact fun hd => (not_refuses_iff hr).2 (hd c hc) hbad
  rw [resolve_of_fault hsplit hpre hstop, Resolution.workbook_visit hfault, resolveAll_append]
  rfl

end

/-- **When a pass completes.** With the standard formatter a pass completes unless it comes to a
cell that it refuses. If it completes, every cell is resolved and shows what it stores; if not, it
leaves the cells up to the refused one renewed and those behind it as they were. -/
theorem resolve_completes (r : Resolver) (w : Workbook) (hr : r.formatter = standardFormatter) :
    ((w.resolve r).fault = none ↔ ∀ pre p post, ¬ r.StopsAt w pre p post) ∧
    ((w.resolve r).fault = none → ∀ n row col c,
      (w.resolve r).workbook.cell? n row col = some c → r.Finished c) ∧
    ∀ pre p post, r.StopsAt w pre p post →
      (w.resolve r).workbook = r.resolveAll w (pre ++ [p]) ∧
      ∀ q ∈ post, (w.resolve r).workbook.cell? q.1 q.2.1 q.2.2 = w.cell? q.1 q.2.1 q.2.2 := by
  refine ⟨?_, ?_, ?_⟩
  · have hstops := not_congr (resolve_fault_ne_iff (w := w) hr)
    push Not at hstops
    exact hstops
  · intro h n row col c hc
    obtain ⟨d, v, -, -, hd, -⟩ := exists_of_resolve_cell? h hc
    exact r.finished_of_done hd
  · intro pre p post h
    have hbook := resolve_workbook_of_stopsAt hr h
    refine ⟨hbook, fun q hq => ?_⟩
    rw [hbook, Resolver.resolveAll_cell?_of_not_mem ((not_mem_of_split h.split).2 q hq)]

/-! ## A whole number beyond the doubles -/

/-- A row that begins with a whole number under a format with digit places. -/
def placed (n : Int) : Workbook := pair { value := .int n, format := some "0" } { value := .int 5 }

/-- The row as it comes from outside. -/
def placedData (n : Int) : Value :=
  .list [.list [.list
    [.record [(.text "value", .int n), (.text "excelFormat", .text "0")], .int 5]]]

theorem ofValue_placedData (n : Int) : Workbook.ofValue (placedData n) = .ok (placed n) := by
  rfl

theorem placed_unshowable {n : Int} (hn : doubleLimit ≤ n.natAbs) :
    Format.Unshowable (.int n) (some "0") := by
  have hsections : Format.splitSections "0".toList = [['0']] := by cbv
  have hpattern : Format.outsideQuotes (Format.pattern ['0']) = ['0'] := by cbv
  have hsection : Format.sectionFor (.int n) [['0']] = ['0'] := by
    unfold Format.sectionFor
    cases (Number.int n).isNegative <;> cases (Number.int n).isZero <;> rfl
  refine .range (by rfl) (.number (.int n)) ?_
  rw [hsections, hsection]
  refine @Format.BeyondDoubles.places n ['0'] ['0'] (by cbv) (by cbv) ?_
  rw [hpattern, if_neg (by decide), Nat.mul_one]
  exact hn

theorem placed_stopsAt (r : Resolver) {n : Int} (hn : doubleLimit ≤ n.natAbs) :
    r.StopsAt (placed n) [] (0, 0, 0) [(0, 0, 1)] where
  split := rfl
  passed := trivial
  refused := ⟨_, rfl, .display (.plain rfl) (placed_unshowable hn)⟩

theorem doubleLimit_le : doubleLimit ≤ (10 ^ 400 : Int).natAbs := by
  -- the exponent is kept as a variable, so that no power is ever computed
  obtain ⟨k, hlow, htop⟩ : ∃ k, halfUnitExponent ≤ 3 * k ∧ 17 + k ≤ 400 := by
    rw [halfUnitExponent_eq]
    exact ⟨324, by decide⟩
  have hpow : 2 ^ (3 * k) ≤ 10 ^ k := by
    rw [Nat.pow_mul]
    exact Nat.pow_le_pow_left (by decide) k
  rw [Int.natAbs_pow, show (10 : Int).natAbs = 10 from rfl]
  calc doubleLimit = (2 ^ 54 - 1) * 2 ^ halfUnitExponent := doubleLimit_eq
    _ ≤ 10 ^ 17 * 2 ^ (3 * k) :=
      Nat.mul_le_mul (by decide) (Nat.pow_le_pow_right Nat.two_pos hlow)
    _ ≤ 10 ^ 17 * 10 ^ k := Nat.mul_le_mul_left _ hpow
    _ = 10 ^ (17 + k) := (Nat.pow_add ..).symm
    _ ≤ 10 ^ 400 := Nat.pow_le_pow_right (by decide) htop

/-- A pass completes over a formula and the number that it passes on. At a number beyond the doubles
it ends and leaves the cell behind as it was. -/
theorem resolve_completes_row :
    firstDay.formatter = standardFormatter ∧
    ((forwarding (.int 5)).resolve firstDay).fault = none ∧
    (∀ pre p post, ¬ firstDay.StopsAt (forwarding (.int 5)) pre p post) ∧
    (∀ n row col c, ((forwarding (.int 5)).resolve firstDay).workbook.cell? n row col = some c →
      firstDay.Finished c) ∧
    firstDay.StopsAt (placed (10 ^ 400)) [] (0, 0, 0) [(0, 0, 1)] ∧
    ((placed (10 ^ 400)).resolve firstDay).fault ≠ none ∧
    ((placed (10 ^ 400)).resolve firstDay).workbook.cell? 0 0 1 = some { value := .int 5 } := by
  obtain ⟨hcompletes, hfinished, -⟩ := resolve_completes firstDay (forwarding (.int 5)) rfl
  obtain ⟨hends, -, hleft⟩ := resolve_completes firstDay (placed (10 ^ 400)) rfl
  have hdone : ((forwarding (.int 5)).resolve firstDay).fault = none :=
    (resolve_row (s := "5") (t := "5") rfl rfl rfl rfl (stored_forward rfl rfl) (by cbv) (by cbv)).1
  have hstop := placed_stopsAt firstDay doubleLimit_le
  exact ⟨rfl, hdone, hcompletes.1 hdone, hfinished hdone, hstop, fun h => hends.1 h _ _ _ hstop,
    (hleft _ _ _ hstop).2 (0, 0, 1) (List.mem_singleton_self _)⟩

/-- Data that is accepted and a pass over it that ends at its first cell. -/
theorem placed_refused : ¬ ∀ (data : Value) (w : Workbook) (r : Resolver),
    Workbook.ofValue data = .ok w → r.formatter = standardFormatter →
    (w.resolve r).fault = none ∧ ∀ n row col c,
      (w.resolve r).workbook.cell? n row col = some c → c.resolved = true := by
  intro h
  have hdone := (h _ _ firstDay (ofValue_placedData (10 ^ 400)) rfl).1
  have hstop := placed_stopsAt firstDay doubleLimit_le
  exact (resolve_fault_ne_iff rfl).2 ⟨_, _, _, hstop⟩ hdone

end Spreadsheet
