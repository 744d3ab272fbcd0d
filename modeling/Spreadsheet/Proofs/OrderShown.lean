import Spreadsheet.Proofs.Containment
import Spreadsheet.Proofs.VisitOrder

/-!
# When the order of resolution shows

The order does not show where every value of a formula stores faithfully. No value that fails to is
harmless: passed on from cell to cell, it tells in a column of three cells which one was resolved
first (`resolveAll_order`). Such values are texts: those that count as zero, as a whole number
beyond the doubles, or as a number that cannot be read at all.
-/

namespace Spreadsheet

open Value Workbook

/-! ## A probe for values -/

/-- A formula that passes a cell on. -/
abbrev relayText : String := "=A1"

/-- A formula that tells numbers, truth values and faults of a cell apart. -/
abbrev probeText : String := "=IF(A2,COUNT(A2),2)"

abbrev probeTree : Expr :=
  .call "IF" [.cell "A2" none, .call "COUNT" [.cell "A2" none], .literal (.int 2)]

theorem parse_relay : parseFormula relayText = .ok (.cell "A1" none) := by
  cbv

theorem parse_probe : parseFormula probeText = .ok probeTree := by
  cbv

def counted (x : Value) : Value :=
  match Aggregate.count.apply [x] with
  | .ok k => k
  | .error _ => Sentinel.error.value

/-- What the probe gives for the value of its cell. -/
def probed (x : Value) : Value := if x.isTrue then counted x else .int 2

section

variable {x : Value} (hb : ∀ b, x ≠ .bool b)

include hb

theorem count_apply_single : Aggregate.count.apply [x] = do
    let n ← x.number?
    return .int (if n.isSome then 1 else 0) := by
  unfold Aggregate.apply
  rw [countNumbers_cons x [] hb]
  cases x.number? with
  | error f => rfl
  | ok n => cases n <;> rfl

theorem contain_count : contain (Aggregate.count.apply [x]) = .ok (counted x) := by
  unfold counted
  rw [count_apply_single hb]
  cases hn : x.number? with
  | error f =>
    show (if f.isContained then _ else _) = _
    rw [if_pos (x.number?_contained f hn)]
    rfl
  | ok n => rfl

end

section

variable {s : Source (Except Fault)} (today : Calendar.Date) {x : Value}

theorem value_cell {reference : String} (h : s.cellValue (.index 0) reference = .ok x) :
    Expr.value s today (.index 0) (.cell reference none) = .ok x := by
  unfold Expr.value
  show contain (s.cellValue (.index 0) reference) = _
  rw [h]
  rfl

theorem value_count (hb : ∀ b, x ≠ .bool b) {reference : String}
    (h : s.cellValue (.index 0) reference = .ok x) :
    Expr.value s today (.index 0) (.call "COUNT" [.cell reference none]) = .ok (counted x) := by
  have hfind : Function.find "COUNT" = .ok (.aggregate .count) := by rfl
  have hflat : Expr.flatValues s today (.index 0) [.cell reference none] = .ok [x] := by
    unfold Expr.flatValues
    dsimp only [Option.getD_none]
    rw [h]
    rfl
  unfold Expr.value
  dsimp only
  rw [hfind]
  show contain (Expr.flatValues s today (.index 0) [.cell reference none] >>= fun vs =>
    ofExcept (Aggregate.count.apply vs)) = _
  rw [hflat]
  show contain (ofExcept (Aggregate.count.apply [x])) = _
  rw [ofExcept_except, contain_count hb]

theorem value_probe (hb : ∀ b, x ≠ .bool b) (h : s.cellValue (.index 0) "A2" = .ok x) :
    Expr.value s today (.index 0) probeTree = .ok (probed x) := by
  have hfind : Function.find "IF" = .ok (.scalar .cond) := by rfl
  have hvalues : Expr.values s today (.index 0)
      [.cell "A2" none, .call "COUNT" [.cell "A2" none], .literal (.int 2)] =
      .ok [x, counted x, .int 2] := by
    unfold Expr.values
    rw [value_cell today h]
    unfold Expr.values
    rw [value_count today hb h]
    rfl
  unfold Expr.value
  dsimp only
  rw [hfind]
  show contain (Expr.values s today (.index 0) _ >>= fun vs =>
    ofExcept (Scalar.cond.apply today vs)) = _
  rw [hvalues]
  rfl

end

/-- The value of the probe when its cell is read as `x`. -/
theorem evaluate_probe {env : Environment} (hparser : env.parser = parseFormula) {x : Value}
    (hb : ∀ b, x ≠ .bool b)
    (hx : (env.source [cellKey 0 probeText]).cellValue (.index 0) "A2" = .ok x) :
    evaluateFormula env (.text probeText) (.index 0) [] = .ok (probed x) := by
  have hparse : env.parser probeText = .ok probeTree := by
    rw [hparser, parse_probe]
  rw [evaluateFormula_of_tree (by rfl) (by rfl) hparse, value_probe env.today hb hx]
  rfl

theorem numberForText_probed (x : Value) : (probed x).numberForText = .ok (probed x) := by
  have herror : Sentinel.error.value.numberForText = .ok Sentinel.error.value := by rfl
  unfold probed counted
  split
  · split
    · next k hk =>
      unfold Aggregate.apply at hk
      dsimp only at hk
      cases hn : countNumbers [x] with
      | error f =>
        rw [hn] at hk
        cases hk
      | ok n =>
        rw [hn] at hk
        cases hk
        rfl
    · exact herror
  · rfl

/-! ## Values that do not store faithfully -/

/-- The text of a formula counts as no number, so it stores faithfully. -/
theorem formula?_eq_none {s : String} (h : ¬ (Value.text s).StoresFaithfully) :
    (Value.text s).formula? = none := by
  show (if s.toList.head? = some '=' then some s else none) = none
  rw [if_neg]
  intro hhead
  obtain ⟨rest, hrest⟩ : ∃ rest, s.toList = '=' :: rest := by
    cases hlist : s.toList with
    | nil =>
      rw [hlist] at hhead
      cases hhead
    | cons c cs =>
      rw [hlist] at hhead
      cases hhead
      exact ⟨cs, rfl⟩
  obtain ⟨trimmed, htrimmed⟩ := Text.trimBy_cons (show Text.isBlank '=' = false by decide) rest
  have hnumber : (Value.text s).number? = .ok none := by
    have hread : Numeral.DecimalText.read? ('=' :: trimmed) = none := by rfl
    simp only [number?, numberOfText, Text.stripChars]
    rw [hrest, htrimmed, hread]
  refine h ⟨.text s, ?_, rfl, rfl⟩
  unfold numberForText
  rw [hnumber]
  rfl

/-- A value that does not store faithfully is a text. -/
theorem exists_text_of_not_faithful {v : Value} (h : ¬ v.StoresFaithfully) :
    ∃ s, v = .text s := by
  cases v with
  | text s => exact ⟨s, rfl⟩
  | _ => exact absurd ⟨_, rfl, rfl, rfl⟩ h

/-- What a cell stores of a text. -/
def passedOn (s : String) : Value :=
  match (Value.text s).numberForText with
  | .ok stored => stored
  | .error _ => .null

theorem passedOn_ne_bool (s : String) (b : Bool) : passedOn s ≠ .bool b := by
  unfold passedOn
  split
  · next stored hs =>
    rcases numberForText_cases hs with rfl | ⟨_, n, -, -, rfl⟩
    · exact fun h => by cases h
    · exact fun h => by cases n <;> cases h
  · exact fun h => by cases h

theorem number?_toValue {n m : Number} (h : n.toValue.number? = .ok (some m)) : m = n := by
  cases n with
  | int k =>
    simp only [Number.toValue, number?] at h
    split at h
    · cases h
      rfl
    · cases h
  | float y =>
    simp only [Number.toValue, number?] at h
    split at h
    · cases h
    · cases h
      rfl

/-- The probe tells a text that does not store faithfully from what is stored of it. -/
theorem probed_ne {s : String} (h : ¬ (Value.text s).StoresFaithfully) :
    probed (passedOn s) ≠ probed (.text s) := by
  have hs : (Value.text s).isTrue = true := by
    by_cases hempty : s = ""
    · subst hempty
      exact absurd ⟨.text "", rfl, rfl, rfl⟩ h
    · exact bne_iff_ne.2 hempty
  have hprobed : probed (.text s) = counted (.text s) := by
    unfold probed
    rw [if_pos hs]
  rw [hprobed]
  unfold counted
  rw [count_apply_single (fun b hb => by cases hb)]
  cases hn : (Value.text s).number? with
  | error f =>
    have hpassed : passedOn s = .null := by
      unfold passedOn numberForText
      rw [hn]
      rfl
    rw [hpassed]
    show Value.int 2 ≠ Sentinel.error.value
    exact fun heq => by cases heq
  | ok n =>
    cases n with
    | none =>
      refine absurd ⟨.text s, ?_, rfl, rfl⟩ h
      unfold numberForText
      rw [hn]
      rfl
    | some n =>
      have hstored : (Value.text s).numberForText = .ok n.toValue := by
        unfold numberForText
        rw [hn]
        rfl
      have hpassed : passedOn s = n.toValue := by
        unfold passedOn
        rw [hstored]
      rw [hpassed]
      show probed n.toValue ≠ .int 1
      unfold probed counted
      split
      · next htrue =>
        rw [count_apply_single (fun b hb => by cases n <;> cases hb)]
        cases hm : n.toValue.number? with
        | error f => exact fun heq => by cases heq
        | ok m =>
          cases m with
          | none => exact fun heq => by cases heq
          | some m =>
            have hsame : m = n := number?_toValue hm
            subst hsame
            refine absurd ⟨m.toValue, hstored, ?_, htrue.trans hs.symm⟩ h
            rw [hm, hn]
      · exact fun heq => by cases heq

/-! ## The column that shows the order -/

/-- Three cells in a column: a text, the relay and the probe. -/
def revealing (s : String) : Workbook :=
  [[[{ value := .text s }], [{ value := .text relayText }], [{ value := .text probeText }]]]

theorem revealing_pos (s : String) : 0 < (revealing s).length := Nat.one_pos

theorem revealing_unresolved (s : String) : (revealing s).Unresolved := by
  intro n row col c hc
  have hmem := mem_cellsOf_of_cell? hc
  match n with
  | 0 =>
    rcases List.mem_cons.1 hmem with rfl | hmem
    · rfl
    · rcases List.mem_cons.1 hmem with rfl | hmem
      · rfl
      · rw [List.mem_singleton.1 hmem]
  | _ + 1 => cases hmem

theorem revealing_visits (s : String) {order : List (Nat × Nat × Nat)}
    (h : order.Perm [(0, 0, 0), (0, 1, 0), (0, 2, 0)]) : (revealing s).Visits order where
  once := h.nodup_iff.2 (by decide)
  all n row col := by
    rw [h.mem_iff]
    match n, row, col with
    | 0, 0, 0 => simp [revealing, cell?]
    | 0, 1, 0 => simp [revealing, cell?]
    | 0, 2, 0 => simp [revealing, cell?]
    | 0, 0, _ + 1 => simp [revealing, cell?]
    | 0, 1, _ + 1 => simp [revealing, cell?]
    | 0, 2, _ + 1 => simp [revealing, cell?]
    | 0, _ + 3, _ => simp [revealing, cell?]
    | _ + 1, _, _ => simp [revealing, cell?]

section

variable (r : Resolver) {s : String} (hs : (Value.text s).formula? = none)

include hs

theorem revealing_acyclic : (r.environment (revealing s)).Acyclic := by
  have hrelay : Value.formula? (.text relayText) = some relayText := by rfl
  have hprobe : Value.formula? (.text probeText) = some probeText := by rfl
  have hA1 : Reference.parse "A1" = .ok (some ⟨0, 0, false, false⟩) := by rfl
  have hA2 : Reference.parse "A2" = .ok (some ⟨1, 0, false, false⟩) := by rfl
  have formulas : (revealing s).formulas = [(0, relayText), (0, probeText)] := by
    simp [Workbook.formulas, revealing, cellsOf, List.range_succ, hs, hrelay, hprobe]
  have relay : (r.environment (revealing s)).callees (.index (0 : Nat)) relayText = [] := by
    unfold Environment.callees
    dsimp only
    rw [parse_relay]
    simp [Expr.mentions, openFormulas, Mention.table, Mention.positions, hA1, Cell.openFormula?,
      revealing, hs, cell?, tableIndex?]
  have probe : ∀ g ∈ (r.environment (revealing s)).callees (.index (0 : Nat)) probeText,
      g = (0, relayText) := by
    unfold Environment.callees
    dsimp only
    rw [parse_probe]
    simp [Expr.mentions, Expr.mentionsIn, openFormulas, Mention.table, Mention.positions, hA2,
      Cell.openFormula?, revealing, hrelay, cell?, tableIndex?]
  refine Environment.Acyclic.of_measure (fun key => if key = "0:=A1" then 0 else 1) ?_
  intro f hf g hg
  dsimp only at hf
  rw [formulas] at hf
  rcases List.mem_cons.1 hf with rfl | hf
  · rw [relay] at hg
    cases hg
  · rw [List.mem_singleton.1 hf] at hg ⊢
    rw [probe g hg]
    decide

/-- In a workbook that has the text in its first cell the relay passes the text on. -/
theorem enter_relay {v : Workbook} (hlen : 0 < v.length)
    (hc : v.cell? 0 0 0 = some { value := .text s }) (p : Progress) :
    (r.environment v).enter ((r.environment v).source p) (.index 0) relayText = .ok (.text s) := by
  have hparse : Reference.parse "A1" = .ok (some ⟨0, 0, false, false⟩) := by rfl
  have hread : ((r.environment v).source p).cellValue (.index 0) "A1" = .ok (.text s) := by
    show (v.source _).cellValue (.index (0 : Nat)) "A1" = _
    rw [source_cellValue v _ hlen hparse hc, Cell.read_of_plain rfl hs]
    rfl
  exact Environment.enter_of_cellValue parse_relay hread

theorem relay_value :
    evaluateFormula (r.environment (revealing s)) (.text relayText) (.index 0) [] =
      .ok (.text s) := by
  have hkey : formulaKey (.index 0) relayText = .ok (cellKey 0 relayText) := by rfl
  have hformula : Value.formula? (.text relayText) = some relayText := by rfl
  unfold evaluateFormula
  rw [hformula]
  dsimp only
  rw [hkey]
  exact enter_relay r hs (revealing_pos s) rfl [cellKey 0 relayText]

/-- The second cell, resolved first, stores what is passed on. -/
theorem relay_resolved :
    (r.resolveCell (revealing s) 0 { value := .text relayText }).1.resolved = true ∧
    (r.resolveCell (revealing s) 0 { value := .text relayText }).1.resolvedValue = passedOn s := by
  have hformula : Value.formula? (.text relayText) = some relayText := by rfl
  unfold passedOn
  cases hn : (Value.text s).numberForText with
  | ok stored => exact r.resolveCell_stored _ _ hformula (relay_value r hs) hn
  | error f =>
    rw [r.resolveCell_unstored _ _ hformula (relay_value r hs) hn]
    exact ⟨rfl, rfl⟩

theorem probe_value :
    evaluateFormula (r.environment (revealing s)) (.text probeText) (.index 0) [] =
      .ok (probed (.text s)) := by
  have hformula : Value.formula? (.text relayText) = some relayText := by rfl
  have hparse : Reference.parse "A2" = .ok (some ⟨1, 0, false, false⟩) := by rfl
  have hread : ((r.environment (revealing s)).source [cellKey 0 probeText]).cellValue
      (.index 0) "A2" = .ok (.text s) := by
    show ((revealing s).source _).cellValue (.index (0 : Nat)) "A2" = _
    rw [source_cellValue (revealing s) _ (revealing_pos s) hparse rfl,
      Cell.read_of_formula rfl hformula, Environment.formulaValue_of_not_mem _ _ (by decide)]
    exact enter_relay r hs (revealing_pos s) rfl _
  exact evaluate_probe rfl (fun b hb => by cases hb) hread

/-- The third cell, resolved first, has the value of the probe on the text. -/
theorem probe_first :
    (r.resolveCell (revealing s) 0 { value := .text probeText }).1.resolvedValue =
      probed (.text s) :=
  (r.resolveCell_stored _ _ rfl (probe_value r hs) (numberForText_probed _)).2

/-- The third cell, resolved after the second one, has the value of the probe on what is stored. -/
theorem probe_second :
    (r.resolveCell (r.resolveAt (revealing s) (0, 1, 0)) 0
      { value := .text probeText }).1.resolvedValue = probed (passedOn s) := by
  have hparse : Reference.parse "A2" = .ok (some ⟨1, 0, false, false⟩) := by rfl
  obtain ⟨hr, hx⟩ := relay_resolved r hs
  have hcell : (r.resolveAt (revealing s) (0, 1, 0)).cell? 0 1 0 =
      some (r.resolveCell (revealing s) 0 { value := .text relayText }).1 := by
    rw [r.resolveAt_cell?]
    rfl
  have hlen : 0 < (r.resolveAt (revealing s) (0, 1, 0)).length := by
    rw [r.length_resolveAt]
    exact revealing_pos s
  have hread : ((r.environment (r.resolveAt (revealing s) (0, 1, 0))).source
      [cellKey 0 probeText]).cellValue (.index 0) "A2" = .ok (passedOn s) := by
    show ((r.resolveAt (revealing s) (0, 1, 0)).source _).cellValue (.index (0 : Nat)) "A2" = _
    rw [source_cellValue _ _ hlen hparse hcell, Cell.read_of_resolved hr, hx]
    rfl
  have hvalue := evaluate_probe rfl (passedOn_ne_bool s) hread
  exact (r.resolveCell_stored _ _ rfl hvalue (numberForText_probed _)).2

/-- The third cell after all three were resolved, the probe before the relay. -/
theorem probe_before_relay : ∃ c,
    (r.resolveAll (revealing s) [(0, 2, 0), (0, 1, 0), (0, 0, 0)]).cell? 0 2 0 = some c ∧
    c.resolvedValue = probed (.text s) := by
  refine ⟨_, ?_, probe_first r hs⟩
  simp only [Resolver.resolveAll, List.foldl_cons, List.foldl_nil]
  rw [r.resolveAt_cell?, r.resolveAt_cell?, r.resolveAt_cell?]
  rfl

/-- The third cell after all three were resolved, the probe after the relay. -/
theorem probe_after_relay : ∃ c,
    (r.resolveAll (revealing s) [(0, 1, 0), (0, 2, 0), (0, 0, 0)]).cell? 0 2 0 = some c ∧
    c.resolvedValue = probed (passedOn s) := by
  refine ⟨_, ?_, probe_second r hs⟩
  simp only [Resolver.resolveAll, List.foldl_cons, List.foldl_nil]
  rw [r.resolveAt_cell?, r.resolveAt_cell?, r.resolveAt_cell?]
  rfl

end

/-! ## Exactly when the order shows -/

/-- **The order of resolution.** In a workbook of unresolved cells without cycles, the values of
whose formulas store faithfully, every cell ends the same whatever the order. Any value that does
not store faithfully is the value of a formula in such a workbook, but for this, in which two orders
leave a cell with different resolved values. -/
theorem resolveAll_order (r : Resolver) :
    (∀ w : Workbook, w.Unresolved → (r.environment w).Acyclic → r.Faithful w →
      ∀ order order', w.Visits order → w.Visits order' → ∀ n row col,
        (r.resolveAll w order).cell? n row col = (r.resolveAll w order').cell? n row col) ∧
    ∀ v : Value, ¬ v.StoresFaithfully → ∃ w : Workbook, w.Unresolved ∧
      (r.environment w).Acyclic ∧
      (∃ n text, (n, text) ∈ w.formulas ∧
        evaluateFormula (r.environment w) (.text text) (.index n) [] = .ok v) ∧
      ∃ order order' n row col c c', w.Visits order ∧ w.Visits order' ∧
        (r.resolveAll w order).cell? n row col = some c ∧
        (r.resolveAll w order').cell? n row col = some c' ∧
        c.resolvedValue ≠ c'.resolvedValue := by
  constructor
  · intro w hw hacyclic hstored order order' horder horder' n row col
    rw [Resolver.resolveAll_cell? hw hacyclic hstored horder,
      Resolver.resolveAll_cell? hw hacyclic hstored horder']
  · intro v hv
    obtain ⟨s, rfl⟩ := exists_text_of_not_faithful hv
    have hs := formula?_eq_none hv
    have hrelay : Value.formula? (.text relayText) = some relayText := by rfl
    have hcell : (revealing s).cell? 0 1 0 = some { value := .text relayText } := rfl
    obtain ⟨c, hc, hvalue⟩ := probe_after_relay r hs
    obtain ⟨c', hc', hvalue'⟩ := probe_before_relay r hs
    refine ⟨revealing s, revealing_unresolved s, revealing_acyclic r hs,
      ⟨0, relayText, mem_formulas_of_cell? hcell hrelay, relay_value r hs⟩,
      [(0, 1, 0), (0, 2, 0), (0, 0, 0)], [(0, 2, 0), (0, 1, 0), (0, 0, 0)], 0, 2, 0, c, c',
      revealing_visits s (by decide), revealing_visits s (by decide), hc, hc', ?_⟩
    rw [hvalue, hvalue']
    exact probed_ne hv

/-- A resolver with the standard formats on the first day of the calendar. -/
def firstDay : Resolver := ⟨standardFormatter, true, .first⟩

theorem five_stores : (Value.text "5").StoresFaithfully := by
  have hnumber : (Value.int 5).number? = .ok (some (.int 5)) := by
    have hdouble : (Numeral.ofInt? 5).isSome = true := by rfl
    simp only [number?]
    rw [if_pos hdouble]
  refine ⟨.int 5, by cbv, ?_, rfl⟩
  rw [hnumber]
  cbv

theorem zero_stores_not : ¬ (Value.text "0").StoresFaithfully := by
  rintro ⟨stored, hs, -, ht⟩
  have hzero : (Value.text "0").numberForText = .ok (.int 0) := by cbv
  rw [hzero] at hs
  cases hs
  cases ht

/-- The column with the text `5`, which stores faithfully, and with the text `0`, which does not. -/
theorem resolveAll_order_five_zero :
    ((firstDay.environment (revealing "5")).Acyclic ∧ firstDay.Faithful (revealing "5") ∧
      ∀ n row col,
        (firstDay.resolveAll (revealing "5") [(0, 1, 0), (0, 2, 0), (0, 0, 0)]).cell? n row col =
        (firstDay.resolveAll (revealing "5") [(0, 2, 0), (0, 1, 0), (0, 0, 0)]).cell? n row col) ∧
    ∃ w : Workbook, w.Unresolved ∧ (firstDay.environment w).Acyclic ∧
      (∃ n text, (n, text) ∈ w.formulas ∧
        evaluateFormula (firstDay.environment w) (.text text) (.index n) [] = .ok (.text "0")) ∧
      ∃ order order' n row col c c', w.Visits order ∧ w.Visits order' ∧
        (firstDay.resolveAll w order).cell? n row col = some c ∧
        (firstDay.resolveAll w order').cell? n row col = some c' ∧
        c.resolvedValue ≠ c'.resolvedValue := by
  have hs : (Value.text "5").formula? = none := by rfl
  have hacyclic := revealing_acyclic firstDay hs
  have hfaithful : firstDay.Faithful (revealing "5") := by
    intro n row col c text v hc ht hv
    have hmem := mem_cellsOf_of_cell? hc
    match n with
    | 0 =>
      rcases List.mem_cons.1 hmem with rfl | hmem
      · rw [hs] at ht
        cases ht
      · rcases List.mem_cons.1 hmem with rfl | hmem
        · cases hv.symm.trans (relay_value firstDay hs)
          exact five_stores
        · rw [List.mem_singleton.1 hmem] at hv
          cases hv.symm.trans (probe_value firstDay hs)
          exact ⟨_, numberForText_probed _, rfl, rfl⟩
    | _ + 1 => cases hmem
  obtain ⟨same, shown⟩ := resolveAll_order firstDay
  exact ⟨⟨hacyclic, hfaithful, same _ (revealing_unresolved _) hacyclic hfaithful _ _
    (revealing_visits _ (by decide)) (revealing_visits _ (by decide))⟩, shown _ zero_stores_not⟩

/-- Without the condition on values the order shows: in the column with the text `0` the third cell
is 2 when the second one was resolved before it, else 1. -/
theorem revealing_zero_shows :
    ¬ ∀ (r : Resolver) (w : Workbook), w.Unresolved → (r.environment w).Acyclic →
      ∀ order order', w.Visits order → w.Visits order' → ∀ n row col c c',
        (r.resolveAll w order).cell? n row col = some c →
        (r.resolveAll w order').cell? n row col = some c' →
        c.resolvedValue = c'.resolvedValue := by
  intro h
  have hs : (Value.text "0").formula? = none := by rfl
  obtain ⟨c, hc, hvalue⟩ := probe_after_relay firstDay hs
  obtain ⟨c', hc', hvalue'⟩ := probe_before_relay firstDay hs
  have same := h firstDay (revealing "0") (revealing_unresolved "0") (revealing_acyclic firstDay hs)
    [(0, 1, 0), (0, 2, 0), (0, 0, 0)] [(0, 2, 0), (0, 1, 0), (0, 0, 0)]
    (revealing_visits "0" (by decide)) (revealing_visits "0" (by decide)) 0 2 0 c c' hc hc'
  rw [hvalue, hvalue'] at same
  exact probed_ne zero_stores_not same

end Spreadsheet
