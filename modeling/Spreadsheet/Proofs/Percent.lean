import Spreadsheet.Format.Percent
import Spreadsheet.Proofs.OrderShown
import Spreadsheet.Proofs.Pass
import Spreadsheet.Proofs.PlainFormat

/-!
# Where the division and the multiplication by 100 cancel

The result of a formula under a format with a percent sign is divided by 100 before the formatter
gets it (`Resolver.Divides`), because the formatter multiplies by 100 where the section asks for a
percentage (`Format.Multiplies`). The division looks for the sign anywhere in the format, the
multiplication only outside of quotes and tags and in the section for the number.

A section that shows a number a hundred times as large has a percent sign, so a number that a
format multiplies has been divided before (`divides_of_multiplies`). The other way round the
section for the number has to have such a sign outside of quotes and tags and to ask for no date,
and for every number the first three sections have to, each of which is the section for some number
(`exists_shown_by`).
-/

namespace Spreadsheet

namespace Resolver

/-- The number that a formula has is divided by 100 before the formatter gets it. -/
def Divides (r : Resolver) (format : String) : Prop :=
  r.scaling = true ∧ isPercent (some format) = true

instance (r : Resolver) (format : String) : Decidable (r.Divides format) :=
  inferInstanceAs (Decidable (_ ∧ _))

/-- The number that the formatter gets for the number that a formula has. -/
def handed (r : Resolver) (format : String) (x : Number) : Except Fault Number :=
  if r.Divides format then x.div (.int 100) else .ok x

end Resolver

namespace Format

variable {c : Char} {cs raw : List Char} {sections : List (List Char)} {x : Number}

/-! ## Characters of sections -/

theorem mem_of_mem_splitSections (h : raw ∈ splitSections cs) (hc : c ∈ raw) : c ∈ cs := by
  induction cs generalizing raw with
  | nil =>
    rw [List.mem_singleton.1 h] at hc
    cases hc
  | cons d rest ih =>
    obtain ⟨part, parts, hrest⟩ := List.exists_cons_of_ne_nil (splitSections_ne_nil rest)
    rw [splitSections_cons] at h
    split at h
    · rcases List.mem_cons.1 h with rfl | h
      · cases hc
      · exact List.mem_cons_of_mem _ (ih h hc)
    · rw [hrest] at ih h
      rcases List.mem_cons.1 h with rfl | h
      · exact (List.mem_cons.1 hc).elim (fun heq => List.mem_cons.2 (.inl heq)) fun hc =>
          List.mem_cons_of_mem _ (ih List.mem_cons_self hc)
      · exact List.mem_cons_of_mem _ (ih (List.mem_cons_of_mem _ h) hc)

theorem mem_of_mem_outsideQuotes (h : c ∈ outsideQuotes cs) : c ∈ cs := by
  unfold outsideQuotes at h
  obtain ⟨piece, hpiece, hbare⟩ := List.mem_filterMap.1 h
  have hmem : Piece.bare c ∈ pieces cs := by
    cases piece with
    | quoted content => cases hbare
    | bare d =>
      cases hbare
      exact hpiece
  clear h hpiece hbare
  fun_induction pieces cs with
  | case1 => cases hmem
  | case2 rest content rest' hcut ih =>
    have hrest := ih ((List.mem_cons.1 hmem).resolve_left fun h => by cases h)
    rw [(eq_of_cutAt? hcut).1]
    exact List.mem_cons_of_mem _ (List.mem_append_right _ (List.mem_cons_of_mem _ hrest))
  | case3 rest hcut ih =>
    rcases List.mem_cons.1 hmem with heq | hmem
    · cases heq
      exact List.mem_cons_self
    · exact List.mem_cons_of_mem _ (ih hmem)
  | case4 d rest hd ih =>
    rcases List.mem_cons.1 hmem with heq | hmem
    · cases heq
      exact List.mem_cons_self
    · exact List.mem_cons_of_mem _ (ih hmem)

/-- What is left of a section holds no characters of its own but quotes. -/
theorem mem_of_mem_pattern (h : c ∈ pattern raw) (hc : c ≠ '"') : c ∈ raw := by
  have hcolor : ∀ content t, (colorOf? content).map (fun _ => ([] : List Char)) = some t → c ∈ t →
      c ∈ content := by
    intro content t ht hmem
    obtain ⟨_, -, rfl⟩ := Option.map_eq_some_iff.1 ht
    cases hmem
  have hcurrency : ∀ content t, (currencyText? content).map (fun t => '"' :: t ++ ['"']) = some t →
      c ∈ t → c ∈ content := by
    intro content t ht hmem
    obtain ⟨text, htext, rfl⟩ := Option.map_eq_some_iff.1 ht
    have hinner : c ∈ text := by
      rcases List.mem_append.1 hmem with hmem | hmem
      · exact (List.mem_cons.1 hmem).resolve_left hc
      · exact absurd (List.mem_singleton.1 hmem) hc
    unfold currencyText? at htext
    split at htext
    · cases htext
      exact List.mem_cons_of_mem _ ((List.takeWhile_sublist _).subset hinner)
    · cases htext
  have hdrop : ∀ content t, (fun _ : List Char => some ([] : List Char)) content = some t → c ∈ t →
      c ∈ content := by
    intro content t ht hmem
    cases ht
    cases hmem
  exact mem_of_mem_replaceTags hcolor
    (mem_of_mem_replaceTags hcurrency (mem_of_mem_replaceTags hdrop h))

/-! ## Sections for numbers -/

/-- A number is shown by one of the first three sections. -/
theorem sectionFor_mem (x : Number) (h : sections ≠ []) :
    sectionFor x sections ∈ sections.take 3 := by
  unfold sectionFor
  generalize x.isNegative = negative
  generalize x.isZero = zero
  rcases sections with _ | ⟨a, _ | ⟨b, _ | ⟨c, rest⟩⟩⟩
  · exact absurd rfl h
  all_goals cases negative <;> cases zero <;> simp

/-- A hundredth of some whole number, with its sign. -/
theorem exists_hundredth {n : Int} {negative zero : Bool}
    (h : ((Number.int n).div (.int 100)).map (fun y => (y.isNegative, y.isZero)) =
      .ok (negative, zero)) :
    ∃ y, (Number.int n).div (.int 100) = .ok y ∧ y.isNegative = negative ∧ y.isZero = zero := by
  cases hy : (Number.int n).div (.int 100) with
  | error f =>
    rw [hy] at h
    cases h
  | ok y =>
    rw [hy] at h
    cases h
    exact ⟨y, rfl, rfl, rfl⟩

/-- Each of the first three sections shows some number that is a hundredth of another one. -/
theorem exists_shown_by (h : raw ∈ sections.take 3) :
    ∃ (n : Int) (y : Number), (Number.int n).div (.int 100) = .ok y ∧
      sectionFor y sections = raw := by
  obtain ⟨one, hone, hone_sign, hone_zero⟩ : ∃ y, (Number.int 100).div (.int 100) = .ok y ∧
      y.isNegative = false ∧ y.isZero = false := exists_hundredth (by decide +kernel)
  obtain ⟨minus, hminus, hminus_sign, hminus_zero⟩ : ∃ y,
      (Number.int (-100)).div (.int 100) = .ok y ∧ y.isNegative = true ∧ y.isZero = false :=
    exists_hundredth (by decide +kernel)
  obtain ⟨zero, hzero, hzero_sign, hzero_zero⟩ : ∃ y, (Number.int 0).div (.int 100) = .ok y ∧
      y.isNegative = false ∧ y.isZero = true := exists_hundredth (by decide +kernel)
  have hfirst : ∀ a rest, sectionFor one (a :: rest) = a := by
    intro a rest
    unfold sectionFor
    rw [hone_sign, hone_zero]
  have hsecond : ∀ a b rest, sectionFor minus (a :: b :: rest) = b := by
    intro a b rest
    unfold sectionFor
    rw [hminus_sign, hminus_zero]
  have hthird : ∀ a b c rest, sectionFor zero (a :: b :: c :: rest) = c := by
    intro a b c rest
    unfold sectionFor
    rw [hzero_sign, hzero_zero]
  rcases sections with _ | ⟨a, _ | ⟨b, _ | ⟨c, rest⟩⟩⟩
  · cases h
  · rw [List.mem_singleton.1 h]
    exact ⟨_, one, hone, hfirst a []⟩
  · rcases List.mem_cons.1 h with rfl | h
    · exact ⟨_, one, hone, hfirst raw [b]⟩
    · rw [List.mem_singleton.1 h]
      exact ⟨_, minus, hminus, hsecond a b []⟩
  · rcases List.mem_cons.1 h with rfl | h
    · exact ⟨_, one, hone, hfirst raw (b :: c :: rest)⟩
    · rcases List.mem_cons.1 h with rfl | h
      · exact ⟨_, minus, hminus, hsecond a raw (c :: rest)⟩
      · rw [List.mem_singleton.1 h]
        exact ⟨_, zero, hzero, hthird a b c rest⟩

/-! ## What is multiplied -/

/-- A section that asks for no date shows a number in its digit places, a hundred times as large
where it has a percent sign. -/
theorem display_of_section {f : String} {s : List Char} {color : Option String}
    (hf : isPlain f = false) (h : prepare (sectionFor x (splitSections f.toList)) = .ok (s, color))
    (hdate : isDateSection s = false) : ∃ (minus : Bool) (y : Number), x.UpToSign y ∧
      display x.toValue (some f) = timesPercent y s >>= showPlaces minus color s := by
  obtain ⟨minus, y, hsize, heq⟩ := showNumber_eq x.toValue x (splitSections f.toList)
  refine ⟨minus, y, hsize, ?_⟩
  rw [display_of_number hf x.countsAs, heq, h]
  show (if isDateSection s then _ else _) = _
  rw [if_neg (Bool.eq_false_iff.1 hdate), renderNumber_eq]
  cases timesPercent y s <;> rfl

/-- A number that a format multiplies is displayed a hundred times as large. -/
theorem Multiplies.display_eq {f : String} (h : Multiplies f x) :
    ∃ (minus : Bool) (color : Option String) (s : List Char) (y : Number), x.UpToSign y ∧
      display x.toValue (some f) = y.mul (.int 100) >>= showPlaces minus color s := by
  obtain ⟨hf, hcolor, hnumber, hsign⟩ := h
  obtain ⟨⟨s, color⟩, hprepare⟩ := Faulty.not_iff.1 fun hfaulty =>
    hcolor ((prepare_faulty _).1 hfaulty)
  rw [← pattern_of_prepare hprepare] at hnumber hsign
  obtain ⟨minus, y, hsize, heq⟩ := display_of_section hf hprepare hnumber
  refine ⟨minus, color, s, y, hsize, heq.trans ?_⟩
  unfold timesPercent
  rw [if_pos (List.contains_iff_mem.2 hsign)]

end Format

namespace Resolver

open Format

variable {r : Resolver} {w : Workbook} {n : Nat} {c c' : Cell} {f : String} {x y : Number}

theorem isPercent_iff : isPercent (some f) = true ↔ '%' ∈ f.toList := List.contains_iff_mem

/-- The value for the formatter is that of the number it gets. -/
theorem scaled_toValue (r : Resolver) (f : String) (x : Number) :
    r.scaled (some f) x.toValue = (r.handed f x).map Number.toValue := by
  unfold scaled handed
  dsimp only
  have hboth : (r.scaling && isPercent (some f)) = true ↔ r.Divides f := Bool.and_eq_true_iff
  by_cases hdivide : r.Divides f
  · rw [if_pos hdivide, if_pos (hboth.2 hdivide)]
    cases x with
    | int n =>
      show (Number.div (.int n) (.int 100) >>= fun y => pure y.toValue) = _
      cases Number.div (.int n) (.int 100) <;> rfl
    | float x =>
      show (Number.div (.float x) (.int 100) >>= fun y => pure y.toValue) = _
      cases Number.div (.float x) (.int 100) <;> rfl
  · rw [if_neg hdivide, if_neg fun h => hdivide (hboth.1 h)]
    rfl

/-- With the formatter that knows number formats a cell shows what that displays. -/
theorem shown_text (r : Resolver) (hr : r.formatter = standardFormatter) (f : String) (v : Value) :
    (r.shown (some f) v).map Shown.text = (display v (some f)).map Shown.text := by
  by_cases hf : f = ""
  · rw [hf, display_of_plain (by decide)]
    rfl
  · unfold shown
    split
    · next heq => cases heq
    · next heq =>
      cases heq
      exact absurd rfl hf
    · next heq =>
      cases heq
      rw [hr]
      unfold standardFormatter
      cases display v (some f) <;> rfl

/-- A formula that has a number shows the number that the formatter gets for it. -/
theorem displayValue_of_number (hr : r.formatter = standardFormatter)
    (hformula : c.value.formula?.isSome = true) (hformat : c.format = some f)
    (hvalue : c'.resolvedValue = x.toValue) (h : r.resolveCell w n c = (c', none)) :
    ∃ y s, r.handed f x = .ok y ∧ display y.toValue (some f) = .ok s ∧
      c'.displayValue = some s.text := by
  obtain ⟨v, s, -, hs, rfl⟩ := r.resolveCell_done.1 h
  obtain ⟨text, htext⟩ := Option.isSome_iff_exists.1 hformula
  cases (show v = x.toValue from hvalue)
  unfold presented at hs
  rw [show (store c x.toValue).value.formula? = some text from htext,
    show (store c x.toValue).format = some f from hformat,
    show (store c x.toValue).resolvedValue = x.toValue from rfl] at hs
  dsimp only at hs
  rw [r.scaled_toValue] at hs
  cases hy : r.handed f x with
  | error e =>
    rw [hy] at hs
    cases hs
  | ok y =>
    rw [hy] at hs
    have htext := r.shown_text hr f y.toValue
    rw [show r.shown (some f) y.toValue = .ok s from hs] at htext
    cases hdisplay : display y.toValue (some f) with
    | error e =>
      rw [hdisplay] at htext
      cases htext
    | ok s' =>
      rw [hdisplay] at htext
      exact ⟨y, s', rfl, hdisplay, congrArg some (Except.ok.inj htext)⟩

theorem divides_of_multiplies (hscaling : r.scaling = true) (h : Multiplies f y) : r.Divides f := by
  refine ⟨hscaling, isPercent_iff.2 ?_⟩
  have hmem := mem_of_mem_pattern (mem_of_mem_outsideQuotes h.2.sign) (by decide)
  exact mem_of_mem_splitSections
    (List.mem_of_mem_take (sectionFor_mem y (splitSections_ne_nil _))) hmem

/-- For one number both are done, or neither, when the format has no percent sign or the section for
the number shows it in percent. -/
theorem divides_iff_multiplies (hscaling : r.scaling = true) (f : String) (y : Number) :
    (r.Divides f ↔ Multiplies f y) ↔
      '%' ∉ f.toList ∨ ShowsPercent (sectionFor y (splitSections f.toList)) := by
  constructor
  · intro h
    by_cases hsign : '%' ∈ f.toList
    · exact .inr (h.1 ⟨hscaling, isPercent_iff.2 hsign⟩).2
    · exact .inl hsign
  · rintro (hsign | hsection)
    · exact iff_of_false (fun h => hsign (isPercent_iff.1 h.2))
        fun h => hsign (isPercent_iff.1 (divides_of_multiplies hscaling h).2)
    · refine ⟨fun h => ⟨?_, hsection⟩, divides_of_multiplies hscaling⟩
      have hplain := isPlain_eq_false (isPercent_iff.1 h.2) (by decide)
      rwa [String.ofList_toList] at hplain

/-- For all numbers, each of the first three sections has to show numbers in percent. -/
theorem forall_divides_iff_multiplies (hscaling : r.scaling = true) (f : String) :
    (∀ x y, r.handed f x = .ok y → (r.Divides f ↔ Multiplies f y)) ↔
      '%' ∉ f.toList ∨ ∀ raw ∈ (splitSections f.toList).take 3, ShowsPercent raw := by
  constructor
  · intro h
    by_cases hsign : '%' ∈ f.toList
    · refine .inr fun raw hraw => ?_
      have hdivides : r.Divides f := ⟨hscaling, isPercent_iff.2 hsign⟩
      obtain ⟨n, y, hy, hsection⟩ := exists_shown_by hraw
      have hsame := (divides_iff_multiplies hscaling f y).1
        (h (.int n) y ((if_pos hdivides).trans hy))
      exact hsection ▸ hsame.resolve_left (not_not.2 hsign)
    · exact .inl hsign
  · intro h x y _
    refine (divides_iff_multiplies hscaling f y).2 (h.imp_right fun hsections => ?_)
    exact hsections _ (sectionFor_mem y (splitSections_ne_nil _))

end Resolver

open Resolver Format

/-- **Where the division and the multiplication cancel.** A formula that has a number shows what is
displayed for the number that the formatter gets. With scaling on, a number that is displayed a
hundred times as large has been divided by 100 before. Both are done, or neither, for a number
exactly when the format has no percent sign or the section for the number shows it in percent; and
for every number exactly when that holds of each of the first three sections. -/
theorem percent_cancels_iff (r : Resolver) (hr : r.formatter = standardFormatter)
    (hscaling : r.scaling = true) (f : String) :
    (∀ (w : Workbook) (n : Nat) (c c' : Cell) (x : Number), c.value.formula?.isSome = true →
      c.format = some f → c'.resolvedValue = x.toValue → r.resolveCell w n c = (c', none) →
      ∃ y s, r.handed f x = .ok y ∧ display y.toValue (some f) = .ok s ∧
        c'.displayValue = some s.text) ∧
    (∀ y : Number, Multiplies f y → r.Divides f ∧
      ∃ (minus : Bool) (color : Option String) (s : List Char) (z : Number), y.UpToSign z ∧
        display y.toValue (some f) = z.mul (.int 100) >>= showPlaces minus color s) ∧
    (∀ y : Number, (r.Divides f ↔ Multiplies f y) ↔
      '%' ∉ f.toList ∨ ShowsPercent (sectionFor y (splitSections f.toList))) ∧
    ((∀ x y, r.handed f x = .ok y → (r.Divides f ↔ Multiplies f y)) ↔
      '%' ∉ f.toList ∨ ∀ raw ∈ (splitSections f.toList).take 3, ShowsPercent raw) :=
  ⟨fun _ _ _ _ _ hformula hformat hvalue h => displayValue_of_number hr hformula hformat hvalue h,
    fun _ h => ⟨divides_of_multiplies hscaling h, h.display_eq⟩,
    divides_iff_multiplies hscaling f, forall_divides_iff_multiplies hscaling f⟩

/-- A formula cell under a percent format. -/
def thirtyPercent : Cell := { value := .text "=30", format := some "0%" }

theorem percentPlaces_showsPercent : ShowsPercent ['0', '%'] := by
  have hnone : colorTags ['0', '%'] = [] := by decide +kernel
  refine ⟨?_, by decide +kernel, by decide +kernel⟩
  rintro ⟨content, rest, hsome, -⟩
  cases hnone.symm.trans hsome

theorem thirty_shown_in_percent :
    (firstDay.resolveCell [] 0 thirtyPercent).1.displayValue = some "30%" ∧
      ∃ y s, firstDay.handed "0%" (.int 30) = .ok y ∧ Multiplies "0%" y ∧
        display y.toValue (some "0%") = .ok s ∧ some "30%" = some s.text := by
  obtain ⟨hcell, -, hcancels, -⟩ := percent_cancels_iff firstDay rfl rfl "0%"
  have hshown : (firstDay.resolveCell [] 0 thirtyPercent).1.displayValue = some "30%" := by
    decide +kernel
  have hvalue : (firstDay.resolveCell [] 0 thirtyPercent).1.resolvedValue = .int 30 := by
    with_unfolding_all rfl
  obtain ⟨y, s, hy, hdisplay, htext⟩ := hcell [] 0 thirtyPercent
    (firstDay.resolveCell [] 0 thirtyPercent).1 (.int 30) (by decide +kernel) rfl hvalue
    (Prod.ext rfl (by decide +kernel))
  have hsections : splitSections "0%".toList = [['0', '%']] := by decide +kernel
  have hsection := sectionFor_mem y (splitSections_ne_nil "0%".toList)
  rw [hsections] at hsection
  have hpercent : ShowsPercent (sectionFor y (splitSections "0%".toList)) := by
    rw [hsections, List.mem_singleton.1 hsection]
    exact percentPlaces_showsPercent
  exact ⟨hshown, y, s, hy, ((hcancels y).2 (.inr hpercent)).1 (by decide), hdisplay,
    hshown.symm.trans htext⟩

/-- A formula cell whose format has a percent sign in quotes. -/
def quotedPercent : Cell := { value := .text "=5", format := some "0.00\"%\"" }

/-- The division and the multiplication do not always cancel: under a percent sign in quotes 5 is
divided by 100, no number is multiplied, and a hundredth is displayed. -/
theorem quotedPercent_divided_only :
    (firstDay.resolveCell [] 0 quotedPercent).1.resolvedValue = .int 5 ∧
      (firstDay.resolveCell [] 0 quotedPercent).1.displayValue = some "0.05%" ∧
      firstDay.Divides "0.00\"%\"" ∧
      ¬ ∃ y : Number, Multiplies "0.00\"%\"" y := by
  refine ⟨by with_unfolding_all rfl, by decide +kernel, by decide, ?_⟩
  rintro ⟨y, -, hpercent⟩
  have hsections : splitSections "0.00\"%\"".toList = ["0.00\"%\"".toList] := by
    decide +kernel
  have hmem := sectionFor_mem y (splitSections_ne_nil "0.00\"%\"".toList)
  rw [hsections] at hpercent hmem
  rw [List.mem_singleton.1 hmem] at hpercent
  exact absurd hpercent.sign (by decide +kernel)

end Spreadsheet
