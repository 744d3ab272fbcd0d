import Spreadsheet.Format.Refusal
import Spreadsheet.Proofs.DoubleRange

/-!
# When a display fails

Each step of a display fails for one cause: writing a whole number in full (`integerText_faulty`),
taking out the tags of a section (`prepare_faulty`), making a double of a number
(`toFloat_faulty`), reading a text as a number (`numberOfText_faulty`). From these the causes of the
whole display are put together (`display_faulty_iff`).
-/

namespace Spreadsheet

open Numeral

/-- The computation stops with a fault. -/
def Faulty {α : Type} (x : Except Fault α) : Prop := ∃ f, x = .error f

namespace Faulty

variable {α β : Type} {x : Except Fault α}

@[simp]
theorem ok_iff (a : α) : Faulty (.ok a : Except Fault α) ↔ False := by
  refine iff_false_intro ?_
  rintro ⟨f, h⟩
  cases h

@[simp]
theorem pure_iff (a : α) : Faulty (pure a : Except Fault α) ↔ False := ok_iff a

@[simp]
theorem error_iff (f : Fault) : Faulty (.error f : Except Fault α) ↔ True :=
  ⟨fun _ => trivial, fun _ => ⟨f, rfl⟩⟩

/-- A computation in two steps stops in the first one, or in the second one with the result of the
first. -/
theorem bind_iff {f : α → Except Fault β} :
    Faulty (x >>= f) ↔ Faulty x ∨ ∃ a, x = .ok a ∧ Faulty (f a) := by
  cases x with
  | error e => exact ⟨fun _ => .inl ⟨e, rfl⟩, fun _ => ⟨e, rfl⟩⟩
  | ok a =>
    constructor
    · exact fun h => .inr ⟨a, rfl, h⟩
    · rintro (⟨e, h⟩ | ⟨b, h, hb⟩)
      · cases h
      · cases h
        exact hb

/-- A second step that fails on one condition, whatever the result of the first. -/
theorem bind_or_iff {f : α → Except Fault β} {P : Prop} (h : ∀ a, Faulty (f a) ↔ P) :
    Faulty (x >>= f) ↔ Faulty x ∨ P := by
  cases x with
  | error e => exact ⟨fun _ => .inl ⟨e, rfl⟩, fun _ => ⟨e, rfl⟩⟩
  | ok a =>
    rw [ok_iff, false_or]
    exact h a

/-- A second step that never fails does not count. -/
theorem bind_ok_iff {f : α → Except Fault β} (h : ∀ a, Faulty (f a) ↔ False) :
    Faulty (x >>= f) ↔ Faulty x := by
  rw [bind_or_iff h, or_false]

theorem not_iff : ¬ Faulty x ↔ ∃ a, x = .ok a := by
  cases x with
  | error e => exact ⟨fun h => absurd ⟨e, rfl⟩ h, fun ⟨a, h⟩ => by cases h⟩
  | ok a => exact ⟨fun _ => ⟨a, rfl⟩, fun _ ⟨f, h⟩ => by cases h⟩

end Faulty

/-! ## Values as they are -/

theorem integerText_faulty (n : Int) :
    Faulty (integerText n) ↔ maxDigits < (digitsOf n.natAbs).length := by
  unfold integerText integerText?
  dsimp only
  by_cases h : (digitsOf n.natAbs).length ≤ maxDigits
  · rw [if_pos h]
    simpa using h
  · rw [if_neg h]
    simpa using h

namespace Value

theorem overlong_int {n : Int} : (Value.int n).Overlong ↔ maxDigits < (digitsOf n.natAbs).length :=
  ⟨fun h => by cases h with | int h => exact h, .int⟩

theorem overlong_list {items : List Value} :
    (Value.list items).Overlong ↔ ∃ v ∈ items, v.Overlong :=
  ⟨fun h => by cases h with | item hv h => exact ⟨_, hv, h⟩, fun ⟨_, hv, h⟩ => .item hv h⟩

theorem overlong_record {fields : List (Value × Value)} :
    (Value.record fields).Overlong ↔ ∃ f ∈ fields, f.1.Overlong ∨ f.2.Overlong := by
  constructor
  · intro h
    cases h with
    | name hf h => exact ⟨_, hf, .inl h⟩
    | field hf h => exact ⟨_, hf, .inr h⟩
  · rintro ⟨f, hf, h | h⟩
    · exact .name hf h
    · exact .field hf h

mutual

theorem literal_faulty (v : Value) : Faulty v.literal ↔ v.Overlong := by
  cases v with
  | int n =>
    rw [overlong_int]
    exact integerText_faulty n
  | list items =>
    rw [overlong_list, ← literals_faulty items]
    exact Faulty.bind_ok_iff fun _ => Faulty.pure_iff _
  | record fields =>
    rw [overlong_record, ← fieldLiterals_faulty fields]
    exact Faulty.bind_ok_iff fun _ => Faulty.pure_iff _
  | _ => exact iff_of_false ((Faulty.ok_iff _).1) (by rintro ⟨⟩)

theorem literals_faulty (vs : List Value) : Faulty (literals vs) ↔ ∃ v ∈ vs, v.Overlong := by
  cases vs with
  | nil => simp [literals]
  | cons v rest =>
    have hrest := literals_faulty rest
    have hlast : ∀ s, Faulty (literals rest >>= fun others => pure (s :: others)) ↔
        ∃ v ∈ rest, v.Overlong := fun s =>
      (Faulty.bind_ok_iff fun _ => Faulty.pure_iff _).trans hrest
    rw [List.exists_mem_cons_iff, ← literal_faulty v]
    exact Faulty.bind_or_iff hlast

theorem fieldLiterals_faulty (fields : List (Value × Value)) :
    Faulty (fieldLiterals fields) ↔ ∃ f ∈ fields, f.1.Overlong ∨ f.2.Overlong := by
  match fields with
  | [] => simp [fieldLiterals]
  | (name, v) :: rest =>
    have hrest := fieldLiterals_faulty rest
    have hlast : ∀ s : String, Faulty (fieldLiterals rest >>= fun others => pure (s :: others)) ↔
        ∃ f ∈ rest, f.1.Overlong ∨ f.2.Overlong := fun s =>
      (Faulty.bind_ok_iff fun _ => Faulty.pure_iff _).trans hrest
    rw [List.exists_mem_cons_iff, ← literal_faulty name, ← literal_faulty v, or_assoc]
    exact Faulty.bind_or_iff fun k => Faulty.bind_or_iff fun s => hlast (k ++ ": " ++ s)

end

theorem display_faulty (v : Value) : Faulty v.display ↔ v.Overlong := by
  cases v with
  | int n => exact literal_faulty (.int n)
  | list items => exact literal_faulty (.list items)
  | record fields => exact literal_faulty (.record fields)
  | _ => exact iff_of_false ((Faulty.ok_iff _).1) (by rintro ⟨⟩)

theorem CountsAs.unique {v : Value} {x y : Number} (hx : v.CountsAs x) (hy : v.CountsAs y) :
    x = y := by
  cases hx with
  | int n => cases hy; rfl
  | float x => cases hy; rfl
  | text hx =>
    cases hy with
    | text hy =>
      cases hx.symm.trans hy
      rfl

theorem numberOfText_faulty (s : String) : Faulty (numberOfText s) ↔ LongNumeral s := by
  unfold numberOfText LongNumeral
  cases hread : DecimalText.read? (Text.stripChars s.toList) with
  | none => simp
  | some d =>
    by_cases hwhole : d.isWhole = true
    · by_cases hlen : d.digits.length ≤ maxDigits
      · simp [hwhole, hlen]
      · simp [hwhole, hlen, Nat.lt_of_not_le hlen]
    · simp [hwhole]

end Value

/-! ## Numbers -/

namespace Number

/-- The number is a whole one that, so many times, is beyond the doubles. -/
def Beyond (x : Number) (times : Nat) : Prop := ∃ n, x = .int n ∧ doubleLimit ≤ n.natAbs * times

theorem beyond_int {n : Int} {times : Nat} :
    (Number.int n).Beyond times ↔ doubleLimit ≤ n.natAbs * times := by
  refine ⟨?_, fun h => ⟨n, rfl, h⟩⟩
  rintro ⟨_, ⟨⟩, h⟩
  exact h

theorem not_beyond_float {x : Float} {times : Nat} : ¬ (Number.float x).Beyond times := by
  rintro ⟨_, ⟨⟩, -⟩

theorem toFloat_faulty (x : Number) : Faulty x.toFloat ↔ x.Beyond 1 := by
  cases x with
  | int n =>
    rw [beyond_int, Nat.mul_one, ← ofInt?_eq_none_iff]
    simp only [toFloat]
    cases ofInt? n with
    | none => simp
    | some y => simp
  | float x => exact iff_of_false ((Faulty.ok_iff _).1) not_beyond_float

theorem exists_toFloat_hundred : ∃ y, (Number.int 100).toFloat = .ok y := by
  refine Faulty.not_iff.1 ?_
  rw [toFloat_faulty, beyond_int]
  have := le_doubleLimit
  show ¬ doubleLimit ≤ 100
  omega

/-- A number can be taken a hundred times, and is then beyond the doubles when so much of it is. -/
theorem exists_mul_hundred (x : Number) :
    ∃ y, x.mul (.int 100) = .ok y ∧ (y.Beyond 1 ↔ x.Beyond 100) := by
  cases x with
  | int n =>
    refine ⟨.int (n * 100), rfl, ?_⟩
    rw [beyond_int, beyond_int, Int.natAbs_mul, Nat.mul_one]
    rfl
  | float x =>
    obtain ⟨y, hy⟩ := exists_toFloat_hundred
    refine ⟨.float (x * y), ?_, iff_of_false not_beyond_float not_beyond_float⟩
    show ((Number.int 100).toFloat >>= fun y => (.ok (.float (x * y)) : Except Fault Number)) = _
    rw [hy]
    rfl

/-- A number has a hundredth unless that is beyond the doubles. -/
theorem div_hundred_faulty (x : Number) :
    Faulty (x.div (.int 100)) ↔ ∃ n, x = .int n ∧ doubleLimit * 100 ≤ n.natAbs := by
  cases x with
  | int n =>
    have hquotient := ofQuotient?_eq_none_iff n (b := 100) (by decide)
    simp only [div, int.injEq, exists_eq_left']
    refine Iff.trans ?_ hquotient
    cases ofQuotient? n 100 <;> simp
  | float x =>
    obtain ⟨y, hy⟩ := exists_toFloat_hundred
    refine iff_of_false ?_ (by rintro ⟨n, ⟨⟩, -⟩)
    show ¬ Faulty ((Number.int 100).toFloat >>= fun y =>
      (.ok (.float (x / y)) : Except Fault Number))
    rw [hy]
    exact (Faulty.ok_iff _).1

theorem beyond_neg (x : Number) (times : Nat) : x.neg.Beyond times ↔ x.Beyond times := by
  cases x with
  | int n =>
    show (Number.int (-n)).Beyond times ↔ _
    rw [beyond_int, beyond_int, Int.natAbs_neg]
  | float x => exact iff_of_false not_beyond_float not_beyond_float

theorem beyond_abs (x : Number) (times : Nat) : x.abs.Beyond times ↔ x.Beyond times := by
  cases x with
  | int n =>
    show (Number.int n.natAbs).Beyond times ↔ _
    rw [beyond_int, beyond_int, Int.natAbs_natCast]
  | float x => exact iff_of_false not_beyond_float not_beyond_float

theorem UpToSign.beyond {x y : Number} (h : x.UpToSign y) (times : Nat) :
    y.Beyond times ↔ x.Beyond times := by
  cases h with
  | same => exact Iff.rfl
  | neg => exact x.beyond_neg times
  | abs => exact x.beyond_abs times

end Number

/-! ## Sections -/

namespace Format

theorem prepare_eq (raw : List Char) : prepare raw =
    match colorTags raw with
    | [] => .ok (pattern raw, none)
    | content :: _ =>
      if isFalseColor content then .error .unknownColor
      else .ok (pattern raw, colorOf? content) := by
  unfold prepare
  cases colorTags raw with
  | nil => rfl
  | cons content rest =>
    dsimp only
    split <;> rfl

theorem prepare_faulty (raw : List Char) : Faulty (prepare raw) ↔ HasFalseColor raw := by
  rw [prepare_eq]
  unfold HasFalseColor
  cases colorTags raw with
  | nil => simp
  | cons content rest => by_cases hfalse : isFalseColor content = true <;> simp [hfalse]

theorem pattern_of_prepare {raw s : List Char} {color : Option String}
    (h : prepare raw = .ok (s, color)) : s = pattern raw := by
  rw [prepare_eq] at h
  split at h
  · cases h
    rfl
  · split at h
    · cases h
    · cases h
      rfl

theorem showPlain_faulty (v : Value) : Faulty (showPlain v) ↔ v.Overlong :=
  (Faulty.bind_ok_iff fun _ => Faulty.pure_iff _).trans v.display_faulty

theorem fillPattern_faulty (x : Number) (places : List Char) :
    Faulty (fillPattern x places) ↔ x.Beyond 1 :=
  (Faulty.bind_ok_iff fun _ => Faulty.pure_iff _).trans x.toFloat_faulty

theorem dateOfNumber_faulty (x : Number) : Faulty (dateOfNumber x) ↔ x.Beyond 1 :=
  (Faulty.bind_ok_iff fun _ => Faulty.pure_iff _).trans x.toFloat_faulty

/-- Showing a number fails when the section has digit places and the number, as often as a percent
sign takes it, is beyond the doubles. -/
theorem renderNumber_faulty (x : Number) (s : List Char) :
    Faulty (renderNumber x s) ↔ (findPattern? (outsideQuotes s)).isSome = true ∧
      x.Beyond (if (outsideQuotes s).contains '%' then 100 else 1) := by
  obtain ⟨y, hy, hbeyond⟩ := x.exists_mul_hundred
  unfold renderNumber
  dsimp only
  cases findPattern? (outsideQuotes s) with
  | none =>
    refine iff_of_false ?_ fun h => Bool.false_ne_true h.1
    split
    · rw [hy]
      exact (Faulty.ok_iff _).1
    · exact (Faulty.ok_iff _).1
  | some places =>
    refine Iff.trans ?_ (and_iff_right rfl).symm
    split
    · rw [hy, ← hbeyond, ← fillPattern_faulty y places]
      show Faulty (fillPattern y places >>= _) ↔ _
      refine Faulty.bind_ok_iff fun body => ?_
      split <;> exact Faulty.pure_iff _
    · rw [← fillPattern_faulty x places]
      show Faulty (fillPattern x places >>= _) ↔ _
      refine Faulty.bind_ok_iff fun body => ?_
      split <;> exact Faulty.pure_iff _

/-- The section for a number, and the number without its sign or with the opposite one. -/
theorem showNumber_eq (v : Value) (x : Number) (sections : List (List Char)) :
    ∃ (minus : Bool) (y : Number), x.UpToSign y ∧
      showNumber v x sections = do
      let (s, color) ← prepare (sectionFor x sections)
      if isDateSection s then
        match ← dateOfNumber y with
        | some date => return ⟨renderDate date s, color⟩
        | none => showPlain v
      else
        let body ← renderNumber y s
        return ⟨String.ofList (if minus then '-' :: body else body), color⟩ := by
  unfold showNumber sectionFor
  generalize x.isNegative = negative
  generalize x.isZero = zero
  rcases sections with _ | ⟨a, _ | ⟨b, _ | ⟨c, rest⟩⟩⟩ <;> cases negative <;> cases zero
  all_goals first
    | exact ⟨false, x.neg, .neg, rfl⟩
    | exact ⟨false, x, .same, rfl⟩
    | exact ⟨_, x.abs, .abs, rfl⟩

/-- A single section shows every number, by its size and with a minus sign. -/
theorem showNumber_single {raw s : List Char} {color : Option String}
    (h : prepare raw = .ok (s, color)) (v : Value) (x : Number) :
    showNumber v x [raw] =
      if isDateSection s then dateOfNumber x.abs >>= fun
        | some date => .ok ⟨renderDate date s, color⟩
        | none => showPlain v
      else renderNumber x.abs s >>= fun body =>
        .ok ⟨String.ofList (if x.isNegative then '-' :: body else body), color⟩ := by
  have hunfold : showNumber v x [raw] = prepare raw >>= fun (s, color) =>
      if isDateSection s then dateOfNumber x.abs >>= fun
        | some date => .ok ⟨renderDate date s, color⟩
        | none => showPlain v
      else renderNumber x.abs s >>= fun body =>
        .ok ⟨String.ofList (if x.isNegative then '-' :: body else body), color⟩ := by
    unfold showNumber
    cases x.isNegative <;> cases x.isZero <;> rfl
  rw [hunfold, h]
  rfl

/-- A single section shows a date, or its serial number. -/
theorem showDate_single {raw s : List Char} {color : Option String}
    (h : prepare raw = .ok (s, color)) (date : Calendar.Date) (serial : Except Fault Value) :
    showDate date serial [raw] =
      if isDateSection s then .ok ⟨renderDate date s, color⟩
      else serial >>= fun w => numberOf? w >>= fun
        | some x => showNumber w x [raw]
        | none => showText w [raw] := by
  unfold showDate
  rw [List.headD_cons, h]
  rfl

theorem exists_beyondDoubles {x : Number} {raw : List Char} :
    (∃ n, x = .int n ∧ BeyondDoubles n raw) ↔
      if isDateSection (pattern raw) then x.Beyond 1
      else (findPattern? (outsideQuotes (pattern raw))).isSome = true ∧
        x.Beyond (if (outsideQuotes (pattern raw)).contains '%' then 100 else 1) := by
  constructor
  · rintro ⟨n, rfl, h⟩
    cases h with
    | date hdate hlimit =>
      rw [if_pos hdate, Number.beyond_int, Nat.mul_one]
      exact hlimit
    | places hdate hplaces hlimit =>
      rw [if_neg (by rw [hdate]; exact Bool.false_ne_true), hplaces, Number.beyond_int]
      exact ⟨rfl, hlimit⟩
  · intro h
    split at h
    · next hdate =>
      obtain ⟨n, rfl, hlimit⟩ := h
      exact ⟨n, rfl, .date hdate (by rwa [Nat.mul_one] at hlimit)⟩
    · next hdate =>
      obtain ⟨hplaces, n, rfl, hlimit⟩ := h
      obtain ⟨places, hplaces⟩ := Option.isSome_iff_exists.1 hplaces
      exact ⟨n, rfl, .places (Bool.eq_false_iff.2 hdate) hplaces hlimit⟩

/-- Showing a number by its section fails for a false color, or for a whole number beyond the
doubles that is shown with digit places or as a date. A value that is overlong, and so cannot be
shown as it is in place of a date, has to be such a number. -/
theorem showNumber_faulty {v : Value} {x : Number} (hv : v.Overlong → x.Beyond 1)
    (sections : List (List Char)) : Faulty (showNumber v x sections) ↔
      HasFalseColor (sectionFor x sections) ∨
      ∃ n, x = .int n ∧ BeyondDoubles n (sectionFor x sections) := by
  obtain ⟨minus, y, hsize, heq⟩ := showNumber_eq v x sections
  rw [heq, exists_beyondDoubles, ← prepare_faulty, Faulty.bind_iff]
  cases hprepare : prepare (sectionFor x sections) with
  | error f => simp
  | ok prepared =>
    obtain ⟨s, color⟩ := prepared
    cases pattern_of_prepare hprepare
    simp only [Faulty.ok_iff, false_or, Except.ok.injEq, exists_eq_left']
    split
    · -- In place of a date that does not exist the value is shown as it is.
      rw [Faulty.bind_iff, dateOfNumber_faulty, hsize.beyond]
      refine or_iff_left_of_imp ?_
      rintro ⟨date, -, hplain⟩
      cases date with
      | some date => exact absurd hplain (Faulty.ok_iff _).1
      | none => exact hv ((showPlain_faulty v).1 hplain)
    · rw [Faulty.bind_ok_iff fun _ => Faulty.pure_iff _, renderNumber_faulty, hsize.beyond]

theorem showText_text_faulty (s : String) (sections : List (List Char)) :
    Faulty (showText (.text s) sections) ↔ ∃ raw, sections[3]? = some raw ∧ HasFalseColor raw := by
  unfold showText
  cases sections[3]? with
  | none => exact iff_of_false (by rw [showPlain_faulty]; rintro ⟨⟩) (by rintro ⟨_, ⟨⟩, -⟩)
  | some raw =>
    dsimp only
    rw [Faulty.bind_ok_iff fun _ => Faulty.pure_iff _, prepare_faulty]
    simp

theorem showText_faulty {v : Value} (hv : ∀ s, v ≠ .text s) (sections : List (List Char)) :
    Faulty (showText v sections) ↔ v.Overlong := by
  rw [← showPlain_faulty]
  unfold showText
  split
  · exact absurd rfl (hv _)
  · exact Iff.rfl

theorem beyond_of_overlong {v : Value} {x : Number} (h : v.CountsAs x) (hv : v.Overlong) :
    x.Beyond 1 := by
  cases h with
  | int n =>
    rw [Number.beyond_int, Nat.mul_one]
    refine Nat.le_of_not_lt fun hlt => ?_
    exact absurd (Value.overlong_int.1 hv) (Nat.not_lt_of_le (length_digitsOf_le hlt))
  | float x => cases hv
  | text _ => cases hv

/-- A date is shown unless its section has a false color, or is no date section and its serial
number cannot be shown. -/
theorem showDate_faulty (date : Calendar.Date) (serial : Except Fault Value)
    (sections : List (List Char)) : Faulty (showDate date serial sections) ↔
      HasFalseColor (sections.headD []) ∨
      isDateSection (pattern (sections.headD [])) = false ∧ Faulty (do
        let v ← serial
        match ← numberOf? v with
        | some x => showNumber v x sections
        | none => showText v sections) := by
  unfold showDate
  rw [← prepare_faulty, Faulty.bind_iff]
  cases hprepare : prepare (sections.headD []) with
  | error f => simp
  | ok prepared =>
    obtain ⟨s, color⟩ := prepared
    cases pattern_of_prepare hprepare
    simp only [Faulty.ok_iff, false_or, Except.ok.injEq, exists_eq_left']
    cases isDateSection (pattern (sections.headD [])) with
    | true => simp
    | false =>
      exact (iff_of_eq (congrArg Faulty (if_neg Bool.false_ne_true))).trans
        (and_iff_right rfl).symm

/-! ## Formats -/

section

variable {v : Value} {x : Number} {format : String}

theorem display_of_plain (hf : isPlain format = true) (v : Value) :
    display v (some format) = showPlain v := if_pos hf

theorem display_of_not_plain (hf : isPlain format = false) (v : Value) : display v (some format) =
    match v with
    | .null | .bool _ => showPlain v
    | .date d => showDate d (serialOf v) (splitSections format.toList)
    | .moment t => showDate t.date (serialOf v) (splitSections format.toList)
    | v => (do
      match ← numberOf? v with
      | some x => showNumber v x (splitSections format.toList)
      | none => showText v (splitSections format.toList)) := by
  have hneg : ¬ isPlain format = true := by
    rw [hf]
    exact Bool.false_ne_true
  refine (if_neg hneg).trans ?_
  cases v <;> rfl

theorem display_of_number (hf : isPlain format = false) (hv : v.CountsAs x) :
    display v (some format) = showNumber v x (splitSections format.toList) := by
  rw [display_of_not_plain hf]
  cases hv with
  | int n => rfl
  | float x => rfl
  | @text s _ htext =>
    show (Value.numberOfText s >>= fun n => _) = _
    rw [htext]
    rfl

theorem unshowable_of_number (hf : isPlain format = false) (hv : v.CountsAs x) :
    Unshowable v (some format) ↔ HasFalseColor (sectionFor x (splitSections format.toList)) ∨
      ∃ n, x = .int n ∧ BeyondDoubles n (sectionFor x (splitSections format.toList)) := by
  have counted : ∀ raw number, ShownBy (splitSections format.toList) v raw number →
      raw = sectionFor x (splitSections format.toList) ∧ number = some x := by
    intro raw number h
    cases h with
    | number hv' =>
      cases hv'.unique hv
      exact ⟨rfl, rfl⟩
    | text hnone _ =>
      cases hv with
      | text htext => cases hnone.symm.trans htext
    | date hdated => cases hdated <;> cases hv
    | serial _ hserial => cases hserial <;> cases hv
  constructor
  · intro h
    cases h with
    | plain hplain _ => rw [hf] at hplain; cases hplain
    | collection hv' _ => cases hv' <;> cases hv
    | numeral _ hlong =>
      cases hv with
      | text htext =>
        obtain ⟨f, herror⟩ := (Value.numberOfText_faulty _).2 hlong
        cases htext.symm.trans herror
    | offset => cases hv
    | color _ hshown hfalse =>
      obtain ⟨rfl, -⟩ := counted _ _ hshown
      exact .inl hfalse
    | range _ hshown hbeyond =>
      obtain ⟨rfl, hx⟩ := counted _ _ hshown
      cases hx
      exact .inr ⟨_, rfl, hbeyond⟩
  · rintro (hfalse | ⟨n, rfl, hbeyond⟩)
    · exact .color hf (.number hv) hfalse
    · exact .range hf (.number hv) hbeyond

theorem unshowable_text {s : String} (hf : isPlain format = false)
    (hnone : Value.numberOfText s = .ok none) : Unshowable (.text s) (some format) ↔
      ∃ raw, (splitSections format.toList)[3]? = some raw ∧ HasFalseColor raw := by
  constructor
  · intro h
    cases h with
    | plain hplain _ => rw [hf] at hplain; cases hplain
    | collection hv _ => cases hv
    | numeral _ hlong =>
      obtain ⟨f, herror⟩ := (Value.numberOfText_faulty _).2 hlong
      cases hnone.symm.trans herror
    | color _ hshown hfalse =>
      cases hshown with
      | number hv => cases hv with | text hx => cases hnone.symm.trans hx
      | text _ hraw => exact ⟨_, hraw, hfalse⟩
      | date hdated => cases hdated
      | serial _ hserial => cases hserial
    | range _ hshown _ =>
      cases hshown with
      | number hv => cases hv with | text hx => cases hnone.symm.trans hx
      | serial _ hserial => cases hserial
  · rintro ⟨raw, hraw, hfalse⟩
    exact .color hf (.text hnone hraw) hfalse

theorem unshowable_collection (hv : v.IsCollection) :
    Unshowable v (some format) ↔ v.Overlong := by
  refine ⟨fun h => ?_, .collection hv⟩
  cases h with
  | plain _ h => exact h
  | collection _ h => exact h
  | numeral => cases hv
  | offset => cases hv
  | color _ hshown _ =>
    cases hshown with
    | number hv' => cases hv <;> cases hv'
    | text => cases hv
    | date hdated => cases hdated <;> cases hv
    | serial _ hserial => cases hserial <;> cases hv
  | range _ hshown _ =>
    cases hshown with
    | number hv' => cases hv <;> cases hv'
    | serial _ hserial => cases hserial; cases hv

theorem unshowable_dated (hf : isPlain format = false) (hv : v.IsDated) :
    Unshowable v (some format) ↔ HasFalseColor ((splitSections format.toList).headD []) ∨
      isDateSection (pattern ((splitSections format.toList).headD [])) = false ∧
        ((∃ t, v = .moment t ∧ t.offset.isSome = true) ∨
        ∃ x, v.SerialIs x ∧ (HasFalseColor (sectionFor x (splitSections format.toList)) ∨
          ∃ n, x = .int n ∧ BeyondDoubles n (sectionFor x (splitSections format.toList)))) := by
  constructor
  · intro h
    cases h with
    | plain hplain _ => rw [hf] at hplain; cases hplain
    | collection hv' _ => cases hv' <;> cases hv
    | numeral => cases hv
    | offset _ hdate hoffset => exact .inr ⟨hdate, .inl ⟨_, rfl, hoffset⟩⟩
    | color _ hshown hfalse =>
      cases hshown with
      | number hv' => cases hv <;> cases hv'
      | text => cases hv
      | date _ => exact .inl hfalse
      | serial hdate hserial => exact .inr ⟨hdate, .inr ⟨_, hserial, .inl hfalse⟩⟩
    | range _ hshown hbeyond =>
      cases hshown with
      | number hv' => cases hv <;> cases hv'
      | serial hdate hserial => exact .inr ⟨hdate, .inr ⟨_, hserial, .inr ⟨_, rfl, hbeyond⟩⟩⟩
  · rintro (hfalse | ⟨hdate, ⟨t, rfl, hoffset⟩ | ⟨x, hserial, hfalse | ⟨n, rfl, hbeyond⟩⟩⟩)
    · exact .color hf (.date hv) hfalse
    · exact .offset hf hdate hoffset
    · exact .color hf (.serial hdate hserial) hfalse
    · exact .range hf (.serial hdate hserial) hbeyond

theorem not_unshowable {v : Value} (hv : v = .null ∨ ∃ b, v = .bool b) (format : Option String) :
    ¬ Unshowable v format := by
  have hshown : ∀ sections raw number, ¬ ShownBy sections v raw number := by
    intro sections raw number h
    cases h with
    | number hv' => rcases hv with rfl | ⟨b, rfl⟩ <;> cases hv'
    | text _ _ => rcases hv with h | ⟨b, h⟩ <;> cases h
    | date hdated => rcases hv with rfl | ⟨b, rfl⟩ <;> cases hdated
    | serial _ hserial => rcases hv with rfl | ⟨b, rfl⟩ <;> cases hserial
  have hlong : ¬ v.Overlong := by
    rcases hv with rfl | ⟨b, rfl⟩ <;> rintro ⟨⟩
  intro h
  cases h with
  | bare h => exact hlong h
  | plain _ h => exact hlong h
  | collection _ h => exact hlong h
  | numeral => rcases hv with h | ⟨b, h⟩ <;> cases h
  | offset => rcases hv with h | ⟨b, h⟩ <;> cases h
  | color _ h _ => exact hshown _ _ _ h
  | range _ h _ => exact hshown _ _ _ h

/-- The serial number of a date is shown as a number; a moment with an offset has none. -/
theorem serial_faulty (hv : v.IsDated) (sections : List (List Char)) : Faulty (do
      let w ← serialOf v
      match ← numberOf? w with
      | some x => showNumber w x sections
      | none => showText w sections) ↔
      (∃ t, v = .moment t ∧ t.offset.isSome = true) ∨
      ∃ x, v.SerialIs x ∧ (HasFalseColor (sectionFor x sections) ∨
        ∃ n, x = .int n ∧ BeyondDoubles n (sectionFor x sections)) := by
  cases hv with
  | date d =>
    have hnumber := showNumber_faulty (beyond_of_overlong (.int d.serial)) sections
    constructor
    · exact fun h => .inr ⟨_, .date d, hnumber.1 h⟩
    · rintro (⟨t, ⟨⟩, -⟩ | ⟨_, ⟨⟩, h⟩)
      exact hnumber.2 h
  | moment t =>
    unfold serialOf Value.number?
    dsimp only
    cases hoffset : t.offset with
    | some offset =>
      refine iff_of_true ⟨_, rfl⟩ (.inl ⟨t, rfl, ?_⟩)
      rw [hoffset]
      rfl
    | none =>
      cases hserial : t.serial? with
      | none =>
        refine iff_of_false ?_ ?_
        · exact (Faulty.ok_iff _).1
        · rintro (⟨_, ⟨⟩, h⟩ | ⟨_, hx, -⟩)
          · rw [hoffset] at h
            cases h
          · cases hx with
            | moment _ hx => cases hserial.symm.trans hx
      | some x =>
        have hnumber := showNumber_faulty (beyond_of_overlong (.float x)) sections
        constructor
        · exact fun h => .inr ⟨_, .moment hoffset hserial, hnumber.1 h⟩
        · rintro (⟨_, ⟨⟩, h⟩ | ⟨_, hx, h⟩)
          · rw [hoffset] at h
            cases h
          · cases hx with
            | moment _ hx =>
              cases hserial.symm.trans hx
              exact hnumber.2 h

theorem display_of_dated (hf : isPlain format = false) (hv : v.IsDated) :
    Faulty (display v (some format)) ↔
      HasFalseColor ((splitSections format.toList).headD []) ∨
      isDateSection (pattern ((splitSections format.toList).headD [])) = false ∧ Faulty (do
        let w ← serialOf v
        match ← numberOf? w with
        | some x => showNumber w x (splitSections format.toList)
        | none => showText w (splitSections format.toList)) := by
  rw [display_of_not_plain hf]
  cases hv with
  | date d => exact showDate_faulty d _ _
  | moment t => exact showDate_faulty t.date _ _

theorem display_plain_faulty (hf : isPlain format = true) (v : Value) :
    Faulty (display v (some format)) ↔ Unshowable v (some format) := by
  rw [display_of_plain hf, showPlain_faulty]
  refine ⟨.plain hf, fun h => ?_⟩
  cases h with
  | plain _ h => exact h
  | collection _ h => exact h
  | numeral hf' => rw [hf] at hf'; cases hf'
  | offset hf' => rw [hf] at hf'; cases hf'
  | color hf' => rw [hf] at hf'; cases hf'
  | range hf' => rw [hf] at hf'; cases hf'

theorem display_number_faulty (hf : isPlain format = false) (hv : v.CountsAs x) :
    Faulty (display v (some format)) ↔ Unshowable v (some format) := by
  rw [display_of_number hf hv, unshowable_of_number hf hv]
  exact showNumber_faulty (beyond_of_overlong hv) _

theorem display_collection_faulty (hf : isPlain format = false) (hv : v.IsCollection) :
    Faulty (display v (some format)) ↔ Unshowable v (some format) := by
  have hnotext : ∀ s, v ≠ .text s := by
    rintro s rfl
    cases hv
  rw [unshowable_collection hv, ← showText_faulty hnotext (splitSections format.toList),
    display_of_not_plain hf]
  cases hv <;> exact Iff.rfl

theorem display_dated_faulty (hf : isPlain format = false) (hv : v.IsDated) :
    Faulty (display v (some format)) ↔ Unshowable v (some format) := by
  rw [display_of_dated hf hv, unshowable_dated hf hv, serial_faulty hv]

theorem display_text_faulty (hf : isPlain format = false) (s : String) :
    Faulty (display (.text s) (some format)) ↔ Unshowable (.text s) (some format) := by
  cases hnumber : Value.numberOfText s with
  | error f =>
    refine iff_of_true ⟨f, ?_⟩ (.numeral hf ((Value.numberOfText_faulty s).1 ⟨f, hnumber⟩))
    rw [display_of_not_plain hf]
    show (Value.numberOfText s >>= fun n => _) = _
    rw [hnumber]
    rfl
  | ok n =>
    cases n with
    | none =>
      rw [unshowable_text hf hnumber, ← showText_text_faulty, display_of_not_plain hf]
      show Faulty (Value.numberOfText s >>= fun n => _) ↔ _
      rw [hnumber]
      exact Iff.rfl
    | some x => exact display_number_faulty hf (.text hnumber)

/-- A display fails exactly for a value that is unshowable under the format. -/
theorem display_faulty_iff (v : Value) (format : Option String) :
    Faulty (display v format) ↔ Unshowable v format := by
  cases format with
  | none =>
    refine (showPlain_faulty v).trans ⟨.bare, fun h => ?_⟩
    cases h with
    | bare h => exact h
  | some format =>
    cases hf : isPlain format with
    | true => exact display_plain_faulty hf v
    | false =>
      cases v with
      | int n => exact display_number_faulty hf (.int n)
      | float x => exact display_number_faulty hf (.float x)
      | text s => exact display_text_faulty hf s
      | date d => exact display_dated_faulty hf (.date d)
      | moment t => exact display_dated_faulty hf (.moment t)
      | list items => exact display_collection_faulty hf (.list items)
      | record fields => exact display_collection_faulty hf (.record fields)
      | null =>
        refine iff_of_false ?_ (not_unshowable (.inl rfl) _)
        rw [display_of_not_plain hf]
        exact (Faulty.ok_iff _).1
      | bool b =>
        refine iff_of_false ?_ (not_unshowable (.inr ⟨b, rfl⟩) _)
        rw [display_of_not_plain hf]
        exact (Faulty.ok_iff _).1

end

end Format

end Spreadsheet
