import Spreadsheet.Event.Reading
import Spreadsheet.Proofs.LogReading

/-!
# Reading logs of any text

Reading takes the values of the lines (`valuesOf_eq`), and fails at a whole number that is too long
(`valuesOf_overlong`). A filter keeps the records that pass it (`keepIf_eq`), and fails at a value that
is no record (`keepIf_notRecord`). Without filters such values are given out as events, so what is read
are the records of the log under the conditions of `Log.Foreseen` only (`read_eq_records_iff`).
-/

namespace Spreadsheet

open Text

namespace Log

/-! ## Lines -/

theorem valuesOf_step (line : List Char) (rest : List (List Char)) :
    valuesOf (line :: rest) = match lineValue line with
      | .ok v => do return v :: (← valuesOf rest)
      | .error .malformed => valuesOf rest
      | .error .digitLimit => .error .digitLimit := by
  unfold lineValue
  rw [valuesOf]
  cases hline : stripChars line with
  | nil => rw [Json.read_nil]; rfl
  | cons c cs => rfl

/-- The lines that are JSON have their values. -/
theorem valuesOf_eq {lines : List (List Char)} (h : ∀ line ∈ lines, ¬ Overlong line) :
    valuesOf lines = .ok (lines.filterMap fun line => (lineValue line).toOption) := by
  induction lines with
  | nil => rfl
  | cons line rest ih =>
    rw [List.forall_mem_cons] at h
    rw [valuesOf_step, ih h.2]
    cases hline : lineValue line with
    | ok v => rw [List.filterMap_cons_some (by rw [hline]; rfl)]; rfl
    | error f =>
      cases f with
      | malformed => rw [List.filterMap_cons_none (by rw [hline]; rfl)]
      | digitLimit => exact absurd hline h.1

/-- One line with a whole number that is too long and nothing is read. -/
theorem valuesOf_overlong {lines : List (List Char)} (h : ∃ line ∈ lines, Overlong line) :
    valuesOf lines = .error .digitLimit := by
  induction lines with
  | nil =>
    obtain ⟨line, hline, -⟩ := h
    cases hline
  | cons line rest ih =>
    rw [valuesOf_step]
    cases hline : lineValue line with
    | error f =>
      cases f with
      | malformed => exact ih (by simpa [Overlong, hline] using h)
      | digitLimit => rfl
    | ok v => rw [ih (by simpa [Overlong, hline] using h)]; rfl

/-! ## Filters -/

section

variable {name w : String} {wanted : Option String} {values : List Value}

theorem same_field (fields : List (Value × Value)) :
    ((Value.field? fields name).getD .null).same (.text w) = match Value.field? fields name with
      | some (.text s) => s == w
      | _ => false := by
  cases Value.field? fields name with
  | none => rfl
  | some v => cases v <;> rfl

/-- A filter on records keeps those that pass it. -/
theorem keep_eq (hw : w ≠ "") (h : ∀ v ∈ values, v.isRecord) :
    keep name (.text w) values = .ok (values.filter (passes name (some w))) := by
  induction values with
  | nil => rfl
  | cons v rest ih =>
    rw [List.forall_mem_cons] at h
    cases v with
    | record fields =>
      have hpasses : passes name (some w) (.record fields) =
          ((Value.field? fields name).getD .null).same (.text w) := by
        rw [same_field]
        exact congrArg (· || _) (beq_false_of_ne hw)
      rw [keep, ih h.2, List.filter_cons, hpasses]
      cases ((Value.field? fields name).getD .null).same (.text w) <;> rfl
    | _ => exact absurd h.1 Bool.false_ne_true

/-- A filter fails at a value that is no record. -/
theorem keep_notRecord {wanted : Value} (h : ¬ ∀ v ∈ values, v.isRecord) :
    keep name wanted values = .error .notRecord := by
  induction values with
  | nil => exact absurd (fun v hv => absurd hv List.not_mem_nil) h
  | cons v rest ih =>
    cases v with
    | record fields =>
      rw [keep, ih fun hrest => h (List.forall_mem_cons.2 ⟨rfl, hrest⟩)]
      rfl
    | _ => rfl

theorem eq_of_not_asks (h : ¬ Asks wanted) : wanted = none ∨ wanted = some "" := by
  cases wanted with
  | none => exact .inl rfl
  | some w => exact .inr (congrArg some (not_not.1 fun hw => h ⟨w, rfl, hw⟩))

theorem keepIf_of_not_asks (h : ¬ Asks wanted) :
    keepIf name ((wanted.map Value.text).getD .null) values = .ok values := by
  rcases eq_of_not_asks h with rfl | rfl <;> rfl

theorem filter_of_not_asks (hasks : ¬ Asks wanted) (h : ∀ v ∈ values, v.isRecord) :
    values.filter (passes name wanted) = values := by
  refine List.filter_eq_self.2 fun v hv => ?_
  have hrecord := h v hv
  cases v with
  | record fields => rcases eq_of_not_asks hasks with rfl | rfl <;> rfl
  | _ => exact absurd hrecord Bool.false_ne_true

theorem keepIf_of_asks (hw : w ≠ "") :
    keepIf name (((some w).map Value.text).getD .null) values = keep name (.text w) values :=
  if_pos (by simp [Value.isTrue, hw])

theorem keepIf_eq (h : ∀ v ∈ values, v.isRecord) :
    keepIf name ((wanted.map Value.text).getD .null) values =
      .ok (values.filter (passes name wanted)) := by
  by_cases hasks : Asks wanted
  · obtain ⟨w, rfl, hw⟩ := hasks
    rw [keepIf_of_asks hw, keep_eq hw h]
  · rw [keepIf_of_not_asks hasks, filter_of_not_asks hasks h]

theorem keepIf_notRecord (hasks : Asks wanted) (h : ¬ ∀ v ∈ values, v.isRecord) :
    keepIf name ((wanted.map Value.text).getD .null) values = .error .notRecord := by
  obtain ⟨w, rfl, hw⟩ := hasks
  rw [keepIf_of_asks hw, keep_notRecord h]

end

/-! ## What is read -/

section

variable {text : String} {level type : Option String} {limit : Nat} {v : Value}

theorem takeLimit_natCast (limit : Nat) (items : List Value) :
    takeLimit limit items = items.take limit := if_pos (Int.natCast_nonneg limit)

theorem isRecord_of_passes {name : String} {wanted : Option String}
    (h : passes name wanted v = true) : v.isRecord = true := by
  cases v with
  | record fields => rfl
  | _ => exact absurd h Bool.false_ne_true

theorem isRecord_of_mem_records (h : v ∈ records text level type limit) : v.isRecord = true := by
  have hpasses := (List.mem_filter.1 (List.mem_reverse.1 (List.mem_of_mem_take h))).2
  exact isRecord_of_passes (Bool.and_eq_true_iff.1 hpasses).1

/-- Where the first items are kept, they are the first ones that are kept. -/
theorem take_filter_eq_take {p : Value → Bool} {items : List Value}
    (h : ∀ v ∈ items.take limit, p v = true) : (items.filter p).take limit = items.take limit := by
  induction items generalizing limit with
  | nil => rfl
  | cons v rest ih =>
    cases limit with
    | zero => rfl
    | succ limit =>
      rw [List.take_succ_cons, List.forall_mem_cons] at h
      rw [List.filter_cons_of_pos h.1, List.take_succ_cons, List.take_succ_cons, ih h.2]

theorem readEvents_overlong (h : ∃ line ∈ lines text.toList, Overlong line) (level type : Value)
    (limit : Int) : readEvents text level type limit = .error .digitLimit := by
  unfold readEvents
  rw [valuesOf_overlong h]
  rfl

theorem readEvents_records (hreadable : ∀ line ∈ lines text.toList, ¬ Overlong line)
    (h : ∀ v ∈ said text, v.isRecord) :
    readEvents text ((level.map Value.text).getD .null) ((type.map Value.text).getD .null) limit =
      .ok (records text level type limit) := by
  unfold readEvents
  rw [valuesOf_eq hreadable]
  change (keepIf "level" _ (said text) >>= _) = _
  rw [keepIf_eq h]
  change (keepIf "event_type" _ _ >>= _) = _
  rw [keepIf_eq fun v hv => h v (List.mem_of_mem_filter hv)]
  unfold records
  rw [← takeLimit_natCast, List.filter_filter]
  simp only [Bool.and_comm]
  rfl

theorem readEvents_notRecord (hreadable : ∀ line ∈ lines text.toList, ¬ Overlong line)
    (hasks : Asks level ∨ Asks type) (h : ¬ ∀ v ∈ said text, v.isRecord) :
    readEvents text ((level.map Value.text).getD .null) ((type.map Value.text).getD .null) limit =
      .error .notRecord := by
  unfold readEvents
  rw [valuesOf_eq hreadable]
  change (keepIf "level" _ (said text) >>= _) = _
  by_cases hlevel : Asks level
  · rw [keepIf_notRecord hlevel h]
    rfl
  · rw [keepIf_of_not_asks hlevel]
    change (keepIf "event_type" _ (said text) >>= _) = _
    rw [keepIf_notRecord (hasks.resolve_left hlevel) h]
    rfl

theorem readEvents_of_not_asks (hreadable : ∀ line ∈ lines text.toList, ¬ Overlong line)
    (hasks : ¬ (Asks level ∨ Asks type)) :
    readEvents text ((level.map Value.text).getD .null) ((type.map Value.text).getD .null) limit =
      .ok ((said text).reverse.take limit) := by
  rw [not_or] at hasks
  unfold readEvents
  rw [valuesOf_eq hreadable]
  change (keepIf "level" _ (said text) >>= _) = _
  rw [keepIf_of_not_asks hasks.1]
  change (keepIf "event_type" _ (said text) >>= _) = _
  rw [keepIf_of_not_asks hasks.2, ← takeLimit_natCast]
  rfl

/-- Without filters the records of a log are its last values, if those are records. -/
theorem records_of_last (hasks : ¬ (Asks level ∨ Asks type))
    (h : ∀ v ∈ (said text).reverse.take limit, v.isRecord) :
    records text level type limit = (said text).reverse.take limit := by
  rw [not_or] at hasks
  unfold records
  rw [← List.filter_reverse]
  refine take_filter_eq_take fun v hv => ?_
  have hrecord := h v hv
  cases v with
  | record fields =>
    rcases eq_of_not_asks hasks.1 with rfl | rfl <;>
      rcases eq_of_not_asks hasks.2 with rfl | rfl <;> rfl
  | _ => exact absurd hrecord Bool.false_ne_true

theorem Outcome.eq_records_iff {result : Except LogFault (List Value)}
    (h : Outcome text level type limit result) :
    result = .ok (records text level type limit) ↔ Foreseen text level type limit := by
  cases h with
  | overlong h =>
    obtain ⟨line, hline, hlong⟩ := h
    exact iff_of_false nofun fun h => h.readable line hline hlong
  | notRecord _ hasks h =>
    obtain ⟨v, hv, hother⟩ := h
    exact iff_of_false nofun fun h =>
      Bool.false_ne_true (hother.symm.trans (h.filtered hasks v hv))
  | allRecords hreadable hall =>
    exact iff_of_true rfl ⟨hreadable, fun _ => hall,
      fun v hv => hall v (List.mem_reverse.1 (List.mem_of_mem_take hv))⟩
  | anyValues hreadable hasks =>
    constructor
    · intro heq
      refine ⟨hreadable, fun h => absurd h hasks, fun v hv => ?_⟩
      rw [Except.ok.inj heq] at hv
      exact isRecord_of_mem_records hv
    · intro h
      rw [records_of_last hasks h.last]

end

end Log

namespace Logging

theorem outcome_read (s : Logging) (directory : String) (level type : Option String) (limit : Nat) :
    Log.Outcome (s.logText directory) level type limit
      ((s.inDirectory directory).read ((level.map Value.text).getD .null)
        ((type.map Value.text).getD .null) limit) := by
  rw [read_inDirectory]
  by_cases hoverlong : ∃ line ∈ Log.lines (s.logText directory).toList, Log.Overlong line
  · rw [Log.readEvents_overlong hoverlong]
    exact .overlong hoverlong
  have hreadable : ∀ line ∈ Log.lines (s.logText directory).toList, ¬ Log.Overlong line :=
    fun line hline hlong => hoverlong ⟨line, hline, hlong⟩
  by_cases hall : ∀ v ∈ Log.said (s.logText directory), v.isRecord
  · rw [Log.readEvents_records hreadable hall]
    exact .allRecords hreadable hall
  by_cases hasks : Log.Asks level ∨ Log.Asks type
  · rw [Log.readEvents_notRecord hreadable hasks hall]
    exact .notRecord hreadable hasks (by simpa using hall)
  · rw [Log.readEvents_of_not_asks hreadable hasks]
    exact .anyValues hreadable hasks

/-- **Reading a log of any text.** What is read of a log are its records that pass the filters, the last
ones first, exactly if every line can be read and the values that reading comes to are records. Else a
line with a whole number that is too long or, under a filter, a value that is no record makes reading
fail, and without filters the values are given out that are no records. -/
theorem read_eq_records_iff (s : Logging) (directory : String) (level type : Option String)
    (limit : Nat) :
    ∃ result, (s.inDirectory directory).read ((level.map Value.text).getD .null)
        ((type.map Value.text).getD .null) limit = result ∧
      Log.Outcome (s.logText directory) level type limit result ∧
      (result = .ok (Log.records (s.logText directory) level type limit) ↔
        Log.Foreseen (s.logText directory) level type limit) :=
  ⟨_, rfl, s.outcome_read directory level type limit,
    (s.outcome_read directory level type limit).eq_records_iff⟩

/-- A log to which a line was added with a number, which is no event. -/
def numbered : Logging := emptyLog.actAll [.leave "logs" "5"]

/-- The number is read as an event, and makes a filter fail. -/
theorem numbered_read : emptyLog.WritesAll [.leave "logs" "5"] ∧ numbered.logText "logs" = "5\n" ∧
    Log.records (numbered.logText "logs") none none 200 = [] ∧
    (numbered.inDirectory "logs").read .null .null 200 = .ok [.int 5] ∧
    (numbered.inDirectory "logs").read (.text "info") .null 200 = .error .notRecord := by
  have htext : numbered.logText "logs" = "5\n" := by decide
  have hlines : Log.lines "5\n".toList = [['5']] := rfl
  have hline : Log.lineValue ['5'] = .ok (.int 5) :=
    Json.read_of_reads (Json.reads_int (n := 5) (by decide))
  have hsaid : Log.said "5\n" = [.int 5] := by
    rw [Log.said, hlines, List.filterMap_cons_some (by rw [hline]; rfl)]
    rfl
  have hreadable : ∀ line ∈ Log.lines "5\n".toList, ¬ Log.Overlong line := by
    rw [hlines]
    intro line hmem hlong
    cases List.mem_singleton.1 hmem
    cases hline.symm.trans hlong
  have hnothing : ¬ (Log.Asks none ∨ Log.Asks none) := by simp [Log.Asks]
  have hinfo : Log.Asks (some "info") ∨ Log.Asks none := .inl ⟨"info", rfl, by decide⟩
  have hall : ¬ ∀ v ∈ Log.said "5\n", v.isRecord := by simp [hsaid, Value.isRecord]
  have hvalues : Log.readEvents "5\n" .null .null (200 : Nat) =
      .ok ((Log.said "5\n").reverse.take 200) :=
    Log.readEvents_of_not_asks hreadable hnothing
  have hfilter : Log.readEvents "5\n" (.text "info") .null (200 : Nat) = .error .notRecord :=
    Log.readEvents_notRecord hreadable hinfo hall
  have hlimit : ((200 : Nat) : Int) = 200 := rfl
  rw [hlimit] at hvalues hfilter
  rw [hsaid] at hvalues
  rw [read_inDirectory, read_inDirectory, htext]
  rw [hvalues, hfilter]
  refine ⟨⟨rfl, trivial⟩, rfl, ?_, rfl, rfl⟩
  rw [Log.records, hsaid]
  rfl

end Logging

end Spreadsheet
