import Spreadsheet.Proofs.LogLine
import Spreadsheet.Proofs.LogText

/-!
# Reading logs

Each entry of a log is one line (`LogEntry.oneLine`), so a text of entries splits into their lines
again (`holds_of_texts`). What a reader makes of the lines are the records of the events
(`valuesOf_lines`); a filter keeps those whose level or type it asks for (`keepIf_logged`). Together
with what logs hold after some actions, this says what is read back (`actAll_read`).
-/

namespace Spreadsheet

open Text

/-! ## Lines -/

namespace Log

/-- No character ends a line. -/
def OneLine (line : List Char) : Prop := ∀ c ∈ line, c ≠ '\n' ∧ c ≠ '\r'

theorem oneLine_of_visible {cs : List Char} (h : Json.Visible cs) : OneLine cs := by
  intro c hc
  have hvisible := h c hc
  constructor <;> rintro rfl <;> exact absurd hvisible (by decide)

theorem lines_cons {c : Char} (hc : c ≠ '\n' ∧ c ≠ '\r') (rest : List Char) :
    lines (c :: rest) = match lines rest with
      | [] => [[c]]
      | line :: more => (c :: line) :: more := by
  rw [lines]
  · exact if_neg (by simp [hc])
  · exact fun _ h _ => hc.2 h

/-- A line that is ended is split off. -/
theorem lines_append {line : List Char} (h : OneLine line) (rest : List Char) :
    lines (line ++ '\n' :: rest) = line :: lines rest := by
  induction line with
  | nil =>
    rw [List.nil_append, lines]
    · rfl
    · exact fun _ h _ => absurd h (by decide)
  | cons c line ih =>
    obtain ⟨hc, hline⟩ := List.forall_mem_cons.1 h
    rw [List.cons_append, lines_cons hc, ih hline]

end Log

/-! ## Entries -/

/-- The record that a reader finds of an event that is logged at a time. -/
def Event.stored (p : Event × String) : Value := .record (p.1.loggedFields p.2)

namespace LogEntry

open Log

variable {entry : LogEntry}

/-- The event of an entry and its time. -/
def logged? : LogEntry → Option (Event × String)
  | .event e time => some (e, time)
  | .line _ => none

theorem chars_eq_of_line {line line' : List Char}
    (h : String.ofList line ++ "\n" = String.ofList line' ++ "\n") : line = line' := by
  have hchars := congrArg String.toList h
  simpa using hchars

/-- **An entry is one line.** -/
theorem oneLine (h : entry.Readable) {text : String} (htext : entry.text = .ok text) :
    ∃ line, text = String.ofList line ++ "\n" ∧ OneLine line := by
  cases entry with
  | event e time =>
    obtain ⟨cs, hline, hvisible, -⟩ := h.1.line (Event.plain_version htext) h.2
    exact ⟨_, Except.ok.inj (htext.symm.trans hline), oneLine_of_visible hvisible⟩
  | line text =>
    refine ⟨text.toList, ?_, h.oneLine⟩
    rw [String.ofList_toList]
    exact (Except.ok.inj htext).symm

/-- Between braces no blank is taken off. -/
theorem stripChars_braced (cs : List Char) : stripChars ('{' :: cs ++ ['}']) = '{' :: cs ++ ['}'] := by
  have hlast : ∀ d, ('{' :: cs ++ ['}']).getLast? = some d → isBlank d = false := by
    intro d hd
    rw [List.getLast?_concat] at hd
    cases hd
    decide
  have htrim := trimBy_append (c := '{') (by decide) hlast fun d hd => absurd hd List.not_mem_nil
  rwa [List.append_nil] at htrim

/-- In the line of an entry a reader finds the record of the event, if there is one. -/
theorem valuesOf_cons (h : entry.Readable) {line : List Char}
    (htext : entry.text = .ok (String.ofList line ++ "\n")) (rest : List (List Char)) :
    valuesOf (line :: rest) = (valuesOf rest).map (entry.logged?.toList.map Event.stored ++ ·) := by
  cases entry with
  | event e time =>
    obtain ⟨cs, hline, -, hread⟩ := h.1.line (Event.plain_version htext) h.2
    cases chars_eq_of_line (Except.ok.inj (htext.symm.trans hline))
    rw [valuesOf]
    simp only [stripChars_braced, hread]
    cases valuesOf rest <;> rfl
  | line text =>
    have hline : text.toList = line := chars_eq_of_line <| by
      rw [String.ofList_toList]
      exact Except.ok.inj htext
    have hrejected := h.rejected
    unfold strip at hrejected
    rw [hline] at hrejected
    rw [valuesOf]
    simp only [hrejected, ite_self]
    cases valuesOf rest <;> rfl

theorem alike_stored (h : entry.Readable) {text : String} (htext : entry.text = .ok text)
    {p : Event × String} (hp : entry.logged? = some p) :
    Value.Alike (p.1.record p.2) (Event.stored p) := by
  cases entry with
  | event e time =>
    cases hp
    exact (h.1.record (Event.plain_version htext) h.2).logged.2
  | line text => cases hp

end LogEntry

namespace Log

variable {entries : List LogEntry} {text : String}

/-- The entries of a text are its lines. -/
theorem holds_of_texts (h : Texts entries text) (hreadable : ∀ entry ∈ entries, entry.Readable) :
    Holds text entries := by
  refine ⟨?_, h⟩
  obtain ⟨texts, htexts, rfl⟩ := h
  induction htexts with
  | nil => exact .nil
  | @cons entry text entries texts htext _ ih =>
    rw [List.forall_mem_cons] at hreadable
    obtain ⟨line, rfl, hline⟩ := entry.oneLine hreadable.1 htext
    have hsplit : (String.join ((String.ofList line ++ "\n") :: texts)).toList =
        line ++ '\n' :: (String.join texts).toList := by
      simp [String.join_cons]
    rw [hsplit, lines_append hline]
    exact .cons htext (ih hreadable.2)

/-- A reader finds the records of the events, in order. -/
theorem valuesOf_lines {lines : List (List Char)}
    (h : List.Forall₂ (fun entry line => entry.text = .ok (String.ofList line ++ "\n")) entries lines)
    (hreadable : ∀ entry ∈ entries, entry.Readable) :
    valuesOf lines = .ok ((entries.filterMap (·.logged?)).map Event.stored) := by
  induction h with
  | nil => rfl
  | @cons entry line entries lines htext _ ih =>
    rw [List.forall_mem_cons] at hreadable
    rw [entry.valuesOf_cons hreadable.1 htext, ih hreadable.2]
    cases hlogged : entry.logged? with
    | none => rw [List.filterMap_cons_none hlogged]; rfl
    | some p => rw [List.filterMap_cons_some hlogged]; rfl

/-- Each record is that of its event but for the order of fields. -/
theorem Texts.alike_stored (h : Texts entries text) (hreadable : ∀ entry ∈ entries, entry.Readable) :
    ∀ p ∈ entries.filterMap (·.logged?), Value.Alike (p.1.record p.2) (Event.stored p) := by
  obtain ⟨texts, htexts, -⟩ := h
  intro p hp
  obtain ⟨entry, hentry, hlogged⟩ := List.mem_filterMap.1 hp
  induction htexts with
  | nil => cases hentry
  | cons htext _ ih =>
    rw [List.forall_mem_cons] at hreadable
    rcases List.mem_cons.1 hentry with rfl | hentry
    · exact entry.alike_stored hreadable.1 htext hlogged
    · exact ih hreadable.2 (List.mem_filterMap.2 ⟨entry, hentry, hlogged⟩) hentry

/-! ## Filters -/

section

variable {name : String} {nameOf : Event → String}

theorem keep_logged
    (hfield : ∀ e time, Value.field? (e.loggedFields time) name = some (.text (nameOf e)))
    (wanted : String) (logged : List (Event × String)) :
    keep name (.text wanted) (logged.map Event.stored) =
      .ok ((logged.filter fun p => wanted == nameOf p.1).map Event.stored) := by
  induction logged with
  | nil => rfl
  | cons p rest ih =>
    rw [List.map_cons, Event.stored, keep, ih, hfield]
    have hsame : (Value.text (nameOf p.1)).same (.text wanted) = (wanted == nameOf p.1) := by
      rw [Value.same]
      exact Bool.beq_comm
    simp only [Option.getD_some, hsame, List.filter_cons]
    cases wanted == nameOf p.1 <;> rfl

/-- A filter keeps the events with the wanted name. -/
theorem keepIf_logged
    (hfield : ∀ e time, Value.field? (e.loggedFields time) name = some (.text (nameOf e)))
    (wanted : Option String) (logged : List (Event × String)) :
    keepIf name ((wanted.map Value.text).getD .null) (logged.map Event.stored) =
      .ok ((logged.filter fun p => LogEntry.passesFilter wanted (nameOf p.1)).map Event.stored) := by
  unfold keepIf LogEntry.passesFilter
  cases wanted with
  | none => simp [Value.isTrue]
  | some w =>
    by_cases hw : w = ""
    · simp [Value.isTrue, hw]
    · have hwanted : ((some w).map Value.text).getD .null = .text w := rfl
      have hgiven : (w == "") = false := beq_false_of_ne hw
      rw [hwanted, keep_logged hfield]
      simp [Value.isTrue, hw, hgiven]

end

end Log

namespace Value

/-- Where each name stands once, a field is found. -/
theorem field?_of_mem {fields : List (Value × Value)} (honce : (fields.map Prod.fst).Nodup)
    {name : String} {v : Value} (h : (.text name, v) ∈ fields) : field? fields name = some v := by
  obtain ⟨w, hw⟩ := Option.isSome_iff_exists.1 (isSome_field?_of_mem h)
  obtain ⟨f, hf, rfl⟩ := Option.map_eq_some_iff.1 hw
  have hname : f.1 = .text name := by
    have hfound := List.find?_some hf
    revert hfound
    cases f.1 <;> simp
  rw [hw, List.inj_on_of_nodup_map honce (List.mem_of_find?_eq_some hf) h hname]

end Value

namespace Event

theorem field?_loggedFields {e : Event} {time name : String} {v : Value}
    (h : (.text name, v) ∈ e.fieldsAt time) :
    Value.field? (e.loggedFields time) name = some (logValue v) :=
  Value.field?_of_mem (Value.nodup_logged (e.nodup_fieldsAt time)) (mem_loggedFields h)

theorem field?_level (e : Event) (time : String) :
    Value.field? (e.loggedFields time) "level" = some (.text e.level.name) :=
  field?_loggedFields (v := .text e.level.name) (by simp [fieldsAt, toFields])

theorem field?_type (e : Event) (time : String) :
    Value.field? (e.loggedFields time) "event_type" = some (.text e.type.name) :=
  field?_loggedFields (v := .text e.type.name) (by simp [fieldsAt, toFields])

end Event

/-! ## Reading -/

theorem LogEntry.filterMap_found? (entries : List LogEntry) (level type : Option String) :
    entries.filterMap (·.found? level type) =
      (((entries.filterMap (·.logged?)).filter fun p => passesFilter level p.1.level.name).filter
        fun p => passesFilter type p.1.type.name).map fun p => p.1.record p.2 := by
  induction entries with
  | nil => rfl
  | cons entry rest ih =>
    cases entry with
    | line text => exact ih
    | event e time =>
      have hfound : (event e time).found? level type =
          if passesFilter level e.level.name && passesFilter type e.type.name then
            some (e.record time) else none := rfl
      have hlogged : (event e time).logged? = some (e, time) := rfl
      simp only [List.filterMap_cons, hfound, hlogged, List.filter_cons, ih]
      cases passesFilter level e.level.name <;> cases htype : passesFilter type e.type.name <;>
        simp only [Bool.and_self, Bool.and_false, Bool.and_true, if_true, if_false, htype,
          Bool.false_eq_true, List.filter_cons, List.map_cons]

/-- The events of a log that pass the filters are read, the last ones first. -/
theorem Log.readEvents_of_holds {entries : List LogEntry} {text : String} (h : Holds text entries)
    (hreadable : ∀ entry ∈ entries, entry.Readable) (level type : Option String) (limit : Nat) :
    ∃ events, readEvents text ((level.map Value.text).getD .null)
        ((type.map Value.text).getD .null) limit = .ok events ∧
      List.Forall₂ Value.Alike ((entries.filterMap (·.found? level type)).reverse.take limit)
        events := by
  unfold readEvents
  rw [valuesOf_lines h.1 hreadable]
  change ∃ events, (keepIf "level" _ _ >>= _) = _ ∧ _
  rw [keepIf_logged Event.field?_level]
  change ∃ events, (keepIf "event_type" _ _ >>= _) = _ ∧ _
  rw [keepIf_logged Event.field?_type]
  refine ⟨_, rfl, ?_⟩
  rw [LogEntry.filterMap_found?, takeLimit, if_pos (Int.natCast_nonneg limit), Int.toNat_natCast,
    ← List.map_reverse, ← List.map_reverse, ← List.map_take, ← List.map_take,
    List.forall₂_map_left_iff, List.forall₂_map_right_iff, List.forall₂_same]
  intro p hp
  have hfound := List.mem_reverse.1 (List.mem_of_mem_take hp)
  exact h.2.alike_stored hreadable p (List.mem_of_mem_filter (List.mem_of_mem_filter hfound))

/-- Nothing is read from an empty log. -/
theorem Log.readEvents_empty (level type : Value) (limit : Int) :
    readEvents "" level type limit = .ok [] := by
  have hkeep (name : String) (wanted : Value) : keepIf name wanted [] = .ok [] := ite_self _
  have htake : takeLimit limit [] = [] := by simp [takeLimit]
  unfold readEvents
  change (keepIf "level" level [] >>= _) = _
  rw [hkeep]
  change (keepIf "event_type" type [] >>= _) = _
  rw [hkeep]
  exact congrArg Except.ok htake

namespace Logging

variable {s : Logging} {directory : String}

/-- The log of a directory is read as its text, which is empty where there is no log. -/
theorem read_inDirectory (s : Logging) (directory : String) (level type : Value) (limit : Int) :
    (s.inDirectory directory).read level type limit =
      match Log.readEvents (s.logText directory) level type limit with
      | .ok events => .ok events
      | .error .digitLimit => .error .digitLimit
      | .error .notRecord => .error .notRecord := by
  unfold read inDirectory logText
  dsimp only
  cases s.files.text? (Sink.path ⟨directory⟩) with
  | some text => rfl
  | none => rw [Option.getD_none, Log.readEvents_empty]

theorem read_of_readEvents {level type : Value} {limit : Int} {events : List Value}
    (h : Log.readEvents (s.logText directory) level type limit = .ok events) :
    (s.inDirectory directory).read level type limit = .ok events := by
  rw [read_inDirectory, h]

/-- What readable actions add to a log is readable. -/
theorem readable_entries (s : Logging) (directory : String) {actions : List LogAction}
    (h : ∀ a ∈ actions, a.Readable) : ∀ entry ∈ entries directory s actions, entry.Readable := by
  induction actions generalizing s with
  | nil => exact fun entry hentry => absurd hentry List.not_mem_nil
  | cons a rest ih =>
    rw [List.forall_mem_cons] at h
    rw [entries, List.forall_mem_append]
    refine ⟨fun entry hentry => ?_, ih _ h.2⟩
    cases a with
    | configure choice => cases hentry
    | emit e time =>
      rw [added, List.mem_ite_nil_right, List.mem_singleton] at hentry
      obtain ⟨-, rfl⟩ := hentry
      exact ⟨h.1.1.prepare, h.1.2⟩
    | write other e time =>
      rw [added, List.mem_ite_nil_right, List.mem_singleton] at hentry
      obtain ⟨-, rfl⟩ := hentry
      exact h.1
    | leave other line =>
      rw [added, List.mem_ite_nil_right, List.mem_singleton] at hentry
      obtain ⟨-, rfl⟩ := hentry
      exact h.1

end Logging

/-- **The log of a directory loses, reorders and doubles nothing.** After actions that write what they
have to, the log of a directory that had none holds a line for each entry that they added, in order,
and the events that pass the filters are read back from it, the last ones first. -/
theorem actAll_read (s : Logging) (actions : List LogAction) (directory : String)
    (hempty : s.logText directory = "") (hwrites : s.WritesAll actions)
    (hreadable : ∀ a ∈ actions, a.Readable) :
    Log.Holds ((s.actAll actions).logText directory) (Logging.entries directory s actions) ∧
    ∀ (level type : Option String) (limit : Nat), ∃ events,
      ((s.actAll actions).inDirectory directory).read ((level.map Value.text).getD .null)
        ((type.map Value.text).getD .null) limit = .ok events ∧
      List.Forall₂ Value.Alike (((Logging.entries directory s actions).filterMap
        (·.found? level type)).reverse.take limit) events := by
  obtain ⟨text, htexts, htext⟩ := Logging.logText_actAll hwrites directory
  rw [hempty, String.empty_append] at htext
  have hentries := Logging.readable_entries s directory hreadable
  have hholds : Log.Holds ((s.actAll actions).logText directory)
      (Logging.entries directory s actions) := htext ▸ Log.holds_of_texts htexts hentries
  refine ⟨hholds, fun level type limit => ?_⟩
  obtain ⟨events, hread, halike⟩ := Log.readEvents_of_holds hholds hentries level type limit
  exact ⟨events, Logging.read_of_readEvents hread, halike⟩

/-! ## A broken line between events, and a blank before a record -/

/-- An event whose message takes two lines. -/
def twoLines : Event :=
  { level := .info
    type := .resolveStarted
    context := [("tables", .int 1)]
    message := "one\ntwo" }

theorem twoLines_plain : twoLines.Plain where
  names := by decide
  context := by simpa [twoLines] using And.intro (by decide) (Value.Plain.int (by decide))
  message := by decide
  code := nofun

theorem ignored_unfinished : Log.Ignored "\x7bnot json" where
  oneLine := forall_mem_of_all (by decide)
  rejected := by
    show Json.read (String.ofList ('{' :: "not json".toList)) = _
    refine Json.read_of_run_error ?_
    rw [Json.run_token (t := .openRecord) (by decide) nofun rfl]
    exact Json.run_unknown (by decide) rfl _

/-- Events are emitted and written, and a line is left between them. -/
def interleaved : List LogAction :=
  [.emit twoLines "first", .leave "logs" "\x7bnot json", .configure none, .emit twoLines "second",
    .write "logs" twoLines "third"]

theorem interleaved_readable : ∀ a ∈ interleaved, a.Readable := by
  have hevent (time : String) (htime : HalvesApart time) : twoLines.Plain ∧ HalvesApart time :=
    ⟨twoLines_plain, htime⟩
  simp only [interleaved, List.forall_mem_cons, List.not_mem_nil, false_implies, implies_true,
    and_true]
  exact ⟨hevent _ (by decide), ignored_unfinished, trivial, hevent _ (by decide),
    hevent _ (by decide)⟩

theorem interleaved_writes : emptyLog.WritesAll interleaved := by
  have hversion : (Value.int twoLines.schemaVersion).Plain := .int (by decide)
  have hline (time : String) (htime : HalvesApart time) :
      (twoLines.prepare.logLine time).isOk = true := twoLines_plain.isOk_line hversion htime
  refine Logging.writesAll_of_fits ?_ emptyLog_writable ?_
  · rintro _ ⟨⟩
    rfl
  · simp only [interleaved, List.forall_mem_cons, List.not_mem_nil, false_implies, implies_true,
      and_true]
    exact ⟨hline _ (by decide), rfl, rfl, hline _ (by decide), rfl, hline _ (by decide)⟩

/-- The events are read back from the log, and the line between them is passed over. -/
theorem actAll_read_interleaved : emptyLog.logText "logs" = "" ∧ emptyLog.WritesAll interleaved ∧
    (∀ a ∈ interleaved, a.Readable) ∧
    Log.Holds ((emptyLog.actAll interleaved).logText "logs")
      (Logging.entries "logs" emptyLog interleaved) ∧
    ∃ events, ((emptyLog.actAll interleaved).inDirectory "logs").read (.text "info") .null 5 =
        .ok events ∧
      List.Forall₂ Value.Alike (((Logging.entries "logs" emptyLog interleaved).filterMap
        (·.found? (some "info") none)).reverse.take 5) events := by
  have hempty : emptyLog.logText "logs" = "" := by decide
  obtain ⟨hholds, hread⟩ :=
    actAll_read emptyLog interleaved "logs" hempty interleaved_writes interleaved_readable
  exact ⟨hempty, interleaved_writes, interleaved_readable, hholds, hread (some "info") none 5⟩

/-- A line with a blank of another kind before its record is no JSON, but the blank is taken off
before the line is read, and the record is returned as an event. -/
theorem blank_before_record_read :
    (∀ c ∈ "\u00a0\x7b\x7d".toList, c ≠ '\n' ∧ c ≠ '\r') ∧
    Json.read "\u00a0\x7b\x7d" = .error .malformed ∧
    emptyLog.logText "logs" = "" ∧ emptyLog.WritesAll [.leave "logs" "\u00a0\x7b\x7d"] ∧
    (Logging.entries "logs" emptyLog [.leave "logs" "\u00a0\x7b\x7d"]).filterMap
      (·.found? none none) = [] ∧
    ((emptyLog.actAll [.leave "logs" "\u00a0\x7b\x7d"]).inDirectory "logs").read .null .null 200 =
      .ok [.record []] := by
  have hrejected : Json.read "\u00a0\x7b\x7d" = .error .malformed :=
    show Json.read (String.ofList ['\u00a0', '{', '}']) = _ from
      Json.read_of_run_error (Json.run_unknown (by decide) rfl _)
  have htext : (emptyLog.actAll [.leave "logs" "\u00a0\x7b\x7d"]).logText "logs" =
      "\u00a0\x7b\x7d\n" := by decide
  refine ⟨forall_mem_of_all (by decide), hrejected, by decide, ⟨rfl, trivial⟩, rfl,
    Logging.read_of_readEvents ?_⟩
  rw [htext]
  cbv

end Spreadsheet
