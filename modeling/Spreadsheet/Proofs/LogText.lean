import Spreadsheet.Event.History
import Spreadsheet.Proofs.FilePath

/-!
# What logs hold

An action puts its entries behind the log of the directory that they belong to, and changes no other
log (`logText_act`). So after some actions a log has the entries that they added to it, in order and
behind what it had before (`logText_actAll`). Emitting event after event is a run of such actions.
-/

namespace Spreadsheet

/-! ## Texts of entries -/

namespace Log

theorem texts_nil : Texts [] "" := ⟨[], .nil, rfl⟩

theorem texts_ite (entry : LogEntry) {line : String} (h : entry.text = .ok line) (p : Prop)
    [Decidable p] : Texts (if p then [entry] else []) (if p then line else "") := by
  split
  · exact ⟨[line], .cons h .nil, by simp [String.join]⟩
  · exact texts_nil

theorem Texts.append {entries entries' : List LogEntry} {text text' : String}
    (h : Texts entries text) (h' : Texts entries' text') :
    Texts (entries ++ entries') (text ++ text') := by
  obtain ⟨lines, hlines, rfl⟩ := h
  obtain ⟨lines', hlines', rfl⟩ := h'
  exact ⟨lines ++ lines', List.rel_append hlines hlines', String.join_append.symm⟩

end Log

/-! ## The logs of directories -/

theorem logFileName_counts : Files.Counts logFileName where
  ne_empty := by decide
  ne_dot := by decide
  noSlash := by decide

/-- The logs of two directories are one file exactly if the directories are the same. -/
theorem Sink.key_path_eq_iff (a b : String) :
    Files.key (Sink.path ⟨a⟩) = Files.key (Sink.path ⟨b⟩) ↔ Logging.SameDirectory a b :=
  Files.key_join_eq_iff logFileName_counts (by decide) a b

/-- What an action writes, it writes to the log of a directory, and it does write. -/
def LogAction.Fits (directory : String) : LogAction → Prop
  | .configure choice => choice = none
  | .emit e time => (e.prepare.logLine time).isOk = true
  | .write other e time => other = directory ∧ (e.logLine time).isOk = true
  | .leave other _ => other = directory

namespace Logging

variable {s t : Logging} {directory other : String}

theorem SameDirectory.symm (h : SameDirectory other directory) : SameDirectory directory other :=
  Eq.symm h

theorem logText_of_append {fs : Files} {text : String}
    (h : s.files.append (Sink.path ⟨other⟩) text = .ok fs) (directory : String) :
    ({ s with files := fs } : Logging).logText directory =
      s.logText directory ++ if SameDirectory other directory then text else "" := by
  unfold logText
  rw [Files.text?_append h]
  simp only [Sink.key_path_eq_iff]
  by_cases hsame : SameDirectory other directory
  · have hold : s.files.text? (Sink.path ⟨other⟩) = s.files.text? (Sink.path ⟨directory⟩) := by
      unfold Files.text?
      rw [(Sink.key_path_eq_iff other directory).2 hsame]
    rw [if_pos hsame.symm, if_pos hsame, Option.getD_some, hold]
  · rw [if_neg fun h => hsame h.symm, if_neg hsame, String.append_empty]

theorem logText_configure {choice : Option String} (h : s.configure choice = .ok t)
    (directory : String) : t.logText directory = s.logText directory := by
  unfold configure at h
  cases choice with
  | none => rw [← Except.ok.inj h]; rfl
  | some chosen =>
    dsimp only at h
    split at h
    · next files hfiles =>
      rw [← Except.ok.inj h]
      exact congrArg (Option.getD · "") (Files.text?_makeDirectories hfiles _)
    · cases h

/-- An event that is written stands on a line behind the log of the directory that was chosen. -/
theorem logText_write {e : Event} {time : String} (h : s.write e time = .ok t) :
    ∃ sink line, s.sink = some sink ∧ t.sink = s.sink ∧ e.logLine time = .ok line ∧
      ∀ directory, t.logText directory =
        s.logText directory ++ if SameDirectory sink.directory directory then line else "" := by
  unfold write at h
  split at h
  · cases h
  · next sink hsink =>
    split at h
    · cases h
    · cases h
    · next line hline =>
      split at h
      · next files hfiles =>
        rw [← Except.ok.inj h]
        exact ⟨sink, line, hsink, rfl, hline, logText_of_append hfiles⟩
      · cases h

/-! ## Actions -/

theorem exists_of_isOk {ε α : Type} {x : Except ε α} (h : x.isOk = true) : ∃ a, x = .ok a := by
  cases x with
  | ok a => exact ⟨a, rfl⟩
  | error e => cases h

/-- **A step.** An action that writes what it has to puts its entries behind each log. -/
theorem logText_act {a : LogAction} (h : s.Writes a) (directory : String) :
    ∃ text, Log.Texts (s.added directory a) text ∧
      (s.act a).logText directory = s.logText directory ++ text := by
  cases a with
  | configure choice =>
    refine ⟨"", Log.texts_nil, ?_⟩
    simp only [act, String.append_empty]
    cases hchoice : s.configure choice with
    | ok t => exact logText_configure hchoice directory
    | error f => rfl
  | emit e time =>
    simp only [act, emit, added]
    rcases h with hsink | h
    · refine ⟨"", ?_, ?_⟩
      · rw [hsink]
        exact Log.texts_nil
      · simp only [write, hsink, String.append_empty]
    · obtain ⟨t, ht⟩ := exists_of_isOk h
      obtain ⟨sink, line, hsink, -, hline, htext⟩ := logText_write ht
      rw [ht, hsink]
      exact ⟨_, by simpa using Log.texts_ite (.event e.prepare time) hline _, htext directory⟩
  | write other e time =>
    obtain ⟨t, ht⟩ := exists_of_isOk h
    obtain ⟨sink, line, hsink, -, hline, htext⟩ := logText_write ht
    cases hsink
    simp only [act, added, ht]
    exact ⟨_, Log.texts_ite (.event e time) hline _, htext directory⟩
  | leave other line =>
    obtain ⟨t, ht⟩ := exists_of_isOk h
    simp only [act, added, ht]
    unfold leave at ht
    split at ht
    · next files hfiles =>
      rw [← Except.ok.inj ht]
      exact ⟨_, Log.texts_ite (.line line) rfl _, logText_of_append hfiles directory⟩
    · cases ht

/-- **A run.** After some actions a log has their entries behind what it had before. -/
theorem logText_actAll {actions : List LogAction} (h : s.WritesAll actions) (directory : String) :
    ∃ text, Log.Texts (entries directory s actions) text ∧
      (s.actAll actions).logText directory = s.logText directory ++ text := by
  induction actions generalizing s with
  | nil => exact ⟨"", Log.texts_nil, (String.append_empty ..).symm⟩
  | cons a rest ih =>
    obtain ⟨text, htext, hact⟩ := logText_act h.1 directory
    obtain ⟨more, hmore, hrest⟩ := ih h.2
    refine ⟨text ++ more, htext.append hmore, ?_⟩
    rw [← String.append_assoc, ← hact]
    exact hrest

/-! ## Emitting -/

theorem write_of_writable {sink : Sink} (hsink : s.sink = some sink)
    (hfile : s.files.Writable sink.path) {e : Event} {time : String}
    (h : (e.logLine time).isOk = true) : ∃ files, s.write e time = .ok { s with files := files } ∧
      files.Writable sink.path := by
  obtain ⟨line, hline⟩ := exists_of_isOk h
  obtain ⟨files, hfiles, hnext⟩ := hfile.append line
  exact ⟨files, by simp only [write, hsink, hline, hfiles], hnext⟩

/-- Where the log of a directory can be written, actions that write to it are all carried out. -/
theorem writesAll_of_fits (hsink : ∀ sink, s.sink = some sink → sink.directory = directory)
    (hfile : s.files.Writable (Sink.path ⟨directory⟩)) {actions : List LogAction}
    (h : ∀ a ∈ actions, a.Fits directory) : s.WritesAll actions := by
  induction actions generalizing s with
  | nil => trivial
  | cons a rest ih =>
    rw [List.forall_mem_cons] at h
    obtain ⟨hfits, hrest⟩ := h
    suffices hact : s.Writes a ∧ (∀ sink, (s.act a).sink = some sink → sink.directory = directory) ∧
        (s.act a).files.Writable (Sink.path ⟨directory⟩) from
      ⟨hact.1, ih hact.2.1 hact.2.2 hrest⟩
    cases a with
    | configure choice =>
      cases hfits
      exact ⟨trivial, nofun, hfile⟩
    | emit e time =>
      cases hchosen : s.sink with
      | none =>
        have hact : s.act (.emit e time) = s := by simp only [act, emit, write, hchosen]
        rw [hact]
        exact ⟨.inl hchosen, hsink, hfile⟩
      | some sink =>
        cases hsink sink hchosen
        obtain ⟨files, hwrite, hnext⟩ := write_of_writable hchosen hfile hfits
        have hact : s.act (.emit e time) = { s with files := files } := by
          simp only [act, emit, hwrite]
        rw [hact]
        exact ⟨.inr (by rw [hwrite]; rfl), hsink, hnext⟩
    | write other e time =>
      obtain ⟨rfl, hline⟩ := hfits
      obtain ⟨files, hwrite, hnext⟩ := write_of_writable (s := s.inDirectory other) rfl hfile hline
      have hact : s.act (.write other e time) = { s with files := files } := by
        simp only [act, hwrite]
        rfl
      rw [hact]
      exact ⟨by rw [Writes, hwrite]; rfl, hsink, hnext⟩
    | leave other line =>
      cases hfits
      obtain ⟨files, hfiles, hnext⟩ := hfile.append (line ++ "\n")
      have hleave : s.leave directory (line ++ "\n") = .ok { s with files := files } := by
        simp only [leave, hfiles]
      have hact : s.act (.leave directory line) = { s with files := files } := by
        simp only [act, hleave]
        rfl
      rw [hact]
      exact ⟨by rw [Writes, hleave]; rfl, hsink, hnext⟩

end Logging

/-- An empty log that events go to. -/
def emptyLog : Logging :=
  { files := { texts := [("logs/events.ndjson", "")], directories := ["logs"] }
    sink := some ⟨"logs"⟩ }

theorem emptyLog_writable : emptyLog.files.Writable (Sink.path ⟨"logs"⟩) where
  file := by decide
  notDirectory := by decide
  parentNotFile := by decide
  parentDirectory := by decide

end Spreadsheet
