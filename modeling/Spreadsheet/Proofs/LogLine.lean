import Mathlib.Data.List.Nodup
import Spreadsheet.Event.History
import Spreadsheet.Proofs.JsonReading

/-!
# Events as lines

Values are put in order before they stand in a log: the fields of records are sorted, which leaves a
plain value plain and alike (`Value.Plain.logged`). So the record of a plain event stands on one line
of the log, between braces, and reading that line gives the record back but for the order of its
fields (`Event.Plain.line`). An event that is prepared for the log is still plain.
-/

namespace Spreadsheet

open Numeral Text

/-! ## Values in order -/

namespace Value

open Event

theorem plainFields_iff {fields : List (Value × Value)} :
    PlainFields fields ↔ ∀ f ∈ fields, ∃ name, f.1 = .text name ∧ HalvesApart name ∧ f.2.Plain := by
  induction fields with
  | nil => exact iff_of_true .nil fun f hf => absurd hf List.not_mem_nil
  | cons f rest ih =>
    rw [List.forall_mem_cons, ← ih]
    constructor
    · rintro (_ | ⟨hname, hv, hrest⟩)
      exact ⟨⟨_, rfl, hname, hv⟩, hrest⟩
    · obtain ⟨name, v⟩ := f
      rintro ⟨⟨name, rfl, hname, hv⟩, hrest⟩
      exact .cons hname hv hrest

theorem logFields_eq_map (fields : List (Value × Value)) :
    logFields fields = fields.map fun f => (f.1, logValue f.2) := by
  induction fields with
  | nil => rfl
  | cons f rest ih => rw [logFields, List.map_cons, ih]

/-- Putting fields in order keeps names single. -/
theorem nodup_logged {fields : List (Value × Value)} (h : (fields.map Prod.fst).Nodup) :
    (((logFields fields).mergeSort fun a b => nameLe a.1 b.1).map Prod.fst).Nodup := by
  rw [((List.mergeSort_perm _ _).map Prod.fst).nodup_iff, logFields_eq_map, List.map_map]
  exact h

mutual

/-- In order a plain value is plain and alike. -/
theorem Plain.logged {v : Value} (h : Plain v) : (logValue v).Plain ∧ Alike v (logValue v) := by
  cases h with
  | null => exact ⟨.null, .refl _⟩
  | bool b => exact ⟨.bool b, .refl _⟩
  | int hn => exact ⟨.int hn, .refl _⟩
  | text hs => exact ⟨.text hs, .refl _⟩
  | @list items hitems =>
    obtain ⟨hplain, halike⟩ := PlainItems.logged hitems
    exact ⟨.list hplain, .list halike⟩
  | @record fields honce hfields =>
    obtain ⟨hplain, halike⟩ := PlainFields.logged hfields
    have hperm := (logFields fields).mergeSort_perm fun a b => nameLe a.1 b.1
    refine ⟨.record (nodup_logged honce) ?_, .record halike hperm.symm⟩
    rw [plainFields_iff] at hplain ⊢
    exact fun f hf => hplain f (hperm.mem_iff.1 hf)

theorem PlainItems.logged {items : List Value} (h : PlainItems items) :
    PlainItems (logItems items) ∧ AlikeItems items (logItems items) := by
  cases h with
  | nil => exact ⟨.nil, .nil⟩
  | cons hv hrest =>
    obtain ⟨hplain, halike⟩ := Plain.logged hv
    obtain ⟨hplains, halikes⟩ := PlainItems.logged hrest
    exact ⟨.cons hplain hplains, .cons halike halikes⟩

theorem PlainFields.logged {fields : List (Value × Value)} (h : PlainFields fields) :
    PlainFields (logFields fields) ∧ AlikeFields fields (logFields fields) := by
  cases h with
  | nil => exact ⟨.nil, .nil⟩
  | cons hname hv hrest =>
    obtain ⟨hplain, halike⟩ := Plain.logged hv
    obtain ⟨hplains, halikes⟩ := PlainFields.logged hrest
    exact ⟨.cons hname hplain hplains, .cons halike halikes⟩

end

end Value

/-! ## Events -/

namespace Event

/-- A text that is cut ends with a mark, before which there is no pair. -/
theorem halvesApart_truncateText {s : String} (h : HalvesApart s) :
    HalvesApart (truncateText s) := by
  unfold truncateText
  split
  · have hmark : HalvesApart "...[truncated]" := by decide
    unfold HalvesApart at h hmark ⊢
    rw [String.toList_append, String.toList_ofList, List.isChain_append]
    refine ⟨h.take _, hmark, fun a _ b hb hpair => ?_⟩
    cases hb
    exact absurd hpair.2 (by decide)
  · exact h

theorem plain_fieldValue {α : Type} {a : Option α} {f : α → Value} (h : ∀ x, a = some x → (f x).Plain) :
    ((a.map f).getD .null).Plain := by
  cases a with
  | none => exact .null
  | some x => exact h x rfl

theorem plain_context {context : List (String × Value)} (honce : (context.map Prod.fst).Nodup)
    (h : ∀ entry ∈ context, HalvesApart entry.1 ∧ entry.2.Plain) :
    (Value.record (context.map fun entry => (.text entry.1, entry.2))).Plain := by
  refine .record ?_ (Value.plainFields_iff.2 fun f hf => ?_)
  · have hnames := List.Nodup.map (f := Value.text) (fun _ _ => Value.text.inj) honce
    rw [List.map_map] at hnames ⊢
    exact hnames
  · obtain ⟨entry, hentry, rfl⟩ := List.mem_map.1 hf
    exact ⟨entry.1, rfl, h entry hentry⟩

def loggedFields (e : Event) (time : String) : List (Value × Value) :=
  (logFields (e.fieldsAt time)).mergeSort fun a b => nameLe a.1 b.1

theorem mem_loggedFields {e : Event} {time : String} {f : Value × Value}
    (h : f ∈ e.fieldsAt time) : (f.1, logValue f.2) ∈ e.loggedFields time := by
  unfold loggedFields
  rw [List.mem_mergeSort, Value.logFields_eq_map]
  exact List.mem_map_of_mem h

theorem nodup_fieldsAt (e : Event) (time : String) : ((e.fieldsAt time).map Prod.fst).Nodup := by
  have hnames : ["context", "error_code", "event_type", "level", "message", "schema_version",
      "ts"].Nodup := by decide
  exact List.Nodup.map (f := Value.text) (fun _ _ => Value.text.inj) hnames

/-- The record of a plain event is plain. -/
theorem Plain.record {e : Event} (h : e.Plain) (hversion : (Value.int e.schemaVersion).Plain)
    {time : String} (htime : HalvesApart time) : (e.record time).Plain := by
  have hcode := plain_fieldValue fun code hcode => Value.Plain.text (h.code code hcode)
  have htype : HalvesApart e.type.name := by
    cases e.type <;> decide
  have hlevel : HalvesApart e.level.name := by
    cases e.level <;> decide
  have hname : ∀ name ∈ ["context", "error_code", "event_type", "level", "message",
      "schema_version", "ts"], HalvesApart name := by decide
  simp only [List.forall_mem_cons] at hname
  obtain ⟨hname₁, hname₂, hname₃, hname₄, hname₅, hname₆, hname₇, -⟩ := hname
  exact .record (e.nodup_fieldsAt time) <|
    .cons hname₁ (plain_context h.names h.context) <| .cons hname₂ hcode <|
    .cons hname₃ (.text htype) <| .cons hname₄ (.text hlevel) <| .cons hname₅ (.text h.message) <|
    .cons hname₆ hversion <| .cons hname₇ (.text htime) .nil

/-! ## Lines -/

open Json

/-- A whole number that has a text is short. -/
theorem plain_of_intText {n : Int} {s : String} (h : intText n = .ok s) : (Value.int n).Plain := by
  refine .int (Nat.le_of_not_lt fun hlong => ?_)
  unfold intText integerText? at h
  dsimp only at h
  rw [if_neg (Nat.not_le.2 hlong)] at h
  cases h

/-- Where fields are written, the value of each is. -/
theorem exists_written_of_mem {fields : List (Value × Value)} {depth : Nat} {parts : List String}
    (h : writeFields .oneLine depth fields = .ok parts) {f : Value × Value} (hf : f ∈ fields) :
    ∃ s, writeAt .oneLine depth f.2 = .ok s := by
  induction fields generalizing parts with
  | nil => cases hf
  | cons g rest ih =>
    obtain ⟨name, v⟩ := g
    simp only [writeFields] at h
    obtain ⟨k, -, h⟩ := exists_of_bind h
    obtain ⟨s, hs, h⟩ := exists_of_bind h
    obtain ⟨more, hmore, -⟩ := exists_of_bind h
    rcases List.mem_cons.1 hf with rfl | hf
    · exact ⟨s, hs⟩
    · exact ih hmore hf

/-- An event that has a line has a version that is short enough for text. -/
theorem plain_version {e : Event} {time line : String} (h : e.logLine time = .ok line) :
    (Value.int e.schemaVersion).Plain := by
  have hmem : (Value.text "schema_version", .int e.schemaVersion) ∈ e.fieldsAt time := by
    simp [fieldsAt, toFields]
  obtain ⟨_, hrecord, -⟩ := exists_of_bind h
  simp only [writeLine, logValue, writeAt] at hrecord
  obtain ⟨parts, hfields, -⟩ := exists_of_bind hrecord
  obtain ⟨s, hs⟩ := exists_written_of_mem hfields (mem_loggedFields hmem)
  exact plain_of_intText hs

/-- **The line of a plain event** stands between braces, and it reads back as the record of the event
but for the order of the fields. -/
theorem Plain.line {e : Event} (h : e.Plain) (hversion : (Value.int e.schemaVersion).Plain)
    {time : String} (htime : HalvesApart time) :
    ∃ cs, e.logLine time = .ok (String.ofList ('{' :: cs ++ ['}']) ++ "\n") ∧
      Visible ('{' :: cs ++ ['}']) ∧
      read (String.ofList ('{' :: cs ++ ['}'])) = .ok (.record (e.loggedFields time)) := by
  obtain ⟨hplain, -⟩ := (h.record hversion htime).logged
  obtain ⟨cs, hwrite, hread, hvisible⟩ := exists_written_record hplain
  refine ⟨cs, ?_, hvisible, hread⟩
  change writeLine (logValue (e.record time)) = _ at hwrite
  unfold logLine
  change (writeLine (logValue (e.record time))).bind _ = _
  rw [hwrite]
  rfl

/-! ## Preparing -/

mutual

/-- A plain value stays plain when its texts are cut. -/
theorem plain_truncateValue {v : Value} (h : v.Plain) : (truncateValue v).Plain := by
  cases h with
  | null => exact .null
  | bool b => exact .bool b
  | int hn => exact .int hn
  | text hs => exact .text (halvesApart_truncateText hs)
  | list hitems => exact .list hitems
  | record honce hfields =>
    obtain ⟨hnames, hplain⟩ := plain_truncateFields hfields
    exact .record (hnames ▸ honce) hplain

theorem plain_truncateFields {fields : List (Value × Value)} (h : Value.PlainFields fields) :
    (truncateFields fields).map Prod.fst = fields.map Prod.fst ∧
      Value.PlainFields (truncateFields fields) := by
  cases h with
  | nil => exact ⟨rfl, .nil⟩
  | cons hname hv hrest =>
    obtain ⟨hnames, hplain⟩ := plain_truncateFields hrest
    exact ⟨congrArg (_ :: ·) hnames, .cons hname (plain_truncateValue hv) hplain⟩

end

section

variable {context : List (String × Value)} {name : String} {v : Value}

/-- Giving a name a value keeps names single. -/
theorem nodup_setContext (h : (context.map Prod.fst).Nodup) :
    ((setContext context name v).map Prod.fst).Nodup := by
  unfold setContext
  split
  · have hnames : (context.map fun e => if e.1 == name then (name, v) else e).map Prod.fst =
        context.map Prod.fst := by
      rw [List.map_map]
      refine List.map_congr_left fun e _ => ?_
      simp only [Function.comp_apply]
      split
      · next heq => exact (beq_iff_eq.1 heq).symm
      · rfl
    rwa [hnames]
  · next hnew =>
    rw [List.map_append]
    refine h.append (List.nodup_singleton _) ?_
    rw [List.map_singleton, List.disjoint_singleton]
    intro hmem
    obtain ⟨e, he, rfl⟩ := List.mem_map.1 hmem
    exact hnew (List.any_eq_true.2 ⟨e, he, beq_self_eq_true _⟩)

theorem mem_setContext {entry : String × Value} (h : entry ∈ setContext context name v) :
    entry ∈ context ∨ entry = (name, v) := by
  unfold setContext at h
  split at h
  · obtain ⟨e, he, rfl⟩ := List.mem_map.1 h
    split
    · exact .inr rfl
    · exact .inl he
  · simpa using h

end

theorem plainItems_texts {names : List String} (h : ∀ name ∈ names, HalvesApart name) :
    Value.PlainItems (names.map Value.text) := by
  induction names with
  | nil => exact .nil
  | cons name rest ih =>
    rw [List.forall_mem_cons] at h
    exact .cons (.text h.1) (ih h.2)

/-- A plain event is plain when it is prepared for the log. -/
theorem Plain.prepare {e : Event} (h : e.Plain) : e.prepare.Plain := by
  have hcut : Event.Plain { e with context := truncateContext e.context } := by
    refine { h with names := ?_, context := fun entry hentry => ?_ }
    · have hnames : (truncateContext e.context).map Prod.fst = e.context.map Prod.fst := by
        unfold truncateContext
        rw [List.map_map]
        rfl
      exact hnames ▸ h.names
    · obtain ⟨old, hold, rfl⟩ := List.mem_map.1 hentry
      obtain ⟨hname, hv⟩ := h.context old hold
      exact ⟨hname, plain_truncateValue hv⟩
  unfold Event.prepare checkAttribution
  split
  · exact hcut
  · refine { hcut with names := nodup_setContext hcut.names, context := fun entry hentry => ?_ }
    rcases mem_setContext hentry with hold | rfl
    · exact hcut.context entry hold
    · have hname : HalvesApart "_missing_attribution" := by decide
      refine ⟨hname, .list (plainItems_texts fun name hname => ?_)⟩
      have hasked : ∀ name ∈ attributionsOf e.type, HalvesApart name := by
        cases e.type <;> decide
      exact hasked name (List.mem_of_mem_filter hname)

theorem schemaVersion_prepare (e : Event) : e.prepare.schemaVersion = e.schemaVersion := by
  unfold Event.prepare checkAttribution
  split <;> rfl

/-- A plain event has a line when it is prepared for the log. -/
theorem Plain.isOk_line {e : Event} (h : e.Plain) (hversion : (Value.int e.schemaVersion).Plain)
    {time : String} (htime : HalvesApart time) : (e.prepare.logLine time).isOk = true := by
  obtain ⟨cs, hline, -⟩ := h.prepare.line ((schemaVersion_prepare e).symm ▸ hversion) htime
  rw [hline]
  rfl

end Event

end Spreadsheet
