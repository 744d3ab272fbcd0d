import Spreadsheet.Value.Schema

/-!
# Events

A resolution reports what it finds as events. An event has a level, a type, a message and a
context, a record of attributions. Before it is logged, long texts in its context are cut, and an
event whose context lacks an attribution that its type asks for becomes a warning which names what
is missing.
-/

namespace Spreadsheet

/-- How grave an event is. -/
inductive EventLevel
  | info
  | warning
  | error
deriving DecidableEq, Repr

/-- What an event is about. -/
inductive EventType
  | resolveStarted
  | resolveCompleted
  | formulaError
  | circularReference
deriving DecidableEq, Repr

def EventLevel.names : List (String × EventLevel) :=
  [("info", .info), ("warning", .warning), ("error", .error)]

def EventType.names : List (String × EventType) :=
  [("resolve_started", .resolveStarted), ("resolve_completed", .resolveCompleted),
   ("formula_error", .formulaError), ("circular_reference", .circularReference)]

def EventLevel.name : EventLevel → String
  | .info => "info"
  | .warning => "warning"
  | .error => "error"

def EventType.name : EventType → String
  | .resolveStarted => "resolve_started"
  | .resolveCompleted => "resolve_completed"
  | .formulaError => "formula_error"
  | .circularReference => "circular_reference"

def EventLevel.ofName? (name : String) : Option EventLevel :=
  (names.find? fun e => e.1 == name).map Prod.snd

def EventType.ofName? (name : String) : Option EventType :=
  (names.find? fun e => e.1 == name).map Prod.snd

/-- An event. -/
structure Event where
  schemaVersion : Int := 1
  level : EventLevel
  type : EventType
  context : List (String × Value) := []
  message : String := ""
  errorCode : Option String := none

namespace Event

/-! ## Building -/

/-- The value of a field that names a level. -/
def levelOf : Value → Except FieldIssue EventLevel
  | .text s => match EventLevel.ofName? s with
    | some level => .ok level
    | none => .error .wordUnknown
  | _ => .error .wordUnknown

/-- The value of a field that names a type. -/
def typeOf : Value → Except FieldIssue EventType
  | .text s => match EventType.ofName? s with
    | some type => .ok type
    | none => .error .wordUnknown
  | _ => .error .wordUnknown

/-- Reads an event from a record; level and type have to be given. -/
def ofRecord (fields : List (Value × Value)) : Except (List FieldFault) Event :=
  let read {α : Type} (name : String) (kind : Value → Except FieldIssue α) (absent : α) :
      Except FieldIssue α := ((Value.field? fields name).map kind).getD (.ok absent)
  let version := read "schema_version" Value.asInt 1
  let level := ((Value.field? fields "level").map levelOf).getD (.error .missing)
  let type := ((Value.field? fields "event_type").map typeOf).getD (.error .missing)
  let context := read "context" Value.asFields []
  let message := read "message" Value.asText ""
  let code := read "error_code" Value.asOptionalText none
  match version, level, type, context, message, code with
  | .ok version, .ok level, .ok type, .ok context, .ok message, .ok code =>
    .ok ⟨version, level, type, context, message, code⟩
  | version, level, type, context, message, code =>
    .error (faultOf "schema_version" version ++ faultOf "level" level ++
      faultOf "event_type" type ++ faultOf "context" context ++ faultOf "message" message ++
      faultOf "error_code" code)

/-- Gives a name of a context a value. -/
def setContext (context : List (String × Value)) (name : String) (v : Value) :
    List (String × Value) :=
  if context.any fun e => e.1 == name then
    context.map fun e => if e.1 == name then (name, v) else e
  else context ++ [(name, v)]

/-- The context of an event about a cell: its position, and what else is known. -/
def cellContext (table row col : Value) (extra : List (String × Value)) : List (String × Value) :=
  extra.foldl (fun context e => setContext context e.1 e.2)
    [("table", table), ("row", row), ("col", col)]

/-! ## Preparing for the log -/

/-- The longest text that a context may hold. -/
def maxTextLength : Nat := 256

def truncateText (s : String) : String :=
  if s.length > maxTextLength then
    String.ofList (s.toList.take maxTextLength) ++ "...[truncated]"
  else s

mutual

/-- A value of a context: a text is cut, and so are the texts of records, at any depth; lists are
kept as they are. -/
def truncateValue : Value → Value
  | .text s => .text (truncateText s)
  | .record fields => .record (truncateFields fields)
  | v => v

def truncateFields : List (Value × Value) → List (Value × Value)
  | [] => []
  | (name, v) :: rest => (name, truncateValue v) :: truncateFields rest

end

def truncateContext (context : List (String × Value)) : List (String × Value) :=
  context.map fun e => (e.1, truncateValue e.2)

/-- The attributions that a type of event asks for, in ascending order. -/
def attributionsOf : EventType → List String
  | .resolveStarted => ["tables"]
  | .resolveCompleted => ["formulas", "tables"]
  | .formulaError | .circularReference => ["col", "row", "table"]

def missingAttributions (e : Event) : List String :=
  (attributionsOf e.type).filter fun name => !e.context.any fun entry => entry.1 == name

/-- Makes an event that lacks attributions a warning which names them. -/
def checkAttribution (e : Event) : Event :=
  if e.missingAttributions.isEmpty then e
  else { e with
    level := .warning
    context := setContext e.context "_missing_attribution"
      (.list (e.missingAttributions.map Value.text)) }

/-- The event as it is logged. -/
def prepare (e : Event) : Event :=
  checkAttribution { e with context := truncateContext e.context }

end Event

end Spreadsheet
