import Spreadsheet.Command.Request
import Spreadsheet.Event.Sink
import Spreadsheet.Json.Writer
import Spreadsheet.Settings
import Spreadsheet.Workbook.File
import Spreadsheet.Workbook.Grid
import Spreadsheet.Workbook.Resolve

/-!
# Carrying out requests

A request reads and writes a tree of files and prints text. It ends well, or is refused for a reason
that the user can mend, or fails with a fault of the computation. What was written before a failure
stays written.
-/

namespace Spreadsheet.Command

inductive Refusal
  | unsupportedFile (suffix : String)
  | unreadableFile (path detail : String)
  | invalidSettings (detail : String)
  | settingsShape (path : String)
  | shape (f : ShapeFault)
deriving DecidableEq, Repr

/-- A failure of a request. -/
inductive Failure
  | fault (f : Fault)
  | listing (faults : List FieldFault)
  | settings (f : Yaml.Fault)
  | data (f : Workbook.DataFault)
  | log (f : LogFault)
  /-- The directory of the event log is no text. -/
  | logDirectory
  | write (f : Json.WriteFault)
  | file (f : FileFault)
  /-- A text to write holds half of a surrogate pair; this is what was printed before it. -/
  | unencodable (printed : String)
deriving DecidableEq, Repr

/-- How a request ends early. -/
inductive Ending
  | usage (f : UsageFault)
  | refused (r : Refusal)
  | failed (f : Failure)
deriving DecidableEq, Repr

/-- What a refusal says in the first place. -/
def Refusal.headline : Refusal → String
  | .unsupportedFile suffix => "Unsupported workbook file type: " ++ Text.quoted suffix
  | .unreadableFile path _ => "Cannot parse " ++ path ++ ": "
  | .invalidSettings _ => "Invalid config: "
  | .settingsShape path => "Invalid config: " ++ path ++ ": configuration must be a mapping"
  | .shape (.cell faults) =>
    toString faults.length ++ " validation error" ++ (if faults.length = 1 then "" else "s") ++
      " for Cell\n"
  | .shape f => f.message

/-- What a refusal says further. -/
def Refusal.detail : Refusal → Option String
  | .unreadableFile _ detail | .invalidSettings detail => some detail
  | .shape (.cell faults) => some (", ".intercalate (faults.map (·.field)))
  | _ => none

/-- What a run of requests depends on. -/
structure Clock where
  /-- The current date. -/
  today : Calendar.Date
  /-- The current time for events. -/
  now : String

/-- A computation over the files that may end early. -/
abbrev Run := ExceptT Ending (StateM Files)

def refuse {α : Type} (r : Refusal) : Run α := throw (.refused r)

def fail {α : Type} (f : Failure) : Run α := throw (.failed f)

def orFail {ε α : Type} (failure : ε → Failure) : Except ε α → Run α
  | .ok a => pure a
  | .error e => fail (failure e)

/-- A YAML text has no value because of its form, not because of a number or date in it. -/
def isFormFault : Yaml.Fault → Bool
  | .unprintable | .token | .order | .reference | .content => true
  | _ => false

/-- The form of a YAML text or what it writes is at fault. -/
def yamlDetail : Yaml.Fault → String
  | .unprintable => "special characters are not allowed"
  | .token => "a token is malformed or not allowed here"
  | .order => "another token is expected"
  | .reference => "an alias, an anchor or a document is not expected"
  | .range message => message
  | _ => "a value cannot be read"

/-- The settings of a directory or file. -/
def loadSettings (path : String) : Run Settings := do
  match Settings.load (← get) path with
  | .ok s => return s
  | .error (.notMapping path) => refuse (.settingsShape path)
  | .error (.yaml f) =>
    match f with
    | .range _ | .wholeNumber => refuse (.invalidSettings (yamlDetail f))
    | f => if isFormFault f then refuse (.invalidSettings (yamlDetail f)) else fail (.settings f)

/-- The log that the settings ask for. -/
def openLog (s : Settings) : Run (Option Sink) := do
  match s.logDirectory with
  | .null => return none
  | .text directory =>
    let logging ← orFail .log (Logging.configure { files := ← get } (some directory))
    set logging.files
    return logging.sink
  | _ => fail .logDirectory

/-- The workbook in the file at a path. -/
def loadWorkbook (path : String) : Run Workbook := do
  let path := Files.tidy path
  match Workbook.dataOfFile (← get) path with
  | .error (.unsupported suffix) => refuse (.unsupportedFile suffix)
  | .error (.json .malformed) => refuse (.unreadableFile path "no JSON")
  | .error (.yaml f) =>
    if isFormFault f then refuse (.unreadableFile path (yamlDetail f)) else fail (.data (.yaml f))
  | .error f => fail (.data f)
  | .ok data =>
    match Workbook.ofValue data with
    | .ok w => return w
    | .error f => refuse (.shape f)

def logEvents (sink : Option Sink) (events : List Event) (now : String) : Run Unit :=
  modify fun files => (Logging.emitAll { files := files, sink := sink } events now).files

def print (lines : List String) : Run String :=
  let text (lines : List String) : String := String.join (lines.map (· ++ "\n"))
  let printed := lines.takeWhile fun line => !Text.hasHalf line
  if printed.length < lines.length then fail (.unencodable (text printed)) else return text lines

/-- Writes the display texts of each table into a directory. -/
def writeTables (directory : String) (w : Workbook) : Run Unit := do
  set (← orFail .file ((← get).makeDirectories directory))
  for (table, n) in w.zipIdx do
    if Text.hasHalf table.csvText then fail (.unencodable "")
    let path := Files.join directory ("table_" ++ toString n ++ ".csv")
    set (← orFail .file ((← get).write path table.csvText))

def resultRecord (s : Resolution) : Value :=
  .record [(.text "tables", s.workbook.toValue),
    (.text "formulas", .list (s.formulas.map FormulaCell.toRecord))]

def resultLines (s : Resolution) : List String :=
  (s.workbook.zipIdx.flatMap fun (table, n) =>
    ("Table " ++ toString n) :: Table.tabbedLines table) ++
  [toString s.formulas.length ++ " formula cell(s)"]

/-- Resolves a workbook. -/
def runResolve (clock : Clock) (o : ResolveOptions) : Run String := do
  let settings ← loadSettings (o.settings.getD (Files.parent o.workbook))
  let sink ← openLog settings
  let w ← loadWorkbook o.workbook
  let s := w.resolve ⟨standardFormatter, settings.scaling, clock.today⟩
  logEvents sink s.events clock.now
  match s.fault with
  | some (.fault f) => fail (.fault f)
  | some (.listing faults) => fail (.listing faults)
  | none => pure ()
  match o.csvDirectory with
  | none | some "" => pure ()
  | some directory => writeTables directory s.workbook
  if o.json then
    print [← orFail .write (Json.writeIndented (resultRecord s))]
  else print (resultLines s)

/-- Evaluates a formula. -/
def runEval (clock : Clock) (o : EvalOptions) : Run String := do
  let w ← match o.workbook with
    | none => pure []
    | some path => loadWorkbook path
  let env : Environment := ⟨w, parseFormula, clock.today⟩
  let v ← orFail .fault (evaluateFormula env (.text o.formula) (.index o.table) [])
  print [← orFail .fault v.display]

/-! ## Help -/

/-- What a command is for and how it is called. -/
def helpText : Option Name → String
  | none =>
    "Usage: main [OPTIONS] COMMAND [ARGS]...\n\n" ++
    "  gridcalc -- evaluate spreadsheet formulas over JSON/YAML workbooks.\n\n" ++
    "Options:\n" ++
    "  --version  Show the version and exit.\n" ++
    "  --help     Show this message and exit.\n\n" ++
    "Commands:\n" ++
    "  eval     Evaluate a single FORMULA, e.g.\n" ++
    "  resolve  Resolve every formula in the workbook at PATH.\n"
  | some .resolve =>
    "Usage: main resolve [OPTIONS] PATH\n\n" ++
    "  Resolve every formula in the workbook at PATH.\n\n" ++
    "Options:\n" ++
    "  --json               Print the full result as JSON.\n" ++
    "  --csv-dir DIRECTORY  Write each table's display values to CSV.\n" ++
    "  --config PATH        Config file (default: gridcalc.yaml next to PATH).\n" ++
    "  --help               Show this message and exit.\n"
  | some .eval =>
    "Usage: main eval [OPTIONS] FORMULA\n\n" ++
    "  Evaluate a single FORMULA, e.g. \"=SUM(1, 2, 3)\".\n\n" ++
    "Options:\n" ++
    "  --workbook FILE  Workbook the formula's references point into.\n" ++
    "  --table INTEGER  Table index for bare references.\n" ++
    "  --help           Show this message and exit.\n"

def versionText : String := "gridcalc, version 0.1.0\n"

/-! ## Output -/

/-- The number of characters of an escape sequence that sets colors, behind its first one: a
bracket, numbers with their separators, and a letter. -/
def colorSequence? : List Char → Option Nat
  | '[' :: rest =>
    let numbers := rest.takeWhile fun c => Text.isAsciiDigit c || c == ';' || c == '?'
    match rest.drop numbers.length with
    | c :: _ => if Text.isAsciiLetter c then some (numbers.length + 2) else none
    | [] => none
  | _ => none

/-- The characters without escape sequences that set colors. -/
def dropColors (cs : List Char) : List Char :=
  match cs with
  | [] => []
  | c :: rest =>
    match if c = '\x1b' then colorSequence? rest else none with
    | some size => dropColors (rest.drop size)
    | none => c :: dropColors rest
termination_by cs.length
decreasing_by all_goals simp only [List.length_drop, List.length_cons]; omega

/-- What was printed before an early end. -/
def Ending.printed : Ending → String
  | .failed (.unencodable printed) => printed
  | _ => ""

/-- What is printed, how it ended, and the files afterwards. -/
structure Outcome where
  output : String
  ending : Option Ending
  files : Files

/-- The number that tells the caller how a request ended. -/
def Outcome.exitCode (o : Outcome) : Nat :=
  match o.ending with
  | none => 0
  | some (.usage _) => 2
  | some _ => 1

/-- Carries out what a command line asks for. -/
def run (clock : Clock) (words : List String) (files : Files) : Outcome :=
  let action : Run String := do
    let request ← match Request.ofWords words with
      | .ok request => pure request
      | .error f => throw (.usage f)
    match Request.checkPaths (← get) request with
    | .ok () => pure ()
    | .error f => throw (.usage f)
    match request with
    | .version => return versionText
    | .help command => return helpText command
    | .resolve options => runResolve clock options
    | .eval options => runEval clock options
  let shown (text : String) : String := String.ofList (dropColors text.toList)
  match action.run.run files with
  | (.ok text, files) => ⟨shown text, none, files⟩
  | (.error ending, files) => ⟨shown ending.printed, some ending, files⟩

end Spreadsheet.Command
