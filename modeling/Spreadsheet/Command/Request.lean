import Spreadsheet.Files
import Spreadsheet.Numeral.Reading
import Spreadsheet.Text.Quoted

/-!
# Requests on the command line

The words of a command line are read as options and operands: an option starts with a dash and may
take the next word, or the text behind an equals sign, as its value; after two dashes alone every
word is an operand. `Request.ofWords` tells what they ask for, or why they ask for nothing.
-/

namespace Spreadsheet.Command

open Numeral Text

/-- Why words on a command line ask for nothing. -/
inductive UsageFault
  | noCommand
  | unknownCommand (name : String)
  | unknownOption (name : String)
  | valueMissing (option : String)
  | valueUnexpected (option : String)
  | operandMissing (name : String)
  | operandUnexpected (word : String)
  | notInteger (option value : String)
  /-- The path leads nowhere, or to a file or directory where the other is needed. -/
  | badPath (name path problem : String)
deriving DecidableEq, Repr

/-- What a usage fault says. -/
def UsageFault.message : UsageFault → String
  | .noCommand => "Missing command."
  | .unknownCommand name => "No such command " ++ quoted name ++ "."
  | .unknownOption name => "No such option: " ++ name
  | .valueMissing option => "Option " ++ quoted option ++ " requires an argument."
  | .valueUnexpected option => "Option " ++ quoted option ++ " does not take a value."
  | .operandMissing name => "Missing argument " ++ quoted name ++ "."
  | .operandUnexpected word => "Got unexpected extra argument (" ++ word ++ ")"
  | .notInteger option value =>
    "Invalid value for " ++ quoted option ++ ": " ++ quoted value ++ " is not a valid integer."
  | .badPath name path problem =>
    "Invalid value for " ++ quoted name ++ ": " ++ quoted path ++ " " ++ problem ++ "."

/-! ## Words -/

/-- Whether an option takes a value. -/
inductive OptionKind
  | flag
  | valued
deriving DecidableEq

/-- The options and operands of some words. -/
structure Words where
  /-- The options in order, with the value of each that takes one. -/
  options : List (String × Option String) := []
  operands : List String := []

namespace Words

def isOption (word : String) : Bool :=
  match word.toList with
  | '-' :: _ :: _ => true
  | _ => false

/-- The name of an option, and the value behind an equals sign. -/
def splitOption (word : String) : String × Option String :=
  let name := word.toList.takeWhile (· != '=')
  match word.toList.dropWhile (· != '=') with
  | _ :: value => (String.ofList name, some (String.ofList value))
  | [] => (word, none)

/-- Puts an option in front. -/
def addOption (w : Words) (name : String) (value : Option String) : Words :=
  { w with options := (name, value) :: w.options }

/-- Reads words that may have some options. Where options and operands do not mix, the first
operand ends the options. -/
def read (known : List (String × OptionKind)) (mixed : Bool) :
    List String → Except UsageFault Words
  | [] => .ok {}
  | word :: rest =>
    if word = "--" then .ok { operands := rest }
    else if isOption word then
      let (name, given) := splitOption word
      match (known.find? fun k => k.1 == name).map Prod.snd, given, rest with
      | none, _, _ => .error (.unknownOption name)
      | some .flag, some _, _ => .error (.valueUnexpected name)
      | some .flag, none, rest => do return (← read known mixed rest).addOption name none
      | some .valued, some value, rest =>
        do return (← read known mixed rest).addOption name (some value)
      | some .valued, none, [] => .error (.valueMissing name)
      | some .valued, none, value :: rest =>
        do return (← read known mixed rest).addOption name (some value)
    else if mixed then do
      let w ← read known mixed rest
      return { w with operands := word :: w.operands }
    else .ok { operands := word :: rest }

def has (w : Words) (name : String) : Bool := w.options.any fun o => o.1 == name

/-- The value of an option; the last one counts. -/
def value? (w : Words) (name : String) : Option String :=
  (w.options.reverse.find? fun o => o.1 == name).bind Prod.snd

/-- The only operand. -/
def operand (w : Words) (name : String) : Except UsageFault String :=
  match w.operands with
  | [] => .error (.operandMissing name)
  | [word] => .ok word
  | _ :: word :: _ => .error (.operandUnexpected word)

end Words

/-! ## Requests -/

inductive Name
  | resolve
  | eval
deriving DecidableEq, Repr

/-- What to resolve, and where the results go. -/
structure ResolveOptions where
  workbook : String
  /-- The whole result is printed as JSON. -/
  json : Bool
  /-- The directory for a file of comma-separated values for each table. -/
  csvDirectory : Option String
  /-- The settings file or its directory, if not the directory of the workbook. -/
  settings : Option String
deriving DecidableEq, Repr

structure EvalOptions where
  formula : String
  workbook : Option String
  /-- The index of the table that references without one belong to. -/
  table : Int
deriving DecidableEq, Repr

/-- What a command line asks for. -/
inductive Request
  | version
  | help (command : Option Name)
  | resolve (options : ResolveOptions)
  | eval (options : EvalOptions)
deriving DecidableEq, Repr

namespace Request

def ofResolveWords (words : List String) : Except UsageFault Request := do
  let known := [("--json", .flag), ("--csv-dir", .valued), ("--config", .valued), ("--help", .flag)]
  let w ← Words.read known true words
  if w.has "--help" then return .help (some .resolve)
  let workbook ← w.operand "PATH"
  return .resolve ⟨workbook, w.has "--json", w.value? "--csv-dir", w.value? "--config"⟩

/-- A request to evaluate a formula. -/
def ofEvalWords (words : List String) : Except UsageFault Request := do
  let known := [("--workbook", .valued), ("--table", .valued), ("--help", .flag)]
  let w ← Words.read known true words
  if w.has "--help" then return .help (some .eval)
  let formula ← w.operand "FORMULA"
  let table ← match w.value? "--table" with
    | none => pure 0
    | some word =>
      match wholeNumber? word.toList with
      | some n => pure n
      | none => .error (.notInteger "--table" word)
  return .eval ⟨formula, w.value? "--workbook", table⟩

/-- What the words of a command line ask for. -/
def ofWords (words : List String) : Except UsageFault Request := do
  let w ← Words.read [("--version", .flag), ("--help", .flag)] false words
  match w.options, w.operands with
  | (name, _) :: _, _ => return if name = "--version" then .version else .help none
  | [], [] => .error .noCommand
  | [], "resolve" :: rest => ofResolveWords rest
  | [], "eval" :: rest => ofEvalWords rest
  | [], name :: _ => .error (.unknownCommand name)

/-! ## Paths -/

def requireFile (fs : Files) (name path : String) : Except UsageFault Unit :=
  if fs.leadsToFile path then .ok ()
  else if fs.leadsToDirectory path then .error (.badPath name path "is a directory")
  else .error (.badPath name path "does not exist")

/-- A path that has to lead to a file or a directory. -/
def requirePath (fs : Files) (name path : String) : Except UsageFault Unit :=
  if fs.leadsToFile path || fs.leadsToDirectory path then .ok ()
  else .error (.badPath name path "does not exist")

def requireNoFile (fs : Files) (name path : String) : Except UsageFault Unit :=
  if fs.leadsToFile path then .error (.badPath name path "is a file") else .ok ()

/-- Checks the paths of a request. -/
def checkPaths (fs : Files) : Request → Except UsageFault Unit
  | .resolve o => do
    requireFile fs "PATH" o.workbook
    (o.csvDirectory.mapM (requireNoFile fs "--csv-dir")).map fun _ => ()
    (o.settings.mapM (requirePath fs "--config")).map fun _ => ()
  | .eval o => (o.workbook.mapM (requireFile fs "--workbook")).map fun _ => ()
  | .version | .help _ => .ok ()

end Request

end Spreadsheet.Command
