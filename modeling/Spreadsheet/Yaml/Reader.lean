import Spreadsheet.Yaml.Document

/-!
# Reading YAML

`Yaml.read` takes a whole text and gives the value of its one document; a text without a document
stands for nothing. The faults of the text come in the order in which they are met: characters
first, then tokens and their order as they are read, then the contents of nodes.
-/

namespace Spreadsheet.Yaml

/-- The state behind the last token of a text. -/
def reading (text : String) : Except Fault Reading := do
  let cs := text.toList
  if !cs.all isAllowed then .error .unprintable
  let scan := tokens cs
  let r ← scan.tokens.toList.foldlM Reading.step {}
  match scan.fault with
  | some f => .error f
  | none => return r

/-- The value that a text writes. A node may contain itself as far as the document goes, but it has
no value. -/
def read (text : String) : Except Fault Value := do
  let r ← reading text
  match r.due with
  | .complete none => return .null
  | .complete (some root) =>
    match root.value with
    | .ok v => if r.loops then .error .recursion else return v
    | .error (_, f) => .error f
  | _ => .error .order

end Spreadsheet.Yaml
