import Spreadsheet.Value.Field
import Spreadsheet.Yaml.ScalarValue

/-!
# YAML: nodes

A document is a tree of nodes with tags. `Node.value` gives the value that a node stands for. A key
`<<` of a mapping takes over the entries of other mappings: they come before the mapping's own
entries, which replace them. Of several faults the one nearest to the root counts, the first one
among those.
-/

namespace Spreadsheet.Yaml

/-- A node of a document. -/
inductive Node
  | scalar (tag : Tag) (text : String)
  | sequence (tag : Tag) (items : List Node)
  | mapping (tag : Tag) (entries : List (Node × Node))

instance : Inhabited Node := ⟨.scalar .null ""⟩

def Node.tag : Node → Tag
  | .scalar tag _ => tag
  | .sequence tag _ => tag
  | .mapping tag _ => tag

/-- The node that stands for nothing, where none is written. -/
def Node.empty : Node := .scalar .null ""

/-! ## Outcomes -/

/-- A result, or a fault with its depth below the node at hand. -/
abbrev Outcome (α : Type) := Except (Nat × Fault) α

/-- A result at the node at hand. -/
def Outcome.here {α : Type} : Except Fault α → Outcome α
  | .ok a => .ok a
  | .error f => .error (0, f)

/-- A result one level below the node at hand. -/
def Outcome.below {α : Type} : Outcome α → Outcome α
  | .ok a => .ok a
  | .error (depth, f) => .error (depth + 1, f)

/-- Two results; of two faults the one at the smaller depth counts, the first one at the same. -/
def Outcome.both {α β γ : Type} (f : α → β → γ) : Outcome α → Outcome β → Outcome γ
  | .ok a, .ok b => .ok (f a b)
  | .error e, .ok _ => .error e
  | .ok _, .error e => .error e
  | .error e, .error e' => .error (if e.1 ≤ e'.1 then e else e')

/-! ## Merging -/

mutual

/-- Every merged node of some entries is a mapping or a list of mappings. -/
def entriesMerge : List (Node × Node) → Bool
  | [] => true
  | (key, v) :: rest => (key.tag != .merge || v.merges) && entriesMerge rest

/-- The node is a mapping or a list of mappings, and so are those merged into them. -/
def Node.merges : Node → Bool
  | .scalar _ _ => false
  | .sequence _ items => itemsMerge items
  | .mapping _ entries => entriesMerge entries

/-- Every item is a mapping, and what is merged into them merges as well. -/
def itemsMerge : List Node → Bool
  | [] => true
  | .mapping _ entries :: rest => entriesMerge entries && itemsMerge rest
  | _ :: _ => false

end

/-! ## Values -/

mutual

/-- The text of a scalar, or of the default value of a mapping. -/
def Node.scalarText? : Node → Option String
  | .scalar _ text => some text
  | .sequence _ _ => none
  | .mapping _ entries => defaultText? entries

/-- The text of the first default value among some entries. -/
def defaultText? : List (Node × Node) → Option String
  | [] => none
  | (key, v) :: rest => if key.tag = .default then v.scalarText? else defaultText? rest

end

/-- A value can name a field: it is no list and no record. -/
def isName : Value → Bool
  | .list _ | .record _ => false
  | _ => true

/-- The name of a field from the outcome of its node. -/
def asName : Outcome Value → Outcome Value
  | .ok v => if isName v then .ok v else .error (0, .content)
  | .error (0, f) => .error (0, f)
  | .error _ => .error (0, .content)

mutual

/-- The value of a node. -/
def Node.value : Node → Outcome Value
  | .scalar .sequence _ | .scalar .mapping _ => .error (1, .content)
  | .scalar tag text => .here (tag.scalarValue text)
  | .sequence .sequence items => .below ((nodeValues items).map .list)
  | .sequence .mapping _ => .error (1, .content)
  | .sequence _ _ => .error (0, .content)
  | .mapping .mapping entries =>
    if entriesMerge entries then
      .below (.both (fun merged own => .record (Value.ofFields (merged ++ own)))
        (mergedFields entries) (ownFields entries))
    else .error (1, .content)
  | .mapping .sequence _ => .error (1, .content)
  | .mapping tag entries =>
    match defaultText? entries with
    | some text => .here (tag.scalarValue text)
    | none => .error (0, .content)

def nodeValues : List Node → Outcome (List Value)
  | [] => .ok []
  | n :: rest => .both List.cons n.value (nodeValues rest)

/-- The fields of a mapping's own entries. The key of a default value is a text. -/
def ownFields : List (Node × Node) → Outcome (List (Value × Value))
  | [] => .ok []
  | (key, v) :: rest =>
    if key.tag = .merge then ownFields rest
    else
      let name : Outcome Value := match key with
        | .scalar .default text => .ok (.text text)
        | key => asName key.value
      .both List.cons (.both Prod.mk name v.value) (ownFields rest)

def mergedFields : List (Node × Node) → Outcome (List (Value × Value))
  | [] => .ok []
  | (key, v) :: rest =>
    if key.tag = .merge then .both (· ++ ·) v.fieldsToMerge (mergedFields rest)
    else mergedFields rest

/-- The fields of a mapping, or those of a list of mappings, the first of which counts most. -/
def Node.fieldsToMerge : Node → Outcome (List (Value × Value))
  | .scalar _ _ => .ok []
  | .sequence _ items => itemsToMerge items
  | .mapping _ entries => .both (· ++ ·) (mergedFields entries) (ownFields entries)

/-- The fields of some mappings, those of the last one first. -/
def itemsToMerge : List Node → Outcome (List (Value × Value))
  | [] => .ok []
  | n :: rest => .both (· ++ ·) (itemsToMerge rest) n.fieldsToMerge

end

end Spreadsheet.Yaml
