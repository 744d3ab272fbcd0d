import Spreadsheet.Yaml.Layout
import Spreadsheet.Yaml.Node

/-!
# YAML: documents

A document is read from its tokens one after the other, with a stack of the collections that are
open. What is due next decides what a token means; where a token cannot be what is due but what is
due may be missing, the empty node takes its place and the token is looked at again. An anchor names
a node for the aliases behind it.
-/

namespace Spreadsheet.Yaml

/-- The anchor and the tag in front of a node. -/
structure Properties where
  anchor : Option String := none
  tag : Option (Option String × String) := none

def Properties.isSome (p : Properties) : Bool := p.anchor.isSome || p.tag.isSome

/-- How the items of a sequence are set off. -/
inductive SequenceStyle
  | block
  /-- With dashes in the column of the key whose value it is. -/
  | flush
  | flow
deriving DecidableEq

/-- How the entries of a mapping are set off. -/
inductive MappingStyle
  | block
  | flow
  /-- A single entry as an item of a sequence in brackets. -/
  | single
deriving DecidableEq

/-- A sequence that is open, the last item first. -/
structure OpenSequence where
  style : SequenceStyle
  anchor : Option String
  tag : Tag
  items : List Node := []

/-- A mapping that is open, the last entry first. -/
structure OpenMapping where
  style : MappingStyle
  anchor : Option String
  tag : Tag
  entries : List (Node × Node) := []

def OpenSequence.node (s : OpenSequence) : Node := .sequence s.tag s.items.reverse

def OpenMapping.node (m : OpenMapping) : Node := .mapping m.tag m.entries.reverse

/-- An open collection that waits for a node. -/
inductive Frame
  | item (s : OpenSequence)
  /-- For a key; a bare one has no value. -/
  | key (m : OpenMapping) (bare : Bool)
  | value (m : OpenMapping) (key : Node)

/-- What is due next. -/
inductive Due
  | start
  /-- The start of a document or the end of the text, behind some directives; the document that
  was read before is kept. -/
  | prologue (root : Option Node) (seen : List Directive)
  /-- The node of a document that has been started. -/
  | content
  | node (inBlock flushAllowed : Bool) (props : Properties) (stack : List Frame)
  /-- An item behind its mark. -/
  | item (s : OpenSequence) (stack : List Frame)
  /-- The mark of the next item, or the end of the sequence. -/
  | itemMark (s : OpenSequence) (stack : List Frame)
  /-- The mark of the next key, or the end of the mapping. -/
  | keyMark (m : OpenMapping) (stack : List Frame)
  /-- An entry in braces. -/
  | entry (m : OpenMapping) (stack : List Frame)
  /-- A key behind its mark. -/
  | key (m : OpenMapping) (stack : List Frame)
  /-- The mark of the value of a key. -/
  | valueMark (m : OpenMapping) (key : Node) (stack : List Frame)
  /-- A value behind its mark. -/
  | value (m : OpenMapping) (key : Node) (stack : List Frame)
  | documentEnd (root : Node)
  | complete (root : Option Node)

/-- The state of reading a document. -/
structure Reading where
  due : Due := .start
  /-- The meanings of the handles of tags. -/
  handles : List (String × String) := []
  /-- The anchored nodes, without a node where that is not complete. -/
  anchors : List (String × Option Node) := []
  /-- Some node contains itself. -/
  loops : Bool := false

namespace Reading

/-! ## Names -/

/-- The meanings of handles that a document need not give. -/
def standardHandles : List (String × String) := [("!", "!"), ("!!", standardTags)]

/-- Adds a directive; a version or a handle is given once, and the version is the first one. -/
def addDirective (seen : List Directive) : Directive → Except Fault (List Directive)
  | .version major minor =>
    let isVersion (d : Directive) : Bool := match d with
      | .version _ _ => true
      | _ => false
    if seen.any isVersion || major != 1 then .error .order
    else .ok (seen ++ [.version major minor])
  | .tagHandle handle meaning =>
    let hasHandle (d : Directive) : Bool := match d with
      | .tagHandle h _ => h == handle
      | _ => false
    if seen.any hasHandle then .error .order else .ok (seen ++ [.tagHandle handle meaning])
  | .other => .ok (seen ++ [.other])

/-- The handles that some directives give, before those that need not be given. -/
def handlesOf (seen : List Directive) : List (String × String) :=
  (seen.filterMap fun
    | .tagHandle handle meaning => some (handle, meaning)
    | _ => none) ++ standardHandles

/-- The name of a tag with the meaning of its handle. -/
def tagName (r : Reading) (props : Properties) : Except Fault (Option String) :=
  match props.tag with
  | none => .ok none
  | some (none, name) => .ok (some name)
  | some (some handle, name) =>
    match r.handles.find? fun h => h.1 == handle with
    | some h => .ok (some (h.2 ++ name))
    | none => .error .order

/-- The tag of a scalar with or without quotes. -/
def scalarTag (name : Option String) (plain : Bool) (text : String) : Tag :=
  match name with
  | none => if plain then Tag.ofPlain text else .text
  | some name => if name = "!" then Tag.ofPlain text else Tag.ofName name

def collectionTag (name : Option String) (kind : Tag) : Tag :=
  match name with
  | none => kind
  | some name => if name = "!" then kind else Tag.ofName name

/-- Takes note of an anchor; each names one node. -/
def declare (r : Reading) : Option String → Except Fault Reading
  | none => .ok r
  | some name =>
    if r.anchors.any fun a => a.1 == name then .error .reference
    else .ok { r with anchors := r.anchors ++ [(name, none)] }

/-- The node of an anchor is complete. -/
def bind (r : Reading) (anchor : Option String) (n : Node) : Reading :=
  match anchor with
  | none => r
  | some name =>
    { r with anchors := r.anchors.map fun a => if a.1 == name then (name, some n) else a }

/-! ## Nodes -/

/-- Puts a node where one was due. -/
def place (r : Reading) (n : Node) : List Frame → Reading
  | [] => { r with due := .documentEnd n }
  | .item s :: stack => { r with due := .itemMark { s with items := n :: s.items } stack }
  | .key m false :: stack => { r with due := .valueMark m n stack }
  | .key m true :: stack =>
    { r with due := .keyMark { m with entries := (n, .empty) :: m.entries } stack }
  | .value m key :: stack =>
    let m := { m with entries := (key, n) :: m.entries }
    if m.style = .single then r.place m.node stack else { r with due := .keyMark m stack }

/-- Puts the node that an alias names where one was due. Inside of that node itself the alias stands
for nothing. -/
def placeAlias (r : Reading) (name : String) (stack : List Frame) : Except Fault Reading :=
  match r.anchors.find? fun a => a.1 == name with
  | some (_, some n) => .ok (r.place n stack)
  | some (_, none) => .ok ({ r with loops := true }.place .empty stack)
  | none => .error .reference

/-- A node is due that has some properties. When it has both, the handle of its tag needs a
meaning. -/
def expectNode (r : Reading) (inBlock flushAllowed : Bool) (props : Properties)
    (stack : List Frame) : Except Fault Reading := do
  if props.anchor.isSome && props.tag.isSome then let _ ← r.tagName props
  return { r with due := .node inBlock flushAllowed props stack }

/-- An anchored node has been read. -/
def finish (r : Reading) (anchor : Option String) (n : Node) (stack : List Frame) : Reading :=
  (r.bind anchor n).place n stack

def endSequence (r : Reading) (s : OpenSequence) (stack : List Frame) : Reading :=
  r.finish s.anchor s.node stack

def endMapping (r : Reading) (m : OpenMapping) (stack : List Frame) : Reading :=
  r.finish m.anchor m.node stack

/-- The value of an entry is missing. -/
def endEntry (r : Reading) (m : OpenMapping) (key : Node) (stack : List Frame) : Reading :=
  r.place .empty (.value m key :: stack)

/-! ## Tokens -/

/-- How far a state is from taking a token. -/
def weight (r : Reading) : Nat :=
  match r.due with
  | .start => 9
  | .prologue _ _ => 0
  | .content => 4
  | .node _ _ _ stack => 10 * stack.length + 3
  | .item _ stack => 10 * stack.length + 14
  | .itemMark _ stack => 10 * stack.length + 11
  | .keyMark _ stack => 10 * stack.length + 11
  | .entry _ stack => 10 * stack.length + 14
  | .key _ stack => 10 * stack.length + 14
  | .valueMark _ _ stack => 10 * stack.length + 12
  | .value _ _ stack => 10 * stack.length + 14
  | .documentEnd _ => 1
  | .complete _ => 0

theorem weight_place (r : Reading) (n : Node) (stack : List Frame) :
    (r.place n stack).weight ≤ 10 * stack.length + 2 := by
  induction stack generalizing n with
  | nil => simp [place, weight]
  | cons frame stack ih =>
    match frame with
    | .item s => simp [place, weight]; omega
    | .key m false => simp [place, weight]; omega
    | .key m true => simp [place, weight]; omega
    | .value m key =>
      simp only [place]
      split
      · have := ih ({ m with entries := (key, n) :: m.entries } : OpenMapping).node
        simp only [List.length_cons]
        omega
      · simp [weight]
        omega

theorem weight_finish (r : Reading) (anchor : Option String) (n : Node) (stack : List Frame) :
    (r.finish anchor n stack).weight ≤ 10 * stack.length + 2 := weight_place _ _ _

theorem weight_endEntry (r : Reading) (m : OpenMapping) (key : Node) (stack : List Frame) :
    (r.endEntry m key stack).weight ≤ 10 * stack.length + 11 := by
  simp only [endEntry, place]
  split
  · have := weight_place r ({ m with entries := (key, Node.empty) :: m.entries } : OpenMapping).node
      stack
    omega
  · simp [weight]

/-- A token that cannot start an item of a sequence. -/
def endsItem : SequenceStyle → Token → Bool
  | .block, .dash | .block, .blockEnd => true
  | .flush, .dash | .flush, .key | .flush, .value | .flush, .blockEnd => true
  | _, _ => false

/-- A token that cannot start the value of an entry. -/
def endsValue : MappingStyle → Token → Bool
  | .block, .key | .block, .value | .block, .blockEnd => true
  | .flow, .comma | .flow, .flowMappingEnd => true
  | .single, .comma | .single, .flowSequenceEnd => true
  | _, _ => false

/-- A token that cannot start the key of an entry. -/
def endsKey (style : MappingStyle) (t : Token) : Bool := t == .value || endsValue style t

/-- A token that cannot start the node of a document. -/
def endsDocument : Token → Bool
  | .directive _ | .documentStart | .documentEnd | .textEnd => true
  | _ => false

/-- Reads a token. -/
def step (r : Reading) (t : Token) : Except Fault Reading :=
  match _h : r.due with
  | .start =>
    if t ≠ .documentEnd ∧ endsDocument t then step { r with due := .prologue none [] } t
    else step { r with due := .node true false {} [], handles := standardHandles } t
  | .prologue root seen =>
    match t with
    | .directive d => do return { r with due := .prologue root (← addDirective seen d) }
    | .documentStart =>
      if root.isSome then .error .reference
      else .ok { r with due := .content, handles := handlesOf seen }
    | .documentEnd => if root.isSome && seen.isEmpty then .ok r else .error .order
    | .textEnd => if seen.isEmpty then .ok { r with due := .complete root } else .error .order
    | _ => .error .order
  | .content =>
    if endsDocument t then step (r.place .empty []) t
    else step { r with due := .node true false {} [] } t
  | .node inBlock flushAllowed props stack =>
    match t, props.isSome, props.anchor, props.tag with
    | .alias name, false, _, _ => r.placeAlias name stack
    | .anchor name, _, none, _ =>
      r.expectNode inBlock flushAllowed { props with anchor := some name } stack
    | .tag handle name, _, _, none =>
      r.expectNode inBlock flushAllowed { props with tag := some (handle, name) } stack
    | t, given, _, _ =>
      match r.tagName props with
      | .error f => .error f
      | .ok name =>
        let sequence (style : SequenceStyle) : OpenSequence :=
          { style := style, anchor := props.anchor, tag := collectionTag name .sequence }
        let mapping (style : MappingStyle) : OpenMapping :=
          { style := style, anchor := props.anchor, tag := collectionTag name .mapping }
        match t, inBlock, flushAllowed, given with
        | .dash, _, true, _ => do
          return { ← r.declare props.anchor with due := .item (sequence .flush) stack }
        | .scalar text plain, _, _, _ => do
          let r ← r.declare props.anchor
          return r.finish props.anchor (.scalar (scalarTag name plain text) text) stack
        | .flowSequence, _, _, _ => do
          return { ← r.declare props.anchor with due := .item (sequence .flow) stack }
        | .flowMapping, _, _, _ => do
          return { ← r.declare props.anchor with due := .entry (mapping .flow) stack }
        | .blockSequence, true, _, _ => do
          return { ← r.declare props.anchor with due := .itemMark (sequence .block) stack }
        | .blockMapping, true, _, _ => do
          return { ← r.declare props.anchor with due := .keyMark (mapping .block) stack }
        | t, _, _, true =>
          match r.declare props.anchor with
          | .error f => .error f
          | .ok r' => step (r'.finish props.anchor (.scalar (scalarTag name true "") "") stack) t
        | _, _, _, false => .error .order
  | .item s stack =>
    if s.style = .flow then
      match t with
      | .key => .ok { r with due := .key ⟨.single, none, .mapping, []⟩ (.item s :: stack) }
      | .flowSequenceEnd => .ok (r.endSequence s stack)
      | t => step { r with due := .node false false {} (.item s :: stack) } t
    else if endsItem s.style t then
      step { r with due := .itemMark { s with items := .empty :: s.items } stack } t
    else step { r with due := .node true false {} (.item s :: stack) } t
  | .itemMark s stack =>
    match s.style, t with
    | .block, .dash | .flush, .dash | .flow, .comma => .ok { r with due := .item s stack }
    | .block, .blockEnd | .flow, .flowSequenceEnd => .ok (r.endSequence s stack)
    | .flush, t => step (r.endSequence s stack) t
    | _, _ => .error .order
  | .keyMark m stack =>
    match m.style, t with
    | .block, .key => .ok { r with due := .key m stack }
    | .flow, .comma => .ok { r with due := .entry m stack }
    | .block, .blockEnd | .flow, .flowMappingEnd => .ok (r.endMapping m stack)
    | _, _ => .error .order
  | .entry m stack =>
    match t with
    | .key => .ok { r with due := .key m stack }
    | .flowMappingEnd => .ok (r.endMapping m stack)
    | t => step { r with due := .node false false {} (.key m true :: stack) } t
  | .key m stack =>
    if endsKey m.style t then step { r with due := .valueMark m .empty stack } t
    else
      let inBlock := decide (m.style = .block)
      step { r with due := .node inBlock inBlock {} (.key m false :: stack) } t
  | .valueMark m key stack =>
    if t = .value then .ok { r with due := .value m key stack }
    else step (r.endEntry m key stack) t
  | .value m key stack =>
    if endsValue m.style t then step (r.endEntry m key stack) t
    else
      let inBlock := decide (m.style = .block)
      step { r with due := .node inBlock inBlock {} (.value m key :: stack) } t
  | .documentEnd root =>
    if t = .documentEnd then .ok { r with due := .prologue (some root) [] }
    else step { r with due := .prologue (some root) [] } t
  | .complete _ => .error .order
termination_by r.weight
decreasing_by
  all_goals first
    | simp only [weight, place, _h, List.length_cons, List.length_nil]; omega
    | refine Nat.lt_of_le_of_lt (weight_finish _ _ _ _) ?_; simp only [weight, _h]; omega
    | refine Nat.lt_of_le_of_lt (weight_endEntry _ _ _ _) ?_; simp only [weight, _h]; omega

end Reading

end Spreadsheet.Yaml
