import Spreadsheet.Fault
import Spreadsheet.Text.Upper

/-!
# Sections of a number format

A number format is up to four sections with semicolons between them: for positive numbers, negative
numbers, zero and text. Tags in brackets color the text, name a currency or say something that
display ignores. `Section.prepare` takes the tags out of a section; what is left is its pattern.
-/

namespace Spreadsheet.Format

open Text

/-! ## Splitting -/

/-- Cuts a format at each semicolon behind which the count of quotes is even. The flag tells
whether the count of quotes in the whole text is even. -/
def splitEven : List Char → Bool × List (List Char)
  | [] => (true, [[]])
  | c :: rest =>
    let (even, parts) := splitEven rest
    if c = ';' ∧ even then (even, [] :: parts)
    else
      let even := if c = '"' then !even else even
      match parts with
      | [] => (even, [[c]])
      | part :: parts => (even, (c :: part) :: parts)

theorem splitEven_fst_cons (c : Char) (rest : List Char) : (splitEven (c :: rest)).1 =
    if c = '"' then !(splitEven rest).1 else (splitEven rest).1 := by
  rw [splitEven]
  dsimp only
  split
  · next hmark => rw [if_neg (by rw [hmark.1]; decide)]
  · split <;> rfl

def splitSections (cs : List Char) : List (List Char) := (splitEven cs).2

theorem splitSections_ne_nil (cs : List Char) : splitSections cs ≠ [] := by
  unfold splitSections
  cases cs with
  | nil => exact List.cons_ne_nil _ _
  | cons c rest =>
    rw [splitEven]
    dsimp only
    split
    · exact List.cons_ne_nil _ _
    · split <;> exact List.cons_ne_nil _ _

/-- A character either ends a section or belongs to the first one. -/
theorem splitSections_cons (c : Char) (rest : List Char) :
    splitSections (c :: rest) = if c = ';' ∧ (splitEven rest).1 = true then [] :: splitSections rest
      else (splitSections rest).modifyHead (c :: ·) := by
  obtain ⟨part, parts, hrest⟩ := List.exists_cons_of_ne_nil (splitSections_ne_nil rest)
  have hparts : (splitEven rest).2 = part :: parts := hrest
  unfold splitSections
  rw [splitEven]
  dsimp only
  split
  · rfl
  · rw [hparts]
    rfl

/-! ## Quotes -/

/-- The characters up to a mark, and those behind it, where the text holds the mark. -/
def cutAt? (mark : Char) : List Char → Option (List Char × List Char)
  | [] => none
  | c :: rest =>
    if c = mark then some ([], rest) else (cutAt? mark rest).map fun (a, b) => (c :: a, b)

theorem length_of_cutAt? {mark : Char} {cs a b : List Char} (h : cutAt? mark cs = some (a, b)) :
    cs.length = a.length + b.length + 1 := by
  induction cs generalizing a with
  | nil => simp [cutAt?] at h
  | cons c rest ih =>
    unfold cutAt? at h
    split at h
    · simp only [Option.some.injEq, Prod.mk.injEq] at h
      simp [← h.1, ← h.2]
    · obtain ⟨⟨x, y⟩, hx, hy⟩ := Option.map_eq_some_iff.1 h
      simp only [Prod.mk.injEq] at hy
      have := ih (a := x) (by rw [hx, hy.2])
      simp [← hy.1, this]
      omega

/-- A piece of a pattern: text in quotes, or a character outside of them. -/
inductive Piece
  | quoted (content : List Char)
  | bare (c : Char)

/-- The pieces of a pattern; a quote that is never closed is a character like others. -/
def pieces (cs : List Char) : List Piece :=
  match cs with
  | [] => []
  | c :: rest =>
    if c = '"' then
      match _h : cutAt? '"' rest with
      | some (content, rest') => .quoted content :: pieces rest'
      | none => .bare c :: pieces rest
    else .bare c :: pieces rest
termination_by cs.length
decreasing_by
  all_goals simp_wf
  have := length_of_cutAt? _h
  omega

def outsideQuotes (cs : List Char) : List Char :=
  (pieces cs).filterMap fun
    | .quoted _ => none
    | .bare c => some c

/-! ## Tags -/

/-- The colors that a tag can name. -/
def colors : List String :=
  ["black", "blue", "cyan", "green", "magenta", "red", "white", "yellow"]

/-- The letter that a character counts as in a tag, in lower case. Besides the two cases of ASCII
that is the Kelvin sign for `k`, and for `i` the capital with a dot and the small letter without. -/
def tagLetter (c : Char) : Char :=
  if c = '\u212a' then 'k'
  else if c = '\u0130' ∨ c = '\u0131' then 'i'
  else lowerAscii c

/-- The color whose letters stand between the brackets of a tag. -/
def colorOf? (content : List Char) : Option String :=
  colors.find? fun color => color.toList == content.map tagLetter

/-- The letters only resemble those of a color and name none. -/
def isFalseColor (content : List Char) : Bool := content.any fun c => c == '\u0130' || c == '\u0131'

/-- The content of a tag in brackets at the start of a text, and what follows it. -/
def takeTag? : List Char → Option (List Char × List Char)
  | '[' :: rest => cutAt? ']' rest
  | _ => none

theorem length_of_takeTag? {cs a b : List Char} (h : takeTag? cs = some (a, b)) :
    b.length < cs.length := by
  unfold takeTag? at h
  split at h
  · have := length_of_cutAt? h
    simp only [List.length_cons]
    omega
  · simp at h

/-- Replaces tags, from left to right, by what a rule gives for their content. -/
def replaceTags (rule : List Char → Option (List Char)) (cs : List Char) : List Char :=
  match cs with
  | [] => []
  | c :: rest =>
    match _h : takeTag? (c :: rest) with
    | some (content, rest') =>
      match rule content with
      | some text => text ++ replaceTags rule rest'
      | none => c :: replaceTags rule rest
    | none => c :: replaceTags rule rest
termination_by cs.length
decreasing_by
  all_goals simp_wf
  have := length_of_takeTag? _h
  simp only [List.length_cons] at this
  omega

/-- The contents of the color tags of a section, from left to right. -/
def colorTags (cs : List Char) : List (List Char) :=
  match cs with
  | [] => []
  | c :: rest =>
    match _h : takeTag? (c :: rest) with
    | some (content, rest') =>
      if (colorOf? content).isSome then content :: colorTags rest' else colorTags rest
    | none => colorTags rest
termination_by cs.length
decreasing_by
  all_goals simp_wf
  have := length_of_takeTag? _h
  simp only [List.length_cons] at this
  omega

/-- The text of a currency tag: what stands between `$` and a dash or the end. -/
def currencyText? : List Char → Option (List Char)
  | '$' :: rest => some (rest.takeWhile (· != '-'))
  | _ => none

/-- What is left of a section without its tags, and the color that its first color tag names. A
currency is left as text in quotes. -/
def prepare (cs : List Char) : Except Fault (List Char × Option String) := do
  let color ← match colorTags cs with
    | [] => pure none
    | content :: _ => if isFalseColor content then .error .unknownColor else pure (colorOf? content)
  let cs := replaceTags (fun content => (colorOf? content).map fun _ => []) cs
  let cs := replaceTags (fun content => (currencyText? content).map fun t => '"' :: t ++ ['"']) cs
  return (replaceTags (fun _ => some []) cs, color)

end Spreadsheet.Format
