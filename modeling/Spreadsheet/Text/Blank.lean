/-!
# Blank characters

Text taken from a cell or a formula is stripped of the blanks of every script before it is read.
The blanks are the white space characters together with the four separators of ASCII
(`0x1c` to `0x1f`); a zero-width space or a byte order mark is no blank. A whole number or a double
by itself may stand between white space characters, but not between separators.
-/

namespace Spreadsheet.Text

def blankCodes : List Nat :=
  [0x9, 0xa, 0xb, 0xc, 0xd, 0x1c, 0x1d, 0x1e, 0x1f, 0x20, 0x85, 0xa0, 0x1680, 0x2000, 0x2001,
   0x2002, 0x2003, 0x2004, 0x2005, 0x2006, 0x2007, 0x2008, 0x2009, 0x200a, 0x2028, 0x2029, 0x202f,
   0x205f, 0x3000]

/-- A blank character of any script. -/
def isBlank (c : Char) : Bool := blankCodes.contains c.toNat

/-- What holds of the characters of the codes of blanks holds of every blank. -/
@[elab_as_elim]
theorem forall_blank {P : Char → Prop} {c : Char} (hc : isBlank c = true)
    (h : ∀ n ∈ blankCodes, P (Char.ofNat n)) : P c := by
  have hat := h c.toNat (List.contains_iff_mem.1 hc)
  rw [Char.ofNat_toNat] at hat
  exact hat

/-- A white space character: a blank that is no separator. -/
def isSpace (c : Char) : Bool := isBlank c && !(0x1c ≤ c.toNat && c.toNat ≤ 0x1f)

/-- The characters without those of a kind at either end. -/
def trimBy (p : Char → Bool) (cs : List Char) : List Char :=
  ((cs.dropWhile p).reverse.dropWhile p).reverse

theorem trimBy_sublist (p : Char → Bool) (cs : List Char) : (trimBy p cs).Sublist cs := by
  have hinner := ((cs.dropWhile p).reverse.dropWhile_sublist p).reverse
  rw [List.reverse_reverse] at hinner
  exact hinner.trans (cs.dropWhile_sublist p)

/-- Trimmed characters were there before. -/
theorem mem_of_mem_trimBy {p : Char → Bool} {c : Char} {cs : List Char} (h : c ∈ trimBy p cs) :
    c ∈ cs :=
  (trimBy_sublist p cs).mem h

/-- Trimming drops characters of one kind only. -/
theorem mem_trimBy {p : Char → Bool} {c : Char} {cs : List Char} (hc : c ∈ cs) :
    p c = true ∨ c ∈ trimBy p cs := by
  have kept : ∀ {ds : List Char}, c ∈ ds → p c = true ∨ c ∈ ds.dropWhile p := by
    intro ds hd
    rw [← List.takeWhile_append_dropWhile (p := p) (l := ds)] at hd
    exact (List.mem_append.1 hd).imp_left fun h => List.all_eq_true.1 List.all_takeWhile c h
  unfold trimBy
  rw [List.mem_reverse]
  rcases kept hc with h | h
  · exact .inl h
  · exact kept (List.mem_reverse.2 h)

theorem trimBy_map {p : Char → Bool} {f : Char → Char} (h : ∀ c, p (f c) = p c) (cs : List Char) :
    trimBy p (cs.map f) = (trimBy p cs).map f := by
  have hp : p ∘ f = p := funext h
  unfold trimBy
  rw [List.dropWhile_map, hp, ← List.map_reverse, List.dropWhile_map, hp, List.map_reverse]

theorem dropWhile_eq_self {p : Char → Bool} {cs : List Char} (h : ∀ c ∈ cs, p c = false) :
    cs.dropWhile p = cs := by
  cases cs with
  | nil => rfl
  | cons c rest =>
    rw [List.dropWhile_cons, h c List.mem_cons_self]
    rfl

/-- Where no character is of the kind, none is dropped. -/
theorem trimBy_eq_self {p : Char → Bool} {cs : List Char} (h : ∀ c ∈ cs, p c = false) :
    trimBy p cs = cs := by
  unfold trimBy
  rw [dropWhile_eq_self h, dropWhile_eq_self fun c hc => h c (List.mem_reverse.1 hc),
    List.reverse_reverse]

theorem dropWhile_concat {p : Char → Bool} {c : Char} (hc : p c = false) (cs : List Char) :
    (cs ++ [c]).dropWhile p = cs.dropWhile p ++ [c] := by
  induction cs with
  | nil => rw [List.nil_append, List.dropWhile_cons, hc]; rfl
  | cons d rest ih =>
    rw [List.cons_append, List.dropWhile_cons, List.dropWhile_cons]
    split
    · exact ih
    · rfl

theorem trimBy_cons {p : Char → Bool} {c : Char} (hc : p c = false) (cs : List Char) :
    ∃ rest, trimBy p (c :: cs) = c :: rest := by
  unfold trimBy
  rw [List.dropWhile_cons, hc]
  simp only [Bool.false_eq_true, if_false, List.reverse_cons]
  rw [dropWhile_concat hc, List.reverse_append]
  exact ⟨_, rfl⟩

/-- Only what stands behind the last character of another kind is dropped. -/
theorem trimBy_append {p : Char → Bool} {c : Char} {cs gap : List Char} (hc : p c = false)
    (hlast : ∀ d, (c :: cs).getLast? = some d → p d = false) (hgap : ∀ d ∈ gap, p d = true) :
    trimBy p (c :: cs ++ gap) = c :: cs := by
  have hreverse : (c :: cs).reverse.dropWhile p = (c :: cs).reverse := by
    cases h : (c :: cs).reverse with
    | nil => rfl
    | cons d rest =>
      have hd : (c :: cs).getLast? = some d := by
        rw [← List.head?_reverse, h]
        rfl
      rw [List.dropWhile_cons, hlast d hd]
      rfl
  have hgap' : ∀ d ∈ gap.reverse, p d = true := fun d hd => hgap d (List.mem_reverse.1 hd)
  unfold trimBy
  rw [List.cons_append, List.dropWhile_cons, hc]
  simp only [Bool.false_eq_true, if_false]
  rw [← List.cons_append, List.reverse_append, List.dropWhile_append_of_pos hgap', hreverse,
    List.reverse_reverse]

/-- The characters without the blanks at either end. -/
def stripChars (cs : List Char) : List Char := trimBy isBlank cs

/-- The characters without the white space at either end. -/
def trimChars (cs : List Char) : List Char := trimBy isSpace cs

def strip (s : String) : String := String.ofList (stripChars s.toList)

/-- Nothing but blanks, or nothing at all. -/
def isBlankText (s : String) : Bool := s.toList.all isBlank

end Spreadsheet.Text
