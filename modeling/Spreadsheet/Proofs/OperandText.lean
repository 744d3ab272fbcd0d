import Spreadsheet.Formula.Parser
import Spreadsheet.Formula.Rendering

/-!
# Reading an operand

Where an operand is due the scanner tries one kind of token after the other. Here each kind of word
is read up to its end and as no kind tried before it, provided that it `Ends` there: the text behind
it is over or goes on with a character that extends no operand.
-/

namespace Spreadsheet

open Text Numeral

/-! ## Characters -/

theorem isCapital_upperAscii {c : Char} (h : 'a' ≤ c ∧ c ≤ 'z') :
    isCapital (upperAscii c) = true := by
  have hlast : c.toNat ≤ 122 := h.2
  have hascii : c.toNat < 128 := by omega
  revert h
  exact forall_ascii hascii (by decide)

theorem upperAscii_eq_self {c : Char} (h : isCapital (upperAscii c) = false) :
    upperAscii c = c := by
  by_cases hc : 'a' ≤ c ∧ c ≤ 'z'
  · rw [isCapital_upperAscii hc] at h
    cases h
  · unfold upperAscii
    rw [if_neg hc]

theorem isAsciiLetter_of_capital {c : Char} (h : isCapital (upperAscii c) = true) :
    isAsciiLetter c = true := by
  by_cases hc : 'a' ≤ c ∧ c ≤ 'z'
  · exact decide_eq_true (.inl hc)
  · unfold upperAscii at h
    rw [if_neg hc] at h
    exact decide_eq_true (.inr (of_decide_eq_true h))

theorem isCapital_of_digit {c : Char} (h : isAsciiDigit c = true) : isCapital c = false := by
  have hc : c.toNat ≤ 57 := (of_decide_eq_true h).2
  refine decide_eq_false fun hcap => ?_
  have hlow : 65 ≤ c.toNat := hcap.1
  omega

theorem not_letter_of_digit {c : Char} (h : isAsciiDigit c = true) : isAsciiLetter c = false := by
  have hc : c.toNat ≤ 57 := (of_decide_eq_true h).2
  refine decide_eq_false fun hletter => ?_
  rcases hletter with hletter | hletter
  · have : 97 ≤ c.toNat := hletter.1
    omega
  · have : 65 ≤ c.toNat := hletter.1
    omega

/-- A character of ASCII that is the same in upper case. -/
def IsUpper (c : Char) : Prop := upperAscii c = c ∧ c.toNat < 0x80
deriving Decidable

theorem IsUpper.of_le {c : Char} (h : c.toNat ≤ 90) : IsUpper c := by
  refine ⟨?_, by omega⟩
  unfold upperAscii
  rw [if_neg]
  rintro ⟨hlow, -⟩
  have : 97 ≤ c.toNat := hlow
  omega

theorem IsUpper.of_capital {c : Char} (h : isCapital c = true) : IsUpper c :=
  .of_le (of_decide_eq_true h).2

theorem IsUpper.of_digit {c : Char} (h : isAsciiDigit c = true) : IsUpper c := by
  have hlast : c.toNat ≤ 57 := (of_decide_eq_true h).2
  exact .of_le (by omega)

theorem isUpper_upperAscii {c : Char} (hc : c.toNat < 0x80) : IsUpper (upperAscii c) := by
  cases hcap : isCapital (upperAscii c) with
  | true => exact .of_capital hcap
  | false =>
    have heq := upperAscii_eq_self hcap
    rw [heq]
    exact ⟨heq, hc⟩

theorem map_upperAscii {cs : List Char} (h : ∀ c ∈ cs, IsUpper c) : cs.map upperAscii = cs :=
  (List.map_congr_left fun c hc => (h c hc).1).trans (List.map_id cs)

theorem upperChar_of_ascii {c : Char} (hc : c.toNat < 0x80) : upperChar c = [upperAscii c] := by
  unfold upperChar upperAscii
  rw [if_pos hc]
  split
  · rfl
  · rfl

theorem flatMap_upperChar {cs : List Char} (h : ∀ c ∈ cs, upperChar c = [upperAscii c]) :
    cs.flatMap upperChar = cs.map upperAscii := by
  induction cs with
  | nil => rfl
  | cons c rest ih =>
    rw [List.flatMap_cons, List.map_cons, h c List.mem_cons_self,
      ih fun d hd => h d (List.mem_cons_of_mem _ hd)]
    rfl

/-- The upper case of ASCII characters. -/
theorem upper_ascii {cs : List Char} (h : ∀ c ∈ cs, c.toNat < 0x80) :
    upper (String.ofList cs) = String.ofList (cs.map upperAscii) := by
  unfold upper
  rw [String.toList_ofList, flatMap_upperChar fun c hc => upperChar_of_ascii (h c hc)]

/-- A character that some operand may go on with. -/
def extendsOperand (c : Char) : Bool := isNameChar c || ['$', '.', ':', '!'].contains c

/-- Behind an operand the text ends or goes on with a character that extends no operand. -/
def Ends (text : List Char) : Prop := ∀ c, text.head? = some c → extendsOperand c = false

namespace Ends

variable {text : List Char} (h : Ends text) {c : Char} (hc : text.head? = some c)

include h hc

theorem not_nameChar : isNameChar c = false := (Bool.or_eq_false_iff.1 (h c hc)).1

theorem not_letter : isAsciiLetter c = false :=
  (Bool.or_eq_false_iff.1 (Bool.or_eq_false_iff.1 (h.not_nameChar hc)).1).1

theorem not_digit : isAsciiDigit c = false :=
  (Bool.or_eq_false_iff.1 (Bool.or_eq_false_iff.1 (h.not_nameChar hc)).1).2

theorem ne {d : Char} (hd : extendsOperand d = true) : c ≠ d := (ne_of_kind hd (h c hc)).symm

end Ends

/-! ## Words at the start of a text -/

section

variable {p : Char → Bool} {w text : List Char}

theorem takeWhile_of_head (h : ∀ c, text.head? = some c → p c = false) :
    text.takeWhile p = [] := by
  cases text with
  | nil => rfl
  | cons c rest =>
    rw [List.takeWhile_cons, h c rfl]
    rfl

theorem dropWhile_of_head (h : ∀ c, text.head? = some c → p c = false) :
    text.dropWhile p = text := by
  cases text with
  | nil => rfl
  | cons c rest =>
    rw [List.dropWhile_cons, h c rfl]
    rfl

theorem takeWhile_word (hw : ∀ c ∈ w, p c) (h : ∀ c, text.head? = some c → p c = false) :
    (w ++ text).takeWhile p = w := by
  rw [List.takeWhile_append_of_pos hw, takeWhile_of_head h, List.append_nil]

theorem dropWhile_word (hw : ∀ c ∈ w, p c) (h : ∀ c, text.head? = some c → p c = false) :
    (w ++ text).dropWhile p = text := by
  rw [List.dropWhile_append_of_pos hw, dropWhile_of_head h]

/-- What is left of a word and the text behind it, where the kind of characters stops at the text
at the latest. -/
theorem dropWhile_append_of_head (h : ∀ c, text.head? = some c → p c = false) :
    (w ++ text).dropWhile p = w.dropWhile p ++ text := by
  induction w with
  | nil => exact dropWhile_of_head h
  | cons c rest ih =>
    rw [List.cons_append, List.dropWhile_cons, List.dropWhile_cons]
    split
    · exact ih
    · rfl

theorem head?_append {a b : List Char} {c : Char} (h : (a ++ b).head? = some c) :
    a.head? = some c ∨ b.head? = some c := by
  cases a with
  | nil => exact .inr h
  | cons d rest => exact .inl h

end

/-! ## Characters of references -/

theorem extendsOperand_of_letter {c : Char} (h : isAsciiLetter c = true) :
    extendsOperand c = true := by
  simp [extendsOperand, isNameChar, h]

theorem extendsOperand_of_digit {c : Char} (h : isAsciiDigit c = true) :
    extendsOperand c = true := by
  simp [extendsOperand, isNameChar, h]

/-- A character that a reference may hold. -/
def IsReferenceChar (c : Char) : Prop := extendsOperand c = true ∧ c ≠ '!' ∧ c.toNat < 0x80
deriving Decidable

theorem IsReferenceChar.of_letter {c : Char} (hc : isAsciiLetter c = true) :
    IsReferenceChar c := by
  refine ⟨extendsOperand_of_letter hc, ne_of_kind hc (by decide), ?_⟩
  rcases of_decide_eq_true hc with h | h
  · have : c.toNat ≤ 122 := h.2
    omega
  · have : c.toNat ≤ 90 := h.2
    omega

theorem IsReferenceChar.of_digit {c : Char} (hc : isAsciiDigit c = true) : IsReferenceChar c := by
  refine ⟨extendsOperand_of_digit hc, ne_of_kind hc (by decide), ?_⟩
  have : c.toNat ≤ 57 := (of_decide_eq_true hc).2
  omega

section

variable {letter : Char → Bool} {w : List Char}

theorem CellText.forall_mem (hw : CellText letter w) {P : Char → Prop} (dollar : P '$')
    (letters : ∀ c, letter c = true → P c) (digits : ∀ c, isAsciiDigit c = true → P c) :
    ∀ c ∈ w, P c := by
  have mark : ∀ {mark : List Char}, mark = [] ∨ mark = ['$'] → ∀ c ∈ mark, P c := by
    rintro mark (rfl | rfl) c hc
    · cases hc
    · rw [List.mem_singleton.1 hc]
      exact dollar
  obtain @⟨m, ls, m', ds, hm, -, hls, hm', -, hds⟩ := hw
  intro c hc
  rcases List.mem_append.1 hc with hc | hc
  · rcases List.mem_append.1 hc with hc | hc
    · rcases List.mem_append.1 hc with hc | hc
      · exact mark hm c hc
      · exact letters c (hls c hc)
    · exact mark hm' c hc
  · exact digits c (hds c hc)

theorem RangeText.forall_mem (hw : RangeText letter w) {P : Char → Prop} (dollar : P '$')
    (colon : P ':') (letters : ∀ c, letter c = true → P c)
    (digits : ∀ c, isAsciiDigit c = true → P c) : ∀ c ∈ w, P c := by
  obtain @⟨first, last, hfirst, hlast⟩ := hw
  intro c hc
  rcases List.mem_append.1 hc with hc | hc
  · exact hfirst.forall_mem dollar letters digits c hc
  · rcases List.mem_cons.1 hc with rfl | hc
    · exact colon
    · exact hlast.forall_mem dollar letters digits c hc

end

theorem CellText.mem {w : List Char} (hw : CellText isAsciiLetter w) :
    ∀ c ∈ w, IsReferenceChar c :=
  hw.forall_mem (by decide) (fun _ hc => .of_letter hc) fun _ hc => .of_digit hc

theorem RangeText.mem {w : List Char} (hw : RangeText isAsciiLetter w) :
    ∀ c ∈ w, IsReferenceChar c :=
  hw.forall_mem (by decide) (by decide) (fun _ hc => .of_letter hc) fun _ hc => .of_digit hc

theorem CellText.upper {w : List Char} (hw : CellText isCapital w) : ∀ c ∈ w, IsUpper c :=
  hw.forall_mem (by decide) (fun _ hc => .of_capital hc) fun _ hc => .of_digit hc

theorem RangeText.upper {w : List Char} (hw : RangeText isCapital w) : ∀ c ∈ w, IsUpper c :=
  hw.forall_mem (by decide) (by decide) (fun _ hc => .of_capital hc) fun _ hc => .of_digit hc

theorem CellText.ne_nil {letter : Char → Bool} {w : List Char} (hw : CellText letter w) :
    w ≠ [] := by
  obtain @⟨mark, letters, mark', digits, -, -, -, -, hne, -⟩ := hw
  intro h
  exact hne (List.append_eq_nil_iff.1 h).2

theorem RangeText.ne_nil {letter : Char → Bool} {w : List Char} (hw : RangeText letter w) :
    w ≠ [] := by
  obtain @⟨first, last, -, -⟩ := hw
  intro h
  cases (List.append_eq_nil_iff.1 h).2

theorem CellText.of_upper {reference : List Char} (h : CellText isCapital reference) :
    ∀ {word : List Char}, word.map upperAscii = reference → CellText isAsciiLetter word := by
  have mark_of_map : ∀ {mark w : List Char}, (mark = [] ∨ mark = ['$']) → w.map upperAscii = mark →
      w = [] ∨ w = ['$'] := by
    rintro mark w (rfl | rfl) hw
    · exact .inl (List.map_eq_nil_iff.1 hw)
    · obtain ⟨c, rfl, hc⟩ := List.map_eq_singleton_iff.1 hw
      have hcap : isCapital (upperAscii c) = false := by
        rw [hc]
        decide
      rw [upperAscii_eq_self hcap] at hc
      rw [hc]
      exact .inr rfl
  obtain @⟨mark, letters, mark', digits, hm, hne, hletters, hm', hne', hdigits⟩ := h
  intro word hword
  obtain ⟨w, dw, rfl, hw, hdw⟩ := List.map_eq_append_iff.1 hword
  obtain ⟨w, mw', rfl, hw, hmw'⟩ := List.map_eq_append_iff.1 hw
  obtain ⟨mw, lw, rfl, hmw, hlw⟩ := List.map_eq_append_iff.1 hw
  refine .mk (mark_of_map hm hmw) ?_ (fun c hc => ?_) (mark_of_map hm' hmw') ?_ fun c hc => ?_
  · rintro rfl
    exact hne hlw.symm
  · have hcap := hletters (upperAscii c) (hlw ▸ List.mem_map_of_mem hc)
    exact isAsciiLetter_of_capital hcap
  · rintro rfl
    exact hne' hdw.symm
  · have hdigit := hdigits (upperAscii c) (hdw ▸ List.mem_map_of_mem hc)
    rw [upperAscii_eq_self (isCapital_of_digit hdigit)] at hdigit
    exact hdigit

theorem RangeText.of_upper {reference : List Char} (h : RangeText isCapital reference)
    {word : List Char} (hword : word.map upperAscii = reference) :
    RangeText isAsciiLetter word := by
  obtain @⟨first, last, hfirst, hlast⟩ := h
  obtain ⟨fw, w, rfl, hfw, hw⟩ := List.map_eq_append_iff.1 hword
  obtain ⟨c, lw, rfl, hc, hlw⟩ := List.map_eq_cons_iff.1 hw
  have hcap : isCapital (upperAscii c) = false := by
    rw [hc]
    decide
  rw [upperAscii_eq_self hcap] at hc
  rw [hc]
  exact .mk (hfirst.of_upper hfw) (hlast.of_upper hlw)

namespace Token

/-! ## References -/

theorem takeDollar_of_mark {mark rest : List Char} (hm : mark = [] ∨ mark = ['$'])
    (h : ∀ c, rest.head? = some c → c ≠ '$') : takeDollar (mark ++ rest) = (mark, rest) := by
  rcases hm with rfl | rfl
  · cases rest with
    | nil => rfl
    | cons c rest =>
      have hc : c ≠ '$' := h c rfl
      unfold takeDollar
      split
      · next heq =>
        cases heq
        exact absurd rfl hc
      · rfl
  · rfl

/-- A reference to a cell is read up to its last digit. -/
theorem takeCell?_of_cellText {w text : List Char} (hw : CellText isAsciiLetter w)
    (ht : ∀ c, text.head? = some c → isAsciiDigit c = false) :
    takeCell? (w ++ text) = some (w, text) := by
  obtain @⟨mark, letters, mark', digits, hm, hne, hletters, hm', hne', hdigits⟩ := hw
  obtain ⟨l, ls, rfl⟩ := List.exists_cons_of_ne_nil hne
  obtain ⟨d, ds, rfl⟩ := List.exists_cons_of_ne_nil hne'
  have hl : isAsciiLetter l = true := hletters l List.mem_cons_self
  have hd : isAsciiDigit d = true := hdigits d List.mem_cons_self
  have dollar : isAsciiLetter '$' = false ∧ isAsciiDigit '$' = false := by decide
  have first : takeDollar (mark ++ ((l :: ls) ++ (mark' ++ ((d :: ds) ++ text)))) =
      (mark, (l :: ls) ++ (mark' ++ ((d :: ds) ++ text))) := by
    refine takeDollar_of_mark hm fun c hc => ?_
    cases hc
    exact ne_of_kind hl dollar.1
  have stop : ∀ c, (mark' ++ ((d :: ds) ++ text)).head? = some c → isAsciiLetter c = false := by
    intro c hc
    rcases hm' with rfl | rfl
    · cases hc
      exact not_letter_of_digit hd
    · cases hc
      exact dollar.1
  have second : takeDollar (mark' ++ ((d :: ds) ++ text)) = (mark', (d :: ds) ++ text) := by
    refine takeDollar_of_mark hm' fun c hc => ?_
    cases hc
    exact ne_of_kind hd dollar.2
  have regroup : mark ++ (l :: ls) ++ mark' ++ (d :: ds) ++ text =
      mark ++ ((l :: ls) ++ (mark' ++ ((d :: ds) ++ text))) := by
    simp only [List.append_assoc]
  unfold takeCell?
  rw [regroup, first]
  dsimp only
  rw [takeWhile_word hletters stop, dropWhile_word hletters stop, second]
  dsimp only
  rw [takeWhile_word hdigits ht, dropWhile_word hdigits ht]
  rfl

/-- No reference to a cell starts where neither a letter nor a `$` does. -/
theorem takeCell?_of_first {c : Char} (cs : List Char) (hl : isAsciiLetter c = false)
    (hd : c ≠ '$') : takeCell? (c :: cs) = none := by
  have first : takeDollar (c :: cs) = ([], c :: cs) :=
    @takeDollar_of_mark [] (c :: cs) (.inl rfl) fun d hdc => by
      cases hdc
      exact hd
  unfold takeCell?
  rw [first]
  dsimp only
  rw [List.takeWhile_cons, hl]
  rfl

/-- No reference to a cell starts where letters are followed by neither a digit nor a `$`. -/
theorem takeCell?_of_letters {w text : List Char} (hw : ∀ c ∈ w, isNameChar c)
    (hcell : ∀ c, (w.dropWhile isAsciiLetter).head? = some c → isAsciiDigit c = false)
    (ht : Ends text) : takeCell? (w ++ text) = none := by
  have notDollar : ∀ c, isNameChar c = true → c ≠ '$' := fun c hc => ne_of_kind hc (by decide)
  have first : takeDollar (w ++ text) = ([], w ++ text) := by
    refine @takeDollar_of_mark [] (w ++ text) (.inl rfl) fun c hc => ?_
    rcases head?_append hc with h | h
    · exact notDollar c (hw c (List.mem_of_head? h))
    · exact ht.ne h (by decide)
  have rest : (w ++ text).dropWhile isAsciiLetter = w.dropWhile isAsciiLetter ++ text :=
    dropWhile_append_of_head fun c hc => ht.not_letter hc
  have second : takeDollar (w.dropWhile isAsciiLetter ++ text) =
      ([], w.dropWhile isAsciiLetter ++ text) := by
    refine @takeDollar_of_mark [] (w.dropWhile isAsciiLetter ++ text) (.inl rfl) fun c hc => ?_
    rcases head?_append hc with h | h
    · exact notDollar c (hw c ((List.dropWhile_sublist _).mem (List.mem_of_head? h)))
    · exact ht.ne h (by decide)
  have digits : (w.dropWhile isAsciiLetter ++ text).takeWhile isAsciiDigit = [] := by
    refine takeWhile_of_head fun c hc => ?_
    rcases head?_append hc with h | h
    · exact hcell c h
    · exact ht.not_digit h
  unfold takeCell?
  rw [first]
  dsimp only
  rw [rest, second]
  dsimp only
  rw [digits]
  simp

theorem takeRange?_of_takeCell? {cs : List Char} (h : takeCell? cs = none) :
    takeRange? cs = none := by
  unfold takeRange?
  rw [h]
  rfl

/-- A reference to a cell with no colon behind it is no range. -/
theorem takeRange?_of_cellText {w text : List Char} (hw : CellText isAsciiLetter w)
    (ht : Ends text) : takeRange? (w ++ text) = none := by
  unfold takeRange?
  rw [takeCell?_of_cellText hw fun c hc => ht.not_digit hc]
  cases text with
  | nil => rfl
  | cons c rest =>
    have hc : c ≠ ':' := ht.ne rfl (by decide)
    rw [Option.bind_eq_bind, Option.bind_some]
    split
    · next heq =>
      cases heq
      exact absurd rfl hc
    · rfl

theorem takeRange?_of_rangeText {w text : List Char} (hw : RangeText isAsciiLetter w)
    (ht : Ends text) : takeRange? (w ++ text) = some (w, text) := by
  obtain @⟨first, last, hfirst, hlast⟩ := hw
  have hcolon : ∀ c, (':' :: (last ++ text)).head? = some c → isAsciiDigit c = false := by
    intro c hc
    cases hc
    decide
  have hlast' := takeCell?_of_cellText hlast fun c hc => ht.not_digit hc
  unfold takeRange?
  rw [List.append_assoc, List.cons_append, takeCell?_of_cellText hfirst hcolon]
  show (takeCell? (last ++ text) >>= fun x => some (first ++ ':' :: x.1, x.2)) = _
  rw [hlast']
  rfl

/-! ## Named tables -/

theorem takeTable?_of_first {c : Char} (cs : List Char) (hc : c ≠ 'T' ∧ c ≠ 't') :
    takeTable? (c :: cs) = none := by
  unfold takeTable?
  dsimp only
  split
  · rw [if_neg]
    rintro ⟨rfl | rfl, -⟩
    · exact hc.1 rfl
    · exact hc.2 rfl
  · rfl

/-- No table is named where no `!` comes. -/
theorem takeTable?_of_word {w text : List Char} (hne : w ≠ []) (hw : ∀ c ∈ w, c ≠ '!')
    (ht : Ends text) : takeTable? (w ++ text) = none := by
  obtain ⟨c, cs, rfl⟩ := List.exists_cons_of_ne_nil hne
  have rest : (cs ++ text).dropWhile isAsciiDigit = cs.dropWhile isAsciiDigit ++ text :=
    dropWhile_append_of_head fun c hc => ht.not_digit hc
  unfold takeTable?
  rw [List.cons_append]
  dsimp only
  rw [rest]
  split
  · next tail heq =>
    have hhead : (cs.dropWhile isAsciiDigit ++ text).head? = some '!' := by rw [heq]; rfl
    rcases head?_append hhead with h | h
    · have hmem := (List.dropWhile_sublist _).mem (List.mem_of_head? h)
      exact absurd rfl (hw '!' (List.mem_cons_of_mem _ hmem))
    · exact absurd rfl (ht.ne h (by decide))
  · rfl

theorem takeTable?_of_named {mark : Char} {digits w text : List Char}
    (hm : mark = 'T' ∨ mark = 't') (hne : digits ≠ []) (hd : ∀ c ∈ digits, isAsciiDigit c) :
    takeTable? ((mark :: digits ++ '!' :: w) ++ text) = some (digits, w ++ text) := by
  have regroup : (mark :: digits ++ '!' :: w) ++ text = mark :: (digits ++ '!' :: (w ++ text)) := by
    simp only [List.append_assoc, List.cons_append]
  have stop : ∀ c, ('!' :: (w ++ text)).head? = some c → isAsciiDigit c = false := by
    intro c hc
    cases hc
    decide
  unfold takeTable?
  rw [regroup]
  dsimp only
  rw [takeWhile_word hd stop, dropWhile_word hd stop]
  exact if_pos ⟨hm, hne⟩

theorem length_named (mark : Char) (digits w : List Char) :
    (mark :: digits ++ '!' :: w).length = digits.length + 2 + w.length := by
  simp only [List.length_append, List.length_cons]
  omega

/-! ## Reading a reference -/

theorem readReference?_of_first {c : Char} (cs : List Char) (hl : isAsciiLetter c = false)
    (hd : c ≠ '$') : readReference? (c :: cs) = none := by
  have capital : isAsciiLetter 'T' = true := by decide
  have small : isAsciiLetter 't' = true := by decide
  have notT : c ≠ 'T' ∧ c ≠ 't' := ⟨(ne_of_kind capital hl).symm, (ne_of_kind small hl).symm⟩
  have hcell := takeCell?_of_first cs hl hd
  unfold readReference?
  rw [takeTable?_of_first cs notT, takeRange?_of_takeCell? hcell, hcell]
  rfl

theorem readReference?_of_letters {w text : List Char} (hne : w ≠ [])
    (hw : ∀ c ∈ w, isNameChar c)
    (hcell : ∀ c, (w.dropWhile isAsciiLetter).head? = some c → isAsciiDigit c = false)
    (ht : Ends text) : readReference? (w ++ text) = none := by
  have hcell' := takeCell?_of_letters hw hcell ht
  have htable : ∀ c ∈ w, c ≠ '!' := fun c hc => ne_of_kind (hw c hc) (by decide)
  unfold readReference?
  rw [takeTable?_of_word hne htable ht, takeRange?_of_takeCell? hcell', hcell']
  rfl

theorem readReference?_of_cell {w text : List Char} (hw : CellText isAsciiLetter w)
    (ht : Ends text) : readReference? (w ++ text) = some (.cell none w, w.length) := by
  have htable := takeTable?_of_word hw.ne_nil (fun c hc => (hw.mem c hc).2.1) ht
  unfold readReference?
  rw [htable, takeRange?_of_cellText hw ht, takeCell?_of_cellText hw fun c hc => ht.not_digit hc]
  rfl

theorem readReference?_of_range {w text : List Char} (hw : RangeText isAsciiLetter w)
    (ht : Ends text) : readReference? (w ++ text) = some (.range none w, w.length) := by
  have htable := takeTable?_of_word hw.ne_nil (fun c hc => (hw.mem c hc).2.1) ht
  unfold readReference?
  rw [htable, takeRange?_of_rangeText hw ht]
  rfl

section

variable {mark : Char} {digits : List Char} (hm : mark = 'T' ∨ mark = 't') (hne : digits ≠ [])
  (hd : ∀ c ∈ digits, isAsciiDigit c)

include hm hne hd

theorem readReference?_of_named_cell {w text : List Char} (hw : CellText isAsciiLetter w)
    (ht : Ends text) : readReference? ((mark :: digits ++ '!' :: w) ++ text) =
      some (.cell (some digits) w, (mark :: digits ++ '!' :: w).length) := by
  unfold readReference?
  rw [takeTable?_of_named hm hne hd, Option.bind_some]
  dsimp only
  rw [takeRange?_of_cellText hw ht, takeCell?_of_cellText hw fun c hc => ht.not_digit hc,
    length_named]
  rfl

theorem readReference?_of_named_range {w text : List Char} (hw : RangeText isAsciiLetter w)
    (ht : Ends text) : readReference? ((mark :: digits ++ '!' :: w) ++ text) =
      some (.range (some digits) w, (mark :: digits ++ '!' :: w).length) := by
  unfold readReference?
  rw [takeTable?_of_named hm hne hd, Option.bind_some]
  dsimp only
  rw [takeRange?_of_rangeText hw ht, length_named]
  rfl

end

/-! ## Reading any other operand -/

theorem readOperand_of_reference {cs : List Char} {found : Token × Nat}
    (h : readReference? cs = some found) : readOperand cs = found := by
  unfold readOperand
  rw [h]

theorem readOperand_of_bool (b : Bool) {text : List Char} (ht : Ends text) :
    readOperand ((if b then "TRUE" else "FALSE").toList ++ text) =
      (.bool b, (if b then "TRUE" else "FALSE").toList.length) := by
  cases b with
  | true =>
    have hnone : readReference? ("TRUE".toList ++ text) = none :=
      readReference?_of_letters (by decide) (forall_mem_of_all rfl) nofun ht
    show readOperand ("TRUE".toList ++ text) = _
    unfold readOperand
    rw [hnone]
    rfl
  | false =>
    have hnone : readReference? ("FALSE".toList ++ text) = none :=
      readReference?_of_letters (by decide) (forall_mem_of_all rfl) nofun ht
    show readOperand ("FALSE".toList ++ text) = _
    unfold readOperand
    rw [hnone]
    rfl

/-- A word starts before the end of a text of letters only if it starts a name by itself. -/
theorem startsWith_of_name {word : String} (hword : ∀ c ∈ word.toList, isAsciiLetter c)
    {w text : List Char} (hw : ¬ word.toList <+: w) (ht : Ends text) :
    startsWith word (w ++ text) = false := by
  unfold startsWith
  refine Bool.eq_false_iff.2 fun h => hw ?_
  have hprefix : word.toList <+: w ++ text := List.isPrefixOf_iff_prefix.1 h
  by_cases hlen : word.toList.length ≤ w.length
  · exact List.prefix_of_prefix_length_le hprefix (List.prefix_append w text) hlen
  · exfalso
    obtain ⟨rest, hrest⟩ := List.prefix_of_prefix_length_le (List.prefix_append w text) hprefix
      (by omega)
    rw [← hrest] at hprefix hlen hword
    have htext : rest <+: text := (List.prefix_append_right_inj w).1 hprefix
    cases rest with
    | nil =>
      rw [List.append_nil] at hlen
      exact hlen (Nat.le_refl _)
    | cons c rest =>
      obtain ⟨tail, rfl⟩ := htext
      have hc := hword c (List.mem_append_right _ List.mem_cons_self)
      rw [ht.not_letter rfl] at hc
      cases hc

theorem takeName_of_name {w text : List Char} (hw : NameText w) (ht : Ends text) :
    takeName (w ++ text) = w := by
  obtain ⟨c, hc, hdigit⟩ := hw.first
  cases w with
  | nil => cases hc
  | cons d rest =>
    cases hc
    have hname : isNameChar c = true := hw.chars c List.mem_cons_self
    have hfirst : (isAsciiLetter c || c == '_') = true := by
      unfold isNameChar at hname
      rw [hdigit, Bool.or_false] at hname
      exact hname
    unfold takeName
    rw [List.cons_append]
    dsimp only
    rw [if_pos hfirst]
    exact takeWhile_word (p := isNameChar) hw.chars fun c hc => ht.not_nameChar hc

theorem readOperand_of_name {w text : List Char} (hw : NameText w) (ht : Ends text) :
    readOperand (w ++ text) = (.name w, w.length) := by
  have hne : w ≠ [] := by
    obtain ⟨c, hc, -⟩ := hw.first
    rintro rfl
    cases hc
  unfold readOperand
  rw [readReference?_of_letters hne hw.chars hw.no_cell ht]
  dsimp only
  rw [@startsWith_of_name "TRUE" (forall_mem_of_all rfl) _ _ hw.no_true ht,
    @startsWith_of_name "FALSE" (forall_mem_of_all rfl) _ _ hw.no_false ht, takeName_of_name hw ht]
  simp only [Bool.false_eq_true, if_false, if_pos hne]

theorem takeExponent_of_ends {text : List Char} (ht : Ends text) : takeExponent text = [] := by
  cases text with
  | nil => rfl
  | cons c rest =>
    unfold takeExponent
    dsimp only
    rw [if_neg]
    rintro ⟨rfl | rfl, -⟩
    · exact ht.ne rfl (show extendsOperand 'e' = true by decide) rfl
    · exact ht.ne rfl (show extendsOperand 'E' = true by decide) rfl

theorem takeNumber_of_digits {w text : List Char} (hne : w ≠ [])
    (hw : ∀ c ∈ w, isAsciiDigit c) (ht : Ends text) : takeNumber (w ++ text) = w := by
  have stop : ∀ c, text.head? = some c → isAsciiDigit c = false := fun c hc => ht.not_digit hc
  unfold takeNumber
  rw [takeWhile_word hw stop, dropWhile_word hw stop]
  dsimp only
  split
  · exact absurd rfl (ht.ne (d := '.') rfl (by decide))
  · rw [takeExponent_of_ends ht, List.append_nil]
    cases w with
    | nil => exact absurd rfl hne
    | cons c rest => rfl

/-- Where neither a letter nor a `$` or `_` starts, only numbers, strings and symbols are left. -/
theorem readOperand_of_first {c : Char} (cs : List Char) (hletter : isAsciiLetter c = false)
    (hdollar : c ≠ '$') (hunderscore : c ≠ '_') :
    readOperand (c :: cs) =
      if takeNumber (c :: cs) ≠ [] then
        (.number (takeNumber (c :: cs)), (takeNumber (c :: cs)).length)
      else match c :: cs with
        | '"' :: rest =>
          match takeString? rest with
          | some content => (.string content, content.length + 2)
          | none => (.unknown, 1)
        | _ => readSymbol (c :: cs) := by
  have hname : takeName (c :: cs) = [] := by
    unfold takeName
    dsimp only
    rw [hletter, beq_false_of_ne hunderscore]
    rfl
  have differs : ∀ {d : Char}, isAsciiLetter d = true → (d == c) = false := fun hd =>
    beq_false_of_ne (ne_of_kind hd hletter)
  have htrue : startsWith "TRUE" (c :: cs) = false := by
    show (('T' == c) && _) = false
    rw [differs (by decide), Bool.false_and]
  have hfalse : startsWith "FALSE" (c :: cs) = false := by
    show (('F' == c) && _) = false
    rw [differs (by decide), Bool.false_and]
  unfold readOperand
  rw [readReference?_of_first cs hletter hdollar, htrue, hfalse, hname]
  rfl

theorem readOperand_of_number {w text : List Char} (hne : w ≠ [])
    (hw : ∀ c ∈ w, isAsciiDigit c) (ht : Ends text) :
    readOperand (w ++ text) = (.number w, w.length) := by
  have hnumber := takeNumber_of_digits hne hw ht
  obtain ⟨c, rest, rfl⟩ := List.exists_cons_of_ne_nil hne
  have hc : isAsciiDigit c = true := hw c List.mem_cons_self
  rw [List.cons_append] at hnumber ⊢
  rw [readOperand_of_first _ (not_letter_of_digit hc) (ne_of_kind hc (by decide))
    (ne_of_kind hc (by decide)), hnumber, if_pos hne]

theorem takeString?_of_string {content text : List Char} (h : StringText content) :
    takeString? (content ++ '"' :: text) = some content := by
  induction content with
  | nil => rfl
  | cons c rest ih =>
    obtain ⟨hquote, hslash, hline⟩ := h c List.mem_cons_self
    have hrest := ih fun d hd => h d (List.mem_cons_of_mem _ hd)
    have plain : ¬ (c = '\n' ∨ c = '\\') := by
      rintro (h | h)
      · exact hline h
      · exact hslash h
    rw [List.cons_append]
    unfold takeString?
    split
    · next heq => cases heq
    · next heq =>
      injection heq with hc
      exact absurd hc hquote
    · next heq =>
      injection heq with hc
      exact absurd hc hslash
    · next heq =>
      injection heq with hc htext
      rw [← hc, ← htext, if_neg plain, hrest]
      rfl

theorem readOperand_of_string {content text : List Char} (h : StringText content) :
    readOperand (('"' :: content ++ ['"']) ++ text) =
      (.string content, ('"' :: content ++ ['"']).length) := by
  have regroup : ('"' :: content ++ ['"']) ++ text = '"' :: (content ++ '"' :: text) := by
    simp only [List.append_assoc, List.cons_append, List.nil_append]
  unfold readOperand
  rw [regroup, readReference?_of_first _ (by decide) (by decide)]
  show (match takeString? (content ++ '"' :: text) with
    | some content => (string content, content.length + 2)
    | none => (unknown, 1)) = _
  rw [takeString?_of_string h]
  simp

/-- Where an operand is due, a character that starts none is read as a symbol. -/
theorem readOperand_of_symbol {c : Char} (cs : List Char) (hc : extendsOperand c = false)
    (hquote : c ≠ '"') : readOperand (c :: cs) = readSymbol (c :: cs) := by
  have ht : Ends (c :: cs) := by
    intro d hd
    cases hd
    exact hc
  have hnumber : takeNumber (c :: cs) = [] := by
    have hdigit := ht.not_digit rfl
    unfold takeNumber
    rw [List.takeWhile_cons, List.dropWhile_cons, hdigit]
    simp only [Bool.false_eq_true, if_false]
    split
    · next heq =>
      cases heq
      exact absurd rfl (ht.ne (d := '.') rfl (by decide))
    · rfl
  rw [readOperand_of_first cs (ht.not_letter rfl) (ht.ne rfl (by decide)) (ht.ne rfl (by decide)),
    hnumber, if_neg (fun h => h rfl)]
  split
  · next heq =>
    cases heq
    exact absurd rfl hquote
  · rfl

end Token

end Spreadsheet
