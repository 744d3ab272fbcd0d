import Spreadsheet.Numeral.WholeText
import Spreadsheet.Proofs.JsonText
import Spreadsheet.Proofs.OperandText

/-!
# Values in JSON

The reader takes the written form of a value to the state after that value, wherever a value is due
and whatever ends it (`Reads`). This holds of words, numbers and texts, it passes from items to lists
and from fields to records, and so it holds of every plain value. What is written of a plain value
therefore reads back as the value (`read_writeLine`).
-/

namespace Spreadsheet

open Numeral Text

namespace Json

/-! ## Running over tokens -/

/-- The state after the tokens of a text. -/
def run (cs : List Char) (state : ReadState) : Except ReadFault ReadState :=
  (tokens maxDigits cs).foldlM ReadState.step state

section

variable {c : Char} {cs rest : List Char} {t : Token}

theorem tokens_cons (hc : isGap c = false) (ht : t ≠ .unknown)
    (h : readToken maxDigits c cs = (t, rest)) :
    tokens maxDigits (c :: cs) = t :: tokens maxDigits rest := by
  rw [tokens, if_neg (by rw [hc]; exact Bool.false_ne_true)]
  split
  · next hread _ =>
    cases h.symm.trans hread
    exact absurd rfl ht
  · next hread _ =>
    cases h.symm.trans hread
    rfl

theorem run_token (hc : isGap c = false) (ht : t ≠ .unknown)
    (h : readToken maxDigits c cs = (t, rest)) (a : ReadState) :
    run (c :: cs) a = (a.step t).bind (run rest) := by
  unfold run
  rw [tokens_cons hc ht h]
  rfl

/-- Where no token starts, reading ends. -/
theorem run_unknown (hc : isGap c = false) (h : readToken maxDigits c cs = (.unknown, rest))
    (a : ReadState) : run (c :: cs) a = .error .malformed := by
  have htokens : tokens maxDigits (c :: cs) = [.unknown] := by
    rw [tokens, if_neg (by rw [hc]; exact Bool.false_ne_true)]
    split
    · rfl
    · next hother hread _ => exact absurd (Prod.mk.inj (hread.symm.trans h)).1 hother
  unfold run
  rw [htokens]
  cases a <;> rfl

theorem run_nil (a : ReadState) : run [] a = .ok a := by
  unfold run
  rw [tokens]
  rfl

/-- A blank between tokens is passed over. -/
theorem run_blank (cs : List Char) (a : ReadState) : run (' ' :: cs) a = run cs a := by
  unfold run
  rw [tokens, if_pos (by decide)]

end

/-! ## Where a value is due -/

open ReadState

/-- A value that is read next goes to a stack. After the start of a list the end of the list may come
instead, so the list is not on the stack yet. -/
inductive Due : List Frame → ReadState → Prop
  | value (stack : List Frame) : Due stack (.value stack)
  | firstItem (stack : List Frame) : Due (.items [] :: stack) (.firstItem stack)

theorem step_of_due {stack : List Frame} {a : ReadState} (h : Due stack a) {t : Token}
    (ht : t ≠ .closeList) : a.step t = stepValue stack t := by
  cases h with
  | value => rfl
  | firstItem =>
    cases t with
    | closeList => exact absurd rfl ht
    | _ => rfl

/-- Behind a value the text ends or goes on with a mark. -/
def EndsValue (rest : List Char) : Prop :=
  ∀ c, rest.head? = some c → c = ',' ∨ c = ']' ∨ c = '}'

theorem endsValue_cons {c : Char} (h : c = ',' ∨ c = ']' ∨ c = '}') (rest : List Char) :
    EndsValue (c :: rest) := by
  rintro _ ⟨⟩
  exact h

/-- The text is read as the value, wherever a value is due and whatever ends it. -/
def Reads (cs : List Char) (v : Value) : Prop :=
  ∀ stack a rest, Due stack a → EndsValue rest → run (cs ++ rest) a = run rest (place v stack)

/-- A text of one token that is a value by itself. -/
theorem reads_of_token {c : Char} {cs : List Char} {t : Token} {v : Value} (hc : isGap c = false)
    (ht : t ≠ .closeList) (hv : ∀ stack, stepValue stack t = .ok (place v stack))
    (h : ∀ rest, EndsValue rest → readToken maxDigits c (cs ++ rest) = (t, rest)) :
    Reads (c :: cs) v := by
  intro stack a rest hdue hends
  have hknown : t ≠ .unknown := by
    rintro rfl
    cases hv []
  rw [List.cons_append, run_token hc hknown (h rest hends), step_of_due hdue ht, hv]
  rfl

theorem reads_scalar {c : Char} {cs : List Char} {v : Value} (hc : isGap c = false)
    (h : ∀ rest, EndsValue rest → readToken maxDigits c (cs ++ rest) = (.scalar v, rest)) :
    Reads (c :: cs) v :=
  reads_of_token (t := .scalar v) hc nofun (fun _ => rfl) h

theorem reads_null : Reads "null".toList .null := reads_scalar (by decide) fun _ _ => rfl

theorem reads_bool (b : Bool) : Reads (if b then "true" else "false").toList (.bool b) := by
  cases b with
  | false => exact reads_scalar (by decide) fun _ _ => rfl
  | true => exact reads_scalar (by decide) fun _ _ => rfl

/-- A string is read as one token. -/
theorem run_text {s : String} (h : HalvesApart s) (rest : List Char) (a : ReadState) :
    run ((stringText s).toList ++ rest) a = (a.step (.text s)).bind (run rest) := by
  have hread := takeString?_stringText h rest
  have htext : (stringText s).toList ++ rest = '"' :: (s.toList.flatMap stringChar ++ '"' :: rest) := by
    simp [stringText, String.toList_ofList]
  rw [htext]
  refine run_token (c := '"') (t := .text s) (by decide) nofun ?_ a
  simp only [readToken, hread, String.ofList_toList]
  rw [List.length_append, List.length_cons, ← Nat.add_assoc, Nat.add_right_comm,
    Nat.add_sub_cancel]
  simp [List.drop_append]

theorem reads_text {s : String} (h : HalvesApart s) : Reads (stringText s).toList (.text s) := by
  intro stack a rest hdue _
  rw [run_text h, step_of_due hdue (t := .text s) nofun]
  rfl

/-! ## Whole numbers -/

def intChars (n : Int) : List Char :=
  if n < 0 then '-' :: digitsOf n.natAbs else digitsOf n.natAbs

theorem mem_intChars {n : Int} {c : Char} (h : c ∈ intChars n) :
    c = '-' ∨ isAsciiDigit c = true := by
  unfold intChars at h
  split at h
  · exact (List.mem_cons.1 h).imp_right isAsciiDigit_of_mem_digitsOf
  · exact .inr (isAsciiDigit_of_mem_digitsOf h)

theorem intText_eq {n : Int} (h : (digitsOf n.natAbs).length ≤ maxDigits) :
    intText n = .ok (String.ofList (intChars n)) := by
  unfold intText integerText?
  dsimp only
  rw [if_pos h]
  rfl

def wholeToken (n : Int) : Token :=
  if (digitsOf n.natAbs).length ≤ maxDigits then .scalar (.int n) else .tooLong

section

variable {n : Nat} {rest : List Char}

theorem endsValue_not_digit (h : EndsValue rest) {c : Char} (hc : rest.head? = some c) :
    isAsciiDigit c = false := by
  rcases h c hc with rfl | rfl | rfl <;> decide

/-- The digits of a number are the whole part of what they start. -/
theorem takeWhole_digitsOf (n : Nat) (h : EndsValue rest) :
    takeWhole (digitsOf n ++ rest) = digitsOf n := by
  have hwhile : (digitsOf n ++ rest).takeWhile isAsciiDigit = digitsOf n :=
    takeWhile_word (fun _ => isAsciiDigit_of_mem_digitsOf) fun _ => endsValue_not_digit h
  unfold takeWhole
  split
  · next tail heq =>
    obtain ⟨c, cs, hcs⟩ := List.exists_cons_of_ne_nil (Nat.toDigits_ne_nil (b := 10) (n := n))
    change digitsOf n = c :: cs at hcs
    rw [hcs] at heq
    cases (List.cons.inj heq).1
    rw [eq_zero_of_digitsOf hcs]
    rfl
  · exact hwhile

theorem takeFraction_of_ends (h : EndsValue rest) : takeFraction rest = [] := by
  unfold takeFraction
  split
  · exact absurd (h '.' rfl) (by decide)
  · rfl

theorem takeExponent_of_ends (h : EndsValue rest) : takeExponent rest = [] := by
  unfold takeExponent
  cases rest with
  | nil => rfl
  | cons c cs =>
    have hc : ¬ (c = 'e' ∨ c = 'E') := by
      rcases h c rfl with rfl | rfl | rfl <;> decide
    dsimp only
    exact if_neg fun hexp => hc hexp.1

/-- The token of the digits of a number behind a minus sign or without one. -/
theorem token_of_digits {n : Int} (written : List Char)
    (hsign : takeSign written = (decide (n < 0), digitsOf n.natAbs)) :
    (match DecimalText.read? written with
      | none => Token.unknown
      | some d =>
        if !d.isWhole then .scalar (.float d.toFloat)
        else if d.digits.length > maxDigits then .tooLong
        else .scalar (.int d.toInt)) = wholeToken n := by
  have hvalue : (if decide (n < 0) = true then -(n.natAbs : Int) else n.natAbs) = n := by
    simp only [decide_eq_true_eq]
    omega
  rw [DecimalText.read?_signed hsign Nat.toDigits_ne_nil fun _ => isAsciiDigit_of_mem_digitsOf]
  simp only [Bool.not_true, Bool.false_eq_true, if_false, DecimalText.toInt,
    digitsValue_digitsOf, hvalue, wholeToken]
  by_cases hn : (digitsOf n.natAbs).length ≤ maxDigits
  · rw [if_pos hn, if_neg (Nat.not_lt.2 hn)]
  · rw [if_neg hn, if_pos (Nat.not_le.1 hn)]

theorem readNumber?_intChars (n : Int) (h : EndsValue rest) :
    readNumber? maxDigits (intChars n ++ rest) = some (wholeToken n, (intChars n).length) := by
  have hempty : (digitsOf n.natAbs).isEmpty = false := by
    rw [List.isEmpty_eq_false_iff]
    exact Nat.toDigits_ne_nil
  have hfraction : takeFraction ((digitsOf n.natAbs ++ rest).drop (digitsOf n.natAbs).length) =
      [] := by
    rw [List.drop_left, takeFraction_of_ends h]
  have hexponent : takeExponent (((digitsOf n.natAbs ++ rest).drop
      (digitsOf n.natAbs).length).drop 0) = [] := by
    rw [List.drop_left, List.drop_zero, takeExponent_of_ends h]
  unfold intChars
  by_cases hneg : n < 0
  · have htoken := token_of_digits (n := n) ('-' :: digitsOf n.natAbs)
      (by rw [decide_eq_true hneg]; rfl)
    rw [if_pos hneg, List.cons_append, readNumber?]
    simp only [takeWhole_digitsOf _ h, hempty, hfraction, List.length_nil, hexponent,
      List.append_nil]
    exact congrArg (fun token => some (token, _)) htoken
  · obtain ⟨c, cs, hcs⟩ : ∃ c cs, digitsOf n.natAbs = c :: cs :=
      List.exists_cons_of_ne_nil Nat.toDigits_ne_nil
    have hc : isAsciiDigit c = true :=
      isAsciiDigit_of_mem_digitsOf (by rw [hcs]; exact List.mem_cons_self)
    have hminus : c ≠ '-' := ne_of_kind hc (by decide)
    have hplus : c ≠ '+' := ne_of_kind hc (by decide)
    have htoken := token_of_digits (n := n) (digitsOf n.natAbs) (by
      rw [decide_eq_false hneg, hcs, takeSign]
      · exact fun _ heq => hminus (List.cons.inj heq).1
      · exact fun _ heq => hplus (List.cons.inj heq).1)
    rw [if_neg hneg, readNumber?]
    · simp only [takeWhole_digitsOf _ h, hempty, hfraction, List.length_nil, hexponent,
        List.append_nil]
      exact congrArg (fun token => some (token, _)) htoken
    · rw [hcs]
      exact fun _ heq => hminus (List.cons.inj heq).1

/-- No word starts like a number: with a digit, or with a minus sign and a digit behind it. -/
theorem readWord?_intChars (n : Int) (rest : List Char) : readWord? (intChars n ++ rest) = none := by
  have hhead : ∀ w ∈ words, ∀ c cs, isAsciiDigit c = true →
      w.1.toList.isPrefixOf (c :: cs) = false ∧ w.1.toList.isPrefixOf ('-' :: c :: cs) = false := by
    simp only [words, List.forall_mem_cons, List.not_mem_nil, false_implies, implies_true, and_true]
    refine ⟨?_, ?_, ?_, ?_, ?_, ?_⟩ <;> intro c cs hc
    all_goals
      have hne : ∀ d, isAsciiDigit d = false → (d == c) = false :=
        fun d hd => beq_eq_false_iff_ne.2 (ne_of_kind hc hd).symm
      have hletters := And.intro (hne 'n' (by decide)) (And.intro (hne 't' (by decide))
        (And.intro (hne 'f' (by decide)) (And.intro (hne 'N' (by decide))
          (And.intro (hne 'I' (by decide)) (hne '-' (by decide))))))
      simp [List.isPrefixOf, hletters]
  obtain ⟨c, cs, hcs⟩ : ∃ c cs, digitsOf n.natAbs = c :: cs :=
    List.exists_cons_of_ne_nil Nat.toDigits_ne_nil
  have hc : isAsciiDigit c = true :=
    isAsciiDigit_of_mem_digitsOf (by rw [hcs]; exact List.mem_cons_self)
  unfold readWord? intChars
  rw [Option.map_eq_none_iff, List.find?_eq_none, hcs]
  intro w hw
  split
  · exact Bool.eq_false_iff.1 (hhead w hw c (cs ++ rest) hc).2
  · exact Bool.eq_false_iff.1 (hhead w hw c (cs ++ rest) hc).1

/-- The characters of a whole number start no other token. -/
theorem exists_intChars_cons (n : Int) : ∃ c cs, intChars n = c :: cs ∧ isGap c = false ∧
    c ∉ ['[', ']', '{', '}', ',', ':', '"'] := by
  obtain ⟨c, cs, hcs⟩ : ∃ c cs, intChars n = c :: cs := by
    refine List.exists_cons_of_ne_nil ?_
    unfold intChars
    split
    · exact List.cons_ne_nil _ _
    · exact Nat.toDigits_ne_nil
  have hc := mem_intChars (c := c) (n := n) (by rw [hcs]; exact List.mem_cons_self)
  have hother : ∀ d ∈ [' ', '\t', '\n', '\r', '[', ']', '{', '}', ',', ':', '"'], c ≠ d := by
    intro d hd
    have hkind : isAsciiDigit d = false ∧ d ≠ '-' :=
      forall_mem_of_all (p := fun d => isAsciiDigit d = false ∧ d ≠ '-') (by decide) d hd
    rcases hc with rfl | hc
    · exact hkind.2.symm
    · exact ne_of_kind hc hkind.1
  simp only [List.forall_mem_cons] at hother
  exact ⟨c, cs, hcs, by simp [isGap, hother], by simp [hother]⟩

theorem readToken_intChars {n : Int} {c : Char} {cs : List Char} (hcs : intChars n = c :: cs)
    (hmark : c ∉ ['[', ']', '{', '}', ',', ':', '"']) (h : EndsValue rest) :
    readToken maxDigits c (cs ++ rest) = (wholeToken n, rest) := by
  have hword := readWord?_intChars n rest
  have hnumber := readNumber?_intChars n h
  rw [hcs, List.cons_append] at hword hnumber
  unfold readToken
  split
  case h_8 =>
    rw [hword, hnumber, Option.none_or]
    dsimp only
    rw [List.length_cons, Nat.add_sub_cancel, List.drop_left]
  all_goals exact absurd hmark (by decide)

end

theorem reads_int {n : Int} (hn : (digitsOf n.natAbs).length ≤ maxDigits) :
    Reads (intChars n) (.int n) := by
  obtain ⟨c, cs, hcs, hgap, hmark⟩ := exists_intChars_cons n
  have htoken : wholeToken n = .scalar (.int n) := if_pos hn
  rw [hcs]
  refine reads_scalar hgap fun rest hends => ?_
  rw [readToken_intChars hcs hmark hends, htoken]

/-! ## Lists -/

/-- Parts with commas between them. -/
def joined : List (List Char) → List Char
  | [] => []
  | first :: more => first ++ more.flatMap fun part => ',' :: ' ' :: part

theorem toList_intercalate (parts : List (List Char)) :
    (", ".intercalate (parts.map String.ofList)).toList = joined parts := by
  rw [String.toList_intercalate, List.map_map]
  induction parts with
  | nil => rfl
  | cons first more ih =>
    cases more with
    | nil => simp [joined]
    | cons second more =>
      rw [List.map_cons, List.map_cons, List.intercalate_cons_cons, ← List.map_cons, ih]
      simp [joined]

theorem endsValue_more (more : List (List Char)) {c : Char} (hc : c = ']' ∨ c = '}')
    (rest : List Char) :
    EndsValue ((more.flatMap fun part => ',' :: ' ' :: part) ++ c :: rest) := by
  cases more with
  | nil => exact endsValue_cons (.inr hc) rest
  | cons part more => exact endsValue_cons (.inl rfl) _

/-- The items of a list behind its first one are read to its end. -/
theorem run_items {parts : List (List Char)} {items : List Value}
    (h : List.Forall₂ Reads parts items) (done : List Value) (stack : List Frame)
    (rest : List Char) :
    run ((parts.flatMap fun part => ',' :: ' ' :: part) ++ ']' :: rest) (.afterItem done stack) =
      run rest (place (.list (done.reverse ++ items)) stack) := by
  induction h generalizing done with
  | nil =>
    rw [List.append_nil]
    exact run_token (t := .closeList) (by decide) nofun rfl _
  | @cons part item more items hitem _ ih =>
    have hends := endsValue_more more (.inl rfl) rest
    rw [List.flatMap_cons, List.append_assoc, List.cons_append, List.cons_append,
      run_token (t := .comma) (by decide) nofun rfl]
    show run (' ' :: _) (.value (.items done :: stack)) = _
    rw [run_blank, hitem _ _ _ (.value _) hends]
    show run _ (.afterItem (item :: done) stack) = _
    rw [ih, List.reverse_cons, List.append_assoc]
    rfl

theorem reads_list {parts : List (List Char)} {items : List Value}
    (h : List.Forall₂ Reads parts items) : Reads ('[' :: joined parts ++ [']']) (.list items) := by
  intro stack a rest hdue _
  rw [List.cons_append, List.cons_append, List.append_assoc, List.singleton_append,
    run_token (t := .openList) (by decide) nofun rfl, step_of_due hdue (t := .openList) nofun]
  show run _ (.firstItem stack) = _
  cases h with
  | nil => exact run_token (t := .closeList) (by decide) nofun rfl _
  | @cons part item more items hitem hmore =>
    show run (part ++ _ ++ _) _ = _
    rw [List.append_assoc, hitem _ _ _ (.firstItem stack) (endsValue_more more (.inl rfl) rest)]
    exact run_items hmore [item] stack rest

/-! ## Records -/

/-- The text is read as the field of a record. -/
inductive ReadsField : List Char → Value × Value → Prop
  | intro {name : String} {cs : List Char} {v : Value} : HalvesApart name → Reads cs v →
    ReadsField ((stringText name).toList ++ ':' :: ' ' :: cs) (.text name, v)

/-- A name is due in a record with some fields. -/
inductive DueName : List (Value × Value) → List Frame → ReadState → Prop
  | first (stack : List Frame) : DueName [] stack (.firstName stack)
  | next (done : List (Value × Value)) (stack : List Frame) : DueName done stack (.name done stack)

theorem run_field {cs : List Char} {f : Value × Value} (h : ReadsField cs f)
    {done : List (Value × Value)} {stack : List Frame} {a : ReadState} (hdue : DueName done stack a)
    {rest : List Char} (hends : EndsValue rest) :
    run (cs ++ rest) a = run rest (.afterField (f :: done) stack) := by
  obtain @⟨name, cs, v, hname, hv⟩ := h
  have hstep : a.step (.text name) = .ok (.colon done name stack) := by
    cases hdue <;> rfl
  rw [List.append_assoc, run_text hname, hstep]
  show run (':' :: ' ' :: (cs ++ rest)) (.colon done name stack) = _
  rw [run_token (t := .colon) (by decide) nofun rfl]
  show run (' ' :: (cs ++ rest)) (.value (.fields done name :: stack)) = _
  rw [run_blank, hv _ _ _ (.value _) hends]
  rfl

/-- The fields of a record behind its first one are read to its end. -/
theorem run_fields {parts : List (List Char)} {fields : List (Value × Value)}
    (h : List.Forall₂ ReadsField parts fields) (done : List (Value × Value)) (stack : List Frame)
    (rest : List Char) :
    run ((parts.flatMap fun part => ',' :: ' ' :: part) ++ '}' :: rest) (.afterField done stack) =
      run rest (place (.record (Value.ofFields (done.reverse ++ fields))) stack) := by
  induction h generalizing done with
  | nil =>
    rw [List.append_nil]
    exact run_token (t := .closeRecord) (by decide) nofun rfl _
  | @cons part f more fields hf _ ih =>
    have hends := endsValue_more more (.inr rfl) rest
    rw [List.flatMap_cons, List.append_assoc, List.cons_append, List.cons_append,
      run_token (t := .comma) (by decide) nofun rfl]
    show run (' ' :: _) (.name done stack) = _
    rw [run_blank, run_field hf (.next done stack) hends, ih, List.reverse_cons, List.append_assoc]
    rfl

theorem reads_record {parts : List (List Char)} {fields : List (Value × Value)}
    (h : List.Forall₂ ReadsField parts fields) (hfields : Value.ofFields fields = fields) :
    Reads ('{' :: joined parts ++ ['}']) (.record fields) := by
  intro stack a rest hdue _
  rw [List.cons_append, List.cons_append, List.append_assoc, List.singleton_append,
    run_token (t := .openRecord) (by decide) nofun rfl,
    step_of_due hdue (t := .openRecord) nofun]
  show run _ (.firstName stack) = _
  cases h with
  | nil => exact run_token (t := .closeRecord) (by decide) nofun rfl _
  | @cons part f more fields hf hmore =>
    show run (part ++ _ ++ _) _ = _
    rw [List.append_assoc, run_field hf (.first stack) (endsValue_more more (.inr rfl) rest),
      run_fields hmore]
    exact congrArg (fun fs => run rest (place (.record fs) stack)) hfields

/-! ## Plain values -/

/-- No control character is among the characters. -/
def Visible (cs : List Char) : Prop := ∀ c ∈ cs, 0x20 ≤ c.toNat

theorem Visible.append {cs ds : List Char} (h : Visible cs) (h' : Visible ds) :
    Visible (cs ++ ds) := fun c hc => (List.mem_append.1 hc).elim (h c) (h' c)

theorem visible_of_all {cs : List Char} (h : cs.all (fun c => decide (0x20 ≤ c.toNat)) = true) :
    Visible cs := forall_mem_of_all h

theorem visible_stringText (s : String) : Visible (stringText s).toList := by
  unfold stringText
  rw [String.toList_ofList]
  refine List.forall_mem_cons.2 ⟨by decide,
    Visible.append (fun c hc => ?_) (visible_of_all (by decide))⟩
  obtain ⟨d, -, hd⟩ := List.mem_flatMap.1 hc
  exact visible_of_mem_stringChar hd

theorem visible_intChars (n : Int) : Visible (intChars n) := by
  intro c hc
  rcases mem_intChars hc with rfl | hdigit
  · decide
  · have hlow : 48 ≤ c.toNat := (of_decide_eq_true hdigit).1
    omega

theorem visible_joined {parts : List (List Char)} (h : ∀ part ∈ parts, Visible part) :
    Visible (joined parts) := by
  cases parts with
  | nil => exact fun c hc => absurd hc List.not_mem_nil
  | cons first more =>
    rw [List.forall_mem_cons] at h
    refine h.1.append fun c hc => ?_
    obtain ⟨part, hpart, hc⟩ := List.mem_flatMap.1 hc
    have hgap : Visible [',', ' '] := visible_of_all (by decide)
    exact hgap.append (h.2 part hpart) c hc

theorem enclose_oneLine (depth : Nat) (first last : String) (parts : List (List Char)) :
    Style.oneLine.enclose depth first last (parts.map String.ofList) =
      String.ofList (first.toList ++ joined parts ++ last.toList) := by
  rw [← String.toList_inj, String.toList_ofList, ← toList_intercalate]
  unfold Style.enclose
  split
  · next h =>
    rw [List.isEmpty_iff, List.map_eq_nil_iff] at h
    rw [h]
    simp
  · simp

/-- Reading a record keeps fields with texts as names, each of which stands once. -/
theorem ofFields_eq {fields : List (Value × Value)} (hnames : ∀ f ∈ fields, ∃ s, f.1 = .text s)
    (honce : (fields.map Prod.fst).Nodup) : Value.ofFields fields = fields := by
  have hstep : ∀ rest done : List (Value × Value), done ++ rest = fields →
      rest.foldl (fun fs f => Value.setField fs f.1 f.2) done = fields := by
    intro rest
    induction rest with
    | nil => exact fun done h => (List.append_nil done).symm.trans h
    | cons f rest ih =>
      intro done h
      have hnew : Value.setField done f.1 f.2 = done ++ [f] := by
        unfold Value.setField
        rw [if_neg]
        rw [List.any_eq_true]
        rintro ⟨g, hg, hsame⟩
        rw [← h, List.map_append, List.nodup_append] at honce
        refine honce.2.2 _ (List.mem_map_of_mem hg) f.1 List.mem_cons_self ?_
        obtain ⟨s, hs⟩ := hnames f (h ▸ List.mem_append_right _ List.mem_cons_self)
        obtain ⟨t, ht⟩ := hnames g (h ▸ List.mem_append_left _ hg)
        rw [hs, ht, Value.same, beq_iff_eq] at hsame
        rw [hs, ht, hsame]
      rw [List.foldl_cons, hnew]
      exact ih _ (by rw [List.append_assoc]; exact h)
  exact hstep fields [] rfl

end Json

namespace Value

open Json

theorem writeAt_record {depth : Nat} {fields : List (Value × Value)} {parts : List (List Char)}
    (h : writeFields .oneLine (depth + 1) fields = .ok (parts.map String.ofList)) :
    writeAt .oneLine depth (.record fields) = .ok (String.ofList ('{' :: joined parts ++ ['}'])) := by
  simp only [writeAt, h]
  exact congrArg Except.ok (enclose_oneLine depth "\x7b" "\x7d" parts)

theorem visible_record {parts : List (List Char)} (h : ∀ part ∈ parts, Visible part) :
    Visible ('{' :: joined parts ++ ['}']) :=
  List.forall_mem_cons.2 ⟨by decide, (visible_joined h).append (visible_of_all (by decide))⟩

theorem PlainFields.exists_text {fields : List (Value × Value)} (h : PlainFields fields) :
    ∀ f ∈ fields, ∃ s, f.1 = .text s := by
  induction fields with
  | nil => exact fun f hf => absurd hf List.not_mem_nil
  | cons f rest ih =>
    obtain _ | ⟨_, _, hrest⟩ := h
    exact List.forall_mem_cons.2 ⟨⟨_, rfl⟩, ih hrest⟩

mutual

/-- A plain value has a text, which reads back as the value. -/
theorem Plain.written {v : Value} (h : Plain v) (depth : Nat) :
    ∃ cs, writeAt .oneLine depth v = .ok (String.ofList cs) ∧ Reads cs v ∧ Visible cs := by
  cases h with
  | null => exact ⟨_, rfl, reads_null, visible_of_all (by decide)⟩
  | bool b =>
    have hvisible : Visible (if b then "true" else "false").toList := by
      cases b <;> exact visible_of_all (by decide)
    exact ⟨_, by rw [String.ofList_toList]; rfl, reads_bool b, hvisible⟩
  | int hn => exact ⟨_, intText_eq hn, reads_int hn, visible_intChars _⟩
  | @text s hs =>
    exact ⟨_, by rw [String.ofList_toList]; rfl, reads_text hs, visible_stringText s⟩
  | @list items hitems =>
    obtain ⟨parts, hwrite, hread, hvisible⟩ := PlainItems.written hitems (depth + 1)
    refine ⟨'[' :: joined parts ++ [']'], ?_, reads_list hread, ?_⟩
    · simp only [writeAt, hwrite]
      exact congrArg Except.ok (enclose_oneLine depth "[" "]" parts)
    · exact List.forall_mem_cons.2 ⟨by decide,
        (visible_joined hvisible).append (visible_of_all (by decide))⟩
  | @record fields honce hfields =>
    obtain ⟨parts, hwrite, hread, hvisible⟩ := PlainFields.written hfields (depth + 1)
    exact ⟨_, writeAt_record hwrite, reads_record hread (ofFields_eq hfields.exists_text honce),
      visible_record hvisible⟩

theorem PlainItems.written {items : List Value} (h : PlainItems items) (depth : Nat) :
    ∃ parts, writeItems .oneLine depth items = .ok (parts.map String.ofList) ∧
      List.Forall₂ Reads parts items ∧ ∀ part ∈ parts, Visible part := by
  cases h with
  | nil => exact ⟨[], rfl, .nil, fun _ h => absurd h List.not_mem_nil⟩
  | @cons v rest hv hrest =>
    obtain ⟨part, hwrite, hread, hvisible⟩ := Plain.written hv depth
    obtain ⟨parts, hwrites, hreads, hvisibles⟩ := PlainItems.written hrest depth
    refine ⟨part :: parts, ?_, .cons hread hreads, List.forall_mem_cons.2 ⟨hvisible, hvisibles⟩⟩
    simp only [writeItems, hwrite, hwrites]
    rfl

theorem PlainFields.written {fields : List (Value × Value)} (h : PlainFields fields) (depth : Nat) :
    ∃ parts, writeFields .oneLine depth fields = .ok (parts.map String.ofList) ∧
      List.Forall₂ ReadsField parts fields ∧ ∀ part ∈ parts, Visible part := by
  cases h with
  | nil => exact ⟨[], rfl, .nil, fun _ h => absurd h List.not_mem_nil⟩
  | @cons name v rest hname hv hrest =>
    obtain ⟨part, hwrite, hread, hvisible⟩ := Plain.written hv depth
    obtain ⟨parts, hwrites, hreads, hvisibles⟩ := PlainFields.written hrest depth
    refine ⟨((stringText name).toList ++ ':' :: ' ' :: part) :: parts, ?_,
      .cons (.intro hname hread) hreads, List.forall_mem_cons.2 ⟨?_, hvisibles⟩⟩
    · have htext : stringText name ++ ": " ++ String.ofList part =
          String.ofList ((stringText name).toList ++ ':' :: ' ' :: part) := by
        rw [← String.toList_inj]
        simp [String.toList_ofList]
      simp only [writeFields, nameText, hwrite, hwrites, List.map_cons, ← htext]
      rfl
    · exact (visible_stringText name).append
        (List.forall_mem_cons.2 ⟨by decide, List.forall_mem_cons.2 ⟨by decide, hvisible⟩⟩)

end

end Value

namespace Json

theorem read_of_reads {cs : List Char} {v : Value} (h : Reads cs v) :
    read (String.ofList cs) = .ok v := by
  have hrun := h [] (.value []) [] (.value []) nofun
  rw [List.append_nil] at hrun
  unfold read readUpTo
  rw [String.toList_ofList]
  change (run cs (.value []) >>= _) = _
  rw [hrun, run_nil]
  rfl

theorem read_of_run_error {cs : List Char} {f : ReadFault} (h : run cs (.value []) = .error f) :
    read (String.ofList cs) = .error f := by
  unfold read readUpTo
  rw [String.toList_ofList]
  change (run cs (.value []) >>= _) = _
  rw [h]
  rfl

/-- Nothing is no JSON. -/
theorem read_nil : read (String.ofList []) = .error .malformed := by
  unfold read readUpTo
  rw [String.toList_ofList]
  change (run [] (.value []) >>= _) = _
  rw [run_nil]
  rfl

/-- A plain record is written between braces. -/
theorem exists_written_record {fields : List (Value × Value)} (h : (Value.record fields).Plain) :
    ∃ cs, writeLine (.record fields) = .ok (String.ofList ('{' :: cs ++ ['}'])) ∧
      read (String.ofList ('{' :: cs ++ ['}'])) = .ok (.record fields) ∧
      Visible ('{' :: cs ++ ['}']) := by
  obtain _ | _ | _ | _ | _ | ⟨honce, hfields⟩ := h
  obtain ⟨parts, hwrite, hread, hvisible⟩ := hfields.written 1
  exact ⟨_, Value.writeAt_record hwrite,
    read_of_reads (reads_record hread (ofFields_eq hfields.exists_text honce)),
    Value.visible_record hvisible⟩

/-- **What is written of a plain value reads back as the value.** -/
theorem read_writeLine {v : Value} (h : v.Plain) :
    ∃ text, writeLine v = .ok text ∧ read text = .ok v := by
  obtain ⟨cs, hwrite, hread, -⟩ := h.written 0
  exact ⟨_, hwrite, read_of_reads hread⟩

/-- Halves that are not apart come back as the character that they make. -/
example : writeLine (.text (String.ofList [charOfCode 0xd83d, charOfCode 0xde00])) =
      .ok "\"\\ud83d\\ude00\"" ∧
    read "\"\\ud83d\\ude00\"" = .ok (.text (String.ofList [joinHalves 0xd83d 0xde00])) :=
  ⟨by cbv, by cbv⟩

end Json

end Spreadsheet
