import Spreadsheet.Format.Spelling
import Spreadsheet.Proofs.NearestDouble
import Spreadsheet.Proofs.NumeralText
import Spreadsheet.Proofs.SerialDisplay
import Spreadsheet.Proofs.Verbatim

/-!
# Whole numbers under a format

A format writes a whole number as the double to which it is rounded (`display_int_places`): within the
range of doubles with the digits of the nearest one and with its own sign (`exists_shown`), and grouped
as commas ask for (`groupedDigits_groupThousands`). So a whole number keeps its own digits exactly if it
is a double (`display_whole_number`), as all those below `2 ^ 53` are.
-/

namespace Spreadsheet

open Numeral Text

/-! ## Groups of three digits -/

namespace Numeral

theorem groupThousands_go_add_three {k : Nat} (hk : 0 < k) (cs : List Char) :
    groupThousands.go (k + 3) cs = groupThousands.go k cs := by
  induction cs generalizing k with
  | nil => rfl
  | cons c rest ih =>
    have hrest := ih (Nat.succ_pos k)
    rw [Nat.succ_eq_add_one, Nat.add_right_comm] at hrest
    have hmod : (k + 3) % 3 = k % 3 := Nat.add_mod_right k 3
    unfold groupThousands.go
    rw [hrest, hmod]
    simp only [hk, Nat.add_pos_left hk]

/-- Three digits at the end become a group. -/
theorem groupThousands_append {digits group : List Char} (hdigits : digits ≠ [])
    (hgroup : group.length = 3) :
    groupThousands (digits ++ group) = groupThousands digits ++ ',' :: group := by
  obtain ⟨a, b, c, rfl⟩ := List.length_eq_three.1 hgroup
  obtain ⟨d, rest, hreverse⟩ := List.exists_cons_of_ne_nil (List.reverse_ne_nil_iff.2 hdigits)
  have hgo := groupThousands_go_add_three Nat.one_pos rest
  unfold groupThousands
  rw [List.reverse_append, hreverse]
  simp [groupThousands.go, hgo]

theorem groupThousands_short {digits : List Char} (h : digits.length ≤ 3) :
    groupThousands digits = digits := by
  match digits, h with
  | [], _ => rfl
  | [_], _ => rfl
  | [_, _], _ => rfl
  | [_, _, _], _ => rfl

end Numeral

namespace Format

theorem groupedDigits_groupThousands {digits : List Char} (h : digits ≠ []) :
    GroupedDigits digits (groupThousands digits) := by
  induction hlength : digits.length using Nat.strong_induction_on generalizing digits with
  | _ length ih =>
    by_cases hshort : digits.length ≤ 3
    · rw [groupThousands_short hshort]
      exact .short h hshort
    · obtain ⟨front, group, rfl, hfront, hgroup⟩ : ∃ front group, digits = front ++ group ∧
          front ≠ [] ∧ group.length = 3 := by
        refine ⟨digits.take (digits.length - 3), digits.drop (digits.length - 3),
          (List.take_append_drop _ _).symm, ?_, ?_⟩
        · rw [← List.length_pos_iff, List.length_take]
          omega
        · rw [List.length_drop]
          omega
      rw [groupThousands_append hfront hgroup]
      rw [List.length_append] at hlength
      exact .group (ih front.length (by omega) hfront rfl) hgroup

theorem filter_digits {digits : List Char} (h : ∀ c ∈ digits, isAsciiDigit c = true) :
    digits.filter (· != ',') = digits := by
  refine List.filter_eq_self.2 fun c hc => ?_
  have hne : c ≠ ',' := ne_of_kind (h c hc) (by decide)
  exact bne_iff_ne.2 hne

theorem GroupedDigits.filter_eq {digits text : List Char} (h : GroupedDigits digits text)
    (hdigits : ∀ c ∈ digits, isAsciiDigit c = true) : text.filter (· != ',') = digits := by
  induction h with
  | short _ _ => exact filter_digits hdigits
  | group _ _ ih =>
    rw [List.forall_mem_append] at hdigits
    rw [List.filter_append, ih hdigits.1, List.filter_cons_of_neg (by decide),
      filter_digits hdigits.2]

/-- Without its commas a grouped text is the text of the whole number. -/
theorem Grouped.filter_eq {s t : String} (h : Grouped s t) :
    t.toList.filter (· != ',') = s.toList := by
  cases h with
  | unsigned hdigits h =>
    rw [String.toList_ofList, String.toList_ofList, h.filter_eq hdigits]
  | signed hdigits h =>
    rw [String.toList_ofList, String.toList_ofList, List.filter_cons_of_pos (by decide),
      h.filter_eq hdigits]

theorem Grouped.unique {s s' t : String} (h : Grouped s t) (h' : Grouped s' t) : s = s' :=
  String.toList_inj.1 (h.filter_eq.symm.trans h'.filter_eq)

end Format

/-! ## The text of a whole number -/

/-- The digits of a whole number behind its sign. -/
def signedDigits (n : Int) (digits : List Char) : String :=
  String.ofList (if n < 0 then '-' :: digits else digits)

theorem display_int_eq {n : Int} (h : (digitsOf n.natAbs).length ≤ maxDigits) :
    (Value.int n).display = .ok (signedDigits n (digitsOf n.natAbs)) := by
  show integerText n = _
  unfold integerText integerText?
  dsimp only
  rw [if_pos h]
  rfl

theorem signedDigits_congr {k n : Int} (h : k < 0 ↔ n < 0) (digits : List Char) :
    signedDigits k digits = signedDigits n digits := by
  unfold signedDigits
  rw [if_congr h rfl rfl]

theorem grouped_signedDigits (n : Int) (k : Nat) : Format.Grouped (signedDigits n (digitsOf k))
    (signedDigits n (groupThousands (digitsOf k))) := by
  have hdigits : ∀ c ∈ digitsOf k, isAsciiDigit c = true := fun _ => isAsciiDigit_of_mem_digitsOf
  have hgrouped := Format.groupedDigits_groupThousands (digitsOf_ne_nil k)
  unfold signedDigits
  split
  · exact .signed hdigits hgrouped
  · exact .unsigned hdigits hgrouped

/-- Digits and a sign tell which whole number they belong to. -/
theorem eq_of_signedDigits {n : Int} {j k : Nat}
    (h : signedDigits n (digitsOf j) = signedDigits n (digitsOf k)) : j = k := by
  have hchars := String.ofList_inj.1 h
  have hdigits : digitsOf j = digitsOf k := by
    split at hchars
    · exact (List.cons.inj hchars).2
    · exact hchars
  rw [← digitsValue_digitsOf j, hdigits, digitsValue_digitsOf]

namespace Format

/-! ## Whole numbers in digit places -/

theorem fixed_whole {x : Float} {m k : Nat} {e : Int} (hdecode : decode x = .finite false m e)
    (hvalue : dyadic m e = k) (grouped : Bool) : (fixed x 0 grouped).toList =
      if grouped then groupThousands (digitsOf k) else digitsOf k := by
  have hpad : padZeros 1 (digitsOf k) = digitsOf k := by
    have hlength := List.length_pos_iff.2 (digitsOf_ne_nil k)
    have hzero : 1 - (digitsOf k).length = 0 := by omega
    unfold padZeros
    rw [hzero]
    rfl
  have hscaled : scaledDigits m e ((0 : Nat) : Int) = k := scaledDigits_of_dyadic hvalue
  unfold fixed
  rw [hdecode]
  dsimp only
  rw [hscaled]
  unfold placesText
  rw [Nat.zero_add, hpad]
  simp

/-- Places without a point show a whole number as the double to which it is rounded. -/
theorem display_int_places {p : List Char} (hp : IsPlaces p) (hpoint : '.' ∉ p) (n : Int) :
    display (.int n) (some (String.ofList p)) = (match ofInt? n.natAbs with
      | some x => .ok ⟨signedDigits n (fixed x 0 (p.contains ',')).toList, none⟩
      | none => .error .tooLarge) := by
  have hnone : ∀ c ∈ p, (c != '.') = true := by
    intro c hc
    refine bne_iff_ne.2 ?_
    rintro rfl
    exact hpoint hc
  have hwhole : p.takeWhile (· != '.') = p := List.takeWhile_eq_self_iff.2 hnone
  have hplaces : (p.dropWhile (· != '.')).drop 1 = [] := by
    rw [List.dropWhile_eq_nil_iff.2 hnone]
    rfl
  have hdisplay := hp.display_signed (.int n)
  rw [Number.isNegative_int] at hdisplay
  refine hdisplay.trans ?_
  unfold fillPattern
  rw [hwhole, hplaces]
  unfold Number.abs Number.toFloat signedDigits
  dsimp only
  cases ofInt? n.natAbs with
  | none => rfl
  | some x => simp; rfl

theorem isPlaces_zero : IsPlaces ['0'] ∧ '.' ∉ ['0'] :=
  ⟨.whole (by decide) nofun, by decide⟩

theorem isPlaces_grouped : IsPlaces ['#', ',', '#', '#', '0'] ∧ '.' ∉ ['#', ',', '#', '#', '0'] :=
  ⟨.whole (by decide) (forall_mem_of_all (by decide)), by decide⟩

/-- Within the range of doubles a whole number is shown with the digits of the nearest double, and with
its own sign. -/
theorem exists_shown {n : Int} (hn : n.natAbs < doubleLimit) : ∃ k : Int, IsNearestDouble n k ∧
    display (.int n) (some "0") = .ok ⟨signedDigits n (digitsOf k.natAbs), none⟩ ∧
    display (.int n) (some "#,##0") =
      .ok ⟨signedDigits n (groupThousands (digitsOf k.natAbs)), none⟩ := by
  obtain ⟨x, m, e, k, hx, hdecode, hvalue, hnearest⟩ := exists_nearest_int hn
  have hfixed := fixed_whole hdecode hvalue
  have hplain := display_int_places isPlaces_zero.1 isPlaces_zero.2 n
  have hgrouped := display_int_places isPlaces_grouped.1 isPlaces_grouped.2 n
  rw [hx] at hplain hgrouped
  dsimp only at hplain hgrouped
  rw [hfixed] at hplain hgrouped
  exact ⟨k, hnearest, hplain, hgrouped⟩

theorem display_int_beyond {n : Int} (hn : doubleLimit ≤ n.natAbs) :
    display (.int n) (some "0") = .error .tooLarge ∧
      display (.int n) (some "#,##0") = .error .tooLarge := by
  have hplain := display_int_places isPlaces_zero.1 isPlaces_zero.2 n
  have hgrouped := display_int_places isPlaces_grouped.1 isPlaces_grouped.2 n
  have hnone : ofInt? n.natAbs = none := by
    rwa [ofInt?_eq_none_iff, Int.natAbs_natCast]
  rw [hnone] at hplain hgrouped
  exact ⟨hplain, hgrouped⟩

theorem natAbs_lt_of_isDouble {n : Int} (h : IsDouble n) : n.natAbs < doubleLimit := by
  have hlt := h.abs_lt
  rw [← Int.cast_abs, Int.abs_eq_natAbs, Int.cast_natCast] at hlt
  exact_mod_cast hlt

/-- **Whole numbers under a format.** The formats `0` and `#,##0` show a whole number with its own digits
exactly if it is a double. Within the range of doubles they show the digits of the nearest one, beyond
it they refuse the number. -/
theorem display_whole_number (n : Int) :
    ((∃ s, (Value.int n).display = .ok s ∧ display (.int n) (some "0") = .ok ⟨s, none⟩) ↔
      IsDouble n) ∧
    ((∃ s t, (Value.int n).display = .ok s ∧ Grouped s t ∧
      display (.int n) (some "#,##0") = .ok ⟨t, none⟩) ↔ IsDouble n) ∧
    (n.natAbs < doubleLimit → ∃ k : Int, IsNearestDouble n k ∧ ∃ s t,
      (Value.int k).display = .ok s ∧ Grouped s t ∧ display (.int n) (some "0") = .ok ⟨s, none⟩ ∧
      display (.int n) (some "#,##0") = .ok ⟨t, none⟩) ∧
    (doubleLimit ≤ n.natAbs → display (.int n) (some "0") = .error .tooLarge ∧
      display (.int n) (some "#,##0") = .error .tooLarge) := by
  obtain hn | hn := lt_or_ge n.natAbs doubleLimit
  · obtain ⟨k, hnearest, hplain, hgrouped⟩ := exists_shown hn
    have hown := display_int_eq (length_digitsOf_le hn)
    have hshown := display_int_eq (length_digitsOf_le (natAbs_lt_of_isDouble hnearest.isDouble))
    rw [signedDigits_congr hnearest.neg_iff] at hshown
    have hgroups := grouped_signedDigits n k.natAbs
    have heq : signedDigits n (digitsOf n.natAbs) = signedDigits n (digitsOf k.natAbs) →
        IsDouble n := by
      intro h
      have habs := eq_of_signedDigits h
      have hsign := hnearest.neg_iff
      exact hnearest.isDouble_iff.2 (by omega)
    refine ⟨⟨?_, fun h => ?_⟩, ⟨?_, fun h => ?_⟩, fun _ => ?_, fun h => absurd hn h.not_gt⟩
    · rintro ⟨s, hs, hdisplay⟩
      cases hown.symm.trans hs
      exact heq (congrArg Shown.text (Except.ok.inj (hdisplay.symm.trans hplain)))
    · obtain rfl := hnearest.isDouble_iff.1 h
      exact ⟨_, hown, hplain⟩
    · rintro ⟨s, t, hs, ht, hdisplay⟩
      cases hown.symm.trans hs
      cases hdisplay.symm.trans hgrouped
      exact heq (ht.unique hgroups)
    · obtain rfl := hnearest.isDouble_iff.1 h
      exact ⟨_, _, hown, hgroups, hgrouped⟩
    · exact ⟨k, hnearest, _, _, hshown, hgroups, hplain, hgrouped⟩
  · obtain ⟨hplain, hgrouped⟩ := display_int_beyond hn
    have hdouble : ¬ IsDouble n := fun h => (natAbs_lt_of_isDouble h).not_ge hn
    refine ⟨iff_of_false ?_ hdouble, iff_of_false ?_ hdouble, fun h => absurd hn h.not_ge,
      fun _ => ⟨hplain, hgrouped⟩⟩
    · rintro ⟨s, -, hdisplay⟩
      cases hplain.symm.trans hdisplay
    · rintro ⟨s, t, -, -, hdisplay⟩
      cases hgrouped.symm.trans hdisplay

/-- The least natural number that is no double is shown with the digits of the one before it. -/
theorem afterPowerOfTwo_shown : (Value.int 9007199254740993).display = .ok "9007199254740993" ∧
    Grouped "9007199254740993" "9,007,199,254,740,993" ∧
    display (.int 9007199254740993) (some "0") = .ok ⟨"9007199254740992", none⟩ ∧
    display (.int 9007199254740993) (some "#,##0") = .ok ⟨"9,007,199,254,740,992", none⟩ := by
  refine ⟨rfl, grouped_signedDigits 9007199254740993 9007199254740993, ?_, ?_⟩
  · decide +kernel
  · decide +kernel

end Format

end Spreadsheet
