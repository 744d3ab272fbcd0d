import Mathlib.Data.List.Induction
import Spreadsheet.Files
import Spreadsheet.Text.Parts

/-!
# Paths and the files that they lead to

The parts of a joined path are the parts that were joined (`pathParts_joinParts`), so the path by
which a file is known determines its parts. Reduced parts stay as they are when they are reduced once
more (`reduced_reduced`). With that, what is put under a path is found under every path that leads to
the same file and changes no other file (`text?_put`).
-/

namespace Spreadsheet.Files

/-! ## Parts -/

/-- A part of a path that counts. -/
structure Counts (part : String) : Prop where
  ne_empty : part ≠ ""
  ne_dot : part ≠ "."
  noSlash : '/' ∉ part.toList

theorem splitSlashes_eq (cs : List Char) : splitSlashes cs = cs.splitOn '/' := by
  refine Text.eq_splitOn rfl (fun c rest part parts h => ?_) cs
  rw [splitSlashes, h]

theorem counts_of_mem_pathParts {path part : String} (h : part ∈ pathParts path) :
    Counts part := by
  obtain ⟨hmem, hcounts⟩ := List.mem_filter.1 h
  obtain ⟨cs, hcs, rfl⟩ := List.mem_map.1 hmem
  rw [Bool.and_eq_true, bne_iff_ne, bne_iff_ne] at hcounts
  rw [splitSlashes_eq] at hcs
  exact ⟨hcounts.1, hcounts.2, by
    rw [String.toList_ofList]
    exact Text.not_mem_of_mem_splitOn hcs⟩

theorem pathParts_append (a b : String) :
    pathParts (a ++ "/" ++ b) = pathParts a ++ pathParts b := by
  have hsplit : (a ++ "/" ++ b).toList = a.toList ++ '/' :: b.toList := by simp
  unfold pathParts
  rw [splitSlashes_eq, hsplit, List.splitOn_append_cons_self, List.map_append, List.filter_append,
    splitSlashes_eq, splitSlashes_eq]

theorem Counts.pathParts_eq {part : String} (h : Counts part) : pathParts part = [part] := by
  unfold pathParts
  rw [splitSlashes_eq, List.splitOn_eq_singleton h.noSlash, List.map_singleton, String.ofList_toList]
  simp [h.ne_empty, h.ne_dot]

theorem Counts.exists_cons {part : String} (h : Counts part) :
    ∃ c rest, part.toList = c :: rest ∧ c ≠ '/' := by
  obtain ⟨c, rest, hpart⟩ := List.exists_cons_of_ne_nil
    fun hnil => h.ne_empty (String.toList_eq_nil_iff.1 hnil)
  refine ⟨c, rest, hpart, fun hc => h.noSlash ?_⟩
  rw [hpart, hc]
  exact List.mem_cons_self

/-! ## Joining -/

theorem pathParts_intercalate {parts : List String} (h : ∀ part ∈ parts, Counts part) :
    pathParts ("/".intercalate parts) = parts := by
  induction parts with
  | nil => rfl
  | cons a rest ih =>
    rw [List.forall_mem_cons] at h
    cases rest with
    | nil => exact h.1.pathParts_eq
    | cons b rest =>
      rw [String.intercalate_cons_cons, pathParts_append, ih h.2, h.1.pathParts_eq]
      rfl

theorem pathParts_joinParts (fromRoot : Bool) {parts : List String}
    (h : ∀ part ∈ parts, Counts part) : pathParts (joinParts fromRoot parts) = parts := by
  unfold joinParts
  split
  · have hroot := pathParts_append "" ("/".intercalate parts)
    rw [String.empty_append, pathParts_intercalate h] at hroot
    exact hroot
  · split
    · next hempty => rw [List.isEmpty_iff.1 hempty]; rfl
    · exact pathParts_intercalate h

theorem isFromRoot_append {a : String} (ha : a ≠ "") (b : String) :
    isFromRoot (a ++ b) = isFromRoot a := by
  obtain ⟨c, rest, hc⟩ := List.exists_cons_of_ne_nil
    fun hnil => ha (String.toList_eq_nil_iff.1 hnil)
  unfold isFromRoot
  rw [String.toList_append, hc]
  rfl

theorem Counts.isFromRoot_eq {part : String} (h : Counts part) : isFromRoot part = false := by
  obtain ⟨c, rest, hpart, hc⟩ := h.exists_cons
  unfold isFromRoot
  rw [hpart]
  simpa using hc

theorem isFromRoot_joinParts (fromRoot : Bool) {parts : List String}
    (h : ∀ part ∈ parts, Counts part) : isFromRoot (joinParts fromRoot parts) = fromRoot := by
  cases fromRoot with
  | true => exact isFromRoot_append (by decide) _
  | false =>
    match parts with
    | [] => rfl
    | [a] => exact (h a List.mem_cons_self).isFromRoot_eq
    | a :: b :: rest =>
      have ha := h a List.mem_cons_self
      change isFromRoot ("/".intercalate (a :: b :: rest)) = false
      rw [String.intercalate_cons_cons, String.append_assoc, isFromRoot_append ha.ne_empty,
        ha.isFromRoot_eq]

/-- Joined paths are equal only if they are joined from the same parts. -/
theorem joinParts_inj {r r' : Bool} {parts parts' : List String} (h : ∀ part ∈ parts, Counts part)
    (h' : ∀ part ∈ parts', Counts part) (heq : joinParts r parts = joinParts r' parts') :
    r = r' ∧ parts = parts' := by
  constructor
  · rw [← isFromRoot_joinParts r h, heq, isFromRoot_joinParts r' h']
  · rw [← pathParts_joinParts r h, heq, pathParts_joinParts r' h']

/-! ## Reducing -/

/-- Takes one part more: two dots take back the part before them, if there is one. -/
def takePart (fromRoot : Bool) (done : List String) (part : String) : List String :=
  if part != ".." || (done.getLastD "..") == ".." && !fromRoot then done ++ [part]
  else done.dropLast

/-- The parts that are left when each two dots take back a part. -/
def reduced (fromRoot : Bool) (parts : List String) : List String :=
  parts.foldl (takePart fromRoot) []

theorem resolveParts_eq (path : String) :
    resolveParts path = reduced (isFromRoot path) (pathParts path) := rfl

section

variable {fromRoot : Bool} {parts : List String} {part : String}

theorem reduced_concat (fromRoot : Bool) (parts : List String) (part : String) :
    reduced fromRoot (parts ++ [part]) = takePart fromRoot (reduced fromRoot parts) part :=
  List.foldl_append

theorem takePart_cases (fromRoot : Bool) (done : List String) (part : String) :
    takePart fromRoot done part = done ++ [part] ∨ takePart fromRoot done part = done.dropLast := by
  unfold takePart
  split
  · exact .inl rfl
  · exact .inr rfl

theorem takePart_of_ne (h : part ≠ "..") (done : List String) :
    takePart fromRoot done part = done ++ [part] := by
  unfold takePart
  rw [if_pos]
  rw [bne_iff_ne.2 h]
  rfl

theorem length_reduced_le (fromRoot : Bool) (parts : List String) :
    (reduced fromRoot parts).length ≤ parts.length := by
  induction parts using List.reverseRecOn with
  | nil => exact Nat.le_refl 0
  | append_singleton rest part ih =>
    rw [reduced_concat, List.length_append]
    rcases takePart_cases fromRoot (reduced fromRoot rest) part with h | h <;> rw [h]
    · simpa using ih
    · rw [List.length_dropLast]
      omega

theorem mem_of_mem_reduced (h : part ∈ reduced fromRoot parts) : part ∈ parts := by
  induction parts using List.reverseRecOn with
  | nil => exact h
  | append_singleton rest last ih =>
    rw [reduced_concat] at h
    rw [List.mem_append]
    rcases takePart_cases fromRoot (reduced fromRoot rest) last with htake | htake <;>
      rw [htake] at h
    · exact (List.mem_append.1 h).imp_left ih
    · exact .inl (ih ((List.dropLast_sublist _).subset h))

/-- The parts before the last one are reduced where all of them are: else the last one would have
been taken back, and there would be fewer. -/
theorem reduced_of_reduced_concat (h : reduced fromRoot (parts ++ [part]) = parts ++ [part]) :
    reduced fromRoot parts = parts := by
  rw [reduced_concat] at h
  rcases takePart_cases fromRoot (reduced fromRoot parts) part with htake | htake
  · exact List.append_cancel_right (htake.symm.trans h)
  · have hlength := congrArg List.length (htake.symm.trans h)
    have hle := length_reduced_le fromRoot parts
    rw [List.length_dropLast, List.length_append, List.length_singleton] at hlength
    omega

/-- Reduced parts are reduced to themselves. -/
theorem reduced_reduced (fromRoot : Bool) (parts : List String) :
    reduced fromRoot (reduced fromRoot parts) = reduced fromRoot parts := by
  induction parts using List.reverseRecOn with
  | nil => rfl
  | append_singleton rest part ih =>
    rw [reduced_concat]
    have htake := takePart_cases fromRoot (reduced fromRoot rest) part
    generalize reduced fromRoot rest = done at ih htake ⊢
    rcases htake with htake | htake
    · calc reduced fromRoot (takePart fromRoot done part)
          = takePart fromRoot (reduced fromRoot done) part := by rw [htake, reduced_concat]
        _ = takePart fromRoot done part := by rw [ih]
    · rw [htake]
      cases done using List.reverseRecOn with
      | nil => rfl
      | append_singleton front last =>
        rw [List.dropLast_concat]
        exact reduced_of_reduced_concat ih

end

/-! ## The paths by which files are known -/

theorem counts_of_mem_resolveParts {path part : String} (h : part ∈ resolveParts path) :
    Counts part :=
  counts_of_mem_pathParts (mem_of_mem_reduced h)

theorem key_eq_iff (a b : String) :
    key a = key b ↔ isFromRoot a = isFromRoot b ∧ resolveParts a = resolveParts b := by
  constructor
  · exact joinParts_inj (fun _ => counts_of_mem_resolveParts) fun _ => counts_of_mem_resolveParts
  · rintro ⟨hroot, hparts⟩
    unfold key
    rw [hroot, hparts]

/-- The path by which a file is known leads to that file. -/
theorem key_key (path : String) : key (key path) = key path := by
  have hroot : isFromRoot (key path) = isFromRoot path :=
    isFromRoot_joinParts _ fun _ => counts_of_mem_resolveParts
  have hparts : pathParts (key path) = resolveParts path :=
    pathParts_joinParts _ fun _ => counts_of_mem_resolveParts
  rw [key_eq_iff, resolveParts_eq (key path), hroot, hparts, resolveParts_eq, reduced_reduced]
  exact ⟨rfl, rfl⟩

theorem key_tidy (path : String) : key (tidy path) = key path := by
  have hroot : isFromRoot (tidy path) = isFromRoot path :=
    isFromRoot_joinParts _ fun _ => counts_of_mem_pathParts
  have hparts : pathParts (tidy path) = pathParts path :=
    pathParts_joinParts _ fun _ => counts_of_mem_pathParts
  rw [key_eq_iff, resolveParts_eq, resolveParts_eq, hroot, hparts]
  exact ⟨rfl, rfl⟩

section

variable {name : String} (hname : Counts name) (hdots : name ≠ "..")

include hname hdots

/-- A file in a directory is known by the directory and its name. -/
theorem key_join (directory : String) : key (join directory name) =
    joinParts (isFromRoot directory) (resolveParts directory ++ [name]) := by
  have hconcat : ∀ parts, reduced (isFromRoot directory) (parts ++ [name]) =
      reduced (isFromRoot directory) parts ++ [name] := fun parts => by
    rw [reduced_concat, takePart_of_ne hdots]
  have hjoin : ∃ path, join directory name = tidy path ∧
      isFromRoot path = isFromRoot directory ∧ pathParts path = pathParts directory ++ [name] := by
    unfold join
    split
    · next h =>
      rw [hname.isFromRoot_eq] at h
      rw [h.resolve_right Bool.false_ne_true]
      exact ⟨name, rfl, hname.isFromRoot_eq, hname.pathParts_eq⟩
    · next h =>
      refine ⟨_, rfl, ?_, ?_⟩
      · rw [String.append_assoc, isFromRoot_append (not_or.1 h).1]
      · rw [pathParts_append, hname.pathParts_eq]
  obtain ⟨path, hpath, hroot, hparts⟩ := hjoin
  rw [hpath, key_tidy, key, resolveParts_eq, hroot, hparts, hconcat]
  rfl

/-- Files of one name are the same exactly if their directories are. -/
theorem key_join_eq_iff (a b : String) : key (join a name) = key (join b name) ↔ key a = key b := by
  have hcounts : ∀ directory, ∀ part ∈ resolveParts directory ++ [name], Counts part := by
    intro directory part hpart
    rcases List.mem_append.1 hpart with hpart | hpart
    · exact counts_of_mem_resolveParts hpart
    · rw [List.mem_singleton.1 hpart]
      exact hname
  rw [key_join hname hdots, key_join hname hdots, key_eq_iff]
  constructor
  · intro h
    exact (joinParts_inj (hcounts a) (hcounts b) h).imp_right List.append_cancel_right
  · rintro ⟨hroot, hparts⟩
    rw [hroot, hparts]

end

/-! ## Texts of files -/

section

variable {fs fs' : Files} {path text : String}

/-- What is put under a path is found there, and no other file changes. -/
theorem text?_put (fs : Files) (path text other : String) : (fs.put path text).text? other =
    if key other = key path then some text else fs.text? other := by
  have hfile : fs.isFile (key path) = (fs.text? path).isSome := by
    unfold isFile text?
    rw [key_key]
  unfold put
  dsimp only
  rw [hfile]
  unfold text?
  split
  · next hsome =>
    have hkeys : (fun f : String × String => (if f.1 == key path then (key path, text) else f).1 ==
        key other) = fun f => f.1 == key other := by
      funext f
      split
      · next hf => rw [beq_iff_eq.1 hf]
      · rfl
    dsimp only
    rw [List.find?_map, Function.comp_def, hkeys]
    cases hfound : fs.texts.find? fun f => f.1 == key other with
    | none =>
      rw [if_neg]
      · rfl
      · intro hother
        rw [← hother, hfound] at hsome
        cases hsome
    | some f =>
      have hf : f.1 = key other := by simpa using List.find?_some hfound
      simp only [Option.map_some, hf, beq_iff_eq]
      split <;> rfl
  · next hnone =>
    rw [Option.not_isSome_iff_eq_none, Option.map_eq_none_iff] at hnone
    dsimp only
    rw [List.find?_append]
    by_cases hother : key other = key path
    · rw [hother, hnone, if_pos rfl]
      simp
    · rw [if_neg hother, List.find?_cons_of_neg (by simpa using Ne.symm hother), List.find?_nil,
        Option.or_none]

/-- Appending puts a text behind the one that a file has. -/
theorem text?_append (h : fs.append path text = .ok fs') (other : String) : fs'.text? other =
    if key other = key path then some ((fs.text? path).getD "" ++ text) else fs.text? other := by
  unfold append write at h
  split at h
  · cases h
  · split at h
    · cases h
    · split at h
      · cases h
      · rw [← Except.ok.inj h, text?_put]

/-- Making directories changes no file. -/
theorem text?_makeDirectories (h : fs.makeDirectories path = .ok fs') (other : String) :
    fs'.text? other = fs.text? other := by
  unfold makeDirectories at h
  split at h
  · cases h
  · split at h
    · cases h
    · rw [← Except.ok.inj h]
      rfl

/-- A file that exists in a directory and is none itself. -/
structure Writable (fs : Files) (path : String) : Prop where
  file : fs.isFile path = true
  notDirectory : fs.isDirectory path = false
  parentNotFile : fs.isFile (parent path) = false
  parentDirectory : fs.isDirectory (parent path) = true

theorem write_eq (hpath : fs.isDirectory path = false) (hfile : fs.isFile (parent path) = false)
    (hparent : fs.isDirectory (parent path) = true) (text : String) :
    fs.write path text = .ok (fs.put path text) := by
  unfold write
  rw [hpath, hfile, hparent]
  rfl

theorem isFile_congr (h : fs'.texts.map Prod.fst = fs.texts.map Prod.fst) (path : String) :
    fs'.isFile path = fs.isFile path := by
  have hany : ∀ fs : Files, fs.isFile path = (fs.texts.map Prod.fst).any (· == key path) := by
    intro fs
    unfold isFile text?
    rw [Option.isSome_map, List.any_map, Bool.eq_iff_iff, List.find?_isSome, List.any_eq_true]
    rfl
  rw [hany, hany, h]

theorem isDirectory_congr (h : fs'.texts.map Prod.fst = fs.texts.map Prod.fst)
    (hdirectories : fs'.directories = fs.directories) (path : String) :
    fs'.isDirectory path = fs.isDirectory path := by
  have hany : ∀ fs : Files, (fs.texts.any fun f => (key path ++ "/").toList.isPrefixOf f.1.toList) =
      (fs.texts.map Prod.fst).any fun k => (key path ++ "/").toList.isPrefixOf k.toList := by
    intro fs
    rw [List.any_map]
    rfl
  unfold isDirectory
  dsimp only
  rw [hany, hany, h, hdirectories]

/-- A file that can be written can be written again. -/
theorem Writable.append (h : fs.Writable path) (text : String) :
    ∃ fs', fs.append path text = .ok fs' ∧ fs'.Writable path := by
  refine ⟨_, write_eq h.notDirectory h.parentNotFile h.parentDirectory _, ?_⟩
  generalize (fs.text? path).getD "" ++ text = new
  have hfile : fs.isFile (key path) = true := by
    have hsame : fs.isFile (key path) = fs.isFile path := by
      unfold isFile text?
      rw [key_key]
    rw [hsame, h.file]
  have hkeys : (fs.put path new).texts.map Prod.fst = fs.texts.map Prod.fst := by
    unfold put
    rw [if_pos hfile, List.map_map]
    refine List.map_congr_left fun f _ => ?_
    simp only [Function.comp_apply]
    split
    · next hf => exact (beq_iff_eq.1 hf).symm
    · rfl
  have hdirectories : (fs.put path new).directories = fs.directories := by
    unfold put
    dsimp only
    split <;> rfl
  have hisFile := isFile_congr hkeys
  have hisDirectory := isDirectory_congr hkeys hdirectories
  exact ⟨by rw [hisFile, h.file], by rw [hisDirectory, h.notDirectory],
    by rw [hisFile, h.parentNotFile], by rw [hisDirectory, h.parentDirectory]⟩

end

end Spreadsheet.Files
