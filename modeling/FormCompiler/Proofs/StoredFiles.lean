import FormCompiler.FileTree
import FormCompiler.Proofs.WalkOutcome

/-!
# FormCompiler.Proofs.StoredFiles

A file that was written is read back under the same path
(`FileTree.read_of_write`).  The course of a path to a place for a file is a
derivation (`FileTree.Leads`), which stays one in the changed tree: what was
a directory on the way is not what was written, because it is neither a file
nor vacant.
-/

namespace FormCompiler

/-- The names under which a file can be written at a place. -/
def Place.target? : Place → Option (List String)
  | .file names _ => some names
  | .vacant names => some names
  | .directory | .slashed _ => none

namespace FileTree

/-! ## the course of a path -/

/-- Does a name stand for an entry of the directory? -/
structure IsPlain (name : String) : Prop where
  busy : isIdle name = false
  down : name ≠ ".."
  short : ¬ nameLimit < name.utf8ByteSize

/-- Followed from a directory, names lead to a place for a file. -/
inductive Leads (tree : FileTree) : List String → List String → List String → Prop
  | idle {directory name rest names} (idle : isIdle name = true)
      (beyond : Leads tree directory rest names) : Leads tree directory (name :: rest) names
  | up {directory rest names} (inside : directory.isEmpty = false)
      (beyond : Leads tree directory.dropLast rest names) :
      Leads tree directory (".." :: rest) names
  | down {directory name rest names} (plain : IsPlain name)
      (noFile : tree.file? (directory ++ [name]) = none)
      (isDirectory : tree.isDirectory (directory ++ [name]) = true)
      (beyond : Leads tree (directory ++ [name]) rest names) :
      Leads tree directory (name :: rest) names
  | here {directory name} (plain : IsPlain name)
      (free : (tree.file? (directory ++ [name])).isSome = true ∨
        tree.isDirectory (directory ++ [name]) = false) :
      Leads tree directory [name] (directory ++ [name])

variable {tree written : FileTree} {directory names rest : List String} {bytes : ByteArray}
  {place : Place} {path : String}

/-- A path that comes to a halt leads to no file. -/
theorem target?_of_halt {fault : FileFault} (h : halt fault rest = .ok place) :
    place.target? = none := by
  unfold halt at h
  split at h
  · obtain rfl := Except.ok.inj h
    rfl
  · contradiction

/-- A path that leaves the tree leads to no file in it. -/
theorem target?_of_followOutside (h : followOutside rest = .ok place) : place.target? = none := by
  induction rest with
  | nil =>
      rw [followOutside] at h
      obtain rfl := Except.ok.inj h
      rfl
  | cons name rest ih =>
      rw [followOutside] at h
      split at h
      · exact ih h
      · exact target?_of_halt h

/-- Every place for a file is reached by such a course. -/
theorem leads_of_follow (h : tree.follow directory rest = .ok place)
    (hplace : place.target? = some names) : tree.Leads directory rest names := by
  induction rest generalizing directory with
  | nil =>
      rw [follow] at h
      obtain rfl := Except.ok.inj h
      contradiction
  | cons name rest ih =>
      -- What comes to a halt here leads to no file.
      have houtside : ∀ fault, halt fault rest ≠ .ok place := fun fault hhalt => by
        rw [target?_of_halt hhalt] at hplace
        contradiction
      rw [follow] at h
      split at h
      · next hidle => exact .idle hidle (ih h)
      · next hidle =>
          split at h
          · next hup =>
              subst hup
              split at h
              · rw [target?_of_followOutside h] at hplace
                contradiction
              · next hinside => exact .up (Bool.eq_false_iff.mpr hinside) (ih h)
          · next hdown =>
              split at h
              · exact absurd h (houtside _)
              · next hshort =>
                  have plain : IsPlain name := ⟨Bool.eq_false_iff.mpr hidle, hdown, hshort⟩
                  dsimp only at h
                  split at h
                  · next found hfile =>
                      split at h
                      · next hlast =>
                          obtain rfl := Except.ok.inj h
                          obtain rfl := Option.some.inj hplace
                          obtain rfl := List.isEmpty_iff.mp hlast
                          exact .here plain (.inl (by rw [hfile]; rfl))
                      · exact absurd h (houtside _)
                  · next hfile =>
                      split at h
                      · next hdirectory => exact .down plain hfile hdirectory (ih h)
                      · next hdirectory =>
                          split at h
                          · next hlast =>
                              obtain rfl := Except.ok.inj h
                              obtain rfl := Option.some.inj hplace
                              obtain rfl := List.isEmpty_iff.mp hlast
                              exact .here plain (.inr (Bool.eq_false_iff.mpr hdirectory))
                          · exact absurd h (houtside _)

/-- The course to a file ends there. -/
theorem Leads.follow_eq (h : tree.Leads directory rest names)
    (hfile : tree.file? names = some bytes) :
    tree.follow directory rest = .ok (.file names bytes) := by
  induction h with
  | idle idle _ ih => rw [follow, if_pos idle, ih hfile]
  | up inside _ ih =>
      rw [follow, if_neg (by decide), if_pos rfl, if_neg (by simp [inside]), ih hfile]
  | down plain noFile isDirectory _ ih =>
      rw [follow, if_neg (by simp [plain.busy]), if_neg plain.down, if_neg plain.short]
      simp only [noFile, isDirectory, if_true, ih hfile]
  | here plain free =>
      rw [follow, if_neg (by simp [plain.busy]), if_neg plain.down, if_neg plain.short]
      simp only [hfile, List.isEmpty_nil, if_true]

/-- A place for a file is a file or no directory. -/
theorem Leads.free (h : tree.Leads directory rest names) :
    (tree.file? names).isSome = true ∨ tree.isDirectory names = false := by
  induction h with
  | idle _ _ ih => exact ih
  | up _ _ ih => exact ih
  | down _ _ _ _ ih => exact ih
  | here _ free => exact free

/-! ## files that are put -/

theorem file?_put_self : (tree.put names bytes).file? names = some bytes := by
  simp [file?, put]

theorem file?_put_of_ne {other : List String} (hne : other ≠ names) :
    (tree.put names bytes).file? other = tree.file? other := by
  have hrest : ∀ files : List (List String × ByteArray),
      (files.filter (·.1 ≠ names)).lookup other = files.lookup other := by
    intro files
    induction files with
    | nil => rfl
    | cons file files ih =>
        rw [List.filter_cons]
        split
        · rw [List.lookup_cons, List.lookup_cons, ih]
        · next heq =>
            have hnames : file.1 = names := by simpa using heq
            rw [ih, List.lookup_cons, hnames, beq_false_of_ne hne]
  rw [file?, put, List.lookup_cons, beq_false_of_ne hne, hrest, file?]

theorem isDirectory_put (h : tree.isDirectory directory = true) :
    (tree.put names bytes).isDirectory directory = true := by
  rw [isDirectory, Bool.or_eq_true, List.any_eq_true] at h ⊢
  refine h.imp_right fun ⟨file, hfile, hbelow⟩ => ?_
  by_cases hnames : file.1 = names
  · exact ⟨(names, bytes), List.mem_cons_self, hnames ▸ hbelow⟩
  · exact ⟨file, List.mem_cons_of_mem _ (List.mem_filter.mpr ⟨hfile, by simpa using hnames⟩),
      hbelow⟩

/-- The file that is put does not divert the path that leads to it. -/
theorem Leads.put (h : tree.Leads directory rest names) (bytes : ByteArray) :
    (tree.put names bytes).Leads directory rest names := by
  have hfree := h.free
  induction h with
  | idle idle _ ih => exact .idle idle (ih hfree)
  | up inside _ ih => exact .up inside (ih hfree)
  | @down directory name rest names plain noFile isDirectory _ ih =>
      have hne : directory ++ [name] ≠ names := by
        rintro rfl
        simp [noFile, isDirectory] at hfree
      exact .down plain (by rw [file?_put_of_ne hne, noFile]) (isDirectory_put isDirectory)
        (ih hfree)
  | here plain _ => exact .here plain (.inl (by rw [file?_put_self]; rfl))

theorem locate_put (h : tree.locate path = .ok place) (hplace : place.target? = some names) :
    (tree.put names bytes).locate path = .ok (.file names bytes) := by
  unfold locate at h ⊢
  split at h
  · contradiction
  · next hlimit =>
      rw [if_neg hlimit]
      split at h
      · rw [target?_of_followOutside h] at hplace
        contradiction
      · exact ((leads_of_follow h hplace).put bytes).follow_eq file?_put_self

/-- What was written is read. -/
theorem read_of_write (h : tree.write path bytes = .ok written) :
    written.read path = .ok bytes := by
  unfold write at h
  obtain ⟨place, hplace, h⟩ := except_bind_eq_ok.mp h
  have hread : ∀ names, place.target? = some names → written = tree.put names bytes →
      written.read path = .ok bytes := by
    rintro names htarget rfl
    rw [read, locate_put hplace htarget]
    rfl
  cases place with
  | file names _ => exact hread names rfl (Except.ok.inj h).symm
  | vacant names => exact hread names rfl (Except.ok.inj h).symm
  | directory => contradiction
  | slashed _ => contradiction

end FileTree

end FormCompiler
