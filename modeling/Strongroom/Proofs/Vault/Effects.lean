import Strongroom.Proofs.FileTree.Refusals
import Strongroom.Proofs.Vault.Changes
/-!
# What decides an effect on the tree

At a place that the host takes, what stands there and at its parent decides whether a file is written,
a directory is made or an entry is removed, and what is reported otherwise.
-/

namespace Strongroom.Files

open FileTree Strongroom.Path

variable {t : FileTree} {top parent : Location} {name : Name}

/-! ## Writing -/

/-- No file is written where there is no directory. -/
theorem write_apart (h : t.Rooted top) (hs : top <:+ parent) (hp : ∀ n ∈ name :: parent, IsPlain n)
    (hd : t.get? parent ≠ some .directory) (ha : Addressable (name :: parent)) (shown : String)
    (body : Bytes) :
    write t (pathTo (name :: parent)) shown body =
      (.error (.notFound s!"{shown}: parent directory"), t) := by
  have above : t.isDirectory (pathTo parent) = false := by
    rw [← Bool.not_eq_true,
      h.isDirectory_iff hs (fun n hn => hp n (List.mem_cons_of_mem _ hn)) ha.parent]
    exact hd
  rw [write, parent?_pathTo hp]
  simp only [above, if_true]

/-- No file is written over a directory. -/
theorem write_directory (h : t.Rooted top) (hs : top <:+ parent) (hp : ∀ n ∈ name :: parent, IsPlain n)
    (hd : t.get? (name :: parent) = some .directory) (ha : Addressable (name :: parent))
    (shown : String) (body : Bytes) :
    write t (pathTo (name :: parent)) shown body =
      (.error (.conflict s!"{shown}: is a directory"), t) := by
  have below : top <:+ name :: parent := hs.trans (List.suffix_cons ..)
  have above : t.isDirectory (pathTo parent) = true :=
    (h.isDirectory_iff hs (fun n hn => hp n (List.mem_cons_of_mem _ hn)) ha.parent).mpr
      (h.directory_above below hd (List.suffix_cons ..) (by simp))
  have here : t.isDirectory (pathTo (name :: parent)) = true := (h.isDirectory_iff below hp ha).mpr hd
  rw [write, parent?_pathTo hp]
  simp only [above, here, Bool.true_eq_false, if_false, if_true]

/-- A file is written into a directory that has room to stage it. -/
theorem write_eq (h : t.Rooted top) (hs : top <:+ parent) (hp : ∀ n ∈ name :: parent, IsPlain n)
    (hd : t.get? parent = some .directory) (hn : t.get? (name :: parent) ≠ some .directory)
    (ha : Addressable (name :: parent))
    (room : (pathTo (t.stagedIn parent)).text.utf8ByteSize ≤ maxPathBytes) (shown : String)
    (body : Bytes) :
    write t (pathTo (name :: parent)) shown body =
      (.ok (), t.insert (name :: parent) (.file body)) := by
  have above : t.isDirectory (pathTo parent) = true :=
    (h.isDirectory_iff hs (fun n hn => hp n (List.mem_cons_of_mem _ hn)) ha.parent).mpr hd
  have here : ¬ t.isDirectory (pathTo (name :: parent)) = true := by
    rw [h.isDirectory_iff (hs.trans (List.suffix_cons ..)) hp ha]
    exact hn
  rw [write, parent?_pathTo hp]
  simp only [above, here, Bool.true_eq_false, Bool.false_eq_true, if_false,
    h.replaceFile_eq hs hp hd hn ha room, mapError_ok]

/-! ## Making directories -/

/-- No directory is made where one stands. -/
theorem makeDirectory_directory (h : t.Rooted top) (hs : top <:+ parent)
    (hp : ∀ n ∈ name :: parent, IsPlain n) (hd : t.get? (name :: parent) = some .directory)
    (ha : Addressable (name :: parent)) (shown : String) :
    makeDirectory t (pathTo (name :: parent)) shown =
      (.error (HostFault.toFailureAt shown .alreadyExists), t) := by
  have above : t.get? parent = some .directory :=
    h.directory_above (hs.trans (List.suffix_cons ..)) hd (List.suffix_cons ..) (by simp)
  obtain ⟨taken, short⟩ := addressable_cons.mp ha
  have refused : t.makeDirectory (pathTo (name :: parent)) = .error .alreadyExists := by
    rw [FileTree.makeDirectory, (h.slot_eq_ok hs hp).mpr ⟨rfl, above, taken⟩]
    simp only [bind, Except.bind, place_name_eq_ok.mpr ⟨rfl, short⟩, hd]
    rfl
  rw [makeDirectory, refused]

theorem makeDirectory_eq (h : t.Rooted top) (hs : top <:+ parent)
    (hp : ∀ n ∈ name :: parent, IsPlain n) (hd : t.get? parent = some .directory)
    (hn : t.get? (name :: parent) = none) (ha : Addressable (name :: parent)) (shown : String) :
    makeDirectory t (pathTo (name :: parent)) shown =
      (.ok (), t.insert (name :: parent) .directory) := by
  rw [makeDirectory, (h.makeDirectory_eq_ok hs hp).mpr ⟨hd, ha, hn, rfl⟩]

/-! ## Removing -/

/-- Whatever the host refuses, no check has refused it. -/
theorem removeEntry_ne_validation (p : Path) (shown : String) (cause : ValidationFailure) :
    (removeEntry t p shown).1 ≠ .error (.validation cause) := by
  have other (fault : HostFault) : fault.toFailureAt shown ≠ .validation cause := by
    cases fault <;> simp [HostFault.toFailureAt, HostFault.toFailure]
  unfold removeEntry
  split
  · simpa using other _
  · split
    · simp
    · simpa using other _

/-- What is missing from a directory is reported as missing. -/
theorem removeEntry_missing (h : t.Rooted top) (hs : top <:+ parent)
    (hp : ∀ n ∈ name :: parent, IsPlain n) (hd : t.get? parent = some .directory)
    (hn : t.get? (name :: parent) = none) (ha : Addressable (name :: parent)) (shown : String) :
    removeEntry t (pathTo (name :: parent)) shown = (.error (.notFound shown), t) := by
  rw [removeEntry, h.locate_eq_noEntry hs hp hd hn ha]
  rfl

/-- A directory that holds something is not removed. -/
theorem removeEntry_notEmpty (h : t.Rooted top) (hs : top <:+ parent)
    (hp : ∀ n ∈ name :: parent, IsPlain n) (hd : t.get? (name :: parent) = some .directory)
    (hc : t.children (name :: parent) ≠ []) (ha : Addressable (name :: parent)) (shown : String) :
    removeEntry t (pathTo (name :: parent)) shown = (.error (.storage (.host .notEmpty)), t) := by
  have located : t.locate false (pathTo (name :: parent)) = .ok (name :: parent, .directory) :=
    (h.locate_eq_ok (hs.trans (List.suffix_cons ..)) hp).mpr ⟨rfl, hd, ha⟩
  rw [removeEntry, located]
  simp only [if_true, h.removeDirectory_notEmpty hs hp hd ha hc]
  rfl

/-- Files and empty directories are removed, and nothing else. -/
theorem removeEntry_ok_iff (h : t.Rooted top) (hs : top <:+ parent)
    (hp : ∀ n ∈ name :: parent, IsPlain n) (ha : Addressable (name :: parent)) (shown : String) :
    (removeEntry t (pathTo (name :: parent)) shown).1 = .ok () ↔
      (∃ body, t.get? (name :: parent) = some (.file body)) ∨
        t.get? (name :: parent) = some .directory ∧ t.children (name :: parent) = [] := by
  have below : top <:+ name :: parent := hs.trans (List.suffix_cons ..)
  have located {entry : Entry} : t.get? (name :: parent) = some entry →
      t.locate false (pathTo (name :: parent)) = .ok (name :: parent, entry) := fun hg =>
    (h.locate_eq_ok below hp).mpr ⟨rfl, hg, ha⟩
  constructor
  · intro hr
    unfold removeEntry at hr
    split at hr
    · cases hr
    · rename_i found entry hl
      obtain ⟨rfl, hg, -⟩ := (h.locate_eq_ok below hp).mp hl
      cases entry with
      | link target => exact absurd hg (h.not_link below target)
      | file body => exact .inl ⟨body, hg⟩
      | directory =>
          by_cases hc : t.children (name :: parent) = []
          · exact .inr ⟨hg, hc⟩
          · simp only [if_true, h.removeDirectory_notEmpty hs hp hg ha hc, reduceCtorEq] at hr
  · rintro (⟨body, hg⟩ | ⟨hg, hc⟩)
    · have removed := (h.removeFile_eq_ok hs hp).mpr ⟨ha, ⟨body, hg⟩, rfl⟩
      simp [removeEntry, located hg, removed]
    · have removed := (h.removeDirectory_eq_ok hs hp).mpr ⟨ha, hg, hc, rfl⟩
      simp [removeEntry, located hg, removed]

end Strongroom.Files
