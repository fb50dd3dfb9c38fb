import Strongroom.Proofs.FileTree.Places
import Strongroom.Vault.Files
/-!
# Effects on one entry

Whatever links stand on the host, storing a file, making a directory and removing an entry change what
stands at the place that their path names, or nothing at all.
-/

namespace Strongroom

open FileTree

namespace Files

variable {t : FileTree}

theorem write_changes (t : FileTree) (p : Path) (shown : String) (body : Bytes) :
    (∃ failure, write t p shown body = (.error failure, t)) ∨
      ∃ name parent, t.place? p = some (name :: parent) ∧
        t.get? (name :: parent) ≠ some .directory ∧
        write t p shown body = (.ok (), t.insert (name :: parent) (.file body)) := by
  unfold write
  cases p.parent? with
  | none => exact .inl ⟨_, rfl⟩
  | some parent =>
      dsimp only
      split
      · exact .inl ⟨_, rfl⟩
      · split
        · exact .inl ⟨_, rfl⟩
        · rcases t.replaceFile_cases parent p body with
            ⟨fault, refused⟩ | ⟨name, directory, named, other, replaced⟩
          · exact .inl ⟨_, by rw [refused]; rfl⟩
          · exact .inr ⟨name, directory, named, other, by rw [replaced]; rfl⟩

theorem removeEntry_changes (t : FileTree) (p : Path) (shown : String) :
    (∃ failure, removeEntry t p shown = (.error failure, t)) ∨
      ∃ name parent entry, t.place? p = some (name :: parent) ∧
        t.get? (name :: parent) = some entry ∧
        (entry = .directory → t.children (name :: parent) = []) ∧
        removeEntry t p shown = (.ok (), t.erase (name :: parent)) := by
  unfold removeEntry
  cases t.locate false p with
  | error fault => exact .inl ⟨_, rfl⟩
  | ok found =>
      obtain ⟨location, entry⟩ := found
      dsimp only
      cases removed : if entry = .directory then t.removeDirectory p else t.removeFile p with
      | error fault => exact .inl ⟨_, rfl⟩
      | ok after =>
          split at removed
          · obtain ⟨name, parent, named, there, empty, rfl⟩ := removeDirectory_cases removed
            exact .inr ⟨name, parent, .directory, named, there, fun _ => empty, rfl⟩
          · obtain ⟨name, parent, named, ⟨entry, there, other⟩, rfl⟩ := removeFile_cases removed
            exact .inr ⟨name, parent, entry, named, there, fun same => absurd same other, rfl⟩

/-- On a host with any links, storing a file, making a directory and removing an entry each fail and leave
the tree as it was, or change one entry: the one that the path names, with links followed on the way to it.
A stored file takes the place of a link, and what the link led to stays as it was; a new directory holds
nothing; and only what holds nothing is removed. -/
theorem effects_change_one_entry (t : FileTree) (grounded : t.Grounded) (p : Path) (shown : String) :
    (∀ body, (∃ failure, write t p shown body = (.error failure, t)) ∨
      ∃ place after, write t p shown body = (.ok (), after) ∧ t.place? p = some place ∧
        t.Changed place (some (.file body)) after ∧
        ∀ target found entry, t.get? place = some (.link target) → t.locate true p = .ok (found, entry) →
          found ≠ place ∧ after.get? found = some entry) ∧
    ((∃ failure, makeDirectory t p shown = (.error failure, t)) ∨
      ∃ place after, makeDirectory t p shown = (.ok (), after) ∧ t.place? p = some place ∧
        t.get? place = none ∧ t.Changed place (some .directory) after ∧ after.children place = []) ∧
    ((∃ failure, removeEntry t p shown = (.error failure, t)) ∨
      ∃ place after entry, removeEntry t p shown = (.ok (), after) ∧ t.place? p = some place ∧
        t.get? place = some entry ∧ (entry = .directory → t.children place = []) ∧
        t.Changed place none after) := by
  refine ⟨fun body => ?_, ?_, ?_⟩
  · rcases write_changes t p shown body with refused | ⟨name, parent, named, other, written⟩
    · exact .inl refused
    · have changed : t.Changed (name :: parent) (some (.file body)) (t.insert (name :: parent) (.file body)) :=
        grounded.changed_insert (directory_of_place? named) (.inr other)
      refine .inr ⟨_, _, written, named, changed, fun target found entry link located => ?_⟩
      obtain ⟨there, noLink⟩ := grounded.locate_cases located
      have away : found ≠ name :: parent := by
        rintro rfl
        exact noLink target (Option.some.inj (there.symm.trans link))
      exact ⟨away, (changed.elsewhere found away).trans there⟩
  · unfold makeDirectory
    cases made : t.makeDirectory p with
    | error fault => exact .inl ⟨_, rfl⟩
    | ok after =>
        obtain ⟨place, named, free, changed, -, empty⟩ := grounded.makeDirectory_changed made
        exact .inr ⟨place, after, rfl, named, free, changed, empty⟩
  · rcases removeEntry_changes t p shown with refused | ⟨name, parent, entry, named, there, empty, removed⟩
    · exact .inl refused
    · have holds : t.children (name :: parent) = [] := by
        by_cases directory : entry = .directory
        · exact empty directory
        · exact grounded _ (by simp [there, directory])
      exact .inr ⟨_, _, entry, removed, named, there, empty, grounded.changed_erase holds⟩

/-- A host on which `/way` leads to `/d`, and `/d/f` to the file `/g`. -/
def sampleLinked : FileTree :=
  ⟨[(["d"], .directory), (["f", "d"], .link ⟨"../g"⟩), (["g"], .file [7]), (["way"], .link ⟨"/d"⟩)]⟩

/-- The link is replaced and not the file that it leads to. -/
theorem effects_change_one_entry_linked :
    sampleLinked.Grounded ∧ (write sampleLinked ⟨"/way/f"⟩ "f" [1]).1 = .ok () ∧
      sampleLinked.Changed ["f", "d"] (some (.file [1])) (write sampleLinked ⟨"/way/f"⟩ "f" [1]).2 ∧
      (write sampleLinked ⟨"/way/f"⟩ "f" [1]).2.get? ["g"] = some (.file [7]) := by
  have grounded : sampleLinked.Grounded := grounded_of_entries (by decide)
  have links : sampleLinked.get? ["f", "d"] = some (.link ⟨"../g"⟩) := by decide
  have located : sampleLinked.locate true ⟨"/way/f"⟩ = .ok (["g"], .file [7]) := by decide +kernel
  have place : sampleLinked.place? ⟨"/way/f"⟩ = some ["f", "d"] := by decide +kernel
  have succeeds : (write sampleLinked ⟨"/way/f"⟩ "f" [1]).1 = .ok () := by decide +kernel
  rcases (effects_change_one_entry sampleLinked grounded ⟨"/way/f"⟩ "f").1 [1] with
    ⟨failure, refused⟩ | ⟨found, after, written, named, changed, kept⟩
  · rw [refused] at succeeds
    cases succeeds
  · obtain rfl := Option.some.inj (place.symm.trans named)
    rw [written]
    exact ⟨grounded, rfl, changed, (kept _ _ _ links located).2⟩

end Files

end Strongroom
