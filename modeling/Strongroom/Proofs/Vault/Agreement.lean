import Strongroom.Proofs.FileTree.Agreement
import Strongroom.Proofs.Vault.Effects
import Strongroom.Proofs.Vault.Listings
/-!
# Checks and effects on hosts that agree

What is checked before a change to a user's files, the change itself, and what is read of the files
depend on the tree at and below the user's root directory only.  The one exception is a directory
that is to be made at the root directory itself: its siblings are those of the root directory.
-/

namespace Strongroom

open FileTree Strongroom.Path

variable {t t' : FileTree} {top root location parent : Location} {name : Name}

/-- A measurement that tells what stands at and below a directory, and nothing else. -/
def Meter.Local (m : Meter) : Prop :=
  ∀ root t t', (∀ n ∈ root, IsPlain n) → Agree root t t' → m t' (pathTo root) = m t (pathTo root)

theorem Meter.walk_local : Meter.walk.Local := by
  intro root t t' plain h
  have located (follow : Bool) := h.locate (List.suffix_refl root) plain follow
  have opened := h.openDirectory (List.suffix_refl root) plain
  rw [Meter.walk, Meter.walk, pathExists, pathExists, located, located, opened]
  split
  · split
    · rfl
    · rename_i found arrived
      obtain ⟨rfl, -, -⟩ := (h.rooted.locate_eq_ok (List.suffix_refl _) plain).mp arrived
      rw [h.bytesBelow]
    · split
      · rename_i found opened
        obtain ⟨rfl, -, -⟩ := (h.rooted.openDirectory_eq_ok (List.suffix_refl _) plain).mp opened
        rw [h.bytesBelow]
      · rfl
    · rfl
  · rfl

namespace Files

/-! ## Below the root directory -/

theorem read_agree (h : Agree root t t') (hs : root <:+ location) (hp : ∀ n ∈ location, IsPlain n)
    (shown : String) : read t' (pathTo location) shown = read t (pathTo location) shown := by
  rw [read, read, h.isDirectory hs hp, h.readFile hs hp]

theorem listing_agree (h : Agree root t t') (hs : root <:+ location) (hp : ∀ n ∈ location, IsPlain n)
    (shown : String) : listing t' (pathTo location) shown = listing t (pathTo location) shown := by
  rcases h.readDirectory_cases hs hp with ⟨fault, hr, hr'⟩ | ⟨children, children', hr, hr', once, perm⟩
  · rw [listing_of_error hr, listing_of_error hr']
  · rw [listing_of_ok hr, listing_of_ok hr', lines_perm once perm]

theorem write_agree (h : Agree root t t') (hs : root <:+ parent) (hp : ∀ n ∈ name :: parent, IsPlain n)
    (shown : String) (body : Bytes) :
    SameEffect root (write t (pathTo (name :: parent)) shown body)
      (write t' (pathTo (name :: parent)) shown body) := by
  have above := h.isDirectory hs fun n hn => hp n (List.mem_cons_of_mem _ hn)
  have here := h.isDirectory (hs.trans (List.suffix_cons ..)) hp
  have replaced := h.replaceFile hs hp body
  unfold write
  rw [parent?_pathTo hp]
  dsimp only
  rw [above, here]
  split
  · exact ⟨rfl, h.same⟩
  · split
    · exact ⟨rfl, h.same⟩
    · exact ⟨congrArg (Except.mapError (HostFault.toFailureAt shown)) replaced.outcome, replaced.same⟩

theorem makeDirectory_agree (h : Agree root t t') (hs : root <:+ parent)
    (hp : ∀ n ∈ name :: parent, IsPlain n) (shown : String) :
    SameEffect root (makeDirectory t (pathTo (name :: parent)) shown)
      (makeDirectory t' (pathTo (name :: parent)) shown) := by
  have made := h.makeDirectory hs hp
  unfold makeDirectory
  generalize t.makeDirectory (pathTo (name :: parent)) = result at made
  generalize t'.makeDirectory (pathTo (name :: parent)) = result' at made
  cases made with
  | refused fault => exact ⟨rfl, h.same⟩
  | done same => exact ⟨rfl, same⟩

theorem removeEntry_agree (h : Agree root t t') (hs : root <:+ parent)
    (hp : ∀ n ∈ name :: parent, IsPlain n) (shown : String) :
    SameEffect root (removeEntry t (pathTo (name :: parent)) shown)
      (removeEntry t' (pathTo (name :: parent)) shown) := by
  unfold removeEntry
  rw [h.locate (hs.trans (List.suffix_cons ..)) hp]
  cases t.locate false (pathTo (name :: parent)) with
  | error fault => exact ⟨rfl, h.same⟩
  | ok arrival =>
      obtain ⟨found, entry⟩ := arrival
      have removed : SameChange root
          (if entry = .directory then t.removeDirectory (pathTo (name :: parent))
            else t.removeFile (pathTo (name :: parent)))
          (if entry = .directory then t'.removeDirectory (pathTo (name :: parent))
            else t'.removeFile (pathTo (name :: parent))) := by
        split
        · exact h.removeDirectory hs hp
        · exact h.removeFile hs hp
      dsimp only
      generalize (if entry = .directory then t.removeDirectory (pathTo (name :: parent))
        else t.removeFile (pathTo (name :: parent))) = result at removed
      generalize (if entry = .directory then t'.removeDirectory (pathTo (name :: parent))
        else t'.removeFile (pathTo (name :: parent))) = result' at removed
      cases removed with
      | refused fault => exact ⟨rfl, h.same⟩
      | done same => exact ⟨rfl, same⟩

end Files

namespace Quota

variable {q : Quota}

theorem checkNameAndSize_agree (h : Agree root t t') (hp : ∀ n ∈ root, IsPlain n)
    (near : q.meter.Local) (addition : Addition) (p : Path) :
    q.checkNameAndSize t' (pathTo root) addition p = q.checkNameAndSize t (pathTo root) addition p := by
  rw [checkNameAndSize, checkNameAndSize, near root t t' hp h]

theorem checkSiblings_agree (h : Agree root t t') (hs : root <:+ parent)
    (hp : ∀ n ∈ name :: parent, IsPlain n) :
    q.checkSiblings t' (pathTo (name :: parent)) = q.checkSiblings t (pathTo (name :: parent)) := by
  have plain : ∀ n ∈ parent, IsPlain n := fun n hn => hp n (List.mem_cons_of_mem _ hn)
  have counted : countSubdirectories t' (pathTo parent) = countSubdirectories t (pathTo parent) := by
    rcases h.readDirectory_cases hs plain with ⟨fault, hr, hr'⟩ | ⟨children, children', hr, hr', -, perm⟩
    · rw [countSubdirectories, countSubdirectories, hr, hr']
    · rw [countSubdirectories, countSubdirectories, hr, hr']
      dsimp only
      rw [perm.countP_eq]
  rw [checkSiblings, checkSiblings, Files.parent?_pathTo hp]
  dsimp only
  rw [counted]

theorem checkNewDirectory_agree (h : Agree root t t') (hr : ∀ n ∈ root, IsPlain n)
    (near : q.meter.Local) (p : Path) (siblings : q.checkSiblings t' p = q.checkSiblings t p) :
    q.checkNewDirectory t' (pathTo root) p = q.checkNewDirectory t (pathTo root) p := by
  rw [checkNewDirectory, checkNewDirectory, checkNameAndSize_agree h hr near, siblings]

end Quota

end Strongroom
