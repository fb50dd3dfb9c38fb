import Strongroom.Proofs.FileTree.Places
import Strongroom.Proofs.Path.NormalForm
import Strongroom.Proofs.Vault.Actions
/-!
# Changes to a user's files

Each of the effects behind a request does the one thing that it is for, or leaves the tree as it
was.  None of them reports that a session has expired.
-/

namespace Strongroom

open FileTree Strongroom.Path

/-! ## Kinds of failure -/

theorem HostFault.kind_toFailureAt (shown : String) (fault : HostFault) :
    (fault.toFailureAt shown).kind ≠ .sessionExpired := by
  cases fault <;> simp [HostFault.toFailureAt, HostFault.toFailure, Failure.kind]

theorem HostFault.kind_toFailure (fault : HostFault) : fault.toFailure.kind ≠ .sessionExpired := by
  simp [HostFault.toFailure, Failure.kind]

theorem RegistryFailure.kind_toFailure (failure : RegistryFailure) :
    failure.toFailure.kind ≠ .sessionExpired := by
  cases failure <;> simp [RegistryFailure.toFailure, Failure.kind]

/-- Only a session that has expired is reported as one. -/
theorem Failure.kind_eq_sessionExpired {failure : Failure} :
    failure.kind = .sessionExpired ↔ failure = .authentication .expired := by
  cases failure with
  | authentication cause => cases cause <;> simp [Failure.kind]
  | authorization reason => simp [Failure.kind]
  | validation cause => simp [Failure.kind]
  | notFound what => simp [Failure.kind]
  | conflict what => simp [Failure.kind]
  | storage cause => simp [Failure.kind]

namespace Quota

variable {q : Quota} {t : FileTree} {root p : Path} {failure : Failure}

theorem kind_checkNameAndSize {addition : Addition}
    (h : q.checkNameAndSize t root addition p = .error failure) : failure.kind ≠ .sessionExpired := by
  unfold checkNameAndSize at h
  split at h
  · cases h
    simp [Failure.kind]
  · split at h
    · cases h
      simp [Failure.kind]
    · dsimp only at h
      split at h
      · cases h
        simp [Failure.kind]
      · cases h

theorem kind_checkNewDirectory (h : q.checkNewDirectory t root p = .error failure) :
    failure.kind ≠ .sessionExpired := by
  unfold checkNewDirectory at h
  split at h
  · rename_i first
    cases h
    exact kind_checkNameAndSize first
  · split at h
    · cases h
      simp [Failure.kind]
    · split at h
      · cases h
        exact HostFault.kind_toFailure _
      · cases h
        simp [Failure.kind]
      · cases h

theorem kind_checkAggregate {roots : List Path} (h : q.checkAggregate t roots = .error failure) :
    failure.kind ≠ .sessionExpired := by
  unfold checkAggregate at h
  split at h
  · cases h
    simp [Failure.kind]
  · split at h
    · cases h
      simp [Failure.kind]
    · cases h

end Quota

theorem Files.kind_read {t : FileTree} {p : Path} {shown : String} {failure : Failure}
    (h : Files.read t p shown = .error failure) : failure.kind ≠ .sessionExpired := by
  unfold Files.read at h
  split at h
  · cases h
    simp [Failure.kind]
  · cases hr : t.readFile p with
    | ok body => simp [hr] at h
    | error fault =>
        simp only [hr, mapError_error, Except.error.injEq] at h
        exact h ▸ fault.kind_toFailureAt shown

theorem Files.kind_listing {t : FileTree} {p : Path} {shown : String} {failure : Failure}
    (h : Files.listing t p shown = .error failure) : failure.kind ≠ .sessionExpired := by
  unfold Files.listing at h
  split at h
  · cases h
    exact HostFault.kind_toFailureAt shown _
  · cases h

namespace Files

variable {t : FileTree} {top parent : Location} {name : Name}

/-- A path of plain names ends below its parent. -/
theorem parent?_pathTo (hp : ∀ n ∈ name :: parent, IsPlain n) :
    (pathTo (name :: parent)).parent? = some (pathTo parent) := by
  rw [pathTo_eq, pathTo_eq, List.reverse_cons]
  exact parent?_absolute fun n hn => hp n (by simpa [or_comm] using hn)

theorem write_cases (h : t.Rooted top) (hs : top <:+ parent) (hp : ∀ n ∈ name :: parent, IsPlain n)
    (shown : String) (body : Bytes) :
    (∃ failure, failure.kind ≠ .sessionExpired ∧
      write t (pathTo (name :: parent)) shown body = (.error failure, t)) ∨
    (t.get? parent = some .directory ∧ Addressable (name :: parent) ∧
      t.get? (name :: parent) ≠ some .directory ∧
      write t (pathTo (name :: parent)) shown body =
        (.ok (), t.insert (name :: parent) (.file body))) := by
  unfold write
  rw [parent?_pathTo hp]
  dsimp only
  split
  · exact .inl ⟨_, by simp [Failure.kind], rfl⟩
  · split
    · exact .inl ⟨_, by simp [Failure.kind], rfl⟩
    · rcases h.replaceFile_cases hs hp body with ⟨fault, he⟩ | ⟨hg, ha, hd, he⟩
      · refine .inl ⟨fault.toFailureAt shown, HostFault.kind_toFailureAt shown fault, ?_⟩
        rw [he]
        rfl
      · refine .inr ⟨hg, ha, hd, ?_⟩
        rw [he]
        rfl

theorem makeDirectory_cases (h : t.Rooted top) (hs : top <:+ parent)
    (hp : ∀ n ∈ name :: parent, IsPlain n) (shown : String) :
    (∃ failure, failure.kind ≠ .sessionExpired ∧
      makeDirectory t (pathTo (name :: parent)) shown = (.error failure, t)) ∨
    (t.get? parent = some .directory ∧ Addressable (name :: parent) ∧
      t.get? (name :: parent) = none ∧
      makeDirectory t (pathTo (name :: parent)) shown =
        (.ok (), t.insert (name :: parent) .directory)) := by
  unfold makeDirectory
  cases hm : t.makeDirectory (pathTo (name :: parent)) with
  | error fault => exact .inl ⟨_, HostFault.kind_toFailureAt shown fault, rfl⟩
  | ok after =>
      obtain ⟨hg, ha, hn, rfl⟩ := (h.makeDirectory_eq_ok hs hp).mp hm
      exact .inr ⟨hg, ha, hn, rfl⟩

theorem removeEntry_cases (h : t.Rooted top) (hs : top <:+ parent)
    (hp : ∀ n ∈ name :: parent, IsPlain n) (shown : String) :
    (∃ failure, failure.kind ≠ .sessionExpired ∧
      removeEntry t (pathTo (name :: parent)) shown = (.error failure, t)) ∨
    (t.get? parent = some .directory ∧ Addressable (name :: parent) ∧
      (t.children (name :: parent) = [] ∨ t.get? (name :: parent) ≠ some .directory) ∧
      removeEntry t (pathTo (name :: parent)) shown = (.ok (), t.erase (name :: parent))) := by
  have below : top <:+ name :: parent := hs.trans (List.suffix_cons ..)
  unfold removeEntry
  cases hl : t.locate false (pathTo (name :: parent)) with
  | error fault => exact .inl ⟨_, HostFault.kind_toFailureAt shown fault, rfl⟩
  | ok arrival =>
      obtain ⟨found, entry⟩ := arrival
      obtain ⟨rfl, hg, ha⟩ := (h.locate_eq_ok below hp).mp hl
      have directory : t.get? parent = some .directory :=
        h.directory_above below hg (List.suffix_cons ..) (by simp)
      by_cases he : entry = .directory
      · subst he
        simp only [if_true]
        cases hr : t.removeDirectory (pathTo (name :: parent)) with
        | error fault => exact .inl ⟨_, HostFault.kind_toFailureAt shown fault, rfl⟩
        | ok after =>
            obtain ⟨-, -, hc, rfl⟩ := (h.removeDirectory_eq_ok hs hp).mp hr
            exact .inr ⟨directory, ha, .inl hc, rfl⟩
      · simp only [if_neg he]
        cases hr : t.removeFile (pathTo (name :: parent)) with
        | error fault => exact .inl ⟨_, HostFault.kind_toFailureAt shown fault, rfl⟩
        | ok after =>
            obtain ⟨-, -, rfl⟩ := (h.removeFile_eq_ok hs hp).mp hr
            refine .inr ⟨directory, ha, .inr fun hd => he ?_, rfl⟩
            exact Option.some.inj (hg.symm.trans hd)

/-! ## Reading -/

/-- What is read of a file is what it holds. -/
theorem read_eq_ok {location : Location} (h : t.Rooted top) (hs : top <:+ location)
    (hp : ∀ n ∈ location, IsPlain n) {shown : String} {body : Bytes} :
    read t (pathTo location) shown = .ok body ↔
      t.get? location = some (.file body) ∧ Addressable location := by
  constructor
  · intro hr
    unfold read at hr
    split at hr
    · cases hr
    · cases hf : t.readFile (pathTo location) with
      | error fault => simp [hf] at hr
      | ok found =>
          simp only [hf, mapError_ok, Except.ok.injEq] at hr
          simp only [readFile, bind_eq_ok] at hf
          obtain ⟨⟨place, entry⟩, hl, he⟩ := hf
          obtain ⟨rfl, hg, ha⟩ := (h.locate_eq_ok hs hp).mp hl
          cases entry with
          | directory => cases he
          | link target => cases he
          | file content =>
              obtain rfl := Except.ok.inj he
              exact ⟨hr ▸ hg, ha⟩
  · rintro ⟨hg, ha⟩
    have located : t.locate true (pathTo location) = .ok (location, .file body) :=
      (h.locate_eq_ok hs hp).mpr ⟨rfl, hg, ha⟩
    have other : t.isDirectory (pathTo location) = false := by rw [isDirectory, located]
    have found : t.readFile (pathTo location) = .ok body := by rw [readFile, located]; rfl
    simp [read, other, found]

end Files

end Strongroom
