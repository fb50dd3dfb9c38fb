import Strongroom.Proofs.FileTree.Calls
import Strongroom.Proofs.Text.ByteOrder
import Strongroom.Vault.Files
/-!
# Listings

A listing has one line for each child of a directory, in the order of the bytes of their names.
-/

namespace Strongroom.Files

open FileTree

/-- The lines for some children, in the order of their names. -/
def lines (children : List (Name × Entry)) : List Listed :=
  (children.map fun child => ⟨child.1, child.2 == .directory⟩).mergeSort fun a b =>
    decide (a.name ≤ b.name)

variable {children children' : List (Name × Entry)} {name : Name}

theorem listing_of_ok {t : FileTree} {p : Path} (h : t.readDirectory p = .ok children)
    (shown : String) : listing t p shown = .ok (lines children) := by
  rw [listing, h]
  rfl

theorem listing_of_error {t : FileTree} {p : Path} {fault : HostFault}
    (h : t.readDirectory p = .error fault) (shown : String) :
    listing t p shown = .error (fault.toFailureAt shown) := by
  rw [listing, h]

theorem mem_lines {line : Listed} :
    line ∈ lines children ↔
      ∃ entry, (line.name, entry) ∈ children ∧ line.isDirectory = (entry == .directory) := by
  rw [lines, List.mem_mergeSort, List.mem_map]
  constructor
  · rintro ⟨⟨name, entry⟩, mem, rfl⟩
    exact ⟨entry, mem, rfl⟩
  · rintro ⟨entry, mem, he⟩
    exact ⟨_, mem, by rw [← he]⟩

/-- The lines bear the names of the children. -/
theorem names_lines (children : List (Name × Entry)) :
    (children.map fun child => (⟨child.1, child.2 == .directory⟩ : Listed)).map Listed.name =
      children.map Prod.fst := by
  rw [List.map_map]
  rfl

/-- No two lines have the same name, and each line comes before those with larger bytes. -/
theorem pairwise_lines (once : (children.map Prod.fst).Nodup) :
    (lines children).Pairwise fun a b => Bytes.ofText a.name < Bytes.ofText b.name := by
  rw [← names_lines] at once
  exact Bytes.pairwise_mergeSort Listed.name once

/-- The order in which a directory holds its children does not show. -/
theorem lines_perm (once : (children.map Prod.fst).Nodup) (h : children'.Perm children) :
    lines children' = lines children := by
  rw [← names_lines] at once
  exact Bytes.mergeSort_eq_of_perm Listed.name once (h.map _)

end Strongroom.Files
