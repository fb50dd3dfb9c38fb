import Strongroom.Access.Directories
import Strongroom.Proofs.FileTree.Calls
import Strongroom.Proofs.Path.Shown
/-!
# Sandboxes on a host

A sandbox at the path of a location maps every path that a client writes to the path of a location
at or below it.
-/

namespace Strongroom

open FileTree Strongroom.Path

variable {root location : Location}

/-- The sandbox has its root at a location, and works there or further below. -/
def Sandbox.IsAt (s : Sandbox) (root : Location) : Prop :=
  ∃ below : List Name, (∀ n ∈ below, IsPlain n) ∧
    s = ⟨pathTo root, absolute (root.reverse ++ below)⟩

namespace Sandbox.IsAt

variable {s : Sandbox}

theorem root_eq (h : s.IsAt root) : s.root = pathTo root := by
  obtain ⟨below, -, rfl⟩ := h
  rfl

theorem of_pathTo (hr : ∀ n ∈ root, IsPlain n) (current : Path) :
    (Sandbox.of (pathTo root) current).IsAt root := by
  have base : Location.walk [] (pathTo root).text = root := by
    rw [Location.walk_pathTo hr, List.append_nil]
  obtain ⟨below, plain, place⟩ := Sandbox.start_eq_append root current
  refine ⟨below.reverse, fun n hn => plain n (List.mem_reverse.mp hn), ?_⟩
  rw [Sandbox.of_eq (isAbsolute_pathTo hr), base, place, ← List.reverse_append]
  rfl

/-- No path leads out of a sandbox. -/
theorem resolve (h : s.IsAt root) (hr : ∀ n ∈ root, IsPlain n) (raw : Path) :
    ∃ location, root <:+ location ∧ (∀ n ∈ location, IsPlain n) ∧ s.resolve raw = pathTo location := by
  obtain ⟨below, hb, rfl⟩ := h
  have here : ∀ n ∈ below.reverse ++ root, IsPlain n := fun n hn =>
    (List.mem_append.mp hn).elim (fun hn => hb n (List.mem_reverse.mp hn)) (hr n)
  have current : absolute (root.reverse ++ below) = pathTo (below.reverse ++ root) := by
    rw [pathTo_eq, List.reverse_append, List.reverse_reverse]
  obtain ⟨more, hm, place⟩ := Sandbox.target_eq_append root here raw.text
  refine ⟨more ++ root, List.suffix_append .., fun n hn => (List.mem_append.mp hn).elim (hm n) (hr n), ?_⟩
  rw [current, ← place]
  exact Sandbox.resolve_eq hr here raw.text

theorem isRoot_pathTo (h : s.IsAt root) (hp : ∀ n ∈ location, IsPlain n) (hs : root <:+ location) :
    s.isRoot (pathTo location) = true ↔ location = root := by
  obtain ⟨below, rfl⟩ := hs
  simpa using Sandbox.isRoot_below hp h.root_eq

end Sandbox.IsAt

/-! ## Root directories -/

theorem Bytes.slash_not_mem_hexPair (b : UInt8) : '/' ∉ hexPair b := by
  have digit : ∀ n < 16, hexDigit n ≠ '/' := by decide
  have high := digit (b.toNat / 16) (by have := b.toNat_lt; omega)
  have low := digit (b.toNat % 16) (Nat.mod_lt _ (by decide))
  simp [hexPair, high.symm, low.symm]

/-- Whatever bytes are drawn, they make a plain name of a root directory. -/
theorem Entropy.isPlain_rootId (e : Entropy) : IsPlain e.rootId.1 := by
  have digits : e.rootId.1.toList = 'r' :: (e.next rootIdBytes).flatMap Bytes.hexPair := by
    simp [rootId, Bytes.toHex]
  refine ⟨?_, ?_, ?_, ?_⟩
  · rintro he
    simp [he] at digits
  · rintro he
    simp [he] at digits
  · rintro he
    simp [he] at digits
  · rw [digits]
    simp [Bytes.slash_not_mem_hexPair]

/-- The root directory of a plain name lies directly in the storage root. -/
theorem Vault.rootPath_eq {v : Vault} {top : Location} (hs : v.storageRoot = pathTo top)
    (ht : ∀ n ∈ top, IsPlain n) {rootId : Name} (hi : IsPlain rootId) :
    v.rootPath rootId = pathTo (rootId :: top) := by
  rw [rootPath, hs, pathTo_eq, pathTo_eq, List.reverse_cons]
  exact absolute_append (fun n hn => ht n (List.mem_reverse.mp hn)) hi

end Strongroom
