import Strongroom.Proofs.Access.Directories
import Strongroom.Proofs.Vault.Actions
/-!
# Settled vaults

What holds of a vault between two requests: the storage root is reached without links and holds
none, every credential comes with an account and every session with a user who has one, and each
account has a root directory of its own.
-/

namespace Strongroom.Vault

open FileTree Strongroom.Path Registry

/-- A vault with its storage root at `top` whose records and directories fit together. -/
structure Settled (top : Location) (v : Vault) : Prop where
  storage : v.storageRoot = pathTo top
  rooted : v.tree.Rooted top
  sound : v.registry.Sound
  paired : ∀ user, v.registry.credential? user = none ↔ v.registry.account? user = none
  owned : ∀ hash session, v.registry.session? hash = some session →
    v.registry.account? session.username ≠ none
  plain : ∀ user account, v.registry.account? user = some account → IsPlain account.rootId
  home : ∀ user account, v.registry.account? user = some account →
    v.tree.get? (account.rootId :: top) = some .directory
  addressable : ∀ user account, v.registry.account? user = some account →
    Addressable (account.rootId :: top)
  alone : ∀ user other a b, v.registry.account? user = some a → v.registry.account? other = some b →
    a.rootId = b.rootId → user = other

namespace Settled

variable {top : Location} {v : Vault} {user other : String} {a b account : Account}

theorem plain_root (h : v.Settled top) (ha : v.registry.account? user = some account) :
    ∀ n ∈ account.rootId :: top, IsPlain n := by
  intro n hn
  rcases List.mem_cons.mp hn with rfl | hn
  · exact h.plain user account ha
  · exact h.rooted.plain n hn

theorem rootPath (h : v.Settled top) (ha : v.registry.account? user = some account) :
    v.rootPath account.rootId = pathTo (account.rootId :: top) :=
  rootPath_eq h.storage h.rooted.plain (h.plain user account ha)

theorem rootFor (h : v.Settled top) (ha : v.registry.account? user = some account) :
    v.rootFor user = .ok (pathTo (account.rootId :: top)) := by
  rw [Vault.rootFor, ha, ← h.rootPath ha]

theorem credential (h : v.Settled top) {credential : Credential}
    (hc : v.registry.credential? user = some credential) :
    ∃ account, v.registry.account? user = some account := by
  cases ha : v.registry.account? user with
  | some account => exact ⟨account, rfl⟩
  | none =>
      rw [(h.paired user).mpr ha] at hc
      cases hc

theorem owner (h : v.Settled top) {hash : String} {session : Session}
    (hs : v.registry.session? hash = some session) :
    ∃ account, v.registry.account? session.username = some account :=
  Option.ne_none_iff_exists'.mp (h.owned hash session hs)

/-- No root directory lies at or below that of another user. -/
theorem not_suffix (h : v.Settled top) (ha : v.registry.account? user = some a)
    (hb : v.registry.account? other = some b) (hne : user ≠ other) {location : Location}
    (hl : a.rootId :: top <:+ location) : ¬ b.rootId :: top <:+ location := by
  intro hl'
  rcases List.suffix_or_suffix_of_suffix hl hl' with hs | hs
  · have := hs.eq_of_length (by simp)
    exact hne (h.alone user other a b ha hb (List.cons.inj this).1)
  · have := hs.eq_of_length (by simp)
    exact hne (h.alone user other a b ha hb (List.cons.inj this).1.symm)

/-! ## Changes -/

/-- Sessions and working directories may change as long as every session is of a user. -/
theorem withRegistry (h : v.Settled top) {registry : Registry} {entropy : Entropy}
    (sound : registry.Sound) (credentials : registry.credential? = v.registry.credential?)
    (accounts : registry.account? = v.registry.account?)
    (owned : ∀ hash session, registry.session? hash = some session →
      v.registry.account? session.username ≠ none) :
    Settled top { v with registry, entropy } where
  storage := h.storage
  rooted := h.rooted
  sound := sound
  paired := by
    simp only [credentials, accounts]
    exact h.paired
  owned := by
    simp only [accounts]
    exact owned
  plain := by
    simp only [accounts]
    exact h.plain
  home := by
    simp only [accounts]
    exact h.home
  addressable := by
    simp only [accounts]
    exact h.addressable
  alone := by
    simp only [accounts]
    exact h.alone

/-- The tree may change as long as no root directory is lost. -/
theorem withTree (h : v.Settled top) {tree : FileTree} (rooted : tree.Rooted top)
    (home : ∀ user account, v.registry.account? user = some account →
      tree.get? (account.rootId :: top) = some .directory) :
    Settled top { v with tree } :=
  { h with rooted, home }

end Settled

end Strongroom.Vault
