import Strongroom.Proofs.Vault.Settled
/-!
# Callers

A request with a token that is accepted is carried out for the user of its session, and its path is
taken in the user's sandbox: the root directory and the working directory of that moment.
-/

namespace Strongroom

open FileTree Strongroom.Path Sessions

namespace Vault

/-- The sandbox in which the paths of a user are taken. -/
def sandbox? (v : Vault) (user : String) : Option Sandbox :=
  (v.rootFor user).toOption.map fun root => Sandbox.of root (v.currentFor user root)

/-- The location that a path of a user leads to. -/
def leadsTo? (v : Vault) (user raw : String) : Option Location :=
  (v.sandbox? user).map fun s => (s.resolve ⟨raw⟩).location

variable {top : Location} {v : Vault} {token user : String} {session : Session} {account : Account}
  {s : Sandbox}

theorem Settled.sandbox (h : v.Settled top) (known : v.registry.account? user = some account) :
    ∃ s, v.sandbox? user = some s ∧ s.IsAt (account.rootId :: top) :=
  ⟨_, by rw [sandbox?, h.rootFor known]; rfl, .of_pathTo (h.plain_root known) _⟩

theorem leadsTo?_of_resolve (hs : v.sandbox? user = some s) {raw : String} {location : Location}
    (hp : ∀ n ∈ location, IsPlain n) (place : s.resolve ⟨raw⟩ = pathTo location) :
    v.leadsTo? user raw = some location := by
  rw [leadsTo?, hs, Option.map_some, place, location_pathTo hp]

/-- An accepted user's path leads to the user's root directory or below it. -/
theorem Settled.leadsTo (h : v.Settled top) (known : v.registry.account? user = some account)
    (hs : v.sandbox? user = some s) (raw : String) :
    ∃ location, account.rootId :: top <:+ location ∧ (∀ n ∈ location, IsPlain n) ∧
      s.resolve ⟨raw⟩ = pathTo location ∧ v.leadsTo? user raw = some location := by
  obtain ⟨s', hs', at_⟩ := h.sandbox known
  obtain rfl := Option.some.inj (hs.symm.trans hs')
  obtain ⟨location, inside, plain, place⟩ := at_.resolve (h.plain_root known) ⟨raw⟩
  exact ⟨location, inside, plain, place, leadsTo?_of_resolve hs plain place⟩

theorem runOn_authorize_of_accepts (ha : v.Accepts token session) :
    (authorize token).runOn v = (.ok session.username, v) := by
  rw [runOn_authorize, if_neg ha.given, ha.found]
  exact if_neg (UInt64.not_le.mpr ha.live)

theorem runOn_caller (ha : v.Accepts token session) (hs : v.sandbox? session.username = some s) :
    (Files.caller token).runOn v = (.ok ⟨session.username, s⟩, v) := by
  cases hr : v.rootFor session.username with
  | error failure => simp [sandbox?, hr, Except.toOption] at hs
  | ok root =>
      simp only [sandbox?, hr, Except.toOption, Option.map_some, Option.some.injEq] at hs
      simp [Files.caller, runOn_authorize_of_accepts ha, hr, hs, Except.map]

end Vault

/-! ## Requests about files -/

namespace Files

variable {v : Vault} {token user : String} {s : Sandbox}

theorem runOn_upload (caller : (Files.caller token).runOn v = (.ok ⟨user, s⟩, v)) (path : String)
    (body : Bytes) :
    (Files.upload token path body).runOn v =
      match v.quota.checkNameAndSize v.tree s.root (.file (saturate body.length)) (s.resolve ⟨path⟩)
        with
      | .error failure => (.error failure, v)
      | .ok () =>
        ((write v.tree (s.resolve ⟨path⟩) (s.display (s.resolve ⟨path⟩)) body).1,
          { v with tree := (write v.tree (s.resolve ⟨path⟩) (s.display (s.resolve ⟨path⟩)) body).2 }) := by
  simp only [upload, Action.runOn_bind, caller, Action.runOn_check, runOn_onTree]
  generalize v.quota.checkNameAndSize v.tree s.root _ _ = checked
  cases checked <;> rfl

theorem runOn_download (caller : (Files.caller token).runOn v = (.ok ⟨user, s⟩, v)) (path : String) :
    (Files.download token path).runOn v =
      (read v.tree (s.resolve ⟨path⟩) (s.display (s.resolve ⟨path⟩)), v) := by
  simp only [download, Action.runOn_bind, caller, Action.runOn_check]

theorem runOn_list (caller : (Files.caller token).runOn v = (.ok ⟨user, s⟩, v)) (path : String) :
    (Files.list token path).runOn v =
      (listing v.tree (s.resolve ⟨path⟩) (s.display (s.resolve ⟨path⟩)), v) := by
  simp only [list, Action.runOn_bind, caller, Action.runOn_check]

theorem runOn_mkdir (caller : (Files.caller token).runOn v = (.ok ⟨user, s⟩, v)) (path : String) :
    (Files.mkdir token path).runOn v =
      match v.quota.checkNewDirectory v.tree s.root (s.resolve ⟨path⟩) with
      | .error failure => (.error failure, v)
      | .ok () =>
        ((makeDirectory v.tree (s.resolve ⟨path⟩) (s.display (s.resolve ⟨path⟩))).1,
          { v with
            tree := (makeDirectory v.tree (s.resolve ⟨path⟩) (s.display (s.resolve ⟨path⟩))).2 }) := by
  simp only [mkdir, Action.runOn_bind, caller, Action.runOn_check, runOn_onTree]
  generalize v.quota.checkNewDirectory v.tree s.root _ = checked
  cases checked <;> rfl

theorem runOn_remove (caller : (Files.caller token).runOn v = (.ok ⟨user, s⟩, v)) (path : String) :
    (Files.remove token path).runOn v =
      if s.isRoot (s.resolve ⟨path⟩) then (.error (.validation .rootRemoval), v)
      else
        ((removeEntry v.tree (s.resolve ⟨path⟩) (s.display (s.resolve ⟨path⟩))).1,
          { v with
            tree := (removeEntry v.tree (s.resolve ⟨path⟩) (s.display (s.resolve ⟨path⟩))).2 }) := by
  simp only [remove, Action.runOn_bind, caller]
  cases s.isRoot (s.resolve ⟨path⟩) with
  | true => simp
  | false => simp

theorem runOn_pwd (caller : (Files.caller token).runOn v = (.ok ⟨user, s⟩, v)) :
    (Files.pwd token).runOn v = (.ok s.workingDirectory, v) := by
  simp only [pwd, Action.runOn_bind, caller, Action.runOn_pure]

theorem runOn_cd (caller : (Files.caller token).runOn v = (.ok ⟨user, s⟩, v)) (path : String) :
    (Files.cd token path).runOn v =
      if v.tree.isDirectory (s.resolve ⟨path⟩) then (Directories.set user (s.resolve ⟨path⟩)).runOn v
      else (.error (.notFound s!"{s.display (s.resolve ⟨path⟩)}: no such directory"), v) := by
  simp only [cd, Action.runOn_bind, caller, Action.runOn_check, Directories.target]
  cases v.tree.isDirectory (s.resolve ⟨path⟩) with
  | true => simp
  | false => simp

end Files

end Strongroom
