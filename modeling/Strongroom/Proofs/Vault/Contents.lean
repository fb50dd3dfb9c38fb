import Strongroom.Proofs.Vault.History
import Strongroom.Proofs.Vault.Limits
import Strongroom.Proofs.Vault.Listings
/-!
# What files hold

A user's files and directories are what the user's own successful requests have made of them since
the account was made: a file holds what was last uploaded to its location, whatever paths led there.
-/

namespace Strongroom

open FileTree Strongroom.Path Registry Sessions
open Function (update update_self update_of_ne)

namespace Vault

/-- What a user has done at a location. -/
inductive Deed
  | wrote (body : Bytes)
  | madeDirectory
  | removed
deriving DecidableEq, Repr

/-- Whether a user signed up. -/
def Exchange.signsUp (user : String) (x : Exchange) : Bool :=
  x.doer? == some user &&
    match x.request with
    | .signup .. => true
    | _ => false

/-- What a user did at a location, where the path of the request led at that moment. -/
def Exchange.deed? (user : String) (location : Location) (x : Exchange) : Option Deed :=
  if x.doer? = some user then
    match x.request with
    | .upload _ raw body =>
      if x.vault.leadsTo? user raw = some location then some (.wrote body) else none
    | .mkdir _ raw => if x.vault.leadsTo? user raw = some location then some .madeDirectory else none
    | .remove _ raw => if x.vault.leadsTo? user raw = some location then some .removed else none
    | _ => none
  else none

/-- What a user has done at a location since the account was made, the last deed at the end. -/
def deedsAt (user : String) (past : List Exchange) (location : Location) : List Deed :=
  since (·.signsUp user) (·.deed? user location) past

/-- The last upload or removal among some deeds. -/
def lastOfFile (deeds : List Deed) : Option Deed :=
  (deeds.filter fun deed => deed != .madeDirectory).getLast?

/-- The last making or removal of a directory among some deeds. -/
def lastOfDirectory (deeds : List Deed) : Option Deed :=
  (deeds.filter fun
    | .wrote _ => false
    | _ => true).getLast?

variable {top location : Location} {v v' : Vault} {user : String} {past : List Exchange}
  {x : Exchange} {deed : Deed}

/-! ## One more exchange -/

theorem deedsAt_of_signsUp (h : x.signsUp user = true) (location : Location) :
    deedsAt user (past ++ [x]) location = [] :=
  since_of_anew h

theorem deedsAt_of_deed? (h : x.signsUp user = false) (hd : x.deed? user location = some deed) :
    deedsAt user (past ++ [x]) location = deedsAt user past location ++ [deed] :=
  since_of_tells h hd

theorem deedsAt_of_idle (h : x.signsUp user = false) (hd : x.deed? user location = none) :
    deedsAt user (past ++ [x]) location = deedsAt user past location :=
  since_of_idle h hd

theorem lastOfFile_concat (deeds : List Deed) (deed : Deed) :
    lastOfFile (deeds ++ [deed]) = if deed = .madeDirectory then lastOfFile deeds else some deed := by
  by_cases h : deed = .madeDirectory <;> simp [lastOfFile, h]

theorem lastOfDirectory_concat (deeds : List Deed) (deed : Deed) :
    lastOfDirectory (deeds ++ [deed]) =
      match deed with
      | .wrote _ => lastOfDirectory deeds
      | deed => some deed := by
  cases deed <;> simp [lastOfDirectory]

/-- Whether a request changes the files of its user if it succeeds. -/
def changesFiles : Request → Bool
  | .signup .. => true
  | .upload .. => true
  | .mkdir .. => true
  | .remove .. => true
  | _ => false

/-- An exchange in which a user has changed no files. -/
def Exchange.Idle (user : String) (x : Exchange) : Prop :=
  x.signsUp user = false ∧ ∀ location, x.deed? user location = none

theorem idle_of_doer (h : x.doer? ≠ some user) : x.Idle user :=
  ⟨by simp [Exchange.signsUp, h], fun location => if_neg h⟩

theorem idle_of_request (h : changesFiles x.request = false) : x.Idle user := by
  obtain ⟨before, request, response⟩ := x
  refine ⟨?_, fun location => ?_⟩
  · cases request with
    | signup => cases h
    | _ => exact Bool.and_false _
  · cases request with
    | upload => cases h
    | mkdir => cases h
    | remove => cases h
    | _ => exact ite_self none

/-! ## Entries and deeds -/

/-- What stands at a location is what the deeds there have left. -/
structure LeftBy (deeds : List Deed) (found : Option Entry) : Prop where
  file : ∀ body, found = some (.file body) ↔ lastOfFile deeds = some (.wrote body)
  directory : found = some .directory ↔ lastOfDirectory deeds = some .madeDirectory

namespace LeftBy

variable {found : Option Entry} {deeds : List Deed}

theorem nothing : LeftBy [] none :=
  ⟨fun body => by simp [lastOfFile], by simp [lastOfDirectory]⟩

theorem wrote (h : LeftBy deeds found) (file : found ≠ some .directory) (body : Bytes) :
    LeftBy (deeds ++ [.wrote body]) (some (.file body)) := by
  refine ⟨fun other => by simp [lastOfFile_concat], ?_⟩
  rw [lastOfDirectory_concat, ← h.directory]
  simp [file]

theorem madeDirectory (h : LeftBy deeds found) (free : found = none) :
    LeftBy (deeds ++ [.madeDirectory]) (some .directory) := by
  refine ⟨fun body => ?_, by simp [lastOfDirectory_concat]⟩
  rw [lastOfFile_concat, if_pos rfl, ← h.file, free]
  simp

theorem removed (deeds : List Deed) : LeftBy (deeds ++ [.removed]) none :=
  ⟨fun body => by simp [lastOfFile_concat], by simp [lastOfDirectory_concat]⟩

end LeftBy

/-- Below a user's root directory stands what the user has left there, and nothing has been done at
the root directory itself. -/
structure Keeps (user : String) (past : List Exchange) (t : FileTree) (root : Location) : Prop where
  below : ∀ location, isBelow root location = true →
    LeftBy (deedsAt user past location) (t.get? location)
  root : deedsAt user past root = []

namespace Keeps

variable {t t' : FileTree} {root : Location}

theorem start (signsUp : x.signsUp user = true)
    (nothing : ∀ location, isBelow root location = true → t'.get? location = none) :
    Keeps user (past ++ [x]) t' root := by
  refine ⟨fun location hb => ?_, deedsAt_of_signsUp signsUp root⟩
  rw [deedsAt_of_signsUp signsUp, nothing location hb]
  exact .nothing

theorem idle (h : Keeps user past t root) (idle : x.Idle user)
    (same : ∀ location, isBelow root location = true → t'.get? location = t.get? location) :
    Keeps user (past ++ [x]) t' root := by
  refine ⟨fun location hb => ?_, ?_⟩
  · rw [deedsAt_of_idle idle.1 (idle.2 location), same location hb]
    exact h.below location hb
  · rw [deedsAt_of_idle idle.1 (idle.2 root), h.root]

theorem after_deed {place : Location} (h : Keeps user past t root) (hb : isBelow root place = true)
    (signsUp : x.signsUp user = false)
    (did : ∀ location, x.deed? user location = if location = place then some deed else none)
    (left : LeftBy (deedsAt user past place ++ [deed]) (t'.get? place))
    (same : ∀ location, location ≠ place → t'.get? location = t.get? location) :
    Keeps user (past ++ [x]) t' root := by
  have elsewhere : ∀ location, location ≠ place →
      deedsAt user (past ++ [x]) location = deedsAt user past location := fun location away =>
    deedsAt_of_idle signsUp ((did location).trans (if_neg away))
  refine ⟨fun location below => ?_, ?_⟩
  · by_cases here : location = place
    · rw [here, deedsAt_of_deed? signsUp ((did place).trans (if_pos rfl))]
      exact left
    · rw [elsewhere location here, same location here]
      exact h.below location below
  · rw [elsewhere root fun here => (isBelow_iff.mp hb).2 here.symm, h.root]

end Keeps

/-! ## Requests -/

/-- Whoever has an account finds below the root directory what the past has left there. -/
def Follows (top : Location) (past : List Exchange) (v : Vault) : Prop :=
  ∀ user account, v.registry.account? user = some account →
    Keeps user past v.tree (account.rootId :: top)

theorem Follows.idle (follows : Follows top past v) (idle : ∀ user, x.Idle user)
    (accounts : v'.registry.account? = v.registry.account?) (tree : v'.tree = v.tree) :
    Follows top (past ++ [x]) v' := fun user account known =>
  (follows user account (accounts ▸ known)).idle (idle user) fun location _ => by rw [tree]

/-- A deed of one user at one place leaves all others with what they had. -/
theorem Follows.after_deed (h : v.Settled top) (follows : Follows top past v) {session : Session}
    {account : Account} {name : Name} {parent : Location} {tree : FileTree}
    (target : v.Target top session account name parent) (deed : Deed)
    (doer : x.doer? = some session.username) (signsUp : x.signsUp session.username = false)
    (did : ∀ location, x.deed? session.username location =
      if location = name :: parent then some deed else none)
    (left : LeftBy (deedsAt session.username past (name :: parent)) (v.tree.get? (name :: parent)) →
      LeftBy (deedsAt session.username past (name :: parent) ++ [deed]) (tree.get? (name :: parent)))
    (same : ∀ location, location ≠ name :: parent → tree.get? location = v.tree.get? location) :
    Follows top (past ++ [x]) { v with tree } := by
  intro user other known
  have below : isBelow (account.rootId :: top) (name :: parent) = true := isBelow_cons.mpr target.inside
  by_cases own : session.username = user
  · subst own
    obtain rfl := Option.some.inj (target.known.symm.trans known)
    have kept := follows _ _ target.known
    exact kept.after_deed below signsUp did (left (kept.below _ below)) same
  · refine (follows user other known).idle (idle_of_doer fun he => ?_)
      fun location hb => same _ fun he => ?_
    · exact own (Option.some.inj (doer.symm.trans he))
    · exact target.outside h known own (he ▸ hb)

theorem Does.follows {request : Request} {response : Response} (h : v.Settled top)
    (follows : Follows top past v) (does : Does top v request response v') :
    Follows top (past ++ [⟨v, request, response⟩]) v' := by
  cases does with
  | refused => exact follows.idle (fun user => idle_of_doer (by simp [doer?_of_failure])) rfl rfl
  | expired =>
      exact follows.idle (fun user => idle_of_doer (by simp [doer?_of_failure]))
        (congrArg Records.account? (records_deleteSession v.registry _)) rfl
  | @signedUp username password salt rootId registry entropy plain directory addressable free unknown
      sound answers =>
      have accounts : registry.account? = update v.registry.account? username
          (some ⟨username, rootId⟩) := congrArg Records.account? answers
      have away : ∀ root location, isBelow (root :: top) location = true → location ≠ rootId :: top := by
        rintro root location hb rfl
        obtain ⟨inside, hne⟩ := isBelow_iff.mp hb
        exact hne (inside.eq_of_length (by simp)).symm
      intro user account known
      simp only [accounts, Function.update_apply] at known
      split at known
      · rename_i same
        obtain rfl := Option.some.inj known
        subst same
        -- whatever an earlier account of that name has done is forgotten, and nothing is left of it
        refine .start (by simp [Exchange.signsUp, Exchange.doer?, Request.token?, Request.name?])
          fun location hb => ?_
        rw [get?_insert_of_ne (List.cons_ne_nil _ _) (away _ _ hb)]
        exact get?_of_below_eq_nil (h.below_free free) hb
      · rename_i other
        refine (follows user account known).idle (idle_of_doer fun he => other ?_) fun location hb => ?_
        · exact (Option.some.inj he).symm
        · rw [get?_insert_of_ne (List.cons_ne_nil _ _) (away _ _ hb)]
  | loggedIn known sound answers =>
      exact follows.idle (fun user => idle_of_request rfl) (congrArg Records.account? answers) rfl
  | loggedOut =>
      exact follows.idle (fun user => idle_of_request rfl)
        (congrArg Records.account? (records_deleteSessionsFor h.sound.sessions _)) rfl
  | @deleted token session account accepts owned =>
      have accounts : (v.forgetting session.username).account? =
          update v.registry.account? session.username none :=
        congrArg Records.account? (records_forgetting h.sound session.username)
      intro user other known
      simp only [accounts, Function.update_apply] at known
      split at known
      · cases known
      · rename_i hne
        refine (follows user other known).idle (idle_of_request rfl) fun location hb => ?_
        -- all others keep their accounts, and none of their files is in the removed directory
        have outside : ¬ account.rootId :: top <:+ location :=
          h.not_suffix known owned hne (isBelow_iff.mp hb).1
        rw [get?_erase_of_ne (List.cons_ne_nil _ _) fun he => outside (he ▸ List.suffix_refl _),
          get?_clear, if_neg fun below => outside (isBelow_iff.mp below).1]
  | moved moves accepts sound answers =>
      refine follows.idle (fun user => idle_of_request ?_) (congrArg Records.account? answers) rfl
      rcases moves with rfl | ⟨raw, rfl⟩ <;> rfl
  | @looked request token session reply carried accepts looks =>
      refine follows.idle (fun user => idle_of_request ?_) rfl rfl
      cases request with
      | download => rfl
      | list => rfl
      | pwd => rfl
      | _ => cases looks
  | @uploaded token path body session account name parent accepts target checked file leads =>
      have doer := doer?_of_accepts (.upload token path body) .empty rfl accepts
      refine follows.after_deed h target (.wrote body) doer (Bool.and_false _) (fun location => ?_)
        (fun kept => ?_) fun location => get?_insert_of_ne (List.cons_ne_nil _ _)
      · simp only [Exchange.deed?, doer, if_true, leads, Option.some.injEq, eq_comm]
      · rw [get?_insert_self (List.cons_ne_nil _ _)]
        exact kept.wrote file body
  | @madeDirectory token path session account name parent accepts target checked free leads =>
      have doer := doer?_of_accepts (.mkdir token path) .empty rfl accepts
      refine follows.after_deed h target .madeDirectory doer (Bool.and_false _) (fun location => ?_)
        (fun kept => ?_) fun location => get?_insert_of_ne (List.cons_ne_nil _ _)
      · simp only [Exchange.deed?, doer, if_true, leads, Option.some.injEq, eq_comm]
      · rw [get?_insert_self (List.cons_ne_nil _ _)]
        exact kept.madeDirectory free
  | @removed token path session account name parent accepts target emptied leads =>
      have doer := doer?_of_accepts (.remove token path) .empty rfl accepts
      refine follows.after_deed h target .removed doer (Bool.and_false _) (fun location => ?_)
        (fun kept => ?_) fun location => get?_erase_of_ne (List.cons_ne_nil _ _)
      · simp only [Exchange.deed?, doer, if_true, leads, Option.some.injEq, eq_comm]
      · rw [get?_erase _ (List.cons_ne_nil _ _), if_pos rfl]
        exact .removed _

theorem Opened.follows {v₀ : Vault} (opened : v₀.Opened) (events : List Event) :
    Follows v₀.base (exchanges v₀ events) (v₀.after events) := by
  refine true_after opened (fun user account known => ?_)
    (fun past v request settled _ follows => (dispatch_does settled request).follows settled follows)
    (fun past v now follows => follows) events
  rcases opened.unknown with he | he <;> rw [he] at known <;> cases known

/-! ## Answers -/

theorem Follows.leftBy (h : v.Settled top) (follows : Follows top past v) {account : Account}
    (known : v.registry.account? user = some account) (inside : account.rootId :: top <:+ location)
    (body : Bytes) :
    v.tree.get? location = some (.file body) ↔
      lastOfFile (deedsAt user past location) = some (.wrote body) := by
  have kept := follows user account known
  by_cases here : location = account.rootId :: top
  · rw [here, kept.root, h.home user account known]
    simp [lastOfFile]
  · exact (kept.below location (isBelow_iff.mpr ⟨inside, here⟩)).file body

section

variable {token : String} {session : Session} {account : Account} {s : Sandbox} {place : Location}

theorem InStep.addressable_place (inStep : v.InStep top) (inside : account.rootId :: top <:+ place)
    (found : v.tree.get? place ≠ none) : Addressable place := by
  refine inStep.addressable place (isBelow_iff.mpr ⟨(List.suffix_cons ..).trans inside, ?_⟩) found
  rintro rfl
  have long := inside.length_le
  simp at long

theorem Follows.download_eq_ok (h : v.Settled top) (inStep : v.InStep top)
    (follows : Follows top past v) (accepts : v.Accepts token session)
    (known : v.registry.account? session.username = some account)
    (own : v.sandbox? session.username = some s) (inside : account.rootId :: top <:+ place)
    (plain : ∀ n ∈ place, IsPlain n) {path : String} (resolved : s.resolve ⟨path⟩ = pathTo place)
    (body : Bytes) :
    (v.dispatch (.download token path)).1 = .ok (.body body) ↔
      lastOfFile (deedsAt session.username past place) = some (.wrote body) := by
  have read : Files.read v.tree (pathTo place) (s.display (pathTo place)) = .ok body ↔
      v.tree.get? place = some (.file body) ∧ Addressable place :=
    Files.read_eq_ok h.rooted ((List.suffix_cons ..).trans inside) plain
  have answered : (v.dispatch (.download token path)).1 = .ok (.body body) ↔
      Files.read v.tree (pathTo place) (s.display (pathTo place)) = .ok body := by
    rw [dispatch_eq_ok, Request.perform, Action.runOn_map,
      Files.runOn_download (runOn_caller accepts own), resolved]
    cases Files.read v.tree (pathTo place) (s.display (pathTo place)) <;> simp [Except.map]
  rw [answered, read, ← follows.leftBy h known inside]
  exact and_iff_left_of_imp fun file => inStep.addressable_place inside (by simp [file])

/-- The names in a directory are listed once each, in the order of their bytes, with what the deeds at
each of them have left. -/
theorem Follows.list_eq_ok (h : v.Settled top) (inStep : v.InStep top)
    (follows : Follows top past v) (accepts : v.Accepts token session)
    (known : v.registry.account? session.username = some account)
    (own : v.sandbox? session.username = some s) (inside : account.rootId :: top <:+ place)
    (plain : ∀ n ∈ place, IsPlain n) {path : String} (resolved : s.resolve ⟨path⟩ = pathTo place)
    (directory : v.tree.get? place = some .directory) :
    ∃ entries, (v.dispatch (.list token path)).1 = .ok (.entries entries) ∧
      entries.Pairwise (fun a b => Bytes.ofText a.name < Bytes.ofText b.name) ∧
      (∀ name, (∃ isDirectory, ⟨name, isDirectory⟩ ∈ entries) ↔ v.tree.get? (name :: place) ≠ none) ∧
      (∀ name, ⟨name, false⟩ ∈ entries ↔
        ∃ body, lastOfFile (deedsAt session.username past (name :: place)) = some (.wrote body)) ∧
      (∀ name, ⟨name, true⟩ ∈ entries ↔
        lastOfDirectory (deedsAt session.username past (name :: place)) = some .madeDirectory) := by
  have below : top <:+ place := (List.suffix_cons ..).trans inside
  have children : v.tree.readDirectory (pathTo place) = .ok (v.tree.children place) :=
    (h.rooted.readDirectory_eq_ok below plain).mpr
      ⟨rfl, directory, inStep.addressable_place inside (by simp [directory])⟩
  have line (name : Name) (isDirectory : Bool) :
      ⟨name, isDirectory⟩ ∈ Files.lines (v.tree.children place) ↔
        ∃ entry, v.tree.get? (name :: place) = some entry ∧ isDirectory = (entry == .directory) := by
    simp only [Files.mem_lines, inStep.distinct.mem_children below]
  have kept (name : Name) := (follows _ _ known).below (name :: place) (isBelow_cons.mpr inside)
  refine ⟨Files.lines (v.tree.children place), ?_, Files.pairwise_lines (inStep.distinct.names below),
    fun name => ?_, fun name => ?_, fun name => ?_⟩
  · rw [dispatch_eq_ok, Request.perform, Action.runOn_map,
      Files.runOn_list (runOn_caller accepts own), resolved, Files.listing_of_ok children]
    rfl
  · simp only [line]
    constructor
    · rintro ⟨isDirectory, entry, found, -⟩
      simp [found]
    · intro found
      obtain ⟨entry, found⟩ := Option.ne_none_iff_exists'.mp found
      exact ⟨_, entry, found, rfl⟩
  · simp only [line, ← (kept name).file]
    constructor
    · rintro ⟨entry, found, file⟩
      cases entry with
      | directory => cases file
      | link target => exact absurd found (h.rooted.not_link (below.trans (List.suffix_cons ..)) target)
      | file body => exact ⟨body, found⟩
    · rintro ⟨body, found⟩
      exact ⟨_, found, rfl⟩
  · simp only [line, ← (kept name).directory]
    constructor
    · rintro ⟨entry, found, isDirectory⟩
      rw [found, beq_iff_eq.mp isDirectory.symm]
    · intro found
      exact ⟨_, found, rfl⟩

end

/-- Stored files follow the last write: after any run, a user with a live token downloads from a path
exactly what the last of the user's successful uploads and removals at the same location has left
there, whatever paths led to it, and a directory is listed with one line for each of its children, in
the order of the bytes of their names: as a file if it was uploaded last, and as a directory if it was
made last. -/
theorem contents_history {v₀ : Vault} (opened : v₀.Opened) (events : List Event) {token : String}
    {session : Session} (accepts : (v₀.after events).Accepts token session) (path : String) :
    let v := v₀.after events
    let deeds := deedsAt session.username (exchanges v₀ events)
    ∃ place, v.leadsTo? session.username path = some place ∧
      (∀ body, (v.dispatch (.download token path)).1 = .ok (.body body) ↔
        lastOfFile (deeds place) = some (.wrote body)) ∧
      (v.tree.get? place = some .directory → ∃ entries,
        (v.dispatch (.list token path)).1 = .ok (.entries entries) ∧
        entries.Pairwise (fun a b => Bytes.ofText a.name < Bytes.ofText b.name) ∧
        (∀ name, (∃ isDirectory, ⟨name, isDirectory⟩ ∈ entries) ↔
          v.tree.get? (name :: place) ≠ none) ∧
        (∀ name, ⟨name, false⟩ ∈ entries ↔
          ∃ body, lastOfFile (deeds (name :: place)) = some (.wrote body)) ∧
        (∀ name, ⟨name, true⟩ ∈ entries ↔
          lastOfDirectory (deeds (name :: place)) = some .madeDirectory)) := by
  intro v deeds
  have settled : v.Settled v₀.base := opened.settled.after events
  have inStep : v.InStep v₀.base := opened.inStep.after opened.settled events
  have follows : Follows v₀.base (exchanges v₀ events) v := opened.follows events
  obtain ⟨account, known⟩ := settled.owner accepts.found
  obtain ⟨s, own, -⟩ := settled.sandbox known
  obtain ⟨place, inside, plain, resolved, leads⟩ := settled.leadsTo known own path
  exact ⟨place, leads,
    follows.download_eq_ok settled inStep accepts known own inside plain resolved,
    follows.list_eq_ok settled inStep accepts known own inside plain resolved⟩

/-- A file is written twice, the second time under another path and from another directory. -/
def overwriting : List Event :=
  sampleLogin ++ [.request (.mkdir sampleToken "docs"), .request (.upload sampleToken "docs/note" [1]),
    .request (.cd sampleToken "docs"), .request (.upload sampleToken "./../docs/note" [2])]

/-- What was uploaded last is what is downloaded, also when no two of the paths are alike. -/
theorem contents_history_overwritten :
    let v := (sample (.maps .empty)).after overwriting
    v.leadsTo? "ada" "/docs/note" = some ["note", "docs", "r1011121314151617", "vault"] ∧
      (v.dispatch (.download sampleToken "/docs/note")).1 = .ok (.body [2]) := by
  have facts : presented sampleToken ≠ "" ∧
      ((sample (.maps .empty)).after overwriting).registry.session?
        (hashToken (presented sampleToken)) = some ⟨hashToken (presented sampleToken), "ada", 600000⟩ ∧
      ((sample (.maps .empty)).after overwriting).clock < 600000 ∧
      ((sample (.maps .empty)).after overwriting).leadsTo? "ada" "/docs/note" =
        some ["note", "docs", "r1011121314151617", "vault"] ∧
      lastOfFile (deedsAt "ada" (exchanges (sample (.maps .empty)) overwriting)
        ["note", "docs", "r1011121314151617", "vault"]) = some (.wrote [2]) := by decide +kernel
  obtain ⟨given, found, live, leads, last⟩ := facts
  obtain ⟨place, leads', files, -⟩ := contents_history (sample_opened (.inl rfl)) overwriting
    ⟨given, found, live⟩ "/docs/note"
  obtain rfl := Option.some.inj (leads.symm.trans leads')
  exact ⟨leads, (files [2]).mpr last⟩

end Vault

end Strongroom
