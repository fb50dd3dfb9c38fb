import Strongroom.Proofs.Vault.History
/-!
# Where users are

A user is at the root after logging in or being authenticated, and from then on wherever the last
change of directory led.  Nothing else that the user or anyone else requests makes a difference.
-/

namespace Strongroom

open FileTree Strongroom.Path Registry Sessions
open Function (update update_self update_of_ne)

/-- Whether a request takes its user somewhere if it succeeds. -/
def Request.moves : Request → Bool
  | .login .. => true
  | .authenticate _ => true
  | .cd .. => true
  | _ => false

namespace Vault

/-- The working directory of a user as the user knows it. -/
def shown? (v : Vault) (user : String) : Option String :=
  (v.sandbox? user).map Sandbox.workingDirectory

/-- Whether a user logged in or was authenticated. -/
def Exchange.arrives (user : String) (x : Exchange) : Bool :=
  x.doer? == some user &&
    match x.request with
    | .login .. => true
    | .authenticate _ => true
    | _ => false

/-- The place that a user changed to, as the user knows it. -/
def Exchange.changesTo? (user : String) (x : Exchange) : Option String :=
  match x.request with
  | .cd _ raw =>
    if x.doer? = some user then (x.vault.sandbox? user).map fun s => s.display (s.resolve ⟨raw⟩)
    else none
  | _ => none

/-- Where a user is after some exchanges: the place of the last change of directory since the user
last arrived, or the root. -/
def remembered (user : String) (past : List Exchange) : String :=
  (since (·.arrives user) (·.changesTo? user) past).getLast?.getD "/"

variable {top location : Location} {v v' : Vault} {user : String} {account : Account}
  {past : List Exchange} {x : Exchange}

/-! ## One more exchange -/

theorem remembered_of_arrives (h : x.arrives user = true) : remembered user (past ++ [x]) = "/" := by
  rw [remembered, since_of_anew h]
  rfl

theorem remembered_of_changesTo? {shown : String} (h : x.arrives user = false)
    (hc : x.changesTo? user = some shown) : remembered user (past ++ [x]) = shown := by
  rw [remembered, since_of_tells h hc, List.getLast?_concat, Option.getD_some]

theorem remembered_of_stays (h : x.arrives user = false) (hc : x.changesTo? user = none) :
    remembered user (past ++ [x]) = remembered user past := by
  rw [remembered, since_of_idle h hc, remembered]

/-! ## Working directories on record -/

theorem shown?_congr (storage : v'.storageRoot = v.storageRoot)
    (account : v'.registry.account? user = v.registry.account? user)
    (directory : v'.registry.workingDirectory? user = v.registry.workingDirectory? user) :
    v'.shown? user = v.shown? user := by
  simp only [shown?, sandbox?, rootFor, rootPath, currentFor, storage, account, directory]

/-- A working directory on record, at or below the user's root directory, is where the user is. -/
theorem Settled.sandbox_of_recorded (h : v.Settled top)
    (known : v.registry.account? user = some account) (inside : account.rootId :: top <:+ location)
    (plain : ∀ n ∈ location, IsPlain n)
    (recorded : v.registry.workingDirectory? user = some ⟨user, (pathTo location).text⟩) :
    v.sandbox? user = some ⟨pathTo (account.rootId :: top), pathTo location⟩ := by
  have current : v.currentFor user (pathTo (account.rootId :: top)) = pathTo location := by
    rw [currentFor, recorded]
    exact if_pos ((Sandbox.startsWith_pathTo plain (h.plain_root known)).mpr inside)
  rw [sandbox?, h.rootFor known, Except.toOption, Option.map_some, current,
    Sandbox.of_pathTo_of_suffix (h.plain_root known) plain inside]

theorem Settled.shown_of_recorded (h : v.Settled top)
    (known : v.registry.account? user = some account) (inside : account.rootId :: top <:+ location)
    (plain : ∀ n ∈ location, IsPlain n)
    (recorded : v.registry.workingDirectory? user = some ⟨user, (pathTo location).text⟩) {s : Sandbox}
    (hs : s.root = pathTo (account.rootId :: top)) :
    v.shown? user = some (s.display (pathTo location)) := by
  rw [shown?, h.sandbox_of_recorded known inside plain recorded, Option.map_some,
    Sandbox.workingDirectory, Sandbox.display, Sandbox.display, hs]

/-- Users know their root directory as `/`. -/
theorem Settled.display_root (h : v.Settled top) (known : v.registry.account? user = some account)
    {s : Sandbox} (hs : s.root = pathTo (account.rootId :: top)) :
    s.display (pathTo (account.rootId :: top)) = "/" :=
  Sandbox.display_root (h.plain_root known) hs

/-! ## Requests -/

/-- What becomes of a user in an exchange that leaves a vault behind: the user is taken to the root,
or elsewhere, or stays. -/
inductive Exchange.Leaves (x : Exchange) (user : String) (v : Vault) : Prop
  | home (arrives : x.arrives user = true) (shown : v.shown? user = some "/")
  | elsewhere {place : String} (arrives : x.arrives user = false)
      (changes : x.changesTo? user = some place) (shown : v.shown? user = some place)
  | still (arrives : x.arrives user = false) (changes : x.changesTo? user = none)
      (shown : v.shown? user = x.vault.shown? user)

theorem Exchange.Leaves.of_doer (h : x.doer? ≠ some user)
    (shown : v'.shown? user = x.vault.shown? user) : x.Leaves user v' := by
  refine .still (by simp [Exchange.arrives, h]) ?_ shown
  unfold Exchange.changesTo?
  split
  · exact if_neg h
  · rfl

theorem Exchange.Leaves.of_request (h : x.request.moves = false)
    (shown : v'.shown? user = x.vault.shown? user) : x.Leaves user v' := by
  obtain ⟨before, request, response⟩ := x
  cases request with
  | login => cases h
  | authenticate => cases h
  | cd => cases h
  | _ => exact .still (Bool.and_false _) rfl shown

variable {request : Request} {response : Response}

/-- Only a user who arrives has a session that was not there before. -/
theorem Does.session_before (h : v.Settled top) (does : Does top v request response v') {hash : String}
    {session : Session} (found : v'.registry.session? hash = some session)
    (stays : Exchange.arrives session.username ⟨v, request, response⟩ = false) :
    v.registry.session? hash = some session := by
  refine (does.session_cases h found).resolve_right ?_
  rintro ⟨-, token, mem, -⟩
  unfold Request.issue at mem
  split at mem
  · obtain ⟨rfl, -⟩ := Prod.mk.inj (List.mem_singleton.mp mem)
    simp [Exchange.arrives, Exchange.doer?, Request.token?, Request.name?] at stays
  · cases mem

theorem Does.leaves (h : v.Settled top) (does : Does top v request response v')
    (known : v.registry.account? user ≠ none) (known' : v'.registry.account? user ≠ none) :
    Exchange.Leaves ⟨v, request, response⟩ user v' := by
  have settled' : v'.Settled top := does.settled h
  cases does with
  | refused => exact .of_doer (by simp [doer?_of_failure]) rfl
  | @expired _ token session carried found late =>
      have answers := records_deleteSession v.registry (hashToken (presented token))
      exact .of_doer (by simp [doer?_of_failure]) (shown?_congr rfl
        (congrFun (congrArg Records.account? answers) _)
        (congrFun (congrArg Records.workingDirectory? answers) _))
  | @signedUp username password salt rootId registry entropy plain directory addressable free unknown
      sound answers =>
      have hne : user ≠ username := fun same => known (same ▸ (h.paired username).mp unknown)
      refine .of_request rfl (shown?_congr rfl ?_ ?_)
      · exact (congrFun (congrArg Records.account? answers) user).trans (update_of_ne hne ..)
      · exact (congrFun (congrArg Records.workingDirectory? answers) user).trans (update_of_ne hne ..)
  | @loggedIn username password token account path registry entropy owned sound answers home =>
      have accounts : registry.account? = v.registry.account? := congrArg Records.account? answers
      have directories : registry.workingDirectory? =
          update v.registry.workingDirectory? username (some ⟨username, path⟩) :=
        congrArg Records.workingDirectory? answers
      by_cases same : username = user
      · subst home same
        obtain ⟨s, -, hs⟩ := h.sandbox owned
        refine .home (by simp [Exchange.arrives, Exchange.doer?, Request.token?, Request.name?]) ?_
        rw [settled'.shown_of_recorded (accounts ▸ owned) (List.suffix_refl _) (h.plain_root owned)
          (directories ▸ update_self ..) hs.root_eq, h.display_root owned hs.root_eq]
      · refine .of_doer (fun he => same (Option.some.inj he)) (shown?_congr rfl ?_ ?_)
        · exact congrFun accounts user
        · exact (congrFun directories user).trans (update_of_ne (Ne.symm same) ..)
  | @loggedOut token session accepts =>
      have answers := records_deleteSessionsFor h.sound.sessions session.username
      exact .of_request rfl (shown?_congr rfl (congrFun (congrArg Records.account? answers) user)
        (congrFun (congrArg Records.workingDirectory? answers) user))
  | @deleted token session account accepts owned =>
      have answers := records_forgetting h.sound session.username
      have accounts : (v.forgetting session.username).account? =
          update v.registry.account? session.username none := congrArg Records.account? answers
      have hne : user ≠ session.username := fun same => known' (by
        simp only [accounts, same, update_self])
      refine .of_request rfl (shown?_congr rfl ?_ ?_)
      · exact (congrFun accounts user).trans (update_of_ne hne ..)
      · exact (congrFun (congrArg Records.workingDirectory? answers) user).trans (update_of_ne hne ..)
  | @moved request token session path registry reply s moves accepts sound answers own lands =>
      have carried : request.token? = some token := by
        rcases moves with rfl | ⟨raw, rfl⟩ <;> rfl
      have doer := doer?_of_accepts request reply carried accepts
      have accounts : registry.account? = v.registry.account? := congrArg Records.account? answers
      have directories : registry.workingDirectory? = update v.registry.workingDirectory?
          session.username (some ⟨session.username, path⟩) :=
        congrArg Records.workingDirectory? answers
      by_cases same : session.username = user
      · subst same
        obtain ⟨account, owned⟩ := h.owner accepts.found
        obtain ⟨s', own', hs⟩ := h.sandbox owned
        obtain rfl := Option.some.inj (own.symm.trans own')
        obtain ⟨location, inside, plain, place⟩ := h.goal owned own request
        rw [place] at lands
        subst lands
        have shown := settled'.shown_of_recorded (accounts ▸ owned) inside plain
          (directories ▸ update_self ..) hs.root_eq
        rw [← place] at shown
        rcases moves with rfl | ⟨raw, rfl⟩
        · refine .home (by simp [Exchange.arrives, doer]) ?_
          rw [shown, Request.goal, hs.root_eq, h.display_root owned hs.root_eq]
          simp
        · refine .elsewhere (by simp [Exchange.arrives]) ?_ shown
          simp only [Exchange.changesTo?, doer, own, Option.map_some, if_true]
          rfl
      · refine .of_doer (fun he => same (Option.some.inj (doer.symm.trans he))) (shown?_congr rfl ?_ ?_)
        · exact congrFun accounts user
        · exact (congrFun directories user).trans (update_of_ne (Ne.symm same) ..)
  | @looked request token session reply carried accepts looks =>
      refine .of_request ?_ rfl
      cases request with
      | download => rfl
      | list => rfl
      | pwd => rfl
      | _ => cases looks
  | uploaded => exact .of_request rfl rfl
  | madeDirectory => exact .of_request rfl rfl
  | removed => exact .of_request rfl rfl

/-! ## Runs -/

/-- Wherever somebody has a session, the past tells where that user is. -/
def Remembers (past : List Exchange) (v : Vault) : Prop :=
  ∀ hash session, v.registry.session? hash = some session →
    v.shown? session.username = some (remembered session.username past)

theorem Remembers.answered (h : v.Settled top) (remembers : Remembers past v) (request : Request) :
    Remembers (past ++ [⟨v, request, (v.dispatch request).1⟩]) (v.dispatch request).2 := by
  intro hash session found
  have does := dispatch_does h request
  have known' := (does.settled h).owned hash session found
  have known : v.registry.account? session.username ≠ none := by
    rcases does.session_cases h found with old | ⟨known, -⟩
    · exact h.owned hash session old
    · exact known
  -- a session that is new comes with an arrival; any other one was there in the past
  cases does.leaves h known known' with
  | home arrives shown => rw [shown, remembered_of_arrives arrives]
  | elsewhere arrives changes shown => rw [shown, remembered_of_changesTo? arrives changes]
  | still arrives changes shown =>
      rw [shown, remembered_of_stays arrives changes]
      exact remembers hash session (does.session_before h found arrives)

theorem Opened.remembers {v₀ : Vault} (opened : v₀.Opened) (events : List Event) :
    Remembers (exchanges v₀ events) (v₀.after events) := by
  refine true_after opened (fun hash session found => ?_)
    (fun past v request settled _ remembers => remembers.answered settled request)
    (fun past v now remembers => remembers) events
  rcases opened.unknown with he | he <;> rw [he] at found <;> cases found

/-- Where a token is accepted, its user is told where the user is. -/
theorem Settled.pwd_eq (h : v.Settled top) {token : String} {session : Session}
    (accepts : v.Accepts token session) :
    ∃ shown, v.shown? session.username = some shown ∧
      (v.dispatch (.pwd token)).1 = .ok (.path shown) := by
  obtain ⟨account, known⟩ := h.owner accepts.found
  obtain ⟨s, own, -⟩ := h.sandbox known
  refine ⟨s.workingDirectory, by rw [shown?, own]; rfl, ?_⟩
  rw [dispatch_eq_ok, Request.perform, Action.runOn_map, Files.runOn_pwd (runOn_caller accepts own)]
  rfl

/-- The law of the working directory: after any run, a user with a live token is told `/` if the user
has not changed the directory since last logging in or being authenticated, and otherwise the place of
the last successful change since then.  Whatever else is requested, by this user or by others, leaves
that answer as it is. -/
theorem pwd_history {v₀ : Vault} (opened : v₀.Opened) (events : List Event) {token : String}
    {session : Session} (accepts : (v₀.after events).Accepts token session) :
    let v := v₀.after events
    let user := session.username
    (v.dispatch (.pwd token)).1 = .ok (.path (remembered user (exchanges v₀ events))) ∧
    ∀ (event : Event) (token' : String) (session' : Session),
      (v.step event).Accepts token' session' → session'.username = user →
      (∀ x ∈ event.exchange v, x.arrives user = false ∧ x.changesTo? user = none) →
      ((v.step event).dispatch (.pwd token')).1 = (v.dispatch (.pwd token)).1 := by
  intro v user
  have told : ∀ (events : List Event) (token : String) (session : Session),
      (v₀.after events).Accepts token session → ((v₀.after events).dispatch (.pwd token)).1 =
        .ok (.path (remembered session.username (exchanges v₀ events))) := by
    intro events token session accepts
    obtain ⟨shown, hs, answer⟩ := (opened.settled.after events).pwd_eq accepts
    have same := opened.remembers events _ session accepts.found
    rw [answer, Option.some.inj (hs.symm.trans same)]
  refine ⟨told events token session accepts, fun event token' session' accepts' same stays => ?_⟩
  have later : v₀.after (events ++ [event]) = v.step event := after_append v₀ events [event]
  have told' := told (events ++ [event]) token' session' (later ▸ accepts')
  rw [later] at told'
  rw [told', told events token session accepts, same, exchanges_append, exchanges, exchanges,
    List.append_nil]
  cases event with
  | clock now => rw [Event.exchange, List.append_nil]
  | request request =>
      obtain ⟨arrives, changes⟩ := stays _ (List.mem_singleton_self _)
      rw [Event.exchange, remembered_of_stays arrives changes]

/-- A user is still told of a directory that has been removed, also after someone else has signed
up. -/
theorem pwd_history_removed :
    let v := (sample (.maps .empty)).after sampleRemoval
    remembered "ada" (exchanges (sample (.maps .empty)) sampleRemoval) = "/docs" ∧
      (v.dispatch (.pwd sampleToken)).1 = .ok (.path "/docs") ∧
      ((v.step (.request (.signup "bob" "Passw0rd"))).dispatch (.pwd sampleToken)).1 =
        (v.dispatch (.pwd sampleToken)).1 := by
  have facts : presented sampleToken ≠ "" ∧
      ((sample (.maps .empty)).after sampleRemoval).registry.session?
        (hashToken (presented sampleToken)) = some ⟨hashToken (presented sampleToken), "ada", 600000⟩ ∧
      ((sample (.maps .empty)).after sampleRemoval).clock < 600000 ∧
      (((sample (.maps .empty)).after sampleRemoval).step
        (.request (.signup "bob" "Passw0rd"))).registry.session? (hashToken (presented sampleToken)) =
          some ⟨hashToken (presented sampleToken), "ada", 600000⟩ ∧
      (((sample (.maps .empty)).after sampleRemoval).step
        (.request (.signup "bob" "Passw0rd"))).clock < 600000 ∧
      remembered "ada" (exchanges (sample (.maps .empty)) sampleRemoval) = "/docs" := by
    decide +kernel
  obtain ⟨given, found, live, found', live', place⟩ := facts
  obtain ⟨told, stays⟩ := pwd_history (sample_opened (.inl rfl)) sampleRemoval ⟨given, found, live⟩
  refine ⟨place, by rw [told, place],
    stays _ sampleToken _ ⟨given, found', live'⟩ rfl fun x mem => ?_⟩
  obtain rfl := List.mem_singleton.mp mem
  exact ⟨Bool.and_false _, rfl⟩

end Vault

end Strongroom
