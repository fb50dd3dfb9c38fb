import Strongroom.Proofs.Access.Interleaving
import Strongroom.Proofs.Access.SessionHistory
import Strongroom.Proofs.Registry.SessionRows
/-!
# Sessions beside each other

Any number of calls issue tokens, look tokens up and withdraw tokens at the same time.  A token that has
been issued is recorded only once, so that it does not come back after its session is gone; and a call that
removes a session because its token had expired removes no other one, whatever was issued in the meantime.
-/

namespace Strongroom.Sessions.Race

open Registry
open Function (update)

/-! ## The steps of a call -/

/-- What a call that succeeds gives back. -/
inductive Answer
  | token (token : String)
  | user (user : String)
  | nothing
deriving DecidableEq

/-- How far a call has come: what it does next, or its outcome.  A call that looks a token up may be one
that moves the user back to the root as well. -/
inductive Stage
  | drawing (user : String)
  | timing (user token : String)
  | replacing (user token : String) (expiresAt : UInt64)
  | looking (resets : Bool) (token : String)
  | comparing (resets : Bool) (token : String) (session : Session)
  | deleting (token : String)
  | resetting (user : String)
  | setting (user : String) (root : Path)
  | withdrawing (user : String)
  | done (outcome : Except Failure Answer)
deriving DecidableEq

/-- A call to the sessions of a vault, in steps. -/
def steps : Procedure Stage where
  next
    | .drawing user => do
      return .timing user (← Action.draw Entropy.token)
    | .timing user token => do
      return .replacing user token (← Action.ask fun v => expiry v.clock v.ttlMillis)
    | .replacing user token expiresAt => do
      Action.tryRegistry fun r => r.replaceSession ⟨hashToken token, user, expiresAt⟩
      return .done (.ok (.token token))
    | .looking resets token => do
      let token := presented token
      if token = "" then throw (.authentication .missingToken)
      match ← Action.ask fun v => v.registry.session? (hashToken token) with
      | none => throw (.authentication .invalidToken)
      | some session => return .comparing resets token session
    | .comparing resets token session => do
      if session.expiresAt ≤ (← Action.ask (·.clock)) then return .deleting token
      return if resets then .resetting session.username else .done (.ok (.user session.username))
    | .deleting token => do
      Action.changeRegistry fun r => r.deleteSession (hashToken token)
      throw (.authentication .expired)
    | .resetting user => do
      return .setting user (← Action.check fun v => v.rootFor user)
    | .setting user root => do
      Directories.set user root
      return .done (.ok (.user user))
    | .withdrawing user => do
      Action.changeRegistry fun r => r.deleteSessionsFor user
      return .done (.ok .nothing)
    | .done outcome => return .done outcome
  failed failure := .done (.error failure)

section

variable (resets : Bool) (user token : String) (expiresAt : UInt64) (session : Session) (root : Path)
  (v : Vault)

theorem advance_drawing : steps.advance (.drawing user) v =
    (.timing user v.entropy.token.1, { v with entropy := v.entropy.token.2 }) := rfl

theorem advance_timing : steps.advance (.timing user token) v =
    (.replacing user token (expiry v.clock v.ttlMillis), v) := rfl

theorem advance_replacing : steps.advance (.replacing user token expiresAt) v =
    match v.registry.replaceSession ⟨hashToken token, user, expiresAt⟩ with
    | (.ok (), registry) => (.done (.ok (.token token)), { v with registry })
    | (.error failure, registry) => (.done (.error failure.toFailure), { v with registry }) := by
  simp only [Procedure.advance, steps, Action.runOn_bind, Action.runOn_tryRegistry]
  generalize v.registry.replaceSession _ = result
  obtain ⟨outcome, registry⟩ := result
  cases outcome <;> rfl

theorem advance_looking : steps.advance (.looking resets token) v =
    if presented token = "" then (.done (.error (.authentication .missingToken)), v)
    else
      match v.registry.session? (hashToken (presented token)) with
      | none => (.done (.error (.authentication .invalidToken)), v)
      | some session => (.comparing resets (presented token) session, v) := by
  by_cases blank : presented token = ""
  · simp [Procedure.advance, steps, blank]
  · cases found : v.registry.session? (hashToken (presented token)) <;>
      simp [Procedure.advance, steps, blank, found]

theorem advance_comparing : steps.advance (.comparing resets token session) v =
    if session.expiresAt ≤ v.clock then (.deleting token, v)
    else (if resets then .resetting session.username else .done (.ok (.user session.username)), v) := by
  by_cases late : session.expiresAt ≤ v.clock <;> simp [Procedure.advance, steps, late]

theorem advance_deleting : steps.advance (.deleting token) v =
    (.done (.error (.authentication .expired)),
      { v with registry := v.registry.deleteSession (hashToken token) }) := rfl

theorem advance_resetting : steps.advance (.resetting user) v =
    match v.rootFor user with
    | .ok root => (.setting user root, v)
    | .error failure => (.done (.error failure), v) := by
  cases hr : v.rootFor user <;> simp [Procedure.advance, steps, hr, Except.map]

theorem advance_setting : steps.advance (.setting user root) v =
    (.done (.ok (.user user)),
      { v with registry := (v.registry.putWorkingDirectory ⟨user, root.text⟩).2 }) := by
  obtain ⟨after, he, -⟩ := putWorkingDirectory_eq v.registry ⟨user, root.text⟩
  simp [Procedure.advance, steps, Directories.set, he, Except.map]

/-- A call that has its outcome does nothing any more. -/
theorem alone_done (n : Nat) (outcome : Except Failure Answer) :
    steps.alone n (.done outcome) v = (.done outcome, v) := by
  induction n with
  | zero => rfl
  | succ n ih => exact ih

/-- The steps that a call takes by itself are those of issuing a token. -/
theorem alone_eq_issue : steps.alone 3 (.drawing user) v =
    (.done (((issue user).runOn v).1.map .token), ((issue user).runOn v).2) := by
  simp only [Procedure.alone, advance_drawing, advance_timing, advance_replacing, runOn_issue]
  generalize v.registry.replaceSession _ = result
  obtain ⟨outcome, registry⟩ := result
  cases outcome <;> rfl

/-- A call that has looked a token up has done what becomes of it, and goes on from the user. -/
theorem alone_looking (n : Nat) : steps.alone (n + 3) (.looking resets token) v =
    match (authorize token).runOn v with
    | (.ok user, v) => steps.alone (n + 1) (if resets then .resetting user else .done (.ok (.user user))) v
    | (.error failure, v) => (.done (.error failure), v) := by
  rw [Procedure.alone, advance_looking, runOn_authorize]
  by_cases blank : presented token = ""
  · simp only [blank, if_true, alone_done]
  simp only [blank, if_false]
  cases found : v.registry.session? (hashToken (presented token)) with
  | none => simp only [alone_done]
  | some session =>
      rw [Procedure.alone, advance_comparing]
      by_cases late : session.expiresAt ≤ v.clock
      · simp only [late, if_true, Procedure.alone, advance_deleting, alone_done]
      · simp only [late, if_false]

theorem alone_resetting : steps.alone 2 (.resetting user) v =
    (.done (((Directories.reset user).runOn v).1.map fun _ => .user user),
      ((Directories.reset user).runOn v).2) := by
  rw [Procedure.alone, advance_resetting]
  cases hr : v.rootFor user with
  | error failure =>
      simp only [alone_done, Directories.reset, Action.runOn_bind, Action.runOn_check, hr]
      rfl
  | ok root =>
      obtain ⟨after, he, -⟩ := putWorkingDirectory_eq v.registry ⟨user, root.text⟩
      simp [Procedure.alone, advance_setting, Directories.reset, Directories.set, hr, he, Except.map]

/-- The steps that a call takes by itself are those of looking a token up. -/
theorem alone_eq_authorize : steps.alone 3 (.looking false token) v =
    (.done (((authorize token).runOn v).1.map .user), ((authorize token).runOn v).2) := by
  rw [alone_looking]
  rcases (authorize token).runOn v with ⟨failure | user, v⟩ <;> rfl

/-- The steps that a call takes by itself are those of looking a token up and moving its user back. -/
theorem alone_eq_validate : steps.alone 4 (.looking true token) v =
    (.done (((validate token).runOn v).1.map .user), ((validate token).runOn v).2) := by
  rw [alone_looking, validate, Action.runOn_bind]
  rcases (authorize token).runOn v with ⟨failure | user, v⟩
  · rfl
  · simp only [if_true, Nat.reduceAdd, alone_resetting, Action.runOn_bind]
    rcases (Directories.reset user).runOn v with ⟨failure | root, v⟩ <;> rfl

/-- The step that a call takes by itself is that of withdrawing the tokens of a user. -/
theorem alone_eq_invalidate : steps.alone 1 (.withdrawing user) v =
    (.done (((invalidate user).runOn v).1.map fun _ => .nothing), ((invalidate user).runOn v).2) := rfl

end

/-! ## What one step does -/

namespace Stage

/-- The call has not taken a step. -/
def Begins : Stage → Prop
  | .drawing _ | .looking _ _ | .withdrawing _ => True
  | _ => False

/-- The token that a call has drawn and not recorded yet. -/
def pending? : Stage → Option String
  | .timing _ token | .replacing _ token _ => some token
  | _ => none

/-- The token whose session a call has found. -/
def found? : Stage → Option String
  | .comparing _ token _ | .deleting token => some token
  | _ => none

/-- The token that a call has issued. -/
def issued? : Stage → Option String
  | .done (.ok (.token token)) => some token
  | _ => none

theorem issued?_eq_some {stage : Stage} {token : String} :
    stage.issued? = some token ↔ stage = .done (.ok (.token token)) := by
  constructor
  · intro h
    unfold issued? at h
    split at h
    · rw [Option.some.inj h]
    · cases h
  · rintro rfl
    rfl

/-- The token that a call draws as it takes its next step, if it draws one. -/
def draws (v : Vault) : Stage → List String
  | .drawing _ => [v.entropy.token.1]
  | _ => []

/-- The token that a call looks up as it takes its next step, if it looks one up. -/
def presents (_ : Vault) : Stage → List String
  | .looking _ token => [presented token]
  | _ => []

end Stage

/-- What the next step of a call can do. -/
inductive Moves (v : Vault) : Stage → Stage → Vault → Prop
  | draws {user} :
      Moves v (.drawing user) (.timing user v.entropy.token.1) { v with entropy := v.entropy.token.2 }
  | times {user token} :
      Moves v (.timing user token) (.replacing user token (expiry v.clock v.ttlMillis)) v
  | replaces {user token expiresAt registry}
      (entered : v.registry.replaceSession ⟨hashToken token, user, expiresAt⟩ = (.ok (), registry)) :
      Moves v (.replacing user token expiresAt) (.done (.ok (.token token))) { v with registry }
  | finds {resets token session} (found : v.registry.session? (hashToken (presented token)) = some session) :
      Moves v (.looking resets token) (.comparing resets (presented token) session) v
  | expires {resets token session} (late : session.expiresAt ≤ v.clock) :
      Moves v (.comparing resets token session) (.deleting token) v
  | deletes {token} :
      Moves v (.deleting token) (.done (.error (.authentication .expired)))
        { v with registry := v.registry.deleteSession (hashToken token) }
  | sets {user root} :
      Moves v (.setting user root) (.done (.ok (.user user)))
        { v with registry := (v.registry.putWorkingDirectory ⟨user, root.text⟩).2 }
  | withdraws {user} :
      Moves v (.withdrawing user) (.done (.ok .nothing))
        { v with registry := v.registry.deleteSessionsFor user }
  | rests {stage next} (pending : next.pending? = none) (found : next.found? = none)
      (issued : next = stage ∨ next.issued? = none) : Moves v stage next v

section

variable {v w : Vault} {stage next : Stage}

theorem moves_of_advance (orderly : v.registry.Orderly) (stage : Stage) :
    Moves v stage (steps.advance stage v).1 (steps.advance stage v).2 := by
  cases stage with
  | drawing user => exact .draws
  | timing user token => exact .times
  | replacing user token expiresAt =>
      rw [advance_replacing]
      rcases replaceSession_cases orderly.sessionKeys ⟨hashToken token, user, expiresAt⟩ with
        ⟨failure, other, he, -⟩ | ⟨after, he, -⟩
      · rw [he]
        exact .rests rfl rfl (.inr rfl)
      · rw [he]
        exact .replaces he
  | looking resets token =>
      rw [advance_looking]
      split
      · exact .rests rfl rfl (.inr rfl)
      · cases found : v.registry.session? (hashToken (presented token)) with
        | none => exact .rests rfl rfl (.inr rfl)
        | some session => exact .finds found
  | comparing resets token session =>
      rw [advance_comparing]
      split
      · exact .expires ‹_›
      · cases resets <;> exact .rests rfl rfl (.inr rfl)
  | deleting token => exact .deletes
  | resetting user =>
      rw [advance_resetting]
      cases v.rootFor user <;> exact .rests rfl rfl (.inr rfl)
  | setting user root =>
      rw [advance_setting]
      exact .sets
  | withdrawing user => exact .withdraws
  | done outcome => exact .rests rfl rfl (.inl rfl)

namespace Moves

theorem orderly (m : Moves v stage next w) (h : v.registry.Orderly) : w.registry.Orderly := by
  cases m with
  | draws | times | finds | expires | rests => exact h
  | replaces entered => exact h.replaceSession entered
  | deletes => exact h.deleteSession _
  | sets => exact h.putWorkingDirectory _
  | withdraws => exact h.deleteSessionsFor _

/-- A session that was not there is that of the token that the call has had pending. -/
theorem session?_of_none (m : Moves v stage next w) (h : v.registry.Orderly) {hash : String}
    (absent : v.registry.session? hash = none) (there : w.registry.session? hash ≠ none) :
    ∃ token, stage.pending? = some token ∧ next.pending? = none ∧ hash = hashToken token := by
  cases m with
  | draws | times | finds | expires | rests => exact absurd absent there
  | @replaces user token expiresAt registry entered =>
      refine ⟨token, rfl, rfl, ?_⟩
      by_contra other
      refine there ?_
      rw [h.session?_replaceSession entered, Function.update_of_ne other, absent]
      rfl
  | @deletes token =>
      rw [session?_deleteSession, Function.update_apply] at there
      split at there
      · exact absurd rfl there
      · exact absurd absent there
  | sets =>
      rw [session?_putWorkingDirectory] at there
      exact absurd absent there
  | withdraws =>
      rw [h.session?_deleteSessionsFor, absent] at there
      exact absurd rfl there

theorem pending (m : Moves v stage next w) {token : String} (h : next.pending? = some token) :
    stage.pending? = some token ∨ token ∈ stage.draws v := by
  cases m with
  | draws => exact .inr (List.mem_singleton.mpr (Option.some.inj h).symm)
  | times => exact .inl h
  | rests pending => cases pending.symm.trans h
  | _ => cases h

/-- Only a token that has a session is found. -/
theorem found (m : Moves v stage next w) {token : String} (h : next.found? = some token) :
    stage.found? = some token ∨
      token ∈ stage.presents v ∧ v.registry.session? (hashToken token) ≠ none := by
  cases m with
  | finds found =>
      obtain rfl := Option.some.inj h
      exact .inr ⟨List.mem_singleton.mpr rfl, by simp [found]⟩
  | expires => exact .inl h
  | rests pending found => cases found.symm.trans h
  | _ => cases h

theorem issued (m : Moves v stage next w) {token : String} (h : next.issued? = some token) :
    stage.issued? = some token ∨ stage.pending? = some token ∧ next.pending? = none := by
  cases m with
  | replaces => exact .inr ⟨h, rfl⟩
  | rests pending found issued =>
      rcases issued with rfl | none
      · exact .inl h
      · cases none.symm.trans h
  | _ => cases h

end Moves

end

/-! ## What holds at every moment -/

section

variable {ι : Type} {strings known : List String} {s : Crowd ι Stage} {token : String}

/-- A token that was drawn and that no call is about to record. -/
structure Spent (known : List String) (stages : ι → Stage) (token : String) : Prop where
  known : token ∈ known
  settled : ∀ i, (stages i).pending? ≠ some token

/-- A token that was drawn is pending in one call at most; and the tokens that have sessions, that calls have
found or that they have issued were drawn and are pending in no call any more. -/
structure Kept (strings known : List String) (s : Crowd ι Stage) : Prop where
  orderly : s.vault.registry.Orderly
  among : ∀ t ∈ known, t ∈ strings
  pending : ∀ i t, (s.stages i).pending? = some t → t ∈ known
  own : ∀ i j t, (s.stages i).pending? = some t → (s.stages j).pending? = some t → i = j
  recorded : ∀ t ∈ strings, s.vault.registry.session? (hashToken t) ≠ none → Spent known s.stages t
  found : ∀ i t, (s.stages i).found? = some t → Spent known s.stages t
  issued : ∀ i t, (s.stages i).issued? = some t → Spent known s.stages t

/-- What is so for good, once no call is about to record a token: its session does not come back, and no
other call issues it. -/
structure Lasts (known later : List String) (s after : Crowd ι Stage) : Prop where
  spent : ∀ t, Spent known s.stages t → Spent later after.stages t
  gone : ∀ t, Spent known s.stages t → s.vault.registry.session? (hashToken t) = none →
    after.vault.registry.session? (hashToken t) = none
  issued : ∀ i t, Spent known s.stages t → (after.stages i).issued? = some t → (s.stages i).issued? = some t

theorem Lasts.trans {later latest : List String} {after last : Crowd ι Stage}
    (h : Lasts known later s after) (h' : Lasts later latest after last) : Lasts known latest s last :=
  ⟨fun t spent => h'.spent t (h.spent t spent),
    fun t spent absent => h'.gone t (h.spent t spent) (h.gone t spent absent),
    fun i t spent has => h.issued i t spent (h'.issued i t (h.spent t spent) has)⟩

variable {i : ι} {next : Stage} {w : Vault}

namespace Kept

/-- A token that a call has pending after a step is pending in no other call. -/
theorem same (h : Kept strings known s) (m : Moves s.vault (s.stages i) next w)
    (fresh : ∀ t ∈ (s.stages i).draws s.vault, t ∉ known) {j : ι} (here : next.pending? = some token)
    (there : (s.stages j).pending? = some token) : j = i := by
  rcases m.pending here with was | drawn
  · exact h.own j i token there was
  · exact absurd (h.pending j token there) (fresh token drawn)

/-- A session that was not there before a step is that of the token that the call had pending. -/
theorem entered (h : Kept strings known s) (free : CollisionFree strings)
    (m : Moves s.vault (s.stages i) next w) (among : token ∈ strings)
    (absent : s.vault.registry.session? (hashToken token) = none)
    (there : w.registry.session? (hashToken token) ≠ none) :
    (s.stages i).pending? = some token ∧ next.pending? = none := by
  obtain ⟨other, was, settled, hash⟩ := m.session?_of_none h.orderly absent there
  obtain rfl := free token among other (h.among other (h.pending i other was)) hash
  exact ⟨was, settled⟩

end Kept

variable [DecidableEq ι]

theorem Spent.step (h : Spent known s.stages token) (m : Moves s.vault (s.stages i) next w)
    (fresh : ∀ t ∈ (s.stages i).draws s.vault, t ∉ known) :
    Spent (known ++ (s.stages i).draws s.vault) (update s.stages i next) token := by
  refine ⟨List.mem_append_left _ h.known, fun j hp => ?_⟩
  by_cases here : j = i
  · subst here
    simp only [Function.update_self] at hp
    rcases m.pending hp with hp | drawn
    · exact h.settled j hp
    · exact fresh token drawn h.known
  · simp only [Function.update_of_ne here] at hp
    exact h.settled j hp

namespace Kept

/-- A token that its call does not have pending any more is pending nowhere. -/
theorem spent (h : Kept strings known s) (was : (s.stages i).pending? = some token)
    (settled : next.pending? = none) :
    Spent (known ++ (s.stages i).draws s.vault) (update s.stages i next) token := by
  refine ⟨List.mem_append_left _ (h.pending i token was), fun j hp => ?_⟩
  by_cases here : j = i
  · subst here
    simp only [Function.update_self, settled] at hp
    cases hp
  · simp only [Function.update_of_ne here] at hp
    exact here (h.own j i token hp was)

theorem lasts (h : Kept strings known s) (free : CollisionFree strings)
    (m : Moves s.vault (s.stages i) next w) (fresh : ∀ t ∈ (s.stages i).draws s.vault, t ∉ known) :
    Lasts known (known ++ (s.stages i).draws s.vault) s ⟨w, update s.stages i next⟩ := by
  refine ⟨fun t spent => spent.step m fresh, fun t spent absent => ?_, fun j t spent has => ?_⟩
  · by_contra there
    exact spent.settled i (h.entered free m (h.among t spent.known) absent there).1
  · simp only [Function.update_apply] at has
    split at has
    · rename_i here
      subst here
      rcases m.issued has with has | ⟨was, -⟩
      · exact has
      · exact absurd was (spent.settled j)
    · exact has

theorem step (h : Kept strings known s) (free : CollisionFree strings)
    (m : Moves s.vault (s.stages i) next w) (fresh : ∀ t ∈ (s.stages i).draws s.vault, t ∉ known)
    (draws : ∀ t ∈ (s.stages i).draws s.vault, t ∈ strings)
    (presents : ∀ t ∈ (s.stages i).presents s.vault, t ∈ strings) :
    Kept strings (known ++ (s.stages i).draws s.vault) ⟨w, update s.stages i next⟩ := by
  have still := (h.lasts free m fresh).spent
  refine ⟨m.orderly h.orderly, fun t ht => ?among, fun j t hp => ?pending, fun j k t hj hk => ?own,
    fun t ht there => ?recorded, fun j t hf => ?found, fun j t has => ?issued⟩
  case among => exact (List.mem_append.mp ht).elim (h.among t) (draws t)
  case pending =>
    simp only [Function.update_apply] at hp
    split at hp
    · rcases m.pending hp with was | drawn
      · exact List.mem_append_left _ (h.pending i t was)
      · exact List.mem_append_right _ drawn
    · exact List.mem_append_left _ (h.pending j t hp)
  case own =>
    simp only [Function.update_apply] at hj hk
    split at hj <;> split at hk <;> rename_i ofJ ofK
    · rw [ofJ, ofK]
    · rw [ofJ, h.same m fresh hj hk]
    · rw [ofK, h.same m fresh hk hj]
    · exact h.own j k t hj hk
  case recorded =>
    by_cases absent : s.vault.registry.session? (hashToken t) = none
    · obtain ⟨was, settled⟩ := h.entered free m ht absent there
      exact h.spent was settled
    · exact still t (h.recorded t ht absent)
  case found =>
    simp only [Function.update_apply] at hf
    split at hf
    · rcases m.found hf with hf | ⟨presented, there⟩
      · exact still t (h.found i t hf)
      · exact still t (h.recorded t (presents t presented) there)
    · exact still t (h.found j t hf)
  case issued =>
    simp only [Function.update_apply] at has
    split at has
    · rcases m.issued has with has | ⟨was, settled⟩
      · exact still t (h.issued i t has)
      · exact h.spent was settled
    · exact still t (h.issued j t has)

end Kept

end

/-! ## The race -/

section

variable {ι : Type} {strings known earlier : List String} {s : Crowd ι Stage} {token : String}

/-- The calls all follow the same steps, from the stages that they begin at. -/
def calls (_ : ι) : Procedure Stage := steps

/-- None of the calls has taken a step, and the sessions that there are belong to earlier tokens. -/
structure Starts (earlier : List String) (s : Crowd ι Stage) : Prop where
  begins : ∀ i, (s.stages i).Begins
  orderly : s.vault.registry.Orderly
  known : ∀ hash, s.vault.registry.session? hash ≠ none → ∃ t ∈ earlier, hashToken t = hash

/-- The token is an earlier one, or a call has issued it. -/
def Issued (earlier : List String) (s : Crowd ι Stage) (token : String) : Prop :=
  token ∈ earlier ∨ ∃ i, s.stages i = .done (.ok (.token token))

namespace Starts

theorem idle (h : Starts earlier s) (i : ι) :
    (s.stages i).pending? = none ∧ (s.stages i).found? = none ∧ (s.stages i).issued? = none := by
  have begins := h.begins i
  cases hs : s.stages i with
  | drawing | looking | withdrawing => exact ⟨rfl, rfl, rfl⟩
  | _ => simp [hs, Stage.Begins] at begins

theorem spent (h : Starts earlier s) (earlier_token : token ∈ earlier) : Spent earlier s.stages token :=
  ⟨earlier_token, fun i hp => by simp [(h.idle i).1] at hp⟩

theorem kept (h : Starts earlier s) (free : CollisionFree strings) (among : ∀ t ∈ earlier, t ∈ strings) :
    Kept strings earlier s := by
  refine ⟨h.orderly, among, fun i t hp => ?_, fun i j t hp => ?_, fun t ht there => ?_, fun i t hf => ?_,
    fun i t has => ?_⟩
  · simp [(h.idle i).1] at hp
  · simp [(h.idle i).1] at hp
  · obtain ⟨old, ho, same⟩ := h.known _ there
    exact h.spent (free old (among old ho) t ht same ▸ ho)
  · simp [(h.idle i).2.1] at hf
  · simp [(h.idle i).2.2] at has

end Starts

theorem Issued.spent {after : Crowd ι Stage} (issued : Issued earlier after token) (starts : Starts earlier s)
    (kept : Kept strings known after) (lasts : Lasts earlier known s after) :
    Spent known after.stages token := by
  rcases issued with old | ⟨i, has⟩
  · exact lasts.spent token (starts.spent old)
  · exact kept.issued i token (Stage.issued?_eq_some.mpr has)

variable [DecidableEq ι]

/-- The tokens that the calls draw. -/
def drawn (s : Crowd ι Stage) (turns : List (Turn ι)) : List String :=
  s.noted calls Stage.draws turns

/-- The tokens that the calls look up. -/
def lookedUp (s : Crowd ι Stage) (turns : List (Turn ι)) : List String :=
  s.noted calls Stage.presents turns

theorem Kept.after (h : Kept strings known s) (free : CollisionFree strings) (turns : List (Turn ι))
    (distinct : (known ++ drawn s turns).Nodup) (draws : ∀ t ∈ drawn s turns, t ∈ strings)
    (presents : ∀ t ∈ lookedUp s turns, t ∈ strings) :
    Kept strings (known ++ drawn s turns) (s.after calls turns) ∧
      Lasts known (known ++ drawn s turns) s (s.after calls turns) := by
  induction turns generalizing s known with
  | nil =>
      rw [drawn, Crowd.noted, List.append_nil]
      exact ⟨h, fun _ => id, fun _ _ => id, fun _ _ _ => id⟩
  | cons turn turns ih =>
      cases turn with
      | step i =>
          have first : drawn s (.step i :: turns) =
              (s.stages i).draws s.vault ++ drawn (s.turn calls (.step i)) turns := rfl
          have m := moves_of_advance h.orderly (s.stages i)
          rw [first, ← List.append_assoc] at distinct ⊢
          have fresh (t : String) (ht : t ∈ (s.stages i).draws s.vault) : t ∉ known := fun hk =>
            (List.nodup_append.mp (List.nodup_append.mp distinct).1).2.2 t hk t ht rfl
          have next := h.step free m fresh (fun t ht => draws t (List.mem_append_left _ ht))
            fun t ht => presents t (List.mem_append_left _ ht)
          obtain ⟨kept, lasts⟩ := ih (s := s.turn calls (.step i)) next distinct
            (fun t ht => draws t (List.mem_append_right _ ht))
            fun t ht => presents t (List.mem_append_right _ ht)
          exact ⟨kept, (h.lasts free m fresh).trans lasts⟩
      | clock now =>
          have next : Kept strings known (s.turn calls (.clock now)) :=
            ⟨h.orderly, h.among, h.pending, h.own, h.recorded, h.found, h.issued⟩
          obtain ⟨kept, lasts⟩ := ih next distinct draws presents
          exact ⟨kept, lasts.spent, lasts.gone, lasts.issued⟩

/-- At a moment and at a later one both hold, and what is so for good at the first is so at the second. -/
theorem Starts.twice (h : Starts earlier s) (past later : List (Turn ι))
    (distinct : (earlier ++ drawn s (past ++ later)).Nodup) (free : CollisionFree strings)
    (among : ∀ t ∈ earlier ++ drawn s (past ++ later) ++ lookedUp s (past ++ later), t ∈ strings) :
    ∃ known latest, Lasts known latest (s.after calls past) (s.after calls (past ++ later)) ∧
      (Kept strings known (s.after calls past) ∧ Lasts earlier known s (s.after calls past)) ∧
      Kept strings latest (s.after calls (past ++ later)) ∧
      Lasts earlier latest s (s.after calls (past ++ later)) := by
  have draws : drawn s (past ++ later) = drawn s past ++ drawn (s.after calls past) later :=
    Crowd.noted_append ..
  have presents : lookedUp s (past ++ later) = lookedUp s past ++ lookedUp (s.after calls past) later :=
    Crowd.noted_append ..
  rw [draws, ← List.append_assoc] at distinct
  simp only [draws, presents, List.mem_append] at among
  rw [Crowd.after_append]
  obtain ⟨kept, first⟩ := (h.kept free fun t ht => among t (by simp [ht])).after free past
    (List.nodup_append.mp distinct).1 (fun t ht => among t (by simp [ht])) fun t ht => among t (by simp [ht])
  obtain ⟨keptLater, second⟩ := kept.after free later distinct (fun t ht => among t (by simp [ht]))
    fun t ht => among t (by simp [ht])
  exact ⟨_, _, second, ⟨kept, first⟩, keptLater, first.trans second⟩

/-- A token that was drawn can be recorded, since no other session has its hash. -/
theorem Kept.replaces (h : Kept strings known s) {i : ι} {user : String} {expiresAt : UInt64}
    (pending : s.stages i = .replacing user token expiresAt) :
    (s.turn calls (.step i)).stages i = .done (.ok (.token token)) ∧
      (s.turn calls (.step i)).vault.registry.session? (hashToken token) =
        some ⟨hashToken token, user, expiresAt⟩ := by
  have own : (s.stages i).pending? = some token := by
    rw [pending]
    rfl
  rcases replaceSession_cases h.orderly.sessionKeys ⟨hashToken token, user, expiresAt⟩ with
    ⟨failure, other, -, taken, -⟩ | ⟨after, he, -⟩
  · have spent := h.recorded token (h.among token (h.pending i token own)) (by simp [taken])
    exact absurd own (spent.settled i)
  · rw [Crowd.stages_turn, Crowd.vault_turn, calls, pending, advance_replacing, he]
    exact ⟨rfl, by rw [h.orderly.session?_replaceSession he, Function.update_self]⟩

/-- The removal of an expired token leaves the sessions of the other hashes alone. -/
theorem session?_deleting {i : ι} (deletes : s.stages i = .deleting token) {hash : String}
    (other : hash ≠ hashToken token) :
    (s.turn calls (.step i)).vault.registry.session? hash = s.vault.registry.session? hash := by
  rw [Crowd.vault_turn, calls, deletes, advance_deleting]
  simp only [session?_deleteSession, Function.update_of_ne other]

/-- Calls may come between each other in any way, as long as no token is drawn twice and no two of the
strings that are drawn or looked up have the same hash.  At every moment the sessions are of different users
and have different hashes, and a token that is to be recorded is issued and has its session then.  A token
that was issued and whose session is gone has none later on.  And a call that is about to remove the session
of a token that had expired leaves the sessions of the other tokens alone, with those that were issued after
it had found that session. -/
theorem sessions_in_any_order (starts : Starts earlier s) (past later : List (Turn ι))
    (distinct : (earlier ++ drawn s (past ++ later)).Nodup)
    (free : CollisionFree (earlier ++ drawn s (past ++ later) ++ lookedUp s (past ++ later))) :
    let middle := s.after calls past
    let last := s.after calls (past ++ later)
    ((last.vault.registry.rows.sessions.map (·.username)).Nodup ∧
      (last.vault.registry.rows.sessions.map (·.tokenHash)).Nodup) ∧
    (∀ i user token expiresAt, last.stages i = .replacing user token expiresAt →
      let next := last.turn calls (.step i)
      next.stages i = .done (.ok (.token token)) ∧
        next.vault.registry.session? (hashToken token) = some ⟨hashToken token, user, expiresAt⟩) ∧
    (∀ token, Issued earlier middle token → middle.vault.registry.session? (hashToken token) = none →
      last.vault.registry.session? (hashToken token) = none) ∧
    ∀ i expired, last.stages i = .deleting expired →
      let next := last.turn calls (.step i)
      (∀ token, Issued earlier last token → token ≠ expired →
        next.vault.registry.session? (hashToken token) = last.vault.registry.session? (hashToken token)) ∧
      ∀ resets session j token, middle.stages i = .comparing resets expired session →
        middle.stages j ≠ .done (.ok (.token token)) → last.stages j = .done (.ok (.token token)) →
        next.vault.registry.session? (hashToken token) = last.vault.registry.session? (hashToken token) := by
  intro middle last
  obtain ⟨known, latest, lasts, ⟨kept, first⟩, keptLast, both⟩ :=
    starts.twice past later distinct free fun _ => id
  refine ⟨⟨keptLast.orderly.users, keptLast.orderly.hashes⟩, fun i user token expiresAt => keptLast.replaces,
    fun token issued absent => lasts.gone token (issued.spent starts kept first) absent,
    fun i expired deletes => ?_⟩
  intro next
  have found : Spent latest last.stages expired := keptLast.found i expired (by rw [deletes]; rfl)
  have others (token : String) (issued : Issued earlier last token) (ne : token ≠ expired) :
      next.vault.registry.session? (hashToken token) = last.vault.registry.session? (hashToken token) := by
    have spent := issued.spent starts keptLast both
    exact session?_deleting deletes fun same =>
      ne (free token (keptLast.among token spent.known) expired (keptLast.among expired found.known) same)
  refine ⟨others, fun resets session j token compares unfinished has => others token (.inr ⟨j, has⟩) ?_⟩
  -- the token that was found had been issued before, and no call issues it once more
  rintro rfl
  have known := kept.found i token (by rw [compares]; rfl)
  exact unfinished (Stage.issued?_eq_some.mp (lasts.issued j token known (Stage.issued?_eq_some.mpr has)))

end

/-- The first token that is drawn in small vaults. -/
def sampleToken : String :=
  "000102030405060708090a0b0c0d0e0f101112131415161718191a1b1c1d1e1f"

/-- The second one. -/
def sampleSecond : String :=
  "202122232425262728292a2b2c2d2e2f303132333435363738393a3b3c3d3e3f"

/-- A call that issues a token to a user, one that looks that token up, and one that issues another token to
the same user. -/
def sampleStart : Crowd (Fin 3) Stage where
  vault := .sample (.tables .empty)
  stages
    | 0 => .drawing "ada"
    | 1 => .looking true (" " ++ sampleToken ++ "\n")
    | 2 => .drawing "ada"

/-- A token is issued and expires, and its session is found. -/
def samplePast : List (Turn (Fin 3)) :=
  [.step 0, .step 0, .step 0, .clock 600000, .step 1]

/-- The session that was found is to be removed, and another token is issued before that. -/
def sampleLater : List (Turn (Fin 3)) :=
  [.step 1, .step 2, .step 2, .step 2]

/-- The session of the second token is still there when that of the first one has been removed. -/
theorem sessions_in_any_order_survivor :
    let last := sampleStart.after calls (samplePast ++ sampleLater)
    Starts [] sampleStart ∧ last.stages 1 = .deleting sampleToken ∧
      (last.turn calls (.step 1)).vault.registry.session? (hashToken sampleSecond) =
        some ⟨hashToken sampleSecond, "ada", 1200000⟩ := by
  have starts : Starts [] sampleStart :=
    ⟨fun | 0 => trivial | 1 => trivial | 2 => trivial, ⟨trivial, by decide, by decide⟩,
      fun hash there => absurd rfl there⟩
  have law := sessions_in_any_order starts samplePast sampleLater (by decide +kernel)
    (by unfold CollisionFree; decide +kernel)
  obtain ⟨found, pending, deletes, issued, there⟩ :
      (sampleStart.after calls samplePast).stages 1 =
          .comparing true sampleToken ⟨hashToken sampleToken, "ada", 600000⟩ ∧
        (sampleStart.after calls samplePast).stages 2 ≠ .done (.ok (.token sampleSecond)) ∧
        (sampleStart.after calls (samplePast ++ sampleLater)).stages 1 = .deleting sampleToken ∧
        (sampleStart.after calls (samplePast ++ sampleLater)).stages 2 = .done (.ok (.token sampleSecond)) ∧
        (sampleStart.after calls (samplePast ++ sampleLater)).vault.registry.session?
          (hashToken sampleSecond) = some ⟨hashToken sampleSecond, "ada", 1200000⟩ := by decide +kernel
  have kept := (law.2.2.2 1 sampleToken deletes).2 true _ 2 sampleSecond found pending issued
  exact ⟨starts, deletes, kept.trans there⟩

end Strongroom.Sessions.Race
