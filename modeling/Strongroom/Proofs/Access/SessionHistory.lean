import Mathlib.Data.List.Induction
import Strongroom.Proofs.Vault.Actions
/-!
# What a token stands for

The answer to a token is decided by what has happened to it: when and to whom it was issued, and
whether it was replaced, withdrawn or found to have expired since then.
-/

namespace Strongroom.Sessions

open Registry
open Function (update update_apply)

/-! ## Calls -/

/-- A call to the sessions of a vault, or a change of its clock. -/
inductive Call
  | issue (user : String)
  | authorize (token : String)
  | validate (token : String)
  | invalidate (user : String)
  | clock (now : UInt64)
deriving DecidableEq

namespace Call

/-- What a call leaves of a vault. -/
def perform (v : Vault) : Call → Vault
  | .issue user => ((Sessions.issue user).runOn v).2
  | .authorize token => ((Sessions.authorize token).runOn v).2
  | .validate token => ((Sessions.validate token).runOn v).2
  | .invalidate user => ((Sessions.invalidate user).runOn v).2
  | .clock now => { v with clock := now }

/-- The token that a call looks up. -/
def presents? : Call → Option String
  | .authorize token => some (presented token)
  | .validate token => some (presented token)
  | _ => none

/-- The token that a call draws, if it draws one. -/
def draws (v : Vault) : Call → List String
  | .issue _ => [v.entropy.token.1]
  | _ => []

/-- Whether a call takes away the tokens that a user has. -/
def replaces (user : String) (call : Call) : Prop :=
  call = .issue user ∨ call = .invalidate user

end Call

/-- What a sequence of calls leaves of a vault. -/
def through (v : Vault) (calls : List Call) : Vault :=
  calls.foldl Call.perform v

/-- The tokens that are drawn in the course of some calls. -/
def drawn (v : Vault) : List Call → List String
  | [] => []
  | call :: rest => call.draws v ++ drawn (call.perform v) rest

/-- In the course of some calls the token was issued to the user, with this expiry.  After that no
call has replaced it, and each time it was looked up it had not expired. -/
def Stands (v : Vault) (calls : List Call) (token user : String) (expiresAt : UInt64) : Prop :=
  ∃ before later, calls = before ++ .issue user :: later ∧
    ((issue user).runOn (through v before)).1 = .ok token ∧
    expiresAt.toNat = min ((through v before).clock.toNat + v.ttlMillis) (UInt64.size - 1) ∧
    (∀ call ∈ later, ¬ call.replaces user) ∧
    ∀ past call rest, later = past ++ call :: rest → call.presents? = some token →
      (through v (before ++ .issue user :: past)).clock < expiresAt

/-! ## One call more -/

section

variable {v : Vault} {calls : List Call} {call : Call} {token user : String} {expiresAt : UInt64}

theorem through_cons (v : Vault) (call : Call) (rest : List Call) :
    through v (call :: rest) = through (call.perform v) rest := rfl

theorem through_append (v : Vault) (before later : List Call) :
    through v (before ++ later) = through (through v before) later :=
  List.foldl_append

theorem through_concat (v : Vault) (calls : List Call) (call : Call) :
    through v (calls ++ [call]) = call.perform (through v calls) :=
  through_append v calls [call]

theorem drawn_append (v : Vault) (before later : List Call) :
    drawn v (before ++ later) = drawn v before ++ drawn (through v before) later := by
  induction before generalizing v with
  | nil => rfl
  | cons call rest ih => simp only [List.cons_append, drawn, ih, through_cons, List.append_assoc]

/-- A token stands after one call more if that call issues it, or if it stood before and the call
neither replaces it nor finds it to have expired. -/
theorem stands_concat :
    Stands v (calls ++ [call]) token user expiresAt ↔
      (call = .issue user ∧ ((issue user).runOn (through v calls)).1 = .ok token ∧
        expiresAt.toNat = min ((through v calls).clock.toNat + v.ttlMillis) (UInt64.size - 1)) ∨
      Stands v calls token user expiresAt ∧ ¬ call.replaces user ∧
        (call.presents? = some token → (through v calls).clock < expiresAt) := by
  constructor
  · rintro ⟨before, later, he, issued, expires, kept, live⟩
    rcases List.eq_nil_or_concat later with rfl | ⟨middle, last, rfl⟩
    · obtain ⟨rfl, hc⟩ := List.append_inj' he rfl
      exact .inl ⟨(List.cons.inj hc).1, issued, expires⟩
    · rw [List.concat_eq_append] at he kept live
      have split : calls ++ [call] = (before ++ .issue user :: middle) ++ [last] := by simp [he]
      obtain ⟨rfl, hc⟩ := List.append_inj' split rfl
      obtain rfl := (List.cons.inj hc).1
      refine .inr ⟨⟨before, middle, rfl, issued, expires,
        fun c hc => kept c (List.mem_append_left _ hc), fun past c rest hm => ?_⟩, ?_, ?_⟩
      · exact live past c (rest ++ [call]) (by simp [hm])
      · exact kept call (by simp)
      · exact live middle call [] rfl
  · rintro (⟨rfl, issued, expires⟩ | ⟨⟨before, later, rfl, issued, expires, kept, live⟩, stays, inTime⟩)
    · exact ⟨calls, [], rfl, issued, expires, by simp, fun past c rest hm => by simp at hm⟩
    · refine ⟨before, later ++ [call], by simp, issued, expires, fun c hc => ?_, fun past c rest hm => ?_⟩
      · rcases List.mem_append.mp hc with hc | hc
        · exact kept c hc
        · exact List.mem_singleton.mp hc ▸ stays
      · rcases List.eq_nil_or_concat rest with rfl | ⟨middle, last, rfl⟩
        · obtain ⟨rfl, hc⟩ := List.append_inj' hm rfl
          exact (List.cons.inj hc).1 ▸ inTime
        · rw [List.concat_eq_append, ← List.cons_append, ← List.append_assoc] at hm
          exact live past c middle (List.append_inj' hm rfl).1

/-- A token that stands has been drawn. -/
theorem Stands.mem_drawn (h : Stands v calls token user expiresAt) : token ∈ drawn v calls := by
  obtain ⟨before, later, rfl, issued, -⟩ := h
  rw [drawn_append, List.mem_append]
  refine .inr (List.mem_append_left _ (List.mem_singleton.mpr ?_))
  rw [runOn_issue] at issued
  split at issued
  · exact (Except.ok.inj issued).symm
  · cases issued

end

/-! ## What calls do to the sessions -/

section

variable {v : Vault}

/-- The sessions after a token is looked up: its own is kept only if it has not expired. -/
theorem session?_authorize (token : String) (v : Vault) :
    ((authorize token).runOn v).2.registry.session? =
      if presented token = "" then v.registry.session?
      else update v.registry.session? (hashToken (presented token))
        ((v.registry.session? (hashToken (presented token))).filter fun s => v.clock < s.expiresAt) := by
  rw [runOn_authorize]
  split
  · rfl
  · cases found : v.registry.session? (hashToken (presented token)) with
    | none =>
        have same := Function.update_eq_self (hashToken (presented token)) v.registry.session?
        rw [found] at same
        exact same.symm
    | some session =>
        by_cases late : session.expiresAt ≤ v.clock
        · have gone : (v.registry.deleteSession (hashToken (presented token))).session? = _ :=
            congrArg Records.session? (records_deleteSession v.registry _)
          simp only [late, if_true, gone, Option.filter, UInt64.not_lt.mpr late, decide_false]
          rfl
        · simp [late, Option.filter, UInt64.not_le.mp late, ← found]

/-- Validating a token does to the sessions what authorizing it does. -/
theorem session?_validate (token : String) (v : Vault) :
    ((validate token).runOn v).2.registry.session? =
        ((authorize token).runOn v).2.registry.session? ∧
      ((validate token).runOn v).2.registry.sessionKeys =
        ((authorize token).runOn v).2.registry.sessionKeys ∧
      ((validate token).runOn v).2.ttlMillis = ((authorize token).runOn v).2.ttlMillis := by
  simp only [validate, Action.runOn_bind]
  generalize (authorize token).runOn v = result
  obtain ⟨outcome, after⟩ := result
  cases outcome with
  | error failure => exact ⟨rfl, rfl, rfl⟩
  | ok user =>
      cases hr : after.rootFor user with
      | error failure => simp [Directories.reset, hr]
      | ok root =>
          obtain ⟨registry, keys, -, answers, hreset⟩ := Directories.runOn_reset hr
          simp only [hreset, Action.runOn_pure, and_true]
          exact ⟨congrArg Records.session? answers, keys⟩

theorem authorize_keeps (token : String) (v : Vault) :
    (v.registry.sessionKeys.Nodup →
        ((authorize token).runOn v).2.registry.sessionKeys.Nodup) ∧
      ((authorize token).runOn v).2.ttlMillis = v.ttlMillis := by
  rw [runOn_authorize]
  split
  · exact ⟨id, rfl⟩
  · split
    · exact ⟨id, rfl⟩
    · split
      · exact ⟨fun unique => nodup_deleteSession unique _, rfl⟩
      · exact ⟨id, rfl⟩

theorem issue_keeps (unique : v.registry.sessionKeys.Nodup) (user : String) :
    ((issue user).runOn v).2.registry.sessionKeys.Nodup ∧
      ((issue user).runOn v).2.ttlMillis = v.ttlMillis := by
  rw [runOn_issue]
  rcases replaceSession_cases unique
    ⟨hashToken v.entropy.token.1, user, expiry v.clock v.ttlMillis⟩ with
    ⟨failure, other, he, -⟩ | ⟨after, he, kept, -⟩
  · rw [he]
    exact ⟨unique, rfl⟩
  · rw [he]
    exact ⟨kept, rfl⟩

theorem Call.perform_keeps (unique : v.registry.sessionKeys.Nodup) (call : Call) :
    (call.perform v).registry.sessionKeys.Nodup ∧ (call.perform v).ttlMillis = v.ttlMillis := by
  cases call with
  | issue user =>
      rw [Call.perform]
      exact issue_keeps unique user
  | authorize token =>
      rw [Call.perform]
      exact ⟨(authorize_keeps token v).1 unique, (authorize_keeps token v).2⟩
  | validate token =>
      obtain ⟨-, keys, ttl⟩ := session?_validate token v
      rw [Call.perform, keys, ttl]
      exact ⟨(authorize_keeps token v).1 unique, (authorize_keeps token v).2⟩
  | invalidate user => exact ⟨nodup_deleteSessionsFor unique user, rfl⟩
  | clock now => exact ⟨unique, rfl⟩

theorem through_keeps (unique : v.registry.sessionKeys.Nodup) (calls : List Call) :
    (through v calls).registry.sessionKeys.Nodup ∧ (through v calls).ttlMillis = v.ttlMillis := by
  induction calls generalizing v with
  | nil => exact ⟨unique, rfl⟩
  | cons call rest ih =>
      obtain ⟨next, ttl⟩ := call.perform_keeps unique
      obtain ⟨kept, same⟩ := ih (v := call.perform v) next
      exact ⟨kept, same.trans ttl⟩

theorem toNat_expiry (now : UInt64) (ttlMillis : Nat) :
    (expiry now ttlMillis).toNat = min (now.toNat + ttlMillis) (UInt64.size - 1) := by
  rw [expiry, toNat_saturatingAdd, toNat_saturate]
  omega

/-- No token is empty. -/
theorem token_ne_empty (e : Entropy) : e.token.1 ≠ "" := by
  intro he
  have length := congrArg String.length he
  rw [Entropy.token, Bytes.toHex, String.length_ofList, Bytes.length_flatMap_hexPair] at length
  simp [Entropy.next, Entropy.tokenBytes] at length

theorem ne_empty_of_mem_drawn {calls : List Call} {token : String} (h : token ∈ drawn v calls) :
    token ≠ "" := by
  induction calls generalizing v with
  | nil => cases h
  | cons call rest ih =>
      rw [drawn, List.mem_append] at h
      rcases h with h | h
      · cases call with
        | issue user => exact List.mem_singleton.mp h ▸ token_ne_empty v.entropy
        | _ => cases h
      · exact ih h

end

/-! ## The sessions and the history -/

/-- Among some strings no two have the same hash. -/
def CollisionFree (strings : List String) : Prop :=
  ∀ a ∈ strings, ∀ b ∈ strings, hashToken a = hashToken b → a = b

/-- Of some strings, those that have a session are those that stand for its user until its expiry. -/
def Agrees (strings : List String) (v : Vault) (calls : List Call) : Prop :=
  ∀ token ∈ strings, ∀ user expiresAt,
    (∃ session, (through v calls).registry.session? (hashToken token) = some session ∧
      session.username = user ∧ session.expiresAt = expiresAt) ↔
    Stands v calls token user expiresAt

section

variable {strings : List String} {v : Vault} {calls : List Call}

theorem Agrees.start (empty : v.registry.sessionKeys = []) : Agrees strings v [] := by
  intro token _ user expiresAt
  have none : v.registry.session? (hashToken token) = none := by
    cases hr : v.registry with
    | maps m =>
        simp only [hr, sessionKeys, List.map_eq_nil_iff] at empty
        simp [session?, RecordMap.get?, empty]
    | tables t =>
        simp only [hr, sessionKeys, List.map_eq_nil_iff] at empty
        simp [session?, empty]
  constructor
  · rintro ⟨session, found, -⟩
    rw [show through v [] = v from rfl, none] at found
    cases found
  · rintro ⟨before, later, he, -⟩
    simp at he

/-- Looking a token up keeps the agreement, since only its own session can be gone after that. -/
theorem Agrees.looked (h : Agrees strings v calls) (free : CollisionFree strings) {call : Call}
    (token : String) (presents : call.presents? = some (presented token))
    (mem : presented token ∈ strings)
    (sessions : (call.perform (through v calls)).registry.session? =
      ((authorize token).runOn (through v calls)).2.registry.session?) :
    Agrees strings v (calls ++ [call]) := by
  intro t ht user expiresAt
  have keeps : ¬ call.replaces user := by
    rintro (rfl | rfl) <;> cases presents
  have other : call ≠ .issue user := fun he => keeps (.inl he)
  rw [through_concat, stands_concat, sessions, session?_authorize]
  simp only [other, false_and, false_or, keeps, not_false_eq_true, true_and, presents,
    Option.some.injEq]
  by_cases blank : presented token = ""
  · rw [if_pos blank, h t ht user expiresAt]
    constructor
    · intro stands
      exact ⟨stands, fun same => absurd (same ▸ blank) (ne_empty_of_mem_drawn stands.mem_drawn)⟩
    · exact And.left
  · rw [if_neg blank, ← h t ht user expiresAt]
    by_cases same : presented token = t
    · subst same
      simp only [Function.update_self, Option.filter_eq_some_iff, decide_eq_true_eq, true_implies]
      constructor
      · rintro ⟨session, ⟨found, live⟩, hu, rfl⟩
        exact ⟨⟨session, found, hu, rfl⟩, live⟩
      · rintro ⟨⟨session, found, hu, rfl⟩, live⟩
        exact ⟨session, ⟨found, live⟩, hu, rfl⟩
    · have apart : hashToken t ≠ hashToken (presented token) := fun he =>
        same (free t ht _ mem he).symm
      rw [Function.update_of_ne apart]
      simp only [same, false_implies, and_true]

theorem Agrees.withdrawn (h : Agrees strings v calls) (unique : v.registry.sessionKeys.Nodup)
    (user : String) : Agrees strings v (calls ++ [.invalidate user]) := by
  intro t ht other expiresAt
  have left : ((through v calls).registry.deleteSessionsFor user).session? =
      fun hash => ((through v calls).registry.session? hash).filter fun s => s.username != user :=
    congrArg Records.session? (records_deleteSessionsFor (through_keeps unique calls).1 user)
  have sessions : (Call.perform (through v calls) (.invalidate user)).registry.session? = _ := left
  rw [through_concat, stands_concat, sessions, ← h t ht other expiresAt]
  simp only [reduceCtorEq, false_and, false_or, Call.replaces, Call.invalidate.injEq, Call.presents?,
    false_implies, and_true, Option.filter_eq_some_iff, bne_iff_ne]
  constructor
  · rintro ⟨session, ⟨found, hne⟩, rfl, he⟩
    exact ⟨⟨session, found, rfl, he⟩, fun same => hne same.symm⟩
  · rintro ⟨⟨session, found, rfl, he⟩, hne⟩
    exact ⟨session, ⟨found, fun same => hne same.symm⟩, rfl, he⟩

/-- A token that was never drawn before can be issued. -/
theorem Agrees.issue_eq (h : Agrees strings v calls) (unique : v.registry.sessionKeys.Nodup)
    (mem : (through v calls).entropy.token.1 ∈ strings)
    (fresh : (through v calls).entropy.token.1 ∉ drawn v calls) (user : String) :
    ∃ after, (issue user).runOn (through v calls) = (.ok (through v calls).entropy.token.1, after) ∧
      after.registry.session? = update
        (fun hash => ((through v calls).registry.session? hash).filter fun s => s.username != user)
        (hashToken (through v calls).entropy.token.1)
        (some ⟨hashToken (through v calls).entropy.token.1, user,
          expiry (through v calls).clock (through v calls).ttlMillis⟩) := by
  have issued := runOn_issue user (through v calls)
  rcases replaceSession_cases (through_keeps unique calls).1
    ⟨hashToken (through v calls).entropy.token.1, user,
      expiry (through v calls).clock (through v calls).ttlMillis⟩ with
    ⟨failure, other, he, taken, -⟩ | ⟨after, he, -, -, answers⟩
  · exact absurd ((h _ mem _ _).mp ⟨other, taken, rfl, rfl⟩).mem_drawn fresh
  · rw [he] at issued
    refine ⟨_, issued, ?_⟩
    exact congrArg Records.session? answers

theorem Agrees.issued (h : Agrees strings v calls) (free : CollisionFree strings)
    (unique : v.registry.sessionKeys.Nodup) (mem : (through v calls).entropy.token.1 ∈ strings)
    (fresh : (through v calls).entropy.token.1 ∉ drawn v calls) (user : String) :
    Agrees strings v (calls ++ [.issue user]) := by
  obtain ⟨after, issued, answers⟩ := h.issue_eq unique mem fresh user
  intro t ht other expiresAt
  have performed : Call.perform (through v calls) (.issue user) = after := by
    rw [Call.perform, issued]
  rw [through_concat, stands_concat, performed, answers, update_apply]
  by_cases same : t = (through v calls).entropy.token.1
  · subst same
    -- the token that has just been drawn did not stand before
    have unknown : ¬ Stands v calls (through v calls).entropy.token.1 other expiresAt := fun stands =>
      fresh stands.mem_drawn
    simp only [if_true, Option.some.injEq, unknown, false_and, or_false, Call.issue.injEq]
    constructor
    · rintro ⟨session, rfl, rfl, rfl⟩
      refine ⟨rfl, by rw [issued], ?_⟩
      rw [toNat_expiry, (through_keeps unique calls).2]
    · rintro ⟨rfl, -, expires⟩
      refine ⟨_, rfl, rfl, UInt64.toNat_inj.mp ?_⟩
      rw [toNat_expiry, (through_keeps unique calls).2, expires]
  · have apart : hashToken t ≠ hashToken (through v calls).entropy.token.1 := fun he =>
      same (free t ht _ mem he)
    have another : ¬ ((issue other).runOn (through v calls)).1 = .ok t := by
      obtain ⟨after, issued, -⟩ := h.issue_eq unique mem fresh other
      rw [issued]
      exact fun he => same (Except.ok.inj he).symm
    rw [if_neg apart, ← h t ht other expiresAt]
    simp only [another, false_and, and_false, false_or, Call.replaces, Call.issue.injEq, reduceCtorEq,
      or_false, Call.presents?, false_implies, and_true, Option.filter_eq_some_iff, bne_iff_ne]
    constructor
    · rintro ⟨session, ⟨found, hne⟩, rfl, he⟩
      exact ⟨⟨session, found, rfl, he⟩, fun same => hne same.symm⟩
    · rintro ⟨⟨session, found, rfl, he⟩, hne⟩
      exact ⟨session, ⟨found, fun same => hne same.symm⟩, rfl, he⟩

theorem Agrees.concat (h : Agrees strings v calls) (free : CollisionFree strings)
    (unique : v.registry.sessionKeys.Nodup) (call : Call)
    (distinct : (drawn v (calls ++ [call])).Nodup)
    (draws : ∀ token ∈ drawn v (calls ++ [call]), token ∈ strings)
    (presents : ∀ token, call.presents? = some token → token ∈ strings) :
    Agrees strings v (calls ++ [call]) := by
  cases call with
  | issue user =>
      have last : drawn v (calls ++ [.issue user]) =
          drawn v calls ++ [(through v calls).entropy.token.1] := by
        rw [drawn_append, drawn, drawn, Call.draws, List.append_nil]
      rw [last] at distinct draws
      refine h.issued free unique (draws _ (by simp)) (fun hm => ?_) user
      exact (List.nodup_append.mp distinct).2.2 _ hm _ (by simp) rfl
  | authorize token =>
      apply h.looked free token rfl (presents _ rfl)
      rw [Call.perform]
  | validate token =>
      apply h.looked free token rfl (presents _ rfl)
      rw [Call.perform, (session?_validate token (through v calls)).1]
  | invalidate user => exact h.withdrawn unique user
  | clock now =>
      intro t ht user expiresAt
      rw [through_concat, stands_concat, Call.perform]
      simpa [Call.replaces, Call.presents?] using h t ht user expiresAt

/-- After any calls the sessions agree with the history, as long as no token is drawn twice. -/
theorem agrees_of_run (empty : v.registry.sessionKeys = []) (free : CollisionFree strings)
    (calls : List Call) (distinct : (drawn v calls).Nodup)
    (draws : ∀ token ∈ drawn v calls, token ∈ strings)
    (presents : ∀ call ∈ calls, ∀ token, call.presents? = some token → token ∈ strings) :
    Agrees strings v calls := by
  induction calls using List.reverseRecOn with
  | nil => exact .start empty
  | append_singleton calls call ih =>
      have before := drawn_append v calls [call]
      refine (ih ?_ ?_ ?_).concat free (empty ▸ List.nodup_nil) call distinct draws
        (presents call (by simp))
      · exact (List.nodup_append.mp (before ▸ distinct)).1
      · exact fun token hm => draws token (before ▸ List.mem_append_left _ hm)
      · exact fun c hc => presents c (List.mem_append_left _ hc)

/-- The law of sessions: if no token is drawn twice and no two of the strings that are drawn or
presented have the same hash, then the history of a token alone decides how it is answered. -/
theorem authorize_history (empty : v.registry.sessionKeys = []) (calls : List Call) (raw : String)
    (distinct : (drawn v calls).Nodup)
    (free : CollisionFree (presented raw :: calls.filterMap Call.presents? ++ drawn v calls)) :
    let answer := ((authorize raw).runOn (through v calls)).1
    let now := (through v calls).clock
    (answer = .error (.authentication .missingToken) ↔ presented raw = "") ∧
    (∀ user, answer = .ok user ↔
      ∃ expiresAt, Stands v calls (presented raw) user expiresAt ∧ now < expiresAt) ∧
    (answer = .error (.authentication .expired) ↔
      ∃ user expiresAt, Stands v calls (presented raw) user expiresAt ∧ expiresAt ≤ now) ∧
    (answer = .error (.authentication .invalidToken) ↔
      presented raw ≠ "" ∧ ∀ user expiresAt, ¬ Stands v calls (presented raw) user expiresAt) := by
  have agrees : Agrees (presented raw :: calls.filterMap Call.presents? ++ drawn v calls) v calls :=
    agrees_of_run empty free calls distinct (fun token hm => by simp [hm]) fun call hc token hp => by
      simp only [List.cons_append, List.mem_cons, List.mem_append, List.mem_filterMap]
      exact .inr (.inl ⟨call, hc, hp⟩)
  have agree := agrees (presented raw) (by simp)
  intro answer now
  have answered : answer = ((authorize raw).runOn (through v calls)).1 := rfl
  rw [runOn_authorize] at answered
  by_cases blank : presented raw = ""
  · have unknown : ∀ user expiresAt, ¬ Stands v calls (presented raw) user expiresAt :=
      fun user expiresAt stands => ne_empty_of_mem_drawn stands.mem_drawn blank
    rw [if_pos blank] at answered
    simp [answered, blank, blank ▸ unknown]
  · rw [if_neg blank] at answered
    cases found : (through v calls).registry.session? (hashToken (presented raw)) with
    | none =>
        have unknown : ∀ user expiresAt, ¬ Stands v calls (presented raw) user expiresAt := by
          intro user expiresAt stands
          obtain ⟨session, hs, -⟩ := (agree user expiresAt).mpr stands
          rw [found] at hs
          cases hs
        simp only [found] at answered
        simp [answered, blank, unknown]
    | some session =>
        have stands : ∀ user expiresAt, Stands v calls (presented raw) user expiresAt ↔
            session.username = user ∧ session.expiresAt = expiresAt := by
          intro user expiresAt
          rw [← agree user expiresAt]
          simp [found]
        simp only [found] at answered
        by_cases late : session.expiresAt ≤ now
        · rw [if_pos late] at answered
          simp [answered, blank, stands, late, UInt64.not_lt.mpr late]
        · rw [if_neg late] at answered
          simp [answered, blank, stands, late, UInt64.not_le.mp late]

end

/-- At the very time of its expiry a token has expired, with blanks around it or without. -/
theorem authorize_history_expiry :
    let v := Vault.sample (.tables .empty)
    let calls := [Call.issue "ada", .issue "bob", .clock 600000]
    let token := "000102030405060708090a0b0c0d0e0f101112131415161718191a1b1c1d1e1f"
    ∃ user expiresAt, Stands v calls token user expiresAt ∧ expiresAt ≤ 600000 := by
  intro v calls token
  have same : presented (" " ++ token ++ "\n") = token := by decide +kernel
  have law := authorize_history (v := v) rfl calls (" " ++ token ++ "\n") (by decide +kernel)
    (by unfold CollisionFree; decide +kernel)
  rw [same] at law
  exact law.2.2.1.mp (by decide +kernel)

end Strongroom.Sessions
