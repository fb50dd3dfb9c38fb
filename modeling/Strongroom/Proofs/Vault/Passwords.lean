import Strongroom.Proofs.Bytes.Digests
import Strongroom.Proofs.Vault.History
/-!
# Passwords

A user is accepted with the password of the last signup, until the account is given up.
-/

namespace Strongroom

open Registry
open Credentials (runOn_verify)
open Function (update update_self update_of_ne)

/-- The bytes that are hashed for a password: the password with the salt after it. -/
def salted (password salt : String) : Bytes :=
  Bytes.ofText password ++ Bytes.ofText salt

/-- Among some strings of bytes no two have the same hash. -/
def HashedApart (strings : List Bytes) : Prop :=
  ∀ a ∈ strings, ∀ b ∈ strings, Sha256.hash a = Sha256.hash b → a = b

theorem salted_inj {a b salt : String} (h : salted a salt = salted b salt) : a = b :=
  Bytes.ofText_injective (List.append_cancel_right h)

theorem HashedApart.password_eq {strings : List Bytes} (apart : HashedApart strings) {a b salt : String}
    (ha : salted a salt ∈ strings) (hb : salted b salt ∈ strings)
    (h : hashPassword a salt = hashPassword b salt) : a = b :=
  salted_inj (apart _ ha _ hb (Bytes.toHex_injective h))

namespace Vault

/-- Whether a user gave up the account. -/
def Exchange.givesUp (user : String) (x : Exchange) : Bool :=
  x.doer? == some user &&
    match x.request with
    | .delete _ => true
    | _ => false

/-- The password with which a user signed up. -/
def Exchange.chooses? (user : String) (x : Exchange) : Option String :=
  match x.request with
  | .signup _ password => if x.doer? = some user then some password else none
  | _ => none

/-- The password of a user after some exchanges: the one of the last signup, if the account has not
been given up since then. -/
def password? (user : String) (past : List Exchange) : Option String :=
  (since (·.givesUp user) (·.chooses? user) past).getLast?

/-- What an exchange hashes for a password: the new password of a user who signs up, and the password
that a user logs in with, each with the salt on record. -/
def Exchange.hashes (x : Exchange) : List Bytes :=
  match x.request, x.response with
  | .signup username password, .ok _ =>
    ((x.vault.dispatch x.request).2.registry.credential? username).toList.map fun credential =>
      salted password credential.salt
  | .login username password, _ =>
    (x.vault.registry.credential? username).toList.map fun credential =>
      salted password credential.salt
  | _, _ => []

variable {top : Location} {v v' : Vault} {user password : String} {past : List Exchange} {x : Exchange}

/-! ## One more exchange -/

theorem password?_of_givesUp (h : x.givesUp user = true) : password? user (past ++ [x]) = none := by
  rw [password?, since_of_anew h]
  rfl

theorem password?_of_chooses? (h : x.givesUp user = false) (hc : x.chooses? user = some password) :
    password? user (past ++ [x]) = some password := by
  rw [password?, since_of_tells h hc, List.getLast?_concat]

theorem password?_of_idle (h : x.givesUp user = false) (hc : x.chooses? user = none) :
    password? user (past ++ [x]) = password? user past := by
  rw [password?, since_of_idle h hc, password?]

/-! ## Credentials on record -/

/-- The past tells which credential is on record: that of the user's password, and none without a
password. -/
structure Recorded (user : String) (past : List Exchange) (v : Vault) : Prop where
  vacant : password? user past = none → v.registry.credential? user = none
  chosen : ∀ password, password? user past = some password → ∃ salt,
    v.registry.credential? user = some ⟨user, salt, hashPassword password salt⟩ ∧
      salted password salt ∈ past.flatMap Exchange.hashes

namespace Recorded

theorem idle (h : Recorded user past v) (stays : x.givesUp user = false) (chooses : x.chooses? user = none)
    (same : v'.registry.credential? user = v.registry.credential? user) :
    Recorded user (past ++ [x]) v' := by
  constructor
  · intro unknown
    rw [password?_of_idle stays chooses] at unknown
    rw [same, h.vacant unknown]
  · intro password known
    rw [password?_of_idle stays chooses] at known
    obtain ⟨salt, found, mem⟩ := h.chosen password known
    refine ⟨salt, same ▸ found, ?_⟩
    rw [List.flatMap_append]
    exact List.mem_append_left _ mem

theorem of_doer (h : Recorded user past v) (doer : x.doer? ≠ some user)
    (same : v'.registry.credential? user = v.registry.credential? user) :
    Recorded user (past ++ [x]) v' := by
  refine h.idle (by simp [Exchange.givesUp, doer]) ?_ same
  unfold Exchange.chooses?
  split
  · exact if_neg doer
  · rfl

/-- Only signing up and giving up an account bear on passwords. -/
theorem of_request (h : Recorded user past v) (signup : ∀ name word, x.request ≠ .signup name word)
    (delete : ∀ token, x.request ≠ .delete token)
    (same : v'.registry.credential? user = v.registry.credential? user) :
    Recorded user (past ++ [x]) v' := by
  obtain ⟨before, request, response⟩ := x
  cases request with
  | signup name word => exact absurd rfl (signup name word)
  | delete token => exact absurd rfl (delete token)
  | _ => exact h.idle (Bool.and_false _) rfl same

end Recorded

theorem Does.recorded {request : Request} {response : Response} (h : v.Settled top)
    (recorded : ∀ user, Recorded user past v) (does : Does top v request response v')
    (left : (v.dispatch request).2 = v') (user : String) :
    Recorded user (past ++ [⟨v, request, response⟩]) v' := by
  have before := recorded user
  cases does with
  | refused => exact before.of_doer (by simp [doer?_of_failure]) rfl
  | expired =>
      have answers := records_deleteSession v.registry
      exact before.of_doer (by simp [doer?_of_failure])
        (congrFun (congrArg Records.credential? (answers _)) user)
  | @signedUp username password salt rootId registry entropy plain directory addressable free unknown
      sound answers =>
      have credentials : registry.credential? = update v.registry.credential? username
          (some ⟨username, salt, hashPassword password salt⟩) := congrArg Records.credential? answers
      by_cases same : username = user
      · subst same
        have found : registry.credential? username =
            some ⟨username, salt, hashPassword password salt⟩ := by rw [credentials, update_self]
        have known : password? username (past ++ [⟨v, .signup username password, .ok .empty⟩]) =
            some password :=
          password?_of_chooses? (Bool.and_false _) (if_pos rfl)
        refine ⟨fun unknown => absurd (known.symm.trans unknown) (by simp), fun other chosen => ?_⟩
        obtain rfl := Option.some.inj (known.symm.trans chosen)
        refine ⟨salt, found, ?_⟩
        rw [List.flatMap_append, List.mem_append]
        right
        simp [Exchange.hashes, left, found]
      · refine before.of_doer (fun he => same (Option.some.inj he)) ?_
        exact (congrFun credentials user).trans (update_of_ne (Ne.symm same) ..)
  | loggedIn known sound answers =>
      exact before.of_request (by simp) (by simp) (congrFun (congrArg Records.credential? answers) user)
  | loggedOut =>
      have answers := records_deleteSessionsFor h.sound.sessions
      exact before.of_request (by simp) (by simp)
        (congrFun (congrArg Records.credential? (answers _)) user)
  | @deleted token session account accepts known =>
      have doer := doer?_of_accepts (.delete token) .empty rfl accepts
      have credentials : (v.forgetting session.username).credential? =
          update v.registry.credential? session.username none :=
        congrArg Records.credential? (records_forgetting h.sound session.username)
      by_cases same : session.username = user
      · subst same
        have unknown : password? session.username (past ++ [⟨v, .delete token, .ok .empty⟩]) = none :=
          password?_of_givesUp (by simp [Exchange.givesUp, doer])
        refine ⟨fun _ => ?_, fun password chosen => absurd (unknown.symm.trans chosen) (by simp)⟩
        exact (congrFun credentials _).trans (update_self ..)
      · refine before.of_doer (fun he => same (Option.some.inj (doer.symm.trans he))) ?_
        exact (congrFun credentials user).trans (update_of_ne (Ne.symm same) ..)
  | moved moves accepts sound answers =>
      have same := congrFun (congrArg Records.credential? answers) user
      rcases moves with rfl | ⟨raw, rfl⟩
      · exact before.of_request (by simp) (by simp) same
      · exact before.of_request (by simp) (by simp) same
  | looked carried accepts looks =>
      refine before.of_request ?_ ?_ rfl
      · rintro name word rfl
        cases looks
      · rintro token rfl
        cases looks
  | uploaded => exact before.of_request (by simp) (by simp) rfl
  | madeDirectory => exact before.of_request (by simp) (by simp) rfl
  | removed => exact before.of_request (by simp) (by simp) rfl

theorem Opened.recorded {v₀ : Vault} (opened : v₀.Opened) (events : List Event) (user : String) :
    Recorded user (exchanges v₀ events) (v₀.after events) := by
  refine @true_after (fun past v => ∀ user, Recorded user past v) v₀ opened (fun user => ?_)
    (fun past v request settled _ recorded =>
      (dispatch_does settled request).recorded settled recorded rfl)
    (fun past v now recorded user => ⟨(recorded user).vacant, (recorded user).chosen⟩) events user
  refine ⟨fun _ => ?_, fun password known => by cases known⟩
  rcases opened.unknown with he | he <;> rw [he] <;> rfl

/-! ## Logging in -/

theorem dispatch_login_of_refused {failure : Failure}
    (h : (Credentials.verify user password).runOn v = (.error failure, v)) :
    v.dispatch (.login user password) = (.ofFailure failure, v) :=
  dispatch_of_error (by simp [Request.perform, Accounts.login, h])

/-- The law of passwords: if no two of the strings that are hashed for passwords have the same hash,
then after any run a user is accepted with exactly the password of the last signup, as long as the
account has not been given up.  Whoever is not accepted leaves the vault as it is; whoever is accepted is
given a token, unless its session cannot be recorded. -/
theorem login_history {v₀ : Vault} (opened : v₀.Opened) (events : List Event) (user password : String)
    (apart : HashedApart
      ((exchanges v₀ (events ++ [.request (.login user password)])).flatMap Exchange.hashes)) :
    let v := v₀.after events
    let chosen := password? user (exchanges v₀ events)
    (((Credentials.verify user password).runOn v).1 = .ok () ↔ chosen = some password) ∧
    (chosen = none → v.dispatch (.login user password) =
      (.error .notFound s!"not found: username {user} does not exist", v)) ∧
    (∀ other, chosen = some other → other ≠ password → v.dispatch (.login user password) =
      (.error .authentication "authentication failed: username/password incorrect", v)) ∧
    (chosen = some password →
      (∃ token, (v.dispatch (.login user password)).1 = .ok (.token token)) ∨
      ∃ failure : RegistryFailure,
        (v.dispatch (.login user password)).1 = .ofFailure failure.toFailure) := by
  intro v chosen
  have settled : v.Settled v₀.base := opened.settled.after events
  have recorded : Recorded user (exchanges v₀ events) v := opened.recorded events user
  have verified := runOn_verify user password v
  rw [exchanges_append, List.flatMap_append] at apart
  rcases known : chosen with - | other
  · rw [recorded.vacant known] at verified
    exact ⟨by simp [verified], fun _ => dispatch_login_of_refused verified, by simp, by simp⟩
  · obtain ⟨salt, found, mem⟩ := recorded.chosen other known
    rw [found] at verified
    have tried : salted password salt ∈ Exchange.hashes
        ⟨v, .login user password, (v.dispatch (.login user password)).1⟩ := by
      simp [Exchange.hashes, found]
    have same : hashPassword password salt = hashPassword other salt ↔ other = password := by
      refine ⟨fun h => (apart.password_eq ?_ ?_ h).symm, fun h => h ▸ rfl⟩
      · exact List.mem_append_right _ (List.mem_flatMap.mpr ⟨_, List.mem_singleton_self _, tried⟩)
      · exact List.mem_append_left _ mem
    simp only [same] at verified
    by_cases right : other = password
    · subst right
      rw [if_pos rfl] at verified
      obtain ⟨account, owned⟩ := settled.credential found
      refine ⟨by simp [verified], by simp, by simp, fun _ => ?_⟩
      rcases login_cases settled owned verified with
        ⟨failure, entropy, answered⟩ | ⟨token, registry, entropy, -, answered⟩
      · right
        refine ⟨failure, ?_⟩
        rw [dispatch_of_error (by rw [Request.perform, Action.runOn_map, answered]; rfl)]
      · left
        refine ⟨token, dispatch_eq_ok.mpr ?_⟩
        rw [Request.perform, Action.runOn_map, answered]
        rfl
    · rw [if_neg right] at verified
      refine ⟨by simp [verified, right], by simp, fun _ _ _ => dispatch_login_of_refused verified, ?_⟩
      simp [right]

/-- A user who gives up the account and signs up again. -/
def sampleReturn : List Event :=
  sampleLogin ++ [.request (.delete sampleToken), .request (.signup "ada" "N3wPassword")]

/-- After signing up again the first password is refused. -/
theorem login_history_return :
    let v := (sample (.tables .empty)).after sampleReturn
    password? "ada" (exchanges (sample (.tables .empty)) sampleReturn) = some "N3wPassword" ∧
      v.dispatch (.login "ada" "Passw0rd") =
        (.error .authentication "authentication failed: username/password incorrect", v) := by
  have chosen : password? "ada" (exchanges (sample (.tables .empty)) sampleReturn) =
      some "N3wPassword" := by decide +kernel
  have apart : HashedApart ((exchanges (sample (.tables .empty))
      (sampleReturn ++ [.request (.login "ada" "Passw0rd")])).flatMap Exchange.hashes) := by
    unfold HashedApart
    decide +kernel
  obtain ⟨-, -, refused, -⟩ := login_history (sample_opened (.inr rfl)) sampleReturn "ada" "Passw0rd" apart
  exact ⟨chosen, refused "N3wPassword" chosen (by decide)⟩

end Vault

end Strongroom
