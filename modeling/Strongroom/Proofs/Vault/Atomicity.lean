import Strongroom.Proofs.Vault.Runs
/-!
# Requests that fail

A request that fails leaves the records and the files as they were: nothing stays half made.  Only
a session that is found to have expired is removed, and it alone.
-/

namespace Strongroom

open FileTree Registry Sessions
open Function (update)

namespace Vault

variable {top : Location} {v v' : Vault} {request : Request}

/-- A request that fails draws random bytes at most, unless it finds a session that has expired. -/
theorem Does.of_failed {kind : FailureKind} {message : String}
    (does : Does top v request (.error kind message) v') :
    (kind ≠ .sessionExpired ∧ ∃ entropy, v' = { v with entropy }) ∨
    kind = .sessionExpired ∧ ∃ token session, request.token? = some token ∧
      v.registry.session? (hashToken (presented token)) = some session ∧
      session.expiresAt ≤ v.clock ∧
      v' = { v with registry := v.registry.deleteSession (hashToken (presented token)) } := by
  generalize hr : Response.error kind message = response at does
  cases does with
  | @refused _ failure entropy other =>
      obtain ⟨rfl, -⟩ := Response.error.inj hr
      exact .inl ⟨other, entropy, rfl⟩
  | @expired _ token session carried found late =>
      obtain ⟨rfl, -⟩ := Response.error.inj hr
      exact .inr ⟨rfl, token, session, carried, found, late, rfl⟩
  | _ => cases hr

/-- A request that only asks for something changes nothing if it is answered. -/
theorem Does.of_looked {reply : Reply} (looks : request.onlyLooks = true)
    (does : Does top v request (.ok reply) v') : v' = v := by
  generalize hr : Response.ok reply = response at does
  cases does with
  | refused => cases hr
  | expired => cases hr
  | moved moves =>
      rcases moves with rfl | ⟨raw, rfl⟩
      · cases looks
      · cases looks
  | looked => rfl
  | _ => cases looks

/-- All or nothing: after any run, a request that fails leaves the registry and the tree exactly as
they were, except that the session of the presented token is removed if it has expired; and one
that only asks for something changes nothing when it succeeds. -/
theorem dispatch_atomic {v₀ : Vault} (opened : v₀.Opened) (events : List Event) (request : Request) :
    let v := v₀.after events
    let v' := (v.dispatch request).2
    (∀ kind message, (v.dispatch request).1 = .error kind message → v'.tree = v.tree ∧
      (kind ≠ .sessionExpired → v'.registry = v.registry) ∧
      (kind = .sessionExpired → ∃ token, request.token? = some token ∧
        v.registry.session? (hashToken (presented token)) ≠ none ∧
        v'.registry = v.registry.deleteSession (hashToken (presented token)) ∧
        v'.registry.records = { v.registry.records with
          session? := update v.registry.session? (hashToken (presented token)) none })) ∧
    (∀ reply, (v.dispatch request).1 = .ok reply → request.onlyLooks = true →
      v'.tree = v.tree ∧ v'.registry = v.registry) := by
  intro v v'
  have does : Does v₀.base v request (v.dispatch request).1 v' :=
    dispatch_does (opened.settled.after events) request
  constructor
  · intro kind message failed
    rw [failed] at does
    rcases does.of_failed with ⟨other, entropy, he⟩ | ⟨expired, token, session, carried, found, -, he⟩
    · rw [he]
      exact ⟨rfl, fun _ => rfl, fun expired => absurd expired other⟩
    · rw [he]
      refine ⟨rfl, fun other => absurd expired other, fun _ => ⟨token, carried, by simp [found], rfl, ?_⟩⟩
      exact records_deleteSession v.registry _
  · intro reply succeeded looks
    rw [succeeded] at does
    rw [does.of_looked looks]
    exact ⟨rfl, rfl⟩

/-- A session that has expired is found by the first request after that, and is gone then. -/
theorem dispatch_atomic_expired :
    let v := (sample (.tables .empty)).after
      [.request (.signup "ada" "Passw0rd"), .request (.login "ada" "Passw0rd"), .clock 600000]
    let v' := (v.dispatch (.mkdir
      "18191a1b1c1d1e1f202122232425262728292a2b2c2d2e2f3031323334353637" "docs")).2
    v'.tree = v.tree ∧ v'.registry ≠ v.registry := by
  intro v v'
  have failed : (v.dispatch (.mkdir
      "18191a1b1c1d1e1f202122232425262728292a2b2c2d2e2f3031323334353637" "docs")).1 =
      .error .sessionExpired "authentication failed: session expired" := by decide +kernel
  obtain ⟨tree, -, lost⟩ := (dispatch_atomic (sample_opened (.inr rfl)) _ _).1 _ _ failed
  obtain ⟨token, -, found, -, answers⟩ := lost rfl
  refine ⟨tree, fun same => found ?_⟩
  have gone := congrFun (congrArg Records.session? answers) (hashToken (presented token))
  rw [same] at gone
  exact gone.trans (Function.update_self ..)

end Vault

end Strongroom
