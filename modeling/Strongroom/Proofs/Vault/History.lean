import Mathlib.Data.List.DropRight
import Strongroom.Proofs.Vault.InStep
import Strongroom.Proofs.Vault.Integrity
/-!
# Histories

The requests of a run, each with the vault that it was put to and with its answer.  What a user has
done so far is read off the requests of the user that succeeded.
-/

namespace Strongroom.Vault

open Sessions

/-- A request that was put to a vault, and its answer. -/
structure Exchange where
  vault : Vault
  request : Request
  response : Response

/-- The exchange of an event; setting the clock is none. -/
def Event.exchange (v : Vault) : Event → List Exchange
  | .request asked => [⟨v, asked, (v.dispatch asked).1⟩]
  | .clock _ => []

/-- The exchanges in the course of some events. -/
def exchanges (v : Vault) : List Event → List Exchange
  | [] => []
  | event :: rest => event.exchange v ++ exchanges (v.step event) rest

/-- The user whose request succeeded: the one that it names, or the one that its token stands for. -/
def Exchange.doer? (x : Exchange) : Option String :=
  match x.response with
  | .error .. => none
  | .ok _ =>
    match x.request.token? with
    | none => x.request.name?
    | some token => (x.vault.registry.session? (hashToken (presented token))).map (·.username)

/-- What the exchanges of a past tell, one after the other, since the last one that begins anew. -/
def since {α : Type} (anew : Exchange → Bool) (tells : Exchange → Option α) (past : List Exchange) :
    List α :=
  (past.rtakeWhile fun x => !anew x).filterMap tells

variable {v : Vault} {token : String} {session : Session}

/-! ## Who did what -/

theorem doer?_of_failure (v : Vault) (request : Request) (failure : Failure) :
    Exchange.doer? ⟨v, request, .ofFailure failure⟩ = none := rfl

theorem doer?_of_accepts (request : Request) (reply : Reply) (carried : request.token? = some token)
    (accepts : v.Accepts token session) :
    Exchange.doer? ⟨v, request, .ok reply⟩ = some session.username := by
  simp only [Exchange.doer?, carried, accepts.found, Option.map_some]

/-! ## One more exchange -/

section

variable {α : Type} {anew : Exchange → Bool} {tells : Exchange → Option α} {past : List Exchange}
  {x : Exchange} {a : α}

theorem since_of_anew (h : anew x = true) : since anew tells (past ++ [x]) = [] := by
  rw [since, List.rtakeWhile_concat, if_neg (by simp [h])]
  rfl

theorem since_of_tells (h : anew x = false) (ht : tells x = some a) :
    since anew tells (past ++ [x]) = since anew tells past ++ [a] := by
  rw [since, List.rtakeWhile_concat, if_pos (by simp [h]), List.filterMap_append, since]
  simp [ht]

theorem since_of_idle (h : anew x = false) (ht : tells x = none) :
    since anew tells (past ++ [x]) = since anew tells past := by
  rw [since, List.rtakeWhile_concat, if_pos (by simp [h]), List.filterMap_append, since]
  simp [ht]

end

/-! ## Runs -/

theorem exchanges_append (v : Vault) (before later : List Event) :
    exchanges v (before ++ later) = exchanges v before ++ exchanges (v.after before) later := by
  induction before generalizing v with
  | nil => rfl
  | cons event rest ih =>
      rw [List.cons_append, exchanges, exchanges, ih, List.append_assoc, after, after, List.foldl_cons]

/-- What is true of a past and of the vault that it has led to, and stays true as one more request is
answered or the clock is set, is true after every run. -/
theorem true_after {Holds : List Exchange → Vault → Prop} {v₀ : Vault} (opened : v₀.Opened)
    (start : Holds [] v₀)
    (answered : ∀ past v request, v.Settled v₀.base → v.InStep v₀.base → Holds past v →
      Holds (past ++ [⟨v, request, (v.dispatch request).1⟩]) (v.dispatch request).2)
    (set : ∀ past v now, Holds past v → Holds past { v with clock := now }) (events : List Event) :
    Holds (exchanges v₀ events) (v₀.after events) := by
  -- from the end, as an exchange is judged by the past before it
  induction events using List.reverseRecOn with
  | nil => exact start
  | append_singleton before event ih =>
      rw [exchanges_append, after_append]
      have settled := opened.settled.after before
      have inStep := opened.inStep.after opened.settled before
      cases event with
      | request request => exact answered _ _ request settled inStep ih
      | clock now =>
          simp only [exchanges, Event.exchange, List.append_nil]
          exact set _ _ now ih

end Strongroom.Vault
