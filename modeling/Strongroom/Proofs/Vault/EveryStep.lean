import Strongroom.Proofs.Vault.Actions
/-!
# Steps that are all taken

Giving up an account takes every step, also after one that failed, and reports the first failure.  The steps
that remove records do not fail, so that it ends as the removal of the root directory ends, in a vault
without the records of the user.
-/

namespace Strongroom

open Sessions

/-- What is left of the records when a user is forgotten. -/
def Vault.forgetting (v : Vault) (user : String) : Registry :=
  (((v.registry.deleteSessionsFor user).deleteCredential user).deleteAccount user)
    |>.deleteWorkingDirectory user

namespace Accounts

/-! ## Any steps -/

theorem runOn_runAll_nil (v : Vault) : (runAll []).runOn v = (.ok (), v) := rfl

theorem runOn_runAll_cons (step : Action Unit) (rest : List (Action Unit)) (v : Vault) :
    (runAll (step :: rest)).runOn v =
      (match (step.runOn v).1 with
        | .error failure => .error failure
        | .ok () => ((runAll rest).runOn (step.runOn v).2).1,
      ((runAll rest).runOn (step.runOn v).2).2) := by
  simp only [runAll, Action.runOn_bind, Action.runOn_outcome]
  cases (step.runOn v).1 with
  | error failure => rfl
  | ok _ => rfl

/-- A step that fails decides what is reported. -/
theorem runAll_of_failed {step : Action Unit} {v : Vault} {failure : Failure}
    (failed : (step.runOn v).1 = .error failure) (rest : List (Action Unit)) :
    ((runAll (step :: rest)).runOn v).1 = .error failure := by
  simp only [runOn_runAll_cons, failed]

/-- A step that does not fail leaves the report to the steps after it. -/
theorem runAll_of_passed {step : Action Unit} {v : Vault} (passed : (step.runOn v).1 = .ok ())
    (rest : List (Action Unit)) :
    (runAll (step :: rest)).runOn v = (runAll rest).runOn (step.runOn v).2 := by
  simp only [runOn_runAll_cons, passed]

/-- Each step is taken, whatever becomes of the others. -/
theorem runAll_takes_all (steps : List (Action Unit)) (v : Vault) :
    ((runAll steps).runOn v).2 = steps.foldl (fun v step => (step.runOn v).2) v := by
  induction steps generalizing v with
  | nil => rfl
  | cons step rest ih => rw [runOn_runAll_cons, ih, List.foldl_cons]

/-- The failure that is reported is that of the first step that fails. -/
theorem runAll_eq_error {steps : List (Action Unit)} {v : Vault} {failure : Failure} :
    ((runAll steps).runOn v).1 = .error failure ↔ ∃ before step after, steps = before ++ step :: after ∧
      ((runAll before).runOn v).1 = .ok () ∧
      (step.runOn ((runAll before).runOn v).2).1 = .error failure := by
  induction steps generalizing v with
  | nil =>
      refine ⟨nofun, ?_⟩
      rintro ⟨before, step, after, same, -⟩
      simp at same
  | cons first rest ih =>
      cases taken : (first.runOn v).1 with
      | error cause =>
          constructor
          · intro outcome
            exact ⟨[], first, rest, rfl, rfl, taken.trans ((runAll_of_failed taken rest).symm.trans outcome)⟩
          · rintro ⟨before, step, after, same, passed, failed⟩
            cases before with
            | nil =>
                obtain ⟨rfl, rfl⟩ := List.cons.inj same
                exact runAll_of_failed failed rest
            | cons second before =>
                obtain ⟨rfl, rfl⟩ := List.cons.inj same
                cases passed.symm.trans (runAll_of_failed taken before)
      | ok _ =>
          rw [runAll_of_passed taken, ih]
          constructor
          · rintro ⟨before, step, after, rfl, passed, failed⟩
            rw [← runAll_of_passed taken] at passed failed
            exact ⟨first :: before, step, after, rfl, passed, failed⟩
          · rintro ⟨before, step, after, same, passed, failed⟩
            cases before with
            | nil =>
                obtain ⟨rfl, rfl⟩ := List.cons.inj same
                cases taken.symm.trans failed
            | cons second before =>
                obtain ⟨rfl, rfl⟩ := List.cons.inj same
                rw [runAll_of_passed taken] at passed failed
                exact ⟨before, step, after, rfl, passed, failed⟩

/-- If the steps before the last one do not fail, all of them end as the last one does. -/
theorem runOn_runAll_concat {before : List (Action Unit)} {v : Vault}
    (passed : ((runAll before).runOn v).1 = .ok ()) (last : Action Unit) :
    (runAll (before ++ [last])).runOn v = last.runOn ((runAll before).runOn v).2 := by
  have fails (failure : Failure) : ((runAll (before ++ [last])).runOn v).1 = .error failure ↔
      (last.runOn ((runAll before).runOn v).2).1 = .error failure := by
    refine ⟨fun outcome => ?_, fun ended => runAll_eq_error.mpr ⟨before, last, [], rfl, passed, ended⟩⟩
    obtain ⟨front, step, rest, same, clear, failed⟩ := runAll_eq_error.mp outcome
    -- the step that failed is the last one, since none of those before it does
    rcases List.eq_nil_or_concat rest with rfl | ⟨more, other, rfl⟩
    · obtain ⟨rfl, single⟩ := List.append_inj' same rfl
      exact List.singleton_inj.mp single ▸ failed
    · rw [List.concat_eq_append, ← List.cons_append, ← List.append_assoc] at same
      obtain ⟨rfl, -⟩ := List.append_inj' same rfl
      cases passed.symm.trans (runAll_eq_error.mpr ⟨front, step, more, rfl, clear, failed⟩)
  apply Prod.ext
  · cases ended : (last.runOn ((runAll before).runOn v).2).1 with
    | error failure => exact (fails failure).mpr ended
    | ok _ =>
        cases outcome : ((runAll (before ++ [last])).runOn v).1 with
        | ok _ => rfl
        | error failure => cases ended.symm.trans ((fails failure).mp outcome)
  · simp only [runAll_takes_all, List.foldl_append, List.foldl_cons, List.foldl_nil]

/-! ## Giving up an account -/

/-- All records of a user are removed, and no step of it fails. -/
theorem runOn_runAll_forget (user : String) (v : Vault) :
    (runAll [invalidate user, Credentials.remove user, forgetAccount user, Directories.forget user]).runOn v =
      (.ok (), { v with registry := v.forgetting user }) := by
  apply Prod.ext
  · simp [runOn_runAll_cons, runOn_runAll_nil, invalidate, Credentials.remove, forgetAccount,
      Directories.forget]
  · rw [runAll_takes_all]
    rfl

variable {v : Vault} {token user : String}

theorem runOn_deleteAccount (authorized : (authorize token).runOn v = (.ok user, v)) :
    (deleteAccount token).runOn v =
      match v.registry.account? user with
      | none => (.error (.notFound s!"could not find root for {user}"),
          { v with registry := v.forgetting user })
      | some account =>
        ((removeAllOf (v.rootPath account.rootId) v.tree).1.mapError HostFault.toFailure,
          { v with
            tree := (removeAllOf (v.rootPath account.rootId) v.tree).2
            registry := v.forgetting user }) := by
  have forgotten := runOn_runAll_forget user v
  have ends (last : Action Unit) : (runAll ([invalidate user, Credentials.remove user, forgetAccount user,
      Directories.forget user] ++ [last])).runOn v = last.runOn { v with registry := v.forgetting user } := by
    rw [runOn_runAll_concat (congrArg Prod.fst forgotten), forgotten]
  simp only [List.cons_append, List.nil_append] at ends
  simp only [deleteAccount, Action.runOn_bind, authorized, Action.runOn_ask, ends, Vault.rootFor]
  cases v.registry.account? user with
  | none => rfl
  | some account => rfl

end Accounts

end Strongroom
