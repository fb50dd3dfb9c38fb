import Mathlib.Logic.Function.Basic
import Strongroom.Vault.Basic
/-!
# Calls that take turns

Any number of calls work on one vault.  Each call goes from stage to stage, and nothing comes in between
the two ends of one step; between two steps the other calls may take any number of theirs, and the clock
may be changed.
-/

namespace Strongroom

/-- The steps of a call, by the stage that it has come to, and the stage of a call that has failed. -/
structure Procedure (Stage : Type) where
  next : Stage → Action Stage
  failed : Failure → Stage

/-- One step of a call: the stage that it comes to, and what it leaves of the vault. -/
def Procedure.advance {Stage : Type} (p : Procedure Stage) (stage : Stage) (v : Vault) : Stage × Vault :=
  match (p.next stage).runOn v with
  | (.ok stage, v) => (stage, v)
  | (.error failure, v) => (p.failed failure, v)

/-- So many steps of a call that nothing comes in between. -/
def Procedure.alone {Stage : Type} (p : Procedure Stage) : Nat → Stage → Vault → Stage × Vault
  | 0, stage, v => (stage, v)
  | n + 1, stage, v =>
    let (stage, v) := p.advance stage v
    p.alone n stage v

/-- What comes next: a step of a call, or a change of the clock. -/
inductive Turn (ι : Type)
  | step (call : ι)
  | clock (now : UInt64)

/-- A vault, and the stages of the calls that work on it. -/
structure Crowd (ι Stage : Type) where
  vault : Vault
  stages : ι → Stage

namespace Crowd

variable {ι Stage : Type} [DecidableEq ι] (calls : ι → Procedure Stage)

/-- The crowd after one turn. -/
def turn (s : Crowd ι Stage) : Turn ι → Crowd ι Stage
  | .step i =>
    let (stage, vault) := (calls i).advance (s.stages i) s.vault
    ⟨vault, Function.update s.stages i stage⟩
  | .clock now => ⟨{ s.vault with clock := now }, s.stages⟩

/-- The crowd after some turns. -/
def after (s : Crowd ι Stage) (turns : List (Turn ι)) : Crowd ι Stage :=
  turns.foldl (turn calls) s

/-- What the calls note in the course of some turns, when this is what a call notes as it takes a step. -/
def noted {α : Type} (note : Vault → Stage → List α) (s : Crowd ι Stage) : List (Turn ι) → List α
  | [] => []
  | .step i :: turns => note s.vault (s.stages i) ++ noted note (s.turn calls (.step i)) turns
  | .clock now :: turns => noted note (s.turn calls (.clock now)) turns

variable {calls} {s : Crowd ι Stage}

theorem stages_turn (s : Crowd ι Stage) (i : ι) :
    (s.turn calls (.step i)).stages i = ((calls i).advance (s.stages i) s.vault).1 :=
  Function.update_self ..

theorem vault_turn (s : Crowd ι Stage) (i : ι) :
    (s.turn calls (.step i)).vault = ((calls i).advance (s.stages i) s.vault).2 := rfl

theorem after_append (s : Crowd ι Stage) (turns more : List (Turn ι)) :
    s.after calls (turns ++ more) = (s.after calls turns).after calls more :=
  List.foldl_append

theorem noted_append {α : Type} (note : Vault → Stage → List α) (s : Crowd ι Stage)
    (turns more : List (Turn ι)) :
    s.noted calls note (turns ++ more) =
      s.noted calls note turns ++ (s.after calls turns).noted calls note more := by
  induction turns generalizing s with
  | nil => rfl
  | cons turn turns ih =>
      cases turn with
      | step i =>
          rw [List.cons_append, noted, noted, ih, List.append_assoc]
          rfl
      | clock now =>
          rw [List.cons_append, noted, noted, ih]
          rfl

/-- What holds at the start and is kept by every turn holds at every moment. -/
theorem after_induction {P : Crowd ι Stage → Prop} (start : P s) (turns : List (Turn ι))
    (step : ∀ s i, P s → P (s.turn calls (.step i))) (clock : ∀ s now, P s → P (s.turn calls (.clock now))) :
    P (s.after calls turns) := by
  induction turns generalizing s with
  | nil => exact start
  | cons turn turns ih =>
      cases turn with
      | step i => exact ih (step s i start)
      | clock now => exact ih (clock s now start)

/-- A call that takes all the turns leaves the other calls where they are. -/
theorem after_replicate (i : ι) (n : Nat) (s : Crowd ι Stage) :
    s.after calls (List.replicate n (.step i)) =
      ⟨((calls i).alone n (s.stages i) s.vault).2,
        Function.update s.stages i ((calls i).alone n (s.stages i) s.vault).1⟩ := by
  induction n generalizing s with
  | zero => simp [after, Procedure.alone]
  | succ n ih =>
      have first : s.after calls (List.replicate (n + 1) (.step i)) =
          (s.turn calls (.step i)).after calls (List.replicate n (.step i)) := rfl
      rw [first, ih]
      simp [turn, Procedure.alone]

end Crowd

end Strongroom
