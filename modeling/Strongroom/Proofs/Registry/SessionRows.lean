import Mathlib.Data.Multiset.Filter
import Strongroom.Proofs.Registry.Interchange
/-!
# The rows of the sessions

What the changes of a registry do to the rows of its sessions.  As long as maps keep each session under
its hash, no change gives a user two sessions, or two sessions to a hash.
-/

namespace Strongroom.Registry

/-- Maps keep each session under its hash. -/
def Keyed : Registry → Prop
  | .maps m => ∀ item ∈ m.sessions, item.1 = item.2.tokenHash
  | .tables _ => True

/-- No two sessions are of one user, and no two have one hash. -/
structure Orderly (r : Registry) : Prop where
  keyed : r.Keyed
  users : (r.rows.sessions.map (·.username)).Nodup
  hashes : (r.rows.sessions.map (·.tokenHash)).Nodup

variable {r after : Registry}

theorem Keyed.sessionKeys (h : r.Keyed) : (r.sessionKeys : Multiset String) =
    r.rows.sessions.map (·.tokenHash) := by
  cases r with
  | maps m =>
      rw [rows, Multiset.map_coe, List.map_map, Registry.sessionKeys]
      exact congrArg _ (List.map_congr_left h)
  | tables t =>
      rw [rows, Multiset.map_coe, List.map_map]
      rfl

theorem Orderly.sessionKeys (h : r.Orderly) : r.sessionKeys.Nodup := by
  rw [← Multiset.coe_nodup, h.keyed.sessionKeys]
  exact h.hashes

/-- Fewer sessions are no less in order. -/
theorem Orderly.of_le (h : r.Orderly) (keyed : after.Keyed)
    (fewer : after.rows.sessions ≤ r.rows.sessions) : after.Orderly :=
  ⟨keyed, Multiset.nodup_of_le (Multiset.map_le_map fewer) h.users,
    Multiset.nodup_of_le (Multiset.map_le_map fewer) h.hashes⟩

/-! ## Fewer sessions -/

theorem coe_map_filter {α β : Type} (read : α → β) (p : β → Prop) [DecidablePred p]
    {keep : α → Bool} {rows : List α} (same : ∀ row ∈ rows, keep row = true ↔ p (read row)) :
    ((rows.filter keep).map read : Multiset β) = (rows.map read : Multiset β).filter p := by
  have kept : rows.filter keep = rows.filter fun row => decide (p (read row)) :=
    List.filter_congr fun row hm => by rw [Bool.eq_iff_iff, same row hm, decide_eq_true_iff]
  rw [Multiset.filter_coe, List.filter_map, kept]
  rfl

theorem Keyed.deleteSession (h : r.Keyed) (hash : String) : (r.deleteSession hash).Keyed := by
  cases r with
  | maps m => exact fun item hm => h item (List.mem_of_mem_filter hm)
  | tables t => trivial

theorem Keyed.deleteSessionsFor (h : r.Keyed) (user : String) : (r.deleteSessionsFor user).Keyed := by
  cases r with
  | maps m => exact fun item hm => h item (List.mem_of_mem_filter hm)
  | tables t => trivial

theorem Keyed.rows_deleteSession (h : r.Keyed) (hash : String) :
    (r.deleteSession hash).rows.sessions = r.rows.sessions.filter (·.tokenHash ≠ hash) := by
  cases r with
  | maps m => exact coe_map_filter Prod.snd _ fun item hm => by rw [h item hm, bne_iff_ne]
  | tables t => exact coe_map_filter SessionRow.toSession _ fun _ _ => bne_iff_ne

theorem rows_deleteSessionsFor (r : Registry) (user : String) :
    (r.deleteSessionsFor user).rows.sessions = r.rows.sessions.filter (·.username ≠ user) := by
  cases r with
  | maps m => exact coe_map_filter Prod.snd _ fun _ _ => bne_iff_ne
  | tables t => exact coe_map_filter SessionRow.toSession _ fun _ _ => bne_iff_ne

theorem Orderly.deleteSession (h : r.Orderly) (hash : String) : (r.deleteSession hash).Orderly :=
  h.of_le (h.keyed.deleteSession hash) (h.keyed.rows_deleteSession hash ▸ Multiset.filter_le _ _)

theorem Orderly.deleteSessionsFor (h : r.Orderly) (user : String) : (r.deleteSessionsFor user).Orderly :=
  h.of_le (h.keyed.deleteSessionsFor user) (rows_deleteSessionsFor r user ▸ Multiset.filter_le _ _)

/-! ## Another session -/

/-- A session that is entered takes the place of those of its user, and of the one that has its hash. -/
theorem Keyed.rows_replaceSession (h : r.Keyed) {session : Session}
    (entered : r.replaceSession session = (.ok (), after)) :
    after.Keyed ∧ after.rows.sessions = session ::ₘ
      ((r.deleteSessionsFor session.username).deleteSession session.tokenHash).rows.sessions := by
  have others := h.deleteSessionsFor session.username
  cases r with
  | maps m =>
      obtain rfl := (Prod.mk.inj entered).2
      refine ⟨fun item hm => ?_, rfl⟩
      rcases List.mem_cons.mp hm with rfl | hm
      · rfl
      · exact others.deleteSession session.tokenHash item hm
  | tables t =>
      rcases Tables.replaceSession_cases t session with ⟨failure, row, he, -⟩ | ⟨he, vacant⟩
      · rw [Registry.replaceSession, he] at entered
        cases entered
      · rw [Registry.replaceSession, he] at entered
        obtain rfl := (Prod.mk.inj entered).2
        have all : ((t.sessions.filter fun row => row.username != session.username).filter fun row =>
            row.tokenHash != session.tokenHash) = _ := List.filter_eq_self.mpr (by simpa using vacant)
        refine ⟨trivial, ?_⟩
        simp only [rows, Registry.deleteSessionsFor, Registry.deleteSession, all, List.map_append,
          List.map_singleton, toSession_ofSession]
        exact Multiset.coe_eq_coe.mpr (List.perm_append_singleton session _)

theorem Orderly.replaceSession (h : r.Orderly) {session : Session}
    (entered : r.replaceSession session = (.ok (), after)) : after.Orderly := by
  obtain ⟨keyed, rows⟩ := h.keyed.rows_replaceSession entered
  have kept := h.keyed.deleteSessionsFor session.username
  have others := (h.deleteSessionsFor session.username).deleteSession session.tokenHash
  refine ⟨keyed, ?_, ?_⟩
  · rw [rows, Multiset.map_cons, Multiset.nodup_cons]
    refine ⟨fun hm => ?_, others.users⟩
    obtain ⟨old, hm, same⟩ := Multiset.mem_map.mp hm
    rw [kept.rows_deleteSession, rows_deleteSessionsFor] at hm
    exact (Multiset.mem_filter.mp (Multiset.mem_of_mem_filter hm)).2 same
  · rw [rows, Multiset.map_cons, Multiset.nodup_cons]
    refine ⟨fun hm => ?_, others.hashes⟩
    obtain ⟨old, hm, same⟩ := Multiset.mem_map.mp hm
    rw [kept.rows_deleteSession] at hm
    exact (Multiset.mem_filter.mp hm).2 same

/-! ## Other changes, and what is found after a change -/

/-- The working directories do not bear on the sessions. -/
theorem Orderly.putWorkingDirectory (h : r.Orderly) (directory : WorkingDirectory) :
    (r.putWorkingDirectory directory).2.Orderly := by
  cases r with
  | maps m => exact ⟨h.keyed, h.users, h.hashes⟩
  | tables t =>
      rw [Registry.putWorkingDirectory, transaction_upsertWorkingDirectory]
      exact ⟨h.keyed, h.users, h.hashes⟩

theorem session?_putWorkingDirectory (r : Registry) (directory : WorkingDirectory) :
    (r.putWorkingDirectory directory).2.session? = r.session? := by
  obtain ⟨after, he, -, -, answers⟩ := putWorkingDirectory_eq r directory
  rw [he]
  exact congrArg Records.session? answers

theorem session?_deleteSession (r : Registry) (hash : String) :
    (r.deleteSession hash).session? = Function.update r.session? hash none :=
  congrArg Records.session? (records_deleteSession r hash)

theorem Orderly.session?_deleteSessionsFor (h : r.Orderly) (user : String) (hash : String) :
    (r.deleteSessionsFor user).session? hash = (r.session? hash).filter fun s => s.username != user :=
  congrFun (congrArg Records.session? (records_deleteSessionsFor h.sessionKeys user)) hash

/-- A session that is entered is found under its hash, and under the other hashes those of other users. -/
theorem Orderly.session?_replaceSession (h : r.Orderly) {session : Session}
    (entered : r.replaceSession session = (.ok (), after)) :
    after.session? = Function.update
      (fun hash => (r.session? hash).filter fun s => s.username != session.username)
      session.tokenHash (some session) := by
  rcases replaceSession_cases h.sessionKeys session with ⟨failure, -, he, -⟩ | ⟨other, he, -, -, answers⟩
  · rw [he] at entered
    cases entered
  · rw [he] at entered
    obtain rfl := (Prod.mk.inj entered).2
    exact congrArg Records.session? answers

end Strongroom.Registry
