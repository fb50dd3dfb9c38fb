import Mathlib.Algebra.GroupWithZero.Nat
import Strongroom.Proofs.Access.SessionHistory
import Strongroom.Proofs.Wire.Framing
import Strongroom.Wire.Server
/-!
# Serving with sound settings

Settings without a flaw are served with as they read: lines up to the longest request are answered, every
client that there may be has a place, and sessions expire after their lifetime.  Two numbers are outside of
this, though they are no flaws: the greatest number of sixty-four bits for the longest request, and more
places for clients than can be kept.
-/

namespace Strongroom

/-! ## Lines that are answered -/

namespace Connection

/-- A line of blanks. -/
def Blank (line : Bytes) : Prop :=
  ∃ text, Bytes.toText? line = some text ∧ ∀ c ∈ text.toList, Text.isBlank c = true

/-- How a vault answers a line that is looked at as a whole, and what is left of the vault. -/
inductive Handles (v : Vault) (line : Bytes) : Response → Vault → Prop
  | unreadable (noText : Bytes.toText? line = none) :
      Handles v line (.error .badRequest "request is not valid UTF-8") v
  | malformed {text : String} {fault : Json.Fault} (spelled : Bytes.toText? line = some text)
      (refused : Request.parse text = .error fault) :
      Handles v line (.error .badRequest s!"malformed request: {fault.message}") v
  | request {text : String} {request : Request} (spelled : Bytes.toText? line = some text)
      (parsed : Request.parse text = .ok request) :
      Handles v line (v.dispatch request).1 (v.dispatch request).2

variable {maxBytes : UInt64} {line : Bytes}

theorem reply_handles (fits : (content line).length ≤ maxBytes.toNat) (spoken : ¬ Blank line) (v : Vault) :
    ∃ response left, Handles v line response left ∧ reply maxBytes v line = (some response, left) := by
  rw [reply, if_neg (Nat.not_lt.mpr fits)]
  cases spelled : Bytes.toText? line with
  | none => exact ⟨_, _, .unreadable spelled, rfl⟩
  | some text =>
      have filled : ¬ text.toList.all Text.isBlank = true := fun blank =>
        spoken ⟨text, spelled, List.all_eq_true.mp blank⟩
      simp only [if_neg filled]
      cases parsed : Request.parse text with
      | error fault => exact ⟨_, _, .malformed spelled parsed, rfl⟩
      | ok request => exact ⟨_, _, .request spelled parsed, rfl⟩

theorem replies_append (maxBytes : UInt64) (v : Vault) (before after : List Bytes) :
    replies maxBytes v (before ++ after) =
      ((replies maxBytes v before).1 ++ (replies maxBytes (replies maxBytes v before).2 after).1,
        (replies maxBytes (replies maxBytes v before).2 after).2) := by
  induction before generalizing v with
  | nil => rfl
  | cons line before ih => simp only [List.cons_append, replies, ih, List.append_assoc]

/-- The sum wraps only for the greatest number. -/
theorem toNat_readLimit (most : maxBytes.toNat + 1 < 2 ^ 64) :
    (readLimit maxBytes).toNat = maxBytes.toNat + 1 := by
  rw [readLimit, UInt64.toNat_add]
  exact Nat.mod_eq_of_lt most

/-- A line that is neither blank nor too long is answered after the lines before it and before those
behind it. -/
theorem serve_handles (most : maxBytes.toNat + 1 < 2 ^ 64) (v : Vault) {chunks before after : List Bytes}
    (stream : lines chunks.flatten = before ++ line :: after)
    (fits : (content line).length ≤ maxBytes.toNat) (spoken : ¬ Blank line) :
    ∃ response left, Handles (replies maxBytes v before).2 line response left ∧
      serve maxBytes v chunks =
        ((replies maxBytes v before).1 ++ response :: (replies maxBytes left after).1,
          (replies maxBytes left after).2) := by
  obtain ⟨response, left, handles, answered⟩ :=
    reply_handles fits spoken (replies maxBytes v before).2
  refine ⟨response, left, handles, ?_⟩
  have whole : serve maxBytes v chunks = replies maxBytes v (lines chunks.flatten) :=
    serveRounds_eq_replies most (Nat.lt_succ_self _) v
  rw [whole, stream, replies_append, replies, answered]
  rfl

/-- With the greatest number for the longest request no byte is read, and no line answered. -/
theorem serve_of_greatest (greatest : maxBytes.toNat + 1 = 2 ^ 64) (v : Vault) (chunks : List Bytes) :
    serve maxBytes v chunks = ([], v) := by
  have none : (readLimit maxBytes).toNat = 0 := by
    have one : (1 : UInt64).toNat = 1 := rfl
    rw [readLimit, UInt64.toNat_add, one, greatest, Nat.mod_self]
  have nothing : (takeLine 0 chunks).1 = [] := by
    cases chunks <;> simp [takeLine]
  rw [serve, serveRounds, none]
  simp [nothing]

end Connection

/-! ## Places -/

namespace Server

variable {n n' : Network} {startup : Startup}

theorem toNat_mostPlaces : mostPlaces.toNat = (2 ^ 64 - 1) >>> 3 := by
  decide

/-- A server that listens keeps a place for each client that there may be, if so many can be kept. -/
theorem bind_of_listen (listens : n.listen startup = .ok n') (v : Vault) :
    bind n startup v =
      if startup.maxClients.toNat ≤ (2 ^ 64 - 1) >>> 3 then
        .ok (n', ⟨startup.maxClients, startup.maxRequestBytes, v, []⟩)
      else .error .tooManyPlaces := by
  rw [bind, listens]
  simp only [UInt64.lt_iff_toNat_lt, toNat_mostPlaces, ← Nat.not_le, ite_not]

end Server

/-! ## Sessions -/

/-- A session that is entered is found under its hash, whatever was there before. -/
theorem Registry.session?_replaceSession_self {r after : Registry} {session : Session}
    (entered : r.replaceSession session = (.ok (), after)) :
    after.session? session.tokenHash = some session := by
  cases r with
  | maps m =>
      obtain rfl := (Prod.mk.inj entered).2
      simp only [Registry.session?, RecordMap.get?_insert, if_pos]
  | tables t =>
      rcases Tables.replaceSession_cases t session with ⟨failure, row, he, -⟩ | ⟨he, vacant⟩
      · rw [Registry.replaceSession, he] at entered
        cases entered
      · rw [Registry.replaceSession, he] at entered
        obtain rfl := (Prod.mk.inj entered).2
        have law := @find?_concat _ SessionRow.tokenHash _ (.ofSession session) vacant session.tokenHash
        rw [Registry.session?, law, if_pos (by rfl), Option.map_some, toSession_ofSession]

namespace Sessions

theorem session?_issue {username token : String} {v left : Vault}
    (issued : (issue username).runOn v = (.ok token, left)) :
    left.registry.session? (hashToken token) =
      some ⟨hashToken token, username, expiry v.clock v.ttlMillis⟩ := by
  rw [runOn_issue] at issued
  split at issued
  · rename_i after entered
    cases issued
    exact Registry.session?_replaceSession_self entered
  · cases issued

/-- An expiry does not wrap, so it never lies before the start of its session. -/
theorem le_expiry (now : UInt64) (ttlMillis : Nat) : now ≤ expiry now ttlMillis := by
  rw [UInt64.le_iff_toNat_le, toNat_expiry]
  have := now.toNat_lt_size
  omega

theorem lt_expiry {now : UInt64} {ttlMillis : Nat} (lasting : 0 < ttlMillis)
    (before : now.toNat < 2 ^ 64 - 1) : now < expiry now ttlMillis := by
  have size : UInt64.size = 2 ^ 64 := rfl
  rw [UInt64.lt_iff_toNat_lt, toNat_expiry]
  omega

end Sessions

/-! ## Settings without a flaw -/

namespace Settings

variable {s : Settings}

theorem validate_eq_ok : s.validate = .ok s ↔ s.flaw? = none := by
  unfold validate
  cases s.flaw? <;> simp

/-- Settings have no flaw if nothing is missing that is needed, and users fit into the total. -/
theorem flaw?_eq_none :
    s.flaw? = none ↔ s.startup.port ≠ 0 ∧ s.startup.storageRoot ≠ "" ∧ s.startup.databasePath ≠ "" ∧
      s.startup.maxClients ≠ 0 ∧ s.startup.sessionTtlSecs ≠ 0 ∧ s.limits.userQuotaBytes ≠ 0 ∧
      s.limits.totalQuotaBytes ≠ 0 ∧ ¬ s.limits.totalQuotaBytes < s.limits.userQuotaBytes := by
  simp only [flaw?, ite_eq_iff, reduceCtorEq, and_false, false_or, and_true, not_or, ne_eq, and_assoc]

theorem toNat_pos {n : UInt64} (some : n ≠ 0) : 0 < n.toNat :=
  Nat.pos_of_ne_zero fun none => some (UInt64.toNat_inj.mp none)

theorem sessionTtlMillis_pos (lasting : s.startup.sessionTtlSecs ≠ 0) :
    0 < s.startup.sessionTtlMillis :=
  Nat.mul_pos (toNat_pos lasting) (by decide)

/-- Settings without a flaw are served with as they read.  Unless the longest request is the greatest number
of sixty-four bits, every line up to it that is not blank is answered in its turn; otherwise the limit of
what is read wraps to zero and nothing is answered.  A server that can listen has the places that the
settings name, the first client gets one, and only more places than can be kept are refused.  A session
expires after its lifetime or at the end of time, and never before it starts. -/
theorem validated_serves (valid : s.validate = .ok s) :
    (s.startup.maxRequestBytes.toNat + 1 < 2 ^ 64 →
      (Connection.readLimit s.startup.maxRequestBytes).toNat = s.startup.maxRequestBytes.toNat + 1 ∧
      ∀ v chunks before line after, Connection.lines chunks.flatten = before ++ line :: after →
        (Connection.content line).length ≤ s.startup.maxRequestBytes.toNat → ¬ Connection.Blank line →
        let earlier := Connection.replies s.startup.maxRequestBytes v before
        ∃ response left, Connection.Handles earlier.2 line response left ∧
          let later := Connection.replies s.startup.maxRequestBytes left after
          Connection.serve s.startup.maxRequestBytes v chunks =
            (earlier.1 ++ response :: later.1, later.2)) ∧
    (s.startup.maxRequestBytes.toNat + 1 = 2 ^ 64 → ∀ v chunks,
      Connection.serve s.startup.maxRequestBytes v chunks = ([], v)) ∧
    (∀ n n' v, n.listen s.startup = .ok n' →
      (s.startup.maxClients.toNat ≤ (2 ^ 64 - 1) >>> 3 →
        ∃ server, Server.bind n s.startup v = .ok (n', server) ∧ server.vault = v ∧
          server.maxClients = s.startup.maxClients ∧
          server.maxRequestBytes = s.startup.maxRequestBytes ∧
          ∀ id, server.accept id = ([], { server with clients := [⟨id, []⟩] })) ∧
      ((2 ^ 64 - 1) >>> 3 < s.startup.maxClients.toNat →
        Server.bind n s.startup v = .error .tooManyPlaces)) ∧
    ∀ v : Vault, v.ttlMillis = s.startup.sessionTtlMillis →
      let expiresAt := Sessions.expiry v.clock v.ttlMillis
      expiresAt.toNat = min (v.clock.toNat + 1000 * s.startup.sessionTtlSecs.toNat) (2 ^ 64 - 1) ∧
      v.clock ≤ expiresAt ∧ (v.clock.toNat < 2 ^ 64 - 1 → v.clock < expiresAt) ∧
      ∀ username token left, (Sessions.issue username).runOn v = (.ok token, left) →
        left.registry.session? (hashToken token) = some ⟨hashToken token, username, expiresAt⟩ := by
  obtain ⟨-, -, -, places, lasting, -⟩ := flaw?_eq_none.mp (validate_eq_ok.mp valid)
  refine ⟨fun most => ⟨Connection.toNat_readLimit most, ?_⟩, Connection.serve_of_greatest,
    fun n n' v listens => ⟨fun kept => ?_, fun many => ?_⟩, fun v same => ?_⟩
  · intro v chunks before line after stream fits spoken
    exact Connection.serve_handles most v stream fits spoken
  · rw [Server.bind_of_listen listens, if_pos kept]
    exact ⟨_, rfl, rfl, rfl, rfl, fun id => if_pos (toNat_pos places)⟩
  · rw [Server.bind_of_listen listens, if_neg (Nat.not_le.mpr many)]
  · have size : UInt64.size = 2 ^ 64 := rfl
    refine ⟨?_, Sessions.le_expiry _ _, Sessions.lt_expiry ?_, fun username token left =>
      Sessions.session?_issue⟩
    · rw [Sessions.toNat_expiry, same, Startup.sessionTtlMillis, Nat.mul_comm, size]
    · rw [same]
      exact sessionTtlMillis_pos lasting

/-- Settings with the longest requests and the most places that can be served with. -/
def sampleLargest : Settings where
  startup := { maxRequestBytes := 18446744073709551614, maxClients := 2305843009213693951 }

/-- A host that clients on the same host can reach. -/
def sampleNetwork : Network := ⟨["127.0.0.1"], []⟩

/-- A request that names no user. -/
def sampleLine : Bytes := Bytes.ofText "[\"pwd\",\"\"]\n"

theorem not_blank_sampleLine : ¬ Connection.Blank sampleLine := by
  rintro ⟨text, spelled, blank⟩
  have same : Bytes.toText? sampleLine = some "[\"pwd\",\"\"]\n" := by decide +kernel
  obtain rfl := Option.some.inj (same.symm.trans spelled)
  exact absurd (blank '[' (by decide)) (by decide)

theorem validated_serves_largest :
    sampleLargest.validate = .ok sampleLargest ∧
      (∃ response left, Connection.Handles (.sample (.maps .empty)) sampleLine response left ∧
        (Connection.serve 18446744073709551614 (.sample (.maps .empty)) [sampleLine]).1 = [response]) ∧
      (∃ n server, Server.bind sampleNetwork sampleLargest.startup (.sample (.maps .empty)) =
        .ok (n, server) ∧ server.maxClients = 2305843009213693951) ∧
      (Sessions.expiry 18446744073709551000 600000).toNat = 2 ^ 64 - 1 := by
  have valid : sampleLargest.validate = .ok sampleLargest := by decide
  obtain ⟨answers, -, keeps, expires⟩ := validated_serves valid
  obtain ⟨response, left, handles, served⟩ := (answers (by decide)).2 (.sample (.maps .empty)) [sampleLine]
    [] sampleLine [] (by decide) (by decide) not_blank_sampleLine
  have listens : ∃ n, sampleNetwork.listen sampleLargest.startup = .ok n := ⟨_, rfl⟩
  obtain ⟨n, listens⟩ := listens
  obtain ⟨server, bound, -, places, -⟩ := (keeps _ n (.sample (.maps .empty)) listens).1 (by decide)
  have late := expires { Vault.sample (.maps .empty) with clock := 18446744073709551000 } rfl
  exact ⟨valid, ⟨response, left, handles, congrArg Prod.fst served⟩, ⟨n, server, bound, places⟩,
    late.1.trans (by decide)⟩

/-- Settings with the greatest number for the longest request. -/
def sampleUnread : Settings where
  startup := { maxRequestBytes := 18446744073709551615 }

/-- Settings with one place more than can be kept. -/
def sampleCrowded : Settings where
  startup := { maxClients := 2305843009213693952 }

/-- Two numbers that are no flaws are not served with: with one a line that is not blank has no answer, and
with the other there is no server. -/
theorem validated_unserved :
    sampleUnread.validate = .ok sampleUnread ∧
      (Connection.readLimit sampleUnread.startup.maxRequestBytes).toNat = 0 ∧
      ¬ Connection.Blank sampleLine ∧
      (Connection.content sampleLine).length ≤ sampleUnread.startup.maxRequestBytes.toNat ∧
      (Connection.serve sampleUnread.startup.maxRequestBytes (.sample (.maps .empty)) [sampleLine]).1 =
        [] ∧
      sampleCrowded.validate = .ok sampleCrowded ∧
      (∃ n, sampleNetwork.listen sampleCrowded.startup = .ok n) ∧
      Server.bind sampleNetwork sampleCrowded.startup (.sample (.maps .empty)) = .error .tooManyPlaces := by
  have greatest : sampleUnread.startup.maxRequestBytes.toNat + 1 = 2 ^ 64 := by decide
  have nothing := Connection.serve_of_greatest greatest (.sample (.maps .empty)) [sampleLine]
  exact ⟨by decide, by decide, not_blank_sampleLine, by decide, congrArg Prod.fst nothing, by decide,
    ⟨_, rfl⟩, rfl⟩

end Settings

end Strongroom
