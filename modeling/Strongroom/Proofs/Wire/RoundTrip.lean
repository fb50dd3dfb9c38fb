import Strongroom.Proofs.Text.ByteOrder
import Strongroom.Proofs.Wire.Acceptance
import Strongroom.Wire.Connection
import Strongroom.Wire.ResponseReader
/-!
# The wire carries every value

The line that is written for a request is read as that request, with any blanks behind it, and the line
that is written for a response is read as that response.  A response is sent as one line.
-/

namespace Strongroom

/-! ## Requests -/

namespace Request

variable (r : Request)

theorem toDatum_eq : r.toDatum = .record r.toDatum.members := rfl

theorem nodup_toDatum : (r.toDatum.members.map Prod.fst).Nodup := by
  cases r <;>
    simp [toDatum, Datum.members, Request.method, Method.fields, Request.values, Field.name]

/-- What is written for a request gives its fields. -/
theorem documents_toDatum : Documents r.toDatum.members r := by
  cases r with
  | authenticate => exact .authenticate rfl (.inl rfl)
  | signup => exact .signup rfl rfl rfl
  | login => exact .login rfl rfl rfl
  | logout => exact .logout rfl (.inl rfl)
  | delete => exact .delete rfl (.inl rfl)
  | upload => exact .upload rfl (.inl rfl) rfl rfl
  | download => exact .download rfl (.inl rfl) rfl
  | list => exact .list rfl (.inl rfl) (.inl rfl)
  | mkdir => exact .mkdir rfl (.inl rfl) rfl
  | remove => exact .remove rfl (.inl rfl) rfl
  | pwd => exact .pwd rfl (.inl rfl)
  | cd => exact .cd rfl (.inl rfl) rfl

theorem wordy_toDatum : Json.Wordy Json.nestingLimit r.toDatum := by
  refine .record fun member hm => ?_
  rcases List.mem_cons.mp hm with rfl | hm
  · exact .text
  · obtain ⟨item, -, rfl⟩ := List.mem_map.mp hm
    exact .text

/-- A request is read from its line, whatever blanks follow it. -/
theorem parse_toLine_append {blanks : String} (blank : ∀ c ∈ blanks.toList, Text.isBlank c = true) :
    Request.parse (r.toLine ++ blanks) = .ok r := by
  have line : Text.trimEnd (r.toLine ++ blanks).toList = Json.write r.toDatum := by
    rw [String.toList_append, Text.trimEnd_append_of_all_blank _ _ blank, toLine, String.toList_ofList,
      toDatum_eq, Json.trimEnd_write_record]
  have spelled : Json.parse (Text.trimEnd (r.toLine ++ blanks).toList) = .ok (.record r.toDatum.members) := by
    rw [line, Json.parse_write r.wordy_toDatum, ← toDatum_eq]
  exact (parse_eq_ok spelled r.nodup_toDatum).mpr (documents_iff.mp r.documents_toDatum)

end Request

/-! ## Responses -/

namespace Response

open Json (Reads readMembers write writeString writeMembers writeMembers_cons moreMembers skipSpace_cons
  isSpace Fills)

section

variable {first second : String} {readFirst readSecond : Json.Reader Part} {a b : Datum} {x y : Part}

/-- The two fields of a record are read back. -/
theorem reads_pair (title : String) (different : first ≠ second) (readsFirst : Reads readFirst (write a) x)
    (readsSecond : Reads readSecond (write b) y) :
    Reads (readPair title first second readFirst readSecond) (write (.record [(first, a), (second, b)]))
      [(first, x), (second, y)] := by
  intro rest
  have mark : isSpace '\x7b' = false := by decide
  let field (name : String) : Option (Json.Reader Part) :=
    if name = first then some readFirst else if name = second then some readSecond else none
  have one : Reads (Json.knownMember field [] first) (':' :: write a) [(first, x)] := fun rest => by
    simp [Json.knownMember, field, Datum.kept, Json.readColon_cons, readsFirst _]
  have two : Reads (Json.knownMember field [(first, x)] second) (':' :: write b)
      [(first, x), (second, y)] := fun rest => by
    simp [Json.knownMember, field, different, different.symm, Datum.kept, Json.readColon_cons,
      readsSecond _]
  have fills : Fills (Json.knownMember field) [] [(first, a), (second, b)] [(first, x), (second, y)] :=
    .cons one (.cons two .nil)
  have enough : [(first, a), (second, b)].length <
      (writeMembers [(first, a), (second, b)] ++ rest).length + 1 := by
    have := Json.length_le_writeMembers [(first, a), (second, b)]
    simp only [List.length_append]
    omega
  rw [write, List.cons_append, readPair, skipSpace_cons mark]
  exact fills.readMembers enough rest

end

theorem reads_entry (entry : Listed) : Reads readEntry (write entry.toDatum) entry := by
  intro rest
  have name : Reads readTextPart (write (.text entry.name)) (.text entry.name) := fun rest => by
    simp [readTextPart, Json.reads_text _ _ rest]
  have flag : Reads readFlagPart (write (.bool entry.isDirectory)) (.flag entry.isDirectory) :=
    fun rest => by simp [readFlagPart, Json.reads_bool _ rest]
  have different : "name" ≠ "is_dir" := by decide
  have pair := reads_pair "struct DirEntry" different name flag rest
  simp [readEntry, Listed.toDatum, pair, entryOf, textPart, flagPart, Datum.kept]

theorem reads_entries (entries : List Listed) :
    Reads readEntries (write (.list (entries.map Listed.toDatum))) entries := by
  intro rest
  have mark : isSpace '[' = false := by decide
  have starts (entry : Listed) : Json.Starts (write entry.toDatum) :=
    ⟨_, _, by rw [Listed.toDatum, write], by decide⟩
  have enough : entries.length <
      (Json.writeItems (entries.map Listed.toDatum) ++ rest).length + 1 := by
    have := Json.length_le_writeItems (entries.map Listed.toDatum)
    simp only [List.length_append, List.length_map] at this ⊢
    omega
  rw [write, List.cons_append, readEntries, skipSpace_cons mark]
  exact Json.readItems_write (fun entry _ => starts entry) (fun entry _ => reads_entry entry) enough rest

theorem reads_reply (reply : Reply) :
    Reads (Json.readChoice Reply.names bareReply readPayload) (write reply.toDatum) reply := by
  cases reply with
  | empty => exact Json.reads_choice_bare (by decide) rfl
  | username value =>
      refine Json.reads_choice_payload (by decide) fun rest => ?_
      simp [readPayload, Json.reads_text _ _ rest]
  | token value =>
      refine Json.reads_choice_payload (by decide) fun rest => ?_
      simp [readPayload, Json.reads_text _ _ rest]
  | body value =>
      refine Json.reads_choice_payload (by decide) fun rest => ?_
      simp [readPayload, Json.reads_text _ _ rest, bodyOf, Base64.ofText_eq_ok.mpr rfl]
  | entries value =>
      refine Json.reads_choice_payload (by decide) fun rest => ?_
      simp [readPayload, reads_entries _ rest]
  | path value =>
      refine Json.reads_choice_payload (by decide) fun rest => ?_
      simp [readPayload, Json.reads_text _ _ rest]

theorem name_mem_names (kind : FailureKind) : kind.name ∈ FailureKind.names := by
  cases kind <;> decide

theorem kindOf_name (kind : FailureKind) : kindOf kind.name = .ok kind := by
  cases kind <;> rfl

theorem reads_failure (kind : FailureKind) (message : String) :
    Reads readFailure (write (.record [("kind", .text kind.name), ("message", .text message)]))
      (.error kind message) := by
  intro rest
  have tag : Reads readKindPart (write (.text kind.name)) (.kind kind) := fun rest => by
    have name : Reads (Json.readBareChoice FailureKind.names) (write (.text kind.name)) kind.name :=
      Json.reads_choice_bare (name_mem_names kind) rfl
    simp [readKindPart, name rest, kindOf_name]
  have text : Reads readTextPart (write (.text message)) (.text message) := fun rest => by
    simp [readTextPart, Json.reads_text _ _ rest]
  have different : "kind" ≠ "message" := by decide
  have pair := reads_pair "struct Failure" different tag text rest
  simp [readFailure, pair, failureOf, kindPart, textPart, Datum.kept]

/-! ## The whole response -/

section

variable {status : String} {d : Datum} {response : Response}

/-- The status and the result of a response are read back. -/
theorem reads_response (offered : status ∈ statuses) (h : Reads (readResult status) (write d) response) :
    Reads read (write (.record [("status", .text status), ("result", d)])) response := by
  intro rest
  have mark : isSpace '\x7b' = false := by decide
  have name : Reads (Json.readBareChoice statuses) (write (.text status)) status :=
    Json.reads_choice_bare offered rfl
  have shape : write (.record [("status", .text status), ("result", d)]) ++ rest =
      '\x7b' :: (writeString "status" ++ ':' :: (write (.text status) ++
        ',' :: (writeString "result" ++ ':' :: (write d ++ '\x7d' :: rest)))) := by
    simp [write, writeMembers_cons, moreMembers]
  rw [shape, read, skipSpace_cons mark]
  simp [readObject, nextPart, Json.nextKey_first, Json.nextKey_later, Json.nextKey_end,
    Json.readColon_cons, name _, h _, finish]

end

theorem reads_toDatum (r : Response) : Reads read (write r.toDatum) r := by
  cases r with
  | ok reply =>
      refine reads_response (by decide) fun rest => ?_
      simp [readResult, reads_reply reply rest]
  | error kind message =>
      refine reads_response (by decide) fun rest => ?_
      simp [readResult, reads_failure kind message rest]

theorem parse_toLine (r : Response) : parse r.toLine = .ok r := by
  have whole := reads_toDatum r []
  rw [List.append_nil] at whole
  simp [parse, toLine, whole, Json.readEnd, Json.skipSpace]

theorem wordy_reply (reply : Reply) : Json.Wordy 3 reply.toDatum := by
  cases reply with
  | empty => exact .text
  | entries value =>
      refine .record fun member hm => ?_
      obtain rfl := List.mem_singleton.mp hm
      refine .list fun item hi => ?_
      obtain ⟨entry, -, rfl⟩ := List.mem_map.mp hi
      refine .record fun member hm => ?_
      simp only [List.mem_cons, List.not_mem_nil, or_false] at hm
      rcases hm with rfl | rfl
      · exact .text
      · exact .bool
  | _ =>
      refine .record fun member hm => ?_
      obtain rfl := List.mem_singleton.mp hm
      exact .text

theorem wordy_toDatum (r : Response) : Json.Wordy 4 r.toDatum := by
  cases r with
  | ok reply =>
      refine .record fun member hm => ?_
      simp only [List.mem_cons, List.not_mem_nil, or_false] at hm
      rcases hm with rfl | rfl
      · exact .text
      · exact wordy_reply reply
  | error kind message =>
      refine .record fun member hm => ?_
      simp only [List.mem_cons, List.not_mem_nil, or_false] at hm
      rcases hm with rfl | rfl
      · exact .text
      · refine .record fun member hm => ?_
        simp only [List.mem_cons, List.not_mem_nil, or_false] at hm
        rcases hm with rfl | rfl <;> exact .text

end Response

/-! ## Lines -/

/-- Only a newline has the byte of a newline. -/
theorem Bytes.newline_mem_utf8EncodeChar {c : Char} :
    Connection.newline ∈ String.utf8EncodeChar c ↔ c = '\n' := by
  constructor
  · intro h
    have value : c.val.toNat = 10 := by
      simp only [String.utf8EncodeChar] at h
      generalize c.val.toNat = n at h
      split_ifs at h <;>
        simp only [List.mem_cons, List.not_mem_nil, or_false, Connection.newline, ← UInt8.toNat_inj,
          UInt8.toNat_ofNat', UInt8.reduceToNat] at h <;> omega
    exact Char.ext (UInt32.toNat_inj.mp value)
  · rintro rfl
    decide

theorem Bytes.newline_mem_ofText {text : String} :
    Connection.newline ∈ Bytes.ofText text ↔ '\n' ∈ text.toList := by
  rw [Bytes.ofText_eq, List.mem_flatMap]
  simp only [newline_mem_utf8EncodeChar, exists_eq_right]

theorem Response.toBytes_eq (r : Response) :
    r.toBytes = Bytes.ofText r.toLine ++ [Connection.newline] := by
  rw [toBytes, Bytes.ofText_eq, Bytes.ofText_eq, String.toList_append, List.flatMap_append]
  rfl

/-- Requests and responses are read back from their lines, and a response is sent as one line. -/
theorem Wire.reads_back :
    (∀ (r : Request) (blanks : String), (∀ c ∈ blanks.toList, Text.isBlank c = true) →
      Request.parse (r.toLine ++ blanks) = .ok r) ∧
    (∀ r : Response, Response.parse r.toLine = .ok r) ∧
    ∀ r : Response, r.toBytes = Bytes.ofText r.toLine ++ [Connection.newline] ∧
      Connection.newline ∉ Bytes.ofText r.toLine := by
  refine ⟨fun r blanks blank => r.parse_toLine_append blank, Response.parse_toLine,
    fun r => ⟨r.toBytes_eq, fun h => ?_⟩⟩
  rw [Bytes.newline_mem_ofText, Response.toLine, String.toList_ofList] at h
  exact r.wordy_toDatum.newline_not_mem h

/-- A quotation mark, a newline and a control character are carried, and a body that is no text. -/
theorem Wire.reads_back_escaped :
    (∀ c ∈ " \r\n".toList, Text.isBlank c = true) ∧
      Request.parse ((Request.upload "" "a\"b\n\x01" [0, 255]).toLine ++ " \r\n") =
        .ok (.upload "" "a\"b\n\x01" [0, 255]) ∧
      Response.parse (Response.ok (.entries [⟨"a\"b\n\x01", false⟩])).toLine =
        .ok (.ok (.entries [⟨"a\"b\n\x01", false⟩])) := by
  have blank : ∀ c ∈ " \r\n".toList, Text.isBlank c = true := List.all_eq_true.mp (by decide)
  exact ⟨blank, reads_back.1 _ _ blank, reads_back.2.1 _⟩

end Strongroom
