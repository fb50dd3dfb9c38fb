import Mathlib.Data.List.Forall2
import Strongroom.Proofs.Bytes.Base64
import Strongroom.Proofs.Datum.Members
import Strongroom.Proofs.Json.Reading
import Strongroom.Proofs.Json.Written
import Strongroom.Wire.RequestReader
/-!
# Which objects are requests

An object whose members have different names is a request exactly if it has the members that its method
asks for, in any order and with any others beside them.  The fields are gathered before the method is
known, so that the place of the method among them does not show.
-/

namespace Strongroom.Request

open Datum (kept kept_cons kept_append kept_eq_none kept_perm)
open Json (readValue readMembers anyMember)

variable {members : List (String × Datum)} {name : String}

/-! ## Members -/

/-- The object has a text under this name. -/
def Has (members : List (String × Datum)) (name value : String) : Prop :=
  kept name members = some (.text value)

/-- The object has a text under this name, or it has nothing there and the text is empty. -/
def MayHave (members : List (String × Datum)) (name value : String) : Prop :=
  Has members name value ∨ kept name members = none ∧ value = ""

/-- The object names the method of a request and gives its fields. -/
inductive Documents (members : List (String × Datum)) : Request → Prop
  | authenticate {token : String} :
      Has members "method" "authenticate" → MayHave members "token" token →
      Documents members (.authenticate token)
  | signup {username password : String} :
      Has members "method" "signup" → Has members "username" username →
      Has members "password" password → Documents members (.signup username password)
  | login {username password : String} :
      Has members "method" "login" → Has members "username" username →
      Has members "password" password → Documents members (.login username password)
  | logout {token : String} :
      Has members "method" "logout" → MayHave members "token" token → Documents members (.logout token)
  | delete {token : String} :
      Has members "method" "delete" → MayHave members "token" token → Documents members (.delete token)
  | upload {token path : String} {body : Bytes} :
      Has members "method" "upload" → MayHave members "token" token → Has members "path" path →
      Has members "body" (Base64.toText body) → Documents members (.upload token path body)
  | download {token path : String} :
      Has members "method" "download" → MayHave members "token" token → Has members "path" path →
      Documents members (.download token path)
  | list {token path : String} :
      Has members "method" "list" → MayHave members "token" token → MayHave members "path" path →
      Documents members (.list token path)
  | mkdir {token path : String} :
      Has members "method" "mkdir" → MayHave members "token" token → Has members "path" path →
      Documents members (.mkdir token path)
  | remove {token path : String} :
      Has members "method" "remove" → MayHave members "token" token → Has members "path" path →
      Documents members (.remove token path)
  | pwd {token : String} :
      Has members "method" "pwd" → MayHave members "token" token → Documents members (.pwd token)
  | cd {token path : String} :
      Has members "method" "cd" → MayHave members "token" token → Has members "path" path →
      Documents members (.cd token path)

/-! ## The method among the members -/

theorem Method.ofName?_eq_some {method : Method} :
    Method.ofName? name = some method ↔ name = method.name := by
  constructor
  · intro h
    have := List.find?_some h
    exact (beq_iff_eq.mp this).symm
  · rintro rfl
    cases method <;> rfl

theorem Method.name_injective : Function.Injective Method.name := by
  intro a b h
  have found := Method.ofName?_eq_some.mpr h
  rw [Method.ofName?_eq_some.mpr rfl] at found
  exact Option.some.inj found

theorem Method.mem_names {method : Method} : method.name ∈ Method.names := by
  cases method <;> decide

/-- The method is a text that names one. -/
theorem readMethod_eq_ok {cs left : List Char} {method : Method} :
    readMethod cs = .ok (method, left) ↔
      Json.readText "variant identifier" cs = .ok (method.name, left) := by
  cases read : Json.readText "variant identifier" cs with
  | error fault => simp [readMethod, Json.readVariant, read]
  | ok result =>
      obtain ⟨text, rest⟩ := result
      by_cases known : text ∈ Method.names
      · obtain ⟨m, -, rfl⟩ := List.mem_map.mp known
        have found : Method.ofName? m.name = some m := Method.ofName?_eq_some.mpr rfl
        simp [readMethod, Json.readVariant, read, Datum.asVariant, known, Json.liftMismatch, found,
          Method.name_injective.eq_iff]
      · have other : text ≠ method.name := fun he => known (he ▸ Method.mem_names)
        simp [readMethod, Json.readVariant, read, Datum.asVariant, known, Json.liftMismatch,
          Json.mismatch, other]

/-! ## Gathering the members -/

/-- The members of an object other than its method. -/
def others (members : List (String × Datum)) : List (String × Datum) :=
  members.filter fun member => member.1 != "method"

theorem others_cons (key : String) (d : Datum) (members : List (String × Datum)) :
    others ((key, d) :: members) = if key = "method" then others members else (key, d) :: others members := by
  by_cases tag : key = "method" <;> simp [others, tag]

theorem others_reverse (members : List (String × Datum)) :
    others members.reverse = (others members).reverse :=
  List.filter_reverse

theorem kept_others (plain : name ≠ "method") : kept name (others members) = kept name members := by
  induction members with
  | nil => rfl
  | cons member members ih =>
      obtain ⟨key, d⟩ := member
      rw [others_cons, kept_cons]
      split_ifs with tag here
      · exact absurd (here.symm.trans tag) plain
      · exact ih
      · rw [kept_cons, if_pos (by assumption)]
      · rw [kept_cons, if_neg (by assumption), ih]

/-- The other members are kept in their order, and the method is the text of the member of that name. -/
def Gathers (members : List (String × Datum)) (seen : Gathered) : Prop :=
  seen.2 = others members ∧
    kept "method" members = seen.1.map fun method => .text method.name

theorem Gathers.unique {seen seen' : Gathered} (h : Gathers members seen) (h' : Gathers members seen') :
    seen = seen' := by
  refine Prod.ext ?_ (h.1.trans h'.1.symm)
  have same := h.2.symm.trans h'.2
  refine Option.map_injective (fun a b he => ?_) same
  exact Method.name_injective (Datum.text.inj he)

theorem Gathers.nil : Gathers [] (none, []) :=
  ⟨rfl, rfl⟩

/-- What the members at the start of an object gather, if all of them gather something. -/
theorem Gathers.of_suffix {before : List (String × Datum)} {last : Gathered}
    (distinct : (members.map Prod.fst).Nodup) (part : before <:+ members) (h : Gathers members last) :
    ∃ seen, Gathers before seen := by
  obtain ⟨after, rfl⟩ := part
  cases found : kept "method" before with
  | none => exact ⟨(none, _), rfl, found⟩
  | some d =>
      have absent : kept "method" after = none := by
        rw [kept_eq_none]
        intro later
        rw [List.map_append, List.nodup_append] at distinct
        refine distinct.2.2 _ later _ ?_ rfl
        by_contra earlier
        rw [kept_eq_none.mpr earlier] at found
        cases found
      have tag := h.2
      rw [kept_append, absent, found, Option.none_or] at tag
      exact ⟨(last.1, _), rfl, found.trans tag⟩

section

variable {depth fuel : Nat} {first : Bool} {before all : List (String × Datum)} {key : String} {d : Datum}
  {seen last : Gathered} {cs rest left : List Char}

/-- A member of a name that is new is kept, and it has to be a method if it is named so. -/
theorem readMember_eq_ok (gathers : Gathers before seen) (fresh : key ∉ before.map Prod.fst)
    (h : anyMember (readValue depth) before key cs = .ok ((key, d) :: before, rest)) :
    readMember (readValue depth) seen key cs = .ok (last, left) ↔
      Gathers ((key, d) :: before) last ∧ left = rest := by
  obtain ⟨start, d', colon, value, he⟩ := Json.anyMember_eq_ok.mp h
  cases he
  by_cases tag : key = "method"
  · subst tag
    have unseen : seen.1 = none := by
      have := gathers.2
      rwa [kept_eq_none.mpr fresh, eq_comm, Option.map_eq_none_iff] at this
    simp only [readMember, unseen, colon, if_true, Option.isSome_none, Bool.false_eq_true, if_false,
      ok_bind, bind_eq_ok]
    constructor
    · rintro ⟨⟨method, left⟩, named, he⟩
      cases he
      obtain ⟨rfl, rfl⟩ := (Json.readText_eq_ok value).mp (readMethod_eq_ok.mp named)
      exact ⟨⟨by simpa [others_cons] using gathers.1, by simp [kept_cons]⟩, rfl⟩
    · rintro ⟨⟨remaining, method⟩, rfl⟩
      obtain ⟨method?, kept⟩ := last
      simp only [kept_cons, if_true] at method
      cases method? with
      | none => cases method
      | some m =>
          obtain rfl := Option.some.inj method
          refine ⟨(m, _), readMethod_eq_ok.mpr ((Json.readText_eq_ok value).mpr ⟨rfl, rfl⟩), ?_⟩
          have same : seen.2 = kept := by simpa [others_cons, gathers.1] using remaining.symm
          rw [same]
          rfl
  · have other : anyMember (readValue depth) seen.2 key cs = .ok ((key, d) :: seen.2, rest) :=
      Json.anyMember_eq_ok.mpr ⟨start, d, colon, value, rfl⟩
    have next : Gathers ((key, d) :: before) (seen.1, (key, d) :: seen.2) :=
      ⟨by simp [others_cons, tag, gathers.1], by simpa [kept_cons, tag] using gathers.2⟩
    simp only [readMember, tag, if_false, other, ok_bind]
    constructor
    · intro h
      cases h
      exact ⟨next, rfl⟩
    · rintro ⟨same, rfl⟩
      rw [same.unique next]
      rfl

/-- The loop that gathers members goes with the loop that keeps all of them. -/
theorem readMembers_readMember (distinct : (all.map Prod.fst).Nodup) (gathers : Gathers before seen)
    (h : readMembers (anyMember (readValue depth)) fuel first before cs = .ok (all, rest)) :
    readMembers (readMember (readValue depth)) fuel first seen cs = .ok (last, left) ↔
      Gathers all last ∧ left = rest := by
  induction fuel generalizing first before seen cs with
  | zero => cases h
  | succ fuel ih =>
      rcases Json.readMembers_eq_ok.mp h with ⟨closed, rfl⟩ | ⟨key, start, next, stop, found, read, h⟩
      · rw [Json.readMembers_eq_ok, closed]
        constructor
        · rintro (⟨he, rfl⟩ | ⟨_, _, _, _, he, -⟩)
          · cases he
            exact ⟨gathers, rfl⟩
          · cases he
        · rintro ⟨same, rfl⟩
          exact .inl ⟨rfl, same.unique gathers⟩
      · obtain ⟨_, d, -, -, rfl⟩ := Json.anyMember_eq_ok.mp read
        have part := Json.suffix_of_readMembers h
        have fresh : key ∉ before.map Prod.fst := by
          have := distinct.sublist (part.sublist.map Prod.fst)
          simpa using (List.nodup_cons.mp this).1
        rw [Json.readMembers_eq_ok, found]
        constructor
        · rintro (⟨he, -⟩ | ⟨_, _, seen', _, he, step, more⟩)
          · cases he
          · cases he
            obtain ⟨next, rfl⟩ := (readMember_eq_ok gathers fresh read).mp step
            exact (ih next h).mp more
        · rintro ⟨whole, rfl⟩
          obtain ⟨seen', next⟩ := whole.of_suffix distinct part
          exact .inr ⟨key, start, seen', stop, rfl,
            (readMember_eq_ok gathers fresh read).mpr ⟨next, rfl⟩, (ih next h).mpr ⟨whole, rfl⟩⟩

end

/-! ## The fields -/

/-- The members give a field of the method this text; that of a body is base64. -/
def Gives (method : Method) (members : List (String × Datum)) (field : Field) (value : String) : Prop :=
  (field = .body → ∃ bytes, value = Base64.toText bytes) ∧
    (Has members field.name value ∨
      method.isOptional field = true ∧ kept field.name members = none ∧ value = "")

/-- The members give each field of a request the text that it has there. -/
def Fits (members : List (String × Datum)) (r : Request) : Prop :=
  List.Forall₂ (Gives r.method members) r.method.fields r.values

/-- The arguments are what the members have for the fields of the method. -/
def Taken (method : Method) (members : List (String × Datum)) (arguments : List Argument) : Prop :=
  ∀ field ∈ method.fields, (kept field.name members).map (readField field) =
    (arguments.find? fun argument => argument.field == field).map .ok

theorem Field.name_injective : Function.Injective Field.name := by
  intro a b h
  cases a <;> cases b <;> first | rfl | (revert h; decide)

theorem fieldOf?_eq_some {method : Method} {field : Field} :
    fieldOf? method name = some field ↔ field ∈ method.fields ∧ field.name = name := by
  constructor
  · intro h
    exact ⟨List.mem_of_find?_eq_some h, by simpa using List.find?_some h⟩
  · rintro ⟨known, rfl⟩
    cases found : fieldOf? method field.name with
    | none =>
        rw [fieldOf?, List.find?_eq_none] at found
        exact absurd (beq_self_eq_true _) (found field known)
    | some other =>
        have same : other.name = field.name := by simpa using List.find?_some found
        rw [Field.name_injective same]

theorem fieldOf?_eq_none {method : Method} :
    fieldOf? method name = none ↔ ∀ field ∈ method.fields, field.name ≠ name := by
  simp [fieldOf?]

/-- What is read for a field is the text that stands there, and for a body the bytes that it spells. -/
theorem readField_eq_ok {field : Field} {d : Datum} {argument : Argument}
    (h : readField field d = .ok argument) :
    argument.field = field ∧ d = .text argument.text ∧
      (field = .body → argument.text = Base64.toText argument.body) := by
  cases d with
  | text text =>
      cases field with
      | body =>
          simp only [readField, Datum.asText, Json.liftMismatch, ok_bind] at h
          split at h
          · next bytes found =>
              cases h
              exact ⟨rfl, rfl, fun _ => Base64.ofText_eq_ok.mp found⟩
          · cases h
      | _ =>
          cases h
          exact ⟨rfl, rfl, fun he => by cases he⟩
  | _ => cases h

/-- A text is read for a field, which for a body has to be base64. -/
theorem readField_text {field : Field} {value : String}
    (spelled : field = .body → ∃ bytes, value = Base64.toText bytes) :
    ∃ argument, readField field (.text value) = .ok argument := by
  cases field with
  | body =>
      obtain ⟨bytes, rfl⟩ := spelled rfl
      refine ⟨⟨.body, Base64.toText bytes, bytes⟩, ?_⟩
      simp [readField, Datum.asText, Json.liftMismatch, Base64.ofText_eq_ok.mpr rfl]
  | _ => exact ⟨_, rfl⟩

section

variable {method : Method} {before rest : List (String × Datum)} {done arguments : List Argument}

theorem fresh_of_nodup {d : Datum} (distinct : ((before ++ [(name, d)] ++ rest).map Prod.fst).Nodup) :
    name ∉ before.map Prod.fst := by
  rw [List.map_append, List.map_append] at distinct
  have parts := List.nodup_append.mp (List.nodup_append.mp distinct).1
  exact fun earlier => parts.2.2 _ earlier _ (List.mem_singleton_self _) rfl

theorem Taken.nil : Taken method [] [] :=
  fun _ _ => rfl

theorem Taken.pass {d : Datum} (h : Taken method before done) (other : fieldOf? method name = none) :
    Taken method (before ++ [(name, d)]) done := by
  intro field known
  have differs := fieldOf?_eq_none.mp other field known
  rw [kept_append, kept_cons, if_neg differs.symm]
  simpa [kept] using h field known

theorem Taken.snoc {d : Datum} {field : Field} {argument : Argument} (h : Taken method before done)
    (fresh : name ∉ before.map Prod.fst) (known : fieldOf? method name = some field)
    (read : readField field d = .ok argument) :
    Taken method (before ++ [(name, d)]) (done ++ [argument]) := by
  obtain ⟨-, rfl⟩ := fieldOf?_eq_some.mp known
  obtain ⟨rfl, -, -⟩ := readField_eq_ok read
  intro field known
  have earlier := h field known
  rw [kept_append, kept_cons, List.find?_append]
  by_cases same : argument.field = field
  · subst same
    have absent := kept_eq_none.mpr fresh
    rw [absent, Option.map_none, eq_comm, Option.map_eq_none_iff] at earlier
    simp [absent, earlier, read]
  · have differs : argument.field.name ≠ field.name := fun he => same (Field.name_injective he)
    simpa [differs, same, kept] using earlier

theorem Taken.any_eq_false {field : Field} (h : Taken method before done) (known : field ∈ method.fields)
    (fresh : field.name ∉ before.map Prod.fst) :
    (done.any fun argument => argument.field == field) = false := by
  have absent := h field known
  rw [kept_eq_none.mpr fresh, Option.map_none, eq_comm, Option.map_eq_none_iff,
    List.find?_eq_none] at absent
  simpa using absent

/-- What is taken from the members is what they have for the fields. -/
theorem Taken.of_readNamed (h : Taken method before done)
    (distinct : ((before ++ rest).map Prod.fst).Nodup)
    (read : readNamed method done rest = .ok arguments) : Taken method (before ++ rest) arguments := by
  induction rest generalizing before done with
  | nil =>
      cases read
      simpa using h
  | cons member rest ih =>
      obtain ⟨name, d⟩ := member
      rw [List.append_cons] at distinct ⊢
      have fresh := fresh_of_nodup distinct
      rw [readNamed] at read
      split at read
      · next other => exact ih (h.pass other) distinct read
      · next field known =>
          split_ifs at read
          · cases read
          · obtain ⟨argument, found, read⟩ := bind_eq_ok.mp read
            exact ih (h.snoc fresh known found) distinct read

/-- All members are gone through if those that are fields of the method can be read. -/
theorem readNamed_of_readable (h : Taken method before done)
    (distinct : ((before ++ rest).map Prod.fst).Nodup)
    (readable : ∀ field ∈ method.fields, ∀ d ∈ kept field.name (before ++ rest),
      ∃ argument, readField field d = .ok argument) :
    ∃ arguments, readNamed method done rest = .ok arguments := by
  induction rest generalizing before done with
  | nil => exact ⟨done, rfl⟩
  | cons member rest ih =>
      obtain ⟨name, d⟩ := member
      rw [List.append_cons] at distinct readable
      have fresh := fresh_of_nodup distinct
      rw [readNamed]
      split
      · next other => exact ih (h.pass other) distinct readable
      · next field known =>
          obtain ⟨mem, rfl⟩ := fieldOf?_eq_some.mp known
          have here : kept field.name (before ++ [(field.name, d)] ++ rest) = some d := by
            simp [kept_append, kept_cons, kept_eq_none.mpr fresh]
          obtain ⟨argument, read⟩ := readable field mem d here
          simp only [h.any_eq_false mem fresh, read, Bool.false_eq_true, if_false, ok_bind]
          exact ih (h.snoc fresh known read) distinct readable

theorem requireFields_eq_ok {fields : List Field} :
    requireFields method arguments fields = .ok () ↔ ∀ field ∈ fields,
      method.isOptional field = true ∨
        (arguments.any fun argument => argument.field == field) = true := by
  induction fields with
  | nil => simp [requireFields]
  | cons field fields ih =>
      rw [requireFields, List.forall_mem_cons, ← ih, ← Bool.or_eq_true]
      split_ifs with given
      · simp [given]
      · simp [given, Json.mismatch]

end

/-! ## The request that the fields make -/

theorem method_assemble (method : Method) (arguments : List Argument) :
    (assemble method arguments).method = method := by
  cases method <;> rfl

/-- A request is made of the texts of its fields, if the body is what its text spells. -/
theorem values_assemble {method : Method} {arguments : List Argument}
    (spelled : .body ∈ method.fields → textOf arguments .body = Base64.toText (bodyOf arguments)) :
    (assemble method arguments).values = method.fields.map (textOf arguments) := by
  cases method with
  | upload => simp [assemble, Request.values, Method.fields, spelled (by decide)]
  | _ => rfl

/-- A request is known by its method and the texts of its fields. -/
theorem eq_of_values {r r' : Request} (same : r.method = r'.method) (h : r.values = r'.values) :
    r = r' := by
  cases r <;> cases r' <;> cases same <;>
    simp_all [Request.values, Base64.toText_injective.eq_iff]

section

variable {method : Method} {arguments : List Argument} {field : Field}

theorem Taken.spelled (h : Taken method members arguments) (known : .body ∈ method.fields) :
    textOf arguments .body = Base64.toText (bodyOf arguments) := by
  have taken := h .body known
  unfold textOf bodyOf
  split
  · next argument found =>
      rw [found, Option.map_some, Option.map_eq_some_iff] at taken
      obtain ⟨d, -, read⟩ := taken
      exact (readField_eq_ok read).2.2 rfl
  · rfl

/-- A field that is there or may be left out is given the text that was taken for it. -/
theorem Taken.gives (h : Taken method members arguments) (known : field ∈ method.fields)
    (required : method.isOptional field = true ∨
      (arguments.any fun argument => argument.field == field) = true) :
    Gives method members field (textOf arguments field) := by
  have taken := h field known
  unfold textOf
  split
  · next argument found =>
      rw [found, Option.map_some, Option.map_eq_some_iff] at taken
      obtain ⟨d, kept, read⟩ := taken
      obtain ⟨-, rfl, spelled⟩ := readField_eq_ok read
      exact ⟨fun he => ⟨_, spelled he⟩, .inl kept⟩
  · next absent =>
      rw [absent, Option.map_none, Option.map_eq_none_iff] at taken
      refine ⟨fun _ => ⟨[], rfl⟩, .inr ⟨?_, taken, rfl⟩⟩
      rcases required with optional | given
      · exact optional
      · rw [List.find?_eq_none] at absent
        rw [List.any_eq_true] at given
        obtain ⟨argument, hm, he⟩ := given
        exact absurd he (absent argument hm)

theorem Gives.readable {value : String} (h : Gives method members field value) :
    ∀ d ∈ kept field.name members, ∃ argument, readField field d = .ok argument := by
  obtain ⟨spelled, here | ⟨-, absent, -⟩⟩ := h
  · rintro d hd
    obtain rfl : .text value = d := Option.some.inj (here.symm.trans hd)
    exact readField_text spelled
  · intro d hd
    rw [absent] at hd
    cases hd

theorem Gives.textOf_eq {value : String} (h : Gives method members field value)
    (taken : Taken method members arguments) (known : field ∈ method.fields) :
    textOf arguments field = value ∧ (method.isOptional field = true ∨
      (arguments.any fun argument => argument.field == field) = true) := by
  have taken := taken field known
  obtain ⟨-, here | ⟨optional, absent, rfl⟩⟩ := h
  · rw [show kept field.name members = some (.text value) from here, Option.map_some, eq_comm,
      Option.map_eq_some_iff] at taken
    obtain ⟨argument, found, read⟩ := taken
    obtain ⟨rfl, he, -⟩ := readField_eq_ok read.symm
    refine ⟨?_, .inr ?_⟩
    · rw [textOf, found]
      exact (Datum.text.inj he).symm
    · exact List.any_eq_true.mpr ⟨argument, List.mem_of_find?_eq_some found, beq_self_eq_true _⟩
  · rw [absent, Option.map_none, eq_comm, Option.map_eq_none_iff] at taken
    exact ⟨by rw [textOf, taken], .inl optional⟩

/-- Members of different names make a request exactly if they fit it. -/
theorem ofArguments_named {r : Request} (distinct : (members.map Prod.fst).Nodup) :
    ofArguments method (.named members) = .ok r ↔ r.method = method ∧ Fits members r := by
  simp only [ofArguments, bind_eq_ok]
  constructor
  · rintro ⟨arguments, read, _, required, he⟩
    cases he
    have taken := Taken.nil.of_readNamed distinct read
    refine ⟨method_assemble _ _, ?_⟩
    rw [Fits, method_assemble, values_assemble taken.spelled, List.forall₂_map_right_iff,
      List.forall₂_same]
    exact fun field known => taken.gives known (requireFields_eq_ok.mp required field known)
  · rintro ⟨rfl, fits⟩
    have readable := ((List.forall₂_and_left _ _).mp (fits.imp fun _ _ h => ⟨h.readable, h⟩)).1
    obtain ⟨arguments, read⟩ := readNamed_of_readable Taken.nil distinct readable
    have taken := Taken.nil.of_readNamed distinct read
    have known := (List.forall₂_and_left (p := (· ∈ r.method.fields)) _ _).mpr ⟨fun _ h => h, fits⟩
    have texts := (List.forall₂_and_left _ _).mp
      (known.imp fun _ _ h => (h.2.textOf_eq taken h.1).symm)
    refine ⟨arguments, read, (), requireFields_eq_ok.mpr texts.1, ?_⟩
    have values : r.method.fields.map (textOf arguments) = r.values :=
      List.forall₂_eq_eq_eq ▸ List.forall₂_map_left_iff.mpr texts.2
    exact congrArg Except.ok (eq_of_values (method_assemble _ _)
      ((values_assemble taken.spelled).trans values))

end

/-! ## The request that a line spells -/

/-- The members give the method of the request and its fields. -/
theorem documents_iff {r : Request} :
    Documents members r ↔ Has members "method" r.method.name ∧ Fits members r := by
  constructor
  · intro h
    cases h <;> refine ⟨by assumption, ?_⟩ <;>
      simp_all [Fits, Gives, Request.values, Request.method, Method.fields, Method.isOptional, Field.name,
        MayHave]
  · rintro ⟨tag, h⟩
    cases r <;>
      simp_all [Fits, Gives, Request.values, Request.method, Method.fields, Method.isOptional, Field.name] <;>
      constructor <;> simp_all [MayHave, Method.name]

/-- The members other than the method fit a request exactly if all of them do. -/
theorem fits_others {r : Request} : Fits (others members) r ↔ Fits members r := by
  have same (field : Field) : kept field.name (others members) = kept field.name members :=
    kept_others (by cases field <;> decide)
  have gives : Gives r.method (others members) = Gives r.method members := by
    funext field value
    simp only [Gives, Has, same]
  rw [Fits, gives, Fits]

/-- An object with members of different names is read as the method that it names and its other
members. -/
theorem readArguments_eq_ok {cs more rest left : List Char} {method : Method} {arguments : Arguments}
    (start : Json.skipSpace cs = '\x7b' :: more) (distinct : (members.map Prod.fst).Nodup)
    (h : readMembers (anyMember (readValue (Json.nestingLimit - 1))) (more.length + 1) true [] more =
      .ok (members.reverse, rest)) :
    readArguments cs = .ok ((method, arguments), left) ↔
      Has members "method" method.name ∧ arguments = .named (others members) ∧ left = rest := by
  have distinct' : (members.reverse.map Prod.fst).Nodup :=
    (members.reverse_perm.map Prod.fst).nodup_iff.mpr distinct
  have tag (seen : Gathered) (gathers : Gathers members.reverse seen) :
      kept "method" members = seen.1.map fun method => .text method.name :=
    (kept_perm distinct' members.reverse_perm.symm).trans gathers.2
  simp only [readArguments, start, bind_eq_ok]
  constructor
  · rintro ⟨⟨⟨method?, gathered⟩, stop⟩, read, made⟩
    obtain ⟨gathers, rfl⟩ := (readMembers_readMember distinct' Gathers.nil h).mp read
    cases method? with
    | none => cases made
    | some method =>
        cases made
        obtain rfl : gathered = others members.reverse := gathers.1
        exact ⟨tag _ gathers, by rw [others_reverse, List.reverse_reverse], rfl⟩
  · rintro ⟨named, rfl, rfl⟩
    have gathers : Gathers members.reverse (some method, (others members).reverse) :=
      ⟨(others_reverse members).symm, (kept_perm distinct members.reverse_perm).trans named⟩
    refine ⟨_, (readMembers_readMember distinct' Gathers.nil h).mpr ⟨gathers, rfl⟩, ?_⟩
    simp

/-- A line that is an object with members of different names is a request exactly if they fit it. -/
theorem parse_eq_ok {line : String} {r : Request}
    (spelled : Json.parse (Text.trimEnd line.toList) = .ok (.record members))
    (distinct : (members.map Prod.fst).Nodup) :
    Request.parse line = .ok r ↔ Has members "method" r.method.name ∧ Fits members r := by
  simp only [Json.parse, bind_eq_ok] at spelled
  obtain ⟨⟨_, rest⟩, read, _, ended, he⟩ := spelled
  cases he
  rcases Json.readValueWith_cases read with ⟨_, _, -, -, he⟩ | ⟨value, more, all, start, he, read, same⟩ |
    ⟨-, -, other⟩
  · cases he
  · obtain rfl := Option.some.inj he
    obtain rfl : all = members.reverse := by rw [Datum.record.inj same, List.reverse_reverse]
    have different : ((others members).map Prod.fst).Nodup :=
      distinct.sublist (List.filter_sublist.map Prod.fst)
    simp only [Request.parse, bind_eq_ok]
    constructor
    · rintro ⟨⟨⟨method, arguments⟩, left⟩, read', r', made, _, -, he⟩
      cases he
      obtain ⟨named, rfl, rfl⟩ := (readArguments_eq_ok start distinct read).mp read'
      obtain ⟨rfl, fits⟩ := (ofArguments_named different).mp made
      exact ⟨named, fits_others.mp fits⟩
    · rintro ⟨named, fits⟩
      exact ⟨_, (readArguments_eq_ok start distinct read).mpr ⟨named, rfl, rfl⟩, r,
        (ofArguments_named different).mpr ⟨rfl, fits_others.mpr fits⟩, (), ended, rfl⟩
  · exact absurd rfl (other members)

/-- Exactly the lines that are documented as a request are read as it, wherever their members stand. -/
theorem parse_documented {line : String}
    (spelled : Json.parse (Text.trimEnd line.toList) = .ok (.record members))
    (distinct : (members.map Prod.fst).Nodup) :
    (∀ r, Request.parse line = .ok r ↔ Documents members r) ∧
      ∀ line' members', Json.parse (Text.trimEnd line'.toList) = .ok (.record members') →
        members'.Perm members → ∀ r, Request.parse line' = .ok r ↔ Request.parse line = .ok r := by
  refine ⟨fun r => (parse_eq_ok spelled distinct).trans documents_iff.symm, ?_⟩
  intro line' members' spelled' same r
  have distinct' : (members'.map Prod.fst).Nodup := (same.map Prod.fst).nodup_iff.mpr distinct
  rw [parse_eq_ok spelled' distinct', parse_eq_ok spelled distinct]
  have kept_eq (name : String) : kept name members' = kept name members := kept_perm distinct same
  have gives : Gives r.method members' = Gives r.method members := by
    funext field value
    simp only [Gives, Has, kept_eq]
  rw [Has, kept_eq, Fits, gives]
  rfl

/-- The method comes last, a member is no field, and the token is left out. -/
def sampleMembers : List (String × Datum) :=
  [("body", .text "aGk="), ("depth", .list [.null, .bool true]), ("path", .text "a.txt"),
    ("method", .text "upload")]

def sampleLine : String :=
  "\x7b\"body\":\"aGk=\",\"depth\":[null,true],\"path\":\"a.txt\",\"method\":\"upload\"\x7d\r\n"

theorem wordy_sampleMembers : Json.Wordy Json.nestingLimit (.record sampleMembers) := by
  refine .record fun member hm => ?_
  simp only [sampleMembers, List.mem_cons, List.not_mem_nil, or_false] at hm
  rcases hm with rfl | rfl | rfl | rfl
  · exact .text
  · refine .list fun item hi => ?_
    simp only [List.mem_cons, List.not_mem_nil, or_false] at hi
    rcases hi with rfl | rfl
    · exact .null
    · exact .bool
  · exact .text
  · exact .text

theorem parse_documented_upload :
    Json.parse (Text.trimEnd sampleLine.toList) = .ok (.record sampleMembers) ∧
      (sampleMembers.map Prod.fst).Nodup ∧
      Request.parse sampleLine = .ok (.upload "" "a.txt" [104, 105]) := by
  have line : Text.trimEnd sampleLine.toList = Json.write (.record sampleMembers) := by decide +kernel
  have spelled : Json.parse (Text.trimEnd sampleLine.toList) = .ok (.record sampleMembers) := by
    rw [line, Json.parse_write wordy_sampleMembers]
  have distinct : (sampleMembers.map Prod.fst).Nodup := by decide
  have body : "aGk=" = Base64.toText [104, 105] := by decide +kernel
  refine ⟨spelled, distinct, ((parse_documented spelled distinct).1 _).mpr ?_⟩
  refine .upload rfl (.inr ⟨rfl, rfl⟩) rfl ?_
  rw [← body]
  rfl

end Strongroom.Request
