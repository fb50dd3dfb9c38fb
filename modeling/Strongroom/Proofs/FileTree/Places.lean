import Strongroom.Proofs.FileTree.Grounded
import Strongroom.Proofs.FileTree.Opening
/-!
# The place that a path names

Links of any kind may stand on a host.  They are followed on the way to the last name of a path, and not
at its end, so that a path names one place: its last name in the directory to which the rest of it leads.
A change of the host that succeeds changes what stands at that place and nothing else.
-/

namespace Strongroom.FileTree

open Strongroom.Path

variable {t t' : FileTree} {here place location parent directory : Location} {entry : Entry}
  {name : Name} {rest : List Segment} {p : Path} {follow : Bool} {links : Nat}

/-! ## The last name of a walk -/

/-- What stands under a name in a directory; a link is not followed. -/
def enter (t : FileTree) (directory : Location) (name : Name) : Arrival :=
  t.walk false 0 directory [.name name]

theorem walkWith_name {onLink : Location → List Segment → Arrival} :
    t.walkWith onLink false here [.name name] = t.enter here name := by
  simp only [enter, walk, walkWith, and_self, ite_true]

theorem walkWith_concat {onLink onLink' : Location → List Segment → Arrival}
    (onLinks : ∀ here rest, onLink here (rest ++ [.name name]) =
      onLink' here rest >>= fun found => t.enter found.1 name) :
    t.walkWith onLink false here (rest ++ [.name name]) =
      t.walkWith onLink' true here rest >>= fun found => t.enter found.1 name := by
  induction rest generalizing here with
  | nil =>
      rw [List.nil_append, walkWith_name]
      cases found : t.get? here with
      | none => simp only [enter, walk, walkWith, found, error_bind]
      | some entry => simp only [walkWith, found, ok_bind]
  | cons segment rest ih =>
      simp only [List.cons_append, walkWith]
      cases t.get? here with
      | none => rfl
      | some entry =>
          cases entry with
          | file body => rfl
          | link target => rfl
          | directory =>
              cases segment with
              | here => exact ih
              | up => exact ih
              | name first =>
                  dsimp only
                  split
                  · rfl
                  · cases t.get? (first :: here) with
                    | none => rfl
                    | some entry =>
                        cases entry with
                        | directory => exact ih
                        | file body => exact ih
                        | link target =>
                            simp only [List.append_eq_nil_iff, List.cons_ne_nil, and_false,
                              Bool.true_eq_false, if_false, false_and, ← List.append_assoc]
                            exact onLinks _ _

/-- Only the link that a walk ends at is not followed. -/
theorem walk_concat :
    t.walk false links here (rest ++ [.name name]) =
      t.walk true links here rest >>= fun found => t.enter found.1 name := by
  induction links generalizing here rest with
  | zero => exact walkWith_concat fun _ _ => rfl
  | succ links ih => exact walkWith_concat fun _ _ => ih

/-! ## Walks that follow every link -/

theorem Grounded.tail (h : t.Grounded) (hd : t.get? here = some .directory) :
    t.get? here.tail = some .directory := by
  cases here with
  | nil => exact hd
  | cons name parent => exact h.directory_above hd

theorem Grounded.walkWith_ne_link (h : t.Grounded)
    {onLink : Location → List Segment → Arrival} {target : Path}
    (onLinks : ∀ here rest, t.get? here = some .directory →
      onLink here rest ≠ .ok (location, .link target))
    (start : t.get? here ≠ some (.link target)) :
    t.walkWith onLink true here rest ≠ .ok (location, .link target) := by
  intro ends
  induction rest generalizing here with
  | nil =>
      simp only [walkWith] at ends
      cases found : t.get? here with
      | none => simp [found] at ends
      | some entry =>
          simp only [found, Except.ok.injEq, Prod.mk.injEq] at ends
          exact start (ends.2 ▸ found)
  | cons segment rest ih =>
      simp only [walkWith] at ends
      cases found : t.get? here with
      | none => simp [found] at ends
      | some entry =>
          rw [found] at ends
          cases entry with
          | file body => cases ends
          | link target => cases ends
          | directory =>
              cases segment with
              | here => exact ih start ends
              | up => exact ih (by simp [h.tail found]) ends
              | name first =>
                  dsimp only at ends
                  split at ends
                  · cases ends
                  · cases next : t.get? (first :: here) with
                    | none => simp [next] at ends
                    | some entry =>
                        rw [next] at ends
                        cases entry with
                        | directory => exact ih (by simp [next]) ends
                        | file body => exact ih (by simp [next]) ends
                        | link further =>
                            simp only [Bool.true_eq_false, and_false, if_false] at ends
                            refine onLinks _ _ ?_ ends
                            split
                            · exact t.get?_root
                            · exact found

theorem Grounded.walk_ne_link (h : t.Grounded) {target : Path}
    (hd : t.get? here = some .directory) :
    t.walk true links here rest ≠ .ok (location, .link target) := by
  induction links generalizing here rest with
  | zero => exact h.walkWith_ne_link (fun _ _ _ => by simp) (by simp [hd])
  | succ links ih => exact h.walkWith_ne_link (fun _ _ hd => ih hd) (by simp [hd])

/-- What a path leads to stands where the path leads, and is no link. -/
theorem Grounded.locate_cases (h : t.Grounded) (found : t.locate true p = .ok (location, entry)) :
    t.get? location = some entry ∧ ∀ target, entry ≠ .link target := by
  rw [locate, bind_eq_ok] at found
  obtain ⟨⟨⟩, -, found⟩ := found
  refine ⟨(reached_of_walk (.root t) (plainly_through p) found).2, ?_⟩
  rintro target rfl
  exact h.walk_ne_link t.get?_root found

/-! ## Places -/

/-- The place that a path names: its last name, in the directory to which the rest of it leads. -/
def place? (t : FileTree) (p : Path) : Option Location :=
  match (segments p).getLast?, t.walk true maxLinks [] (segments p).dropLast with
  | some (.name name), .ok (directory, .directory) => some (name :: directory)
  | _, _ => none

theorem place?_eq_some :
    t.place? p = some place ↔
      ∃ name parent, place = name :: parent ∧ (segments p).getLast? = some (.name name) ∧
        t.walk true maxLinks [] (segments p).dropLast = .ok (parent, .directory) := by
  unfold place?
  constructor
  · intro h
    split at h
    · rename_i name directory last front
      exact ⟨name, directory, (Option.some.inj h).symm, last, front⟩
    · cases h
  · rintro ⟨name, parent, rfl, last, front⟩
    simp only [last, front]

/-- A place lies in a directory. -/
theorem directory_of_place? (h : t.place? p = some (name :: parent)) :
    t.get? parent = some .directory := by
  obtain ⟨name, parent, he, -, front⟩ := place?_eq_some.mp h
  obtain ⟨rfl, rfl⟩ := List.cons.inj he
  exact (reached_of_walk (.root t)
    (fun n hn => plainly_segments p n (List.dropLast_subset _ hn)) front).2

/-- What a change of the host acts on is the place that its path names. -/
theorem place?_of_slot {s : Slot} {unnamed : Option Segment → HostFault} (hs : t.slot p = .ok s)
    (hl : s.place unnamed = .ok location) :
    ∃ name, location = name :: s.directory ∧ t.place? p = some (name :: s.directory) := by
  obtain ⟨front, last⟩ := slot_cases hs
  obtain ⟨name, hn, rfl, -⟩ := place_eq_ok hl
  exact ⟨name, rfl, place?_eq_some.mpr ⟨name, s.directory, rfl, last ▸ hn, front⟩⟩

theorem slot_grows (grows : ∀ l e, t.get? l = some e → t'.get? l = some e) {s : Slot}
    (h : t.slot p = .ok s) : t'.slot p = .ok s := by
  simp only [slot, bind_eq_ok] at h ⊢
  obtain ⟨⟨⟩, text, ⟨directory, entry⟩, front, same⟩ := h
  exact ⟨(), text, (directory, entry), walk_grows grows front, same⟩

/-- A file that is put somewhere changes no place. -/
theorem slot_of_files (files : ∀ l, t'.get? l = t.get? l ∨ ∃ body, t'.get? l = some (.file body))
    {s : Slot} (h : t'.slot p = .ok s) : t.slot p = .ok s := by
  simp only [slot, bind_eq_ok] at h ⊢
  obtain ⟨⟨⟩, text, ⟨directory, entry⟩, front, same⟩ := h
  cases entry with
  | directory => exact ⟨(), text, (directory, .directory), walk_of_files files front, same⟩
  | file body => cases same
  | link target => cases same

/-! ## Changes to one place -/

/-- What stands at a place now; everything stands where it stood elsewhere, and everything stands in
directories. -/
structure Changed (t : FileTree) (place : Location) (now : Option Entry) (t' : FileTree) : Prop where
  here : t'.get? place = now
  elsewhere : ∀ location, location ≠ place → t'.get? location = t.get? location
  grounded : t'.Grounded

theorem Grounded.changed_insert (h : t.Grounded) (hd : t.get? parent = some .directory)
    (he : entry = .directory ∨ t.get? (name :: parent) ≠ some .directory) :
    t.Changed (name :: parent) (some entry) (t.insert (name :: parent) entry) where
  here := get?_insert_self (List.cons_ne_nil _ _)
  elsewhere _ other := get?_insert_of_ne (List.cons_ne_nil _ _) other
  grounded := h.insert hd he

theorem Grounded.changed_erase (h : t.Grounded) (hc : t.children (name :: parent) = []) :
    t.Changed (name :: parent) none (t.erase (name :: parent)) where
  here := by rw [get?_erase _ (List.cons_ne_nil _ _), if_pos rfl]
  elsewhere _ other := get?_erase_of_ne (List.cons_ne_nil _ _) other
  grounded := h.erase hc

theorem makeDirectory_slot (h : t.makeDirectory p = .ok t') :
    ∃ s name, t.slot p = .ok s ∧ s.last = some (.name name) ∧ ¬ maxNameBytes < name.utf8ByteSize ∧
      t.get? (name :: s.directory) = none ∧ t' = t.insert (name :: s.directory) .directory := by
  simp only [makeDirectory, bind_eq_ok] at h
  obtain ⟨s, hs, location, hl, h⟩ := h
  obtain ⟨name, hn, rfl, short⟩ := place_eq_ok hl
  refine ⟨s, name, hs, hn, short, ?_⟩
  cases found : t.get? (name :: s.directory) with
  | some entry => simp [found] at h
  | none => simpa [found, eq_comm] using h

/-- A directory is made where nothing stood, and the path leads to it. -/
theorem makeDirectory_cases (h : t.makeDirectory p = .ok t') :
    ∃ name parent, t.place? p = some (name :: parent) ∧ t.get? (name :: parent) = none ∧
      t' = t.insert (name :: parent) .directory ∧ t'.openDirectory p = .ok (name :: parent) := by
  obtain ⟨s, name, hs, hn, short, free, rfl⟩ := makeDirectory_slot h
  obtain ⟨front, last⟩ := slot_cases hs
  refine ⟨name, s.directory, place?_eq_some.mpr ⟨name, _, rfl, last ▸ hn, front⟩, free, rfl, ?_⟩
  rw [openDirectory, locate_insert_of_slot hs hn short free]
  rfl

theorem Grounded.makeDirectory_changed (h : t.Grounded) (made : t.makeDirectory p = .ok t') :
    ∃ place, t.place? p = some place ∧ t.get? place = none ∧ t.Changed place (some .directory) t' ∧
      t'.openDirectory p = .ok place ∧ t'.children place = [] := by
  obtain ⟨name, parent, named, free, rfl, opened⟩ := makeDirectory_cases made
  exact ⟨_, named, free, h.changed_insert (directory_of_place? named) (.inl rfl), opened,
    h.children_new free⟩

/-- A directory that was made can be removed again, and then everything is as it was. -/
theorem removeDirectory_of_makeDirectory (grounded : t.Grounded) (h : t.makeDirectory p = .ok t') :
    t'.removeDirectory p = .ok t := by
  obtain ⟨s, name, hs, hn, short, free, rfl⟩ := makeDirectory_slot h
  have slot : (t.insert (name :: s.directory) .directory).slot p = .ok s :=
    slot_grows (fun _ _ he => get?_insert_of_vacant free he) hs
  have there : (t.insert (name :: s.directory) .directory).get? (name :: s.directory) =
      some .directory := get?_insert_self (List.cons_ne_nil _ _)
  have empty : (t.insert (name :: s.directory) .directory).children (name :: s.directory) = [] :=
    grounded.children_new free
  have back : (t.insert (name :: s.directory) .directory).erase (name :: s.directory) = t :=
    erase_insert_of_vacant (List.cons_ne_nil _ _) free
  simp [removeDirectory, slot, Slot.place, hn, short, there, empty, back]

theorem removeDirectory_cases (h : t.removeDirectory p = .ok t') :
    ∃ name parent, t.place? p = some (name :: parent) ∧
      t.get? (name :: parent) = some .directory ∧ t.children (name :: parent) = [] ∧
      t' = t.erase (name :: parent) := by
  simp only [removeDirectory, bind_eq_ok] at h
  obtain ⟨s, hs, location, hl, h⟩ := h
  obtain ⟨name, rfl, named⟩ := place?_of_slot hs hl
  refine ⟨name, s.directory, named, ?_⟩
  cases found : t.get? (name :: s.directory) with
  | none => simp [found] at h
  | some entry =>
      cases entry with
      | file body => simp [found] at h
      | link target => simp [found] at h
      | directory =>
          simp only [found] at h
          split at h
          · rename_i empty
            exact ⟨rfl, List.isEmpty_iff.mp empty, (Except.ok.inj h).symm⟩
          · cases h

theorem removeFile_cases (h : t.removeFile p = .ok t') :
    ∃ name parent, t.place? p = some (name :: parent) ∧
      (∃ entry, t.get? (name :: parent) = some entry ∧ entry ≠ .directory) ∧
      t' = t.erase (name :: parent) := by
  simp only [removeFile, bind_eq_ok] at h
  obtain ⟨s, hs, location, hl, h⟩ := h
  obtain ⟨name, rfl, named⟩ := place?_of_slot hs hl
  refine ⟨name, s.directory, named, ?_⟩
  cases found : t.get? (name :: s.directory) with
  | none => simp [found] at h
  | some entry =>
      cases entry with
      | directory => simp [found] at h
      | file body =>
          simp only [found] at h
          split at h
          · cases h
          · exact ⟨⟨_, rfl, by simp⟩, (Except.ok.inj h).symm⟩
      | link target =>
          simp only [found] at h
          split at h
          · cases h
          · exact ⟨⟨_, rfl, by simp⟩, (Except.ok.inj h).symm⟩

theorem moveFile_slot {source : Location} (h : t.moveFile source p = .ok t') :
    ∃ s name, t.slot p = .ok s ∧ s.last = some (.name name) ∧ ¬ maxNameBytes < name.utf8ByteSize ∧
      t.get? (name :: s.directory) ≠ some .directory ∧
      ∃ entry, t.get? source = some entry ∧
        t' = (t.erase source).insert (name :: s.directory) entry := by
  unfold moveFile at h
  split at h
  · cases h
  · simp only [bind_eq_ok] at h
    obtain ⟨s, hs, location, hl, h⟩ := h
    obtain ⟨name, hn, rfl, short⟩ := place_eq_ok hl
    refine ⟨s, name, hs, hn, short, ?_⟩
    split at h
    · cases h
    · split at h
      · cases h
      · rename_i entry he hd
        exact ⟨fun directory => hd directory, entry, he, (Except.ok.inj h).symm⟩
      · cases h

theorem replaceFile_slot (t : FileTree) (directory p : Path) (body : Bytes) :
    (∃ fault, t.replaceFile directory p body = (.error fault, t)) ∨
      ∃ s name, t.slot p = .ok s ∧ s.last = some (.name name) ∧ ¬ maxNameBytes < name.utf8ByteSize ∧
        t.get? (name :: s.directory) ≠ some .directory ∧
        t.replaceFile directory p body = (.ok (), t.insert (name :: s.directory) (.file body)) := by
  unfold replaceFile
  cases hstage : t.stage directory with
  | error fault => exact .inl ⟨fault, rfl⟩
  | ok staging =>
      simp only [stage, bind_eq_ok] at hstage
      obtain ⟨location, -, ⟨⟩, -, hstage⟩ := hstage
      obtain rfl := Except.ok.inj hstage
      have vacant := get?_staged t location
      revert vacant
      generalize freshStagingName ((t.children location).map (·.1)) = fresh
      intro vacant
      simp only [insert_insert]
      have back : (t.insert (fresh :: location) (.file body)).erase (fresh :: location) = t :=
        erase_insert_of_vacant (List.cons_ne_nil _ _) vacant
      have files (l : Location) : (t.insert (fresh :: location) (.file body)).get? l = t.get? l ∨
          ∃ body', (t.insert (fresh :: location) (.file body)).get? l = some (.file body') := by
        by_cases hl : l = fresh :: location
        · exact .inr ⟨body, by rw [hl, get?_insert_self (List.cons_ne_nil _ _)]⟩
        · exact .inl (get?_insert_of_ne (List.cons_ne_nil _ _) hl)
      cases hmove : (t.insert (fresh :: location) (.file body)).moveFile (fresh :: location) p with
      | error fault => exact .inl ⟨fault, by rw [back]⟩
      | ok after =>
          obtain ⟨s, name, hs, hn, short, hd, entry, he, rfl⟩ := moveFile_slot hmove
          rw [get?_insert_self (List.cons_ne_nil _ _), Option.some.injEq] at he
          subst he
          refine .inr ⟨s, name, slot_of_files files hs, hn, short, ?_, by rw [back]⟩
          by_cases same : name :: s.directory = fresh :: location
          · simp [same, vacant]
          · rwa [get?_insert_of_ne (List.cons_ne_nil _ _) same] at hd

/-- A file is put where the path leads, or the tree is what it was: nothing stays staged. -/
theorem replaceFile_cases (t : FileTree) (directory p : Path) (body : Bytes) :
    (∃ fault, t.replaceFile directory p body = (.error fault, t)) ∨
      ∃ name parent, t.place? p = some (name :: parent) ∧
        t.get? (name :: parent) ≠ some .directory ∧
        t.replaceFile directory p body = (.ok (), t.insert (name :: parent) (.file body)) := by
  rcases t.replaceFile_slot directory p body with refused | ⟨s, name, hs, hn, -, hd, replaced⟩
  · exact .inl refused
  · obtain ⟨front, last⟩ := slot_cases hs
    exact .inr ⟨name, s.directory, place?_eq_some.mpr ⟨_, _, rfl, last ▸ hn, front⟩, hd, replaced⟩

/-- Without links that place is the one of the same names. -/
theorem Rooted.replaceFile_cases {top : Location} (h : Rooted t top) (hs : top <:+ parent)
    (hp : ∀ n ∈ name :: parent, IsPlain n) (body : Bytes) :
    (∃ fault, t.replaceFile (pathTo parent) (pathTo (name :: parent)) body = (.error fault, t)) ∨
      (t.get? parent = some .directory ∧ Addressable (name :: parent) ∧
        t.get? (name :: parent) ≠ some .directory ∧
        t.replaceFile (pathTo parent) (pathTo (name :: parent)) body =
          (.ok (), t.insert (name :: parent) (.file body))) := by
  rcases t.replaceFile_slot (pathTo parent) (pathTo (name :: parent)) body with
    refused | ⟨s, last, hslot, hn, short, hd, replaced⟩
  · exact .inl refused
  · obtain ⟨rfl, directory, taken⟩ := (h.slot_eq_ok hs hp).mp hslot
    obtain rfl := Segment.name.inj (Option.some.inj hn)
    exact .inr ⟨directory, addressable_cons.mpr ⟨taken, Nat.not_lt.mp short⟩, hd, replaced⟩

end Strongroom.FileTree
