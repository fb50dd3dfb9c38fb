import Strongroom.Proofs.FileTree.Places
/-!
# Removing a directory with everything below it

On a host with any links, what is removed under a name of a directory is what stands at or below that
place, and nothing else.  If the way to the directory leads through what is removed, it is cut off; then
the path of the name leads nowhere either.
-/

namespace Strongroom.FileTree

open Strongroom.Path

variable {t t' : FileTree} {parent directory : Location} {name : Name}

/-! ## The way to a name -/

theorem enter_eq (hd : t.get? directory = some .directory) :
    t.enter directory name =
      if maxNameBytes < name.utf8ByteSize then .error .nameTooLong
      else
        match t.get? (name :: directory) with
        | none => .error .noEntry
        | some entry => .ok (name :: directory, entry) := by
  simp only [enter, walk, walkWith, hd]
  split
  · rfl
  · cases found : t.get? (name :: directory) with
    | none => rfl
    | some entry => cases entry <;> simp

/-- The walk along the names of a directory. -/
def way (t : FileTree) (parent : Location) : Arrival :=
  t.walk true maxLinks [] (parent.reverse.map .name)

theorem openDirectory_eq_ok (hp : ∀ n ∈ parent, IsPlain n) :
    t.openDirectory (pathTo parent) = .ok directory ↔
      checkText (pathTo parent) = .ok () ∧ t.way parent = .ok (directory, .directory) := by
  rw [openDirectory, locate_pathTo hp, bind_eq_ok]
  simp only [bind_eq_ok]
  constructor
  · rintro ⟨⟨found, entry⟩, ⟨⟨⟩, text, walked⟩, same⟩
    cases entry with
    | directory => exact ⟨text, Except.ok.inj same ▸ walked⟩
    | file body => cases same
    | link target => cases same
  · rintro ⟨text, walked⟩
    exact ⟨(directory, .directory), ⟨(), text, walked⟩, rfl⟩

section

variable (hp : ∀ n ∈ name :: parent, IsPlain n)
include hp

theorem locate_last :
    t.locate false (pathTo (name :: parent)) =
      checkText (pathTo (name :: parent)) >>= fun _ =>
        t.way parent >>= fun found => t.enter found.1 name := by
  rw [locate_pathTo hp, List.reverse_cons, List.map_append, List.map_singleton, walk_concat]
  rfl

theorem slot_last :
    t.slot (pathTo (name :: parent)) =
      checkText (pathTo (name :: parent)) >>= fun _ => t.way parent >>= fun found =>
        if found.2 ≠ .directory then .error .notDirectory
        else .ok ⟨found.1, some (.name name), false⟩ := by
  have plain : ∀ n ∈ (name :: parent).reverse, IsPlain n := fun n hn => hp n (List.mem_reverse.mp hn)
  have names : segments (pathTo (name :: parent)) = parent.reverse.map .name ++ [.name name] := by
    rw [pathTo_eq, segments_absolute plain, List.reverse_cons, List.map_append, List.map_singleton]
  have slash : endsInSlash (pathTo (name :: parent)) = false := by
    rw [pathTo_eq, endsInSlash_absolute plain]
    simp
  simp only [slot, names, slash, List.dropLast_concat, List.getLast?_concat]
  rfl

omit hp in
theorem get?_of_way {found : Location} {entry : Entry} (plain : ∀ n ∈ parent, IsPlain n)
    (walked : t.way parent = .ok (found, entry)) : t.get? found = some entry := by
  refine (reached_of_walk (.root t) (fun n hn => ?_) walked).2
  obtain ⟨name, mem, he⟩ := List.mem_map.mp hn
  exact Segment.name.inj he ▸ plain name (List.mem_reverse.mp mem)

/-- The way to a name ends in this directory. -/
structure Leads (t : FileTree) (parent : Location) (name : Name) (directory : Location) : Prop where
  text : checkText (pathTo (name :: parent)) = .ok ()
  way : t.way parent = .ok (directory, .directory)
  short : ¬ maxNameBytes < name.utf8ByteSize

theorem Leads.openDirectory (h : t.Leads parent name directory) :
    t.openDirectory (pathTo parent) = .ok directory :=
  (openDirectory_eq_ok fun n hn => hp n (List.mem_cons_of_mem _ hn)).mpr
    ⟨checkText_parent h.text, h.way⟩

/-- The path of a name leads nowhere, or to what stands under the name at the end of the way. -/
theorem locate_last_cases (t : FileTree) :
    (∃ fault, t.locate false (pathTo (name :: parent)) = .error fault) ∨
      ∃ directory entry, t.Leads parent name directory ∧ t.get? (name :: directory) = some entry ∧
        t.locate false (pathTo (name :: parent)) = .ok (name :: directory, entry) := by
  rw [locate_last hp]
  cases text : checkText (pathTo (name :: parent)) with
  | error fault => exact .inl ⟨fault, rfl⟩
  | ok _ =>
      cases opened : t.way parent with
      | error fault => exact .inl ⟨fault, rfl⟩
      | ok found =>
          obtain ⟨directory, entry⟩ := found
          have there := get?_of_way (fun n hn => hp n (List.mem_cons_of_mem _ hn)) opened
          simp only [ok_bind]
          cases entry with
          | file body => exact .inl ⟨.notDirectory, by simp only [enter, walk, walkWith, there]⟩
          | link target => exact .inl ⟨.notDirectory, by simp only [enter, walk, walkWith, there]⟩
          | directory =>
              rw [enter_eq there]
              split
              · exact .inl ⟨_, rfl⟩
              · rename_i short
                cases found : t.get? (name :: directory) with
                | none => exact .inl ⟨_, rfl⟩
                | some entry => exact .inr ⟨directory, entry, ⟨text, opened, short⟩, found, rfl⟩

end

/-! ## What is removed -/

/-- Where less stands, a way stays open or ends where nothing stands. -/
theorem way_of_less (less : ∀ l, t'.get? l = t.get? l ∨ t'.get? l = none) :
    t'.way parent = t.way parent ∨ t'.way parent = .error .noEntry :=
  walk_of_less less

theorem erase_less {place : Location} (hne : place ≠ []) (l : Location) :
    (t.erase place).get? l = t.get? l ∨ (t.erase place).get? l = none := by
  rw [get?_erase t hne]
  split
  · exact .inr rfl
  · exact .inl rfl

theorem clear_less {top : Location} (l : Location) :
    (t.clear top).get? l = t.get? l ∨ (t.clear top).get? l = none := by
  rw [get?_clear]
  split
  · exact .inr rfl
  · exact .inl rfl

/-- The outcomes of removing what stands under a name with everything below it. -/
inductive Removes (t : FileTree) (parent : Location) (name : Name) :
    Except HostFault Unit × FileTree → Prop
  | refused {fault : HostFault}
      (missing : fault = .noEntry → t.locate false (pathTo (name :: parent)) = .error .noEntry) :
      Removes t parent name (.error fault, t)
  | link {directory : Location} {target : Path} (leads : t.Leads parent name directory)
      (there : t.get? (name :: directory) = some (.link target)) :
      Removes t parent name (.ok (), t.erase (name :: directory))
  | emptied {directory : Location} (leads : t.Leads parent name directory) :
      Removes t parent name (.ok (), (t.clear (name :: directory)).erase (name :: directory))
  | cutOff {directory : Location} (leads : t.Leads parent name directory)
      (lost : (t.clear (name :: directory)).way parent = .error .noEntry) :
      Removes t parent name (.error .noEntry, t.clear (name :: directory))

section

variable (hp : ∀ n ∈ name :: parent, IsPlain n)
include hp

theorem removeAll_cases (t : FileTree) :
    t.Removes parent name (t.removeAll (pathTo (name :: parent))) := by
  rcases locate_last_cases hp t with ⟨fault, located⟩ | ⟨directory, entry, leads, there, located⟩
  · simp only [removeAll, located]
    exact .refused fun missing => missing ▸ located
  · have slot (t : FileTree) : t.slot (pathTo (name :: parent)) = t.way parent >>= fun found =>
        if found.2 ≠ .directory then .error .notDirectory
        else .ok ⟨found.1, some (.name name), false⟩ := by
      rw [slot_last hp, leads.text]
      rfl
    cases entry with
    | file body =>
        simp only [removeAll, located]
        exact .refused fun other => by cases other
    | link target =>
        have removed : t.removeFile (pathTo (name :: parent)) = .ok (t.erase (name :: directory)) := by
          simp [removeFile, slot, leads.way, Slot.place, leads.short, there]
        simp only [removeAll, located, removed]
        exact .link leads there
    | directory =>
        have kept : (t.clear (name :: directory)).get? (name :: directory) = some .directory := by
          rw [get?_clear, if_neg fun below => (isBelow_iff.mp below).2 rfl, there]
        have less : (t.clear (name :: directory)).way parent = t.way parent ∨
            (t.clear (name :: directory)).way parent = .error .noEntry := way_of_less clear_less
        rcases less with same | lost
        · have removed : (t.clear (name :: directory)).removeDirectory (pathTo (name :: parent)) =
              .ok ((t.clear (name :: directory)).erase (name :: directory)) := by
            simp [removeDirectory, slot, same, leads.way, Slot.place, leads.short, kept, children_clear]
          simp only [removeAll, located, removed]
          exact .emptied leads
        · have refused : (t.clear (name :: directory)).removeDirectory (pathTo (name :: parent)) =
              .error .noEntry := by
            simp [removeDirectory, slot, lost]
          simp only [removeAll, located, refused]
          exact .cutOff leads lost

/-- Where less stands, the path of a name that is gone leads nowhere. -/
theorem Leads.locate_of_less (h : t.Leads parent name directory)
    (less : ∀ l, t'.get? l = t.get? l ∨ t'.get? l = none)
    (gone : t'.get? (name :: directory) = none) :
    t'.locate false (pathTo (name :: parent)) = .error .noEntry := by
  rw [locate_last hp, h.text, ok_bind]
  rcases way_of_less less with same | lost
  · rw [h.way] at same
    have there := get?_of_way (fun n hn => hp n (List.mem_cons_of_mem _ hn)) same
    rw [same, ok_bind, enter_eq there, if_neg h.short, gone]
  · rw [lost, error_bind]

/-- Where the path of a name leads nowhere, nothing stands under the name. -/
theorem get?_of_locate_last (opened : t.openDirectory (pathTo parent) = .ok directory)
    (missing : t.locate false (pathTo (name :: parent)) = .error .noEntry) :
    t.get? (name :: directory) = none := by
  have plain : ∀ n ∈ parent, IsPlain n := fun n hn => hp n (List.mem_cons_of_mem _ hn)
  obtain ⟨-, way⟩ := (openDirectory_eq_ok plain).mp opened
  rw [locate_last hp] at missing
  cases text : checkText (pathTo (name :: parent)) with
  | error fault =>
      rw [text, error_bind, Except.error.injEq] at missing
      exact absurd (missing ▸ text) (checkText_ne_noEntry (pathTo_ne_empty _))
  | ok _ =>
      rw [text, ok_bind, way, ok_bind, enter_eq (get?_of_way plain way)] at missing
      split at missing
      · cases missing
      · cases found : t.get? (name :: directory) with
        | none => rfl
        | some entry => simp [found] at missing

/-- What was removed, or was missing, is gone: the path leads nowhere, and nothing is left below. -/
theorem Removes.gone {result : Except HostFault Unit × FileTree} (h : t.Removes parent name result)
    (grounded : t.Grounded) (done : result.1 = .ok () ∨ result.1 = .error .noEntry) :
    result.2.locate false (pathTo (name :: parent)) = .error .noEntry ∧
      ∀ directory, t.openDirectory (pathTo parent) = .ok directory →
        ∀ location, isBelow (name :: directory) location = true → result.2.get? location = none := by
  have same {found directory : Location} (leads : t.Leads parent name found)
      (opened : t.openDirectory (pathTo parent) = .ok directory) : found = directory :=
    Except.ok.inj ((leads.openDirectory hp).symm.trans opened)
  cases h with
  | @refused fault missing =>
      have missing := missing (Except.error.inj (done.resolve_left fun passed => by cases passed))
      refine ⟨missing, fun directory opened location below => ?_⟩
      exact grounded.get?_below (by simp [get?_of_locate_last hp opened missing]) below
  | @link found target leads there =>
      have gone : (t.erase (name :: found)).get? (name :: found) = none := by
        rw [get?_erase t (List.cons_ne_nil _ _), if_pos rfl]
      refine ⟨leads.locate_of_less hp (erase_less (List.cons_ne_nil _ _)) gone, ?_⟩
      intro directory opened location below
      obtain rfl := same leads opened
      have nothing : t.get? location = none := grounded.get?_below (by simp [there]) below
      exact (erase_less (List.cons_ne_nil _ _) location).elim (·.trans nothing) id
  | @emptied found leads =>
      have less (l : Location) :
          ((t.clear (name :: found)).erase (name :: found)).get? l = t.get? l ∨
            ((t.clear (name :: found)).erase (name :: found)).get? l = none := by
        rcases erase_less (t := t.clear (name :: found)) (List.cons_ne_nil name found) l with same | gone
        · exact (clear_less l).imp same.trans same.trans
        · exact .inr gone
      have gone : ((t.clear (name :: found)).erase (name :: found)).get? (name :: found) = none := by
        rw [get?_erase _ (List.cons_ne_nil _ _), if_pos rfl]
      refine ⟨leads.locate_of_less hp less gone, fun directory opened location below => ?_⟩
      obtain rfl := same leads opened
      rw [get?_erase_of_ne (List.cons_ne_nil _ _) (isBelow_iff.mp below).2, get?_clear, if_pos below]
  | @cutOff found leads lost =>
      refine ⟨by rw [locate_last hp, leads.text, ok_bind, lost, error_bind], ?_⟩
      intro directory opened location below
      obtain rfl := same leads opened
      rw [get?_clear, if_pos below]

/-- Nothing is removed elsewhere. -/
theorem Removes.elsewhere {result : Except HostFault Unit × FileTree} (h : t.Removes parent name result)
    {location : Location} (other : ∀ directory, t.openDirectory (pathTo parent) = .ok directory →
      ¬ name :: directory <:+ location) : result.2.get? location = t.get? location := by
  have away {directory : Location} (leads : t.Leads parent name directory) :
      ¬ name :: directory <:+ location := other directory (leads.openDirectory hp)
  have erased {directory : Location} (t : FileTree) (outside : ¬ name :: directory <:+ location) :
      (t.erase (name :: directory)).get? location = t.get? location :=
    get?_erase_of_ne (List.cons_ne_nil _ _) fun same => outside (same ▸ List.suffix_refl _)
  have cleared {directory : Location} (outside : ¬ name :: directory <:+ location) :
      (t.clear (name :: directory)).get? location = t.get? location := by
    rw [get?_clear, if_neg fun below => outside (isBelow_iff.mp below).1]
  cases h with
  | refused missing => rfl
  | link leads there => exact erased t (away leads)
  | emptied leads => exact (erased _ (away leads)).trans (cleared (away leads))
  | cutOff leads lost => exact cleared (away leads)

end

theorem Removes.grounded {result : Except HostFault Unit × FileTree} (h : t.Removes parent name result)
    (grounded : t.Grounded) : result.2.Grounded := by
  cases h with
  | refused missing => exact grounded
  | link leads there => exact grounded.erase (grounded _ (by simp [there]))
  | emptied leads => exact grounded.clear.erase children_clear
  | cutOff leads lost => exact grounded.clear

/-- A host that refuses to remove anything leaves everything as it was. -/
theorem Removes.eq_of_refused {result : Except HostFault Unit × FileTree}
    (h : t.Removes parent name result) {fault : HostFault} (refused : result.1 = .error fault)
    (other : fault ≠ .noEntry) : result.2 = t := by
  cases h with
  | refused missing => rfl
  | link leads there => cases refused
  | emptied leads => cases refused
  | cutOff leads lost => exact absurd (Except.error.inj refused).symm other

end Strongroom.FileTree
