import Strongroom.Proofs.FileTree.Calls
/-!
# Where walks end

A walk ends at a location of plain names that is reached through directories, and a walk that has
succeeded still does after something is put where nothing stood.  So a path along which directories
were made leads to a directory.
-/

namespace Strongroom.FileTree

open Strongroom.Path

/-- A location of plain names in directories. -/
structure Reached (t : FileTree) (location : Location) : Prop where
  plain : ∀ name ∈ location, IsPlain name
  directory : ∀ above, above <:+ location → above ≠ location → t.get? above = some .directory

/-- The names among some segments are plain. -/
def Plainly (segments : List Segment) : Prop :=
  ∀ name, .name name ∈ segments → IsPlain name

variable {t t' : FileTree} {here location : Location} {entry : Entry} {rest more : List Segment}

/-! ## Segments -/

theorem plainly_segments (p : Path) : Plainly (segments p) := by
  intro name hm
  obtain ⟨piece, hp, hs⟩ := List.mem_filterMap.mp hm
  unfold segment? at hs
  split at hs
  · cases hs
  · split at hs
    · cases hs
    · split at hs
      · cases hs
      · rename_i empty here up
        obtain rfl := Segment.name.inj (Option.some.inj hs)
        exact ⟨empty, here, up, no_slash_of_mem_pieces hp⟩

theorem plainly_through (p : Path) : Plainly (through p) := by
  intro name hm
  unfold through at hm
  split at hm
  · rcases List.mem_append.mp hm with hm | hm
    · exact plainly_segments p name hm
    · simp at hm
  · exact plainly_segments p name hm

/-! ## The end of a walk -/

theorem Reached.root (t : FileTree) : t.Reached [] :=
  ⟨by simp, fun _ ha hne => absurd (List.suffix_nil.mp ha) hne⟩

theorem Reached.tail (h : t.Reached here) : t.Reached here.tail := by
  have hs : here.tail <:+ here := List.tail_suffix here
  refine ⟨fun n hn => h.plain n (List.mem_of_mem_tail hn), fun above ha hne => ?_⟩
  refine h.directory above (ha.trans hs) fun he => hne ?_
  exact ha.eq_of_length (Nat.le_antisymm ha.length_le (he ▸ hs.length_le))

theorem Reached.cons (h : t.Reached here) (hd : t.get? here = some .directory) {name : Name}
    (hn : IsPlain name) : t.Reached (name :: here) := by
  refine ⟨List.forall_mem_cons.mpr ⟨hn, h.plain⟩, fun above ha hne => ?_⟩
  rcases List.suffix_cons_iff.mp ha with he | ha
  · exact absurd he hne
  · by_cases he : above = here
    · rw [he, hd]
    · exact h.directory above ha he

theorem reached_of_walkWith {onLink : Location → List Segment → Arrival} {follow : Bool}
    (links : ∀ here rest, t.Reached here → Plainly rest → onLink here rest = .ok (location, entry) →
      t.Reached location ∧ t.get? location = some entry)
    (hr : t.Reached here) (hp : Plainly rest)
    (h : t.walkWith onLink follow here rest = .ok (location, entry)) :
    t.Reached location ∧ t.get? location = some entry := by
  induction rest generalizing here with
  | nil =>
      simp only [walkWith] at h
      split at h
      · rename_i found hg
        obtain ⟨rfl, rfl⟩ := Prod.mk.inj (Except.ok.inj h)
        exact ⟨hr, hg⟩
      · cases h
  | cons segment rest ih =>
      have rest_plain : Plainly rest := fun n hn => hp n (List.mem_cons_of_mem _ hn)
      simp only [walkWith] at h
      split at h
      · cases h
      · rename_i hd
        cases segment with
        | here => exact ih hr rest_plain h
        | up => exact ih hr.tail rest_plain h
        | name name =>
            have next := hr.cons hd (hp name (List.mem_cons_self ..))
            dsimp only at h
            split at h
            · cases h
            · split at h
              · cases h
              · rename_i target hl
                split at h
                · obtain ⟨rfl, rfl⟩ := Prod.mk.inj (Except.ok.inj h)
                  exact ⟨next, hl⟩
                · refine links _ _ ?_ ?_ h
                  · split
                    · exact .root t
                    · exact hr
                  · intro n hn
                    rcases List.mem_append.mp hn with hn | hn
                    · exact plainly_through target n hn
                    · exact rest_plain n hn
              · exact ih next rest_plain h
      · cases h

theorem reached_of_walk {follow : Bool} {links : Nat} (hr : t.Reached here) (hp : Plainly rest)
    (h : t.walk follow links here rest = .ok (location, entry)) :
    t.Reached location ∧ t.get? location = some entry := by
  induction links generalizing here rest with
  | zero => exact reached_of_walkWith (fun _ _ _ _ he => by cases he) hr hp h
  | succ links ih => exact reached_of_walkWith (fun _ _ hr hp he => ih hr hp he) hr hp h

/-! ## Walks in trees that differ -/

section

variable {arrival : Location × Entry} {result : Arrival} {ends : Arrival → Prop}

/-- One tree differs from another only where it holds nothing or a file.  A walk that comes there ends
there. -/
def DiffersIn (t' t : FileTree) (ends : Arrival → Prop) : Prop :=
  ∀ l, t'.get? l = t.get? l ∨ (t'.get? l = none ∧ ends (.error .noEntry)) ∨
    ∃ body, t'.get? l = some (.file body) ∧ ends (.ok (l, .file body)) ∧ ends (.error .notDirectory)

theorem DiffersIn.walkWith {onLink onLink' : Location → List Segment → Arrival} {follow : Bool}
    (differs : t'.DiffersIn t ends)
    (links : ∀ here rest, onLink' here rest = onLink here rest ∨ ends (onLink' here rest)) :
    t'.walkWith onLink' follow here rest = t.walkWith onLink follow here rest ∨
      ends (t'.walkWith onLink' follow here rest) := by
  induction rest generalizing here with
  | nil =>
      rcases differs here with same | ⟨gone, stop⟩ | ⟨body, file, stop, -⟩
      · exact .inl (by simp only [FileTree.walkWith, same])
      · exact .inr (by simpa only [FileTree.walkWith, gone] using stop)
      · exact .inr (by simpa only [FileTree.walkWith, file] using stop)
  | cons segment rest ih =>
      rcases differs here with same | ⟨gone, stop⟩ | ⟨body, file, -, stop⟩
      case inr.inl => exact .inr (by simpa only [FileTree.walkWith, gone] using stop)
      case inr.inr => exact .inr (by simpa only [FileTree.walkWith, file] using stop)
      simp only [FileTree.walkWith, same]
      cases t.get? here with
      | none => exact .inl rfl
      | some entry =>
          cases entry with
          | file body => exact .inl rfl
          | link target => exact .inl rfl
          | directory =>
              cases segment with
              | here => exact ih
              | up => exact ih
              | name name =>
                  dsimp only
                  split
                  · exact .inl rfl
                  · rcases differs (name :: here) with same | ⟨gone, stop⟩ | ⟨body, file, stop, blocked⟩
                    · rw [same]
                      cases t.get? (name :: here) with
                      | none => exact .inl rfl
                      | some entry =>
                          cases entry with
                          | directory => exact ih
                          | file body => exact ih
                          | link target =>
                              dsimp only
                              split
                              · exact .inl rfl
                              · exact links _ _
                    · exact .inr (by simpa only [gone] using stop)
                    · right
                      cases rest with
                      | nil => simpa only [FileTree.walkWith, file] using stop
                      | cons segment rest => simpa only [FileTree.walkWith, file] using blocked

theorem DiffersIn.walk {follow : Bool} {links : Nat} (differs : t'.DiffersIn t ends) :
    t'.walk follow links here rest = t.walk follow links here rest ∨
      ends (t'.walk follow links here rest) := by
  induction links generalizing here rest with
  | zero => exact differs.walkWith fun _ _ => .inl rfl
  | succ links ih => exact differs.walkWith fun _ _ => ih

/-- Where less stands, a walk ends as before or finds nothing. -/
theorem walk_of_less {follow : Bool} {links : Nat}
    (less : ∀ l, t'.get? l = t.get? l ∨ t'.get? l = none) :
    t'.walk follow links here rest = t.walk follow links here rest ∨
      t'.walk follow links here rest = .error .noEntry := by
  have differs : t'.DiffersIn t (· = .error .noEntry) := fun l =>
    (less l).imp_right fun gone => .inl ⟨gone, rfl⟩
  exact differs.walk

theorem walk_grows {follow : Bool} {links : Nat}
    (grows : ∀ l e, t.get? l = some e → t'.get? l = some e)
    (h : t.walk follow links here rest = .ok arrival) : t'.walk follow links here rest = .ok arrival := by
  have less : ∀ l, t.get? l = t'.get? l ∨ t.get? l = none := fun l => by
    cases he : t.get? l with
    | none => exact .inr rfl
    | some e => exact .inl (grows l e he).symm
  rcases walk_of_less less with same | lost
  · rw [← same, h]
  · rw [h] at lost
    cases lost

/-- Files that are put somewhere change no way to a directory. -/
theorem walk_of_files {follow : Bool} {links : Nat}
    (files : ∀ l, t'.get? l = t.get? l ∨ ∃ body, t'.get? l = some (.file body))
    (h : t'.walk follow links here rest = .ok (location, .directory)) :
    t.walk follow links here rest = .ok (location, .directory) := by
  have differs : t'.DiffersIn t (· ≠ .ok (location, .directory)) := fun l =>
    (files l).imp_right fun ⟨body, file⟩ => .inr ⟨body, file, by simp, by simp⟩
  rcases differs.walk with same | other
  · rw [← same, h]
  · exact absurd h other

/-! ## Longer walks -/

theorem walkWith_append {onLink : Location → List Segment → Arrival}
    (links : ∀ here rest, onLink here rest = .ok (location, entry) → onLink here (rest ++ more) = result)
    (next : t.walkWith onLink true location more = result)
    (h : t.walkWith onLink true here rest = .ok (location, entry)) :
    t.walkWith onLink true here (rest ++ more) = result := by
  induction rest generalizing here with
  | nil =>
      simp only [walkWith] at h
      split at h
      · obtain ⟨rfl, rfl⟩ := Prod.mk.inj (Except.ok.inj h)
        exact next
      · cases h
  | cons segment rest ih =>
      simp only [List.cons_append, walkWith] at h ⊢
      split at h
      · cases h
      · cases segment with
        | here => exact ih h
        | up => exact ih h
        | name name =>
            dsimp only at h ⊢
            split at h
            · cases h
            · rename_i short
              rw [if_neg short]
              split at h
              · cases h
              · simp only [Bool.true_eq_false, and_false, if_false] at h ⊢
                rw [← List.append_assoc]
                exact links _ _ h
              · rename_i e hl he
                cases e with
                | link target => exact absurd rfl (hl target)
                | directory => exact ih h
                | file body => exact ih h
      · cases h

/-- A walk may go on from where it ends, whatever links it has left. -/
theorem walk_append {links : Nat}
    (next : ∀ onLink, t.walkWith onLink true location more = result)
    (h : t.walk true links here rest = .ok (location, entry)) :
    t.walk true links here (rest ++ more) = result := by
  induction links generalizing here rest with
  | zero => exact walkWith_append (fun _ _ he => by cases he) (next _) h
  | succ links ih => exact walkWith_append (fun _ _ he => ih he) (next _) h

end

/-! ## Making directories -/

theorem slot_cases {p : Path} {s : Slot} (h : t.slot p = .ok s) :
    t.walk true maxLinks [] (segments p).dropLast = .ok (s.directory, .directory) ∧
      s.last = (segments p).getLast? := by
  simp only [slot, bind_eq_ok] at h
  obtain ⟨⟨⟩, -, ⟨location, entry⟩, hw, h⟩ := h
  cases entry with
  | directory =>
      obtain rfl := Except.ok.inj h
      exact ⟨hw, rfl⟩
  | file body => cases h
  | link target => cases h

theorem place_eq_ok {s : Slot} {unnamed : Option Segment → HostFault}
    (h : s.place unnamed = .ok location) :
    ∃ name, s.last = some (.name name) ∧ location = name :: s.directory ∧
      ¬ maxNameBytes < name.utf8ByteSize := by
  unfold Slot.place at h
  split at h
  · rename_i name hl
    split at h
    · cases h
    · rename_i short
      exact ⟨name, hl, (Except.ok.inj h).symm, short⟩
  · cases h

/-- The path along which a directory is made leads to it. -/
theorem locate_insert_of_slot {p : Path} {s : Slot} {name : Name} (hslot : t.slot p = .ok s)
    (hname : s.last = some (.name name)) (short : ¬ maxNameBytes < name.utf8ByteSize)
    (free : t.get? (name :: s.directory) = none) :
    (t.insert (name :: s.directory) .directory).locate true p =
      .ok (name :: s.directory, .directory) := by
  obtain ⟨front, last⟩ := slot_cases hslot
  simp only [slot, bind_eq_ok] at hslot
  obtain ⟨⟨⟩, text, -⟩ := hslot
  have kept : ∀ l e, t.get? l = some e →
      (t.insert (name :: s.directory) .directory).get? l = some e :=
    fun _ _ he => get?_insert_of_vacant free he
  have parent := kept _ _ (reached_of_walk (.root t)
    (fun n hn => plainly_segments p n ((List.dropLast_subset _) hn)) front).2
  have there : (t.insert (name :: s.directory) .directory).get? (name :: s.directory) =
      some .directory := get?_insert_self (List.cons_ne_nil _ _)
  have whole : segments p = (segments p).dropLast ++ [.name name] := by
    obtain ⟨init, hi⟩ := List.getLast?_eq_some_iff.mp (last ▸ hname)
    rw [hi, List.dropLast_concat]
  rw [locate, text, ok_bind]
  unfold through
  split
  · rw [whole, List.append_assoc]
    refine walk_append (fun onLink => ?_) (walk_grows kept front)
    simp [walkWith, parent, there, short]
  · rw [whole]
    refine walk_append (fun onLink => ?_) (walk_grows kept front)
    simp [walkWith, parent, there, short]

theorem locate_of_makeDirectory {p : Path} (h : t.makeDirectory p = .ok t')
    (hl : t'.locate true p = .ok (location, entry)) : entry = .directory := by
  simp only [makeDirectory, bind_eq_ok] at h
  obtain ⟨s, hslot, place, hplace, h⟩ := h
  obtain ⟨name, hname, rfl, short⟩ := place_eq_ok hplace
  split at h
  · cases h
  · rename_i free
    obtain rfl := Except.ok.inj h
    rw [locate_insert_of_slot hslot hname short free] at hl
    exact (Prod.mk.inj (Except.ok.inj hl)).2.symm

theorem locate_of_isDirectory {p : Path} (h : t.isDirectory p = true)
    (hl : t.locate true p = .ok (location, entry)) : entry = .directory := by
  unfold isDirectory at h
  rw [hl] at h
  cases entry with
  | directory => rfl
  | file body => cases h
  | link target => cases h

/-- The path along which all missing directories were made leads to a directory. -/
theorem locate_of_makeDirectories {p : Path} {depth : Nat}
    (h : t.makeDirectoriesFrom depth p = (.ok (), t'))
    (hl : t'.locate true p = .ok (location, entry)) : entry = .directory := by
  cases depth with
  | zero => cases h
  | succ depth =>
      simp only [makeDirectoriesFrom] at h
      split at h
      · rename_i empty
        obtain rfl := (Prod.mk.inj h).2
        simp [locate, checkText, empty, bind, Except.bind] at hl
      · split at h
        · rename_i made
          obtain rfl := (Prod.mk.inj h).2
          exact locate_of_makeDirectory made hl
        · split at h
          · cases h
          · split at h
            · cases h
            · split at h
              · rename_i made
                obtain rfl := (Prod.mk.inj h).2
                exact locate_of_makeDirectory made hl
              · split at h
                · rename_i directory
                  obtain rfl := (Prod.mk.inj h).2
                  exact locate_of_isDirectory directory hl
                · cases h
        · split at h
          · rename_i directory
            obtain rfl := (Prod.mk.inj h).2
            exact locate_of_isDirectory directory hl
          · cases h

/-! ## Places in a directory that is reached -/

section

variable {top : Location} {name : Name}

/-- In a directory that is reached no link stands in the way of a plain name. -/
theorem Reached.names (h : t.Reached top) (hd : t.get? top = some .directory) (hn : IsPlain name) :
    t.Names top name := by
  refine names_of_walk (List.forall_mem_cons.mpr ⟨hn, h.plain⟩) fun found entry => ?_
  have back : top.reverse.reverse ++ [] = top := by simp
  have directories : ∀ l, l <:+ top → t.get? l = some .directory := fun l hl => by
    by_cases he : l = top
    · rw [he, hd]
    · exact h.directory l hl he
  have links : ∀ l, ([] : Location) <:+ l → l <:+ top.reverse.reverse ++ [] → ∀ target,
      t.get? l ≠ some (.link target) := by
    rw [back]
    intro l _ hl target he
    rw [directories l hl] at he
    cases he
  refine (walkWith_names links).trans ?_
  rw [back]
  simp only [List.mem_reverse]
  constructor
  · rintro ⟨⟨rfl, he⟩, -, sizes⟩
    exact ⟨rfl, he, sizes⟩
  · rintro ⟨rfl, he, sizes⟩
    exact ⟨⟨rfl, he⟩, fun l _ hl _ => directories l hl, sizes⟩

/-- Nothing that happens in a directory changes the way to it. -/
theorem Reached.of_same (h : t.Reached top) (same : ∀ l, l <:+ top → t'.get? l = t.get? l) :
    t'.Reached top :=
  ⟨h.plain, fun above ha hne => (same above ha).trans (h.directory above ha hne)⟩

end

end Strongroom.FileTree
