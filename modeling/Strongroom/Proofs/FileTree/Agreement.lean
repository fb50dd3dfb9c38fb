import Strongroom.Proofs.FileTree.Calls
import Strongroom.Proofs.FileTree.Distinct
/-!
# Trees that agree below a directory

Two hosts may hold the same at and below a directory and differ elsewhere.  Every call on a path
that leads there is answered alike by both, whether it succeeds or is refused, and leaves them in
agreement.
-/

namespace Strongroom.FileTree

open Strongroom.Path

/-- Two trees with the same at and below `root`, a directory that no link leads to in either. -/
structure Agree (root : Location) (t t' : FileTree) : Prop where
  rooted : t.Rooted root
  rooted' : t'.Rooted root
  distinct : t.Distinct root
  distinct' : t'.Distinct root
  same : ∀ location, root <:+ location → t'.get? location = t.get? location

/-- Two changes that are refused for the same reason, or that leave the same at and below `root`. -/
inductive SameChange (root : Location) : Except HostFault FileTree → Except HostFault FileTree → Prop
  | refused (fault : HostFault) : SameChange root (.error fault) (.error fault)
  | done {t t' : FileTree} (same : ∀ location, root <:+ location → t'.get? location = t.get? location) :
      SameChange root (.ok t) (.ok t')

/-- Two effects with the same outcome that leave the same at and below `root`. -/
structure SameEffect {ε : Type} (root : Location) (e e' : Except ε Unit × FileTree) : Prop where
  outcome : e'.1 = e.1
  same : ∀ location, root <:+ location → e'.2.get? location = e.2.get? location

theorem freshStagingName_perm {taken taken' : List Name} (h : taken.Perm taken') :
    freshStagingName taken = freshStagingName taken' := by
  have same : taken.contains = taken'.contains := funext fun name => h.contains_eq
  rw [freshStagingName, freshStagingName, h.length_eq, same]

variable {t t' : FileTree} {root location parent : Location} {name : Name} {entry : Entry}

/-! ## Walking -/

/-- A directory below another one is like that one without links below it. -/
theorem Rooted.of_directory {top : Location} (h : t.Rooted top) (hs : top <:+ root)
    (hp : ∀ n ∈ root, IsPlain n) (hd : t.get? root = some .directory) : t.Rooted root := by
  have within : ∀ item ∈ t.below root, item ∈ t.below top := fun item mem => by
    obtain ⟨mem, hb⟩ := mem_below.mp mem
    exact mem_below.mpr ⟨mem, isBelow_of_suffix hs hb⟩
  refine ⟨hp, fun above ha => ?_, fun item mem => h.parents item (within item mem),
    fun item mem => h.links item (within item mem)⟩
  by_cases here : above = root
  · rw [here, hd]
  · exact h.directory_above hs hd ha here

/-- A walk along names asks only for what stands on its way. -/
theorem walkWith_congr {onLink onLink' : Location → List Segment → Arrival} {follow : Bool}
    {names : List Name} {here : Location}
    (same : ∀ l, here <:+ l → l <:+ names.reverse ++ here → t'.get? l = t.get? l)
    (links : ∀ l, here <:+ l → l <:+ names.reverse ++ here → ∀ target,
      t.get? l ≠ some (.link target)) :
    t'.walkWith onLink' follow here (names.map .name) =
      t.walkWith onLink follow here (names.map .name) := by
  -- on the names that are left: from `here` on, the way leads to the same place
  induction names generalizing here with
  | nil =>
      simp only [List.map_nil, walkWith]
      rw [same here (List.suffix_refl _) (List.suffix_refl _)]
  | cons name names ih =>
      have target : (name :: names).reverse ++ here = names.reverse ++ (name :: here) := by simp
      rw [target] at same links
      have hstep : here <:+ name :: here := List.suffix_cons ..
      have hlast : name :: here <:+ names.reverse ++ (name :: here) := List.suffix_append ..
      have rest := ih (fun l h1 h2 => same l (hstep.trans h1) h2)
        fun l h1 h2 => links l (hstep.trans h1) h2
      simp only [List.map_cons, walkWith]
      rw [same here (List.suffix_refl _) (hstep.trans hlast), same _ hstep hlast, rest]
      cases there : t.get? (name :: here) with
      | none => rfl
      | some found =>
          cases found with
          | link target => exact absurd there (links _ hstep hlast target)
          | directory => rfl
          | file body => rfl

namespace Agree

/-- Above the common directory stand directories in both trees. -/
theorem upto (h : Agree root t t') (hs : root <:+ location) {l : Location} (hl : l <:+ location) :
    t'.get? l = t.get? l := by
  rcases List.suffix_or_suffix_of_suffix hl hs with above | below
  · rw [h.rooted.ancestors l above, h.rooted'.ancestors l above]
  · exact h.same l below

theorem walk (h : Agree root t t') (hs : root <:+ location) (follow : Bool) :
    t'.walk follow maxLinks [] (location.reverse.map .name) =
      t.walk follow maxLinks [] (location.reverse.map .name) := by
  have back : location.reverse.reverse ++ [] = location := by simp
  refine walkWith_congr (fun l _ hl => ?_) fun l _ hl target => ?_
  · exact h.upto hs (back ▸ hl)
  · exact h.rooted.not_link_above hs (back ▸ hl) target

/-! ## Queries -/

theorem locate (h : Agree root t t') (hs : root <:+ location) (hp : ∀ n ∈ location, IsPlain n)
    (follow : Bool) : t'.locate follow (pathTo location) = t.locate follow (pathTo location) := by
  have plain : ∀ n ∈ location.reverse, IsPlain n := fun n hn => hp n (List.mem_reverse.mp hn)
  have walked : t'.walk follow maxLinks [] (through (pathTo location)) =
      t.walk follow maxLinks [] (through (pathTo location)) := by
    rw [through, pathTo_eq, endsInSlash_absolute plain, segments_absolute plain]
    by_cases hl : location = []
    · subst hl
      simp [maxLinks, FileTree.walk, walkWith, get?]
    · simpa [hl] using h.walk hs follow
  rw [FileTree.locate, FileTree.locate, walked]

theorem isDirectory (h : Agree root t t') (hs : root <:+ location) (hp : ∀ n ∈ location, IsPlain n) :
    t'.isDirectory (pathTo location) = t.isDirectory (pathTo location) := by
  rw [FileTree.isDirectory, FileTree.isDirectory, h.locate hs hp]

theorem readFile (h : Agree root t t') (hs : root <:+ location) (hp : ∀ n ∈ location, IsPlain n) :
    t'.readFile (pathTo location) = t.readFile (pathTo location) := by
  rw [FileTree.readFile, FileTree.readFile, h.locate hs hp]

theorem openDirectory (h : Agree root t t') (hs : root <:+ location)
    (hp : ∀ n ∈ location, IsPlain n) :
    t'.openDirectory (pathTo location) = t.openDirectory (pathTo location) := by
  rw [FileTree.openDirectory, FileTree.openDirectory, h.locate hs hp]

/-- Both trees hold the same children, though not in the same order. -/
theorem children (h : Agree root t t') (hs : root <:+ location) :
    (t'.children location).Perm (t.children location) := by
  have once : (t.children location).Nodup := .of_map _ (h.distinct.names hs)
  have once' : (t'.children location).Nodup := .of_map _ (h.distinct'.names hs)
  refine (List.perm_ext_iff_of_nodup once' once).mpr fun child => ?_
  obtain ⟨name, entry⟩ := child
  rw [h.distinct'.mem_children hs, h.distinct.mem_children hs,
    h.same _ (hs.trans (List.suffix_cons ..))]

theorem below (h : Agree root t t') : (t'.below root).Perm (t.below root) := by
  have once : (t.below root).Nodup := .of_map _ h.distinct
  have once' : (t'.below root).Nodup := .of_map _ h.distinct'
  refine (List.perm_ext_iff_of_nodup once' once).mpr fun item => ?_
  obtain ⟨location, entry⟩ := item
  rw [mem_below, mem_below]
  refine and_congr_left fun hb => ?_
  rw [h.distinct'.mem_entries hb, h.distinct.mem_entries hb, h.same _ (isBelow_iff.mp hb).1]

theorem bytesBelow (h : Agree root t t') : t'.bytesBelow root = t.bytesBelow root := by
  refine h.below.foldr_eq' (fun x _ y _ total => ?_) 0
  omega

/-- A directory is read with the same fault in both trees, or with the same children. -/
theorem readDirectory_cases (h : Agree root t t') (hs : root <:+ location)
    (hp : ∀ n ∈ location, IsPlain n) :
    (∃ fault, t.readDirectory (pathTo location) = .error fault ∧
      t'.readDirectory (pathTo location) = .error fault) ∨
    ∃ children children', t.readDirectory (pathTo location) = .ok children ∧
      t'.readDirectory (pathTo location) = .ok children' ∧
      (children.map Prod.fst).Nodup ∧ children'.Perm children := by
  have opened := h.openDirectory hs hp
  cases ho : t.openDirectory (pathTo location) with
  | error fault =>
      rw [ho] at opened
      exact .inl ⟨fault, by rw [readDirectory, ho]; rfl, by rw [readDirectory, opened]; rfl⟩
  | ok found =>
      obtain ⟨rfl, -, -⟩ := (h.rooted.openDirectory_eq_ok hs hp).mp ho
      rw [ho] at opened
      exact .inr ⟨_, _, by rw [readDirectory, ho]; rfl, by rw [readDirectory, opened]; rfl,
        h.distinct.names hs, h.children hs⟩

/-! ## Changes -/

theorem insert (h : Agree root t t') (hb : isBelow root location = true)
    (hp : t.get? location.tail = some .directory) (hl : ∀ target, entry ≠ .link target)
    (hd : entry = .directory ∨ t.get? location ≠ some .directory) :
    Agree root (t.insert location entry) (t'.insert location entry) := by
  have hne := ne_nil_of_isBelow hb
  have hs := (isBelow_iff.mp hb).1
  refine ⟨h.rooted.insert hb hp hl hd, h.rooted'.insert hb ?_ hl ?_, h.distinct.insert _ _,
    h.distinct'.insert _ _, fun l inside => ?_⟩
  · rwa [h.upto hs (List.tail_suffix _)]
  · rwa [h.same location hs]
  · rw [get?_insert t hne, get?_insert t' hne, h.same l inside]

theorem slot (h : Agree root t t') (hs : root <:+ parent) (hp : ∀ n ∈ name :: parent, IsPlain n) :
    t'.slot (pathTo (name :: parent)) = t.slot (pathTo (name :: parent)) := by
  have plain : ∀ n ∈ (name :: parent).reverse, IsPlain n := fun n hn => hp n (List.mem_reverse.mp hn)
  have front : (segments (pathTo (name :: parent))).dropLast = parent.reverse.map .name := by
    rw [pathTo_eq, segments_absolute plain]
    simp
  simp only [FileTree.slot, front, h.walk hs true]

/-- A change at the place that a path names is decided by what stands there. -/
theorem change (h : Agree root t t') (hs : root <:+ parent) (hp : ∀ n ∈ name :: parent, IsPlain n)
    {unnamed : Option Segment → HostFault} {f f' : Slot → Location → Except HostFault FileTree}
    (same : SameChange root (f ⟨parent, some (.name name), false⟩ (name :: parent))
      (f' ⟨parent, some (.name name), false⟩ (name :: parent))) :
    SameChange root
      (t.slot (pathTo (name :: parent)) >>= fun s => s.place unnamed >>= f s)
      (t'.slot (pathTo (name :: parent)) >>= fun s => s.place unnamed >>= f' s) := by
  rw [h.slot hs hp]
  cases hslot : t.slot (pathTo (name :: parent)) with
  | error fault => exact .refused fault
  | ok s =>
      obtain ⟨rfl, -, -⟩ := (h.rooted.slot_eq_ok hs hp).mp hslot
      cases hplace : Slot.place ⟨parent, some (.name name), false⟩ unnamed with
      | error fault =>
          simp only [bind, Except.bind, hplace]
          exact .refused fault
      | ok location =>
          obtain ⟨rfl, -⟩ := place_name_eq_ok.mp hplace
          simp only [bind, Except.bind, hplace]
          exact same

theorem makeDirectory (h : Agree root t t') (hs : root <:+ parent)
    (hp : ∀ n ∈ name :: parent, IsPlain n) :
    SameChange root (t.makeDirectory (pathTo (name :: parent)))
      (t'.makeDirectory (pathTo (name :: parent))) := by
  refine h.change hs hp ?_
  rw [h.same _ (hs.trans (List.suffix_cons ..))]
  cases t.get? (name :: parent) with
  | some entry => exact .refused .alreadyExists
  | none =>
      refine .done fun l inside => ?_
      rw [get?_insert _ (List.cons_ne_nil _ _), get?_insert _ (List.cons_ne_nil _ _), h.same l inside]

theorem removeDirectory (h : Agree root t t') (hs : root <:+ parent)
    (hp : ∀ n ∈ name :: parent, IsPlain n) :
    SameChange root (t.removeDirectory (pathTo (name :: parent)))
      (t'.removeDirectory (pathTo (name :: parent))) := by
  have below : root <:+ name :: parent := hs.trans (List.suffix_cons ..)
  refine h.change hs hp ?_
  rw [h.same _ below, (h.children below).isEmpty_eq]
  cases t.get? (name :: parent) with
  | none => exact .refused .noEntry
  | some entry =>
      cases entry with
      | file body => exact .refused .notDirectory
      | link target => exact .refused .notDirectory
      | directory =>
          dsimp only
          split
          · refine .done fun l inside => ?_
            rw [get?_erase _ (List.cons_ne_nil _ _), get?_erase _ (List.cons_ne_nil _ _), h.same l inside]
          · exact .refused .notEmpty

theorem removeFile (h : Agree root t t') (hs : root <:+ parent)
    (hp : ∀ n ∈ name :: parent, IsPlain n) :
    SameChange root (t.removeFile (pathTo (name :: parent)))
      (t'.removeFile (pathTo (name :: parent))) := by
  have erased : SameChange root (.ok (t.erase (name :: parent))) (.ok (t'.erase (name :: parent))) := by
    refine .done fun l inside => ?_
    rw [get?_erase _ (List.cons_ne_nil _ _), get?_erase _ (List.cons_ne_nil _ _), h.same l inside]
  refine h.change hs hp ?_
  rw [h.same _ (hs.trans (List.suffix_cons ..))]
  cases t.get? (name :: parent) with
  | none => exact .refused .noEntry
  | some entry =>
      cases entry with
      | directory => exact .refused .isDirectory
      | file body => exact erased
      | link target => exact erased

theorem moveFile (h : Agree root t t') (hs : root <:+ parent) (hp : ∀ n ∈ name :: parent, IsPlain n)
    (source : Location) (inside : root <:+ source) (hne : source ≠ []) :
    SameChange root (t.moveFile source (pathTo (name :: parent)))
      (t'.moveFile source (pathTo (name :: parent))) := by
  unfold FileTree.moveFile
  split
  · exact .refused .invalidArgument
  · refine h.change hs hp ?_
    rw [h.same _ (hs.trans (List.suffix_cons ..)), h.same _ inside]
    cases found : t.get? source with
    | none =>
        cases t.get? (name :: parent) with
        | none => exact .refused .noEntry
        | some other => cases other with
          | directory => exact .refused .isDirectory
          | file body => exact .refused .noEntry
          | link target => exact .refused .noEntry
    | some entry =>
        have moved : SameChange root (.ok ((t.erase source).insert (name :: parent) entry))
            (.ok ((t'.erase source).insert (name :: parent) entry)) := by
          refine .done fun l below => ?_
          rw [get?_insert _ (List.cons_ne_nil _ _), get?_insert _ (List.cons_ne_nil _ _),
            get?_erase _ hne, get?_erase _ hne, h.same l below]
        cases t.get? (name :: parent) with
        | none => exact moved
        | some other => cases other with
          | directory => exact .refused .isDirectory
          | file body => exact moved
          | link target => exact moved

/-- A file is staged under the same name in both trees. -/
theorem staged (h : Agree root t t') (hs : root <:+ parent) :
    freshStagingName ((t'.children parent).map (·.1)) =
      freshStagingName ((t.children parent).map (·.1)) :=
  freshStagingName_perm ((h.children hs).map _)

theorem replaceFile (h : Agree root t t') (hs : root <:+ parent)
    (hp : ∀ n ∈ name :: parent, IsPlain n) (body : Bytes) :
    SameEffect root (t.replaceFile (pathTo parent) (pathTo (name :: parent)) body)
      (t'.replaceFile (pathTo parent) (pathTo (name :: parent)) body) := by
  have opened := h.openDirectory hs fun n hn => hp n (List.mem_cons_of_mem _ hn)
  unfold FileTree.replaceFile stage
  rw [opened]
  cases ho : t.openDirectory (pathTo parent) with
  | error fault => exact ⟨rfl, h.same⟩
  | ok found =>
      obtain ⟨rfl, directory, -⟩ := (h.rooted.openDirectory_eq_ok hs fun n hn =>
        hp n (List.mem_cons_of_mem _ hn)).mp ho
      have vacant := get?_staged t found
      simp only [bind, Except.bind, h.staged hs]
      revert vacant
      generalize freshStagingName ((t.children found).map (·.1)) = fresh
      intro vacant
      cases checkText (pathTo found ++ ⟨fresh⟩) with
      | error fault => exact ⟨rfl, h.same⟩
      | ok =>
          simp only [pure, Except.pure, insert_insert]
          -- the staged file stands at one place in both trees, so moving it is one change of each
          have written : Agree root (t.insert (fresh :: found) (.file body))
              (t'.insert (fresh :: found) (.file body)) :=
            h.insert (isBelow_cons.mpr hs) directory (by simp) (.inr (by simp [vacant]))
          have moved := written.moveFile hs hp (fresh :: found)
            (hs.trans (List.suffix_cons ..)) (List.cons_ne_nil _ _)
          generalize FileTree.moveFile (t.insert _ _) _ _ = result at moved
          generalize FileTree.moveFile (t'.insert _ _) _ _ = result' at moved
          cases moved with
          | refused fault =>
              refine ⟨rfl, fun l inside => ?_⟩
              simp only [get?_erase _ (List.cons_ne_nil fresh found), written.same l inside]
          | done same => exact ⟨rfl, same⟩

end Agree

end Strongroom.FileTree
