import Strongroom.Proofs.FileTree.Calls
import Strongroom.Proofs.FileTree.Measures
import Strongroom.Proofs.Path.NormalForm
/-!
# What decides a call of the host

Below a directory without links, what stands at a place and at its parent decides whether a call of
the host at that place succeeds, and with which fault it is refused.
-/

namespace Strongroom.FileTree

open Strongroom.Path

variable {t : FileTree} {top parent location : Location} {name : Name}

/-! ## Nothing at a place -/

/-- Names that lead through directories lead on to whatever comes after them. -/
theorem walkWith_directories {onLink : Location → List Segment → Arrival} {follow : Bool}
    (through : ∀ above, above <:+ location → t.get? above = some .directory)
    (sizes : ∀ n ∈ location, n.utf8ByteSize ≤ maxNameBytes) (more : List Segment) :
    t.walkWith onLink follow [] (location.reverse.map .name ++ more) =
      t.walkWith onLink follow location more := by
  induction location generalizing more with
  | nil => rfl
  | cons name parent ih =>
      have above := through parent (List.suffix_cons ..)
      have here := through (name :: parent) (List.suffix_refl _)
      have short := Nat.not_lt.mpr (sizes name (List.mem_cons_self ..))
      rw [List.reverse_cons, List.map_append, List.append_assoc,
        ih (fun l hl => through l (hl.trans (List.suffix_cons ..)))
          fun n hn => sizes n (List.mem_cons_of_mem _ hn)]
      simp only [List.map_cons, List.map_nil, List.singleton_append, walkWith, above, if_neg short, here]

/-- A missing entry of a directory is reported as missing. -/
theorem Rooted.locate_eq_noEntry (h : Rooted t top) (hs : top <:+ parent)
    (hp : ∀ n ∈ name :: parent, IsPlain n) (hd : t.get? parent = some .directory)
    (hn : t.get? (name :: parent) = none) (ha : Addressable (name :: parent)) (follow : Bool) :
    t.locate follow (pathTo (name :: parent)) = .error .noEntry := by
  have plain : ∀ n ∈ (name :: parent).reverse, IsPlain n := fun n hn => hp n (List.mem_reverse.mp hn)
  have directories : ∀ above, above <:+ parent → t.get? above = some .directory := by
    intro above ha
    by_cases he : above = parent
    · rw [he, hd]
    · exact h.directory_above hs hd ha he
  have names : through (pathTo (name :: parent)) = parent.reverse.map .name ++ [.name name] := by
    rw [through, pathTo_eq, endsInSlash_absolute plain, segments_absolute plain]
    simp
  have short : ¬ maxNameBytes < name.utf8ByteSize :=
    Nat.not_lt.mpr (ha.names name (List.mem_cons_self ..))
  rw [locate, ha.text, ok_bind, names, maxLinks, walk,
    walkWith_directories directories fun n hn => ha.names n (List.mem_cons_of_mem _ hn)]
  simp only [walkWith, hd, if_neg short, hn]

/-- Nothing stands below a place where nothing stands. -/
theorem Rooted.children_of_vacant (h : Rooted t top) (hs : top <:+ location)
    (hn : t.get? location = none) : t.children location = [] := by
  rw [List.eq_nil_iff_forall_not_mem]
  rintro ⟨name, entry⟩ hm
  have directory : t.get? location = some .directory :=
    h.parents (name :: location, entry) (mem_below.mpr ⟨mem_children.mp hm, isBelow_cons.mpr hs⟩)
  rw [hn] at directory
  cases directory

theorem Rooted.children_insert_of_vacant (h : Rooted t top) (hs : top <:+ name :: parent)
    (hn : t.get? (name :: parent) = none) {entry : Entry} :
    (t.insert (name :: parent) entry).children (name :: parent) = [] := by
  rw [children_insert, if_neg (by simp), List.nil_append, erase_of_vacant (List.cons_ne_nil _ _) hn,
    h.children_of_vacant hs hn]

/-! ## Directories -/

theorem Rooted.isDirectory_iff (h : Rooted t top) (hs : top <:+ location)
    (hp : ∀ n ∈ location, IsPlain n) (ha : Addressable location) :
    t.isDirectory (pathTo location) = true ↔ t.get? location = some .directory := by
  constructor
  · intro hd
    unfold isDirectory at hd
    split at hd
    · rename_i found located
      exact ((h.locate_eq_ok hs hp).mp located).2.1
    · cases hd
  · intro hd
    rw [isDirectory, (h.locate_eq_ok hs hp).mpr ⟨rfl, hd, ha⟩]

/-- A directory that holds something stays. -/
theorem Rooted.removeDirectory_notEmpty (h : Rooted t top) (hs : top <:+ parent)
    (hp : ∀ n ∈ name :: parent, IsPlain n) (hd : t.get? (name :: parent) = some .directory)
    (ha : Addressable (name :: parent)) (hc : t.children (name :: parent) ≠ []) :
    t.removeDirectory (pathTo (name :: parent)) = .error .notEmpty := by
  obtain ⟨taken, short⟩ := addressable_cons.mp ha
  have above : t.get? parent = some .directory :=
    h.directory_above (hs.trans (List.suffix_cons ..)) hd (List.suffix_cons ..) (by simp)
  have full : ¬ (t.children (name :: parent)).isEmpty = true := fun he => hc (List.isEmpty_iff.mp he)
  simp only [removeDirectory, (h.slot_eq_ok hs hp).mpr ⟨rfl, above, taken⟩, ok_bind,
    place_name_eq_ok.mpr ⟨rfl, short⟩, hd, if_neg full, throw_eq_error]

/-! ## Staged files -/

/-- The place at which a file is staged in a directory. -/
def stagedIn (t : FileTree) (parent : Location) : Location :=
  freshStagingName ((t.children parent).map (·.1)) :: parent

theorem mem_stagingName {c : Char} {n : Nat} (h : c ∈ (stagingName n).toList) :
    c ∈ ".tmp".toList ∨ c.isDigit = true := by
  rw [toList_stagingName, List.mem_append, List.mem_append] at h
  rcases h with (hm | hm) | hm
  · exact .inl hm
  · exact .inr ((List.mem_replicate.mp hm).2 ▸ rfl)
  · exact .inr (Nat.isDigit_of_mem_toDigits (by decide) (by decide) hm)

theorem isPlain_stagingName (n : Nat) : IsPlain (stagingName n) := by
  have slash : '/' ∉ (stagingName n).toList := fun hm => absurd (mem_stagingName hm) (by decide)
  have long : 4 ≤ (stagingName n).toList.length := by simp [toList_stagingName]
  refine ⟨?_, ?_, ?_, slash⟩
  all_goals
    intro he
    rw [he] at long
    exact absurd long (by decide)

theorem nul_not_mem_stagingName (n : Nat) : '\x00' ∉ (stagingName n).toList := fun hm =>
  absurd (mem_stagingName hm) (by decide)

theorem exists_freshStagingName (taken : List Name) : ∃ n, freshStagingName taken = stagingName n := by
  unfold freshStagingName
  split
  · exact ⟨_, rfl⟩
  · exact ⟨_, rfl⟩

/-- A file is staged in a directory if there is room for its path. -/
theorem Rooted.stage_eq (h : Rooted t top) (hs : top <:+ parent) (hp : ∀ n ∈ parent, IsPlain n)
    (hd : t.get? parent = some .directory) (ha : Addressable parent)
    (room : (pathTo (t.stagedIn parent)).text.utf8ByteSize ≤ maxPathBytes) :
    t.stage (pathTo parent) = .ok (t.stagedIn parent, t.insert (t.stagedIn parent) (.file [])) := by
  have opened : t.openDirectory (pathTo parent) = .ok parent :=
    (h.openDirectory_eq_ok hs hp).mpr ⟨rfl, hd, ha⟩
  rw [stage, opened, ok_bind, stagedIn]
  rw [stagedIn] at room
  obtain ⟨n, fresh⟩ := exists_freshStagingName ((t.children parent).map (·.1))
  rw [fresh] at room ⊢
  have joined : pathTo parent ++ (⟨stagingName n⟩ : Path) = pathTo (stagingName n :: parent) := by
    rw [pathTo_eq, pathTo_eq, List.reverse_cons]
    exact absolute_append (fun n hn => hp n (List.mem_reverse.mp hn)) (isPlain_stagingName n)
  have nul : '\x00' ∉ (pathTo (stagingName n :: parent)).text.toList := by
    rw [text_pathTo_cons, String.toList_append, List.mem_append, not_or]
    refine ⟨(checkText_eq_ok.mp ha.text).1, ?_⟩
    split
    · exact nul_not_mem_stagingName n
    · simp [nul_not_mem_stagingName n]
  dsimp only
  rw [joined, checkText_eq_ok.mpr ⟨nul, pathTo_ne_empty _, room⟩]
  rfl

/-- A file is replaced if its directory is there, no directory is in the way, and there is room for
the staged one. -/
theorem Rooted.replaceFile_eq (h : Rooted t top) (hs : top <:+ parent)
    (hp : ∀ n ∈ name :: parent, IsPlain n) (hd : t.get? parent = some .directory)
    (hn : t.get? (name :: parent) ≠ some .directory) (ha : Addressable (name :: parent))
    (room : (pathTo (t.stagedIn parent)).text.utf8ByteSize ≤ maxPathBytes) (body : Bytes) :
    t.replaceFile (pathTo parent) (pathTo (name :: parent)) body =
      (.ok (), t.insert (name :: parent) (.file body)) := by
  have staged := h.stage_eq hs (fun n hn => hp n (List.mem_cons_of_mem _ hn)) hd ha.parent room
  have ne : t.stagedIn parent ≠ [] := List.cons_ne_nil _ _
  have vacant : t.get? (t.stagedIn parent) = none := get?_staged t parent
  have above : (t.stagedIn parent).tail = parent := rfl
  have rooted : Rooted (t.insert (t.stagedIn parent) (.file body)) top :=
    h.insert (isBelow_cons.mpr hs) (above ▸ hd) (by simp) (.inr (by simp [vacant]))
  have away : parent ≠ t.stagedIn parent := by
    intro he
    simpa [stagedIn] using congrArg List.length he
  have free : (t.insert (t.stagedIn parent) (.file body)).get? (name :: parent) ≠ some .directory := by
    rw [get?_insert t ne]
    split
    · simp
    · exact hn
  have moved := (rooted.moveFile_eq_ok hs hp).mpr ⟨ha, (get?_insert_of_ne ne away).trans hd, free,
    .file body, get?_insert_self ne, rfl⟩
  simp only [replaceFile, staged, insert_insert, moved, erase_insert_of_vacant ne vacant]

end Strongroom.FileTree
