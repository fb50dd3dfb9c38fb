import Strongroom.Proofs.FileTree.Rooted
import Strongroom.Proofs.FileTree.Staging
import Strongroom.Proofs.Outcome
import Strongroom.Quota
/-!
# What the host does without links

In a part of a tree that holds no links, each call of the host on a path of plain names succeeds
exactly if the path is short enough and the right things stand at its location and its parent's, and
a call that is refused leaves the tree as it was.
-/

namespace Strongroom.FileTree

open Strongroom.Path

/-! ## Texts that the host takes -/

/-- A location whose path and whose names are short enough, without a NUL. -/
structure Addressable (location : Location) : Prop where
  text : checkText (pathTo location) = .ok ()
  names : ∀ name ∈ location, name.utf8ByteSize ≤ maxNameBytes

theorem checkText_eq_ok {p : Path} :
    checkText p = .ok () ↔
      '\x00' ∉ p.text.toList ∧ p.text ≠ "" ∧ p.text.utf8ByteSize ≤ maxPathBytes := by
  unfold checkText
  split
  · simp_all
  · split
    · simp_all
    · split
      · simp_all
      · simp_all

/-- Only the empty path is refused as missing. -/
theorem checkText_ne_noEntry {p : Path} (hne : p.text ≠ "") : checkText p ≠ .error .noEntry := by
  unfold checkText
  rw [if_neg hne]
  split
  · simp
  · split <;> simp

theorem text_pathTo_cons (name : Name) (parent : Location) :
    (pathTo (name :: parent)).text =
      (pathTo parent).text ++ if parent = [] then name else "/" ++ name := by
  by_cases hp : parent = []
  · subst hp
    rfl
  · rw [if_neg hp]
    simp only [pathTo, List.reverse_cons, String.append_assoc,
      paste_append_singleton (fun he => hp (List.reverse_eq_nil_iff.mp he))]

/-- The parent of a path that the host takes is one that it takes. -/
theorem checkText_parent {name : Name} {parent : Location}
    (h : checkText (pathTo (name :: parent)) = .ok ()) : checkText (pathTo parent) = .ok () := by
  obtain ⟨nul, -, size⟩ := checkText_eq_ok.mp h
  rw [text_pathTo_cons] at nul size
  rw [String.toList_append, List.mem_append, not_or] at nul
  rw [String.utf8ByteSize_append] at size
  exact checkText_eq_ok.mpr ⟨nul.1, pathTo_ne_empty parent, by omega⟩

theorem Addressable.parent {name : Name} {parent : Location} (h : Addressable (name :: parent)) :
    Addressable parent :=
  ⟨checkText_parent h.text, fun n hn => h.names n (List.mem_cons_of_mem _ hn)⟩

/-! ## Queries -/

section

variable {t : FileTree} {top location : Location}

/-- The path of plain names is walked name by name. -/
theorem locate_pathTo (hp : ∀ n ∈ location, IsPlain n) (follow : Bool) :
    t.locate follow (pathTo location) =
      checkText (pathTo location) >>= fun _ =>
        t.walk follow maxLinks [] (location.reverse.map .name) := by
  have plain : ∀ n ∈ location.reverse, IsPlain n := fun n hn => hp n (List.mem_reverse.mp hn)
  have walked : t.walk follow maxLinks [] (through (pathTo location)) =
      t.walk follow maxLinks [] (location.reverse.map .name) := by
    rw [through, pathTo_eq, endsInSlash_absolute plain, segments_absolute plain]
    by_cases hl : location = []
    · subst hl
      simp [maxLinks, walk, walkWith, get?]
    · simp [hl]
  rw [locate, walked]

theorem Rooted.locate_eq_ok (h : Rooted t top) (hs : top <:+ location)
    (hp : ∀ n ∈ location, IsPlain n) {follow : Bool} {found : Location} {entry : Entry} :
    t.locate follow (pathTo location) = .ok (found, entry) ↔
      found = location ∧ t.get? location = some entry ∧ Addressable location := by
  rw [locate_pathTo hp, bind_eq_ok]
  constructor
  · rintro ⟨⟨⟩, text, hw⟩
    obtain ⟨rfl, he, sizes⟩ := (h.walkWith_eq_ok hs).mp hw
    exact ⟨rfl, he, text, sizes⟩
  · rintro ⟨rfl, he, text, sizes⟩
    exact ⟨(), text, (h.walkWith_eq_ok hs).mpr ⟨rfl, he, sizes⟩⟩

theorem Rooted.openDirectory_eq_ok (h : Rooted t top) (hs : top <:+ location)
    (hp : ∀ n ∈ location, IsPlain n) {found : Location} :
    t.openDirectory (pathTo location) = .ok found ↔
      found = location ∧ t.get? location = some .directory ∧ Addressable location := by
  rw [openDirectory, bind_eq_ok]
  constructor
  · rintro ⟨⟨place, entry⟩, hl, he⟩
    obtain ⟨rfl, hg, ha⟩ := (h.locate_eq_ok hs hp).mp hl
    cases entry with
    | directory => exact ⟨(Except.ok.inj he).symm, hg, ha⟩
    | file body => cases he
    | link target => cases he
  · rintro ⟨rfl, hg, ha⟩
    exact ⟨_, (h.locate_eq_ok hs hp).mpr ⟨rfl, hg, ha⟩, rfl⟩

theorem Rooted.readDirectory_eq_ok (h : Rooted t top) (hs : top <:+ location)
    (hp : ∀ n ∈ location, IsPlain n) {children : List (Name × Entry)} :
    t.readDirectory (pathTo location) = .ok children ↔
      children = t.children location ∧ t.get? location = some .directory ∧ Addressable location := by
  rw [readDirectory, bind_eq_ok]
  constructor
  · rintro ⟨found, ho, hc⟩
    obtain ⟨rfl, hg, ha⟩ := (h.openDirectory_eq_ok hs hp).mp ho
    exact ⟨(Except.ok.inj hc).symm, hg, ha⟩
  · rintro ⟨rfl, hg, ha⟩
    exact ⟨location, (h.openDirectory_eq_ok hs hp).mpr ⟨rfl, hg, ha⟩, rfl⟩

end

/-! ## Changes to one place -/

section

variable {t t' : FileTree} {top parent : Location} {name : Name}

/-- The path of these names stands for the place below this directory, if the host takes it. -/
def Names (t : FileTree) (parent : Location) (name : Name) : Prop :=
  ∀ s, t.slot (pathTo (name :: parent)) = .ok s ↔
    s = ⟨parent, some (.name name), false⟩ ∧ t.get? parent = some .directory ∧
      checkText (pathTo (name :: parent)) = .ok () ∧ ∀ n ∈ parent, n.utf8ByteSize ≤ maxNameBytes

/-- Names stand for a place if the names before the last one lead to where they say. -/
theorem names_of_walk (hp : ∀ n ∈ name :: parent, IsPlain n)
    (walked : ∀ found entry, t.walk true maxLinks [] (parent.reverse.map .name) = .ok (found, entry) ↔
      found = parent ∧ t.get? parent = some entry ∧ ∀ n ∈ parent, n.utf8ByteSize ≤ maxNameBytes) :
    t.Names parent name := by
  intro s
  have plain : ∀ n ∈ (name :: parent).reverse, IsPlain n := fun n hn => hp n (List.mem_reverse.mp hn)
  have front : (segments (pathTo (name :: parent))).dropLast = parent.reverse.map .name := by
    rw [pathTo_eq, segments_absolute plain]
    simp
  have last : (segments (pathTo (name :: parent))).getLast? = some (.name name) := by
    rw [pathTo_eq, segments_absolute plain]
    simp
  have slash : endsInSlash (pathTo (name :: parent)) = false := by
    rw [pathTo_eq, endsInSlash_absolute plain]
    simp
  simp only [slot, bind_eq_ok, front, last, slash]
  constructor
  · rintro ⟨⟨⟩, text, ⟨found, entry⟩, hw, hd⟩
    obtain ⟨rfl, hg, sizes⟩ := (walked found entry).mp hw
    cases entry with
    | directory => exact ⟨(Except.ok.inj hd).symm, hg, text, sizes⟩
    | file body => cases hd
    | link target => cases hd
  · rintro ⟨rfl, hg, text, sizes⟩
    exact ⟨(), text, (parent, .directory), (walked _ _).mpr ⟨rfl, hg, sizes⟩, rfl⟩

theorem Rooted.names (h : Rooted t top) (hs : top <:+ parent) (hp : ∀ n ∈ name :: parent, IsPlain n) :
    t.Names parent name :=
  names_of_walk hp fun _ _ => h.walkWith_eq_ok hs

theorem Rooted.slot_eq_ok (h : Rooted t top) (hs : top <:+ parent)
    (hp : ∀ n ∈ name :: parent, IsPlain n) {s : Slot} :
    t.slot (pathTo (name :: parent)) = .ok s ↔
      s = ⟨parent, some (.name name), false⟩ ∧ t.get? parent = some .directory ∧
      checkText (pathTo (name :: parent)) = .ok () ∧
      ∀ n ∈ parent, n.utf8ByteSize ≤ maxNameBytes :=
  h.names hs hp s

theorem place_name_eq_ok {slash : Bool} {unnamed : Option Segment → HostFault}
    {location : Location} :
    Slot.place ⟨parent, some (.name name), slash⟩ unnamed = .ok location ↔
      location = name :: parent ∧ name.utf8ByteSize ≤ maxNameBytes := by
  simp only [Slot.place]
  split
  · rename_i long
    simp [Nat.not_le.mpr long]
  · rename_i short
    rw [Except.ok.injEq, eq_comm, and_iff_left (Nat.not_lt.mp short)]

/-- What a slot and its place ask for, taken together. -/
theorem addressable_cons :
    Addressable (name :: parent) ↔
      (checkText (pathTo (name :: parent)) = .ok () ∧ ∀ n ∈ parent, n.utf8ByteSize ≤ maxNameBytes) ∧
        name.utf8ByteSize ≤ maxNameBytes := by
  constructor
  · intro h
    exact ⟨⟨h.text, fun n hn => h.names n (List.mem_cons_of_mem _ hn)⟩,
      h.names name (List.mem_cons_self ..)⟩
  · rintro ⟨⟨text, sizes⟩, short⟩
    refine ⟨text, fun n hn => ?_⟩
    rcases List.mem_cons.mp hn with rfl | hn
    · exact short
    · exact sizes n hn

theorem Names.makeDirectory_eq_ok (h : t.Names parent name) :
    t.makeDirectory (pathTo (name :: parent)) = .ok t' ↔
      t.get? parent = some .directory ∧ Addressable (name :: parent) ∧
        t.get? (name :: parent) = none ∧ t' = t.insert (name :: parent) .directory := by
  simp only [makeDirectory, bind_eq_ok]
  constructor
  · rintro ⟨s, hslot, location, hl, ht⟩
    obtain ⟨rfl, hg, taken⟩ := (h s).mp hslot
    obtain ⟨rfl, short⟩ := place_name_eq_ok.mp hl
    cases hn : t.get? (name :: parent) with
    | some entry => simp [hn, throw, throwThe, MonadExceptOf.throw] at ht
    | none =>
        rw [hn] at ht
        exact ⟨hg, addressable_cons.mpr ⟨taken, short⟩, rfl, (Except.ok.inj ht).symm⟩
  · rintro ⟨hg, ha, hn, rfl⟩
    obtain ⟨taken, short⟩ := addressable_cons.mp ha
    exact ⟨_, (h _).mpr ⟨rfl, hg, taken⟩, _, place_name_eq_ok.mpr ⟨rfl, short⟩, by rw [hn]; rfl⟩

theorem Names.removeDirectory_eq_ok (h : t.Names parent name)
    (hg : t.get? (name :: parent) = some .directory → t.get? parent = some .directory) :
    t.removeDirectory (pathTo (name :: parent)) = .ok t' ↔
      Addressable (name :: parent) ∧ t.get? (name :: parent) = some .directory ∧
        t.children (name :: parent) = [] ∧ t' = t.erase (name :: parent) := by
  simp only [removeDirectory, bind_eq_ok]
  constructor
  · rintro ⟨s, hslot, location, hl, ht⟩
    obtain ⟨rfl, -, taken⟩ := (h s).mp hslot
    obtain ⟨rfl, short⟩ := place_name_eq_ok.mp hl
    cases hn : t.get? (name :: parent) with
    | none => simp [hn, throw, throwThe, MonadExceptOf.throw] at ht
    | some entry =>
        cases entry with
        | file body => simp [hn, throw, throwThe, MonadExceptOf.throw] at ht
        | link target => simp [hn, throw, throwThe, MonadExceptOf.throw] at ht
        | directory =>
            simp only [hn] at ht
            split at ht
            · rename_i empty
              exact ⟨addressable_cons.mpr ⟨taken, short⟩, rfl, List.isEmpty_iff.mp empty,
                (Except.ok.inj ht).symm⟩
            · cases ht
  · rintro ⟨ha, hn, hc, rfl⟩
    obtain ⟨taken, short⟩ := addressable_cons.mp ha
    exact ⟨_, (h _).mpr ⟨rfl, hg hn, taken⟩, _, place_name_eq_ok.mpr ⟨rfl, short⟩, by rw [hn, hc]; rfl⟩

theorem Rooted.makeDirectory_eq_ok (h : Rooted t top) (hs : top <:+ parent)
    (hp : ∀ n ∈ name :: parent, IsPlain n) :
    t.makeDirectory (pathTo (name :: parent)) = .ok t' ↔
      t.get? parent = some .directory ∧ Addressable (name :: parent) ∧
        t.get? (name :: parent) = none ∧ t' = t.insert (name :: parent) .directory :=
  (h.names hs hp).makeDirectory_eq_ok

theorem Rooted.removeDirectory_eq_ok (h : Rooted t top) (hs : top <:+ parent)
    (hp : ∀ n ∈ name :: parent, IsPlain n) :
    t.removeDirectory (pathTo (name :: parent)) = .ok t' ↔
      Addressable (name :: parent) ∧ t.get? (name :: parent) = some .directory ∧
        t.children (name :: parent) = [] ∧ t' = t.erase (name :: parent) :=
  (h.names hs hp).removeDirectory_eq_ok fun hn =>
    h.directory_above (hs.trans (List.suffix_cons ..)) hn (List.suffix_cons ..) (by simp)

theorem Rooted.removeFile_eq_ok (h : Rooted t top) (hs : top <:+ parent)
    (hp : ∀ n ∈ name :: parent, IsPlain n) :
    t.removeFile (pathTo (name :: parent)) = .ok t' ↔
      Addressable (name :: parent) ∧ (∃ body, t.get? (name :: parent) = some (.file body)) ∧
        t' = t.erase (name :: parent) := by
  simp only [removeFile, bind_eq_ok]
  constructor
  · rintro ⟨s, hslot, location, hl, ht⟩
    obtain ⟨rfl, -, taken⟩ := (h.slot_eq_ok hs hp).mp hslot
    obtain ⟨rfl, short⟩ := place_name_eq_ok.mp hl
    cases hn : t.get? (name :: parent) with
    | none => simp [hn, throw, throwThe, MonadExceptOf.throw] at ht
    | some entry =>
        cases entry with
        | directory => simp [hn, throw, throwThe, MonadExceptOf.throw] at ht
        | link target => exact absurd hn (h.not_link (hs.trans (List.suffix_cons ..)) target)
        | file body =>
            rw [hn] at ht
            exact ⟨addressable_cons.mpr ⟨taken, short⟩, ⟨body, rfl⟩, (Except.ok.inj ht).symm⟩
  · rintro ⟨ha, ⟨body, hn⟩, rfl⟩
    obtain ⟨taken, short⟩ := addressable_cons.mp ha
    have hg : t.get? parent = some .directory :=
      h.directory_above (hs.trans (List.suffix_cons ..)) hn (List.suffix_cons ..) (by simp)
    exact ⟨_, (h.slot_eq_ok hs hp).mpr ⟨rfl, hg, taken⟩, _, place_name_eq_ok.mpr ⟨rfl, short⟩,
      by rw [hn]; rfl⟩

/-! ## Changes in several steps -/

theorem Rooted.moveFile_eq_ok (h : Rooted t top) (hs : top <:+ parent)
    (hp : ∀ n ∈ name :: parent, IsPlain n) {source : Location} :
    t.moveFile source (pathTo (name :: parent)) = .ok t' ↔
      Addressable (name :: parent) ∧ t.get? parent = some .directory ∧
        t.get? (name :: parent) ≠ some .directory ∧
        ∃ entry, t.get? source = some entry ∧ t' = (t.erase source).insert (name :: parent) entry := by
  constructor
  · intro hm
    unfold moveFile at hm
    split at hm
    · cases hm
    · simp only [bind_eq_ok] at hm
      obtain ⟨s, hslot, location, hl, hm⟩ := hm
      obtain ⟨rfl, hg, taken⟩ := (h.slot_eq_ok hs hp).mp hslot
      obtain ⟨rfl, short⟩ := place_name_eq_ok.mp hl
      refine ⟨addressable_cons.mpr ⟨taken, short⟩, hg, ?_⟩
      simp only [Bool.false_eq_true, if_false] at hm
      split at hm
      · cases hm
      · rename_i entry he hd
        exact ⟨fun hc => hd hc, entry, he, (Except.ok.inj hm).symm⟩
      · cases hm
  · rintro ⟨ha, hg, hd, entry, he, rfl⟩
    obtain ⟨taken, short⟩ := addressable_cons.mp ha
    have nul : ¬ (pathTo (name :: parent)).text.toList.contains '\x00' = true := by
      simpa using (checkText_eq_ok.mp ha.text).1
    have slot := (h.slot_eq_ok hs hp).mpr ⟨rfl, hg, taken⟩
    simp only [moveFile, if_neg nul, slot, ok_bind, place_name_eq_ok.mpr ⟨rfl, short⟩, he,
      Bool.false_eq_true, if_false, pure_eq_ok]

/-- A directory is removed with everything below it. -/
theorem Rooted.removeAll_eq (h : Rooted t top) (hs : top <:+ parent)
    (hp : ∀ n ∈ name :: parent, IsPlain n) (hd : t.get? (name :: parent) = some .directory)
    (ha : Addressable (name :: parent)) :
    t.removeAll (pathTo (name :: parent)) =
      (.ok (), (t.clear (name :: parent)).erase (name :: parent)) := by
  have below : top <:+ name :: parent := hs.trans (List.suffix_cons ..)
  have located : t.locate false (pathTo (name :: parent)) = .ok (name :: parent, .directory) :=
    (h.locate_eq_ok below hp).mpr ⟨rfl, hd, ha⟩
  have kept : (t.clear (name :: parent)).get? (name :: parent) = some .directory := by
    rw [get?_clear, if_neg fun hb => (isBelow_iff.mp hb).2 rfl, hd]
  have removed : (t.clear (name :: parent)).removeDirectory (pathTo (name :: parent)) =
      .ok ((t.clear (name :: parent)).erase (name :: parent)) :=
    ((h.clear below).removeDirectory_eq_ok hs hp).mpr ⟨ha, kept, children_clear, rfl⟩
  simp only [removeAll, located, removed]

/-- The walk over a directory counts the bytes of all files below it. -/
theorem Rooted.meter_walk_eq {location : Location} (h : Rooted t top) (hs : top <:+ location)
    (hp : ∀ n ∈ location, IsPlain n) (hd : t.get? location = some .directory)
    (ha : Addressable location) :
    Meter.walk t (pathTo location) = .ok (saturate (t.bytesBelow location)) := by
  have located (follow : Bool) : t.locate follow (pathTo location) = .ok (location, .directory) :=
    (h.locate_eq_ok hs hp).mpr ⟨rfl, hd, ha⟩
  have found : t.pathExists (pathTo location) = true := by
    simp [pathExists, located, Except.isOk, Except.toBool]
  rw [Meter.walk, if_pos found, located]

end

end Strongroom.FileTree
