import Strongroom.FileTree.Calls
import Strongroom.Proofs.FileTree.Entries
import Strongroom.Proofs.Path.Pieces
/-!
# Trees without links

A directory that is reached without links, and below which only directories and files stand, each
in a directory.  In such a part of a tree a path of plain names leads to the location of the same
names and nowhere else.
-/

namespace Strongroom.FileTree

open Strongroom.Path

/-- At `top` stands a directory that no link leads to, and below it everything stands in a
directory and nothing is a link. -/
structure Rooted (t : FileTree) (top : Location) : Prop where
  plain : ∀ name ∈ top, IsPlain name
  ancestors : ∀ above, above <:+ top → t.get? above = some .directory
  parents : ∀ item ∈ t.below top, t.get? item.1.tail = some .directory
  links : ∀ item ∈ t.below top, ∀ target, item.2 ≠ .link target

namespace Rooted

variable {t : FileTree} {top location : Location} {entry : Entry}

theorem directory (h : Rooted t top) : t.get? top = some .directory :=
  h.ancestors top (List.suffix_refl _)

theorem parent (h : Rooted t top) (hb : isBelow top location = true)
    (he : t.get? location = some entry) : t.get? location.tail = some .directory :=
  h.parents (location, entry)
    (mem_below.mpr ⟨mem_of_get? (ne_nil_of_isBelow hb) he, hb⟩)

theorem not_link (h : Rooted t top) (hs : top <:+ location) (target : Path) :
    t.get? location ≠ some (.link target) := by
  intro he
  by_cases ht : location = top
  · rw [ht, h.directory] at he
    cases he
  · have hb := isBelow_iff.mpr ⟨hs, ht⟩
    exact h.links (location, .link target)
      (mem_below.mpr ⟨mem_of_get? (ne_nil_of_isBelow hb) he, hb⟩) target rfl

/-- Everything above an entry is a directory. -/
theorem directory_above (h : Rooted t top) (hs : top <:+ location)
    (he : t.get? location = some entry) {above : Location} (ha : above <:+ location)
    (hne : above ≠ location) : t.get? above = some .directory := by
  induction location generalizing entry with
  | nil => exact absurd (List.suffix_nil.mp ha) hne
  | cons name parent ih =>
      by_cases ht : name :: parent = top
      · exact h.ancestors above (ht ▸ ha)
      · have hb := isBelow_iff.mpr ⟨hs, ht⟩
        have directory : t.get? parent = some .directory := h.parent hb he
        rcases List.suffix_cons_iff.mp ha with rfl | ha
        · exact absurd rfl hne
        · by_cases hp : above = parent
          · rw [hp, directory]
          · exact ih (isBelow_cons.mp hb) directory ha hp

theorem not_link_above (h : Rooted t top) (hs : top <:+ location) {above : Location}
    (ha : above <:+ location) (target : Path) : t.get? above ≠ some (.link target) := by
  rcases List.suffix_or_suffix_of_suffix ha hs with hat | hta
  · rw [h.ancestors above hat]
    simp
  · exact h.not_link hta target

/-! ## Changes -/

/-- A directory or a file may be put into a directory below `top`, but no file over a directory. -/
theorem insert (h : Rooted t top) (hb : isBelow top location = true)
    (hp : t.get? location.tail = some .directory) (hl : ∀ target, entry ≠ .link target)
    (hd : entry = .directory ∨ t.get? location ≠ some .directory) :
    Rooted (t.insert location entry) top := by
  have hne := ne_nil_of_isBelow hb
  have hs := isBelow_iff.mp hb
  have tail : location.tail ≠ location := by
    cases location with
    | nil => exact absurd rfl hne
    | cons name parent => simp
  refine ⟨h.plain, fun above ha => ?_, fun item hi => ?_, fun item hi => ?_⟩
  · have away : above ≠ location := by
      rintro rfl
      exact hs.2 (hs.1.eq_of_length (Nat.le_antisymm hs.1.length_le ha.length_le)).symm
    rw [get?_insert_of_ne hne away, h.ancestors above ha]
  · obtain ⟨hi, hbi⟩ := mem_below.mp hi
    rcases mem_entries_insert.mp hi with rfl | ⟨hi, -⟩
    · rw [get?_insert_of_ne hne tail, hp]
    · have directory := h.parents item (mem_below.mpr ⟨hi, hbi⟩)
      by_cases he : item.1.tail = location
      · rw [he] at directory ⊢
        rw [get?_insert_self hne, hd.resolve_right (fun n => n directory)]
      · rw [get?_insert_of_ne hne he, directory]
  · obtain ⟨hi, hbi⟩ := mem_below.mp hi
    rcases mem_entries_insert.mp hi with rfl | ⟨hi, -⟩
    · exact hl
    · exact h.links item (mem_below.mpr ⟨hi, hbi⟩)

/-- What holds nothing may be taken away from below `top`. -/
theorem erase (h : Rooted t top) (hb : isBelow top location = true)
    (hc : t.children location = [] ∨ t.get? location ≠ some .directory) :
    Rooted (t.erase location) top := by
  have hne := ne_nil_of_isBelow hb
  have hs := isBelow_iff.mp hb
  refine ⟨h.plain, fun above ha => ?_, fun item hi => ?_, fun item hi => ?_⟩
  · have away : above ≠ location := by
      rintro rfl
      exact hs.2 (hs.1.eq_of_length (Nat.le_antisymm hs.1.length_le ha.length_le)).symm
    rw [get?_erase_of_ne hne away, h.ancestors above ha]
  · obtain ⟨hi, hbi⟩ := mem_below.mp hi
    have kept := (mem_entries_erase.mp hi).1
    have directory := h.parents item (mem_below.mpr ⟨kept, hbi⟩)
    have away : item.1.tail ≠ location := by
      intro he
      rcases hc with hc | hc
      · obtain ⟨key, e⟩ := item
        cases key with
        | nil => exact ne_nil_of_isBelow hbi rfl
        | cons name parent =>
            obtain rfl : parent = location := he
            have := mem_children.mpr kept
            rw [hc] at this
            cases this
      · exact hc (he ▸ directory)
    rw [get?_erase_of_ne hne away, directory]
  · obtain ⟨hi, hbi⟩ := mem_below.mp hi
    exact h.links item (mem_below.mpr ⟨(mem_entries_erase.mp hi).1, hbi⟩)

/-- A location at or below `top` may be cleared of all that stands below it. -/
theorem clear (h : Rooted t top) (hs : top <:+ location) : Rooted (t.clear location) top := by
  refine ⟨h.plain, fun above ha => ?_, fun item hi => ?_, fun item hi => ?_⟩
  · have away : ¬ isBelow location above = true := by
      intro hb
      obtain ⟨hl, hne⟩ := isBelow_iff.mp hb
      have := (ha.trans hs).length_le
      exact hne (hl.eq_of_length (Nat.le_antisymm hl.length_le this)).symm
    rw [get?_clear, if_neg away, h.ancestors above ha]
  · obtain ⟨hi, hbi⟩ := mem_below.mp hi
    obtain ⟨hi, out⟩ := mem_entries_clear.mp hi
    have away : ¬ isBelow location item.1.tail = true := by
      intro hb
      have : isBelow location item.1 = true := by
        obtain ⟨key, e⟩ := item
        cases key with
        | nil => exact absurd rfl (ne_nil_of_isBelow hbi)
        | cons name parent => exact isBelow_cons.mpr (isBelow_iff.mp hb).1
      simp [this] at out
    rw [get?_clear, if_neg away, h.parents item (mem_below.mpr ⟨hi, hbi⟩)]
  · obtain ⟨hi, hbi⟩ := mem_below.mp hi
    exact h.links item (mem_below.mpr ⟨(mem_entries_clear.mp hi).1, hbi⟩)

end Rooted

/-! ## Walking along names -/

variable {t : FileTree} {top : Location}

/-- Without links on the way, names lead to the location of these names, through directories. -/
theorem walkWith_names {onLink : Location → List Segment → Arrival} {follow : Bool}
    {names : List Name} {here location : Location} {entry : Entry}
    (links : ∀ l, here <:+ l → l <:+ names.reverse ++ here → ∀ target,
      t.get? l ≠ some (.link target)) :
    t.walkWith onLink follow here (names.map .name) = .ok (location, entry) ↔
      (location = names.reverse ++ here ∧ t.get? location = some entry) ∧
      (∀ l, here <:+ l → l <:+ names.reverse ++ here → l ≠ names.reverse ++ here →
        t.get? l = some .directory) ∧
      ∀ name ∈ names, name.utf8ByteSize ≤ maxNameBytes := by
  induction names generalizing here with
  | nil =>
      simp only [List.map_nil, walkWith, List.reverse_nil, List.nil_append]
      constructor
      · intro h
        cases hg : t.get? here with
        | none => simp [hg] at h
        | some e =>
            simp only [hg, Except.ok.injEq, Prod.mk.injEq] at h
            obtain ⟨rfl, rfl⟩ := h
            refine ⟨⟨rfl, hg⟩, fun l h1 h2 h3 => ?_, by simp⟩
            exact absurd (h2.eq_of_length (Nat.le_antisymm h2.length_le h1.length_le)) h3
      · rintro ⟨⟨rfl, hg⟩, -⟩
        simp [hg]
  | cons name names ih =>
      have target : (name :: names).reverse ++ here = names.reverse ++ (name :: here) := by simp
      rw [target] at links ⊢
      have hstep : here <:+ name :: here := List.suffix_cons ..
      have hlast : name :: here <:+ names.reverse ++ (name :: here) := List.suffix_append ..
      have ih := ih fun l (h1 : name :: here <:+ l) h2 => links l (hstep.trans h1) h2
      have long : here ≠ names.reverse ++ (name :: here) := by
        intro he
        have := congrArg List.length he
        simp at this
        omega
      simp only [List.map_cons, walkWith]
      constructor
      · intro h
        cases hg : t.get? here with
        | none => simp [hg] at h
        | some e =>
            cases e with
            | file body => simp [hg] at h
            | link target => simp [hg] at h
            | directory =>
                simp only [hg] at h
                split at h
                · cases h
                · rename_i short
                  have next : t.walkWith onLink follow (name :: here) (names.map .name) =
                      .ok (location, entry) := by
                    cases hn : t.get? (name :: here) with
                    | none => simp [hn] at h
                    | some e =>
                        cases e with
                        | link target => exact absurd hn (links _ hstep hlast target)
                        | directory => simpa [hn] using h
                        | file body => simpa [hn] using h
                  obtain ⟨found, through, sizes⟩ := ih.mp next
                  refine ⟨found, fun l h1 h2 h3 => ?_, ?_⟩
                  · by_cases hl : l = here
                    · rw [hl, hg]
                    · refine through l ?_ h2 h3
                      rcases List.suffix_or_suffix_of_suffix h2 hlast with h4 | h4
                      · rcases List.suffix_cons_iff.mp h4 with rfl | h4
                        · exact List.suffix_refl _
                        · exact absurd (h4.eq_of_length (Nat.le_antisymm h4.length_le h1.length_le)) hl
                      · exact h4
                  · intro n hn
                    rcases List.mem_cons.mp hn with rfl | hn
                    · omega
                    · exact sizes n hn
      · rintro ⟨found, through, sizes⟩
        have hg := through here (List.suffix_refl _) (hstep.trans hlast) long
        have next := ih.mpr ⟨found, fun l h1 h2 h3 => through l (hstep.trans h1) h2 h3,
          fun n hn => sizes n (List.mem_cons_of_mem _ hn)⟩
        have short : ¬ maxNameBytes < name.utf8ByteSize :=
          Nat.not_lt.mpr (sizes name (List.mem_cons_self ..))
        simp only [hg, if_neg short]
        -- what the next name stands for is the end of the walk or a directory on its way
        have there : ∃ e, t.get? (name :: here) = some e := by
          by_cases hn : name :: here = names.reverse ++ (name :: here)
          · exact ⟨entry, by rw [hn, ← found.1, found.2]⟩
          · exact ⟨.directory, through _ hstep hlast hn⟩
        obtain ⟨e, he⟩ := there
        cases e with
        | link target => exact absurd he (links _ hstep hlast target)
        | directory => simpa [he] using next
        | file body => simpa [he] using next

/-- Plain names lead to the location of the same names, if something stands there. -/
theorem Rooted.walkWith_eq_ok (h : Rooted t top) {location : Location} (hs : top <:+ location)
    {onLink : Location → List Segment → Arrival} {follow : Bool} {found : Location} {entry : Entry} :
    t.walkWith onLink follow [] (location.reverse.map .name) = .ok (found, entry) ↔
      found = location ∧ t.get? location = some entry ∧
        ∀ n ∈ location, n.utf8ByteSize ≤ maxNameBytes := by
  have back : location.reverse.reverse ++ [] = location := by simp
  have links : ∀ l, ([] : Location) <:+ l → l <:+ location.reverse.reverse ++ [] → ∀ target,
      t.get? l ≠ some (.link target) := by
    rw [back]
    exact fun l _ hl target => h.not_link_above hs hl target
  rw [walkWith_names links, back]
  simp only [List.mem_reverse]
  constructor
  · rintro ⟨⟨rfl, he⟩, -, sizes⟩
    exact ⟨rfl, he, sizes⟩
  · rintro ⟨rfl, he, sizes⟩
    exact ⟨⟨rfl, he⟩, fun l _ hl hne => h.directory_above hs he hl hne, sizes⟩

end Strongroom.FileTree
