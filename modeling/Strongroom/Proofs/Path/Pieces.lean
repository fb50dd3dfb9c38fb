import Strongroom.FileTree.Calls
/-!
# Paths made of names

A path from the root that is pasted together from plain names is cut into the same names again.
What the host and the sandbox see of such a path is read off its names.
-/

namespace Strongroom

namespace Path

/-- A name that stands for an entry wherever it is a piece of a path. -/
structure IsPlain (name : Name) : Prop where
  ne_empty : name ≠ ""
  ne_here : name ≠ "."
  ne_up : name ≠ ".."
  no_slash : '/' ∉ name.toList

/-- The path that leads from the root along some names. -/
def absolute (names : List Name) : Path :=
  ⟨"/" ++ paste names⟩

/-! ## Cutting -/

theorem no_slash_of_mem_cut {text piece : List Char} (h : piece ∈ cut text) : '/' ∉ piece := by
  induction text generalizing piece with
  | nil => simp [cut] at h; simp [h]
  | cons c cs ih =>
      simp only [cut] at h
      by_cases hc : c = '/'
      · rw [if_pos hc] at h
        rcases List.mem_cons.mp h with rfl | h
        · simp
        · exact ih h
      · rw [if_neg hc] at h
        cases hcs : cut cs with
        | nil => exact absurd hcs (cut_ne_nil cs)
        | cons first rest =>
            rw [hcs] at h ih
            rcases List.mem_cons.mp h with rfl | h
            · have := ih (List.mem_cons_self ..)
              simp [this, Ne.symm hc]
            · exact ih (List.mem_cons_of_mem _ h)

theorem cut_append_slash (a b : List Char) : cut (a ++ '/' :: b) = cut a ++ cut b := by
  induction a with
  | nil => simp [cut]
  | cons c cs ih =>
      simp only [List.cons_append, cut, ih]
      split
      · rfl
      · cases hcs : cut cs with
        | nil => exact absurd hcs (cut_ne_nil cs)
        | cons first rest => rfl

theorem cut_of_no_slash {text : List Char} (h : '/' ∉ text) : cut text = [text] := by
  induction text with
  | nil => rfl
  | cons c cs ih =>
      simp only [List.mem_cons, not_or] at h
      rw [cut, if_neg (Ne.symm h.1), ih h.2]

/-- A slash between two texts separates their pieces. -/
theorem pieces_append_slash (a b : String) : pieces ⟨a ++ "/" ++ b⟩ = pieces ⟨a⟩ ++ pieces ⟨b⟩ := by
  simp only [pieces, String.toList_append]
  rw [show "/".toList = ['/'] from rfl, List.append_assoc, List.singleton_append, cut_append_slash,
    List.map_append]

theorem pieces_of_no_slash {name : Name} (h : '/' ∉ name.toList) : pieces ⟨name⟩ = [name] := by
  simp [pieces, cut_of_no_slash h, String.ofList_toList]

theorem no_slash_of_mem_pieces {p : Path} {piece : Name} (h : piece ∈ p.pieces) :
    '/' ∉ piece.toList := by
  obtain ⟨text, ht, rfl⟩ := List.mem_map.mp h
  rw [String.toList_ofList]
  exact no_slash_of_mem_cut ht

theorem pieces_paste {names : List Name} (hne : names ≠ []) (h : ∀ n ∈ names, '/' ∉ n.toList) :
    pieces ⟨paste names⟩ = names := by
  induction names with
  | nil => exact absurd rfl hne
  | cons first rest ih =>
      cases rest with
      | nil => exact pieces_of_no_slash (h first (by simp))
      | cons second rest =>
          rw [paste, pieces_append_slash, pieces_of_no_slash (h first (by simp)),
            ih (by simp) (fun n hn => h n (by simp [hn]))]
          · rfl
          · simp

theorem paste_append_singleton {names : List Name} (hne : names ≠ []) (last : Name) :
    paste (names ++ [last]) = paste names ++ "/" ++ last := by
  induction names with
  | nil => exact absurd rfl hne
  | cons first rest ih =>
      cases rest with
      | nil => rfl
      | cons second rest =>
          have := ih (by simp)
          simp only [List.cons_append, paste] at this ⊢
          rw [this]
          simp [String.append_assoc]

/-! ## Paths from the root -/

variable {names : List Name}

theorem pieces_absolute (h : ∀ n ∈ names, '/' ∉ n.toList) :
    (absolute names).pieces = "" :: if names = [] then [""] else names := by
  have slash : (absolute names).text = "" ++ "/" ++ paste names := by
    simp [absolute]
  have cut : (absolute names).pieces = pieces ⟨"" ++ "/" ++ paste names⟩ := by
    rw [← slash]
  rw [cut, pieces_append_slash, pieces_of_no_slash (by simp)]
  by_cases hn : names = []
  · subst hn
    rfl
  · rw [if_neg hn, pieces_paste hn h, List.singleton_append]

theorem text_absolute (names : List Name) : (absolute names).text = "/" ++ paste names := rfl

theorem text_absolute_ne_empty (names : List Name) : (absolute names).text ≠ "" := by
  intro h
  have := congrArg String.toList h
  simp [text_absolute] at this

theorem split_absolute (h : ∀ n ∈ names, '/' ∉ n.toList) :
    (absolute names).split = (.root, if names = [] then [""] else names) := by
  rw [split, pieces_absolute h]
  cases names <;> rfl

theorem component?_of_isPlain {name : Name} (h : IsPlain name) :
    component? name = some (.name name) := by
  simp [component?, isIdle, h.ne_empty, h.ne_here, h.ne_up]

theorem filterMap_component? (h : ∀ n ∈ names, IsPlain n) :
    names.filterMap component? = names.map .name := by
  induction names with
  | nil => rfl
  | cons first rest ih =>
      rw [List.filterMap_cons_some (component?_of_isPlain (h first (by simp))),
        ih (fun n hn => h n (by simp [hn]))]
      rfl

theorem components_absolute (h : ∀ n ∈ names, IsPlain n) :
    (absolute names).components = .root :: names.map .name := by
  rw [components, split_absolute (fun n hn => (h n hn).no_slash)]
  by_cases hn : names = []
  · subst hn
    rfl
  · rw [if_neg hn, filterMap_component? h]
    rfl

theorem startsWith_absolute {base : List Name} (h : ∀ n ∈ names, IsPlain n)
    (hb : ∀ n ∈ base, IsPlain n) :
    (absolute names).startsWith (absolute base) = true ↔ base <+: names := by
  rw [startsWith, components_absolute h, components_absolute hb, List.isPrefixOf_iff_prefix,
    List.cons_prefix_cons]
  constructor
  · rintro ⟨-, hp⟩
    exact (List.prefix_map_iff_of_injective fun a b hab => by cases hab; rfl).mp hp
  · intro hp
    exact ⟨rfl, hp.map _⟩

theorem depthBelow_absolute {base more : List Name} (hb : ∀ n ∈ base, IsPlain n)
    (hm : ∀ n ∈ more, IsPlain n) :
    depthBelow (absolute base) (absolute (base ++ more)) = more.length := by
  have h : ∀ n ∈ base ++ more, IsPlain n := by
    intro n hn
    rcases List.mem_append.mp hn with hn | hn
    · exact hb n hn
    · exact hm n hn
  rw [depthBelow, if_pos ((startsWith_absolute h hb).mpr (List.prefix_append ..)),
    components_absolute h, components_absolute hb]
  simp

theorem fileName?_absolute {last : Name} (h : ∀ n ∈ names ++ [last], IsPlain n) :
    (absolute (names ++ [last])).fileName? = some last := by
  rw [fileName?, components_absolute h]
  simp [List.getLast?_cons]

theorem trimPieces_of_isPlain (h : ∀ n ∈ names, IsPlain n) : trimPieces names = names := by
  have idle : ∀ n ∈ names.reverse, isIdle n = false := by
    intro n hn
    have := h n (List.mem_reverse.mp hn)
    simp [isIdle, this.ne_empty, this.ne_here]
  cases hr : names.reverse with
  | nil => simp [trimPieces, List.reverse_eq_nil_iff.mp hr]
  | cons last rest =>
      rw [trimPieces, hr, List.dropWhile_cons_of_neg (by simp [idle last (by simp [hr])]), ← hr,
        List.reverse_reverse]

theorem parent?_absolute {last : Name} (h : ∀ n ∈ names ++ [last], IsPlain n) :
    (absolute (names ++ [last])).parent? = some (absolute names) := by
  have hn : ∀ n ∈ names, IsPlain n := fun n hn => h n (by simp [hn])
  rw [parent?, split_absolute (fun n hn => (h n hn).no_slash), if_neg (by simp)]
  simp only [trimPieces_of_isPlain h]
  cases he : names ++ [last] with
  | nil => simp at he
  | cons first rest =>
      simp only [← he, List.dropLast_concat, trimPieces_of_isPlain hn]
      rfl

end Path

/-! ## What the host sees of them -/

/-- The location that a path without links names. -/
def Path.location (p : Path) : Location :=
  (p.pieces.filter fun piece => piece != "").reverse

theorem FileTree.location_pathTo {location : Location} (h : ∀ n ∈ location, Path.IsPlain n) :
    (pathTo location).location = location := by
  have plain : ∀ n ∈ location.reverse, Path.IsPlain n := fun n hn => h n (List.mem_reverse.mp hn)
  have all : (location.reverse.filter fun piece => piece != "") = location.reverse :=
    List.filter_eq_self.mpr fun n hn => by simp [(plain n hn).ne_empty]
  rw [Path.location, pathTo, ← Path.absolute, Path.pieces_absolute fun n hn => (plain n hn).no_slash]
  by_cases hl : location = []
  · subst hl
    rfl
  · rw [if_neg (by simpa using hl), List.filter_cons_of_neg (by simp), all, List.reverse_reverse]

namespace FileTree

open Strongroom.Path

variable {names : List Name}

theorem pathTo_eq (location : Location) : pathTo location = absolute location.reverse := rfl

theorem pathTo_ne_empty (location : Location) : (pathTo location).text ≠ "" :=
  text_absolute_ne_empty _

theorem depthBelow_pathTo {base below : Location} (hb : ∀ n ∈ below ++ base, IsPlain n) :
    Path.depthBelow (pathTo base) (pathTo (below ++ base)) = below.length := by
  rw [pathTo_eq, pathTo_eq, List.reverse_append, depthBelow_absolute, List.length_reverse]
  · exact fun n hn => hb n (List.mem_append_right _ (List.mem_reverse.mp hn))
  · exact fun n hn => hb n (List.mem_append_left _ (List.mem_reverse.mp hn))

theorem segment?_of_isPlain {name : Name} (h : IsPlain name) :
    segment? name = some (.name name) := by
  simp [segment?, h.ne_empty, h.ne_here, h.ne_up]

theorem segments_absolute (h : ∀ n ∈ names, IsPlain n) :
    segments (absolute names) = names.map .name := by
  rw [segments, pieces_absolute (fun n hn => (h n hn).no_slash)]
  have plain : names.filterMap segment? = names.map .name := by
    induction names with
    | nil => rfl
    | cons first rest ih =>
        rw [List.filterMap_cons_some (segment?_of_isPlain (h first (by simp))),
          ih (fun n hn => h n (by simp [hn]))]
        rfl
  by_cases hn : names = []
  · subst hn
    rfl
  · rw [if_neg hn, List.filterMap_cons_none (by rfl), plain]

theorem endsInSlash_absolute (h : ∀ n ∈ names, IsPlain n) :
    endsInSlash (absolute names) = names.isEmpty := by
  rw [endsInSlash, pieces_absolute (fun n hn => (h n hn).no_slash)]
  rcases List.eq_nil_or_concat names with rfl | ⟨front, last, rfl⟩
  · rfl
  · rw [List.concat_eq_append] at h ⊢
    have := (h last (by simp)).ne_empty
    have some : (front ++ [last]).isEmpty = false := by simp
    simp [List.getLast?_cons, some, this]

end FileTree

end Strongroom
