import Strongroom.Proofs.Path.Walking
/-!
# What clients see of places

Clients see a place as the path that leads to it from the root of their sandbox.  This path leads
back to the place from wherever the sandbox works.
-/

namespace Strongroom

open FileTree (pathTo pathTo_eq depthBelow_pathTo)

namespace Sandbox

open Strongroom.Path

variable {root : Path} {base : Location}

/-! ## Texts of places -/

theorem dropPieces_append {front : List Name} (h : ∀ n ∈ front, IsPlain n) (rest : List Name) :
    dropPieces front.length (front ++ rest) = rest := by
  induction front with
  | nil => cases rest <;> rfl
  | cons first front ih =>
      have plain := h first (List.mem_cons_self ..)
      have busy : isIdle first = false := by simp [isIdle, plain.ne_empty, plain.ne_here]
      rw [List.length_cons, List.cons_append, dropPieces, busy]
      exact ih fun n hn => h n (List.mem_cons_of_mem _ hn)

theorem dropWhile_isIdle {names : List Name} (h : ∀ n ∈ names, IsPlain n) :
    names.dropWhile isIdle = names := by
  cases names with
  | nil => rfl
  | cons first rest =>
      have plain := h first (List.mem_cons_self ..)
      exact List.dropWhile_cons_of_neg (by simp [isIdle, plain.ne_empty, plain.ne_here])

/-- Clients see a place as the path that leads to it from the root of their sandbox. -/
theorem display_pathTo {s : Sandbox} {below : Location} (hb : ∀ n ∈ below ++ base, IsPlain n)
    (hs : s.root = pathTo base) : s.display (pathTo (below ++ base)) = (pathTo below).text := by
  have whole : ∀ n ∈ (below ++ base).reverse, IsPlain n := fun n hn => hb n (List.mem_reverse.mp hn)
  have front : ∀ n ∈ base.reverse, IsPlain n := fun n hn => whole n (by simp_all)
  have more : ∀ n ∈ below.reverse, IsPlain n := fun n hn => whole n (by simp_all)
  have inside : (absolute (below ++ base).reverse).startsWith (absolute base.reverse) = true :=
    (startsWith_pathTo hb fun n hn => hb n (List.mem_append_right _ hn)).mpr (List.suffix_append ..)
  have seen : Path.below? (absolute base.reverse) (absolute (below ++ base).reverse) =
      some (paste below.reverse) := by
    rw [below?, if_pos inside, split_absolute fun n hn => (whole n hn).no_slash,
      components_absolute front]
    by_cases top : base.reverse ++ below.reverse = []
    · obtain ⟨rfl, rfl⟩ : base = [] ∧ below = [] := by simpa using top
      rfl
    · have dropped := dropPieces_append front below.reverse
      have count : (Component.root :: base.reverse.map .name).length = base.reverse.length + 1 := by
        simp
      simp only [if_neg top, count, Nat.succ_ne_zero, if_false, Lead.components,
        List.length_singleton, Nat.add_sub_cancel, List.reverse_append, dropped,
        dropWhile_isIdle more, trimPieces_of_isPlain more]
  rw [display, hs, pathTo_eq, pathTo_eq, seen]
  rfl

/-- Clients know the root of their sandbox as `/`. -/
theorem display_root {s : Sandbox} (hb : ∀ n ∈ base, IsPlain n) (hs : s.root = pathTo base) :
    s.display (pathTo base) = "/" := by
  have seen : s.display (pathTo ([] ++ base)) = (pathTo []).text := display_pathTo hb hs
  exact seen

theorem isRoot_below {s : Sandbox} {below : Location} (hb : ∀ n ∈ below ++ base, IsPlain n)
    (hs : s.root = pathTo base) : s.isRoot (pathTo (below ++ base)) = true ↔ below = [] := by
  have whole : ∀ n ∈ (below ++ base).reverse, IsPlain n := fun n hn => hb n (List.mem_reverse.mp hn)
  rw [isRoot, same, hs, pathTo_eq, pathTo_eq, components_absolute whole,
    components_absolute fun n hn => whole n (by simp_all), beq_iff_eq]
  constructor
  · intro he
    simpa using congrArg List.length he
  · rintro rfl
    rfl

theorem eq_of_text_pathTo {below below' : Location} (h : ∀ n ∈ below, IsPlain n)
    (h' : ∀ n ∈ below', IsPlain n) (same : (pathTo below).text = (pathTo below').text) :
    below = below' := by
  rw [← FileTree.location_pathTo h, ← FileTree.location_pathTo h']
  exact congrArg (fun text => Path.location ⟨text⟩) same

/-! ## Depth -/

/-- Segments without `..` add their names to where a walk starts. -/
theorem map_foldl_step {segments : List Name} (h : ".." ∉ segments) (here : Location) :
    (segments.foldl Location.step here).reverse.map .name =
      here.reverse.map .name ++ segments.filterMap component? := by
  induction segments generalizing here with
  | nil => simp
  | cons segment rest ih =>
      rw [List.mem_cons, not_or] at h
      rw [List.filterMap_cons, component?, List.foldl_cons, Location.step, isIdle, ih h.2]
      by_cases idle : segment = "" ∨ segment = "."
      · simp [idle]
      · simp [idle, Ne.symm h.1]

/-- The components of a path from the root without `..` are those of its normal form. -/
theorem components_of_no_up (absolute : root.isAbsolute = true) (h : ".." ∉ root.pieces) :
    root.components = (pathTo (Location.walk [] root.text)).components := by
  obtain ⟨second, rest, hp⟩ := pieces_of_isAbsolute absolute
  have names := map_foldl_step (fun hm => h (hp ▸ List.mem_cons_of_mem _ hm)) []
  have plain : ∀ n ∈ (Location.walk [] root.text).reverse, IsPlain n := fun n hn =>
    Location.plain_walk_nil root.text n (List.mem_reverse.mp hn)
  rw [pathTo_eq, components_absolute plain, components, split_of_root hp, Location.walk_eq, hp]
  exact congrArg (Component.root :: ·) names.symm

theorem up_mem_components (absolute : root.isAbsolute = true) (h : ".." ∈ root.pieces) :
    .up ∈ root.components := by
  obtain ⟨second, rest, hp⟩ := pieces_of_isAbsolute absolute
  rw [hp] at h
  rw [components, split_of_root hp]
  refine List.mem_append_right _ (List.mem_filterMap.mpr ⟨"..", ?_, rfl⟩)
  exact (List.mem_cons.mp h).resolve_left (by decide)

/-- From a root as it is written, depth is counted as from its normal form, but nothing is below a
root that is written with a `..`. -/
theorem depthBelow_written (absolute : root.isAbsolute = true) {below : Location}
    (hb : ∀ n ∈ below ++ Location.walk [] root.text, IsPlain n) :
    Path.depthBelow root (pathTo (below ++ Location.walk [] root.text)) =
      if ".." ∈ root.pieces then 0 else below.length := by
  split
  · rename_i up
    refine if_neg fun inside => ?_
    rw [startsWith, List.isPrefixOf_iff_prefix, pathTo_eq, components_absolute fun n hn =>
      hb n (List.mem_reverse.mp hn)] at inside
    simpa using inside.subset (up_mem_components absolute up)
  · rename_i straight
    rw [← depthBelow_pathTo hb, depthBelow, depthBelow, startsWith, startsWith,
      components_of_no_up absolute straight]

/-! ## Round trip -/

/-- What clients see of a place leads back to it, wherever the sandbox works. -/
theorem resolve_text_pathTo (absolute : root.isAbsolute = true) (current : Path) {below : Location}
    (hb : ∀ n ∈ below ++ Location.walk [] root.text, IsPlain n) :
    (Sandbox.of root current).resolve ⟨(pathTo below).text⟩ =
      pathTo (below ++ Location.walk [] root.text) := by
  have slash : (pathTo below).text.toList.head? = some '/' := by simp [pathTo]
  rw [resolve_of absolute, target, if_pos slash,
    Location.walk_pathTo fun n hn => hb n (List.mem_append_left _ hn), List.append_nil]

/-- What clients see of a place says which place it is: it leads back there in every sandbox of the
root, it is `/` for the root alone, and it has as many names as the place has below the root.  Depth
counted from the root as it is written agrees, unless the root is written with a `..`. -/
theorem display_identifies (absolute : root.isAbsolute = true) (current₁ current₂ : Path)
    (raw : String) :
    let s := Sandbox.of root current₁
    let other := Sandbox.of root current₂
    let place := s.resolve ⟨raw⟩
    let shown := s.display place
    other.resolve ⟨shown⟩ = place ∧ other.display (other.resolve ⟨shown⟩) = shown ∧
      (shown = "/" ↔ s.isRoot place = true) ∧
      Path.depthBelow s.root place = (Path.location ⟨shown⟩).length ∧
      Path.depthBelow root place = (if ".." ∈ root.pieces then 0 else (Path.location ⟨shown⟩).length) ∧
      (∀ raw' : String, other.display (other.resolve ⟨raw'⟩) = shown → other.resolve ⟨raw'⟩ = place) ∧
      (Sandbox.of root place).workingDirectory = shown := by
  intro s other place shown
  obtain ⟨below, plain, lands⟩ := exists_below absolute current₁ raw
  have names : ∀ n ∈ below, IsPlain n := fun n hn => plain n (List.mem_append_left _ hn)
  have top (current : Path) : (Sandbox.of root current).root = pathTo (Location.walk [] root.text) := by
    rw [of_eq absolute]
  have place_eq : place = pathTo (below ++ Location.walk [] root.text) := lands
  have shown_eq : shown = (pathTo below).text := by
    rw [← display_pathTo plain (top current₁), ← place_eq]
  have back : other.resolve ⟨shown⟩ = place := by
    rw [shown_eq, place_eq]
    exact resolve_text_pathTo absolute current₂ plain
  have count : (Path.location ⟨shown⟩).length = below.length := by
    rw [shown_eq]
    exact congrArg List.length (FileTree.location_pathTo names)
  refine ⟨back, ?_, ?_, ?_, ?_, ?_, ?_⟩
  · rw [back, shown_eq, place_eq]
    exact display_pathTo plain (top current₂)
  · rw [place_eq, isRoot_below plain (top current₁), shown_eq]
    constructor
    · intro h
      exact eq_of_text_pathTo names (List.forall_mem_nil _) h
    · rintro rfl
      rfl
  · rw [count, place_eq, top, depthBelow_pathTo plain]
  · rw [count, place_eq, depthBelow_written absolute plain]
  · intro raw' same
    obtain ⟨below', plain', lands'⟩ := exists_below absolute current₂ raw'
    rw [lands', display_pathTo plain' (top current₂), shown_eq] at same
    rw [lands', place_eq,
      eq_of_text_pathTo (fun n hn => plain' n (List.mem_append_left _ hn)) names same]
  · rw [workingDirectory, of_eq absolute, place_eq, start_of_suffix plain (List.suffix_append ..),
      display_pathTo plain rfl, shown_eq]

theorem display_identifies_up :
    (Path.mk "/srv//./r1/").isAbsolute = true ∧
      (Sandbox.of ⟨"/srv//./r1/"⟩ ⟨"/srv/r1/docs"⟩).display
        ((Sandbox.of ⟨"/srv//./r1/"⟩ ⟨"/srv/r1/docs"⟩).resolve ⟨"../a//b/"⟩) = "/a/b" ∧
      (Sandbox.of ⟨"/srv//./r1/"⟩ ⟨"/elsewhere"⟩).resolve ⟨"/a/b"⟩ = ⟨"/srv/r1/a/b"⟩ ∧
      Path.depthBelow ⟨"/srv//./r1/"⟩ ⟨"/srv/r1/a/b"⟩ = 2 := by
  have absolute : (Path.mk "/srv//./r1/").isAbsolute = true := by decide
  have shown : (Sandbox.of ⟨"/srv//./r1/"⟩ ⟨"/srv/r1/docs"⟩).display
      ((Sandbox.of ⟨"/srv//./r1/"⟩ ⟨"/srv/r1/docs"⟩).resolve ⟨"../a//b/"⟩) = "/a/b" := by
    decide
  have place : (Sandbox.of ⟨"/srv//./r1/"⟩ ⟨"/srv/r1/docs"⟩).resolve ⟨"../a//b/"⟩ =
      ⟨"/srv/r1/a/b"⟩ := by
    decide
  obtain ⟨back, -, -, -, depth, -⟩ :=
    display_identifies absolute ⟨"/srv/r1/docs"⟩ ⟨"/elsewhere"⟩ "../a//b/"
  rw [shown, place] at back depth
  exact ⟨absolute, shown, back, depth.trans (by decide)⟩

/-- A root that is written with a `..` has its places below it, but not by their depth. -/
theorem depthBelow_of_up :
    (Path.mk "/a/../b").isAbsolute = true ∧
      (Sandbox.of ⟨"/a/../b"⟩ ⟨"/"⟩).display ((Sandbox.of ⟨"/a/../b"⟩ ⟨"/"⟩).resolve ⟨"x"⟩) = "/x" ∧
      (Path.location ⟨"/x"⟩).length = 1 ∧
      Path.depthBelow ⟨"/a/../b"⟩ ((Sandbox.of ⟨"/a/../b"⟩ ⟨"/"⟩).resolve ⟨"x"⟩) = 0 := by
  decide

end Sandbox

end Strongroom
