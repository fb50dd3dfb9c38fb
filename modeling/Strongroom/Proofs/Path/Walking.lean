import Strongroom.Path.Sandbox
import Strongroom.Proofs.Path.NormalForm
/-!
# Walks along paths

A walk takes the segments of a text one by one: a name leads down, `..` leads up but never above the
top, and empty segments and `.` lead nowhere.  A sandbox resolves what a client writes as such a
walk, and keeps it at or below its root.
-/

namespace Strongroom

open FileTree (pathTo pathTo_eq)

/-- Where a segment of a text leads from a location, whatever stands there. -/
def Location.step (here : Location) (segment : Name) : Location :=
  if segment = "" ∨ segment = "." then here
  else if segment = ".." then here.tail
  else segment :: here

/-- Where a text leads from a location, one segment after the other. -/
def Location.walk (here : Location) (text : String) : Location :=
  ((text.toList.splitOn '/').map String.ofList).foldl step here

namespace Path

theorem cut_eq_splitOn (text : List Char) : cut text = text.splitOn '/' := by
  induction text with
  | nil => rfl
  | cons c cs ih =>
      simp only [cut, List.splitOn, List.splitOnP_cons_eq_if_modifyHead, beq_iff_eq] at ih ⊢
      rw [← ih]
      split
      · rfl
      · cases hcs : cut cs with
        | nil => exact absurd hcs (cut_ne_nil cs)
        | cons first rest => rfl

end Path

namespace Location

open Strongroom.Path

variable {here : Location}

theorem walk_eq (here : Location) (text : String) :
    here.walk text = (pieces ⟨text⟩).foldl step here := by
  rw [walk, pieces, cut_eq_splitOn]

theorem plain_walk (plain : ∀ n ∈ here, IsPlain n) (text : String) :
    ∀ n ∈ here.walk text, IsPlain n := by
  rw [walk_eq]
  have slash : ∀ piece ∈ pieces ⟨text⟩, '/' ∉ piece.toList := fun _ => no_slash_of_mem_pieces
  generalize pieces ⟨text⟩ = segments at slash
  induction segments generalizing here with
  | nil => exact plain
  | cons segment rest ih =>
      apply ih _ fun piece hp => slash piece (List.mem_cons_of_mem _ hp)
      unfold step
      split
      · exact plain
      · rename_i busy
        split
        · exact fun n hn => plain n (List.mem_of_mem_tail hn)
        · rename_i up
          rw [not_or] at busy
          exact List.forall_mem_cons.mpr ⟨⟨busy.1, busy.2, up, slash _ (List.mem_cons_self ..)⟩, plain⟩

theorem plain_walk_nil (text : String) : ∀ n ∈ walk [] text, IsPlain n :=
  plain_walk (by simp) text

theorem foldl_step {names : List Name} (plain : ∀ n ∈ names, IsPlain n) (here : Location) :
    names.foldl step here = names.reverse ++ here := by
  induction names generalizing here with
  | nil => rfl
  | cons first rest ih =>
      have hf := plain first (List.mem_cons_self ..)
      have moved : step here first = first :: here := by
        simp [step, hf.ne_empty, hf.ne_here, hf.ne_up]
      rw [List.foldl_cons, moved, ih fun n hn => plain n (List.mem_cons_of_mem _ hn)]
      simp

/-- The text of a path of names leads along these names. -/
theorem walk_pathTo {location : Location} (plain : ∀ n ∈ location, IsPlain n) (here : Location) :
    here.walk (pathTo location).text = location ++ here := by
  have names : ∀ n ∈ location.reverse, IsPlain n := fun n hn => plain n (List.mem_reverse.mp hn)
  have cut : (pathTo location).pieces = "" :: if location.reverse = [] then [""] else location.reverse :=
    pieces_absolute fun n hn => (names n hn).no_slash
  rw [walk_eq, cut, List.foldl_cons]
  by_cases empty : location = []
  · subst empty
    rfl
  · rw [if_neg (by simpa using empty), foldl_step names, List.reverse_reverse]
    rfl

theorem walk_paste {names : List Name} (plain : ∀ n ∈ names, IsPlain n) (here : Location) :
    here.walk (paste names) = names.reverse ++ here := by
  by_cases empty : names = []
  · subst empty
    rfl
  · rw [walk_eq, pieces_paste empty fun n hn => (plain n hn).no_slash, foldl_step plain]

end Location

namespace Path

/-! ## Normal forms as walks -/

variable {p next : Path}

theorem foldl_push_pieces (pieces : List Name) (here : Location) :
    (pieces.filterMap component?).foldl push (here.map .name ++ [.root]) =
      (pieces.foldl Location.step here).map .name ++ [.root] := by
  induction pieces generalizing here with
  | nil => rfl
  | cons piece rest ih =>
      rw [List.foldl_cons, List.filterMap_cons, component?, Location.step, isIdle]
      by_cases idle : piece = "" ∨ piece = "."
      · simp [idle, ih]
      · by_cases up : piece = ".."
        · subst up
          cases here with
          | nil => simpa [push] using ih []
          | cons name here => simpa [push] using ih here
        · simpa [idle, up] using ih (piece :: here)

theorem normalComponents_eq_walk (h : p.isAbsolute = true) :
    p.normalComponents = .root :: (Location.walk [] p.text).reverse.map .name := by
  obtain ⟨second, rest, hp⟩ := pieces_of_isAbsolute h
  have start : p.components = .root :: (second :: rest).filterMap component? := by
    rw [components, split_of_root hp]
    rfl
  have moved := foldl_push_pieces (second :: rest) []
  rw [normalComponents, start, List.foldl_cons, push_root, show [Component.root] =
    ([] : Location).map .name ++ [.root] from rfl, moved, Location.walk_eq, hp]
  simp [Location.step]

/-- The normal form of a path from the root is the path of the location that it leads to. -/
theorem normalize_eq_walk (h : p.isAbsolute = true) :
    p.normalize = pathTo (Location.walk [] p.text) :=
  normalize_of_normalComponents (normalComponents_eq_walk h)

/-- What is taken from the path of a location leads on from there. -/
theorem normalize_join {here : Location} (plain : ∀ n ∈ here, IsPlain n)
    (hn : next.isAbsolute = false) :
    (pathTo here ++ next).normalize = pathTo (here.walk next.text) := by
  have names : ∀ n ∈ here.reverse, IsPlain n := fun n hn => plain n (List.mem_reverse.mp hn)
  apply normalize_of_normalComponents
  have start : (pathTo here).components.foldl push [] = here.map .name ++ [.root] := by
    rw [pathTo_eq, components_absolute names, List.foldl_cons, push_root, foldl_push_names]
    simp
  rw [normalComponents, components_join (FileTree.pathTo_ne_empty here) hn, List.foldl_append, start,
    foldl_push_pieces, ← Location.walk_eq]
  simp

end Path

/-! ## Sandboxes -/

/-- A place, or the base for a place that is not at or below it. -/
def Location.clamp (base place : Location) : Location :=
  if base <:+ place then place else base

theorem Location.clamp_eq_append (base : Location) {place : Location}
    (plain : ∀ n ∈ place, Path.IsPlain n) :
    ∃ below, (∀ n ∈ below, Path.IsPlain n) ∧ base.clamp place = below ++ base := by
  unfold Location.clamp
  split
  · rename_i inside
    obtain ⟨below, rfl⟩ := inside
    exact ⟨below, fun n hn => plain n (List.mem_append_left _ hn), rfl⟩
  · exact ⟨[], List.forall_mem_nil _, rfl⟩

namespace Sandbox

open Strongroom.Path

variable {root : Path} {base here : Location}

/-- The location that a sandbox works at. -/
def start (base : Location) (current : Path) : Location :=
  if current.isAbsolute then base.clamp (Location.walk [] current.text) else base

/-- The location that a client's path leads to: from the base if the path starts with a slash, else
from where the sandbox works. -/
def target (base here : Location) (raw : String) : Location :=
  if raw.toList.head? = some '/' then Location.walk [] raw ++ base else base.clamp (here.walk raw)

theorem startsWith_pathTo {place : Location} (hp : ∀ n ∈ place, IsPlain n)
    (hb : ∀ n ∈ base, IsPlain n) :
    (pathTo place).startsWith (pathTo base) = true ↔ base <:+ place := by
  rw [pathTo_eq, pathTo_eq, startsWith_absolute (fun n hn => hp n (List.mem_reverse.mp hn))
    fun n hn => hb n (List.mem_reverse.mp hn), List.reverse_prefix]

theorem of_eq (absolute : root.isAbsolute = true) (current : Path) :
    Sandbox.of root current =
      ⟨pathTo (Location.walk [] root.text), pathTo (start (Location.walk [] root.text) current)⟩ := by
  have plain : ∀ n ∈ Location.walk [] root.text, IsPlain n := Location.plain_walk_nil _
  simp only [Sandbox.of, start, normalize_eq_walk absolute]
  by_cases hc : current.isAbsolute = true
  · have inside := startsWith_pathTo (Location.plain_walk_nil current.text) plain
    simp only [normalize_eq_walk hc, inside, hc, Location.clamp, apply_ite pathTo, if_true]
  · have outside : ¬ current.normalize.startsWith (pathTo (Location.walk [] root.text)) = true := by
      intro inside
      refine hc (isAbsolute_of_normalize (isAbsolute_of_startsWith ?_ inside))
      exact fun n hn => plain n (List.mem_reverse.mp hn)
    rw [if_neg outside, if_neg hc]

theorem start_eq_append (base : Location) (current : Path) :
    ∃ below, (∀ n ∈ below, IsPlain n) ∧ start base current = below ++ base := by
  unfold start
  split
  · exact base.clamp_eq_append (Location.plain_walk_nil _)
  · exact ⟨[], List.forall_mem_nil _, rfl⟩

theorem plain_start (plain : ∀ n ∈ base, IsPlain n) (current : Path) :
    ∀ n ∈ start base current, IsPlain n := by
  obtain ⟨below, names, place⟩ := start_eq_append base current
  rw [place]
  exact fun n hn => (List.mem_append.mp hn).elim (names n) (plain n)

theorem start_of_suffix {place : Location} (hp : ∀ n ∈ place, IsPlain n) (inside : base <:+ place) :
    start base (pathTo place) = place := by
  rw [start, isAbsolute_pathTo hp, if_pos rfl, Location.walk_pathTo hp, List.append_nil, Location.clamp,
    if_pos inside]

/-- A sandbox that is to work at or below its root works there. -/
theorem of_pathTo_of_suffix {place : Location} (hb : ∀ n ∈ base, IsPlain n)
    (hp : ∀ n ∈ place, IsPlain n) (inside : base <:+ place) :
    Sandbox.of (pathTo base) (pathTo place) = ⟨pathTo base, pathTo place⟩ := by
  rw [of_eq (isAbsolute_pathTo hb), Location.walk_pathTo hb, List.append_nil, start_of_suffix hp inside]

theorem ofComponents_names (names : List Name) :
    ofComponents (names.map .name) = ⟨paste names⟩ := by
  have same : (names.map Component.name).map Component.piece = names := by
    rw [List.map_map]
    exact List.map_id _
  cases names with
  | nil => rfl
  | cons first rest => exact congrArg (fun names => (⟨paste names⟩ : Path)) same

/-- Before it is checked against the root, a path that starts with a slash leads on from the root,
and any other path from where the sandbox works. -/
theorem candidate_eq (hb : ∀ n ∈ base, IsPlain n) (hh : ∀ n ∈ here, IsPlain n) (raw : String) :
    (⟨pathTo base, pathTo here⟩ : Sandbox).candidate ⟨raw⟩ =
      if raw.toList.head? = some '/' then pathTo (Location.walk [] raw ++ base)
      else pathTo (here.walk raw) := by
  by_cases slash : raw.toList.head? = some '/'
  · have absolute : isAbsolute ⟨raw⟩ = true := isAbsolute_iff.mpr slash
    have plain : ∀ n ∈ (Location.walk [] raw).reverse, IsPlain n := fun n hn =>
      Location.plain_walk_nil raw n (List.mem_reverse.mp hn)
    have kept : names (pathTo (Location.walk [] raw)).components =
        (Location.walk [] raw).reverse.map .name := by
      rw [pathTo_eq, components_absolute plain, names, List.filter_cons_of_neg (by simp),
        List.filter_eq_self]
      simp
    rw [candidate, normalize_eq_walk absolute, isAbsolute_pathTo (Location.plain_walk_nil raw),
      if_pos rfl, if_pos slash, kept, ofComponents_names, normalize_join hb (paste_relative plain),
      Location.walk_paste plain, List.reverse_reverse]
  · have relative : isAbsolute ⟨raw⟩ = false := by
      rw [← Bool.not_eq_true, isAbsolute_iff]
      exact slash
    have kept : ¬ (normalize ⟨raw⟩).isAbsolute = true := by
      intro absolute
      rw [isAbsolute_of_normalize absolute] at relative
      cases relative
    rw [candidate, if_neg kept, if_neg slash, normalize_join_normalize (FileTree.pathTo_ne_empty here)
      relative, normalize_join hh relative]

theorem resolve_eq (hb : ∀ n ∈ base, IsPlain n) (hh : ∀ n ∈ here, IsPlain n) (raw : String) :
    (⟨pathTo base, pathTo here⟩ : Sandbox).resolve ⟨raw⟩ = pathTo (target base here raw) := by
  have plain := Location.plain_walk_nil raw
  rw [resolve, candidate_eq hb hh, target]
  split
  · have inside : (pathTo (Location.walk [] raw ++ base)).startsWith (pathTo base) = true := by
      refine (startsWith_pathTo (fun n hn => ?_) hb).mpr (List.suffix_append ..)
      exact (List.mem_append.mp hn).elim (plain n) (hb n)
    rw [if_pos inside]
  · simp only [startsWith_pathTo (Location.plain_walk hh raw) hb, Location.clamp, apply_ite pathTo]

theorem resolve_of (absolute : root.isAbsolute = true) (current : Path) (raw : String) :
    (Sandbox.of root current).resolve ⟨raw⟩ =
      pathTo (target (Location.walk [] root.text) (start (Location.walk [] root.text) current) raw) := by
  have plain : ∀ n ∈ Location.walk [] root.text, IsPlain n := Location.plain_walk_nil _
  rw [of_eq absolute, resolve_eq plain (plain_start plain current)]

theorem target_eq_append (base : Location) (hh : ∀ n ∈ here, IsPlain n) (raw : String) :
    ∃ below, (∀ n ∈ below, IsPlain n) ∧ target base here raw = below ++ base := by
  unfold target
  split
  · exact ⟨_, Location.plain_walk_nil raw, rfl⟩
  · exact base.clamp_eq_append (Location.plain_walk hh raw)

/-- Every path leads to the root or to names below it. -/
theorem exists_below (absolute : root.isAbsolute = true) (current : Path) (raw : String) :
    ∃ below, (∀ n ∈ below ++ Location.walk [] root.text, IsPlain n) ∧
      (Sandbox.of root current).resolve ⟨raw⟩ = pathTo (below ++ Location.walk [] root.text) := by
  have hb : ∀ n ∈ Location.walk [] root.text, IsPlain n := Location.plain_walk_nil _
  obtain ⟨below, plain, place⟩ :=
    target_eq_append (Location.walk [] root.text) (plain_start hb current) raw
  refine ⟨below, fun n hn => (List.mem_append.mp hn).elim (plain n) (hb n), ?_⟩
  rw [resolve_of absolute, place]

/-- No place at or below the base is one at or below a sibling of the base. -/
theorem not_startsWith_sibling {below parent : Location} {name sibling : Name}
    (hb : ∀ n ∈ below ++ name :: parent, IsPlain n) (hs : IsPlain sibling) (other : sibling ≠ name) :
    (pathTo (below ++ name :: parent)).startsWith (pathTo (sibling :: parent)) = false := by
  have beside : ∀ n ∈ sibling :: parent, IsPlain n := by
    refine List.forall_mem_cons.mpr ⟨hs, fun n hn => hb n ?_⟩
    exact List.mem_append_right _ (List.mem_cons_of_mem _ hn)
  rw [← Bool.not_eq_true, startsWith_pathTo hb beside]
  intro inside
  have same : sibling :: parent <:+ name :: parent :=
    List.suffix_of_suffix_length_le inside (List.suffix_append ..) (by simp)
  exact other (List.cons.inj (same.eq_of_length (by simp))).1

/-- A sandbox resolves a path as a walk along its segments, from the root of the sandbox if the path
starts with a slash and else from where the sandbox works; a walk that ends elsewhere than at or
below the root leads to the root.  Nothing at or below a sibling of the root is ever reached. -/
theorem resolve_walks (absolute : root.isAbsolute = true) (current : Path) (raw : String) :
    let s := Sandbox.of root current
    let base := Location.walk [] root.text
    let here := start base current
    s.root = pathTo base ∧ s.current = pathTo here ∧
      s.resolve ⟨raw⟩ = pathTo (target base here raw) ∧
      (∃ below, (∀ n ∈ below, IsPlain n) ∧ s.resolve ⟨raw⟩ = pathTo (below ++ base)) ∧
      ∀ name sibling parent, base = name :: parent → IsPlain sibling → sibling ≠ name →
        (s.resolve ⟨raw⟩).startsWith (pathTo (sibling :: parent)) = false := by
  intro s base here
  have whole : s = ⟨pathTo base, pathTo here⟩ := of_eq absolute current
  obtain ⟨below, plain, lands⟩ := exists_below absolute current raw
  refine ⟨by rw [whole], by rw [whole], resolve_of absolute current raw,
    ⟨below, fun n hn => plain n (List.mem_append_left _ hn), lands⟩, ?_⟩
  intro name sibling parent top hs other
  rw [show Location.walk [] root.text = _ from top] at plain lands
  rw [show s.resolve ⟨raw⟩ = _ from lands]
  exact not_startsWith_sibling plain hs other

theorem resolve_walks_beside :
    (Path.mk "/srv/../store//r1/").isAbsolute = true ∧
      (Sandbox.of ⟨"/srv/../store//r1/"⟩ ⟨"/store/r1/docs"⟩).resolve ⟨"../../r10/x"⟩ = ⟨"/store/r1"⟩ ∧
      (Sandbox.of ⟨"/srv/../store//r1/"⟩ ⟨"/store/r1/docs"⟩).resolve ⟨"/../a/.//b"⟩ =
        ⟨"/store/r1/a/b"⟩ := by
  have absolute : (Path.mk "/srv/../store//r1/").isAbsolute = true := by decide
  have out := (resolve_walks absolute ⟨"/store/r1/docs"⟩ "../../r10/x").2.2.1
  have down := (resolve_walks absolute ⟨"/store/r1/docs"⟩ "/../a/.//b").2.2.1
  exact ⟨absolute, out.trans (by decide), down.trans (by decide)⟩

end Sandbox

end Strongroom
