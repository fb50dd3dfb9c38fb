import Strongroom.Proofs.Path.Walking
/-!
# Canonical paths

A normal form is a path from the root along names, or one that climbs some times before it leads along
names, and these paths are their own normal forms.  A path may be put into normal form before or after
others are taken from it: a path that climbs takes back the last names of the path it is taken from.
-/

namespace Strongroom.Path

open FileTree (pathTo pathTo_eq)

/-- The path that climbs so many times and then leads along some names; `.` if it does neither. -/
def relative (ups : Nat) (names : List Name) : Path :=
  if ups = 0 ∧ names = [] then ⟨"."⟩ else ⟨paste (List.replicate ups ".." ++ names)⟩

/-- A path from the root along names, or one that only climbs before it leads along names. -/
inductive Canonical : Path → Prop
  | absolute {names : List Name} (plain : ∀ n ∈ names, IsPlain n) : Canonical (absolute names)
  | relative {ups : Nat} {names : List Name} (plain : ∀ n ∈ names, IsPlain n) :
      Canonical (relative ups names)

variable {p base next : Path} {names : List Name} {ups : Nat}

/-! ## Climbing -/

/-- The components of a path that climbs so many times and then leads along some names. -/
def climbing (ups : Nat) (names : List Name) : List Component :=
  List.replicate ups .up ++ names.map .name

theorem push_up_of_ups (ups : Nat) :
    push (List.replicate ups .up) .up = List.replicate (ups + 1) .up := by
  cases ups <;> rfl

/-- Moves on a stack of names above climbs leave such a stack. -/
theorem foldl_push_moves {cs : List Component} (moves : ∀ c ∈ cs, Moves c) {stack : List Name}
    (plain : ∀ n ∈ stack, IsPlain n) (ups : Nat) :
    ∃ (ups' : Nat) (stack' : List Name), (∀ n ∈ stack', IsPlain n) ∧
      cs.foldl push (stack.map .name ++ List.replicate ups .up) =
        stack'.map .name ++ List.replicate ups' .up := by
  induction cs generalizing stack ups with
  | nil => exact ⟨ups, stack, plain, rfl⟩
  | cons c cs ih =>
      have rest : ∀ d ∈ cs, Moves d := fun d hd => moves d (List.mem_cons_of_mem _ hd)
      rcases moves c (List.mem_cons_self ..) with rfl | ⟨name, hn, rfl⟩
      · cases stack with
        | nil =>
            rw [List.foldl_cons, List.map_nil, List.nil_append, push_up_of_ups]
            exact ih rest plain (ups + 1)
        | cons top stack => exact ih rest (fun n hn => plain n (List.mem_cons_of_mem _ hn)) ups
      · rw [List.foldl_cons, push_name]
        exact ih rest (List.forall_mem_cons.mpr ⟨hn, plain⟩) ups

theorem foldl_push_nil_ups (ups : Nat) :
    (List.replicate ups Component.up).foldl push [] = List.replicate ups .up := by
  induction ups with
  | zero => rfl
  | succ ups ih =>
      rw [List.replicate_succ', List.foldl_append, ih, List.foldl_cons, List.foldl_nil,
        push_up_of_ups, List.replicate_succ']

/-- Climbing from a place below the root takes back its last names and stops at the root. -/
theorem foldl_push_ups (ups : Nat) (here : List Name) :
    (List.replicate ups .up).foldl push (here.map .name ++ [.root]) =
      (here.drop ups).map .name ++ [.root] := by
  induction ups generalizing here with
  | zero => rfl
  | succ ups ih =>
      rw [List.replicate_succ, List.foldl_cons]
      cases here with
      | nil => simpa [push] using ih []
      | cons top here => exact ih here

/-! ## Relative paths -/

theorem pieces_relative (plain : ∀ n ∈ names, IsPlain n) (some : ¬ (ups = 0 ∧ names = [])) :
    (relative ups names).pieces = List.replicate ups ".." ++ names := by
  rw [relative, if_neg some]
  refine pieces_paste ?_ fun n hn => ?_
  · simpa [List.replicate_eq_nil_iff] using some
  · rcases List.mem_append.mp hn with hn | hn
    · rw [List.eq_of_mem_replicate hn]
      decide
    · exact (plain n hn).no_slash

theorem isAbsolute_relative (plain : ∀ n ∈ names, IsPlain n) :
    (relative ups names).isAbsolute = false := by
  by_cases nowhere : ups = 0 ∧ names = []
  · rw [relative, if_pos nowhere]
    rfl
  · rw [← Bool.not_eq_true]
    intro absolute
    obtain ⟨second, rest, cut⟩ := pieces_of_isAbsolute absolute
    have blank : "" ∈ List.replicate ups ".." ++ names := by
      rw [← pieces_relative plain nowhere, cut]
      exact List.mem_cons_self ..
    rcases List.mem_append.mp blank with climb | name
    · exact absurd (List.eq_of_mem_replicate climb) (by decide)
    · exact (plain "" name).ne_empty rfl

theorem filterMap_pieces_relative (plain : ∀ n ∈ names, IsPlain n) :
    (relative ups names).pieces.filterMap component? = climbing ups names := by
  by_cases nowhere : ups = 0 ∧ names = []
  · obtain ⟨rfl, rfl⟩ := nowhere
    rfl
  · have climbs : (List.replicate ups "..").filterMap component? = List.replicate ups .up :=
      List.filterMap_replicate_of_some rfl
    rw [pieces_relative plain nowhere, List.filterMap_append, filterMap_component? plain, climbs,
      climbing]

theorem normalize_of_climbing (h : p.normalComponents = climbing ups names) :
    p.normalize = relative ups names := by
  have pieces : (climbing ups names).map Component.piece = List.replicate ups ".." ++ names := by
    rw [climbing, List.map_append, List.map_replicate, List.map_map]
    exact congrArg _ (List.map_id names)
  rw [normalize, h, relative, ← pieces]
  cases ups with
  | zero => cases names <;> rfl
  | succ ups => rfl

/-- A path that is not written from the root has the components of one that climbs first. -/
theorem exists_climbing (hp : p.isAbsolute = false) :
    ∃ ups names, (∀ n ∈ names, IsPlain n) ∧ p.normalComponents = climbing ups names := by
  have moves : ∀ c ∈ p.pieces.filterMap component?, Moves c := by
    intro c hc
    obtain ⟨piece, mem, stands⟩ := List.mem_filterMap.mp hc
    exact moves_of_component? (no_slash_of_mem_pieces mem) stands
  obtain ⟨ups, stack, plain, left⟩ := foldl_push_moves moves (List.forall_mem_nil _) 0
  refine ⟨ups, stack.reverse, fun n hn => plain n (List.mem_reverse.mp hn), ?_⟩
  rw [normalComponents, ← foldl_push_relative hp]
  refine (congrArg List.reverse left).trans ?_
  simp [climbing]

/-! ## Normal forms -/

theorem canonical_normalize (p : Path) : Canonical p.normalize := by
  cases hp : p.isAbsolute with
  | true =>
      rw [normalize_eq_walk hp, pathTo_eq]
      exact .absolute fun n hn => Location.plain_walk_nil _ n (List.mem_reverse.mp hn)
  | false =>
      obtain ⟨ups, names, plain, components⟩ := exists_climbing hp
      rw [normalize_of_climbing components]
      exact .relative plain

theorem normalComponents_absolute (plain : ∀ n ∈ names, IsPlain n) :
    (absolute names).normalComponents = .root :: names.map .name := by
  rw [normalComponents, components_absolute plain, List.foldl_cons, push_root, foldl_push_names]
  simp

theorem normalComponents_relative (plain : ∀ n ∈ names, IsPlain n) :
    (relative ups names).normalComponents = climbing ups names := by
  rw [normalComponents, ← foldl_push_relative (isAbsolute_relative plain),
    filterMap_pieces_relative plain, climbing, List.foldl_append, foldl_push_nil_ups,
    foldl_push_names]
  simp

theorem Canonical.normalize_eq (h : Canonical p) : p.normalize = p := by
  cases h with
  | absolute plain => exact normalize_of_normalComponents (normalComponents_absolute plain)
  | relative plain => exact normalize_of_climbing (normalComponents_relative plain)

theorem normalize_normalize (p : Path) : p.normalize.normalize = p.normalize :=
  (canonical_normalize p).normalize_eq

theorem isAbsolute_normalize (p : Path) : p.normalize.isAbsolute = p.isAbsolute := by
  cases hp : p.isAbsolute with
  | true =>
      rw [normalize_eq_walk hp]
      exact isAbsolute_pathTo (Location.plain_walk_nil _)
  | false =>
      rw [← Bool.not_eq_true] at hp ⊢
      exact mt isAbsolute_of_normalize hp

theorem normalComponents_normalize (p : Path) : p.normalize.normalComponents = p.normalComponents := by
  cases hp : p.isAbsolute with
  | true =>
      have plain : ∀ n ∈ (Location.walk [] p.text).reverse, IsPlain n := fun n hn =>
        Location.plain_walk_nil p.text n (List.mem_reverse.mp hn)
      rw [normalize_eq_walk hp, pathTo_eq, normalComponents_absolute plain, normalComponents_eq_walk hp]
  | false =>
      obtain ⟨ups, names, plain, components⟩ := exists_climbing hp
      rw [normalize_of_climbing components, normalComponents_relative plain, components]

/-! ## Joining -/

theorem join_of_isAbsolute (h : next.isAbsolute = true) : base ++ next = next := by
  show join _ _ = _
  rw [join, h, Bool.true_or, if_pos rfl]

/-- What is taken from a path goes on from the components of that one. -/
theorem normalComponents_join (h : next.isAbsolute = false) :
    (base ++ next).normalComponents =
      ((next.pieces.filterMap component?).foldl push base.normalComponents.reverse).reverse := by
  have done : base.normalComponents.reverse = base.components.foldl push [] := List.reverse_reverse _
  rw [done, normalComponents]
  by_cases empty : base.text = ""
  · have same : base ++ next = next := by
      show join _ _ = _
      simp [join, empty]
    have nothing : base.components = [] := by
      obtain ⟨text⟩ := base
      obtain rfl : text = "" := empty
      rfl
    rw [same, nothing, List.foldl_nil, foldl_push_relative h]
  · rw [components_join empty h, List.foldl_append]

/-- It makes no difference whether a path is put into normal form before others are taken from it. -/
theorem normalize_normalize_join (a b : Path) : (a.normalize ++ b).normalize = (a ++ b).normalize := by
  cases hb : b.isAbsolute with
  | true => rw [join_of_isAbsolute hb, join_of_isAbsolute hb]
  | false =>
      apply normalize_congr
      rw [normalComponents_join hb, normalComponents_join hb, normalComponents_normalize]

theorem normalize_join_normalized (a b : Path) : (a ++ b.normalize).normalize = (a ++ b).normalize := by
  have kept : b.normalize.isAbsolute = b.isAbsolute := isAbsolute_normalize b
  cases hb : b.isAbsolute with
  | true =>
      rw [join_of_isAbsolute hb, join_of_isAbsolute (kept.trans hb), normalize_normalize]
  | false =>
      apply normalize_congr
      rw [normalComponents_join hb, normalComponents_join (kept.trans hb), foldl_push_normalize hb]

/-- A path that climbs takes back the last names of the path it is taken from. -/
theorem normalize_absolute_join_relative {front names : List Name} (hf : ∀ n ∈ front, IsPlain n)
    (hn : ∀ n ∈ names, IsPlain n) (ups : Nat) :
    (absolute front ++ relative ups names).normalize =
      absolute (front.take (front.length - ups) ++ names) := by
  apply normalize_of_normalComponents
  have start : (absolute front).normalComponents.reverse = front.reverse.map .name ++ [.root] := by
    rw [normalComponents_absolute hf]
    simp
  have climbed := foldl_push_ups ups front.reverse
  rw [normalComponents_join (isAbsolute_relative hn), filterMap_pieces_relative hn, start, climbing,
    List.foldl_append, climbed, foldl_push_names]
  simp [List.drop_reverse]

/-- Normal forms are the canonical paths, which are their own normal forms and start at the root exactly if
the path does.  A path may be put into normal form before or after others are taken from it.  If it starts
at the root, and what is taken from it climbs, the normal form loses that many of its last names, or all of
them, before the names of the other are added. -/
theorem normalize_canonical (a b : Path) :
    Canonical a.normalize ∧ (Canonical a ↔ a.normalize = a) ∧
      a.normalize.normalize = a.normalize ∧ a.normalize.isAbsolute = a.isAbsolute ∧
      (a ++ b.normalize).normalize = (a ++ b).normalize ∧
      (a.normalize ++ b).normalize = (a ++ b).normalize ∧
      ∀ front ups names, (∀ n ∈ front, IsPlain n) → (∀ n ∈ names, IsPlain n) →
        a.normalize = absolute front → b.normalize = relative ups names →
        (a ++ b).normalize = absolute (front.take (front.length - min ups front.length) ++ names) := by
  have own : Canonical a ↔ a.normalize = a := by
    refine ⟨Canonical.normalize_eq, fun same => ?_⟩
    rw [← same]
    exact canonical_normalize a
  refine ⟨canonical_normalize a, own, normalize_normalize a, isAbsolute_normalize a,
    normalize_join_normalized a b, normalize_normalize_join a b, ?_⟩
  intro front ups names hf hn ha hb
  have left : front.length - min ups front.length = front.length - ups := by omega
  rw [← normalize_join_normalized, ← normalize_normalize_join, ha, hb,
    normalize_absolute_join_relative hf hn, left]

/-- A path with a detour of its own, and one that takes back one of its two names; then one that takes back
more names than there are. -/
theorem normalize_canonical_climbs :
    (Path.mk "/srv/x/..//store/").normalize = absolute ["srv", "store"] ∧
      (Path.mk "./../a/./b/").normalize = relative 1 ["a", "b"] ∧
      (Path.mk "/srv/x/..//store/" ++ Path.mk "./../a/./b/").normalize = ⟨"/srv/a/b"⟩ ∧
      (Path.mk "/srv/x/..//store/" ++ Path.mk "../q/../../../etc").normalize = ⟨"/etc"⟩ ∧
      (Path.mk "q/../../x").normalize = ⟨"../x"⟩ ∧ Canonical ⟨"../x"⟩ := by
  have front : ∀ n ∈ ["srv", "store"], IsPlain n := by
    rintro n (_ | ⟨_, _ | ⟨_, ⟨⟩⟩⟩) <;> exact ⟨by decide, by decide, by decide, by decide⟩
  have names : ∀ n ∈ ["a", "b"], IsPlain n := by
    rintro n (_ | ⟨_, _ | ⟨_, ⟨⟩⟩⟩) <;> exact ⟨by decide, by decide, by decide, by decide⟩
  have last : ∀ n ∈ ["etc"], IsPlain n := by
    rintro n (_ | ⟨_, ⟨⟩⟩)
    exact ⟨by decide, by decide, by decide, by decide⟩
  have start : (Path.mk "/srv/x/..//store/").normalize = absolute ["srv", "store"] := by decide
  have once : (Path.mk "./../a/./b/").normalize = relative 1 ["a", "b"] := by decide
  have often : (Path.mk "../q/../../../etc").normalize = relative 3 ["etc"] := by decide
  obtain ⟨-, -, -, -, -, -, climbs⟩ := normalize_canonical ⟨"/srv/x/..//store/"⟩ ⟨"./../a/./b/"⟩
  obtain ⟨-, -, -, -, -, -, stops⟩ := normalize_canonical ⟨"/srv/x/..//store/"⟩ ⟨"../q/../../../etc"⟩
  obtain ⟨form, -⟩ := normalize_canonical ⟨"q/../../x"⟩ ⟨""⟩
  have up : (Path.mk "q/../../x").normalize = ⟨"../x"⟩ := by decide
  exact ⟨start, once, (climbs _ _ _ front names start once).trans (by decide),
    (stops _ _ _ front last start often).trans (by decide), up, up ▸ form⟩

end Strongroom.Path
