import Mathlib.Data.List.Induction
import Strongroom.Proofs.Path.Pieces
/-!
# Joined paths and normal forms

What is taken from a path adds its pieces to the components of that path.  The stack of the normal
form takes components one by one, so it makes no difference whether a path was put into normal form
before it was taken from another one.
-/

namespace Strongroom.Path

variable {p base next : Path} {first second : Name} {rest names : List Name}

/-! ## Starts -/

theorem pieces_ne_nil (p : Path) : p.pieces ≠ [] := by
  simp [pieces, cut_ne_nil]

theorem text_of_pieces (h : p.pieces = [""]) : p.text = "" := by
  obtain ⟨text, cut, empty⟩ := List.map_eq_singleton_iff.mp h
  obtain rfl : text = [] := by simpa using empty
  cases ht : p.text.toList with
  | nil => simpa using ht
  | cons c cs =>
      rw [ht, Path.cut] at cut
      split at cut
      · simp [cut_ne_nil] at cut
      · split at cut
        · simp at cut
        · simp at cut

theorem split_of_root (h : p.pieces = "" :: second :: rest) : p.split = (.root, second :: rest) := by
  rw [split, h]
  rfl

theorem split_of_here (h : p.pieces = "." :: rest) : p.split = (.here, rest) := by
  rw [split, h]
  rfl

theorem split_of_other (h : p.pieces = first :: rest) (root : first ≠ "") (here : first ≠ ".") :
    p.split = (.none, first :: rest) := by
  rw [split, h]
  split
  · rename_i he
    exact absurd (List.cons.inj he).1 root
  · rename_i he
    exact absurd (List.cons.inj he).1 here
  · rfl

theorem isAbsolute_of_pieces {p : Path} {second : Name} {rest : List Name}
    (h : p.pieces = "" :: second :: rest) : p.isAbsolute = true := by
  simp [isAbsolute, split, h]

theorem pieces_of_isAbsolute (h : p.isAbsolute = true) :
    ∃ second rest, p.pieces = "" :: second :: rest := by
  obtain ⟨first, rest, hp⟩ := List.exists_cons_of_ne_nil (pieces_ne_nil p)
  by_cases root : first = ""
  · subst root
    cases rest with
    | nil =>
        rw [isAbsolute, split, hp] at h
        cases h
    | cons second rest => exact ⟨second, rest, hp⟩
  · by_cases here : first = "."
    · subst here
      rw [isAbsolute, split_of_here hp] at h
      cases h
    · rw [isAbsolute, split_of_other hp root here] at h
      cases h

/-- A path is written from the root if it starts with a slash. -/
theorem isAbsolute_iff : p.isAbsolute = true ↔ p.text.toList.head? = some '/' := by
  constructor
  · intro h
    obtain ⟨second, rest, hp⟩ := pieces_of_isAbsolute h
    rw [pieces] at hp
    cases ht : p.text.toList with
    | nil => simp [ht, cut] at hp
    | cons c cs =>
        rw [ht, cut] at hp
        split at hp
        · rename_i slash
          simp [slash]
        · split at hp
          · simp at hp
          · simp at hp
  · intro h
    obtain ⟨rest, hr⟩ := List.head?_eq_some_iff.mp h
    have slash : p = ⟨"" ++ "/" ++ String.ofList rest⟩ := by
      obtain ⟨text⟩ := p
      rw [Path.mk.injEq, ← String.toList_inj]
      simpa using hr
    obtain ⟨second, later, hb⟩ := List.exists_cons_of_ne_nil (pieces_ne_nil ⟨String.ofList rest⟩)
    exact isAbsolute_of_pieces (by rw [slash, pieces_append_slash, hb]; rfl)

theorem component?_ne_root (piece : Name) : component? piece ≠ some .root := by
  unfold component?
  split
  · simp
  · split
    · simp
    · simp

/-- A path that begins with the root is written from the root. -/
theorem isAbsolute_of_head {rest : List Component} (h : p.components = .root :: rest) :
    p.isAbsolute = true := by
  unfold components at h
  cases hl : p.split.1 with
  | root => simp [isAbsolute, hl]
  | here =>
      rw [hl] at h
      cases h
  | none =>
      rw [hl] at h
      have first : .root ∈ p.split.2.filterMap component? := by
        rw [show p.split.2.filterMap component? = .root :: rest from h]
        exact List.mem_cons_self ..
      obtain ⟨piece, -, stands⟩ := List.mem_filterMap.mp first
      exact absurd stands (component?_ne_root piece)

theorem isAbsolute_of_startsWith (hn : ∀ n ∈ names, IsPlain n)
    (h : p.startsWith (absolute names) = true) : p.isAbsolute = true := by
  rw [startsWith, components_absolute hn, List.isPrefixOf_iff_prefix] at h
  obtain ⟨rest, hr⟩ := h
  exact isAbsolute_of_head hr.symm

theorem isAbsolute_pathTo {place : Location} (plain : ∀ n ∈ place, IsPlain n) :
    (FileTree.pathTo place).isAbsolute = true :=
  isAbsolute_of_head (components_absolute fun n hn => plain n (List.mem_reverse.mp hn))

theorem paste_relative (plain : ∀ n ∈ names, IsPlain n) :
    isAbsolute ⟨paste names⟩ = false := by
  cases names with
  | nil => rfl
  | cons first rest =>
      have h := plain first (List.mem_cons_self ..)
      have cut := pieces_paste (List.cons_ne_nil first rest) fun n hn => (plain n hn).no_slash
      rw [isAbsolute, split_of_other cut h.ne_empty h.ne_here]
      rfl

/-! ## Joining -/

/-- After a slash nothing but pieces is left of a text. -/
theorem components_slash (a b : String) :
    components ⟨a ++ "/" ++ b⟩ =
      (if a = "" then [.root] else components ⟨a⟩) ++ (pieces ⟨b⟩).filterMap component? := by
  obtain ⟨second, later, hb⟩ := List.exists_cons_of_ne_nil (pieces_ne_nil ⟨b⟩)
  obtain ⟨first, rest, ha⟩ := List.exists_cons_of_ne_nil (pieces_ne_nil ⟨a⟩)
  have whole : pieces ⟨a ++ "/" ++ b⟩ = first :: (rest ++ second :: later) := by
    rw [pieces_append_slash, ha, hb, List.cons_append]
  by_cases empty : a = ""
  · subst empty
    obtain ⟨rfl, rfl⟩ := List.cons.inj ha
    rw [components, split_of_root whole, if_pos rfl, hb]
    rfl
  · rw [if_neg empty, components, components, hb]
    by_cases root : first = ""
    · subst root
      have more : rest ≠ [] := by
        rintro rfl
        exact empty (text_of_pieces ha)
      obtain ⟨next, rest, rfl⟩ := List.exists_cons_of_ne_nil more
      rw [split_of_root ha, split_of_root whole, List.append_assoc, ← List.filterMap_append]
      rfl
    · by_cases here : first = "."
      · subst here
        rw [split_of_here ha, split_of_here whole, List.append_assoc, ← List.filterMap_append]
      · rw [split_of_other ha root here, split_of_other whole root here, List.append_assoc,
          ← List.filterMap_append]
        rfl

/-- What is taken from a path adds its pieces to the components of that one. -/
theorem components_join (hb : base.text ≠ "") (hn : next.isAbsolute = false) :
    (base ++ next).components = base.components ++ next.pieces.filterMap component? := by
  show (join _ _).components = _
  simp only [join, hn, Bool.false_or, decide_eq_true_eq, if_neg hb]
  split
  · rename_i ends
    obtain ⟨front, hf⟩ := List.getLast?_eq_some_iff.mp ends
    have slash : base.text = String.ofList front ++ "/" := by
      rw [← String.toList_inj, hf]
      simp
    have whole : base.components = components ⟨String.ofList front ++ "/" ++ ""⟩ := by
      rw [String.append_empty, ← slash]
    have nothing : (pieces ⟨""⟩).filterMap component? = [] := rfl
    rw [slash, components_slash, whole, components_slash, nothing, List.append_nil]
  · rw [components_slash, if_neg hb]

theorem getLast?_absolute (h : ∀ n ∈ names, IsPlain n) (hne : names ≠ []) :
    (absolute names).text.toList.getLast? ≠ some '/' := by
  obtain ⟨front, last, rfl⟩ := (List.eq_nil_or_concat names).resolve_left hne
  rw [List.concat_eq_append] at h ⊢
  have plain := h last (by simp)
  have ends : ∃ before, (absolute (front ++ [last])).text = before ++ last := by
    by_cases hf : front = []
    · subst hf
      exact ⟨"/", rfl⟩
    · exact ⟨"/" ++ paste front ++ "/", by
        rw [text_absolute, paste_append_singleton hf]
        simp [String.append_assoc]⟩
  obtain ⟨before, hb⟩ := ends
  rw [hb, String.toList_append]
  have some : last.toList ≠ [] := by simpa using plain.ne_empty
  intro he
  rw [List.getLast?_append, List.getLast?_eq_some_getLast some, Option.some_or] at he
  exact plain.no_slash (Option.some.inj he ▸ List.getLast_mem some)

/-- A name below a path of names. -/
theorem absolute_append {last : Name} (h : ∀ n ∈ names, IsPlain n)
    (hl : IsPlain last) : absolute names ++ (⟨last⟩ : Path) = absolute (names ++ [last]) := by
  have relative : isAbsolute ⟨last⟩ = false := by
    have := pieces_of_no_slash hl.no_slash
    simp [isAbsolute, split, this]
    split <;> simp_all
  show join _ _ = _
  rw [join, relative, Bool.false_or]
  simp only [decide_eq_true_eq, text_absolute_ne_empty, if_false]
  by_cases hn : names = []
  · subst hn
    rw [if_pos (by rfl)]
    rfl
  · rw [if_neg (getLast?_absolute h hn)]
    simp only [absolute, paste_append_singleton hn, String.append_assoc]

/-! ## Moves -/

/-- A component that moves: up, or to an entry with a plain name. -/
def Moves (c : Component) : Prop :=
  c = .up ∨ ∃ name, IsPlain name ∧ c = .name name

theorem moves_of_component? {piece : Name} {c : Component} (hs : '/' ∉ piece.toList)
    (h : component? piece = some c) : Moves c := by
  unfold component? at h
  split at h
  · cases h
  · rename_i idle
    simp only [isIdle, Bool.or_eq_true, beq_iff_eq, not_or] at idle
    split at h
    · exact .inl (Option.some.inj h).symm
    · rename_i up
      exact .inr ⟨piece, ⟨idle.1, idle.2, up, hs⟩, (Option.some.inj h).symm⟩

theorem mem_push {stack : List Component} {c d : Component} (h : d ∈ push stack c) :
    d ∈ stack ∨ d = c ∧ c ≠ .here := by
  cases c with
  | here => exact .inl h
  | up =>
      cases stack with
      | nil => exact .inr ⟨List.mem_singleton.mp h, by simp⟩
      | cons top stack => cases top <;> simp [push] at h ⊢ <;> grind
  | root | name _ => simpa [push, or_comm] using h

theorem moves_of_foldl_push {cs stack : List Component} (hc : ∀ c ∈ cs, Moves c ∨ c = .here)
    (hs : ∀ c ∈ stack, Moves c) : ∀ c ∈ cs.foldl push stack, Moves c := by
  induction cs generalizing stack with
  | nil => exact hs
  | cons c cs ih =>
      refine ih (fun d hd => hc d (List.mem_cons_of_mem _ hd)) fun d hd => ?_
      rcases mem_push hd with hd | ⟨rfl, here⟩
      · exact hs d hd
      · exact (hc d (List.mem_cons_self ..)).resolve_right here

/-! ## Stacks -/

@[simp] theorem push_name (stack : List Component) (entry : Name) :
    push stack (.name entry) = .name entry :: stack := by
  cases stack with
  | nil => rfl
  | cons top stack => cases top <;> rfl

@[simp] theorem push_root (stack : List Component) : push stack .root = .root :: stack := by
  cases stack with
  | nil => rfl
  | cons top stack => cases top <;> rfl

/-- The normal form of some components does to a stack what they do. -/
theorem foldl_push_normal (cs stack : List Component) :
    (cs.foldl push []).reverse.foldl push stack = cs.foldl push stack := by
  -- from the end, as the last component decides what is on top
  induction cs using List.reverseRecOn with
  | nil => rfl
  | append_singleton cs c ih =>
      rw [List.foldl_append, List.foldl_append, ← ih]
      generalize cs.foldl push [] = normal
      cases c with
      | here => simp [push]
      | root => simp
      | name entry => simp
      | up =>
          cases normal with
          | nil => simp [push]
          | cons top normal => cases top <;> simp [push]

/-- What a path that is not written from the root does to a stack, its pieces do. -/
theorem foldl_push_relative (hp : p.isAbsolute = false) (stack : List Component) :
    (p.pieces.filterMap component?).foldl push stack = p.components.foldl push stack := by
  obtain ⟨first, rest, h⟩ := List.exists_cons_of_ne_nil (pieces_ne_nil p)
  by_cases here : first = "."
  · subst here
    rw [components, split_of_here h, h]
    cases stack <;> rfl
  · by_cases root : first = ""
    · subst root
      cases rest with
      | nil => rw [components, split, h]; rfl
      | cons second rest => simp [isAbsolute_of_pieces h] at hp
    · rw [components, split_of_other h root here, h]
      rfl

theorem foldl_push_names (names : List Name) (stack : List Component) :
    (names.map .name).foldl push stack = (names.map .name).reverse ++ stack := by
  induction names generalizing stack with
  | nil => rfl
  | cons first rest ih =>
      rw [List.map_cons, List.foldl_cons, push_name, ih]
      simp

/-! ## Normal forms -/

theorem ofComponents_root (names : List Name) :
    ofComponents (.root :: names.map .name) = absolute names := by
  simp only [ofComponents, absolute, List.map_map]
  rw [show (Component.piece ∘ Component.name : Name → Name) = id from rfl, List.map_id]

theorem normalize_of_normalComponents {names : List Name} 
    (h : p.normalComponents = .root :: names.map .name) : p.normalize = absolute names := by
  rw [normalize, h]
  exact ofComponents_root names

theorem normalize_congr {p q : Path} (h : p.normalComponents = q.normalComponents) :
    p.normalize = q.normalize := by
  rw [normalize, normalize, h]

theorem moves_of_mem_normalComponents (hp : p.isAbsolute = false) {c : Component}
    (h : c ∈ p.normalComponents) : Moves c := by
  rw [normalComponents, ← foldl_push_relative hp] at h
  refine moves_of_foldl_push (fun c hc => ?_) (by simp) c (List.mem_reverse.mp h)
  obtain ⟨piece, mem, stands⟩ := List.mem_filterMap.mp hc
  exact .inl (moves_of_component? (no_slash_of_mem_pieces mem) stands)

theorem component?_piece {c : Component} (h : Moves c) : component? c.piece = some c := by
  rcases h with rfl | ⟨name, hn, rfl⟩
  · rfl
  · exact component?_of_isPlain hn

theorem filterMap_component?_piece {cs : List Component} (h : ∀ c ∈ cs, Moves c) :
    (cs.map Component.piece).filterMap component? = cs := by
  induction cs with
  | nil => rfl
  | cons c cs ih =>
      rw [List.map_cons, List.filterMap_cons_some (component?_piece (h c (List.mem_cons_self ..))),
        ih fun d hd => h d (List.mem_cons_of_mem _ hd)]

theorem pieces_normalize (hp : p.isAbsolute = false) (some : p.normalComponents ≠ []) :
    p.normalize.pieces = p.normalComponents.map Component.piece := by
  have slash : ∀ n ∈ p.normalComponents.map Component.piece, '/' ∉ n.toList := by
    intro n hn
    obtain ⟨c, hc, rfl⟩ := List.mem_map.mp hn
    rcases moves_of_mem_normalComponents hp hc with rfl | ⟨name, plain, rfl⟩
    · decide
    · exact plain.no_slash
  obtain ⟨first, rest, hc⟩ := List.exists_cons_of_ne_nil some
  have moves : Moves first := moves_of_mem_normalComponents hp (hc ▸ List.mem_cons_self ..)
  have shape : p.normalize = ⟨paste (p.normalComponents.map Component.piece)⟩ := by
    rw [normalize, hc]
    rcases moves with rfl | ⟨name, -, rfl⟩ <;> rfl
  rw [shape, pieces_paste (by simpa using some) slash]

/-- A path that is not written from the root has no normal form that is. -/
theorem isAbsolute_of_normalize (h : p.normalize.isAbsolute = true) : p.isAbsolute = true := by
  by_contra relative
  rw [Bool.not_eq_true] at relative
  by_cases empty : p.normalComponents = []
  · rw [normalize, empty] at h
    exact absurd h (by decide)
  · obtain ⟨second, rest, cut⟩ := pieces_of_isAbsolute h
    rw [pieces_normalize relative empty] at cut
    obtain ⟨c, cs, hc, blank, -⟩ := List.map_eq_cons_iff.mp cut
    -- a slash in front would be the piece of a component that does not move
    rcases moves_of_mem_normalComponents relative (hc ▸ List.mem_cons_self ..) with
      rfl | ⟨name, plain, rfl⟩
    · exact absurd blank (by decide)
    · exact plain.ne_empty blank

theorem foldl_push_normalize (hp : p.isAbsolute = false) (stack : List Component) :
    (p.normalize.pieces.filterMap component?).foldl push stack =
      (p.pieces.filterMap component?).foldl push stack := by
  have same : p.normalComponents.foldl push stack = p.components.foldl push stack :=
    foldl_push_normal p.components stack
  rw [foldl_push_relative hp, ← same]
  by_cases empty : p.normalComponents = []
  · rw [normalize, empty]
    rfl
  · have moves : ∀ c ∈ p.normalComponents, Moves c := fun _ => moves_of_mem_normalComponents hp
    rw [pieces_normalize hp empty, filterMap_component?_piece moves]

/-- It makes no difference whether a path is put into normal form before it is taken from another
one. -/
theorem normalize_join_normalize (hb : base.text ≠ "") (hn : next.isAbsolute = false) :
    (base ++ next.normalize).normalize = (base ++ next).normalize := by
  have relative : next.normalize.isAbsolute = false := by
    by_contra absolute
    rw [isAbsolute_of_normalize (by simpa using absolute)] at hn
    cases hn
  apply normalize_congr
  rw [normalComponents, normalComponents, components_join hb relative, components_join hb hn,
    List.foldl_append, List.foldl_append, foldl_push_normalize hn]

end Strongroom.Path
