import Protograph.Proofs.Proto.Discovery

/-! # Breadth first — the order of the emission list

    Every id but the root has a finder, the first emitted object with a field
    of that target, and is found through the first such field.  The list is
    breadth-first when finders come first, when ids stand in the order of
    finder and field, and when they stand in the order of their distance.

    The order of finder and field is that of the first occurrences in the
    stream the walk sees.  Distances follow from it level by level
    (`BreadthFirst.before_of_nearer`): an id at distance `d + 1` is found by
    something within `d`, and one further away by something that is not.

    A breadth-first list is determined by its ids (`BreadthFirst.unique`),
    as the part read so far decides what comes next. -/

namespace Protograph.Graph

variable {g : Graph} {ids : List TypeId}

/-- Position of the first of the ids whose type has a field that refers to `id`. -/
def finder (g : Graph) (ids : List TypeId) (id : TypeId) : Nat := firstRow g.targetsAt ids id

/-- Number of the first field of the finder that refers to `id`, from zero. -/
def finderField (g : Graph) (ids : List TypeId) (id : TypeId) : Nat :=
  firstPlace g.targetsAt ids id

/-- How an id is found: the finder, then the field. -/
def found (g : Graph) (ids : List TypeId) (id : TypeId) : Nat × Nat :=
  (g.finder ids id, g.finderField ids id)

/-- Ids in breadth-first order from the root. -/
structure BreadthFirst (g : Graph) (ids : List TypeId) : Prop where
  /-- Every id but the root has its finder in front of it. -/
  earlier : ∀ {i : Nat} {id : TypeId}, ids[i]? = some id → id ≠ g.root → g.finder ids id < i
  /-- An id in front of another is found earlier, by finder and then by field. -/
  ordered : ∀ {i j : Nat} {x y : TypeId}, i < j → ids[i]? = some x → ids[j]? = some y →
    x ≠ g.root → y ≠ g.root → Prod.Lex (· < ·) (· < ·) (g.found ids x) (g.found ids y)
  /-- An id in front of another is no further from the root. -/
  level : ∀ {i j : Nat} {x y : TypeId}, i ≤ j → ids[i]? = some x → ids[j]? = some y →
    g.distance x ≤ g.distance y

/-- The finder is one of the ids, if one of them has such a field at all. -/
theorem finder_le {i : Nat} {owner id : TypeId} (there : ids[i]? = some owner)
    (edge : g.Edge owner id) : g.finder ids id ≤ i :=
  firstRow_le there (mem_targetsAt.2 edge)

theorem edge_of_finder {id : TypeId} (inside : g.finder ids id < ids.length) :
    ∃ owner, ids[g.finder ids id]? = some owner ∧ g.Edge owner id := by
  obtain ⟨owner, there, refers⟩ := mem_firstRow inside
  exact ⟨owner, there, mem_targetsAt.1 refers⟩

/-- Where an id is found is decided by any beginning that has its finder. -/
theorem found_append {front : List TypeId} {id : TypeId} (h : ∃ owner ∈ front, g.Edge owner id)
    (back : List TypeId) : g.found (front ++ back) id = g.found front id := by
  obtain ⟨owner, inside, edge⟩ := h
  obtain ⟨sameRow, samePlace⟩ := firstRow_append ⟨owner, inside, mem_targetsAt.2 edge⟩ back
  exact Prod.ext sameRow samePlace

/-- An id found before a position is found by what stands before it. -/
theorem owner_of_finder_lt {n : Nat} {id : TypeId} (lt : g.finder ids id < n)
    (within : n ≤ ids.length) : ∃ owner ∈ ids.take n, g.Edge owner id := by
  obtain ⟨owner, there, edge⟩ := edge_of_finder (Nat.lt_of_lt_of_le lt within)
  exact ⟨owner, mem_take_iff.2 ⟨g.finder ids id, lt, there⟩, edge⟩

namespace Emission

variable (h : g.Emission ids)

include h

theorem finder_lt {i : Nat} {id : TypeId} (there : ids[i]? = some id) (other : id ≠ g.root) :
    g.finder ids id < i := by
  obtain ⟨owner, before, edge⟩ := (mem_known.1 (h.founded there)).resolve_left other
  obtain ⟨j, earlier, at_j⟩ := mem_take_iff.1 before
  exact Nat.lt_of_le_of_lt (finder_le at_j edge) earlier

/-- The list keeps the order of first occurrence in the stream. -/
theorem idxOf_lt {i j : Nat} {x y : TypeId} (lt : i < j) (at_i : ids[i]? = some x)
    (at_j : ids[j]? = some y) : (g.known ids).idxOf x < (g.known ids).idxOf y := by
  have pairwise : ids.Pairwise fun x y => (g.known ids).idxOf x < (g.known ids).idxOf y := by
    have all := (pairwise_eraseDups (g.known ids)).filter g.emits
    rw [← h.complete] at all
    exact all
  obtain ⟨hi, rfl⟩ := List.getElem?_eq_some_iff.1 at_i
  obtain ⟨hj, rfl⟩ := List.getElem?_eq_some_iff.1 at_j
  exact List.pairwise_iff_getElem.1 pairwise i j hi hj lt

theorem found_lt {i j : Nat} {x y : TypeId} (lt : i < j) (at_i : ids[i]? = some x)
    (at_j : ids[j]? = some y) (hx : x ≠ g.root) (hy : y ≠ g.root) :
    Prod.Lex (· < ·) (· < ·) (g.found ids x) (g.found ids y) := by
  have first := h.idxOf_lt lt at_i at_j
  rw [known, List.idxOf_cons_ne _ hx.symm, List.idxOf_cons_ne _ hy.symm] at first
  have shown : x ∈ g.known ids := by
    have inside := List.mem_of_getElem? at_i
    rw [h.complete, List.mem_filter, List.mem_eraseDups] at inside
    exact inside.1
  exact lex_of_idxOf_flatMap_lt ((List.mem_cons.1 shown).resolve_left hx)
    (Nat.lt_of_succ_lt_succ first)

end Emission

/-! ## Distances -/

/-- Some path of at most `d` edges leads to the id. -/
def Within (g : Graph) (d : Nat) (id : TypeId) : Prop := ∃ n ≤ d, g.Path n id

theorem within_root (d : Nat) : g.Within d g.root := ⟨0, Nat.zero_le d, .root⟩

theorem Within.step {d : Nat} {owner id : TypeId} (near : g.Within d owner)
    (edge : g.Edge owner id) : g.Within (d + 1) id := by
  obtain ⟨n, le, path⟩ := near
  exact ⟨n + 1, Nat.succ_le_succ le, .step path edge⟩

theorem Within.reachable {d : Nat} {id : TypeId} (near : g.Within d id) : g.Reachable id := by
  obtain ⟨n, -, path⟩ := near
  exact ⟨n, path⟩

/-- Something near that is not the root is found by something nearer. -/
theorem Within.owner {d : Nat} {id : TypeId} (near : g.Within (d + 1) id) (other : id ≠ g.root) :
    ∃ owner, g.Within d owner ∧ g.Edge owner id := by
  obtain ⟨n, le, path⟩ := near
  cases path with
  | root => exact absurd rfl other
  | @step n owner _ path edge => exact ⟨owner, ⟨n, Nat.le_of_succ_le_succ le, path⟩, edge⟩

theorem eq_root_of_within_zero {id : TypeId} (near : g.Within 0 id) : id = g.root := by
  obtain ⟨n, le, path⟩ := near
  cases path with
  | root => rfl
  | step path edge => exact nomatch le

namespace Emission

variable (h : g.Emission ids)

include h

/-- The root stands at the front, so anything else stands behind it. -/
theorem root_before {i j : Nat} {x : TypeId} (root : g.HasBlock g.root)
    (at_i : ids[i]? = some x) (at_j : ids[j]? = some g.root) (other : x ≠ g.root) : j < i := by
  have front : ids[0]? = some g.root := by
    rw [← List.head?_eq_getElem?]
    exact h.head root
  have hj : j = 0 := by
    obtain ⟨inside, -⟩ := List.getElem?_eq_some_iff.1 at_j
    exact (List.getElem?_inj inside h.nodup).1 (at_j.trans front.symm)
  have hi : i ≠ 0 := by
    rintro rfl
    rw [front] at at_i
    cases at_i
    exact other rfl
  omega

theorem mem_of_edge {owner id : TypeId} (reached : g.Reachable owner) (edge : g.Edge owner id) :
    owner ∈ ids := by
  obtain ⟨o, there, -⟩ := edge
  exact (h.mem_iff owner).2 ⟨reached, Or.inl ⟨o, there⟩⟩

/-- All that is within a distance comes before all that is not. -/
theorem before_of_nearer (root : g.HasBlock g.root) (d : Nat) {i j : Nat} {x y : TypeId}
    (at_i : ids[i]? = some x) (at_j : ids[j]? = some y) (near : g.Within d y)
    (far : ¬ g.Within d x) : j < i := by
  have hx : x ≠ g.root := by
    rintro rfl
    exact far (within_root d)
  by_cases hy : y = g.root
  · subst hy
    exact h.root_before root at_i at_j hx
  · induction d generalizing i j x y with
    | zero => exact absurd (eq_root_of_within_zero near) hy
    | succ d ih =>
        -- `y` has a field from within `d`, and its finder is no later than that
        obtain ⟨owner, nearer, edge⟩ := near.owner hy
        obtain ⟨q, at_q⟩ := List.mem_iff_getElem?.1 (h.mem_of_edge nearer.reachable edge)
        have finder_y : g.finder ids y ≤ q := finder_le at_q edge
        -- the finder of `x` is not within `d`, so it comes later
        have below := (List.getElem?_eq_some_iff.1 at_i).1
        obtain ⟨first, at_p, edge_x⟩ :=
          edge_of_finder (Nat.lt_trans (h.finder_lt at_i hx) below)
        have further : ¬ g.Within d first := fun close => far (close.step edge_x)
        have first_ne : first ≠ g.root := by
          rintro rfl
          exact further (within_root d)
        have finder_x : q < g.finder ids x := by
          by_cases ho : owner = g.root
          · subst ho
            exact h.root_before root at_p at_q first_ne
          · exact ih at_p at_q nearer further first_ne ho
        refine Nat.lt_of_not_le fun le => ?_
        rcases Nat.lt_or_eq_of_le le with lt | rfl
        · rcases Prod.lex_def.1 (h.found_lt lt at_i at_j hx hy) with above | ⟨same, -⟩
          · exact absurd above (by simp only [found]; omega)
          · exact absurd same (by simp only [found]; omega)
        · rw [at_i] at at_j
          cases at_j
          exact far near

/-- Distances do not decrease along the list. -/
theorem distance_mono (root : g.HasBlock g.root) {i j : Nat} {x y : TypeId} (le : i ≤ j)
    (at_i : ids[i]? = some x) (at_j : ids[j]? = some y) : g.distance x ≤ g.distance y := by
  refine Nat.le_of_not_lt fun lt => ?_
  have near : g.Within (g.distance y) y :=
    ⟨g.distance y, Nat.le_refl _, path_distance (h.reachable j y at_j)⟩
  have far : ¬ g.Within (g.distance y) x := by
    rintro ⟨n, close, path⟩
    have := distance_le path
    omega
  have := h.before_of_nearer root (g.distance y) at_i at_j near far
  omega

theorem breadthFirst (root : g.HasBlock g.root) : g.BreadthFirst ids where
  earlier := h.finder_lt
  ordered := h.found_lt
  level := h.distance_mono root

end Emission

/-! ## One order only -/

namespace BreadthFirst

variable {others : List TypeId}

/-- Two breadth-first lists that agree up to a position agree on what is found
    before it. -/
theorem found_eq {n : Nat} {id : TypeId} (same : ids.take n = others.take n)
    (within : n ≤ ids.length) (lt : g.finder ids id < n) : g.found ids id = g.found others id := by
  have owner := owner_of_finder_lt lt within
  calc g.found ids id = g.found (ids.take n ++ ids.drop n) id := by rw [List.take_append_drop]
    _ = g.found (ids.take n) id := found_append owner _
    _ = g.found (others.take n) id := by rw [same]
    _ = g.found (others.take n ++ others.drop n) id := (found_append (same ▸ owner) _).symm
    _ = g.found others id := by rw [List.take_append_drop]

/-- An entry of the other list stands no earlier than the agreement reaches. -/
theorem later_of_same {n : Nat} {x y : TypeId} (same : ids.take n = others.take n)
    (nodup : ids.Nodup) (mem : x ∈ others) (at_n : ids[n]? = some x) (at_other : others[n]? = some y)
    (differ : x ≠ y) : ∃ m, others[m]? = some x ∧ n < m := by
  obtain ⟨m, at_m⟩ := List.mem_iff_getElem?.1 mem
  refine ⟨m, at_m, ?_⟩
  rcases Nat.lt_trichotomy m n with before | rfl | after
  · -- then it would stand twice in the first list
    have twice : ids[m]? = some x := by
      rw [← List.getElem?_take_of_lt before, same, List.getElem?_take_of_lt before]
      exact at_m
    have inside := (List.getElem?_eq_some_iff.1 twice).1
    have := (List.getElem?_inj inside nodup).1 (twice.trans at_n.symm)
    omega
  · rw [at_other] at at_m
    cases at_m
    exact absurd rfl differ
  · exact after

/-- Where two breadth-first lists agree so far, they agree on the next entry. -/
theorem next_eq (h : g.BreadthFirst ids) (h' : g.BreadthFirst others) {n : Nat} {x y : TypeId}
    (same : ids.take n = others.take n) (nodup : ids.Nodup) (nodup' : others.Nodup)
    (mem : x ∈ others) (mem' : y ∈ ids) (at_n : ids[n]? = some x) (at_other : others[n]? = some y)
    (hx : x ≠ g.root) (hy : y ≠ g.root) : x = y := by
  by_contra differ
  obtain ⟨m, at_m, hm⟩ := later_of_same same nodup mem at_n at_other differ
  obtain ⟨k, at_k, hk⟩ := later_of_same same.symm nodup' mem' at_other at_n (Ne.symm differ)
  -- how the two are found is decided before they stand, where the lists agree
  have found_x : g.found ids x = g.found others x :=
    found_eq same (Nat.le_of_lt (List.getElem?_eq_some_iff.1 at_n).1) (h.earlier at_n hx)
  have found_y : g.found others y = g.found ids y :=
    found_eq same.symm (Nat.le_of_lt (List.getElem?_eq_some_iff.1 at_other).1)
      (h'.earlier at_other hy)
  -- each list puts its own entry first, for the same two places
  have one := h.ordered hk at_n at_k hx hy
  have two := h'.ordered hm at_other at_m hy hx
  rw [found_x, ← found_y] at one
  exact asymm one two

/-- Nothing but the root has no finder in front of it. -/
theorem front (h : g.BreadthFirst ids) (root : g.root ∈ ids) : ids[0]? = some g.root := by
  cases at_zero : ids[0]? with
  | none =>
      have empty : ids.length ≤ 0 := List.getElem?_eq_none_iff.1 at_zero
      have inside := List.length_pos_of_mem root
      omega
  | some id =>
      by_cases same : id = g.root
      · rw [same]
      · exact absurd (h.earlier at_zero same) (Nat.not_lt_zero _)

theorem ne_root {n : Nat} {id : TypeId} (h : g.BreadthFirst ids) (nodup : ids.Nodup)
    (root : g.root ∈ ids) (behind : 0 < n) (there : ids[n]? = some id) : id ≠ g.root := by
  rintro rfl
  have at_zero := h.front root
  have inside := (List.getElem?_eq_some_iff.1 at_zero).1
  have := (List.getElem?_inj inside nodup).1 (at_zero.trans there.symm)
  omega

/-- Breadth-first lists of the same ids agree up to every position. -/
theorem take_eq (h : g.BreadthFirst ids) (h' : g.BreadthFirst others) (nodup : ids.Nodup)
    (nodup' : others.Nodup) (root : g.root ∈ ids) (mem : ∀ id, id ∈ others ↔ id ∈ ids)
    (length : others.length = ids.length) (n : Nat) : ids.take n = others.take n := by
  have root' : g.root ∈ others := (mem _).2 root
  induction n with
  | zero => rfl
  | succ n ih =>
      rw [List.take_add_one, List.take_add_one, ih]
      congr 2
      rcases Nat.eq_zero_or_pos n with rfl | behind
      · rw [h.front root, h'.front root']
      · cases at_n : ids[n]? with
        | none =>
            have past : ids.length ≤ n := List.getElem?_eq_none_iff.1 at_n
            rw [List.getElem?_eq_none (by omega)]
        | some x =>
            have inside := (List.getElem?_eq_some_iff.1 at_n).1
            have at_other : others[n]? = some others[n] := List.getElem?_eq_getElem (by omega)
            have next : x = others[n] :=
              next_eq h h' ih nodup nodup' ((mem x).2 (List.mem_of_getElem? at_n))
                ((mem _).1 (List.mem_of_getElem? at_other)) at_n at_other
                (h.ne_root nodup root behind at_n) (h'.ne_root nodup' root' behind at_other)
            rw [at_other, next]

/-- A breadth-first list is determined by its ids. -/
theorem unique (h : g.BreadthFirst ids) (h' : g.BreadthFirst others) (nodup : ids.Nodup)
    (nodup' : others.Nodup) (root : g.root ∈ ids) (mem : ∀ id, id ∈ others ↔ id ∈ ids) :
    others = ids := by
  have length : others.length = ids.length :=
    ((List.perm_ext_iff_of_nodup nodup' nodup).2 mem).length_eq
  have whole := take_eq h h' nodup nodup' root mem length ids.length
  rw [List.take_length, ← length, List.take_length] at whole
  exact whole.symm

end BreadthFirst

/-- **BREADTH-FIRST ORDER**: the walk of a finished schema with a named root
    yields its ids in breadth-first order, and there is no other list of the
    same ids in that order. -/
theorem emissionList_breadthFirst (built : g.Built) (named : g.rootName ≠ "") :
    ∃ ids, g.emissionList = .ok ids ∧ g.BreadthFirst ids ∧
      ∀ others : List TypeId, others.Nodup → (∀ id, id ∈ others ↔ id ∈ ids) →
        g.BreadthFirst others → others = ids := by
  obtain ⟨ids, done, h⟩ := built.emission named
  have root : g.HasBlock g.root := Or.inl built.root_object
  have order := h.breadthFirst root
  refine ⟨ids, done, order, ?_⟩
  intro others nodup mem order'
  exact order.unique order' h.nodup nodup ((h.mem_iff _).2 ⟨⟨0, .root⟩, root⟩) mem

/-- The book is met before its genre, and no list in breadth-first order has them the other way. -/
theorem bookshop_breadthFirst :
    bookshop.Built ∧ bookshop.rootName ≠ "" ∧ bookshop.emissionList = .ok [0, 1, 3, 2] ∧
    bookshop.BreadthFirst [0, 1, 3, 2] ∧ ¬ bookshop.BreadthFirst [0, 3, 1, 2] := by
  have named : bookshop.rootName ≠ "" := by decide
  have walked : bookshop.emissionList = .ok [0, 1, 3, 2] := by decide +kernel
  obtain ⟨ids, done, order, unique⟩ := emissionList_breadthFirst bookshop_built named
  rw [walked] at done
  cases done
  refine ⟨bookshop_built, named, walked, order, fun swapped => ?_⟩
  have perm : [0, 3, 1, 2].Perm [0, 1, 3, 2] := by decide
  have same := unique [0, 3, 1, 2] (by decide) (fun _ => perm.mem_iff) swapped
  exact absurd same (by decide)

end Protograph.Graph
