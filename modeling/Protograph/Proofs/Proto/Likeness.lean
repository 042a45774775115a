import Mathlib.Data.List.Forall2
import Protograph.Proto.Document

/-! # Likeness — schemas that differ in ids only have one document

    Two graphs are alike by a relation between their ids when it is one to
    one, relates the roots, and relates only ids of types that look the same:
    same sort, same name, and fields that agree in name and in list depth and
    refer to related ids (`Graph.Like`).  Neither graph has to be covered.

    Then every step of the walk does the same in both: it looks at fields of
    the same name, meets related targets, and has met them before or not in
    both (`Walk.alike_step`).  So the emission lists are related, entry by
    entry (`Graph.Like.walk`), and since blocks are made from names alone, the
    documents are equal, events and errors included (`Graph.Like.translate`). -/

namespace Protograph

/-! ## Computations side by side -/

section Traced

variable {ε α β γ δ : Type} {R : α → β → Prop} {S : γ → δ → Prop}
  {t : Traced ε α} {u : Traced ε β}

/-- The same events, and then related results or the same error. -/
inductive Traced.Alike (R : α → β → Prop) : Traced ε α → Traced ε β → Prop where
  | ok {events : List Event} {a : α} {b : β} (related : R a b) :
      Alike R ⟨events, .ok a⟩ ⟨events, .ok b⟩
  | error {events : List Event} {e : ε} : Alike R ⟨events, .error e⟩ ⟨events, .error e⟩

namespace Traced

theorem Alike.bind {f : α → Traced ε γ} {f' : β → Traced ε δ} (h : Alike R t u)
    (next : ∀ a b, t.result = .ok a → R a b → Alike S (f a) (f' b)) :
    Alike S (t >>= f) (u >>= f') := by
  cases h with
  | error => exact .error
  | @ok events a b related =>
      have rest := next a b rfl related
      rw [bind_of_ok rfl, bind_of_ok rfl]
      generalize f a = one at rest ⊢
      generalize f' b = other at rest ⊢
      cases rest with
      | ok related => exact .ok related
      | error => exact .error

theorem Alike.refl (t : Traced ε α) : Alike Eq t t := by
  obtain ⟨events, result⟩ := t
  cases result with
  | ok a => exact .ok rfl
  | error e => exact .error

theorem Alike.eq {u : Traced ε α} (h : Alike Eq t u) : t = u := by
  cases h with
  | ok same => rw [same]
  | error => rfl

theorem Alike.result_map {f : α → γ} {f' : β → γ} (h : Alike R t u)
    (same : ∀ a b, R a b → f a = f' b) : t.result.map f = u.result.map f' := by
  cases h with
  | ok related => exact congrArg Except.ok (same _ _ related)
  | error => rfl

end Traced

end Traced

/-! ## Graphs side by side -/

section Like

variable {R : TypeId → TypeId → Prop}

/-- Fields of one name and list depth that refer to related ids. -/
structure Field.Like (R : TypeId → TypeId → Prop) (f f' : Field TypeId) : Prop where
  name : f.name = f'.name
  depth : f.type.listDepth = f'.type.listDepth
  target : R f.type.target f'.type.target

/-- Types that differ at most in the ids that their fields refer to, and in marks
    that do not count. -/
inductive TypeNode.Like (R : TypeId → TypeId → Prop) : TypeNode → TypeNode → Prop where
  | scalar (kind : ScalarKind) : Like R (.scalar kind) (.scalar kind)
  | object {name : String} {fields fields' : List (Field TypeId)}
      (fields_like : List.Forall₂ (Field.Like R) fields fields') :
      Like R (.object ⟨name, fields⟩) (.object ⟨name, fields'⟩)
  | enum (e : EnumType) : Like R (.enum e) (.enum e)
  | interface (name : String) : Like R (.interface name) (.interface name)
  | union (name : String) : Like R (.union name) (.union name)
  | inputObject (name : String) : Like R (.inputObject name) (.inputObject name)

theorem TypeNode.Like.name_eq {x x' : TypeNode} (h : Like R x x') : x.name = x'.name := by
  cases h <;> rfl

theorem TypeNode.Like.variant_eq {x x' : TypeNode} (h : Like R x x') :
    x.variant = x'.variant := by
  cases h <;> rfl

theorem TypeNode.Like.isEmittable_eq {x x' : TypeNode} (h : Like R x x') :
    x.isEmittable = x'.isEmittable := by
  cases h <;> rfl

/-- Graphs whose types look the same at related ids, the root's included. -/
structure Graph.Like (R : TypeId → TypeId → Prop) (g g' : Graph) : Prop where
  root : R g.root g'.root
  unique : ∀ {i i' j j' : TypeId}, R i i' → R j j' → (i = j ↔ i' = j')
  nodes : ∀ {i i' : TypeId}, R i i' →
    ∃ x x', g.get? i = some x ∧ g'.get? i' = some x' ∧ TypeNode.Like R x x'

/-- Walks that have met, emitted and queued related ids. -/
structure Walk.Like (R : TypeId → TypeId → Prop) (w w' : Walk) : Prop where
  visited : List.Forall₂ R w.visited w'.visited
  queue : List.Forall₂ R w.queue w'.queue
  emitted : List.Forall₂ R w.emitted w'.emitted

end Like

/-! ## The walk -/

section Walk

variable {R : TypeId → TypeId → Prop} {g g' : Graph} (h : g.Like R g')
  {w w' : Walk} {owner owner' : ObjectType}

include h

/-- An id has been met on one side exactly when it has on the other. -/
theorem Graph.Like.contains_eq {ids ids' : List TypeId} {i i' : TypeId}
    (lists : List.Forall₂ R ids ids') (related : R i i') : ids.contains i = ids'.contains i' := by
  induction lists with
  | nil => rfl
  | @cons j j' ids ids' first rest ih =>
      have same : (i == j) = (i' == j') := by
        rw [Bool.eq_iff_iff, beq_iff_eq, beq_iff_eq]
        exact h.unique related first
      rw [List.contains_cons, List.contains_cons, same, ih]

namespace Walk

omit h in
theorem Like.meet {i i' : TypeId} (walks : Walk.Like R w w') (related : R i i') :
    Walk.Like R (w.meet i) (w'.meet i') where
  visited := .cons related walks.visited
  queue := List.rel_append walks.queue (.cons related .nil)
  emitted := List.rel_append walks.emitted (.cons related .nil)

theorem alike_follow {field field' : Field TypeId} (names : owner.name = owner'.name)
    (fields : Field.Like R field field') (walks : Walk.Like R w w') :
    Traced.Alike (Walk.Like R) (follow g owner field w) (follow g' owner' field' w') := by
  obtain ⟨x, x', there, there', nodes⟩ := h.nodes fields.target
  have met := h.contains_eq walks.visited fields.target
  rw [follow, follow, there, there']
  dsimp only
  rw [nodes.isEmittable_eq, nodes.variant_eq, nodes.name_eq, met, names, fields.name]
  split
  · exact .ok (walks.meet fields.target)
  · exact .ok walks

theorem alike_expand {fields fields' : List (Field TypeId)} (names : owner.name = owner'.name)
    (rows : List.Forall₂ (Field.Like R) fields fields') (walks : Walk.Like R w w') :
    Traced.Alike (Walk.Like R) (expand g owner fields w) (expand g' owner' fields' w') := by
  induction rows generalizing w w' with
  | nil => exact .ok walks
  | cons first rest ih =>
      rw [expand, expand]
      refine (alike_follow h names first walks).bind ?_
      intro next next' _ related
      exact ih related

/-- One step does the same on both sides. -/
theorem alike_step (walks : Walk.Like R w w') :
    Traced.Alike (Walk.Like R) (w.step g) (w'.step g') := by
  obtain ⟨visited, queue, emitted⟩ := w
  obtain ⟨visited', queue', emitted'⟩ := w'
  obtain ⟨met, waiting, done⟩ := walks
  cases waiting with
  | nil => exact .ok ⟨met, .nil, done⟩
  | @cons i i' rest rest' first others =>
      have popped : Walk.Like R ⟨visited, rest, emitted⟩ ⟨visited', rest', emitted'⟩ :=
        ⟨met, others, done⟩
      obtain ⟨x, x', there, there', nodes⟩ := h.nodes first
      simp only [step, Graph.object?, there, there', Option.bind_some]
      cases nodes with
      | object rows => exact alike_expand h rfl rows popped
      | _ => exact .ok popped

/-- So does the whole walk, which ends on both sides together. -/
theorem alike_run (w w' : Walk) (walks : Walk.Like R w w') :
    Traced.Alike (Walk.Like R) (run g w) (run g' w') := by
  by_cases drained : w.queue = []
  · have drained' : w'.queue = [] := by
      have queues := walks.queue
      rw [drained] at queues
      exact List.forall₂_nil_left_iff.1 queues
    rw [run_of_nil drained, run_of_nil drained']
    exact .ok walks
  · have waiting' : w'.queue ≠ [] := by
      intro drained'
      have queues := walks.queue
      rw [drained'] at queues
      exact drained (List.forall₂_nil_right_iff.1 queues)
    rw [run_of_ne_nil drained, run_of_ne_nil waiting']
    refine (alike_step h walks).bind ?_
    intro next next' taken related
    have fewer := pending_step drained taken
    exact alike_run next next' related
termination_by w.pending g

end Walk

namespace Graph

theorem Like.rootName_eq : g.rootName = g'.rootName := by
  obtain ⟨x, x', there, there', nodes⟩ := h.nodes h.root
  rw [rootName_of_get there, rootName_of_get there']
  exact nodes.name_eq

theorem Like.rootObject : Traced.Alike (fun o o' : ObjectType => o.name = o'.name)
    (Traced.ofExcept g.rootObject) (Traced.ofExcept g'.rootObject) := by
  have names := h.rootName_eq
  obtain ⟨x, x', there, there', nodes⟩ := h.nodes h.root
  rw [Graph.rootObject, Graph.rootObject, there, there', names]
  cases nodes with
  | @object name fields fields' rows =>
      dsimp only
      split
      · exact .error
      · exact .ok rfl
  | _ => exact .error

/-- The walks of like graphs meet related ids in one order. -/
theorem Like.walk : Traced.Alike (List.Forall₂ R) g.walk g'.walk := by
  rw [Graph.walk, Graph.walk]
  refine h.rootObject.bind ?_
  intro o o' _ names
  have roots : List.Forall₂ R [g.root] [g'.root] := .cons h.root .nil
  refine (Walk.alike_run h _ _ ⟨roots, roots, roots⟩).bind ?_
  intro w w' _ walks
  rw [names, walks.emitted.length_eq]
  exact .ok walks.emitted

/-- Related ids are ids of types of one name. -/
theorem Like.namesOf_eq {ids ids' : List TypeId} (lists : List.Forall₂ R ids ids') :
    g.namesOf ids = g'.namesOf ids' := by
  induction lists with
  | nil => rfl
  | @cons i i' ids ids' first rest ih =>
      obtain ⟨x, x', there, there', nodes⟩ := h.nodes first
      rw [namesOf, namesOf] at ih ⊢
      rw [List.filterMap_cons, List.filterMap_cons, there, there', Option.map_some,
        Option.map_some, nodes.name_eq, ih]

/-! ## Blocks and documents -/

theorem Like.baseType_eq {owner : String} {field field' : Field TypeId}
    (fields : Field.Like R field field') : g.baseType owner field = g'.baseType owner field' := by
  obtain ⟨x, x', there, there', nodes⟩ := h.nodes fields.target
  rw [baseType, baseType, there, there', fields.name]
  cases nodes <;> rfl

theorem Like.messageFields_eq {owner : String} {fields fields' : List (Field TypeId)}
    (rows : List.Forall₂ (Field.Like R) fields fields') (seen : List String) :
    g.messageFields owner seen fields = g'.messageFields owner seen fields' := by
  induction rows generalizing seen with
  | nil => rfl
  | @cons field field' fields fields' first rest ih =>
      have one : g.messageField owner field = g'.messageField owner field' := by
        rw [messageField, messageField, h.baseType_eq first, first.depth, first.name]
      rw [messageFields, messageFields, first.name, one]
      simp only [ih]

theorem Like.block_eq {i i' : TypeId} (related : R i i') : g.block i = g'.block i' := by
  obtain ⟨x, x', there, there', nodes⟩ := h.nodes related
  rw [block, block, there, there']
  cases nodes with
  | object rows =>
      show g.message _ = g'.message _
      rw [message, message, h.messageFields_eq rows]
  | _ => rfl

theorem Like.blocks_eq {ids ids' : List TypeId} (lists : List.Forall₂ R ids ids') :
    g.blocks ids = g'.blocks ids' := by
  induction lists with
  | nil => rfl
  | cons first rest ih => rw [blocks, blocks, h.block_eq first, ih]

/-- Like graphs have one document, or fail in one way. -/
theorem Like.translate (o : Options) : g.translate o = g'.translate o := by
  refine Traced.Alike.eq ?_
  rw [Graph.translate, Graph.translate]
  refine h.walk.bind ?_
  intro ids ids' _ lists
  rw [h.blocks_eq lists, lists.length_eq, h.rootName_eq]
  exact .refl _

theorem Like.emittedNames_eq : g.emissionList.map g.namesOf = g'.emissionList.map g'.namesOf :=
  h.walk.result_map fun _ _ => h.namesOf_eq

end Graph

end Walk

end Protograph
