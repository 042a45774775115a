import Protograph.Schema.History

/-! # Coherence — what every history of calls keeps true of a schema

    Two structures describe a schema: the arena of types and the index from
    names to ids.  They are coherent when each is the other read backwards
    and no field points outside the arena.

    * `Granted` lists what a call can do to a builder, once and for all: add
      a type under a free name, hand back a scalar that is there, or put a
      longer type in the place of an object or an enum;
    * each of these keeps coherence, so every history does (`coherent_run`);
    * a finished graph inherits it, and its root is an object
      (`Graph.Built.coherent`, `Graph.Built.root_object`). -/

namespace Protograph

variable {b b' : Builder} {types : Array TypeNode} {names : List (String × TypeId)}

/-- The ids that the fields of a type refer to, in declaration order. -/
def TypeNode.targets : TypeNode → List TypeId
  | .object o => o.fields.map (·.type.target)
  | _ => []

/-- Arena and index agree, and every field points inside the arena. -/
structure Coherent (types : Array TypeNode) (names : List (String × TypeId)) : Prop where
  indexed : ∀ (name : String) (id : TypeId),
    names.lookup name = some id ↔ ∃ node, types[id]? = some node ∧ node.name = name
  closed : ∀ {id : TypeId} {node : TypeNode}, types[id]? = some node →
    ∀ target ∈ node.targets, target < types.size

/-- The type that a declaring call asks for. -/
def Call.node? : Call → Option TypeNode
  | .object name => some (.object ⟨name, []⟩)
  | .enumeration name values => some (.enum ⟨name, values⟩)
  | .scalar kind => some (.scalar kind)
  | .interface name => some (.interface name)
  | .union name => some (.union name)
  | .inputObject name => some (.inputObject name)
  | .field .. => none
  | .value .. => none

/-- A type is declared without fields. -/
theorem Call.targets_node {c : Call} {node : TypeNode} (asks : c.node? = some node) :
    node.targets = [] := by
  cases c <;> cases asks <;> rfl

namespace Builder

/-- The builder with one more type, under the type's name. -/
def push (b : Builder) (node : TypeNode) : Builder :=
  ⟨b.types.push node, (node.name, b.types.size) :: b.names⟩

/-- The builder with another type in the place of an id. -/
def put (b : Builder) (id : TypeId) (node : TypeNode) : Builder :=
  { b with types := b.types.modify id fun _ => node }

/-- A call that is granted, its reply, and the builder it leads to. -/
inductive Granted (b : Builder) : Call → Reply → Builder → Prop where
  | declared {c : Call} {node : TypeNode} (asks : c.node? = some node)
      (free : b.lookup node.name = none) :
      Granted b c (.declared b.types.size) (b.push node)
  | interned {kind kind' : ScalarKind} {id : TypeId} (taken : b.lookup kind.name = some id)
      (there : b.types[id]? = some (.scalar kind')) :
      Granted b (.scalar kind) (.declared id) b
  | field {owner : TypeId} {name : String} {type : TypeRef TypeId} {o : ObjectType}
      (inside : type.target < b.types.size) (there : b.types[owner]? = some (.object o)) :
      Granted b (.field owner name type) .added
        (b.put owner (.object { o with fields := o.fields ++ [⟨name, type⟩] }))
  | value {owner : TypeId} {name : String} {e : EnumType}
      (there : b.types[owner]? = some (.enum e)) :
      Granted b (.value owner name) .added
        (b.put owner (.enum { e with values := e.values ++ [name] }))

/-- A declaration succeeds under a free name only, and takes the next id. -/
theorem declare_ok {node : TypeNode} {id : TypeId} (h : b.declare node = .ok (id, b')) :
    b.lookup node.name = none ∧ id = b.types.size ∧ b' = b.push node := by
  rw [declare] at h
  split at h
  · cases h
  · next free =>
      cases h
      exact ⟨free, rfl, rfl⟩

theorem declare_of_free {node : TypeNode} (free : b.lookup node.name = none) :
    b.declare node = .ok (b.types.size, b.push node) := by
  rw [declare, free]
  rfl

theorem scalar_of_free {kind : ScalarKind} (free : b.lookup kind.name = none) :
    b.scalar kind = .ok (b.types.size, b.push (.scalar kind)) := by
  rw [scalar, free]
  exact declare_of_free free

private theorem granted_declare {c : Call} {node : TypeNode} {r : Reply}
    (asks : c.node? = some node)
    (h : ((b.declare node).map fun d => (Reply.declared d.1, d.2)) = .ok (r, b')) :
    Granted b c r b' := by
  cases done : b.declare node with
  | error e => rw [done] at h; cases h
  | ok d =>
      obtain ⟨id, next⟩ := d
      obtain ⟨free, hid, hnext⟩ := declare_ok done
      rw [done] at h
      cases h
      subst hid hnext
      exact .declared asks free

/-- Nothing but what `Granted` lists comes of a call. -/
theorem granted_of_call {c : Call} {r : Reply} (h : b.call c = .ok (r, b')) :
    Granted b c r b' := by
  cases c with
  | object name => exact granted_declare rfl h
  | enumeration name values => exact granted_declare rfl h
  | interface name => exact granted_declare rfl h
  | union name => exact granted_declare rfl h
  | inputObject name => exact granted_declare rfl h
  | scalar kind =>
      simp only [call, scalar] at h
      split at h
      · next id taken =>
          split at h
          · next kind' there =>
              cases h
              exact .interned taken there
          · cases h
      · exact granted_declare rfl h
  | field owner name type =>
      simp only [call, field] at h
      split at h
      · next inside =>
          split at h
          · next o there =>
              cases h
              exact .field inside there
          · cases h
          · cases h
      · cases h
  | value owner name =>
      simp only [call, value] at h
      split at h
      · next e there =>
          cases h
          exact .value there
      · cases h
      · cases h

/-- Whatever `Granted` lists does come of a call. -/
theorem Granted.call_eq {c : Call} {r : Reply} (granted : Granted b c r b') :
    b.call c = .ok (r, b') := by
  cases granted with
  | declared asks free =>
      cases c with
      | scalar kind =>
          cases asks
          rw [call, scalar_of_free free]
          rfl
      | object name => cases asks; rw [call, object, declare_of_free free]; rfl
      | enumeration name values => cases asks; rw [call, enumeration, declare_of_free free]; rfl
      | interface name => cases asks; rw [call, interface, declare_of_free free]; rfl
      | union name => cases asks; rw [call, union, declare_of_free free]; rfl
      | inputObject name => cases asks; rw [call, inputObject, declare_of_free free]; rfl
      | field owner name type => cases asks
      | value owner name => cases asks
  | interned taken there =>
      rw [call, scalar, taken]
      dsimp only
      rw [there]
      rfl
  | field inside there =>
      rw [call, Builder.field, if_pos inside, there]
      rfl
  | value there =>
      rw [call, Builder.value, there]
      rfl

end Builder

/-! ## What a call keeps -/

/-- The index finds types by their own names. -/
theorem Coherent.name_eq {name : String} {id : TypeId} {node : TypeNode}
    (h : Coherent types names) (found : names.lookup name = some id)
    (there : types[id]? = some node) : node.name = name := by
  obtain ⟨other, at_id, called⟩ := (h.indexed name id).1 found
  rw [there] at at_id
  cases at_id
  exact called

/-- No two types have one name. -/
theorem Coherent.eq_of_name {i j : TypeId} {x y : TypeNode} (h : Coherent types names)
    (at_i : types[i]? = some x) (at_j : types[j]? = some y) (same : x.name = y.name) : i = j := by
  have found := (h.indexed y.name i).2 ⟨x, at_i, same⟩
  rw [(h.indexed y.name j).2 ⟨y, at_j, rfl⟩] at found
  cases found
  rfl

/-- The types are those that stand at some id. -/
theorem mem_toList_iff {node : TypeNode} :
    node ∈ types.toList ↔ ∃ id : TypeId, types[id]? = some node :=
  Array.mem_toList_iff.trans Array.mem_iff_getElem?

/-- A name is free when no type has it. -/
theorem Coherent.free_iff {name : String} (h : Coherent types names) :
    names.lookup name = none ↔ name ∉ types.toList.map TypeNode.name := by
  have found : name ∈ types.toList.map TypeNode.name ↔ ∃ id, names.lookup name = some id := by
    constructor
    · intro inside
      obtain ⟨node, member, called⟩ := List.mem_map.1 inside
      obtain ⟨id, there⟩ := mem_toList_iff.1 member
      exact ⟨id, (h.indexed name id).2 ⟨node, there, called⟩⟩
    · rintro ⟨id, found⟩
      obtain ⟨node, there, called⟩ := (h.indexed name id).1 found
      exact List.mem_map.2 ⟨node, mem_toList_iff.2 ⟨id, there⟩, called⟩
  rw [found, ← Option.isSome_iff_exists, Option.not_isSome_iff_eq_none]

theorem Coherent.nodup_names (h : Coherent types names) :
    (types.toList.map TypeNode.name).Nodup := by
  refine List.pairwise_map.2 (List.pairwise_iff_getElem.2 ?_)
  intro i j below_i below_j before same
  refine Nat.ne_of_lt before (h.eq_of_name ?_ ?_ same)
  · rw [← Array.getElem?_toList]
    exact List.getElem?_eq_getElem below_i
  · rw [← Array.getElem?_toList]
    exact List.getElem?_eq_getElem below_j

theorem coherent_empty : Coherent #[] [] where
  indexed name id := by simp
  closed there := by simp at there

/-- Adding a type under a free name, with no fields yet. -/
theorem coherent_push {node : TypeNode} (h : Coherent types names)
    (free : names.lookup node.name = none) (bare : node.targets = []) :
    Coherent (types.push node) ((node.name, types.size) :: names) where
  indexed name id := by
    rw [List.lookup_cons, Array.getElem?_push]
    by_cases same : name = node.name
    · -- the free name now belongs to the last id and to no other
      subst same
      rw [beq_self_eq_true]
      constructor
      · intro found
        cases found
        exact ⟨node, by simp, rfl⟩
      · rintro ⟨other, there, called⟩
        by_cases last : id = types.size
        · rw [last]
        · rw [if_neg last] at there
          have found := (h.indexed node.name id).2 ⟨other, there, called⟩
          rw [free] at found
          cases found
    · rw [beq_false_of_ne same]
      refine (h.indexed name id).trans ?_
      constructor
      · rintro ⟨other, there, called⟩
        have below : id < types.size := (Array.getElem?_eq_some_iff.1 there).1
        exact ⟨other, by rw [if_neg (Nat.ne_of_lt below), there], called⟩
      · rintro ⟨other, there, called⟩
        by_cases last : id = types.size
        · rw [if_pos last] at there
          cases there
          exact absurd called.symm same
        · rw [if_neg last] at there
          exact ⟨other, there, called⟩
  closed := by
    intro id other there target refers
    rw [Array.getElem?_push] at there
    rw [Array.size_push]
    split at there
    · cases there
      rw [bare] at refers
      exact nomatch refers
    · exact Nat.lt_succ_of_lt (h.closed there target refers)

/-- Putting another type of the same name in the place of a type. -/
theorem coherent_put {id : TypeId} {old node : TypeNode} (h : Coherent types names)
    (there : types[id]? = some old) (same : node.name = old.name)
    (inside : ∀ target ∈ node.targets, target < types.size) :
    Coherent (types.modify id fun _ => node) names where
  indexed name other := by
    refine (h.indexed name other).trans ?_
    rw [Array.getElem?_modify]
    by_cases here : id = other
    · subst here
      simp [there, same]
    · rw [if_neg here]
  closed := by
    intro other found at_other target refers
    rw [Array.getElem?_modify] at at_other
    rw [Array.size_modify]
    split at at_other
    · next here =>
        subst here
        rw [there] at at_other
        cases at_other
        exact inside target refers
    · exact h.closed at_other target refers

namespace Builder

/-- A granted call keeps arena and index coherent. -/
theorem coherent_granted {c : Call} {r : Reply} (h : Coherent b.types b.names)
    (granted : Granted b c r b') : Coherent b'.types b'.names := by
  cases granted with
  | declared asks free => exact coherent_push h free (Call.targets_node asks)
  | interned taken there => exact h
  | @field owner name type o inside there =>
      -- the call has checked the new target; the others were inside before
      refine coherent_put h there rfl ?_
      intro target refers
      have old := h.closed there
      simp only [TypeNode.targets, List.map_append, List.mem_append] at refers old
      rcases refers with before | added
      · exact old target before
      · rw [List.map_singleton, List.mem_singleton] at added
        rw [added]
        exact inside
  | value there =>
      refine coherent_put h there rfl ?_
      intro target refers
      exact nomatch refers

theorem coherent_step (h : Coherent b.types b.names) (c : Call) :
    Coherent (b.step c).types (b.step c).names := by
  rw [step]
  split
  · next r next done => exact coherent_granted h (granted_of_call done)
  · exact h

/-- Every history keeps arena and index coherent, its refused calls included. -/
theorem coherent_run (h : Coherent b.types b.names) (history : List Call) :
    Coherent (b.run history).types (b.run history).names := by
  induction history generalizing b with
  | nil => exact h
  | cons c cs ih =>
      rw [run_cons]
      exact ih (coherent_step h c)

/-- A builder that a history of calls leads to. -/
def Reached (b : Builder) : Prop := ∃ history : List Call, Builder.run {} history = b

theorem Reached.coherent (reached : b.Reached) : Coherent b.types b.names := by
  obtain ⟨history, rfl⟩ := reached
  exact coherent_run coherent_empty history

/-- One granted call more is a longer history. -/
theorem Reached.call {c : Call} {r : Reply} (reached : b.Reached) (h : b.call c = .ok (r, b')) :
    b'.Reached := by
  obtain ⟨history, rfl⟩ := reached
  refine ⟨history ++ [c], ?_⟩
  rw [run_append, run_cons, run_nil, step, h]

/-- A finished graph is the builder's schema, and the root is an object. -/
theorem build_ok {root : TypeId} {g : Graph} (h : b.build root = .ok g) :
    g = ⟨b.types, b.names, root⟩ ∧ ∃ o, b.types[root]? = some (.object o) := by
  rw [build] at h
  split at h
  · next o there =>
      cases h
      exact ⟨rfl, o, there⟩
  · cases h
  · cases h

end Builder

/-! ## Finished graphs -/

/-- A graph that a history of calls leads to. -/
def Graph.Built (g : Graph) : Prop :=
  ∃ (history : List Call) (root : TypeId), (Builder.run {} history).build root = .ok g

theorem Builder.Reached.build {root : TypeId} {g : Graph} (reached : b.Reached)
    (h : b.build root = .ok g) : g.Built := by
  obtain ⟨history, rfl⟩ := reached
  exact ⟨history, root, h⟩

namespace Graph.Built

variable {g : Graph}

theorem coherent (built : g.Built) : Coherent g.types g.names := by
  obtain ⟨history, root, h⟩ := built
  obtain ⟨rfl, -⟩ := Builder.build_ok h
  exact Builder.coherent_run coherent_empty history

theorem root_object (built : g.Built) : ∃ o, g.get? g.root = some (.object o) := by
  obtain ⟨history, root, h⟩ := built
  obtain ⟨rfl, o, there⟩ := Builder.build_ok h
  exact ⟨o, there⟩

end Graph.Built

end Protograph
