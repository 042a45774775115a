import Protograph.Proofs.Schema.Reachability

/-! # Index — the names of a schema are read off its types

    A schema carries its index beside the arena, but it has no choice in it:
    a declaration puts the new name in front with the next id, and no other
    call changes a name.  So the index is the list of the arena's names with
    their places, the latest first (`nameIndex`, `Builder.names_run`).

    With that a finished graph is its types and its root, and nothing else
    (`Graph.Built.eq_of_types`). -/

namespace Protograph

variable {b b' : Builder} {types : Array TypeNode} {g g' : Graph}

/-- The index that an arena calls for: every name with its id, the latest first. -/
def nameIndex (types : Array TypeNode) : List (String × TypeId) :=
  (types.toList.map TypeNode.name).zipIdx.reverse

theorem nameIndex_push (node : TypeNode) :
    nameIndex (types.push node) = (node.name, types.size) :: nameIndex types := by
  simp [nameIndex, List.zipIdx_append]

/-- Only names count, so a type gives way to another of its name unnoticed. -/
theorem nameIndex_put {id : TypeId} {old node : TypeNode} (there : types[id]? = some old)
    (same : node.name = old.name) : nameIndex (types.modify id fun _ => node) = nameIndex types := by
  have names : (types.modify id fun _ => node).toList.map TypeNode.name
      = types.toList.map TypeNode.name := by
    ext1 other
    rw [List.getElem?_map, List.getElem?_map, Array.getElem?_toList, Array.getElem?_toList,
      Array.getElem?_modify]
    by_cases here : id = other
    · subst here
      rw [if_pos rfl, there]
      exact congrArg some same
    · rw [if_neg here]
  rw [nameIndex, nameIndex, names]

namespace Builder

/-- A granted call keeps the index to what the arena calls for. -/
theorem names_granted {c : Call} {r : Reply} (h : b.names = nameIndex b.types)
    (granted : Granted b c r b') : b'.names = nameIndex b'.types := by
  cases granted with
  | declared asks free =>
      show _ :: b.names = nameIndex (b.types.push _)
      rw [nameIndex_push, h]
  | interned taken there => exact h
  | field inside there =>
      refine h.trans (Eq.symm ?_)
      exact nameIndex_put there rfl
  | value there =>
      refine h.trans (Eq.symm ?_)
      exact nameIndex_put there rfl

theorem names_run (h : b.names = nameIndex b.types) (history : List Call) :
    (b.run history).names = nameIndex (b.run history).types := by
  induction history generalizing b with
  | nil => exact h
  | cons c cs ih =>
      rw [run_cons, step]
      refine ih ?_
      split
      · next r next done => exact names_granted h (granted_of_call done)
      · exact h

end Builder

theorem Graph.Built.names_eq (built : g.Built) : g.names = nameIndex g.types := by
  obtain ⟨history, root, h⟩ := built
  obtain ⟨rfl, -⟩ := Builder.build_ok h
  exact Builder.names_run rfl history

/-- A finished graph is its types and its root. -/
theorem Graph.Built.eq_of_types (built : g.Built) (built' : g'.Built) (types : g.types = g'.types)
    (root : g.root = g'.root) : g = g' := by
  have names : g.names = g'.names := by
    rw [built.names_eq, built'.names_eq, types]
  cases g
  cases g'
  congr

/-- **ARENA AND INDEX ARE INVERSE**: whatever calls are made, granted or refused, a name is looked
    up to an id exactly when the type there has the name, no two types have one name, and no field
    points outside the arena.  A finished graph inherits all of it, its root is an object, and it
    is determined by its types and its root. -/
theorem Builder.run_indexed (history : List Call) :
    (∀ (name : String) (id : TypeId), (run {} history).lookup name = some id
      ↔ ∃ node, (run {} history).types[id]? = some node ∧ node.name = name) ∧
    ((run {} history).types.toList.map TypeNode.name).Nodup ∧
    (∀ (id : TypeId) (o : ObjectType) (field : Field TypeId),
      (run {} history).types[id]? = some (.object o) → field ∈ o.fields →
        field.type.target < (run {} history).types.size) ∧
    ∀ (root : TypeId) (g : Graph), (run {} history).build root = .ok g →
      (∀ (name : String) (id : TypeId), g.lookup name = some id
        ↔ ∃ node, g.get? id = some node ∧ node.name = name) ∧
      (g.types.toList.map TypeNode.name).Nodup ∧ g.Closed ∧
      (∃ o, g.get? g.root = some (.object o)) ∧
      ∀ g' : Graph, g'.Built → g'.types = g.types → g'.root = g.root → g' = g := by
  have coherent := coherent_run (b := {}) coherent_empty history
  refine ⟨coherent.indexed, coherent.nodup_names, ?_, ?_⟩
  · intro id o field there inside
    exact coherent.closed there _ (List.mem_map.2 ⟨field, inside, rfl⟩)
  · intro root g done
    have built : g.Built := ⟨history, root, done⟩
    refine ⟨built.coherent.indexed, built.coherent.nodup_names, built.closed, built.root_object, ?_⟩
    intro g' built' types root
    exact built'.eq_of_types built types root

end Protograph
