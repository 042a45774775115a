import Protograph.Sdl.Document
import Protograph.Proofs.Schema.Coherence

/-! # Definitions — a schema written down by names

    Read back as a document, a schema has one definition for each type in the
    order of ids, and every field names its target.  The reading forgets two
    things: ids, which the order gives, and the kinds of scalars, of which
    only the names are left.

    Adding a type adds its definition.  Putting a type of the same name in the
    place of another replaces one definition and leaves all names alone; when
    the new type has one field or value more, the definitions are the old ones
    with a small extension merged (`definitions_field`, `definitions_value`). -/

namespace Protograph

variable {types : Array TypeNode} {names : List (String × TypeId)}

theorem TypeRef.map_congr {α β : Type} {f f' : α → β} {t : TypeRef α}
    (h : f t.target = f' t.target) : t.map f = t.map f' := by
  induction t with
  | named t => exact congrArg TypeRef.named h
  | nonNull inner ih => exact congrArg TypeRef.nonNull (ih h)
  | list inner ih => exact congrArg TypeRef.list (ih h)

/-- A target that comes back brings the whole reference back. -/
theorem TypeRef.map_map_self {α β : Type} {f : α → β} {f' : β → α} {t : TypeRef α}
    (h : f' (f t.target) = t.target) : (t.map f).map f' = t := by
  induction t with
  | named t => exact congrArg TypeRef.named h
  | nonNull inner ih => exact congrArg TypeRef.nonNull (ih h)
  | list inner ih => exact congrArg TypeRef.list (ih h)

/-- Of fields only the images of their targets count. -/
theorem map_fields_congr {α β : Type} {f f' : α → β} {fields : List (Field α)}
    (h : ∀ field ∈ fields, f field.type.target = f' field.type.target) :
    fields.map (Field.map f) = fields.map (Field.map f') := by
  refine List.map_congr_left fun field inside => ?_
  exact congrArg (Field.mk field.name) (TypeRef.map_congr (h field inside))

/-- The name of the type at an id; empty where there is none. -/
def nameIn (types : Array TypeNode) (id : TypeId) : String :=
  ((types[id]?).map TypeNode.name).getD ""

theorem nameIn_of_get {id : TypeId} {node : TypeNode} (there : types[id]? = some node) :
    nameIn types id = node.name := by
  rw [nameIn, there]
  rfl

namespace Sdl.TypeDefinition

/-- A type written down, with `nameOf` for its fields' targets. -/
def ofNode (nameOf : TypeId → String) : TypeNode → TypeDefinition
  | .scalar kind => .scalar kind.name
  | .object o => .object o.name (o.fields.map (Field.map nameOf))
  | .interface n => .interface n
  | .union n => .union n
  | .enum e => .enum e.name e.values
  | .inputObject n => .inputObject n

@[simp] theorem name_ofNode (nameOf : TypeId → String) (node : TypeNode) :
    (ofNode nameOf node).name = node.name := by
  cases node <;> rfl

/-- Only the names of targets count. -/
theorem ofNode_congr {nameOf nameOf' : TypeId → String} {node : TypeNode}
    (h : ∀ target ∈ node.targets, nameOf target = nameOf' target) :
    ofNode nameOf node = ofNode nameOf' node := by
  cases node with
  | object o =>
      refine congrArg (TypeDefinition.object o.name) (map_fields_congr fun field inside => ?_)
      exact h _ (List.mem_map.2 ⟨field, inside, rfl⟩)
  | _ => rfl

end Sdl.TypeDefinition

open Sdl

/-- The types of a schema, written down in the order of their ids. -/
def definitions (types : Array TypeNode) : List TypeDefinition :=
  types.toList.map (TypeDefinition.ofNode (nameIn types))

/-- The definitions of a graph. -/
def Graph.definitions (g : Graph) : List TypeDefinition := Protograph.definitions g.types

/-- The kind of every scalar is the one its name stands for. -/
def Graph.Canonical (g : Graph) : Prop :=
  ∀ {id : TypeId} {kind : ScalarKind}, g.get? id = some (.scalar kind) → kind = .ofName kind.name

theorem getElem?_definitions (types : Array TypeNode) (id : TypeId) :
    (definitions types)[id]? = (types[id]?).map (TypeDefinition.ofNode (nameIn types)) := by
  rw [definitions, List.getElem?_map, Array.getElem?_toList]

/-- The names in the definitions are those of the types. -/
theorem names_definitions (types : Array TypeNode) :
    (definitions types).map TypeDefinition.name = types.toList.map TypeNode.name := by
  rw [definitions, List.map_map]
  exact List.map_congr_left fun node _ => TypeDefinition.name_ofNode _ node

/-- A name is in the definitions exactly when the index has it. -/
theorem Coherent.lookup_eq_none_iff (h : Coherent types names) {name : String} :
    names.lookup name = none ↔ name ∉ (definitions types).map TypeDefinition.name := by
  rw [names_definitions]
  exact h.free_iff

/-- A definition is that of the type at the id of its name. -/
theorem Coherent.node_of_mem {t : TypeDefinition} {id : TypeId} (h : Coherent types names)
    (found : names.lookup t.name = some id) (inside : t ∈ definitions types) :
    ∃ node, types[id]? = some node ∧ TypeDefinition.ofNode (nameIn types) node = t := by
  obtain ⟨j, there⟩ := List.mem_iff_getElem?.1 inside
  rw [getElem?_definitions] at there
  obtain ⟨node, at_j, same⟩ := Option.map_eq_some_iff.1 there
  have called : node.name = t.name := by
    rw [← same, TypeDefinition.name_ofNode]
  have found_j := (h.indexed t.name j).2 ⟨node, at_j, called⟩
  rw [found] at found_j
  cases found_j
  exact ⟨node, at_j, same⟩

theorem nameIn_push {node : TypeNode} {id : TypeId} (below : id < types.size) :
    nameIn (types.push node) id = nameIn types id := by
  rw [nameIn, nameIn, Array.getElem?_push, if_neg (Nat.ne_of_lt below)]

/-- A type more is a definition more. -/
theorem definitions_push {node : TypeNode} (h : Coherent types names) (bare : node.targets = []) :
    definitions (types.push node)
      = definitions types ++ [TypeDefinition.ofNode (nameIn types) node] := by
  rw [definitions, definitions, Array.toList_push, List.map_append, List.map_singleton]
  congr 1
  · refine List.map_congr_left fun old inside => TypeDefinition.ofNode_congr ?_
    obtain ⟨id, there⟩ := mem_toList_iff.1 inside
    intro target refers
    exact nameIn_push (h.closed there target refers)
  · refine congrArg (fun t => [t]) (TypeDefinition.ofNode_congr ?_)
    rw [bare]
    intro target refers
    exact nomatch refers

section Put

variable {id : TypeId} {old node : TypeNode} (there : types[id]? = some old)
  (same : node.name = old.name)

include there same

theorem nameIn_put : nameIn (types.modify id fun _ => node) = nameIn types := by
  funext other
  rw [nameIn, nameIn, Array.getElem?_modify]
  by_cases here : id = other
  · subst here
    rw [if_pos rfl, there]
    exact same
  · rw [if_neg here]

/-- Only the definition at the id is another. -/
theorem getElem?_definitions_put (other : TypeId) :
    (definitions (types.modify id fun _ => node))[other]?
      = if id = other then some (TypeDefinition.ofNode (nameIn types) node)
        else (definitions types)[other]? := by
  rw [getElem?_definitions, nameIn_put there same, Array.getElem?_modify]
  by_cases here : id = other
  · subst here
    rw [if_pos rfl, if_pos rfl, there]
    rfl
  · rw [if_neg here, if_neg here, getElem?_definitions]

end Put

/-! ## Extensions, merged -/

namespace Sdl.TypeDefinition

/-- The fields that a definition or an extension gives to the object `name`. -/
def fieldsOf (name : String) : TypeDefinition → List (Field String)
  | .object n fields => if n = name then fields else []
  | _ => []

/-- The values that a definition or an extension gives to the enum `name`. -/
def valuesOf (name : String) : TypeDefinition → List String
  | .enum n values => if n = name then values else []
  | _ => []

/-- A definition with all that some extensions add to it, behind what it has. -/
def merge (added : List TypeDefinition) : TypeDefinition → TypeDefinition
  | .object n fields => .object n (fields ++ added.flatMap (fieldsOf n))
  | .enum n values => .enum n (values ++ added.flatMap (valuesOf n))
  | other => other

@[simp] theorem name_merge (added : List TypeDefinition) (t : TypeDefinition) :
    (merge added t).name = t.name := by
  cases t <;> rfl

@[simp] theorem merge_nil (t : TypeDefinition) : merge [] t = t := by
  cases t <;> simp [merge]

/-- Extensions are merged one after the other. -/
theorem merge_append (added more : List TypeDefinition) (t : TypeDefinition) :
    merge (added ++ more) t = merge more (merge added t) := by
  cases t <;> simp [merge]

/-- An extension without fields or values for a type adds nothing to it. -/
theorem merge_of_silent {x t : TypeDefinition} (noFields : fieldsOf t.name x = [])
    (noValues : valuesOf t.name x = []) : merge [x] t = t := by
  cases t with
  | object n fields =>
      show TypeDefinition.object n (fields ++ (fieldsOf n x ++ [])) = _
      rw [show fieldsOf n x = [] from noFields, List.append_nil, List.append_nil]
  | enum n values =>
      show TypeDefinition.enum n (values ++ (valuesOf n x ++ [])) = _
      rw [show valuesOf n x = [] from noValues, List.append_nil, List.append_nil]
  | _ => rfl

/-- An extension of another type adds nothing. -/
theorem merge_of_ne {x t : TypeDefinition} (other : t.name ≠ x.name) : merge [x] t = t := by
  cases x with
  | object n fields => exact merge_of_silent (if_neg other.symm) rfl
  | enum n values => exact merge_of_silent rfl (if_neg other.symm)
  | _ => exact merge_of_silent rfl rfl

theorem merge_object_nil (n : String) (t : TypeDefinition) : merge [.object n []] t = t :=
  merge_of_silent (ite_self _) rfl

theorem merge_enum_nil (n : String) (t : TypeDefinition) : merge [.enum n []] t = t :=
  merge_of_silent rfl (ite_self _)

/-- Two extensions of one object are one. -/
theorem merge_objects (n : String) (fields more : List (Field String)) (t : TypeDefinition) :
    merge ([.object n fields] ++ [.object n more]) t = merge [.object n (fields ++ more)] t := by
  cases t with
  | object m own => by_cases same : n = m <;> simp [merge, fieldsOf, same]
  | enum m own => simp [merge, valuesOf]
  | _ => rfl

/-- Two extensions of one enum are one. -/
theorem merge_enums (n : String) (values more : List String) (t : TypeDefinition) :
    merge ([.enum n values] ++ [.enum n more]) t = merge [.enum n (values ++ more)] t := by
  cases t with
  | object m own => simp [merge, fieldsOf]
  | enum m own => by_cases same : n = m <;> simp [merge, valuesOf, same]
  | _ => rfl

end Sdl.TypeDefinition

section Grow

variable {id : TypeId} {old node : TypeNode} {x : TypeDefinition}

/-- Putting a grown type in the place of another merges what it has grown by. -/
theorem definitions_grow (h : Coherent types names) (there : types[id]? = some old)
    (same : node.name = old.name) (name : x.name = old.name)
    (grown : TypeDefinition.ofNode (nameIn types) node
      = (TypeDefinition.ofNode (nameIn types) old).merge [x]) :
    definitions (types.modify id fun _ => node) = (definitions types).map (·.merge [x]) := by
  refine List.ext_getElem? fun other => ?_
  rw [getElem?_definitions_put there same, List.getElem?_map]
  by_cases here : id = other
  · subst here
    rw [if_pos rfl, getElem?_definitions, there, grown]
    rfl
  · rw [if_neg here, getElem?_definitions]
    cases at_other : types[other]? with
    | none => rfl
    | some t =>
        -- names are distinct, so the extension is not one of this type
        have differ : t.name ≠ x.name := fun called =>
          here (h.eq_of_name at_other there (called.trans name)).symm
        rw [Option.map_some, Option.map_some, TypeDefinition.merge_of_ne]
        rw [TypeDefinition.name_ofNode]
        exact differ

theorem definitions_field {o : ObjectType} {field : Field String} {target : TypeId}
    (h : Coherent types names) (there : types[id]? = some (.object o))
    (named : nameIn types target = field.type.target) :
    definitions (types.modify id fun _ => .object { o with
        fields := o.fields ++ [⟨field.name, field.type.map fun _ => target⟩] })
      = (definitions types).map (·.merge [.object o.name [field]]) := by
  have written : (field.type.map fun _ => target).map (nameIn types) = field.type :=
    TypeRef.map_map_self named
  refine definitions_grow h there rfl rfl ?_
  simp [TypeDefinition.ofNode, TypeDefinition.merge, TypeDefinition.fieldsOf, Field.map, written]

theorem definitions_value {e : EnumType} {value : String} (h : Coherent types names)
    (there : types[id]? = some (.enum e)) :
    definitions (types.modify id fun _ => .enum { e with values := e.values ++ [value] })
      = (definitions types).map (·.merge [.enum e.name [value]]) := by
  refine definitions_grow h there rfl rfl ?_
  simp [TypeDefinition.ofNode, TypeDefinition.merge, TypeDefinition.valuesOf]

end Grow

end Protograph
