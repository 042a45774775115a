import Protograph.Proofs.Proto.Likeness
import Protograph.Proofs.Schema.Reachability
import Protograph.Proofs.Sdl.Definitions

/-! # Namesakes — schemas that agree by name as far as the root reaches

    Types of two schemas are namesakes when they have one name, and twins when
    nothing but ids tells them apart: same sort, same kind or values, and
    fields of the same names and modifiers whose targets are namesakes
    (`TypeNode.Twin`).

    A schema is mirrored in another when every type that its root reaches has
    a twin there (`Graph.MirroredIn`).  Names are unique in a finished schema,
    so being namesakes is one to one, and the two are alike by names as far as
    the root reaches (`Graph.like_of_mirrored`).  Schemas with the same
    definitions, in whatever order, are a case of that
    (`Graph.mirrored_of_definitions`). -/

namespace Protograph

open Sdl

/-- Types that are the same but for ids, with `nameOf` and `nameOf'` for the targets of fields. -/
inductive TypeNode.Twin (nameOf nameOf' : TypeId → String) : TypeNode → TypeNode → Prop where
  | scalar (kind : ScalarKind) : Twin nameOf nameOf' (.scalar kind) (.scalar kind)
  | object {name : String} {fields fields' : List (Field TypeId)}
      (same : fields.map (Field.map nameOf) = fields'.map (Field.map nameOf')) :
      Twin nameOf nameOf' (.object ⟨name, fields⟩) (.object ⟨name, fields'⟩)
  | enum (e : EnumType) : Twin nameOf nameOf' (.enum e) (.enum e)
  | interface (name : String) : Twin nameOf nameOf' (.interface name) (.interface name)
  | union (name : String) : Twin nameOf nameOf' (.union name) (.union name)
  | inputObject (name : String) : Twin nameOf nameOf' (.inputObject name) (.inputObject name)

theorem fields_like_of_map {R : TypeId → TypeId → Prop} {nameOf nameOf' : TypeId → String}
    {fields fields' : List (Field TypeId)}
    (same : fields.map (Field.map nameOf) = fields'.map (Field.map nameOf'))
    (targets : ∀ f ∈ fields, ∀ f' ∈ fields',
      nameOf f.type.target = nameOf' f'.type.target → R f.type.target f'.type.target) :
    List.Forall₂ (Field.Like R) fields fields' := by
  induction fields generalizing fields' with
  | nil =>
      rw [List.map_nil, eq_comm, List.map_eq_nil_iff] at same
      rw [same]
      exact .nil
  | cons f fields ih =>
      cases fields' with
      | nil => cases same
      | cons f' fields' =>
          obtain ⟨first, rest⟩ := List.cons.inj same
          obtain ⟨name, type⟩ := Field.mk.inj first
          have depth := congrArg TypeRef.listDepth type
          have target := congrArg TypeRef.target type
          rw [TypeRef.listDepth_map, TypeRef.listDepth_map] at depth
          rw [TypeRef.target_map, TypeRef.target_map] at target
          refine .cons ⟨name, depth, ?_⟩ (ih rest ?_)
          · exact targets f List.mem_cons_self f' List.mem_cons_self target
          · intro e inside e' inside'
            exact targets e (List.mem_cons_of_mem f inside) e' (List.mem_cons_of_mem f' inside')

section Twin

variable {nameOf nameOf' : TypeId → String} {x x' : TypeNode}

theorem TypeNode.Twin.name_eq (h : Twin nameOf nameOf' x x') : x.name = x'.name := by
  cases h <;> rfl

/-- Twins are alike, if targets of one name are related. -/
theorem TypeNode.Twin.like {R : TypeId → TypeId → Prop} (h : Twin nameOf nameOf' x x')
    (targets : ∀ t ∈ x.targets, ∀ t' ∈ x'.targets, nameOf t = nameOf' t' → R t t') :
    TypeNode.Like R x x' := by
  cases h with
  | scalar kind => exact .scalar kind
  | object same =>
      refine .object (fields_like_of_map same ?_)
      intro field inside field' inside' named
      exact targets _ (List.mem_map.2 ⟨field, inside, rfl⟩) _
        (List.mem_map.2 ⟨field', inside', rfl⟩) named
  | enum e => exact .enum e
  | interface name => exact .interface name
  | union name => exact .union name
  | inputObject name => exact .inputObject name

/-- A type is its own twin when its targets keep their names. -/
theorem TypeNode.Twin.refl (h : ∀ t ∈ x.targets, nameOf t = nameOf' t) :
    Twin nameOf nameOf' x x := by
  cases x with
  | object o =>
      refine .object (map_fields_congr fun field inside => ?_)
      exact h _ (List.mem_map.2 ⟨field, inside, rfl⟩)
  | scalar kind => exact .scalar kind
  | enum e => exact .enum e
  | interface name => exact .interface name
  | union name => exact .union name
  | inputObject name => exact .inputObject name

/-- Types that are written down alike are twins, but for the kinds of scalars. -/
theorem TypeNode.twin_of_definition
    (same : TypeDefinition.ofNode nameOf x = TypeDefinition.ofNode nameOf' x')
    (kinds : ∀ kind kind', x = .scalar kind → x' = .scalar kind' → kind.name = kind'.name →
      kind = kind') : Twin nameOf nameOf' x x' := by
  cases x with
  | scalar kind =>
      cases x' with
      | scalar kind' =>
          obtain rfl := kinds kind kind' rfl rfl (TypeDefinition.scalar.inj same)
          exact .scalar kind
      | _ => cases same
  | object o =>
      cases x' with
      | object o' =>
          obtain ⟨name, fields⟩ := o
          obtain ⟨name', fields'⟩ := o'
          obtain ⟨rfl, rows⟩ := TypeDefinition.object.inj same
          exact .object rows
      | _ => cases same
  | enum e =>
      cases x' with
      | enum e' =>
          obtain ⟨name, values⟩ := e
          obtain ⟨name', values'⟩ := e'
          obtain ⟨rfl, rfl⟩ := TypeDefinition.enum.inj same
          exact .enum _
      | _ => cases same
  | interface name =>
      cases x' with
      | interface name' => cases same; exact .interface name
      | _ => cases same
  | union name =>
      cases x' with
      | union name' => cases same; exact .union name
      | _ => cases same
  | inputObject name =>
      cases x' with
      | inputObject name' => cases same; exact .inputObject name
      | _ => cases same

end Twin

namespace Graph

variable {g g' : Graph}

/-- The types at two ids have one name. -/
def Namesakes (g g' : Graph) (id id' : TypeId) : Prop :=
  ∃ x x', g.get? id = some x ∧ g'.get? id' = some x' ∧ x.name = x'.name

/-- An id that the root reaches, and the id of its namesake. -/
def Counterparts (g g' : Graph) (id id' : TypeId) : Prop :=
  g.Reachable id ∧ g.Namesakes g' id id'

/-- Every type that the root of `g` reaches has a twin in `g'`. -/
def MirroredIn (g g' : Graph) : Prop :=
  ∀ (id : TypeId) (x : TypeNode), g.Reachable id → g.get? id = some x →
    ∃ id' x', g'.get? id' = some x' ∧ TypeNode.Twin (nameIn g.types) (nameIn g'.types) x x'

theorem namesakes_of_rootName (built : g.Built) (built' : g'.Built)
    (names : g.rootName = g'.rootName) : g.Namesakes g' g.root g'.root := by
  obtain ⟨o, there⟩ := built.root_object
  obtain ⟨o', there'⟩ := built'.root_object
  rw [rootName_of_get there, rootName_of_get there'] at names
  exact ⟨_, _, there, there', names⟩

/-- A mirrored graph is alike by names, as far as the root reaches. -/
theorem like_of_mirrored (built : g.Built) (built' : g'.Built)
    (roots : g.Namesakes g' g.root g'.root) (mirrored : g.MirroredIn g') :
    g.Like (g.Counterparts g') g' where
  root := ⟨⟨0, .root⟩, roots⟩
  unique := by
    rintro i i' j j' ⟨-, x, x', there, there', named⟩ ⟨-, y, y', there_j, there_j', named_j⟩
    constructor
    · rintro rfl
      rw [there] at there_j
      cases there_j
      exact built'.coherent.eq_of_name there' there_j' (named.symm.trans named_j)
    · rintro rfl
      rw [there'] at there_j'
      cases there_j'
      exact built.coherent.eq_of_name there there_j (named.trans named_j.symm)
  nodes := by
    rintro i i' ⟨reached, x, x', there, there', named⟩
    refine ⟨x, x', there, there', ?_⟩
    -- the twin of `x` has the name of `x'`, and so it is `x'`
    obtain ⟨j', y', at_j', twin⟩ := mirrored i x reached there
    have here : j' = i' :=
      built'.coherent.eq_of_name at_j' there' (twin.name_eq.symm.trans named)
    subst here
    rw [there'] at at_j'
    cases at_j'
    refine twin.like ?_
    intro t refers t' refers' names
    have edge : g.Edge i t := by
      rw [← mem_targetsAt, targetsAt, there]
      exact refers
    obtain ⟨y, at_t⟩ := exists_get? (built.coherent.closed there t refers)
    obtain ⟨y', at_t'⟩ := exists_get? (built'.coherent.closed there' t' refers')
    rw [nameIn_of_get at_t, nameIn_of_get at_t'] at names
    exact ⟨reached.step edge, y, y', at_t, at_t', names⟩

/-- A graph is mirrored where all of its definitions are. -/
theorem mirrored_of_definitions (canonical : g.Canonical) (canonical' : g'.Canonical)
    (same : g.definitions ⊆ g'.definitions) : g.MirroredIn g' := by
  intro id x _ there
  have inside : TypeDefinition.ofNode (nameIn g.types) x ∈ g'.definitions := by
    refine same (List.mem_of_getElem? (i := id) ?_)
    rw [definitions, getElem?_definitions]
    exact congrArg (Option.map _) there
  obtain ⟨id', there'⟩ := List.mem_iff_getElem?.1 inside
  rw [definitions, getElem?_definitions] at there'
  obtain ⟨x', at_id', defined⟩ := Option.map_eq_some_iff.1 there'
  refine ⟨id', x', at_id', TypeNode.twin_of_definition defined.symm ?_⟩
  rintro kind kind' rfl rfl names
  rw [canonical there, canonical' at_id', names]

end Graph

end Protograph
