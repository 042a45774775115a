import Protograph.Proofs.Proto.Discovery
import Protograph.Proofs.Schema.Index
import Protograph.Proofs.Sdl.Acceptance

/-! # Written — a schema spelled as a document, and loaded again

    However a schema was built, it can be spelled: one definition for each
    type in the order of ids, and a schema definition for the root
    (`Graph.written`).  Loading the document leads back to the schema.

    * The document is sound (`Graph.Built.sound_written`): names are distinct,
      and whatever a field refers to has its own definition.  So no built-in
      scalar is added to those that are written (`Graph.Built.implicit_written`).
    * The definitions are all there is to a schema (`Graph.eq_of_definitions`).
      Names in their order give the index, the index turns names into ids
      again, and with these each definition is read back as the type that it
      spells (`Coherent.nodes_definitions`).  Only scalars need more than
      their names to be spelled: their kinds have to be those of their names. -/

namespace Protograph

open Sdl

variable {types : Array TypeNode} {names : List (String × TypeId)} {g g' : Graph}

/-! ## Types, read back from their definitions -/

namespace Sdl.TypeDefinition

/-- The type that a definition spells, with `idOf` for its fields' targets. -/
def node (idOf : String → TypeId) : TypeDefinition → TypeNode
  | .scalar n => .scalar (.ofName n)
  | .object n fields => .object ⟨n, fields.map (Field.map idOf)⟩
  | .interface n => .interface n
  | .union n => .union n
  | .enum n values => .enum ⟨n, values⟩
  | .inputObject n => .inputObject n

theorem references_ofNode (nameOf : TypeId → String) (x : TypeNode) :
    (ofNode nameOf x).references = x.targets.map nameOf := by
  cases x with
  | object o => simp [ofNode, references, TypeNode.targets, Field.map]
  | _ => rfl

/-- Names that stand for their ids lose nothing. -/
theorem node_ofNode {nameOf : TypeId → String} {idOf : String → TypeId} {x : TypeNode}
    (kinds : ∀ kind, x = .scalar kind → kind = .ofName kind.name)
    (ids : ∀ target ∈ x.targets, idOf (nameOf target) = target) :
    (ofNode nameOf x).node idOf = x := by
  cases x with
  | scalar kind => exact congrArg TypeNode.scalar (kinds kind rfl).symm
  | object o =>
      have each : ∀ field ∈ o.fields, (field.map nameOf).map idOf = field := by
        intro field inside
        have back := ids _ (List.mem_map.2 ⟨field, inside, rfl⟩)
        exact congrArg (Field.mk field.name) (TypeRef.map_map_self back)
      have fields : (o.fields.map (Field.map nameOf)).map (Field.map idOf) = o.fields := by
        rw [List.map_map]
        exact (List.map_congr_left each).trans (List.map_id _)
      exact congrArg (fun fields => TypeNode.object ⟨o.name, fields⟩) fields
  | _ => rfl

end Sdl.TypeDefinition

/-- An index turns names into ids. -/
def idIn (names : List (String × TypeId)) (name : String) : TypeId :=
  (names.lookup name).getD 0

/-- Within the arena the index undoes naming. -/
theorem Coherent.idIn_nameIn {id : TypeId} (h : Coherent types names) (inside : id < types.size) :
    idIn names (nameIn types id) = id := by
  have there : types[id]? = some types[id] := Array.getElem?_eq_getElem inside
  have found := (h.indexed _ id).2 ⟨_, there, rfl⟩
  rw [nameIn_of_get there, idIn, found]
  rfl

/-- The definitions, read back with the index, are the types. -/
theorem Coherent.nodes_definitions (h : Coherent types names)
    (canonical : ∀ {id : TypeId} {kind : ScalarKind}, types[id]? = some (.scalar kind) →
      kind = .ofName kind.name) :
    (definitions types).map (TypeDefinition.node (idIn names)) = types.toList := by
  have each : ∀ x ∈ types.toList,
      (TypeDefinition.ofNode (nameIn types) x).node (idIn names) = x := by
    intro x inside
    obtain ⟨id, there⟩ := mem_toList_iff.1 inside
    refine TypeDefinition.node_ofNode ?_ ?_
    · rintro kind rfl
      exact canonical there
    · intro target refers
      exact h.idIn_nameIn (h.closed there target refers)
  rw [definitions, List.map_map]
  exact (List.map_congr_left each).trans (List.map_id _)

namespace Graph

theorem Built.lookup_rootName (built : g.Built) : g.names.lookup g.rootName = some g.root := by
  obtain ⟨o, there⟩ := built.root_object
  exact (built.coherent.indexed _ _).2 ⟨_, there, (rootName_of_get there).symm⟩

/-- A schema is its definitions and the name of its root. -/
theorem eq_of_definitions (built : g.Built) (built' : g'.Built) (canonical : g.Canonical)
    (canonical' : g'.Canonical) (same : g.definitions = g'.definitions)
    (root : g.rootName = g'.rootName) : g = g' := by
  -- first the names, for without them no definition can be read back
  have index : g.names = g'.names := by
    rw [built.names_eq, built'.names_eq, nameIndex, nameIndex, ← names_definitions,
      ← names_definitions]
    exact congrArg (fun types => (types.map TypeDefinition.name).zipIdx.reverse) same
  have types : g.types = g'.types := by
    apply Array.toList_inj.1
    rw [← built.coherent.nodes_definitions canonical,
      ← built'.coherent.nodes_definitions canonical', index]
    exact congrArg (List.map _) same
  have ids := built.lookup_rootName
  rw [root, index, built'.lookup_rootName] at ids
  exact built.eq_of_types built' types (Option.some.inj ids).symm

/-! ## The written document -/

/-- A schema as a document: its types in the order of ids, and the name of its root. -/
def written (g : Graph) : Document :=
  g.definitions.map Definition.type ++ [.schema (some g.rootName)]

theorem types_written (g : Graph) : g.written.types = g.definitions := by
  simp [written, Document.types, List.filterMap_append, List.filterMap_map]

theorem extensions_written (g : Graph) : g.written.extensions = [] := by
  simp [written, Document.extensions, List.filterMap_append, List.filterMap_map]

theorem queryName_written (g : Graph) : g.written.queryName = g.rootName := by
  simp [written, Document.queryName, Document.queries, List.filterMap_append, List.filterMap_map]

namespace Built

theorem nodup_definitions (built : g.Built) : (g.definitions.map TypeDefinition.name).Nodup := by
  rw [definitions, names_definitions]
  exact built.coherent.nodup_names

/-- Whatever a field refers to has a definition of its own. -/
theorem references_declared (built : g.Built) {t : TypeDefinition} (inside : t ∈ g.definitions) :
    ∀ n ∈ t.references, n ∈ g.definitions.map TypeDefinition.name := by
  obtain ⟨x, member, rfl⟩ := List.mem_map.1 inside
  obtain ⟨owner, there⟩ := mem_toList_iff.1 member
  intro n refers
  rw [TypeDefinition.references_ofNode] at refers
  obtain ⟨target, inside, rfl⟩ := List.mem_map.1 refers
  obtain ⟨y, at_target⟩ := exists_get? (built.coherent.closed there target inside)
  rw [definitions, names_definitions, nameIn_of_get at_target]
  exact List.mem_map_of_mem (mem_toList_iff.2 ⟨target, at_target⟩)

theorem implicit_written (built : g.Built) : g.written.implicit = [] := by
  rw [Document.implicit, types_written, extensions_written, List.append_nil]
  refine List.eq_nil_iff_forall_not_mem.2 fun n implied => ?_
  obtain ⟨refers, -, undeclared⟩ := mem_implied.1 implied
  obtain ⟨t, inside, refers⟩ := List.mem_flatMap.1 refers
  exact undeclared (built.references_declared inside n refers)

theorem defines_root (built : g.Built) : Defines g.definitions "object" g.rootName := by
  obtain ⟨o, there⟩ := built.root_object
  rw [rootName_of_get there]
  exact ⟨_, List.mem_map_of_mem (mem_toList_iff.2 ⟨g.root, there⟩), rfl, rfl⟩

/-- A written schema is a document that defines a schema. -/
theorem sound_written (built : g.Built) : g.written.Sound where
  distinct := by
    rw [types_written]
    refine (List.pairwise_map.1 built.nodup_definitions).imp ?_
    intro t u differ same
    exact absurd same differ
  resolvable := by
    intro t inside n refers
    rw [types_written, extensions_written, List.append_nil] at *
    exact Or.inl (built.references_declared inside n refers)
  known := by
    intro before x after split
    rw [extensions_written] at split
    exact absurd split.symm (by simp)
  objects := by
    intro n fields inside
    rw [extensions_written] at inside
    exact nomatch inside
  enums := by
    intro n values inside
    rw [extensions_written] at inside
    exact nomatch inside
  root := by
    rw [types_written, queryName_written]
    exact built.defines_root

end Built

/-- **A SCHEMA COMES BACK FROM ITS DOCUMENT**: spelled by names and loaded, a
    finished schema is the same again, with its types at the same ids, its
    index and its root. -/
theorem graph_written (built : g.Built) (canonical : g.Canonical) : g.written.graph = .ok g := by
  obtain ⟨g', done⟩ :=
    (Document.reports_graph g.written).ok_iff.2 (Document.faults_eq_nil_iff.2 built.sound_written)
  obtain ⟨built', canonical', definitions', root'⟩ := Document.graph_loaded done
  -- nothing is defined twice, extended or implied, so only what is written comes back
  have same : g'.definitions = g.definitions := by
    have kept : TypeDefinition.merge [] = id := funext TypeDefinition.merge_nil
    rw [definitions', types_written, extensions_written, built.implicit_written,
      eraseDups_of_nodup built.nodup_definitions.of_map, kept, List.map_id]
    exact List.append_nil _
  have root : g'.rootName = g.rootName := by
    obtain ⟨o, there⟩ := built'.root_object
    rw [queryName_written] at root'
    rw [rootName_of_get there]
    exact built'.coherent.name_eq root' there
  rw [done, eq_of_definitions built' built canonical' canonical same root]

/-- A kind that is not canonical is not written, and does not come back. -/
example : ∃ g : Graph, g.Built ∧ g.written.graph ≠ .ok g :=
  ⟨_, ⟨[.object "Query", .scalar (.custom "Int")], 0, rfl⟩, by decide +kernel⟩

/-- The scalars of the bookshop are all called `String`, and of that kind. -/
theorem bookshop_canonical : bookshop.Canonical := by
  have kinds : ∀ x ∈ bookshop.types.toList, x.variant = "scalar" → x = .scalar .string := by
    decide +kernel
  intro id kind there
  have string := kinds _ (mem_toList_iff.2 ⟨id, there⟩) rfl
  cases string
  decide

theorem bookshop_written : bookshop.Built ∧ bookshop.Canonical ∧
    bookshop.written.graph = .ok bookshop :=
  ⟨bookshop_built, bookshop_canonical, graph_written bookshop_built bookshop_canonical⟩

end Graph

end Protograph
