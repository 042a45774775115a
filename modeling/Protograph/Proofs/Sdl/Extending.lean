import Protograph.Proofs.Sdl.Acceptance

/-! # Extending — what an extension finds in the graph

    An extension has to find its target, and what it adds has to suit the
    target: fields are added to an object, values to an enum.  Both are
    checked where something is added and nowhere else.  So an extension that
    brings no field and no value, but only directives or interfaces, counts by
    its name alone (`Builder.extendType_plain`), and that the target is of
    another sort goes unnoticed. -/

namespace Protograph

open Sdl

namespace Sdl

/-- An extension as it counts: one that adds nothing is no more than its name. -/
def TypeDefinition.plain : TypeDefinition → TypeDefinition
  | .object n [] => .scalar n
  | .enum n [] => .scalar n
  | other => other

/-- A document whose extensions are left with what counts of them. -/
def Document.plain (d : Document) : Document :=
  d.map fun
    | .extend x => .extend x.plain
    | other => other

end Sdl

theorem TypeNode.eq_object_of_variant {node : TypeNode} (sort : node.variant = "object") :
    ∃ o, node = .object o := by
  cases node <;> simp [variant] at sort ⊢

theorem TypeNode.eq_enum_of_variant {node : TypeNode} (sort : node.variant = "enum") :
    ∃ e, node = .enum e := by
  cases node <;> simp [variant] at sort ⊢

/-- Of an extension that adds nothing only the name is looked at. -/
theorem Builder.extendType_plain (b : Builder) (x : TypeDefinition) :
    b.extendType x.plain = b.extendType x := by
  cases x with
  | object n fields =>
      cases fields with
      | nil =>
          show b.extendType (.scalar n) = b.attachFields n []
          simp only [extendType, attachFields, TypeDefinition.name]
          cases b.lookup n <;> rfl
      | cons field fields => rfl
  | enum n values =>
      cases values with
      | nil =>
          show b.extendType (.scalar n) = b.attachValues n []
          simp only [extendType, attachValues, TypeDefinition.name]
          cases b.lookup n <;> rfl
      | cons value values => rfl
  | _ => rfl

namespace Sdl.Document

variable {d : Document} {g : Graph}

theorem types_plain (d : Document) : d.plain.types = d.types := by
  rw [types, types, plain, List.filterMap_map]
  congr 1
  funext t
  cases t <;> rfl

theorem queries_plain (d : Document) : d.plain.queries = d.queries := by
  rw [queries, queries, plain, List.filterMap_map]
  congr 1
  funext t
  cases t <;> rfl

theorem extensions_plain (d : Document) : d.plain.extensions = d.extensions.map (·.plain) := by
  rw [extensions, extensions, plain, List.filterMap_map, List.map_filterMap]
  congr 1
  funext t
  cases t <;> rfl

theorem graph_plain (d : Document) : d.plain.graph = d.graph := by
  have extending : ∀ b : Builder, d.plain.extensions.foldlM Builder.extendType b
      = d.extensions.foldlM Builder.extendType b := by
    intro b
    rw [extensions_plain, List.foldlM_map]
    simp only [Builder.extendType_plain]
  rw [graph, graph, builder, builder, queryName, queryName, types_plain, queries_plain]
  simp only [extending]

/-- **EXTENSIONS FIND THEIR TARGETS**: in a graph that is loaded every extended type is there, an
    object if the extension adds a field and an enum if it adds a value.  Of an extension that adds
    nothing no more is asked than of one that only names its target. -/
theorem graph_extended (d : Document) :
    (∀ g, d.graph = .ok g → ∀ x ∈ d.extensions,
      ∃ id node, g.lookup x.name = some id ∧ g.get? id = some node ∧
        (∀ n fields, x = .object n fields → fields ≠ [] → ∃ o, node = .object o) ∧
        ∀ n values, x = .enum n values → values ≠ [] → ∃ e, node = .enum e) ∧
    d.plain.graph = d.graph := by
  refine ⟨?_, graph_plain d⟩
  intro g done x inside
  have sound : d.Sound := faults_eq_nil_iff.1 ((reports_graph d).ok_iff.1 ⟨g, done⟩)
  obtain ⟨built, -, -, -⟩ := graph_loaded done
  -- what has been known when the extension was applied is known in the end
  have known : Known d.types ((d.types ++ d.extensions).flatMap (·.references)) x.name := by
    obtain ⟨before, after, split⟩ := List.append_of_mem inside
    refine (sound.known before x after split).imp_right (And.imp_right fun referred => ?_)
    rw [split, ← List.append_assoc, List.flatMap_append]
    exact List.mem_append_left _ referred
  obtain ⟨id, found⟩ := (graph_known_iff done).1 known
  obtain ⟨node, there, -⟩ := (built.coherent.indexed _ _).1 found
  refine ⟨id, node, found, there, ?_, ?_⟩
  · rintro n fields rfl some_field
    refine TypeNode.eq_object_of_variant ?_
    exact (graph_variant_iff done found there (by decide)).2
      (sound.objects n fields inside some_field)
  · rintro n values rfl some_value
    refine TypeNode.eq_enum_of_variant ?_
    exact (graph_variant_iff done found there (by decide)).2
      (sound.enums n values inside some_value)

theorem catalogue_extended : ∃ g, catalogue.graph = .ok g ∧ ∀ x ∈ catalogue.extensions,
    ∃ id node, g.lookup x.name = some id ∧ g.get? id = some node ∧
      (∀ n fields, x = .object n fields → fields ≠ [] → ∃ o, node = .object o) ∧
      ∀ n values, x = .enum n values → values ≠ [] → ∃ e, node = .enum e := by
  obtain ⟨g, done⟩ : ∃ g, catalogue.graph = .ok g := exists_ok (by decide +kernel)
  exact ⟨g, done, (graph_extended catalogue).1 g done⟩

/-- An enum that is extended as an object, with a directive and no field. -/
def misfiledText : String :=
  "type Query \x7b color: Color \x7d\nenum Color \x7b RED \x7d\nextend type Color @shaded"

/-- The definitions of `misfiledText`. -/
def misfiled : Document :=
  [ .type (.object "Query" [⟨"color", .named "Color"⟩]),
    .type (.enum "Color" ["RED"]),
    .extend (.object "Color" []) ]

theorem misfiled_accepted : Document.ofString misfiledText = .ok misfiled ∧
    .object "Color" [] ∈ misfiled.extensions ∧
    ∃ g id, misfiled.graph = .ok g ∧ g.lookup "Color" = some id ∧
      g.get? id = some (.enum ⟨"Color", ["RED"]⟩) := by
  refine ⟨by decide +kernel, by decide, ?_⟩
  refine ⟨⟨#[.object ⟨"Query", [⟨"color", .named 1⟩]⟩, .enum ⟨"Color", ["RED"]⟩],
    [("Color", 1), ("Query", 0)], 0⟩, 1, ?_, ?_, ?_⟩
  · decide +kernel
  · decide
  · rfl

end Sdl.Document

end Protograph
