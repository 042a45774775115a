import Protograph.Proofs.Schema.Reachability
import Protograph.Proofs.Sdl.Attaching

/-! # Loading — a loaded schema is its document, extensions merged

    A document is gone through three times.

    * Declaring leaves the distinct definitions, objects without their fields;
      definitions of one name are one scalar, read more than once
      (`declared_types`).
    * Filling gives the objects back their own fields (`loaded_fill`).
    * Extending merges the extensions behind them (`loaded_extend`).

    So the graph, written down by names, is the list of distinct definitions
    with all extensions merged, and behind it the built-in scalars that the
    document refers to without declaring them (`Document.graph_describes`).
    Where an extension stands, before its type or behind it, is of no
    importance; in which order the extensions of one type stand is. -/

namespace Protograph

open Sdl

/-! ## What a document says -/

namespace Sdl

namespace TypeDefinition

/-- A definition as it is declared: an object has no fields yet. -/
def bare : TypeDefinition → TypeDefinition
  | .object n _ => .object n []
  | other => other

/-- The definitions that the second pass looks at. -/
def isObject : TypeDefinition → Bool
  | .object .. => true
  | _ => false

@[simp] theorem name_bare (t : TypeDefinition) : t.bare.name = t.name := by
  cases t <;> rfl

/-- The type that a definition declares. -/
def blank : TypeDefinition → TypeNode
  | .scalar n => .scalar (.ofName n)
  | .object n _ => .object ⟨n, []⟩
  | .interface n => .interface n
  | .union n => .union n
  | .enum n values => .enum ⟨n, values⟩
  | .inputObject n => .inputObject n

@[simp] theorem name_blank (t : TypeDefinition) : t.blank.name = t.name := by
  cases t <;> simp [blank, TypeNode.name, name]

theorem targets_blank (t : TypeDefinition) : t.blank.targets = [] := by
  cases t <;> rfl

theorem ofNode_blank (nameOf : TypeId → String) (t : TypeDefinition) :
    ofNode nameOf t.blank = t.bare := by
  cases t <;> simp [blank, ofNode, bare]

theorem kind_blank {t : TypeDefinition} {kind : ScalarKind} (h : t.blank = .scalar kind) :
    kind = .ofName kind.name := by
  cases t with
  | scalar n =>
      cases h
      rw [ScalarKind.name_ofName]
  | _ => cases h

/-- The call that a definition makes. -/
def declaration : TypeDefinition → Call
  | .scalar n => .scalar (.ofName n)
  | .object n _ => .object n
  | .interface n => .interface n
  | .union n => .union n
  | .enum n values => .enumeration n values
  | .inputObject n => .inputObject n

theorem node_declaration (t : TypeDefinition) : t.declaration.node? = some t.blank := by
  cases t <;> rfl

theorem eq_scalar_of_declaration {t : TypeDefinition} {kind : ScalarKind}
    (h : t.declaration = .scalar kind) : t = .scalar kind.name := by
  cases t with
  | scalar n =>
      cases h
      rw [ScalarKind.name_ofName]
  | _ => cases h

/-- Only the declaration of a scalar leaves exactly that scalar. -/
theorem eq_scalar_of_bare {t : TypeDefinition} {n : String} (h : t.bare = .scalar n) :
    t = .scalar n := by
  cases t with
  | scalar m => exact h
  | _ => cases h

end TypeDefinition

/-- The built-in scalars that fields of definitions, and then fields of
    extensions, refer to although the document does not declare them. -/
def Document.implicit (d : Document) : List String :=
  implied (d.types.map TypeDefinition.name) ((d.types ++ d.extensions).flatMap (·.references))

/-- Definitions of one name are one and the same scalar. -/
def Distinct (types : List TypeDefinition) : Prop :=
  types.Pairwise fun t u => t.name = u.name → ∃ n, t = .scalar n ∧ u = .scalar n

/-- Around a definition stand only definitions of other names, unless it is a scalar. -/
theorem Distinct.around {types : List TypeDefinition} {t : TypeDefinition} (h : Distinct types)
    (inside : t ∈ types) : ∃ before after, types = before ++ t :: after ∧
      ∀ u ∈ before ++ after, u.name = t.name → ∃ n, u = .scalar n ∧ t = .scalar n := by
  obtain ⟨before, after, rfl⟩ := List.append_of_mem inside
  obtain ⟨-, behind, ahead⟩ := List.pairwise_append.1 h
  refine ⟨before, after, rfl, ?_⟩
  intro u other same
  rcases List.mem_append.1 other with left | right
  · exact ahead u left t (List.mem_cons_self ..) same
  · obtain ⟨n, ht, hu⟩ := (List.pairwise_cons.1 behind).1 u right same.symm
    exact ⟨n, hu, ht⟩

theorem Distinct.eq_of_name {types : List TypeDefinition} {t u : TypeDefinition}
    (h : Distinct types) (left : t ∈ types) (right : u ∈ types) (same : u.name = t.name) :
    u = t := by
  obtain ⟨before, after, rfl, others⟩ := h.around left
  rw [List.mem_append, List.mem_cons, or_left_comm, ← List.mem_append] at right
  rcases right with here | other
  · exact here
  · obtain ⟨n, hu, ht⟩ := others u other same
    exact hu.trans ht.symm

/-- A definition more, if all of its name are the same scalar. -/
theorem distinct_concat {types : List TypeDefinition} {t : TypeDefinition} (h : Distinct types)
    (others : ∀ u ∈ types, u.name = t.name → ∃ n, u = .scalar n ∧ t = .scalar n) :
    Distinct (types ++ [t]) := by
  refine List.pairwise_append.2 ⟨h, List.pairwise_singleton _ _, ?_⟩
  intro u before v last
  rw [List.mem_singleton] at last
  subst last
  exact others u before

/-- The fields of all object definitions, merged, are each object's own. -/
theorem merge_objects_bare {types : List TypeDefinition} {t : TypeDefinition} (h : Distinct types)
    (inside : t ∈ types) : TypeDefinition.merge (types.filter (·.isObject)) t.bare = t := by
  cases t with
  | object n fields =>
      obtain ⟨before, after, rfl, others⟩ := h.around inside
      -- no other definition has this name, so none gives the object a field
      have silent : ∀ u ∈ before ++ after, TypeDefinition.fieldsOf n u = [] := by
        intro u other
        cases u with
        | object m more =>
            refine if_neg fun same => ?_
            obtain ⟨_, impossible, -⟩ := others _ other same
            cases impossible
        | _ => rfl
      have nothing : ∀ {us : List TypeDefinition}, us ⊆ before ++ after →
          (us.filter (·.isObject)).flatMap (TypeDefinition.fieldsOf n) = [] :=
        fun part => List.flatMap_eq_nil_iff.2 fun u left =>
          silent u (part (List.mem_of_mem_filter left))
      rw [List.filter_append, List.filter_cons_of_pos rfl, TypeDefinition.bare,
        TypeDefinition.merge, List.flatMap_append, List.flatMap_cons,
        nothing (List.subset_append_left before after),
        nothing (List.subset_append_right before after)]
      simp [TypeDefinition.fieldsOf]
  | enum n values =>
      -- objects are all that has been filled, and they have no values
      have nothing : (types.filter (·.isObject)).flatMap (TypeDefinition.valuesOf n) = [] := by
        refine List.flatMap_eq_nil_iff.2 fun u left => ?_
        have object := List.of_mem_filter left
        cases u with
        | object m more => rfl
        | _ => cases object
      show TypeDefinition.enum n (values ++ _) = _
      rw [nothing, List.append_nil]
  | _ => rfl

end Sdl

namespace Builder

variable {b b' : Builder} {declared added : List TypeDefinition} {referred : List String}

/-! ## The first pass -/

/-- A builder that has declared the distinct ones of some definitions. -/
structure Declared (types : List TypeDefinition) (b : Builder) : Prop where
  reached : b.Reached
  canonical : b.Canonical
  definitions : definitions b.types = types.eraseDups.map TypeDefinition.bare
  distinct : Distinct types

/-- Declaring a type is one call, whose reply is of no interest. -/
theorem call_of_declareType {t : TypeDefinition} (h : b.declareType t = .ok b') :
    ∃ r, b.call t.declaration = .ok (r, b') := by
  have reply : ∀ d : Except SchemaError (TypeId × Builder), d.map (·.2) = .ok b' →
      ∃ r, d.map (fun r => (Reply.declared r.1, r.2)) = .ok (r, b') := by
    intro d done
    cases d with
    | error e => cases done
    | ok r =>
        cases done
        exact ⟨.declared r.1, rfl⟩
  cases t with
  | scalar n => exact reply _ h
  | object n fields => exact reply _ h
  | interface n => exact reply _ h
  | union n => exact reply _ h
  | enum n values => exact reply _ h
  | inputObject n => exact reply _ h

/-- Declaring a definition more: its name is free, or it is a scalar again. -/
theorem declared_declareType {types : List TypeDefinition} {t : TypeDefinition}
    (h : Declared types b) (done : b.declareType t = .ok b') : Declared (types ++ [t]) b' := by
  obtain ⟨r, called⟩ := call_of_declareType done
  have reached := h.reached.call called
  have coherent := h.reached.coherent
  have granted := granted_of_call called
  generalize asked : t.declaration = c at granted
  cases granted with
  | declared asks free =>
      -- the name is free, so no definition has been of that name
      rw [← asked, TypeDefinition.node_declaration] at asks
      cases asks
      rw [lookup, coherent.lookup_eq_none_iff, h.definitions, TypeDefinition.name_blank,
        List.map_map] at free
      have absent : ∀ u ∈ types, u.name ≠ t.name := by
        intro u before same
        refine free (List.mem_map.2 ⟨u, List.mem_eraseDups.2 before, ?_⟩)
        exact (TypeDefinition.name_bare u).trans same
      refine ⟨reached, canonical_push h.canonical fun kind => TypeDefinition.kind_blank, ?_,
        distinct_concat h.distinct fun u before same => absurd same (absent u before)⟩
      rw [push, definitions_push coherent t.targets_blank, TypeDefinition.ofNode_blank,
        h.definitions, eraseDups_concat_of_not_mem fun before => absent t before rfl,
        List.map_append, List.map_singleton]
  | @interned kind kind' id taken there =>
      -- the name is that of a scalar, which only a definition of it can have declared
      obtain rfl := TypeDefinition.eq_scalar_of_declaration asked
      have called := coherent.name_eq taken there
      have again : (definitions b.types)[id]? = some (.scalar kind.name) := by
        rw [getElem?_definitions, there, ← called]
        rfl
      rw [h.definitions] at again
      obtain ⟨u, before, same⟩ := List.mem_map.1 (List.mem_of_getElem? again)
      obtain rfl := TypeDefinition.eq_scalar_of_bare same
      rw [List.mem_eraseDups] at before
      refine ⟨reached, h.canonical, ?_, distinct_concat h.distinct fun u other same =>
        ⟨_, h.distinct.eq_of_name before other same, rfl⟩⟩
      rw [h.definitions, eraseDups_concat_of_mem before]
  | field inside there => cases t <;> cases asked
  | value there => cases t <;> cases asked

theorem declared_nil : Declared [] {} := ⟨⟨[], rfl⟩, fun there => by simp at there, rfl, .nil⟩

theorem declared_types {types : List TypeDefinition}
    (h : types.foldlM declareType {} = .ok b) : Declared types b :=
  foldlM_ok declared_nil declared_declareType h

/-- What has been declared has nothing added yet. -/
theorem Declared.loaded {types : List TypeDefinition} (h : Declared types b) :
    Loaded (types.eraseDups.map TypeDefinition.bare) [] [] b := by
  refine ⟨h.reached, h.canonical, ?_⟩
  rw [h.definitions, implied, List.filter_nil, List.eraseDups_nil, List.map_nil, List.append_nil]
  exact (List.map_id'' TypeDefinition.merge_nil _).symm

/-! ## The second and the third pass -/

/-- A definition is filled with its own fields, if it is an object. -/
theorem loaded_fillType {t : TypeDefinition} (h : Loaded declared referred added b)
    (done : b.fillType t = .ok b') :
    Loaded declared (referred ++ t.references) (added ++ [t].filter (·.isObject)) b' := by
  cases t with
  | object n fields => exact loaded_attachFields h done
  | _ =>
      cases done
      show Loaded declared (referred ++ []) (added ++ []) b
      rw [List.append_nil, List.append_nil]
      exact h

/-- An extension is merged. -/
theorem loaded_extendType {t : TypeDefinition} (h : Loaded declared referred added b)
    (done : b.extendType t = .ok b') :
    Loaded declared (referred ++ t.references) (added ++ [t]) b' := by
  cases t with
  | object n fields => exact loaded_attachFields h done
  | enum n values =>
      show Loaded declared (referred ++ []) _ b'
      rw [List.append_nil]
      exact loaded_attachValues h done
  | _ =>
      -- only the name is looked at, and neither fields nor values are there to merge
      simp only [extendType] at done
      split at done
      · cases done
        show Loaded declared (referred ++ []) _ b
        rw [List.append_nil]
        refine h.congr fun u => ?_
        rw [TypeDefinition.merge_append, TypeDefinition.merge_of_silent rfl rfl]
      · cases done

/-- The second pass. -/
theorem loaded_fill {types : List TypeDefinition} (h : Loaded declared referred added b)
    (done : types.foldlM fillType b = .ok b') :
    Loaded declared (referred ++ types.flatMap (·.references))
      (added ++ types.filter (·.isObject)) b' := by
  refine foldlM_ok (P := fun before b => Loaded declared
    (referred ++ before.flatMap (·.references)) (added ++ before.filter (·.isObject)) b)
    ?_ ?_ done
  · rw [List.flatMap_nil, List.filter_nil, List.append_nil, List.append_nil]
    exact h
  · intro before t s s' loaded one
    rw [List.flatMap_append, List.flatMap_singleton, List.filter_append, ← List.append_assoc,
      ← List.append_assoc]
    exact loaded_fillType loaded one

/-- The third pass. -/
theorem loaded_extend {extensions : List TypeDefinition} (h : Loaded declared referred added b)
    (done : extensions.foldlM extendType b = .ok b') :
    Loaded declared (referred ++ extensions.flatMap (·.references)) (added ++ extensions) b' := by
  refine foldlM_ok (P := fun before b => Loaded declared
    (referred ++ before.flatMap (·.references)) (added ++ before) b) ?_ ?_ done
  · rw [List.flatMap_nil, List.append_nil, List.append_nil]
    exact h
  · intro before t s s' loaded one
    rw [List.flatMap_append, List.flatMap_singleton, ← List.append_assoc, ← List.append_assoc]
    exact loaded_extendType loaded one

end Builder

/-! ## The graph -/

namespace Sdl

/-- What a document has to do with the graph it defines. -/
structure Document.Describes (d : Document) (g : Graph) : Prop where
  /-- The types in the order of ids, each with all that extensions add to it, then the
      built-in scalars in the order of first reference. -/
  definitions : g.definitions
    = d.types.eraseDups.map (TypeDefinition.merge d.extensions)
      ++ d.implicit.map TypeDefinition.scalar
  /-- Nothing but a scalar is defined more than once. -/
  distinct : Distinct d.types
  /-- No two types of the graph have one name. -/
  names : (g.types.toList.map TypeNode.name).Nodup
  /-- The kind of a scalar is the one its name stands for. -/
  kinds : ∀ {id : TypeId} {kind : ScalarKind}, g.get? id = some (.scalar kind) →
    kind = .ofName kind.name
  /-- Every field refers to a type of the graph. -/
  closed : g.Closed
  /-- The root is the object of the name that the document settles on. -/
  root : ∃ o, g.get? g.root = some (.object o) ∧ o.name = d.queryName

variable {d : Document} {b : Builder}

/-- The names that count as declared are those of the definitions. -/
theorem implied_congr {declared declared' referred : List String}
    (same : ∀ n, n ∈ declared ↔ n ∈ declared') :
    implied declared referred = implied declared' referred := by
  rw [implied, implied]
  congr 2
  funext n
  rw [show declared.contains n = declared'.contains n from
    Bool.eq_iff_iff.2 (by simpa using same n)]

/-- After the three passes every definition has been read, and every extension. -/
theorem Document.builder_loaded (h : d.builder = .ok b) : Distinct d.types ∧
    Builder.Loaded (d.types.eraseDups.map TypeDefinition.bare)
      ((d.types ++ d.extensions).flatMap (·.references))
      (d.types.filter (·.isObject) ++ d.extensions) b := by
  rw [Document.builder] at h
  obtain ⟨first, declaring, h⟩ := bind_eq_ok.1 h
  obtain ⟨second, filling, extending⟩ := bind_eq_ok.1 h
  have declared := Builder.declared_types declaring
  refine ⟨declared.distinct, ?_⟩
  rw [List.flatMap_append]
  have loaded := Builder.loaded_extend (Builder.loaded_fill declared.loaded filling) extending
  rwa [List.nil_append, List.nil_append] at loaded

/-- The definitions of the loaded builder, without the detour over the passes. -/
theorem Document.definitions_builder (h : d.builder = .ok b) :
    Protograph.definitions b.types = d.types.eraseDups.map (TypeDefinition.merge d.extensions)
      ++ d.implicit.map TypeDefinition.scalar := by
  obtain ⟨distinct, loaded⟩ := Document.builder_loaded h
  have names : ∀ n, n ∈ (d.types.eraseDups.map TypeDefinition.bare).map TypeDefinition.name
      ↔ n ∈ d.types.map TypeDefinition.name := by
    intro n
    simp
  rw [loaded.definitions, List.map_append, List.map_map, List.map_map]
  congr 1
  · refine List.map_congr_left fun t inside => ?_
    rw [Function.comp_apply, TypeDefinition.merge_append,
      merge_objects_bare distinct (List.mem_eraseDups.1 inside)]
  · rw [Document.implicit, implied_congr names]
    rfl

/-- What loading leaves behind when it ends well. -/
theorem Document.graph_loaded {g : Graph} (h : d.graph = .ok g) : g.Built ∧ g.Canonical
    ∧ g.definitions = d.types.eraseDups.map (TypeDefinition.merge d.extensions)
        ++ d.implicit.map TypeDefinition.scalar
    ∧ g.names.lookup d.queryName = some g.root := by
  rw [Document.graph] at h
  obtain ⟨b, done, h⟩ := bind_eq_ok.1 h
  split at h
  · next root named =>
      obtain ⟨-, loaded⟩ := Document.builder_loaded done
      have built := loaded.reached.build h
      obtain ⟨rfl, -⟩ := Builder.build_ok h
      exact ⟨built, loaded.canonical, Document.definitions_builder done, named⟩
  · cases h

/-- **A LOADED GRAPH IS ITS DOCUMENT**: whatever the order of definitions and
    extensions, nothing of the document is lost, doubled or attached elsewhere. -/
theorem Document.graph_describes {g : Graph} (h : d.graph = .ok g) : d.Describes g := by
  rw [Document.graph] at h
  obtain ⟨b, done, h⟩ := bind_eq_ok.1 h
  split at h
  · next root named =>
      obtain ⟨distinct, loaded⟩ := Document.builder_loaded done
      have built := loaded.reached.build h
      obtain ⟨rfl, o, at_root⟩ := Builder.build_ok h
      have coherent := loaded.reached.coherent
      have called := coherent.name_eq named at_root
      exact
        { definitions := Document.definitions_builder done
          distinct := distinct
          names := coherent.nodup_names
          kinds := loaded.canonical
          closed := built.closed
          root := ⟨o, at_root, called⟩ }
  · cases h

/-- A document with an extension before its type, another behind it, a scalar
    defined twice, an enum extended, and built-in scalars that only fields
    mention. -/
def catalogue : Document :=
  [ .extend (.object "Search" [⟨"hits", .nonNull (.named "Int")⟩]),
    .type (.scalar "Date"),
    .schema (some "Search"),
    .type (.object "Search" [⟨"books", .list (.nonNull (.named "Book"))⟩, ⟨"day", .named "Date"⟩]),
    .type (.scalar "Date"),
    .extend (.enum "Genre" ["ESSAY", "NOVEL"]),
    .type (.object "Book" [⟨"title", .named "String"⟩, ⟨"genre", .named "Genre"⟩]),
    .type (.enum "Genre" ["POEM"]),
    .extend (.object "Search" [⟨"again", .named "Search"⟩]) ]

theorem catalogue_describes : ∃ g, catalogue.graph = .ok g ∧ catalogue.Describes g ∧
    g.definitions =
      [ .scalar "Date",
        .object "Search" [⟨"books", .list (.nonNull (.named "Book"))⟩, ⟨"day", .named "Date"⟩,
          ⟨"hits", .nonNull (.named "Int")⟩, ⟨"again", .named "Search"⟩],
        .object "Book" [⟨"title", .named "String"⟩, ⟨"genre", .named "Genre"⟩],
        .enum "Genre" ["POEM", "ESSAY", "NOVEL"],
        .scalar "String",
        .scalar "Int" ] := by
  obtain ⟨g, done⟩ : ∃ g, catalogue.graph = .ok g := exists_ok (by decide +kernel)
  have describes := Document.graph_describes done
  refine ⟨g, done, describes, ?_⟩
  rw [describes.definitions]
  decide +kernel

end Sdl

end Protograph
