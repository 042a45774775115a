import Protograph.Proofs.Sdl.Faults

/-! # Acceptance — which documents define a schema, and what comes of the others

    Loading reports the faults of a document (`Document.reports_graph`): it
    ends well for sound documents only, and for any other in the first fault.

    The builder is known by its definitions while it reads (`Declared`,
    `Loaded`).  They say which names the index has (`Loaded.known_iff`) and
    what sort of type stands at the id of a name (`Loaded.variant_iff`), and
    these two are all that the checks of a step ask for.  Each step has one
    lemma; the passes follow from their steps. -/

namespace Protograph

open Sdl

/-! ## What stands at the id of a name -/

namespace Sdl

@[simp] theorem TypeDefinition.variant_bare (t : TypeDefinition) : t.bare.variant = t.variant := by
  cases t <;> rfl

@[simp] theorem TypeDefinition.variant_merge (added : List TypeDefinition) (t : TypeDefinition) :
    (merge added t).variant = t.variant := by
  cases t <;> rfl

@[simp] theorem TypeDefinition.variant_ofNode (nameOf : TypeId → String) (node : TypeNode) :
    (ofNode nameOf node).variant = node.variant := by
  cases node <;> rfl

theorem mem_implied {declared referred : List String} {n : String} :
    n ∈ implied declared referred
      ↔ n ∈ referred ∧ n ∈ ScalarKind.builtinNames ∧ n ∉ declared := by
  simp [implied]

variable {types more : List TypeDefinition} {variant n : String}

theorem defines_append :
    Defines (types ++ more) variant n ↔ Defines types variant n ∨ Defines more variant n := by
  simp only [Defines, List.mem_append, or_and_right, exists_or]

/-- Only sorts and names count. -/
theorem defines_map {f : TypeDefinition → TypeDefinition} (sorts : ∀ t, (f t).variant = t.variant)
    (names : ∀ t, (f t).name = t.name) : Defines (types.map f) variant n ↔ Defines types variant n := by
  simp [Defines, sorts, names]

theorem defines_bare :
    Defines (types.eraseDups.map TypeDefinition.bare) variant n ↔ Defines types variant n := by
  rw [defines_map TypeDefinition.variant_bare TypeDefinition.name_bare]
  simp [Defines]

end Sdl

section Coherent

variable {types : Array TypeNode} {names : List (String × TypeId)} {n : String} {id : TypeId}

/-- The sort of the type at the id of a name is that of the definition of the name. -/
theorem Coherent.variant_iff {node : TypeNode} {variant : String} (h : Coherent types names)
    (found : names.lookup n = some id) (there : types[id]? = some node) :
    node.variant = variant ↔ Defines (definitions types) variant n := by
  have called := h.name_eq found there
  constructor
  · intro sort
    refine ⟨.ofNode (nameIn types) node, ?_, ?_, ?_⟩
    · refine List.mem_of_getElem? (i := id) ?_
      rw [getElem?_definitions, there]
      rfl
    · rw [TypeDefinition.variant_ofNode, sort]
    · rw [TypeDefinition.name_ofNode, called]
  · rintro ⟨t, inside, sort, rfl⟩
    obtain ⟨other, at_id, rfl⟩ := h.node_of_mem found inside
    rw [there] at at_id
    cases at_id
    rw [← sort, TypeDefinition.variant_ofNode]

end Coherent

namespace Builder

variable {b b' : Builder} {types added : List TypeDefinition} {referred : List String}
  {n : String} {id : TypeId} {node : TypeNode}

theorem Declared.lookup_eq_none_iff (h : Declared types b) :
    b.lookup n = none ↔ n ∉ types.map TypeDefinition.name := by
  rw [lookup, h.reached.coherent.lookup_eq_none_iff, h.definitions]
  simp

theorem Declared.variant_iff {variant : String} (h : Declared types b)
    (found : b.lookup n = some id) (there : b.types[id]? = some node) :
    node.variant = variant ↔ Defines types variant n := by
  rw [h.reached.coherent.variant_iff found there, h.definitions, defines_bare]

/-- What is known is what the index has. -/
theorem Loaded.known_iff (h : Loaded (types.eraseDups.map TypeDefinition.bare) referred added b) :
    Known types referred n ↔ ∃ id, b.lookup n = some id := by
  have names : ∀ m, m ∈ (types.eraseDups.map TypeDefinition.bare).map TypeDefinition.name
      ↔ m ∈ types.map TypeDefinition.name := by
    intro m
    simp
  rw [← Option.isSome_iff_exists, ← Option.ne_none_iff_isSome, ne_eq, h.lookup_eq_none_iff,
    implied_congr names, names, mem_implied, Known]
  by_cases declared : n ∈ types.map TypeDefinition.name
  · simp only [declared, true_or, not_true_eq_false, false_and, not_false_eq_true]
  · simp only [declared, false_or, not_false_eq_true, true_and, not_not, and_comm]

theorem Loaded.variant_iff {variant : String}
    (h : Loaded (types.eraseDups.map TypeDefinition.bare) referred added b)
    (found : b.lookup n = some id) (there : b.types[id]? = some node) (sort : variant ≠ "scalar") :
    node.variant = variant ↔ Defines types variant n := by
  have noScalar : ∀ ns : List String, ¬ Defines (ns.map TypeDefinition.scalar) variant n := by
    rintro ns ⟨t, inside, rfl, -⟩
    obtain ⟨m, -, rfl⟩ := List.mem_map.1 inside
    exact sort rfl
  rw [h.reached.coherent.variant_iff found there, h.definitions,
    defines_map (TypeDefinition.variant_merge added) (TypeDefinition.name_merge added),
    defines_append, defines_bare, or_iff_left (noScalar _)]

/-! ## The first pass -/

/-- A definition under a free name is declared. -/
theorem declareType_of_free {t : TypeDefinition} (free : b.lookup t.name = none) :
    b.declareType t = .ok (b.push t.blank) := by
  rw [← TypeDefinition.name_blank] at free
  cases t with
  | scalar n => exact congrArg (Except.map (·.2)) (scalar_of_free free)
  | _ => exact congrArg (Except.map (·.2)) (declare_of_free free)

/-- Under a name that is taken only a scalar is declared, and only where a scalar is. -/
theorem declareType_of_taken {t : TypeDefinition} (found : b.lookup t.name = some id)
    (there : b.types[id]? = some node) : b.declareType t
      = if t.variant = "scalar" ∧ node.variant = "scalar" then .ok b
        else .error (.duplicateType t.name) := by
  cases t with
  | scalar n =>
      simp only [declareType, scalar, ScalarKind.name_ofName, show b.lookup n = some id from found,
        there]
      cases node <;> rfl
  | _ =>
      simp only [declareType, object, interface, union, enumeration, inputObject, declare]
      simp only [TypeDefinition.name] at found
      simp only [TypeNode.name, found]
      rfl

/-- A clash is all that can be wrong with a definition. -/
theorem reports_declareType {t : TypeDefinition} (h : Declared types b) :
    Reports (b.declareType t) (clashFaults types t) := by
  cases found : b.lookup t.name with
  | none =>
      have absent := h.lookup_eq_none_iff.1 found
      have noClash : ¬ ∃ u ∈ types, u.Clashes t := by
        rintro ⟨u, inside, same, -⟩
        exact absent (List.mem_map.2 ⟨u, inside, same⟩)
      rw [declareType_of_free found, clashFaults, if_neg noClash]
      exact .ok _
  | some id =>
      obtain ⟨node, there, -⟩ := (h.reached.coherent.indexed t.name id).1 found
      have sorts : ∀ {variant : String}, node.variant = variant ↔ Defines types variant t.name :=
        h.variant_iff found there
      rw [declareType_of_taken found there]
      by_cases both : t.variant = "scalar" ∧ node.variant = "scalar"
      · -- all definitions of this name are the scalar that stands there
        obtain ⟨v, before, scalar, named⟩ := sorts.1 both.2
        have noClash : ¬ ∃ u ∈ types, u.Clashes t := by
          rintro ⟨u, inside, same, differ⟩
          have equal := h.distinct.eq_of_name before inside (same.trans named.symm)
          exact differ ⟨equal ▸ scalar, both.1⟩
        rw [if_pos both, clashFaults, if_neg noClash]
        exact .ok _
      · -- some definition of this name is of the sort that stands there
        obtain ⟨u, before, sort, named⟩ := sorts.1 rfl
        have clash : ∃ u ∈ types, u.Clashes t :=
          ⟨u, before, named, fun scalars => both ⟨scalars.2, sort ▸ scalars.1⟩⟩
        rw [if_neg both, clashFaults, if_pos clash]
        exact .error _ []

theorem reports_declare (types : List TypeDefinition) :
    Reports (types.foldlM declareType {}) (along clashFaults [] types) :=
  Reports.foldlM declared_nil declared_declareType fun _ => reports_declareType

/-! ## Fields and values -/

theorem reports_field (name : String) {owner : TypeId} {type : TypeRef TypeId}
    (inside : type.target < b.types.size) (there : b.types[owner]? = some node) :
    Reports (b.field owner name type)
      (if node.variant = "object" then [] else [.notAnObject node.name]) := by
  rw [field, if_pos inside, there]
  cases node with
  | object o => exact .ok _
  | _ => exact .error _ []

theorem reports_value (name : String) {owner : TypeId} (there : b.types[owner]? = some node) :
    Reports (b.value owner name)
      (if node.variant = "enum" then [] else [.notAnEnum node.name]) := by
  rw [value, there]
  cases node with
  | enum e => exact .ok _
  | _ => exact .error _ []

section Attach

variable (h : Loaded (types.eraseDups.map TypeDefinition.bare) referred added b)

include h

/-- Whatever begins with looking up a name fails first if the name is unknown. -/
theorem reports_lookup {α : Type} {next : TypeId → Except SchemaError α}
    {faults : List SchemaError} (each : ∀ i, b.lookup n = some i → Reports (next i) faults) :
    Reports (match b.lookup n with
        | some i => next i
        | none => .error (.unknownType n))
      (if Known types referred n then faults else [.unknownType n]) := by
  have known := h.known_iff (n := n)
  cases found : b.lookup n with
  | some i =>
      rw [if_pos (known.2 ⟨i, found⟩)]
      exact each i found
  | none =>
      rw [if_neg (by rw [known, found]; simp)]
      exact .error _ []

/-- A name that is not resolvable is all that can be wrong with it. -/
theorem reports_resolve (n : String) :
    Reports (b.resolve n) (if Resolvable types n then [] else [.unknownType n]) := by
  have known := h.known_iff (n := n)
  rw [resolve]
  split
  · next i found =>
      have resolvable : Resolvable types n := (known.2 ⟨i, found⟩).imp_right And.left
      rw [if_pos resolvable]
      exact .ok _
  · next free =>
      have unknown : ¬ Known types referred n := by
        rw [known, free]
        simp
      by_cases builtin : n ∈ ScalarKind.builtinNames
      · have resolvable : Resolvable types n := Or.inr builtin
        rw [← ScalarKind.name_ofName n] at free
        rw [if_pos (List.contains_iff_mem.2 builtin), if_pos resolvable, scalar_of_free free]
        exact .ok _
      · have unresolvable : ¬ Resolvable types n := by
          rintro (declared | isBuiltin)
          · exact unknown (Or.inl declared)
          · exact builtin isBuiltin
        rw [if_neg (mt List.contains_iff_mem.1 builtin), if_neg unresolvable]
        exact .error _ []

/-- A field that is resolved is added, if its owner is an object. -/
theorem reports_attachField {owner : String} (named : b.lookup owner = some id)
    (field : Field String) : Reports (attachField id b field) (fieldFaults types owner field) := by
  have resolved := reports_resolve h field.type.target
  rw [attachField, fieldFaults]
  by_cases resolvable : Resolvable types field.type.target
  · rw [if_pos resolvable] at resolved ⊢
    obtain ⟨⟨target, next⟩, done⟩ := resolved.ok_iff.2 rfl
    obtain ⟨loaded, found, kept⟩ := loaded_resolve h done
    have coherent := loaded.reached.coherent
    obtain ⟨_, at_target, -⟩ := (coherent.indexed _ target).1 found
    obtain ⟨node, there, called⟩ := (coherent.indexed owner id).1 (kept named)
    have inside : (field.type.map fun _ => target).target < next.types.size := by
      rw [TypeRef.target_map]
      exact (Array.getElem?_eq_some_iff.1 at_target).1
    have report := reports_field field.name inside there
    simp only [loaded.variant_iff (kept named) there (by simp : "object" ≠ "scalar"), called]
      at report
    rw [done]
    exact report
  · rw [if_neg resolvable] at resolved ⊢
    rw [(resolved.error_iff (.unknownType field.type.target)).2 rfl]
    exact .error _ []

theorem reports_attachValue {owner : String} (named : b.lookup owner = some id) (value : String) :
    Reports (b.value id value) (valueFaults types owner value) := by
  obtain ⟨node, there, called⟩ := (h.reached.coherent.indexed owner id).1 named
  have report := reports_value value there
  simp only [h.variant_iff named there (by simp : "enum" ≠ "scalar"), called] at report
  exact report

/-- Fields are added one after the other to a type that is known. -/
theorem reports_attachFields (owner : String) (fields : List (Field String)) :
    Reports (b.attachFields owner fields)
      (if Known types referred owner then fields.flatMap (fieldFaults types owner)
        else [.unknownType owner]) := by
  refine reports_lookup h fun i named => ?_
  rw [← along_eq_flatMap _ []]
  -- on the way more is referred to and added, but the declared types stay
  refine Reports.foldlM (P := fun _ b => (∃ referred added,
    Loaded (types.eraseDups.map TypeDefinition.bare) referred added b)
      ∧ b.lookup owner = some i) ⟨⟨_, _, h⟩, named⟩ ?_ ?_
  · rintro before field s s' ⟨⟨referred, added, loaded⟩, named⟩ done
    obtain ⟨more, named'⟩ := loaded_attachField loaded named done
    exact ⟨⟨_, _, more⟩, named'⟩
  · rintro before field s - ⟨⟨referred, added, loaded⟩, named⟩
    exact reports_attachField loaded named field

theorem reports_attachValues (owner : String) (values : List String) :
    Reports (b.attachValues owner values)
      (if Known types referred owner then values.flatMap (valueFaults types owner)
        else [.unknownType owner]) := by
  refine reports_lookup h fun i named => ?_
  rw [← along_eq_flatMap _ []]
  refine Reports.foldlM (P := fun _ b => (∃ added,
    Loaded (types.eraseDups.map TypeDefinition.bare) referred added b)
      ∧ b.lookup owner = some i) ⟨⟨_, h⟩, named⟩ ?_ ?_
  · rintro before value s s' ⟨⟨added, loaded⟩, named⟩ done
    obtain ⟨more, named'⟩ := loaded_attachValue loaded named done
    exact ⟨⟨_, more⟩, named'⟩
  · rintro before value s - ⟨⟨added, loaded⟩, named⟩
    exact reports_attachValue loaded named value

/-! ## The second and the third pass -/

/-- Of a definition only the types of its fields can be wrong. -/
theorem reports_fillType {t : TypeDefinition} (inside : t ∈ types) :
    Reports (b.fillType t) (unresolvedFaults types t) := by
  cases t with
  | object n fields =>
      have known : Known types referred n := Or.inl (List.mem_map.2 ⟨_, inside, rfl⟩)
      have object : Defines types "object" n := ⟨_, inside, rfl, rfl⟩
      have same : fields.flatMap (fieldFaults types n)
          = unresolvedFaults types (.object n fields) := by
        rw [unresolvedFaults, TypeDefinition.references, List.flatMap_map]
        refine List.flatMap_congr fun field _ => ?_
        rw [fieldFaults, if_pos object]
      have report := reports_attachFields h n fields
      rw [if_pos known, same] at report
      exact report
  | _ => exact .ok b

/-- An extension has to find what it extends. -/
theorem reports_extendType {before : List TypeDefinition}
    (far : referred = (types ++ before).flatMap (·.references)) (x : TypeDefinition) :
    Reports (b.extendType x) (extensionFaults types before x) := by
  rw [extensionFaults, ← far]
  cases x with
  | object n fields => exact reports_attachFields h n fields
  | enum n values => exact reports_attachValues h n values
  | _ => exact reports_lookup h fun _ _ => .ok b

theorem reports_fill : Reports (types.foldlM fillType b) (types.flatMap (unresolvedFaults types)) := by
  rw [← along_eq_flatMap _ []]
  refine Reports.foldlM (P := fun _ b => ∃ referred added,
    Loaded (types.eraseDups.map TypeDefinition.bare) referred added b) ⟨_, _, h⟩ ?_ ?_
  · rintro before t s s' ⟨referred, added, loaded⟩ done
    exact ⟨_, _, loaded_fillType loaded done⟩
  · rintro before t s inside ⟨referred, added, loaded⟩
    exact reports_fillType loaded inside

end Attach

/-- The third pass begins when all definitions have been read. -/
theorem reports_extend {extensions : List TypeDefinition}
    (h : Loaded (types.eraseDups.map TypeDefinition.bare) (types.flatMap (·.references)) added b) :
    Reports (extensions.foldlM extendType b) (along (extensionFaults types) [] extensions) := by
  refine Reports.foldlM (P := fun before b => ∃ added,
    Loaded (types.eraseDups.map TypeDefinition.bare)
      ((types ++ before).flatMap (·.references)) added b) ⟨added, ?_⟩ ?_ ?_
  · rw [List.append_nil]
    exact h
  · rintro before x s s' ⟨added, loaded⟩ done
    refine ⟨added ++ [x], ?_⟩
    rw [← List.append_assoc, List.flatMap_append, List.flatMap_singleton]
    exact loaded_extendType loaded done
  · rintro before x s - ⟨added, loaded⟩
    exact reports_extendType loaded rfl x

theorem reports_build {root : TypeId} (there : b.types[root]? = some node) :
    Reports (b.build root)
      (if node.variant = "object" then [] else [.invalidRoot node.name]) := by
  rw [build, there]
  cases node with
  | object o => exact .ok _
  | _ => exact .error _ []

end Builder

/-! ## The document -/

namespace Sdl.Document

variable {d : Document}

/-! ## What stands at a name of a loaded graph -/

section Loaded

variable {g : Graph} {n : String} {id : TypeId}

/-- A loaded graph has what its builder has. -/
theorem builder_of_graph (done : d.graph = .ok g) :
    ∃ b root, d.builder = .ok b ∧ b.build root = .ok g := by
  rw [graph] at done
  obtain ⟨b, built, done⟩ := bind_eq_ok.1 done
  split at done
  · next root named => exact ⟨b, root, built, done⟩
  · cases done

/-- The names of a loaded graph are those that the document knows in the end. -/
theorem graph_known_iff (done : d.graph = .ok g) :
    Known d.types ((d.types ++ d.extensions).flatMap (·.references)) n
      ↔ ∃ id, g.lookup n = some id := by
  obtain ⟨b, root, built, finished⟩ := builder_of_graph done
  obtain ⟨rfl, -⟩ := Builder.build_ok finished
  exact (Document.builder_loaded built).2.known_iff

/-- The sort of a type is that of its definition; only scalars may be there without one. -/
theorem graph_variant_iff {node : TypeNode} {variant : String} (done : d.graph = .ok g)
    (found : g.lookup n = some id) (there : g.get? id = some node) (sort : variant ≠ "scalar") :
    node.variant = variant ↔ Defines d.types variant n := by
  obtain ⟨b, root, built, finished⟩ := builder_of_graph done
  obtain ⟨rfl, -⟩ := Builder.build_ok finished
  exact (Document.builder_loaded built).2.variant_iff found there sort

end Loaded

/-! ## What loading reports -/

theorem reports_builder (d : Document) : Reports d.builder
    (along clashFaults [] d.types ++ (d.types.flatMap (unresolvedFaults d.types)
      ++ along (extensionFaults d.types) [] d.extensions)) := by
  refine (Builder.reports_declare d.types).bind fun first declaring => ?_
  have declared := (Builder.declared_types declaring).loaded
  refine (Builder.reports_fill declared).bind fun second filling => ?_
  have filled := Builder.loaded_fill declared filling
  rw [List.nil_append] at filled
  exact Builder.reports_extend filled

/-- A root that is known has to be an object. -/
theorem reports_root {b : Builder} (done : d.builder = .ok b) :
    Reports (match b.lookup d.queryName with
        | some root => b.build root
        | none => .error .missingRoot) d.rootFaults := by
  obtain ⟨-, loaded⟩ := Document.builder_loaded done
  have known := loaded.known_iff (n := d.queryName)
  rw [rootFaults]
  cases found : b.lookup d.queryName with
  | none =>
      rw [if_neg (by rw [known, found]; simp)]
      exact .error _ []
  | some root =>
      obtain ⟨node, there, called⟩ := (loaded.reached.coherent.indexed _ root).1 found
      have object := loaded.variant_iff found there (by simp : "object" ≠ "scalar")
      have report := Builder.reports_build there
      simp only [object, called] at report
      rw [if_pos (known.2 ⟨root, found⟩)]
      exact report

/-- Loading reports the first of the faults. -/
theorem reports_graph (d : Document) : Reports d.graph d.faults := by
  have report := (reports_builder d).bind fun b done => reports_root done
  rw [← List.append_assoc] at report
  exact report

/-- **WHICH DOCUMENTS DEFINE A SCHEMA**: the sound ones.  For any other the
    first of its faults is the error that comes out. -/
theorem graph_exact (d : Document) : ((∃ g, d.graph = .ok g) ↔ d.Sound) ∧
    ∀ e, d.graph = .error e ↔ d.faults.head? = some e :=
  ⟨(reports_graph d).ok_iff.trans faults_eq_nil_iff, (reports_graph d).error_iff⟩

/-- Much is wrong with this document, and in this order: a scalar is extended
    that only a later extension refers to, and there is no `Query`. -/
example : faults
    [ .extend (.scalar "Int"),
      .extend (.object "Color" [⟨"shade", .list (.named "Int")⟩]),
      .extend (.scalar "Int"),
      .type (.object "Shop" [⟨"opened", .named "Date"⟩]),
      .type (.enum "Color" ["RED"]),
      .type (.interface "Shop") ]
    = [ .duplicateType "Shop", .unknownType "Date", .unknownType "Int", .notAnObject "Color",
        .missingRoot ] := by
  decide +kernel

end Sdl.Document

end Protograph
