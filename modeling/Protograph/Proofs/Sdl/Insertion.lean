import Protograph.Proofs.Sdl.Growth

/-! # Insertion — a scalar extension between other definitions

    An extension of a scalar adds nothing.  It only has to find its target at
    the time it is read, and then the builder goes on as if it were not there.
    So it can be put anywhere in a document where its target is known, and the
    schema stays the same.

    For a built-in scalar that nobody declares the place matters: such a
    scalar is there when a field of a definition has referred to it, or a
    field of an extension in front.  Anywhere else the document, sound
    before, has a fault. -/

namespace Protograph

open Sdl

namespace Builder

variable {b : Builder} {n : String} {id : TypeId}

theorem extendType_scalar_of_found (found : b.lookup n = some id) :
    b.extendType (.scalar n) = .ok b := by
  simp only [extendType, TypeDefinition.name, found]

theorem extendType_scalar_of_free (free : b.lookup n = none) :
    b.extendType (.scalar n) = .error (.unknownType n) := by
  simp only [extendType, TypeDefinition.name, free]

end Builder

namespace Sdl.Document

variable {before after : Document} {n : String} {b : Builder} {g : Graph}

theorem types_insert (before after : Document) (x : TypeDefinition) :
    types (before ++ .extend x :: after) = types (before ++ after) := by
  rw [types_append, types_append]
  rfl

theorem extensions_insert (before after : Document) (x : TypeDefinition) :
    extensions (before ++ .extend x :: after) = before.extensions ++ x :: after.extensions := by
  rw [extensions_append]
  rfl

theorem queryName_insert (before after : Document) (x : TypeDefinition) :
    queryName (before ++ .extend x :: after) = queryName (before ++ after) := by
  simp only [queryName, queries, List.filterMap_append, List.filterMap_cons]

/-- A name that is known where an extension stands between `before` and `after`. -/
def KnownBetween (before after : Document) (n : String) : Prop :=
  Known (types (before ++ after))
    ((types (before ++ after) ++ before.extensions).flatMap (·.references)) n

instance (before after : Document) (n : String) : Decidable (before.KnownBetween after n) :=
  inferInstanceAs (Decidable (Known _ _ _))

/-- Between two parts of a document stands a builder that has the names known there; an
    extension that is inserted meets it, and the rest goes on from what comes of it. -/
theorem builder_between (done : builder (before ++ after) = .ok b) : ∃ middle : Builder,
    (∀ n, before.KnownBetween after n ↔ ∃ id, middle.lookup n = some id)
      ∧ after.extensions.foldlM Builder.extendType middle = .ok b
      ∧ ∀ x, builder (before ++ .extend x :: after)
          = (middle.extendType x >>= after.extensions.foldlM Builder.extendType) := by
  rw [builder, extensions_append] at done
  obtain ⟨first, declaring, done⟩ := bind_eq_ok.1 done
  obtain ⟨second, filling, done⟩ := bind_eq_ok.1 done
  rw [List.foldlM_append] at done
  obtain ⟨middle, extending, done⟩ := bind_eq_ok.1 done
  have loaded := Builder.loaded_extend
    (Builder.loaded_fill (Builder.declared_types declaring).loaded filling) extending
  rw [List.nil_append, ← List.flatMap_append] at loaded
  refine ⟨middle, fun n => loaded.known_iff, done, ?_⟩
  intro x
  rw [builder, types_insert, extensions_insert]
  simp only [declaring, filling, List.foldlM_append, List.foldlM_cons, extending, Except.bind, bind]

/-- **A SCALAR EXTENSION ONLY HAS TO FIND ITS TARGET**: put anywhere between the definitions of a
    document that defines a schema, it leaves the schema as it is if its target is declared, or is
    a built-in scalar that a definition or an extension in front refers to.  Otherwise its target
    is unknown, and that is the error, be it a built-in scalar or not. -/
theorem graph_insert (done : graph (before ++ after) = .ok g) (n : String) :
    (before.KnownBetween after n → graph (before ++ .extend (.scalar n) :: after) = .ok g)
      ∧ (¬ before.KnownBetween after n →
          graph (before ++ .extend (.scalar n) :: after) = .error (.unknownType n)) := by
  rw [graph] at done
  obtain ⟨b, building, done⟩ := bind_eq_ok.1 done
  obtain ⟨middle, known_iff, extending, inserted⟩ := builder_between building
  rw [graph, inserted, queryName_insert, known_iff]
  constructor
  · rintro ⟨id, found⟩
    rw [Builder.extendType_scalar_of_found found]
    show (List.foldlM Builder.extendType middle after.extensions >>= _) = _
    rw [extending]
    exact done
  · intro unknown
    have free : middle.lookup n = none := by
      rwa [← Option.not_isSome_iff_eq_none, Option.isSome_iff_exists]
    rw [Builder.extendType_scalar_of_free free]
    rfl

/-- A built-in scalar that is extended before a field refers to it. -/
def hastyText : String :=
  "type Query \x7b a: Int \x7d\nextend scalar String @short\nextend type Query \x7b b: String \x7d"

/-- What stands in `hastyText` in front of the scalar extension. -/
def hastyFront : Document := [.type (.object "Query" [⟨"a", .named "Int"⟩])]

/-- What stands in `hastyText` behind the scalar extension. -/
def hastyRest : Document := [.extend (.object "Query" [⟨"b", .named "String"⟩])]

/-- Behind what follows it the extension is welcome, and where it stands it is refused. -/
theorem hasty_inserted : ∃ g, graph (hastyFront ++ hastyRest) = .ok g
    ∧ graph (hastyFront ++ .extend (.scalar "Int") :: hastyRest) = .ok g
    ∧ graph (hastyFront ++ hastyRest ++ [.extend (.scalar "String")]) = .ok g
    ∧ graph (hastyFront ++ .extend (.scalar "String") :: hastyRest)
        = .error (.unknownType "String") := by
  obtain ⟨g, done⟩ : ∃ g, graph (hastyFront ++ hastyRest) = .ok g := exists_ok (by decide +kernel)
  have done' : graph (hastyFront ++ hastyRest ++ []) = .ok g := by rwa [List.append_nil]
  exact ⟨g, done, (graph_insert done "Int").1 (by decide),
    (graph_insert done' "String").1 (by decide), (graph_insert done "String").2 (by decide)⟩

/-- A built-in scalar that no definition takes the name of is unknown to its extension. -/
theorem hasty_refused :
    Document.ofString hastyText = .ok (hastyFront ++ .extend (.scalar "String") :: hastyRest)
      ∧ "String" ∈ ScalarKind.builtinNames
      ∧ (∀ t ∈ types (hastyFront ++ hastyRest), t.name ≠ "String")
      ∧ (∃ g, graph (hastyFront ++ hastyRest) = .ok g)
      ∧ graph (hastyFront ++ .extend (.scalar "String") :: hastyRest)
          = .error (.unknownType "String") :=
  ⟨by decide +kernel, by decide, by decide, exists_ok (by decide +kernel), by decide +kernel⟩

end Sdl.Document

end Protograph
