import Protograph.Proofs.Proto.Namesakes
import Protograph.Proofs.Sdl.Acceptance

/-! # Reordering — the order of type definitions does not matter

    Moving type definitions about changes every id, and with them the places
    of the built-in scalars that nobody declares.  It does not change which
    definitions there are, so a reordered document is sound when the document
    is, and the two graphs have the same definitions in some order
    (`Document.Reorders.mem_definitions_iff`).

    Such graphs are alike (`Document.Reorders.like`), and like graphs have one
    emission list, by names, and one document. -/

namespace Protograph

namespace Sdl

def Definition.isSchema : Definition → Bool
  | .schema _ => true
  | _ => false

namespace Document

variable {d d' : Document} {g g' : Graph}

/-- The same definitions in another order, except that schema definitions keep
    their order among themselves, and extensions theirs. -/
structure Reorders (d d' : Document) : Prop where
  perm : d.Perm d'
  schemas : d.filter (·.isSchema) = d'.filter (·.isSchema)
  extensions : d.extensions = d'.extensions

theorem Reorders.symm (h : d.Reorders d') : d'.Reorders d :=
  ⟨h.perm.symm, h.schemas.symm, h.extensions.symm⟩

theorem Reorders.types (h : d.Reorders d') : d.types.Perm d'.types := h.perm.filterMap _

/-- Only schema definitions name query types. -/
theorem queries_filter (d : Document) : queries (d.filter (·.isSchema)) = d.queries := by
  rw [queries, queries, List.filterMap_filter]
  congr 1
  funext t
  cases t <;> rfl

theorem Reorders.queryName (h : d.Reorders d') : d.queryName = d'.queryName := by
  rw [Document.queryName, Document.queryName, ← queries_filter d, h.schemas, queries_filter]

theorem Reorders.mem_implicit_iff (h : d.Reorders d') (n : String) :
    n ∈ d.implicit ↔ n ∈ d'.implicit := by
  have names : n ∈ d.types.map TypeDefinition.name ↔ n ∈ d'.types.map TypeDefinition.name :=
    (h.types.map _).mem_iff
  have referred : n ∈ (d.types ++ d.extensions).flatMap (·.references)
      ↔ n ∈ (d'.types ++ d'.extensions).flatMap (·.references) := by
    rw [h.extensions]
    exact ((h.types.append_right _).flatMap_right _).mem_iff
  rw [implicit, implicit, mem_implied, mem_implied, names, referred]

/-- A reordered document is sound when the document is. -/
theorem Reorders.sound (h : d.Reorders d') (sound : d.Sound) : d'.Sound := by
  have names : ∀ n, n ∈ d.types.map TypeDefinition.name ↔ n ∈ d'.types.map TypeDefinition.name :=
    fun n => (h.types.map _).mem_iff
  have defines : ∀ variant n, Defines d.types variant n → Defines d'.types variant n := by
    rintro variant n ⟨t, inside, sort, named⟩
    exact ⟨t, h.types.mem_iff.1 inside, sort, named⟩
  exact
    { distinct := by
        refine (h.types.pairwise_iff ?_).1 sound.distinct
        intro t u scalars same
        obtain ⟨n, left, right⟩ := scalars same.symm
        exact ⟨n, right, left⟩
      resolvable := by
        intro t inside n refers
        rw [← h.extensions, ← (h.types.append_right _).mem_iff] at inside
        exact (sound.resolvable t inside n refers).imp_left (names n).1
      known := by
        intro before x after split
        rw [← h.extensions] at split
        refine (sound.known before x after split).imp (names _).1 (And.imp_right ?_)
        exact ((h.types.append_right _).flatMap_right _).mem_iff.1
      objects := by
        intro n fields inside nonempty
        rw [← h.extensions] at inside
        exact defines _ _ (sound.objects n fields inside nonempty)
      enums := by
        intro n values inside nonempty
        rw [← h.extensions] at inside
        exact defines _ _ (sound.enums n values inside nonempty)
      root := by
        rw [← h.queryName]
        exact defines _ _ sound.root }

/-- Both graphs have the same definitions, in whatever order. -/
theorem Reorders.mem_definitions_iff (h : d.Reorders d') (done : d.graph = .ok g)
    (done' : d'.graph = .ok g') (t : TypeDefinition) : t ∈ g.definitions ↔ t ∈ g'.definitions := by
  obtain ⟨-, -, definitions, -⟩ := graph_loaded done
  obtain ⟨-, -, definitions', -⟩ := graph_loaded done'
  rw [definitions, definitions', ← h.extensions]
  simp only [List.mem_append, List.mem_map, List.mem_eraseDups, h.types.mem_iff,
    h.mem_implicit_iff]

theorem Reorders.like (h : d.Reorders d') (done : d.graph = .ok g) (done' : d'.graph = .ok g') :
    g.Like (g.Counterparts g') g' := by
  obtain ⟨built, canonical, -, named⟩ := graph_loaded done
  obtain ⟨built', canonical', -, named'⟩ := graph_loaded done'
  refine Graph.like_of_mirrored built built' ?_
    (Graph.mirrored_of_definitions canonical canonical' fun t =>
      (h.mem_definitions_iff done done' t).1)
  obtain ⟨x, there, called⟩ := (built.coherent.indexed _ _).1 named
  obtain ⟨x', there', called'⟩ := (built'.coherent.indexed _ _).1 named'
  exact ⟨x, x', there, there', by rw [called, called', h.queryName]⟩

/-- **THE ORDER OF TYPE DEFINITIONS DOES NOT MATTER**: a reordered document
    defines a schema when the document does, and then the same types are
    emitted in the same order and the documents written are the same. -/
theorem graph_reorder (h : d.Reorders d') :
    ((∃ g, d.graph = .ok g) ↔ ∃ g', d'.graph = .ok g') ∧
    ∀ g g', d.graph = .ok g → d'.graph = .ok g' →
      g.emissionList.map g.namesOf = g'.emissionList.map g'.namesOf ∧
      ∀ o, (g.translate o).result = (g'.translate o).result := by
  refine ⟨?_, ?_⟩
  · rw [(reports_graph d).ok_iff, (reports_graph d').ok_iff, faults_eq_nil_iff, faults_eq_nil_iff]
    exact ⟨h.sound, h.symm.sound⟩
  · intro g g' done done'
    have like := h.like done done'
    refine ⟨like.emittedNames_eq, ?_⟩
    intro o
    rw [like.translate o]

/-- The definitions of `catalogue` in another order. -/
def reshelved : Document :=
  [ .type (.enum "Genre" ["POEM"]),
    .extend (.object "Search" [⟨"hits", .nonNull (.named "Int")⟩]),
    .type (.object "Book" [⟨"title", .named "String"⟩, ⟨"genre", .named "Genre"⟩]),
    .extend (.enum "Genre" ["ESSAY", "NOVEL"]),
    .extend (.object "Search" [⟨"again", .named "Search"⟩]),
    .schema (some "Search"),
    .type (.object "Search" [⟨"books", .list (.nonNull (.named "Book"))⟩, ⟨"day", .named "Date"⟩]),
    .type (.scalar "Date"),
    .type (.scalar "Date") ]

theorem catalogue_reshelved : catalogue.Reorders reshelved ∧
    catalogue.graph ≠ reshelved.graph ∧
    ((∃ g, catalogue.graph = .ok g) ↔ ∃ g', reshelved.graph = .ok g') ∧
    ∀ g g', catalogue.graph = .ok g → reshelved.graph = .ok g' →
      g.emissionList.map g.namesOf = g'.emissionList.map g'.namesOf ∧
      ∀ o, (g.translate o).result = (g'.translate o).result := by
  have reorders : catalogue.Reorders reshelved :=
    ⟨by decide +kernel, by decide +kernel, by decide +kernel⟩
  exact ⟨reorders, by decide +kernel, graph_reorder reorders⟩

end Document

end Sdl

end Protograph
