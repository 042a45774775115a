import Protograph.Proofs.Proto.Beginnings
import Protograph.Proofs.Sdl.Reordering

/-! # Growth — definitions behind a document renumber nothing

    What follows a document changes ids: new types come in front of the
    built-in scalars that are only referred to, and some of these may be
    declared now.  By name nothing changes but what extensions add, and they
    add behind what is there.  So each definition of the graph is, with the
    new extensions merged, a definition of the grown graph
    (`Document.Further.definitions`), the one begins the other, and every
    block written so far stays as it was up to its end.

    Two things have to be left alone: which type is the root, and that a
    built-in name stands for a scalar. -/

namespace Protograph

namespace Sdl.Document

variable {d more : Document} {g g' : Graph}

theorem types_append (d more : Document) : types (d ++ more) = d.types ++ more.types :=
  List.filterMap_append

theorem extensions_append (d more : Document) :
    extensions (d ++ more) = d.extensions ++ more.extensions :=
  List.filterMap_append

/-- Definitions that may follow: no schema definition, and under a built-in name nothing but
    a scalar. -/
structure Further (more : Document) : Prop where
  schemas : ∀ t ∈ more, t.isSchema = false
  builtins : ∀ t ∈ more.types, t.name ∈ ScalarKind.builtinNames → t.variant = "scalar"

namespace Further

variable (h : more.Further)

include h

theorem queryName : queryName (d ++ more) = d.queryName := by
  have silent : more.filter (·.isSchema) = [] := by
    refine List.filter_eq_nil_iff.2 fun t inside => ?_
    rw [h.schemas t inside]
    exact Bool.false_ne_true
  rw [Document.queryName, Document.queryName, ← queries_filter, List.filter_append, silent,
    List.append_nil, queries_filter]

/-- A built-in scalar that is only referred to is still one, or is declared now. -/
theorem implicit {n : String} (implied : n ∈ d.implicit) :
    TypeDefinition.scalar n ∈ more.types ∨ n ∈ Document.implicit (d ++ more) := by
  obtain ⟨refers, builtin, undeclared⟩ := mem_implied.1 implied
  by_cases declared : n ∈ more.types.map TypeDefinition.name
  · obtain ⟨t, inside, rfl⟩ := List.mem_map.1 declared
    refine Or.inl ?_
    rw [← TypeDefinition.eq_scalar_of_variant (h.builtins t inside builtin)]
    exact inside
  · refine Or.inr (mem_implied.2 ⟨?_, builtin, ?_⟩)
    · simp only [types_append, extensions_append, List.flatMap_append, List.mem_append] at refers ⊢
      exact refers.imp Or.inl Or.inl
    · rw [types_append, List.map_append, List.mem_append, not_or]
      exact ⟨undeclared, declared⟩

/-- The definitions of a graph, with the new extensions merged, are definitions of the
    grown graph. -/
theorem definitions (done : d.graph = .ok g) (done' : graph (d ++ more) = .ok g')
    {t : TypeDefinition} (inside : t ∈ g.definitions) : t.merge more.extensions ∈ g'.definitions := by
  obtain ⟨-, -, definitions, -⟩ := graph_loaded done
  obtain ⟨-, -, definitions', -⟩ := graph_loaded done'
  rw [definitions] at inside
  rw [definitions', types_append, extensions_append]
  -- what is declared somewhere is there with all extensions merged
  have declared : ∀ u ∈ d.types ++ more.types, u.merge (d.extensions ++ more.extensions)
      ∈ (d.types ++ more.types).eraseDups.map
        (TypeDefinition.merge (d.extensions ++ more.extensions)) :=
    fun u member => List.mem_map_of_mem (List.mem_eraseDups.2 member)
  rcases List.mem_append.1 inside with own | builtin
  · obtain ⟨u, member, rfl⟩ := List.mem_map.1 own
    rw [← TypeDefinition.merge_append]
    exact List.mem_append_left _
      (declared u (List.mem_append_left _ (List.mem_eraseDups.1 member)))
  · obtain ⟨n, implied, rfl⟩ := List.mem_map.1 builtin
    rcases h.implicit implied with member | implied'
    · exact List.mem_append_left _ (declared (.scalar n) (List.mem_append_right _ member))
    · exact List.mem_append_right _ (List.mem_map_of_mem implied')

theorem begins (done : d.graph = .ok g) (done' : graph (d ++ more) = .ok g') :
    g.Begins (g.Namesakes g') g' := by
  obtain ⟨built, canonical, -, named⟩ := graph_loaded done
  obtain ⟨built', canonical', -, named'⟩ := graph_loaded done'
  refine Graph.begins_of_definitions built built' canonical canonical' ?_ fun t inside =>
    h.definitions done done' inside
  obtain ⟨x, there, called⟩ := (built.coherent.indexed _ _).1 named
  obtain ⟨x', there', called'⟩ := (built'.coherent.indexed _ _).1 named'
  exact ⟨x, x', there, there', by rw [called, called', h.queryName]⟩

end Further

/-- **GROWING RENUMBERS NOTHING**: if a document still defines a schema that can be written after
    types and extensions are added to it, its schema could be written before.  Every type that was
    emitted is emitted still, its block begins with what it had, and all of the block's text but
    its closing stands in front of what is added. -/
theorem graph_append (further : more.Further) (done : d.graph = .ok g)
    (done' : graph (d ++ more) = .ok g') {o : Options} {text' : String}
    (written' : (g'.translate o).result = .ok text') :
    ∃ text ids blocks ids' blocks', (g.translate o).result = .ok text
      ∧ g.emissionList = .ok ids ∧ (g.blocks ids).result = .ok blocks
      ∧ text = o.document blocks
      ∧ g'.emissionList = .ok ids' ∧ (g'.blocks ids').result = .ok blocks'
      ∧ text' = o.document blocks'
      ∧ ∀ (k : Nat) (id : TypeId), ids[k]? = some id →
          ∃ (k' : Nat) (id' : TypeId) (block block' : Block), ids'[k']? = some id'
            ∧ g.Namesakes g' id id' ∧ blocks[k]? = some block ∧ blocks'[k']? = some block'
            ∧ block.Begins block'
            ∧ ∃ stem added, block.render o.messageIdPrefix = stem ++ block.closing
              ∧ block'.render o.messageIdPrefix = stem ++ added ++ block'.closing := by
  obtain ⟨built, -⟩ := graph_loaded done
  obtain ⟨built', -⟩ := graph_loaded done'
  obtain ⟨text, ids, blocks, ids', blocks', written, walked, made, whole, walked', made', whole',
    kept⟩ := (further.begins done done').translate built built' written'
  refine ⟨text, ids, blocks, ids', blocks', written, walked, made, whole, walked', made', whole', ?_⟩
  intro k id emitted
  obtain ⟨k', id', block, block', emitted', named, place, place', begins⟩ := kept k id emitted
  exact ⟨k', id', block, block', emitted', named, place, place', begins, begins.render _⟩

/-- A small document. -/
def shelf : Document :=
  [ .type (.object "Query" [⟨"books", .list (.named "Book")⟩]),
    .type (.object "Book" [⟨"title", .named "String"⟩, ⟨"genre", .named "Genre"⟩]),
    .type (.enum "Genre" ["POEM"]) ]

/-- What follows `shelf`: a type that comes to stand between the others, the built-in scalar
    that has been there undeclared, and something more for every type. -/
def shelfMore : Document :=
  [ .type (.object "Author" [⟨"name", .named "String"⟩, ⟨"age", .named "Int"⟩]),
    .extend (.enum "Genre" ["ESSAY"]),
    .extend (.object "Query" [⟨"authors", .list (.named "Author")⟩]),
    .type (.scalar "String"),
    .extend (.object "Book" [⟨"author", .named "Author"⟩]) ]

/-- The graph of `shelf`. -/
def shelfGraph : Graph :=
  ⟨#[.object ⟨"Query", [⟨"books", .list (.named 1)⟩]⟩,
      .object ⟨"Book", [⟨"title", .named 3⟩, ⟨"genre", .named 2⟩]⟩,
      .enum ⟨"Genre", ["POEM"]⟩, .scalar .string],
    [("String", 3), ("Genre", 2), ("Book", 1), ("Query", 0)], 0⟩

/-- The graph of `shelf` and what follows it. -/
def fullShelfGraph : Graph :=
  ⟨#[.object ⟨"Query", [⟨"books", .list (.named 1)⟩, ⟨"authors", .list (.named 3)⟩]⟩,
      .object ⟨"Book", [⟨"title", .named 4⟩, ⟨"genre", .named 2⟩, ⟨"author", .named 3⟩]⟩,
      .enum ⟨"Genre", ["POEM", "ESSAY"]⟩,
      .object ⟨"Author", [⟨"name", .named 4⟩, ⟨"age", .named 5⟩]⟩,
      .scalar .string, .scalar .int],
    [("Int", 5), ("String", 4), ("Author", 3), ("Genre", 2), ("Book", 1), ("Query", 0)], 0⟩

theorem shelf_grown : shelfMore.Further ∧ shelf.graph = .ok shelfGraph
    ∧ graph (shelf ++ shelfMore) = .ok fullShelfGraph
    ∧ ∃ text text' blocks blocks', (shelfGraph.translate {}).result = .ok text
      ∧ text = Options.document {} blocks
      ∧ (fullShelfGraph.translate {}).result = .ok text' ∧ text' = Options.document {} blocks'
      ∧ ∀ (k : Nat) (id : TypeId), [0, 1, 2][k]? = some id →
          ∃ (k' : Nat) (id' : TypeId) (block block' : Block), [0, 1, 3, 2][k']? = some id'
            ∧ shelfGraph.Namesakes fullShelfGraph id id'
            ∧ blocks[k]? = some block ∧ blocks'[k']? = some block' ∧ block.Begins block' := by
  have further : shelfMore.Further := ⟨by decide, by decide⟩
  have done : shelf.graph = .ok shelfGraph := by decide +kernel
  have done' : graph (shelf ++ shelfMore) = .ok fullShelfGraph := by decide +kernel
  have order : shelfGraph.emissionList = .ok [0, 1, 2] := by decide +kernel
  have order' : fullShelfGraph.emissionList = .ok [0, 1, 3, 2] := by decide +kernel
  obtain ⟨text', written'⟩ : ∃ text', (fullShelfGraph.translate {}).result = .ok text' :=
    exists_ok (by decide +kernel)
  obtain ⟨text, ids, blocks, ids', blocks', written, walked, -, whole, walked', -, whole', kept⟩ :=
    graph_append further done done' written'
  rw [order] at walked
  rw [order'] at walked'
  cases walked
  cases walked'
  refine ⟨further, done, done', text, text', blocks, blocks', written, whole, written', whole', ?_⟩
  intro k id emitted
  obtain ⟨k', id', block, block', emitted', named, place, place', begins, -⟩ := kept k id emitted
  exact ⟨k', id', block, block', emitted', named, place, place', begins⟩

end Sdl.Document

end Protograph
