import Protograph.Proofs.Proto.Discovery
import Protograph.Proofs.Proto.Namesakes
import Protograph.Proofs.Schema.Ledger

/-! # The named part — what a document depends on

    A document is written from names, and from no more of the schema than the
    root reaches.  Two finished schemas that agree there by name have one
    emission list, by names, and one document, whatever their ids are and
    whatever else they hold.

    A special case needs no comparison by names: a history may go on with any
    calls that leave the types alone that the root reaches
    (`Graph.mirroredIn_of_apart`).  The ledger has it that those types stay as
    they are, and no type ever changes its name. -/

namespace Protograph

variable {history more : List Call} {root : TypeId} {g g' : Graph}

namespace Builder

/-- No call, granted or not, changes the name of a type. -/
theorem nameIn_run_append {id : TypeId} (history more : List Call)
    (below : id < (run {} history).types.size) :
    nameIn (run {} (history ++ more)).types id = nameIn (run {} history).types id := by
  have there := Array.getElem?_eq_getElem below
  rw [nameIn_of_get there, nameIn_of_get (types_run_append history more there)]
  exact TypeNode.name_grow _ _ _

/-- A builder that can be finished with a root still can be after more calls. -/
theorem build_run_append (more : List Call) (done : (run {} history).build root = .ok g) :
    ∃ g', (run {} (history ++ more)).build root = .ok g' := by
  obtain ⟨-, o, there⟩ := build_ok done
  have grown := types_run_append history more there
  rw [build, grown]
  exact ⟨_, rfl⟩

end Builder

namespace Graph

/-- Calls that add to no type that the root reaches leave that part as it is. -/
theorem mirroredIn_of_apart (done : (Builder.run {} history).build root = .ok g)
    (done' : (Builder.run {} (history ++ more)).build root = .ok g')
    (apart : ∀ c ∈ (Builder.run {} history).granted more, ∀ owner, c.owner? = some owner →
      ¬ g.Reachable owner) :
    g.MirroredIn g' := by
  have built : g.Built := ⟨history, root, done⟩
  obtain ⟨rfl, -⟩ := Builder.build_ok done
  obtain ⟨rfl, -⟩ := Builder.build_ok done'
  intro id x reached there
  have others : ∀ c ∈ (Builder.run {} history).granted more, c.owner? ≠ some id :=
    fun c inside adds => apart c inside id adds reached
  refine ⟨id, x, Builder.types_run_append_of_apart history more others there, .refl ?_⟩
  intro target refers
  exact (Builder.nameIn_run_append history more (built.coherent.closed there target refers)).symm

/-- **ONLY THE NAMED PART COUNTS**: when every type that the root of one finished schema reaches
    has a twin in another, and the roots have one name, the same names are emitted in the same
    order and every translation is the same, its error and its reports included.  So calls that
    add to no type that the root reaches make no difference, whatever they declare and fill. -/
theorem translate_named_part :
    (∀ g g' : Graph, g.Built → g'.Built → g.rootName = g'.rootName → g.MirroredIn g' →
      g.emissionList.map g.namesOf = g'.emissionList.map g'.namesOf ∧
      ∀ o, g.translate o = g'.translate o) ∧
    ∀ (history more : List Call) (root : TypeId) (g : Graph),
      (Builder.run {} history).build root = .ok g →
      (∀ c ∈ (Builder.run {} history).granted more, ∀ owner, c.owner? = some owner →
        ¬ g.Reachable owner) →
      ∃ g', (Builder.run {} (history ++ more)).build root = .ok g' ∧
        g.emissionList.map g.namesOf = g'.emissionList.map g'.namesOf ∧
        ∀ o, g.translate o = g'.translate o := by
  have named : ∀ g g' : Graph, g.Built → g'.Built → g.rootName = g'.rootName → g.MirroredIn g' →
      g.emissionList.map g.namesOf = g'.emissionList.map g'.namesOf ∧
      ∀ o, g.translate o = g'.translate o := by
    intro g g' built built' names mirrored
    have like := like_of_mirrored built built' (namesakes_of_rootName built built' names) mirrored
    exact ⟨like.emittedNames_eq, like.translate⟩
  refine ⟨named, ?_⟩
  intro history more root g done apart
  obtain ⟨g', done'⟩ := Builder.build_run_append more done
  have mirrored := mirroredIn_of_apart done done' apart
  have names : g.rootName = g'.rootName := by
    obtain ⟨rfl, o, there⟩ := Builder.build_ok done
    obtain ⟨rfl, -⟩ := Builder.build_ok done'
    have grown := Builder.types_run_append history more there
    rw [rootName, rootName, get?, get?, there, grown]
    exact (TypeNode.name_grow _ _ _).symm
  exact ⟨g', done', named g g' ⟨history, root, done⟩ ⟨_, root, done'⟩ names mirrored⟩

end Graph

/-- Calls for the types that the root of `bookshop` reaches, in another order and with other ids,
    beside a union and a type that can not be written. -/
def annexCalls : List Call :=
  [ .union "Anything", .object "Author", .interface "Place", .enumeration "Genre" ["NOVEL"],
    .object "Book", .object "Query", .object "Cellar",
    .field 6 "shelves" (.list (.list (.named 0))), .value 3 "ESSAY",
    .field 1 "genre" (.named 3), .field 1 "home" (.named 2), .field 1 "start" (.named 5),
    .field 4 "author" (.named 1), .field 4 "copies" (.list (.nonNull (.named 4))),
    .field 5 "book" (.nonNull (.named 4)), .field 5 "genre" (.named 3) ]

/-- The schema of `annexCalls`, with `Query` as its root. -/
def annex : Graph :=
  ⟨(Builder.run {} annexCalls).types, (Builder.run {} annexCalls).names, 5⟩

/-- More calls for `bookshop`: a type that can not be written, dust for the attic that is out of
    reach, and a field for `Query` that is refused. -/
def cellarCalls : List Call :=
  [ .object "Cellar", .field 7 "shelves" (.list (.list (.named 5))),
    .field 4 "dust" (.named 7), .field 0 "lost" (.named 9) ]

theorem reachable_bookshop {id : TypeId} (reached : bookshop.Reachable id) :
    id ∈ [0, 1, 2, 3, 5] :=
  Graph.mem_of_reachable (by decide +kernel) (by decide +kernel) reached

theorem bookshop_mirroredIn_annex : bookshop.MirroredIn annex := by
  have written : ∀ id ∈ [0, 1, 2, 3, 5], (bookshop.get? id).map TypeNode.variant ≠ some "scalar" ∧
      ∃ id' ∈ [1, 2, 3, 4, 5],
        (annex.get? id').map (Sdl.TypeDefinition.ofNode (nameIn annex.types))
          = (bookshop.get? id).map (Sdl.TypeDefinition.ofNode (nameIn bookshop.types)) := by
    decide +kernel
  intro id x reached there
  obtain ⟨sort, id', -, same⟩ := written id (reachable_bookshop reached)
  rw [there] at sort same
  obtain ⟨x', there', defined⟩ := Option.map_eq_some_iff.1 same
  refine ⟨id', x', there', TypeNode.twin_of_definition defined.symm ?_⟩
  rintro kind kind' rfl
  exact absurd rfl sort

theorem bookshop_named_part :
    bookshop.types ≠ annex.types ∧
    bookshop.emissionList.map bookshop.namesOf = annex.emissionList.map annex.namesOf ∧
    (∀ o, bookshop.translate o = annex.translate o) ∧
    ∃ g', (Builder.run {} (bookshopCalls ++ cellarCalls)).build 0 = .ok g' ∧
      bookshop.emissionList.map bookshop.namesOf = g'.emissionList.map g'.namesOf ∧
      ∀ o, bookshop.translate o = g'.translate o := by
  have apart : ∀ c ∈ (Builder.run {} bookshopCalls).granted cellarCalls, ∀ owner,
      c.owner? = some owner → ¬ bookshop.Reachable owner := by
    have outside : ∀ c ∈ (Builder.run {} bookshopCalls).granted cellarCalls,
        c.owner? ∉ [some 0, some 1, some 2, some 3, some 5] := by decide +kernel
    intro c inside owner adds reached
    refine outside c inside ?_
    rw [adds]
    exact List.mem_map_of_mem (f := some) (reachable_bookshop reached)
  have annex_built : annex.Built := ⟨annexCalls, 5, rfl⟩
  obtain ⟨names, documents⟩ := Graph.translate_named_part.1 bookshop annex bookshop_built
    annex_built (by decide +kernel) bookshop_mirroredIn_annex
  exact ⟨by decide +kernel, names, documents,
    Graph.translate_named_part.2 bookshopCalls cellarCalls 0 bookshop rfl apart⟩

end Protograph
