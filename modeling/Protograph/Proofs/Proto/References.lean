import Protograph.Proofs.Proto.Blocks
import Protograph.Proofs.Sdl.Definitions

/-! # References — every name in a document is defined there, and once

    Two parts of the translation have to agree: the walk decides which types
    have blocks, and the blocks refer to types by name.  They do, for a field
    of an emitted object leads to a type that is reachable, so that it is in
    the emission list if it can have a block at all; and the list repeats
    nothing.  That blocks have distinct names rests on the schema alone, whose
    names are unique. -/

namespace Protograph.Graph

variable {g : Graph} {ids : List TypeId} {blocks : List Block} {target : TypeId}

/-- What a reference to `target` is, in a document of these ids and blocks: the
    primitive of a scalar, or the name of the one block that stands for it. -/
inductive Refers (g : Graph) (ids : List TypeId) (blocks : List Block) (target : TypeId) :
    String → Prop where
  | primitive {kind : ScalarKind} {p : Primitive} (there : g.get? target = some (.scalar kind))
      (mapped : kind.primitive? = some p) : Refers g ids blocks target p.name
  | message {j : Nat} {o : ObjectType} {lines : List MessageField}
      (there : g.get? target = some (.object o)) (once : ids.count target = 1)
      (place : ids[j]? = some target) (block : blocks[j]? = some (.message o.name lines)) :
      Refers g ids blocks target o.name
  | enumWrapper {j : Nat} {e : EnumType} {values : List String}
      (there : g.get? target = some (.enum e)) (once : ids.count target = 1)
      (place : ids[j]? = some target) (block : blocks[j]? = some (.enumWrapper e.name values)) :
      Refers g ids blocks target (e.name ++ ".Enum")

theorem BlockOf.name_eq {id : TypeId} {block : Block} (h : g.BlockOf id block) :
    block.name = nameIn g.types id := by
  cases h with
  | message there fields => exact (nameIn_of_get there).symm
  | enumWrapper there => exact (nameIn_of_get there).symm

/-- Blocks have the names of their types. -/
theorem names_blocksOf (h : List.Forall₂ g.BlockOf ids blocks) :
    blocks.map Block.name = ids.map (nameIn g.types) := by
  induction h with
  | nil => rfl
  | cons first rest ih => rw [List.map_cons, List.map_cons, first.name_eq, ih]

theorem nodup_names_blocksOf (built : g.Built) (emission : g.Emission ids)
    (h : List.Forall₂ g.BlockOf ids blocks) : (blocks.map Block.name).Nodup := by
  rw [names_blocksOf h]
  refine emission.nodup.map_on ?_
  have valid : ∀ id ∈ ids, ∃ node, g.get? id = some node := by
    intro id inside
    rcases ((emission.mem_iff id).1 inside).2 with ⟨o, there⟩ | ⟨e, there⟩
    · exact ⟨_, there⟩
    · exact ⟨_, there⟩
  intro x hx y hy same
  obtain ⟨node, there⟩ := valid x hx
  obtain ⟨other, there'⟩ := valid y hy
  rw [nameIn_of_get there, nameIn_of_get there'] at same
  exact built.coherent.eq_of_name there there' same

/-- What a field of an emitted object refers to has its place in the list, unless
    it is a scalar. -/
theorem refers_of_denotes (emission : g.Emission ids) (h : List.Forall₂ g.BlockOf ids blocks)
    {owner : TypeId} {base : BaseType} (emitted : owner ∈ ids) (edge : g.Edge owner target)
    (denotes : g.Denotes target base) : g.Refers ids blocks target base.token := by
  have placed : g.HasBlock target → ids.count target = 1 ∧ ∃ j : Nat, ids[j]? = some target := by
    intro block
    obtain ⟨n, path⟩ := ((emission.mem_iff owner).1 emitted).1
    have inside : target ∈ ids := (emission.mem_iff target).2 ⟨⟨n + 1, .step path edge⟩, block⟩
    exact ⟨List.count_eq_one_of_mem emission.nodup inside, List.mem_iff_getElem?.1 inside⟩
  cases denotes with
  | primitive there mapped => exact .primitive there mapped
  | @message o there =>
      obtain ⟨once, j, place⟩ := placed (Or.inl ⟨o, there⟩)
      obtain ⟨block, at_j, stands⟩ := forall₂_getElem? h place
      cases stands with
      | message there' fields =>
          rw [there] at there'
          cases there'
          exact .message there once place at_j
      | enumWrapper there' =>
          rw [there] at there'
          cases there'
  | @enum e there =>
      obtain ⟨once, j, place⟩ := placed (Or.inr ⟨e, there⟩)
      obtain ⟨block, at_j, stands⟩ := forall₂_getElem? h place
      cases stands with
      | message there' fields =>
          rw [there] at there'
          cases there'
      | enumWrapper there' =>
          rw [there] at there'
          cases there'
          exact .enumWrapper there once place at_j

/-- **DOCUMENTS ARE CLOSED**: the blocks of a document have distinct names, and
    every field of an emitted object stands in the object's block and refers
    to a primitive or to the one block of its target. -/
theorem document_closed (built : g.Built) {o : Options} {text : String}
    (done : (g.translate o).result = .ok text) :
    ∃ ids blocks, g.emissionList = .ok ids ∧ (g.blocks ids).result = .ok blocks
      ∧ text = o.document blocks ∧ (blocks.map Block.name).Nodup
      ∧ ∀ (i k : Nat) (id : TypeId) (owner : ObjectType) (field : Field TypeId),
          ids[i]? = some id → g.get? id = some (.object owner) → owner.fields[k]? = some field →
          ∃ lines line, blocks[i]? = some (.message owner.name lines) ∧ lines[k]? = some line
            ∧ g.Refers ids blocks field.type.target line.base.token := by
  obtain ⟨ids, blocks, walked, emission, made, written⟩ := emission_of_translate built done
  have stand := blocksOf_of_blocks made
  refine ⟨ids, blocks, walked, made, written, nodup_names_blocksOf built emission stand, ?_⟩
  intro i k id owner field at_i there at_k
  obtain ⟨block, at_block, stands⟩ := forall₂_getElem? stand at_i
  cases stands with
  | @message o lines there' fields =>
      rw [there] at there'
      cases there'
      obtain ⟨line, at_line, fieldOf⟩ := forall₂_getElem? fields at_k
      have edge : g.Edge id field.type.target :=
        ⟨owner, there, field, List.mem_of_getElem? at_k, rfl⟩
      refine ⟨lines, line, at_block, at_line, ?_⟩
      exact refers_of_denotes emission stand (List.mem_of_getElem? at_i) edge fieldOf.base
  | enumWrapper there' =>
      rw [there] at there'
      cases there'

/-- The field `option` of `message` refers to the enum of that name, which stands two blocks on. -/
theorem awkward_closed : awkward.Built ∧ ∃ text blocks,
    (awkward.translate {}).result = .ok text
      ∧ (awkward.blocks [0, 1, 2, 3, 4]).result = .ok blocks
      ∧ text = Options.document {} blocks ∧ (blocks.map Block.name).Nodup
      ∧ ∃ lines line values, blocks[0]? = some (.message "message" lines) ∧ lines[1]? = some line
        ∧ line.base.token = "option.Enum" ∧ blocks[2]? = some (.enumWrapper "option" values) := by
  obtain ⟨text, done⟩ := awkward_translates
  obtain ⟨ids, blocks, walked, made, written, nodup, refer⟩ := document_closed awkward_built done
  have list : awkward.emissionList = .ok [0, 1, 2, 3, 4] := by decide +kernel
  rw [list] at walked
  cases walked
  have root : awkward.get? 0 = some (.object ⟨"message",
      [⟨"repeated", .list (.nonNull (.named 1))⟩, ⟨"option", .named 2⟩]⟩) := by decide +kernel
  have target : awkward.get? 2 = some (.enum ⟨"option", ["enum", "message"]⟩) := by decide +kernel
  obtain ⟨lines, line, block, at_line, refers⟩ := refer 0 1 0 _ ⟨"option", .named 2⟩ rfl root rfl
  refine ⟨awkward_built, text, blocks, done, made, written, nodup, lines, line, ?_⟩
  have refers : awkward.Refers [0, 1, 2, 3, 4] blocks 2 line.base.token := refers
  generalize line.base.token = token at refers ⊢
  cases refers with
  | primitive there =>
      rw [target] at there
      cases there
  | message there =>
      rw [target] at there
      cases there
  | enumWrapper there once place wrapper =>
      rw [target] at there
      cases there
      have second : [0, 1, 2, 3, 4][2]? = some 2 := rfl
      obtain rfl := (List.getElem?_inj (by decide) (by decide)).1 (second.trans place.symm)
      exact ⟨_, block, at_line, rfl, wrapper⟩

end Protograph.Graph
