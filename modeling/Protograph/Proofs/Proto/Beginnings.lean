import Protograph.Proofs.Proto.Namesakes
import Protograph.Proofs.Proto.ReadBack

/-! # Beginnings — a schema that is added to keeps what was written

    A type begins another when the other has the same fields or values in the
    same order, and perhaps more behind them (`TypeNode.Begins`).  A graph
    begins another, by a relation between their ids, when it relates the roots
    and only ids of types of which the one begins the other.  Types without a
    partner do not count, in neither graph.

    * Fields are only added, so whatever the first root reaches has a partner
      that the second root reaches (`Graph.Begins.reachable`).
    * What can be written of a type can be written of what begins it, and is
      written alike (`Graph.Begins.clean`, `Graph.Begins.blockOf`).
    * Numbers are counted from the front, so the lines of a block are the
      first lines of any block it begins (`Block.Begins.body`).

    So there is a document for the first graph if there is one for the second,
    and each block of the one stands in the other, with lines added in front
    of its closing braces at most (`Graph.Begins.translate`). -/

namespace Protograph

/-! ## Blocks -/

namespace Block

/-- Blocks of one name, of which the second has the fields or values of the first
    and perhaps more behind them. -/
inductive Begins : Block → Block → Prop where
  | message (name : String) (fields added : List MessageField) :
      Begins (.message name fields) (.message name (fields ++ added))
  | enumWrapper (name : String) (values added : List String) :
      Begins (.enumWrapper name values) (.enumWrapper name (values ++ added))

/-- The text that a block ends with. -/
def closing : Block → String
  | .message .. => "\x7d"
  | .enumWrapper .. => "\x7d\n\x7d"

/-- The lines of a block in front of its closing. -/
def body (text : String) : Block → List String
  | .message name fields =>
      [opening name, idOption text name] ++ (fields.zipIdx 1).map fun p => p.1.line p.2
  | .enumWrapper name values =>
      [opening name, " " ++ idOption text name, " enum Enum \x7b"]
        ++ values.zipIdx.map fun p => valueLine p.1 p.2

theorem render_eq (b : Block) (text : String) :
    b.render text = String.join ((b.body text).map (· ++ "\n")) ++ b.closing := by
  cases b with
  | message name fields =>
      have lines : (message name fields).lines text = (message name fields).body text ++ ["\x7d"] := rfl
      rw [render, lines, intercalate_append (List.cons_ne_nil _ _), String.intercalate_singleton]
      rfl
  | enumWrapper name values =>
      have lines : (enumWrapper name values).lines text
          = (enumWrapper name values).body text ++ ["\x7d", "\x7d"] := rfl
      rw [render, lines, intercalate_append (List.cons_ne_nil _ _)]
      rfl

variable {b b' : Block}

theorem Begins.body (h : b.Begins b') (text : String) :
    ∃ added, b'.body text = b.body text ++ added := by
  cases h with
  | message name fields added =>
      rw [Block.body, Block.body, List.zipIdx_append, List.map_append, ← List.append_assoc]
      exact ⟨_, rfl⟩
  | enumWrapper name values added =>
      rw [Block.body, Block.body, List.zipIdx_append, List.map_append, ← List.append_assoc]
      exact ⟨_, rfl⟩

/-- Written, a block is changed in front of its closing only. -/
theorem Begins.render (h : b.Begins b') (text : String) :
    ∃ stem added, b.render text = stem ++ b.closing ∧ b'.render text = stem ++ added ++ b'.closing := by
  obtain ⟨added, lines⟩ := h.body text
  refine ⟨_, String.join (added.map (· ++ "\n")), b.render_eq text, ?_⟩
  rw [b'.render_eq, lines, List.map_append, String.join_append]

end Block

/-! ## Types -/

section Begins

variable {R : TypeId → TypeId → Prop}

/-- Types of which the second has what the first has, and perhaps more behind it. -/
inductive TypeNode.Begins (R : TypeId → TypeId → Prop) : TypeNode → TypeNode → Prop where
  | scalar (kind : ScalarKind) : Begins R (.scalar kind) (.scalar kind)
  | object {name : String} {fields kept added : List (Field TypeId)}
      (rows : List.Forall₂ (Field.Like R) fields kept) :
      Begins R (.object ⟨name, fields⟩) (.object ⟨name, kept ++ added⟩)
  | enum (name : String) (values added : List String) :
      Begins R (.enum ⟨name, values⟩) (.enum ⟨name, values ++ added⟩)
  | interface (name : String) : Begins R (.interface name) (.interface name)
  | union (name : String) : Begins R (.union name) (.union name)
  | inputObject (name : String) : Begins R (.inputObject name) (.inputObject name)

theorem TypeNode.Begins.name_eq {x x' : TypeNode} (h : Begins R x x') : x.name = x'.name := by
  cases h <;> rfl

theorem names_of_rows {fields kept : List (Field TypeId)}
    (rows : List.Forall₂ (Field.Like R) fields kept) :
    fields.map (·.name) = kept.map (·.name) := by
  induction rows with
  | nil => rfl
  | cons first rest ih => rw [List.map_cons, List.map_cons, first.name, ih]

/-- What a reference to a type is written as, if a message can hold it. -/
def TypeNode.base? : TypeNode → Option BaseType
  | .scalar kind => kind.primitive?.map .primitive
  | .object o => some (.message o.name)
  | .enum e => some (.enum e.name)
  | _ => none

/-- A reference does not say what fields or values a type has. -/
theorem TypeNode.Begins.base?_eq {x x' : TypeNode} (h : Begins R x x') : x.base? = x'.base? := by
  cases h <;> rfl

theorem Graph.Denotes.base?_eq {g : Graph} {i : TypeId} {base : BaseType} {x : TypeNode}
    (denotes : g.Denotes i base) (there : g.get? i = some x) : x.base? = some base := by
  cases denotes with
  | primitive at_i mapped =>
      obtain rfl := Option.some.inj (there.symm.trans at_i)
      rw [TypeNode.base?, mapped]
      rfl
  | message at_i | enum at_i =>
      obtain rfl := Option.some.inj (there.symm.trans at_i)
      rfl

theorem Graph.holds_iff {g : Graph} {i : TypeId} {x : TypeNode} (there : g.get? i = some x) :
    g.Holds i ↔ x.base? ≠ none := by
  rw [Graph.Holds, Graph.HasBlock, there]
  cases x with
  | scalar kind => simp [TypeNode.base?, primitive?_eq_none_iff]
  | _ => simp [TypeNode.base?]

/-- Graphs of which the second has, at related ids, what the first has and perhaps more. -/
structure Graph.Begins (R : TypeId → TypeId → Prop) (g g' : Graph) : Prop where
  root : R g.root g'.root
  nodes : ∀ {i i' : TypeId}, R i i' →
    ∃ x x', g.get? i = some x ∧ g'.get? i' = some x' ∧ TypeNode.Begins R x x'

end Begins

/-! ## Graphs -/

namespace Graph

variable {R : TypeId → TypeId → Prop} {g g' : Graph} {i i' : TypeId} (h : g.Begins R g')

include h

/-- The type at a related id, if the first one is known. -/
theorem Begins.partner {x : TypeNode} (related : R i i') (there : g.get? i = some x) :
    ∃ x', g'.get? i' = some x' ∧ TypeNode.Begins R x x' := by
  obtain ⟨y, x', at_i, there', begins⟩ := h.nodes related
  rw [there] at at_i
  cases at_i
  exact ⟨x', there', begins⟩

theorem Begins.edge {target : TypeId} (related : R i i') (edge : g.Edge i target) :
    ∃ target', R target target' ∧ g'.Edge i' target' := by
  obtain ⟨o, there, field, inside, rfl⟩ := edge
  obtain ⟨x', there', begins⟩ := h.partner related there
  cases begins with
  | @object name fields kept added rows =>
      obtain ⟨k, place⟩ := List.mem_iff_getElem?.1 inside
      obtain ⟨field', place', like⟩ := forall₂_getElem? rows place
      refine ⟨_, like.target, _, there', field', ?_, rfl⟩
      exact List.mem_append_left _ (List.mem_of_getElem? place')

theorem Begins.reachable (reached : g.Reachable i) : ∃ i', R i i' ∧ g'.Reachable i' := by
  obtain ⟨n, path⟩ := reached
  induction path with
  | root => exact ⟨g'.root, h.root, 0, .root⟩
  | step path edge ih =>
      obtain ⟨owner', related, reached'⟩ := ih
      obtain ⟨target', related', edge'⟩ := h.edge related edge
      exact ⟨target', related', reached'.step edge'⟩

theorem Begins.hasBlock (related : R i i') (block : g.HasBlock i) : g'.HasBlock i' := by
  rcases block with ⟨o, there⟩ | ⟨e, there⟩
  · obtain ⟨x', there', begins⟩ := h.partner related there
    cases begins
    exact Or.inl ⟨_, there'⟩
  · obtain ⟨x', there', begins⟩ := h.partner related there
    cases begins
    exact Or.inr ⟨_, there'⟩

theorem Begins.rootName_eq : g.rootName = g'.rootName := by
  obtain ⟨x, x', there, there', begins⟩ := h.nodes h.root
  rw [rootName_of_get there, rootName_of_get there']
  exact begins.name_eq

/-! ## What can be written of a type -/

theorem Begins.holds_iff (related : R i i') : g.Holds i ↔ g'.Holds i' := by
  obtain ⟨x, x', there, there', begins⟩ := h.nodes related
  rw [Graph.holds_iff there, Graph.holds_iff there', begins.base?_eq]

/-- What begins a type that can be written can be written. -/
theorem Begins.clean (related : R i i') (clean : g'.Clean i') : g.Clean i where
  names := by
    intro o there
    obtain ⟨x', there', begins⟩ := h.partner related there
    cases begins with
    | object rows =>
        have names := clean.names there'
        rw [List.map_append, ← names_of_rows rows] at names
        exact names.of_append_left
  fields := by
    intro o field there inside
    obtain ⟨x', there', begins⟩ := h.partner related there
    cases begins with
    | object rows =>
        obtain ⟨k, place⟩ := List.mem_iff_getElem?.1 inside
        obtain ⟨field', place', like⟩ := forall₂_getElem? rows place
        obtain ⟨flat, holds⟩ :=
          clean.fields there' (List.mem_append_left _ (List.mem_of_getElem? place'))
        rw [like.depth]
        exact ⟨flat, (h.holds_iff like.target).2 holds⟩
  values := by
    intro e there
    obtain ⟨x', there', begins⟩ := h.partner related there
    cases begins with
    | enum name values added => exact (clean.values there').of_append_left

/-! ## What is written of it -/

/-- A target is written as before. -/
theorem Begins.denotes_eq {base base' : BaseType} (related : R i i') (denotes : g.Denotes i base)
    (denotes' : g'.Denotes i' base') : base = base' := by
  obtain ⟨x, x', there, there', begins⟩ := h.nodes related
  have one : x.base? = some base := denotes.base?_eq there
  have other : x'.base? = some base' := denotes'.base?_eq there'
  rw [begins.base?_eq, other] at one
  exact (Option.some.inj one).symm

theorem Begins.fieldOf_eq {field field' : Field TypeId} {line line' : MessageField}
    (like : Field.Like R field field') (stands : g.FieldOf field line)
    (stands' : g'.FieldOf field' line') : line = line' := by
  have repeated : line.repeated = line'.repeated := by
    rw [stands.repeated, stands'.repeated, like.depth]
  have base : line.base = line'.base := h.denotes_eq like.target stands.base stands'.base
  have name : line.name = line'.name := by
    rw [stands.name, stands'.name, like.name]
  cases line
  cases line'
  cases repeated
  cases base
  cases name
  rfl

theorem Begins.fieldsOf_append {fields kept added : List (Field TypeId)}
    {lines lines' : List MessageField} (rows : List.Forall₂ (Field.Like R) fields kept)
    (stand : List.Forall₂ g.FieldOf fields lines)
    (stand' : List.Forall₂ g'.FieldOf (kept ++ added) lines') :
    ∃ more, lines' = lines ++ more := by
  induction rows generalizing lines lines' with
  | nil =>
      cases stand
      exact ⟨lines', rfl⟩
  | cons like rows ih =>
      cases stand with
      | cons one others =>
          cases stand' with
          | cons one' others' =>
              obtain ⟨more, rfl⟩ := ih others others'
              rw [h.fieldOf_eq like one one']
              exact ⟨more, rfl⟩

/-- The block of a type begins the block of what the type begins. -/
theorem Begins.blockOf {b b' : Block} (related : R i i') (stands : g.BlockOf i b)
    (stands' : g'.BlockOf i' b') : b.Begins b' := by
  cases stands with
  | message there fields =>
      obtain ⟨x', there', begins⟩ := h.partner related there
      cases begins with
      | object rows =>
          cases stands' with
          | message at_i' fields' =>
              rw [there'] at at_i'
              cases at_i'
              obtain ⟨more, rfl⟩ := h.fieldsOf_append rows fields fields'
              exact .message _ _ _
          | enumWrapper at_i' =>
              rw [there'] at at_i'
              cases at_i'
  | enumWrapper there =>
      obtain ⟨x', there', begins⟩ := h.partner related there
      cases begins with
      | enum name values added =>
          cases stands' with
          | enumWrapper at_i' =>
              rw [there'] at at_i'
              cases at_i'
              exact .enumWrapper _ _ _
          | message at_i' =>
              rw [there'] at at_i'
              cases at_i'

/-- Where there is a document for the second graph there is one for the first, and its
    blocks begin blocks of the other. -/
theorem Begins.translate (built : g.Built) (built' : g'.Built) {o : Options} {text' : String}
    (done' : (g'.translate o).result = .ok text') :
    ∃ text ids blocks ids' blocks', (g.translate o).result = .ok text
      ∧ g.emissionList = .ok ids ∧ (g.blocks ids).result = .ok blocks
      ∧ text = o.document blocks
      ∧ g'.emissionList = .ok ids' ∧ (g'.blocks ids').result = .ok blocks'
      ∧ text' = o.document blocks'
      ∧ ∀ (k : Nat) (id : TypeId), ids[k]? = some id →
          ∃ (k' : Nat) (id' : TypeId) (block block' : Block), ids'[k']? = some id' ∧ R id id'
            ∧ blocks[k]? = some block ∧ blocks'[k']? = some block' ∧ block.Begins block' := by
  obtain ⟨ids', blocks', walked', emission', made', written'⟩ := emission_of_translate built' done'
  have named : g.rootName ≠ "" := by
    intro unnamed
    rw [h.rootName_eq] at unnamed
    rw [translate_unnamed built' unnamed] at done'
    cases done'
  obtain ⟨ids, walked, emission⟩ := built.emission named
  -- whatever is emitted has a partner that is
  have partner : ∀ id ∈ ids, ∃ id' ∈ ids', R id id' := by
    intro id inside
    obtain ⟨reached, block⟩ := (emission.mem_iff id).1 inside
    obtain ⟨id', related, reached'⟩ := h.reachable reached
    exact ⟨id', (emission'.mem_iff id').2 ⟨reached', h.hasBlock related block⟩, related⟩
  have clean' := (blocks_ok_iff built'.closed fun id inside =>
    ((emission'.mem_iff id).1 inside).2).1 ⟨blocks', made'⟩
  have clean : ∀ id ∈ ids, g.Clean id := by
    intro id inside
    obtain ⟨id', inside', related⟩ := partner id inside
    exact h.clean related (clean' id' inside')
  obtain ⟨blocks, made⟩ := (blocks_ok_iff built.closed fun id inside =>
    ((emission.mem_iff id).1 inside).2).2 clean
  obtain ⟨text, done⟩ := (translate_ok_of_walk walked o).2 ⟨blocks, made⟩
  obtain ⟨_, _, walked_again, made_again, written⟩ := translate_ok done
  rw [walked] at walked_again
  cases walked_again
  rw [made] at made_again
  cases made_again
  refine ⟨text, ids, blocks, ids', blocks', done, walked, made, written, walked', made', written', ?_⟩
  intro k id at_k
  obtain ⟨id', inside', related⟩ := partner id (List.mem_of_getElem? at_k)
  obtain ⟨k', at_k'⟩ := List.mem_iff_getElem?.1 inside'
  obtain ⟨block, place, stands⟩ := forall₂_getElem? (blocksOf_of_blocks made) at_k
  obtain ⟨block', place', stands'⟩ := forall₂_getElem? (blocksOf_of_blocks made') at_k'
  exact ⟨k', id', block, block', at_k', related, place, place', h.blockOf related stands stands'⟩

end Graph

/-! ## Definitions that are added to -/

section Definition

open Sdl

/-- A type begins what is written down like it, with some extensions merged. -/
theorem TypeNode.begins_of_definition {R : TypeId → TypeId → Prop}
    {nameOf nameOf' : TypeId → String} {x x' : TypeNode} {added : List TypeDefinition}
    (merged : TypeDefinition.ofNode nameOf' x' = (TypeDefinition.ofNode nameOf x).merge added)
    (kinds : ∀ kind kind', x = .scalar kind → x' = .scalar kind' → kind.name = kind'.name →
      kind = kind')
    (targets : ∀ t ∈ x.targets, ∀ t' ∈ x'.targets, nameOf t = nameOf' t' → R t t') :
    TypeNode.Begins R x x' := by
  cases x with
  | scalar kind =>
      cases x' with
      | scalar kind' =>
          obtain rfl := kinds kind kind' rfl rfl (TypeDefinition.scalar.inj merged).symm
          exact .scalar kind
      | _ => cases merged
  | object o =>
      cases x' with
      | object o' =>
          obtain ⟨name, fields⟩ := o
          obtain ⟨name', fields'⟩ := o'
          obtain ⟨rfl, rows⟩ := TypeDefinition.object.inj merged
          obtain ⟨kept, more, rfl, same, -⟩ := List.map_eq_append_iff.1 rows
          refine .object (fields_like_of_map same.symm ?_)
          intro field inside field' inside' named
          exact targets _ (List.mem_map.2 ⟨field, inside, rfl⟩) _
            (List.mem_map.2 ⟨field', List.mem_append_left _ inside', rfl⟩) named
      | _ => cases merged
  | enum e =>
      cases x' with
      | enum e' =>
          obtain ⟨name, values⟩ := e
          obtain ⟨name', values'⟩ := e'
          obtain ⟨called, own⟩ := TypeDefinition.enum.inj merged
          obtain rfl : name = name' := called.symm
          obtain rfl : values' = values ++ _ := own
          exact .enum _ _ _
      | _ => cases merged
  | interface name =>
      cases x' with
      | interface name' => cases merged; exact .interface name
      | _ => cases merged
  | union name =>
      cases x' with
      | union name' => cases merged; exact .union name
      | _ => cases merged
  | inputObject name =>
      cases x' with
      | inputObject name' => cases merged; exact .inputObject name
      | _ => cases merged

/-- A graph begins another, by names, that has all of its definitions with some extensions merged. -/
theorem Graph.begins_of_definitions {g g' : Graph} {added : List TypeDefinition} (built : g.Built)
    (built' : g'.Built) (canonical : g.Canonical) (canonical' : g'.Canonical)
    (roots : g.Namesakes g' g.root g'.root)
    (merged : ∀ t ∈ g.definitions, t.merge added ∈ g'.definitions) :
    g.Begins (g.Namesakes g') g' where
  root := roots
  nodes := by
    rintro i i' ⟨x, x', there, there', named⟩
    refine ⟨x, x', there, there', ?_⟩
    have inside : TypeDefinition.ofNode (nameIn g.types) x ∈ g.definitions := by
      refine List.mem_of_getElem? (i := i) ?_
      rw [definitions, getElem?_definitions]
      exact congrArg (Option.map _) there
    -- the definition in the other graph has the name of `x'`, and so it is that of `x'`
    have found : g'.names.lookup (TypeDefinition.merge added
        (TypeDefinition.ofNode (nameIn g.types) x)).name = some i' := by
      rw [TypeDefinition.name_merge, TypeDefinition.name_ofNode]
      exact (built'.coherent.indexed _ _).2 ⟨x', there', named.symm⟩
    obtain ⟨y', at_i', defined⟩ := built'.coherent.node_of_mem found (merged _ inside)
    obtain rfl : x' = y' := Option.some.inj (there'.symm.trans at_i')
    refine TypeNode.begins_of_definition defined ?_ ?_
    · rintro kind kind' rfl rfl names
      rw [canonical there, canonical' there', names]
    · intro t refers t' refers' names
      obtain ⟨y, at_t⟩ := exists_get? (built.coherent.closed there t refers)
      obtain ⟨y', at_t'⟩ := exists_get? (built'.coherent.closed there' t' refers')
      rw [nameIn_of_get at_t, nameIn_of_get at_t'] at names
      exact ⟨y, y', at_t, at_t', names⟩

end Definition

end Protograph
