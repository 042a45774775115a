import Mathlib.Data.List.Forall2
import Protograph.Proofs.Reports
import Protograph.Proofs.Proto.Expressible

/-! # Blocks — what a document that is written consists of

    A block is of a type when it says what the schema says of it: the fields
    of an object in their order, each with the word for its target
    (`Graph.Denotes`), or the values of an enum.  `Graph.BlockOf` states this
    without the checks on the way; a block that is made passes them all.

    A document that is written has one block for each id of the emission
    list, in order (`Graph.translate_ok`). -/

namespace Protograph

/-- Lists that agree entry by entry agree at every place. -/
theorem forall₂_getElem? {α β : Type} {R : α → β → Prop} {l : List α} {m : List β}
    (h : List.Forall₂ R l m) {i : Nat} {a : α} (there : l[i]? = some a) :
    ∃ b, m[i]? = some b ∧ R a b := by
  induction h generalizing i with
  | nil => cases there
  | @cons x y l m first rest ih =>
      cases i with
      | zero =>
          cases there
          exact ⟨y, rfl, first⟩
      | succ i => exact ih there

namespace Graph

variable {g : Graph}

/-- What a reference to the type at an id is written as. -/
inductive Denotes (g : Graph) (id : TypeId) : BaseType → Prop where
  | primitive {kind : ScalarKind} {p : Primitive} (there : g.get? id = some (.scalar kind))
      (mapped : kind.primitive? = some p) : Denotes g id (.primitive p)
  | message {o : ObjectType} (there : g.get? id = some (.object o)) :
      Denotes g id (.message o.name)
  | enum {e : EnumType} (there : g.get? id = some (.enum e)) : Denotes g id (.enum e.name)

/-- A field of a message that stands for a field of an object. -/
structure FieldOf (g : Graph) (field : Field TypeId) (line : MessageField) : Prop where
  flat : field.type.listDepth ≤ 1
  repeated : line.repeated = (field.type.listDepth == 1)
  base : g.Denotes field.type.target line.base
  name : line.name = field.name

/-- A block that stands for the type at an id. -/
inductive BlockOf (g : Graph) (id : TypeId) : Block → Prop where
  | message {o : ObjectType} {lines : List MessageField}
      (there : g.get? id = some (.object o)) (fields : List.Forall₂ g.FieldOf o.fields lines) :
      BlockOf g id (.message o.name lines)
  | enumWrapper {e : EnumType} (there : g.get? id = some (.enum e)) :
      BlockOf g id (.enumWrapper e.name e.values)

/-! ## What is made -/

theorem denotes_of_baseType {owner : String} {field : Field TypeId} {base : BaseType}
    (h : g.baseType owner field = .ok base) : g.Denotes field.type.target base := by
  rw [baseType] at h
  split at h
  · next kind there =>
      split at h
      · next p mapped =>
          cases h
          exact .primitive there mapped
      · cases h
  · next e there =>
      cases h
      exact .enum there
  · next o there =>
      cases h
      exact .message there
  all_goals cases h

theorem fieldOf_of_messageField {owner : String} {field : Field TypeId} {line : MessageField}
    (h : g.messageField owner field = .ok line) : g.FieldOf field line := by
  rw [messageField] at h
  split at h
  · cases h
  · next flat =>
      obtain ⟨base, found, rfl⟩ := map_eq_ok.1 h
      exact ⟨Nat.not_lt.1 flat, rfl, denotes_of_baseType found, rfl⟩

/-- Fields are written one for one and in order. -/
theorem fieldsOf_of_messageFields {owner : String} {seen : List String}
    {fields : List (Field TypeId)} {lines : List MessageField}
    (h : g.messageFields owner seen fields = .ok lines) : List.Forall₂ g.FieldOf fields lines := by
  induction fields generalizing seen lines with
  | nil =>
      cases h
      exact .nil
  | cons field fields ih =>
      rw [messageFields] at h
      split at h
      · cases h
      · obtain ⟨first, one, h⟩ := bind_eq_ok.1 h
        obtain ⟨rest, others, h⟩ := bind_eq_ok.1 h
        cases h
        exact .cons (fieldOf_of_messageField one) (ih others)

theorem blockOf_of_block {id : TypeId} {block : Block} (h : g.block id = .ok block) :
    g.BlockOf id block := by
  rw [Graph.block] at h
  split at h
  · next o there =>
      rw [Graph.message] at h
      obtain ⟨lines, made, rfl⟩ := map_eq_ok.1 h
      exact .message there (fieldsOf_of_messageFields made)
  · next e there =>
      rw [EnumType.block] at h
      split at h
      · cases h
      · cases h
        exact .enumWrapper there
  · cases h
  · cases h

theorem blocksOf_of_blocks {ids : List TypeId} {blocks : List Block}
    (h : (g.blocks ids).result = .ok blocks) : List.Forall₂ g.BlockOf ids blocks := by
  induction ids generalizing blocks with
  | nil =>
      cases h
      exact .nil
  | cons id ids ih =>
      rw [result_blocks_cons] at h
      obtain ⟨first, made, h⟩ := bind_eq_ok.1 h
      obtain ⟨rest, others, rfl⟩ := map_eq_ok.1 h
      exact .cons (blockOf_of_block made) (ih others)

/-- A document that is written is the one of the blocks of the emission list. -/
theorem translate_ok {o : Options} {text : String} (h : (g.translate o).result = .ok text) :
    ∃ ids blocks, g.emissionList = .ok ids ∧ (g.blocks ids).result = .ok blocks
      ∧ text = o.document blocks := by
  rw [translate, Traced.result_bind] at h
  obtain ⟨ids, walked, h⟩ := bind_eq_ok.1 h
  rw [Traced.result_bind] at h
  obtain ⟨blocks, made, h⟩ := bind_eq_ok.1 h
  cases h
  exact ⟨ids, blocks, walked, made, rfl⟩

/-- The emission list of a schema whose document is written. -/
theorem emission_of_translate (built : g.Built) {o : Options} {text : String}
    (h : (g.translate o).result = .ok text) : ∃ ids blocks, g.emissionList = .ok ids
      ∧ g.Emission ids ∧ (g.blocks ids).result = .ok blocks ∧ text = o.document blocks := by
  have named : g.rootName ≠ "" := by
    intro unnamed
    rw [translate_unnamed built unnamed] at h
    cases h
  obtain ⟨ids, blocks, walked, made, written⟩ := translate_ok h
  obtain ⟨others, walked', emission⟩ := built.emission named
  rw [walked] at walked'
  cases walked'
  exact ⟨ids, blocks, walked, emission, made, written⟩

end Graph

/-! ## A schema with awkward names -/

/-- Types and fields called like words of the format, an object without fields and
    an enum without values. -/
def awkwardCalls : List Call :=
  [ .object "message", .object "repeated", .enumeration "option" ["enum", "message"],
    .object "enum", .enumeration "syntax" [], .scalar .string,
    .field 0 "repeated" (.list (.nonNull (.named 1))), .field 0 "option" (.named 2),
    .field 1 "message" (.nonNull (.list (.named 2))), .field 1 "import" (.nonNull (.named 3)),
    .field 1 "enum" (.named 4), .field 1 "package" (.list (.named 5)), .field 1 "back" (.named 0) ]

/-- The schema of `awkwardCalls`, with `message` as its root. -/
def awkward : Graph :=
  ⟨(Builder.run {} awkwardCalls).types, (Builder.run {} awkwardCalls).names, 0⟩

theorem awkward_built : awkward.Built := ⟨awkwardCalls, 0, rfl⟩

theorem awkward_translates : ∃ text, (awkward.translate {}).result = .ok text :=
  exists_ok (by decide +kernel)

end Protograph
