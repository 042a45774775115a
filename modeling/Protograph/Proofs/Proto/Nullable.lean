import Protograph.Proofs.Proto.Blocks

/-! # Nullability — non-null marks do not show in a document

    Two things are ever read of the type of a field: its target and its number
    of lists.  Both are the same with the non-null marks and without them, so
    every function on the way to a document answers the same for a schema and
    for the schema without its marks (`Graph.nullable`).

    * The walk meets the same ids, through the same fields, and ends in the
      same error if it fails (`Walk.run_nullable`, `Graph.walk_nullable`).
    * Blocks are the same, and so are the reasons why there is none
      (`Graph.block_nullable`); hence documents are.
    * Without their marks the calls that build a schema build the schema
      without its marks (`Builder.run_nullable`).

    Lists do count.  A list inside a list, with any marks between and around
    them, is not written whatever the target is (`TypeRef.Nested`,
    `Graph.message_ne_ok_of_nested`, `Graph.translate_ne_ok_of_nested`). -/

namespace Protograph

/-! ## Lists inside lists -/

namespace TypeRef

variable {α : Type} {s t : TypeRef α}

/-- A part of a reference: what is left when some of the outer modifiers are taken off. -/
inductive Within (s : TypeRef α) : TypeRef α → Prop where
  | refl : Within s s
  | nonNull {t : TypeRef α} (inside : Within s t) : Within s (.nonNull t)
  | list {t : TypeRef α} (inside : Within s t) : Within s (.list t)

/-- A list somewhere inside a list. -/
def Nested (t : TypeRef α) : Prop :=
  ∃ outer inner, (list outer).Within t ∧ (list inner).Within outer

theorem Within.listDepth_le (h : s.Within t) : s.listDepth ≤ t.listDepth := by
  induction h with
  | refl => exact Nat.le_refl _
  | nonNull inside ih => exact ih
  | list inside ih => exact Nat.le_succ_of_le ih

theorem exists_list_within (h : 1 ≤ t.listDepth) : ∃ inner, (list inner).Within t := by
  induction t with
  | named target => exact absurd h (by simp [listDepth])
  | nonNull t ih =>
      obtain ⟨inner, inside⟩ := ih h
      exact ⟨inner, .nonNull inside⟩
  | list t ih => exact ⟨t, .refl⟩

/-- The number of lists tells whether one is inside another. -/
theorem nested_iff : t.Nested ↔ 2 ≤ t.listDepth := by
  constructor
  · rintro ⟨outer, inner, inside, inside'⟩
    have first := inside.listDepth_le
    have second := inside'.listDepth_le
    simp only [listDepth] at first second
    omega
  · intro deep
    induction t with
    | named target => exact absurd deep (by simp [listDepth])
    | nonNull t ih =>
        obtain ⟨outer, inner, inside, inside'⟩ := ih deep
        exact ⟨outer, inner, .nonNull inside, inside'⟩
    | list t ih =>
        obtain ⟨inner, inside⟩ := exists_list_within (Nat.le_of_succ_le_succ deep)
        exact ⟨t, inner, .refl, inside⟩

end TypeRef

/-! ## Schemas without marks -/

/-- A field whose type has no non-null marks. -/
def Field.nullable {α : Type} (field : Field α) : Field α := ⟨field.name, field.type.nullable⟩

/-- An object whose fields have no non-null marks. -/
def ObjectType.nullable (o : ObjectType) : ObjectType := ⟨o.name, o.fields.map Field.nullable⟩

/-- A type without non-null marks. -/
def TypeNode.nullable : TypeNode → TypeNode
  | .object o => .object o.nullable
  | other => other

@[simp] theorem TypeNode.name_nullable (node : TypeNode) : node.nullable.name = node.name := by
  cases node <;> rfl

@[simp] theorem TypeNode.variant_nullable (node : TypeNode) :
    node.nullable.variant = node.variant := by
  cases node <;> rfl

@[simp] theorem TypeNode.isEmittable_nullable (node : TypeNode) :
    node.nullable.isEmittable = node.isEmittable := by
  cases node <;> rfl

/-- The schema without its non-null marks. -/
def Graph.nullable (g : Graph) : Graph := { g with types := g.types.map TypeNode.nullable }

/-- The builder without the non-null marks that it has been given. -/
def Builder.nullable (b : Builder) : Builder := { b with types := b.types.map TypeNode.nullable }

/-- The call without its non-null marks. -/
def Call.nullable : Call → Call
  | .field owner name type => .field owner name type.nullable
  | other => other

/-! ## Building -/

namespace Builder

theorem nullable_empty : nullable {} = {} := by simp [nullable]

theorem getElem?_nullable (b : Builder) (id : TypeId) :
    b.nullable.types[id]? = (b.types[id]?).map TypeNode.nullable := Array.getElem?_map

theorem lookup_nullable (b : Builder) (name : String) :
    b.nullable.lookup name = b.lookup name := rfl

theorem declare_nullable (b : Builder) (node : TypeNode) :
    b.nullable.declare node.nullable
      = (b.declare node).map fun r => (r.1, r.2.nullable) := by
  rw [declare, declare, TypeNode.name_nullable, lookup_nullable]
  cases b.lookup node.name with
  | some id => rfl
  | none => simp [nullable, Except.map]

theorem scalar_nullable (b : Builder) (kind : ScalarKind) :
    b.nullable.scalar kind = (b.scalar kind).map fun r => (r.1, r.2.nullable) := by
  rw [scalar, scalar, lookup_nullable]
  cases b.lookup kind.name with
  | none => exact declare_nullable b (.scalar kind)
  | some id =>
      dsimp only
      rw [getElem?_nullable]
      cases b.types[id]? with
      | none => rfl
      | some node => cases node <;> rfl

/-- Putting a type in the place of another, with marks or without. -/
theorem put_nullable (b : Builder) (id : TypeId) (node : TypeNode) :
    (b.put id node).nullable = b.nullable.put id node.nullable := by
  have types : (b.types.modify id fun _ => node).map TypeNode.nullable
      = (b.types.map TypeNode.nullable).modify id fun _ => node.nullable := by
    refine Array.ext_getElem? fun other => ?_
    simp only [Array.getElem?_map, Array.getElem?_modify]
    split
    · cases b.types[other]? <;> rfl
    · rfl
  simp only [put, nullable, types]

theorem field_nullable (b : Builder) (owner : TypeId) (name : String) (type : TypeRef TypeId) :
    b.nullable.field owner name type.nullable = (b.field owner name type).map nullable := by
  have size : b.nullable.types.size = b.types.size := Array.size_map
  rw [field, field, TypeRef.target_nullable, size, getElem?_nullable]
  split
  · cases there : b.types[owner]? with
    | none => rfl
    | some node =>
        cases node with
        | object o =>
            have grown := put_nullable b owner
              (.object { o with fields := o.fields ++ [⟨name, type⟩] })
            simp only [TypeNode.nullable, ObjectType.nullable, List.map_append] at grown
            exact congrArg Except.ok grown.symm
        | _ => rfl
  · rfl

theorem value_nullable (b : Builder) (owner : TypeId) (name : String) :
    b.nullable.value owner name = (b.value owner name).map nullable := by
  rw [value, value, getElem?_nullable]
  cases there : b.types[owner]? with
  | none => rfl
  | some node =>
      cases node with
      | enum e =>
          have grown := put_nullable b owner (.enum { e with values := e.values ++ [name] })
          exact congrArg Except.ok grown.symm
      | _ => rfl

/-- A call is answered the same with marks and without. -/
theorem call_nullable (b : Builder) (c : Call) :
    b.nullable.call c.nullable = (b.call c).map fun r => (r.1, r.2.nullable) := by
  have declared : ∀ node : TypeNode,
      ((b.nullable.declare node.nullable).map fun r => (Reply.declared r.1, r.2))
        = ((b.declare node).map fun r => (Reply.declared r.1, r.2)).map
            fun r => (r.1, r.2.nullable) := by
    intro node
    rw [declare_nullable]
    cases b.declare node <;> rfl
  cases c with
  | object name => exact declared (.object ⟨name, []⟩)
  | enumeration name values => exact declared (.enum ⟨name, values⟩)
  | interface name => exact declared (.interface name)
  | union name => exact declared (.union name)
  | inputObject name => exact declared (.inputObject name)
  | scalar kind =>
      rw [Call.nullable, call, call, scalar_nullable]
      · cases b.scalar kind <;> rfl
      · rintro owner name type ⟨⟩
  | field owner name type =>
      rw [Call.nullable, call, call, field_nullable]
      cases b.field owner name type <;> rfl
  | value owner name =>
      rw [Call.nullable, call, call, value_nullable]
      · cases b.value owner name <;> rfl
      · rintro owner name type ⟨⟩

theorem step_nullable (b : Builder) (c : Call) :
    (b.step c).nullable = b.nullable.step c.nullable := by
  rw [step, step, call_nullable]
  cases b.call c <;> rfl

/-- The calls without their marks lead to the builder without them. -/
theorem run_nullable (b : Builder) (history : List Call) :
    (b.run history).nullable = b.nullable.run (history.map Call.nullable) := by
  induction history generalizing b with
  | nil => rfl
  | cons c cs ih => rw [run_cons, ih, step_nullable, List.map_cons, run_cons]

theorem build_nullable {b : Builder} {root : TypeId} {g : Graph} (done : b.build root = .ok g) :
    b.nullable.build root = .ok g.nullable := by
  obtain ⟨rfl, o, there⟩ := build_ok done
  rw [build, getElem?_nullable, there]
  rfl

end Builder

/-! ## Walking -/

theorem Traced.bind_congr {ε α β : Type} {t : Traced ε α} {f f' : α → Traced ε β}
    (same : ∀ a, t.result = .ok a → f a = f' a) : t >>= f = t >>= f' := by
  cases ends : t.result with
  | ok a => rw [bind_of_ok ends, bind_of_ok ends, same a ends]
  | error e => rw [bind_of_error ends, bind_of_error ends]

section Graph

variable (g : Graph)

theorem Graph.root_nullable : g.nullable.root = g.root := rfl

theorem Graph.get?_nullable (id : TypeId) :
    g.nullable.get? id = (g.get? id).map TypeNode.nullable := Array.getElem?_map

theorem Graph.object?_nullable (id : TypeId) :
    g.nullable.object? id = (g.object? id).map ObjectType.nullable := by
  rw [object?, object?, get?_nullable]
  cases g.get? id with
  | none => rfl
  | some node => cases node <;> rfl

namespace Walk

theorem follow_nullable (owner : ObjectType) (field : Field TypeId) (w : Walk) :
    follow g.nullable owner.nullable field.nullable w = follow g owner field w := by
  rw [follow, follow, Field.nullable, TypeRef.target_nullable, Graph.get?_nullable]
  cases g.get? field.type.target with
  | none => rfl
  | some node =>
      simp only [Option.map_some, TypeNode.isEmittable_nullable, TypeNode.variant_nullable,
        TypeNode.name_nullable, ObjectType.nullable]

theorem expand_nullable (owner : ObjectType) (fields : List (Field TypeId)) (w : Walk) :
    expand g.nullable owner.nullable (fields.map Field.nullable) w = expand g owner fields w := by
  induction fields generalizing w with
  | nil => rfl
  | cons field fields ih => simp only [List.map_cons, expand, follow_nullable, ih]

theorem step_nullable (w : Walk) : w.step g.nullable = w.step g := by
  rw [step, step]
  cases w.queue with
  | nil => rfl
  | cons id rest =>
      dsimp only
      rw [Graph.object?_nullable]
      cases g.object? id with
      | none => rfl
      | some owner => exact expand_nullable g owner owner.fields _

/-- The walks are the same, step by step. -/
theorem run_nullable (w : Walk) : run g.nullable w = run g w := by
  by_cases drained : w.queue = []
  · rw [run_of_nil drained, run_of_nil drained]
  · rw [run_of_ne_nil drained, run_of_ne_nil drained, step_nullable]
    refine Traced.bind_congr fun next taken => ?_
    have fewer := pending_step drained taken
    exact run_nullable next
termination_by w.pending g

end Walk

namespace Graph

theorem rootName_nullable : g.nullable.rootName = g.rootName := by
  rw [rootName, rootName, root_nullable, get?_nullable]
  cases g.get? g.root with
  | none => rfl
  | some node => exact node.name_nullable

theorem rootObject_nullable : g.nullable.rootObject = g.rootObject.map ObjectType.nullable := by
  rw [rootObject, rootObject, rootName_nullable, root_nullable, get?_nullable]
  cases g.get? g.root with
  | none => rfl
  | some node =>
      cases node with
      | object o =>
          show (if o.name = "" then _ else _) = Except.map _ (if o.name = "" then _ else _)
          split <;> rfl
      | _ => rfl

theorem walk_nullable : g.nullable.walk = g.walk := by
  rw [walk, walk, rootObject_nullable]
  simp only [Walk.run_nullable]
  cases g.rootObject <;> rfl

/-! ## Blocks and documents -/

theorem baseType_nullable (owner : String) (field : Field TypeId) :
    g.nullable.baseType owner field.nullable = g.baseType owner field := by
  rw [baseType, baseType, Field.nullable, TypeRef.target_nullable, get?_nullable]
  cases g.get? field.type.target with
  | none => rfl
  | some node => cases node <;> rfl

theorem messageField_nullable (owner : String) (field : Field TypeId) :
    g.nullable.messageField owner field.nullable = g.messageField owner field := by
  rw [messageField, messageField, baseType_nullable, Field.nullable, TypeRef.listDepth_nullable]

theorem messageFields_nullable (owner : String) (seen : List String)
    (fields : List (Field TypeId)) :
    g.nullable.messageFields owner seen (fields.map Field.nullable)
      = g.messageFields owner seen fields := by
  induction fields generalizing seen with
  | nil => rfl
  | cons field fields ih =>
      rw [List.map_cons, messageFields, messageFields, messageField_nullable]
      simp only [ih, Field.nullable]

theorem message_nullable (o : ObjectType) : g.nullable.message o.nullable = g.message o := by
  rw [message, message, ObjectType.nullable, messageFields_nullable]

theorem block_nullable (id : TypeId) : g.nullable.block id = g.block id := by
  rw [block, block, get?_nullable]
  cases g.get? id with
  | none => rfl
  | some node =>
      cases node with
      | object o => exact message_nullable g o
      | _ => rfl

theorem blocks_nullable (ids : List TypeId) : g.nullable.blocks ids = g.blocks ids := by
  induction ids with
  | nil => rfl
  | cons id ids ih => rw [blocks, blocks, block_nullable, ih]

theorem translate_nullable (o : Options) : g.nullable.translate o = g.translate o := by
  rw [translate, translate, walk_nullable, rootName_nullable]
  simp only [blocks_nullable]

end Graph

end Graph

/-! ## Nested lists -/

namespace Graph

variable {g : Graph} {id : TypeId} {owner : ObjectType} {field : Field TypeId}

theorem messageField_nested (nested : field.type.Nested) (name : String) :
    g.messageField name field = .error (.unsupportedType name field.name .nestedList) := by
  have deep : field.type.listDepth > 1 := TypeRef.nested_iff.1 nested
  rw [messageField, if_pos deep]

/-- Where every field has a line there is no list inside a list. -/
theorem not_nested_of_fieldsOf {fields : List (Field TypeId)} {lines : List MessageField}
    (each : List.Forall₂ g.FieldOf fields lines) (inside : field ∈ fields) :
    ¬ field.type.Nested := by
  obtain ⟨k, at_k⟩ := List.mem_iff_getElem?.1 inside
  obtain ⟨line, -, fieldOf⟩ := forall₂_getElem? each at_k
  rw [TypeRef.nested_iff, Nat.not_le]
  exact Nat.lt_succ_of_le fieldOf.flat

theorem message_ne_ok_of_nested (inside : field ∈ owner.fields) (nested : field.type.Nested)
    (block : Block) : g.message owner ≠ .ok block := by
  intro made
  rw [message] at made
  obtain ⟨lines, made, -⟩ := map_eq_ok.1 made
  exact not_nested_of_fieldsOf (fieldsOf_of_messageFields made) inside nested

theorem translate_ne_ok_of_nested {ids : List TypeId} (walked : g.emissionList = .ok ids)
    (emitted : id ∈ ids) (there : g.get? id = some (.object owner)) (inside : field ∈ owner.fields)
    (nested : field.type.Nested) (o : Options) (text : String) :
    (g.translate o).result ≠ .ok text := by
  intro done
  obtain ⟨ids', blocks, walked', made, -⟩ := translate_ok done
  rw [walked] at walked'
  cases walked'
  obtain ⟨k, at_k⟩ := List.mem_iff_getElem?.1 emitted
  obtain ⟨block, -, stands⟩ := forall₂_getElem? (blocksOf_of_blocks made) at_k
  cases stands with
  | @message o lines there' each =>
      rw [there] at there'
      cases there'
      exact not_nested_of_fieldsOf each inside nested
  | enumWrapper there' =>
      rw [there] at there'
      cases there'

/-- **NON-NULL MARKS DO NOT SHOW**: without them a schema has the same emission list and the same
    documents, or the same errors, and it is the schema that the same calls build without them.
    But a list inside a list shows, whatever stands between the two and whatever the target is:
    the field has an error of its own, its object has no block, and no document has the object. -/
theorem nullable_transparent (g : Graph) :
    g.nullable.emissionList = g.emissionList
      ∧ (∀ o, g.nullable.translate o = g.translate o)
      ∧ (∀ (history : List Call) (root : TypeId), (Builder.run {} history).build root = .ok g →
          (Builder.run {} (history.map Call.nullable)).build root = .ok g.nullable)
      ∧ ∀ (owner : ObjectType) (field : Field TypeId), field ∈ owner.fields → field.type.Nested →
          g.messageField owner.name field
              = .error (.unsupportedType owner.name field.name .nestedList)
            ∧ (∀ block, g.message owner ≠ .ok block)
            ∧ ∀ id ids o text, g.get? id = some (.object owner) → g.emissionList = .ok ids →
                id ∈ ids → (g.translate o).result ≠ .ok text := by
  refine ⟨congrArg Traced.result g.walk_nullable, g.translate_nullable, ?_, ?_⟩
  · intro history root done
    have unmarked := Builder.build_nullable done
    rwa [Builder.run_nullable, Builder.nullable_empty] at unmarked
  · intro owner field inside nested
    refine ⟨messageField_nested nested owner.name, message_ne_ok_of_nested inside nested, ?_⟩
    intro id ids o text there walked emitted
    exact translate_ne_ok_of_nested walked emitted there inside nested o text

end Graph

/-- Marks around and between lists, and two marks at once. -/
def latticeCalls : List Call :=
  [ .object "Query", .object "Cell", .enumeration "Color" ["RED"], .scalar .int,
    .field 0 "cells" (.nonNull (.list (.nonNull (.named 1)))),
    .field 1 "color" (.nonNull (.nonNull (.named 2))),
    .field 1 "grid" (.list (.nonNull (.list (.named 3)))) ]

/-- The schema of `latticeCalls`, with `Query` as its root. -/
def lattice : Graph :=
  ⟨(Builder.run {} latticeCalls).types, (Builder.run {} latticeCalls).names, 0⟩

/-- The object of `lattice` that can not be written. -/
def latticeCell : ObjectType :=
  ⟨"Cell", [⟨"color", .nonNull (.nonNull (.named 2))⟩,
    ⟨"grid", .list (.nonNull (.list (.named 3)))⟩]⟩

theorem lattice_transparent :
    (Builder.run {} latticeCalls).build 0 = .ok lattice
      ∧ (Builder.run {} (latticeCalls.map Call.nullable)).build 0 = .ok lattice.nullable
      ∧ lattice.nullable ≠ lattice
      ∧ lattice.nullable.emissionList = .ok [0, 1, 2]
      ∧ (∀ o, lattice.nullable.translate o = lattice.translate o)
      ∧ (∀ block, lattice.message latticeCell ≠ .ok block)
      ∧ ∀ o text, (lattice.translate o).result ≠ .ok text := by
  have built : (Builder.run {} latticeCalls).build 0 = .ok lattice := rfl
  have walked : lattice.emissionList = .ok [0, 1, 2] := by decide +kernel
  obtain ⟨emission, documents, calls, nested⟩ := lattice.nullable_transparent
  obtain ⟨-, block, document⟩ := nested latticeCell ⟨"grid", .list (.nonNull (.list (.named 3)))⟩
    (by decide) ⟨_, _, .refl, .nonNull .refl⟩
  refine ⟨built, calls _ 0 built, by decide +kernel, emission.trans walked, documents, block, ?_⟩
  intro o text
  exact document 1 _ o text rfl walked (by decide)

end Protograph
