import Protograph.Proofs.Proto.ReadBack
import Protograph.Proofs.Proto.References
import Protograph.Proofs.Sdl.Acceptance

/-! # Tokens — which type the word for a field's type stands for

    In front of its name the line of a field has one word for the type it
    refers to: a primitive, the name of a message, or the name of a wrapper
    with `.Enum` behind it.  There is no full stop in a name, so the third is
    never one of the others, and names are unique.

    The first two are not kept apart.  Nobody reserves the names of the
    primitives, and an object may be called `string`; a field that refers to
    it is then written like one that refers to the scalar.  That is all that
    can be mistaken (`BaseType.eq_of_token`, `Graph.eq_or_shadows`). -/

namespace Protograph

open Sdl

/-! ## Words -/

theorem Primitive.eq_of_name {p q : Primitive} (same : p.name = q.name) : p = q := by
  cases p <;> cases q <;> simp [name] at same ⊢

/-- A scalar is told by its primitive. -/
theorem ScalarKind.eq_of_primitive? {kind kind' : ScalarKind} {p : Primitive}
    (h : kind.primitive? = some p) (h' : kind'.primitive? = some p) : kind = kind' := by
  cases kind <;> cases h <;> cases kind' <;> cases h' <;> rfl

namespace BaseType

/-- A message has no full stop in its name. -/
def Plain : BaseType → Prop
  | .message name => '.' ∉ name.toList
  | _ => True

theorem dot_mem_enum (name : String) : '.' ∈ (BaseType.enum name).token.toList := by
  simp [token]

theorem dot_not_mem_primitive (p : Primitive) : '.' ∉ (BaseType.primitive p).token.toList := by
  cases p <;> decide

/-- Two types with one word are one, or else a primitive and a message of its name. -/
theorem eq_of_token {a b : BaseType} (ha : a.Plain) (hb : b.Plain) (same : a.token = b.token) :
    a = b ∨ (∃ p, a = .primitive p ∧ b = .message p.name)
      ∨ ∃ p, a = .message p.name ∧ b = .primitive p := by
  cases a with
  | primitive p =>
      cases b with
      | primitive q => exact Or.inl (congrArg primitive (Primitive.eq_of_name same))
      | message name => exact Or.inr (Or.inl ⟨p, rfl, congrArg message same.symm⟩)
      | enum name =>
          have dot := dot_mem_enum name
          rw [← same] at dot
          exact absurd dot (dot_not_mem_primitive p)
  | message name =>
      cases b with
      | primitive q => exact Or.inr (Or.inr ⟨q, congrArg message same, rfl⟩)
      | message name' => exact Or.inl (congrArg message same)
      | enum name' =>
          have dot := dot_mem_enum name'
          rw [← same] at dot
          exact absurd dot ha
  | enum name =>
      have dot := dot_mem_enum name
      rw [same] at dot
      cases b with
      | primitive q => exact absurd dot (dot_not_mem_primitive q)
      | message name' => exact absurd dot hb
      | enum name' => exact Or.inl (congrArg enum (String.append_left_inj ".Enum" |>.1 same))

end BaseType

/-! ## Types behind words -/

namespace Graph

variable {g : Graph} {target target' : TypeId} {base base' : BaseType}

/-- An object that is called like the primitive of a scalar. -/
def Shadows (g : Graph) (target scalar : TypeId) : Prop :=
  ∃ o kind p, g.get? target = some (.object o) ∧ g.get? scalar = some (.scalar kind)
    ∧ kind.primitive? = some p ∧ o.name = p.name

/-- No object has a full stop in its name. -/
def Dotless (g : Graph) : Prop :=
  ∀ (id : TypeId) (o : ObjectType), g.get? id = some (.object o) → '.' ∉ o.name.toList

theorem Dotless.plain (h : g.Dotless) (denotes : g.Denotes target base) : base.Plain := by
  cases denotes with
  | primitive there mapped => trivial
  | message there => exact h _ _ there
  | enum there => trivial

/-- A reference is written in its own way for every type. -/
theorem Built.eq_of_denotes (built : g.Built) (denotes : g.Denotes target base)
    (denotes' : g.Denotes target' base) : target = target' := by
  cases denotes with
  | primitive there mapped =>
      cases denotes' with
      | primitive there' mapped' =>
          refine built.coherent.eq_of_name there there' ?_
          rw [ScalarKind.eq_of_primitive? mapped mapped']
  | @message o there =>
      generalize named : BaseType.message o.name = base at denotes'
      cases denotes' with
      | message there' => exact built.coherent.eq_of_name there there' (BaseType.message.inj named)
      | _ => cases named
  | @enum e there =>
      generalize named : BaseType.enum e.name = base at denotes'
      cases denotes' with
      | enum there' => exact built.coherent.eq_of_name there there' (BaseType.enum.inj named)
      | _ => cases named

theorem shadows_of_denotes {p : Primitive} (denotes : g.Denotes target (.message p.name))
    (denotes' : g.Denotes target' (.primitive p)) : g.Shadows target target' := by
  cases denotes' with
  | @primitive kind _ there' mapped =>
      generalize named : BaseType.message p.name = base at denotes
      cases denotes with
      | @message o there => exact ⟨o, kind, p, there, there', mapped, (BaseType.message.inj named).symm⟩
      | _ => cases named

/-- Two references with one word are to one type, or else one is to a scalar and
    the other to an object that is called like its primitive. -/
theorem eq_or_shadows (built : g.Built) (dotless : g.Dotless) (denotes : g.Denotes target base)
    (denotes' : g.Denotes target' base') (same : base.token = base'.token) :
    target = target' ∨ g.Shadows target target' ∨ g.Shadows target' target := by
  rcases BaseType.eq_of_token (dotless.plain denotes) (dotless.plain denotes') same with
    rfl | ⟨p, rfl, rfl⟩ | ⟨p, rfl, rfl⟩
  · exact Or.inl (built.eq_of_denotes denotes denotes')
  · exact Or.inr (Or.inr (shadows_of_denotes denotes' denotes))
  · exact Or.inr (Or.inl (shadows_of_denotes denotes denotes'))

/-- The word for a primitive stands for its scalar, or for an object of that name. -/
theorem scalar_or_object_of_token {p : Primitive} (denotes : g.Denotes target base)
    (same : base.token = p.name) :
    (∃ kind, g.get? target = some (.scalar kind) ∧ kind.primitive? = some p)
      ∨ ∃ o, g.get? target = some (.object o) ∧ o.name = p.name := by
  cases denotes with
  | @primitive kind q there mapped =>
      obtain rfl := Primitive.eq_of_name same
      exact Or.inl ⟨kind, there, mapped⟩
  | @message o there => exact Or.inr ⟨o, there, same⟩
  | @enum e there =>
      have dot := BaseType.dot_mem_enum e.name
      rw [same] at dot
      exact absurd dot (BaseType.dot_not_mem_primitive p)

/-! ## Lines of a document -/

/-- A field of an emitted object, and the line that it has in the object's block. -/
inductive WrittenAs (g : Graph) (ids : List TypeId) (blocks : List Block) :
    Field TypeId → MessageField → Prop where
  | line {i k : Nat} {id : TypeId} {owner : ObjectType} {field : Field TypeId}
      {lines : List MessageField} {line : MessageField} (emitted : ids[i]? = some id)
      (there : g.get? id = some (.object owner)) (place : owner.fields[k]? = some field)
      (block : blocks[i]? = some (.message owner.name lines)) (made : lines[k]? = some line) :
      WrittenAs g ids blocks field line

variable {ids : List TypeId} {blocks : List Block}

/-- The lines of an object's block are those of its fields. -/
theorem BlockOf.fields {id : TypeId} {owner : ObjectType} {lines : List MessageField}
    (stands : g.BlockOf id (.message owner.name lines))
    (there : g.get? id = some (.object owner)) : List.Forall₂ g.FieldOf owner.fields lines := by
  generalize made : Block.message owner.name lines = block at stands
  cases stands with
  | message there' fields =>
      rw [there] at there'
      cases there'
      cases made
      exact fields
  | enumWrapper there' => cases made

theorem WrittenAs.denotes {field : Field TypeId} {line : MessageField}
    (stand : List.Forall₂ g.BlockOf ids blocks) (written : g.WrittenAs ids blocks field line) :
    g.Denotes field.type.target line.base := by
  obtain ⟨emitted, there, place, block, made⟩ := written
  obtain ⟨_, at_i, stands⟩ := forall₂_getElem? stand emitted
  rw [block] at at_i
  cases at_i
  obtain ⟨_, at_k, fieldOf⟩ := forall₂_getElem? (stands.fields there) place
  rw [made] at at_k
  cases at_k
  exact fieldOf.base

/-- Every field of an emitted object has a line. -/
theorem exists_line (stand : List.Forall₂ g.BlockOf ids blocks) {id : TypeId} {owner : ObjectType}
    {field : Field TypeId} (emitted : id ∈ ids) (there : g.get? id = some (.object owner))
    (inside : field ∈ owner.fields) : ∃ line, g.WrittenAs ids blocks field line := by
  obtain ⟨i, at_i⟩ := List.mem_iff_getElem?.1 emitted
  obtain ⟨k, at_k⟩ := List.mem_iff_getElem?.1 inside
  obtain ⟨block, at_block, stands⟩ := forall₂_getElem? stand at_i
  cases stands with
  | message there' fields =>
      rw [there] at there'
      cases there'
      obtain ⟨line, at_line, -⟩ := forall₂_getElem? fields at_k
      exact ⟨line, .line at_i there at_k at_block at_line⟩
  | enumWrapper there' =>
      rw [there] at there'
      cases there'

end Graph

/-! ## Loaded documents -/

namespace Sdl.Document

variable {d : Document} {g : Graph}

/-- The types of a document have names for names. -/
def TypesNamed (d : Document) : Prop := ∀ t ∈ d.types, isName t.name

instance (d : Document) : Decidable d.TypesNamed := inferInstanceAs (Decidable (∀ _ ∈ _, _))

/-- The objects of a loaded graph are called as in the document. -/
theorem dotless_of_graph (named : d.TypesNamed) (loaded : d.graph = .ok g) : g.Dotless := by
  intro id o there
  obtain ⟨built, -⟩ := graph_loaded loaded
  have found : g.lookup o.name = some id := (built.coherent.indexed _ _).2 ⟨_, there, rfl⟩
  have defined : Defines d.types "object" o.name :=
    (graph_variant_iff loaded found there (by decide)).1 rfl
  obtain ⟨t, inside, -, called⟩ := defined
  rw [← called]
  exact not_mem_of_isName (named t inside) (by decide) (by decide)

/-- **WHAT TOKENS STAND FOR**: in the document of a loaded schema every field of an emitted object
    has a line, and two lines with one word for the type are of fields with one target, unless one
    target is a scalar and the other an object that is called like the scalar's primitive.  So the
    word for a primitive stands for its scalar, or for an object of that name. -/
theorem tokens_tell (named : d.TypesNamed) (loaded : d.graph = .ok g) {o : Options} {text : String}
    (done : (g.translate o).result = .ok text) :
    ∃ ids blocks, g.emissionList = .ok ids ∧ (g.blocks ids).result = .ok blocks
      ∧ text = o.document blocks
      ∧ (∀ (id : TypeId) (owner : ObjectType) (field : Field TypeId), id ∈ ids →
          g.get? id = some (.object owner) → field ∈ owner.fields →
          ∃ line, g.WrittenAs ids blocks field line)
      ∧ (∀ (field field' : Field TypeId) (line line' : MessageField),
          g.WrittenAs ids blocks field line → g.WrittenAs ids blocks field' line' →
          line.base.token = line'.base.token →
          field.type.target = field'.type.target
            ∨ g.Shadows field.type.target field'.type.target
            ∨ g.Shadows field'.type.target field.type.target)
      ∧ ∀ (field : Field TypeId) (line : MessageField) (p : Primitive),
          g.WrittenAs ids blocks field line → line.base.token = p.name →
          (∃ kind, g.get? field.type.target = some (.scalar kind) ∧ kind.primitive? = some p)
            ∨ ∃ object, g.get? field.type.target = some (.object object) ∧ object.name = p.name := by
  obtain ⟨built, -⟩ := graph_loaded loaded
  have dotless := dotless_of_graph named loaded
  obtain ⟨ids, blocks, walked, -, made, written⟩ := Graph.emission_of_translate built done
  have stand := Graph.blocksOf_of_blocks made
  refine ⟨ids, blocks, walked, made, written, ?_, ?_, ?_⟩
  · intro id owner field emitted there inside
    exact Graph.exists_line stand emitted there inside
  · intro field field' line line' one other same
    exact Graph.eq_or_shadows built dotless (one.denotes stand) (other.denotes stand) same
  · intro field line p one same
    exact Graph.scalar_or_object_of_token (one.denotes stand) same

/-- A field of the scalar `String` beside one of an object `string`. -/
def lookalikeText : String :=
  "type Query \x7b name: String, tag: string \x7d\ntype string \x7b length: Int \x7d"

/-- The definitions of `lookalikeText`. -/
def lookalike : Document :=
  [ .type (.object "Query" [⟨"name", .named "String"⟩, ⟨"tag", .named "string"⟩]),
    .type (.object "string" [⟨"length", .named "Int"⟩]) ]

/-- The graph of `lookalike`. -/
def lookalikeGraph : Graph :=
  ⟨#[.object ⟨"Query", [⟨"name", .named 2⟩, ⟨"tag", .named 1⟩]⟩,
      .object ⟨"string", [⟨"length", .named 3⟩]⟩, .scalar .string, .scalar .int],
    [("Int", 3), ("String", 2), ("string", 1), ("Query", 0)], 0⟩

theorem lookalike_loads : lookalike.graph = .ok lookalikeGraph := by decide +kernel

theorem lookalike_translates :
    ∃ blocks text, lookalikeGraph.emissionList = .ok [0, 1]
      ∧ (lookalikeGraph.blocks [0, 1]).result = .ok blocks
      ∧ (lookalikeGraph.translate {}).result = .ok text
      ∧ blocks[0]? = some (.message "Query"
          [⟨false, .primitive .string, "name"⟩, ⟨false, .message "string", "tag"⟩]) := by
  have walked : lookalikeGraph.emissionList = .ok [0, 1] := by decide +kernel
  have made : (lookalikeGraph.blocks [0, 1]).result = .ok
      [ .message "Query" [⟨false, .primitive .string, "name"⟩, ⟨false, .message "string", "tag"⟩],
        .message "string" [⟨false, .primitive .int32, "length"⟩] ] := by decide +kernel
  obtain ⟨text, done⟩ := (Graph.translate_ok_of_walk walked {}).2 ⟨_, made⟩
  exact ⟨_, text, walked, made, done, rfl⟩

/-- The word `string` stands for the scalar in one line, and for a message in the next. -/
theorem lookalike_ambiguous :
    Document.ofString lookalikeText = .ok lookalike ∧ lookalikeGraph.WellNamed
      ∧ lookalike.graph = .ok lookalikeGraph
      ∧ ∃ ids blocks text, lookalikeGraph.emissionList = .ok ids
      ∧ (lookalikeGraph.blocks ids).result = .ok blocks
      ∧ (lookalikeGraph.translate {}).result = .ok text
      ∧ ∃ field field' line line', lookalikeGraph.WrittenAs ids blocks field line
      ∧ lookalikeGraph.WrittenAs ids blocks field' line'
      ∧ line.base.token = "string" ∧ line'.base.token = "string"
      ∧ lookalikeGraph.get? field.type.target = some (.scalar .string)
      ∧ lookalikeGraph.get? field'.type.target
          = some (.object ⟨"string", [⟨"length", .named 3⟩]⟩) := by
  obtain ⟨blocks, text, walked, made, done, first⟩ := lookalike_translates
  refine ⟨by decide +kernel, by decide +kernel, lookalike_loads, [0, 1], blocks, text, walked, made, done, ?_⟩
  refine ⟨⟨"name", .named 2⟩, ⟨"tag", .named 1⟩, ⟨false, .primitive .string, "name"⟩,
    ⟨false, .message "string", "tag"⟩, ?_, ?_, rfl, rfl, rfl, rfl⟩
  · exact .line (i := 0) (k := 0) rfl rfl rfl first rfl
  · exact .line (i := 0) (k := 1) rfl rfl rfl first rfl

theorem lookalike_tokens : lookalike.TypesNamed ∧ lookalike.graph = .ok lookalikeGraph
    ∧ ∃ text blocks, (lookalikeGraph.translate {}).result = .ok text
      ∧ (lookalikeGraph.blocks [0, 1]).result = .ok blocks
      ∧ (∀ (field field' : Field TypeId) (line line' : MessageField),
          lookalikeGraph.WrittenAs [0, 1] blocks field line →
          lookalikeGraph.WrittenAs [0, 1] blocks field' line' →
          line.base.token = line'.base.token →
          field.type.target = field'.type.target
            ∨ lookalikeGraph.Shadows field.type.target field'.type.target
            ∨ lookalikeGraph.Shadows field'.type.target field.type.target)
      ∧ ∀ (field : Field TypeId) (line : MessageField) (p : Primitive),
          lookalikeGraph.WrittenAs [0, 1] blocks field line → line.base.token = p.name →
          (∃ kind, lookalikeGraph.get? field.type.target = some (.scalar kind)
              ∧ kind.primitive? = some p)
            ∨ ∃ object, lookalikeGraph.get? field.type.target = some (.object object)
              ∧ object.name = p.name := by
  have named : lookalike.TypesNamed := by decide +kernel
  obtain ⟨-, text, walked, -, done, -⟩ := lookalike_translates
  obtain ⟨ids, blocks, walked', made, -, -, pairs, primitives⟩ :=
    tokens_tell named lookalike_loads done
  rw [walked] at walked'
  cases walked'
  exact ⟨named, lookalike_loads, text, blocks, done, made, pairs, primitives⟩

end Sdl.Document

end Protograph
