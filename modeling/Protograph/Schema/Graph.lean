import Protograph.Schema.TypeRef
import Protograph.Schema.Scalar

/-! # Schema graphs — an arena of named types with a query root

    Types stand in one array and refer to each other by position, so shared
    and cyclic references are plain data.  A graph also carries an index from
    names to positions and the position of its root query type.

    Nothing in the type forces the index to agree with the array or a field to
    point inside it: `Builder` is what keeps them so. -/

namespace Protograph

/-- A field: its name and the type it refers to. -/
structure Field (α : Type) where
  name : String
  type : TypeRef α
  deriving DecidableEq, Repr

/-- Replace the target of a field's type. -/
def Field.map {α β : Type} (f : α → β) (field : Field α) : Field β :=
  ⟨field.name, field.type.map f⟩

/-- An object type, with its fields in declaration order. -/
structure ObjectType where
  name : String
  fields : List (Field TypeId)
  deriving DecidableEq, Repr

/-- An enum type, with its values in declaration order. -/
structure EnumType where
  name : String
  values : List String
  deriving DecidableEq, Repr

/-- A type of the schema.  Of interfaces, unions and input objects only the
    name is kept: a message can not hold them. -/
inductive TypeNode where
  | scalar (kind : ScalarKind)
  | object (object : ObjectType)
  | enum (enum : EnumType)
  | interface (name : String)
  | union (name : String)
  | inputObject (name : String)
  deriving DecidableEq, Repr

namespace TypeNode

/-- The name a type goes by. -/
def name : TypeNode → String
  | .scalar kind => kind.name
  | .object o => o.name
  | .enum e => e.name
  | .interface n => n
  | .union n => n
  | .inputObject n => n

/-- What sort of type this is, in words. -/
def variant : TypeNode → String
  | .scalar _ => "scalar"
  | .object _ => "object"
  | .enum _ => "enum"
  | .interface _ => "interface"
  | .union _ => "union"
  | .inputObject _ => "input object"

/-- The object type of a node, if it is one. -/
def object? : TypeNode → Option ObjectType
  | .object o => some o
  | _ => none

/-- The enum type of a node, if it is one. -/
def enum? : TypeNode → Option EnumType
  | .enum e => some e
  | _ => none

/-- Objects and enums are written as blocks of their own. -/
def isEmittable : TypeNode → Bool
  | .object _ => true
  | .enum _ => true
  | _ => false

end TypeNode

/-- A type system rooted at a query type. -/
structure Graph where
  types : Array TypeNode
  names : List (String × TypeId)
  root : TypeId
  deriving DecidableEq, Repr

namespace Graph

/-- The type at an id, if the id lies within the schema. -/
def get? (g : Graph) (id : TypeId) : Option TypeNode := g.types[id]?

/-- The object at an id, if there is one. -/
def object? (g : Graph) (id : TypeId) : Option ObjectType :=
  (g.get? id).bind TypeNode.object?

/-- The enum at an id, if there is one. -/
def enum? (g : Graph) (id : TypeId) : Option EnumType :=
  (g.get? id).bind TypeNode.enum?

/-- The id of the type of that name. -/
def lookup (g : Graph) (name : String) : Option TypeId := g.names.lookup name

/-- Number of types, reachable or not. -/
def size (g : Graph) : Nat := g.types.size

/-- Name of the root query type; empty when the root is missing. -/
def rootName (g : Graph) : String :=
  match g.get? g.root with
  | some node => node.name
  | none => ""

theorem rootName_of_get {g : Graph} {node : TypeNode} (there : g.get? g.root = some node) :
    g.rootName = node.name := by
  rw [rootName, there]

/-- An id is valid exactly when it is below the number of types. -/
theorem get?_isSome_iff (g : Graph) (id : TypeId) :
    (g.get? id).isSome ↔ id < g.size := by
  simp [get?, size]

end Graph

end Protograph
