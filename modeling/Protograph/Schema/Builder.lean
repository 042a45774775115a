import Protograph.Schema.Graph
import Protograph.Schema.Error

/-! # Builders — schemas under construction

    Types are declared first and filled in afterwards, so a field may point
    at a type declared later, at its owner, or around a cycle.  Every
    operation either returns the grown builder or says why it refuses; a
    refused operation has no builder to return, so nothing is half done.

    Names are unique: declaring a name that is taken fails, except that a
    scalar asked for again is the scalar already there. -/

namespace Protograph

/-- A schema under construction. -/
structure Builder where
  types : Array TypeNode := #[]
  names : List (String × TypeId) := []
  deriving DecidableEq, Repr

namespace Builder

/-- The id of the type of that name. -/
def lookup (b : Builder) (name : String) : Option TypeId := b.names.lookup name

/-- Add a type under its name, unless the name is taken. -/
def declare (b : Builder) (node : TypeNode) : Except SchemaError (TypeId × Builder) :=
  match b.lookup node.name with
  | some _ => .error (.duplicateType node.name)
  | none =>
      .ok (b.types.size,
        { types := b.types.push node, names := (node.name, b.types.size) :: b.names })

/-- Declare an object type with no fields. -/
def object (b : Builder) (name : String) : Except SchemaError (TypeId × Builder) :=
  b.declare (.object ⟨name, []⟩)

/-- Declare an enum type with the given values, in order. -/
def enumeration (b : Builder) (name : String) (values : List String) :
    Except SchemaError (TypeId × Builder) :=
  b.declare (.enum ⟨name, values⟩)

/-- Declare an interface. -/
def interface (b : Builder) (name : String) : Except SchemaError (TypeId × Builder) :=
  b.declare (.interface name)

/-- Declare a union. -/
def union (b : Builder) (name : String) : Except SchemaError (TypeId × Builder) :=
  b.declare (.union name)

/-- Declare an input object. -/
def inputObject (b : Builder) (name : String) : Except SchemaError (TypeId × Builder) :=
  b.declare (.inputObject name)

/-- The scalar of the kind's name, declared if the name is free. -/
def scalar (b : Builder) (kind : ScalarKind) : Except SchemaError (TypeId × Builder) :=
  match b.lookup kind.name with
  | some id =>
      match b.types[id]? with
      | some (.scalar _) => .ok (id, b)
      | _ => .error (.duplicateType kind.name)
  | none => b.declare (.scalar kind)

/-- Append a field to an object type.  The target is checked first, then the
    owner; field names may repeat. -/
def field (b : Builder) (owner : TypeId) (name : String) (type : TypeRef TypeId) :
    Except SchemaError Builder :=
  if type.target < b.types.size then
    match b.types[owner]? with
    | some (.object o) =>
        let grown : ObjectType := { o with fields := o.fields ++ [⟨name, type⟩] }
        .ok { b with types := b.types.modify owner fun _ => .object grown }
    | some other => .error (.notAnObject other.name)
    | none => .error (.unknownTypeId owner)
  else .error (.unknownTypeId type.target)

/-- Append a value to an enum type. -/
def value (b : Builder) (owner : TypeId) (name : String) : Except SchemaError Builder :=
  match b.types[owner]? with
  | some (.enum e) =>
      let grown : EnumType := { e with values := e.values ++ [name] }
      .ok { b with types := b.types.modify owner fun _ => .enum grown }
  | some other => .error (.notAnEnum other.name)
  | none => .error (.unknownTypeId owner)

/-- Finish the schema with `root` as its query type. -/
def build (b : Builder) (root : TypeId) : Except SchemaError Graph :=
  match b.types[root]? with
  | some (.object _) => .ok ⟨b.types, b.names, root⟩
  | some other => .error (.invalidRoot other.name)
  | none => .error (.unknownTypeId root)

end Builder

end Protograph
