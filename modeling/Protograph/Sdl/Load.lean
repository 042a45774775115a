import Protograph.Sdl.Parser
import Protograph.Schema.Builder
import Protograph.Trace

/-! # Loading — from definitions to a schema

    Definitions come in any order, so a document is gone through three times:
    every type is declared, then the objects get their fields, then the
    extensions are applied in document order.  Fields and values that an
    extension adds come after those that are there.  The five built-in scalars
    are declared when a field first refers to one. -/

namespace Protograph

open Sdl

namespace Builder

/-- Declare the type of a definition. -/
def declareType (b : Builder) : TypeDefinition → Except SchemaError Builder
  | .scalar n => (b.scalar (.ofName n)).map (·.2)
  | .object n _ => (b.object n).map (·.2)
  | .interface n => (b.interface n).map (·.2)
  | .union n => (b.union n).map (·.2)
  | .enum n values => (b.enumeration n values).map (·.2)
  | .inputObject n => (b.inputObject n).map (·.2)

/-- The type of that name; a built-in scalar is declared if it has to be. -/
def resolve (b : Builder) (name : String) : Except SchemaError (TypeId × Builder) :=
  match b.lookup name with
  | some id => .ok (id, b)
  | none =>
      if ScalarKind.builtinNames.contains name then b.scalar (.ofName name)
      else .error (.unknownType name)

/-- Append a field as it is written: its type is resolved first. -/
def attachField (owner : TypeId) (b : Builder) (field : Field String) :
    Except SchemaError Builder :=
  match b.resolve field.type.target with
  | .ok (id, b') => b'.field owner field.name (field.type.map fun _ => id)
  | .error e => .error e

/-- Append fields to the type of that name. -/
def attachFields (b : Builder) (owner : String) (fields : List (Field String)) :
    Except SchemaError Builder :=
  match b.lookup owner with
  | some id => fields.foldlM (attachField id) b
  | none => .error (.unknownType owner)

/-- Append values to the type of that name. -/
def attachValues (b : Builder) (owner : String) (values : List String) :
    Except SchemaError Builder :=
  match b.lookup owner with
  | some id => values.foldlM (fun b v => b.value id v) b
  | none => .error (.unknownType owner)

/-- Give an object the fields of its definition. -/
def fillType (b : Builder) : TypeDefinition → Except SchemaError Builder
  | .object n fields => b.attachFields n fields
  | _ => .ok b

/-- Apply an extension.  Of types that keep only their name nothing but the
    name is looked at. -/
def extendType (b : Builder) : TypeDefinition → Except SchemaError Builder
  | .object n fields => b.attachFields n fields
  | .enum n values => b.attachValues n values
  | other =>
      match b.lookup other.name with
      | some _ => .ok b
      | none => .error (.unknownType other.name)

end Builder

/-- The builder that the definitions of a document lead to. -/
def Sdl.Document.builder (d : Document) : Except SchemaError Builder := do
  let declared ← d.types.foldlM Builder.declareType {}
  let filled ← d.types.foldlM Builder.fillType declared
  d.extensions.foldlM Builder.extendType filled

/-- The schema that a document defines. -/
def Sdl.Document.graph (d : Document) : Except SchemaError Graph := do
  let b ← d.builder
  match b.lookup d.queryName with
  | some root => b.build root
  | none => .error .missingRoot

/-- The schema that a text defines. -/
def Graph.ofSdl (text : String) : Traced SchemaError Graph := do
  let d ← Traced.ofExcept ((Document.ofString text).mapError .parse)
  let g ← Traced.ofExcept d.graph
  Traced.report (.graphBuilt g.size g.rootName)
  return g

end Protograph
