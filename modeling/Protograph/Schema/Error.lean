import Protograph.Schema.TypeRef
import Protograph.Text.Position

/-! # Schema errors — what can be wrong with a schema or its text -/

namespace Protograph

/-- Why a schema can not be loaded or built. -/
inductive SchemaError where
  /-- The text is no schema; the place is where reading stopped. -/
  | parse (place : Position)
  | duplicateType (name : String)
  | unknownType (name : String)
  | unknownTypeId (id : TypeId)
  | notAnObject (name : String)
  | notAnEnum (name : String)
  | invalidRoot (name : String)
  | missingRoot
  deriving DecidableEq, Repr

/-- The wording of each error. -/
def SchemaError.message : SchemaError → String
  | .parse p => "SDL parsing error: schema parse error: Parse error at " ++ p.label
  | .duplicateType n => "Type '" ++ n ++ "' is declared more than once"
  | .unknownType n => "Unknown type '" ++ n ++ "'"
  | .unknownTypeId id => "Type id " ++ toString id ++ " does not belong to this schema"
  | .notAnObject n => "Type '" ++ n ++ "' is not an object type"
  | .notAnEnum n => "Type '" ++ n ++ "' is not an enum type"
  | .invalidRoot n => "Root query type '" ++ n ++ "' must be a named object type"
  | .missingRoot => "Schema does not define a root query type"

end Protograph
