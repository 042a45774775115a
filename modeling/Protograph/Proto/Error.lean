import Protograph.Schema.TypeRef

/-! # Document errors — why a schema has no document

    Two errors say that a field can not be expressed; all others are faults
    of the graph itself. -/

namespace Protograph

/-- Targets that a message field can not hold. -/
inductive Inexpressible where
  | nestedList
  | interface
  | union
  | inputObject
  deriving DecidableEq, Repr

/-- The words for each. -/
def Inexpressible.label : Inexpressible → String
  | .nestedList => "nested list"
  | .interface => "interface"
  | .union => "union"
  | .inputObject => "input object"

/-- What can be wrong with a graph. -/
inductive GraphFault where
  | rootMissing (root : TypeId)
  | rootNotObject (name : String)
  | rootUnnamed
  | danglingField (owner field : String) (target : TypeId)
  | repeatedField (field owner : String)
  | repeatedValue (value enum : String)
  | notABlock (variant name : String)
  | missingType (id : TypeId)
  deriving DecidableEq, Repr

/-- The wording of each fault. -/
def GraphFault.message : GraphFault → String
  | .rootMissing root => "root type " ++ root.label ++ " is missing"
  | .rootNotObject name => "root type '" ++ name ++ "' is not an object type"
  | .rootUnnamed => "root type has no name"
  | .danglingField owner field target =>
      "field '" ++ owner ++ "." ++ field ++ "' references missing type " ++ target.label
  | .repeatedField field owner =>
      "field '" ++ field ++ "' is declared more than once in '" ++ owner ++ "'"
  | .repeatedValue value enum =>
      "value '" ++ value ++ "' is declared more than once in enum '" ++ enum ++ "'"
  | .notABlock variant name => variant ++ " '" ++ name ++ "' cannot be emitted as a message"
  | .missingType id => "type " ++ id.label ++ " is missing from the schema"

/-- Why a schema has no document. -/
inductive TranslateError where
  | unmappedScalar (owner field kind : String)
  | unsupportedType (owner field : String) (reason : Inexpressible)
  | invalidGraph (fault : GraphFault)
  deriving DecidableEq, Repr

/-- The wording of each error. -/
def TranslateError.message : TranslateError → String
  | .unmappedScalar owner field kind =>
      "Field '" ++ owner ++ "." ++ field ++ "' uses scalar '" ++ kind
        ++ "', which has no protobuf mapping"
  | .unsupportedType owner field reason =>
      "Field '" ++ owner ++ "." ++ field ++ "' references unsupported type: " ++ reason.label
  | .invalidGraph fault => "Invalid schema graph: " ++ fault.message

end Protograph
