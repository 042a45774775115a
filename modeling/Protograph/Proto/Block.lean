import Protograph.Schema.Graph
import Protograph.Proto.Error
import Protograph.Trace

/-! # Blocks — one `message` for each object and each enum

    A block is what will be written, before it is text: for an object the
    typed fields, for an enum the values.  Numbers are positions, from one for
    fields and from zero for values, and appear only when the block is
    written.  `Graph.message` and `EnumType.block` decide whether there is a
    block at all, `Block.render` writes it. -/

namespace Protograph

/-- Scalar types that a message field can hold. -/
inductive Primitive where
  | string
  | bool
  | float
  | int32
  | int64
  deriving DecidableEq, Repr

/-- The name of a primitive. -/
def Primitive.name : Primitive → String
  | .string => "string"
  | .bool => "bool"
  | .float => "float"
  | .int32 => "int32"
  | .int64 => "int64"

/-- The primitive that holds a scalar, if any does. -/
def ScalarKind.primitive? : ScalarKind → Option Primitive
  | .string => some .string
  | .boolean => some .bool
  | .float => some .float
  | .int => some .int32
  | .long => some .int64
  | _ => none

/-- What a field holds, one or many of. -/
inductive BaseType where
  | primitive (p : Primitive)
  | message (name : String)
  | enum (name : String)
  deriving DecidableEq, Repr

/-- The word for a base type; an enum is the one inside its wrapper. -/
def BaseType.token : BaseType → String
  | .primitive p => p.name
  | .message name => name
  | .enum name => name ++ ".Enum"

/-- A field of a message. -/
structure MessageField where
  repeated : Bool
  base : BaseType
  name : String
  deriving DecidableEq, Repr

/-- A block of the document. -/
inductive Block where
  | message (name : String) (fields : List MessageField)
  | enumWrapper (name : String) (values : List String)
  deriving DecidableEq, Repr

/-! ## From types to blocks -/

/-- The base type for a target. -/
def Graph.baseType (g : Graph) (owner : String) (field : Field TypeId) :
    Except TranslateError BaseType :=
  match g.get? field.type.target with
  | some (.scalar kind) =>
      match kind.primitive? with
      | some p => .ok (.primitive p)
      | none => .error (.unmappedScalar owner field.name kind.name)
  | some (.enum e) => .ok (.enum e.name)
  | some (.object o) => .ok (.message o.name)
  | some (.interface _) => .error (.unsupportedType owner field.name .interface)
  | some (.union _) => .error (.unsupportedType owner field.name .union)
  | some (.inputObject _) => .error (.unsupportedType owner field.name .inputObject)
  | none => .error (.invalidGraph (.danglingField owner field.name field.type.target))

/-- The message field for a field of an object: one list at most. -/
def Graph.messageField (g : Graph) (owner : String) (field : Field TypeId) :
    Except TranslateError MessageField :=
  if field.type.listDepth > 1 then
    .error (.unsupportedType owner field.name .nestedList)
  else
    (g.baseType owner field).map fun base => ⟨field.type.listDepth == 1, base, field.name⟩

/-- The message fields for the fields of an object, in order.  A name among
    `seen` has been used by an earlier field. -/
def Graph.messageFields (g : Graph) (owner : String) :
    List String → List (Field TypeId) → Except TranslateError (List MessageField)
  | _, [] => .ok []
  | seen, field :: fields =>
      if seen.contains field.name then
        .error (.invalidGraph (.repeatedField field.name owner))
      else do
        let first ← g.messageField owner field
        let rest ← g.messageFields owner (field.name :: seen) fields
        return first :: rest

/-- The block for an object. -/
def Graph.message (g : Graph) (o : ObjectType) : Except TranslateError Block :=
  (g.messageFields o.name [] o.fields).map (.message o.name)

/-- The first entry that occurs among `seen` or before itself. -/
def firstRepeat : List String → List String → Option String
  | _, [] => none
  | seen, v :: vs => if seen.contains v then some v else firstRepeat (v :: seen) vs

/-- The block for an enum. -/
def EnumType.block (e : EnumType) : Except TranslateError Block :=
  match firstRepeat [] e.values with
  | some v => .error (.invalidGraph (.repeatedValue v e.name))
  | none => .ok (.enumWrapper e.name e.values)

/-- The block for the type at an id. -/
def Graph.block (g : Graph) (id : TypeId) : Except TranslateError Block :=
  match g.get? id with
  | some (.object o) => g.message o
  | some (.enum e) => e.block
  | some other => .error (.invalidGraph (.notABlock other.variant other.name))
  | none => .error (.invalidGraph (.missingType id))

/-! ## From blocks to text -/

namespace MessageField

/-- The type as it is written: the word for many, if it is many, and the base. -/
def typeText (f : MessageField) : String :=
  if f.repeated then "repeated " ++ f.base.token else f.base.token

/-- The line of a field. -/
def line (f : MessageField) (number : Nat) : String :=
  f.typeText ++ " " ++ f.name ++ " = " ++ toString number ++ ";"

end MessageField

namespace Block

/-- The name of a block is the name of its type. -/
def name : Block → String
  | .message name _ => name
  | .enumWrapper name _ => name

/-- The line that a block begins with. -/
def opening (name : String) : String := "message " ++ name ++ " \x7b"

/-- The option that identifies a message. -/
def idOption (idPrefix name : String) : String :=
  "option (jspb.message_id) = \"" ++ idPrefix ++ "." ++ name ++ "\";"

/-- The line of an enum value. -/
def valueLine (value : String) (ordinal : Nat) : String :=
  value ++ " = " ++ toString ordinal ++ ";"

/-- The lines of a block.  In an enum wrapper the option and the enum's first
    line are indented by one space. -/
def lines (idPrefix : String) : Block → List String
  | .message name fields =>
      opening name :: idOption idPrefix name
        :: ((fields.zipIdx 1).map fun (f, number) => f.line number) ++ ["\x7d"]
  | .enumWrapper name values =>
      opening name :: (" " ++ idOption idPrefix name) :: " enum Enum \x7b"
        :: (values.zipIdx.map fun (v, ordinal) => valueLine v ordinal) ++ ["\x7d", "\x7d"]

/-- The text of a block. -/
def render (idPrefix : String) (b : Block) : String := "\n".intercalate (b.lines idPrefix)

/-- The event that reports a block. -/
def event : Block → Event
  | .message name fields => .messageReady name fields.length
  | .enumWrapper name values => .enumReady name values.length

end Block

end Protograph
