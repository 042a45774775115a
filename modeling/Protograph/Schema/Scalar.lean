/-! # Scalar kinds — the well-known GraphQL scalars and the declared ones

    Eleven names stand for a known kind; any other name is a scalar of the
    schema's own.  `ofName` reads a name as a kind and `name` gives it back. -/

namespace Protograph

/-- Kind of a scalar type. -/
inductive ScalarKind where
  | string
  | boolean
  | float
  | int
  /-- A 64-bit integer. -/
  | long
  | short
  | byte
  | id
  | bigInteger
  | bigDecimal
  | char
  /-- A scalar that the schema declares for itself. -/
  | custom (name : String)
  deriving DecidableEq, Repr

namespace ScalarKind

/-- The name of a scalar of this kind. -/
def name : ScalarKind → String
  | .string => "String"
  | .boolean => "Boolean"
  | .float => "Float"
  | .int => "Int"
  | .long => "Long"
  | .short => "Short"
  | .byte => "Byte"
  | .id => "ID"
  | .bigInteger => "BigInteger"
  | .bigDecimal => "BigDecimal"
  | .char => "Char"
  | .custom name => name

/-- The kinds that have a name of their own. -/
def wellKnown : List ScalarKind :=
  [ .string, .boolean, .float, .int, .long, .short, .byte, .id, .bigInteger, .bigDecimal, .char ]

/-- The kind that a scalar's name stands for. -/
def ofName (name : String) : ScalarKind :=
  (wellKnown.find? fun kind => kind.name == name).getD (.custom name)

/-- Scalars that every schema has without declaring them. -/
def builtinNames : List String := ["String", "Boolean", "Float", "Int", "ID"]

/-- A kind read from a name has that name. -/
@[simp] theorem name_ofName (n : String) : (ofName n).name = n := by
  unfold ofName
  cases found : wellKnown.find? fun kind => kind.name == n with
  | none => rfl
  | some kind =>
      have same := List.find?_some found
      exact eq_of_beq same

end ScalarKind

end Protograph
