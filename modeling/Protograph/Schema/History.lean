import Protograph.Schema.Builder

/-! # Histories — a builder as the sequence of calls made on it

    A `Call` is one request to a builder.  Running a call answers it and
    moves on to the next builder; a refused call leaves the builder alone.
    A history is a list of calls, and `Builder.run` the builder it leads to. -/

namespace Protograph

/-- A request to a builder. -/
inductive Call where
  | object (name : String)
  | enumeration (name : String) (values : List String)
  | scalar (kind : ScalarKind)
  | interface (name : String)
  | union (name : String)
  | inputObject (name : String)
  | field (owner : TypeId) (name : String) (type : TypeRef TypeId)
  | value (owner : TypeId) (name : String)
  deriving DecidableEq, Repr

/-- What a builder answers when it grants a call. -/
inductive Reply where
  /-- The id of the type asked for. -/
  | declared (id : TypeId)
  /-- The field or value has been added. -/
  | added
  deriving DecidableEq, Repr

namespace Builder

/-- Make one call: the reply and the next builder, or the refusal. -/
def call (b : Builder) : Call → Except SchemaError (Reply × Builder)
  | .object name => (b.object name).map fun r => (.declared r.1, r.2)
  | .enumeration name values => (b.enumeration name values).map fun r => (.declared r.1, r.2)
  | .scalar kind => (b.scalar kind).map fun r => (.declared r.1, r.2)
  | .interface name => (b.interface name).map fun r => (.declared r.1, r.2)
  | .union name => (b.union name).map fun r => (.declared r.1, r.2)
  | .inputObject name => (b.inputObject name).map fun r => (.declared r.1, r.2)
  | .field owner name type => (b.field owner name type).map fun b' => (.added, b')
  | .value owner name => (b.value owner name).map fun b' => (.added, b')

/-- The answer to a call. -/
def answer (b : Builder) (c : Call) : Except SchemaError Reply := (b.call c).map (·.1)

/-- The builder after a call; the same one if the call is refused. -/
def step (b : Builder) (c : Call) : Builder :=
  match b.call c with
  | .ok (_, b') => b'
  | .error _ => b

/-- The builder at the end of a history. -/
def run (b : Builder) (history : List Call) : Builder := history.foldl step b

@[simp] theorem run_nil (b : Builder) : b.run [] = b := rfl

@[simp] theorem run_cons (b : Builder) (c : Call) (cs : List Call) :
    b.run (c :: cs) = (b.step c).run cs := rfl

theorem run_append (b : Builder) (cs ds : List Call) :
    b.run (cs ++ ds) = (b.run cs).run ds := by
  simp [run]

end Builder

end Protograph
