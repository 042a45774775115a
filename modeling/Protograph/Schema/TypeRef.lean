/-! # Type references — a named target under list and non-null modifiers

    A field of a GraphQL type refers to another type, possibly wrapped in
    lists and non-null marks.  What stands at the bottom depends on the
    stage: a written document refers by name, a finished graph by id.  Both
    are `TypeRef`, so resolving a document is a change of targets that keeps
    every modifier. -/

namespace Protograph

/-- The id of a type is its position among the types of its schema. -/
abbrev TypeId := Nat

/-- An id is shown as its number behind a hash sign. -/
def TypeId.label (id : TypeId) : String := "#" ++ toString id

/-- Reference to a type, with its list and non-null modifiers. -/
inductive TypeRef (α : Type) where
  | named (target : α)
  | nonNull (inner : TypeRef α)
  | list (inner : TypeRef α)
  deriving DecidableEq, Repr

namespace TypeRef

variable {α β : Type}

/-- The innermost target, with every modifier stripped. -/
def target : TypeRef α → α
  | .named t => t
  | .nonNull inner => inner.target
  | .list inner => inner.target

/-- Number of list modifiers around the target. -/
def listDepth : TypeRef α → Nat
  | .named _ => 0
  | .nonNull inner => inner.listDepth
  | .list inner => inner.listDepth + 1

/-- Replace the target and keep the modifiers. -/
def map (f : α → β) : TypeRef α → TypeRef β
  | .named t => .named (f t)
  | .nonNull inner => .nonNull (inner.map f)
  | .list inner => .list (inner.map f)

/-- The reference without its non-null marks. -/
def nullable : TypeRef α → TypeRef α
  | .named t => .named t
  | .nonNull inner => inner.nullable
  | .list inner => .list inner.nullable

/-- Written form: brackets for a list, an exclamation mark for non-null. -/
def text (showTarget : α → String) : TypeRef α → String
  | .named t => showTarget t
  | .nonNull inner => inner.text showTarget ++ "!"
  | .list inner => "[" ++ inner.text showTarget ++ "]"

/-! ## Changing the target keeps the shape -/

@[simp] theorem target_map (f : α → β) (t : TypeRef α) :
    (t.map f).target = f t.target := by
  induction t with
  | named t => rfl
  | nonNull inner ih => exact ih
  | list inner ih => exact ih

@[simp] theorem listDepth_map (f : α → β) (t : TypeRef α) :
    (t.map f).listDepth = t.listDepth := by
  induction t with
  | named t => rfl
  | nonNull inner ih => exact ih
  | list inner ih => simp [map, listDepth, ih]

@[simp] theorem target_nullable (t : TypeRef α) : t.nullable.target = t.target := by
  induction t with
  | named t => rfl
  | nonNull inner ih => exact ih
  | list inner ih => exact ih

@[simp] theorem listDepth_nullable (t : TypeRef α) :
    t.nullable.listDepth = t.listDepth := by
  induction t with
  | named t => rfl
  | nonNull inner ih => exact ih
  | list inner ih => simp [nullable, listDepth, ih]

end TypeRef

end Protograph
