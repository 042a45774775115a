import Protograph.Schema.Graph

/-! # Schema documents — the definitions of a GraphQL schema text

    Of a definition only what a graph is made of is kept: names, fields with
    their written types, enum values, and the query type that a schema
    definition names.  An extension has the shape of the definition it adds
    to. -/

namespace Protograph.Sdl

/-- A type as it is defined, or what an extension adds to it. -/
inductive TypeDefinition where
  | scalar (name : String)
  | object (name : String) (fields : List (Field String))
  | interface (name : String)
  | union (name : String)
  | enum (name : String) (values : List String)
  | inputObject (name : String)
  deriving DecidableEq, Repr

/-- The name that is defined or extended. -/
def TypeDefinition.name : TypeDefinition → String
  | .scalar n => n
  | .object n _ => n
  | .interface n => n
  | .union n => n
  | .enum n _ => n
  | .inputObject n => n

/-- A definition of a schema text. -/
inductive Definition where
  /-- A schema definition, with the query type it names, if it names one. -/
  | schema (query : Option String)
  | type (defined : TypeDefinition)
  | extend (added : TypeDefinition)
  | directive (name : String)
  deriving DecidableEq, Repr

/-- The definitions of a text, in order. -/
abbrev Document := List Definition

namespace Document

/-- The type definitions, in order. -/
def types (d : Document) : List TypeDefinition :=
  d.filterMap fun
    | .type t => some t
    | _ => none

/-- The extensions, in order. -/
def extensions (d : Document) : List TypeDefinition :=
  d.filterMap fun
    | .extend t => some t
    | _ => none

/-- The query types that schema definitions name, in order. -/
def queries (d : Document) : List String :=
  d.filterMap fun
    | .schema query => query
    | _ => none

/-- The query type: what the last schema definition with one names. -/
def queryName (d : Document) : String := d.queries.getLast?.getD "Query"

end Document

end Protograph.Sdl
