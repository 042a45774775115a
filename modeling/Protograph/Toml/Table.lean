/-! # TOML tables — what a configuration says, and what it may say twice

    A table maps keys to items.  How a table came to be decides who may add to
    it: one opened by its own header is complete but for deeper headers, one
    implied by a longer header may still get a header of its own, one made by
    dotted keys grows by dotted keys only.  Of an array of tables only the
    latest element can still grow, so that is what is kept.

    Of values other than strings nothing but their being there is kept. -/

namespace Protograph.Toml

/-- How a table came to be. -/
inductive Origin where
  /-- By a header that names it. -/
  | header
  /-- By a longer header that goes through it. -/
  | implied
  /-- By a dotted key that goes through it. -/
  | dotted
  deriving DecidableEq, Repr

/-- What a key can stand for. -/
inductive Item where
  | string (text : String)
  /-- A number, a truth value, a date, an array or an inline table. -/
  | other
  | table (origin : Origin) (entries : List (String × Item))
  /-- An array of tables, by the entries of its latest element. -/
  | tables (latest : List (String × Item))

/-- Keys and what they stand for. -/
abbrev Table := List (String × Item)

namespace Table

/-- Let a key stand for an item, in place of what it stood for. -/
def put (t : Table) (key : String) (item : Item) : Table :=
  (key, item) :: t.filter fun entry => entry.1 != key

/-- Change the table that a header path leads to.  Tables missing on the way
    are implied; through an array of tables the way goes by the latest element. -/
def changeAt (change : Table → Option Table) : List String → Table → Option Table
  | [], t => change t
  | key :: path, t =>
      match t.lookup key with
      | none => (changeAt change path []).map fun inner => t.put key (.table .implied inner)
      | some (.table origin inner) =>
          (changeAt change path inner).map fun inner => t.put key (.table origin inner)
      | some (.tables latest) =>
          (changeAt change path latest).map fun latest => t.put key (.tables latest)
      | some _ => none

/-- A header names a table: a new one, or one that was only implied. -/
def openTable (key : String) (t : Table) : Option Table :=
  match t.lookup key with
  | none => some (t.put key (.table .header []))
  | some (.table .implied inner) => some (t.put key (.table .header inner))
  | some _ => none

/-- A header names a new element of an array of tables. -/
def openElement (key : String) (t : Table) : Option Table :=
  match t.lookup key with
  | none => some (t.put key (.tables []))
  | some (.tables _) => some (t.put key (.tables []))
  | some _ => none

/-- Let a key that stands for nothing yet stand for an item. -/
def insertNew (key : String) (item : Item) (t : Table) : Option Table :=
  match t.lookup key with
  | none => some (t.put key item)
  | some _ => none

/-- Insert at the end of a dotted key.  The table that gets the item has to be
    made by dotted keys, and no table on the way may have its own header. -/
def insertDotted (key : String) (item : Item) : List String → Table → Option Table
  | [], t => insertNew key item t
  | [parent], t =>
      match t.lookup parent with
      | none => some (t.put parent (.table .dotted [(key, item)]))
      | some (.table .dotted inner) =>
          (insertNew key item inner).map fun inner => t.put parent (.table .dotted inner)
      | some _ => none
  | parent :: path, t =>
      match t.lookup parent with
      | none =>
          (insertDotted key item path []).map fun inner => t.put parent (.table .dotted inner)
      | some (.table .header _) => none
      | some (.table origin inner) =>
          (insertDotted key item path inner).map fun inner => t.put parent (.table origin inner)
      | some (.tables latest) =>
          (insertDotted key item path latest).map fun latest => t.put parent (.tables latest)
      | some _ => none

end Table

end Protograph.Toml
