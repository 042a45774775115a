import Protograph.Text.Quoted

/-! # Paths — names of files as they are written

    A path is the text between slashes, segment by segment.  Empty segments
    and single dots do not matter, save for a dot in front of a relative path,
    but they are kept where a path is shown. -/

namespace Protograph

/-- A path as it is written. -/
structure Path where
  text : String
  deriving DecidableEq, Repr

namespace Path

/-- The parts between slashes; one more than there are slashes. -/
def splitSlash : List Char → List (List Char)
  | [] => [[]]
  | c :: cs =>
      if c = '/' then [] :: splitSlash cs
      else
        match splitSlash cs with
        | [] => [[c]]
        | part :: parts => (c :: part) :: parts

/-- The segments of a path. -/
def segments (p : Path) : List String := (splitSlash p.text.toList).map String.ofList

/-- A path that starts at the root. -/
def isAbsolute (p : Path) : Bool := p.text.toList.head? == some '/'

/-- The path shown between quotes. -/
def quoted (p : Path) : String := Quoted.quote p.text

/-- Segments that do not matter behind the first. -/
def isIdle (segment : String) : Bool := segment == "" || segment == "."

/-- The segments that matter. -/
def components (p : Path) : List String :=
  match p.segments with
  | [] => []
  | first :: others =>
      (if first == "" then [] else [first]) ++ others.filter fun s => !isIdle s

/-- A path that says the same as a single name. -/
def isName (p : Path) (name : String) : Bool := !p.isAbsolute && p.components == [name]

/-- Segments up to the last that matters, given in reverse. -/
def dropIdle : List String → List String
  | [] => []
  | [first] => [first]
  | segment :: before =>
      if isIdle segment then dropIdle before else segment :: before

/-- The path of the directory that a path lies in.  The root and the empty
    path lie in none. -/
def parent? (p : Path) : Option Path :=
  match dropIdle p.segments.reverse with
  | [] => none
  | [first] => if first == "" then none else some ⟨""⟩
  | _ :: before =>
      match dropIdle before with
      | [""] => some ⟨"/"⟩
      | kept => some ⟨"/".intercalate kept.reverse⟩

/-- A path below another one; an absolute one stands for itself. -/
def join (p q : Path) : Path :=
  if q.isAbsolute then q
  else if p.text == "" || p.text.toList.getLast? == some '/' then ⟨p.text ++ q.text⟩
  else ⟨p.text ++ "/" ++ q.text⟩

/-- A path and the directories that it lies in, innermost first.  There are at
    most as many as segments, and the empty path. -/
def ancestors (p : Path) : List Path := go (p.segments.length + 1) p
where
  go : Nat → Path → List Path
    | 0, _ => []
    | steps + 1, p =>
        match p.parent? with
        | some above => p :: go steps above
        | none => [p]

end Path

end Protograph
