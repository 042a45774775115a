import Protograph.Files.Path

/-! # File trees — directories and files, and what can go wrong with them

    A tree gives for each location below the root what is there.  A path is
    followed segment by segment, each from inside a directory.  Directories
    are made one by one, and a file is written whole or not at all; an
    operation that fails leaves every file as it was.

    A location holds a file or a directory: a tree has no links and no
    permissions, and it is never full.  The errors that come of these are met
    on a machine only. -/

namespace Protograph

/-- Why a file or directory can not be had. -/
inductive FileError where
  | notFound
  | alreadyExists
  | notDirectory
  | isDirectory
  | nameTooLong
  | notText
  | nulInPath
  | accessDenied
  | noSpace
  | brokenPipe
  deriving DecidableEq, Repr

/-- The wording of each error. -/
def FileError.message : FileError → String
  | .notFound => "No such file or directory (os error 2)"
  | .alreadyExists => "File exists (os error 17)"
  | .notDirectory => "Not a directory (os error 20)"
  | .isDirectory => "Is a directory (os error 21)"
  | .nameTooLong => "File name too long (os error 36)"
  | .notText => "stream did not contain valid UTF-8"
  | .nulInPath => "file name contained an unexpected NUL byte"
  | .accessDenied => "Permission denied (os error 13)"
  | .noSpace => "No space left on device (os error 28)"
  | .brokenPipe => "Broken pipe (os error 32)"

/-- What a location holds. -/
inductive FileEntry where
  | file (content : ByteArray)
  | directory

/-- The entry is a directory. -/
def FileEntry.isDirectory : FileEntry → Bool
  | .file _ => false
  | .directory => true

/-- The names on the way down from the root. -/
abbrev Location := List String

/-- What is where, and where relative paths start. -/
structure FileTree where
  entries : List (Location × FileEntry)
  here : Location

namespace FileTree

/-- What a location holds; the root is a directory. -/
def get? (t : FileTree) (l : Location) : Option FileEntry :=
  if l = [] then some .directory else t.entries.lookup l

/-- Let a location hold something, in place of what it held. -/
def put (t : FileTree) (l : Location) (e : FileEntry) : FileTree :=
  { t with entries := (l, e) :: t.entries.filter fun entry => entry.1 != l }

/-- A name that is longer than a directory allows. -/
def isTooLong (name : String) : Bool := name.utf8ByteSize > 255

/-- Follow segments from a location to another one. -/
def follow (t : FileTree) : Location → List String → Except FileError Location
  | l, [] => .ok l
  | l, segment :: segments =>
      match t.get? l with
      | none => .error .notFound
      | some (.file _) => .error .notDirectory
      | some .directory =>
          if Path.isIdle segment then t.follow l segments
          else if segment = ".." then t.follow l.dropLast segments
          else if isTooLong segment then .error .nameTooLong
          else
            match t.get? (l ++ [segment]) with
            | none => .error .notFound
            | some _ => t.follow (l ++ [segment]) segments

/-- Where a path starts. -/
def start (t : FileTree) (p : Path) : Location := if p.isAbsolute then [] else t.here

/-- A path that can be asked for at all. -/
def checkPath (p : Path) : Except FileError Unit :=
  if p.text.toList.contains '\x00' then .error .nulInPath
  else if p.text == "" then .error .notFound
  else if p.text.utf8ByteSize ≥ 4096 then .error .nameTooLong
  else .ok ()

/-- The location of what a path names. -/
def locate (t : FileTree) (p : Path) : Except FileError Location := do
  checkPath p
  t.follow (t.start p) p.segments

/-- Something is at the path. -/
def exists? (t : FileTree) (p : Path) : Bool := (t.locate p).isOk

/-- A directory is at the path. -/
def isDirectory (t : FileTree) (p : Path) : Bool :=
  match t.locate p with
  | .ok l => (t.get? l).any FileEntry.isDirectory
  | .error _ => false

/-- The bytes of the file at a path. -/
def read (t : FileTree) (p : Path) : Except FileError ByteArray := do
  match t.get? (← t.locate p) with
  | some (.file content) => .ok content
  | some .directory => .error .isDirectory
  | none => .error .notFound

/-- The text that bytes encode. -/
def decode (bytes : ByteArray) : Except FileError String :=
  match String.fromUTF8? bytes with
  | some text => .ok text
  | none => .error .notText

/-- The text of the file at a path. -/
def readText (t : FileTree) (p : Path) : Except FileError String := do
  decode (← t.read p)

/-- Where the last segment of a path applies: the directory before it, the
    segment, and whether a slash follows it. -/
def locateLast (t : FileTree) (p : Path) : Except FileError (Location × String × Bool) := do
  checkPath p
  let backwards := p.segments.reverse
  match backwards.dropWhile (· == "") with
  | [] => .ok ([], ".", true)
  | last :: before =>
      let l ← t.follow (t.start p) before.reverse
      match t.get? l with
      | some .directory => .ok (l, last, backwards.head? == some "")
      | some (.file _) => .error .notDirectory
      | none => .error .notFound

/-- A segment that names no entry of its own. -/
def isDots (segment : String) : Bool := segment == "." || segment == ".."

/-- Make a directory in a directory that is there. -/
def makeDirectory (t : FileTree) (p : Path) : Except FileError FileTree := do
  let (l, name, _) ← t.locateLast p
  if isDots name || (t.get? (l ++ [name])).isSome then .error .alreadyExists
  else if isTooLong name then .error .nameTooLong
  else .ok (t.put (l ++ [name]) .directory)

/-- Write a file whole: a new one, or one in place of the old. -/
def write (t : FileTree) (p : Path) (content : ByteArray) : Except FileError FileTree := do
  let (l, name, slash) ← t.locateLast p
  if slash || isDots name || (t.get? (l ++ [name])).any FileEntry.isDirectory then
    .error .isDirectory
  else if isTooLong name then .error .nameTooLong
  else .ok (t.put (l ++ [name]) (.file content))

/-- Make the first of some directories, each of which lies in the next, and
    those it needs.  Directories made before a failure stay. -/
def makeNested (t : FileTree) : List Path → FileTree × Except FileError Unit
  | [] => (t, .error .notFound)
  | p :: above =>
      if p.text == "" then (t, .ok ())
      else
        match t.makeDirectory p with
        | .ok t' => (t', .ok ())
        | .error .notFound =>
            match t.makeNested above with
            | (t', .error e) => (t', .error e)
            | (t', .ok ()) =>
                match t'.makeDirectory p with
                | .ok t'' => (t'', .ok ())
                | .error e => (t', if t'.isDirectory p then .ok () else .error e)
        | .error e => (t, if t.isDirectory p then .ok () else .error e)

/-- Make a directory and those it lies in. -/
def makeDirectories (t : FileTree) (p : Path) : FileTree × Except FileError Unit :=
  t.makeNested p.ancestors

end FileTree

end Protograph
