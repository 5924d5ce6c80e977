/-!
A small file system: numbered objects that are files, links or directories. Paths are lists of names
that are walked from the root; an empty name or a dot stays in a directory and two dots go to its
parent. An operation that does not apply changes nothing. Each operation also returns the changes that
it makes, by the directory in which they show.
-/

namespace Coverage

abbrev Path := List String

namespace Path

def ofText (s : String) : Path := s.splitOn "/"

def toText (p : Path) : String := "/".intercalate p

def plain (p : Path) : Path := p.filter fun name => name ≠ "" && name ≠ "."

def startsWith (p q : Path) : Bool := q.plain.isPrefixOf p.plain

def parent? (p : Path) : Option Path := if p.plain.isEmpty then none else some p.plain.dropLast

def fileName? (p : Path) : Option String := p.plain.getLast?.filter (· ≠ "..")

/-- With the separator before it, a path is at most 4095 bytes long. -/
def fits (p : Path) : Bool := p.toText.utf8ByteSize < 4095

end Path

inductive EventKind where
  | create
  | modify
  | remove
  | access
  | other
  deriving DecidableEq, Repr

def EventKind.isChange : EventKind → Bool
  | create | modify | remove => true
  | access | other => false

structure Change where
  kind : EventKind
  directory : Nat
  name : Option String
  /-- The directory is gone. -/
  final : Bool := false
  deriving DecidableEq, Repr

inductive Object where
  | file
  | link (target : Path)
  | directory (parent : Nat) (names : List (String × Nat))
  deriving DecidableEq, Repr

structure FileSystem where
  objects : List (Nat × Object)
  /-- Above every number in use. -/
  next : Nat
  deriving Repr

namespace FileSystem

def root : Nat := 0

def empty : FileSystem := ⟨[(root, .directory root [])], 1⟩

def names? (fs : FileSystem) (n : Nat) : Option (List (String × Nat)) :=
  match fs.objects.lookup n with
  | some (.directory _ names) => some names
  | _ => none

def isDirectoryObject (fs : FileSystem) (n : Nat) : Bool := (fs.names? n).isSome

def child? (fs : FileSystem) (directory : Nat) (name : String) : Option Nat :=
  (fs.names? directory).bind (·.lookup name)

/-- Walks from a directory; `follow` takes over at a link, with what the link stands for. -/
def walkFrom (fs : FileSystem) (follow : Path → Option Nat) : Nat → Path → Option Nat
  | n, [] => some n
  | n, name :: rest =>
    match fs.objects.lookup n with
    | some (.directory parent names) =>
      if name = "" ∨ name = "." then walkFrom fs follow n rest
      else if name = ".." then walkFrom fs follow parent rest
      else
        match names.lookup name with
        | none => none
        | some child =>
          match fs.objects.lookup child with
          | some (.link target) => follow (target ++ rest)
          | _ => walkFrom fs follow child rest
    | _ => none

def walk (fs : FileSystem) : Nat → Path → Option Nat
  | 0, p => fs.walkFrom (fun _ => none) root p
  | links + 1, p => fs.walkFrom (fs.walk links) root p

def linkLimit : Nat := 40

def find? (fs : FileSystem) (p : Path) : Option Nat := if p.fits then fs.walk linkLimit p else none

def isDirectory (fs : FileSystem) (p : Path) : Bool := ((fs.find? p).map fs.isDirectoryObject).getD false

def place? (fs : FileSystem) (n : Nat) : Option (Nat × String) :=
  fs.objects.findSome? fun (directory, object) =>
    match object with
    | .directory _ names => (names.find? (·.2 = n)).map fun entry => (directory, entry.1)
    | _ => none

/-- Walks from a directory and gathers the names, without links, that lead to it from the root; `follow`
takes over at a link. The gathered path has to fit at every name. -/
def gatherFrom (fs : FileSystem) (follow : Path → Option Path) : Nat → Path → Path → Option Path
  | _, names, [] => some names
  | n, names, name :: rest =>
    match fs.objects.lookup n with
    | some (.directory parent entries) =>
      if name = "" ∨ name = "." then gatherFrom fs follow n names rest
      else if name = ".." then gatherFrom fs follow parent names.dropLast rest
      else
        match entries.lookup name with
        | none => none
        | some child =>
          if !Path.fits (names ++ [name]) then none
          else
            match fs.objects.lookup child with
            | some (.link target) => follow (target ++ rest)
            | _ => gatherFrom fs follow child (names ++ [name]) rest
    | _ => none

def gather (fs : FileSystem) : Nat → Path → Option Path
  | 0, p => fs.gatherFrom (fun _ => none) root [] p
  | links + 1, p => fs.gatherFrom (fs.gather links) root [] p

/-- The path of names, without links, to where a path leads. The path itself may be of any length. -/
def canonical? (fs : FileSystem) (p : Path) : Option Path := fs.gather linkLimit p

def isAllowed (name : String) : Bool := name.utf8ByteSize ≤ 255 && !name.toList.contains '\x00'

def spot? (fs : FileSystem) (p : Path) : Option (Nat × String) := do
  let name ← p.plain.getLast?
  if name = ".." ∨ p.getLast? = some "." ∨ !isAllowed name ∨ !p.fits then none
  let directory ← fs.find? p.plain.dropLast
  if fs.isDirectoryObject directory then some (directory, name) else none

def endsOpen (p : Path) : Bool := p.getLast? = some ""

def set (fs : FileSystem) (n : Nat) (object : Object) : FileSystem :=
  { fs with objects := (n, object) :: fs.objects.filter (·.1 ≠ n) }

def mapNames (fs : FileSystem) (directory : Nat) (f : List (String × Nat) → List (String × Nat)) :
    FileSystem :=
  match fs.objects.lookup directory with
  | some (.directory parent names) => fs.set directory (.directory parent (f names))
  | _ => fs

def enter (fs : FileSystem) (directory : Nat) (name : String) (n : Nat) : FileSystem :=
  fs.mapNames directory ((name, n) :: ·)

def leave (fs : FileSystem) (directory : Nat) (name : String) : FileSystem :=
  fs.mapNames directory (·.filter (·.1 ≠ name))

def drop (fs : FileSystem) (n : Nat) : FileSystem :=
  { fs with objects := fs.objects.filter (·.1 ≠ n) }

def create (fs : FileSystem) (directory : Nat) (name : String) (object : Object) :
    FileSystem × List Change :=
  (({ fs with next := fs.next + 1 }.set fs.next object).enter directory name fs.next,
    [{ kind := .create, directory, name := some name }])

def makeDirectory (fs : FileSystem) (p : Path) : FileSystem × List Change :=
  match fs.spot? p with
  | some (directory, name) =>
    if (fs.child? directory name).isSome then (fs, []) else fs.create directory name (.directory directory [])
  | none => (fs, [])

def makeLink (fs : FileSystem) (p target : Path) : FileSystem × List Change :=
  match fs.spot? p with
  | some (directory, name) =>
    if (fs.child? directory name).isSome || endsOpen p || !target.fits then (fs, [])
    else fs.create directory name (.link target)
  | none => (fs, [])

/-- The directory and the name at which a path ends, from a directory on; `follow` takes over at a link.
The name may be free, but not a directory's own. -/
def locateFrom (fs : FileSystem) (follow : Path → Option (Nat × String)) :
    Nat → Path → Option (Nat × String)
  | _, [] => none
  | n, name :: rest =>
    match fs.objects.lookup n with
    | some (.directory parent names) =>
      if name = "" ∨ name = "." then locateFrom fs follow n rest
      else if name = ".." then locateFrom fs follow parent rest
      else
        match names.lookup name with
        | none => if rest.isEmpty && isAllowed name then some (n, name) else none
        | some child =>
          match fs.objects.lookup child with
          | some (.link target) => follow (target ++ rest)
          | _ => if rest.isEmpty then some (n, name) else locateFrom fs follow child rest
    | _ => none

def locate (fs : FileSystem) : Nat → Path → Option (Nat × String)
  | 0, p => fs.locateFrom (fun _ => none) root p
  | links + 1, p => fs.locateFrom (fs.locate links) root p

def writeSpot (fs : FileSystem) (p : Path) : Option (Nat × String) :=
  if p.fits then fs.locate linkLimit p else none

def write (fs : FileSystem) (p : Path) : FileSystem × List Change :=
  match fs.writeSpot p with
  | some (directory, name) =>
    match fs.child? directory name with
    | none => fs.create directory name .file
    | some n =>
      if fs.objects.lookup n = some .file then
        (fs, [{ kind := .modify, directory, name := some name }])
      else (fs, [])
  | none => (fs, [])

def read (fs : FileSystem) (p : Path) : FileSystem × List Change :=
  match (fs.find? p).bind fun n => fs.place? n with
  | some (directory, name) => (fs, [{ kind := .access, directory, name := some name }])
  | none => (fs, [])

def removeFile (fs : FileSystem) (p : Path) : FileSystem × List Change :=
  match fs.spot? p with
  | some (directory, name) =>
    match fs.child? directory name with
    | some n =>
      if fs.isDirectoryObject n || endsOpen p then (fs, [])
      else ((fs.leave directory name).drop n, [{ kind := .remove, directory, name := some name }])
    | none => (fs, [])
  | none => (fs, [])

def removeDirectory (fs : FileSystem) (p : Path) : FileSystem × List Change :=
  match fs.spot? p with
  | some (directory, name) =>
    match fs.child? directory name with
    | some n =>
      if fs.names? n = some [] then
        ((fs.leave directory name).drop n,
          [{ kind := .remove, directory := n, name := none, final := true },
            { kind := .remove, directory, name := some name }])
      else (fs, [])
    | none => (fs, [])
  | none => (fs, [])

def holds (fs : FileSystem) (n : Nat) : Nat → Nat → Bool
  | 0, directory => n = directory
  | steps + 1, directory =>
    n = directory ||
      match fs.place? directory with
      | none => false
      | some (outer, _) => fs.holds n steps outer

def replaceable (fs : FileSystem) (n : Nat) : Option Nat → Bool
  | none => true
  | some old => if fs.isDirectoryObject n then fs.names? old = some [] else !fs.isDirectoryObject old

def move (fs : FileSystem) (n : Nat) (source target : Nat × String) : FileSystem × List Change :=
  let old := fs.child? target.1 target.2
  let cleared := match old with
    | none => fs
    | some old => (fs.leave target.1 target.2).drop old
  let moved := (cleared.leave source.1 source.2).enter target.1 target.2 n
  let settled := match moved.objects.lookup n with
    | some (.directory _ names) => moved.set n (.directory target.1 names)
    | _ => moved
  let gone := match old with
    | some old =>
      if fs.isDirectoryObject old then
        [{ kind := .remove, directory := old, name := none, final := true }] else []
    | none => []
  let own := if fs.isDirectoryObject n then [{ kind := .modify, directory := n, name := none }] else []
  (settled, [{ kind := .modify, directory := source.1, name := some source.2 },
    { kind := .modify, directory := target.1, name := some target.2 }] ++ own ++ gone)

def rename (fs : FileSystem) (p target : Path) : FileSystem × List Change :=
  match fs.spot? p, fs.spot? target with
  | some source, some goal =>
    match fs.child? source.1 source.2 with
    | none => (fs, [])
    | some n =>
      if fs.child? goal.1 goal.2 = some n then (fs, [])
      else if fs.isDirectoryObject n && fs.holds n fs.objects.length goal.1 then (fs, [])
      else if (endsOpen p || endsOpen target) && !fs.isDirectoryObject n then (fs, [])
      else if fs.replaceable n (fs.child? goal.1 goal.2) then fs.move n source goal
      else (fs, [])
  | _, _ => (fs, [])

end FileSystem

end Coverage
