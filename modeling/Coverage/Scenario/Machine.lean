import Coverage.DirectoryWatch
/-!
A machine with a file system and a service that watches directories. A watch follows the directory that
it was placed on, whatever becomes of its name, and reports under the path by which it was placed; it
ends with the directory. The paths of steps start from a base directory, which the steps may also remove
and make again.
-/

namespace Coverage.Scenario

def base : Path := ["ROOT"]

structure Machine where
  files : FileSystem := (FileSystem.empty.makeDirectory base).1
  /-- The directories that are watched, with the paths by which they were. -/
  placed : List (Path × Nat) := []
  queue : List Delivery := []
  notices : List WatchNotice := []

namespace Machine

def eventOf (path : Path) (change : Change) : Event :=
  ⟨change.kind, [path ++ change.name.toList]⟩

def report (m : Machine) (change : Change) : Machine :=
  let events := (m.placed.filter (·.2 = change.directory)).map fun entry =>
    Delivery.event (eventOf entry.1 change)
  { m with
    queue := m.queue ++ events
    placed := if change.final then m.placed.filter (·.2 ≠ change.directory) else m.placed }

def apply (m : Machine) (operation : FileSystem → FileSystem × List Change) : Machine :=
  let (files, changes) := operation m.files
  changes.foldl report { m with files }

def place (m : Machine) (p : Path) : Bool × Machine :=
  match m.files.find? p with
  | some n =>
    if m.files.isDirectoryObject n then
      (true, { m with placed := (p, n) :: m.placed.filter (·.1 ≠ p) })
    else (false, m)
  | none => (false, m)

def lift (m : Machine) (p : Path) : Bool × Machine :=
  (m.placed.any (·.1 = p), { m with placed := m.placed.filter (·.1 ≠ p) })

def answer : (r : WatchRequest) → Machine → r.Answer × Machine
  | .canonical p, m => (m.files.canonical? p, m)
  | .isDirectory p, m => (m.files.isDirectory p, m)
  | .place p, m => m.place p
  | .lift p, m => m.lift p
  | .channel, m => (.ofList m.queue, m)
  | .leave left, m => ((), { m with queue := left.waiting })
  | .note notice, m => ((), { m with notices := m.notices ++ [notice] })

end Machine

inductive WatchStep where
  | start (path : Path)
  | poll
  | makeDirectory (path : Path)
  | removeDirectory (path : Path)
  | write (path : Path)
  | read (path : Path)
  | removeFile (path : Path)
  | rename (path target : Path)
  | makeLink (path target : Path)

inductive WatchResult where
  | none
  | failed (failure : Failure)
  | polled (changed : Bool)

def dropIdle (p : Path) : Path := p.dropWhile fun name => name = "" || name = "."

/-- The path as seen from the base directory, if it lies there, without names at either end that stay
in place. -/
def fromBase (p : Path) : Path :=
  if base.isPrefixOf p then (dropIdle (dropIdle (p.drop base.length)).reverse).reverse else p

def takeWatchStep (watch : Option DirectoryWatch) (m : Machine) :
    WatchStep → WatchResult × Option DirectoryWatch × Machine
  | .start path =>
    match (DirectoryWatch.start (base ++ path)).run Machine.answer { m with placed := [], queue := [] } with
    | (.ok watch, m) => (.none, some watch, m)
    | (.error failure, m) => (.failed failure, none, m)
  | .poll =>
    match watch with
    | none => (.none, none, m)
    | some watch =>
      let ((watch, changed), m) := watch.poll.run Machine.answer m
      (.polled changed, some watch, m)
  | .makeDirectory path => (.none, watch, m.apply (·.makeDirectory (base ++ path)))
  | .removeDirectory path => (.none, watch, m.apply (·.removeDirectory (base ++ path)))
  | .write path => (.none, watch, m.apply (·.write (base ++ path)))
  | .read path => (.none, watch, m.apply (·.read (base ++ path)))
  | .removeFile path => (.none, watch, m.apply (·.removeFile (base ++ path)))
  | .rename path target => (.none, watch, m.apply (·.rename (base ++ path) (base ++ target)))
  | .makeLink path target => (.none, watch, m.apply (·.makeLink (base ++ path) (base ++ target)))

def takeWatchSteps (watch : Option DirectoryWatch) (m : Machine) :
    List WatchStep → List (WatchResult × Option DirectoryWatch)
  | [] => []
  | step :: rest =>
    let (result, watch, m) := takeWatchStep watch m step
    (result, watch) :: takeWatchSteps watch m rest

end Coverage.Scenario
