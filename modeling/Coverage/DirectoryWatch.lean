import Coverage.Failure
import Coverage.FileSystem
import Coverage.Program
import Coverage.Text.Quoted
/-!
Watching a directory for changes. A directory that does not exist is watched through its parent, and
its appearance counts as a change; each poll receives all events that have arrived and moves the watch
between the directory and its parent if the directory has appeared or vanished.
-/

namespace Coverage

structure Event where
  kind : EventKind
  paths : List Path
  deriving DecidableEq, Repr

inductive Delivery where
  | event (event : Event)
  | fault (detail : String)
  deriving DecidableEq, Repr

/-- What receiving finds, one delivery after the other: in the end nothing more for now, or that the
service has hung up. -/
inductive Channel where
  | nothing
  | hungUp
  | delivery (delivery : Delivery) (rest : Channel)

namespace Channel

def ofList : List Delivery → Channel
  | [] => nothing
  | first :: rest => delivery first (ofList rest)

def waiting : Channel → List Delivery
  | nothing | hungUp => []
  | delivery first rest => first :: rest.waiting

end Channel

inductive WatchNotice where
  | staleGone (path : Path)
  | rearmed (path : Path) (viaParent : Bool)
  | rearmFailed (path : Path)
  | fault (path : Path) (detail : String)
  | closed (path : Path)
  | changed (path : Path)
  deriving DecidableEq, Repr

inductive WatchRequest where
  | canonical (path : Path)
  | isDirectory (path : Path)
  /-- Places a watch on a directory, not on those below it. -/
  | place (path : Path)
  | lift (path : Path)
  | channel
  /-- Puts back what was not received. -/
  | leave (channel : Channel)
  | note (notice : WatchNotice)

def WatchRequest.Answer : WatchRequest → Type
  | canonical _ => Option Path
  | isDirectory _ => Bool
  | place _ => Bool
  | lift _ => Bool
  | channel => Channel
  | leave _ | note _ => Unit

abbrev WatchDialogue := Program WatchRequest WatchRequest.Answer

structure DirectoryWatch where
  path : Path
  /-- The directory is missing and its parent is watched in its place. -/
  viaParent : Bool
  deriving DecidableEq, Repr

namespace DirectoryWatch

def ask (r : WatchRequest) : WatchDialogue r.Answer := Program.ask r Program.done

def resolve (p : Path) : WatchDialogue Path := do
  match ← ask (.canonical p) with
  | some path => return path
  | none =>
    match p.fileName?, p.parent? with
    | some name, some parent =>
      match ← ask (.canonical parent) with
      | some parent => return parent ++ [name]
      | none => return p
    | _, _ => return p

/-- Places a watch on a directory, else on its parent; tells whether the parent is watched, and has no
result if no watch could be placed. -/
def arm (p : Path) : WatchDialogue (Option Bool) := do
  match ← ask (.isDirectory p) with
  | true =>
    let placed : Bool ← ask (.place p)
    return if placed then some false else none
  | false =>
    match p.parent? with
    | none => return none
    | some parent =>
      match ← ask (.isDirectory parent) with
      | false => return none
      | true =>
        let placed : Bool ← ask (.place parent)
        return if placed then some true else none

def start (p : Path) : WatchDialogue (Except Failure DirectoryWatch) := do
  let path ← resolve p
  match ← arm path with
  | some viaParent => return .ok { path, viaParent }
  | none => return .error (.watch "")

def isRelevant (w : DirectoryWatch) (e : Event) : Bool :=
  e.kind.isChange && e.paths.any (Path.startsWith · w.path)

/-- Receives until nothing waits. Tells whether something relevant was received, now or before, and what is
left in the channel. -/
def receiveAll (w : DirectoryWatch) (seen : Bool) : Channel → WatchDialogue (Bool × Channel)
  | .delivery (.event e) rest => w.receiveAll (seen || w.isRelevant e) rest
  | .delivery (.fault detail) rest => do
    ask (.note (.fault w.path detail))
    w.receiveAll seen rest
  | .nothing => return (seen, .nothing)
  | .hungUp => do
    ask (.note (.closed w.path))
    return (seen, .hungUp)

def liftStale (stale : Option Path) : WatchDialogue Unit := do
  match stale with
  | none => return ()
  | some stale =>
    match ← ask (.lift stale) with
    | true => return ()
    | false => ask (.note (.staleGone stale))

/-- Moves the watch if the directory has appeared or vanished, and tells whether it has. -/
def rearm (w : DirectoryWatch) : WatchDialogue (DirectoryWatch × Bool) := do
  let present : Bool ← ask (.isDirectory w.path)
  if present ≠ w.viaParent then return (w, false)
  else
    liftStale (if w.viaParent then w.path.parent? else some w.path)
    match ← arm w.path with
    | some viaParent =>
      ask (.note (.rearmed w.path viaParent))
      return ({ w with viaParent }, true)
    | none =>
      ask (.note (.rearmFailed w.path))
      return ({ w with viaParent := !present }, true)

def noteChanged (w : DirectoryWatch) (changed : Bool) : WatchDialogue Unit :=
  if changed then ask (.note (.changed w.path)) else .done ()

def poll (w : DirectoryWatch) : WatchDialogue (DirectoryWatch × Bool) := do
  let (seen, left) ← w.receiveAll false (← ask .channel)
  ask (.leave left)
  let (w, moved) ← w.rearm
  w.noteChanged (seen || moved)
  return (w, seen || moved)

def debugText (w : DirectoryWatch) : String :=
  "DirectoryWatch \x7b path: " ++ Text.quoted (Path.toText w.path) ++
    ", watching_parent: " ++ toString w.viaParent ++ ", .. \x7d"

end DirectoryWatch

end Coverage
