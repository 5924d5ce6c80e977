import Coverage.Json.Value
/-!
Reading of typed documents from nodes. A reader takes the number of arrays and objects that may still
be opened. A record is an object, whose unknown members are skipped and whose known ones may not be
repeated, or an array of its fields in their order.
-/

namespace Coverage.Json

abbrev Reader (α : Type) := Nat → Node → Option α

namespace Reader

def text : Reader String
  | _, .text content => content
  | _, _ => none

def bool : Reader Bool
  | _, .bool value => some value
  | _, _ => none

def natural (bound : Nat) : Reader Nat
  | _, .number literal =>
    match literal.integer? with
    | some (Int.ofNat n) => if n < bound then some n else none
    | _ => none
  | _, _ => none

def map {α β : Type} (f : α → β) (read : Reader α) : Reader β := fun depth node =>
  (read depth node).map f

def nullable {α : Type} (read : Reader α) : Reader (Option α)
  | _, .null => some none
  | depth, node => (read depth node).map some

def list {α : Type} (read : Reader α) : Reader (List α)
  | depth + 1, .array items => items.mapM (read depth)
  | _, _ => none

def table {κ ν : Type} [Named κ] (key : String → κ) (read : Reader ν) : Reader (Table κ ν)
  | depth + 1, .object members =>
    (members.mapM fun (name, node) => do
      let name ← name
      let value ← read depth node
      return (key name, value)).map Table.ofList
  | _, _ => none

end Reader

structure Fields where
  positional : Bool
  found : List (String × Node)
  depth : Nat

namespace Fields

/-- The value of the only member with this key, if there is one; no result if there are several. -/
def single (members : List (String × Node)) (name : String) : Option (List (String × Node)) :=
  match members.filter (·.1 = name) with
  | [] => some []
  | [member] => some [member]
  | _ => none

def read (names : List String) : Reader Fields
  | depth + 1, .array items =>
    if items.length ≤ names.length then some ⟨true, names.zip items, depth⟩ else none
  | depth + 1, .object members => do
    let members ← members.mapM fun (name, node) => name.map (·, node)
    let found ← names.mapM (single members)
    return ⟨false, found.flatten, depth⟩
  | _, _ => none

def required {α : Type} (fields : Fields) (name : String) (read : Reader α) : Option α :=
  (fields.found.lookup name).bind (read fields.depth)

/-- The default stands for an absent field, but not for null. -/
def withDefault {α : Type} (fields : Fields) (name : String) (default : α) (read : Reader α) :
    Option α :=
  match fields.found.lookup name with
  | some node => read fields.depth node
  | none => some default

/-- An absent member of an object is none; an array has to hold the field. -/
def nullable {α : Type} (fields : Fields) (name : String) (read : Reader α) : Option (Option α) :=
  match fields.found.lookup name with
  | some node => Reader.nullable read fields.depth node
  | none => if fields.positional then none else some none

end Fields

def Reader.parse {α : Type} (read : Reader α) (s : String) : Option α :=
  (Node.ofText? s).bind (read depthLimit)

end Coverage.Json
