import Coverage.Json.Node
import Coverage.Json.Real
import Coverage.Table
/-!
JSON values as data. A node is read as a value if its strings and numbers can be held and arrays and
objects nest no deeper than allowed; the members of an object are then sorted by key, and of two with
the same key the later one stays.
-/

namespace Coverage.Json

inductive Value where
  | null
  | bool (value : Bool)
  | integer (value : Int)
  | real (value : Real)
  | text (value : String)
  | array (items : List Value)
  | object (members : List (String × Value))
  deriving Inhabited

/-- How many arrays and objects may be open at once in a document that is read. -/
def depthLimit : Nat := 127

namespace Value

def sortMembers (members : List (String × Value)) : List (String × Value) :=
  (Table.ofList members).entries

/-- Integers are kept if 64 bits hold them, every other number as a real. -/
def ofLiteral? (l : Literal) : Option Value :=
  match l.integer? with
  | some n =>
    if -Int.pow 2 63 ≤ n ∧ n < Int.pow 2 64 then some (integer n) else (Real.ofLiteral? l).map real
  | none => (Real.ofLiteral? l).map real

mutual

def ofNode? (depth : Nat) : Node → Option Value
  | .null => some null
  | .bool value => some (bool value)
  | .number literal => ofLiteral? literal
  | .text content => content.map text
  | .array items =>
    match depth with
    | 0 => none
    | depth + 1 => (ofNodes? depth items).map array
  | .object members =>
    match depth with
    | 0 => none
    | depth + 1 => (ofMembers? depth members).map fun members => object (sortMembers members)

def ofNodes? (depth : Nat) : List Node → Option (List Value)
  | [] => some []
  | node :: rest => do
    let value ← ofNode? depth node
    let values ← ofNodes? depth rest
    return value :: values

def ofMembers? (depth : Nat) : List (Option String × Node) → Option (List (String × Value))
  | [] => some []
  | (key, node) :: rest => do
    let key ← key
    let value ← ofNode? depth node
    let members ← ofMembers? depth rest
    return (key, value) :: members

end

def member? (key : String) : Value → Option Value
  | object members => members.lookup key
  | _ => none

def text? : Value → Option String
  | text value => some value
  | _ => none

def ofOption {α : Type} (f : α → Value) : Option α → Value
  | none => null
  | some a => f a

def ofList {α : Type} (f : α → Value) (items : List α) : Value := array (items.map f)

end Value

end Coverage.Json
