import Coverage.Certificate
import Coverage.Json.Value
/-!
Entitlements that stack are shown together. A scheme says where an entitlement keeps its stacking key
and the name of a group that it starts; the first member of a group gives its place and its name.
-/

namespace Coverage

structure Scheme (α : Type) where
  key : α → Option StackId
  name : α → Option String

structure Group (α : Type) where
  name : Option String
  members : List α
  deriving DecidableEq, Repr

def Group.join {α : Type} (g : Group α) (entitlement : α) : Group α :=
  { g with members := g.members ++ [entitlement] }

structure Assembly (α : Type) where
  groups : List (Group α) := []
  places : Table StackId Nat := .empty

namespace Scheme

variable {α : Type}

def stackKey (s : Scheme α) (entitlement : α) : Option StackId :=
  (s.key entitlement).filter (·.text ≠ "")

/-- An entitlement joins the group of its stacking key. If there is none yet, it starts one at the end,
and so does an entitlement that does not stack. -/
def add (s : Scheme α) (a : Assembly α) (entitlement : α) : Assembly α :=
  match s.stackKey entitlement with
  | none => { a with groups := a.groups ++ [⟨none, [entitlement]⟩] }
  | some key =>
    match a.places.get? key with
    | some place => { a with groups := a.groups.modify place (·.join entitlement) }
    | none =>
      { groups := a.groups ++ [⟨s.name entitlement, [entitlement]⟩]
        places := a.places.insert key a.groups.length }

def groups (s : Scheme α) (entitlements : List α) : List (Group α) :=
  (entitlements.foldl s.add {}).groups

def certificates : Scheme Certificate := ⟨Certificate.stack?, Certificate.orderName?⟩

def stringAt (path : List String) (document : Json.Value) : Option String :=
  (path.foldlM (fun value key => Json.Value.member? key value) document).bind Json.Value.text?

def pools : Scheme Json.Value where
  key document := (stringAt ["pool", "stackId"] document).map StackId.mk
  name document := stringAt ["pool", "productName"] document

/-- Documents that keep both in members of their own; without a member for it there is no name. -/
def members (key : String) (name : Option String) : Scheme Json.Value where
  key document := (stringAt [key] document).map StackId.mk
  name document := name.bind fun name => stringAt [name] document

end Scheme

end Coverage
