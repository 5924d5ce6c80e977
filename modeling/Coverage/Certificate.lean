import Coverage.Identifier
import Coverage.Window
/-!
Installed products and the local certificates that entitle them. A certificate covers the products it
lists inside its window; its order may name it, stack it with others and set how many days before the
end it counts as expiring.
-/

namespace Coverage

structure Product where
  id : ProductId
  name : String
  version : String
  arch : String
  deriving DecidableEq, Repr

namespace Product

def ofId (id : ProductId) : Product := ⟨id, "", "", ""⟩

def withName (p : Product) (name : String) : Product := { p with name }

def withVersion (p : Product) (version arch : String) : Product := { p with version, arch }

end Product

structure Order where
  name : Option String
  stack : Option StackId
  warningDays : UInt32
  deriving DecidableEq, Repr

structure Certificate where
  serial : UInt64
  window : Window
  products : List ProductId
  order : Option Order
  deriving DecidableEq

namespace Certificate

def make (serial : UInt64) (window : Window) (products : List ProductId) : Certificate :=
  ⟨serial, window, products, none⟩

def withOrder (c : Certificate) (order : Order) : Certificate := { c with order := some order }

def covers (c : Certificate) (p : ProductId) : Bool := c.products.contains p

def warningDays (c : Certificate) : Nat := (c.order.map (·.warningDays.toNat)).getD 0

/-- In force, but closer to its end than the warning period of its order. -/
def isExpiringAt (c : Certificate) (t : Instant) : Bool :=
  0 < c.warningDays && c.window.contains t &&
    c.window.remaining t < c.warningDays * 86400 * 1000000000

def stack? (c : Certificate) : Option StackId := c.order.bind (·.stack)

def orderName? (c : Certificate) : Option String := c.order.bind (·.name)

end Certificate

end Coverage
