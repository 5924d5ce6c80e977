import Coverage.Certificate
import Coverage.Consumer
import Coverage.Instant.Deadline
import Coverage.Json.Value
import Coverage.Status
import Coverage.Text.Quoted
/-!
What is reported in the log: each kind of event with the data it carries, and its level, message and
fields as they are written.
-/

namespace Coverage

inductive Source where
  | products
  | entitlements
  | consumer
  deriving DecidableEq, Repr

namespace Source

def all : List Source := [products, entitlements, consumer]

def word : Source → String
  | products => "product"
  | entitlements => "entitlement"
  | consumer => "consumer"

def ofWord? (word : String) : Option Source := all.find? (·.word = word)

end Source

structure Overview where
  valid : List ProductId
  partlyValid : List ProductId
  expired : List ProductId
  unentitled : List ProductId
  future : List ProductId
  lapse : Option Instant
  deriving DecidableEq

inductive Notice where
  | deadlineClamped (text : String)
  | deadlineUnreadable (fault : Fault)
  | reportedTwice (product : ProductId)
  | missingFromVerdict (product : ProductId)
  | notOnSystem (product : ProductId)
  | unregistered
  | noConsumer
  | noConnection (failure : Failure)
  | verdictFailed (consumer : ConsumerId) (failure : Failure)
  | noVerdict (consumer : ConsumerId)
  | contentAccessFailed (failure : Failure)
  | assessed (overview : Overview)
  | partialStacks (stackIds : List StackId)
  | productsPushed (consumer : ConsumerId) (count : Nat)
  | identityRejected (consumer : ConsumerId) (failure : Failure)
  | pushFailed (failure : Failure)
  | sourceChanged (source : Source)
  | recomputed (observers : Nat) (status : SystemStatus)
  deriving DecidableEq

inductive Level where
  | debug
  | info
  | warn
  deriving DecidableEq, Repr

def Level.word : Level → String
  | .debug => "debug"
  | .info => "info"
  | .warn => "warn"

namespace Notice

def level : Notice → Level
  | deadlineClamped _ | deadlineUnreadable _ | missingFromVerdict _ | notOnSystem _ | noConnection _
  | verdictFailed _ _ | contentAccessFailed _ | identityRejected _ _ | pushFailed _ => .warn
  | reportedTwice _ | unregistered | noConsumer | noVerdict _ | assessed _ | partialStacks _
  | productsPushed _ _ | sourceChanged _ => .debug
  | recomputed _ _ => .info

def message : Notice → String
  | deadlineClamped _ => "Date overflow, using 9999-09-06T00:00:00Z instead"
  | deadlineUnreadable _ => "Ignoring unparseable compliantUntil"
  | reportedTwice _ => "Product reported both valid and partially valid"
  | missingFromVerdict _ => "Installed product not present in response from server"
  | notOnSystem _ => "Server reported installed product not on system"
  | unregistered => "Unregistered, skipping server compliance check"
  | noConsumer => "Registered identity has no consumer ID, skipping server compliance check"
  | noConnection _ => "No connection to the entitlement server"
  | verdictFailed _ _ => "Unable to fetch compliance status"
  | noVerdict _ => "No compliance status available, keeping previous view"
  | contentAccessFailed _ => "Unable to determine content access mode, assuming entitlement mode"
  | assessed _ => "Product status"
  | partialStacks _ => "Partial stacks"
  | productsPushed _ _ => "Installed products synced"
  | identityRejected _ _ => "Invalid consumer certificate, installed products not synced"
  | pushFailed _ => "Unable to sync installed products"
  | sourceChanged _ => "Local source changed"
  | recomputed _ _ => "Compliance status recomputed"

open Json (Value)

def failureField (failure : Failure) : String × Value := ("error", .text (failure.message.getD ""))

def consumerField (consumer : ConsumerId) : String × Value := ("consumer", .text consumer.text)

def productField (product : ProductId) : String × Value := ("product_id", .text product.text)

def productsText (products : List ProductId) : Value :=
  .text (Text.bracketed (products.map fun p => "ProductId(" ++ Text.quoted p.text ++ ")"))

def stacksText (stackIds : List StackId) : Value :=
  .text (Text.bracketed (stackIds.map fun s => "StackId(" ++ Text.quoted s.text ++ ")"))

def lapseText : Option Instant → Value
  | none => .text "None"
  | some t => .text ("Some(" ++ t.text ++ ")")

def fields : Notice → List (String × Value)
  | deadlineClamped text => [("date", .text text)]
  | deadlineUnreadable fault => [("error", .text (fault.message.getD ""))]
  | reportedTwice p | missingFromVerdict p | notOnSystem p => [productField p]
  | unregistered | noConsumer => []
  | noConnection failure | contentAccessFailed failure | pushFailed failure => [failureField failure]
  | verdictFailed consumer failure | identityRejected consumer failure =>
    [consumerField consumer, failureField failure]
  | noVerdict consumer => [consumerField consumer]
  | assessed o =>
    [("valid_products", productsText o.valid), ("partial_products", productsText o.partlyValid),
      ("expired_products", productsText o.expired), ("unentitled_products", productsText o.unentitled),
      ("future_products", productsText o.future), ("valid_until", lapseText o.lapse)]
  | partialStacks stackIds => [("partial_stacks", stacksText stackIds)]
  | productsPushed consumer count => [consumerField consumer, ("count", .integer count)]
  | sourceChanged source => [("source", .text source.word)]
  | recomputed observers status =>
    [("observers", .integer observers), ("status", .text status.word)]

def toValue (n : Notice) : Value :=
  .array [.text n.level.word, .text n.message, .object n.fields]

end Notice

end Coverage
