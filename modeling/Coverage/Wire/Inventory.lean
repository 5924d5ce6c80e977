import Coverage.Certificate
import Coverage.Consumer
import Coverage.Instant.Grammar
import Coverage.Json.Record
/-!
Documents of the local inventory: identifiers, windows, products, orders and certificates. Each type
has a reader and the form in which its values are written.
-/

namespace Coverage

open Json (Reader Fields Value)

def ProductId.reader : Reader ProductId := Reader.text.map ProductId.mk

def ProductId.toValue (p : ProductId) : Value := .text p.text

def StackId.reader : Reader StackId := Reader.text.map StackId.mk

def StackId.toValue (s : StackId) : Value := .text s.text

def ConsumerId.reader : Reader ConsumerId := fun depth node =>
  (Reader.text depth node).bind ConsumerId.ofText?

def ConsumerId.toValue (c : ConsumerId) : Value := .text c.text

def Instant.reader : Reader Instant := fun depth node =>
  (Reader.text depth node).bind Instant.ofText?

def Instant.toValue (t : Instant) : Value := .text t.text

def Window.reader : Reader Window := fun depth node => do
  let fields ← Fields.read ["begin", "end"] depth node
  let opens ← fields.required "begin" Instant.reader
  let closes ← fields.required "end" Instant.reader
  return ⟨opens, closes⟩

def Window.toValue (w : Window) : Value :=
  .object [("begin", w.opens.toValue), ("end", w.closes.toValue)]

def Product.reader : Reader Product := fun depth node => do
  let fields ← Fields.read ["id", "name", "version", "arch"] depth node
  let id ← fields.required "id" ProductId.reader
  let name ← fields.required "name" Reader.text
  let version ← fields.required "version" Reader.text
  let arch ← fields.required "arch" Reader.text
  return ⟨id, name, version, arch⟩

def Product.toValue (p : Product) : Value :=
  .object [("id", p.id.toValue), ("name", .text p.name), ("version", .text p.version),
    ("arch", .text p.arch)]

def Order.reader : Reader Order := fun depth node => do
  let fields ← Fields.read ["name", "stacking_id", "warning_period_days"] depth node
  let name ← fields.nullable "name" Reader.text
  let stack ← fields.nullable "stacking_id" StackId.reader
  let days ← fields.withDefault "warning_period_days" 0 (Reader.natural UInt32.size)
  return ⟨name, stack, UInt32.ofNat days⟩

def Order.toValue (o : Order) : Value :=
  .object [("name", .ofOption .text o.name), ("stacking_id", .ofOption StackId.toValue o.stack),
    ("warning_period_days", .integer o.warningDays.toNat)]

def Certificate.reader : Reader Certificate := fun depth node => do
  let fields ← Fields.read ["serial", "validity", "products", "order"] depth node
  let serial ← fields.required "serial" (Reader.natural UInt64.size)
  let window ← fields.required "validity" Window.reader
  let products ← fields.required "products" ProductId.reader.list
  let order ← fields.nullable "order" Order.reader
  return ⟨UInt64.ofNat serial, window, products, order⟩

def Certificate.toValue (c : Certificate) : Value :=
  .object [("serial", .integer c.serial.toNat), ("validity", c.window.toValue),
    ("products", .ofList ProductId.toValue c.products), ("order", .ofOption Order.toValue c.order)]

def Table.toValue {κ ν : Type} [Named κ] (f : ν → Value) (t : Table κ ν) : Value :=
  .object (t.entries.map fun e => (Named.name e.1, f e.2))

end Coverage
