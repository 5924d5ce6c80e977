import Coverage.Settings
import Coverage.Verdict
import Coverage.Wire.Inventory
/-!
Documents of the authority, the words of the vocabulary, and settings. Every field of a reason, of a
verdict and of the settings may be absent.
-/

namespace Coverage

open Json (Reader Fields Value)

def SystemStatus.reader : Reader SystemStatus := Reader.text.map SystemStatus.ofWord

def SystemStatus.toValue (s : SystemStatus) : Value := .text s.word

/-- A word, or an object with the word as its only key and null as its value. -/
def Standing.reader : Reader Standing
  | _, .text content => content.bind Standing.ofWord?
  | _ + 1, .object [(key, .null)] => key.bind Standing.ofWord?
  | _, _ => none

def Standing.toValue (s : Standing) : Value := .text s.word

def Reason.reader : Reader Reason := fun depth node => do
  let fields ← Fields.read ["key", "message", "attributes"] depth node
  let key ← fields.withDefault "key" "" Reader.text
  let message ← fields.withDefault "message" "" Reader.text
  let attributes ← fields.withDefault "attributes" .empty (Reader.table id Reader.text)
  return ⟨key, message, attributes⟩

def Reason.toValue (r : Reason) : Value :=
  .object [("key", .text r.key), ("message", .text r.message),
    ("attributes", r.attributes.toValue .text)]

def Payloads.reader : Reader Payloads := Reader.list Value.ofNode?

def Payloads.toValue (payloads : Payloads) : Value := .array payloads

def Verdict.reader : Reader Verdict := fun depth node => do
  let fields ← Fields.read ["compliantProducts", "partiallyCompliantProducts", "partialStacks",
    "nonCompliantProducts", "status", "compliantUntil", "reasons"] depth node
  let products := Reader.table ProductId.mk Payloads.reader
  let compliant ← fields.withDefault "compliantProducts" .empty products
  let partlyCompliant ← fields.withDefault "partiallyCompliantProducts" .empty products
  let partialStacks ← fields.withDefault "partialStacks" .empty
    (Reader.table StackId.mk Payloads.reader)
  let nonCompliant ← fields.withDefault "nonCompliantProducts" [] ProductId.reader.list
  let status ← fields.withDefault "status" none Reader.text.nullable
  let compliantUntil ← fields.withDefault "compliantUntil" none Reader.text.nullable
  let reasons ← fields.withDefault "reasons" none Reason.reader.list.nullable
  return { compliant, partlyCompliant, partialStacks, nonCompliant, status, compliantUntil, reasons }

def Verdict.toValue (v : Verdict) : Value :=
  .object [("compliantProducts", v.compliant.toValue Payloads.toValue),
    ("partiallyCompliantProducts", v.partlyCompliant.toValue Payloads.toValue),
    ("partialStacks", v.partialStacks.toValue Payloads.toValue),
    ("nonCompliantProducts", .ofList ProductId.toValue v.nonCompliant),
    ("status", .ofOption .text v.status), ("compliantUntil", .ofOption .text v.compliantUntil),
    ("reasons", .ofOption (.ofList Reason.toValue) v.reasons)]

def Settings.reader : Reader Settings := fun depth node => do
  let fields ← Fields.read ["on_date", "sync_installed_products"] depth node
  let onDate ← fields.withDefault "on_date" none Instant.reader.nullable
  let pushProducts ← fields.withDefault "sync_installed_products" true Reader.bool
  return ⟨onDate, pushProducts⟩

def Settings.toValue (s : Settings) : Value :=
  .object [("on_date", .ofOption Instant.toValue s.onDate),
    ("sync_installed_products", .bool s.pushProducts)]

end Coverage
