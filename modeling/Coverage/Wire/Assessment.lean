import Coverage.Assessment
import Coverage.Wire.Verdict
/-!
The documents in which assessments and failures are handed out.
-/

namespace Coverage

open Json (Value)

def Certificate.listValue (certificates : List Certificate) : Value :=
  .ofList Certificate.toValue certificates

def Assessment.toValue (a : Assessment) : Value :=
  .object [("valid_products", a.valid.toValue Payloads.toValue),
    ("partially_valid_products", a.partlyValid.toValue Payloads.toValue),
    ("partial_stacks", a.partialStacks.toValue Payloads.toValue),
    ("expired_products", a.expired.toValue Certificate.listValue),
    ("future_products", a.future.toValue Certificate.listValue),
    ("unentitled_products", a.unentitled.toValue Product.toValue),
    ("system_status", a.status.toValue), ("valid_until", .ofOption Instant.toValue a.lapse),
    ("valid_entitlement_certs", Certificate.listValue a.inForce),
    ("reasons", .ofList Reason.toValue a.reasons), ("supports_reasons", .bool a.supportsReasons)]

end Coverage
