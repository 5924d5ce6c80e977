import Coverage.Table
/-!
The vocabulary of verdicts: the status of the whole system, the standing of one product and the codes
of icons. Every word and code is part of the interface with other programs.
-/

namespace Coverage

inductive SystemStatus where
  | valid
  | invalid
  | partlyValid
  | disabled
  | unknown
  /-- A word that this vocabulary does not hold. -/
  | other (word : String)
  deriving DecidableEq, Repr

namespace SystemStatus

instance : Inhabited SystemStatus := ⟨unknown⟩

def word : SystemStatus → String
  | valid => "valid"
  | invalid => "invalid"
  | partlyValid => "partial"
  | disabled => "disabled"
  | unknown => "unknown"
  | other word => word

def ofWord (word : String) : SystemStatus :=
  if word = "valid" then valid
  else if word = "invalid" then invalid
  else if word = "partial" then partlyValid
  else if word = "disabled" then disabled
  else if word = "unknown" then unknown
  else other word

def label : SystemStatus → String
  | valid => "Current"
  | partlyValid => "Insufficient"
  | invalid => "Invalid"
  | disabled => "Disabled"
  | unknown | other _ => "Unknown"

def isKnown : SystemStatus → Bool
  | other _ => false
  | _ => true

def labels : Table String String :=
  .ofList ([valid, partlyValid, invalid, disabled, unknown].map fun s => (s.word, s.label))

end SystemStatus

inductive Standing where
  | future
  | subscribed
  | notSubscribed
  | expired
  | partlySubscribed
  | unknown
  deriving DecidableEq, Repr

namespace Standing

def all : List Standing :=
  [future, subscribed, notSubscribed, expired, partlySubscribed, unknown]

def word : Standing → String
  | future => "future_subscribed"
  | subscribed => "subscribed"
  | notSubscribed => "not_subscribed"
  | expired => "expired"
  | partlySubscribed => "partially_subscribed"
  | unknown => "unknown"

def ofWord? (word : String) : Option Standing := all.find? (·.word = word)

end Standing

inductive Icon where
  | valid
  | expired
  | warning
  | legacyMode
  | partlyValid
  | registrationRequired
  deriving DecidableEq, Repr

namespace Icon

def all : List Icon := [valid, expired, warning, legacyMode, partlyValid, registrationRequired]

def code : Icon → Nat
  | valid => 0
  | expired => 1
  | warning => 2
  | legacyMode => 3
  | partlyValid => 4
  | registrationRequired => 5

end Icon

end Coverage
