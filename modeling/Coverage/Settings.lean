import Coverage.Instant.Basic
/-!
Settings of a monitor: the instant that the authority is asked about, none for the present one, and
whether the list of installed products is pushed to the authority.
-/

namespace Coverage

structure Settings where
  onDate : Option Instant := none
  pushProducts : Bool := true
  deriving DecidableEq

def Settings.withOnDate (s : Settings) (t : Instant) : Settings := { s with onDate := some t }

end Coverage
