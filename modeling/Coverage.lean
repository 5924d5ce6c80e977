import Coverage.Json.Printer
import Coverage.Program.Trace
import Coverage.Proofs.Classification
import Coverage.Proofs.Contact
import Coverage.Proofs.ContentAccess
import Coverage.Proofs.Document.Stable
import Coverage.Proofs.Drift
import Coverage.Proofs.Filing
import Coverage.Proofs.Hearing
import Coverage.Proofs.Identity
import Coverage.Proofs.Inventory
import Coverage.Proofs.Lapse
import Coverage.Proofs.LapseDate
import Coverage.Proofs.LastPush
import Coverage.Proofs.Moments
import Coverage.Proofs.Opening
import Coverage.Proofs.Overlap
import Coverage.Proofs.Passes
import Coverage.Proofs.Phases
import Coverage.Proofs.Polling
import Coverage.Proofs.Provenance
import Coverage.Proofs.Registration
import Coverage.Proofs.Spelling.Marks
import Coverage.Proofs.Stability
import Coverage.Proofs.Stacking
import Coverage.Proofs.Upkeep
import Coverage.Scenario.Machine
import Coverage.Scenario.Rehearsal
import Coverage.Scenario.Session
import Coverage.Table.Lemmas
import Coverage.Wire.Assessment
import Coverage.Proofs.Remaining
import Coverage.Proofs.Span
import Coverage.Proofs.Repetition
import Coverage.Proofs.StaleWarning
import Coverage.Proofs.WarningPeriod
