import Coverage.Proofs.Classification
import Coverage.Proofs.Course.Monitor
import Coverage.Scenario.World
/-!
Where the verdict and the machine disagree, that shows. Every product that the verdict names, and every
installed one where installation is judged, is in one bucket or is noted not to be on the system; and the
installed products that the verdict does not mention are noted, each once and in the order of the
identifiers.
-/

namespace Coverage

def notesOf (trace : Trace) : List Notice :=
  trace.filterMap fun exchange =>
    match exchange.request with
    | .note notice => some notice
    | _ => none

theorem notesOf_noted (notices : List Notice) : notesOf (noted notices) = notices := by
  induction notices with
  | nil => rfl
  | cons notice rest ih => exact congrArg (notice :: ·) ih

def missingIn (log : List Notice) : List ProductId :=
  log.filterMap fun notice =>
    match notice with
    | .missingFromVerdict p => some p
    | _ => none

def Verdict.Mentions (v : Verdict) (p : ProductId) : Prop := v.Covers p ∨ p ∈ v.nonCompliant

namespace Assessment

variable {v : Verdict} {c : Circumstances} {a : Assessment} {p : ProductId}

/-- The product is to be accounted for: the verdict names it, or it is installed and that is judged. -/
def Concerns (v : Verdict) (c : Circumstances) (p : ProductId) : Prop :=
  v.Mentions p ∨ c.contentAccess = false ∧ p ∈ c.installed.keys

theorem bucketCount_eq_zero_iff : a.bucketCount p = 0 ↔ a.InBucket p .unknown := by
  simp only [bucketCount, InBucket, List.count_eq_zero, List.mem_cons, List.not_mem_nil, or_false, not_or,
    eq_comm (a := true), Table.contains_iff]
  constructor
  · intro outside
    obtain ⟨valid, partly, expired, future, unentitled⟩ := outside
    exact ⟨partly, valid, future, expired, unentitled⟩
  · intro outside
    obtain ⟨partly, valid, future, expired, unentitled⟩ := outside
    exact ⟨valid, partly, expired, future, unentitled⟩

theorem Exclusive.bucketCount_eq_one_iff (exclusive : Exclusive a p) :
    a.bucketCount p = 1 ↔ ¬a.InBucket p .unknown := by
  have most := exclusive.bucketCount_le_one
  rw [← bucketCount_eq_zero_iff]
  omega

/-- A product to be accounted for is left out of the buckets only if it is not found. -/
theorem Classified.lost (rules : Classified v c a p) (concerns : Concerns v c p)
    (outside : a.InBucket p .unknown) : p ∈ uncovered v c ∧ c.find p = none := by
  have notCovered := rules.not_covers outside
  have reported : p ∈ v.nonCompliant ∨ c.contentAccess = false ∧ p ∈ c.installed.keys := by
    rcases concerns with (covers | listed) | installed
    · exact absurd covers notCovered
    · exact .inl listed
    · exact .inr installed
  exact ⟨mem_uncovered.mpr ⟨notCovered, reported⟩, rules.find_eq_none outside reported⟩

theorem mem_unmentioned :
    p ∈ unmentioned v c ↔ c.contentAccess = false ∧ p ∈ c.installed.keys ∧ ¬v.Mentions p := by
  unfold unmentioned Verdict.Mentions
  cases c.contentAccess with
  | true => simp
  | false => simp [Verdict.covers_eq_false_iff]

theorem unmentioned_ascending :
    (unmentioned v c).Pairwise fun p q => Named.name p < Named.name q := by
  have keys : c.installed.keys.Pairwise fun p q => Named.name p < Named.name q :=
    List.pairwise_map.mpr c.installed.sorted
  unfold unmentioned
  split
  · exact .nil
  · exact keys.filter _

theorem missingIn_append (first later : List Notice) :
    missingIn (first ++ later) = missingIn first ++ missingIn later :=
  List.filterMap_append

theorem missingIn_notices : missingIn (notices v c) = unmentioned v c := by
  have deadline : missingIn v.deadlineNotices = [] := by
    unfold Verdict.deadlineNotices
    split <;> rfl
  have twice (products : List ProductId) : missingIn (products.map .reportedTwice) = [] := by
    simp [missingIn]
  have absent (products : List ProductId) : missingIn (products.map .notOnSystem) = [] := by
    simp [missingIn]
  have missing (products : List ProductId) :
      missingIn (products.map .missingFromVerdict) = products := by
    rw [missingIn, List.filterMap_map]
    exact List.filterMap_some
  simp only [notices, missingIn_append, deadline, twice, absent, missing, List.nil_append,
    List.append_nil]

theorem notOnSystem_mem_notices :
    .notOnSystem p ∈ notices v c ↔ p ∈ uncovered v c ∧ c.find p = none := by
  have deadline : .notOnSystem p ∉ v.deadlineNotices := by
    unfold Verdict.deadlineNotices
    split <;> simp
  simp [notices, deadline]

/-- What the log of a judgement has to say of the products. -/
structure Accounts (v : Verdict) (c : Circumstances) (a : Assessment) (log : List Notice) : Prop where
  /-- No product gets lost without a word. -/
  placed : ∀ p, Concerns v c p → a.bucketCount p = 1 ∨ c.find p = none ∧ .notOnSystem p ∈ log
  absent : ∀ p, .notOnSystem p ∈ log ↔ c.find p = none ∧ ¬v.Covers p ∧
    (p ∈ v.nonCompliant ∨ c.contentAccess = false ∧ p ∈ c.installed.keys)
  missing : ∀ p, p ∈ missingIn log ↔
    c.contentAccess = false ∧ p ∈ c.installed.keys ∧ ¬v.Mentions p
  /-- So none is noted twice. -/
  ascending : (missingIn log).Pairwise fun p q => Named.name p < Named.name q

theorem accounts_of_assess? (assessed : assess? v c = some a) :
    Accounts v c a (notices v c ++ [.assessed a.overview, .partialStacks a.partialStacks.keys]) := by
  have absent (p : ProductId) : .notOnSystem p ∈
      notices v c ++ [.assessed a.overview, .partialStacks a.partialStacks.keys] ↔
      p ∈ uncovered v c ∧ c.find p = none := by
    simp [notOnSystem_mem_notices]
  have missing : missingIn
      (notices v c ++ [.assessed a.overview, .partialStacks a.partialStacks.keys]) =
      unmentioned v c := by
    rw [missingIn_append, missingIn_notices]
    exact List.append_nil _
  constructor
  · intro p concerns
    have rules : Classified v c a p := classified_of_assess? assessed
    rw [rules.exclusive.bucketCount_eq_one_iff, absent]
    by_cases outside : a.InBucket p .unknown
    · have lost := rules.lost concerns outside
      exact .inr ⟨lost.2, lost⟩
    · exact .inl outside
  · intro p
    rw [absent, mem_uncovered, and_comm]
  · intro p
    rw [missing, mem_unmentioned]
  · rw [missing]
    exact unmentioned_ascending

end Assessment

open Assessment

variable {m m' : Monitor} {v : Verdict} {c : Circumstances} {trace : Trace}

/-- A verdict that is joined with the circumstances leaves no product unaccounted for: what is in no
bucket, and what the verdict does not mention, is noted in the log, and nothing else is noted so. -/
theorem drift_noted (judged : (m.judge v c).Yields trace (.finished m')) :
    assess? v c = some m'.view ∧ Accounts v c m'.view (notesOf trace) := by
  obtain ⟨notices, noting, judges⟩ := Monitor.judges_of_yields judged
  subst noting
  rw [notesOf_noted]
  cases judges with
  | finished assessed => exact ⟨assessed, accounts_of_assess? assessed⟩

def driftingWorld : Scenario.World where
  now := midnight 200
  consumer := some ⟨1⟩

theorem drift_noted_mixed :
    ∃ trace m', ((⟨{}, .authority, .empty, {}⟩ : Monitor).judge mixedVerdict mixedCircumstances).Yields trace
        (.finished m') ∧
      m'.view.bucketCount ⟨"ghost"⟩ = 0 ∧ .notOnSystem ⟨"ghost"⟩ ∈ notesOf trace ∧
      missingIn (notesOf trace) = [⟨"over"⟩, ⟨"quiet"⟩] ∧
      Accounts mixedVerdict mixedCircumstances m'.view (notesOf trace) := by
  have judged := Program.yields_record Scenario.World.answer
    ((⟨{}, .authority, .empty, {}⟩ : Monitor).judge mixedVerdict mixedCircumstances) driftingWorld
  exact ⟨_, _, judged, by decide +kernel, by decide +kernel, by decide +kernel, (drift_noted judged).2⟩

end Coverage
