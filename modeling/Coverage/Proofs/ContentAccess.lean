import Coverage.Proofs.Drift
import Coverage.Proofs.Filing
import Coverage.Proofs.Overlap
/-!
What simple content access changes. In that mode the authority does not judge what is installed, and an
assessment leaves products out of the unentitled ones that the verdict does not list as uncovered. That
is all: the certificates in the store are looked through as ever, so installed products are still called
expired or future that the verdict does not mention.
-/

namespace Coverage

/-- The same circumstances where the authority judges what is installed. -/
def Circumstances.judged (c : Circumstances) : Circumstances := { c with contentAccess := false }

namespace Assessment

variable {v : Verdict} {c : Circumstances} {a : Assessment} {p : ProductId}

theorem mem_uncovered_of_contentAccess (access : c.contentAccess = true) :
    p ∈ uncovered v c ↔ p ∈ uncovered v c.judged ∧ p ∈ v.nonCompliant := by
  rw [mem_uncovered, mem_uncovered, access]
  constructor
  · intro listed
    obtain ⟨outside, listed | ⟨judged, -⟩⟩ := listed
    · exact ⟨⟨outside, .inl listed⟩, listed⟩
    · cases judged
  · intro listed
    exact ⟨listed.1.1, .inl listed.2⟩

theorem unentitled_of_contentAccess (access : c.contentAccess = true) :
    unentitledProducts v c = (unentitledProducts v c.judged).filter fun p => v.nonCompliant.contains p := by
  have future : futureProducts v c.judged = futureProducts v c := rfl
  have expired : expiredProducts v c.judged = expiredProducts v c := rfl
  have find : c.judged.find = c.find := rfl
  apply Table.ext_get?
  intro p
  rw [Table.get?_filter, get?_unentitled, get?_unentitled, future, expired, find]
  simp only [mem_uncovered_of_contentAccess access]
  by_cases listed : p ∈ v.nonCompliant
  · simp [listed]
  · simp [listed]

theorem assess?_of_contentAccess (access : c.contentAccess = true) :
    assess? v c = (assess? v c.judged).map fun a =>
      { a with unentitled := a.unentitled.filter fun p => v.nonCompliant.contains p } := by
  unfold assess?
  rw [unentitled_of_contentAccess access, Option.map_map]
  rfl

theorem Classified.outside_iff (rules : Classified v c a p) (access : c.contentAccess = true)
    (unmentioned : ¬v.Mentions p) : a.InBucket p .unknown ↔ ¬a.IsLapsed p := by
  have uncovered : ¬v.Covers p := fun covers => unmentioned (.inl covers)
  have notPartly : p ∉ a.partlyValid.keys := fun member => uncovered (.inr (rules.partlyValid.mp member))
  have notValid : p ∉ a.valid.keys := fun member => uncovered (.inl (rules.valid.mp member).1)
  have notUnentitled : p ∉ a.unentitled.keys := by
    rw [rules.unentitled, access]
    rintro ⟨-, -, -, -, listed | ⟨judged, -⟩⟩
    · exact unmentioned (.inr listed)
    · cases judged
  unfold InBucket IsLapsed
  simp only [notPartly, notValid, notUnentitled, not_false_eq_true, true_and, and_true, not_or]
  exact and_comm

/-- Under simple content access an assessment differs from the one that would be made without it only in
the unentitled products, of which it has those that the verdict lists as uncovered. An installed product
that the verdict does not mention is in no bucket exactly if no certificate that lists it is out of force;
so every product in the local buckets is one that the verdict lists exactly if it lists every installed
product that it does not cover and of which some certificate is out of force. -/
theorem content_access_exact (access : c.contentAccess = true) (assessed : assess? v c = some a) :
    (∃ b, assess? v c.judged = some b ∧
      a = { b with unentitled := b.unentitled.filter fun p => v.nonCompliant.contains p }) ∧
    (∀ p ∈ a.unentitled.keys, p ∈ v.nonCompliant) ∧
    (∀ p ∈ c.installed.keys, ¬v.Mentions p → (a.bucketCount p = 0 ↔ ¬c.IsOutOfForce p)) ∧
    ((∀ p, p ∈ a.unentitled.keys ∨ a.IsLapsed p → p ∈ v.nonCompliant) ↔
      ∀ p ∈ c.installed.keys, ¬v.Covers p → c.IsOutOfForce p → p ∈ v.nonCompliant) := by
  have rules (p : ProductId) : Classified v c a p := classified_of_assess? assessed
  have listed (p : ProductId) (member : p ∈ a.unentitled.keys) : p ∈ v.nonCompliant := by
    rcases ((rules p).unentitled.mp member).2.2.2.2 with listed | ⟨judged, -⟩
    · exact listed
    · rw [access] at judged
      cases judged
  refine ⟨?_, listed, ?_, ?_⟩
  · rw [assess?_of_contentAccess access] at assessed
    obtain ⟨b, without, same⟩ := Option.map_eq_some_iff.mp assessed
    exact ⟨b, without, same.symm⟩
  · intro p installed unmentioned
    have uncovered : ¬v.Covers p := fun covers => unmentioned (.inl covers)
    rw [bucketCount_eq_zero_iff, (rules p).outside_iff access unmentioned, (rules p).isLapsed_iff]
    simp [installed, uncovered]
  · constructor
    · intro law p installed uncovered outside
      exact law p (.inr ((rules p).isLapsed_iff.mpr ⟨installed, uncovered, outside⟩))
    · intro each p filed
      rcases filed with unentitled | lapsed
      · exact listed p unentitled
      · obtain ⟨installed, uncovered, outside⟩ := (rules p).isLapsed_iff.mp lapsed
        exact each p installed uncovered outside

def accessCircumstances : Circumstances where
  contentAccess := true
  installed := .ofList ([⟨"lapsed"⟩, ⟨"bought"⟩, ⟨"bare"⟩].map fun p => (p, .ofId p))
  find p := some (.ofId p)
  certificates := [.make 1 ⟨midnight 10, midnight 20⟩ [⟨"lapsed"⟩],
    .make 2 ⟨midnight 300, midnight 400⟩ [⟨"bought"⟩]]
  now := midnight 200

/-- Products that the authority does not list are called expired and future. -/
theorem unlisted_lapsed_of_contentAccess : ∃ a, assess? {} accessCircumstances = some a ∧
    accessCircumstances.contentAccess = true ∧
    (⟨"lapsed"⟩ ∈ a.expired.keys ∧ ⟨"bought"⟩ ∈ a.future.keys) ∧
    ∀ p, p ∉ ({} : Verdict).nonCompliant := by
  have assessed : assess? {} accessCircumstances = some _ := rfl
  exact ⟨_, assessed, rfl, by decide +kernel, by simp⟩

theorem content_access_exact_unlisted : ∃ a, assess? {} accessCircumstances = some a ∧
    accessCircumstances.contentAccess = true ∧
    a.bucketCount ⟨"lapsed"⟩ ≠ 0 ∧ a.bucketCount ⟨"bare"⟩ = 0 ∧
    ¬∀ p, p ∈ a.unentitled.keys ∨ a.IsLapsed p → p ∈ ({} : Verdict).nonCompliant := by
  have assessed : assess? {} accessCircumstances = some _ := rfl
  obtain ⟨-, -, buckets, law⟩ := content_access_exact rfl assessed
  have outside : accessCircumstances.IsOutOfForce ⟨"lapsed"⟩ :=
    Circumstances.isOutOfForce_iff.mpr (.inr ⟨_, .head _, by decide, by decide +kernel⟩)
  have uncovered (p : ProductId) : ¬({} : Verdict).Covers p := Verdict.covers_eq_false_iff.mp rfl
  refine ⟨_, assessed, rfl, ?_, by decide +kernel, ?_⟩
  · rw [Ne, buckets ⟨"lapsed"⟩ (by decide +kernel) (by simp [Verdict.Mentions, uncovered])]
    exact not_not_intro outside
  · rw [law]
    intro listed
    cases listed ⟨"lapsed"⟩ (by decide +kernel) (uncovered _) outside

end Assessment

end Coverage
