import Coverage.Assessment
import Coverage.Table.Lemmas
/-!
Which bucket of an assessment a product falls in, said of the verdict and the circumstances alone: the
verdict's word on coverage counts first, then the certificates that list the product, then what is
installed. The rules exclude each other, so a product is in one bucket at most.
-/

namespace Coverage

namespace Verdict

def Covers (v : Verdict) (p : ProductId) : Prop :=
  p ∈ v.compliant.keys ∨ p ∈ v.partlyCompliant.keys

theorem covers_iff {v : Verdict} {p : ProductId} : v.covers p = true ↔ v.Covers p := by
  simp only [covers, Covers, Bool.or_eq_true, Table.contains_iff]

theorem covers_eq_false_iff {v : Verdict} {p : ProductId} : v.covers p = false ↔ ¬v.Covers p := by
  rw [← covers_iff, Bool.not_eq_true]

end Verdict

namespace Circumstances

def OpensLater (c : Circumstances) (p : ProductId) : Prop :=
  ∃ certificate ∈ c.certificates, p ∈ certificate.products ∧ c.now < certificate.window.opens

def HasClosed (c : Circumstances) (p : ProductId) : Prop :=
  ∃ certificate ∈ c.certificates, p ∈ certificate.products ∧ certificate.window.closes ≤ c.now

end Circumstances

namespace Assessment

variable {v : Verdict} {c : Circumstances} {a : Assessment} {p : ProductId}

/-- The rules by which a product is put into the buckets. -/
structure Classified (v : Verdict) (c : Circumstances) (a : Assessment) (p : ProductId) : Prop where
  partlyValid : p ∈ a.partlyValid.keys ↔ p ∈ v.partlyCompliant.keys
  valid : p ∈ a.valid.keys ↔ p ∈ v.compliant.keys ∧ p ∉ v.partlyCompliant.keys
  future : p ∈ a.future.keys ↔ p ∈ c.installed.keys ∧ ¬v.Covers p ∧ c.OpensLater p
  expired : p ∈ a.expired.keys ↔
    p ∈ c.installed.keys ∧ ¬v.Covers p ∧ ¬c.OpensLater p ∧ c.HasClosed p
  unentitled : p ∈ a.unentitled.keys ↔
    ¬v.Covers p ∧ p ∉ a.future.keys ∧ p ∉ a.expired.keys ∧ (c.find p).isSome ∧
      (p ∈ v.nonCompliant ∨ c.contentAccess = false ∧ p ∈ c.installed.keys)

def InBucket (a : Assessment) (p : ProductId) : Standing → Prop
  | .partlySubscribed => p ∈ a.partlyValid.keys
  | .subscribed => p ∈ a.valid.keys
  | .future => p ∈ a.future.keys
  | .expired => p ∈ a.expired.keys
  | .notSubscribed => p ∈ a.unentitled.keys
  | .unknown => p ∉ a.partlyValid.keys ∧ p ∉ a.valid.keys ∧ p ∉ a.future.keys ∧ p ∉ a.expired.keys ∧
      p ∉ a.unentitled.keys

theorem mem_listing {certificate : Certificate} :
    certificate ∈ listing c p ↔ certificate ∈ c.certificates ∧ p ∈ certificate.products := by
  simp only [listing, List.mem_flatMap, List.mem_replicate, ne_eq, List.count_eq_zero]
  constructor
  · intro listed
    obtain ⟨source, member, present, same⟩ := listed
    subst same
    exact ⟨member, Decidable.not_not.mp present⟩
  · intro listed
    exact ⟨certificate, listed.1, Decidable.not_not.mpr listed.2, rfl⟩

theorem futureListing_nonempty : (futureListing c p).isEmpty = false ↔ c.OpensLater p := by
  rw [List.isEmpty_eq_false_iff_exists_mem]
  simp only [futureListing, List.mem_filter, mem_listing, Window.startsAfter, decide_eq_true_eq,
    Circumstances.OpensLater, and_assoc]

theorem endedListing_nonempty (noneLater : ¬c.OpensLater p) :
    (endedListing c p).isEmpty = false ↔ c.HasClosed p := by
  rw [List.isEmpty_eq_false_iff_exists_mem]
  simp only [endedListing, List.mem_filter, mem_listing, Window.startsAfter, Window.endedBefore,
    Bool.and_eq_true, Bool.not_eq_true', decide_eq_true_eq, decide_eq_false_iff_not, and_assoc]
  constructor
  · intro ended
    obtain ⟨certificate, member, present, -, closed⟩ := ended
    exact ⟨certificate, member, present, closed⟩
  · intro ended
    obtain ⟨certificate, member, present, closed⟩ := ended
    refine ⟨certificate, member, present, ?_, closed⟩
    intro later
    exact noneLater ⟨certificate, member, present, later⟩

theorem mem_future :
    p ∈ (futureProducts v c).keys ↔ p ∈ c.installed.keys ∧ ¬v.Covers p ∧ c.OpensLater p := by
  rw [futureProducts, Table.mem_keys_filterMap, Table.mem_keys_iff_get?, ← Verdict.covers_eq_false_iff,
    ← futureListing_nonempty]
  constructor
  · intro kept
    obtain ⟨product, found, kept⟩ := kept
    split at kept
    · cases kept
    · rename_i neither
      rw [Bool.or_eq_true, not_or, Bool.not_eq_true, Bool.not_eq_true] at neither
      exact ⟨⟨product, found⟩, neither⟩
  · intro rule
    obtain ⟨⟨product, found⟩, uncovered, later⟩ := rule
    exact ⟨product, found, by rw [uncovered, later]; rfl⟩

theorem mem_expired :
    p ∈ (expiredProducts v c).keys ↔
      p ∈ c.installed.keys ∧ ¬v.Covers p ∧ ¬c.OpensLater p ∧ c.HasClosed p := by
  rw [expiredProducts, Table.mem_keys_filterMap, Table.mem_keys_iff_get?,
    ← Verdict.covers_eq_false_iff]
  constructor
  · intro kept
    obtain ⟨product, found, kept⟩ := kept
    split at kept
    · cases kept
    · rename_i neither
      simp only [Bool.or_eq_true, not_or, Bool.not_eq_true, Bool.not_eq_false'] at neither
      obtain ⟨⟨uncovered, noneLater⟩, ended⟩ := neither
      have opensNone : ¬c.OpensLater p := by
        rw [← futureListing_nonempty, noneLater]
        simp
      exact ⟨⟨product, found⟩, uncovered, opensNone, (endedListing_nonempty opensNone).mp ended⟩
  · intro rule
    obtain ⟨⟨product, found⟩, uncovered, opensNone, closed⟩ := rule
    have noneLater : (futureListing c p).isEmpty = true := by
      rw [← Bool.not_eq_false, futureListing_nonempty]
      exact opensNone
    have ended := (endedListing_nonempty opensNone).mpr closed
    exact ⟨product, found, by rw [uncovered, noneLater, ended]; rfl⟩

theorem mem_uncovered :
    p ∈ uncovered v c ↔ ¬v.Covers p ∧
      (p ∈ v.nonCompliant ∨ c.contentAccess = false ∧ p ∈ c.installed.keys) := by
  have keeps : (!v.covers p) = true ↔ ¬v.Covers p := by
    rw [Bool.not_eq_true', Verdict.covers_eq_false_iff]
  rw [uncovered, unmentioned, List.mem_append, List.mem_filter, keeps]
  cases judged : c.contentAccess with
  | true => simp [and_comm]
  | false =>
    simp only [Bool.false_eq_true, if_false, true_and, List.mem_filter, Bool.and_eq_true, keeps,
      Bool.not_eq_true', List.contains_eq_mem, decide_eq_false_iff_not]
    constructor
    · intro listed
      rcases listed with ⟨member, outside⟩ | ⟨present, outside, -⟩
      · exact ⟨outside, .inl member⟩
      · exact ⟨outside, .inr present⟩
    · intro rule
      rcases rule with ⟨outside, member | present⟩
      · exact .inl ⟨member, outside⟩
      · by_cases member : p ∈ v.nonCompliant
        · exact .inl ⟨member, outside⟩
        · exact .inr ⟨present, outside, member⟩

theorem mem_unentitled :
    p ∈ (unentitledProducts v c).keys ↔
      ¬v.Covers p ∧ p ∉ (futureProducts v c).keys ∧ p ∉ (expiredProducts v c).keys ∧
        (c.find p).isSome ∧
        (p ∈ v.nonCompliant ∨ c.contentAccess = false ∧ p ∈ c.installed.keys) := by
  have entry : (∃ product, (p, product) ∈
        (uncovered v c).filterMap fun p => (c.find p).map (p, ·)) ↔
      p ∈ uncovered v c ∧ (c.find p).isSome := by
    simp only [List.mem_filterMap, Option.map_eq_some_iff, Prod.mk.injEq, Option.isSome_iff_exists]
    constructor
    · intro entry
      obtain ⟨product, q, member, found, same, rfl, rfl⟩ := entry
      exact ⟨member, found, same⟩
    · intro listed
      obtain ⟨member, product, found⟩ := listed
      exact ⟨product, p, member, product, found, rfl, rfl⟩
  rw [unentitledProducts, Table.mem_keys_filter, Table.mem_keys_ofList, entry, mem_uncovered]
  simp only [Bool.and_eq_true, Bool.not_eq_true', ← Bool.not_eq_true, Table.contains_iff]
  constructor
  · intro member
    obtain ⟨⟨⟨outside, reported⟩, found⟩, notFuture, notExpired⟩ := member
    exact ⟨outside, notFuture, notExpired, found, reported⟩
  · intro member
    obtain ⟨outside, notFuture, notExpired, found, reported⟩ := member
    exact ⟨⟨⟨outside, reported⟩, found⟩, notFuture, notExpired⟩

theorem mem_fullyCompliant :
    p ∈ v.fullyCompliant.keys ↔ p ∈ v.compliant.keys ∧ p ∉ v.partlyCompliant.keys := by
  rw [Verdict.fullyCompliant, Table.mem_keys_filter, Bool.not_eq_true', ← Bool.not_eq_true,
    Table.contains_iff]

theorem classified_of_assess? (assessed : assess? v c = some a) : Classified v c a p := by
  obtain ⟨lapse, -, rfl⟩ := Option.map_eq_some_iff.mp assessed
  exact {
    partlyValid := Iff.rfl
    valid := mem_fullyCompliant
    future := mem_future
    expired := mem_expired
    unentitled := mem_unentitled }

/-- What one bucket holds, those that `standing` looks into after it do not hold. -/
def Exclusive (a : Assessment) (p : ProductId) : Prop :=
  (p ∈ a.partlyValid.keys →
    p ∉ a.valid.keys ∧ p ∉ a.future.keys ∧ p ∉ a.expired.keys ∧ p ∉ a.unentitled.keys) ∧
  (p ∈ a.valid.keys → p ∉ a.future.keys ∧ p ∉ a.expired.keys ∧ p ∉ a.unentitled.keys) ∧
  (p ∈ a.future.keys → p ∉ a.expired.keys ∧ p ∉ a.unentitled.keys) ∧
  (p ∈ a.expired.keys → p ∉ a.unentitled.keys)

theorem Classified.exclusive (rules : Classified v c a p) : Exclusive a p := by
  have partly (member : p ∈ a.partlyValid.keys) : v.Covers p := .inr (rules.partlyValid.mp member)
  have full (member : p ∈ a.valid.keys) : v.Covers p := .inl (rules.valid.mp member).1
  refine ⟨?_, ?_, ?_, ?_⟩
  · intro member
    refine ⟨?_, ?_, ?_, ?_⟩
    · intro other
      exact (rules.valid.mp other).2 (rules.partlyValid.mp member)
    · intro other
      exact (rules.future.mp other).2.1 (partly member)
    · intro other
      exact (rules.expired.mp other).2.1 (partly member)
    · intro other
      exact (rules.unentitled.mp other).1 (partly member)
  · intro member
    refine ⟨?_, ?_, ?_⟩
    · intro other
      exact (rules.future.mp other).2.1 (full member)
    · intro other
      exact (rules.expired.mp other).2.1 (full member)
    · intro other
      exact (rules.unentitled.mp other).1 (full member)
  · intro member
    constructor
    · intro other
      exact (rules.expired.mp other).2.2.1 (rules.future.mp member).2.2
    · intro other
      exact (rules.unentitled.mp other).2.1 member
  · intro member other
    exact (rules.unentitled.mp other).2.2.1 member

theorem Exclusive.bucketCount_le_one (exclusive : Exclusive a p) : a.bucketCount p ≤ 1 := by
  obtain ⟨partly, valid, future, expired⟩ := exclusive
  simp only [bucketCount, List.count_cons, List.count_nil, beq_iff_eq, Table.contains_iff]
  by_cases inPartly : p ∈ a.partlyValid.keys
  · have others := partly inPartly
    simp [inPartly, others]
  · by_cases inValid : p ∈ a.valid.keys
    · have others := valid inValid
      simp [inPartly, inValid, others]
    · by_cases inFuture : p ∈ a.future.keys
      · have others := future inFuture
        simp [inPartly, inValid, inFuture, others]
      · by_cases inExpired : p ∈ a.expired.keys
        · have other := expired inExpired
          simp [inPartly, inValid, inFuture, inExpired, other]
        · simp only [inPartly, inValid, inFuture, inExpired, if_false, Nat.zero_add]
          split <;> simp

theorem Exclusive.standing_eq_iff (exclusive : Exclusive a p) (standing : Standing) :
    a.standing p = standing ↔ a.InBucket p standing := by
  obtain ⟨partly, valid, future, expired⟩ := exclusive
  simp only [Assessment.standing, Table.contains_iff]
  by_cases inPartly : p ∈ a.partlyValid.keys
  · have others := partly inPartly
    cases standing <;> simp [InBucket, inPartly, others]
  · by_cases inValid : p ∈ a.valid.keys
    · have others := valid inValid
      cases standing <;> simp [InBucket, inPartly, inValid, others]
    · by_cases inFuture : p ∈ a.future.keys
      · have others := future inFuture
        cases standing <;> simp [InBucket, inPartly, inValid, inFuture, others]
      · by_cases inExpired : p ∈ a.expired.keys
        · have other := expired inExpired
          cases standing <;> simp [InBucket, inPartly, inValid, inFuture, inExpired, other]
        · by_cases inUnentitled : p ∈ a.unentitled.keys <;>
            cases standing <;>
            simp [InBucket, inPartly, inValid, inFuture, inExpired, inUnentitled]

theorem Classified.not_covers (rules : Classified v c a p) (outside : a.InBucket p .unknown) :
    ¬v.Covers p := by
  obtain ⟨notPartly, notValid, -⟩ := outside
  rw [rules.partlyValid] at notPartly
  intro covers
  rcases covers with full | partly
  · exact notValid (rules.valid.mpr ⟨full, notPartly⟩)
  · exact notPartly partly

/-- A product that is reported is left out of the buckets only if it is not found in the inventory. -/
theorem Classified.find_eq_none (rules : Classified v c a p) (outside : a.InBucket p .unknown)
    (reported : p ∈ v.nonCompliant ∨ c.contentAccess = false ∧ p ∈ c.installed.keys) :
    c.find p = none := by
  have uncovered := rules.not_covers outside
  obtain ⟨-, -, notFuture, notExpired, notUnentitled⟩ := outside
  rw [← Option.not_isSome_iff_eq_none]
  intro found
  exact notUnentitled (rules.unentitled.mpr ⟨uncovered, notFuture, notExpired, found, reported⟩)

/-- Every bucket holds exactly the products that the rules put into it, no product is in two, and the
standing of a product is that of its bucket. -/
theorem assess?_classifies (assessed : assess? v c = some a) (p : ProductId) :
    Classified v c a p ∧ a.bucketCount p ≤ 1 ∧
      (∀ standing, a.standing p = standing ↔ a.InBucket p standing) ∧
      (c.contentAccess = false → p ∈ c.installed.keys → (c.find p).isSome →
        a.standing p ≠ .unknown) := by
  have rules : Classified v c a p := classified_of_assess? assessed
  have exclusive := rules.exclusive
  refine ⟨rules, exclusive.bucketCount_le_one, exclusive.standing_eq_iff, ?_⟩
  intro judged installed found unknown
  have outside : a.InBucket p .unknown := (exclusive.standing_eq_iff .unknown).mp unknown
  rw [rules.find_eq_none outside (.inr ⟨judged, installed⟩)] at found
  cases found

def mixedVerdict : Verdict where
  compliant := .ofList [(⟨"both"⟩, []), (⟨"full"⟩, [])]
  partlyCompliant := .ofList [(⟨"both"⟩, [])]
  nonCompliant := [⟨"gap"⟩, ⟨"gap"⟩, ⟨"ghost"⟩, ⟨"late"⟩]

def midnight (day : Nat) : Instant := (Instant.make? day 0 0).getD Deadline.latest

/-- A certificate that has closed and one whose window is inverted: it opens later and has closed. -/
def mixedCircumstances : Circumstances where
  contentAccess := false
  installed := .ofList ([⟨"both"⟩, ⟨"gap"⟩, ⟨"late"⟩, ⟨"over"⟩, ⟨"quiet"⟩].map fun p => (p, .ofId p))
  find p := if p = ⟨"ghost"⟩ then none else some (.ofId p)
  certificates := [.make 1 ⟨midnight 10, midnight 20⟩ [⟨"over"⟩, ⟨"late"⟩, ⟨"both"⟩],
    .make 2 ⟨midnight 300, midnight 20⟩ [⟨"late"⟩, ⟨"late"⟩, ⟨"both"⟩]]
  now := midnight 200

theorem assess?_classifies_mixed :
    ∃ a, assess? mixedVerdict mixedCircumstances = some a ∧
      [⟨"both"⟩, ⟨"full"⟩, ⟨"late"⟩, ⟨"over"⟩, ⟨"gap"⟩, ⟨"quiet"⟩, ⟨"ghost"⟩].map a.standing =
        [.partlySubscribed, .subscribed, .future, .expired, .notSubscribed, .notSubscribed, .unknown] ∧
      Classified mixedVerdict mixedCircumstances a ⟨"late"⟩ ∧ a.bucketCount ⟨"late"⟩ ≤ 1 ∧
      (∀ standing, a.standing ⟨"late"⟩ = standing ↔ a.InBucket ⟨"late"⟩ standing) ∧
      a.standing ⟨"late"⟩ ≠ .unknown := by
  have assessed : assess? mixedVerdict mixedCircumstances = some _ := rfl
  obtain ⟨rules, count, standing, known⟩ := assess?_classifies assessed ⟨"late"⟩
  refine ⟨_, assessed, ?_, rules, count, standing, ?_⟩
  · decide +kernel
  · exact known rfl (by decide +kernel) (by decide)

end Assessment

end Coverage
