import Coverage.Proofs.Classification
/-!
Products that are called expired or future although a certificate in force lists them. The buckets look
for one certificate that is out of force, not at all that list the product, so they are right exactly as
long as no uncovered product is listed by one certificate in force and by another that is not.
-/

namespace Coverage

namespace Window

theorem contains_eq_false_iff {w : Window} {t : Instant} :
    w.contains t = false ↔ t < w.opens ∨ w.closes ≤ t := by
  rw [← Bool.not_eq_true, contains, Bool.and_eq_true, decide_eq_true_eq, decide_eq_true_eq,
    Instant.le_iff_not_lt, Instant.le_iff_not_lt]
  by_cases later : t < w.opens
  · simp [later]
  · simp [later]

theorem not_contains_of_closed {w : Window} {t : Instant} (closed : w.closes ≤ t) :
    w.contains t = false :=
  contains_eq_false_iff.mpr (.inr closed)

end Window

namespace Circumstances

variable {c : Circumstances} {p : ProductId}

def IsInForce (c : Circumstances) (p : ProductId) : Prop :=
  ∃ certificate ∈ c.certificates, p ∈ certificate.products ∧ certificate.window.contains c.now = true

def IsOutOfForce (c : Circumstances) (p : ProductId) : Prop :=
  ∃ certificate ∈ c.certificates, p ∈ certificate.products ∧ certificate.window.contains c.now = false

theorem isOutOfForce_iff : c.IsOutOfForce p ↔ c.OpensLater p ∨ c.HasClosed p := by
  simp only [IsOutOfForce, OpensLater, HasClosed, Window.contains_eq_false_iff]
  constructor
  · intro outside
    obtain ⟨certificate, member, listed, later | closed⟩ := outside
    · exact .inl ⟨certificate, member, listed, later⟩
    · exact .inr ⟨certificate, member, listed, closed⟩
  · intro outside
    rcases outside with ⟨certificate, member, listed, later⟩ | ⟨certificate, member, listed, closed⟩
    · exact ⟨certificate, member, listed, .inl later⟩
    · exact ⟨certificate, member, listed, .inr closed⟩

/-- If no certificate that lists the product opens later, one that has not closed is in force. -/
theorem not_isInForce_iff (noneLater : ¬c.OpensLater p) :
    ¬c.IsInForce p ↔ ∀ certificate ∈ c.certificates, p ∈ certificate.products →
      certificate.window.closes ≤ c.now := by
  constructor
  · intro idle certificate member listed
    have outside : certificate.window.contains c.now = false := by
      rw [← Bool.not_eq_true]
      intro inForce
      exact idle ⟨certificate, member, listed, inForce⟩
    rcases Window.contains_eq_false_iff.mp outside with later | closed
    · exact absurd ⟨certificate, member, listed, later⟩ noneLater
    · exact closed
  · intro closed inForce
    obtain ⟨certificate, member, listed, contains⟩ := inForce
    rw [Window.not_contains_of_closed (closed certificate member listed)] at contains
    cases contains

end Circumstances

namespace Assessment

variable {v : Verdict} {c : Circumstances} {a : Assessment} {p : ProductId}

def IsLapsed (a : Assessment) (p : ProductId) : Prop := p ∈ a.expired.keys ∨ p ∈ a.future.keys

theorem Classified.isLapsed_iff (rules : Classified v c a p) :
    a.IsLapsed p ↔ p ∈ c.installed.keys ∧ ¬v.Covers p ∧ c.IsOutOfForce p := by
  unfold IsLapsed
  rw [rules.expired, rules.future, Circumstances.isOutOfForce_iff]
  constructor
  · intro lapsed
    rcases lapsed with ⟨installed, uncovered, -, closed⟩ | ⟨installed, uncovered, later⟩
    · exact ⟨installed, uncovered, .inr closed⟩
    · exact ⟨installed, uncovered, .inl later⟩
  · intro rule
    obtain ⟨installed, uncovered, outside⟩ := rule
    by_cases later : c.OpensLater p
    · exact .inr ⟨installed, uncovered, later⟩
    · exact .inl ⟨installed, uncovered, later, outside.resolve_left later⟩

/-- The products that are called expired or future are the installed, uncovered ones of which some
certificate is out of force. None of them is listed by a certificate in force exactly if no installed,
uncovered product has certificates of both kinds; and one that is called expired is not listed by a
certificate in force exactly if all that list it have closed. -/
theorem lapsed_exact (assessed : assess? v c = some a) :
    (∀ p, a.IsLapsed p ↔ p ∈ c.installed.keys ∧ ¬v.Covers p ∧ c.IsOutOfForce p) ∧
      ((∀ p, a.IsLapsed p → ¬c.IsInForce p) ↔
        ∀ p ∈ c.installed.keys, ¬v.Covers p → ¬(c.IsInForce p ∧ c.IsOutOfForce p)) ∧
      ∀ p ∈ a.expired.keys, ¬c.IsInForce p ↔
        ∀ certificate ∈ c.certificates, p ∈ certificate.products →
          certificate.window.closes ≤ c.now := by
  have lapsed (p : ProductId) := (classified_of_assess? (p := p) assessed).isLapsed_iff
  refine ⟨lapsed, ?_, ?_⟩
  · constructor
    · intro idle p installed uncovered both
      exact idle p ((lapsed p).mpr ⟨installed, uncovered, both.2⟩) both.1
    · intro apart p filed inForce
      obtain ⟨installed, uncovered, outside⟩ := (lapsed p).mp filed
      exact apart p installed uncovered ⟨inForce, outside⟩
  · intro p expired
    have noneLater := ((classified_of_assess? assessed).expired.mp expired).2.2.1
    exact Circumstances.not_isInForce_iff noneLater

def overlappingCircumstances : Circumstances where
  contentAccess := false
  installed := .ofList ([⟨"renewed"⟩, ⟨"extended"⟩].map fun p => (p, .ofId p))
  find p := some (.ofId p)
  certificates := [.make 1 ⟨midnight 10, midnight 20⟩ [⟨"renewed"⟩],
    .make 2 ⟨midnight 100, midnight 300⟩ [⟨"renewed"⟩, ⟨"extended"⟩],
    .make 3 ⟨midnight 300, midnight 400⟩ [⟨"extended"⟩]]
  now := midnight 200

instance (c : Circumstances) (p : ProductId) : Decidable (c.IsInForce p) :=
  inferInstanceAs (Decidable (∃ certificate ∈ c.certificates, _))

/-- Products are called expired and future while a certificate in force lists them. -/
theorem lapsed_in_force : ∃ a, assess? {} overlappingCircumstances = some a ∧
    (∀ certificate ∈ overlappingCircumstances.certificates,
      certificate.window.opens ≤ certificate.window.closes) ∧
    (⟨"renewed"⟩ ∈ a.expired.keys ∧ overlappingCircumstances.IsInForce ⟨"renewed"⟩) ∧
    ⟨"extended"⟩ ∈ a.future.keys ∧ overlappingCircumstances.IsInForce ⟨"extended"⟩ := by
  have assessed : assess? {} overlappingCircumstances = some _ := rfl
  exact ⟨_, assessed, by decide +kernel, by decide +kernel, by decide +kernel⟩

theorem lapsed_exact_overlapping : ∃ a, assess? {} overlappingCircumstances = some a ∧
    ¬∀ p, a.IsLapsed p → ¬overlappingCircumstances.IsInForce p := by
  have assessed : assess? {} overlappingCircumstances = some _ := rfl
  refine ⟨_, assessed, ?_⟩
  rw [(lapsed_exact assessed).2.1]
  intro apart
  refine apart ⟨"renewed"⟩ (by decide +kernel) ?_ ⟨by decide +kernel, ?_⟩
  · rw [← Verdict.covers_iff]
    decide
  · exact Circumstances.isOutOfForce_iff.mpr (.inr ⟨_, .head _, by decide, by decide +kernel⟩)

end Assessment

end Coverage
