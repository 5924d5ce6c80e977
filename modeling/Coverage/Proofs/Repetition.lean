import Coverage.Proofs.Filing
import Mathlib.Data.List.Nodup
/-!
How often a certificate is filed under a product. The pass over the store takes the products of a
certificate one by one, so it files the certificate as often as that lists the product; the certificates
under a product are told apart by their serials exactly if none of them lists it twice.
-/

namespace Coverage

namespace Assessment

variable {v : Verdict} {c : Circumstances} {a : Assessment} {p : ProductId}

namespace Lists

variable {belongs : Certificate → Prop} {listed : List Certificate}

theorem count_eq (lists : Lists c p belongs listed) (distinct : (c.certificates.map (·.serial)).Nodup)
    {certificate : Certificate} (member : certificate ∈ listed) :
    listed.count certificate = certificate.products.count p := by
  obtain ⟨kept, -, belonging⟩ := (lists.mem certificate).mp member
  have once : c.certificates.count certificate = 1 :=
    List.count_eq_one_of_mem (List.Nodup.of_map _ distinct) kept
  calc listed.count certificate
      = c.certificates.count certificate * certificate.products.count p := lists.count certificate belonging
    _ = certificate.products.count p := by rw [once, Nat.one_mul]

theorem nodup_iff (lists : Lists c p belongs listed)
    (distinct : (c.certificates.map (·.serial)).Nodup) :
    listed.Nodup ↔ ∀ certificate ∈ listed, certificate.products.count p = 1 := by
  constructor
  · intro once certificate member
    rw [← lists.count_eq distinct member]
    exact List.count_eq_one_of_mem once member
  · intro single
    apply List.nodup_iff_count_le_one.mpr
    intro certificate
    by_cases member : certificate ∈ listed
    · have once := (lists.count_eq distinct member).trans (single certificate member)
      exact Nat.le_of_eq once
    · rw [List.count_eq_zero_of_not_mem member]
      exact Nat.zero_le 1

theorem serials_nodup_iff (lists : Lists c p belongs listed)
    (distinct : (c.certificates.map (·.serial)).Nodup) :
    (listed.map (·.serial)).Nodup ↔ ∀ certificate ∈ listed, certificate.products.count p = 1 := by
  rw [← lists.nodup_iff distinct]
  constructor
  · intro serials
    exact List.Nodup.of_map _ serials
  · intro once
    apply List.Nodup.map_on _ once
    intro first member second member' same
    have kept := ((lists.mem first).mp member).1
    have kept' := ((lists.mem second).mp member').1
    exact List.inj_on_of_nodup_map distinct kept kept' same

end Lists

def IsFiled (a : Assessment) (p : ProductId) (listed : List Certificate) : Prop :=
  a.future.get? p = some listed ∨ a.expired.get? p = some listed

theorem exists_lists_of_isFiled (assessed : assess? v c = some a) {listed : List Certificate}
    (filed : a.IsFiled p listed) : ∃ belongs, Lists c p belongs listed := by
  obtain ⟨lapse, -, rfl⟩ := Option.map_eq_some_iff.mp assessed
  rcases filed with future | expired
  · exact ⟨_, listed_of_get?_future future⟩
  · exact ⟨_, listed_of_get?_expired expired⟩

/-- In a store that tells its certificates apart by their serials, a certificate stands under a product as
often as it lists that product. So no serial stands there twice exactly if each of the certificates there
lists the product once, which they all do if no certificate of the store repeats a product. -/
theorem repeats_exact (assessed : assess? v c = some a)
    (distinct : (c.certificates.map (·.serial)).Nodup) :
    (∀ p listed, a.IsFiled p listed →
        (∀ certificate ∈ listed, listed.count certificate = certificate.products.count p) ∧
          ((listed.map (·.serial)).Nodup ↔
            ∀ certificate ∈ listed, certificate.products.count p = 1)) ∧
      ((∀ certificate ∈ c.certificates, certificate.products.Nodup) →
        ∀ p listed, a.IsFiled p listed → (listed.map (·.serial)).Nodup) := by
  constructor
  · intro p listed filed
    obtain ⟨belongs, lists⟩ := exists_lists_of_isFiled assessed filed
    exact ⟨fun certificate member => lists.count_eq distinct member, lists.serials_nodup_iff distinct⟩
  · intro single p listed filed
    obtain ⟨belongs, lists⟩ := exists_lists_of_isFiled assessed filed
    apply (lists.serials_nodup_iff distinct).mpr
    intro certificate member
    obtain ⟨kept, names, -⟩ := (lists.mem certificate).mp member
    exact List.count_eq_one_of_mem (single certificate kept) names

def repeatingCircumstances : Circumstances where
  contentAccess := false
  installed := .ofList ([⟨"once"⟩, ⟨"twice"⟩].map fun p => (p, .ofId p))
  find p := some (.ofId p)
  certificates := [.make 1 ⟨midnight 10, midnight 20⟩ [⟨"twice"⟩, ⟨"once"⟩, ⟨"twice"⟩]]
  now := midnight 200

/-- The one certificate of a store stands twice under a product. -/
theorem filed_twice : ∃ a, assess? {} repeatingCircumstances = some a ∧
    (repeatingCircumstances.certificates.map (·.serial)).Nodup ∧
    ∃ listed, a.expired.get? ⟨"twice"⟩ = some listed ∧ listed.map (·.serial) = [1, 1] ∧
      ¬(listed.map (·.serial)).Nodup := by
  have assessed : assess? {} repeatingCircumstances = some _ := rfl
  exact ⟨_, assessed, by decide, _, rfl, by decide +kernel, by decide +kernel⟩

theorem repeats_exact_mixed : ∃ a, assess? {} repeatingCircumstances = some a ∧
    (repeatingCircumstances.certificates.map (·.serial)).Nodup ∧
    (∃ listed, a.IsFiled ⟨"twice"⟩ listed ∧
      ∀ certificate ∈ listed, listed.count certificate = certificate.products.count ⟨"twice"⟩) ∧
    ∃ listed, a.IsFiled ⟨"once"⟩ listed ∧ (listed.map (·.serial)).Nodup := by
  have assessed : assess? {} repeatingCircumstances = some _ := rfl
  have distinct : (repeatingCircumstances.certificates.map (·.serial)).Nodup := by decide
  obtain ⟨rules, -⟩ := repeats_exact assessed distinct
  refine ⟨_, assessed, distinct, ⟨_, .inr rfl, ?_⟩, _, .inr rfl, ?_⟩
  · exact (rules ⟨"twice"⟩ _ (.inr rfl)).1
  · exact (rules ⟨"once"⟩ _ (.inr rfl)).2.mpr (by decide +kernel)

end Assessment

end Coverage
