import Coverage.Proofs.Classification
/-!
What the buckets hold. One pass over the store files each certificate under the unclassified products
that it lists, and the tables that come of it are those of the assessment: nothing that belongs under a
product is lost, nothing else is filed, and the order is that of the store. The other buckets hold what
the verdict or the inventory has for their products.
-/

namespace Coverage

section

variable {α : Type} {source list : List α}

/-- The list is read off the source at places that never go back. -/
def Along (source list : List α) : Prop :=
  ∃ places : List Nat, places.Pairwise (· ≤ ·) ∧ list.map some = places.map (source[·]?)

theorem Along.sublist {shorter : List α} (along : Along source list) (within : shorter.Sublist list) :
    Along source shorter := by
  obtain ⟨places, ascending, same⟩ := along
  have kept : (shorter.map some).Sublist (places.map (source[·]?)) := by
    rw [← same]
    exact within.map some
  obtain ⟨fewer, among, read⟩ := List.sublist_map_iff.mp kept
  exact ⟨fewer, ascending.sublist among, read⟩

theorem along_replicate (times : α → Nat) (source : List α) :
    Along source (source.flatMap fun a => List.replicate (times a) a) := by
  induction source with
  | nil => exact ⟨[], .nil, rfl⟩
  | cons a rest ih =>
      obtain ⟨places, ascending, same⟩ := ih
      refine ⟨List.replicate (times a) 0 ++ places.map (· + 1), ?_, ?_⟩
      · rw [List.pairwise_append]
        refine ⟨List.pairwise_replicate.mpr (.inr (Nat.le_refl 0)), ?_, ?_⟩
        · rw [List.pairwise_map]
          exact ascending.imp fun le => Nat.add_le_add_right le 1
        · intro first inFront later behind
          rw [(List.mem_replicate.mp inFront).2]
          exact Nat.zero_le later
      · simp only [List.flatMap_cons, List.map_append, List.map_replicate, same, List.map_map]
        rfl

theorem count_replicate [DecidableEq α] (times : α → Nat) (source : List α) (a : α) :
    (source.flatMap fun b => List.replicate (times b) b).count a = source.count a * times a := by
  induction source with
  | nil => simp
  | cons b rest ih =>
      rw [List.flatMap_cons, List.count_append, ih, List.count_replicate, List.count_cons, Nat.add_mul,
        Nat.add_comm]
      by_cases same : b = a
      · simp [same]
      · simp [same]

end

theorem lookup_given {κ ν : Type} [DecidableEq κ] (f : κ → Option ν) (keys : List κ) (k : κ) :
    (keys.filterMap fun p => (f p).map (p, ·)).lookup k = if k ∈ keys then f k else none := by
  induction keys with
  | nil => rfl
  | cons p rest ih =>
      by_cases same : k = p
      · subst same
        cases given : f k with
        | none => simp [given, ih]
        | some value => simp [given]
      · have other : (k == p) = false := beq_eq_false_iff_ne.mpr same
        cases given : f p with
        | none => simp [given, ih, same]
        | some value => simp [given, ih, same, other, List.lookup_cons]

structure Files where
  future : Table ProductId (List Certificate) := .empty
  expired : Table ProductId (List Certificate) := .empty
  inForce : List Certificate := []

namespace Files

def put (t : Table ProductId (List Certificate)) (p : ProductId) (certificate : Certificate) :
    Table ProductId (List Certificate) :=
  t.insert p ((t.get? p).getD [] ++ [certificate])

section

variable (unclassified : ProductId → Bool) (now : Instant)

def fileUnder (certificate : Certificate) (files : Files) (p : ProductId) : Files :=
  if !unclassified p then files
  else if certificate.window.startsAfter now then
    { files with future := put files.future p certificate }
  else if certificate.window.endedBefore now then
    { files with expired := put files.expired p certificate }
  else files

def keepInForce (files : Files) (certificate : Certificate) : Files :=
  if certificate.window.contains now then { files with inForce := files.inForce ++ [certificate] }
  else files

def add (files : Files) (certificate : Certificate) : Files :=
  certificate.products.foldl (fileUnder unclassified now certificate) (keepInForce now files certificate)

def ofStore (certificates : List Certificate) : Files :=
  certificates.foldl (add unclassified now) {}

end

def filed? (certificates : List Certificate) : Option (List Certificate) :=
  if certificates.isEmpty then none else some certificates

/-- The certificates have been gone through as often under each product as `seen` says, and filed if the
product is unclassified. -/
structure Holds (unclassified : ProductId → Bool) (now : Instant) (seen : ProductId → List Certificate)
    (files : Files) : Prop where
  future : ∀ p, files.future.get? p =
    filed? ((seen p).filter fun certificate => unclassified p && certificate.window.startsAfter now)
  expired : ∀ p, files.expired.get? p =
    filed? ((seen p).filter fun certificate => unclassified p &&
      (!certificate.window.startsAfter now && certificate.window.endedBefore now))

theorem get?_put (t : Table ProductId (List Certificate)) (p q : ProductId) (certificate : Certificate) :
    (put t p certificate).get? q =
      if q = p then some ((t.get? p).getD [] ++ [certificate]) else t.get? q :=
  Table.get?_insert t p q _

theorem getD_filed? (certificates : List Certificate) : (filed? certificates).getD [] = certificates := by
  cases certificates <;> rfl

theorem filed?_concat (certificates : List Certificate) (certificate : Certificate) :
    filed? (certificates ++ [certificate]) = some (certificates ++ [certificate]) := by
  simp [filed?]

variable {unclassified : ProductId → Bool} {now : Instant} {seen : ProductId → List Certificate}
  {files : Files}

theorem get?_after {t t' : Table ProductId (List Certificate)} (test : ProductId → Certificate → Bool)
    {certificate : Certificate} {p : ProductId}
    (holds : ∀ q, t.get? q = filed? ((seen q).filter (test q)))
    (taken : t' = if test p certificate then put t p certificate else t) (q : ProductId) :
    t'.get? q = filed? ((if q = p then seen q ++ [certificate] else seen q).filter (test q)) := by
  subst taken
  by_cases passes : test p certificate = true
  · rw [if_pos passes, get?_put]
    by_cases same : q = p
    · subst same
      rw [if_pos rfl, if_pos rfl, holds, getD_filed?, List.filter_append,
        List.filter_cons_of_pos passes, List.filter_nil, filed?_concat]
    · rw [if_neg same, if_neg same, holds]
  · rw [if_neg passes, holds]
    by_cases same : q = p
    · subst same
      simp [passes]
    · rw [if_neg same]

theorem Holds.fileUnder (holds : Holds unclassified now seen files) (certificate : Certificate)
    (p : ProductId) :
    Holds unclassified now (fun q => if q = p then seen q ++ [certificate] else seen q)
      (fileUnder unclassified now certificate files p) := by
  constructor
  · apply get?_after (fun q certificate => unclassified q && certificate.window.startsAfter now)
      holds.future
    unfold Files.fileUnder
    cases unclassified p <;> cases certificate.window.startsAfter now <;>
      cases certificate.window.endedBefore now <;> rfl
  · apply get?_after (fun q certificate => unclassified q &&
      (!certificate.window.startsAfter now && certificate.window.endedBefore now)) holds.expired
    unfold Files.fileUnder
    cases unclassified p <;> cases certificate.window.startsAfter now <;>
      cases certificate.window.endedBefore now <;> rfl

theorem Holds.fileAll (holds : Holds unclassified now seen files) (certificate : Certificate)
    (products : List ProductId) :
    Holds unclassified now (fun q => seen q ++ List.replicate (products.count q) certificate)
      (products.foldl (Files.fileUnder unclassified now certificate) files) := by
  induction products generalizing seen files with
  | nil => simpa using holds
  | cons p rest ih =>
      have further := ih (holds.fileUnder certificate p)
      have same : (fun q => (if q = p then seen q ++ [certificate] else seen q) ++
          List.replicate (rest.count q) certificate) =
          fun q => seen q ++ List.replicate ((p :: rest).count q) certificate := by
        funext q
        by_cases here : q = p
        · subst here
          rw [if_pos rfl, List.count_cons_self, List.replicate_succ, List.append_assoc]
          rfl
        · rw [if_neg here, List.count_cons_of_ne (Ne.symm here)]
      rw [same] at further
      exact further

theorem Holds.add (holds : Holds unclassified now seen files) (certificate : Certificate) :
    Holds unclassified now
      (fun q => seen q ++ List.replicate (certificate.products.count q) certificate)
      (add unclassified now files certificate) := by
  apply Holds.fileAll
  unfold keepInForce
  split
  · exact ⟨holds.future, holds.expired⟩
  · exact holds

theorem Holds.addAll (holds : Holds unclassified now seen files) (certificates : List Certificate) :
    Holds unclassified now
      (fun q => seen q ++ certificates.flatMap fun certificate =>
        List.replicate (certificate.products.count q) certificate)
      (certificates.foldl (Files.add unclassified now) files) := by
  induction certificates generalizing seen files with
  | nil => simpa using holds
  | cons certificate rest ih =>
      have further := ih (holds.add certificate)
      simpa only [List.append_assoc, List.flatMap_cons, List.foldl_cons] using further

theorem inForce_fileAll (certificate : Certificate) (products : List ProductId) (files : Files) :
    (products.foldl (Files.fileUnder unclassified now certificate) files).inForce = files.inForce := by
  induction products generalizing files with
  | nil => rfl
  | cons p rest ih =>
      rw [List.foldl_cons, ih, Files.fileUnder]
      split
      · rfl
      · split
        · rfl
        · split <;> rfl

theorem inForce_addAll (certificates : List Certificate) (files : Files) :
    (certificates.foldl (Files.add unclassified now) files).inForce =
      files.inForce ++ certificates.filter (·.window.contains now) := by
  induction certificates generalizing files with
  | nil => simp
  | cons certificate rest ih =>
      rw [List.foldl_cons, ih, Files.add, inForce_fileAll, keepInForce, List.filter_cons]
      split
      · rw [List.append_assoc]
        rfl
      · rfl

end Files

namespace Assessment

variable {v : Verdict} {c : Circumstances} {a : Assessment} {p : ProductId}

def unclassified (v : Verdict) (c : Circumstances) (p : ProductId) : Bool :=
  c.installed.contains p && !v.covers p

def files (v : Verdict) (c : Circumstances) : Files :=
  .ofStore (unclassified v c) c.now c.certificates

theorem holds_files : Files.Holds (unclassified v c) c.now (listing c) (files v c) := by
  have start : Files.Holds (unclassified v c) c.now (fun _ => []) {} := ⟨fun _ => rfl, fun _ => rfl⟩
  exact start.addAll c.certificates

theorem get?_future : (futureProducts v c).get? p =
    if unclassified v c p then Files.filed? (futureListing c p) else none := by
  rw [futureProducts, Table.get?_filterMap, unclassified, ← Table.get?_isSome]
  cases c.installed.get? p with
  | none => rfl
  | some product => cases v.covers p <;> simp [Files.filed?]

theorem get?_expired : (expiredProducts v c).get? p =
    if unclassified v c p && (futureListing c p).isEmpty then Files.filed? (endedListing c p)
    else none := by
  rw [expiredProducts, Table.get?_filterMap, unclassified, ← Table.get?_isSome]
  cases c.installed.get? p with
  | none => rfl
  | some product =>
      cases v.covers p <;> cases (futureListing c p).isEmpty <;> simp [Files.filed?]

theorem get?_unentitled : (unentitledProducts v c).get? p =
    if p ∈ uncovered v c ∧ p ∉ (futureProducts v c).keys ∧ p ∉ (expiredProducts v c).keys
    then c.find p else none := by
  rw [unentitledProducts, Table.get?_filter, Table.get?_ofList, ← List.filterMap_reverse, lookup_given]
  simp only [List.mem_reverse, Bool.and_eq_true, Bool.not_eq_true', ← Bool.not_eq_true, Table.contains_iff]
  by_cases listed : p ∈ uncovered v c
  · simp [listed]
  · simp [listed]

/-- The buckets hold what the pass has filed; of a product with certificates of both kinds only the
future ones count. -/
theorem files_eq : (files v c).future = futureProducts v c ∧
    ((files v c).expired.filter fun p => !(files v c).future.contains p) = expiredProducts v c ∧
    (files v c).inForce = c.certificates.filter (·.window.contains c.now) := by
  have held : Files.Holds (unclassified v c) c.now (listing c) (files v c) := holds_files
  have future (p : ProductId) : (files v c).future.get? p = (futureProducts v c).get? p := by
    rw [held.future, get?_future, futureListing]
    cases unclassified v c p <;> simp [Files.filed?]
  have expired (p : ProductId) :
      ((files v c).expired.filter fun p => !(files v c).future.contains p).get? p =
        (expiredProducts v c).get? p := by
    rw [Table.get?_filter, ← Table.get?_isSome, future, held.expired, get?_future, get?_expired,
      endedListing]
    cases unclassified v c p with
    | false => simp [Files.filed?]
    | true => cases empty : (futureListing c p).isEmpty <;> simp [Files.filed?, empty]
  exact ⟨Table.ext_get? future, Table.ext_get? expired, Files.inForce_addAll c.certificates {}⟩

/-- Of the certificates that list a product these are the ones that belong: all of them, in the order of
the store, and each as often as it lists the product. -/
structure Lists (c : Circumstances) (p : ProductId) (belongs : Certificate → Prop)
    (listed : List Certificate) : Prop where
  mem : ∀ certificate, certificate ∈ listed ↔
    certificate ∈ c.certificates ∧ p ∈ certificate.products ∧ belongs certificate
  along : Along c.certificates listed
  count : ∀ certificate, belongs certificate →
    listed.count certificate = c.certificates.count certificate * certificate.products.count p

theorem lists_filter {belongs : Certificate → Prop} {test : Certificate → Bool}
    (exact : ∀ certificate, test certificate = true ↔ belongs certificate) :
    Lists c p belongs ((listing c p).filter test) := by
  refine ⟨?_, ?_, ?_⟩
  · intro certificate
    rw [List.mem_filter, mem_listing, exact, and_assoc]
  · exact (along_replicate _ c.certificates).sublist List.filter_sublist
  · intro certificate belonging
    rw [List.count_filter ((exact certificate).mpr belonging)]
    exact count_replicate _ c.certificates certificate

theorem listed_of_get?_future {certificates : List Certificate}
    (filed : (futureProducts v c).get? p = some certificates) :
    Lists c p (fun certificate => c.now < certificate.window.opens) certificates := by
  rw [get?_future, Files.filed?] at filed
  split at filed
  · split at filed
    · cases filed
    · cases filed
      exact lists_filter fun certificate => decide_eq_true_iff
  · cases filed

theorem listed_of_get?_expired {certificates : List Certificate}
    (filed : (expiredProducts v c).get? p = some certificates) :
    Lists c p (fun certificate =>
      certificate.window.opens ≤ c.now ∧ certificate.window.closes ≤ c.now) certificates := by
  rw [get?_expired, Files.filed?] at filed
  split at filed
  · split at filed
    · cases filed
    · cases filed
      apply lists_filter
      intro certificate
      rw [Bool.and_eq_true, Bool.not_eq_true', Window.startsAfter, Window.endedBefore,
        decide_eq_false_iff_not, decide_eq_true_iff, ← Instant.le_iff_not_lt]
  · cases filed

structure Contents (v : Verdict) (c : Circumstances) (a : Assessment) : Prop where
  valid : ∀ p payloads, a.valid.get? p = some payloads ↔
    v.compliant.get? p = some payloads ∧ p ∉ v.partlyCompliant.keys
  partlyValid : a.partlyValid = v.partlyCompliant
  partialStacks : a.partialStacks = v.partialStacks
  unentitled : ∀ p ∈ a.unentitled.keys, a.unentitled.get? p = c.find p
  future : ∀ p certificates, a.future.get? p = some certificates →
    Lists c p (fun certificate => c.now < certificate.window.opens) certificates
  expired : ∀ p certificates, a.expired.get? p = some certificates →
    Lists c p (fun certificate =>
      certificate.window.opens ≤ c.now ∧ certificate.window.closes ≤ c.now) certificates
  inForce : a.inForce = c.certificates.filter fun certificate =>
    certificate.window.opens ≤ c.now ∧ c.now < certificate.window.closes
  /-- One pass over the store files the same. -/
  pass : (files v c).future = a.future ∧
    ((files v c).expired.filter fun p => !(files v c).future.contains p) = a.expired ∧
    (files v c).inForce = a.inForce

/-- The buckets hold what the verdict, the inventory and the store have for their products, whole and
unchanged. -/
theorem contents_exact (assessed : assess? v c = some a) : Contents v c a := by
  obtain ⟨lapse, -, rfl⟩ := Option.map_eq_some_iff.mp assessed
  refine {
    valid := ?_
    partlyValid := rfl
    partialStacks := rfl
    unentitled := ?_
    future := fun p certificates => listed_of_get?_future
    expired := fun p certificates => listed_of_get?_expired
    inForce := ?_
    pass := files_eq }
  · intro p payloads
    rw [Verdict.fullyCompliant, Table.get?_filter]
    by_cases partly : p ∈ v.partlyCompliant.keys
    · simp [partly, Table.contains_iff.mpr partly]
    · simp [partly, Bool.eq_false_iff.mpr (mt Table.contains_iff.mp partly)]
  · intro p member
    obtain ⟨product, found⟩ := Table.mem_keys_iff_get?.mp member
    rw [get?_unentitled] at found ⊢
    split at found
    · rename_i rule
      rw [if_pos rule]
    · cases found
  · apply List.filter_congr
    intro certificate member
    rw [Window.contains, Bool.decide_and]

theorem contents_exact_mixed :
    ∃ a, assess? mixedVerdict mixedCircumstances = some a ∧
      ((a.future.get? ⟨"late"⟩).map fun listed => listed.map (·.serial)) = some [2, 2] ∧
      Contents mixedVerdict mixedCircumstances a := by
  have assessed : assess? mixedVerdict mixedCircumstances = some _ := rfl
  exact ⟨_, assessed, by decide +kernel, contents_exact assessed⟩

end Assessment

end Coverage
