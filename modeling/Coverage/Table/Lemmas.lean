import Coverage.Table
/-!
What each operation on tables does to the entries and to look-ups. A table is determined by its
look-ups, so these equations are all that its users need.
-/

namespace Coverage.Table

variable {κ ν μ : Type} [Named κ]

theorem ext_entries {s t : Table κ ν} (h : s.entries = t.entries) : s = t := by
  cases s
  cases t
  simp_all

theorem keys_nodup (t : Table κ ν) : t.keys.Nodup := by
  refine List.Pairwise.map _ (fun a b before same => ?_) t.sorted
  exact String.lt_irrefl _ (same ▸ before : Named.name b.1 < Named.name b.1)

theorem mem_keys {t : Table κ ν} {k : κ} : k ∈ t.keys ↔ ∃ v, (k, v) ∈ t.entries := by
  constructor
  · intro member
    obtain ⟨e, he, rfl⟩ := List.mem_map.mp member
    exact ⟨e.2, he⟩
  · rintro ⟨v, member⟩
    exact List.mem_map.mpr ⟨(k, v), member, rfl⟩

theorem entry_unique {t : Table κ ν} {k : κ} {v w : ν} (hv : (k, v) ∈ t.entries)
    (hw : (k, w) ∈ t.entries) : v = w := by
  have sorted := t.sorted
  generalize t.entries = entries at *
  induction entries with
  | nil => simp at hv
  | cons head rest ih =>
    obtain ⟨above, tail⟩ := List.pairwise_cons.mp sorted
    rcases List.mem_cons.mp hv with h | h <;> rcases List.mem_cons.mp hw with h' | h'
    · exact congrArg Prod.snd (h.trans h'.symm)
    · exact absurd (above _ h') (h ▸ String.lt_irrefl _)
    · exact absurd (above _ h) (h' ▸ String.lt_irrefl _)
    · exact ih h h' tail

theorem entries_nodup (t : Table κ ν) : t.entries.Nodup :=
  t.sorted.imp fun {a b} before (same : a = b) =>
    String.lt_irrefl _ (same ▸ before : Named.name b.1 < Named.name b.1)

theorem mem_place_iff {k : κ} {v : ν} {e : κ × ν} {entries : List (κ × ν)}
    (sorted : entries.Pairwise fun a b => Named.name a.1 < Named.name b.1) :
    e ∈ place k v entries ↔ e = (k, v) ∨ e ∈ entries ∧ e.1 ≠ k := by
  induction entries with
  | nil => simp [place]
  | cons head rest ih =>
    obtain ⟨above, tail⟩ := List.pairwise_cons.mp sorted
    have differs {e' : κ × ν} (lt : Named.name k < Named.name e'.1) : e'.1 ≠ k := fun same =>
      String.lt_irrefl _ (same ▸ lt)
    simp only [place]
    split
    · rename_i before
      have old (member : e ∈ head :: rest) : e.1 ≠ k := by
        rcases List.mem_cons.mp member with h | h
        · exact h ▸ differs before
        · exact differs (String.lt_trans before (above e h))
      rw [List.mem_cons]
      exact or_congr_right (iff_self_and.mpr old)
    · split
      · rename_i same
        have headKey : head.1 = k := (Named.name_injective same).symm
        have old (member : e ∈ rest) : e.1 ≠ k := differs (same ▸ above e member)
        constructor
        · intro member
          rcases List.mem_cons.mp member with h | h
          · exact .inl h
          · exact .inr ⟨List.mem_cons_of_mem _ h, old h⟩
        · rintro (h | ⟨member, other⟩)
          · exact h ▸ List.mem_cons_self
          · rcases List.mem_cons.mp member with h | h
            · exact absurd (h ▸ headKey) other
            · exact List.mem_cons_of_mem _ h
      · rename_i _ notSame
        have headKey : head.1 ≠ k := fun h => notSame (h ▸ rfl)
        have other (h : e = head) : e.1 ≠ k := h ▸ headKey
        rw [List.mem_cons, ih tail, List.mem_cons]
        constructor
        · rintro (h | h | ⟨member, h⟩)
          · exact .inr ⟨.inl h, other h⟩
          · exact .inl h
          · exact .inr ⟨.inr member, h⟩
        · rintro (h | ⟨h | member, h'⟩)
          · exact .inr (.inl h)
          · exact .inl h
          · exact .inr (.inr ⟨member, h'⟩)

variable [DecidableEq κ]

theorem contains_iff {t : Table κ ν} {k : κ} : t.contains k = true ↔ k ∈ t.keys :=
  List.contains_iff_mem

theorem mem_of_get? {t : Table κ ν} {k : κ} {v : ν} (found : t.get? k = some v) :
    (k, v) ∈ t.entries := by
  unfold get? at found
  generalize t.entries = entries at found
  induction entries with
  | nil => simp at found
  | cons head rest ih =>
    rw [List.lookup_cons] at found
    split at found
    · rename_i same
      rw [← Option.some.inj found, eq_of_beq same]
      exact List.mem_cons_self
    · exact List.mem_cons_of_mem _ (ih found)

theorem get?_eq_some {t : Table κ ν} {k : κ} {v : ν} : t.get? k = some v ↔ (k, v) ∈ t.entries := by
  refine ⟨mem_of_get?, fun member => ?_⟩
  cases found : t.get? k with
  | none => exact absurd (List.lookup_eq_none_iff.mp found (k, v) member) (by simp)
  | some w => exact congrArg some (entry_unique (mem_of_get? found) member)

theorem get?_isSome {t : Table κ ν} {k : κ} : (t.get? k).isSome = t.contains k := by
  rw [Bool.eq_iff_iff, contains_iff, mem_keys, Option.isSome_iff_exists]
  simp only [get?_eq_some]

theorem ext_get? {s t : Table κ ν} (h : ∀ k, s.get? k = t.get? k) : s = t := by
  have member (e : κ × ν) : e ∈ s.entries ↔ e ∈ t.entries := by
    rw [← get?_eq_some, ← get?_eq_some, h]
  refine ext_entries (List.Perm.eq_of_pairwise (fun a b _ _ before after => ?_) s.sorted t.sorted ?_)
  · exact absurd (String.lt_trans before after) (String.lt_irrefl _)
  · exact (List.perm_ext_iff_of_nodup s.entries_nodup t.entries_nodup).mpr member

theorem get?_empty (k : κ) : (empty : Table κ ν).get? k = none := rfl

theorem get?_insert (t : Table κ ν) (k k' : κ) (v : ν) :
    (t.insert k v).get? k' = if k' = k then some v else t.get? k' := by
  refine Option.ext fun w => ?_
  rw [get?_eq_some, insert, mem_place_iff t.sorted]
  split
  · rename_i same
    subst same
    simp [eq_comm]
  · rename_i other
    rw [get?_eq_some]
    simp [other]

theorem get?_ofList (entries : List (κ × ν)) (k : κ) :
    (ofList entries).get? k = entries.reverse.lookup k := by
  suffices h : ∀ t : Table κ ν, (entries.foldl (fun t e => t.insert e.1 e.2) t).get? k =
      (entries.reverse.lookup k).or (t.get? k) by
    rw [ofList, h, get?_empty, Option.or_none]
  induction entries with
  | nil => exact fun t => rfl
  | cons e rest ih =>
    intro t
    rw [List.foldl_cons, ih, List.reverse_cons, List.lookup_append, get?_insert, Option.or_assoc]
    refine congrArg _ ?_
    by_cases same : k = e.1
    · rw [if_pos same, List.lookup_cons, beq_iff_eq.mpr same]
      rfl
    · rw [if_neg same, List.lookup_cons, beq_eq_false_iff_ne.mpr same]
      rfl

theorem get?_filter (p : κ → Bool) (t : Table κ ν) (k : κ) :
    (t.filter p).get? k = if p k then t.get? k else none := by
  refine Option.ext fun v => ?_
  rw [get?_eq_some, filter, List.mem_filter]
  split <;> simp_all [get?_eq_some]

theorem get?_filterMap (f : κ → ν → Option μ) (t : Table κ ν) (k : κ) :
    (t.filterMap f).get? k = (t.get? k).bind (f k) := by
  refine Option.ext fun w => ?_
  rw [get?_eq_some, filterMap, List.mem_filterMap, Option.bind_eq_some_iff]
  constructor
  · rintro ⟨e, member, h⟩
    obtain ⟨w', hw, same⟩ := Option.map_eq_some_iff.mp h
    obtain ⟨rfl, rfl⟩ := Prod.mk.inj same
    exact ⟨e.2, get?_eq_some.mpr member, hw⟩
  · rintro ⟨v, found, hw⟩
    exact ⟨(k, v), get?_eq_some.mp found, by rw [hw]; rfl⟩

theorem mem_keys_iff_get? {t : Table κ ν} {k : κ} : k ∈ t.keys ↔ ∃ v, t.get? k = some v := by
  rw [mem_keys]
  exact exists_congr fun v => get?_eq_some.symm

theorem mem_keys_filter {t : Table κ ν} {p : κ → Bool} {k : κ} :
    k ∈ (t.filter p).keys ↔ k ∈ t.keys ∧ p k = true := by
  simp only [mem_keys_iff_get?, get?_filter]
  by_cases kept : p k = true
  · simp [kept]
  · simp [kept]

theorem mem_keys_filterMap {t : Table κ ν} {f : κ → ν → Option μ} {k : κ} :
    k ∈ (t.filterMap f).keys ↔ ∃ v, t.get? k = some v ∧ (f k v).isSome := by
  simp only [mem_keys_iff_get?, get?_filterMap, Option.bind_eq_some_iff, Option.isSome_iff_exists]
  constructor
  · rintro ⟨w, v, found, mapped⟩
    exact ⟨v, found, w, mapped⟩
  · rintro ⟨v, found, w, mapped⟩
    exact ⟨w, v, found, mapped⟩

theorem mem_keys_ofList {entries : List (κ × ν)} {k : κ} :
    k ∈ (ofList entries).keys ↔ ∃ v, (k, v) ∈ entries := by
  simp only [mem_keys_iff_get?, get?_ofList, ← Option.isSome_iff_exists, List.lookup_isSome_iff]
  constructor
  · rintro ⟨e, member, same⟩
    exact ⟨e.2, by simpa [eq_of_beq same] using member⟩
  · rintro ⟨v, member⟩
    exact ⟨(k, v), by simpa using member, beq_self_eq_true k⟩

end Coverage.Table
