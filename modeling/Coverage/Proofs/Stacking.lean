import Coverage.Grouping
import Coverage.Table.Lemmas
import Mathlib.Data.List.FinRange
/-!
Grouping is a stable partition. While entitlements are added one by one, every group is the one that its
first member starts among those added so far, and the places are exactly those of the keys of the groups.
The positions of a list are grouped like the entitlements at them, which tells equal entitlements apart.
-/

namespace Coverage

variable {α ι : Type}

def Group.map (f : ι → α) (g : Group ι) : Group α := ⟨g.name, g.members.map f⟩

def Assembly.map (f : ι → α) (a : Assembly ι) : Assembly α := ⟨a.groups.map (·.map f), a.places⟩

theorem Group.head?_join {g : Group α} {first : α} (starts : g.members.head? = some first)
    (entitlement : α) : (g.join entitlement).members.head? = some first := by
  simp [join, List.head?_append, starts]

theorem Group.map_join (f : ι → α) (g : Group ι) (i : ι) : (g.join i).map f = (g.map f).join (f i) := by
  simp [join, map]

namespace Scheme

variable {s : Scheme α} {done : List α} {a : Assembly α}

theorem stackKey_eq_some {e : α} {key : StackId} :
    s.stackKey e = some key ↔ s.key e = some key ∧ key.text ≠ "" := by
  simp [stackKey, Option.filter_eq_some_iff]

def groupKey (s : Scheme α) (g : Group α) : Option StackId := g.members.head?.bind s.stackKey

def groupOf (s : Scheme α) (all : List α) (first : α) : Group α :=
  match s.stackKey first with
  | none => ⟨none, [first]⟩
  | some key => ⟨s.name first, all.filter (s.stackKey · = some key)⟩

theorem groupOf_of_none {first : α} (single : s.stackKey first = none) (all : List α) :
    s.groupOf all first = ⟨none, [first]⟩ := by
  simp [groupOf, single]

theorem groupOf_of_some {first : α} {key : StackId} (keyed : s.stackKey first = some key)
    (all : List α) :
    s.groupOf all first = ⟨s.name first, all.filter (s.stackKey · = some key)⟩ := by
  simp [groupOf, keyed]

theorem stackKey_of_mem_groupOf {first e : α} {key : StackId} (keyed : s.stackKey first = some key)
    (joined : e ∈ (s.groupOf done first).members) : s.stackKey e = some key := by
  rw [groupOf_of_some keyed] at joined
  simpa using (List.mem_filter.mp joined).2

theorem groupOf_append_of_ne {first e : α}
    (apart : ∀ key, s.stackKey first = some key → s.stackKey e ≠ some key) :
    s.groupOf (done ++ [e]) first = s.groupOf done first := by
  cases keyed : s.stackKey first with
  | none => rw [groupOf_of_none keyed, groupOf_of_none keyed]
  | some key =>
      have other : s.stackKey e ≠ some key := apart key keyed
      rw [groupOf_of_some keyed, groupOf_of_some keyed, List.filter_append]
      simp [other]

theorem groupOf_append_of_eq {first e : α} {key : StackId} (keyed : s.stackKey first = some key)
    (joins : s.stackKey e = some key) :
    s.groupOf (done ++ [e]) first = (s.groupOf done first).join e := by
  rw [groupOf_of_some keyed, groupOf_of_some keyed, List.filter_append]
  simp [Group.join, joins]

/-- What an assembly has come to once some entitlements are added. -/
structure Assembles (s : Scheme α) (done : List α) (a : Assembly α) : Prop where
  formed : ∀ g ∈ a.groups, ∃ first, g.members.head? = some first ∧ g = s.groupOf done first
  once : (a.groups.flatMap (·.members)).Perm done
  inOrder : (a.groups.filterMap (·.members.head?)).Sublist done
  placed : ∀ key place, a.places.get? key = some place ↔
    (a.groups.map s.groupKey)[place]? = some (some key)

theorem Assembles.nil (s : Scheme α) : s.Assembles [] {} where
  formed g member := absurd member (List.not_mem_nil)
  once := List.Perm.refl []
  inOrder := List.Sublist.refl []
  placed key place := by simp [Table.get?_empty]

theorem Assembles.apart (assembled : s.Assembles done a) {before after : List (Group α)} {g : Group α}
    {key : StackId} (split : a.groups = before ++ g :: after) (known : s.groupKey g = some key) :
    ∀ other ∈ before ++ after, s.groupKey other ≠ some key := by
  have here : a.places.get? key = some before.length := by
    rw [assembled.placed, split]
    simp [known]
  intro other member same
  have elsewhere (place : Nat) (found : a.groups[place]? = some other) : place = before.length := by
    have there : a.places.get? key = some place := by
      rw [assembled.placed]
      simp [found, same]
    exact Option.some.inj (there.symm.trans here)
  rcases List.mem_append.mp member with earlier | later
  · obtain ⟨place, found⟩ := List.mem_iff_getElem?.mp earlier
    have below : place < before.length := (List.getElem?_eq_some_iff.mp found).1
    have position := elsewhere place (by rw [split, List.getElem?_append_left below, found])
    omega
  · obtain ⟨place, found⟩ := List.mem_iff_getElem?.mp later
    have position := elsewhere (before.length + (place + 1)) (by
      rw [split, List.getElem?_append_right (by omega)]
      simpa using found)
    omega

theorem Assembles.join (assembled : s.Assembles done a) {e : α} {key : StackId} {place : Nat}
    (joins : s.stackKey e = some key) (found : a.places.get? key = some place) :
    s.Assembles (done ++ [e]) { a with groups := a.groups.modify place (·.join e) } := by
  have atPlace : (a.groups.map s.groupKey)[place]? = some (some key) :=
    (assembled.placed key place).mp found
  have inside : place < a.groups.length := by
    have bound := (List.getElem?_eq_some_iff.mp atPlace).1
    simpa using bound
  obtain ⟨before, g, after, split, rfl, modified⟩ := List.exists_of_modify (·.join e) inside
  have known : s.groupKey g = some key := by simpa [split] using atPlace
  have apart := assembled.apart split known
  obtain ⟨first, starts, own⟩ := assembled.formed g (by simp [split])
  have keyed : s.stackKey first = some key := by simpa [groupKey, starts] using known
  have sameKey : s.groupKey (g.join e) = s.groupKey g := by
    simp only [groupKey, Group.head?_join starts, starts]
  have unchanged : ∀ other ∈ before ++ after,
      ∃ leader, other.members.head? = some leader ∧ other = s.groupOf (done ++ [e]) leader := by
    intro other member
    have present : other ∈ a.groups := by
      rw [split]
      simp only [List.mem_append, List.mem_cons] at member ⊢
      tauto
    obtain ⟨leader, leads, formed⟩ := assembled.formed other present
    refine ⟨leader, leads, ?_⟩
    rw [groupOf_append_of_ne, ← formed]
    intro key' keyed' same
    apply apart other member
    rw [groupKey, leads, ← joins, same]
    exact keyed'
  rw [modified]
  refine ⟨?_, ?_, ?_, ?_⟩
  · intro h member
    simp only [List.mem_append, List.mem_cons] at member
    rcases member with earlier | rfl | later
    · exact unchanged h (List.mem_append_left after earlier)
    · exact ⟨first, Group.head?_join starts e, by rw [groupOf_append_of_eq keyed joins, ← own]⟩
    · exact unchanged h (List.mem_append_right before later)
  · have whole := assembled.once
    rw [split] at whole
    simp only [List.flatMap_append, List.flatMap_cons, Group.join] at whole ⊢
    have moved : (before.flatMap (·.members) ++ (g.members ++ ([e] ++ after.flatMap (·.members)))).Perm
        (before.flatMap (·.members) ++ (g.members ++ (after.flatMap (·.members) ++ [e]))) :=
      (List.perm_append_comm.append_left g.members).append_left _
    have added := whole.append_right [e]
    simp only [List.append_assoc] at moved added ⊢
    exact moved.trans added
  · have heads := assembled.inOrder
    rw [split] at heads
    simp only [List.filterMap_append, List.filterMap_cons, Group.head?_join starts, starts] at heads ⊢
    exact heads.trans (List.sublist_append_left done [e])
  · intro key' place'
    rw [assembled.placed, split]
    simp only [List.map_append, List.map_cons, sameKey]

theorem Assembles.start (assembled : s.Assembles done a) {e : α} {name : Option String}
    {places : Table StackId Nat} (own : s.groupOf (done ++ [e]) e = ⟨name, [e]⟩)
    (apart : ∀ g ∈ a.groups, ∀ key, s.groupKey g = some key → s.stackKey e ≠ some key)
    (placed : ∀ key place, places.get? key = some place ↔
      (a.groups.map s.groupKey ++ [s.stackKey e])[place]? = some (some key)) :
    s.Assembles (done ++ [e]) ⟨a.groups ++ [⟨name, [e]⟩], places⟩ where
  formed g member := by
    rcases List.mem_append.mp member with earlier | new
    · obtain ⟨first, starts, formed⟩ := assembled.formed g earlier
      refine ⟨first, starts, ?_⟩
      rw [groupOf_append_of_ne, ← formed]
      intro key keyed
      apply apart g earlier key
      rw [groupKey, starts]
      exact keyed
    · rw [List.mem_singleton.mp new]
      exact ⟨e, rfl, own.symm⟩
  once := by
    have whole := assembled.once.append_right [e]
    simpa using whole
  inOrder := by
    have heads := assembled.inOrder.append_right [e]
    simpa using heads
  placed key place := by
    rw [placed]
    simp [groupKey]

/-- The members of a group have its key, if they have one. -/
theorem Assembles.groupKey_of_mem (assembled : s.Assembles done a) {g : Group α} {e : α} {key : StackId}
    (present : g ∈ a.groups) (joined : e ∈ g.members) (keyed : s.stackKey e = some key) :
    s.groupKey g = some key := by
  obtain ⟨first, starts, formed⟩ := assembled.formed g present
  rw [groupKey, starts]
  show s.stackKey first = some key
  rw [formed] at joined
  cases own : s.stackKey first with
  | none =>
      rw [groupOf_of_none own] at joined
      rw [← own, ← List.mem_singleton.mp joined, keyed]
  | some other => rw [← stackKey_of_mem_groupOf own joined, keyed]

theorem Assembles.exists_group (assembled : s.Assembles done a) {e : α} (member : e ∈ done) :
    ∃ g ∈ a.groups, e ∈ g.members :=
  List.mem_flatMap.mp (assembled.once.mem_iff.mpr member)

/-- A group with a key holds all that stack. -/
theorem Assembles.members_of_groupKey (assembled : s.Assembles done a) {g : Group α} {key : StackId}
    (present : g ∈ a.groups) (keyed : s.groupKey g = some key) :
    g.members = done.filter (s.stackKey · = some key) := by
  obtain ⟨first, starts, formed⟩ := assembled.formed g present
  have own : s.stackKey first = some key := by simpa [groupKey, starts] using keyed
  rw [formed, groupOf_of_some own]

theorem Assembles.fresh (assembled : s.Assembles done a) {key : StackId}
    (absent : a.places.get? key = none) :
    (∀ g ∈ a.groups, s.groupKey g ≠ some key) ∧ ∀ e ∈ done, s.stackKey e ≠ some key := by
  have groups : ∀ g ∈ a.groups, s.groupKey g ≠ some key := by
    intro g member same
    obtain ⟨place, found⟩ := List.mem_iff_getElem?.mp member
    have known : a.places.get? key = some place := by
      rw [assembled.placed]
      simp [found, same]
    rw [absent] at known
    cases known
  refine ⟨groups, ?_⟩
  intro e member keyed
  have inside : e ∈ a.groups.flatMap (·.members) := assembled.once.mem_iff.mpr member
  obtain ⟨g, present, joined⟩ := List.mem_flatMap.mp inside
  exact groups g present (assembled.groupKey_of_mem present joined keyed)

theorem getElem?_concat_eq_some {β : Type} {xs : List β} {x y : β} {place : Nat} :
    (xs ++ [x])[place]? = some y ↔ xs[place]? = some y ∨ place = xs.length ∧ x = y := by
  rw [List.getElem?_append]
  by_cases inside : place < xs.length
  · have before : place ≠ xs.length := by omega
    simp [inside, before]
  · have outside : xs[place]? = none := List.getElem?_eq_none (by omega)
    rw [if_neg inside, outside]
    by_cases last : place = xs.length
    · simp [last]
    · have beyond : [x][place - xs.length]? = none := List.getElem?_eq_none (by simp; omega)
      simp [beyond, last]

theorem add_of_none {e : α} (single : s.stackKey e = none) :
    s.add a e = { a with groups := a.groups ++ [⟨none, [e]⟩] } := by
  simp [Scheme.add, single]

theorem add_of_place {e : α} {key : StackId} {place : Nat} (keyed : s.stackKey e = some key)
    (found : a.places.get? key = some place) :
    s.add a e = { a with groups := a.groups.modify place (·.join e) } := by
  simp [Scheme.add, keyed, found]

theorem add_of_new {e : α} {key : StackId} (keyed : s.stackKey e = some key)
    (absent : a.places.get? key = none) :
    s.add a e = ⟨a.groups ++ [⟨s.name e, [e]⟩], a.places.insert key a.groups.length⟩ := by
  simp [Scheme.add, keyed, absent]

theorem Assembles.add (assembled : s.Assembles done a) (e : α) :
    s.Assembles (done ++ [e]) (s.add a e) := by
  cases own : s.stackKey e with
  | none =>
      rw [add_of_none own]
      apply assembled.start (groupOf_of_none own (done ++ [e]))
      · intro g member key keyed
        simp [own]
      · intro key place
        rw [assembled.placed, getElem?_concat_eq_some]
        simp [own]
  | some key =>
      cases found : a.places.get? key with
      | some place =>
          rw [add_of_place own found]
          exact assembled.join own found
      | none =>
          rw [add_of_new own found]
          obtain ⟨newKey, unseen⟩ := assembled.fresh found
          have alone : done.filter (s.stackKey · = some key) = [] := by
            apply List.filter_eq_nil_iff.mpr
            intro other member
            simpa using unseen other member
          apply assembled.start
          · rw [groupOf_of_some own, List.filter_append, alone]
            simp [own]
          · intro g member key' keyed same
            apply newKey g member
            rw [keyed, ← same, own]
          · intro key' place
            rw [Table.get?_insert, getElem?_concat_eq_some, ← assembled.placed, own]
            by_cases same : key' = key
            · subst same
              simp [found, eq_comm]
            · have other : key ≠ key' := fun h => same h.symm
              simp [same, other]

theorem Assembles.foldl (assembled : s.Assembles done a) (later : List α) :
    s.Assembles (done ++ later) (later.foldl s.add a) := by
  induction later generalizing done a with
  | nil => simpa using assembled
  | cons e later ih =>
      have next := ih (assembled.add e)
      simpa using next

def comap (s : Scheme α) (f : ι → α) : Scheme ι := ⟨fun i => s.key (f i), fun i => s.name (f i)⟩

theorem map_add (f : ι → α) (a : Assembly ι) (i : ι) :
    ((s.comap f).add a i).map f = s.add (a.map f) (f i) := by
  cases own : s.stackKey (f i) with
  | none =>
      have single : (s.comap f).stackKey i = none := own
      rw [add_of_none own, add_of_none single]
      simp [Assembly.map, Group.map]
  | some key =>
      have keyed : (s.comap f).stackKey i = some key := own
      cases found : a.places.get? key with
      | none =>
          have absent : (a.map f).places.get? key = none := found
          rw [add_of_new own absent, add_of_new keyed found]
          simp [Assembly.map, Group.map, comap]
      | some place =>
          have present : (a.map f).places.get? key = some place := found
          rw [add_of_place own present, add_of_place keyed found]
          have joined : (a.groups.modify place (·.join i)).map (·.map f) =
              (a.groups.map (·.map f)).modify place (·.join (f i)) := by
            apply List.ext_getElem?
            intro j
            have commutes (g : Group ι) : (if place = j then g.join i else g).map f =
                if place = j then (g.map f).join (f i) else g.map f := by
              split
              · exact Group.map_join f g i
              · rfl
            simp [List.getElem?_modify, Function.comp_def, commutes]
          simp [Assembly.map, joined]

theorem map_groups (s : Scheme α) (f : ι → α) (items : List ι) :
    ((s.comap f).groups items).map (·.map f) = s.groups (items.map f) := by
  have empty : ({} : Assembly α) = Assembly.map f {} := rfl
  have folded : items.foldl (fun a i => s.add a (f i)) (Assembly.map f {}) =
      (items.foldl (s.comap f).add {}).map f :=
    List.foldl_hom (Assembly.map f) fun a i => (map_add f a i).symm
  unfold groups
  rw [List.foldl_map, empty, folded]
  rfl

/-- Groups of positions that take each position of a list once and follow the stacking keys there. -/
structure StablePartition (s : Scheme α) (entitlements : List α)
    (cells : List (Group (Fin entitlements.length))) : Prop where
  nonempty : ∀ cell ∈ cells, cell.members ≠ []
  once : (cells.flatMap (·.members)).Perm (List.finRange entitlements.length)
  together : ∀ i j, i ≠ j → ((∃ cell ∈ cells, i ∈ cell.members ∧ j ∈ cell.members) ↔
    ∃ key, s.key entitlements[i] = some key ∧ s.key entitlements[j] = some key ∧ key.text ≠ "")
  ascending : ∀ cell ∈ cells, cell.members.Pairwise (· < ·)
  byFirst : (cells.filterMap (·.members.head?)).Pairwise (· < ·)
  named : ∀ cell ∈ cells, ∀ i, cell.members.head? = some i →
    ∀ key, s.key entitlements[i] = some key → key.text ≠ "" → cell.name = s.name entitlements[i]
  single : ∀ i, (∀ key, s.key entitlements[i] = some key → key.text = "") → ⟨none, [i]⟩ ∈ cells

theorem Assembles.stablePartition {entitlements : List α} {a : Assembly (Fin entitlements.length)}
    (assembled : (s.comap entitlements.get).Assembles (List.finRange entitlements.length) a) :
    s.StablePartition entitlements a.groups where
  nonempty cell member := by
    obtain ⟨first, starts, -⟩ := assembled.formed cell member
    intro empty
    simp [empty] at starts
  once := assembled.once
  together i j differ := by
    constructor
    · intro joined
      obtain ⟨cell, member, hi, hj⟩ := joined
      obtain ⟨first, starts, formed⟩ := assembled.formed cell member
      cases own : (s.comap entitlements.get).stackKey first with
      | none =>
          rw [formed, groupOf_of_none own] at hi hj
          have same : i = j := (List.mem_singleton.mp hi).trans (List.mem_singleton.mp hj).symm
          exact absurd same differ
      | some key =>
          rw [formed] at hi hj
          have keyOfI := stackKey_eq_some.mp (stackKey_of_mem_groupOf own hi)
          have keyOfJ := stackKey_eq_some.mp (stackKey_of_mem_groupOf own hj)
          exact ⟨key, keyOfI.1, keyOfJ.1, keyOfI.2⟩
    · intro stacking
      obtain ⟨key, keyOfI, keyOfJ, filled⟩ := stacking
      have stacksI : (s.comap entitlements.get).stackKey i = some key :=
        stackKey_eq_some.mpr ⟨keyOfI, filled⟩
      have stacksJ : (s.comap entitlements.get).stackKey j = some key :=
        stackKey_eq_some.mpr ⟨keyOfJ, filled⟩
      obtain ⟨cell, member, hi⟩ := assembled.exists_group (List.mem_finRange i)
      have keyed := assembled.groupKey_of_mem member hi stacksI
      refine ⟨cell, member, hi, ?_⟩
      rw [assembled.members_of_groupKey member keyed]
      simp [stacksJ]
  ascending cell member := by
    obtain ⟨first, -, formed⟩ := assembled.formed cell member
    have order := List.pairwise_lt_finRange entitlements.length
    rw [formed]
    unfold groupOf
    split
    · simp
    · exact order.filter _
  byFirst := (List.pairwise_lt_finRange entitlements.length).sublist assembled.inOrder
  named cell member i starts key keyOfI filled := by
    obtain ⟨first, leads, formed⟩ := assembled.formed cell member
    have same : first = i := Option.some.inj (leads.symm.trans starts)
    have own : (s.comap entitlements.get).stackKey first = some key :=
      stackKey_eq_some.mpr ⟨same ▸ keyOfI, filled⟩
    rw [formed, groupOf_of_some own, same]
    rfl
  single i unkeyed := by
    have own : (s.comap entitlements.get).stackKey i = none := by
      rw [Option.eq_none_iff_forall_ne_some]
      intro key keyed
      have found := stackKey_eq_some.mp keyed
      exact found.2 (unkeyed key found.1)
    obtain ⟨cell, member, joined⟩ := assembled.exists_group (List.mem_finRange i)
    obtain ⟨first, leads, formed⟩ := assembled.formed cell member
    rw [formed] at joined
    cases leading : (s.comap entitlements.get).stackKey first with
    | none =>
        rw [groupOf_of_none leading] at joined formed
        rw [← List.mem_singleton.mp joined] at formed
        rw [← formed]
        exact member
    | some key =>
        have keyed := stackKey_of_mem_groupOf leading joined
        rw [own] at keyed
        cases keyed

/-- The groups of a list are those of a stable partition of its positions by stacking key. -/
theorem groups_stable (s : Scheme α) (entitlements : List α) :
    ∃ cells, s.StablePartition entitlements cells ∧
      s.groups entitlements = cells.map (·.map entitlements.get) := by
  have assembled := (Assembles.nil (s.comap entitlements.get)).foldl
    (List.finRange entitlements.length)
  refine ⟨_, assembled.stablePartition, ?_⟩
  have mapped := map_groups s entitlements.get (List.finRange entitlements.length)
  rw [List.map_get_finRange] at mapped
  exact mapped.symm

end Scheme

end Coverage
