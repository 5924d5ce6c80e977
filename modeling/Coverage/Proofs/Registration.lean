import Coverage.Observers
import Mathlib.Data.Finset.Card
import Mathlib.Data.List.Basic
/-!
A set of observers as the replies tell it. What has been added and removed, with the replies, leaves one
set and one order of its elements: a callback is in it if its latest successful addition was followed by no
successful removal, and it stands behind those that were added before.
-/

namespace Coverage

abbrev Chronicle := List (Effect × Reply)

namespace Chronicle

def added (cb : CallbackId) : Effect × Reply := (.add cb, .flag true)

def removed (cb : CallbackId) : Effect × Reply := (.remove cb, .flag true)

/-- There is a latest successful addition, and no successful removal after it. -/
def Registered (h : Chronicle) (cb : CallbackId) : Prop :=
  ∃ older newer, h = older ++ added cb :: newer ∧ added cb ∉ newer ∧ removed cb ∉ newer

/-- The latest successful addition of `a` stands before one of `b`. -/
def Precedes (h : Chronicle) (a b : CallbackId) : Prop :=
  ∃ older newer, h = older ++ added a :: newer ∧ added a ∉ newer ∧ added b ∈ newer

def Silent (entry : Effect × Reply) : Prop := ∀ cb, entry ≠ added cb ∧ entry ≠ removed cb

variable {h : Chronicle} {entry : Effect × Reply} {a b cb : CallbackId}

theorem added_inj : added a = added b ↔ a = b :=
  ⟨fun same => by cases same; rfl, congrArg added⟩

theorem removed_inj : removed a = removed b ↔ a = b :=
  ⟨fun same => by cases same; rfl, congrArg removed⟩

theorem added_ne_removed : added a ≠ removed b := fun same => by cases same

theorem silent_of_reply {effect : Effect} {reply : Reply} (other : reply ≠ .flag true) :
    Silent (effect, reply) :=
  fun _ => ⟨fun same => other (congrArg Prod.snd same), fun same => other (congrArg Prod.snd same)⟩

theorem registered_snoc :
    Registered (h ++ [entry]) cb ↔ entry = added cb ∨ Registered h cb ∧ entry ≠ removed cb := by
  constructor
  · rintro ⟨older, newer, same, latest, kept⟩
    rcases List.eq_nil_or_concat' newer with rfl | ⟨rest, last, rfl⟩
    · exact .inl (List.cons.inj (List.append_inj' same rfl).2).1
    · have parts : h ++ [entry] = (older ++ added cb :: rest) ++ [last] := by simpa using same
      obtain ⟨earlier, heads⟩ := List.append_inj' parts rfl
      cases heads
      refine .inr ⟨⟨older, rest, earlier, ?_, ?_⟩, ?_⟩
      · exact fun member => latest (List.mem_append_left _ member)
      · exact fun member => kept (List.mem_append_left _ member)
      · rintro rfl
        exact kept (List.mem_append_right _ List.mem_cons_self)
  · by_cases again : entry = added cb
    · rintro -
      exact ⟨h, [], by rw [again], List.not_mem_nil, List.not_mem_nil⟩
    · rintro (same | ⟨⟨older, newer, rfl, latest, kept⟩, other⟩)
      · exact absurd same again
      · refine ⟨older, newer ++ [entry], by simp, ?_, ?_⟩
        · simp [latest, Ne.symm again]
        · simp [kept, Ne.symm other]

theorem Precedes.snoc (precedes : Precedes h a b) (other : entry ≠ added a) :
    Precedes (h ++ [entry]) a b := by
  obtain ⟨older, newer, rfl, latest, later⟩ := precedes
  refine ⟨older, newer ++ [entry], by simp, ?_, List.mem_append_left _ later⟩
  simp [latest, Ne.symm other]

theorem Registered.precedes (registered : Registered h a) (apart : a ≠ b) :
    Precedes (h ++ [added b]) a b := by
  obtain ⟨older, newer, rfl, latest, -⟩ := registered
  refine ⟨older, newer ++ [added b], by simp, ?_, by simp⟩
  simp [latest, mt added_inj.mp apart]

theorem Precedes.antisymm (first : Precedes h a b) (second : Precedes h b a) : a = b := by
  obtain ⟨older, newer, same, latest, later⟩ := first
  obtain ⟨older', newer', same', latest', later'⟩ := second
  rcases List.append_eq_append_iff.mp (same.symm.trans same') with
    ⟨between, -, split⟩ | ⟨between, -, split⟩
  · cases between with
    | nil => exact added_inj.mp (List.cons.inj split).1
    | cons entry between =>
        rw [(List.cons.inj split).2] at latest
        exact absurd (List.mem_append_right _ (List.mem_cons_of_mem _ later')) latest
  · cases between with
    | nil => exact (added_inj.mp (List.cons.inj split).1).symm
    | cons entry between =>
        rw [(List.cons.inj split).2] at latest'
        exact absurd (List.mem_append_right _ (List.mem_cons_of_mem _ later)) latest'

end Chronicle

open Chronicle

/-- The set that a chronicle comes to, in the order of the latest successful additions. -/
structure OrderedSet (h : Chronicle) (o : Observers) : Prop where
  distinct : o.callbacks.Nodup
  registered : ∀ cb, cb ∈ o.callbacks ↔ Registered h cb
  ordered : o.callbacks.Pairwise (Precedes h)

namespace Observers

variable {o : Observers} {cb : CallbackId}

theorem add_of_mem (present : cb ∈ o.callbacks) : o.add cb = (o, false) :=
  if_pos (contains_iff.mpr present)

theorem add_of_not_mem (absent : cb ∉ o.callbacks) : o.add cb = (⟨o.callbacks ++ [cb]⟩, true) :=
  if_neg (mt contains_iff.mp absent)

theorem remove_of_mem (present : cb ∈ o.callbacks) : o.remove cb = (⟨o.callbacks.erase cb⟩, true) :=
  if_pos (contains_iff.mpr present)

theorem remove_of_not_mem (absent : cb ∉ o.callbacks) : o.remove cb = (o, false) :=
  if_neg (mt contains_iff.mp absent)

end Observers

namespace OrderedSet

open Observers

variable {h : Chronicle} {o o' : Observers} {cb : CallbackId} {effect : Effect} {reply : Reply}

theorem new : OrderedSet [] {} where
  distinct := List.nodup_nil
  registered cb := by
    refine iff_of_false List.not_mem_nil ?_
    rintro ⟨older, newer, same, -⟩
    simp at same
  ordered := List.Pairwise.nil

/-- A chronicle leaves no choice of the set or its order. -/
theorem unique (set : OrderedSet h o) (other : OrderedSet h o') : o' = o := by
  have members : o'.callbacks.Perm o.callbacks :=
    (List.perm_ext_iff_of_nodup other.distinct set.distinct).mpr fun cb =>
      (other.registered cb).trans (set.registered cb).symm
  have same : o'.callbacks = o.callbacks :=
    members.eq_of_pairwise (fun _ _ _ _ => Precedes.antisymm) other.ordered set.ordered
  cases o
  cases o'
  rw [Observers.mk.injEq]
  exact same

theorem silent (set : OrderedSet h o) {entry : Effect × Reply} (silent : Silent entry) :
    OrderedSet (h ++ [entry]) o where
  distinct := set.distinct
  registered cb := by
    rw [registered_snoc, or_iff_right (silent cb).1, and_iff_left (silent cb).2]
    exact set.registered cb
  ordered := set.ordered.imp fun precedes => precedes.snoc (silent _).1

theorem add (set : OrderedSet h o) (absent : cb ∉ o.callbacks) :
    OrderedSet (h ++ [added cb]) ⟨o.callbacks ++ [cb]⟩ where
  distinct := by
    have distinct := nodup_add set.distinct cb
    rwa [add_of_not_mem absent] at distinct
  registered other := by
    rw [List.mem_append, List.mem_singleton, registered_snoc, added_inj, set.registered,
      and_iff_left added_ne_removed, or_comm, eq_comm]
  ordered := by
    have apart {a : CallbackId} (member : a ∈ o.callbacks) : a ≠ cb :=
      fun same => absent (same ▸ member)
    refine List.pairwise_append.mpr ⟨?earlier, List.pairwise_singleton _ _, ?newest⟩
    case earlier =>
      exact set.ordered.imp_of_mem fun member _ precedes =>
        precedes.snoc (mt added_inj.mp (apart member).symm)
    case newest =>
      intro a member b same
      cases List.mem_singleton.mp same
      exact ((set.registered a).mp member).precedes (apart member)

theorem remove (set : OrderedSet h o) (cb : CallbackId) :
    OrderedSet (h ++ [removed cb]) ⟨o.callbacks.erase cb⟩ where
  distinct := set.distinct.erase cb
  registered other := by
    rw [set.distinct.mem_erase_iff, registered_snoc, or_iff_right added_ne_removed.symm, ne_eq (removed cb),
      removed_inj, set.registered, and_comm, ne_comm]
  ordered := (set.ordered.imp fun precedes => precedes.snoc added_ne_removed.symm).sublist
    List.erase_sublist

theorem carryOut (set : OrderedSet h o) (carried : carryOut none effect o = .done (o', reply)) :
    OrderedSet (h ++ [(effect, reply)]) o' := by
  cases effect with
  | add cb =>
      by_cases present : cb ∈ o.callbacks
      · cases carried
        rw [add_of_mem present]
        exact set.silent (silent_of_reply (by simp))
      · cases carried
        rw [add_of_not_mem present]
        exact set.add present
  | remove cb =>
      by_cases present : cb ∈ o.callbacks
      · cases carried
        rw [remove_of_mem present]
        exact set.remove cb
      · cases carried
        rw [remove_of_not_mem present]
        exact set.silent (silent_of_reply (by simp))
  | contains | size | notify | nothing =>
      cases carried
      exact set.silent fun _ => ⟨by simp [added], by simp [removed]⟩

end OrderedSet

namespace Observers

variable {o : Observers}

/-- Each operation does what it would on a set of which the elements stand in order. -/
structure SetLaws (o : Observers) : Prop where
  add_iff : ∀ cb, (o.add cb).2 = true ↔ cb ∉ o.callbacks
  add_absent : ∀ cb ∉ o.callbacks, (o.add cb).1.callbacks = o.callbacks ++ [cb]
  add_present : ∀ cb ∈ o.callbacks, (o.add cb).1 = o
  remove_iff : ∀ cb, (o.remove cb).2 = true ↔ cb ∈ o.callbacks
  remove_others : ∀ cb, (o.remove cb).1.callbacks = o.callbacks.filter (· ≠ cb)
  contains : ∀ cb, o.contains cb = true ↔ cb ∈ o.callbacks
  size : o.size = o.callbacks.toFinset.card
  isEmpty : o.isEmpty = true ↔ ∀ cb, o.contains cb = false
  add_remove : ∀ cb ∉ o.callbacks, (o.add cb).1.remove cb = (o, true)

theorem setLaws (distinct : o.callbacks.Nodup) : SetLaws o where
  add_iff cb := by
    by_cases present : cb ∈ o.callbacks
    · simp [add_of_mem present, present]
    · simp [add_of_not_mem present, present]
  add_absent cb absent := by rw [add_of_not_mem absent]
  add_present cb present := by rw [add_of_mem present]
  remove_iff cb := by
    by_cases present : cb ∈ o.callbacks
    · simp [remove_of_mem present, present]
    · simp [remove_of_not_mem present, present]
  remove_others cb := by
    by_cases present : cb ∈ o.callbacks
    · rw [remove_of_mem present]
      exact (distinct.erase_eq_filter cb).trans (by simp [bne, beq_eq_decide])
    · rw [remove_of_not_mem present]
      refine (List.filter_eq_self.mpr fun other member => ?_).symm
      exact decide_eq_true fun same => present (same ▸ member)
  contains cb := contains_iff
  size := (List.toFinset_card_of_nodup distinct).symm
  isEmpty := by
    rw [isEmpty, List.isEmpty_iff, List.eq_nil_iff_forall_not_mem]
    exact forall_congr' fun cb => by rw [Bool.eq_false_iff, Ne, contains_iff]
  add_remove cb absent := by
    rw [add_of_not_mem absent, remove_of_mem (by simp), List.erase_append_right _ absent]
    simp

end Observers

end Coverage
