/-!
Finite tables whose keys are told apart and ordered by name. The entries are kept in strictly
ascending order of the names, so two tables with the same entries are equal and every listing of keys
comes out in one order.
-/

namespace Coverage

/-- Keys that are told apart by a text; their order is that of the texts by code point. -/
class Named (κ : Type) where
  name : κ → String
  name_injective : ∀ {a b : κ}, name a = name b → a = b

instance : Named String := ⟨id, fun h => h⟩

structure Table (κ ν : Type) [Named κ] where
  entries : List (κ × ν)
  sorted : entries.Pairwise fun a b => Named.name a.1 < Named.name b.1

namespace Table

variable {κ ν μ : Type} [Named κ]

instance [DecidableEq κ] [DecidableEq ν] : DecidableEq (Table κ ν) := fun a b =>
  if h : a.entries = b.entries then
    isTrue (by cases a; cases b; simp_all)
  else
    isFalse (fun e => h (congrArg entries e))

def empty : Table κ ν := ⟨[], .nil⟩

instance : Inhabited (Table κ ν) := ⟨empty⟩

def keys (t : Table κ ν) : List κ := t.entries.map (·.1)

def values (t : Table κ ν) : List ν := t.entries.map (·.2)

def isEmpty (t : Table κ ν) : Bool := t.entries.isEmpty

def get? [DecidableEq κ] (t : Table κ ν) (k : κ) : Option ν := t.entries.lookup k

def contains [DecidableEq κ] (t : Table κ ν) (k : κ) : Bool := t.keys.contains k

/-- Puts an entry at its place, replacing the one with the same name. -/
def place (k : κ) (v : ν) : List (κ × ν) → List (κ × ν)
  | [] => [(k, v)]
  | (k', v') :: rest =>
    if Named.name k < Named.name k' then (k, v) :: (k', v') :: rest
    else if Named.name k = Named.name k' then (k, v) :: rest
    else (k', v') :: place k v rest

theorem mem_place {k : κ} {v : ν} {e : κ × ν} {entries : List (κ × ν)}
    (member : e ∈ place k v entries) : e = (k, v) ∨ e ∈ entries := by
  induction entries with
  | nil => simpa [place] using member
  | cons head rest ih =>
    simp only [place] at member
    split at member
    · simpa using member
    · split at member
      · rcases List.mem_cons.mp member with h | h
        · exact .inl h
        · exact .inr (List.mem_cons_of_mem _ h)
      · rcases List.mem_cons.mp member with h | h
        · exact .inr (h ▸ List.mem_cons_self)
        · exact (ih h).imp_right (List.mem_cons_of_mem _)

theorem place_sorted (k : κ) (v : ν) {entries : List (κ × ν)}
    (sorted : entries.Pairwise fun a b => Named.name a.1 < Named.name b.1) :
    (place k v entries).Pairwise fun a b => Named.name a.1 < Named.name b.1 := by
  induction entries with
  | nil => simp [place]
  | cons head rest ih =>
    have ⟨above, tail⟩ := List.pairwise_cons.mp sorted
    simp only [place]
    split
    · rename_i before
      refine List.pairwise_cons.mpr ⟨fun e member => ?_, sorted⟩
      rcases List.mem_cons.mp member with h | h
      · exact h ▸ before
      · exact String.lt_trans before (above e h)
    · split
      · rename_i same
        exact List.pairwise_cons.mpr ⟨fun e member => same ▸ above e member, tail⟩
      · rename_i notBefore notSame
        refine List.pairwise_cons.mpr ⟨fun e member => ?_, ih tail⟩
        rcases mem_place member with h | h
        · subst h
          rcases Std.lt_trichotomy (Named.name k) (Named.name head.1) with l | l | l
          · exact absurd l notBefore
          · exact absurd l notSame
          · exact l
        · exact above e h

def insert (t : Table κ ν) (k : κ) (v : ν) : Table κ ν :=
  ⟨place k v t.entries, place_sorted k v t.sorted⟩

def ofList (entries : List (κ × ν)) : Table κ ν :=
  entries.foldl (fun t e => t.insert e.1 e.2) empty

theorem sorted_filterMap {entries : List (κ × ν)} {f : κ × ν → Option (κ × μ)}
    (sorted : entries.Pairwise fun a b => Named.name a.1 < Named.name b.1)
    (keeps : ∀ e r, f e = some r → r.1 = e.1) :
    (entries.filterMap f).Pairwise fun a b => Named.name a.1 < Named.name b.1 := by
  refine List.Pairwise.filterMap f (fun a a' lt b hb b' hb' => ?_) sorted
  rw [keeps a b hb, keeps a' b' hb']
  exact lt

/-- Keeps the entries to which `f` gives a new value. -/
def filterMap (f : κ → ν → Option μ) (t : Table κ ν) : Table κ μ :=
  ⟨t.entries.filterMap fun e => (f e.1 e.2).map (e.1, ·),
    sorted_filterMap t.sorted (by
      intro e r h
      obtain ⟨v, _, rfl⟩ := Option.map_eq_some_iff.mp h
      rfl)⟩

def filter (p : κ → Bool) (t : Table κ ν) : Table κ ν :=
  ⟨t.entries.filter fun e => p e.1, t.sorted.filter _⟩

end Table

end Coverage
