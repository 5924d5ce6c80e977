import Mathlib.Data.List.Basic
import Coverage.FileSystem
/-!
Numbers of objects in a file system. An operation never gives a number to a second object, so that a
number which is a directory's after an operation was one's before; and the directory of a final change
is gone.
-/

namespace Coverage.FileSystem

variable {fs gs hs : FileSystem}

def Numbered (fs : FileSystem) : Prop := ∀ n, fs.next ≤ n → fs.objects.lookup n = none

/-- One file system comes after another. -/
structure Follows (fs gs : FileSystem) : Prop where
  numbered : Numbered gs
  next_le : fs.next ≤ gs.next
  directory : ∀ n, n < fs.next → gs.isDirectoryObject n = true → fs.isDirectoryObject n = true

namespace Follows

theorem refl (numbered : Numbered fs) : Follows fs fs := ⟨numbered, Nat.le_refl _, fun _ _ h => h⟩

theorem trans (first : Follows fs gs) (second : Follows gs hs) : Follows fs hs where
  numbered := second.numbered
  next_le := Nat.le_trans first.next_le second.next_le
  directory n old h :=
    first.directory n old (second.directory n (Nat.lt_of_lt_of_le old first.next_le) h)

theorem not_directory (h : Follows fs gs) {n : Nat} (old : n < fs.next)
    (gone : fs.isDirectoryObject n = false) : gs.isDirectoryObject n = false := by
  by_contra back
  rw [h.directory n old ((Bool.not_eq_false _).mp back)] at gone
  cases gone

end Follows

theorem lookup_filter_ne (objects : List (Nat × Object)) (n k : Nat) :
    (objects.filter (·.1 ≠ n)).lookup k = if k = n then none else objects.lookup k := by
  induction objects with
  | nil => simp
  | cons entry rest ih =>
      obtain ⟨key, object⟩ := entry
      by_cases isN : key = n
      · rw [List.filter_cons_of_neg (by simp [isN]), ih, List.lookup_cons]
        by_cases isK : k = n
        · simp [isK]
        · have other : (k == key) = false := by simpa [isN] using isK
          simp [isK, other]
      · rw [List.filter_cons_of_pos (by simp [isN]), List.lookup_cons, List.lookup_cons, ih]
        by_cases isK : k = key
        · simp [isK, isN]
        · have other : (k == key) = false := by simpa using isK
          simp only [other]

theorem lookup_set (fs : FileSystem) (n : Nat) (object : Object) (k : Nat) :
    (fs.set n object).objects.lookup k = if k = n then some object else fs.objects.lookup k := by
  by_cases same : k = n
  · simp [set, same]
  · have other : (k == n) = false := by simpa using same
    simp only [set, List.lookup_cons, other, lookup_filter_ne, same, if_false]

theorem lookup_drop (fs : FileSystem) (n k : Nat) :
    (fs.drop n).objects.lookup k = if k = n then none else fs.objects.lookup k :=
  lookup_filter_ne fs.objects n k

theorem isDirectoryObject_set (fs : FileSystem) (n : Nat) (object : Object) (k : Nat) :
    (fs.set n object).isDirectoryObject k =
      if k = n then (match object with | .directory _ _ => true | _ => false)
      else fs.isDirectoryObject k := by
  by_cases same : k = n
  · simp only [isDirectoryObject, names?, lookup_set, same, if_true]
    cases object <;> rfl
  · simp only [isDirectoryObject, names?, lookup_set, same, if_false]

theorem isDirectoryObject_drop (fs : FileSystem) (n k : Nat) :
    (fs.drop n).isDirectoryObject k = (decide (k ≠ n) && fs.isDirectoryObject k) := by
  by_cases same : k = n
  · simp [isDirectoryObject, names?, lookup_drop, same]
  · simp [isDirectoryObject, names?, lookup_drop, same]

theorem isDirectoryObject_of_lookup {n parent : Nat} {names : List (String × Nat)}
    (found : fs.objects.lookup n = some (.directory parent names)) : fs.isDirectoryObject n = true := by
  simp [isDirectoryObject, names?, found]

theorem Numbered.lt_of_lookup (numbered : Numbered fs) {n : Nat} {object : Object}
    (found : fs.objects.lookup n = some object) : n < fs.next := by
  by_contra high
  rw [numbered n (Nat.le_of_not_lt high)] at found
  cases found

theorem Numbered.lt_of_directory (numbered : Numbered fs) {n : Nat}
    (directory : fs.isDirectoryObject n = true) : n < fs.next := by
  by_contra high
  simp [isDirectoryObject, names?, numbered n (Nat.le_of_not_lt high)] at directory

theorem follows_set (numbered : Numbered fs) {n : Nat} {object : Object} (used : n < fs.next)
    (kept : (fs.set n object).isDirectoryObject n = true → fs.isDirectoryObject n = true) :
    Follows fs (fs.set n object) where
  numbered k high := by
    have other : k ≠ n := Nat.ne_of_gt (Nat.lt_of_lt_of_le used high)
    rw [lookup_set, if_neg other]
    exact numbered k high
  next_le := Nat.le_refl _
  directory k _ h := by
    by_cases same : k = n
    · subst same
      exact kept h
    · rwa [isDirectoryObject_set, if_neg same] at h

theorem follows_drop (numbered : Numbered fs) (n : Nat) : Follows fs (fs.drop n) where
  numbered k high := by
    rw [lookup_drop, numbered k high, ite_self]
  next_le := Nat.le_refl _
  directory k _ h := by
    rw [isDirectoryObject_drop, Bool.and_eq_true] at h
    exact h.2

theorem follows_mapNames (numbered : Numbered fs) (directory : Nat)
    (f : List (String × Nat) → List (String × Nat)) : Follows fs (fs.mapNames directory f) := by
  unfold mapNames
  split
  · next parent names found =>
    exact follows_set numbered (numbered.lt_of_lookup found)
      fun _ => isDirectoryObject_of_lookup found
  · exact .refl numbered

theorem follows_create (numbered : Numbered fs) (directory : Nat) (name : String) (object : Object) :
    Follows fs (fs.create directory name object).1 := by
  have wider : Follows fs { fs with next := fs.next + 1 } :=
    ⟨fun n high => numbered n (Nat.le_of_succ_le high), Nat.le_succ _, fun _ _ h => h⟩
  -- The new number is not below the old bound, so the object under it may be of any kind.
  have made : Follows fs ({ fs with next := fs.next + 1 }.set fs.next object) := by
    refine ⟨?_, Nat.le_succ _, ?_⟩
    · intro n high
      rw [lookup_set, if_neg (Nat.ne_of_gt high)]
      exact wider.numbered n high
    · intro n old h
      rwa [isDirectoryObject_set, if_neg (Nat.ne_of_lt old)] at h
  exact made.trans (follows_mapNames made.numbered _ _)

inductive Operation where
  | makeDirectory (path : Path)
  | removeDirectory (path : Path)
  | write (path : Path)
  | read (path : Path)
  | removeFile (path : Path)
  | rename (path target : Path)
  | makeLink (path target : Path)

def Operation.apply : Operation → FileSystem → FileSystem × List Change
  | .makeDirectory p, fs => fs.makeDirectory p
  | .removeDirectory p, fs => fs.removeDirectory p
  | .write p, fs => fs.write p
  | .read p, fs => fs.read p
  | .removeFile p, fs => fs.removeFile p
  | .rename p target, fs => fs.rename p target
  | .makeLink p target, fs => fs.makeLink p target

/-- What an operation makes of the files, with its changes: the directory of a final change is gone. -/
structure Sound (fs : FileSystem) (outcome : FileSystem × List Change) : Prop where
  follows : Follows fs outcome.1
  final : ∀ change ∈ outcome.2, change.final = true →
    outcome.1.isDirectoryObject change.directory = false

theorem sound_same (numbered : Numbered fs) : Sound fs (fs, []) :=
  ⟨.refl numbered, by simp⟩

theorem sound_create (numbered : Numbered fs) (directory : Nat) (name : String) (object : Object) :
    Sound fs (fs.create directory name object) :=
  ⟨follows_create numbered directory name object, by simp [create]⟩

theorem follows_leave_drop (numbered : Numbered fs) (directory : Nat) (name : String) (n : Nat) :
    Follows fs ((fs.leave directory name).drop n) := by
  have left : Follows fs (fs.leave directory name) := follows_mapNames numbered _ _
  exact left.trans (follows_drop left.numbered n)

theorem isDirectoryObject_drop_self (fs : FileSystem) (n : Nat) :
    (fs.drop n).isDirectoryObject n = false := by
  simp [isDirectoryObject_drop]

theorem sound_makeDirectory (numbered : Numbered fs) (p : Path) : Sound fs (fs.makeDirectory p) := by
  unfold makeDirectory
  split
  · split
    · exact sound_same numbered
    · exact sound_create numbered _ _ _
  · exact sound_same numbered

theorem sound_makeLink (numbered : Numbered fs) (p target : Path) :
    Sound fs (fs.makeLink p target) := by
  unfold makeLink
  split
  · split
    · exact sound_same numbered
    · exact sound_create numbered _ _ _
  · exact sound_same numbered

theorem sound_write (numbered : Numbered fs) (p : Path) : Sound fs (fs.write p) := by
  unfold write
  split
  · split
    · exact sound_create numbered _ _ _
    · split
      · exact ⟨.refl numbered, by simp⟩
      · exact sound_same numbered
  · exact sound_same numbered

theorem sound_read (numbered : Numbered fs) (p : Path) : Sound fs (fs.read p) := by
  unfold read
  split
  · exact ⟨.refl numbered, by simp⟩
  · exact sound_same numbered

theorem sound_removeFile (numbered : Numbered fs) (p : Path) : Sound fs (fs.removeFile p) := by
  unfold removeFile
  split
  · split
    · split
      · exact sound_same numbered
      · exact ⟨follows_leave_drop numbered _ _ _, by simp⟩
    · exact sound_same numbered
  · exact sound_same numbered

theorem sound_removeDirectory (numbered : Numbered fs) (p : Path) :
    Sound fs (fs.removeDirectory p) := by
  unfold removeDirectory
  split
  · split
    · split
      · exact ⟨follows_leave_drop numbered _ _ _, by simp [isDirectoryObject_drop_self]⟩
      · exact sound_same numbered
    · exact sound_same numbered
  · exact sound_same numbered

theorem follows_settle (numbered : Numbered fs) (n : Nat) (source target : Nat × String) :
    Follows fs
      (match ((fs.leave source.1 source.2).enter target.1 target.2 n).objects.lookup n with
      | some (.directory _ names) =>
        ((fs.leave source.1 source.2).enter target.1 target.2 n).set n (.directory target.1 names)
      | _ => (fs.leave source.1 source.2).enter target.1 target.2 n) := by
  have left : Follows fs (fs.leave source.1 source.2) := follows_mapNames numbered _ _
  have moved : Follows fs ((fs.leave source.1 source.2).enter target.1 target.2 n) :=
    left.trans (follows_mapNames left.numbered _ _)
  split
  · next parent names found =>
    exact moved.trans (follows_set moved.numbered (moved.numbered.lt_of_lookup found)
      fun _ => isDirectoryObject_of_lookup found)
  · exact moved

/-- The only directory that a move may end is the one whose place is taken. -/
theorem cleared_of_final {n : Nat} {source target : Nat × String} {change : Change}
    (member : change ∈ (fs.move n source target).2) (final : change.final = true) :
    fs.child? target.1 target.2 = some change.directory ∧
      fs.isDirectoryObject change.directory = true := by
  simp only [move, List.mem_append, List.mem_cons, List.not_mem_nil, or_false] at member
  rcases member with ((rfl | rfl) | own) | gone
  · cases final
  · cases final
  · split at own
    · rw [List.mem_singleton] at own
      subst own
      cases final
    · cases own
  · split at gone
    · next old there =>
      split at gone
      · next directory =>
        rw [List.mem_singleton] at gone
        subst gone
        exact ⟨there, directory⟩
      · cases gone
    · cases gone

theorem sound_move (numbered : Numbered fs) (n : Nat) (source target : Nat × String) :
    Sound fs (fs.move n source target) := by
  cases there : fs.child? target.1 target.2 with
  | none =>
      have settled : Follows fs (fs.move n source target).1 := by
        simp only [move, there]
        exact follows_settle numbered n source target
      refine ⟨settled, ?_⟩
      intro change member final
      have cleared := (cleared_of_final member final).1
      rw [there] at cleared
      cases cleared
  | some old =>
      have cleared := follows_leave_drop numbered target.1 target.2 old
      have settled : Follows ((fs.leave target.1 target.2).drop old) (fs.move n source target).1 := by
        simp only [move, there]
        exact follows_settle cleared.numbered n source target
      refine ⟨cleared.trans settled, ?_⟩
      intro change member final
      obtain ⟨place, directory⟩ := cleared_of_final member final
      obtain rfl : old = change.directory := Option.some.inj (there.symm.trans place)
      have used : change.directory < fs.next := numbered.lt_of_directory directory
      exact settled.not_directory (Nat.lt_of_lt_of_le used cleared.next_le)
        (isDirectoryObject_drop_self _ _)

theorem sound_rename (numbered : Numbered fs) (p target : Path) :
    Sound fs (fs.rename p target) := by
  unfold rename
  split
  · split
    · exact sound_same numbered
    · split
      · exact sound_same numbered
      · split
        · exact sound_same numbered
        · split
          · exact sound_same numbered
          · split
            · exact sound_move numbered _ _ _
            · exact sound_same numbered
  · exact sound_same numbered

theorem Operation.sound (operation : Operation) (numbered : Numbered fs) :
    Sound fs (operation.apply fs) := by
  cases operation with
  | makeDirectory p => exact sound_makeDirectory numbered p
  | removeDirectory p => exact sound_removeDirectory numbered p
  | write p => exact sound_write numbered p
  | read p => exact sound_read numbered p
  | removeFile p => exact sound_removeFile numbered p
  | rename p target => exact sound_rename numbered p target
  | makeLink p target => exact sound_makeLink numbered p target

theorem numbered_empty : Numbered empty := by
  intro n high
  have other : (n == root) = false := by
    have : n ≠ 0 := Nat.ne_of_gt high
    simpa [root] using this
  simp [empty, List.lookup_cons, other]

end Coverage.FileSystem
