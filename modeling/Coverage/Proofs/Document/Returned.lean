import Coverage.Json.Record
import Coverage.Proofs.Document.Hold
import Coverage.Wire.Inventory
/-!
Written values that a reader returns. Records, lists, tables and optional values are returned if their
parts are; and what a reader takes out of a list or a table was read by the reader of its parts.
-/

namespace Coverage

theorem mapM_map_of_each {α β γ : Type} {f : α → Option γ} {g : β → α} {h : β → γ} {items : List β}
    (each : ∀ b ∈ items, f (g b) = some (h b)) : (items.map g).mapM f = some (items.map h) := by
  induction items with
  | nil => rfl
  | cons b rest ih =>
      have later := ih fun other member => each other (List.mem_cons_of_mem _ member)
      simp [each b List.mem_cons_self, later]

theorem mapM_of_each {α β : Type} {f : α → Option β} {g : β → α} {items : List β}
    (each : ∀ b ∈ items, f (g b) = some b) : (items.map g).mapM f = some items := by
  rw [mapM_map_of_each (h := id) each, List.map_id]

theorem exists_of_mapM {α β : Type} {f : α → Option β} {items : List α} {results : List β}
    (mapped : items.mapM f = some results) {b : β} (member : b ∈ results) :
    ∃ a ∈ items, f a = some b := by
  induction items generalizing results with
  | nil =>
      obtain rfl := Option.some.inj mapped
      cases member
  | cons a rest ih =>
      rw [List.mapM_cons] at mapped
      obtain ⟨first, here, mapped⟩ := Option.bind_eq_some_iff.mp mapped
      obtain ⟨later, there, mapped⟩ := Option.bind_eq_some_iff.mp mapped
      obtain rfl := Option.some.inj mapped
      rcases List.mem_cons.mp member with rfl | member
      · exact ⟨a, List.mem_cons_self, here⟩
      · obtain ⟨found, inside, read⟩ := ih there member
        exact ⟨found, List.mem_cons_of_mem _ inside, read⟩

namespace Json

/-- A value that is read back where `depth` arrays and objects may still be opened. -/
structure Returns {α : Type} (read : Reader α) (write : α → Value) (depth : Nat) (a : α) : Prop where
  integral : (write a).Integral
  returned : read depth (write a).toNode = some a

theorem Returns.parse {α : Type} {read : Reader α} {write : α → Value} {a : α}
    (returns : Returns read write depthLimit a) : read.parse (write a).print = some a := by
  rw [Reader.parse, returns.integral.ofText?_print]
  exact returns.returned

namespace Returns

variable {α ν : Type} {read : Reader α} {write : α → Value} {depth : Nat}

theorem text (depth : Nat) (s : String) : Returns Reader.text Value.text depth s := ⟨.text s, rfl⟩

theorem bool (depth : Nat) (b : Bool) : Returns Reader.bool Value.bool depth b := ⟨.bool b, rfl⟩

theorem natural (depth : Nat) {bound n : Nat} (below : n < bound) :
    Returns (Reader.natural bound) (fun n => .integer n) depth n := by
  refine ⟨.integer n, ?_⟩
  simp only [Reader.natural, Value.toNode, Value.integer?_ofInt]
  exact if_pos below

theorem payload {value : Value} (fits : value.Fits depth) : Returns Value.ofNode? id depth value :=
  ⟨fits.integral, fits.ofNode?_toNode⟩

theorem text_ne_null (s : String) : (Value.text s).toNode ≠ .null := by
  intro null
  cases null

theorem array_ne_null (items : List Value) : (Value.array items).toNode ≠ .null := by
  intro null
  cases null

theorem object_ne_null (members : List (String × Value)) : (Value.object members).toNode ≠ .null := by
  intro null
  cases null

/-- An optional value, unless null is the form of another one. -/
theorem nullable {o : Option α} (each : ∀ a ∈ o, Returns read write depth a)
    (other : ∀ a, (write a).toNode ≠ .null) :
    Returns read.nullable (Value.ofOption write) depth o := by
  cases o with
  | none => exact ⟨.null, rfl⟩
  | some a =>
      have inner := each a rfl
      refine ⟨inner.integral, ?_⟩
      show read.nullable depth (write a).toNode = some (some a)
      unfold Reader.nullable
      split
      · next null => exact absurd null (other a)
      · rw [inner.returned]
        rfl

theorem list {items : List α} (each : ∀ a ∈ items, Returns read write depth a) :
    Returns read.list (Value.ofList write) (depth + 1) items := by
  constructor
  · refine .array fun item member => ?_
    obtain ⟨a, inside, rfl⟩ := List.mem_map.mp member
    exact (each a inside).integral
  · show (Value.toNodes (items.map write)).mapM (read depth) = some items
    rw [Value.toNodes_eq_map, List.map_map]
    exact mapM_of_each fun a inside => (each a inside).returned

theorem table {κ : Type} [Named κ] {key : String → κ} {t : Table κ α}
    (keys : ∀ k : κ, key (Named.name k) = k) (each : ∀ e ∈ t.entries, Returns read write depth e.2) :
    Returns (Reader.table key read) (Table.toValue write) (depth + 1) t := by
  constructor
  · refine .object fun member inside => ?_
    obtain ⟨e, there, rfl⟩ := List.mem_map.mp inside
    exact (each e there).integral
  · simp only [Table.toValue, Value.toNode, Reader.table, Value.toMembers_eq_map, List.map_map]
    rw [mapM_of_each]
    · exact congrArg some (Table.ofList_entries t)
    · intro e there
      simp [keys, (each e there).returned]

end Returns

/-! What is read out of optional values, lists and tables. -/

theorem Reader.of_nullable {α : Type} {read : Reader α} {depth : Nat} {node : Node} {a : α}
    (taken : read.nullable depth node = some (some a)) : read depth node = some a := by
  unfold nullable at taken
  split at taken
  · cases taken
  · obtain ⟨found, there, same⟩ := Option.map_eq_some_iff.mp taken
    rwa [Option.some.inj same] at there

theorem Reader.exists_of_list {α : Type} {read : Reader α} {depth : Nat} {node : Node} {items : List α}
    (listed : read.list (depth + 1) node = some items) {a : α} (member : a ∈ items) :
    ∃ inner, read depth inner = some a := by
  cases node with
  | array nodes =>
      obtain ⟨inner, -, found⟩ := exists_of_mapM listed member
      exact ⟨inner, found⟩
  | _ => cases listed

theorem Reader.exists_of_table {κ ν : Type} [Named κ] {key : String → κ} {read : Reader ν} {depth : Nat}
    {node : Node} {t : Table κ ν} (listed : Reader.table key read (depth + 1) node = some t)
    {e : κ × ν} (member : e ∈ t.entries) : ∃ inner, read depth inner = some e.2 := by
  cases node with
  | object members =>
      obtain ⟨entries, mapped, rfl⟩ := Option.map_eq_some_iff.mp listed
      obtain ⟨⟨name, inner⟩, -, found⟩ := exists_of_mapM mapped (Table.mem_of_mem_ofList member)
      obtain ⟨name, -, found⟩ := Option.bind_eq_some_iff.mp found
      obtain ⟨value, there, found⟩ := Option.bind_eq_some_iff.mp found
      obtain rfl := Option.some.inj found
      exact ⟨inner, there⟩
  | _ => cases listed

/-! Records. -/

namespace Fields

theorem depth_of_read {names : List String} {depth : Nat} {node : Node} {fields : Fields}
    (opened : read names (depth + 1) node = some fields) : fields.depth = depth := by
  cases node with
  | array items =>
      rw [read] at opened
      split at opened
      · obtain rfl := Option.some.inj opened
        rfl
      · cases opened
  | object members =>
      obtain ⟨named, -, opened⟩ := Option.bind_eq_some_iff.mp opened
      obtain ⟨found, -, opened⟩ := Option.bind_eq_some_iff.mp opened
      obtain rfl := Option.some.inj opened
      rfl
  | _ => cases opened

theorem exists_of_required {α : Type} {fields : Fields} {name : String} {read : Reader α} {a : α}
    (taken : fields.required name read = some a) : ∃ node, read fields.depth node = some a := by
  obtain ⟨node, -, held⟩ := Option.bind_eq_some_iff.mp taken
  exact ⟨node, held⟩

theorem withDefault_cases {α : Type} {fields : Fields} {name : String} {default a : α} {read : Reader α}
    (taken : fields.withDefault name default read = some a) :
    a = default ∨ ∃ node, read fields.depth node = some a := by
  unfold withDefault at taken
  split at taken
  · exact .inr ⟨_, taken⟩
  · exact .inl (Option.some.inj taken).symm

theorem single_of_mem {members : List (String × Node)} (distinct : (members.map Prod.fst).Nodup)
    {member : String × Node} (inside : member ∈ members) :
    single members member.1 = some [member] := by
  have alone : members.filter (·.1 = member.1) = [member] := by
    induction members with
    | nil => cases inside
    | cons head rest ih =>
        rw [List.map_cons, List.nodup_cons] at distinct
        rcases List.mem_cons.mp inside with rfl | inside
        · have none : rest.filter (·.1 = member.1) = [] := by
            rw [List.filter_eq_nil_iff]
            intro other there same
            exact distinct.1 (List.mem_map.mpr ⟨other, there, by simpa using same⟩)
          rw [List.filter_cons_of_pos (by simp), none]
        · have other : head.1 ≠ member.1 := fun same =>
            distinct.1 (same ▸ List.mem_map_of_mem inside)
          rw [List.filter_cons_of_neg (by simpa using other)]
          exact ih distinct.2 inside
  rw [single, alone]

def written (members : List (String × Value)) (depth : Nat) : Fields :=
  ⟨false, members.map fun member => (member.1, member.2.toNode), depth⟩

theorem read_written (members : List (String × Value)) (distinct : (members.map Prod.fst).Nodup)
    (depth : Nat) : read (members.map Prod.fst) (depth + 1) (Value.object members).toNode =
      some (written members depth) := by
  let nodes := members.map fun member => (member.1, member.2.toNode)
  have named : (Value.toMembers members).mapM (fun member => member.1.map (·, member.2)) =
      some nodes := by
    rw [Value.toMembers_eq_map]
    exact mapM_map_of_each fun member _ => rfl
  have names : nodes.map Prod.fst = members.map Prod.fst := by simp [nodes, Function.comp_def]
  have found : (members.map Prod.fst).mapM (single nodes) = some (nodes.map ([·])) := by
    rw [← names] at distinct ⊢
    exact mapM_map_of_each fun member inside => single_of_mem distinct inside
  have joined : (nodes.map ([·])).flatten = nodes := by
    rw [← List.flatMap_def]
    exact List.flatMap_singleton' nodes
  simp only [read, Value.toNode, named, found, joined, Option.bind_eq_bind, Option.bind_some]
  rfl

theorem lookup_written {members : List (String × Value)} {depth : Nat} {name : String} {value : Value}
    (there : members.lookup name = some value) :
    (written members depth).found.lookup name = some value.toNode := by
  show (members.map fun member => (member.1, member.2.toNode)).lookup name = _
  induction members with
  | nil => cases there
  | cons member rest ih =>
      obtain ⟨key, other⟩ := member
      rw [List.map_cons, List.lookup_cons]
      rw [List.lookup_cons] at there
      cases same : name == key with
      | true =>
          rw [same] at there
          rw [← Option.some.inj there]
      | false =>
          rw [same] at there
          exact ih there

end Fields

namespace Returns

open Fields (written)

variable {α β : Type} {read : Reader α} {write : α → Value} {members : List (String × Value)}
  {depth : Nat} {name : String} {a : α}

theorem record {build : Fields → Option α} (shape : write a = .object members)
    (distinct : (members.map Prod.fst).Nodup) (integral : ∀ member ∈ members, member.2.Integral)
    (built : build (written members depth) = some a) :
    Returns (fun depth node => (Fields.read (members.map Prod.fst) depth node).bind build) write
      (depth + 1) a := by
  constructor
  · rw [shape]
    exact .object integral
  · rw [shape, Fields.read_written members distinct]
    exact built

/-! Fields that are taken one after the other. -/

theorem required (returns : Returns read write depth a) (there : members.lookup name = some (write a))
    {next : α → Option β} {b : β} (rest : next a = some b) :
    ((written members depth).required name read).bind next = some b := by
  have taken : (written members depth).required name read = some a := by
    rw [Fields.required, Fields.lookup_written there]
    exact returns.returned
  rw [taken]
  exact rest

theorem withDefault (returns : Returns read write depth a)
    (there : members.lookup name = some (write a)) {default : α} {next : α → Option β} {b : β}
    (rest : next a = some b) :
    ((written members depth).withDefault name default read).bind next = some b := by
  have taken : (written members depth).withDefault name default read = some a := by
    rw [Fields.withDefault, Fields.lookup_written there]
    exact returns.returned
  rw [taken]
  exact rest

theorem nullableField {o : Option α} (returns : Returns read.nullable (Value.ofOption write) depth o)
    (there : members.lookup name = some (Value.ofOption write o)) {next : Option α → Option β} {b : β}
    (rest : next o = some b) :
    ((written members depth).nullable name read).bind next = some b := by
  have taken : (written members depth).nullable name read = some o := by
    rw [Fields.nullable, Fields.lookup_written there]
    exact returns.returned
  rw [taken]
  exact rest

end Returns

end Json

end Coverage
