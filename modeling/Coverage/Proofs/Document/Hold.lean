import Coverage.Proofs.Document.Shape
import Coverage.Table.Lemmas
/-!
Values as they come out of documents. What a node is read as nests no deeper than allowed, has its
integers in range and its members in the order of their keys; such a value is read back from the node of
its own shape.
-/

namespace Coverage

namespace Table

variable {κ ν : Type} [Named κ]

theorem place_last {k : κ} {v : ν} {entries : List (κ × ν)}
    (above : ∀ e ∈ entries, Named.name e.1 < Named.name k) :
    place k v entries = entries ++ [(k, v)] := by
  induction entries with
  | nil => rfl
  | cons head rest ih =>
      have here := above head List.mem_cons_self
      have notBefore : ¬Named.name k < Named.name head.1 := String.lt_asymm here
      have notSame : Named.name k ≠ Named.name head.1 := (String.ne_of_lt here).symm
      have later := ih fun e member => above e (List.mem_cons_of_mem _ member)
      rw [place, if_neg notBefore, if_neg notSame, later]
      rfl

theorem entries_foldl_insert {entries : List (κ × ν)} {t : Table κ ν}
    (sorted : (t.entries ++ entries).Pairwise fun a b => Named.name a.1 < Named.name b.1) :
    (entries.foldl (fun t e => t.insert e.1 e.2) t).entries = t.entries ++ entries := by
  induction entries generalizing t with
  | nil => simp
  | cons head rest ih =>
      have above : ∀ e ∈ t.entries, Named.name e.1 < Named.name head.1 := fun e member =>
        (List.pairwise_append.mp sorted).2.2 e member head List.mem_cons_self
      have inserted : (t.insert head.1 head.2).entries = t.entries ++ [head] := place_last above
      have later := ih (t := t.insert head.1 head.2) (by simpa [inserted] using sorted)
      simpa [inserted] using later

theorem ofList_entries (t : Table κ ν) : ofList t.entries = t :=
  ext_entries (entries_foldl_insert (t := empty) t.sorted)

theorem mem_of_mem_ofList {entries : List (κ × ν)} {e : κ × ν}
    (member : e ∈ (ofList entries).entries) : e ∈ entries := by
  have general : ∀ (rest : List (κ × ν)) (t : Table κ ν),
      e ∈ (rest.foldl (fun t e => t.insert e.1 e.2) t).entries → e ∈ t.entries ∨ e ∈ rest := by
    intro rest
    induction rest with
    | nil => exact fun t member => .inl member
    | cons head rest ih =>
        intro t member
        rcases ih _ member with placed | later
        · rcases mem_place placed with same | before
          · exact .inr (same ▸ List.mem_cons_self)
          · exact .inl before
        · exact .inr (List.mem_cons_of_mem _ later)
  rcases general entries empty member with none | there
  · cases none
  · exact there

end Table

namespace Json.Value

theorem sortMembers_of_sorted {members : List (String × Value)}
    (sorted : members.Pairwise fun a b => a.1 < b.1) : sortMembers members = members :=
  congrArg Table.entries (Table.ofList_entries (⟨members, sorted⟩ : Table String Value))

/-- Values as they come out of documents, whose numbers are integers. -/
inductive Fits : Nat → Value → Prop where
  | null (depth : Nat) : Fits depth null
  | bool (depth : Nat) (value : Bool) : Fits depth (bool value)
  | integer (depth : Nat) {value : Int} (least : -Int.pow 2 63 ≤ value)
    (most : value < Int.pow 2 64) : Fits depth (integer value)
  | negativeZero (depth : Nat) : Fits depth (real (Real.zero true))
  | text (depth : Nat) (value : String) : Fits depth (text value)
  | array {depth : Nat} {items : List Value} (each : ∀ item ∈ items, Fits depth item) :
    Fits (depth + 1) (array items)
  | object {depth : Nat} {members : List (String × Value)}
    (sorted : members.Pairwise fun a b => a.1 < b.1) (each : ∀ member ∈ members, Fits depth member.2) :
    Fits (depth + 1) (object members)

theorem integer?_ofInt (n : Int) : (Literal.ofInt n).integer? = some n := by
  simp only [Literal.integer?, Literal.ofInt, Text.ofDigits_toDigits, Option.isSome_none, Bool.or_self,
    Bool.false_eq_true, if_false, decide_eq_true_eq]
  split
  · next below =>
    have other : n.natAbs ≠ 0 := by omega
    have value : -(n.natAbs : Int) = n := by omega
    rw [if_neg other, value]
  · next above =>
    have value : (n.natAbs : Int) = n := by omega
    rw [value]

theorem ofLiteral?_ofInt {n : Int} (least : -Int.pow 2 63 ≤ n) (most : n < Int.pow 2 64) :
    ofLiteral? (Literal.ofInt n) = some (integer n) := by
  rw [ofLiteral?, integer?_ofInt]
  exact if_pos ⟨least, most⟩

theorem ofNodes?_of_each {depth : Nat} {items : List Value}
    (each : ∀ item ∈ items, ofNode? depth item.toNode = some item) :
    ofNodes? depth (toNodes items) = some items := by
  induction items with
  | nil => rfl
  | cons item rest ih =>
      have later := ih fun other member => each other (List.mem_cons_of_mem _ member)
      simp [toNodes, ofNodes?, each item List.mem_cons_self, later]

theorem ofMembers?_of_each {depth : Nat} {members : List (String × Value)}
    (each : ∀ member ∈ members, ofNode? depth member.2.toNode = some member.2) :
    ofMembers? depth (toMembers members) = some members := by
  induction members with
  | nil => rfl
  | cons member rest ih =>
      have here := each member List.mem_cons_self
      have later := ih fun other inside => each other (List.mem_cons_of_mem _ inside)
      simp [toMembers, ofMembers?, here, later]

theorem Fits.ofNode?_toNode {depth : Nat} {value : Value} (fits : value.Fits depth) :
    ofNode? depth value.toNode = some value := by
  induction fits with
  | null => rfl
  | bool => rfl
  | text => rfl
  | integer _ least most => exact ofLiteral?_ofInt least most
  | negativeZero =>
      rw [toNode, realLiteral_negativeZero]
      rfl
  | array _ ih => simp [toNode, ofNode?, ofNodes?_of_each ih]
  | object sorted _ ih => simp [toNode, ofNode?, ofMembers?_of_each ih, sortMembers_of_sorted sorted]

theorem Fits.integral {depth : Nat} {value : Value} (fits : value.Fits depth) : value.Integral := by
  induction fits with
  | null => exact .null
  | bool _ value => exact .bool value
  | text _ value => exact .text value
  | integer => exact .integer _
  | negativeZero => exact .negativeZero
  | array _ ih => exact .array ih
  | object _ _ ih => exact .object ih

theorem fits_of_ofLiteral? {l : Literal} {value : Value} (read : ofLiteral? l = some value)
    (integral : value.Integral) (depth : Nat) : value.Fits depth := by
  have real {x : Option Real} (read : x.map real = some value) : value.Fits depth := by
    obtain ⟨x, -, rfl⟩ := Option.map_eq_some_iff.mp read
    cases integral
    exact .negativeZero depth
  unfold ofLiteral? at read
  split at read
  · split at read
    · next range =>
      obtain rfl := Option.some.inj read
      exact .integer depth range.1 range.2
    · exact real read
  · exact real read

mutual

theorem fits_of_ofNode? : ∀ {depth : Nat} {node : Node} {value : Value},
    ofNode? depth node = some value → value.Integral → value.Fits depth
  | _, .null, _, rfl, _ => .null _
  | _, .bool value, _, rfl, _ => .bool _ value
  | _, .text (some content), _, rfl, _ => .text _ content
  | depth, .number literal, _, read, integral => fits_of_ofLiteral? read integral depth
  | depth + 1, .array items, value, read, integral => by
      obtain ⟨values, each, rfl⟩ := Option.map_eq_some_iff.mp read
      cases integral with
      | array integral =>
          refine .array fun item member => ?_
          exact fits_of_ofNodes? each item member (integral item member)
  | depth + 1, .object members, value, read, integral => by
      obtain ⟨values, each, rfl⟩ := Option.map_eq_some_iff.mp read
      cases integral with
      | object integral =>
          refine .object (Table.ofList values).sorted fun member inside => ?_
          exact fits_of_ofMembers? each member (Table.mem_of_mem_ofList inside) (integral member inside)

theorem fits_of_ofNodes? : ∀ {depth : Nat} {nodes : List Node} {values : List Value},
    ofNodes? depth nodes = some values → ∀ value ∈ values, value.Integral → value.Fits depth
  | _, [], _, rfl, _, member, _ => by cases member
  | depth, node :: rest, values, read, value, member, integral => by
      obtain ⟨first, here, read⟩ := Option.bind_eq_some_iff.mp read
      obtain ⟨later, there, read⟩ := Option.bind_eq_some_iff.mp read
      obtain rfl := Option.some.inj read
      rcases List.mem_cons.mp member with rfl | member
      · exact fits_of_ofNode? here integral
      · exact fits_of_ofNodes? there value member integral

theorem fits_of_ofMembers? : ∀ {depth : Nat} {nodes : List (Option String × Node)}
    {members : List (String × Value)}, ofMembers? depth nodes = some members →
      ∀ member ∈ members, member.2.Integral → member.2.Fits depth
  | _, [], _, rfl, _, member, _ => by cases member
  | depth, (key, node) :: rest, members, read, member, inside, integral => by
      obtain ⟨name, -, read⟩ := Option.bind_eq_some_iff.mp read
      obtain ⟨first, here, read⟩ := Option.bind_eq_some_iff.mp read
      obtain ⟨later, there, read⟩ := Option.bind_eq_some_iff.mp read
      obtain rfl := Option.some.inj read
      rcases List.mem_cons.mp inside with rfl | inside
      · exact fits_of_ofNode? here integral
      · exact fits_of_ofMembers? there member inside integral

end

end Json.Value

end Coverage
