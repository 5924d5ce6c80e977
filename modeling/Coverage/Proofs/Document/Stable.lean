import Coverage.Proofs.Document.Returned
import Coverage.Proofs.Document.Word
import Coverage.Proofs.Spelling.Moment
import Coverage.Wire.Verdict
/-!
Documents come back as they are written. Each type has a lemma that its values are returned by its
reader. Values with instants have to be settled, as a leap second within a minute is written as the second
after it; a status with an unknown word and a verdict, whose payloads are arbitrary values, are also
returned on condition. What is read from a document meets these conditions.
-/

namespace Coverage

open Json (Reader Fields Value Returns)

theorem ProductId.returns (depth : Nat) (p : ProductId) :
    Returns ProductId.reader ProductId.toValue depth p := ⟨.text p.text, rfl⟩

theorem StackId.returns (depth : Nat) (s : StackId) :
    Returns StackId.reader StackId.toValue depth s := ⟨.text s.text, rfl⟩

theorem ConsumerId.returns (depth : Nat) (c : ConsumerId) :
    Returns ConsumerId.reader ConsumerId.toValue depth c := by
  refine ⟨.text c.text, ?_⟩
  simp only [ConsumerId.reader, ConsumerId.toValue, Value.toNode, Reader.text, Option.bind_some,
    ConsumerId.ofText?_text]

/-! Values with instants. -/

namespace Instant

theorem toValue_settled (t : Instant) : t.settled.toValue = t.toValue := by
  rw [toValue, toValue, text, text, chars_settled]

theorem returns (depth : Nat) {t : Instant} (own : t.IsSettled) : Returns reader toValue depth t := by
  refine ⟨.text t.text, ?_⟩
  simp only [reader, toValue, Value.toNode, Reader.text, Option.bind_some, ofText?_text,
    settled_of_isSettled own]

theorem isSettled_of_reader {depth : Nat} {node : Json.Node} {t : Instant}
    (read : reader depth node = some t) : t.IsSettled := by
  obtain ⟨text, -, named⟩ := Option.bind_eq_some_iff.mp read
  exact isSettled_of_ofText? named

end Instant

namespace Window

variable {w : Window}

def IsSettled (w : Window) : Prop := w.opens.IsSettled ∧ w.closes.IsSettled

def settled (w : Window) : Window := ⟨w.opens.settled, w.closes.settled⟩

theorem isSettled_settled (w : Window) : w.settled.IsSettled :=
  ⟨w.opens.isSettled_settled, w.closes.isSettled_settled⟩

theorem settled_eq_iff : w.settled = w ↔ w.IsSettled := by
  rw [IsSettled, ← Instant.settled_eq_iff, ← Instant.settled_eq_iff]
  exact ⟨fun same => ⟨congrArg opens same, congrArg closes same⟩,
    fun same => congrArg₂ Window.mk same.1 same.2⟩

theorem toValue_settled (w : Window) : w.settled.toValue = w.toValue := by
  rw [toValue, toValue, settled, Instant.toValue_settled, Instant.toValue_settled]

theorem returns (depth : Nat) (own : w.IsSettled) : Returns reader toValue (depth + 1) w := by
  have opens := Instant.returns depth own.1
  have closes := Instant.returns depth own.2
  refine .record (rfl : w.toValue = .object _) (by simp) ?_ ?_
  · simp only [List.forall_mem_cons]
    exact ⟨opens.integral, closes.integral, List.forall_mem_nil _⟩
  · exact opens.required rfl (closes.required rfl rfl)

theorem parse_print (w : Window) : reader.parse w.toValue.print = some w.settled := by
  rw [← toValue_settled]
  exact (returns 126 w.isSettled_settled).parse

theorem isSettled_of_reader {depth : Nat} {node : Json.Node} (read : reader depth node = some w) :
    w.IsSettled := by
  obtain ⟨fields, -, read⟩ := Option.bind_eq_some_iff.mp read
  obtain ⟨opens, first, read⟩ := Option.bind_eq_some_iff.mp read
  obtain ⟨closes, second, read⟩ := Option.bind_eq_some_iff.mp read
  obtain rfl := Option.some.inj read
  have ⟨_, begins⟩ := Fields.exists_of_required first
  have ⟨_, ends⟩ := Fields.exists_of_required second
  exact ⟨Instant.isSettled_of_reader begins, Instant.isSettled_of_reader ends⟩

end Window

theorem Product.returns (depth : Nat) (p : Product) :
    Returns Product.reader Product.toValue (depth + 1) p := by
  have id := ProductId.returns depth p.id
  have name := Returns.text depth p.name
  have version := Returns.text depth p.version
  have arch := Returns.text depth p.arch
  refine .record (rfl : p.toValue = .object _) (by simp) ?_ ?_
  · simp only [List.forall_mem_cons]
    exact ⟨id.integral, name.integral, version.integral, arch.integral, List.forall_mem_nil _⟩
  · exact id.required rfl (name.required rfl (version.required rfl (arch.required rfl rfl)))

theorem Order.returns (depth : Nat) (o : Order) :
    Returns Order.reader Order.toValue (depth + 1) o := by
  have name : Returns Reader.text.nullable (Value.ofOption .text) depth o.name :=
    .nullable (fun s _ => .text depth s) Returns.text_ne_null
  have stack : Returns StackId.reader.nullable (Value.ofOption StackId.toValue) depth o.stack :=
    .nullable (fun s _ => StackId.returns depth s) fun s => Returns.text_ne_null s.text
  have days := Returns.natural depth o.warningDays.toNat_lt
  refine .record (rfl : o.toValue = .object _) (by simp) ?_ ?_
  · simp only [List.forall_mem_cons]
    exact ⟨name.integral, stack.integral, days.integral, List.forall_mem_nil _⟩
  · have whole : UInt32.ofNat o.warningDays.toNat = o.warningDays := UInt32.ofNat_toNat
    refine name.nullableField rfl (stack.nullableField rfl (days.withDefault rfl ?_))
    rw [whole]
    rfl

namespace Certificate

variable {c : Certificate}

def settled (c : Certificate) : Certificate := { c with window := c.window.settled }

theorem settled_eq_iff : c.settled = c ↔ c.window.IsSettled := by
  rw [← Window.settled_eq_iff]
  exact ⟨congrArg window, fun same => congrArg (fun w => { c with window := w }) same⟩

theorem toValue_settled (c : Certificate) : c.settled.toValue = c.toValue := by
  rw [toValue, toValue]
  show Value.object [_, ("validity", c.window.settled.toValue), _, _] = _
  rw [Window.toValue_settled]
  rfl

theorem returns (depth : Nat) (own : c.window.IsSettled) :
    Returns reader toValue (depth + 2) c := by
  have serial := Returns.natural (depth + 1) c.serial.toNat_lt
  have window := Window.returns depth own
  have products : Returns ProductId.reader.list (Value.ofList ProductId.toValue) (depth + 1)
      c.products := .list fun p _ => ProductId.returns depth p
  have order : Returns Order.reader.nullable (Value.ofOption Order.toValue) (depth + 1) c.order :=
    .nullable (fun o _ => Order.returns depth o) fun _ => Returns.object_ne_null _
  refine .record (rfl : c.toValue = .object _) (by simp) ?_ ?_
  · simp only [List.forall_mem_cons]
    exact ⟨serial.integral, window.integral, products.integral, order.integral, List.forall_mem_nil _⟩
  · have whole : UInt64.ofNat c.serial.toNat = c.serial := UInt64.ofNat_toNat
    refine serial.required rfl (window.required rfl (products.required rfl (order.nullableField rfl ?_)))
    rw [whole]
    rfl

theorem isSettled_of_reader {depth : Nat} {node : Json.Node} (read : reader depth node = some c) :
    c.window.IsSettled := by
  obtain ⟨fields, -, read⟩ := Option.bind_eq_some_iff.mp read
  obtain ⟨serial, -, read⟩ := Option.bind_eq_some_iff.mp read
  obtain ⟨window, held, read⟩ := Option.bind_eq_some_iff.mp read
  obtain ⟨products, -, read⟩ := Option.bind_eq_some_iff.mp read
  obtain ⟨order, -, read⟩ := Option.bind_eq_some_iff.mp read
  obtain rfl := Option.some.inj read
  have ⟨_, validity⟩ := Fields.exists_of_required held
  exact Window.isSettled_of_reader validity

theorem parse_print (c : Certificate) : reader.parse c.toValue.print = some c.settled := by
  rw [← toValue_settled]
  exact (returns 125 c.window.isSettled_settled).parse

end Certificate

theorem Reason.returns (depth : Nat) (r : Reason) :
    Returns Reason.reader Reason.toValue (depth + 2) r := by
  have key := Returns.text (depth + 1) r.key
  have message := Returns.text (depth + 1) r.message
  have attributes : Returns (Reader.table id Reader.text) (Table.toValue .text) (depth + 1)
      r.attributes := .table (fun _ => rfl) fun e _ => .text depth e.2
  refine .record (rfl : r.toValue = .object _) (by simp) ?_ ?_
  · simp only [List.forall_mem_cons]
    exact ⟨key.integral, message.integral, attributes.integral, List.forall_mem_nil _⟩
  · exact key.withDefault rfl (message.withDefault rfl (attributes.withDefault rfl rfl))

theorem Settings.returns (depth : Nat) {s : Settings} (own : ∀ t ∈ s.onDate, t.IsSettled) :
    Returns Settings.reader Settings.toValue (depth + 1) s := by
  have onDate : Returns Instant.reader.nullable (Value.ofOption Instant.toValue) depth s.onDate :=
    .nullable (fun t given => Instant.returns depth (own t given)) fun t => Returns.text_ne_null t.text
  have pushProducts := Returns.bool depth s.pushProducts
  refine .record (rfl : s.toValue = .object _) (by simp) ?_ ?_
  · simp only [List.forall_mem_cons]
    exact ⟨onDate.integral, pushProducts.integral, List.forall_mem_nil _⟩
  · exact onDate.withDefault rfl (pushProducts.withDefault rfl rfl)

theorem Settings.isSettled_of_reader {depth : Nat} {node : Json.Node} {s : Settings}
    (read : Settings.reader depth node = some s) : ∀ t ∈ s.onDate, t.IsSettled := by
  intro t given
  obtain ⟨fields, -, read⟩ := Option.bind_eq_some_iff.mp read
  obtain ⟨onDate, held, read⟩ := Option.bind_eq_some_iff.mp read
  obtain ⟨pushProducts, -, read⟩ := Option.bind_eq_some_iff.mp read
  obtain rfl := Option.some.inj read
  obtain rfl := Option.mem_def.mp given
  rcases Fields.withDefault_cases held with absent | ⟨inner, read⟩
  · cases absent
  · exact Instant.isSettled_of_reader (Reader.of_nullable read)

theorem Standing.returns (depth : Nat) (s : Standing) :
    Returns Standing.reader Standing.toValue depth s := by
  refine ⟨.text s.word, ?_⟩
  simp only [Standing.toValue, Value.toNode, Standing.reader, Option.bind_some, Standing.ofWord?_word]

/-- A status comes back unless it is an unknown one with a known word, which no document gives. -/
theorem SystemStatus.returns (depth : Nat) (word : String) :
    Returns SystemStatus.reader SystemStatus.toValue depth (SystemStatus.ofWord word) :=
  ⟨.text _, congrArg (some ∘ SystemStatus.ofWord) (SystemStatus.word_ofWord word)⟩

/-! Verdicts, which keep payloads as they came. -/

theorem Payloads.returns {depth : Nat} {payloads : Payloads}
    (fits : ∀ payload ∈ payloads, payload.Fits depth) :
    Returns Payloads.reader Payloads.toValue (depth + 1) payloads := by
  have written : Payloads.toValue payloads = Value.ofList id payloads := by
    rw [Value.ofList, List.map_id]
    rfl
  have list : Returns Payloads.reader (Value.ofList id) (depth + 1) payloads :=
    .list fun payload member => .payload (fits payload member)
  constructor
  · rw [written]
    exact list.integral
  · rw [written]
    exact list.returned

def Table.payloads {κ : Type} [Named κ] (t : Table κ Payloads) : List Value := t.values.flatten

theorem Table.mem_payloads {κ : Type} [Named κ] {t : Table κ Payloads} {payload : Value} :
    payload ∈ t.payloads ↔ ∃ e ∈ t.entries, payload ∈ e.2 := by
  rw [Table.payloads, Table.values, ← List.flatMap_def, List.mem_flatMap]

theorem Table.returns_payloads {κ : Type} [Named κ] (key : String → κ)
    (keys : ∀ k : κ, key (Named.name k) = k) {depth : Nat} {t : Table κ Payloads}
    (fits : ∀ payload ∈ t.payloads, payload.Fits depth) :
    Returns (Reader.table key Payloads.reader) (Table.toValue Payloads.toValue) (depth + 2) t :=
  .table keys fun e member => Payloads.returns fun payload inside =>
    fits payload (Table.mem_payloads.mpr ⟨e, member, inside⟩)

def Verdict.payloads (v : Verdict) : List Value :=
  v.compliant.payloads ++ v.partlyCompliant.payloads ++ v.partialStacks.payloads

theorem Verdict.mem_payloads {v : Verdict} {payload : Value} :
    payload ∈ v.payloads ↔ payload ∈ v.compliant.payloads ∨ payload ∈ v.partlyCompliant.payloads ∨
      payload ∈ v.partialStacks.payloads := by
  simp [Verdict.payloads]

theorem Verdict.returns (depth : Nat) {v : Verdict}
    (fits : ∀ payload ∈ v.payloads, payload.Fits (depth + 1)) :
    Returns Verdict.reader Verdict.toValue (depth + 4) v := by
  have compliant := Table.returns_payloads ProductId.mk (fun _ => rfl) fun payload member =>
    fits payload (Verdict.mem_payloads.mpr (.inl member))
  have partlyCompliant := Table.returns_payloads ProductId.mk (fun _ => rfl) fun payload member =>
    fits payload (Verdict.mem_payloads.mpr (.inr (.inl member)))
  have partialStacks := Table.returns_payloads StackId.mk (fun _ => rfl) fun payload member =>
    fits payload (Verdict.mem_payloads.mpr (.inr (.inr member)))
  have nonCompliant : Returns ProductId.reader.list (Value.ofList ProductId.toValue) (depth + 3)
      v.nonCompliant := .list fun p _ => ProductId.returns (depth + 2) p
  have status : Returns Reader.text.nullable (Value.ofOption .text) (depth + 3) v.status :=
    .nullable (fun s _ => .text (depth + 3) s) Returns.text_ne_null
  have compliantUntil : Returns Reader.text.nullable (Value.ofOption .text) (depth + 3)
      v.compliantUntil := .nullable (fun s _ => .text (depth + 3) s) Returns.text_ne_null
  have reasons : Returns Reason.reader.list.nullable (Value.ofOption (.ofList Reason.toValue))
      (depth + 3) v.reasons :=
    .nullable (fun reasons _ => .list fun r _ => Reason.returns depth r) fun _ =>
      Returns.array_ne_null _
  refine .record (rfl : v.toValue = .object _) (by simp) ?_ ?_
  · simp only [List.forall_mem_cons]
    exact ⟨compliant.integral, partlyCompliant.integral, partialStacks.integral, nonCompliant.integral,
      status.integral, compliantUntil.integral, reasons.integral, List.forall_mem_nil _⟩
  · refine compliant.withDefault rfl (partlyCompliant.withDefault rfl (partialStacks.withDefault rfl ?_))
    exact nonCompliant.withDefault rfl (status.withDefault rfl
      (compliantUntil.withDefault rfl (reasons.withDefault rfl rfl)))

theorem Table.fits_of_read {κ : Type} [Named κ] {key : String → κ} {fields : Fields} {name : String}
    {depth : Nat} (inner : fields.depth = depth + 2) {t : Table κ Payloads}
    (taken : fields.withDefault name .empty (Reader.table key Payloads.reader) = some t)
    {payload : Value} (member : payload ∈ t.payloads) (integral : payload.Integral) :
    payload.Fits depth := by
  obtain ⟨e, there, inside⟩ := Table.mem_payloads.mp member
  rcases Fields.withDefault_cases taken with rfl | ⟨node, listed⟩
  · cases there
  · rw [inner] at listed
    obtain ⟨items, list⟩ := Reader.exists_of_table listed there
    obtain ⟨item, read⟩ := Reader.exists_of_list list inside
    exact Json.Value.fits_of_ofNode? read integral

theorem Verdict.fits_of_read {depth : Nat} {node : Json.Node} {v : Verdict}
    (read : Verdict.reader (depth + 3) node = some v)
    (integral : ∀ payload ∈ v.payloads, payload.Integral) :
    ∀ payload ∈ v.payloads, payload.Fits depth := by
  intro payload member
  have whole := integral payload member
  obtain ⟨fields, opened, read⟩ := Option.bind_eq_some_iff.mp read
  obtain ⟨compliant, first, read⟩ := Option.bind_eq_some_iff.mp read
  obtain ⟨partlyCompliant, second, read⟩ := Option.bind_eq_some_iff.mp read
  obtain ⟨partialStacks, third, read⟩ := Option.bind_eq_some_iff.mp read
  obtain ⟨nonCompliant, -, read⟩ := Option.bind_eq_some_iff.mp read
  obtain ⟨status, -, read⟩ := Option.bind_eq_some_iff.mp read
  obtain ⟨compliantUntil, -, read⟩ := Option.bind_eq_some_iff.mp read
  obtain ⟨reasons, -, read⟩ := Option.bind_eq_some_iff.mp read
  obtain rfl := Option.some.inj read
  have inner := Fields.depth_of_read opened
  rcases Verdict.mem_payloads.mp member with inside | inside | inside
  · exact Table.fits_of_read inner first inside whole
  · exact Table.fits_of_read inner second inside whole
  · exact Table.fits_of_read inner third inside whole

/-- Whatever text a value is read from, it is read from its own text as well. -/
def Stable {α : Type} (read : Reader α) (write : α → Value) : Prop :=
  ∀ s a, read.parse s = some a → read.parse (write a).print = some a

theorem stable_of_read {α : Type} {read : Reader α} {write : α → Value}
    (returns : ∀ node a, read Json.depthLimit node = some a → Returns read write Json.depthLimit a) :
    Stable read write := by
  intro s a parsed
  obtain ⟨node, -, taken⟩ := Option.bind_eq_some_iff.mp parsed
  exact (returns node a taken).parse

theorem stable_of_returns {α : Type} {read : Reader α} {write : α → Value}
    (returns : ∀ a, Returns read write Json.depthLimit a) : Stable read write :=
  stable_of_read fun _ a _ => returns a

theorem Settings.stable : Stable Settings.reader Settings.toValue :=
  stable_of_read fun _ _ read => Settings.returns 126 (Settings.isSettled_of_reader read)

theorem Window.stable : Stable Window.reader Window.toValue :=
  stable_of_read fun _ _ read => Window.returns 126 (Window.isSettled_of_reader read)

theorem Certificate.stable : Stable Certificate.reader Certificate.toValue :=
  stable_of_read fun _ _ read => Certificate.returns 125 (Certificate.isSettled_of_reader read)

theorem SystemStatus.stable : Stable SystemStatus.reader SystemStatus.toValue := by
  refine stable_of_read fun node status read => ?_
  obtain ⟨word, -, rfl⟩ := Option.map_eq_some_iff.mp read
  exact SystemStatus.returns Json.depthLimit word

theorem Verdict.parse_print {s : String} {v : Verdict} (read : Verdict.reader.parse s = some v)
    (integral : ∀ payload ∈ v.payloads, payload.Integral) :
    Verdict.reader.parse v.toValue.print = some v := by
  obtain ⟨node, -, taken⟩ := Option.bind_eq_some_iff.mp read
  exact (Verdict.returns 123 (Verdict.fits_of_read taken integral)).parse

/-- Documents are stable: what is read from any text, in whatever spelling, is read again from the text
that it is written as. For a verdict the numbers in its payloads have to be integers. A certificate,
wherever it comes from, is read from the text that it is written as exactly if its two instants are settled;
a leap second within a minute comes back as the second after it. -/
theorem documents_stable :
    (∀ s v, Verdict.reader.parse s = some v → (∀ payload ∈ v.payloads, payload.Integral) →
        Verdict.reader.parse v.toValue.print = some v) ∧
      Stable Settings.reader Settings.toValue ∧ Stable Certificate.reader Certificate.toValue ∧
      Stable Order.reader Order.toValue ∧ Stable Window.reader Window.toValue ∧
      Stable Product.reader Product.toValue ∧ Stable Reason.reader Reason.toValue ∧
      Stable SystemStatus.reader SystemStatus.toValue ∧ Stable Standing.reader Standing.toValue ∧
      Stable ProductId.reader ProductId.toValue ∧ Stable StackId.reader StackId.toValue ∧
      Stable ConsumerId.reader ConsumerId.toValue ∧
      ∀ c : Certificate, (Certificate.reader.parse c.toValue.print = some c ↔
          c.window.opens.IsSettled ∧ c.window.closes.IsSettled) ∧
        Certificate.reader.parse c.toValue.print = some c.settled := by
  refine ⟨fun _ _ => Verdict.parse_print, Settings.stable, Certificate.stable,
    stable_of_returns (Order.returns 126), Window.stable, stable_of_returns (Product.returns 126),
    stable_of_returns (Reason.returns 125), SystemStatus.stable, stable_of_returns (Standing.returns _),
    stable_of_returns (ProductId.returns _), stable_of_returns (StackId.returns _),
    stable_of_returns (ConsumerId.returns _), ?_⟩
  intro c
  refine ⟨?_, c.parse_print⟩
  rw [c.parse_print, Option.some.injEq]
  exact Certificate.settled_eq_iff

def spelledPayload : Value :=
  .object [("a", .real (Json.Real.zero true)), ("b", .integer 18446744073709551615)]

def spelledVerdict : Value :=
  .object [("compliantProducts", .object [("p1", .array [.object [("b", .integer 18446744073709551615),
    ("a", .real (Json.Real.zero true))]])])]

def spelledOrder : Value := .array [.null, .text "s", .integer 30]

def plainOrder : Order := ⟨none, some ⟨"s"⟩, 30⟩

theorem documents_stable_spelled :
    (∃ v, Verdict.reader.parse spelledVerdict.print = some v ∧ v.payloads = [spelledPayload] ∧
        spelledPayload.Integral ∧ Verdict.reader.parse v.toValue.print = some v) ∧
      Order.reader.parse spelledOrder.print = some plainOrder ∧
      Order.reader.parse plainOrder.toValue.print = some plainOrder := by
  have payload : spelledPayload.Integral := .object (by
    simp only [List.forall_mem_cons]
    exact ⟨.negativeZero, .integer _, List.forall_mem_nil _⟩)
  have swapped : (Value.object [("b", .integer 18446744073709551615),
      ("a", .real (Json.Real.zero true))]).Integral := .object (by
    simp only [List.forall_mem_cons]
    exact ⟨.integer _, .negativeZero, List.forall_mem_nil _⟩)
  have verdictShape : spelledVerdict.Integral := .object (by
    simp only [List.forall_mem_cons]
    exact ⟨.object (by simpa using .array (by simpa using swapped)), List.forall_mem_nil _⟩)
  have orderShape : spelledOrder.Integral := .array (by
    simp only [List.forall_mem_cons]
    exact ⟨.null, .text _, .integer _, List.forall_mem_nil _⟩)
  have order : Order.reader.parse spelledOrder.print = some plainOrder := by
    rw [Reader.parse, orderShape.ofText?_print]
    rfl
  have verdict : Verdict.reader.parse spelledVerdict.print =
      some { compliant := .ofList [(⟨"p1"⟩, [spelledPayload])] } := by
    rw [Reader.parse, verdictShape.ofText?_print]
    rfl
  have payloads : ({ compliant := .ofList [(⟨"p1"⟩, [spelledPayload])] } : Verdict).payloads =
      [spelledPayload] := rfl
  refine ⟨⟨_, verdict, payloads, payload, documents_stable.1 _ _ verdict ?_⟩, order,
    documents_stable.2.2.2.1 _ _ order⟩
  rw [payloads]
  simpa using payload

/-- 2026-01-01T00:00:30Z with a second and a half. -/
def withinMinute : Instant := (Instant.make? 20454 30 1500000000).get (by decide)

def afterwards : Instant := (Instant.make? 20454 31 500000000).get (by decide)

def fromWithinMinute : Certificate := ⟨1, ⟨withinMinute, Deadline.latest⟩, [⟨"p1"⟩], none⟩

/-- A leap second within a minute is written as the second after it, and so is not read back. -/
theorem leap_second_within_minute_lost :
    withinMinute.text = "2026-01-01T00:00:31.500Z" ∧
      Instant.ofText? "2026-01-01T00:00:31.500Z" = some afterwards ∧ afterwards ≠ withinMinute ∧
      Certificate.reader.parse fromWithinMinute.toValue.print ≠ some fromWithinMinute := by
  refine ⟨by decide +kernel, by decide +kernel, by decide, ?_⟩
  rw [Certificate.parse_print]
  decide

end Coverage
