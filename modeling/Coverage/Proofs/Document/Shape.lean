import Coverage.Proofs.Document.Scan
/-!
The structure of a value's text. The text of a value whose numbers are integers is read as the node that
has the same shape, with members in the same order.
-/

namespace Coverage.Json

namespace Value

/-- All numbers in a value are integers. A zero that has kept its sign is one. -/
inductive Integral : Value → Prop where
  | null : Integral null
  | bool (value : Bool) : Integral (bool value)
  | integer (value : Int) : Integral (integer value)
  | negativeZero : Integral (real (Real.zero true))
  | text (value : String) : Integral (text value)
  | array {items : List Value} (each : ∀ item ∈ items, Integral item) : Integral (array items)
  | object {members : List (String × Value)} (each : ∀ member ∈ members, Integral member.2) :
    Integral (object members)

def realLiteral (x : Real) : Literal := (Literal.ofChars? x.chars).getD (.ofInt 0)

mutual

def tokens : Value → List Token
  | null => [.null]
  | bool value => [.bool value]
  | integer value => [.number (.ofInt value)]
  | real value => [.number (realLiteral value)]
  | text value => [.text (some value)]
  | array [] => [.beginArray, .endArray]
  | array (item :: rest) => .beginArray :: tokens item ++ itemTokens rest
  | object [] => [.beginObject, .endObject]
  | object ((key, value) :: rest) =>
    .beginObject :: .text (some key) :: .colon :: tokens value ++ memberTokens rest

def itemTokens : List Value → List Token
  | [] => [.endArray]
  | item :: rest => .comma :: tokens item ++ itemTokens rest

def memberTokens : List (String × Value) → List Token
  | [] => [.endObject]
  | (key, value) :: rest =>
    .comma :: .text (some key) :: .colon :: tokens value ++ memberTokens rest

end

mutual

def toNode : Value → Node
  | null => .null
  | bool value => .bool value
  | integer value => .number (.ofInt value)
  | real value => .number (realLiteral value)
  | text value => .text (some value)
  | array items => .array (toNodes items)
  | object members => .object (toMembers members)

def toNodes : List Value → List Node
  | [] => []
  | item :: rest => toNode item :: toNodes rest

def toMembers : List (String × Value) → List (Option String × Node)
  | [] => []
  | (key, value) :: rest => (some key, toNode value) :: toMembers rest

end

theorem toNodes_eq_map (items : List Value) : toNodes items = items.map toNode := by
  induction items with
  | nil => rfl
  | cons item rest ih => rw [toNodes, ih, List.map_cons]

theorem toMembers_eq_map (members : List (String × Value)) :
    toMembers members = members.map fun member => (some member.1, toNode member.2) := by
  induction members with
  | nil => rfl
  | cons member rest ih => rw [toMembers, ih, List.map_cons]

theorem realLiteral_negativeZero :
    realLiteral (Real.zero true) = ⟨true, ['0'], some ['0'], none⟩ := by
  rw [realLiteral, Token.chars_negativeZero]
  decide

/-! The tokens of a value's text. -/

theorem itemChars_ends (items : List Value) (rest : List Char) :
    NumberEnds (itemChars items ++ rest) := by
  cases items with
  | nil => exact Text.stops_cons _ rfl
  | cons item items => exact Text.stops_cons _ rfl

theorem memberChars_ends (members : List (String × Value)) (rest : List Char) :
    NumberEnds (memberChars members ++ rest) := by
  cases members with
  | nil => exact Text.stops_cons _ rfl
  | cons member members => exact Text.stops_cons _ rfl

theorem scan_itemChars {items : List Value} (each : ∀ item ∈ items, Scans item.chars item.tokens)
    (rest : List Char) : Token.scanFrom .between (itemChars items ++ rest) =
      (Token.scanFrom .between rest).map (itemTokens items ++ ·) := by
  induction items with
  | nil => exact Token.scan_punctuation rfl rest
  | cons item items ih =>
      have first := each item List.mem_cons_self _ (itemChars_ends items rest)
      have later := ih fun other member => each other (List.mem_cons_of_mem _ member)
      simp only [itemChars, List.cons_append, List.append_assoc]
      rw [Token.scan_punctuation rfl, first, later]
      simp [itemTokens, Function.comp_def]

theorem scan_member (key : String) {value : Value} (scans : Scans value.chars value.tokens)
    {rest : List Char} (ends : NumberEnds rest) :
    Token.scanFrom .between (quoted key ++ ':' :: (value.chars ++ rest)) =
      (Token.scanFrom .between rest).map (.text (some key) :: .colon :: value.tokens ++ ·) := by
  rw [Token.scans_quoted key _ (Text.stops_cons _ rfl), Token.scan_punctuation rfl, scans rest ends]
  simp [Function.comp_def]

theorem scan_memberChars {members : List (String × Value)}
    (each : ∀ member ∈ members, Scans member.2.chars member.2.tokens) (rest : List Char) :
    Token.scanFrom .between (memberChars members ++ rest) =
      (Token.scanFrom .between rest).map (memberTokens members ++ ·) := by
  induction members with
  | nil => exact Token.scan_punctuation rfl rest
  | cons member members ih =>
      obtain ⟨key, value⟩ := member
      have first := scan_member key (each (key, value) List.mem_cons_self)
        (memberChars_ends members rest)
      have later := ih fun other member => each other (List.mem_cons_of_mem _ member)
      simp only [memberChars, List.cons_append, List.append_assoc]
      rw [Token.scan_punctuation rfl, first, later]
      simp [memberTokens, Function.comp_def]

theorem Integral.scans {value : Value} (integral : value.Integral) :
    Scans value.chars value.tokens := by
  induction integral with
  | null => exact Token.scans_null
  | bool value =>
      cases value with
      | true => exact Token.scans_true
      | false => exact Token.scans_false
  | integer value => exact Token.scans_integer value
  | negativeZero =>
      rw [tokens, realLiteral_negativeZero]
      exact Token.scans_negativeZero
  | text value => exact Token.scans_quoted value
  | @array items _ ih =>
      intro rest _
      cases items with
      | nil =>
          show Token.scanFrom .between ('[' :: ']' :: rest) = _
          rw [Token.scan_punctuation rfl, Token.scan_punctuation rfl]
          simp [tokens, Function.comp_def]
      | cons item items =>
          have first := ih item List.mem_cons_self _ (itemChars_ends items rest)
          have later := scan_itemChars
            (fun other member => ih other (List.mem_cons_of_mem _ member)) rest
          simp only [chars, List.cons_append, List.append_assoc]
          rw [Token.scan_punctuation rfl, first, later]
          simp [tokens, Function.comp_def]
  | @object members _ ih =>
      intro rest _
      cases members with
      | nil =>
          show Token.scanFrom .between ('\x7b' :: '\x7d' :: rest) = _
          rw [Token.scan_punctuation rfl, Token.scan_punctuation rfl]
          simp [tokens, Function.comp_def]
      | cons member members =>
          obtain ⟨key, value⟩ := member
          have first := scan_member key (ih (key, value) List.mem_cons_self)
            (memberChars_ends members rest)
          have later := scan_memberChars
            (fun other member => ih other (List.mem_cons_of_mem _ member)) rest
          simp only [chars, List.cons_append, List.append_assoc]
          rw [Token.scan_punctuation rfl, first, later]
          simp [tokens, Function.comp_def]

/-! The node that the tokens make up. -/

open Node (feed deliver)

/-- Where a value is due, these tokens complete a node. -/
def Completes (tokens : List Token) (node : Node) : Prop :=
  ∀ (outer : List Node.Frame) (rest : List Token),
    (tokens ++ rest).foldlM feed (.value outer) = rest.foldlM feed (deliver node outer)

theorem tokens_head (value : Value) :
    ∃ token rest, value.tokens = token :: rest ∧ token ≠ .endArray := by
  cases value with
  | array items => cases items <;> exact ⟨_, _, rfl, by decide⟩
  | object members =>
      cases members with
      | nil => exact ⟨_, _, rfl, by decide⟩
      | cons member members => exact ⟨_, _, rfl, by decide⟩
  | _ => exact ⟨_, _, rfl, nofun⟩

theorem feed_itemTokens {items : List Value} (each : ∀ item ∈ items, Completes item.tokens item.toNode)
    (outer : List Node.Frame) (done : List Node) (rest : List Token) :
    (itemTokens items ++ rest).foldlM feed (.afterItem outer done) =
      rest.foldlM feed (deliver (.array (done.reverse ++ toNodes items)) outer) := by
  induction items generalizing done with
  | nil => simp [itemTokens, toNodes, feed]
  | cons item items ih =>
      have first := each item List.mem_cons_self (.array done :: outer) (itemTokens items ++ rest)
      have later := ih (fun other member => each other (List.mem_cons_of_mem _ member))
        (item.toNode :: done)
      simp only [itemTokens, List.cons_append, List.append_assoc]
      show (item.tokens ++ (itemTokens items ++ rest)).foldlM feed (.value (.array done :: outer)) = _
      rw [first]
      show (itemTokens items ++ rest).foldlM feed (.afterItem outer (item.toNode :: done)) = _
      rw [later, List.reverse_cons, List.append_assoc, toNodes]
      rfl

theorem feed_memberTokens {members : List (String × Value)}
    (each : ∀ member ∈ members, Completes member.2.tokens member.2.toNode) (outer : List Node.Frame)
    (done : List (Option String × Node)) (rest : List Token) :
    (memberTokens members ++ rest).foldlM feed (.afterMember outer done) =
      rest.foldlM feed (deliver (.object (done.reverse ++ toMembers members)) outer) := by
  induction members generalizing done with
  | nil => simp [memberTokens, toMembers, feed]
  | cons member members ih =>
      obtain ⟨key, value⟩ := member
      have first := each (key, value) List.mem_cons_self (.object done (some key) :: outer)
        (memberTokens members ++ rest)
      have later := ih (fun other member => each other (List.mem_cons_of_mem _ member))
        ((some key, value.toNode) :: done)
      simp only [memberTokens, List.cons_append, List.append_assoc]
      show (value.tokens ++ (memberTokens members ++ rest)).foldlM feed
        (.value (.object done (some key) :: outer)) = _
      rw [first]
      show (memberTokens members ++ rest).foldlM feed
        (.afterMember outer ((some key, value.toNode) :: done)) = _
      rw [later, List.reverse_cons, List.append_assoc, toMembers]
      rfl

theorem Integral.completes {value : Value} (integral : value.Integral) :
    Completes value.tokens value.toNode := by
  induction integral with
  | @array items _ ih =>
      intro outer rest
      cases items with
      | nil => rfl
      | cons item items =>
          have first := ih item List.mem_cons_self (.array [] :: outer) (itemTokens items ++ rest)
          have later := feed_itemTokens (fun other member => ih other (List.mem_cons_of_mem _ member))
            outer [item.toNode] rest
          -- What may be an empty array goes on as any array does, since the item does not end it.
          have opened : (item.tokens ++ (itemTokens items ++ rest)).foldlM feed (.firstItem outer) =
              (item.tokens ++ (itemTokens items ++ rest)).foldlM feed (.value (.array [] :: outer)) := by
            obtain ⟨token, tail, begins, other⟩ := tokens_head item
            rw [begins]
            cases token <;> first | rfl | exact absurd rfl other
          simp only [tokens, List.cons_append, List.append_assoc]
          show (item.tokens ++ (itemTokens items ++ rest)).foldlM feed (.firstItem outer) = _
          rw [opened, first]
          exact later
  | @object members _ ih =>
      intro outer rest
      cases members with
      | nil => rfl
      | cons member members =>
          obtain ⟨key, value⟩ := member
          have first := ih (key, value) List.mem_cons_self (.object [] (some key) :: outer)
            (memberTokens members ++ rest)
          have later := feed_memberTokens (fun other member => ih other (List.mem_cons_of_mem _ member))
            outer [(some key, value.toNode)] rest
          simp only [tokens, List.cons_append, List.append_assoc]
          show (value.tokens ++ (memberTokens members ++ rest)).foldlM feed
            (.value (.object [] (some key) :: outer)) = _
          rw [first]
          exact later
  | _ => exact fun _ _ => rfl

/-- The text of a value is read as the node of its shape. -/
theorem Integral.ofText?_print {value : Value} (integral : value.Integral) :
    Node.ofText? value.print = some value.toNode := by
  have scanned : Token.scan value.chars = some value.tokens := by
    have whole := integral.scans [] (Text.stops_nil _)
    simpa [Token.scan, Token.scanFrom, Token.finish] using whole
  have fed : value.tokens.foldlM feed (.value []) = some (deliver value.toNode []) := by
    have whole := integral.completes [] []
    simpa using whole
  simp [Node.ofText?, print, scanned, Node.ofTokens?, fed, deliver]

end Value

end Coverage.Json
