import Coverage.Json.Token
/-!
The structure of a JSON text: members of objects in source order with repetitions, numbers as their
literals, strings as far as they can be held. Tokens are read with a stack of the arrays and objects
that are still open.
-/

namespace Coverage.Json

inductive Node where
  | null
  | bool (value : Bool)
  | number (literal : Literal)
  | text (content : Option String)
  | array (items : List Node)
  | object (members : List (Option String × Node))

namespace Node

/-- An array or an object that is still open, its parts so far with the last one first; of an object
also the key whose value is due. -/
inductive Frame where
  | array (items : List Node)
  | object (members : List (Option String × Node)) (key : Option String)

inductive State where
  | value (outer : List Frame)
  | firstItem (outer : List Frame)
  | firstKey (outer : List Frame)
  | key (outer : List Frame) (members : List (Option String × Node))
  | colon (outer : List Frame) (members : List (Option String × Node)) (key : Option String)
  | afterItem (outer : List Frame) (items : List Node)
  | afterMember (outer : List Frame) (members : List (Option String × Node))
  | done (node : Node)

def deliver (node : Node) : List Frame → State
  | [] => .done node
  | .array items :: outer => .afterItem outer (node :: items)
  | .object members key :: outer => .afterMember outer ((key, node) :: members)

def beginValue (outer : List Frame) : Token → Option State
  | .null => some (deliver null outer)
  | .bool value => some (deliver (bool value) outer)
  | .number literal => some (deliver (number literal) outer)
  | .text content => some (deliver (text content) outer)
  | .beginArray => some (.firstItem outer)
  | .beginObject => some (.firstKey outer)
  | _ => none

def feed (state : State) (token : Token) : Option State :=
  match state, token with
  | .value outer, token => beginValue outer token
  | .firstItem outer, .endArray => some (deliver (array []) outer)
  | .firstItem outer, token => beginValue (.array [] :: outer) token
  | .firstKey outer, .endObject => some (deliver (object []) outer)
  | .firstKey outer, .text key => some (.colon outer [] key)
  | .key outer members, .text key => some (.colon outer members key)
  | .colon outer members key, .colon => some (.value (.object members key :: outer))
  | .afterItem outer items, .comma => some (.value (.array items :: outer))
  | .afterItem outer items, .endArray => some (deliver (array items.reverse) outer)
  | .afterMember outer members, .comma => some (.key outer members)
  | .afterMember outer members, .endObject => some (deliver (object members.reverse) outer)
  | _, _ => none

def ofTokens? (tokens : List Token) : Option Node :=
  match tokens.foldlM feed (.value []) with
  | some (.done node) => some node
  | _ => none

def ofText? (s : String) : Option Node := (Token.scan s.toList).bind ofTokens?

end Node

end Coverage.Json
