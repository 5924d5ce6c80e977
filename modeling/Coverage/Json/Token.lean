import Coverage.Json.Literal
/-!
Tokens of JSON texts. A text is read one character at a time by a scanner whose mode says what is being
read; a number ends where a character follows that cannot belong to one. The content of a string is
kept as none if an escape in it leaves half of a surrogate pair, so that such a string can be skipped.
-/

namespace Coverage.Json

inductive Token where
  | beginArray
  | endArray
  | beginObject
  | endObject
  | colon
  | comma
  | null
  | bool (value : Bool)
  | number (literal : Literal)
  | text (content : Option String)
  deriving DecidableEq, Repr

/-- What the scanner is in the middle of. Strings are gathered as code points, the last one first. -/
inductive Mode where
  | between
  | word (rest : List Char) (token : Token)
  | number (taken : List Char)
  | text (points : List Nat)
  | escape (points : List Nat)
  | hex (missing value : Nat) (points : List Nat)

def isHighSurrogate (point : Nat) : Bool := 0xD800 ≤ point && point ≤ 0xDBFF

def isLowSurrogate (point : Nat) : Bool := 0xDC00 ≤ point && point ≤ 0xDFFF

/-- Joins surrogate pairs; none if half of a pair stands alone. -/
def joinPairs : List Nat → Option (List Char)
  | [] => some []
  | [point] =>
    if isHighSurrogate point || isLowSurrogate point then none else some [Char.ofNat point]
  | point :: next :: rest =>
    if isHighSurrogate point then
      if isLowSurrogate next then
        (joinPairs rest).map (Char.ofNat (0x10000 + (point - 0xD800) * 0x400 + (next - 0xDC00)) :: ·)
      else none
    else if isLowSurrogate point then none
    else (joinPairs (next :: rest)).map (Char.ofNat point :: ·)

namespace Token

def isSpace (c : Char) : Bool := c = ' ' || c = '\n' || c = '\t' || c = '\r'

def escaped? (c : Char) : Option Nat :=
  if c = '"' ∨ c = '\\' ∨ c = '/' then some c.toNat
  else if c = 'b' then some 0x08
  else if c = 'f' then some 0x0C
  else if c = 'n' then some 0x0A
  else if c = 'r' then some 0x0D
  else if c = 't' then some 0x09
  else none

def start (c : Char) : Option (List Token × Mode) :=
  if isSpace c then some ([], .between)
  else if c = '[' then some ([beginArray], .between)
  else if c = ']' then some ([endArray], .between)
  else if c = '\x7b' then some ([beginObject], .between)
  else if c = '\x7d' then some ([endObject], .between)
  else if c = ':' then some ([colon], .between)
  else if c = ',' then some ([comma], .between)
  else if c = '"' then some ([], .text [])
  else if c = 'n' then some ([], .word ['u', 'l', 'l'] null)
  else if c = 't' then some ([], .word ['r', 'u', 'e'] (bool true))
  else if c = 'f' then some ([], .word ['a', 'l', 's', 'e'] (bool false))
  else if c = '-' ∨ c.isDigit then some ([], .number [c])
  else none

def literalToken (taken : List Char) : Option Token :=
  (Literal.ofChars? taken.reverse).map number

def step (mode : Mode) (c : Char) : Option (List Token × Mode) :=
  match mode with
  | .between => start c
  | .word [] _ => none
  | .word (next :: rest) token =>
    if c ≠ next then none
    else if rest.isEmpty then some ([token], .between)
    else some ([], .word rest token)
  | .number taken =>
    if Literal.isNumeric c then some ([], .number (c :: taken))
    else do
      let token ← literalToken taken
      let (tokens, mode) ← start c
      return (token :: tokens, mode)
  | .text points =>
    if c = '"' then some ([text ((joinPairs points.reverse).map String.ofList)], .between)
    else if c = '\\' then some ([], .escape points)
    else if c.toNat < 0x20 then none
    else some ([], .text (c.toNat :: points))
  | .escape points =>
    if c = 'u' then some ([], .hex 3 0 points)
    else (escaped? c).map fun point => ([], .text (point :: points))
  | .hex missing value points => do
    let digit ← Text.hexValue? c
    let value := 16 * value + digit
    match missing with
    | 0 => return ([], .text (value :: points))
    | missing + 1 => return ([], .hex missing value points)

def finish : Mode → Option (List Token)
  | .between => some []
  | .number taken => (literalToken taken).map ([·])
  | _ => none

def scanFrom (mode : Mode) : List Char → Option (List Token)
  | [] => finish mode
  | c :: rest => do
    let (tokens, mode) ← step mode c
    let later ← scanFrom mode rest
    return tokens ++ later

def scan (s : List Char) : Option (List Token) := scanFrom .between s

end Token

end Coverage.Json
