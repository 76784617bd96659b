import TradingRules.Json.Number
import TradingRules.Json.String

/-!
# Reading documents

A document is read from left to right. What has been read is the value of the innermost open
container so far and the containers around it, each waiting for a value; at most 127 may be open. Of
two values for one key the last one counts. The first character that cannot follow ends the reading,
and so does a text that is too short.
-/

namespace TradingRules.Json

/-- A container that waits for a value: the items before it, last first, or the other fields and
the key it is for. -/
inductive Frame where
  | array (items : List Json)
  | object (fields : List (String × Json)) (key : String)

/-- What may come next. -/
inductive Place where
  | top
  | item (items : List Json) (first : Bool)
  | afterItem (items : List Json)
  | key (fields : List (String × Json)) (first : Bool)
  | colon (fields : List (String × Json)) (key : String)
  | member (fields : List (String × Json)) (key : String)
  | afterMember (fields : List (String × Json))
  | done (v : Json)

structure ReadState where
  outer : List Frame
  place : Place

/-- The most containers that may be open at once. -/
def maxOpen : Nat := 127

/-- Hands a complete value to the innermost waiting container. -/
def supply (v : Json) : List Frame → ReadState
  | [] => ⟨[], .done v⟩
  | .array items :: outer => ⟨outer, .afterItem (v :: items)⟩
  | .object fields key :: outer => ⟨outer, .afterMember (set fields key v)⟩

def isSpace (c : Char) : Bool :=
  c = ' ' || c = '\t' || c = '\n' || c = '\r'

/-- Reads a value that is no container. -/
def readScalar (c : Char) (rest : List Char) : Except Stop (Taken Json (rest.length + 1)) :=
  match c with
  | 'n' => do return (← readWord ['u', 'l', 'l'] rest).map fun _ => .null
  | 't' => do return (← readWord ['r', 'u', 'e'] rest).map fun _ => .bool true
  | 'f' => do return (← readWord ['a', 'l', 's', 'e'] rest).map fun _ => .bool false
  | '"' => do return ((← readString rest).map fun cs => .string (.ofList cs)).weaken
  | '-' => do return ((← readNumber true rest).map .number).weaken
  | c =>
    if c.isDigit then do return (← readNumber false (c :: rest)).map .number
    else .error (.before .expectedValue (c :: rest))

/-- Reads the start of a value that `waiting` is for: all of it, or the bracket that opens it. -/
def startValue (waiting : List Frame) (c : Char) (rest : List Char) :
    Except Stop (Taken ReadState (rest.length + 1)) :=
  let opened (place : Place) : Except Stop (Taken ReadState (rest.length + 1)) :=
    if waiting.length < maxOpen then .ok (.here ⟨waiting, place⟩ rest)
    else .error (.before .tooDeep (c :: rest))
  match c with
  | '[' => opened (.item [] true)
  | '\x7b' => opened (.key [] true)
  | c => do return (← readScalar c rest).map (supply · waiting)

/-- What is wrong with a text that ends at a place. -/
def Place.cut : Place → SyntaxCause
  | .item _ true => .cutArray
  | .afterItem _ => .cutArray
  | .key _ true => .cutObject
  | .colon _ _ => .cutObject
  | .afterMember _ => .cutObject
  | _ => .cutValue

/-- Goes on with the next character, and as far as the value that it begins. -/
def ReadState.advance (s : ReadState) (c : Char) (rest : List Char) :
    Except Stop (Taken ReadState (rest.length + 1)) :=
  let next (s : ReadState) : Except Stop (Taken ReadState (rest.length + 1)) :=
    .ok (.here s rest)
  let refuse (cause : SyntaxCause) : Except Stop (Taken ReadState (rest.length + 1)) :=
    .error (.before cause (c :: rest))
  match s.place, c with
  | .top, c => startValue s.outer c rest
  | .item items true, ']' => next (supply (.array items.reverse) s.outer)
  | .item _ false, ']' => refuse .trailingComma
  | .item items _, c => startValue (.array items :: s.outer) c rest
  | .afterItem items, ',' => next ⟨s.outer, .item items false⟩
  | .afterItem items, ']' => next (supply (.array items.reverse) s.outer)
  | .afterItem _, _ => refuse .expectedItem
  | .key fields true, '\x7d' => next (supply (.object fields) s.outer)
  | .key _ false, '\x7d' => refuse .trailingComma
  | .key fields _, '"' => do
    let key ← readString rest
    return (key.map fun cs => ⟨s.outer, .colon fields (.ofList cs)⟩).weaken
  | .key _ _, _ => refuse .keyNotString
  | .colon fields key, ':' => next ⟨s.outer, .member fields key⟩
  | .colon _ _, _ => refuse .expectedColon
  | .member fields key, c => startValue (.object fields key :: s.outer) c rest
  | .afterMember fields, ',' => next ⟨s.outer, .key fields false⟩
  | .afterMember fields, '\x7d' => next (supply (.object fields) s.outer)
  | .afterMember _, _ => refuse .expectedMember
  | .done _, _ => refuse .trailingText

/-- Reads on to the end of the text. -/
def readFrom (s : ReadState) (cs : List Char) : Except Stop Json :=
  match _ : cs.dropWhile isSpace with
  | [] =>
    match s.place with
    | .done v => .ok v
    | place => .error (.atEnd place.cut)
  | c :: rest => do
    let next ← s.advance c rest
    readFrom next.value next.rest
termination_by cs.length
decreasing_by
  have ahead : cs.dropWhile isSpace = c :: rest := by assumption
  have skipped := (List.dropWhile_suffix (l := cs) isSpace).length_le
  rw [ahead, List.length_cons] at skipped
  have shorter := next.shorter
  omega

/-- The document with the given text, or why it is none. -/
def parse (text : String) : Except SyntaxFault Json :=
  (readFrom ⟨[], .top⟩ text.toList).mapError (·.fault text.toList)

/-- The document with the given text, if it is one. -/
def parse? (text : String) : Option Json :=
  (parse text).toOption

end TradingRules.Json
