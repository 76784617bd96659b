import TradingRules.Json.Fault

/-!
# Reading the text of a document

A part of a document is read from the start of a text. Either it gives a value and leaves a shorter
text, or the reading stops; where it stops is known by the text that is left.
-/

namespace TradingRules.Json

/-- The end of a reading, and how many bytes of the text that is left had been looked at. -/
structure Stop where
  cause : SyntaxCause
  rest : List Char
  looked : Nat

namespace Stop

/-- There is no text left. -/
def atEnd (cause : SyntaxCause) : Stop := ⟨cause, [], 0⟩

/-- The next byte is not one that can stand here. -/
def before (cause : SyntaxCause) (rest : List Char) : Stop := ⟨cause, rest, 1⟩

/-- What has just been read is at fault. -/
def behind (cause : SyntaxCause) (rest : List Char) : Stop := ⟨cause, rest, 0⟩

end Stop

/-- The bytes that characters are encoded in. -/
def bytes (cs : List Char) : List UInt8 :=
  cs.flatMap String.utf8EncodeChar

def lineFeed : UInt8 := 10

/-- The place of a stop in the whole text. -/
def Stop.fault (s : Stop) (text : List Char) : SyntaxFault :=
  let seen := (bytes text).take ((bytes text).length - (bytes s.rest).length + s.looked)
  ⟨s.cause, 1 + seen.count lineFeed, (seen.reverse.takeWhile (· ≠ lineFeed)).length⟩

/-- A value, and the text after it, of fewer than `bound` characters. -/
structure Taken (α : Type) (bound : Nat) where
  value : α
  rest : List Char
  shorter : rest.length < bound

namespace Taken

variable {α β : Type} {bound : Nat}

/-- A value before a text none of which has been read. -/
def here (value : α) (rest : List Char) : Taken α (rest.length + 1) where
  value := value
  rest := rest
  shorter := Nat.lt_succ_self rest.length

/-- The characters up to the first one that is not `p`. -/
def span (p : Char → Bool) (cs : List Char) : Taken (List Char) (cs.length + 1) where
  value := cs.takeWhile p
  rest := cs.dropWhile p
  shorter := Nat.lt_succ_of_le (List.dropWhile_suffix p).length_le

def map (f : α → β) (t : Taken α bound) : Taken β bound where
  value := f t.value
  rest := t.rest
  shorter := t.shorter

def weaken (t : Taken α bound) : Taken α (bound + 1) where
  value := t.value
  rest := t.rest
  shorter := Nat.lt_succ_of_lt t.shorter

/-- A value read after another one. -/
def followedBy (first : Taken β bound) (t : Taken α (first.rest.length + 1)) : Taken α bound where
  value := t.value
  rest := t.rest
  shorter := Nat.lt_of_le_of_lt (Nat.le_of_lt_succ t.shorter) first.shorter

end Taken

/-- Passes over one character. The causes are for a text that ends here and for another
character. -/
def expect (c : Char) (cut other : SyntaxCause) (cs : List Char) :
    Except Stop (Taken Unit cs.length) :=
  match cs with
  | [] => .error (.atEnd cut)
  | first :: rest =>
    if first = c then .ok (.here () rest) else .error (.before other (first :: rest))

/-- Passes over the letters of a word. -/
def readWord : List Char → (cs : List Char) → Except Stop (Taken Unit (cs.length + 1))
  | [], cs => .ok (.here () cs)
  | letter :: others, cs => do
    let first ← expect letter .cutValue .expectedWord cs
    return (first.followedBy (← readWord others first.rest)).weaken

end TradingRules.Json
