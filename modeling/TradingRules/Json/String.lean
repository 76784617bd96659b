import TradingRules.Json.Text

/-!
# String literals

A string escapes quotes, backslashes and control characters; characters outside the first plane may
be written as a pair of escapes, and half a pair alone is a fault.
-/

namespace TradingRules.Json

def hexDigit? (c : Char) : Option Nat :=
  if '0' ≤ c ∧ c ≤ '9' then some (c.toNat - '0'.toNat)
  else if 'a' ≤ c ∧ c ≤ 'f' then some (c.toNat - 'a'.toNat + 10)
  else if 'A' ≤ c ∧ c ≤ 'F' then some (c.toNat - 'A'.toNat + 10)
  else none

/-- The 16-bit unit that four hexadecimal digits stand for. -/
def unit? (a b c d : Char) : Option Nat := do
  return (((← hexDigit? a) * 16 + (← hexDigit? b)) * 16 + (← hexDigit? c)) * 16 + (← hexDigit? d)

def isHighHalf (u : Nat) : Bool := 0xD800 ≤ u && u < 0xDC00
def isLowHalf (u : Nat) : Bool := 0xDC00 ≤ u && u < 0xE000

/-- The character that a pair of units stands for. -/
def joined (high low : Nat) : Char :=
  Char.ofNat (0x10000 + (high - 0xD800) * 0x400 + (low - 0xDC00))

def escaped? : Char → Option Char
  | '"' => some '"'
  | '\\' => some '\\'
  | '/' => some '/'
  | 'b' => some '\x08'
  | 'f' => some '\x0c'
  | 'n' => some '\n'
  | 'r' => some '\r'
  | 't' => some '\t'
  | _ => none

/-- Reads the unit of an escape. Its four bytes are looked at together. -/
def readUnit (cs : List Char) : Except Stop (Taken Nat cs.length) :=
  match cs with
  | a :: b :: c :: d :: rest =>
    match unit? a b c d with
    | some u => .ok (Taken.here u rest).weaken.weaken.weaken
    | none => .error ⟨.invalidEscape, a :: b :: c :: d :: rest, 4⟩
  | cs => .error (if (bytes cs).length < 4 then .atEnd .cutString else ⟨.invalidEscape, cs, 4⟩)

/-- Reads the second half of a pair, with the mark of its escape. -/
def readLowHalf (cs : List Char) : Except Stop (Taken Nat cs.length) := do
  let backslash ← expect '\\' .cutString .unpairedHalf cs
  let mark ← expect 'u' .cutString .unpairedHalf backslash.rest
  let low ← readUnit mark.rest
  if isLowHalf low.value then
    return backslash.followedBy (mark.followedBy low.weaken).weaken
  else .error (.behind .loneHalf low.rest)

/-- Reads the character of one escape or of a pair, after the first mark. -/
def readPoint (cs : List Char) : Except Stop (Taken Char cs.length) := do
  let first ← readUnit cs
  if isLowHalf first.value then .error (.behind .loneHalf first.rest)
  else if isHighHalf first.value then
    let second ← readLowHalf first.rest
    return first.followedBy (second.map (joined first.value)).weaken
  else return first.map Char.ofNat

/-- Reads what comes after the backslash of an escape. -/
def readEscape (cs : List Char) : Except Stop (Taken Char cs.length) :=
  match cs with
  | [] => .error (.atEnd .cutString)
  | 'u' :: rest => do return (← readPoint rest).weaken
  | c :: rest =>
    match escaped? c with
    | some e => .ok (.here e rest)
    | none => .error (.before .invalidEscape (c :: rest))

/-- Reads the characters of a string up to its closing quote. -/
def readString (cs : List Char) : Except Stop (Taken (List Char) cs.length) :=
  match cs with
  | [] => .error (.atEnd .cutString)
  | c :: rest =>
    if c = '"' then .ok (.here [] rest)
    else if c = '\\' then do
      let first ← readEscape rest
      let others ← readString first.rest
      return (first.followedBy (others.map (first.value :: ·)).weaken).weaken
    else if c.toNat < 0x20 then .error (.before .controlCharacter (c :: rest))
    else do return ((← readString rest).map (c :: ·)).weaken
termination_by cs.length
decreasing_by
  · exact Nat.lt_succ_of_lt first.shorter
  · exact Nat.lt_succ_self _

end TradingRules.Json
