import TradingRules.Text.CaseTable
import TradingRules.Text.CasedTable

/-!
# Upper and lower case

Case mappings of text, character by character; one character may become several. A capital sigma
becomes a final one at the end of a word.
-/

namespace TradingRules.Text

/-- The image of a character of the run. -/
def CaseRun.image? (r : CaseRun) (c : Nat) : Option Nat :=
  if r.first ≤ c ∧ c ≤ r.last ∧ (c - r.first) % r.stride = 0 then
    some ((c : Int) + r.distance).toNat
  else none

/-- The images of a character; a character that no table has is its own image. -/
def mapped (runs : List CaseRun) (expansions : List (Nat × List Nat)) (c : Char) : List Char :=
  match expansions.lookup c.toNat with
  | some images => images.map Char.ofNat
  | none =>
    match runs.findSome? fun r => r.image? c.toNat with
    | some image => [Char.ofNat image]
    | none => [c]

def isAscii (c : Char) : Bool := c.toNat < 128

def upperChar (c : Char) : List Char :=
  if isAscii c then [c.toUpper] else mapped upperRuns upperExpansions c

def lowerChar (c : Char) : List Char :=
  if isAscii c then [c.toLower] else mapped lowerRuns lowerExpansions c

def upper (cs : List Char) : List Char :=
  cs.flatMap upperChar

def inRanges (ranges : List (Nat × Nat)) (c : Char) : Bool :=
  ranges.any fun (first, last) => first ≤ c.toNat && c.toNat ≤ last

/-- Whether a cased character comes first, ignorable ones apart. -/
def startsCased (cs : List Char) : Bool :=
  match cs.dropWhile (inRanges ignorableRanges) with
  | c :: _ => inRanges casedRanges c
  | [] => false

/-- The lower case of the rest of a text, given what comes before it, last character first. -/
def lowerAfter (before : List Char) : List Char → List Char
  | [] => []
  | c :: rest =>
    (if c = 'Σ' then [if startsCased before && !startsCased rest then 'ς' else 'σ']
      else lowerChar c) ++ lowerAfter (c :: before) rest

def lower (cs : List Char) : List Char :=
  lowerAfter [] cs

def lowercase (s : String) : String := String.ofList (lower s.toList)

end TradingRules.Text
