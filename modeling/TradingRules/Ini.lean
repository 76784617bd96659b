import TradingRules.Decimal.Reader
import TradingRules.Text.Blank
import TradingRules.Text.Case
import TradingRules.Text.Split

/-!
# Settings text

Lines of keys and values in groups. A group begins with its name in brackets; the lines before the
first group belong to the group `default`. Comments begin with a semicolon or a hash. Names of
groups and keys do not depend on case, blanks around them do not count, and the last value of a key
is the one it has.
-/

namespace TradingRules

/-- A key of a group; a key may come without a value. -/
structure IniEntry where
  group : String
  key : String
  value : Option String
deriving DecidableEq, Repr

abbrev Ini := List IniEntry

/-- A line that cannot be read; lines count from 1. -/
inductive IniFault where
  | openBracket (line : Nat)
  | emptyKey (line : Nat)
deriving DecidableEq, Repr

def IniFault.message : IniFault → String
  | .openBracket line =>
    s!"line {line}: Found opening bracket for section name but no closing bracket"
  | .emptyKey line => s!"line {line}:0: Key cannot be empty"

namespace Ini

open Text

def defaultGroup : String := "default"

/-- What a line says. -/
inductive Line where
  | blank
  | group (name : String)
  | entry (key : String) (value : Option String)

def startsComment (c : Char) : Bool := c = ';' || c = '#'
def isDelimiter (c : Char) : Bool := c = '=' || c = ':'

def named (cs : List Char) : String := String.ofList (lower (trim cs))

/-- The text in front of the last occurrence of a character. -/
def beforeLast? (mark : Char) (cs : List Char) : Option (List Char) :=
  match cs.reverse.dropWhile (· ≠ mark) with
  | [] => none
  | _ :: before => some before.reverse

def readLine (number : Nat) (cs : List Char) : Except IniFault Line :=
  let content := trim ((trim cs).takeWhile (!startsComment ·))
  match content with
  | [] => .ok .blank
  | '[' :: rest =>
    match beforeLast? ']' rest with
    | some inside => .ok (.group (named inside))
    | none => .error (.openBracket number)
  | _ =>
    match content.dropWhile (!isDelimiter ·) with
    | [] => .ok (.entry (named content) none)
    | _ :: value =>
      let key := content.takeWhile (!isDelimiter ·)
      if (trim key).isEmpty then .error (.emptyKey number)
      else .ok (.entry (named key) (some (String.ofList (trim value))))

/-- The entries of the lines from a number on, inside a group. -/
def readLines (group : String) : (number : Nat) → List (List Char) → Except IniFault Ini
  | _, [] => .ok []
  | number, l :: rest => do
    match ← readLine number l with
    | .blank => readLines group (number + 1) rest
    | .group name => readLines name (number + 1) rest
    | .entry key value => return ⟨group, key, value⟩ :: (← readLines group (number + 1) rest)

def parse (text : String) : Except IniFault Ini :=
  readLines defaultGroup 1 (pieces '\n' text.toList)

/-- The last value of a key. -/
def get? (ini : Ini) (group key : String) : Option String :=
  let g := lowercase group
  let k := lowercase key
  match ini.reverse.find? fun e => e.group == g && e.key == k with
  | some e => e.value
  | none => none

/-- The value of a key as an integer, or a default if it is none. -/
def getIntD (ini : Ini) (group key : String) (default : Int) : Int :=
  match ini.get? group key with
  | some s => (Decimal.readInteger s).toOption.getD default
  | none => default

end Ini

end TradingRules
