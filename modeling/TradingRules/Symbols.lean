import TradingRules.Text.Blank
import TradingRules.Text.Case
import TradingRules.Text.Split

/-!
# Symbol lists

A list of symbols is written with commas between them. Blanks around a symbol do not count and
neither does its case: a symbol is kept in upper case. No symbol is blank, and none occurs twice.
-/

namespace TradingRules

inductive SymbolFault where
  | emptyToken
  | duplicate (symbol : String)
deriving DecidableEq, Repr

def SymbolFault.message : SymbolFault → String
  | .emptyToken => "empty token in symbol list"
  | .duplicate symbol => "duplicate symbol: " ++ symbol

namespace Symbols

open Text

/-- The symbol a piece of text stands for. -/
def normal (piece : List Char) : String :=
  String.ofList (upper (trim piece))

/-- The symbols of some pieces that come after those in `seen`. -/
def collect (seen : List String) : List (List Char) → Except SymbolFault (List String)
  | [] => .ok []
  | piece :: rest =>
    if (trim piece).isEmpty then .error .emptyToken
    else if normal piece ∈ seen then .error (.duplicate (normal piece))
    else do return normal piece :: (← collect (normal piece :: seen) rest)

def parse (s : String) : Except SymbolFault (List String) :=
  collect [] (pieces ',' s.toList)

end Symbols

end TradingRules
