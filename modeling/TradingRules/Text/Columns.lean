/-!
# Columns

Text filled up with blanks to the width of a column. Text that is wider is not cut.
-/

namespace TradingRules.Text

def padRight (width : Nat) (s : String) : String :=
  s.pushn ' ' (width - s.length)

def padLeft (width : Nat) (s : String) : String :=
  "".pushn ' ' (width - s.length) ++ s

/-- Lines of text, each one ended. -/
def lines (ls : List String) : String :=
  ls.foldl (fun s l => s ++ l ++ "\n") ""

end TradingRules.Text
