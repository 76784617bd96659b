import TradingRules.Named
import TradingRules.Timestamp

/-!
# Quotes

One bar of a price history: its time, four prices and the volume traded.
-/

namespace TradingRules

structure Quote where
  time : Timestamp
  opening : Float
  high : Float
  low : Float
  close : Float
  volume : Int
deriving DecidableEq

/-- The columns of a quote that a rule can read. -/
inductive Field where
  | opening
  | high
  | low
  | close
  | volume
deriving DecidableEq, Repr

instance : Named Field where
  all := [.opening, .high, .low, .close, .volume]
  name
    | .opening => "open"
    | .high => "high"
    | .low => "low"
    | .close => "close"
    | .volume => "volume"

/-- A volume is read as the nearest binary64 number. -/
def Field.value (field : Field) (q : Quote) : Float :=
  match field with
  | .opening => q.opening
  | .high => q.high
  | .low => q.low
  | .close => q.close
  | .volume => Float.ofInt q.volume

end TradingRules
