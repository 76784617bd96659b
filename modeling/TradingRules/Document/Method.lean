import TradingRules.Document.Node
import TradingRules.Method

/-!
# Methods in documents

The tag of a node says which method it is. The methods inside a node are compiled before its other
parameters are looked at. `levels` is how many levels of nodes may still be entered; a node on a
level below them is refused before anything else, and the fault names the `limit` there was.
-/

namespace TradingRules.Document

inductive MethodTag where
  | value
  | field
  | absDiff
  | atr
  | sma
  | ema
  | bollinger
  | macd
  | stochastic
deriving DecidableEq, Repr

instance : Named MethodTag where
  all := [.value, .field, .absDiff, .atr, .sma, .ema, .bollinger, .macd, .stochastic]
  name
    | .value => "value"
    | .field => "field"
    | .absDiff => "abs_diff"
    | .atr => "atr"
    | .sma => "sma"
    | .ema => "ema"
    | .bollinger => "bollinger"
    | .macd => "macd"
    | .stochastic => "stochastic"

/-- The tag of a node, if it is one of the vocabulary of its category. -/
def tagOf (α : Type) [Named α] (category : Category) (n : Node) : Except Cause α := do
  let tag ← n.tag
  match Named.find? tag with
  | some t => .ok t
  | none => .error (.unknownTag category tag)

/-- A parameter compiled as a node of its own. -/
def inner {α : Type} (compile : Json → Except Fault α) (n : Node) (name : String) :
    Except Fault α := do
  let v ← here (n.required name)
  under (.key name) (compile v)

/-- The same, with a value for a key that is absent. -/
def innerD {α : Type} (compile : Json → Except Fault α) (n : Node) (name : String) (default : α) :
    Except Fault α :=
  match Json.get? n name with
  | none => .ok default
  | some v => under (.key name) (compile v)

def defaultMultiplier : Float := 2.0
def defaultFast : Nat := 12
def defaultSlow : Nat := 26
def defaultSignal : Nat := 9

/-- The period is looked at first and the output last. -/
def bollinger (n : Node) : Except Cause Method := do
  let period ← n.period "period"
  let multiplier ← n.numberD "multiplier" defaultMultiplier
  let output ← n.choice Band "output"
  return .bollinger period multiplier output

/-- The fast period must be the shorter one, defaults included. -/
def macd (n : Node) : Except Cause Method := do
  let fast ← n.periodD "fast" defaultFast
  let slow ← n.periodD "slow" defaultSlow
  let signal ← n.periodD "signal" defaultSignal
  if slow ≤ fast then .error (.invalidParameter "fast" .belowSlow)
  else do
    let output ← n.choice MacdOutput "output"
    return .macd fast slow signal output

def stochastic (n : Node) : Except Cause Method := do
  let kPeriod ← n.period "k_period"
  let dPeriod ← n.period "d_period"
  let output ← n.choice StochasticOutput "output"
  return .stochastic kPeriod dPeriod output

def compileMethod (limit : Nat) : (levels : Nat) → Json → Except Fault Method
  | 0, _ => .error ⟨[], .tooDeep limit⟩
  | levels + 1, v => do
    let n ← here (node v)
    match ← here (tagOf MethodTag .method n) with
    | .value => return .value (← here (n.number "value"))
    | .field => return .field (← here (n.choice Field "field"))
    | .absDiff =>
      let lhs ← inner (compileMethod limit levels) n "lhs"
      let rhs ← inner (compileMethod limit levels) n "rhs"
      return .absDiff lhs rhs
    | .atr => return .atr (← here (n.period "period"))
    | .sma =>
      let source ← innerD (compileMethod limit levels) n "source" .closing
      return .sma (← here (n.period "period")) source
    | .ema =>
      let source ← innerD (compileMethod limit levels) n "source" .closing
      return .ema (← here (n.period "period")) source
    | .bollinger => here (bollinger n)
    | .macd => here (macd n)
    | .stochastic => here (stochastic n)

end TradingRules.Document
