import TradingRules.RangeError

/-!
# Series

A series knows how many values it has and answers a read at an index, newest first. It need not
hold its values: a read may compute. That reads below the length succeed and all others fail with
the series' own length is a property of the series built here, not of the type.
-/

namespace TradingRules

structure Series (α : Type) where
  length : Nat
  read : Nat → Except RangeError α

namespace Series

variable {α β : Type}

/-- The series that holds the given values, newest first. -/
def ofArray (values : Array α) : Series α where
  length := values.size
  read i := match values[i]? with
    | some x => .ok x
    | none => .error ⟨i, values.size⟩

def ofList (values : List α) : Series α :=
  ofArray values.toArray

/-- The values at the indices below `n`, newest first; the first failing read is the failure. -/
def readBelow (s : Series α) (n : Nat) : Except RangeError (List α) :=
  (List.range n).mapM s.read

/-- Every value, newest first. -/
def toList (s : Series α) : Except RangeError (List α) :=
  s.readBelow s.length

def isEmpty (s : Series α) : Bool :=
  s.length == 0

/-- A series whose reads are checked against the length before they are computed. -/
def checked (length : Nat) (value : Nat → Except RangeError α) : Series α where
  length := length
  read i := do
    RangeError.check i length
    value i

/-- The values computed by `value` at the indices below `length`, held. -/
def collect (length : Nat) (value : Nat → Except RangeError α) : Except RangeError (Series α) := do
  return ofList (← (List.range length).mapM value)

@[simp] theorem length_ofList (values : List α) : (ofList values).length = values.length := by
  simp [ofList, ofArray]

theorem read_ofList (values : List α) (i : Nat) :
    (ofList values).read i = match values[i]? with
      | some x => .ok x
      | none => .error ⟨i, values.length⟩ := by
  simp [ofList, ofArray]

end Series

end TradingRules
