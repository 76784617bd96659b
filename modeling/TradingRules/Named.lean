/-!
# Closed vocabularies

Types whose values all have names that documents can use.
-/

namespace TradingRules

class Named (α : Type) where
  all : List α
  name : α → String

export Named (name)

namespace Named

variable {α : Type} [Named α]

/-- The value with the given name. -/
def find? (s : String) : Option α :=
  all.find? fun a => name a == s

variable (α) in
/-- All names, in order. -/
def choices : List String :=
  (all : List α).map name

end Named

end TradingRules
