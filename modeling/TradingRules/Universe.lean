import TradingRules.Asset
import TradingRules.Failure

/-!
# Universes

The assets that a list of symbols leads to. A symbol without usable quotes is skipped, with the
reason; a list that leads to no asset at all fails.
-/

namespace TradingRules

inductive SkipReason where
  | noData
  | loadFailed (message : String)
deriving DecidableEq, Repr

structure Universe where
  assets : List Asset
  skipped : List (String × SkipReason)

/-- Why a symbol is skipped if loading it fails. -/
def SkipReason.ofFailure : Failure → SkipReason
  | .data (.noQuotes _) => .noData
  | failure => .loadFailed failure.message

namespace Universe

/-- An asset with at least one quote, or why there is none. -/
def usable : Except Failure Asset → Except SkipReason Asset
  | .ok a => if a.length = 0 then .error .noData else .ok a
  | .error failure => .error (.ofFailure failure)

/-- Adds the outcome for a symbol in front. -/
def add (symbol : String) (reply : Except Failure Asset) (u : Universe) : Universe :=
  match usable reply with
  | .ok a => { u with assets := a :: u.assets }
  | .error reason => { u with skipped := (symbol, reason) :: u.skipped }

def collect (replies : List (String × Except Failure Asset)) : Universe :=
  replies.foldr (fun (symbol, reply) u => u.add symbol reply) ⟨[], []⟩

/-- The universe of some symbols and what a port replied to each of them. -/
def ofReplies (replies : List (String × Except Failure Asset)) : Except DataFault Universe :=
  let u := collect replies
  if u.assets.isEmpty then .error (.noQuotes (",".intercalate (replies.map (·.1)))) else .ok u

/-- The universe of some symbols, each of which a port is asked for. -/
def load (port : String → Except Failure Asset) (symbols : List String) :
    Except DataFault Universe :=
  ofReplies (symbols.map fun symbol => (symbol, port symbol))

/-- The universe of some symbols and what loading each of them gave, where only the data can be at
fault. -/
def ofLoads (loads : List (String × Except DataFault Asset)) : Except DataFault Universe :=
  ofReplies (loads.map fun (symbol, loaded) => (symbol, loaded.mapError .data))

end Universe

end TradingRules
