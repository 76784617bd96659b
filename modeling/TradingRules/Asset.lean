import TradingRules.Quote
import TradingRules.Series

/-!
# Assets

A symbol and its quotes, newest first. Quotes may be handed over in any order; of two with the same
time the one handed over later counts as newer.
-/

namespace TradingRules

/-- Puts a quote in front of those that are not newer. -/
def place (q : Quote) : List Quote → List Quote
  | [] => [q]
  | r :: older => if r.time ≤ q.time then q :: r :: older else r :: place q older

/-- The quotes ordered from the newest to the oldest. -/
def newestFirst (quotes : List Quote) : List Quote :=
  quotes.foldl (fun placed q => place q placed) []

theorem mem_place {q r : Quote} {quotes : List Quote} :
    r ∈ place q quotes ↔ r = q ∨ r ∈ quotes := by
  induction quotes with
  | nil => simp [place]
  | cons s older ih =>
    unfold place
    split
    · simp
    · simp only [List.mem_cons, ih]
      exact or_left_comm

theorem pairwise_place {q : Quote} {quotes : List Quote}
    (h : quotes.Pairwise fun newer older => older.time ≤ newer.time) :
    (place q quotes).Pairwise fun newer older => older.time ≤ newer.time := by
  induction quotes with
  | nil => simp [place]
  | cons r older ih =>
    obtain ⟨hr, hold⟩ := List.pairwise_cons.1 h
    unfold place
    split
    · rename_i hle
      refine List.pairwise_cons.2 ⟨fun s hs => ?_, h⟩
      rcases List.mem_cons.1 hs with rfl | hs
      · exact hle
      · exact Timestamp.le_trans (hr s hs) hle
    · rename_i hle
      refine List.pairwise_cons.2 ⟨fun s hs => ?_, ih hold⟩
      rcases mem_place.1 hs with rfl | hs
      · exact (Timestamp.le_total s.time r.time).resolve_right hle
      · exact hr s hs

theorem pairwise_newestFirst (quotes : List Quote) :
    (newestFirst quotes).Pairwise fun newer older => older.time ≤ newer.time := by
  suffices h : ∀ placed : List Quote,
      placed.Pairwise (fun newer older => older.time ≤ newer.time) →
      (quotes.foldl (fun placed q => place q placed) placed).Pairwise
        fun newer older => older.time ≤ newer.time from h [] .nil
  induction quotes with
  | nil => exact fun _ h => h
  | cons q rest ih => exact fun _ h => ih _ (pairwise_place h)

structure Asset where
  symbol : String
  /-- Newest first. -/
  quotes : Array Quote
  ordered : quotes.toList.Pairwise fun newer older => older.time ≤ newer.time

namespace Asset

def ofQuotes (symbol : String) (quotes : List Quote) : Asset where
  symbol := symbol
  quotes := (newestFirst quotes).toArray
  ordered := pairwise_newestFirst quotes

def length (a : Asset) : Nat := a.quotes.size

def quote? (a : Asset) (index : Nat) : Option Quote := a.quotes[index]?

/-- One column of the quotes as a series. -/
def field (a : Asset) (f : Field) : Series Float where
  length := a.length
  read i := match a.quote? i with
    | some q => .ok (f.value q)
    | none => .error ⟨i, a.length⟩

def high (a : Asset) : Series Float := a.field .high
def low (a : Asset) : Series Float := a.field .low
def close (a : Asset) : Series Float := a.field .close

end Asset

end TradingRules
