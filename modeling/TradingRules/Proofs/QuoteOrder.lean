import TradingRules.Proofs.Extension
import TradingRules.Screen
import TradingRules.Snapshot

/-!
# Quotes in any order

An asset is made of quotes in whatever order they come. It addresses each of them once, from the
newest time to the oldest, and those of one time from the one handed over last to the one handed
over first. An order by time together with the order within each time leaves only one list, so
quotes handed over in another order make the same asset as long as those of one time stay in their
order among themselves.
-/

namespace TradingRules

/-- The quotes of one time, in their order. -/
def sameTime (t : Timestamp) (quotes : List Quote) : List Quote :=
  quotes.filter fun q => q.time = t

theorem sameTime_cons_of_eq (q : Quote) (quotes : List Quote) :
    sameTime q.time (q :: quotes) = q :: sameTime q.time quotes :=
  List.filter_cons_of_pos (decide_eq_true rfl)

theorem sameTime_cons_of_ne {q : Quote} {t : Timestamp} (other : q.time ≠ t)
    (quotes : List Quote) : sameTime t (q :: quotes) = sameTime t quotes :=
  List.filter_cons_of_neg (by simpa using other)

theorem mem_sameTime {q : Quote} {t : Timestamp} {quotes : List Quote} :
    q ∈ sameTime t quotes ↔ q ∈ quotes ∧ q.time = t := by
  simp [sameTime]

section Placing

theorem place_perm (q : Quote) (quotes : List Quote) : (place q quotes).Perm (q :: quotes) := by
  induction quotes with
  | nil => exact .refl _
  | cons r older ih =>
    unfold place
    split
    · exact .refl _
    · exact (ih.cons r).trans (.swap q r older)

theorem newestFirst_perm (quotes : List Quote) : (newestFirst quotes).Perm quotes := by
  suffices h : ∀ placed : List Quote,
      (quotes.foldl (fun placed q => place q placed) placed).Perm (quotes ++ placed) by
    simpa [newestFirst] using h []
  induction quotes with
  | nil => exact fun placed => .refl _
  | cons q rest ih =>
    intro placed
    have placed_first : (rest ++ place q placed).Perm (rest ++ q :: placed) :=
      (place_perm q placed).append_left rest
    exact (ih (place q placed)).trans (placed_first.trans List.perm_middle)

/-- What a quote is put behind is newer than it, so of its own time nothing is in front of it. -/
theorem sameTime_place (t : Timestamp) (q : Quote) (quotes : List Quote) :
    sameTime t (place q quotes) = sameTime t (q :: quotes) := by
  induction quotes with
  | nil => rfl
  | cons r older ih =>
    unfold place
    split
    · rfl
    · rename_i newer
      by_cases here : q.time = t
      · subst here
        have apart : r.time ≠ q.time := by
          intro same
          exact newer (same ▸ Timestamp.le_refl r.time)
        rw [sameTime_cons_of_ne apart, ih, sameTime_cons_of_eq, sameTime_cons_of_eq,
          sameTime_cons_of_ne apart]
      · rw [sameTime_cons_of_ne here] at ih ⊢
        by_cases there : r.time = t
        · subst there
          rw [sameTime_cons_of_eq, sameTime_cons_of_eq, ih]
        · rw [sameTime_cons_of_ne there, sameTime_cons_of_ne there, ih]

/-- Of one time, the quote handed over last comes first. -/
theorem sameTime_newestFirst (t : Timestamp) (quotes : List Quote) :
    sameTime t (newestFirst quotes) = (sameTime t quotes).reverse := by
  suffices h : ∀ placed : List Quote,
      sameTime t (quotes.foldl (fun placed q => place q placed) placed) =
        (sameTime t quotes).reverse ++ sameTime t placed by
    simpa [newestFirst, sameTime] using h []
  induction quotes with
  | nil => exact fun placed => rfl
  | cons q rest ih =>
    intro placed
    rw [List.foldl_cons, ih, sameTime_place]
    by_cases here : q.time = t
    · subst here
      rw [sameTime_cons_of_eq, sameTime_cons_of_eq, List.reverse_cons, List.append_assoc,
        List.singleton_append]
    · rw [sameTime_cons_of_ne here, sameTime_cons_of_ne here]

end Placing

section Uniqueness

/-- No quote is in front of a newer one. -/
def NewestFirst (quotes : List Quote) : Prop :=
  quotes.Pairwise fun newer older => older.time ≤ newer.time

/-- The first quote has the newest time there is. -/
theorem NewestFirst.time_le {x : Quote} {older : List Quote} (ordered : NewestFirst (x :: older))
    {q : Quote} (member : q ∈ x :: older) : q.time ≤ x.time := by
  rcases List.mem_cons.mp member with rfl | member
  · exact Timestamp.le_refl q.time
  · exact (List.pairwise_cons.mp ordered).1 q member

/-- An order by time is decided by the order within each time. -/
theorem NewestFirst.eq_of_sameTime {xs ys : List Quote} (ordered : NewestFirst xs)
    (ordered' : NewestFirst ys) (ties : ∀ t, sameTime t xs = sameTime t ys) : xs = ys := by
  have shared : ∀ q, q ∈ xs ↔ q ∈ ys := by
    intro q
    have members := congrArg (q ∈ ·) (ties q.time)
    simpa [mem_sameTime] using members
  induction xs generalizing ys with
  | nil =>
    cases ys with
    | nil => rfl
    | cons y rest => cases (shared y).mpr List.mem_cons_self
  | cons x older ih =>
    cases ys with
    | nil => cases (shared x).mp List.mem_cons_self
    | cons y rest =>
      have same : x.time = y.time := Timestamp.le_antisymm
        (ordered'.time_le ((shared x).mp List.mem_cons_self))
        (ordered.time_le ((shared y).mpr List.mem_cons_self))
      have heads := ties x.time
      rw [sameTime_cons_of_eq, same, sameTime_cons_of_eq] at heads
      obtain ⟨rfl, first_tie⟩ := List.cons.inj heads
      have later_ties : ∀ t, sameTime t older = sameTime t rest := by
        intro t
        by_cases here : x.time = t
        · exact here ▸ first_tie
        · have tie := ties t
          rwa [sameTime_cons_of_ne here, sameTime_cons_of_ne here] at tie
      have later_shared : ∀ q, q ∈ older ↔ q ∈ rest := by
        intro q
        have members := congrArg (q ∈ ·) (later_ties q.time)
        simpa [mem_sameTime] using members
      rw [ih (List.pairwise_cons.mp ordered).2 (List.pairwise_cons.mp ordered').2 later_ties
        later_shared]

/-- Whether a quote is not newer than another one. -/
def notNewer (q r : Quote) : Bool := q.time ≤ r.time

theorem notNewer_trans (q r s : Quote) (first : notNewer q r) (second : notNewer r s) :
    notNewer q s :=
  decide_eq_true (Timestamp.le_trans (of_decide_eq_true first) (of_decide_eq_true second))

theorem notNewer_total (q r : Quote) : notNewer q r || notNewer r q := by
  simpa [notNewer] using Timestamp.le_total q.time r.time

/-- The quotes from the oldest to the newest, those of one time as they were handed over. -/
def oldestFirst (quotes : List Quote) : List Quote :=
  quotes.mergeSort notNewer

theorem sameTime_oldestFirst (t : Timestamp) (quotes : List Quote) :
    sameTime t (oldestFirst quotes) = sameTime t quotes := by
  have sorted : (sameTime t quotes).Pairwise fun q r => notNewer q r := by
    refine List.pairwise_of_forall_mem_list fun q member r member' => decide_eq_true ?_
    rw [(mem_sameTime.mp member).2, (mem_sameTime.mp member').2]
    exact Timestamp.le_refl t
  have kept : (sameTime t quotes).Sublist (oldestFirst quotes) :=
    List.sublist_mergeSort notNewer_trans notNewer_total sorted List.filter_sublist
  have among : (sameTime t quotes).Sublist (sameTime t (oldestFirst quotes)) := by
    have filtered := kept.filter fun q => q.time = t
    simpa [sameTime, List.filter_filter] using filtered
  have length : (sameTime t quotes).length = (sameTime t (oldestFirst quotes)).length :=
    ((List.mergeSort_perm quotes notNewer).filter _).length_eq.symm
  exact (among.eq_of_length length).symm

/-- Addressing the quotes from the newest is addressing the sorted ones from the end. -/
theorem newestFirst_eq_reverse (quotes : List Quote) :
    newestFirst quotes = (oldestFirst quotes).reverse := by
  refine NewestFirst.eq_of_sameTime (pairwise_newestFirst quotes) ?_ fun t => ?_
  · have sorted := List.pairwise_mergeSort notNewer_trans notNewer_total quotes
    exact List.pairwise_reverse.mpr (sorted.imp of_decide_eq_true)
  · rw [sameTime_newestFirst, ← sameTime_oldestFirst t quotes, sameTime, sameTime,
      List.filter_reverse]

end Uniqueness

/-- The same quotes, those of one time in the same order among themselves. -/
structure Reordered (given other : List Quote) : Prop where
  same : given.Perm other
  ties : ∀ t, sameTime t given = sameTime t other

/-- Where no two quotes have one time, any order will do. -/
theorem Reordered.of_distinct {given other : List Quote} (same : given.Perm other)
    (distinct : (given.map Quote.time).Nodup) : Reordered given other := by
  refine ⟨same, fun t => ?_⟩
  have tied : (sameTime t given).Perm (sameTime t other) := same.filter _
  have apart : ((sameTime t given).map Quote.time).Nodup :=
    distinct.sublist (List.filter_sublist.map Quote.time)
  cases first : sameTime t given with
  | nil =>
    rw [first] at tied
    exact tied.nil_eq
  | cons q rest =>
    cases second : rest with
    | nil =>
      rw [first, second] at tied
      exact tied.singleton_eq
    | cons r others =>
      -- Two quotes of one time are what there is none of.
      subst second
      have q_time : q.time = t := (mem_sameTime.mp (first ▸ List.mem_cons_self)).2
      have r_time : r.time = t :=
        (mem_sameTime.mp (first ▸ List.mem_cons_of_mem q List.mem_cons_self)).2
      rw [first, List.map_cons, List.map_cons, q_time, r_time] at apart
      exact absurd List.mem_cons_self (List.nodup_cons.mp apart).1

theorem newestFirst_of_reordered {given other : List Quote} (reordered : Reordered given other) :
    newestFirst given = newestFirst other := by
  refine NewestFirst.eq_of_sameTime (pairwise_newestFirst given) (pairwise_newestFirst other) ?_
  intro t
  rw [sameTime_newestFirst, sameTime_newestFirst, reordered.ties t]

namespace Asset

/-- How an asset addresses the quotes it was made of: each of them once, from the newest time on,
those of one time from the last one on. They are those sorted from the oldest, counted from the
end. -/
structure Addresses (a : Asset) (given : List Quote) : Prop where
  addressed : ∀ i, a.quote? i = a.history[i]?
  once : a.history.Perm given
  newest_first : ∀ i j newer older, i < j → a.quote? i = some newer → a.quote? j = some older →
    older.time ≤ newer.time
  last_first : ∀ t, sameTime t a.history = (sameTime t given).reverse
  from_end : ∀ i, i < given.length → a.quote? i = (oldestFirst given)[given.length - 1 - i]?
  outside : ∀ i, given.length ≤ i → a.quote? i = none

theorem ofQuotes_addresses (symbol : String) (given : List Quote) :
    (ofQuotes symbol given).Addresses given := by
  have reads : ∀ i, (ofQuotes symbol given).quote? i = (newestFirst given)[i]? :=
    (ofQuotes symbol given).quote?_eq
  refine ⟨reads, newestFirst_perm given, ?_, fun t => sameTime_newestFirst t given, ?_, ?_⟩
  · intro i j newer older before first second
    rw [reads] at first second
    obtain ⟨i_lt, rfl⟩ := List.getElem?_eq_some_iff.mp first
    obtain ⟨j_lt, rfl⟩ := List.getElem?_eq_some_iff.mp second
    exact List.pairwise_iff_getElem.mp (pairwise_newestFirst given) i j i_lt j_lt before
  · intro i inside
    have length : (oldestFirst given).length = given.length := List.length_mergeSort given
    rw [reads, newestFirst_eq_reverse, List.getElem?_reverse (by omega), length]
  · intro i outside
    rw [reads]
    exact List.getElem?_eq_none (by rw [length_newestFirst]; exact outside)

theorem ofQuotes_of_reordered (symbol : String) {given other : List Quote}
    (reordered : Reordered given other) : ofQuotes symbol given = ofQuotes symbol other := by
  simp only [ofQuotes, newestFirst_of_reordered reordered]

/-- An asset addresses each quote it is made of once, from the newest on and of one time from the
last one handed over on. In another order, with those of one time left in theirs, the quotes make
the same asset, with the same values of every method, the same answer of every filter at every bar
with any store, the same screens and the same backtests. Quotes that share no time may come in any
order. -/
theorem ofQuotes_order_free (symbol : String) (given : List Quote) :
    (ofQuotes symbol given).Addresses given ∧
    (∀ other, given.Perm other → (given.map Quote.time).Nodup → Reordered given other) ∧
    ∀ other, Reordered given other →
      let a := ofQuotes symbol given
      let b := ofQuotes symbol other
      a = b ∧
      (∀ m : Method, m.perIndexValues a = m.perIndexValues b) ∧
      (∀ (store : Store) (f : Filter) (i : Nat),
        (a.snapshot i >>= fun bar => (bar.withStore store).holds f) =
          (b.snapshot i >>= fun bar => (bar.withStore store).holds f)) ∧
      (∀ (before after : List Asset) (f : Filter),
        screen (before ++ a :: after) f = screen (before ++ b :: after) f) ∧
      ∀ s : Strategy, a.backtest s = b.backtest s := by
  refine ⟨ofQuotes_addresses symbol given, fun other => Reordered.of_distinct, ?_⟩
  intro other reordered a b
  have same : a = b := ofQuotes_of_reordered symbol reordered
  rw [same]
  exact ⟨rfl, fun m => rfl, fun store f i => rfl, fun before after f => rfl, fun s => rfl⟩

/-- Two quotes of one day and one of the day after, handed over in two orders; and the two days
apart, the older one first and last. -/
theorem ofQuotes_order_free_two_days :
    let day (n : Nat) (valid : 1 ≤ n ∧ n ≤ 31) : Timestamp :=
      ⟨2024, 1, n, 0, 0, 0, by decide, by decide, valid, by decide, by decide, by decide⟩
    let early : Quote := ⟨day 1 (by decide), 10.0, 11.0, 9.0, 10.0, 1000⟩
    let late : Quote := ⟨day 1 (by decide), 10.0, 12.0, 9.0, 11.0, 2000⟩
    let next : Quote := ⟨day 2 (by decide), 11.0, 13.0, 10.0, 12.0, 1000⟩
    Reordered [next, early, late] [early, next, late] ∧
      ofQuotes "TEST" [next, early, late] = ofQuotes "TEST" [early, next, late] ∧
      (ofQuotes "TEST" [next, early, late]).history = [next, late, early] ∧
      [early, next].Perm [next, early] ∧ ([early, next].map Quote.time).Nodup ∧
      ∀ s : Strategy,
        (ofQuotes "TEST" [early, next]).backtest s =
          (ofQuotes "TEST" [next, early]).backtest s := by
  intro day early late next
  have tied : Reordered [next, early, late] [early, next, late] := by
    refine ⟨.swap early next [late], fun t => ?_⟩
    by_cases second : next.time = t
    · subst second
      decide
    · by_cases first : early.time = t
      · subst first
        decide
      · rw [sameTime_cons_of_ne second, sameTime_cons_of_ne first, sameTime_cons_of_ne first,
          sameTime_cons_of_ne second]
  have swapped : [early, next].Perm [next, early] := .swap next early []
  have distinct : ([early, next].map Quote.time).Nodup := by decide
  obtain ⟨-, -, alike⟩ := ofQuotes_order_free "TEST" [next, early, late]
  obtain ⟨-, reordered, alike'⟩ := ofQuotes_order_free "TEST" [early, next]
  obtain ⟨same, -⟩ := alike _ tied
  obtain ⟨-, -, -, -, backtests⟩ := alike' _ (reordered _ swapped distinct)
  exact ⟨tied, same, by decide, swapped, distinct, backtests⟩

end Asset

end TradingRules
