import TradingRules.Indicator.Window
import TradingRules.Proofs.Series

/-!
# Windows of a list

A windowed indicator applies one function to every whole window of its source. Over lists that is a
recursion from the newest value on, so dropping newest values from the source drops the newest
results and changes no other. The windows of an indicator are matched with these windows, whatever
the function folds over them.
-/

namespace TradingRules

namespace Indicator

variable {α β : Type}

theorem windowedLength_zero (period : Nat) : windowedLength 0 period = 0 := by
  unfold windowedLength
  split <;> omega

/-- One more value gives one more window, once there is a window. -/
theorem windowedLength_succ (length period : Nat) :
    windowedLength (length + 1) period =
      if windowedLength (length + 1) period = 0 then 0 else windowedLength length period + 1 := by
  unfold windowedLength
  repeat' split
  all_goals omega

theorem windowedLength_le_succ (length period : Nat) :
    windowedLength length period ≤ windowedLength (length + 1) period := by
  unfold windowedLength
  repeat' split
  all_goals omega

theorem windowedLength_le (length period : Nat) : windowedLength length period ≤ length := by
  unfold windowedLength
  split <;> omega

/-- A period takes all its values but one off the length. -/
theorem windowedLength_eq_sub {period : Nat} (positive : 1 ≤ period) (length : Nat) :
    windowedLength length period = length - (period - 1) := by
  unfold windowedLength
  split <;> omega

/-- The window that starts at an index below the windowed length ends inside the source. -/
theorem window_inside {length period index : Nat} (h : index < windowedLength length period) :
    index + period ≤ length ∧ 0 < period := by
  unfold windowedLength at h
  split at h <;> omega

/-- A function whose results over one more, newer value extend those without it drops newest
results as its argument drops newest values. -/
theorem drop_of_tail {F : List α → List β} (nil : F [] = [])
    (tail : ∀ x older, (F (x :: older)).tail = F older) (xs : List α) (k : Nat) :
    F (xs.drop k) = (F xs).drop k := by
  induction k generalizing xs with
  | zero => rfl
  | succ k ih =>
    cases xs with
    | nil => rw [List.drop_nil, nil, List.drop_nil]
    | cons x older => rw [List.drop_succ_cons, ih, ← tail x older, List.drop_tail]

/-- Such a function finds each result at the head of what it makes of an older part. -/
theorem head?_of_drop {F : List α → List β} {xs : List α}
    (drop : ∀ k, F (xs.drop k) = (F xs).drop k) {i : Nat} (h : i < (F xs).length) :
    (F (xs.drop i)).head? = some (F xs)[i] := by
  rw [drop, List.head?_drop, List.getElem?_eq_getElem h]

/-- What `f` makes of each whole window of `period` values, the newest window first. -/
def windows (period : Nat) (f : List α → β) : List α → List β
  | [] => []
  | x :: older =>
    if windowedLength (older.length + 1) period = 0 then []
    else f ((x :: older).take period) :: windows period f older

theorem length_windows (period : Nat) (f : List α → β) (xs : List α) :
    (windows period f xs).length = windowedLength xs.length period := by
  induction xs with
  | nil => rw [List.length_nil, windowedLength_zero]; rfl
  | cons x older ih =>
    rw [List.length_cons, windowedLength_succ, windows]
    split
    · rfl
    · rw [List.length_cons, ih]

theorem windows_tail (period : Nat) (f : List α → β) (x : α) (older : List α) :
    (windows period f (x :: older)).tail = windows period f older := by
  rw [windows]
  split
  · rename_i none
    have := windowedLength_le_succ older.length period
    have empty : (windows period f older).length = 0 := by
      rw [length_windows]
      omega
    rw [List.eq_nil_of_length_eq_zero empty, List.tail_nil]
  · rfl

theorem windows_drop (period : Nat) (f : List α → β) (xs : List α) (k : Nat) :
    windows period f (xs.drop k) = (windows period f xs).drop k :=
  drop_of_tail rfl (windows_tail period f) xs k

theorem getElem_windows (period : Nat) (f : List α → β) (xs : List α) {i : Nat}
    (h : i < (windows period f xs).length) :
    (windows period f xs)[i] = f ((xs.drop i).take period) := by
  have first := head?_of_drop (windows_drop period f xs) h
  cases later : xs.drop i with
  | nil =>
    rw [later] at first
    cases first
  | cons x older =>
    rw [later, windows] at first
    split at first
    · cases first
    · exact (Option.some.inj first).symm

/-- The newest windows need no values older than the last of them reaches. -/
theorem windows_take {period : Nat} (positive : 1 ≤ period) (f : List α → β) (xs : List α)
    (k : Nat) : windows period f (xs.take (k + (period - 1))) = (windows period f xs).take k := by
  apply List.ext_getElem
  · simp only [length_windows, List.length_take, windowedLength_eq_sub positive]
    omega
  · intro i _ inside
    rw [List.length_take] at inside
    have reach : k + (period - 1) - i = period + (k - 1 - i) := by omega
    rw [getElem_windows, List.getElem_take, getElem_windows, List.drop_take, List.take_take, reach,
      Nat.min_eq_left (Nat.le_add_right _ _)]

/-- A function that sees no more of a value than `g` shows makes the same of windows that show the
same. -/
theorem windows_congr {γ : Type} {f : List α → β} {g : α → γ}
    (sees : ∀ v w : List α, v.map g = w.map g → f v = f w) (period : Nat) {xs ys : List α}
    (same : xs.map g = ys.map g) : windows period f xs = windows period f ys := by
  have length : xs.length = ys.length := by simpa using congrArg List.length same
  apply List.ext_getElem
  · rw [length_windows, length_windows, length]
  · intro i _ _
    rw [getElem_windows, getElem_windows]
    apply sees
    rw [List.map_take, List.map_drop, same, List.map_take, List.map_drop]

/-- A fold over the indices of a window is the fold over its values. -/
theorem foldlM_window {ε : Type} {f : β → Nat → Except ε β} {g : β → α → β} {xs : List α}
    (step : ∀ acc i (h : i < xs.length), f acc i = .ok (g acc xs[i])) {index period : Nat}
    (inside : index + period ≤ xs.length) (start : β) :
    (List.range' index period).foldlM f start =
      .ok (((xs.drop index).take period).foldl g start) := by
  induction period generalizing index start with
  | zero => simp
  | succ period ih =>
    have here : index < xs.length := by omega
    rw [List.range'_succ, List.foldlM_cons, step start index here, ok_bind, ih (by omega),
      List.drop_eq_getElem_cons here, List.take_succ_cons, List.foldl_cons]

/-- A series collected from whole windows holds what the windows of the list give. -/
theorem collect_windows {xs : List α} {period : Nat} {f : List α → β}
    {value : Nat → Except RangeError β}
    (each : ∀ i, i + period ≤ xs.length → value i = .ok (f ((xs.drop i).take period))) :
    Series.collect (windowedLength xs.length period) value =
      .ok (Series.ofList (windows period f xs)) := by
  refine Series.collect_eq_ofList (length_windows period f xs) fun i h => ?_
  rw [getElem_windows]
  rw [length_windows] at h
  exact each i (window_inside h).1

/-- Reading one window, checked against the number of windows, reads the series of all. -/
theorem read_windows {xs : List α} {period index : Nat} {f : List α → β}
    {value : Nat → Except RangeError β}
    (each : ∀ i, i + period ≤ xs.length → value i = .ok (f ((xs.drop i).take period))) :
    (do RangeError.check index (windowedLength xs.length period); value index) =
      (Series.ofList (windows period f xs)).read index := by
  by_cases h : index < (windows period f xs).length
  · rw [Series.read_ofList_of_lt h, getElem_windows]
    rw [length_windows] at h
    rw [RangeError.check_eq_ok_iff.mpr h, ok_bind, each index (window_inside h).1]
  · have outside := Nat.le_of_not_lt h
    rw [Series.read_ofList_of_le outside, length_windows]
    rw [length_windows] at outside
    rw [RangeError.check_of_le outside, error_bind]

variable [Arithmetic α]

/-- The mean of the values of a window, added up from the newest one. -/
def mean (period : Nat) (window : List α) : α :=
  window.foldl (· + ·) (Arithmetic.count 0) / Arithmetic.count period

theorem windowMean_eq {source : Series α} {xs : List α} (holds : source.Holds xs)
    {index period : Nat} (inside : index + period ≤ xs.length) :
    windowMean source index period = .ok (mean period ((xs.drop index).take period)) := by
  have step : ∀ (acc : α) i (h : i < xs.length),
      (do return acc + (← source.read i)) = Except.ok (acc + xs[i]) := by
    intro acc i h
    rw [holds.read h]
    rfl
  rw [windowMean, foldlM_window step inside]
  rfl

theorem windowMean_ofList {xs : List α} {index period : Nat}
    (inside : index + period ≤ xs.length) :
    windowMean (Series.ofList xs) index period =
      .ok (mean period ((xs.drop index).take period)) :=
  windowMean_eq (Series.holds_ofList xs) inside

theorem sma_ofList (xs : List α) (period : Nat) :
    sma (Series.ofList xs) period = .ok (Series.ofList (windows period (mean period) xs)) := by
  rw [sma, Series.length_ofList]
  exact collect_windows fun i inside => windowMean_ofList inside

theorem smaAt_ofList (xs : List α) (period index : Nat) :
    smaAt (Series.ofList xs) period index =
      (Series.ofList (windows period (mean period) xs)).read index := by
  rw [smaAt, Series.length_ofList]
  exact read_windows fun i inside => windowMean_ofList inside

end Indicator

end TradingRules
