import TradingRules.Indicator.Smoothing
import TradingRules.Proofs.Windows

/-!
# Smoothed lists

Smoothing a list is a recursion from its oldest value: nothing until there is one whole window, the
mean of that window, and from there on one step for each newer value. The walk over indices visits
exactly these values, newest last, and stops where it is told to; so reading one index and building
the whole series give the same value.
-/

namespace TradingRules

namespace Smoothing

open Indicator

variable {α : Type} [Arithmetic α]

/-- The smoothed values of a list, newest first. -/
def values (kind : Smoothing) (period : Nat) : List α → List α
  | [] => []
  | x :: older =>
    match values kind period older with
    | previous :: rest => kind.step period previous x :: previous :: rest
    | [] => if windowedLength (older.length + 1) period = 0 then [] else [mean period (x :: older)]

theorem length_values (kind : Smoothing) (period : Nat) (xs : List α) :
    (kind.values period xs).length = windowedLength xs.length period := by
  induction xs with
  | nil => rw [List.length_nil, windowedLength_zero]; rfl
  | cons x older ih =>
    have growth := windowedLength_le_succ older.length period
    rw [List.length_cons, windowedLength_succ, ← ih, values]
    by_cases none : windowedLength (older.length + 1) period = 0
    · have empty : kind.values period older = [] := List.eq_nil_of_length_eq_zero (by omega)
      simp only [empty, if_pos none, List.length_nil]
    · simp only [if_neg none]
      cases kind.values period older <;> rfl

theorem length_values_le (kind : Smoothing) (period : Nat) (xs : List α) :
    (kind.values period xs).length ≤ xs.length := by
  rw [length_values]
  exact windowedLength_le xs.length period

theorem values_tail (kind : Smoothing) (period : Nat) (x : α) (older : List α) :
    (kind.values period (x :: older)).tail = kind.values period older := by
  rw [values]
  split
  · rename_i smoothed
    rw [smoothed, List.tail_cons]
  · rename_i smoothed
    rw [smoothed]
    split <;> rfl

theorem values_drop (kind : Smoothing) (period : Nat) (xs : List α) (k : Nat) :
    kind.values period (xs.drop k) = (kind.values period xs).drop k :=
  drop_of_tail rfl (values_tail kind period) xs k

/-- The oldest smoothed value is the mean of the oldest window. -/
theorem getElem_values_oldest (kind : Smoothing) (period : Nat) (xs : List α) {i : Nat}
    (oldest : i + 1 = (kind.values period xs).length) :
    (kind.values period xs)[i] = mean period (xs.drop i) := by
  have first := head?_of_drop (values_drop kind period xs) (i := i) (by omega)
  have none : kind.values period (xs.drop (i + 1)) = [] := by
    rw [values_drop, oldest, List.drop_length]
  cases later : xs.drop i with
  | nil =>
    rw [later] at first
    cases first
  | cons x older =>
    rw [← List.drop_drop, later, List.drop_succ_cons, List.drop_zero] at none
    rw [later, values, none] at first
    simp only at first
    split at first
    · cases first
    · exact (Option.some.inj first).symm

/-- Every other smoothed value is one step from the next older one. -/
theorem getElem_values_step (kind : Smoothing) (period : Nat) (xs : List α) {i : Nat}
    (inside : i + 1 < (kind.values period xs).length) (here : i < xs.length) :
    (kind.values period xs)[i] =
      kind.step period (kind.values period xs)[i + 1] xs[i] := by
  have first := head?_of_drop (values_drop kind period xs) (i := i) (by omega)
  have next : kind.values period (xs.drop (i + 1)) =
      (kind.values period xs)[i + 1] :: (kind.values period xs).drop (i + 2) := by
    rw [values_drop, List.drop_eq_getElem_cons inside]
  rw [List.drop_eq_getElem_cons here, values, next] at first
  exact (Option.some.inj first).symm

/-- Of values in front of one whole window, each gives one step. -/
theorem values_append (kind : Smoothing) {period : Nat} {oldest : List α} (positive : 0 < period)
    (whole : oldest.length = period) (newer : List α) :
    kind.values period (newer ++ oldest) =
      newer.scanr (fun x previous => kind.step period previous x) (mean period oldest) := by
  induction newer with
  | nil =>
    have one : (kind.values period oldest).length = 1 := by
      rw [length_values, whole, windowedLength_eq_sub positive]
      omega
    have seed := getElem_values_oldest kind period oldest (i := 0) one.symm
    obtain ⟨v, single⟩ := List.length_eq_one_iff.mp one
    simp only [single, List.getElem_cons_zero, List.drop_zero] at seed
    rw [List.nil_append, List.scanr_nil, single, seed]
  | cons x newer ih =>
    rw [List.cons_append, values, ih, List.scanr_cons]
    cases newer with
    | nil =>
      rw [List.scanr_nil]
      rfl
    | cons y more =>
      rw [List.scanr_cons]
      rfl

end Smoothing

namespace Indicator

open Smoothing

variable {α : Type}

/-- The indices from the last one down to `stop`, each with the value there. -/
def descent (values : List α) (stop : Nat) : List (Nat × α) :=
  ((values.zipIdx.drop stop).reverse).map Prod.swap

theorem descent_nil_of_le {values : List α} {stop : Nat} (h : values.length ≤ stop) :
    descent values stop = [] := by
  rw [descent, List.drop_eq_nil_of_le (by simpa using h)]
  rfl

theorem descent_append_singleton {values : List α} {stop : Nat} (x : α)
    (h : stop ≤ values.length) :
    descent (values ++ [x]) stop = (values.length, x) :: descent values stop := by
  rw [descent, List.zipIdx_append, List.drop_append_of_le_length (by simpa using h)]
  simp [descent]

theorem descent_values (values : List α) (stop : Nat) :
    (descent values stop).map (·.2) = (values.drop stop).reverse := by
  have fst : (values.zipIdx.drop stop).map (·.1) = values.drop stop := by
    rw [List.map_drop, List.zipIdx_map_fst]
  rw [descent, List.map_map, ← fst, List.map_reverse]
  rfl

/-- The newest value is that of the last visit. -/
theorem Walk.getLast?_values (walk : Walk α) :
    (walk.visits.map (·.2)).getLast? = some walk.newest := by
  rw [List.getLast?_map, Walk.visits, List.getLast?_cons, Walk.newest, List.getLastD_eq_getLast?]
  rfl

theorem Walk.newest_eq_of_visits {walk : Walk α} {values : List α} {stop : Nat}
    (visits : walk.visits = descent values stop) (h : stop < values.length) :
    walk.newest = values[stop] := by
  have last : (walk.visits.map (·.2)).getLast? = some values[stop] := by
    rw [visits, descent_values, List.getLast?_reverse, List.head?_drop, List.getElem?_eq_getElem h]
  exact Option.some.inj (walk.getLast?_values.symm.trans last)

variable [Arithmetic α] {source : Series α} {xs : List α}

/-- Below an index the walk visits the smoothed values in order, down to where it stops. -/
theorem smoothDown_eq (holds : source.Holds xs) (kind : Smoothing) (period stop : Nat) {k : Nat}
    (h : k < (kind.values period xs).length) :
    smoothDown source period kind stop k (kind.values period xs)[k] =
      .ok (descent ((kind.values period xs).take k) stop) := by
  have inside := length_values_le kind period xs
  induction k with
  | zero => rw [smoothDown, List.take_zero, descent_nil_of_le (Nat.zero_le _)]
  | succ k ih =>
    rw [smoothDown]
    by_cases below : k < stop
    · rw [if_pos below, descent_nil_of_le (by rw [List.length_take]; omega)]
    · have taken : ((kind.values period xs).take k).length = k := by
        rw [List.length_take]
        omega
      have here : k < xs.length := by omega
      have value := getElem_values_step kind period xs h here
      rw [if_neg below, holds.read here, ok_bind, ← value]
      simp only [ih (by omega), ok_bind, pure_eq_ok]
      rw [List.take_add_one, List.getElem?_eq_getElem (by omega), Option.toList_some,
        descent_append_singleton _ (by omega), taken]

/-- The walk visits the smoothed values from the oldest index down to where it stops. -/
theorem smoothWalk_eq (holds : source.Holds xs) (kind : Smoothing) (period : Nat) {stop : Nat}
    (h : stop < (kind.values period xs).length) :
    ∃ walk, smoothWalk source period kind stop = .ok walk ∧
      walk.visits = descent (kind.values period xs) stop := by
  have length := length_values kind period xs
  obtain ⟨k, oldest⟩ : ∃ k, k + 1 = (kind.values period xs).length :=
    ⟨(kind.values period xs).length - 1, by omega⟩
  have newest : k < windowedLength xs.length period := by omega
  have window := window_inside newest
  have whole : (xs.drop k).take period = xs.drop k := by
    apply List.take_of_length_le
    rw [List.length_drop]
    unfold windowedLength at length
    split at length <;> omega
  have seed : windowMean source k period = .ok (kind.values period xs)[k] := by
    rw [windowMean_eq holds window.1, whole, getElem_values_oldest kind period xs oldest]
  have split : kind.values period xs =
      (kind.values period xs).take k ++ [(kind.values period xs)[k]] := by
    rw [List.take_append_getElem, oldest, List.take_length]
  have taken : ((kind.values period xs).take k).length = k := by
    rw [List.length_take]
    omega
  refine ⟨⟨(k, (kind.values period xs)[k]), descent ((kind.values period xs).take k) stop⟩, ?_, ?_⟩
  · have start : windowedLength xs.length period - 1 = k := by omega
    simp only [smoothWalk, holds.length, RangeError.check_eq_ok_iff.mpr (length ▸ h), start,
      seed, smoothDown_eq holds kind period stop (show k < _ by omega), ok_bind, pure_eq_ok]
  · rw [Walk.visits]
    conv => rhs; rw [split]
    rw [descent_append_singleton _ (by omega), taken]

theorem smoothWalk_of_le (source : Series α) (kind : Smoothing) {period stop : Nat}
    (h : windowedLength source.length period ≤ stop) :
    smoothWalk source period kind stop = .error ⟨stop, windowedLength source.length period⟩ := by
  rw [smoothWalk, RangeError.check_of_le h, error_bind]

theorem smoothedAt_ofList (xs : List α) (kind : Smoothing) (period index : Nat) :
    smoothedAt (Series.ofList xs) period kind index =
      (Series.ofList (kind.values period xs)).read index := by
  by_cases h : index < (kind.values period xs).length
  · obtain ⟨walk, run, visits⟩ := smoothWalk_eq (Series.holds_ofList xs) kind period h
    rw [smoothedAt, run, ok_bind, Walk.newest_eq_of_visits visits h, Series.read_ofList_of_lt h]
    rfl
  · have outside := Nat.le_of_not_lt h
    rw [Series.read_ofList_of_le outside, length_values]
    rw [length_values] at outside
    rw [smoothedAt, smoothWalk_of_le _ kind (by simpa using outside), error_bind,
      Series.length_ofList]

theorem smoothed_eq (holds : source.Holds xs) (kind : Smoothing) (period : Nat) :
    smoothed source period kind = .ok (Series.ofList (kind.values period xs)) := by
  rw [smoothed, holds.length, ← length_values kind period xs]
  by_cases none : (kind.values period xs).length = 0
  · rw [if_pos none, List.eq_nil_of_length_eq_zero none]
  · obtain ⟨walk, run, visits⟩ := smoothWalk_eq holds kind period (Nat.pos_of_ne_zero none)
    rw [if_neg none, run, ok_bind, visits, List.map_reverse, descent_values, List.reverse_reverse]
    rfl

theorem smoothed_ofList (xs : List α) (kind : Smoothing) (period : Nat) :
    smoothed (Series.ofList xs) period kind = .ok (Series.ofList (kind.values period xs)) :=
  smoothed_eq (Series.holds_ofList xs) kind period

end Indicator

end TradingRules
