import TradingRules.Proofs.Results
import TradingRules.Series.Window

/-!
# Series as lists

Every series this library builds answers its reads as if it held a list: a value below the length,
and the series' own range error from there on. Being equal to `Series.ofList values` says exactly
that, so the operations on series are matched here with the operations on lists they stand for.
-/

namespace TradingRules

namespace Series

variable {α : Type}

theorem read_ofList_of_lt {values : List α} {i : Nat} (h : i < values.length) :
    (ofList values).read i = .ok values[i] := by
  rw [read_ofList, List.getElem?_eq_getElem h]

theorem read_ofList_of_le {values : List α} {i : Nat} (h : values.length ≤ i) :
    (ofList values).read i = .error ⟨i, values.length⟩ := by
  rw [read_ofList, List.getElem?_eq_none h]

/-- The reads below the length give a list, whatever the series answers past them. -/
structure Holds (s : Series α) (values : List α) : Prop where
  length : s.length = values.length
  read : ∀ {i : Nat} (h : i < values.length), s.read i = .ok values[i]

theorem holds_ofList (values : List α) : (ofList values).Holds values :=
  ⟨length_ofList values, read_ofList_of_lt⟩

theorem read_map_of_lt {β : Type} {f : α → β} {values : List α} {i : Nat} (h : i < values.length) :
    (ofList (values.map f)).read i = .ok (f values[i]) := by
  have inside : i < (values.map f).length := by
    rw [List.length_map]
    exact h
  rw [read_ofList_of_lt inside, List.getElem_map]

theorem toOption_read (values : List α) (i : Nat) :
    ((ofList values).read i).toOption = values[i]? := by
  rw [read_ofList]
  cases values[i]? <;> rfl

/-- Two series are one if they have the same length and answer every read alike. -/
theorem eq_of_reads {s t : Series α} (length : s.length = t.length)
    (reads : ∀ i, s.read i = t.read i) : s = t := by
  cases s
  cases t
  simp only [mk.injEq]
  exact ⟨length, funext reads⟩

theorem read_checked_of_lt {n i : Nat} {value : Nat → Except RangeError α} (h : i < n) :
    (checked n value).read i = value i := by
  simp only [checked, RangeError.check_eq_ok_iff.mpr h, ok_bind]

theorem read_checked_of_le {n i : Nat} {value : Nat → Except RangeError α} (h : n ≤ i) :
    (checked n value).read i = .error ⟨i, n⟩ := by
  simp only [checked, RangeError.check_of_le h, error_bind]

/-- A checked series whose values are those of a list holds that list. -/
theorem checked_eq_ofList {n : Nat} {value : Nat → Except RangeError α} {values : List α}
    (length : values.length = n) (each : ∀ i (h : i < values.length), value i = .ok values[i]) :
    checked n value = ofList values := by
  refine eq_of_reads (by simp [checked, length]) fun i => ?_
  by_cases h : i < values.length
  · rw [read_checked_of_lt (length ▸ h), read_ofList_of_lt h, each i h]
  · rw [read_checked_of_le (by omega), read_ofList_of_le (by omega), length]

/-- The values computed below a length are a list if each of them is a member of it. -/
theorem mapM_range_eq_ok {n : Nat} {value : Nat → Except RangeError α} {values : List α}
    (length : values.length = n) (each : ∀ i (h : i < values.length), value i = .ok values[i]) :
    (List.range n).mapM value = .ok values := by
  refine mapM_eq_ok (by simpa using length) fun i hx hy => ?_
  rw [List.getElem_range]
  exact each i hy

theorem collect_eq_ofList {n : Nat} {value : Nat → Except RangeError α} {values : List α}
    (length : values.length = n) (each : ∀ i (h : i < values.length), value i = .ok values[i]) :
    collect n value = .ok (ofList values) := by
  rw [collect, mapM_range_eq_ok length each]
  rfl

theorem toList_ofList (values : List α) : (ofList values).toList = .ok values :=
  mapM_range_eq_ok (by simp) fun _ h => read_ofList_of_lt h

theorem replicate_eq_ofList (n : Nat) (x : α) :
    replicate n x = ofList (List.replicate n x) := by
  refine checked_eq_ofList (by simp) fun i h => ?_
  rw [List.getElem_replicate]

theorem truncate_ofList (values : List α) (n : Nat) :
    (ofList values).truncate n = ofList (values.take n) := by
  refine checked_eq_ofList (by simp) fun i h => ?_
  have inside : i < values.length := by simp at h; omega
  rw [read_ofList_of_lt inside, List.getElem_take]

theorem skip_ofList (values : List α) (n : Nat) :
    (ofList values).skip n = ofList (values.drop n) := by
  refine checked_eq_ofList (by simp) fun i h => ?_
  have inside : n + i < values.length := by simp at h; omega
  rw [read_ofList_of_lt inside, List.getElem_drop]

/-- A slice of a list, where no index in it wraps. -/
theorem slice_ofList {values : List α} {offset length : Nat}
    (inside : offset + length ≤ values.length) (word : offset + length < wordCount) :
    (ofList values).slice offset length = ofList ((values.drop offset).take length) := by
  refine checked_eq_ofList (by simp; omega) fun i h => ?_
  have below : i < length := by simp at h; omega
  rw [wordSum_eq (by omega), read_ofList_of_lt (by omega), List.getElem_take, List.getElem_drop]

theorem window_ofList {values : List α} {offset length : Nat}
    (inside : offset + length ≤ values.length) (word : offset + length < wordCount) :
    (ofList values).window offset length = .ok (ofList ((values.drop offset).take length)) := by
  rw [window, wordSum_eq word, length_ofList, if_pos inside, slice_ofList inside word]

theorem window_eq_error {base : Series α} {offset length : Nat}
    (outside : base.length < offset + length) (word : offset + length < wordCount) :
    base.window offset length = .error (.window offset (offset + length) base.length) := by
  rw [window, wordSum_eq word, if_neg (Nat.not_le_of_lt outside)]

variable [Arithmetic α]

theorem change_ofList (values : List α) :
    (ofList values).change = ofList (List.zipWith (· - ·) values values.tail) := by
  refine checked_eq_ofList (by simp) fun i h => ?_
  have older : i + 1 < values.length := by simp at h; omega
  rw [read_ofList_of_lt (by omega : i < values.length), read_ofList_of_lt older,
    List.getElem_zipWith, List.getElem_tail]
  rfl

theorem distance_ofList {xs ys : List α} (aligned : xs.length = ys.length) :
    (ofList xs).distance (ofList ys) =
      ofList (List.zipWith (fun x y => Arithmetic.abs (x - y)) xs ys) := by
  refine eq_of_reads (by simp [distance, aligned]) fun i => ?_
  by_cases h : i < xs.length
  · rw [read_ofList_of_lt (by simp; omega), List.getElem_zipWith]
    simp only [distance, read_ofList_of_lt h, read_ofList_of_lt (aligned ▸ h), ok_bind, pure_eq_ok]
  · rw [read_ofList_of_le (by simp; omega)]
    simp only [distance, read_ofList_of_le (Nat.le_of_not_lt h), error_bind, List.length_zipWith,
      aligned, Nat.min_self]

end Series

end TradingRules
