import TradingRules.Proofs.Smoothing
import TradingRules.Series.Tree

/-!
# Trees of series as lists

A tree of series stands for a list, made by the list operations that its nodes are named for. Each
node reads the ones below it at indices of its own, and yet the series of the whole tree answers
every read as that list does. A tree has no series just when one of its nodes does not fit what is
below it.
-/

namespace TradingRules

theorem Misfit.message_eq (m : Misfit) : ∃ rest, m.message = "invariant violated" ++ rest := by
  have opening : "invariant violated: window " = "invariant violated" ++ ": window " := by rfl
  cases m with
  | window start stop length =>
    refine ⟨": window " ++ (toString start ++ (".." ++ (toString stop ++
      (" exceeds base series of length " ++ toString length)))), ?_⟩
    change "invariant violated: window " ++ toString start ++ ".." ++ toString stop ++
      " exceeds base series of length " ++ toString length = _
    rw [opening]
    simp only [String.append_assoc]
  | operands => exact ⟨": abs_diff operands differ in length", by rfl⟩

namespace SeriesTree

open Indicator

variable {α : Type}

/-- The trees a node is put on. -/
def operands : SeriesTree α → List (SeriesTree α)
  | direct _ => []
  | chronological _ => []
  | empty => []
  | replicate _ _ => []
  | reference base => [base]
  | erased base => [base]
  | change base => [base]
  | window base _ _ => [base]
  | skip base _ => [base]
  | truncate base _ => [base]
  | absDiff lhs rhs => [lhs, rhs]
  | sma base _ => [base]
  | ema base _ => [base]

/-- The nodes of a tree, each one before those it is put on. -/
def nodes : SeriesTree α → List (SeriesTree α)
  | direct newestFirst => [direct newestFirst]
  | chronological oldestFirst => [chronological oldestFirst]
  | empty => [empty]
  | replicate x length => [replicate x length]
  | reference base => reference base :: base.nodes
  | erased base => erased base :: base.nodes
  | change base => change base :: base.nodes
  | window base offset length => window base offset length :: base.nodes
  | skip base n => skip base n :: base.nodes
  | truncate base n => truncate base n :: base.nodes
  | absDiff lhs rhs => absDiff lhs rhs :: (lhs.nodes ++ rhs.nodes)
  | sma base period => sma base period :: base.nodes
  | ema base period => ema base period :: base.nodes

theorem nodes_eq (t : SeriesTree α) : t.nodes = t :: t.operands.flatMap nodes := by
  cases t <;> simp [nodes, operands]

theorem forall_nodes_iff {p : SeriesTree α → Prop} (t : SeriesTree α) :
    (∀ node ∈ t.nodes, p node) ↔ p t ∧ ∀ operand ∈ t.operands, ∀ node ∈ operand.nodes, p node := by
  rw [nodes_eq, List.forall_mem_cons]
  refine and_congr_right fun _ => ?_
  constructor
  · intro every operand member node occurs
    exact every node (List.mem_flatMap.mpr ⟨operand, member, occurs⟩)
  · intro each node occurs
    obtain ⟨operand, member, occurs⟩ := List.mem_flatMap.mp occurs
    exact each operand member node occurs

/-- The end of a window, if the node is one, is a machine word. -/
def EndsInWord : SeriesTree α → Prop
  | window _ offset length => offset + length < wordCount
  | _ => True

/-- Every window in the tree ends in a machine word. -/
def EndInWords (t : SeriesTree α) : Prop := ∀ node ∈ t.nodes, node.EndsInWord

theorem EndInWords.operand {t operand : SeriesTree α} (words : t.EndInWords)
    (member : operand ∈ t.operands) : operand.EndInWords :=
  (t.forall_nodes_iff.mp words).2 operand member

variable [Arithmetic α]

/-- The means of every `period` neighbours in a list, each added up from its newest value. -/
def means (period : Nat) (xs : List α) : List α :=
  if period = 0 then []
  else (List.range (xs.length + 1 - period)).map fun i =>
    ((xs.drop i).take period).foldl (· + ·) (Arithmetic.count 0) / Arithmetic.count period

/-- The mean of the oldest `period` values, and one average for each newer value: `k` parts of the
value and the rest of the average before. -/
def weightedMeans (period : Nat) (xs : List α) : List α :=
  if period = 0 ∨ xs.length < period then []
  else
    let newer := xs.take (xs.length - period)
    let oldest := xs.drop (xs.length - period)
    let seed := oldest.foldl (· + ·) (Arithmetic.count 0) / Arithmetic.count period
    let k := Arithmetic.count 2 / (Arithmetic.count period + Arithmetic.count 1)
    newer.scanr (fun x previous => x * k + previous * (Arithmetic.count 1 - k)) seed

/-- The list a tree stands for, newest first. -/
def values : SeriesTree α → List α
  | direct newestFirst => newestFirst
  | chronological oldestFirst => oldestFirst.reverse
  | empty => []
  | replicate x length => List.replicate length x
  | reference base => base.values
  | erased base => base.values
  | change base => List.zipWith (· - ·) base.values base.values.tail
  | window base offset length => (base.values.drop offset).take length
  | skip base n => base.values.drop n
  | truncate base n => base.values.take n
  | absDiff lhs rhs => List.zipWith (fun x y => Arithmetic.abs (x - y)) lhs.values rhs.values
  | sma base period => means period base.values
  | ema base period => weightedMeans period base.values

theorem means_eq (period : Nat) (xs : List α) :
    means period xs = windows period (mean period) xs := by
  unfold means
  split
  · rename_i zero
    apply (List.eq_nil_of_length_eq_zero _).symm
    rw [length_windows, windowedLength, if_pos (.inl zero)]
  · rename_i nonzero
    have count := windowedLength_eq_sub (Nat.pos_of_ne_zero nonzero) xs.length
    apply List.ext_getElem
    · rw [List.length_map, List.length_range, length_windows]
      omega
    · intro i _ _
      rw [List.getElem_map, List.getElem_range, getElem_windows]
      rfl

theorem weightedMeans_eq (period : Nat) (xs : List α) :
    weightedMeans period xs = Smoothing.exponential.values period xs := by
  unfold weightedMeans
  split
  · rename_i few
    apply (List.eq_nil_of_length_eq_zero _).symm
    rw [Smoothing.length_values, windowedLength, if_pos few]
  · rename_i whole
    have positive : 0 < period := by omega
    have length : (xs.drop (xs.length - period)).length = period := by
      rw [List.length_drop]
      omega
    have steps := Smoothing.exponential.values_append positive length
      (xs.take (xs.length - period))
    rw [List.take_append_drop] at steps
    rw [steps]
    rfl

/-- A window ends past its base, or the operands of a difference have two lengths. -/
def Misfits : SeriesTree α → Prop
  | window base offset length => base.values.length < offset + length
  | absDiff lhs rhs => lhs.values.length ≠ rhs.values.length
  | _ => False

/-- No node of the tree misfits. -/
def Fits (t : SeriesTree α) : Prop := ∀ node ∈ t.nodes, ¬ node.Misfits

theorem fits_iff (t : SeriesTree α) :
    t.Fits ↔ ¬ t.Misfits ∧ ∀ operand ∈ t.operands, operand.Fits :=
  t.forall_nodes_iff

/-- The outcome of building a tree: the series that holds its list if every node fits, and a misfit
otherwise. -/
def Denotes (t : SeriesTree α) : Prop :=
  (t.Fits ∧ t.build = .ok (Series.ofList t.values)) ∨
    (¬ t.Fits ∧ ∃ m, t.build = .error (.misfit m))

theorem denotes_of_leaf {t : SeriesTree α} (leaf : t.operands = []) (sound : ¬ t.Misfits)
    (built : t.build = .ok (Series.ofList t.values)) : t.Denotes := by
  refine .inl ⟨t.fits_iff.mpr ⟨sound, ?_⟩, built⟩
  intro operand member
  rw [leaf] at member
  cases member

/-- A node on one base, which may refuse the base or not. -/
theorem denotes_of_base {t base : SeriesTree α} {f : Series α → Except BuildFault (Series α)}
    (one : t.operands = [base]) (built : t.build = base.build >>= f)
    (accepts : ¬ t.Misfits → f (Series.ofList base.values) = .ok (Series.ofList t.values))
    (refuses : t.Misfits → ∃ m, f (Series.ofList base.values) = .error (.misfit m))
    (below : base.Denotes) : t.Denotes := by
  have fits : t.Fits ↔ ¬ t.Misfits ∧ base.Fits := by simp [t.fits_iff, one]
  rcases below with ⟨base_fits, base_built⟩ | ⟨misfit, m, failed⟩
  · rw [base_built, ok_bind] at built
    by_cases misfits : t.Misfits
    · obtain ⟨m, refused⟩ := refuses misfits
      exact .inr ⟨fun all => (fits.mp all).1 misfits, m, built.trans refused⟩
    · exact .inl ⟨fits.mpr ⟨misfits, base_fits⟩, built.trans (accepts misfits)⟩
  · rw [failed, error_bind] at built
    exact .inr ⟨fun all => misfit (fits.mp all).2, m, built⟩

/-- A node that takes any base. -/
theorem denotes_of_any_base {t base : SeriesTree α} {f : Series α → Except BuildFault (Series α)}
    (one : t.operands = [base]) (built : t.build = base.build >>= f) (sound : ¬ t.Misfits)
    (made : f (Series.ofList base.values) = .ok (Series.ofList t.values)) (below : base.Denotes) :
    t.Denotes :=
  denotes_of_base one built (fun _ => made) (fun misfits => absurd misfits sound) below

theorem denotes_window {base : SeriesTree α} {offset length : Nat}
    (word : offset + length < wordCount) (below : base.Denotes) :
    (window base offset length).Denotes := by
  apply denotes_of_base rfl rfl _ _ below
  · intro fits
    have inside : offset + length ≤ base.values.length := Nat.le_of_not_lt fits
    rw [Series.window_ofList inside word]
    rfl
  · intro misfits
    have outside : (Series.ofList base.values).length < offset + length := by
      rw [Series.length_ofList]
      exact misfits
    rw [Series.window_eq_error outside word]
    exact ⟨_, rfl⟩

theorem denotes_absDiff {lhs rhs : SeriesTree α} (left : lhs.Denotes) (right : rhs.Denotes) :
    (absDiff lhs rhs).Denotes := by
  have fits : (absDiff lhs rhs).Fits ↔
      lhs.values.length = rhs.values.length ∧ lhs.Fits ∧ rhs.Fits := by
    simp [fits_iff (absDiff lhs rhs), operands, Misfits]
  rcases left with ⟨left_fits, left_built⟩ | ⟨misfit, m, failed⟩
  · rcases right with ⟨right_fits, right_built⟩ | ⟨misfit, m, failed⟩
    · have built : (absDiff lhs rhs).build =
          ((Series.ofList lhs.values).absDiff (Series.ofList rhs.values)).mapError .misfit := by
        rw [build, left_built, right_built]
        rfl
      by_cases aligned : lhs.values.length = rhs.values.length
      · refine .inl ⟨fits.mpr ⟨aligned, left_fits, right_fits⟩, ?_⟩
        rw [built, Series.absDiff, if_pos (by simpa using aligned), Series.distance_ofList aligned]
        rfl
      · refine .inr ⟨fun all => aligned (fits.mp all).1, .operands, ?_⟩
        rw [built, Series.absDiff, if_neg (by simpa using aligned)]
        rfl
    · refine .inr ⟨fun all => misfit (fits.mp all).2.2, m, ?_⟩
      rw [build, left_built, failed]
      rfl
  · refine .inr ⟨fun all => misfit (fits.mp all).2.1, m, ?_⟩
    rw [build, failed]
    rfl

/-- Every tree denotes its list, if its windows end in machine words. -/
theorem denotes (t : SeriesTree α) (words : t.EndInWords) : t.Denotes := by
  induction t with
  | direct newestFirst => exact denotes_of_leaf rfl id rfl
  | chronological oldestFirst => exact denotes_of_leaf rfl id rfl
  | empty => exact denotes_of_leaf rfl id rfl
  | replicate x length =>
    apply denotes_of_leaf rfl id
    rw [build, Series.replicate_eq_ofList, values]
  | reference base ih =>
    have same : (reference base).build = base.build >>= .ok := (bind_ok_self _).symm
    exact denotes_of_any_base rfl same id rfl (ih (words.operand (.head _)))
  | erased base ih =>
    have same : (erased base).build = base.build >>= .ok := (bind_ok_self _).symm
    exact denotes_of_any_base rfl same id rfl (ih (words.operand (.head _)))
  | change base ih =>
    apply denotes_of_any_base rfl rfl id _ (ih (words.operand (.head _)))
    rw [Series.change_ofList, values]
    rfl
  | window base offset length ih =>
    exact denotes_window (words _ (.head _)) (ih (words.operand (.head _)))
  | skip base n ih =>
    apply denotes_of_any_base rfl rfl id _ (ih (words.operand (.head _)))
    rw [Series.skip_ofList, values]
    rfl
  | truncate base n ih =>
    apply denotes_of_any_base rfl rfl id _ (ih (words.operand (.head _)))
    rw [Series.truncate_ofList, values]
    rfl
  | absDiff lhs rhs ihl ihr =>
    exact denotes_absDiff (ihl (words.operand (.head _)))
      (ihr (words.operand (.tail _ (.head _))))
  | sma base period ih =>
    apply denotes_of_any_base rfl rfl id _ (ih (words.operand (.head _)))
    rw [sma_ofList, values, means_eq]
    rfl
  | ema base period ih =>
    apply denotes_of_any_base rfl rfl id _ (ih (words.operand (.head _)))
    rw [Indicator.ema, smoothed_ofList, values, weightedMeans_eq]
    rfl

/-- A tree whose windows end in machine words has no series just when one of its nodes misfits, and
the failure says that an invariant is violated. Otherwise its series is as long as the list the tree
stands for, yields that list, and answers a read with the element at the index, or with the range
error of the tree as a whole where there is none. -/
theorem build_denotes (t : SeriesTree α) (words : t.EndInWords) :
    ((∃ node ∈ t.nodes, node.Misfits) ↔
      ∃ m rest, t.build = .error (.misfit m) ∧ m.message = "invariant violated" ++ rest) ∧
    (¬ (∃ node ∈ t.nodes, node.Misfits) →
      ∃ series, t.build = .ok series ∧ series.length = t.values.length ∧
        series.toList = .ok t.values ∧
        ∀ i, series.read i = match t.values[i]? with
          | some x => .ok x
          | none => .error ⟨i, series.length⟩) := by
  have misfit_iff : (∃ node ∈ t.nodes, node.Misfits) ↔ ¬ t.Fits := by
    simp only [Fits, Classical.not_forall, Classical.not_not, exists_prop]
  rw [misfit_iff]
  rcases t.denotes words with ⟨fits, built⟩ | ⟨misfit, m, failed⟩
  · constructor
    · refine iff_of_false (not_not_intro fits) ?_
      rintro ⟨m, rest, failed, -⟩
      cases built.symm.trans failed
    · intro _
      refine ⟨Series.ofList t.values, built, Series.length_ofList _, Series.toList_ofList _, ?_⟩
      intro i
      rw [Series.length_ofList]
      exact Series.read_ofList t.values i
  · constructor
    · refine iff_of_true misfit ?_
      obtain ⟨rest, message⟩ := m.message_eq
      exact ⟨m, rest, failed, message⟩
    · intro fits
      exact absurd misfit fits

/-- Over four days, how far the changes are from the averages over two days, and how far that is
from the weighted averages over three days: two distances can be cut out from the second one on, but
not three. -/
theorem build_denotes_four_days :
    let closes : SeriesTree Float := .chronological [10.0, 11.0, 15.0, 20.0]
    let distances : SeriesTree Float := .absDiff (.change closes) (.erased (.sma closes 2))
    let inside : SeriesTree Float := .absDiff (.window distances 1 2) (.ema closes 3)
    let outside : SeriesTree Float := .window distances 1 3
    inside.EndInWords ∧ outside.EndInWords ∧
      (.ema closes 3 : SeriesTree Float).values = [16.0, 12.0] ∧
      (∃ series, inside.build = .ok series ∧ series.toList = .ok [7.0, 2.5] ∧
        series.read 1 = .ok 2.5 ∧ series.read 2 = .error ⟨2, 2⟩) ∧
      ∃ m rest, outside.build = .error (.misfit m) ∧ m.message = "invariant violated" ++ rest := by
  intro closes distances inside outside
  have inside_words : inside.EndInWords := by
    simp [EndInWords, inside, distances, closes, nodes, EndsInWord, wordCount]
  have outside_words : outside.EndInWords := by
    simp [EndInWords, outside, distances, closes, nodes, EndsInWord, wordCount]
  have fitting : ¬ ∃ node ∈ inside.nodes, node.Misfits := by
    simp only [inside, distances, closes, nodes, List.cons_append, List.nil_append, List.mem_cons,
      List.not_mem_nil, or_false, exists_eq_or_imp, exists_eq_left, Misfits, not_or]
    decide
  have misfitting : ∃ node ∈ outside.nodes, node.Misfits := by
    refine ⟨outside, .head _, ?_⟩
    change distances.values.length < 1 + 3
    decide
  obtain ⟨series, built, length, all, reads⟩ := (build_denotes inside inside_words).2 fitting
  have values : inside.values = [7.0, 2.5] := by decide +kernel
  have averages : (SeriesTree.ema closes 3).values = [16.0, 12.0] := by decide +kernel
  rw [values] at length all reads
  refine ⟨inside_words, outside_words, averages, ⟨series, built, all, ?_, ?_⟩,
    (build_denotes outside outside_words).1.mp misfitting⟩
  · rw [reads 1]
    rfl
  · rw [reads 2, length]
    rfl

end SeriesTree

end TradingRules
