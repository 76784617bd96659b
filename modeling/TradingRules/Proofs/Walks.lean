import Mathlib.Data.List.Nodup
import TradingRules.Proofs.WindowBounds

/-!
# What a smoothing walk visits

A walk over a source visits the indices from the oldest whole window down to where it stops, each
once. Two walks over one source are the same up to the index where the first of them stops, so a
value does not depend on how far the walk goes on. Nothing is assumed of the source: where one of
its own reads fails, so does the walk.

What is made of a walk is said here as a run that starts from a placeholder: a cell that every visit
overwrites, and a buffer with a place for each index. Neither shows its placeholder in the end.
-/

namespace TradingRules

section Folds

variable {ε β γ : Type}

/-- A fold that fails, fails at one of the members. -/
theorem foldlM_eq_error {f : β → γ → Except ε β} {xs : List γ} {start : β} {e : ε}
    (failed : xs.foldlM f start = .error e) : ∃ x ∈ xs, ∃ acc, f acc x = .error e := by
  induction xs generalizing start with
  | nil => cases failed
  | cons x rest ih =>
    rw [List.foldlM_cons, bind_eq_error_iff] at failed
    rcases failed with first | ⟨acc, -, later⟩
    · exact ⟨x, List.mem_cons_self, start, first⟩
    · obtain ⟨y, member, acc, fails⟩ := ih later
      exact ⟨y, List.mem_cons_of_mem x member, acc, fails⟩

end Folds

namespace Indicator

section Buffers

variable {α : Type}

/-- A buffer with the value of a visit at its index, which must be a place of the buffer. -/
def record (buffer : List α) (visit : Nat × α) : Option (List α) :=
  if visit.1 < buffer.length then some (buffer.set visit.1 visit.2) else none

/-- A buffer after some visits. -/
def recordAll (buffer : List α) (visits : List (Nat × α)) : Option (List α) :=
  visits.foldlM record buffer

/-- What a cell holds after some visits, each of which overwrites it. -/
def lastOf (placeholder : α) (visits : List (Nat × α)) : α :=
  visits.foldl (fun _ visit => visit.2) placeholder

/-- Visits to all the indices below `k`, the newest last, fill the places below `k` and leave the
others alone. -/
theorem recordAll_eq {k : Nat} {buffer : List α} {visits : List (Nat × α)}
    (indices : visits.map Prod.fst = (List.range k).reverse) (room : k ≤ buffer.length) :
    recordAll buffer visits = some (visits.reverse.map Prod.snd ++ buffer.drop k) := by
  induction k generalizing buffer visits with
  | zero =>
    obtain rfl := List.map_eq_nil_iff.mp indices
    rfl
  | succ k ih =>
    rw [List.range_succ, List.reverse_append, List.reverse_singleton, List.singleton_append]
      at indices
    obtain ⟨⟨i, x⟩, later, rfl, rfl, others⟩ := List.map_eq_cons_iff.mp indices
    have inside : i < buffer.length := room
    have written : record buffer (i, x) = some (buffer.set i x) := if_pos inside
    have beyond : (buffer.set i x).drop i = x :: buffer.drop (i + 1) := by
      rw [List.drop_eq_getElem_cons (by rwa [List.length_set]), List.getElem_set_self,
        List.drop_set_of_lt (Nat.lt_succ_self i)]
    have room_later : i ≤ (buffer.set i x).length := by
      rw [List.length_set]
      omega
    have filled := ih others room_later
    rw [recordAll, List.foldlM_cons, written, Option.bind_eq_bind, Option.bind_some]
    rw [recordAll, beyond] at filled
    rw [filled]
    simp

theorem Walk.lastOf_visits (walk : Walk α) (placeholder : α) :
    lastOf placeholder walk.visits = walk.newest := by
  have each (visits : List (Nat × α)) (x : Nat × α) :
      visits.foldl (fun _ visit => visit.2) x.2 = (visits.getLastD x).2 := by
    induction visits generalizing x with
    | nil => rfl
    | cons y rest ih =>
      rw [List.foldl_cons, ih y, List.getLastD_cons]
  exact each walk.later walk.seed

end Buffers

section Visits

variable {α : Type} [Arithmetic α] {source : Series α} {period stop index : Nat}
  {kind : Smoothing} {previous : α} {e : RangeError}

theorem windowMean_eq_error (failed : windowMean source index period = .error e) :
    ∃ i, index ≤ i ∧ i < index + period ∧ source.read i = .error e := by
  rw [windowMean, bind_eq_error_iff] at failed
  rcases failed with folded | ⟨sum, -, divided⟩
  · obtain ⟨i, member, acc, fails⟩ := foldlM_eq_error folded
    rw [List.mem_range'_1] at member
    rw [bind_eq_error_iff] at fails
    rcases fails with read | ⟨x, -, added⟩
    · exact ⟨i, member.1, member.2, read⟩
    · cases added
  · cases divided

theorem smoothDown_eq_error
    (failed : smoothDown source period kind stop index previous = .error e) :
    ∃ i, i < index ∧ source.read i = .error e := by
  induction index generalizing previous with
  | zero => cases failed
  | succ i ih =>
    rw [smoothDown] at failed
    split at failed
    · cases failed
    · rcases bind_eq_error_iff.mp failed with read | ⟨x, -, rest⟩
      · exact ⟨i, Nat.lt_succ_self i, read⟩
      · rcases bind_eq_error_iff.mp rest with walked | ⟨later, -, visited⟩
        · obtain ⟨j, below, read⟩ := ih walked
          exact ⟨j, Nat.lt_succ_of_lt below, read⟩
        · cases visited

/-- Below an index the indices down to where the walk stops are visited, each once. -/
theorem smoothDown_indices {visits : List (Nat × α)}
    (run : smoothDown source period kind stop index previous = .ok visits) :
    visits.map Prod.fst = (List.range' stop (index - stop)).reverse := by
  induction index generalizing previous visits with
  | zero =>
    cases run
    rw [Nat.zero_sub]
    rfl
  | succ i ih =>
    rw [smoothDown] at run
    split at run
    · rename_i below
      cases run
      have none : i + 1 - stop = 0 := by omega
      rw [none]
      rfl
    · obtain ⟨x, -, rest⟩ := bind_eq_ok_iff.mp run
      obtain ⟨later, walked, visited⟩ := bind_eq_ok_iff.mp rest
      cases visited
      have one_more : i + 1 - stop = i - stop + 1 := by omega
      have last : stop + (i - stop) = i := by omega
      rw [List.map_cons, ih walked, one_more, List.range'_concat, List.reverse_append, Nat.one_mul,
        last]
      rfl

/-- A walk that stops earlier visits the same up to there. -/
theorem smoothDown_take {visits : List (Nat × α)} {higher : Nat} (earlier : stop ≤ higher)
    (run : smoothDown source period kind stop index previous = .ok visits) :
    smoothDown source period kind higher index previous = .ok (visits.take (index - higher)) := by
  induction index generalizing previous visits with
  | zero =>
    cases run
    rw [smoothDown, List.take_nil]
  | succ i ih =>
    rw [smoothDown] at run ⊢
    by_cases below : i < higher
    · have none : i + 1 - higher = 0 := by omega
      rw [if_pos below, none, List.take_zero]
    · rw [if_neg (by omega)] at run
      obtain ⟨x, read, rest⟩ := bind_eq_ok_iff.mp run
      obtain ⟨later, walked, visited⟩ := bind_eq_ok_iff.mp rest
      cases visited
      have one_more : i + 1 - higher = i - higher + 1 := by omega
      rw [if_neg below, read, ok_bind, one_more, List.take_succ_cons]
      simp only [ih walked, ok_bind, pure_eq_ok]

/-- A walk that fails was to stop where no window starts, or met a read of the source that fails. -/
theorem smoothWalk_eq_error (failed : smoothWalk source period kind stop = .error e) :
    (windowedLength source.length period ≤ stop ∧
        e = ⟨stop, windowedLength source.length period⟩) ∨
      (stop < windowedLength source.length period ∧
        ∃ i, i < source.length ∧ source.read i = .error e) := by
  by_cases whole : stop < windowedLength source.length period
  · right
    refine ⟨whole, ?_⟩
    have newest : windowedLength source.length period - 1 <
        windowedLength source.length period := by omega
    have inside := (window_inside newest).1
    have shorter := windowedLength_le source.length period
    rw [smoothWalk, RangeError.check_eq_ok_iff.mpr whole, ok_bind] at failed
    rcases bind_eq_error_iff.mp failed with seed | ⟨value, -, rest⟩
    · obtain ⟨i, -, below, read⟩ := windowMean_eq_error seed
      exact ⟨i, by omega, read⟩
    · rcases bind_eq_error_iff.mp rest with walked | ⟨later, -, visited⟩
      · obtain ⟨i, below, read⟩ := smoothDown_eq_error walked
        exact ⟨i, by omega, read⟩
      · cases visited
  · left
    have outside := Nat.le_of_not_lt whole
    rw [smoothWalk_of_le source kind outside] at failed
    exact ⟨outside, (Except.error.inj failed).symm⟩

/-- A walk visits the indices from the last whole window down to where it stops, each once. -/
theorem smoothWalk_indices {walk : Walk α}
    (run : smoothWalk source period kind stop = .ok walk) :
    stop < windowedLength source.length period ∧ walk.visits.map Prod.fst =
      (List.range' stop (windowedLength source.length period - stop)).reverse := by
  obtain ⟨⟨⟩, checked, rest⟩ := bind_eq_ok_iff.mp run
  obtain ⟨seed, -, rest⟩ := bind_eq_ok_iff.mp rest
  obtain ⟨later, walked, visited⟩ := bind_eq_ok_iff.mp rest
  have whole := RangeError.check_eq_ok_iff.mp checked
  cases visited
  refine ⟨whole, ?_⟩
  have one_more : windowedLength source.length period - stop =
      windowedLength source.length period - 1 - stop + 1 := by omega
  have last : stop + (windowedLength source.length period - 1 - stop) =
      windowedLength source.length period - 1 := by omega
  rw [Walk.visits, List.map_cons, smoothDown_indices walked, one_more, List.range'_concat,
    List.reverse_append, Nat.one_mul, last]
  rfl

/-- A walk that stops earlier is there if one that goes on is, and visits the same up to there. -/
theorem smoothWalk_take {walk : Walk α} {higher : Nat} (earlier : stop ≤ higher)
    (inside : higher < windowedLength source.length period)
    (run : smoothWalk source period kind stop = .ok walk) :
    ∃ shorter, smoothWalk source period kind higher = .ok shorter ∧
      shorter.visits = walk.visits.take (windowedLength source.length period - higher) := by
  obtain ⟨⟨⟩, checked, rest⟩ := bind_eq_ok_iff.mp run
  obtain ⟨seed, window, rest⟩ := bind_eq_ok_iff.mp rest
  obtain ⟨later, walked, visited⟩ := bind_eq_ok_iff.mp rest
  cases visited
  have one_more : windowedLength source.length period - higher =
      windowedLength source.length period - 1 - higher + 1 := by omega
  refine ⟨⟨(windowedLength source.length period - 1, seed),
    later.take (windowedLength source.length period - 1 - higher)⟩, ?_, ?_⟩
  · simp only [smoothWalk, RangeError.check_eq_ok_iff.mpr inside, window,
      smoothDown_take earlier walked, ok_bind, pure_eq_ok]
  · rw [Walk.visits, Walk.visits, one_more, List.take_succ_cons]

/-- The walk that goes on visits every index once, so it has one value at an index that both
visit. -/
theorem smoothWalk_value_of_le {walk longer : Walk α} {further i : Nat} {x y : α}
    (later : further ≤ stop) (run : smoothWalk source period kind stop = .ok walk)
    (goes_on : smoothWalk source period kind further = .ok longer)
    (visited : (i, x) ∈ walk.visits) (also : (i, y) ∈ longer.visits) : x = y := by
  obtain ⟨shorter, same, visits⟩ := smoothWalk_take later (smoothWalk_indices run).1 goes_on
  rw [run] at same
  obtain rfl := Except.ok.inj same
  have among : (i, x) ∈ longer.visits := by
    rw [visits] at visited
    exact List.mem_of_mem_take visited
  have once : (longer.visits.map Prod.fst).Nodup := by
    rw [(smoothWalk_indices goes_on).2, List.nodup_reverse]
    exact List.nodup_range'
  exact congrArg Prod.snd (List.inj_on_of_nodup_map once among also rfl)

theorem smoothWalk_value {walk other : Walk α} {elsewhere i : Nat} {x y : α}
    (run : smoothWalk source period kind stop = .ok walk)
    (run' : smoothWalk source period kind elsewhere = .ok other)
    (visited : (i, x) ∈ walk.visits) (visited' : (i, y) ∈ other.visits) : x = y := by
  rcases Nat.le_total elsewhere stop with later | earlier
  · exact smoothWalk_value_of_le later run run' visited visited'
  · exact (smoothWalk_value_of_le earlier run' run visited' visited).symm

end Visits

section Placeholders

variable {α : Type} [Arithmetic α]

/-- Smoothing at one index with a cell that every visit overwrites. -/
def smoothedLast (placeholder : α) (source : Series α) (period : Nat) (kind : Smoothing)
    (index : Nat) : Except RangeError α := do
  let walk ← smoothWalk source period kind index
  return lastOf placeholder walk.visits

/-- Smoothing into a buffer that has a placeholder for each index; nothing where a visit is at no
place of the buffer. -/
def smoothedInto (placeholder : α) (source : Series α) (period : Nat) (kind : Smoothing) :
    Except RangeError (Option (Series α)) :=
  let length := windowedLength source.length period
  if length = 0 then .ok (some (Series.ofList []))
  else do
    let walk ← smoothWalk source period kind 0
    return (recordAll (List.replicate length placeholder) walk.visits).map Series.ofList

theorem smoothedLast_eq (placeholder : α) (source : Series α) (period : Nat) (kind : Smoothing)
    (index : Nat) :
    smoothedLast placeholder source period kind index = smoothedAt source period kind index := by
  simp only [smoothedLast, smoothedAt, Walk.lastOf_visits]

theorem smoothedInto_eq (placeholder : α) (source : Series α) (period : Nat) (kind : Smoothing) :
    smoothedInto placeholder source period kind = some <$> smoothed source period kind := by
  unfold smoothedInto smoothed
  dsimp only
  split
  · rfl
  · cases run : smoothWalk source period kind 0 with
    | error e => rfl
    | ok walk =>
      have indices := (smoothWalk_indices run).2
      rw [Nat.sub_zero, ← List.range_eq_range'] at indices
      have room : windowedLength source.length period ≤
          (List.replicate (windowedLength source.length period) placeholder).length := by
        exact Nat.le_of_eq List.length_replicate.symm
      have filled := recordAll_eq indices room
      rw [List.drop_eq_nil_of_le (Nat.le_of_eq List.length_replicate), List.append_nil] at filled
      simp only [ok_bind, pure_eq_ok, filled, Option.map_some, map_ok]

/-- A series that was built answers a read at any index as the walk that stops there. -/
theorem smoothedAt_eq_read {source s : Series α} {period : Nat} {kind : Smoothing}
    (built : smoothed source period kind = .ok s) (index : Nat) :
    s.length = windowedLength source.length period ∧
      smoothedAt source period kind index = s.read index := by
  unfold smoothed at built
  split at built
  · rename_i none
    obtain rfl := Except.ok.inj built
    rw [none, smoothedAt, smoothWalk_of_le source kind (by omega), none]
    exact ⟨rfl, rfl⟩
  · obtain ⟨walk, run, made⟩ := bind_eq_ok_iff.mp built
    obtain rfl := Except.ok.inj made
    have indices := (smoothWalk_indices run).2
    have length : walk.visits.length = windowedLength source.length period := by
      have lengths := congrArg List.length indices
      rwa [List.length_map, List.length_reverse, List.length_range', Nat.sub_zero] at lengths
    refine ⟨by simp [length], ?_⟩
    by_cases inside : index < windowedLength source.length period
    · obtain ⟨shorter, stopped, visits⟩ := smoothWalk_take (Nat.zero_le index) inside run
      have values : (walk.visits.map (·.2)).length = windowedLength source.length period := by
        rw [List.length_map, length]
      have place : windowedLength source.length period - index - 1 =
          (walk.visits.map (·.2)).length - 1 - index := by omega
      have newest := shorter.getLast?_values
      rw [visits, List.map_take, List.getLast?_take, if_neg (by omega), place,
        List.getElem?_eq_getElem (by omega), Option.some_or] at newest
      rw [smoothedAt, stopped, ok_bind, Series.read_ofList, List.map_reverse,
        List.getElem?_reverse (by omega), List.getElem?_eq_getElem (by omega),
        Option.some.inj newest]
      rfl
    · have outside := Nat.le_of_not_lt inside
      rw [smoothedAt, smoothWalk_of_le source kind outside, Series.read_ofList_of_le]
      · simp [length]
      · simp [length, outside]

end Placeholders

variable {α : Type} [Arithmetic α]

/-- What walks over the windows of a source do, wherever they are told to stop, if `length` windows
start at its indices. -/
structure VisitsOnce (source : Series α) (period : Nat) (kind : Smoothing) (length : Nat) :
    Prop where
  beyond : ∀ stop, length ≤ stop → smoothWalk source period kind stop = .error ⟨stop, length⟩
  /-- Any other failure is one of the source. -/
  fails : ∀ stop e, stop < length → smoothWalk source period kind stop = .error e →
    ∃ i, i < source.length ∧ source.read i = .error e
  fails_iff : source.Sound → ∀ stop e,
    smoothWalk source period kind stop = .error e ↔ length ≤ stop ∧ e = ⟨stop, length⟩
  indices : ∀ stop walk, smoothWalk source period kind stop = .ok walk →
    stop < length ∧ walk.visits.map Prod.fst = (List.range' stop (length - stop)).reverse
  /-- Where a walk stops has no effect on the values before. -/
  values : ∀ stop stop' walk walk' i x y, smoothWalk source period kind stop = .ok walk →
    smoothWalk source period kind stop' = .ok walk' →
    (i, x) ∈ walk.visits → (i, y) ∈ walk'.visits → x = y

theorem visitsOnce (source : Series α) (period : Nat) (kind : Smoothing) :
    VisitsOnce source period kind (windowedLength source.length period) where
  beyond _ outside := smoothWalk_of_le source kind outside
  fails stop e inside failed := by
    rcases smoothWalk_eq_error failed with ⟨outside, -⟩ | ⟨-, read⟩
    · omega
    · exact read
  fails_iff sound stop e := by
    constructor
    · intro failed
      rcases smoothWalk_eq_error failed with outside | ⟨-, i, inside, read⟩
      · exact outside
      · have present := (sound i).mpr inside
        rw [read] at present
        exact absurd present (not_succeeds_error e)
    · rintro ⟨outside, rfl⟩
      exact smoothWalk_of_le source kind outside
  indices _ _ run := smoothWalk_indices run
  values _ _ _ _ _ _ _ run run' visited visited' := smoothWalk_value run run' visited visited'

/-- Over a source that reads as it should, with a period of any size, a walk fails just where it
should stop at an index without a window, and otherwise visits the indices from the last window to
that one in order, each once and with a value that does not depend on where it stops. So whatever is
put into the cell or the buffer before, the cell holds the value at its index in the end, the buffer
is written at every place and nowhere else, and a read of the series is a walk to its index, with
the same value or the same failure. Over any other source a walk fails with the source's own
failure, and all that is said of walks that do not fail is true of those over it. -/
theorem smoothWalk_visits_once (source : Series α) (period : Nat) (kind : Smoothing) :
    VisitsOnce source period kind (windowedLength source.length period) ∧
    (∀ placeholder index, smoothedLast placeholder source period kind index =
      smoothedAt source period kind index) ∧
    (∀ placeholder, smoothedInto placeholder source period kind =
      some <$> smoothed source period kind) ∧
    (source.Sound → ∃ s, smoothed source period kind = .ok s) ∧
    ∀ s, smoothed source period kind = .ok s →
      s.length = windowedLength source.length period ∧
        ∀ index, smoothedAt source period kind index = s.read index := by
  have once := visitsOnce source period kind
  refine ⟨once, fun placeholder index => smoothedLast_eq placeholder source period kind index,
    fun placeholder => smoothedInto_eq placeholder source period kind, ?_,
    fun s built =>
      ⟨(smoothedAt_eq_read built 0).1, fun index => (smoothedAt_eq_read built index).2⟩⟩
  intro sound
  by_cases none : windowedLength source.length period = 0
  · exact ⟨_, if_pos none⟩
  · rw [smoothed, if_neg none]
    cases run : smoothWalk source period kind 0 with
    | error e =>
      have outside := ((once.fails_iff sound 0 e).mp run).1
      omega
    | ok walk => exact ⟨_, rfl⟩

/-- Six values in windows of three: the oldest average is a mean, and no walk stops at a fifth. -/
theorem smoothWalk_visits_once_six_values :
    let source : Series Float := Series.ofList [6.0, 5.0, 4.0, 3.0, 2.0, 1.0]
    source.Sound ∧ windowedLength source.length 3 = 4 ∧
      smoothWalk source 3 .wilder 4 = .error ⟨4, 4⟩ ∧
      ∃ s, smoothed source 3 .wilder = .ok s ∧ s.length = 4 ∧ s.read 3 = .ok 2.0 ∧
        smoothedInto 0.0 source 3 .wilder = .ok (some s) := by
  intro source
  have sound : source.Sound := Series.sound_ofList _
  obtain ⟨once, -, into, total, reads⟩ := smoothWalk_visits_once source 3 .wilder
  obtain ⟨s, built⟩ := total sound
  obtain ⟨length, read⟩ := reads s built
  have oldest : smoothedAt source 3 .wilder 3 = .ok 2.0 := by decide +kernel
  refine ⟨sound, rfl, once.beyond 4 (by decide), s, built, length, ?_, ?_⟩
  · rw [← read, oldest]
  · rw [into, built, map_ok]

end Indicator

end TradingRules
