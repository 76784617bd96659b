import TradingRules.Proofs.Trees

/-!
# Windows and the ends of their bases

A window is refused if it ends past its base, and the end is reckoned in machine words. A window
whose end is no word can so be accepted: its end comes round to the front of the base, and its
indices run through the largest word, where no base has a value. Every other window that is accepted
lies inside its base and reads it without fail. Dropping and keeping values ask for windows that end
where the base does or before, whatever the number of values.
-/

namespace TradingRules

/-- A sum of words that is no word comes round by their number. -/
theorem wordSum_of_le {a b : Nat} (ha : a < wordCount) (hb : b < wordCount)
    (past : wordCount ≤ a + b) : wordSum a b = a + b - wordCount := by
  rw [wordSum, Nat.mod_eq_sub_mod past, Nat.mod_eq_of_lt (by omega)]

namespace Series

variable {α : Type}

/-- Reads succeed below the length and nowhere else. -/
def Sound (s : Series α) : Prop := ∀ i, Succeeds (s.read i) ↔ i < s.length

theorem sound_ofList (values : List α) : (ofList values).Sound := by
  intro i
  rw [length_ofList]
  by_cases inside : i < values.length
  · exact iff_of_true ⟨_, read_ofList_of_lt inside⟩ inside
  · rw [read_ofList_of_le (Nat.le_of_not_lt inside)]
    exact iff_of_false (not_succeeds_error _) inside

theorem sound_checked {n : Nat} {value : Nat → Except RangeError α}
    (each : ∀ i, i < n → Succeeds (value i)) : (checked n value).Sound := by
  intro i
  change Succeeds ((checked n value).read i) ↔ i < n
  by_cases inside : i < n
  · rw [read_checked_of_lt inside]
    exact iff_of_true (each i inside) inside
  · rw [read_checked_of_le (Nat.le_of_not_lt inside)]
    exact iff_of_false (not_succeeds_error _) inside

variable {base : Series α} {offset length : Nat}

theorem Sound.fails (sound : base.Sound) {i : Nat} (outside : base.length ≤ i) :
    Fails (base.read i) := by
  cases answer : base.read i with
  | error e => exact fails_error e
  | ok x =>
    have inside := (sound i).mp ⟨x, answer⟩
    omega

theorem read_slice_of_lt {i : Nat} (inside : i < length) (word : offset + i < wordCount) :
    (base.slice offset length).read i = base.read (offset + i) := by
  rw [slice, read_checked_of_lt inside, wordSum_eq word]

theorem Sound.skip (sound : base.Sound) (n : Nat) : (base.skip n).Sound :=
  sound_checked fun i inside => (sound (n + i)).mpr (by omega)

theorem Sound.truncate (sound : base.Sound) (n : Nat) : (base.truncate n).Sound :=
  sound_checked fun i inside => (sound i).mpr (by omega)

theorem window_eq_ok_iff {w : Series α} : base.window offset length = .ok w ↔
    wordSum offset length ≤ base.length ∧ base.slice offset length = w := by
  rw [window]
  by_cases ends : wordSum offset length ≤ base.length
  · rw [if_pos ends, Except.ok.injEq]
    exact (and_iff_right ends).symm
  · rw [if_neg ends]
    refine iff_of_false ?_ (fun accepted => ends accepted.1)
    intro refused
    cases refused

/-- A slice whose indices run past the words reads, at one of them, the largest word. -/
theorem slice_fails (sound : base.Sound) (fits : base.length < wordCount)
    (word : offset < wordCount) (past : wordCount ≤ offset + length) :
    ∃ i, i < length ∧ Fails ((base.slice offset length).read i) := by
  refine ⟨wordCount - 1 - offset, by omega, ?_⟩
  rw [read_slice_of_lt (by omega) (by omega)]
  exact sound.fails (by omega)

/-- A window that is refused ends past its base. -/
theorem lt_of_window_eq_error {m : Misfit} (refused : base.window offset length = .error m) :
    base.length < offset + length := by
  rw [window] at refused
  split at refused
  · cases refused
  · rename_i outside
    have wrapped : wordSum offset length ≤ offset + length := Nat.mod_le ..
    omega

theorem window_of_inside (inside : offset + length ≤ base.length) (fits : base.length < wordCount) :
    base.window offset length = .ok (base.slice offset length) := by
  rw [window_eq_ok_iff, wordSum_eq (by omega)]
  exact ⟨inside, rfl⟩

/-- Over a base that reads as it should and whose length is a word, let a window be asked for. If it
is refused, an invariant is violated and the window does end past its base. If it is accepted and
its end is a word, it lies inside the base and all its reads are reads of the base, with success;
if its end is no word, that comes round to a place inside the base, and one of the reads fails.
Dropping or keeping any number of values asks for a window that is accepted, and leaves as many
values as there are to leave. -/
theorem windows_of_sound (sound : base.Sound) (fits : base.length < wordCount) :
    (∀ offset length, offset < wordCount → length < wordCount →
      (∀ m, base.window offset length = .error m →
        base.length < offset + length ∧ ∃ rest, m.message = "invariant violated" ++ rest) ∧
      ∀ w, base.window offset length = .ok w → w.length = length ∧
        (offset + length < wordCount → offset + length ≤ base.length ∧
          ∀ i, i < length → w.read i = base.read (offset + i) ∧ Succeeds (w.read i)) ∧
        (wordCount ≤ offset + length → offset + length - wordCount ≤ base.length ∧
          ∃ i, i < length ∧ Fails (w.read i))) ∧
    ∀ n,
      (base.window (min n base.length) (base.length - min n base.length) = .ok (base.skip n) ∧
        (base.skip n).length = base.length - n ∧ (base.skip n).Sound) ∧
      (base.window 0 (min n base.length) = .ok (base.truncate n) ∧
        (base.truncate n).length = min base.length n ∧ (base.truncate n).Sound) := by
  refine ⟨?_, ?_⟩
  · intro offset length offset_word length_word
    refine ⟨fun m refused => ⟨lt_of_window_eq_error refused, m.message_eq⟩, ?_⟩
    intro w accepted
    obtain ⟨ends, rfl⟩ := window_eq_ok_iff.mp accepted
    refine ⟨rfl, ?_, ?_⟩
    · intro word
      rw [wordSum_eq word] at ends
      refine ⟨ends, fun i inside => ?_⟩
      rw [read_slice_of_lt inside (by omega)]
      exact ⟨rfl, (sound (offset + i)).mpr (by omega)⟩
    · intro past
      rw [wordSum_of_le offset_word length_word past] at ends
      exact ⟨ends, slice_fails sound fits offset_word past⟩
  · intro n
    refine ⟨⟨?_, rfl, sound.skip n⟩, ⟨?_, Nat.min_comm .., sound.truncate n⟩⟩
    · rw [skip_eq_slice (Nat.le_of_lt fits)]
      exact window_of_inside (by omega) fits
    · rw [truncate_eq_slice (Nat.le_of_lt fits)]
      exact window_of_inside (by omega) fits

/-- The two older of three days can be cut out, and one more cannot. -/
theorem windows_of_sound_three_days :
    let base : Series Nat := ofList [15, 12, 10]
    base.Sound ∧ base.length < wordCount ∧
      (∃ w, base.window 1 2 = .ok w ∧ 1 + 2 ≤ base.length ∧
        ∀ i, i < 2 → w.read i = base.read (1 + i) ∧ Succeeds (w.read i)) ∧
      ∃ m rest, base.window 1 3 = .error m ∧ m.message = "invariant violated" ++ rest := by
  intro base
  have sound : base.Sound := sound_ofList [15, 12, 10]
  have fits : base.length < wordCount := by decide
  obtain ⟨windows, -⟩ := windows_of_sound sound fits
  have accepted : base.window 1 2 = .ok (base.slice 1 2) := window_of_inside (by decide) fits
  have refused : base.window 1 3 = .error (.window 1 4 3) := by rfl
  obtain ⟨-, older⟩ := windows 1 2 (by decide) (by decide)
  obtain ⟨-, inside, -⟩ := older _ accepted
  obtain ⟨rest, message⟩ := ((windows 1 3 (by decide) (by decide)).1 _ refused).2
  exact ⟨sound, fits, ⟨_, accepted, inside (by decide)⟩, _, rest, refused, message⟩

/-- One value is asked for from the largest word on: the end comes round to zero, and the window is
accepted over three values though it ends far outside of them. -/
theorem window_from_largest_word :
    ¬ ∀ (base : Series Float) (offset length : Nat), base.Sound → base.length < wordCount →
      offset < wordCount → length < wordCount →
      (∃ m rest, base.window offset length = .error m ∧
        m.message = "invariant violated" ++ rest) ∨
      ∃ w, base.window offset length = .ok w ∧ offset + length ≤ base.length := by
  intro claim
  let base : Series Float := ofList [3.0, 2.0, 1.0]
  have accepted : base.window (wordCount - 1) 1 = .ok (base.slice (wordCount - 1) 1) := by
    rw [window_eq_ok_iff]
    exact ⟨by decide, rfl⟩
  rcases claim base (wordCount - 1) 1 (sound_ofList _) (by decide) (by decide) (by decide) with
    ⟨m, rest, refused, -⟩ | ⟨w, -, inside⟩
  · cases refused.symm.trans accepted
  · exact absurd inside (by decide)

end Series

end TradingRules
