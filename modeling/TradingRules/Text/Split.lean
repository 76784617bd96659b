/-!
# Pieces of text
-/

namespace TradingRules.Text

/-- The pieces between the occurrences of a separator; always at least one. -/
def pieces (separator : Char) : List Char → List (List Char)
  | [] => [[]]
  | c :: rest =>
    if c = separator then [] :: pieces separator rest
    else
      match pieces separator rest with
      | [] => [[c]]
      | piece :: more => (c :: piece) :: more

theorem pieces_ne_nil (separator : Char) (cs : List Char) : pieces separator cs ≠ [] := by
  cases cs with
  | nil => simp [pieces]
  | cons c rest =>
    unfold pieces
    split
    · simp
    · split <;> simp

theorem pieces_eq_splitOn (separator : Char) (cs : List Char) :
    pieces separator cs = cs.splitOn separator := by
  induction cs with
  | nil => rfl
  | cons c rest ih =>
    rw [List.splitOn_cons_eq_if_modifyHead, ← ih]
    by_cases same : c = separator
    · simp [pieces, same]
    · cases more : pieces separator rest with
      | nil => exact absurd more (pieces_ne_nil separator rest)
      | cons piece others => simp [pieces, same, more]

theorem separator_not_mem_piece {separator : Char} {cs piece : List Char}
    (member : piece ∈ pieces separator cs) : separator ∉ piece := by
  induction cs generalizing piece with
  | nil =>
    obtain rfl := List.mem_singleton.mp member
    exact List.not_mem_nil
  | cons c rest ih =>
    unfold pieces at member
    split at member
    · rcases List.mem_cons.mp member with rfl | later
      · exact List.not_mem_nil
      · exact ih later
    · rename_i other
      split at member
      · obtain rfl := List.mem_singleton.mp member
        simp [Ne.symm other]
      · rename_i first others split
        rcases List.mem_cons.mp member with rfl | later
        · have free : separator ∉ first := ih (by rw [split]; exact List.mem_cons_self)
          simp [Ne.symm other, free]
        · exact ih (by rw [split]; exact List.mem_cons_of_mem first later)

end TradingRules.Text
