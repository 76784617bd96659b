/-!
# Blank characters

The characters with the property White_Space, and text without them at its ends.
-/

namespace TradingRules.Text

/-- The ranges of White_Space, in order. -/
def blankRanges : List (Nat × Nat) :=
  [(0x9, 0xD), (0x20, 0x20), (0x85, 0x85), (0xA0, 0xA0), (0x1680, 0x1680), (0x2000, 0x200A),
   (0x2028, 0x2029), (0x202F, 0x202F), (0x205F, 0x205F), (0x3000, 0x3000)]

def isBlank (c : Char) : Bool :=
  blankRanges.any fun (first, last) => first ≤ c.toNat && c.toNat ≤ last

def trimLeft (cs : List Char) : List Char :=
  cs.dropWhile isBlank

def trimRight (cs : List Char) : List Char :=
  (trimLeft cs.reverse).reverse

def trim (cs : List Char) : List Char :=
  trimRight (trimLeft cs)

/-- The text without the blanks at its ends. -/
def trimmed (s : String) : String :=
  String.ofList (trim s.toList)

/-- Text with no blank at either end. -/
structure Bare (cs : List Char) : Prop where
  first : ∀ c ∈ cs.head?, isBlank c = false
  last : ∀ c ∈ cs.getLast?, isBlank c = false

theorem trimLeft_first {cs : List Char} : ∀ c ∈ (trimLeft cs).head?, isBlank c = false := by
  intro c first
  have filled := List.head?_dropWhile_not isBlank cs
  unfold trimLeft at first
  rw [Option.mem_def.mp first] at filled
  exact filled

theorem trimLeft_of_first {cs : List Char} (first : ∀ c ∈ cs.head?, isBlank c = false) :
    trimLeft cs = cs := by
  cases cs with
  | nil => rfl
  | cons c rest =>
    have filled : ¬ isBlank c = true := by
      rw [first c rfl]
      exact Bool.false_ne_true
    exact List.dropWhile_cons_of_neg filled

theorem trimRight_initial (cs : List Char) : trimRight cs <+: cs := by
  rw [← List.reverse_suffix, trimRight, List.reverse_reverse]
  exact List.dropWhile_suffix isBlank

theorem bare_trim (cs : List Char) : Bare (trim cs) := by
  constructor
  · intro c first
    obtain ⟨after, whole⟩ := trimRight_initial (trimLeft cs)
    unfold trim at first
    apply trimLeft_first c
    rw [← whole, List.head?_append, Option.mem_def.mp first]
    rfl
  · intro c last
    unfold trim trimRight at last
    rw [List.getLast?_reverse] at last
    exact trimLeft_first c last

theorem Bare.trim_eq {cs : List Char} (bare : Bare cs) : trim cs = cs := by
  have last : ∀ c ∈ cs.reverse.head?, isBlank c = false := by
    rw [List.head?_reverse]
    exact bare.last
  rw [trim, trimLeft_of_first bare.first, trimRight, trimLeft_of_first last, List.reverse_reverse]

theorem mem_of_mem_trim {cs : List Char} {c : Char} (member : c ∈ trim cs) : c ∈ cs :=
  (List.dropWhile_suffix isBlank).subset ((trimRight_initial _).subset member)

end TradingRules.Text
