import Mathlib.Data.List.Basic
import TradingRules.Text.Blank
import TradingRules.Text.Case

/-!
# Text in upper case

The image of a character in upper case is in upper case itself, and it is no comma and no blank
unless the character was the same one. That is a property of the tables: none of the characters that
are images in them has an image of its own, is a comma or is a blank. With a bit set for each
character on either side it is said by two numbers that have no bit in common.
-/

namespace TradingRules.Text

section Bits

/-- One bit for each of some numbers. -/
def bits (ns : List Nat) : Nat := ns.foldr (fun n set => 1 <<< n ||| set) 0

theorem testBit_bits {ns : List Nat} {n : Nat} : (bits ns).testBit n = true ↔ n ∈ ns := by
  induction ns with
  | nil => simp [bits]
  | cons m rest ih =>
    have set : bits (m :: rest) = 1 <<< m ||| bits rest := rfl
    rw [set, Nat.testBit_or, Bool.or_eq_true, ih, Nat.one_shiftLeft, Nat.testBit_two_pow,
      decide_eq_true_eq, List.mem_cons, eq_comm]

theorem not_mem_of_bits {ns ms : List Nat} (apart : bits ns &&& bits ms = 0) {n : Nat}
    (member : n ∈ ns) : n ∉ ms := by
  intro also
  have both : (bits ns &&& bits ms).testBit n = true := by
    rw [Nat.testBit_and, testBit_bits.mpr member, testBit_bits.mpr also]
    rfl
  rw [apart, Nat.zero_testBit] at both
  cases both

end Bits

section Tables

/-- The characters of a run. -/
def CaseRun.members (r : CaseRun) : List Nat :=
  List.range' r.first ((r.last - r.first) / r.stride + 1) r.stride

/-- The images of the characters of a run. -/
def CaseRun.images (r : CaseRun) : List Nat :=
  r.members.map fun c : Nat => ((c : Int) + r.distance).toNat

theorem CaseRun.mem_of_image? {r : CaseRun} {c image : Nat} (found : r.image? c = some image) :
    c ∈ r.members ∧ image ∈ r.images := by
  unfold CaseRun.image? at found
  split at found
  · rename_i inside
    obtain ⟨above, below, step⟩ := inside
    have member : c ∈ r.members := by
      rw [CaseRun.members, List.mem_range']
      refine ⟨(c - r.first) / r.stride, ?_, ?_⟩
      · have nearer : (c - r.first) / r.stride ≤ (r.last - r.first) / r.stride :=
          Nat.div_le_div_right (by omega)
        omega
      · have whole := Nat.div_add_mod (c - r.first) r.stride
        omega
    obtain rfl := Option.some.inj found
    exact ⟨member, List.mem_map_of_mem member⟩
  · cases found

/-- The characters with an image of their own, the comma and the blanks. -/
def reserved : List Nat :=
  upperRuns.flatMap CaseRun.members ++ upperExpansions.map (·.1) ++ [','.toNat] ++
    blankRanges.flatMap fun (first, last) => List.range' first (last - first + 1)

/-- The characters that are images. -/
def upperImages : List Nat :=
  upperRuns.flatMap CaseRun.images ++ upperExpansions.flatMap (·.2)

theorem upperImages_apart : bits upperImages &&& bits reserved = 0 := by decide +kernel

theorem upperImages_valid : ∀ n ∈ upperImages, n.isValidChar := by decide +kernel

/-- The images are characters. -/
theorem toNat_of_mem_upperImages {n : Nat} (image : n ∈ upperImages) :
    (Char.ofNat n).toNat = n := by
  rw [Char.ofNat, dif_pos (upperImages_valid n image)]
  rfl

theorem upperExpansions_filled : ∀ e ∈ upperExpansions, e.2 ≠ [] := by decide

theorem toNat_mem_reserved {c : Char} (kept : c = ',' ∨ isBlank c = true) :
    c.toNat ∈ reserved := by
  unfold reserved
  rcases kept with rfl | blank
  · apply List.mem_append_left
    exact List.mem_append_right _ List.mem_cons_self
  · obtain ⟨⟨first, last⟩, range, inside⟩ := List.any_eq_true.mp blank
    apply List.mem_append_right
    apply List.mem_flatMap.mpr
    simp only [Bool.and_eq_true, decide_eq_true_eq] at inside
    refine ⟨(first, last), range, ?_⟩
    rw [List.mem_range'_1]
    omega

end Tables

section Characters

variable {c d : Char}

/-- The letters without an accent are in the first run. -/
theorem image?_of_letter {n : Nat} (letter : 97 ≤ n ∧ n ≤ 122) :
    ∃ r ∈ upperRuns, r.image? n = some (n - 32) := by
  refine ⟨⟨0x61, 0x7A, 1, -32⟩, .head _, ?_⟩
  rw [CaseRun.image?, if_pos ⟨letter.1, letter.2, Nat.mod_one _⟩]
  change some ((n : Int) + -32).toNat = some (n - 32)
  congr 1
  omega

theorem toUpper_ascii : ∀ n < 128, (Char.ofNat n).toUpper =
    if 97 ≤ n ∧ n ≤ 122 then Char.ofNat (n - 32) else Char.ofNat n := by
  decide

theorem toUpper_of_isAscii (ascii : isAscii c = true) :
    c.toUpper = if 97 ≤ c.toNat ∧ c.toNat ≤ 122 then Char.ofNat (c.toNat - 32) else c := by
  have image := toUpper_ascii c.toNat (of_decide_eq_true ascii)
  rwa [Char.ofNat_toNat] at image

/-- Images that the tables have for a character. -/
structure Tabled (c : Char) (images : List Char) : Prop where
  kept : c.toNat ∈ reserved
  filled : images ≠ []
  among : ∀ d ∈ images, ∃ n ∈ upperImages, d = Char.ofNat n

theorem tabled_of_run {r : CaseRun} {n : Nat} (listed : r ∈ upperRuns)
    (found : r.image? c.toNat = some n) : Tabled c [Char.ofNat n] := by
  obtain ⟨member, image⟩ := CaseRun.mem_of_image? found
  constructor
  · apply List.mem_append_left
    apply List.mem_append_left
    apply List.mem_append_left
    exact List.mem_flatMap.mpr ⟨r, listed, member⟩
  · exact List.cons_ne_nil _ _
  · intro d only
    refine ⟨n, ?_, List.mem_singleton.mp only⟩
    apply List.mem_append_left
    exact List.mem_flatMap.mpr ⟨r, listed, image⟩

theorem tabled_of_expansion {images : List Nat}
    (looked : upperExpansions.lookup c.toNat = some images) :
    Tabled c (images.map Char.ofNat) := by
  have entry : (c.toNat, images) ∈ upperExpansions := by
    obtain ⟨before, after, table, -⟩ := List.lookup_eq_some_iff.mp looked
    rw [table]
    exact List.mem_append_right before List.mem_cons_self
  constructor
  · apply List.mem_append_left
    apply List.mem_append_left
    apply List.mem_append_right
    exact List.mem_map_of_mem entry
  · exact mt List.map_eq_nil_iff.mp (upperExpansions_filled _ entry)
  · intro d member
    obtain ⟨n, image, rfl⟩ := List.mem_map.mp member
    refine ⟨n, ?_, rfl⟩
    apply List.mem_append_right
    exact List.mem_flatMap.mpr ⟨_, entry, image⟩

/-- A character is its own image, or the tables have its images. -/
theorem upperChar_cases (c : Char) : upperChar c = [c] ∨ Tabled c (upperChar c) := by
  by_cases ascii : isAscii c = true
  · rw [upperChar, if_pos ascii, toUpper_of_isAscii ascii]
    by_cases letter : 97 ≤ c.toNat ∧ c.toNat ≤ 122
    · right
      obtain ⟨r, listed, found⟩ := image?_of_letter letter
      rw [if_pos letter]
      exact tabled_of_run listed found
    · left
      rw [if_neg letter]
  · rw [upperChar, if_neg ascii, mapped]
    split
    · rename_i images looked
      exact .inr (tabled_of_expansion looked)
    · split
      · rename_i image found
        obtain ⟨r, listed, found⟩ := List.exists_of_findSome?_eq_some found
        exact .inr (tabled_of_run listed found)
      · exact .inl rfl

theorem upperChar_ne_nil (c : Char) : upperChar c ≠ [] := by
  rcases upperChar_cases c with same | tabled
  · rw [same]
    exact List.cons_ne_nil c []
  · exact tabled.filled

theorem upperChar_of_not_reserved (free : c.toNat ∉ reserved) : upperChar c = [c] := by
  rcases upperChar_cases c with same | tabled
  · exact same
  · exact absurd tabled.kept free

/-- What a character becomes is that character and nothing else, or one that the tables leave
alone. -/
theorem eq_or_not_reserved (member : d ∈ upperChar c) :
    upperChar c = [c] ∧ d = c ∨ d.toNat ∉ reserved := by
  rcases upperChar_cases c with same | tabled
  · rw [same] at member
    exact .inl ⟨same, List.mem_singleton.mp member⟩
  · right
    obtain ⟨n, image, rfl⟩ := tabled.among d member
    rw [toNat_of_mem_upperImages image]
    exact not_mem_of_bits upperImages_apart image

/-- A character in upper case stays what it is. -/
theorem upperChar_of_mem (member : d ∈ upperChar c) : upperChar d = [d] := by
  rcases eq_or_not_reserved member with ⟨same, rfl⟩ | free
  · exact same
  · exact upperChar_of_not_reserved free

end Characters

section Texts

variable {cs : List Char} {d : Char}

theorem upper_upper (cs : List Char) : upper (upper cs) = upper cs := by
  have settled : ∀ c ∈ cs, (upperChar c).flatMap upperChar = upperChar c := by
    intro c _
    rw [List.flatMap_congr fun d member => upperChar_of_mem member, List.flatMap_singleton']
  rw [upper, upper, List.flatMap_assoc]
  exact List.flatMap_congr settled

/-- Commas and blanks in upper-case text were there before. -/
theorem mem_of_mem_upper (member : d ∈ upper cs) (kept : d = ',' ∨ isBlank d = true) :
    d ∈ cs := by
  obtain ⟨c, present, image⟩ := List.mem_flatMap.mp member
  rcases eq_or_not_reserved image with ⟨-, rfl⟩ | free
  · exact present
  · exact absurd (toNat_mem_reserved kept) free

theorem upper_append (cs ds : List Char) : upper (cs ++ ds) = upper cs ++ upper ds :=
  List.flatMap_append

theorem upper_eq_nil_iff : upper cs = [] ↔ cs = [] := by
  constructor
  · intro empty
    cases cs with
    | nil => rfl
    | cons c rest =>
      have first : upperChar c = [] := List.flatMap_eq_nil_iff.mp empty c List.mem_cons_self
      exact absurd first (upperChar_ne_nil c)
  · rintro rfl
    rfl

/-- A character that is not blank becomes none that is. -/
theorem isBlank_of_mem_upperChar {c : Char} (filled : isBlank c = false)
    (member : d ∈ upperChar c) : isBlank d = false := by
  rw [Bool.eq_false_iff]
  intro blank
  rcases eq_or_not_reserved member with ⟨-, rfl⟩ | free
  · rw [filled] at blank
    cases blank
  · exact free (toNat_mem_reserved (.inr blank))

/-- No blank comes to the ends of a text in upper case. -/
theorem Bare.upper (bare : Bare cs) : Bare (upper cs) := by
  constructor
  · intro d first
    cases cs with
    | nil => cases first
    | cons c rest =>
      have member : d ∈ upperChar c := by
        rw [Text.upper, List.flatMap_cons,
          List.head?_append_of_ne_nil _ (upperChar_ne_nil c)] at first
        exact List.mem_of_mem_head? first
      exact isBlank_of_mem_upperChar (bare.first c rfl) member
  · intro d last
    rcases List.eq_nil_or_concat cs with rfl | ⟨before, c, rfl⟩
    · cases last
    · have member : d ∈ upperChar c := by
        rw [List.concat_eq_append, upper_append, List.getLast?_append_of_ne_nil] at last
        · rw [Text.upper, List.flatMap_singleton] at last
          exact List.mem_of_getLast? last
        · exact mt upper_eq_nil_iff.mp (List.cons_ne_nil c [])
      exact isBlank_of_mem_upperChar (bare.last c (by simp)) member

end Texts

end TradingRules.Text
