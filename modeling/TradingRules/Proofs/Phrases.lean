import Mathlib.Data.List.TakeWhile

/-!
# Phrases

What expressions are written as: a word, or a name with phrases in brackets behind it and separators
between them. Words, brackets and separators have different characters, and no two words and no two
separators follow one another. So a phrase can be read off its text in one way only, also where
more text comes behind it.
-/

namespace TradingRules.Printed

/-- The characters of words. -/
def wordCharacter (c : Char) : Bool := c.isAlphanum || c == '_' || c == '.' || c == '-'

def isWord (s : String) : Bool := s ≠ "" && s.toList.all wordCharacter

theorem isWord_iff {s : String} :
    isWord s = true ↔ s ≠ "" ∧ ∀ c ∈ s.toList, wordCharacter c = true := by
  rw [isWord, Bool.and_eq_true, decide_eq_true_iff, List.all_eq_true]

structure Word where
  text : String
  whole : isWord text = true

theorem Word.filled (w : Word) : w.text ≠ "" := (isWord_iff.mp w.whole).1

theorem Word.spelled (w : Word) : ∀ c ∈ w.text.toList, wordCharacter c = true :=
  (isWord_iff.mp w.whole).2

theorem Word.ext {v w : Word} (same : v.text = w.text) : v = w := by
  cases v
  cases w
  cases same
  rfl

inductive Separator where
  | comma
  | spacedComma
  | atLeast
  | atMost

def Separator.text : Separator → List Char
  | comma => [',']
  | spacedComma => [',', ' ']
  | atLeast => [' ', '>', '=', ' ']
  | atMost => [' ', '<', '=', ' ']

/-- The characters of separators. -/
def separatorCharacter (c : Char) : Bool := c == ',' || c == ' ' || c == '<' || c == '>' || c == '='

mutual

inductive Phrase where
  | word (w : Word)
  | call (name : Word) (args : Args)

/-- What is in brackets. -/
inductive Args where
  | none
  | first (p : Phrase) (rest : Rest)

/-- What is behind the first phrase in brackets. -/
inductive Rest where
  | done
  | next (s : Separator) (p : Phrase) (rest : Rest)

end

mutual

def Phrase.print : Phrase → List Char
  | .word w => w.text.toList
  | .call name args => name.text.toList ++ '(' :: args.print

def Args.print : Args → List Char
  | .none => [')']
  | .first p rest => p.print ++ rest.print

def Rest.print : Rest → List Char
  | .done => [')']
  | .next s p rest => s.text ++ (p.print ++ rest.print)

end

section Characters

theorem separator_text_inj {r s : Separator} (same : r.text = s.text) : r = s := by
  cases r <;> cases s <;> first | rfl | cases same

theorem separator_characters (s : Separator) : ∀ c ∈ s.text, separatorCharacter c = true := by
  cases s <;> exact List.all_eq_true.mp rfl

theorem separator_head (s : Separator) :
    ∃ c cs, s.text = c :: cs ∧ separatorCharacter c = true := by
  cases s <;> exact ⟨_, _, rfl, rfl⟩

/-- No character is in words and in separators as well. -/
theorem not_separator_of_word {c : Char} (word : wordCharacter c = true) :
    separatorCharacter c = false := by
  rw [Bool.eq_false_iff]
  intro separator
  simp only [separatorCharacter, Bool.or_eq_true, beq_iff_eq] at separator
  rcases separator with (((rfl | rfl) | rfl) | rfl) | rfl <;> cases word

theorem not_word_of_separator {c : Char} (separator : separatorCharacter c = true) :
    wordCharacter c = false := by
  rw [Bool.eq_false_iff]
  intro word
  rw [not_separator_of_word word] at separator
  cases separator

end Characters

/-- Text that no phrase goes on into: it begins with no character of a word and no bracket that
opens. -/
def Ends (s : List Char) : Prop := ∀ c ∈ s.head?, wordCharacter c = false ∧ c ≠ '('

/-- Two runs of characters of one kind, each up to the first that is not of that kind. -/
theorem span_inj {kind : Char → Bool} {xs ys s t : List Char} (left : ∀ c ∈ xs, kind c = true)
    (right : ∀ c ∈ ys, kind c = true) (left_ends : ∀ c ∈ s.head?, kind c = false)
    (right_ends : ∀ c ∈ t.head?, kind c = false) (same : xs ++ s = ys ++ t) :
    xs = ys ∧ s = t := by
  have run {zs u : List Char} (all : ∀ c ∈ zs, kind c = true)
      (ends : ∀ c ∈ u.head?, kind c = false) : (zs ++ u).takeWhile kind = zs := by
    rw [List.takeWhile_append_of_pos all]
    cases u with
    | nil => rw [List.takeWhile_nil, List.append_nil]
    | cons c rest =>
      rw [List.takeWhile_cons, ends c rfl]
      exact List.append_nil zs
  have runs : xs = ys := by
    rw [← run left left_ends, same, run right right_ends]
  subst runs
  exact ⟨rfl, List.append_cancel_left same⟩

theorem print_head (p : Phrase) : ∃ c cs, p.print = c :: cs ∧ wordCharacter c = true := by
  have head (w : Word) (s : List Char) :
      ∃ c cs, w.text.toList ++ s = c :: cs ∧ wordCharacter c = true := by
    cases chars : w.text.toList with
    | nil => exact absurd (String.toList_eq_nil_iff.mp chars) w.filled
    | cons c cs =>
      refine ⟨c, cs ++ s, rfl, w.spelled c ?_⟩
      rw [chars]
      exact List.mem_cons_self
  cases p with
  | word w =>
    obtain ⟨c, cs, chars, word⟩ := head w []
    rw [List.append_nil] at chars
    rw [Phrase.print]
    exact ⟨c, cs, chars, word⟩
  | call name args =>
    rw [Phrase.print]
    exact head name _

/-- A phrase behind a bracket or a separator begins with a word. -/
theorem print_starts (p : Phrase) (s : List Char) {c : Char} (first : c ∈ (p.print ++ s).head?) :
    wordCharacter c = true := by
  obtain ⟨d, cs, chars, word⟩ := print_head p
  rw [chars] at first
  cases first
  exact word

theorem rest_ends (r : Rest) (s : List Char) : Ends (r.print ++ s) := by
  intro c first
  cases r with
  | done =>
    rw [Rest.print] at first
    cases first
    decide
  | next separator p rest =>
    obtain ⟨d, cs, chars, marks⟩ := separator_head separator
    rw [Rest.print, chars] at first
    cases first
    refine ⟨not_word_of_separator marks, ?_⟩
    rintro rfl
    cases marks

mutual

/-- A phrase is known by its text, and where it ends is known from what comes behind it. -/
theorem print_append_inj : (p q : Phrase) → {s t : List Char} → Ends s → Ends t →
    p.print ++ s = q.print ++ t → p = q ∧ s = t
  | .word v, .word w, s, t, s_ends, t_ends, same => by
    obtain ⟨texts, rests⟩ := span_inj v.spelled w.spelled (fun c first => (s_ends c first).1)
      (fun c first => (t_ends c first).1) same
    obtain rfl := Word.ext (String.toList_inj.mp texts)
    exact ⟨rfl, rests⟩
  | .word v, .call name args, s, t, s_ends, t_ends, same => by
    rw [Phrase.print, Phrase.print, List.append_assoc] at same
    obtain ⟨-, rfl⟩ := span_inj v.spelled name.spelled (fun c first => (s_ends c first).1)
      (by rintro c ⟨⟩; rfl) same
    exact absurd rfl (s_ends '(' rfl).2
  | .call name args, .word v, s, t, s_ends, t_ends, same => by
    rw [Phrase.print, Phrase.print, List.append_assoc] at same
    obtain ⟨-, rfl⟩ := span_inj name.spelled v.spelled (by rintro c ⟨⟩; rfl)
      (fun c first => (t_ends c first).1) same
    exact absurd rfl (t_ends '(' rfl).2
  | .call name args, .call name' args', s, t, s_ends, t_ends, same => by
    rw [Phrase.print, Phrase.print, List.append_assoc, List.append_assoc] at same
    obtain ⟨names, brackets⟩ := span_inj name.spelled name'.spelled (by rintro c ⟨⟩; rfl)
      (by rintro c ⟨⟩; rfl) same
    obtain rfl := Word.ext (String.toList_inj.mp names)
    obtain ⟨rfl, rests⟩ := args_append_inj args args' (List.cons.inj brackets).2
    exact ⟨rfl, rests⟩

theorem args_append_inj : (a b : Args) → {s t : List Char} →
    a.print ++ s = b.print ++ t → a = b ∧ s = t
  | .none, .none, s, t, same => ⟨rfl, (List.cons.inj same).2⟩
  | .none, .first p rest, s, t, same => by
    rw [Args.print, Args.print, List.append_assoc] at same
    have closing : ')' ∈ (p.print ++ (rest.print ++ t)).head? := by
      rw [← same]
      rfl
    exact absurd (print_starts p _ closing) (by decide)
  | .first p rest, .none, s, t, same => by
    rw [Args.print, Args.print, List.append_assoc] at same
    have closing : ')' ∈ (p.print ++ (rest.print ++ s)).head? := by
      rw [same]
      rfl
    exact absurd (print_starts p _ closing) (by decide)
  | .first p rest, .first q rest', s, t, same => by
    rw [Args.print, Args.print, List.append_assoc, List.append_assoc] at same
    obtain ⟨rfl, others⟩ := print_append_inj p q (rest_ends rest s) (rest_ends rest' t) same
    obtain ⟨rfl, rests⟩ := rest_append_inj rest rest' others
    exact ⟨rfl, rests⟩

theorem rest_append_inj : (a b : Rest) → {s t : List Char} →
    a.print ++ s = b.print ++ t → a = b ∧ s = t
  | .done, .done, s, t, same => ⟨rfl, (List.cons.inj same).2⟩
  | .done, .next separator p rest, s, t, same => by
    obtain ⟨c, cs, chars, marks⟩ := separator_head separator
    rw [Rest.print, Rest.print, chars] at same
    cases same
    cases marks
  | .next separator p rest, .done, s, t, same => by
    obtain ⟨c, cs, chars, marks⟩ := separator_head separator
    rw [Rest.print, Rest.print, chars] at same
    cases same
    cases marks
  | .next separator p rest, .next separator' q rest', s, t, same => by
    rw [Rest.print, Rest.print, List.append_assoc, List.append_assoc, List.append_assoc,
      List.append_assoc] at same
    obtain ⟨marks, others⟩ := span_inj (separator_characters separator)
      (separator_characters separator')
      (fun c first => not_separator_of_word (print_starts p _ first))
      (fun c first => not_separator_of_word (print_starts q _ first)) same
    obtain rfl := separator_text_inj marks
    obtain ⟨rfl, behind⟩ := print_append_inj p q (rest_ends rest s) (rest_ends rest' t) others
    obtain ⟨rfl, rests⟩ := rest_append_inj rest rest' behind
    exact ⟨rfl, rests⟩

end

/-- Different phrases have different texts. -/
theorem phrase_eq_of_text_eq {p q : Phrase} {s t : String} (left : p.print = s.toList)
    (right : q.print = t.toList) (same : s = t) : p = q := by
  have ends : Ends [] := by rintro c ⟨⟩
  apply (print_append_inj p q ends ends _).1
  rw [left, right, same]

end TradingRules.Printed
