import Mathlib.Data.List.Basic
import Mathlib.Data.List.TakeWhile
import TradingRules.Proofs.Results
import TradingRules.Settings

/-!
# Adding to the text of settings

The last value of a key is the one it has. So lines that are added at the end of a settings text set
the keys they name, whatever the text says about them before, and leave every other key as it was.
-/

namespace TradingRules

namespace Text

theorem pieces_append {separator : Char} (before after : List Char) :
    pieces separator (before ++ separator :: after) =
      pieces separator before ++ pieces separator after := by
  simp only [pieces_eq_splitOn, List.splitOn]
  exact List.splitOnP_append_cons before after (beq_self_eq_true separator)

theorem pieces_of_not_mem {separator : Char} {cs : List Char} (free : separator ∉ cs) :
    pieces separator cs = [cs] := by
  induction cs with
  | nil => rfl
  | cons c rest ih =>
    rw [List.mem_cons, not_or] at free
    obtain ⟨other, others⟩ := free
    rw [pieces, if_neg (Ne.symm other), ih others]

end Text

namespace Ini

open Text

/-- A value that a line of settings text leaves as it is. -/
structure Kept (value : List Char) : Prop where
  filled : value ≠ []
  bare : Bare value
  uncut : ∀ c ∈ value, c ≠ '\n' ∧ startsComment c = false

/-- A settings text with the symbols set to a value at its end. -/
def withSymbols (text value : String) : String :=
  text ++ "\n[backtest]\nsymbols = " ++ value ++ "\n"

/-- The entry that the added lines make. -/
def symbolsEntry (value : String) : IniEntry := ⟨"backtest", "symbols", some value⟩

variable {value : List Char} {text : String} {ini : Ini}

theorem readLine_symbols (kept : Kept value) (number : Nat) :
    readLine number ("symbols = ".toList ++ value) =
      .ok (.entry "symbols" (some (String.ofList value))) := by
  have bare : Bare ("symbols = ".toList ++ value) := by
    constructor
    · rintro c ⟨⟩
      rfl
    · intro c last
      rw [List.getLast?_append_of_ne_nil _ kept.filled] at last
      exact kept.bare.last c last
  have uncut : ("symbols = ".toList ++ value).takeWhile (!startsComment ·) =
      "symbols = ".toList ++ value := by
    rw [List.takeWhile_append_of_pos (List.all_eq_true.mp rfl)]
    congr 1
    rw [List.takeWhile_eq_self_iff]
    intro c member
    rw [(kept.uncut c member).2]
    rfl
  have blank : trim (' ' :: value) = value := by
    have left : trimLeft (' ' :: value) = value := trimLeft_of_first kept.bare.first
    have right : trimLeft value = value := trimLeft_of_first kept.bare.first
    have whole := kept.bare.trim_eq
    rw [trim, right] at whole
    rw [trim, left, whole]
  have content : trim ((trim ("symbols = ".toList ++ value)).takeWhile (!startsComment ·)) =
      "symbols = ".toList ++ value := by
    rw [bare.trim_eq, uncut, bare.trim_eq]
  unfold readLine
  rw [content]
  change Except.ok (Line.entry "symbols" (some (String.ofList (trim (' ' :: value))))) = _
  rw [blank]

/-- The added lines are read after all others. -/
theorem readLines_append (kept : Kept value) (group : String) (number : Nat)
    (lines : List (List Char)) :
    readLines group number
        (lines ++ ["[backtest]".toList, "symbols = ".toList ++ value, []]) =
      (readLines group number lines).map (· ++ [symbolsEntry (String.ofList value)]) := by
  induction lines generalizing group number with
  | nil =>
    have heading : readLine number "[backtest]".toList = .ok (.group "backtest") := by rfl
    have blank : readLine (number + 2) [] = .ok .blank := by rfl
    simp only [List.nil_append, readLines, heading, readLine_symbols kept, blank, ok_bind]
    rfl
  | cons l rest ih =>
    rw [List.cons_append, readLines, readLines]
    cases readLine number l with
    | error fault => rfl
    | ok line =>
      cases line with
      | blank => exact ih group (number + 1)
      | group name => exact ih name (number + 1)
      | entry key value =>
        simp only [ok_bind, ih, pure_eq_ok]
        cases readLines group (number + 1) rest <;> rfl

theorem parse_withSymbols (parsed : parse text = .ok ini) (kept : Kept value) :
    parse (withSymbols text (String.ofList value)) =
      .ok (ini ++ [symbolsEntry (String.ofList value)]) := by
  have one_line : pieces '\n' ("symbols = ".toList ++ value) = ["symbols = ".toList ++ value] := by
    apply pieces_of_not_mem
    rw [List.mem_append]
    rintro (member | member)
    · exact absurd member (by decide)
    · exact (kept.uncut '\n' member).1 rfl
  have split : (withSymbols text (String.ofList value)).toList =
      text.toList ++ '\n' :: ("[backtest]".toList ++ '\n' :: ("symbols = ".toList ++ value ++
        '\n' :: [])) := by
    have lines : "\n[backtest]\nsymbols = ".toList =
        '\n' :: ("[backtest]".toList ++ '\n' :: "symbols = ".toList) := by rfl
    simp only [withSymbols, String.toList_append, String.toList_ofList, lines]
    simp
  rw [parse, split, pieces_append, pieces_append, pieces_append, one_line]
  change readLines defaultGroup 1 (pieces '\n' text.toList ++
    ["[backtest]".toList, "symbols = ".toList ++ value, []]) = _
  rw [readLines_append kept]
  rw [parse] at parsed
  rw [parsed]
  rfl

theorem get?_concat (ini : Ini) (e : IniEntry) (group key : String) :
    (ini ++ [e]).get? group key =
      if e.group = lowercase group ∧ e.key = lowercase key then e.value
      else ini.get? group key := by
  unfold get?
  simp only [List.reverse_append, List.reverse_singleton, List.singleton_append, List.find?_cons]
  by_cases named : e.group = lowercase group ∧ e.key = lowercase key
  · rw [if_pos named, named.1, named.2]
    simp
  · rw [if_neg named]
    have other : (e.group == lowercase group && e.key == lowercase key) = false := by
      simpa using named
    rw [other]

/-- Settings that are those of another text but for the symbols, which have the given value. -/
structure Relisted (ini relisted : Ini) (value : String) : Prop where
  set : relisted.get? "backtest" "symbols" = some value
  rest : ∀ group key, ¬ (lowercase group = "backtest" ∧ lowercase key = "symbols") →
    relisted.get? group key = ini.get? group key

theorem relisted_concat (ini : Ini) (value : String) :
    Relisted ini (ini ++ [symbolsEntry value]) value := by
  constructor
  · have names : "backtest" = lowercase "backtest" ∧ "symbols" = lowercase "symbols" := by decide
    rw [get?_concat]
    exact if_pos names
  · intro group key other
    rw [get?_concat, if_neg]
    rintro ⟨same_group, same_key⟩
    exact other ⟨same_group.symm, same_key.symm⟩

end Ini

end TradingRules
