import Mathlib.Data.List.Nodup
import Mathlib.Data.List.TakeWhile
import TradingRules.Proofs.Results
import TradingRules.Proofs.UpperCase
import TradingRules.Symbols

/-!
# What a list of symbols is read as

A list is its tokens, the text between its commas. It is read as the symbols of its tokens, in their
order, if none of them is blank and no two stand for one symbol; otherwise the first token that is
blank, or stands for the symbol of a token before it, is the fault. Nothing is assumed of the text,
nor of the tables of upper case.

A list of symbols that was read is a list of itself: no symbol has a comma or a blank at its ends,
and each is in upper case already.
-/

namespace TradingRules

namespace Text

theorem trim_eq_nil_iff {cs : List Char} : trim cs = [] ↔ ∀ c ∈ cs, isBlank c = true := by
  constructor
  · intro empty
    have right : ∀ c ∈ (trimLeft cs).reverse, isBlank c = true :=
      List.dropWhile_eq_nil_iff.mp (List.reverse_eq_nil_iff.mp empty)
    have left : trimLeft cs = [] := by
      cases rest : trimLeft cs with
      | nil => rfl
      | cons c others =>
        have filled : isBlank c = false := trimLeft_first c (by rw [rest]; rfl)
        have blank : isBlank c = true := right c (by simp [rest])
        rw [filled] at blank
        cases blank
    exact List.dropWhile_eq_nil_iff.mp left
  · intro blank
    have left : trimLeft cs = [] := List.dropWhile_eq_nil_iff.mpr blank
    rw [trim, left]
    rfl

end Text

namespace Symbols

open Text

/-- The text between the commas of a list. -/
def tokens (s : String) : List (List Char) := pieces ',' s.toList

/-- There is nothing in a piece of text but blanks. -/
def Blank (piece : List Char) : Prop := ∀ c ∈ piece, isBlank c = true

instance (piece : List Char) : Decidable (Blank piece) :=
  decidable_of_iff (piece.all isBlank = true) List.all_eq_true

/-- Pieces that stand for symbols, no two for the same. -/
structure Usable (pieces : List (List Char)) : Prop where
  filled : ∀ piece ∈ pieces, ¬ Blank piece
  distinct : (pieces.map fun piece => String.ofList (upper (trim piece))).Nodup

/-- A piece with which a list of symbols cannot go on after some others. -/
inductive Offends (earlier : List (List Char)) (piece : List Char) : SymbolFault → Prop
  | blank (nothing : Blank piece) : Offends earlier piece .emptyToken
  | repeated (filled : ¬ Blank piece)
      (known : ∃ other ∈ earlier, upper (trim other) = upper (trim piece)) :
      Offends earlier piece (.duplicate (.ofList (upper (trim piece))))

section Tokens

/-- Tokens are all there is between the commas, and there is no comma in them. -/
theorem intercalate_tokens (s : String) :
    [','].intercalate (tokens s) = s.toList ∧ ∀ token ∈ tokens s, ',' ∉ token := by
  constructor
  · rw [tokens, pieces_eq_splitOn, List.intercalate_splitOn]
  · intro token member
    exact separator_not_mem_piece member

/-- Texts without commas are the tokens of what they are joined to. -/
theorem tokens_intercalate {list : List String} (something : list ≠ [])
    (free : ∀ s ∈ list, ',' ∉ s.toList) :
    tokens (",".intercalate list) = list.map String.toList := by
  have joined : (",".intercalate list).toList = [','].intercalate (list.map String.toList) :=
    String.toList_intercalate
  rw [tokens, pieces_eq_splitOn, joined]
  apply List.splitOn_intercalate
  · intro piece member
    obtain ⟨s, listed, rfl⟩ := List.mem_map.mp member
    exact free s listed
  · intro none
    exact something (List.map_eq_nil_iff.mp none)

end Tokens

section Reading

variable {earlier pieces before after : List (List Char)} {piece : List Char} {fault : SymbolFault}

theorem normal_inj {other : List Char} :
    normal other = normal piece ↔ upper (trim other) = upper (trim piece) :=
  String.ofList_inj

theorem isEmpty_trim : (trim piece).isEmpty = true ↔ Blank piece := by
  rw [List.isEmpty_iff, trim_eq_nil_iff, Blank]

theorem usable_iff :
    Usable pieces ↔ (∀ piece ∈ pieces, ¬ Blank piece) ∧ (pieces.map normal).Nodup :=
  ⟨fun ⟨filled, distinct⟩ => ⟨filled, distinct⟩, fun ⟨filled, distinct⟩ => ⟨filled, distinct⟩⟩

theorem usable_nil : Usable [] := by
  constructor
  · intro piece member
    cases member
  · exact List.nodup_nil

theorem usable_concat_iff : Usable (earlier ++ [piece]) ↔
    Usable earlier ∧ ¬ Blank piece ∧ normal piece ∉ earlier.map normal := by
  constructor
  · rintro ⟨filled, distinct⟩
    rw [List.map_append, List.map_singleton, List.nodup_append_comm] at distinct
    obtain ⟨fresh, others⟩ := List.nodup_cons.mp distinct
    refine ⟨⟨?_, others⟩, ?_, fresh⟩
    · intro other member
      exact filled other (List.mem_append_left _ member)
    · exact filled piece (List.mem_append_right _ List.mem_cons_self)
  · rintro ⟨⟨filled, distinct⟩, something, fresh⟩
    constructor
    · intro other member
      rcases List.mem_append.mp member with among | last
      · exact filled other among
      · obtain rfl := List.mem_singleton.mp last
        exact something
    · rw [List.map_append, List.map_singleton, List.nodup_append_comm]
      exact List.nodup_cons.mpr ⟨fresh, distinct⟩

theorem Usable.of_append (usable : Usable (earlier ++ pieces)) : Usable earlier := by
  constructor
  · intro piece member
    exact usable.filled piece (List.mem_append_left _ member)
  · have distinct := usable.distinct
    rw [List.map_append] at distinct
    exact distinct.of_append_left

/-- Pieces that can be used can be used with one more, or that one is at fault. -/
theorem Usable.concat_or_offends (usable : Usable earlier) (piece : List Char) :
    Usable (earlier ++ [piece]) ∨ ∃ fault, Offends earlier piece fault := by
  by_cases nothing : Blank piece
  · exact .inr ⟨_, .blank nothing⟩
  · by_cases known : normal piece ∈ earlier.map normal
    · obtain ⟨other, before, same⟩ := List.mem_map.mp known
      exact .inr ⟨_, .repeated nothing ⟨other, before, normal_inj.mp same⟩⟩
    · exact .inl (usable_concat_iff.mpr ⟨usable, nothing, known⟩)

/-- Either all pieces can be used, or there is a first one that is at fault. -/
theorem Usable.append_or_offends (usable : Usable earlier) (pieces : List (List Char)) :
    Usable (earlier ++ pieces) ∨ ∃ before piece after fault, pieces = before ++ piece :: after ∧
      Usable (earlier ++ before) ∧ Offends (earlier ++ before) piece fault := by
  induction pieces generalizing earlier with
  | nil =>
    left
    rwa [List.append_nil]
  | cons piece rest ih =>
    rcases usable.concat_or_offends piece with more | ⟨fault, offends⟩
    · rcases ih more with all | ⟨before, bad, after, fault, split, good, offends⟩
      · left
        rwa [List.append_assoc] at all
      · right
        rw [List.append_assoc] at good offends
        exact ⟨piece :: before, bad, after, fault, congrArg (piece :: ·) split, good, offends⟩
    · right
      refine ⟨[], piece, rest, fault, rfl, ?_, ?_⟩
      · rwa [List.append_nil]
      · rwa [List.append_nil]

/-- The symbols of some pieces, as those that were met while the pieces were read. -/
def met (earlier : List (List Char)) : List String := (earlier.map normal).reverse

theorem mem_met {symbol : String} : symbol ∈ met earlier ↔ symbol ∈ earlier.map normal :=
  List.mem_reverse

theorem met_concat : met (earlier ++ [piece]) = normal piece :: met earlier := by
  simp [met]

/-- One piece that can be used gives one symbol, and the reading goes on. -/
theorem collect_of_usable (usable : Usable (earlier ++ [piece])) (rest : List (List Char)) :
    collect (met earlier) (piece :: rest) =
      (collect (met (earlier ++ [piece])) rest).map (normal piece :: ·) := by
  obtain ⟨-, something, fresh⟩ := usable_concat_iff.mp usable
  have filled : ¬ (trim piece).isEmpty = true := mt isEmpty_trim.mp something
  have unseen : normal piece ∉ met earlier := mt mem_met.mp fresh
  rw [collect, if_neg filled, if_neg unseen, met_concat]
  cases collect (normal piece :: met earlier) rest <;> rfl

/-- One piece that cannot be used ends the reading. -/
theorem collect_of_offends (offends : Offends earlier piece fault) (rest : List (List Char)) :
    collect (met earlier) (piece :: rest) = .error fault := by
  cases offends with
  | blank nothing => rw [collect, if_pos (isEmpty_trim.mpr nothing)]
  | repeated something known =>
    obtain ⟨other, before, same⟩ := known
    have seen : normal piece ∈ met earlier :=
      mem_met.mpr (List.mem_map.mpr ⟨other, before, normal_inj.mpr same⟩)
    rw [collect, if_neg (mt isEmpty_trim.mp something), if_pos seen]
    rfl

theorem collect_append (usable : Usable (earlier ++ before)) (rest : List (List Char)) :
    collect (met earlier) (before ++ rest) =
      (collect (met (earlier ++ before)) rest).map (before.map normal ++ ·) := by
  induction before generalizing earlier with
  | nil =>
    rw [List.append_nil, List.nil_append]
    cases collect (met earlier) rest <;> rfl
  | cons piece others ih =>
    have whole : earlier ++ piece :: others = (earlier ++ [piece]) ++ others := by
      rw [List.append_assoc]
      rfl
    rw [whole] at usable ⊢
    rw [List.cons_append, collect_of_usable usable.of_append, ih usable]
    cases collect (met (earlier ++ [piece] ++ others)) rest <;> rfl

end Reading

section Parsing

variable {s : String} {list : List String} {fault : SymbolFault}

/-- The tokens before any place, where they can be used, give their symbols. -/
theorem collect_start {before : List (List Char)} (usable : Usable before)
    (rest : List (List Char)) :
    collect [] (before ++ rest) = (collect (met before) rest).map (before.map normal ++ ·) := by
  rw [← List.nil_append before] at usable
  exact collect_append usable rest

theorem parse_of_usable (usable : Usable (tokens s)) : parse s = .ok ((tokens s).map normal) := by
  have read := collect_start usable []
  rw [List.append_nil] at read
  change collect [] (tokens s) = _
  rw [read]
  change Except.ok ((tokens s).map normal ++ []) = _
  rw [List.append_nil]

theorem parse_of_offends {before after : List (List Char)} {piece : List Char}
    (split : tokens s = before ++ piece :: after) (usable : Usable before)
    (offends : Offends before piece fault) : parse s = .error fault := by
  change collect [] (tokens s) = _
  rw [split, collect_start usable, collect_of_offends offends after]
  rfl

/-- What the tokens of a list come to: all of them can be used, or one is the first at fault. -/
theorem usable_or_offends (s : String) : Usable (tokens s) ∨ ∃ before piece after fault,
    tokens s = before ++ piece :: after ∧ Usable before ∧ Offends before piece fault :=
  usable_nil.append_or_offends (tokens s)

theorem parse_eq_ok_iff :
    parse s = .ok list ↔ Usable (tokens s) ∧ list = (tokens s).map normal := by
  constructor
  · intro read
    rcases usable_or_offends s with usable | ⟨before, piece, after, fault, split, good, offends⟩
    · rw [parse_of_usable usable] at read
      exact ⟨usable, (Except.ok.inj read).symm⟩
    · rw [parse_of_offends split good offends] at read
      cases read
  · rintro ⟨usable, rfl⟩
    exact parse_of_usable usable

theorem parse_eq_error_iff : parse s = .error fault ↔ ∃ before piece after,
    tokens s = before ++ piece :: after ∧ Usable before ∧ Offends before piece fault := by
  constructor
  · intro refused
    rcases usable_or_offends s with usable | ⟨before, piece, after, found, split, good, offends⟩
    · rw [parse_of_usable usable] at refused
      cases refused
    · rw [parse_of_offends split good offends] at refused
      obtain rfl := Except.error.inj refused
      exact ⟨before, piece, after, split, good, offends⟩
  · rintro ⟨before, piece, after, split, good, offends⟩
    exact parse_of_offends split good offends

end Parsing

section Again

variable {piece : List Char}

theorem toList_normal (piece : List Char) : (normal piece).toList = upper (trim piece) :=
  String.toList_ofList

/-- A symbol stands for itself. -/
theorem normal_normal (piece : List Char) : normal (normal piece).toList = normal piece := by
  rw [normal, toList_normal, (bare_trim piece).upper.trim_eq, upper_upper, ← normal]

theorem not_blank_normal (something : ¬ Blank piece) : ¬ Blank (normal piece).toList := by
  rw [← isEmpty_trim, List.isEmpty_iff] at something ⊢
  rw [toList_normal, (bare_trim piece).upper.trim_eq, upper_eq_nil_iff]
  exact something

theorem comma_not_mem_normal (free : ',' ∉ piece) : ',' ∉ (normal piece).toList := by
  intro member
  rw [toList_normal] at member
  exact free (mem_of_mem_trim (mem_of_mem_upper member (.inl rfl)))

/-- The symbols of a list, with commas between them, are read as themselves. -/
theorem parse_intercalate {s : String} {list : List String} (read : parse s = .ok list) :
    parse (",".intercalate list) = .ok list := by
  obtain ⟨usable, rfl⟩ := parse_eq_ok_iff.mp read
  have something : (tokens s).map normal ≠ [] := by
    intro none
    exact pieces_ne_nil ',' s.toList (List.map_eq_nil_iff.mp none)
  have again : tokens (",".intercalate ((tokens s).map normal)) =
      (tokens s).map fun token => (normal token).toList := by
    rw [tokens_intercalate something, List.map_map]
    · rfl
    · intro symbol member
      obtain ⟨token, listed, rfl⟩ := List.mem_map.mp member
      exact comma_not_mem_normal ((intercalate_tokens s).2 token listed)
  have same : ((tokens s).map fun token => (normal token).toList).map normal =
      (tokens s).map normal := by
    rw [List.map_map]
    exact List.map_congr_left fun token _ => normal_normal token
  apply parse_eq_ok_iff.mpr
  rw [again, same]
  refine ⟨usable_iff.mpr ⟨?_, ?_⟩, rfl⟩
  · intro token member
    obtain ⟨original, listed, rfl⟩ := List.mem_map.mp member
    exact not_blank_normal (usable.filled original listed)
  · rw [same]
    exact usable.distinct

end Again

/-- A list of symbols is what stands between its commas. It is read as the symbols of its tokens, in
their order, just if none is blank and no two are the same symbol; otherwise the first token that is
blank or the symbol of an earlier one is the fault. What was read is read again as itself. -/
theorem parse_exact (s : String) :
    ([','].intercalate (tokens s) = s.toList ∧ ∀ token ∈ tokens s, ',' ∉ token) ∧
    (∀ list, parse s = .ok list ↔ Usable (tokens s) ∧
      list = (tokens s).map fun token => String.ofList (upper (trim token))) ∧
    (∀ fault, parse s = .error fault ↔ ∃ before piece after,
      tokens s = before ++ piece :: after ∧ Usable before ∧ Offends before piece fault) ∧
    ∀ list, parse s = .ok list → parse (",".intercalate list) = .ok list :=
  ⟨intercalate_tokens s, fun _ => parse_eq_ok_iff, fun _ => parse_eq_error_iff,
    fun _ => parse_intercalate⟩

/-- A symbol that is longer in upper case, and two lists with two faults each. -/
theorem parse_exact_sharp_s :
    parse " ß ,bhp" = .ok ["SS", "BHP"] ∧
      parse (",".intercalate ["SS", "BHP"]) = .ok ["SS", "BHP"] ∧
      parse "ß,Ss,,bhp" = .error (.duplicate "SS") ∧ parse "ß, ,ss" = .error .emptyToken := by
  have read : parse " ß ,bhp" = .ok ["SS", "BHP"] := by decide +kernel
  obtain ⟨-, -, -, again⟩ := parse_exact " ß ,bhp"
  obtain ⟨-, -, refused, -⟩ := parse_exact "ß,Ss,,bhp"
  obtain ⟨-, -, emptied, -⟩ := parse_exact "ß, ,ss"
  refine ⟨read, again _ read, (refused _).mpr ?_, (emptied _).mpr ?_⟩
  · refine ⟨["ß".toList], "Ss".toList, [[], "bhp".toList], by decide, ?_, ?_⟩
    · exact ⟨by decide +kernel, by decide +kernel⟩
    · exact .repeated (by decide +kernel) (by decide +kernel)
  · refine ⟨["ß".toList], " ".toList, ["ss".toList], by decide, ?_, .blank (by decide +kernel)⟩
    exact ⟨by decide +kernel, by decide +kernel⟩

end Symbols

end TradingRules
