import TradingRules.Json.Reader
import TradingRules.Proofs.Operations
import TradingRules.Proofs.Results

/-!
# The numbers of documents that were read

A literal is read as a whole number if it fits a machine word and otherwise as a binary64 number, if
that is finite. So every number of a document that was read from a text is finite, wherever it lies.
-/

namespace TradingRules

open Float.Model (Format)
open Unpacked Binary64

section Floats

open Float.Model.UnpackedFloat hiding normalize round

theorem isFinite_neg {x : Float} (finite : x.isFinite = true) : (-x).isFinite = true := by
  have packed := packed_float x
  change x.toModel.unpack.isFinite = true at finite
  change (unpack Format.binary64 (pack Format.binary64 x.toModel.unpack.neg)).isFinite = true
  cases unpacked : x.toModel.unpack with
  | notANumber =>
    rw [unpacked] at finite
    cases finite
  | infinity s =>
    rw [unpacked] at finite
    cases finite
  | zero s =>
    rw [neg, repack_zero]
    rfl
  | finite s m e positive =>
    rw [unpacked] at packed
    rw [neg, repack_finite _ positive packed.1 packed.2]
    rfl

theorem isFinite_ofNat {n : Nat} (fits : n ≤ 2 ^ 64) : (Float.ofNat n).isFinite = true := by
  have nonneg : (0 : Rat) ≤ n := Nat.cast_nonneg n
  have power : nearest ((1 : Nat) * 2 ^ (64 : Int)) = (1 : Nat) * 2 ^ (64 : Int) :=
    nearest_of_digits (by norm_num) (by norm_num)
  rw [(rounds_ofNat n).isFinite_iff nonneg]
  calc nearest n ≤ nearest ((1 : Nat) * 2 ^ (64 : Int)) :=
        nearest_mono nonneg (by rw [Nat.cast_one, one_mul]; exact_mod_cast fits)
    _ = 2 ^ (64 : Int) := by rw [power, Nat.cast_one, one_mul]
    _ < beyond := zpow_lt_zpow_right₀ (by norm_num) (by norm_num)

theorem isFinite_ofInt {n : Int} (fits : n.natAbs ≤ 2 ^ 64) : (Float.ofInt n).isFinite = true := by
  cases n with
  | ofNat n => exact isFinite_ofNat fits
  | negSucc n => exact isFinite_neg (isFinite_ofNat fits)

end Floats

/-- A number that is finite as a binary64 number. -/
def JsonNumber.Finite (n : JsonNumber) : Prop := n.toFloat.isFinite = true

namespace Json

/-! ## Literals -/

section Literals

variable {s : Scaled} {n : JsonNumber}

theorem pushWhole_fits (fits : s.significand ≤ wordMax) (digit : Char) :
    (s.pushWhole digit).significand ≤ wordMax := by
  unfold Scaled.pushWhole
  dsimp only
  split
  · rename_i pushed
    rw [Bool.and_eq_true, decide_eq_true_iff] at pushed
    exact pushed.2
  · exact fits

theorem foldl_pushWhole_fits (fits : s.significand ≤ wordMax) (digits : List Char) :
    (digits.foldl Scaled.pushWhole s).significand ≤ wordMax := by
  induction digits generalizing s with
  | nil => exact fits
  | cons digit rest ih => exact ih (pushWhole_fits fits digit)

theorem finite_of_finite? {x : Float} (read : finite? x = some n) : n.Finite := by
  unfold finite? at read
  split at read
  · rename_i finite
    cases read
    exact finite
  · cases read

theorem finite_of_real? {negative : Bool} (read : s.real? negative = some n) : n.Finite := by
  obtain ⟨x, -, kept⟩ := Option.bind_eq_some_iff.mp read
  exact finite_of_finite? kept

theorem finite_of_whole? {negative : Bool} (fits : s.significand ≤ wordMax)
    (read : s.whole? negative = some n) : n.Finite := by
  unfold Scaled.whole? at read
  split at read
  · exact finite_of_real? read
  · have bound : wordMax ≤ 2 ^ 64 := by decide
    split at read
    · cases read
      exact isFinite_ofInt (le_trans fits bound)
    · split at read
      · cases read
        apply isFinite_ofInt
        rw [Int.natAbs_neg]
        exact le_trans fits bound
      · exact finite_of_finite? read

theorem finite_of_readNumber {negative : Bool} {cs : List Char} {t : Taken JsonNumber cs.length}
    (read : readNumber negative cs = .ok t) : t.value.Finite := by
  obtain ⟨whole, -, read⟩ := bind_eq_ok_iff.mp read
  obtain ⟨places, -, read⟩ := bind_eq_ok_iff.mp read
  obtain ⟨exponent, -, read⟩ := bind_eq_ok_iff.mp read
  dsimp only at read
  split at read
  · rename_i n number
    cases read
    split at number
    · exact finite_of_whole? (foldl_pushWhole_fits (Nat.zero_le wordMax) _) number
    · exact finite_of_real? number
  · cases read

end Literals

/-! ## Documents -/

/-- A document all of whose numbers are finite. -/
inductive Finite : Json → Prop
  | null : Finite .null
  | bool (b : Bool) : Finite (.bool b)
  | string (s : String) : Finite (.string s)
  | number {n : JsonNumber} : n.Finite → Finite (.number n)
  | array {items : List Json} : (∀ v ∈ items, Finite v) → Finite (.array items)
  | object {fields : List (String × Json)} :
      (∀ key v, get? fields key = some v → Finite v) → Finite (.object fields)

/-- Fields all of whose values are such documents. -/
def FiniteFields (fields : List (String × Json)) : Prop :=
  ∀ key v, get? fields key = some v → v.Finite

theorem Finite.fields {fields : List (String × Json)} (finite : (Json.object fields).Finite) :
    FiniteFields fields := by
  cases finite with
  | object values => exact values

theorem Finite.items {items : List Json} (finite : (Json.array items).Finite) :
    ∀ v ∈ items, v.Finite := by
  cases finite with
  | array members => exact members

theorem FiniteFields.set {fields : List (String × Json)} (finite : FiniteFields fields)
    (key : String) {v : Json} (value : Finite v) : FiniteFields (set fields key v) := by
  intro other w found
  rw [get?_set] at found
  split at found
  · cases found
    exact value
  · exact finite other w found

def Frame.Finite : Frame → Prop
  | .array items => ∀ v ∈ items, v.Finite
  | .object fields _ => FiniteFields fields

def Place.Finite : Place → Prop
  | .top => True
  | .item items _ => ∀ v ∈ items, v.Finite
  | .afterItem items => ∀ v ∈ items, v.Finite
  | .key fields _ => FiniteFields fields
  | .colon fields _ => FiniteFields fields
  | .member fields _ => FiniteFields fields
  | .afterMember fields => FiniteFields fields
  | .done v => v.Finite

/-- All numbers read so far are finite. -/
structure ReadState.Finite (s : ReadState) : Prop where
  outer : ∀ frame ∈ s.outer, frame.Finite
  place : s.place.Finite

section Reading

variable {outer : List Frame} {s : ReadState} {c : Char} {rest : List Char} {v : Json}

theorem finite_supply (waiting : ∀ frame ∈ outer, frame.Finite) (finite : v.Finite) :
    (supply v outer).Finite := by
  cases outer with
  | nil => exact ⟨waiting, finite⟩
  | cons frame others =>
    obtain ⟨inner, around⟩ := List.forall_mem_cons.mp waiting
    cases frame with
    | array items => exact ⟨around, List.forall_mem_cons.mpr ⟨finite, inner⟩⟩
    | object fields key => exact ⟨around, FiniteFields.set inner key finite⟩

theorem finite_of_readScalar {t : Taken Json (rest.length + 1)} (read : readScalar c rest = .ok t) :
    t.value.Finite := by
  unfold readScalar at read
  split at read
  case h_1 | h_2 | h_3 | h_4 =>
    obtain ⟨x, -, same⟩ := bind_eq_ok_iff.mp read
    cases same
    constructor
  case h_5 =>
    obtain ⟨n, found, same⟩ := bind_eq_ok_iff.mp read
    cases same
    exact .number (finite_of_readNumber found)
  case h_6 =>
    split at read
    · obtain ⟨n, found, same⟩ := bind_eq_ok_iff.mp read
      cases same
      exact .number (finite_of_readNumber found)
    · cases read

theorem finite_startValue (waiting : ∀ frame ∈ outer, frame.Finite)
    {t : Taken ReadState (rest.length + 1)} (started : startValue outer c rest = .ok t) :
    t.value.Finite := by
  unfold startValue at started
  dsimp only at started
  split at started
  · split at started
    · cases started
      exact ⟨waiting, List.forall_mem_nil _⟩
    · cases started
  · split at started
    · cases started
      exact ⟨waiting, fun key v found => by cases found⟩
    · cases started
  · obtain ⟨scalar, read, same⟩ := bind_eq_ok_iff.mp started
    cases same
    exact finite_supply waiting (finite_of_readScalar read)

theorem finite_advance (before : s.Finite) {t : Taken ReadState (rest.length + 1)}
    (advanced : s.advance c rest = .ok t) : t.value.Finite := by
  obtain ⟨outer, place⟩ := s
  obtain ⟨waiting, here⟩ := before
  dsimp only at waiting here
  have closed {items : List Json} (here : ∀ v ∈ items, v.Finite) : (array items.reverse).Finite :=
    .array fun v member => here v (List.mem_reverse.mp member)
  -- A value is begun for the top or for a container, a container is closed, or nothing is read yet.
  unfold ReadState.advance at advanced
  dsimp only at advanced
  split at advanced
  case h_1 => exact finite_startValue waiting advanced
  case h_4 items _ _ _ =>
    have frame : (Frame.array items).Finite := here
    exact finite_startValue (List.forall_mem_cons.mpr ⟨frame, waiting⟩) advanced
  case h_14 fields key =>
    have frame : (Frame.object fields key).Finite := here
    exact finite_startValue (List.forall_mem_cons.mpr ⟨frame, waiting⟩) advanced
  case h_2 | h_6 =>
    cases advanced
    exact finite_supply waiting (closed here)
  case h_8 | h_16 =>
    cases advanced
    exact finite_supply waiting (.object here)
  case h_5 | h_12 | h_15 =>
    cases advanced
    exact ⟨waiting, here⟩
  case h_10 =>
    obtain ⟨key, -, same⟩ := bind_eq_ok_iff.mp advanced
    cases same
    exact ⟨waiting, here⟩
  all_goals cases advanced

theorem finite_of_readFrom (before : s.Finite) {cs : List Char} (read : readFrom s cs = .ok v) :
    v.Finite := by
  fun_induction readFrom s cs
  case case1 s _ _ _ last =>
    cases read
    have here := before.place
    rw [last] at here
    exact here
  case case2 => cases read
  case case3 ih =>
    obtain ⟨next, advanced, later⟩ := bind_eq_ok_iff.mp read
    exact ih next (finite_advance before advanced) later

/-- All numbers of a document that was read are finite. -/
theorem finite_of_parse? {text : String} (read : parse? text = some v) : v.Finite := by
  have start : ReadState.Finite ⟨[], .top⟩ := ⟨List.forall_mem_nil _, trivial⟩
  exact finite_of_readFrom start (mapError_eq_ok_iff.mp (toOption_eq_some_iff.mp read))

end Reading

end Json

end TradingRules
