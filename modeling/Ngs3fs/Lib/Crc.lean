import Mathlib.Logic.Function.Iterate
import Mathlib.Tactic.Common

/-!
# Reflected cyclic redundancy checks

The register of a reflected CRC moves down one bit at a time, and takes the polynomial in when a
one falls out. A move is linear in exclusive or (`shift_xor`), and a register whose low bits are
clear only moves down (`shifts_of_low_clear`). From these follow the byte-wise step through a table
(`shifts_eight`), and the step that takes as many bytes as there is room for (`bitwise_eq_shifts`).
-/

namespace Crc
open BitVec Function List

variable {w : Nat} (p : BitVec w)

def shift (c : BitVec w) : BitVec w := (c >>> 1) ^^^ (if c.getLsbD 0 then p else 0#w)

/-- Each byte is added to the low end of the register, which then moves down eight times. -/
def bitwise (c : BitVec w) (bytes : List UInt8) : BitVec w :=
  bytes.foldl (fun c b => (shift p)^[8] (c ^^^ b.toBitVec.setWidth w)) c

/-- The first byte at the low end. -/
def word : List UInt8 → BitVec w
  | [] => 0#w
  | b :: bytes => b.toBitVec.setWidth w ^^^ (word bytes <<< 8)

variable {p}

lemma shift_xor (a b : BitVec w) : shift p (a ^^^ b) = shift p a ^^^ shift p b := by
  simp only [shift, getLsbD_xor, ushiftRight_xor_distrib]
  cases a.getLsbD 0 <;> cases b.getLsbD 0
  case true.true =>
    have cancel : a >>> 1 ^^^ p ^^^ (b >>> 1 ^^^ p) = a >>> 1 ^^^ b >>> 1 := by
      rw [BitVec.xor_comm (b >>> 1), BitVec.xor_assoc, ← BitVec.xor_assoc p, BitVec.xor_self,
        BitVec.zero_xor]
    simpa using cancel.symm
  all_goals simp <;> ac_rfl

def Linear (f : BitVec w → BitVec w) : Prop := ∀ a b, f (a ^^^ b) = f a ^^^ f b

lemma Linear.zero {f} (linear : Linear f) : f 0#w = 0#w := by
  have twice := linear 0#w 0#w
  rw [BitVec.xor_self, BitVec.xor_self] at twice
  exact twice

lemma Linear.iterate {f : BitVec w → BitVec w} (linear : Linear f) (n : Nat) : Linear f^[n] := by
  intro a b
  induction n generalizing a b with
  | zero => rfl
  | succ n ih => rw [iterate_succ_apply, linear, ih]; rfl

lemma linear_shifts (p : BitVec w) (n : Nat) : Linear (shift p)^[n] :=
  Linear.iterate shift_xor n

lemma shifts_of_low_clear {y k} (clear : ∀ i < k, y.getLsbD i = false) :
    (shift p)^[k] y = y >>> k := by
  induction k with
  | zero => exact (ushiftRight_zero y).symm
  | succ k ih =>
    rw [iterate_succ_apply', ih fun i lt => clear i (Nat.lt_succ_of_lt lt)]
    have low : (y >>> k).getLsbD 0 = false := by
      rw [getLsbD_ushiftRight]
      exact clear k (Nat.lt_succ_self k)
    rw [shift, low, shiftRight_add]
    exact xor_zero

/-- What was moved up comes back. -/
lemma shifts_shiftLeft {x : BitVec w} {k} (room : ∀ i, w ≤ i + k → x.getLsbD i = false) :
    (shift p)^[k] (x <<< k) = x := by
  rw [shifts_of_low_clear fun i lt => by simp [getLsbD_shiftLeft, lt]]
  refine eq_of_getLsbD_eq fun i lt => ?_
  rw [getLsbD_ushiftRight, getLsbD_shiftLeft]
  by_cases fits : k + i < w
  · simp [fits]
  · simp [fits, room i (by omega)]

lemma getLsbD_byte (b : UInt8) {i} (le : 8 ≤ i) : (b.toBitVec.setWidth w).getLsbD i = false := by
  rw [getLsbD_setWidth, getLsbD_of_ge b.toBitVec i le, Bool.and_false]

lemma getLsbD_word (bytes : List UInt8) {i} (le : 8 * bytes.length ≤ i) :
    (word bytes : BitVec w).getLsbD i = false := by
  induction bytes generalizing i with
  | nil => exact getLsbD_zero
  | cons b bytes ih =>
    rw [length_cons] at le
    rw [word, getLsbD_xor, getLsbD_byte b (by omega), getLsbD_shiftLeft,
      ih (by omega)]
    simp

lemma word_append (a b : List UInt8) :
    (word (a ++ b) : BitVec w) = word a ||| word b <<< (8 * a.length) := by
  have apart : (word a : BitVec w) ||| word b <<< (8 * a.length) =
      word a ^^^ word b <<< (8 * a.length) := by
    refine eq_of_getLsbD_eq fun i _ => ?_
    rw [getLsbD_or, getLsbD_xor, getLsbD_shiftLeft]
    by_cases low : i < 8 * a.length
    · simp [low]
    · simp [getLsbD_word a (Nat.le_of_not_lt low)]
  rw [apart]
  clear apart
  induction a with
  | nil => rw [length_nil, Nat.mul_zero, BitVec.shiftLeft_zero]; exact BitVec.zero_xor.symm
  | cons c a ih =>
    rw [List.cons_append, word, word, ih, BitVec.shiftLeft_xor_distrib, BitVec.xor_assoc,
      ← BitVec.shiftLeft_add, length_cons, Nat.mul_succ]

lemma bitwise_append (c : BitVec w) (a b : List UInt8) :
    bitwise p c (a ++ b) = bitwise p (bitwise p c a) b := foldl_append

/-- As many bytes as there is room for are taken in at once. -/
lemma bitwise_eq_shifts (c : BitVec w) (bytes : List UInt8) (room : 8 * bytes.length ≤ w) :
    bitwise p c bytes = (shift p)^[8 * bytes.length] (c ^^^ word bytes) := by
  induction bytes generalizing c with
  | nil => exact (xor_zero).symm
  | cons b bytes ih =>
    rw [length_cons] at room
    have back : (shift p)^[8] (word bytes <<< 8) = word bytes :=
      shifts_shiftLeft fun i le => getLsbD_word bytes (by omega)
    calc bitwise p c (b :: bytes)
        = bitwise p ((shift p)^[8] (c ^^^ b.toBitVec.setWidth w)) bytes := rfl
      _ = (shift p)^[8 * bytes.length]
          ((shift p)^[8] (c ^^^ b.toBitVec.setWidth w) ^^^ (shift p)^[8] (word bytes <<< 8)) := by
        rw [ih _ (by omega), back]
      _ = (shift p)^[8 * bytes.length + 8] (c ^^^ word (b :: bytes)) := by
        rw [← linear_shifts, ← iterate_add_apply, word, BitVec.xor_assoc]

/-- What is in the register before a message moves on by itself. -/
lemma bitwise_linear (c : BitVec w) (bytes : List UInt8) :
    bitwise p c bytes = (shift p)^[8 * bytes.length] c ^^^ bitwise p 0#w bytes := by
  induction bytes generalizing c with
  | nil => exact (xor_zero).symm
  | cons b bytes ih =>
    have first (x : BitVec w) : bitwise p x (b :: bytes) =
        bitwise p ((shift p)^[8] x ^^^ (shift p)^[8] (b.toBitVec.setWidth w)) bytes := by
      rw [← linear_shifts]
      rfl
    rw [first, first 0#w, (linear_shifts p 8).zero, BitVec.zero_xor, ih, linear_shifts,
      ih ((shift p)^[8] (b.toBitVec.setWidth w)), BitVec.xor_assoc,
      ← iterate_add_apply, length_cons, Nat.mul_succ]

lemma bitwise_cons (c : BitVec w) (b : UInt8) (bytes : List UInt8) :
    bitwise p c (b :: bytes) =
      (shift p)^[8 * (bytes.length + 1)] (c ^^^ b.toBitVec.setWidth w) ^^^ bitwise p 0#w bytes := by
  rw [Nat.mul_succ, iterate_add_apply, ← bitwise_linear]
  rfl

/-- Eight moves take the low byte through the table, and the rest down. -/
lemma shifts_eight (x : BitVec w) :
    (shift p)^[8] x = (shift p)^[8] (x &&& 255#w) ^^^ (x >>> 8) := by
  have mask (i : Nat) (lt : i < w) : (255#w).getLsbD i = decide (i < 8) := by
    rw [getLsbD_ofNat, show 255 = 2 ^ 8 - 1 from rfl, Nat.testBit_two_pow_sub_one]
    simp [lt]
  have split : x = (x &&& 255#w) ^^^ (x &&& ~~~255#w) := by
    refine eq_of_getLsbD_eq fun i lt => ?_
    simp only [getLsbD_xor, getLsbD_and, getLsbD_not, lt, decide_true]
    cases x.getLsbD i <;> cases (255#w).getLsbD i <;> rfl
  have clear (i : Nat) (lt : i < 8) : (x &&& ~~~255#w).getLsbD i = false := by
    rw [getLsbD_and, getLsbD_not]
    by_cases inside : i < w
    · rw [mask i inside, decide_eq_true lt, Bool.not_true, Bool.and_false, Bool.and_false]
    · rw [decide_eq_false inside, Bool.false_and, Bool.and_false]
  have rest : (x &&& ~~~255#w) >>> 8 = x >>> 8 := by
    refine eq_of_getLsbD_eq fun i _ => ?_
    rw [getLsbD_ushiftRight, getLsbD_ushiftRight, getLsbD_and,
      getLsbD_not]
    by_cases inside : 8 + i < w
    · rw [mask _ inside, decide_eq_true inside, decide_eq_false (by omega)]
      simp
    · simp [getLsbD_of_ge x _ (Nat.le_of_not_lt inside)]
  calc (shift p)^[8] x = (shift p)^[8] ((x &&& 255#w) ^^^ (x &&& ~~~255#w)) := by rw [← split]
    _ = _ := by rw [linear_shifts, shifts_of_low_clear clear, rest]

end Crc
