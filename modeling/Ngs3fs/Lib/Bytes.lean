import Mathlib.Data.List.Basic
import Mathlib.Tactic.Ring

/-!
# Records of little-endian fields

A record is the concatenation of its fields. A file it is being written to holds a prefix of it and
zeros behind, so a number whose field is cut reads as the number modulo a power of 256. -/

namespace Bytes
open List Nat

/-- The least significant byte first. -/
def ofLE : List UInt8 → Nat
  | [] => 0
  | b :: bs => b.toNat + 256 * ofLE bs

def toLE : Nat → Nat → List UInt8
  | 0, _ => []
  | width + 1, n => UInt8.ofNat (n % 256) :: toLE width (n / 256)

def slice (offset width : Nat) (bytes : List UInt8) : List UInt8 := (bytes.drop offset).take width

/-- A file of some length to which the first `count` bytes of a record have been written. -/
def written (record : List UInt8) (count length : Nat) : List UInt8 :=
  record.take count ++ replicate (length - count) 0

/-- A file after a write of some bytes at an offset inside it. -/
def overwrite (file : List UInt8) (offset : Nat) (bytes : List UInt8) : List UInt8 :=
  file.take offset ++ bytes ++ file.drop (offset + bytes.length)

@[simp]
lemma length_toLE (width n : Nat) : (toLE width n).length = width := by
  induction width generalizing n with
  | zero => rfl
  | succ width ih => rw [toLE, length_cons, ih]

lemma ofLE_take_toLE (count width n : Nat) (le : count ≤ width) :
    ofLE ((toLE width n).take count) = n % 256 ^ count := by
  induction count generalizing width n with
  | zero => rw [take_zero, pow_zero, mod_one]; rfl
  | succ count ih =>
    cases width with
    | zero => exact absurd le (not_succ_le_zero count)
    | succ width =>
      have low : (UInt8.ofNat (n % 256)).toNat = n % 256 := by
        rw [UInt8.toNat_ofNat']
        exact mod_eq_of_lt (mod_lt n (by decide))
      rw [toLE, take_succ_cons, ofLE, ih width (n / 256) (le_of_succ_le_succ le), low,
        pow_succ', mod_mul]

lemma ofLE_append_zeros (bytes : List UInt8) (count : Nat) :
    ofLE (bytes ++ replicate count 0) = ofLE bytes := by
  induction bytes with
  | nil =>
    induction count with
    | zero => rfl
    | succ count ih =>
      rw [nil_append] at ih ⊢
      change 0 + 256 * ofLE (replicate count 0) = 0
      rw [ih]
      rfl
  | cons b bytes ih => rw [cons_append, ofLE, ofLE, ih]

variable {offset width : Nat}

lemma slice_append {before field after} (hoffset : before.length = offset)
    (hwidth : field.length = width) : slice offset width (before ++ field ++ after) = field := by
  subst hoffset hwidth
  rw [slice, append_assoc, drop_left, take_left]
variable {record : List UInt8} {count length : Nat}

/-- A field is read from a file its record is being written to. -/
lemma slice_written (fits : offset + width ≤ record.length) (room : record.length ≤ length) :
    slice offset width (written record count length) =
      (slice offset width record).take (count - offset) ++
        replicate (width - (count - offset)) 0 := by
  apply ext_getElem
  · simp only [slice, written, length_take, length_drop, length_append, length_replicate]
    omega
  · intro i h1 h2
    simp only [slice, written, getElem_take, getElem_drop, getElem_append,
      length_take, length_drop, getElem_replicate]
    have small : i < width := by
      simp only [slice, length_take] at h1
      omega
    split <;> split <;> first | rfl | omega

lemma length_written (fits : count ≤ record.length) (room : record.length ≤ length) :
    (written record count length).length = length := by
  rw [written, length_append, length_take, length_replicate]
  omega

section
variable (fits : offset + width ≤ record.length) (room : record.length ≤ length)
include fits room

lemma overwrite_written :
    overwrite (written record offset length) offset (slice offset width record) =
      written record (offset + width) length := by
  have size : (slice offset width record).length = width := by
    rw [slice, length_take, length_drop]
    omega
  have start : (record.take offset).length = offset := by
    rw [length_take]
    omega
  have first : (written record offset length).take offset = record.take offset := by
    rw [written, take_append_of_le_length (by omega), take_take, Nat.min_self]
  have rest : (written record offset length).drop (offset + width) =
      replicate (length - (offset + width)) 0 := by
    rw [written, drop_append, drop_eq_nil_of_le (by omega), nil_append, start, drop_replicate]
    congr 1
    omega
  rw [overwrite, size, first, rest, written, take_add, slice]

/-- A number read from a file its record is being written to. -/
lemma ofLE_slice_written {n} (field : slice offset width record = toLE width n)
    (small : n < 256 ^ width) :
    ofLE (slice offset width (written record count length)) = n % 256 ^ (count - offset) := by
  rw [slice_written fits room, ofLE_append_zeros, field]
  by_cases le : count - offset ≤ width
  · exact ofLE_take_toLE _ _ _ le
  · have whole : (toLE width n).take (count - offset) = (toLE width n).take width := by
      rw [take_of_length_le, take_of_length_le] <;> rw [length_toLE]
      omega
    have grows : 256 ^ width ≤ 256 ^ (count - offset) := Nat.pow_le_pow_right (by decide) (by omega)
    rw [whole, ofLE_take_toLE _ _ _ le_rfl, mod_eq_of_lt small,
      mod_eq_of_lt (lt_of_lt_of_le small grows)]

lemma slice_written_all (reached : offset + width ≤ count) :
    slice offset width (written record count length) = slice offset width record := by
  have none : width - (count - offset) = 0 := by omega
  rw [slice_written fits room, none, replicate_zero, append_nil, take_of_length_le]
  rw [slice, length_take]
  omega

end

end Bytes
