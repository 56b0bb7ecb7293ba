import Mathlib.Algebra.Ring.Nat
import Mathlib.Data.List.GetD
import Ngs3fs.Lib.Crc

/-!
# The CRC checksums of parts and objects

`make_crc_tables`, `update_crc32` and `update_crc64` take eight bytes at a time through eight
tables; `combine_crc64` puts the checksums of two strings together, and
`combined_multipart_checksum` those of the parts of an upload. The appended string acts on the
first checksum as zeros would; that is a linear map, which `combine_crc64` raises to the length by
squaring its matrix. -/

namespace Ngs3fs.S3
open Crc List Function Nat

abbrev Bytes := List UInt8

/-! ### Tables -/

section
variable {w : Nat} (polynomial : BitVec w)

/-- `make_crc_tables`, slice by slice. -/
def crcTable : Nat → List (BitVec w)
  | 0 => (range 256).map fun i => (shift polynomial)^[8] (BitVec.ofNat w i)
  | slice + 1 =>
    (crcTable slice).map fun previous =>
      (crcTable 0).getD (previous &&& 255#w).toNat 0#w ^^^ (previous >>> 8)

/-- `tables[slice][i]`. -/
def lookup (slice i : Nat) : BitVec w := (crcTable polynomial slice).getD i 0#w

def updateByte (crc : BitVec w) (b : UInt8) : BitVec w :=
  lookup polynomial 0 ((crc ^^^ b.toBitVec.setWidth w) &&& 255#w).toNat ^^^ (crc >>> 8)

end

/-- `load_le32`. -/
def loadLe32 (b0 b1 b2 b3 : UInt8) : BitVec 32 :=
  b0.toBitVec.setWidth 32 ||| b1.toBitVec.setWidth 32 <<< 8 |||
    b2.toBitVec.setWidth 32 <<< 16 ||| b3.toBitVec.setWidth 32 <<< 24

/-- `load_le64`. -/
def loadLe64 (b0 b1 b2 b3 b4 b5 b6 b7 : UInt8) : BitVec 64 :=
  (loadLe32 b0 b1 b2 b3).setWidth 64 ||| (loadLe32 b4 b5 b6 b7).setWidth 64 <<< 32

/-- `update_crc32`. -/
def updateCrc32 (polynomial crc : BitVec 32) : Bytes → BitVec 32
  | b0 :: b1 :: b2 :: b3 :: b4 :: b5 :: b6 :: b7 :: data =>
    let value := crc ^^^ loadLe32 b0 b1 b2 b3
    let table := lookup polynomial
    updateCrc32 polynomial
      (table 7 (value &&& 255#32).toNat ^^^ table 6 (value >>> 8 &&& 255#32).toNat ^^^
        table 5 (value >>> 16 &&& 255#32).toNat ^^^ table 4 (value >>> 24).toNat ^^^
        table 3 b4.toNat ^^^ table 2 b5.toNat ^^^ table 1 b6.toNat ^^^ table 0 b7.toNat) data
  | data => data.foldl (updateByte polynomial) crc

/-- `update_crc64`. -/
def updateCrc64 (polynomial crc : BitVec 64) : Bytes → BitVec 64
  | b0 :: b1 :: b2 :: b3 :: b4 :: b5 :: b6 :: b7 :: data =>
    let value := crc ^^^ loadLe64 b0 b1 b2 b3 b4 b5 b6 b7
    let table := lookup polynomial
    updateCrc64 polynomial
      (table 7 (value &&& 255#64).toNat ^^^ table 6 (value >>> 8 &&& 255#64).toNat ^^^
        table 5 (value >>> 16 &&& 255#64).toNat ^^^ table 4 (value >>> 24 &&& 255#64).toNat ^^^
        table 3 (value >>> 32 &&& 255#64).toNat ^^^ table 2 (value >>> 40 &&& 255#64).toNat ^^^
        table 1 (value >>> 48 &&& 255#64).toNat ^^^ table 0 (value >>> 56).toNat) data
  | data => data.foldl (updateByte polynomial) crc

section
variable {w : Nat} {polynomial : BitVec w}

lemma length_crcTable (slice : Nat) : (crcTable polynomial slice).length = 256 := by
  induction slice with
  | zero => rw [crcTable, length_map, length_range]
  | succ slice ih => rw [crcTable, length_map, ih]

lemma lookup_zero {i} (lt : i < 256) :
    lookup polynomial 0 i = (shift polynomial)^[8] (BitVec.ofNat w i) := by
  rw [lookup, crcTable, getD_eq_getElem _ _ (by simpa using lt), getElem_map, getElem_range]

lemma toNat_and_lt (x : BitVec w) : (x &&& 255#w).toNat < 256 := by
  rw [BitVec.toNat_and, BitVec.toNat_ofNat]
  exact Nat.lt_of_le_of_lt and_le_right (Nat.lt_of_le_of_lt (mod_le _ _) (by decide))

lemma lookup_low (x : BitVec w) :
    lookup polynomial 0 (x &&& 255#w).toNat = (shift polynomial)^[8] (x &&& 255#w) := by
  rw [lookup_zero (toNat_and_lt x), BitVec.ofNat_toNat, BitVec.setWidth_eq]

lemma lookup_eq {slice i} (lt : i < 256) :
    lookup polynomial slice i = (shift polynomial)^[8 * (slice + 1)] (BitVec.ofNat w i) := by
  induction slice with
  | zero => exact lookup_zero lt
  | succ slice ih =>
    have here : i < (crcTable polynomial slice).length := by rw [length_crcTable]; exact lt
    have next : lookup polynomial (slice + 1) i =
        lookup polynomial 0 (lookup polynomial slice i &&& 255#w).toNat ^^^
          (lookup polynomial slice i >>> 8) := by
      rw [lookup, crcTable, getD_eq_getElem _ _ (by rw [length_map]; exact here),
        getElem_map, ← getD_eq_getElem _ 0#w here]
      rfl
    rw [next, lookup_low, ← shifts_eight, ih, ← iterate_add_apply, Nat.add_comm]
    rfl

lemma updateByte_eq (crc : BitVec w) (b : UInt8) : updateByte polynomial crc b =
      (shift polynomial)^[8] (crc ^^^ b.toBitVec.setWidth w) := by
  have gone : b.toBitVec.setWidth w >>> 8 = 0#w := by
    refine BitVec.eq_of_getLsbD_eq fun i _ => ?_
    rw [BitVec.getLsbD_ushiftRight, getLsbD_byte b (by omega), BitVec.getLsbD_zero]
  rw [updateByte, lookup_low, shifts_eight (crc ^^^ _), BitVec.ushiftRight_xor_distrib, gone,
    BitVec.xor_zero]

lemma foldl_updateByte (crc : BitVec w) (data : Bytes) :
    data.foldl (updateByte polynomial) crc = Crc.bitwise polynomial crc data := by
  rw [Crc.bitwise]
  exact congrArg (fun f => foldl f crc data) (funext₂ updateByte_eq)

lemma shifts_slice (slice : Nat) (x : BitVec w) : (shift polynomial)^[8 * (slice + 1)] x =
      lookup polynomial slice (x &&& 255#w).toNat ^^^
        (shift polynomial)^[8 * slice] (x >>> 8) := by
  rw [lookup_eq (toNat_and_lt x), BitVec.ofNat_toNat, BitVec.setWidth_eq, mul_succ,
    iterate_add_apply, iterate_add_apply, shifts_eight x,
    linear_shifts polynomial (8 * slice)]

end

lemma word_four {w} (b0 b1 b2 b3 : UInt8) : (word [b0, b1, b2, b3] : BitVec w) =
      b0.toBitVec.setWidth w ||| b1.toBitVec.setWidth w <<< 8 |||
        b2.toBitVec.setWidth w <<< 16 ||| b3.toBitVec.setWidth w <<< 24 := by
  have single (b : UInt8) : (word [b] : BitVec w) = b.toBitVec.setWidth w := by
    simp [word]
  have step (bytes : Bytes) (b : UInt8) := word_append (w := w) bytes [b]
  have three := step [b0, b1, b2] b3
  have two := step [b0, b1] b2
  have one := step [b0] b1
  simp only [single, cons_append, nil_append, length_cons, length_nil] at *
  rw [three, two, one]

lemma loadLe32_eq (b0 b1 b2 b3 : UInt8) : loadLe32 b0 b1 b2 b3 = word [b0, b1, b2, b3] :=
  (word_four b0 b1 b2 b3).symm

lemma loadLe64_eq (b0 b1 b2 b3 b4 b5 b6 b7 : UInt8) :
    loadLe64 b0 b1 b2 b3 b4 b5 b6 b7 = word [b0, b1, b2, b3, b4, b5, b6, b7] := by
  have moved (b : UInt8) {k : Nat} (le : k ≤ 24) :
      (b.toBitVec.setWidth 32 <<< k).setWidth 64 = b.toBitVec.setWidth 64 <<< k := by
    refine BitVec.eq_of_getLsbD_eq fun i lt => ?_
    simp only [BitVec.getLsbD_setWidth, BitVec.getLsbD_shiftLeft, lt, decide_true, Bool.true_and]
    by_cases high : i < 32
    · simp [high, show i - k < 32 by omega, show i - k < 64 by omega]
    · rw [BitVec.getLsbD_of_ge b.toBitVec (i - k) (by omega)]
      simp
  have wide (b0 b1 b2 b3 : UInt8) :
      (loadLe32 b0 b1 b2 b3).setWidth 64 = word [b0, b1, b2, b3] := by
    have first := moved b0 (Nat.zero_le 24)
    rw [BitVec.shiftLeft_zero, BitVec.shiftLeft_zero] at first
    rw [word_four, loadLe32, BitVec.setWidth_or, BitVec.setWidth_or, BitVec.setWidth_or, first,
      moved b1 (by decide), moved b2 (by decide), moved b3 (by decide)]
  rw [loadLe64, wide, wide]
  exact (word_append [b0, b1, b2, b3] [b4, b5, b6, b7]).symm

lemma gone_after {w k} (x : BitVec w) (le : w ≤ k) : x >>> k = 0#w := by
  refine BitVec.eq_of_getLsbD_eq fun i lt => ?_
  rw [BitVec.getLsbD_ushiftRight, BitVec.getLsbD_of_ge x _ (by omega), BitVec.getLsbD_zero]

lemma and_byte {w k} (x : BitVec w) (le : w ≤ k + 8) : x >>> k &&& 255#w = x >>> k := by
  refine BitVec.eq_of_getLsbD_eq fun i lt => ?_
  rw [BitVec.getLsbD_and, BitVec.getLsbD_ushiftRight, BitVec.getLsbD_ofNat,
    show 255 = 2 ^ 8 - 1 from rfl, testBit_two_pow_sub_one]
  by_cases low : i < 8
  · simp [low, lt]
  · rw [BitVec.getLsbD_of_ge x _ (by omega), Bool.false_and]

lemma lookup_byte {w slice polynomial} (b : UInt8) :
    lookup polynomial slice b.toNat =
      (shift polynomial)^[8 * (slice + 1)] (b.toBitVec.setWidth w) := by
  rw [lookup_eq b.toNat_lt]
  exact congrArg _ (BitVec.ofNat_toNat w b.toBitVec)

lemma updateCrc64_eq (polynomial crc : BitVec 64) (bytes : Bytes) :
    updateCrc64 polynomial crc bytes = bitwise polynomial crc bytes := by
  fun_induction updateCrc64 polynomial crc bytes with
  | case1 crc b0 b1 b2 b3 b4 b5 b6 b7 data value table ih =>
    rw [ih]
    change _ = bitwise polynomial crc ([b0, b1, b2, b3, b4, b5, b6, b7] ++ data)
    have first := bitwise_eq_shifts (p := polynomial) crc [b0, b1, b2, b3, b4, b5, b6, b7]
      (Nat.le_refl 64)
    rw [← loadLe64_eq] at first
    rw [bitwise_append, first]
    change _ = bitwise polynomial ((shift polynomial)^[8 * (7 + 1)] value) data
    rw [shifts_slice 7, shifts_slice 6, shifts_slice 5, shifts_slice 4, shifts_slice 3,
      shifts_slice 2, shifts_slice 1, shifts_slice 0]
    simp only [← BitVec.shiftRight_add, BitVec.xor_assoc, reduceAdd]
    rw [and_byte value (k := 56) (Nat.le_refl 64), gone_after value (k := 64) (Nat.le_refl 64),
      (linear_shifts polynomial (8 * 0)).zero, BitVec.xor_zero]
  | case2 crc data => exact foldl_updateByte crc data

lemma updateCrc32_eq (polynomial crc : BitVec 32) (bytes : Bytes) :
    updateCrc32 polynomial crc bytes = bitwise polynomial crc bytes := by
  fun_induction updateCrc32 polynomial crc bytes with
  | case1 crc b0 b1 b2 b3 b4 b5 b6 b7 data value table ih =>
    rw [ih]
    change _ = bitwise polynomial crc ([b0, b1, b2, b3] ++ ([b4, b5, b6, b7] ++ data))
    have first := bitwise_eq_shifts (p := polynomial) crc [b0, b1, b2, b3] (Nat.le_refl 32)
    rw [← loadLe32_eq] at first
    rw [bitwise_append, bitwise_append, first,
      bitwise_linear _ [b4, b5, b6, b7], ← iterate_add_apply]
    change _ = bitwise polynomial ((shift polynomial)^[8 * (7 + 1)] value ^^^ _) data
    rw [shifts_slice 7, shifts_slice 6, shifts_slice 5, shifts_slice 4, bitwise_cons,
      bitwise_cons, bitwise_cons, bitwise_cons]
    simp only [← BitVec.shiftRight_add, BitVec.xor_assoc, reduceAdd, BitVec.zero_xor]
    rw [and_byte value (k := 24) (Nat.le_refl 32), gone_after value (k := 32) (Nat.le_refl 32),
      (linear_shifts polynomial (8 * 4)).zero, BitVec.zero_xor]
    rw [show bitwise polynomial 0#32 [] = 0#32 from rfl, BitVec.xor_zero]
    simp only [table, lookup_byte]
    rfl
  | case2 crc data => exact foldl_updateByte crc data

/-! ### Combination -/

/-- `ChecksumAlgorithm`. -/
inductive ChecksumAlgorithm where
  | auto
  | protocolDefault
  | none
  | crc32
  | crc32c
  | crc64nvme
  | sha1
  | sha256
  | md5
  | xxhash64
  | xxhash3
  | xxhash128
  | sha512
  | crc64xz
  deriving DecidableEq

def ChecksumAlgorithm.polynomial64 : ChecksumAlgorithm → Option (BitVec 64)
  | .crc64nvme => some 0x9a6c9329ac4bc9b5#64
  | .crc64xz => some 0xc96c5795d7870f42#64
  | _ => Option.none

abbrev Matrix := List (BitVec 64)

/-- The loop of `gf2_matrix_times`. -/
def timesFrom (sum : BitVec 64) : Matrix → BitVec 64 → BitVec 64
  | [], _ => sum
  | row :: rows, vector =>
    if vector = 0#64 then sum
    else timesFrom (if vector.getLsbD 0 then sum ^^^ row else sum) rows (vector >>> 1)

/-- `gf2_matrix_times`. -/
def gf2MatrixTimes (matrix : Matrix) (vector : BitVec 64) : BitVec 64 :=
  timesFrom 0#64 matrix vector

/-- `gf2_matrix_square`. -/
def gf2MatrixSquare (matrix : Matrix) : Matrix := matrix.map (gf2MatrixTimes matrix)

def oddMatrix (polynomial : BitVec 64) : Matrix :=
  polynomial :: (range 63).map fun bit => 1#64 <<< bit

/-- A turn of `combine_crc64` takes two bits of the length. -/
def combineTurns : Nat → Matrix → BitVec 64 → Nat → BitVec 64
  | 0, _, first, _ => first
  | turns + 1, odd, first, length =>
    let even := gf2MatrixSquare odd
    let first := if length % 2 = 1 then gf2MatrixTimes even first else first
    let length := length / 2
    if length = 0 then first
    else
      let odd := gf2MatrixSquare even
      let first := if length % 2 = 1 then gf2MatrixTimes odd first else first
      let length := length / 2
      if length = 0 then first else combineTurns turns odd first length

/-- `combine_crc64`. -/
def combineCrc64 (algorithm : ChecksumAlgorithm) (first second : BitVec 64) (secondLength : Nat) :
    Except String (BitVec 64) :=
  if secondLength = 0 then .ok first
  else
    match algorithm.polynomial64 with
    | Option.none => .error "checksum is not a combinable CRC64"
    | some polynomial =>
      let even := gf2MatrixSquare (oddMatrix polynomial)
      let odd := gf2MatrixSquare even
      .ok (combineTurns 32 odd first secondLength ^^^ second)

/-- The bytes that are encoded as base64. -/
structure ChecksumValue where
  bytes : List (BitVec 8)
  integer : BitVec 64
  deriving DecidableEq

/-- `crc64_checksum_value`. -/
def crc64ChecksumValue (value : BitVec 64) : ChecksumValue :=
  ⟨(range 8).map fun i => (value >>> (56 - i * 8)).setWidth 8, value⟩

/-- The chunks it is fed, and `finish`. -/
def dataChecksum64 (polynomial : BitVec 64) (chunks : List Bytes) : BitVec 64 :=
  chunks.foldl (updateCrc64 polynomial) (BitVec.allOnes 64) ^^^ BitVec.allOnes 64

structure Parts where
  partChecksumValues : List (BitVec 64)
  partSizes : List Nat
  streamOffset : Nat

/-- The loop of `combined_multipart_checksum`. -/
def combineParts (algorithm : ChecksumAlgorithm) (value : BitVec 64) (size : Nat) :
    List (BitVec 64 × Nat) → Except String (BitVec 64 × Nat)
  | [] => .ok (value, size)
  | (part, length) :: parts =>
    match combineCrc64 algorithm value part length with
    | .error e => .error e
    | .ok value => combineParts algorithm value ((size + length) % 2 ^ 64) parts

/-- `combined_multipart_checksum`. -/
def combinedMultipartChecksum (handle : Parts) (algorithm : ChecksumAlgorithm) :
    Except String ChecksumValue :=
  match handle.partChecksumValues.zip handle.partSizes with
  | [] => .error "multipart CRC64 part metadata is incomplete"
  | (value, size) :: parts =>
    if handle.partChecksumValues.length ≠ handle.partSizes.length then
      .error "multipart CRC64 part metadata is incomplete"
    else
      match combineParts algorithm value size parts with
      | .error e => .error e
      | .ok (value, size) =>
        if size ≠ handle.streamOffset then .error "multipart CRC64 byte count is inconsistent"
        else .ok (crc64ChecksumValue value)

section

def rowsOf (f : BitVec 64 → BitVec 64) : Matrix := (range 64).map fun i => f (1#64 <<< i)

variable {f : BitVec 64 → BitVec 64}

lemma timesFrom_rows (linear : Crc.Linear f) (n k : Nat) (sum vector : BitVec 64)
    (room : vector.toNat < 2 ^ n) :
    timesFrom sum ((range' k n).map fun i => f (1#64 <<< i)) vector =
      sum ^^^ f (vector <<< k) := by
  induction n generalizing k sum vector with
  | zero =>
    obtain rfl : vector = 0#64 := BitVec.eq_of_toNat_eq (by simpa using room)
    rw [BitVec.zero_shiftLeft, linear.zero, BitVec.xor_zero]
    rfl
  | succ n ih =>
    rw [range'_succ, map_cons, timesFrom]
    split
    · rename_i zero
      rw [zero, BitVec.zero_shiftLeft, linear.zero, BitVec.xor_zero]
    · have low : vector <<< k =
          (if vector.getLsbD 0 then 1#64 <<< k else 0#64) ^^^ (vector >>> 1) <<< (k + 1) := by
        have here : vector = (if vector.getLsbD 0 then 1#64 else 0#64) ^^^
            (vector >>> 1) <<< 1 := by
          refine BitVec.eq_of_getLsbD_eq fun i lt => ?_
          cases i with
          | zero => cases vector.getLsbD 0 <;> simp
          | succ i =>
            rw [BitVec.getLsbD_xor, BitVec.getLsbD_shiftLeft, BitVec.getLsbD_ushiftRight]
            cases vector.getLsbD 0 <;> simp [lt, Nat.add_comm]
        conv_lhs => rw [here]
        rw [BitVec.shiftLeft_xor_distrib, ← BitVec.shiftLeft_add, Nat.add_comm 1 k]
        cases vector.getLsbD 0 <;> simp
      have half : (vector >>> 1).toNat < 2 ^ n := by
        rw [BitVec.toNat_ushiftRight, shiftRight_eq_div_pow]
        omega
      rw [ih (k + 1) _ (vector >>> 1) half, low, linear]
      cases vector.getLsbD 0 with
      | false => rw [if_neg Bool.false_ne_true, if_neg Bool.false_ne_true,
          linear.zero, BitVec.zero_xor]
      | true => rw [if_pos rfl, if_pos rfl, BitVec.xor_assoc]

lemma gf2MatrixTimes_rowsOf (linear : Crc.Linear f) (vector : BitVec 64) :
    gf2MatrixTimes (rowsOf f) vector = f vector := by
  rw [gf2MatrixTimes, rowsOf, range_eq_range', timesFrom_rows linear 64 0 0#64 vector vector.isLt,
      BitVec.shiftLeft_zero, BitVec.zero_xor]

lemma gf2MatrixSquare_rowsOf (linear : Crc.Linear f) :
    gf2MatrixSquare (rowsOf f) = rowsOf f^[2] := by
  rw [gf2MatrixSquare, rowsOf, map_map]
  exact map_congr_left fun i _ => gf2MatrixTimes_rowsOf linear _

lemma oddMatrix_eq (polynomial : BitVec 64) :
    oddMatrix polynomial = rowsOf (shift polynomial) := by
  have rows : range 64 = 0 :: (range 63).map succ := range_succ_eq_map
  rw [oddMatrix, rowsOf, rows, map_cons, map_map]
  refine congrArg₂ cons ?_ (map_congr_left fun i mem => ?_)
  · simp [shift]
  · have lt := mem_range.1 mem
    have back := shifts_shiftLeft (p := polynomial) (x := 1#64 <<< i) (k := 1) fun j le => by
      rw [BitVec.getLsbD_shiftLeft, BitVec.getLsbD_one]
      simp
      omega
    rw [← BitVec.shiftLeft_add] at back
    exact back.symm

lemma combineTurns_eq (turns : Nat) (linear : Crc.Linear f) (first : BitVec 64) {length}
    (fits : length < 4 ^ turns) :
    combineTurns turns (rowsOf f) first length = f^[2 * length] first := by
  induction turns generalizing f first length with
  | zero =>
    obtain rfl : length = 0 := by simpa using fits
    rfl
  | succ turns ih =>
    have squared := linear.iterate 2
    have bit (g : BitVec 64 → BitVec 64) (linear : Crc.Linear g) (x : BitVec 64) (n : Nat) :
        (if n % 2 = 1 then gf2MatrixTimes (rowsOf g) x else x) = g^[n % 2] x := by
      rw [gf2MatrixTimes_rowsOf linear]
      rcases mod_two_eq_zero_or_one n with even | odd
      · rw [even]
        rfl
      · rw [odd]
        rfl
    rw [combineTurns, gf2MatrixSquare_rowsOf linear, gf2MatrixSquare_rowsOf squared]
    dsimp only
    rw [bit _ squared, bit _ (squared.iterate 2), ih (squared.iterate 2) _ (by omega)]
    simp only [← iterate_mul, ← iterate_add_apply]
    split
    · congr 1
      omega
    · split
      all_goals
        congr 1
        omega

end

section
variable {algorithm : ChecksumAlgorithm} {polynomial : BitVec 64}

lemma foldl_updateCrc64 (crc : BitVec 64) (chunks : List Bytes) :
    chunks.foldl (updateCrc64 polynomial) crc = bitwise polynomial crc chunks.flatten := by
  induction chunks generalizing crc with
  | nil => rfl
  | cons chunk chunks ih =>
    rw [foldl_cons, ih, updateCrc64_eq, flatten_cons, bitwise_append]

lemma foldl_updateCrc32 (polynomial crc : BitVec 32) (chunks : List Bytes) :
    chunks.foldl (updateCrc32 polynomial) crc = bitwise polynomial crc chunks.flatten := by
  induction chunks generalizing crc with
  | nil => rfl
  | cons chunk chunks ih =>
    rw [foldl_cons, ih, updateCrc32_eq, flatten_cons, bitwise_append]

def crc64 (polynomial : BitVec 64) (data : Bytes) : BitVec 64 :=
  bitwise polynomial (BitVec.allOnes 64) data ^^^ BitVec.allOnes 64

lemma dataChecksum64_eq (chunks : List Bytes) :
    dataChecksum64 polynomial chunks = crc64 polynomial chunks.flatten := by
  rw [dataChecksum64, foldl_updateCrc64, crc64]

lemma crc64_append (a b : Bytes) : crc64 polynomial (a ++ b) =
      (shift polynomial)^[8 * b.length] (crc64 polynomial a) ^^^ crc64 polynomial b := by
  have cancel (x y z : BitVec 64) : x ^^^ y ^^^ (y ^^^ z) = x ^^^ z := by
    rw [BitVec.xor_assoc, ← BitVec.xor_assoc y, BitVec.xor_self, BitVec.zero_xor]
  simp only [crc64, bitwise_append]
  rw [bitwise_linear _ b, bitwise_linear (BitVec.allOnes 64) b, linear_shifts,
    BitVec.xor_assoc _ (bitwise polynomial 0#64 b), BitVec.xor_assoc _ (bitwise _ _ b),
    cancel]

lemma combineCrc64_eq (found : algorithm.polynomial64 = some polynomial) (a : Bytes) {b}
    (fits : b.length < 2 ^ 64) :
    combineCrc64 algorithm (crc64 polynomial a) (crc64 polynomial b) b.length =
      .ok (crc64 polynomial (a ++ b)) := by
  rw [combineCrc64]
  split
  · rename_i empty
    rw [eq_nil_of_length_eq_zero empty, append_nil]
  · have one : Crc.Linear (shift polynomial) := shift_xor
    rw [found]
    dsimp only
    rw [oddMatrix_eq, gf2MatrixSquare_rowsOf one, gf2MatrixSquare_rowsOf (one.iterate 2),
      combineTurns_eq 32 ((one.iterate 2).iterate 2) _ (by simpa using fits), crc64_append]
    simp only [← iterate_mul]
    rw [show 2 * 2 * (2 * b.length) = 8 * b.length by omega]

lemma combineParts_eq (found : algorithm.polynomial64 = some polynomial) (done : Bytes)
    (parts : List Bytes) (fits : (done ++ parts.flatten).length < 2 ^ 64) :
    combineParts algorithm (crc64 polynomial done) done.length
        (parts.map fun part => (crc64 polynomial part, part.length)) =
      .ok (crc64 polynomial (done ++ parts.flatten), (done ++ parts.flatten).length) := by
  induction parts generalizing done with
  | nil => rw [flatten_nil, append_nil]; rfl
  | cons part parts ih =>
    rw [flatten_cons, ← append_assoc] at fits ⊢
    have total : (done ++ part).length + parts.flatten.length < 2 ^ 64 := by
      rw [← length_append]
      exact fits
    have size : (done.length + part.length) % 2 ^ 64 = (done ++ part).length := by
      rw [length_append] at total ⊢
      exact mod_eq_of_lt (by omega)
    rw [map_cons, combineParts, combineCrc64_eq found done (by
      rw [length_append] at total
      omega), size]
    exact ih (done ++ part) fits

def Parts.sent (polynomial : BitVec 64) (parts : List Bytes) : Parts :=
  ⟨parts.map (dataChecksum64 polynomial [·]), parts.map length, parts.flatten.length⟩

/-- **The checksums are right.** The updates are the check bit by bit, whatever the polynomial and
the chunks; the checksums of two strings combine to that of both, and those of the parts of an
upload to that of the whole. -/
theorem checksums_correct : (∀ (polynomial crc : BitVec 32) (chunks : List Bytes),
      chunks.foldl (updateCrc32 polynomial) crc = bitwise polynomial crc chunks.flatten) ∧
    (∀ (polynomial crc : BitVec 64) (chunks : List Bytes),
      chunks.foldl (updateCrc64 polynomial) crc = bitwise polynomial crc chunks.flatten) ∧
    ∀ (algorithm : ChecksumAlgorithm) (polynomial : BitVec 64),
      algorithm.polynomial64 = some polynomial →
      (∀ a b : List Bytes, b.flatten.length < 2 ^ 64 →
        combineCrc64 algorithm (dataChecksum64 polynomial a) (dataChecksum64 polynomial b)
          b.flatten.length = .ok (dataChecksum64 polynomial (a ++ b))) ∧
      ∀ (part : Bytes) (parts whole : List Bytes), whole.flatten = (part :: parts).flatten →
        whole.flatten.length < 2 ^ 64 →
        combinedMultipartChecksum (.sent polynomial (part :: parts)) algorithm =
          .ok (crc64ChecksumValue (dataChecksum64 polynomial whole)) := by
  refine ⟨foldl_updateCrc32, fun polynomial => foldl_updateCrc64, fun algorithm polynomial found =>
    ⟨fun a b fits => ?_, fun part parts whole same fits => ?_⟩⟩
  · rw [dataChecksum64_eq, dataChecksum64_eq, dataChecksum64_eq, flatten_append]
    exact combineCrc64_eq found a.flatten fits
  · rw [flatten_cons] at same
    have loop := combineParts_eq found part parts (same ▸ fits)
    have values : (part :: parts).map (dataChecksum64 polynomial [·]) =
        (part :: parts).map (crc64 polynomial) :=
      map_congr_left fun data _ => by rw [dataChecksum64_eq, flatten_singleton]
    have pairs : ((part :: parts).map (crc64 polynomial)).zip ((part :: parts).map length) =
        (crc64 polynomial part, part.length) ::
          parts.map fun part => (crc64 polynomial part, part.length) :=
      zip_map' ..
    simp only [combinedMultipartChecksum, Parts.sent, values, pairs, loop]
    rw [if_neg (by simp), if_neg (by simp), ← same, dataChecksum64_eq]

theorem checksums_correct_pair :
    combineCrc64 .crc64xz (dataChecksum64 0xc96c5795d7870f42#64 [[97], [98]])
      (dataChecksum64 0xc96c5795d7870f42#64 [[99]]) 1 =
        .ok (dataChecksum64 0xc96c5795d7870f42#64 [[97], [98], [99]]) :=
  (checksums_correct.2.2 .crc64xz 0xc96c5795d7870f42#64 rfl).1 [[97], [98]] [[99]] (by decide)

-- the check value of CRC-32: the digits 1 to 9
example : bitwise 0xedb88320#32 (BitVec.allOnes 32) [49, 50, 51, 52, 53, 54, 55, 56, 57] ^^^
    BitVec.allOnes 32 = 0xcbf43926#32 := by decide +kernel

end

end Ngs3fs.S3
