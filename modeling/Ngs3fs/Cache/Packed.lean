import Ngs3fs.Cache.Geometry

/-!
# The packed bitmap

The bitmap as the metadata file has it: words of 64 bits with two bits for each page. `page_state`,
`set_page_state` and `range_all_state` compute on it what `Bitmap` says. -/

namespace Ngs3fs.Cache
open Function BitVec Nat

abbrev Words := Nat → BitVec 64

namespace CachePageState

def code : CachePageState → BitVec 64
  | missing => 0b00
  | readPending => 0b01
  | clean => 0b10
  | bad => 0b11

def ofCode (c : BitVec 64) : CachePageState :=
  if c = 0b00 then missing else if c = 0b01 then readPending else if c = 0b10 then clean else bad

end CachePageState

namespace Words
variable (words : Words)

/-- `page_state`. -/
def pageState (page : Nat) : CachePageState :=
  .ofCode ((words (page / 32) >>> (page % 32 * 2)) &&& 3)

/-- The exchange succeeds in the end with the word that it then replaces. -/
def setPageState (page : Nat) (state : CachePageState) : Words :=
  let shift := page % 32 * 2
  let mask := 3#64 <<< shift
  let current := words (page / 32)
  update words (page / 32) ((current &&& ~~~mask) ||| (state.code <<< shift))

/-- The loop of `range_all_state` from `page` on. -/
def allFrom (state : CachePageState) (page last : Nat) : Bool :=
  if page < last then
    let bit := page % 32 * 2
    let count := min (32 - page % 32) (last - page)
    let mask := (allOnes 64 >>> ((32 - count) * 2)) <<< bit
    let pattern := state.code * 0x5555555555555555
    if words (page / 32) &&& mask ≠ pattern &&& mask then false
    else allFrom state (page + count) last
  else true
termination_by last - page

def rangeAllState (offset length : Nat) (state : CachePageState) : Bool :=
  if length = 0 then true
  else
    words.allFrom state (offset / kCacheBitmapUnit) ((offset + length - 1) / kCacheBitmapUnit + 1)

/-- The bits in the order of the pages. -/
def bit (i : Nat) : Bool := (words (i / 64)).getLsbD (i % 64)

/-- What `Bitmap` has of it. -/
def unpack : Bitmap := words.pageState

variable {words} {state : CachePageState}

lemma ofCode_eq_iff (c : BitVec 64) : CachePageState.ofCode (c &&& 3) = state ↔
    c.getLsbD 0 = state.code.getLsbD 0 ∧ c.getLsbD 1 = state.code.getLsbD 1 := by
  have small : (c &&& 3).toNat < 4 := by
    rw [toNat_and]
    exact lt_succ_of_le and_le_right
  have low : c &&& 3 = BitVec.ofNat 64 (⟨_, small⟩ : Fin 4) := by simp
  have first : c.getLsbD 0 = (c &&& 3).getLsbD 0 := by simp
  have second : c.getLsbD 1 = (c &&& 3).getLsbD 1 := by simp
  have all : ∀ r : Fin 4, CachePageState.ofCode (BitVec.ofNat 64 r) = state ↔
      (BitVec.ofNat 64 r).getLsbD 0 = state.code.getLsbD 0 ∧
      (BitVec.ofNat 64 r).getLsbD 1 = state.code.getLsbD 1 := by cases state <;> decide
  rw [first, second, low]
  exact all _

lemma pageState_eq_iff {page} : words.pageState page = state ↔
    words.bit (2 * page) = state.code.getLsbD 0 ∧
    words.bit (2 * page + 1) = state.code.getLsbD 1 := by
  rw [pageState, ofCode_eq_iff, getLsbD_ushiftRight, getLsbD_ushiftRight, bit, bit,
    show 2 * page / 64 = page / 32 by omega, show (2 * page + 1) / 64 = page / 32 by omega,
    show 2 * page % 64 = page % 32 * 2 + 0 by omega,
    show (2 * page + 1) % 64 = page % 32 * 2 + 1 by omega]

lemma pattern_bit (i : Nat) :
    (state.code * 0x5555555555555555).getLsbD (i % 64) = state.code.getLsbD (i % 2) := by
  have all : ∀ i : Fin 64, (state.code * 0x5555555555555555).getLsbD i =
      state.code.getLsbD (i % 2) := by cases state <;> decide
  rw [all ⟨i % 64, mod_lt _ (by decide)⟩]
  congr 1
  dsimp only
  omega

lemma code_shifted {page i} (same : i / 64 = page / 32) :
    (state.code <<< (page % 32 * 2)).getLsbD (i % 64) =
      (decide (i / 2 = page) && state.code.getLsbD (i % 2)) := by
  rw [getLsbD_shiftLeft, decide_eq_true (mod_lt i (by decide : 0 < 64))]
  by_cases here : i / 2 = page
  · rw [show i % 64 - page % 32 * 2 = i % 2 by omega, decide_eq_true here,
      decide_eq_false (by omega)]
    rfl
  by_cases below : i % 64 < page % 32 * 2
  · rw [decide_eq_false here, decide_eq_true below]
    rfl
  · have high : state.code.toNat < 2 ^ (i % 64 - page % 32 * 2) :=
      Nat.lt_of_lt_of_le (by cases state <;> decide : _ < 2 ^ 2)
        (Nat.pow_le_pow_right (by decide) (by omega))
    rw [decide_eq_false here, getLsbD, testBit_lt_two_pow high, Bool.and_false]
    rfl

lemma setPageState_bit (page i : Nat) : (words.setPageState page state).bit i =
    if i / 2 = page then state.code.getLsbD (i % 2) else words.bit i := by
  rw [bit, setPageState]
  by_cases same : i / 64 = page / 32
  · have mask : (3#64 <<< (page % 32 * 2)).getLsbD (i % 64) = decide (i / 2 = page) := by
      refine (@code_shifted .bad page i same).trans ?_
      obtain h | h := mod_two_eq_zero_or_one i <;> rw [h] <;> exact Bool.and_true _
    rw [same, update_self, getLsbD_or, getLsbD_and, getLsbD_not,
      code_shifted same, mask, decide_eq_true (mod_lt i (by decide)), bit, same]
    by_cases here : i / 2 = page
    · simp [here]
    · simp [here]
  · rw [update_of_ne same, if_neg (by omega), bit]

lemma mask_bit {page count j} (fits : page % 32 + count ≤ 32) (inside : j < 64) :
    ((allOnes 64 >>> ((32 - count) * 2)) <<< (page % 32 * 2)).getLsbD j =
      decide (page % 32 * 2 ≤ j ∧ j < (page % 32 + count) * 2) := by
  rw [getLsbD_shiftLeft, getLsbD_ushiftRight, getLsbD_allOnes, Bool.eq_iff_iff]
  simp only [Bool.and_eq_true, Bool.not_eq_true', decide_eq_true_eq, decide_eq_false_iff_not]
  omega

lemma masked_eq_iff {page count : Nat} (fits : page % 32 + count ≤ 32) :
    let mask := (allOnes 64 >>> ((32 - count) * 2)) <<< (page % 32 * 2)
    words (page / 32) &&& mask = (state.code * 0x5555555555555555) &&& mask ↔
      ∀ i, 2 * page ≤ i → i < 2 * (page + count) → words.bit i = state.code.getLsbD (i % 2) := by
  intro mask
  constructor
  · intro same i low high
    have here := congrArg (fun w => w.getLsbD (i % 64)) same
    rw [getLsbD_and, getLsbD_and, mask_bit fits (mod_lt i (by decide)),
      decide_eq_true (by omega), Bool.and_true, Bool.and_true, pattern_bit] at here
    rw [bit, ← here]
    congr 2
    omega
  · intro same
    refine eq_of_getLsbD_eq fun j inside => ?_
    rw [getLsbD_and, getLsbD_and, mask_bit fits inside]
    by_cases here : page % 32 * 2 ≤ j ∧ j < (page % 32 + count) * 2
    · have bits := same (page / 32 * 64 + j) (by omega) (by omega)
      rw [← pattern_bit, bit, show (page / 32 * 64 + j) / 64 = page / 32 by omega,
        show (page / 32 * 64 + j) % 64 = j by omega] at bits
      rw [bits]
    · rw [decide_eq_false here, Bool.and_false, Bool.and_false]

/-- Each turn compares up to the end of the word or of the range. -/
lemma allFrom_iff (page last : Nat) : words.allFrom state page last = true ↔
    ∀ i, 2 * page ≤ i → i < 2 * last → words.bit i = state.code.getLsbD (i % 2) := by
  fun_induction allFrom words state page last with
  | case1 page more bit count mask pattern differ =>
    simp only [Bool.false_eq_true, false_iff]
    intro same
    refine differ ((masked_eq_iff (by omega)).2 fun i low high => same i low (by omega))
  | case2 page more bit count mask pattern same ih =>
    have here := (masked_eq_iff (by omega)).1 (not_not.1 same)
    rw [ih]
    constructor
    · intro rest i low high
      by_cases word : i < 2 * (page + count)
      · exact here i low word
      · exact rest i (by omega) high
    · exact fun all i low high => all i (by omega) high
  | case3 page done =>
    simp only [true_iff]
    omega

lemma bits_iff_pages (first last : Nat) :
    (∀ i, 2 * first ≤ i → i < 2 * last → words.bit i = state.code.getLsbD (i % 2)) ↔
      ∀ page, first ≤ page → page < last → words.pageState page = state := by
  constructor
  · intro bits page low high
    have zero := bits (2 * page) (by omega) (by omega)
    have one := bits (2 * page + 1) (by omega) (by omega)
    rw [show 2 * page % 2 = 0 by omega] at zero
    rw [show (2 * page + 1) % 2 = 1 by omega] at one
    exact pageState_eq_iff.2 ⟨zero, one⟩
  · intro pages i low high
    obtain ⟨zero, one⟩ := pageState_eq_iff.1 (pages (i / 2) (by omega) (by omega))
    obtain even | odd := mod_two_eq_zero_or_one i
    · rw [even, ← zero, show 2 * (i / 2) = i by omega]
    · rw [odd, ← one, show 2 * (i / 2) + 1 = i by omega]

lemma unpack_setPageState (page : Nat) :
    (words.setPageState page state).unpack = words.unpack.set page state := by
  funext other
  rw [Bitmap.set]
  refine pageState_eq_iff.2 ?_
  rw [setPageState_bit, setPageState_bit, show 2 * other / 2 = other by omega,
    show (2 * other + 1) / 2 = other by omega, show 2 * other % 2 = 0 by omega,
    show (2 * other + 1) % 2 = 1 by omega]
  by_cases same : other = page
  · rw [same, update_self, if_pos rfl, if_pos rfl]
    exact ⟨rfl, rfl⟩
  · rw [update_of_ne same, if_neg same, if_neg same]
    exact pageState_eq_iff.1 rfl

lemma page_touched {offset length page} (pos : length ≠ 0) :
    offset / kCacheBitmapUnit ≤ page ∧ page < (offset + length - 1) / kCacheBitmapUnit + 1 ↔
      ∃ i, offset ≤ i ∧ i < offset + length ∧ i / kCacheBitmapUnit = page := by
  simp only [kCacheBitmapUnit]
  constructor
  · rintro ⟨low, high⟩
    exact ⟨max offset (page * 32768), by omega, by omega, by omega⟩
  · rintro ⟨i, low, high, rfl⟩
    omega

end Words

/-- The bits of one page are set and no other, and the test of a range is that of every page with a
byte of it. -/
theorem packed_bitmap (words : Words) (page : Nat) (state : CachePageState) (offset length : Nat) :
    (∀ i, (words.setPageState page state).bit i =
      if i / 2 = page then state.code.getLsbD (i % 2) else words.bit i) ∧
    (words.setPageState page state).unpack = words.unpack.set page state ∧
    (words.rangeAllState offset length state = true ↔
      ∀ i, offset ≤ i → i < offset + length → words.unpack (i / kCacheBitmapUnit) = state) := by
  refine ⟨Words.setPageState_bit page, Words.unpack_setPageState page, ?_⟩
  rw [Words.rangeAllState]
  split
  · simp only [true_iff]
    omega
  next pos =>
    rw [Words.allFrom_iff, Words.bits_iff_pages]
    constructor
    · intro pages i low high
      obtain ⟨first, last⟩ := (Words.page_touched pos).2 ⟨i, low, high, rfl⟩
      exact pages _ first last
    · intro bytes page first last
      obtain ⟨i, low, high, rfl⟩ := (Words.page_touched pos).1 ⟨first, last⟩
      exact bytes i low high

end Ngs3fs.Cache
