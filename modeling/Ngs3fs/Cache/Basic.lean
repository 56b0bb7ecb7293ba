import Ngs3fs.Lib.Loop

/-!
# The sparse cache entry

Data types of `CacheEntry` (`cache.hpp`, `cache.cpp`) and its geometry. The packed bitmap is a
function from page numbers to states, the vectors indexed by region are functions, and `size_t`
counters are natural numbers. `page_count_` and the length of `referenced_` are computed from the
size. -/

namespace Ngs3fs.Cache

def kCacheBitmapUnit : Nat := 32768

def uint64Max : Nat := 2 ^ 64 - 1

def uint32Max : Nat := 2 ^ 32 - 1

/-- State of one bitmap page. -/
inductive CachePageState where
  | missing
  | readPending
  | clean
  | bad
  deriving DecidableEq

/-- `kPartUnverified` and the other part states. -/
inductive PartState where
  | unverified
  | verifying
  | retrying
  | verified
  | bad
  deriving DecidableEq

/-- `kChecksumUnknown` and the other manifest states. -/
inductive ManifestState where
  | unknown
  | loading
  | available
  | unavailable
  deriving DecidableEq

inductive Errno where
  | ESTALE
  | EAGAIN
  | EOVERFLOW
  deriving DecidableEq

inductive CacheError where
  | systemError (code : Errno) (what : String)
  | logicError (what : String)
  | overflowError (what : String)
  | runtimeError (what : String)
  deriving DecidableEq

/-- What an entry reads of it. The constructor of `LocalCache` rejects other block sizes, so the
proofs are fields. -/
structure CacheConfig where
  blockSize : Nat
  unlimited : Bool
  block_pos : 0 < blockSize
  unit_dvd : kCacheBitmapUnit ∣ blockSize

/-- `CacheFetchClaim`. -/
structure CacheFetchClaim where
  offset : Nat
  epoch : Nat
  id : Nat
  length : Nat
  deriving DecidableEq

/-- `ActiveFetch`. -/
structure ActiveFetch where
  id : Nat
  epoch : Nat
  offset : Nat
  length : Nat
  published : Nat
  verifying : Bool
  retrying : Bool
  priorStates : List CachePageState
  deriving DecidableEq

/-- `CacheChecksumPart`. -/
structure CacheChecksumPart where
  offset : Nat
  size : Nat
  algorithm : Nat
  value : String
  deriving DecidableEq

/-- `CacheChecksumAction`. -/
inductive CacheChecksumAction where
  | none
  | wait
  | bad
  | verify
  deriving DecidableEq

/-- `CacheChecksumClaim`. -/
structure CacheChecksumClaim where
  action : CacheChecksumAction
  offset : Nat
  size : Nat
  epoch : Nat
  part : Nat
  algorithm : Nat
  value : String
  deriving DecidableEq

/-- Page states by page number (`page_state`). -/
abbrev Bitmap := Nat → CachePageState

inductive FileOp where
  | write (offset length : Nat) (content : Nat → UInt8)
  | punch (offset length : Nat)
  | truncate (size : Nat)

/-- The entry of one generation. `writtenEnd`, `dirty` and `exported` are in the metadata header;
`waitTokens` is the counter of the wait event. -/
structure CacheEntry extends config : CacheConfig where
  size : Nat
  writtenEnd : Nat
  epoch : Nat
  bitmap : Bitmap
  referenced : Nat → Bool
  regionPins : Nat → Nat
  activeClaims : List ActiveFetch
  checksumParts : List CacheChecksumPart
  checksumStates : List PartState
  nextClaimId : Nat
  clockHand : Nat
  checksumOps : Nat
  pinnedRegions : Nat
  checksumManifest : ManifestState
  evictionDisabled : Bool
  detached : Bool
  stale : Bool
  dirty : Bool
  exported : Bool
  waiters : Nat
  waitTokens : Nat

namespace FileOp

def Touches : FileOp → Nat → Prop
  | write offset length _, i => offset ≤ i ∧ i < offset + length
  | punch offset length, i => offset ≤ i ∧ i < offset + length
  | truncate _, _ => True

instance : (op : FileOp) → (i : Nat) → Decidable (op.Touches i)
  | write offset length _, i => inferInstanceAs (Decidable (offset ≤ i ∧ i < offset + length))
  | punch offset length, i => inferInstanceAs (Decidable (offset ≤ i ∧ i < offset + length))
  | truncate _, _ => inferInstanceAs (Decidable True)

/-- A punch reads as zeros, and so does everything a truncation cuts. -/
def apply : FileOp → (Nat → UInt8) → Nat → UInt8
  | write offset length content, data, i =>
    if offset ≤ i ∧ i < offset + length then content i else data i
  | punch offset length, data, i => if offset ≤ i ∧ i < offset + length then 0 else data i
  | truncate size, data, i => if i < size then data i else 0

def applyAll (ops : List FileOp) (data : Nat → UInt8) : Nat → UInt8 :=
  ops.foldl (fun data op => op.apply data) data

lemma apply_of_not_touches {op : FileOp} {data i} (h : ¬ op.Touches i) :
    op.apply data i = data i := by
  cases op with
  | write offset length content | punch offset length => exact if_neg h
  | truncate size => exact absurd trivial h

lemma applyAll_of_not_touches {ops data i}
    (h : ∀ op ∈ ops, ¬ op.Touches i) : applyAll ops data i = data i := by
  induction ops generalizing data with
  | nil => rfl
  | cons op ops ih =>
    rw [applyAll, List.foldl_cons, ← applyAll, ih (fun o ho => h o (List.mem_cons_of_mem _ ho))]
    exact apply_of_not_touches (h op List.mem_cons_self)

end FileOp

end Ngs3fs.Cache
