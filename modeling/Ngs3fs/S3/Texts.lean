import Mathlib.Data.List.TakeWhile
import Ngs3fs.S3.Range

/-!
# Texts of requests and answers

`uri_encode` with the decoder of listed keys and the check of request paths, and the range that a
partial answer names. -/

namespace Ngs3fs.S3
open List

/-! ### Escapes -/

/-- The characters of a byte string. -/
def byteText (s : List UInt8) : Text := s.map fun b => Char.ofNat b.toFin

/-- `isxdigit` of the C locale. -/
def isXdigit (c : Char) : Bool := c.isDigit || ('a' ≤ c && c ≤ 'f') || ('A' ≤ c && c ≤ 'F')

/-- `hex_value`. -/
def hexValue (c : Char) : Nat := if c.isDigit then c.toNat - 48 else (c.toNat ||| 0x20) - 97 + 10

/-- `none` is the error of `percent_decode`. -/
def percentDecode : Text → Option Text
  | '%' :: high :: low :: rest =>
    if isXdigit high && isXdigit low then
      (percentDecode rest).map (Char.ofNat ((hexValue high <<< 4 ||| hexValue low) % 256) :: ·)
    else none
  | '%' :: _ => none
  | c :: rest => (percentDecode rest).map (c :: ·)
  | [] => some []

/-- The loop of `is_encoded_request_path`. -/
def requestCharacters : Text → Bool
  | '%' :: high :: low :: rest => isXdigit high && isXdigit low && requestCharacters rest
  | '%' :: _ => false
  | c :: rest => !(c.toNat ≤ 0x20 || c.toNat == 0x7f) && requestCharacters rest
  | [] => true

/-- `is_encoded_request_path`. -/
def isEncodedRequestPath (p : Text) : Bool :=
  p.head? == some '/' && !p.elem '?' && requestCharacters p

def unreserved (slashes : Bool) (c : Char) : Bool :=
  c.isAlphanum || c == '-' || c == '.' || c == '_' || c == '~' || (slashes && c == '/')

/-- Unreserved characters, and escapes with upper-case digits. -/
inductive Escaped (slashes : Bool) : Text → Prop
  | nil : Escaped slashes []
  | plain {c rest} : unreserved slashes c = true → Escaped slashes rest →
      Escaped slashes (c :: rest)
  | escape {high low rest} : high ∈ hexDigits → low ∈ hexDigits → Escaped slashes rest →
      Escaped slashes ('%' :: high :: low :: rest)

/-- What a byte is written as, and how it is read back. -/
lemma uriEncode_byte : ∀ slashes, ∀ n : Fin 256,
    let c := Char.ofNat n
    let high := hexDigits.getD (n / 16) '0'
    let low := hexDigits.getD (n % 16) '0'
    (uriEncode [c] slashes = [c] ∧ unreserved slashes c = true ∧ c ≠ '%' ∧ c ≠ '?' ∧
      (decide (c.toNat ≤ 0x20) || c.toNat == 0x7f) = false) ∨
    (uriEncode [c] slashes = ['%', high, low] ∧ high ∈ hexDigits ∧ low ∈ hexDigits ∧
      Char.ofNat ((hexValue high <<< 4 ||| hexValue low) % 256) = c) := by
  decide +kernel

lemma requestCharacters_plain {c} (rest : Text) (percent : c ≠ '%') :
    requestCharacters (c :: rest) =
      (!(c.toNat ≤ 0x20 || c.toNat == 0x7f) && requestCharacters rest) :=
  requestCharacters.eq_3 _ _ (fun _ _ _ h _ => percent h) percent

lemma hexDigit_xdigit {c} (h : c ∈ hexDigits) : isXdigit c = true ∧ c ≠ '?' := by
  have all : hexDigits.all (fun c => isXdigit c && c != '?') = true := by decide
  simpa using all_eq_true.1 all c h

lemma uriEncode_cons (b : UInt8) (s : List UInt8) (slashes : Bool) :
    uriEncode (byteText (b :: s)) slashes =
      uriEncode [Char.ofNat b.toFin] slashes ++ uriEncode (byteText s) slashes := by
  rw [uriEncode, uriEncode, uriEncode, flatMap_singleton]
  rfl

lemma uriEncode_spec (s : List UInt8) (slashes : Bool) :
    percentDecode (uriEncode (byteText s) slashes) = some (byteText s) ∧
    Escaped slashes (uriEncode (byteText s) slashes) ∧
    requestCharacters (uriEncode (byteText s) slashes) = true ∧
    '?' ∉ uriEncode (byteText s) slashes := by
  induction s with
  | nil => exact ⟨rfl, .nil, rfl, nofun⟩
  | cons b s ih =>
    obtain ⟨decoded, escaped, accepted, query⟩ := ih
    rw [uriEncode_cons]
    obtain ⟨same, free, percent, mark, printable⟩ | ⟨code, hHigh, hLow, value⟩ :=
      uriEncode_byte slashes b.toFin
    · rw [same, singleton_append]
      refine ⟨?_, .plain free escaped, ?_, mt mem_cons.1 (not_or.2 ⟨mark.symm, query⟩)⟩
      · rw [percentDecode.eq_3 _ _ (fun _ _ _ h _ => percent h) percent, decoded]
        rfl
      · rw [requestCharacters_plain _ percent, printable, accepted]
        rfl
    · obtain ⟨xHigh, queryHigh⟩ := hexDigit_xdigit hHigh
      obtain ⟨xLow, queryLow⟩ := hexDigit_xdigit hLow
      rw [code]
      refine ⟨?_, .escape hHigh hLow escaped, ?_, ?_⟩
      · simp only [cons_append, nil_append, percentDecode, xHigh, xLow, decoded, value]
        rfl
      · simp only [cons_append, nil_append, requestCharacters, xHigh, xLow, accepted]
        rfl
      · simp only [cons_append, nil_append, mem_cons, not_or]
        exact ⟨by decide, queryHigh.symm, queryLow.symm, query⟩

lemma byteText_inj {s s'} (h : byteText s = byteText s') : s = s' := by
  have code : ∀ n : Fin 256, (Char.ofNat n).toNat = n := by decide +kernel
  refine map_injective_iff.2 (fun b b' same => ?_) h
  exact UInt8.toFin_inj.1 (Fin.ext ((code _).symm.trans (same ▸ code _)))

theorem uri_round_trip (s : List UInt8) (slashes : Bool) :
    percentDecode (uriEncode (byteText s) slashes) = some (byteText s) ∧
    (∀ s', uriEncode (byteText s') slashes = uriEncode (byteText s) slashes → s' = s) ∧
    Escaped slashes (uriEncode (byteText s) slashes) ∧
    isEncodedRequestPath ('/' :: uriEncode (byteText s) true) = true := by
  obtain ⟨decoded, escaped, -⟩ := uriEncode_spec s slashes
  obtain ⟨-, -, accepted, query⟩ := uriEncode_spec s true
  refine ⟨decoded, fun s' same => ?_, escaped, ?_⟩
  · have decoded' := (uriEncode_spec s' slashes).1
    rw [same, decoded] at decoded'
    exact byteText_inj (Option.some.inj decoded').symm
  · have slash : '/' ≠ '%' := by decide
    simp [isEncodedRequestPath, requestCharacters_plain _ slash, accepted, query]

/-! ### Numbers -/

def decimal (text : Text) : Nat := text.foldl (fun n c => n * 10 + (c.toNat - 48)) 0

/-- `std::from_chars` for an unsigned type with `bound` values: the number and what follows it. -/
def fromChars (bound : Nat) (text : Text) : Option (Nat × Text) :=
  let digits := text.takeWhile Char.isDigit
  if digits = [] ∨ bound ≤ decimal digits then none
  else some (decimal digits, text.dropWhile Char.isDigit)

/-- A number of an unsigned type that takes up the whole text. -/
def parseAll (bound : Nat) (text : Text) : Option Nat :=
  match fromChars bound text with
  | some (n, []) => some n
  | _ => none

structure Denotes (bound : Nat) (text : Text) (n : Nat) : Prop where
  nonempty : text ≠ []
  digits : ∀ c ∈ text, c.isDigit = true
  value : decimal text = n
  fits : n < bound

lemma parseAll_iff {bound n text} : parseAll bound text = some n ↔ Denotes bound text n := by
  constructor
  · intro h
    rw [parseAll, fromChars] at h
    split at h
    next value parsed =>
      split at parsed
      · cases parsed
      next some' =>
        rw [not_or] at some'
        rw [Option.some.injEq, Prod.mk.injEq, dropWhile_eq_nil_iff] at parsed
        obtain ⟨same, all⟩ := parsed
        rw [takeWhile_eq_self_iff.2 all] at some' same
        cases h
        exact ⟨some'.1, all, same, same ▸ Nat.lt_of_not_le some'.2⟩
    · cases h
  · rintro ⟨nonempty, digits, rfl, fits⟩
    rw [parseAll, fromChars, takeWhile_eq_self_iff.2 digits, dropWhile_eq_nil_iff.2 digits,
      if_neg (not_or.2 ⟨nonempty, Nat.not_le.2 fits⟩)]

/-- The texts before and after the first `c`. -/
def cut (c : Char) : Text → Option (Text × Text)
  | [] => none
  | x :: rest => if x = c then some ([], rest) else (cut c rest).map fun p => (x :: p.1, p.2)

lemma cut_eq_some {c text before after} (h : cut c text = some (before, after)) :
    text = before ++ c :: after := by
  induction text generalizing before with
  | nil => cases h
  | cons x rest ih =>
    rw [cut] at h
    split at h
    next same =>
      cases h
      rw [same, nil_append]
    · obtain ⟨p, found, same⟩ := Option.map_eq_some_iff.1 h
      cases same
      rw [ih found, cons_append]

lemma cut_append {c before} (after : Text) (free : c ∉ before) :
    cut c (before ++ c :: after) = some (before, after) := by
  induction before with
  | nil => exact if_pos rfl
  | cons x rest ih =>
    rw [mem_cons, not_or] at free
    rw [cons_append, cut, if_neg (Ne.symm free.1), ih free.2]
    rfl

def bytesPrefix : Text := "bytes ".toList

/-- `s3_content_range_matches`. -/
def contentRangeMatches (value : Text) (offset length objectSize : Nat) : Bool :=
  if length = 0 || !bytesPrefix.isPrefixOf value then false
  else
    match cut '-' (value.drop bytesPrefix.length) with
    | none => false
    | some (first, rest) =>
      match cut '/' rest with
      | none => false
      | some (last, total) =>
        !total.elem '/' &&
          match parseAll (2 ^ 64) first, parseAll (2 ^ 64) last, parseAll (2 ^ 64) total with
          | some first, some last, some total =>
            first == offset && total == objectSize && first ≤ last && last - first == length - 1
          | _, _, _ => false

lemma Denotes.free {bound n text} (h : Denotes bound text n) {c}
    (other : c.isDigit = false) : c ∉ text :=
  fun mem => Bool.false_ne_true (other.symm.trans (h.digits c mem))

theorem contentRangeMatches_iff (value : Text) (offset length objectSize : Nat) :
    contentRangeMatches value offset length objectSize = true ↔
      length ≠ 0 ∧ ∃ first last total,
        value = bytesPrefix ++ (first ++ '-' :: (last ++ '/' :: total)) ∧
        Denotes (2 ^ 64) first offset ∧ Denotes (2 ^ 64) last (offset + length - 1) ∧
        Denotes (2 ^ 64) total objectSize := by
  constructor
  · intro h
    rw [contentRangeMatches] at h
    split at h
    · cases h
    next asked =>
      rw [Bool.or_eq_true, not_or, Bool.not_eq_true', decide_eq_true_eq, Bool.not_eq_false,
        isPrefixOf_iff_prefix] at asked
      obtain ⟨positive, rest, rfl⟩ := asked
      rw [drop_left] at h
      split at h
      · cases h
      next first rest dash =>
        split at h
        · cases h
        next last total slash =>
          rw [Bool.and_eq_true] at h
          split at h
          next first' last' total' hFirst hLast hTotal =>
            simp only [Bool.and_eq_true, beq_iff_eq, decide_eq_true_eq] at h
            obtain ⟨-, ⟨⟨rfl, rfl⟩, order⟩, distance⟩ := h
            have last_eq : last' = first' + length - 1 := by omega
            rw [cut_eq_some dash, cut_eq_some slash]
            exact ⟨positive, first, last, total, rfl, parseAll_iff.1 hFirst,
              last_eq ▸ parseAll_iff.1 hLast, parseAll_iff.1 hTotal⟩
          · cases h.2
  · rintro ⟨positive, first, last, total, rfl, hFirst, hLast, hTotal⟩
    rw [contentRangeMatches, if_neg, drop_left, cut_append _ (hFirst.free rfl)]
    · dsimp only
      rw [cut_append _ (hLast.free rfl)]
      dsimp only
      rw [parseAll_iff.2 hFirst, parseAll_iff.2 hLast, parseAll_iff.2 hTotal]
      have slash := hTotal.free (c := '/') rfl
      simp [slash]
      omega
    · simp [positive, isPrefixOf_iff_prefix]

end Ngs3fs.S3
