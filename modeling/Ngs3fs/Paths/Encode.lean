import Mathlib.Data.List.Basic

/-!
# Names of key components

`cache_encode_component`: a component of a key is a file name as it is, or escaped in base64url, or
hashed if that is too long. Different components get different names, as long as the hash does not
collide on them, and none gets a name the cache keeps for itself. -/

namespace Ngs3fs.Paths
open List Nat

abbrev Bytes := List UInt8

/-- With a shorter `f_namemax` than this `cache_encode_component` throws. -/
structure Names where
  nameMax : Nat
  sha256 : Bytes → Bytes
  room : 75 ≤ nameMax
  digest_length : ∀ b, (sha256 b).length = 32

/-- Names of 255 bytes, and a hash that keeps the first bytes. -/
def someNames : Names where
  nameMax := 255
  sha256 b := (b ++ replicate 32 0).take 32
  room := by decide
  digest_length b := by simp

def ascii (s : String) : Bytes := s.toList.map fun c => c.toNat.toUInt8

/-- `kCacheEscapePrefix`. -/
def escapePrefix : Bytes := ascii ".~ngs3fs~."

/-- `kCacheValueName`. -/
def valueName : Bytes := ascii ".~ngs3fs~.value"

def temporaryName (pid sequence : Nat) : Bytes :=
  escapePrefix ++ ascii "promote-" ++ ascii (toString pid) ++ ascii "-" ++ ascii (toString sequence)

def digit (alphabet : Bytes) (n : Nat) : UInt8 := alphabet.getD n 0

def base64Alphabet :
    Bytes := ascii "ABCDEFGHIJKLMNOPQRSTUVWXYZabcdefghijklmnopqrstuvwxyz0123456789-_"

def hexAlphabet : Bytes := ascii "0123456789abcdef"

/-- `cache_hex`. -/
def hex : Bytes → Bytes
  | [] => []
  | b :: rest => digit hexAlphabet (b.toNat >>> 4) :: digit hexAlphabet (b.toNat &&& 15) :: hex rest

/-- `cache_base64url`. -/
def base64url : Bytes → Bytes
  | a :: b :: c :: rest =>
    digit base64Alphabet (a.toNat >>> 2) ::
    digit base64Alphabet (((a.toNat &&& 3) <<< 4) ||| (b.toNat >>> 4)) ::
    digit base64Alphabet (((b.toNat &&& 15) <<< 2) ||| (c.toNat >>> 6)) ::
    digit base64Alphabet (c.toNat &&& 63) :: base64url rest
  | [a, b] =>
    [digit base64Alphabet (a.toNat >>> 2),
      digit base64Alphabet (((a.toNat &&& 3) <<< 4) ||| (b.toNat >>> 4)),
      digit base64Alphabet ((b.toNat &&& 15) <<< 2)]
  | [a] => [digit base64Alphabet (a.toNat >>> 2), digit base64Alphabet ((a.toNat &&& 3) <<< 4)]
  | [] => []

/-- `cache_component_needs_escape`. -/
def needsEscape (c : Bytes) : Bool :=
  c = [] || c = ascii "." || c = ascii ".." || escapePrefix.isPrefixOf c ||
    c.any fun b => b < 0x20 || b = 0x7f

/-- `cache_encode_component`. -/
def encodeComponent (names : Names) (c : Bytes) : Bytes :=
  if !needsEscape c && c.length ≤ names.nameMax then c
  else
    let encoded := escapePrefix ++ ascii "b" ++ base64url c
    if encoded.length ≤ names.nameMax then encoded
    else escapePrefix ++ ascii "h" ++ hex (names.sha256 c)

def components (key : Bytes) : List Bytes := key.splitOn 0x2f

def encodedPath (names : Names) (key : Bytes) : List Bytes :=
  (components key).map (encodeComponent names)

def Collisionless (names : Names) (c c' : Bytes) : Prop :=
  names.sha256 c = names.sha256 c' → c = c'

/-! ### Different components have different names -/

lemma digit_inj {alphabet : Bytes} {n}
    (value : ∀ i : Fin n, alphabet.idxOf (digit alphabet i) = i) {i j} (hi : i < n)
    (hj : j < n) (h : digit alphabet i = digit alphabet j) : i = j := by
  have same := congrArg alphabet.idxOf h
  rw [value ⟨i, hi⟩, value ⟨j, hj⟩] at same
  exact same

lemma base64_digit_inj {i j} (hi : i < 64) (hj : j < 64) :
    digit base64Alphabet i = digit base64Alphabet j → i = j := digit_inj (by decide +kernel) hi hj

lemma hex_digit_inj {i j} (hi : i < 16) (hj : j < 16) :
    digit hexAlphabet i = digit hexAlphabet j → i = j := digit_inj (by decide +kernel) hi hj

lemma byte_digits (a b : UInt8) :
    a.toNat >>> 2 = a.toNat / 4 ∧ a.toNat >>> 4 = a.toNat / 16 ∧ a.toNat >>> 6 = a.toNat / 64 ∧
    a.toNat &&& 63 = a.toNat % 64 ∧ a.toNat &&& 15 = a.toNat % 16 ∧
    ((a.toNat &&& 3) <<< 4) = a.toNat % 4 * 16 ∧ ((a.toNat &&& 15) <<< 2) = a.toNat % 16 * 4 ∧
    ((a.toNat &&& 3) <<< 4) ||| (b.toNat >>> 4) = a.toNat % 4 * 16 + b.toNat / 16 ∧
    ((a.toNat &&& 15) <<< 2) ||| (b.toNat >>> 6) = a.toNat % 16 * 4 + b.toNat / 64 := by
  have small := b.toNat_lt
  have m3 : a.toNat &&& 3 = a.toNat % 4 := and_two_pow_sub_one_eq_mod _ 2
  have m15 : a.toNat &&& 15 = a.toNat % 16 := and_two_pow_sub_one_eq_mod _ 4
  have m63 : a.toNat &&& 63 = a.toNat % 64 := and_two_pow_sub_one_eq_mod _ 6
  refine ⟨?_, ?_, ?_, m63, m15, ?_, ?_, ?_, ?_⟩
  · exact shiftRight_eq_div_pow _ _
  · exact shiftRight_eq_div_pow _ _
  · exact shiftRight_eq_div_pow _ _
  · rw [m3, shiftLeft_eq]
  · rw [m15, shiftLeft_eq]
  · rw [m3, shiftRight_eq_div_pow, ← shiftLeft_add_eq_or_of_lt (by omega), shiftLeft_eq]
  · rw [m15, shiftRight_eq_div_pow,
        ← shiftLeft_add_eq_or_of_lt (by omega), shiftLeft_eq]

lemma byte_eq (a a' : UInt8) (h : a.toNat = a'.toNat) : a = a' := UInt8.toNat_inj.1 h

lemma hex_inj : ∀ {c c' : Bytes}, hex c = hex c' → c = c' := by
  intro c
  induction c with
  | nil =>
    intro c' h
    cases c' with
    | nil => rfl
    | cons => cases h
  | cons b c ih =>
    intro c' h
    cases c' with
    | nil => cases h
    | cons b' c' =>
      rw [hex, hex, cons.injEq, cons.injEq] at h
      obtain ⟨high, low, rest⟩ := h
      have small := b.toNat_lt
      have small' := b'.toNat_lt
      obtain ⟨-, high4, -, -, low4, -⟩ := byte_digits b 0
      obtain ⟨-, high4', -, -, low4', -⟩ := byte_digits b' 0
      rw [high4, high4'] at high
      rw [low4, low4'] at low
      have h1 := hex_digit_inj (by omega) (by omega) high
      have h2 := hex_digit_inj (by omega) (by omega) low
      rw [byte_eq b b' (by omega), ih rest]

lemma joint_inj {a a' b b' : UInt8}
    (first : digit base64Alphabet (a.toNat >>> 2) = digit base64Alphabet (a'.toNat >>> 2))
    (second : digit base64Alphabet (((a.toNat &&& 3) <<< 4) ||| (b.toNat >>> 4)) =
      digit base64Alphabet (((a'.toNat &&& 3) <<< 4) ||| (b'.toNat >>> 4))) :
    a = a' ∧ b.toNat / 16 = b'.toNat / 16 := by
  have smallA := a.toNat_lt
  have smallA' := a'.toNat_lt
  have smallB := b.toNat_lt
  have smallB' := b'.toNat_lt
  obtain ⟨high, -, -, -, -, -, -, joint, -⟩ := byte_digits a b
  obtain ⟨high', -, -, -, -, -, -, joint', -⟩ := byte_digits a' b'
  rw [high, high'] at first
  rw [joint, joint'] at second
  have h1 := base64_digit_inj (by omega) (by omega) first
  have h2 := base64_digit_inj (by omega) (by omega) second
  exact ⟨byte_eq a a' (by omega), by omega⟩

lemma base64url_inj : ∀ {c c' : Bytes}, base64url c = base64url c' → c = c' := by
  intro c
  induction c using base64url.induct with
  | case1 a b c rest ih =>
    intro c' h
    match c' with
    | [] | [_] | [_, _] => simp [base64url] at h
    | a' :: b' :: c' :: rest' =>
      simp only [base64url, cons.injEq] at h
      obtain ⟨first, second, third, fourth, rest⟩ := h
      obtain ⟨rfl, high⟩ := joint_inj first second
      have smallC := c.toNat_lt
      have smallC' := c'.toNat_lt
      obtain ⟨-, -, -, -, -, -, -, -, next⟩ := byte_digits b c
      obtain ⟨-, -, -, -, -, -, -, -, next'⟩ := byte_digits b' c'
      obtain ⟨-, -, -, low, -⟩ := byte_digits c 0
      obtain ⟨-, -, -, low', -⟩ := byte_digits c' 0
      rw [next, next'] at third
      rw [low, low'] at fourth
      have h3 := base64_digit_inj (by omega) (by omega) third
      have h4 := base64_digit_inj (by omega) (by omega) fourth
      rw [byte_eq b b' (by omega), byte_eq c c' (by omega), ih rest]
  | case2 a b =>
    intro c' h
    match c' with
    | [] | [_] | _ :: _ :: _ :: _ => simp [base64url] at h
    | [a', b'] =>
      simp only [base64url, cons.injEq, and_true] at h
      obtain ⟨first, second, third⟩ := h
      obtain ⟨rfl, high⟩ := joint_inj first second
      obtain ⟨-, -, -, -, -, -, last, -⟩ := byte_digits b 0
      obtain ⟨-, -, -, -, -, -, last', -⟩ := byte_digits b' 0
      rw [last, last'] at third
      have h3 := base64_digit_inj (by omega) (by omega) third
      rw [byte_eq b b' (by omega)]
  | case3 a =>
    intro c' h
    match c' with
    | [] | [_, _] | _ :: _ :: _ :: _ => simp [base64url] at h
    | [a'] =>
      simp only [base64url, cons.injEq, and_true] at h
      obtain ⟨first, second⟩ := h
      have smallA := a.toNat_lt
      have smallA' := a'.toNat_lt
      obtain ⟨high, -, -, -, -, last, -⟩ := byte_digits a 0
      obtain ⟨high', -, -, -, -, last', -⟩ := byte_digits a' 0
      rw [high, high'] at first
      rw [last, last'] at second
      have h1 := base64_digit_inj (by omega) (by omega) first
      have h2 := base64_digit_inj (by omega) (by omega) second
      rw [byte_eq a a' (by omega)]
  | case4 =>
    intro c' h
    match c' with
    | [] => rfl
    | [_] | [_, _] | _ :: _ :: _ :: _ => simp [base64url] at h

section
variable {names : Names} {c c' : Bytes}

lemma encodeComponent_cases (names : Names) (c : Bytes) :
    (encodeComponent names c = c ∧ needsEscape c = false) ∨
    encodeComponent names c = escapePrefix ++ ascii "b" ++ base64url c ∨
    encodeComponent names c = escapePrefix ++ ascii "h" ++ hex (names.sha256 c) := by
  rw [encodeComponent]
  split
  · rename_i plain
    simp only [Bool.and_eq_true, Bool.not_eq_true'] at plain
    exact .inl ⟨rfl, plain.1⟩
  · dsimp only
    split
    · exact .inr (.inl rfl)
    · exact .inr (.inr rfl)

lemma ne_of_marked (plain : needsEscape c = false) (rest : Bytes) : c ≠ escapePrefix ++ rest := by
  rintro rfl
  simp only [needsEscape, Bool.or_eq_false_iff] at plain
  rw [ isPrefixOf_iff_prefix.2 (prefix_append _ _)] at plain
  cases plain.1.2

variable (names) in
/-- Its name is that of its hash. -/
def Hashed (c : Bytes) : Prop :=
  encodeComponent names c = escapePrefix ++ ascii "h" ++ hex (names.sha256 c)

lemma encodeComponent_eq (h : encodeComponent names c = encodeComponent names c') :
    c = c' ∨ Hashed names c ∧ Hashed names c' ∧ names.sha256 c = names.sha256 c' := by
  obtain ⟨plain, unmarked⟩ | b64 | hashed := encodeComponent_cases names c
  · obtain ⟨plain', -⟩ | b64' | hashed' := encodeComponent_cases names c'
    · rw [plain, plain'] at h
      exact .inl h
    · rw [plain, b64', append_assoc] at h
      exact absurd h (ne_of_marked unmarked _)
    · rw [plain, hashed', append_assoc] at h
      exact absurd h (ne_of_marked unmarked _)
  · obtain ⟨plain', unmarked'⟩ | b64' | hashed' := encodeComponent_cases names c'
    · rw [plain', b64, append_assoc] at h
      exact absurd h.symm (ne_of_marked unmarked' _)
    · rw [b64, b64'] at h
      exact .inl (base64url_inj (append_cancel_left h))
    · rw [b64, hashed', append_assoc, append_assoc] at h
      have letter := append_cancel_left h
      cases letter
  · obtain ⟨plain', unmarked'⟩ | b64' | hashed' := encodeComponent_cases names c'
    · rw [plain', hashed, append_assoc] at h
      exact absurd h.symm (ne_of_marked unmarked' _)
    · rw [hashed, b64', append_assoc, append_assoc] at h
      have letter := append_cancel_left h
      cases letter
    · rw [hashed, hashed'] at h
      exact .inr ⟨hashed, hashed', hex_inj (append_cancel_left h)⟩

lemma encodeComponent_inj (apart : Collisionless names c c')
    (h : encodeComponent names c = encodeComponent names c') : c = c' := by
  obtain same | ⟨-, -, digest⟩ := encodeComponent_eq h
  · exact same
  · exact apart digest

/-- The mark, and a letter that no encoding has. -/
def Reserved (name : Bytes) : Prop :=
  ∃ rest, name = escapePrefix ++ ascii "v" ++ rest ∨ name = escapePrefix ++ ascii "p" ++ rest

lemma reserved_valueName : Reserved valueName := ⟨ascii "alue", .inl rfl⟩

lemma reserved_temporaryName (pid sequence : Nat) : Reserved (temporaryName pid sequence) := by
  refine ⟨ascii "romote-" ++ (ascii (toString pid) ++ (ascii "-" ++ ascii (toString sequence))),
      .inr ?_⟩
  simp only [temporaryName, append_assoc]
  rfl

lemma encodeComponent_not_reserved (names : Names) (c : Bytes) :
    ¬Reserved (encodeComponent names c) := by
  rintro ⟨rest, marked | marked⟩ <;> rw [append_assoc] at marked
  all_goals
    obtain ⟨plain, unmarked⟩ | b64 | hashed := encodeComponent_cases names c
    · rw [plain] at marked
      exact ne_of_marked unmarked _ marked
    · rw [b64, append_assoc] at marked
      cases append_cancel_left marked
    · rw [hashed, append_assoc] at marked
      cases append_cancel_left marked

/-! ### They are file names -/

lemma hex_length : ∀ c : Bytes, (hex c).length = 2 * c.length
  | [] => rfl
  | _ :: c => by
    rw [hex, length_cons, length_cons, hex_length c, length_cons]
    omega

lemma encodeComponent_length (names : Names) (c : Bytes) :
    (encodeComponent names c).length ≤ names.nameMax := by
  rw [encodeComponent]
  split
  · rename_i plain
    simp only [Bool.and_eq_true, decide_eq_true_eq] at plain
    exact plain.2
  · dsimp only
    split
    · assumption
    · refine Nat.le_trans ?_ names.room
      rw [length_append, hex_length, names.digest_length]
      decide

/-- A byte that a file name may have. -/
def nameByte (b : UInt8) : Bool := b != 0x2f && b != 0

lemma nameByte_base64 {n} (h : n < 64) : nameByte (digit base64Alphabet n) = true := by
  have all : ∀ i : Fin 64, nameByte (digit base64Alphabet i) = true := by decide +kernel
  exact all ⟨n, h⟩

lemma nameByte_hex (c : Bytes) : ∀ b ∈ hex c, nameByte b = true := by
  have all : ∀ i : Fin 16, nameByte (digit hexAlphabet i) = true := by decide +kernel
  induction c with
  | nil => exact nofun
  | cons a c ih =>
    obtain ⟨-, high, -, -, low, -⟩ := byte_digits a 0
    have small := a.toNat_lt
    rw [hex, high, low]
    simp only [forall_mem_cons]
    exact ⟨all ⟨_, by omega⟩, all ⟨_, by omega⟩, ih⟩

lemma nameByte_base64url (c : Bytes) : ∀ b ∈ base64url c, nameByte b = true := by
  induction c using base64url.induct with
  | case1 a b c rest ih =>
    obtain ⟨high, -, -, -, -, -, -, joint, -⟩ := byte_digits a b
    obtain ⟨-, -, -, -, -, -, -, -, next⟩ := byte_digits b c
    obtain ⟨-, -, -, low, -⟩ := byte_digits c 0
    have smallA := a.toNat_lt
    have smallB := b.toNat_lt
    have smallC := c.toNat_lt
    rw [base64url, high, joint, next, low]
    simp only [forall_mem_cons]
    refine ⟨nameByte_base64 ?_, nameByte_base64 ?_, nameByte_base64 ?_, nameByte_base64 ?_, ih⟩
    all_goals omega
  | case2 a b =>
    obtain ⟨high, -, -, -, -, -, -, joint, -⟩ := byte_digits a b
    obtain ⟨-, -, -, -, -, -, last, -⟩ := byte_digits b 0
    have smallA := a.toNat_lt
    have smallB := b.toNat_lt
    rw [base64url, high, joint, last]
    simp only [forall_mem_cons]
    refine ⟨nameByte_base64 ?_, nameByte_base64 ?_, nameByte_base64 ?_, nofun⟩
    all_goals omega
  | case3 a =>
    obtain ⟨high, -, -, -, -, last, -⟩ := byte_digits a 0
    have small := a.toNat_lt
    rw [base64url, high, last]
    simp only [forall_mem_cons]
    refine ⟨nameByte_base64 ?_, nameByte_base64 ?_, nofun⟩
    all_goals omega
  | case4 => exact nofun

lemma marked_name {mark rest : Bytes} (marked : ∀ b ∈ mark, nameByte b = true)
    (encoded : ∀ b ∈ rest, nameByte b = true) : let name := escapePrefix ++ mark ++ rest
    (∀ b ∈ name, nameByte b = true) ∧ name ≠ [] ∧ name ≠ ascii "." ∧ name ≠ ascii ".." := by
  refine ⟨forall_mem_append.2 ⟨forall_mem_append.2 ⟨all_eq_true.1 rfl, marked⟩, encoded⟩, ?_⟩
  refine ⟨?_, ?_, ?_⟩
  all_goals
    intro short
    have length := congrArg length short
    rw [append_assoc, length_append] at length
    exact absurd length (Nat.ne_of_gt (Nat.lt_add_right _ (by decide)))

lemma plain_name (slash : 0x2f ∉ c) (plain : needsEscape c = false) :
    (∀ b ∈ c, nameByte b = true) ∧ c ≠ [] ∧ c ≠ ascii "." ∧ c ≠ ascii ".." := by
  simp only [needsEscape, Bool.or_eq_false_iff, decide_eq_false_iff_not, any_eq_false,
    Bool.or_eq_true, decide_eq_true_eq, not_or] at plain
  obtain ⟨⟨⟨⟨empty, dot⟩, dots⟩, -⟩, printable⟩ := plain
  refine ⟨fun b mem => ?_, empty, dot, dots⟩
  rw [nameByte, Bool.and_eq_true, bne_iff_ne, bne_iff_ne]
  refine ⟨fun h => slash (h ▸ mem), fun h => (printable b mem).1 (h ▸ by decide)⟩

end

/-- The name of a component without a slash is that of a file and none that the cache keeps for
itself. Two components have the same name only if both are hashed, to the same digest. -/
theorem component_name (names : Names) (c : Bytes) (slash : 0x2f ∉ c) :
    let name := encodeComponent names c
    ((∀ b ∈ name, nameByte b = true) ∧ name ≠ [] ∧ name ≠ ascii "." ∧ name ≠ ascii "..") ∧
    name.length ≤ names.nameMax ∧ name ≠ valueName ∧
    (∀ pid sequence, name ≠ temporaryName pid sequence) ∧
    ∀ c', encodeComponent names c' = name →
      c' = c ∨ Hashed names c' ∧ Hashed names c ∧ names.sha256 c' = names.sha256 c := by
  have unreserved := encodeComponent_not_reserved names c
  refine ⟨?_, encodeComponent_length names c, ?_, ?_, fun c' => encodeComponent_eq⟩
  · obtain ⟨same, plain⟩ | b64 | hashed := encodeComponent_cases names c
    · rw [same]
      exact plain_name slash plain
    · rw [b64]
      exact marked_name (all_eq_true.1 rfl) (nameByte_base64url c)
    · rw [hashed]
      exact marked_name (all_eq_true.1 rfl) (nameByte_hex _)
  · exact fun h => unreserved (h ▸ reserved_valueName)
  · exact fun pid sequence h => unreserved (h ▸ reserved_temporaryName pid sequence)

theorem component_name_value :
    encodeComponent someNames valueName ≠ valueName ∧ 0x2f ∉ valueName := by
  have slash : 0x2f ∉ valueName := by decide
  exact ⟨(component_name someNames valueName slash).2.2.1, slash⟩

section
variable {names : Names} {c c' : Bytes}

def NoCollisions (names : Names) (keys : List Bytes) : Prop :=
  ∀ k ∈ keys, ∀ k' ∈ keys, ∀ c ∈ components k, ∀ c' ∈ components k', Collisionless names c c'

lemma map_inj_on {α β : Type} {f : α → β} : ∀ {l l' : List α},
    (∀ a ∈ l, ∀ b ∈ l', f a = f b → a = b) → l.map f = l'.map f → l = l' := by
  intro l
  induction l with
  | nil =>
    intro l' _ h
    exact (map_eq_nil_iff.1 h.symm).symm
  | cons a l ih =>
    intro l' inj h
    cases l' with
    | nil => cases h
    | cons b l' =>
      rw [map_cons, map_cons, cons.injEq] at h
      rw [inj a mem_cons_self b mem_cons_self h.1,
        ih (fun a ha b hb => inj a (mem_cons_of_mem _ ha) b (mem_cons_of_mem _ hb)) h.2]

lemma encodedPath_inj {keys} (apart : NoCollisions names keys) {k k'} (hk : k ∈ keys)
    (hk' : k' ∈ keys) (h : encodedPath names k = encodedPath names k') : k = k' := by
  have same : components k = components k' :=
    map_inj_on (fun c hc c' hc' => encodeComponent_inj (apart k hk k' hk' c hc c' hc')) h
  calc k = [0x2f].intercalate (components k) := (intercalate_splitOn 0x2f).symm
    _ = [0x2f].intercalate (components k') := by rw [same]
    _ = k' := intercalate_splitOn 0x2f

end

lemma encodedPath_cons (names : Names) (key : Bytes) :
    ∃ name rest, encodedPath names key = name :: rest := by
  refine exists_cons_of_ne_nil fun empty => ?_
  have none := map_eq_nil_iff.1 empty
  exact splitOn_ne_nil _ _ none

end Ngs3fs.Paths
