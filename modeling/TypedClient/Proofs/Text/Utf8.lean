import TypedClient.Proofs.Text.Stretch
import TypedClient.Text.Utf8

/-!
Text as bytes. An ASCII character is a byte of its own, and no byte of another character is one of
ASCII. Main statement: the bytes of a text are valid and decode to it.
-/

namespace TypedClient.Utf8

open Text

@[simp] theorem encode_nil : encode [] = [] := rfl

@[simp] theorem encode_cons (c : Char) (rest : Text) :
    encode (c :: rest) = String.utf8EncodeChar c ++ encode rest := rfl

@[simp] theorem encode_append (front back : Text) :
    encode (front ++ back) = encode front ++ encode back :=
  List.flatMap_append

@[simp] theorem length_encode (text : Text) : (encode text).length = text.size := by
  induction text with
  | nil => rfl
  | cons c rest ih =>
    rw [encode_cons, List.length_append, String.length_utf8EncodeChar, ih, size_cons]

/-- Whether a byte belongs to a character outside ASCII. -/
def isHigh (byte : UInt8) : Bool := 128 ≤ byte.toNat

/-- A character is one byte of ASCII, or high bytes. -/
theorem encodeChar_cases (c : Char) :
    (c.toNat < 128 ∧ String.utf8EncodeChar c = [UInt8.ofNat c.toNat]) ∨
      (128 ≤ c.toNat ∧ (String.utf8EncodeChar c).all isHigh = true) := by
  have code : c.val.toNat = c.toNat := rfl
  unfold String.utf8EncodeChar
  dsimp only
  rw [code]
  split
  · exact .inl ⟨by omega, rfl⟩
  · refine .inr ⟨by omega, ?_⟩
    split
    · simp [isHigh]
      omega
    · split
      · simp [isHigh]
        omega
      · simp [isHigh]
        omega

section Decode

variable {first : UInt8} {current : OpenChar} {index n v : Nat}

theorem toNat_tail (n : Nat) : (UInt8.ofNat (n % 64 + 128)).toNat = n % 64 + 128 := by
  rw [UInt8.toNat_ofNat']
  omega

/-- The first byte of a character outside ASCII opens it. -/
theorem decodeFrom_open (high : 128 ≤ first.toNat)
    (opens : openWith? index first.toNat = some current) (rest : Bytes) :
    decodeFrom index none (first :: rest) = decodeFrom (index + 1) (some current) rest := by
  rw [decodeFrom, if_neg (Nat.not_lt.mpr high), opens]

/-- A byte in the range asked for goes on with the character, unless it is the last one owed. -/
theorem decodeFrom_more (low : current.low ≤ n % 64 + 128) (high : n % 64 + 128 ≤ current.high)
    (owed : 2 ≤ current.owed) (rest : Bytes) :
    decodeFrom index (some current) (UInt8.ofNat (n % 64 + 128) :: rest) =
      decodeFrom (index + 1) (some ⟨current.start, current.taken + 1, current.owed - 1, 0x80, 0xBF,
        64 * current.value + n % 64⟩) rest := by
  have left : (current.extend (n % 64 + 128)).owed ≠ 0 := by
    change current.owed - 1 ≠ 0
    omega
  have extended : current.extend (n % 64 + 128) = ⟨current.start, current.taken + 1,
      current.owed - 1, 0x80, 0xBF, 64 * current.value + n % 64⟩ := by
    rw [OpenChar.extend, Nat.add_sub_cancel]
  rw [decodeFrom, toNat_tail, if_pos ⟨low, high⟩, if_neg left, extended]

theorem decodeFrom_last (low : current.low ≤ n % 64 + 128) (high : n % 64 + 128 ≤ current.high)
    (owed : current.owed = 1) (rest : Bytes) :
    decodeFrom index (some current) (UInt8.ofNat (n % 64 + 128) :: rest) =
      (decodeFrom (index + 1) none rest).map (Char.ofNat (64 * current.value + n % 64) :: ·) := by
  have done : (current.extend (n % 64 + 128)).owed = 0 := by
    change current.owed - 1 = 0
    omega
  have value : (current.extend (n % 64 + 128)).value = 64 * current.value + n % 64 := by
    rw [OpenChar.extend, Nat.add_sub_cancel]
  rw [decodeFrom, toNat_tail, if_pos ⟨low, high⟩, if_pos done, value]

section Lengths

variable (rest : Bytes)

theorem decodeFrom_one (small : v < 128) :
    decodeFrom index none (UInt8.ofNat v :: rest) =
      (decodeFrom (index + 1) none rest).map (Char.ofNat v :: ·) := by
  have byte : (UInt8.ofNat v).toNat = v := by
    rw [UInt8.toNat_ofNat']
    omega
  rw [decodeFrom, byte, if_pos small]

theorem decodeFrom_two (low : 128 ≤ v) (high : v < 0x800) :
    decodeFrom index none
        (UInt8.ofNat (v / 64 % 32 + 192) :: UInt8.ofNat (v % 64 + 128) :: rest) =
      (decodeFrom (index + 2) none rest).map (Char.ofNat v :: ·) := by
  have first : (UInt8.ofNat (v / 64 % 32 + 192)).toNat = v / 64 + 192 := by
    rw [UInt8.toNat_ofNat']
    omega
  have opens : openWith? index (v / 64 + 192) = some ⟨index, 1, 1, 0x80, 0xBF, v / 64⟩ := by
    rw [openWith?, if_pos (by omega), Nat.add_sub_cancel]
  have value : 64 * (v / 64) + v % 64 = v := Nat.div_add_mod v 64
  rw [decodeFrom_open (by omega) (first ▸ opens),
    decodeFrom_last (by dsimp only; omega) (by dsimp only; omega) rfl]
  dsimp only
  rw [value]

theorem decodeFrom_three (low : 0x800 ≤ v) (high : v < 0x10000)
    (valid : v < 0xD800 ∨ 0xDFFF < v) :
    decodeFrom index none (UInt8.ofNat (v / 4096 % 16 + 224) ::
        UInt8.ofNat (v / 64 % 64 + 128) :: UInt8.ofNat (v % 64 + 128) :: rest) =
      (decodeFrom (index + 3) none rest).map (Char.ofNat v :: ·) := by
  have first : (UInt8.ofNat (v / 4096 % 16 + 224)).toNat = v / 4096 + 224 := by
    rw [UInt8.toNat_ofNat']
    omega
  -- The range of the second byte leaves out long forms and surrogates.
  have opens : openWith? index (v / 4096 + 224) = some ⟨index, 1, 2,
      if v / 4096 + 224 = 0xE0 then 0xA0 else 0x80,
      if v / 4096 + 224 = 0xED then 0x9F else 0xBF, v / 4096⟩ := by
    rw [openWith?, if_neg (by omega), if_pos (by omega), Nat.add_sub_cancel]
  have value : 64 * (64 * (v / 4096) + v / 64 % 64) + v % 64 = v := by omega
  rw [decodeFrom_open (by omega) (first ▸ opens),
    decodeFrom_more (by dsimp only; split <;> omega) (by dsimp only; split <;> omega) (by simp),
    decodeFrom_last (by dsimp only; omega) (by dsimp only; omega) rfl]
  dsimp only
  rw [value]

theorem decodeFrom_four (low : 0x10000 ≤ v) (high : v < 0x110000) :
    decodeFrom index none (UInt8.ofNat (v / 262144 % 8 + 240) ::
        UInt8.ofNat (v / 4096 % 64 + 128) :: UInt8.ofNat (v / 64 % 64 + 128) ::
        UInt8.ofNat (v % 64 + 128) :: rest) =
      (decodeFrom (index + 4) none rest).map (Char.ofNat v :: ·) := by
  have first : (UInt8.ofNat (v / 262144 % 8 + 240)).toNat = v / 262144 + 240 := by
    rw [UInt8.toNat_ofNat']
    omega
  have opens : openWith? index (v / 262144 + 240) = some ⟨index, 1, 3,
      if v / 262144 + 240 = 0xF0 then 0x90 else 0x80,
      if v / 262144 + 240 = 0xF4 then 0x8F else 0xBF, v / 262144⟩ := by
    rw [openWith?, if_neg (by omega), if_neg (by omega), if_pos (by omega), Nat.add_sub_cancel]
  have value : 64 * (64 * (64 * (v / 262144) + v / 4096 % 64) + v / 64 % 64) + v % 64 = v := by
    omega
  rw [decodeFrom_open (by omega) (first ▸ opens),
    decodeFrom_more (by dsimp only; split <;> omega) (by dsimp only; split <;> omega) (by simp),
    decodeFrom_more (by dsimp only; omega) (by dsimp only; omega) (by simp),
    decodeFrom_last (by dsimp only; omega) (by dsimp only; omega) rfl]
  dsimp only
  rw [value]

end Lengths

theorem decodeFrom_char (c : Char) (index : Nat) (rest : Bytes) :
    decodeFrom index none (String.utf8EncodeChar c ++ rest) =
      (decodeFrom (index + c.utf8Size) none rest).map (c :: ·) := by
  have valid : c.toNat < 0xD800 ∨ 0xDFFF < c.toNat ∧ c.toNat < 0x110000 := c.valid
  have size := String.length_utf8EncodeChar c
  have same : Char.ofNat c.toNat = c := Char.ofNat_toNat c
  unfold String.utf8EncodeChar at size ⊢
  dsimp only at size ⊢
  rw [show c.val.toNat = c.toNat from rfl] at size ⊢
  split at size
  · rename_i one
    rw [if_pos one, ← size, List.singleton_append, decodeFrom_one rest (by omega), same]
    rfl
  · rename_i one
    rw [if_neg one]
    split at size
    · rename_i two
      rw [if_pos two, ← size]
      simp only [List.cons_append, List.nil_append]
      rw [decodeFrom_two rest (by omega) (by omega), same]
      rfl
    · rename_i two
      rw [if_neg two]
      split at size
      · rename_i three
        rw [if_pos three, ← size]
        simp only [List.cons_append, List.nil_append]
        rw [decodeFrom_three rest (by omega) (by omega) (by omega), same]
        rfl
      · rename_i three
        rw [if_neg three, ← size]
        simp only [List.cons_append, List.nil_append]
        rw [decodeFrom_four rest (by omega) (by omega), same]
        rfl

theorem decodeFrom_encode (text : Text) (index : Nat) :
    decodeFrom index none (encode text) = .ok text := by
  induction text generalizing index with
  | nil => rfl
  | cons c rest ih =>
    rw [encode_cons, decodeFrom_char, ih]
    rfl

/-- The bytes of a text are valid, and they are read as the text. -/
theorem decode_encode (text : Text) : decode (encode text) = .ok text :=
  decodeFrom_encode text 0

end Decode

end TypedClient.Utf8
