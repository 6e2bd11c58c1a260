import Reckoner.Text.Utf8

/-!
# Text is read as it is

The bytes of a character are taken as they come: the first one says how many are still to come, and
with the last one the character is read (`foldl_take_encode`).  So the bytes of a text are read as
this text, and nothing in it is replaced (`decode_encode`).
-/

namespace Reckoner.Utf8

namespace Decoder

/-! ## First bytes -/

/-- A byte of seven bits is a character. -/
theorem begin_one (text : String) {b : Nat} (h : b < 0x80) :
    begin text b = { text := text.push (Char.ofNat b) } := by
  rw [begin, if_pos h]

/-- The first of two bytes. -/
theorem begin_two (text : String) {b : Nat} (h : 0xC2 ≤ b ∧ b ≤ 0xDF) :
    begin text b = { text, unfinished := some ⟨1, 0x80, 0xBF, b - 0xC0⟩ } := by
  rw [begin, if_neg (by omega), opening?, if_pos h]

/-- The first of three bytes, after some of which the second one has narrower bounds. -/
theorem begin_three (text : String) {b : Nat} (h : 0xE0 ≤ b ∧ b ≤ 0xEF) :
    begin text b = { text, unfinished := some ⟨2, if b = 0xE0 then 0xA0 else 0x80,
      if b = 0xED then 0x9F else 0xBF, b - 0xE0⟩ } := by
  rw [begin, if_neg (by omega), opening?, if_neg (by omega), if_pos h]

/-- The first of four bytes, likewise. -/
theorem begin_four (text : String) {b : Nat} (h : 0xF0 ≤ b ∧ b ≤ 0xF4) :
    begin text b = { text, unfinished := some ⟨3, if b = 0xF0 then 0x90 else 0x80,
      if b = 0xF4 then 0x8F else 0xBF, b - 0xF0⟩ } := by
  rw [begin, if_neg (by omega), opening?, if_neg (by omega), if_neg (by omega), if_pos h]

/-! ## Other bytes -/

section

variable {missing low high value : Nat} {byte : UInt8}

/-- A byte within its bounds goes on with the character, and the next one has the usual bounds. -/
theorem take_more (text : String) (hbyte : low ≤ byte.toNat ∧ byte.toNat ≤ high)
    (hmissing : missing ≠ 1) :
    take { text, unfinished := some ⟨missing, low, high, value⟩ } byte =
      { text, unfinished := some ⟨missing - 1, 0x80, 0xBF, value * 64 + (byte.toNat - 0x80)⟩ } := by
  simp only [take, if_pos hbyte, if_neg hmissing]

/-- With the last byte the character is read. -/
theorem take_last (text : String) (hbyte : low ≤ byte.toNat ∧ byte.toNat ≤ high) :
    take { text, unfinished := some ⟨1, low, high, value⟩ } byte =
      { text := text.push (Char.ofNat (value * 64 + (byte.toNat - 0x80))) } := by
  simp only [take, if_pos hbyte, if_pos]

end

/-! ## Characters -/

/-- Between two characters a byte is the first one of a character. -/
theorem take_begin (text : String) (byte : UInt8) : take { text } byte = begin text byte.toNat :=
  rfl

/-- A byte that goes on with a character. -/
theorem toNat_following (n : Nat) : (UInt8.ofNat (n % 64 + 128)).toNat = n % 64 + 128 :=
  UInt8.toNat_ofNat_of_lt' (show n % 64 + 128 < 256 by omega)

variable (text : String) {v : Nat}

/-- Seven bits. -/
theorem foldl_take_one (hhigh : v ≤ 127) :
    [UInt8.ofNat v].foldl take { text } = { text := text.push (Char.ofNat v) } := by
  have h₁ : (UInt8.ofNat v).toNat = v := UInt8.toNat_ofNat_of_lt' (show v < 256 by omega)
  rw [List.foldl_cons, List.foldl_nil, take_begin, h₁, begin_one text (by omega)]

/-- Eleven bits: five in the first byte and six in the second one. -/
theorem foldl_take_two (hlow : 127 < v) (hhigh : v ≤ 2047) :
    [UInt8.ofNat (v / 64 % 32 + 192), UInt8.ofNat (v % 64 + 128)].foldl take { text } =
      { text := text.push (Char.ofNat v) } := by
  have h₁ : (UInt8.ofNat (v / 64 % 32 + 192)).toNat = v / 64 + 192 := by
    rw [UInt8.toNat_ofNat_of_lt' (show v / 64 % 32 + 192 < 256 by omega)]
    omega
  have h₂ := toNat_following v
  -- The number is put together from what the two bytes say.
  have hvalue : (v / 64 + 192 - 192) * 64 + (v % 64 + 128 - 128) = v := by omega
  rw [List.foldl_cons, List.foldl_cons, List.foldl_nil, take_begin, h₁,
    begin_two text (by omega), take_last text (by omega), h₂, hvalue]

/-- Surrogates are no characters. -/
theorem foldl_take_three (hlow : 2047 < v) (hhigh : v ≤ 65535)
    (hvalid : v < 0xD800 ∨ 0xDFFF < v) :
    [UInt8.ofNat (v / 4096 % 16 + 224), UInt8.ofNat (v / 64 % 64 + 128),
      UInt8.ofNat (v % 64 + 128)].foldl take { text } = { text := text.push (Char.ofNat v) } := by
  have h₁ : (UInt8.ofNat (v / 4096 % 16 + 224)).toNat = v / 4096 + 224 := by
    rw [UInt8.toNat_ofNat_of_lt' (show v / 4096 % 16 + 224 < 256 by omega)]
    omega
  have h₂ := toNat_following (v / 64)
  have h₃ := toNat_following v
  have hvalue : ((v / 4096 + 224 - 224) * 64 + (v / 64 % 64 + 128 - 128)) * 64 +
      (v % 64 + 128 - 128) = v := by omega
  -- The second byte rules out what two bytes are enough for, and surrogates.
  have hsecond : (if v / 4096 + 224 = 224 then 160 else 128) ≤ v / 64 % 64 + 128 ∧
      v / 64 % 64 + 128 ≤ (if v / 4096 + 224 = 237 then 159 else 191) := by
    constructor <;> split <;> omega
  rw [List.foldl_cons, List.foldl_cons, List.foldl_cons, List.foldl_nil, take_begin, h₁,
    begin_three text (by omega), take_more text (by rw [h₂]; exact hsecond) (by decide), h₂,
    take_last text (by omega), h₃, hvalue]

/-- Twenty-one bits, though not all numbers with so many bits are those of characters. -/
theorem foldl_take_four (hlow : 65535 < v) (hhigh : v < 0x110000) :
    [UInt8.ofNat (v / 262144 % 8 + 240), UInt8.ofNat (v / 4096 % 64 + 128),
      UInt8.ofNat (v / 64 % 64 + 128), UInt8.ofNat (v % 64 + 128)].foldl take { text } =
        { text := text.push (Char.ofNat v) } := by
  have h₁ : (UInt8.ofNat (v / 262144 % 8 + 240)).toNat = v / 262144 + 240 := by
    rw [UInt8.toNat_ofNat_of_lt' (show v / 262144 % 8 + 240 < 256 by omega)]
    omega
  have h₂ := toNat_following (v / 4096)
  have h₃ := toNat_following (v / 64)
  have h₄ := toNat_following v
  have hvalue : (((v / 262144 + 240 - 240) * 64 + (v / 4096 % 64 + 128 - 128)) * 64 +
      (v / 64 % 64 + 128 - 128)) * 64 + (v % 64 + 128 - 128) = v := by omega
  -- The second byte rules out what three bytes are enough for, and numbers above all characters.
  have hsecond : (if v / 262144 + 240 = 240 then 144 else 128) ≤ v / 4096 % 64 + 128 ∧
      v / 4096 % 64 + 128 ≤ (if v / 262144 + 240 = 244 then 143 else 191) := by
    constructor <;> split <;> omega
  rw [List.foldl_cons, List.foldl_cons, List.foldl_cons, List.foldl_cons, List.foldl_nil,
    take_begin, h₁, begin_four text (by omega),
    take_more text (by rw [h₂]; exact hsecond) (by decide), h₂,
    take_more text (by omega) (by decide), h₃, take_last text (by omega), h₄, hvalue]

/-- The bytes of a character are read as this character. -/
theorem foldl_take_encode (c : Char) :
    (String.utf8EncodeChar c).foldl take { text } = { text := text.push c } := by
  have hvalid : c.toNat < 0xD800 ∨ 0xDFFF < c.toNat ∧ c.toNat < 0x110000 := c.valid
  have hnat : c.val.toNat = c.toNat := rfl
  conv => rhs; rw [← Char.ofNat_toNat c]
  unfold String.utf8EncodeChar
  simp only [hnat]
  -- The number of bytes depends on how great the number of the character is.
  split
  next hone => exact foldl_take_one text hone
  next hone =>
    split
    next htwo => exact foldl_take_two text (by omega) htwo
    next htwo =>
      split
      next hthree => exact foldl_take_three text (by omega) hthree (by omega)
      next hthree => exact foldl_take_four text (by omega) (by omega)

end Decoder

/-- The bytes of a text are read as the text. -/
theorem decode_encode (s : String) : decode (s.toList.flatMap String.utf8EncodeChar) = s := by
  -- Between two characters nothing is unfinished, so that the text grows by one character at a
  -- time.
  have hfold : ∀ (cs : List Char) (text : String),
      (cs.flatMap String.utf8EncodeChar).foldl Decoder.take { text } =
        { text := text ++ String.ofList cs } := by
    intro cs
    induction cs with
    | nil =>
      intro text
      simp
    | cons c cs ih =>
      intro text
      rw [List.flatMap_cons, List.foldl_append, Decoder.foldl_take_encode, ih]
      congr 1
      apply String.toList_inj.mp
      simp
  rw [decode, hfold, Decoder.finish]
  simp

end Reckoner.Utf8
