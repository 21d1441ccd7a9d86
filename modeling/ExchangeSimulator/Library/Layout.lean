import Mathlib.Data.Nat.Digits.Defs

/-!
# Packed layouts

A layout writes a value as a fixed number of bytes and reads it back from the
front of any bytes. Words are little-endian, fields follow one another without
padding, and a record is laid out as the tuple of its fields. Reading is total,
as a copy out of a buffer is: bytes that are missing read as zero.
-/

namespace Library

/-- A value as the little-endian bytes of a word. -/
def digits : Nat → Nat → List UInt8
  | 0, _ => []
  | size + 1, value => UInt8.ofNat value :: digits size (value / 256)

/-- A word of so many bytes. -/
theorem length_digits (size value : Nat) : (digits size value).length = size := by
  induction size generalizing value with
  | zero => rfl
  | succ size ih => rw [digits, List.length_cons, ih]

/-- The value of little-endian bytes. -/
def ofDigits (bytes : List UInt8) : Nat := Nat.ofDigits 256 (bytes.map UInt8.toNat)

/-- A word keeps its value up to its width. -/
theorem ofDigits_digits (size value : Nat) :
    ofDigits (digits size value) = value % 256 ^ size := by
  induction size generalizing value with
  | zero => simp [digits, ofDigits, Nat.mod_one]
  | succ size ih =>
    have later : Nat.ofDigits 256 ((digits size (value / 256)).map UInt8.toNat) =
        value / 256 % 256 ^ size := ih (value / 256)
    rw [digits, ofDigits, List.map_cons, Nat.ofDigits_cons, later, Nat.pow_succ',
      Nat.mod_mul, UInt8.toNat_ofNat']

/-- Bytes are the word of their value. -/
theorem digits_ofDigits (bytes : List UInt8) : digits bytes.length (ofDigits bytes) = bytes := by
  induction bytes with
  | nil => rfl
  | cons byte bytes ih =>
    have value : ofDigits (byte :: bytes) = byte.toNat + 256 * ofDigits bytes := by
      rw [ofDigits, List.map_cons, Nat.ofDigits_cons]
      rfl
    have first : UInt8.ofNat (byte.toNat + 256 * ofDigits bytes) = byte := by
      apply UInt8.toNat.inj
      rw [UInt8.toNat_ofNat', Nat.add_mul_mod_self_left]
      exact Nat.mod_eq_of_lt byte.toNat_lt
    have later : (byte.toNat + 256 * ofDigits bytes) / 256 = ofDigits bytes := by
      rw [Nat.add_mul_div_left _ _ (by decide), Nat.div_eq_of_lt byte.toNat_lt, Nat.zero_add]
    rw [List.length_cons, digits, value, first, later, ih]

/-- A value of so many bytes is small. -/
theorem ofDigits_lt (bytes : List UInt8) : ofDigits bytes < 256 ^ bytes.length := by
  have whole := ofDigits_digits bytes.length (ofDigits bytes)
  rw [digits_ofDigits] at whole
  rw [whole]
  exact Nat.mod_lt _ (Nat.pow_pos (by decide))

/-- A packed layout of a type. -/
structure Layout (α : Type) where
  /-- Number of bytes. -/
  size : Nat
  /-- The bytes of a value. -/
  write : α → List UInt8
  /-- The value at the front of some bytes. -/
  read : List UInt8 → α
  /-- Every value takes the same number of bytes. -/
  length_write : ∀ value, (write value).length = size
  /-- A value is read back, whatever follows it. -/
  read_write : ∀ value later, read (write value ++ later) = value
  /-- Only the first bytes are read. -/
  read_append : ∀ bytes later, size ≤ bytes.length → read (bytes ++ later) = read bytes

namespace Layout

variable {α β : Type}

/-- A word of so many bytes behind a type. -/
def word (size : Nat) (toNat : α → Nat) (ofNat : Nat → α)
    (small : ∀ value, toNat value < 256 ^ size) (inverse : ∀ value, ofNat (toNat value) = value) :
    Layout α where
  size := size
  write value := digits size (toNat value)
  read bytes := ofNat (ofDigits (bytes.take size))
  length_write value := length_digits size (toNat value)
  read_write value later := by
    rw [List.take_left' (length_digits _ _), ofDigits_digits,
      Nat.mod_eq_of_lt (small value), inverse]
  read_append bytes later long := by rw [List.take_append_of_le_length long]

/-- `uint8_t`. -/
def u8 : Layout UInt8 :=
  word 1 UInt8.toNat UInt8.ofNat (fun value => value.toNat_lt) (fun _ => UInt8.ofNat_toNat)

/-- `uint16_t`. -/
def u16 : Layout UInt16 :=
  word 2 UInt16.toNat UInt16.ofNat (fun value => value.toNat_lt) (fun _ => UInt16.ofNat_toNat)

/-- `uint32_t`. -/
def u32 : Layout UInt32 :=
  word 4 UInt32.toNat UInt32.ofNat (fun value => value.toNat_lt) (fun _ => UInt32.ofNat_toNat)

/-- `uint64_t`. -/
def u64 : Layout UInt64 :=
  word 8 UInt64.toNat UInt64.ofNat (fun value => value.toNat_lt) (fun _ => UInt64.ofNat_toNat)

/-- Two fields in order. -/
def pair (first : Layout α) (second : Layout β) : Layout (α × β) where
  size := first.size + second.size
  write value := first.write value.1 ++ second.write value.2
  read bytes := (first.read bytes, second.read (bytes.drop first.size))
  length_write value := by rw [List.length_append, first.length_write, second.length_write]
  read_write value later := by
    rw [List.append_assoc, first.read_write, List.drop_left' (first.length_write value.1),
      second.read_write]
  read_append bytes later long := by
    rw [first.read_append bytes later (by omega),
      List.drop_append_of_le_length (by omega),
      second.read_append _ later (by rw [List.length_drop]; omega)]

/-- A type stored as another. -/
def map (layout : Layout α) (pack : α → β) (unpack : β → α)
    (inverse : ∀ value, pack (unpack value) = value) : Layout β where
  size := layout.size
  write value := layout.write (unpack value)
  read bytes := pack (layout.read bytes)
  length_write value := layout.length_write (unpack value)
  read_write value later := by rw [layout.read_write, inverse]
  read_append bytes later long := by rw [layout.read_append bytes later long]

/-- No two encodings: bytes of the right number are those of the value read from them. -/
def Canonical (layout : Layout α) : Prop :=
  ∀ bytes, bytes.length = layout.size → layout.write (layout.read bytes) = bytes

/-- A word is canonical if its type has a value for every pattern. -/
theorem canonical_word {size : Nat} {toNat : α → Nat} {ofNat : Nat → α}
    {small : ∀ value, toNat value < 256 ^ size} {inverse : ∀ value, ofNat (toNat value) = value}
    (full : ∀ value, value < 256 ^ size → toNat (ofNat value) = value) :
    (word size toNat ofNat small inverse).Canonical := by
  rintro bytes rfl
  change digits bytes.length (toNat (ofNat (ofDigits (bytes.take bytes.length)))) = bytes
  rw [List.take_length, full _ (ofDigits_lt bytes), digits_ofDigits]

/-- `uint8_t`. -/
theorem canonical_u8 : u8.Canonical :=
  canonical_word fun _ small => UInt8.toNat_ofNat_of_lt' small

/-- `uint16_t`. -/
theorem canonical_u16 : u16.Canonical :=
  canonical_word fun _ small => UInt16.toNat_ofNat_of_lt' small

/-- `uint32_t`. -/
theorem canonical_u32 : u32.Canonical :=
  canonical_word fun _ small => UInt32.toNat_ofNat_of_lt' small

/-- `uint64_t`. -/
theorem canonical_u64 : u64.Canonical :=
  canonical_word fun _ small => UInt64.toNat_ofNat_of_lt' small

/-- Two fields in order. -/
theorem Canonical.pair {first : Layout α} {second : Layout β} (left : first.Canonical)
    (right : second.Canonical) : (first.pair second).Canonical := by
  intro bytes length
  change bytes.length = first.size + second.size at length
  have front : first.read bytes = first.read (bytes.take first.size) := by
    conv_lhs => rw [← List.take_append_drop first.size bytes]
    exact first.read_append _ _ (by rw [List.length_take]; omega)
  change first.write (first.read bytes) ++ second.write (second.read (bytes.drop first.size)) =
    bytes
  rw [front, left _ (by rw [List.length_take]; omega), right _ (by rw [List.length_drop]; omega),
    List.take_append_drop]

/-- A type stored as another, with nothing lost on the way. -/
theorem Canonical.map {layout : Layout α} (canonical : layout.Canonical) {pack : α → β}
    {unpack : β → α} {inverse : ∀ value, pack (unpack value) = value}
    (lossless : ∀ value, unpack (pack value) = value) :
    (layout.map pack unpack inverse).Canonical := by
  intro bytes length
  change layout.write (unpack (pack (layout.read bytes))) = bytes
  rw [lossless, canonical bytes length]

/-- Bytes begin with those of the value read from them. -/
theorem Canonical.front {layout : Layout α} (canonical : layout.Canonical) {bytes : List UInt8}
    (enough : layout.size ≤ bytes.length) :
    bytes = layout.write (layout.read bytes) ++ bytes.drop layout.size := by
  have length : (bytes.take layout.size).length = layout.size := by
    rw [List.length_take]
    omega
  have read : layout.read bytes = layout.read (bytes.take layout.size) := by
    conv_lhs => rw [← List.take_append_drop layout.size bytes]
    exact layout.read_append _ _ (Nat.le_of_eq length.symm)
  rw [read, canonical _ length, List.take_append_drop]

end Layout

end Library
