import Mathlib.Data.Nat.Bitwise
import ReverseProxy.Text.Ascii

/-!
# Numbers in network byte order

The bytes of a number, most significant first, and the number that bytes write.  Code
that puts such a number together from shifted bytes computes the same one
(`toNat_or_shiftLeft`).
-/

namespace Text

/-- The number that bytes write, most significant first. -/
def ofBigEndian : Bytes → ℕ
  | [] => 0
  | byte :: rest => byte.toNat * 256 ^ rest.length + ofBigEndian rest

/-- The low bytes of a number, most significant first. -/
def toBigEndian : ℕ → ℕ → Bytes
  | 0, _ => []
  | count + 1, value => UInt8.ofNat (value / 256 ^ count) :: toBigEndian count value

@[simp]
theorem length_toBigEndian (count value : ℕ) : (toBigEndian count value).length = count := by
  induction count with
  | zero => rfl
  | succ count ih => simp [toBigEndian, ih]

theorem ofBigEndian_lt (bytes : Bytes) : ofBigEndian bytes < 256 ^ bytes.length := by
  induction bytes with
  | nil => simp [ofBigEndian]
  | cons byte rest ih =>
    have small : byte.toNat + 1 ≤ 256 := byte.toNat_lt
    calc byte.toNat * 256 ^ rest.length + ofBigEndian rest
        < (byte.toNat + 1) * 256 ^ rest.length := by rw [Nat.add_mul]; omega
      _ ≤ 256 * 256 ^ rest.length := Nat.mul_le_mul_right _ small
      _ = 256 ^ (byte :: rest).length := by rw [List.length_cons, Nat.pow_succ, Nat.mul_comm]

theorem ofBigEndian_toBigEndian (count value : ℕ) :
    ofBigEndian (toBigEndian count value) = value % 256 ^ count := by
  induction count with
  | zero => simp [toBigEndian, ofBigEndian, Nat.mod_one]
  | succ count ih =>
    have first : (UInt8.ofNat (value / 256 ^ count)).toNat = value / 256 ^ count % 256 := by simp
    simp only [toBigEndian, ofBigEndian, length_toBigEndian, first, ih]
    rw [Nat.pow_succ, Nat.mod_mul, Nat.add_comm, Nat.mul_comm (256 ^ count)]

/-- Only the low bytes are written. -/
theorem toBigEndian_add_mul (count high value : ℕ) :
    toBigEndian count (value + high * 256 ^ count) = toBigEndian count value := by
  induction count generalizing high with
  | zero => rfl
  | succ count ih =>
    have shift : high * 256 ^ (count + 1) = high * 256 * 256 ^ count := by
      rw [Nat.pow_succ]
      ac_rfl
    have positive : 0 < 256 ^ count := Nat.pow_pos (by omega)
    have first : UInt8.ofNat (value / 256 ^ count + high * 256) =
        UInt8.ofNat (value / 256 ^ count) := by
      apply UInt8.toNat_inj.mp
      simp
    simp only [toBigEndian]
    rw [shift, ih (high * 256), Nat.add_mul_div_right _ _ positive, first]

theorem toBigEndian_ofBigEndian (bytes : Bytes) :
    toBigEndian bytes.length (ofBigEndian bytes) = bytes := by
  induction bytes with
  | nil => rfl
  | cons byte rest ih =>
    have positive : 0 < 256 ^ rest.length := Nat.pow_pos (by omega)
    have tail := toBigEndian_add_mul rest.length byte.toNat (ofBigEndian rest)
    have high : (byte.toNat * 256 ^ rest.length + ofBigEndian rest) / 256 ^ rest.length =
        byte.toNat := by
      rw [Nat.add_comm, Nat.add_mul_div_right _ _ positive,
        Nat.div_eq_of_lt (ofBigEndian_lt rest), Nat.zero_add]
    rw [List.length_cons, toBigEndian, ofBigEndian, high, Nat.add_comm, tail, ih]
    simp

/-- A byte moved to its place. -/
theorem toNat_shiftLeft_byte (byte : UInt8) (place : ℕ) (inside : place ≤ 56) :
    (byte.toUInt64 <<< UInt64.ofNat place).toNat = byte.toNat * 2 ^ place := by
  have count : (UInt64.ofNat place).toNat % 64 = place := by
    rw [UInt64.toNat_ofNat']
    omega
  have fits : byte.toNat * 2 ^ place < 2 ^ 64 := by
    calc byte.toNat * 2 ^ place
        < 2 ^ 8 * 2 ^ place := Nat.mul_lt_mul_of_pos_right byte.toNat_lt (Nat.two_pow_pos place)
      _ = 2 ^ (8 + place) := (Nat.pow_add 2 8 place).symm
      _ ≤ 2 ^ 64 := Nat.pow_le_pow_right (by omega) (by omega)
  rw [UInt64.toNat_shiftLeft, count, UInt8.toNat_toUInt64, Nat.shiftLeft_eq]
  exact Nat.mod_eq_of_lt fits

/-- The next lower byte is put in by a disjunction. -/
theorem or_mul_two_pow {low : ℕ} (byte : low < 256) (high place : ℕ) :
    high * 2 ^ (place + 8) ||| low * 2 ^ place = (high * 256 + low) * 2 ^ place := by
  have join : high <<< 8 ||| low = high * 256 + low := by
    rw [← Nat.shiftLeft_add_eq_or_of_lt (show low < 2 ^ 8 from byte), Nat.shiftLeft_eq]
  have moved : high * 2 ^ (place + 8) = high <<< 8 <<< place := by
    rw [← Nat.shiftLeft_add, Nat.add_comm, Nat.shiftLeft_eq]
  rw [moved, ← Nat.shiftLeft_eq low, ← Nat.shiftLeft_or_distrib, join, Nat.shiftLeft_eq]

/-- One byte more of a number that is put together from shifted bytes. -/
theorem toNat_or_shiftLeft {high : UInt64} {value : ℕ} (byte : UInt8) (place : ℕ)
    (inside : place ≤ 48) (above : high.toNat = value * 2 ^ (place + 8)) :
    (high ||| byte.toUInt64 <<< UInt64.ofNat place).toNat =
      (value * 256 + byte.toNat) * 2 ^ place := by
  rw [UInt64.toNat_or, above, toNat_shiftLeft_byte byte place (by omega)]
  exact or_mul_two_pow byte.toNat_lt value place

/-- The last byte stays in its place. -/
theorem toNat_or_byte {high : UInt64} {value : ℕ} (byte : UInt8)
    (above : high.toNat = value * 2 ^ 8) :
    (high ||| byte.toUInt64).toNat = value * 256 + byte.toNat := by
  have joined := or_mul_two_pow byte.toNat_lt value 0
  rw [UInt64.toNat_or, above, UInt8.toNat_toUInt64]
  simpa using joined

end Text
