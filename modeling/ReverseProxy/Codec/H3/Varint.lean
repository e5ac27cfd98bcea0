import ReverseProxy.Text.BigEndian

/-!
# Variable-length integers

The integers of RFC 9000, §16, and the three functions of `codec/h3_codec.cpp` that
read, measure and write them.  A read outside the buffer is a `Fault` here; none is
ever made (`decodeVarint_cons`).
-/

namespace Rfc9000

open Text

/-- How many numbers an integer of `2 ^ log` bytes can hold besides its two length bits. -/
def capacity (log : ℕ) : ℕ :=
  64 * 256 ^ (2 ^ log - 1)

/-- The bytes are an integer with this value; its length bits come first. -/
def Varint (bytes : Bytes) (value : ℕ) : Prop :=
  ∃ log ≤ 3, value < capacity log ∧ bytes = toBigEndian (2 ^ log) (value + log * capacity log)

theorem toBigEndian_varint (log value : ℕ) :
    toBigEndian (2 ^ log) (value + log * capacity log) =
      UInt8.ofNat (value / 256 ^ (2 ^ log - 1) + log * 64) ::
        toBigEndian (2 ^ log - 1) value := by
  have positive : 0 < 2 ^ log := Nat.two_pow_pos log
  rcases Nat.exists_eq_add_of_lt positive with ⟨count, width⟩
  simp only [Nat.zero_add] at width
  have bits : log * capacity log = log * 64 * 256 ^ count := by
    rw [capacity, width, Nat.add_sub_cancel, Nat.mul_assoc]
  rw [bits, width, Nat.add_sub_cancel, toBigEndian,
    Nat.add_mul_div_right _ _ (Nat.pow_pos (by omega)), toBigEndian_add_mul]

theorem lengthBits {top log : ℕ} (small : top < 64) (atMost : log ≤ 3) :
    (UInt8.ofNat (top + log * 64)).toNat / 64 = log ∧
      (UInt8.ofNat (top + log * 64)).toNat % 64 = top := by
  rw [UInt8.toNat_ofNat']
  omega

/-- The length bits are those of the first byte, and the rest of it is the top of the value. -/
theorem varint_cons_iff (first : UInt8) (rest : Bytes) (value : ℕ) :
    Varint (first :: rest) value ↔
      rest.length + 1 = 2 ^ (first.toNat / 64) ∧
        value = first.toNat % 64 * 256 ^ rest.length + ofBigEndian rest := by
  constructor
  · rintro ⟨log, atMost, small, coded⟩
    rw [toBigEndian_varint] at coded
    rcases List.cons.inj coded with ⟨rfl, rfl⟩
    have top : value / 256 ^ (2 ^ log - 1) < 64 := Nat.div_lt_of_lt_mul (by
      rw [Nat.mul_comm]
      exact small)
    rcases lengthBits top atMost with ⟨isLog, isTop⟩
    have positive : 0 < 2 ^ log := Nat.two_pow_pos log
    rw [isLog, isTop, length_toBigEndian, ofBigEndian_toBigEndian]
    refine ⟨by omega, ?_⟩
    rw [Nat.mul_comm]
    exact (Nat.div_add_mod _ _).symm
  · rintro ⟨width, rfl⟩
    have byte : first.toNat < 256 := first.toNat_lt
    have inside := ofBigEndian_lt rest
    have count : 2 ^ (first.toNat / 64) - 1 = rest.length := by omega
    have positive : 0 < 256 ^ rest.length := Nat.pow_pos (by omega)
    refine ⟨first.toNat / 64, by omega, ?_, ?_⟩
    · rw [capacity, count]
      calc first.toNat % 64 * 256 ^ rest.length + ofBigEndian rest
          < (first.toNat % 64 + 1) * 256 ^ rest.length := by rw [Nat.add_mul]; omega
        _ ≤ 64 * 256 ^ rest.length := Nat.mul_le_mul_right _ (by omega)
    · have top : (first.toNat % 64 * 256 ^ rest.length + ofBigEndian rest) /
          256 ^ rest.length = first.toNat % 64 := by
        rw [Nat.add_comm, Nat.add_mul_div_right _ _ positive, Nat.div_eq_of_lt inside,
          Nat.zero_add]
      have whole : first.toNat % 64 + first.toNat / 64 * 64 = first.toNat := by omega
      rw [toBigEndian_varint, count, top, whole, Nat.add_comm (_ * _), toBigEndian_add_mul,
        toBigEndian_ofBigEndian]
      simp

theorem varint_cons {log value : ℕ} {first : UInt8} (atMost : log ≤ 3)
    (small : value < capacity log) (top : first.toNat = value / 256 ^ (2 ^ log - 1) + log * 64) :
    Varint (first :: toBigEndian (2 ^ log - 1) value) value := by
  refine ⟨log, atMost, small, ?_⟩
  rw [toBigEndian_varint, ← top]
  simp

theorem Varint.ne_nil {bytes : Bytes} {value : ℕ} (coded : Varint bytes value) : bytes ≠ [] := by
  rintro rfl
  rcases coded with ⟨log, -, -, empty⟩
  rw [toBigEndian_varint] at empty
  cases empty

theorem Varint.length_eq {bytes : Bytes} {value : ℕ} (coded : Varint bytes value) :
    ∃ log ≤ 3, bytes.length = 2 ^ log ∧ value < capacity log := by
  rcases coded with ⟨log, atMost, small, rfl⟩
  exact ⟨log, atMost, length_toBigEndian _ _, small⟩

theorem capacity_values : capacity 0 = 64 ∧ capacity 1 = 2 ^ 14 ∧ capacity 2 = 2 ^ 30 ∧
    capacity 3 = 2 ^ 62 := by
  decide

theorem Varint.value_lt {bytes : Bytes} {value : ℕ} (coded : Varint bytes value) :
    value < 2 ^ 62 := by
  rcases coded with ⟨log, atMost, small, -⟩
  rcases capacity_values with ⟨one, two, four, eight⟩
  interval_cases log <;> omega

/-- No integer is the start of another one. -/
theorem Varint.eq_of_prefix {bytes bytes' : Bytes} {value value' : ℕ} (coded : Varint bytes value)
    (coded' : Varint bytes' value') (starts : bytes <+: bytes') : bytes = bytes' := by
  rcases List.exists_cons_of_ne_nil coded.ne_nil with ⟨first, rest, rfl⟩
  rcases List.exists_cons_of_ne_nil coded'.ne_nil with ⟨first', rest', rfl⟩
  rcases List.cons_prefix_cons.mp starts with ⟨rfl, -⟩
  rw [varint_cons_iff] at coded coded'
  apply starts.eq_of_length
  rw [List.length_cons, coded.1, List.length_cons, coded'.1]

/-- A value has one integer of each length. -/
theorem Varint.unique {bytes bytes' : Bytes} {value : ℕ} (coded : Varint bytes value)
    (coded' : Varint bytes' value) (sameLength : bytes.length = bytes'.length) :
    bytes = bytes' := by
  rcases coded with ⟨log, -, -, rfl⟩
  rcases coded' with ⟨log', -, -, rfl⟩
  simp only [length_toBigEndian] at sameLength
  have same : log = log' := Nat.pow_right_injective (le_refl 2) sameLength
  rw [same]

theorem Varint.value_unique {bytes : Bytes} {value value' : ℕ} (coded : Varint bytes value)
    (coded' : Varint bytes value') : value = value' := by
  rcases List.exists_cons_of_ne_nil coded.ne_nil with ⟨first, rest, rfl⟩
  rw [varint_cons_iff] at coded coded'
  exact coded.2.trans coded'.2.symm

end Rfc9000

namespace ReverseProxy

open Text

/-- The exceptions of the standard library that a conversion throws. -/
inductive StdException where
  | invalidArgument
  | outOfRange
  deriving DecidableEq, Repr

/-- What a function that reads a buffer may do instead of returning. -/
inductive Fault where
  /-- It reads outside the buffer. -/
  | overread
  | throws (exception : StdException)
  /-- Its loop has not come to its end. -/
  | diverges
  deriving DecidableEq, Repr

@[simp]
theorem Fault.ok_bind {α β : Type} (value : α) (next : α → Except Fault β) :
    (Except.ok value >>= next) = next value := rfl

@[simp]
theorem Fault.error_bind {α β : Type} (fault : Fault) (next : α → Except Fault β) :
    (Except.error fault >>= next) = .error fault := rfl

/-- `VarintResult`. -/
structure VarintResult where
  value : UInt64
  /-- `0` when the buffer holds no integer. -/
  bytesRead : ℕ
  deriving DecidableEq, Repr

/-- The byte `data[index]`. -/
def load (data : Bytes) (index : ℕ) : Except Fault UInt8 :=
  data[index]?.elim (.error .overread) .ok

/-- The length that the first byte announces. -/
def varintLength (first : UInt8) : ℕ :=
  let tag := first >>> 6
  if tag = 0 then 1 else if tag = 1 then 2 else if tag = 2 then 4 else 8

/-- The value of an integer of this length. -/
def varintValue (data : Bytes) (first : UInt8) (bytes : ℕ) : Except Fault UInt64 :=
  if bytes = 1 then .ok (first &&& 0x3F).toUInt64
  else if bytes = 2 then do
    let b1 ← load data 1
    return (first &&& 0x3F).toUInt64 <<< 8 ||| b1.toUInt64
  else if bytes = 4 then do
    let b1 ← load data 1
    let b2 ← load data 2
    let b3 ← load data 3
    return (first &&& 0x3F).toUInt64 <<< 24 ||| b1.toUInt64 <<< 16 ||| b2.toUInt64 <<< 8 |||
      b3.toUInt64
  else do
    let b1 ← load data 1
    let b2 ← load data 2
    let b3 ← load data 3
    let b4 ← load data 4
    let b5 ← load data 5
    let b6 ← load data 6
    let b7 ← load data 7
    return (first &&& 0x3F).toUInt64 <<< 56 ||| b1.toUInt64 <<< 48 ||| b2.toUInt64 <<< 40 |||
      b3.toUInt64 <<< 32 ||| b4.toUInt64 <<< 24 ||| b5.toUInt64 <<< 16 ||| b6.toUInt64 <<< 8 |||
      b7.toUInt64

/-- `decode_varint` on the `len` bytes at `data`. -/
def decodeVarint (data : Bytes) (len : ℕ) : Except Fault VarintResult :=
  if len < 1 then .ok ⟨0, 0⟩
  else do
    let first ← load data 0
    if len < varintLength first then .ok ⟨0, 0⟩
    else do
      let value ← varintValue data first (varintLength first)
      return ⟨value, varintLength first⟩

/-- `varint_size`. -/
def varintSize (value : UInt64) : ℕ :=
  if value ≤ 0x3F then 1
  else if value ≤ 0x3FFF then 2
  else if value ≤ 0x3FFFFFFF then 4
  else 8

/-- The bytes that `encode_varint` writes; it returns their number. -/
def encodeVarint (value : UInt64) : Bytes :=
  if varintSize value = 1 then [value.toUInt8]
  else if varintSize value = 2 then [(0x40 : UInt8) ||| (value >>> 8).toUInt8, value.toUInt8]
  else if varintSize value = 4 then
    [(0x80 : UInt8) ||| (value >>> 24).toUInt8, (value >>> 16).toUInt8, (value >>> 8).toUInt8,
      value.toUInt8]
  else
    [(0xC0 : UInt8) ||| (value >>> 56).toUInt8, (value >>> 48).toUInt8, (value >>> 40).toUInt8,
      (value >>> 32).toUInt8, (value >>> 24).toUInt8, (value >>> 16).toUInt8,
      (value >>> 8).toUInt8, value.toUInt8]

/-! ## Reading -/

theorem varintLength_eq : ∀ first, varintLength first = 2 ^ (first.toNat / 64) :=
  forall_byte (by decide +kernel)

theorem toNat_mask : ∀ first : UInt8, (first &&& 0x3F).toNat = first.toNat % 64 :=
  forall_byte (by decide +kernel)

/-- What is read is the top of the value followed by the bytes behind the first. -/
theorem varintValue_eq (first : UInt8) {rest : Bytes}
    (enough : varintLength first ≤ rest.length + 1) :
    ∃ value, varintValue (first :: rest) first (varintLength first) = .ok value ∧
      value.toNat = first.toNat % 64 * 256 ^ (varintLength first - 1) +
        ofBigEndian (rest.take (varintLength first - 1)) := by
  have top := toNat_mask first
  have byte : first.toNat < 256 := first.toNat_lt
  rw [varintLength_eq] at enough ⊢
  have tags : first.toNat / 64 = 0 ∨ first.toNat / 64 = 1 ∨ first.toNat / 64 = 2 ∨
      first.toNat / 64 = 3 := by omega
  rcases tags with tag | tag | tag | tag <;> rw [tag] at enough ⊢
  · refine ⟨_, rfl, ?_⟩
    rw [UInt8.toNat_toUInt64, top]
    simp [ofBigEndian]
  · rcases rest with _ | ⟨b1, rest⟩
    · simp at enough
    have joined := toNat_or_byte b1 (toNat_shiftLeft_byte (first &&& 0x3F) 8 (by omega))
    refine ⟨_, rfl, joined.trans ?_⟩
    rw [top]
    simp [ofBigEndian]
  · rcases rest with _ | ⟨b1, _ | ⟨b2, _ | ⟨b3, rest⟩⟩⟩ <;> try simp at enough
    have joined := toNat_or_byte b3 (toNat_or_shiftLeft b2 8 (by omega)
      (toNat_or_shiftLeft b1 16 (by omega)
        (toNat_shiftLeft_byte (first &&& 0x3F) 24 (by omega))))
    refine ⟨_, rfl, joined.trans ?_⟩
    rw [top]
    simp only [Nat.reducePow, Nat.reduceSub, List.take_succ_cons, List.take_zero, ofBigEndian,
      List.length_cons, List.length_nil]
    omega
  · rcases rest with _ | ⟨b1, _ | ⟨b2, _ | ⟨b3, _ | ⟨b4, _ | ⟨b5, _ | ⟨b6, _ | ⟨b7, rest⟩⟩⟩⟩⟩⟩⟩ <;>
      try simp at enough
    have joined := toNat_or_byte b7 (toNat_or_shiftLeft b6 8 (by omega)
      (toNat_or_shiftLeft b5 16 (by omega) (toNat_or_shiftLeft b4 24 (by omega)
        (toNat_or_shiftLeft b3 32 (by omega) (toNat_or_shiftLeft b2 40 (by omega)
          (toNat_or_shiftLeft b1 48 (by omega)
            (toNat_shiftLeft_byte (first &&& 0x3F) 56 (by omega))))))))
    refine ⟨_, rfl, joined.trans ?_⟩
    rw [top]
    simp only [Nat.reducePow, Nat.reduceSub, List.take_succ_cons, List.take_zero, ofBigEndian,
      List.length_cons, List.length_nil]
    omega

theorem decodeVarint_cons (first : UInt8) (rest : Bytes) :
    decodeVarint (first :: rest) (first :: rest).length =
      if rest.length + 1 < varintLength first then .ok ⟨0, 0⟩
      else do
        let value ← varintValue (first :: rest) first (varintLength first)
        return ⟨value, varintLength first⟩ := by
  have loaded : load (first :: rest) 0 = .ok first := rfl
  simp only [decodeVarint, loaded, Fault.ok_bind, List.length_cons]
  rfl

theorem varintLength_pos (first : UInt8) : 0 < varintLength first := by
  rw [varintLength_eq]
  exact Nat.two_pow_pos _

theorem decodeVarint_of_enough {first : UInt8} {rest : Bytes}
    (enough : varintLength first ≤ rest.length + 1) :
    ∃ value, decodeVarint (first :: rest) (first :: rest).length =
        .ok ⟨value, varintLength first⟩ ∧
      Rfc9000.Varint ((first :: rest).take (varintLength first)) value.toNat := by
  rcases varintValue_eq first enough with ⟨value, read, isValue⟩
  rw [decodeVarint_cons, if_neg (not_lt.mpr enough), read]
  refine ⟨value, rfl, ?_⟩
  rcases Nat.exists_eq_add_of_lt (varintLength_pos first) with ⟨count, width⟩
  simp only [Nat.zero_add] at width
  rw [width, Nat.add_sub_cancel] at isValue
  have taken : (rest.take count).length = count := by
    rw [List.length_take]
    omega
  rw [width, List.take_succ_cons, Rfc9000.varint_cons_iff, ← varintLength_eq, width, taken]
  exact ⟨rfl, isValue⟩

/-- A buffer holds an integer at its start, or is too short for the length announced there. -/
theorem decodeVarint_cases (data : Bytes) :
    (∃ result : VarintResult, decodeVarint data data.length = .ok result ∧
      0 < result.bytesRead ∧ result.bytesRead ≤ data.length ∧
      Rfc9000.Varint (data.take result.bytesRead) result.value.toNat) ∨
    decodeVarint data data.length = .ok ⟨0, 0⟩ ∧
      ∀ coded value, coded <+: data → ¬Rfc9000.Varint coded value := by
  rcases data with _ | ⟨first, rest⟩
  · right
    refine ⟨rfl, ?_⟩
    intro coded value starts isVarint
    exact isVarint.ne_nil (List.prefix_nil.mp starts)
  by_cases short : rest.length + 1 < varintLength first
  · right
    rw [decodeVarint_cons, if_pos short]
    refine ⟨rfl, ?_⟩
    intro coded value starts isVarint
    rcases List.exists_cons_of_ne_nil isVarint.ne_nil with ⟨first', rest', rfl⟩
    rcases List.cons_prefix_cons.mp starts with ⟨rfl, within⟩
    have width := ((Rfc9000.varint_cons_iff first' rest' value).mp isVarint).1
    have fits := within.length_le
    rw [← varintLength_eq] at width
    omega
  · left
    rcases decodeVarint_of_enough (not_lt.mp short) with ⟨value, decoded, holds⟩
    exact ⟨_, decoded, varintLength_pos first, not_lt.mp short, holds⟩

/-- An integer is read back, whatever follows it. -/
theorem decodeVarint_of_varint {coded : Bytes} {value : ℕ}
    (isVarint : Rfc9000.Varint coded value) (behind : Bytes) :
    ∃ number : UInt64, number.toNat = value ∧
      decodeVarint (coded ++ behind) (coded ++ behind).length = .ok ⟨number, coded.length⟩ := by
  rcases List.exists_cons_of_ne_nil isVarint.ne_nil with ⟨first, rest, rfl⟩
  have width := ((Rfc9000.varint_cons_iff first rest value).mp isVarint).1
  rw [← varintLength_eq] at width
  have enough : varintLength first ≤ (rest ++ behind).length + 1 := by
    rw [List.length_append]
    omega
  rcases decodeVarint_of_enough enough with ⟨number, decoded, holds⟩
  have taken : (first :: (rest ++ behind)).take (varintLength first) = first :: rest := by
    rw [← width, List.take_succ_cons, List.take_left]
  rw [taken] at holds
  refine ⟨number, holds.value_unique isVarint, ?_⟩
  rw [List.cons_append, decoded, List.length_cons, width]

/-! ## Writing -/

theorem toNat_tag {log : ℕ} (atMost : log ≤ 3) : ∀ top : UInt8, top.toNat < 64 →
    (UInt8.ofNat (log * 64) ||| top).toNat = top.toNat + log * 64 := by
  interval_cases log <;> exact forall_byte (by decide +kernel)

theorem toUInt8_shiftRight (value : UInt64) (place : ℕ) (inside : place < 64) :
    (value >>> UInt64.ofNat place).toUInt8 = UInt8.ofNat (value.toNat / 2 ^ place) := by
  have count : (UInt64.ofNat place).toNat % 64 = place := by
    rw [UInt64.toNat_ofNat']
    omega
  apply UInt8.toNat_inj.mp
  rw [UInt64.toNat_toUInt8, UInt64.toNat_shiftRight, count, UInt8.toNat_ofNat',
    Nat.shiftRight_eq_div_pow]

variable {value : UInt64}

/-- The first byte written holds the length bits and the top of the value. -/
theorem toNat_firstByte {log : ℕ} (atMost : log ≤ 3) (fits : value.toNat < Rfc9000.capacity log) :
    (UInt8.ofNat (log * 64) |||
        (value >>> UInt64.ofNat (8 * (2 ^ log - 1))).toUInt8).toNat =
      value.toNat / 256 ^ (2 ^ log - 1) + log * 64 := by
  have inside : 8 * (2 ^ log - 1) < 64 := by interval_cases log <;> decide
  have places : 2 ^ (8 * (2 ^ log - 1)) = 256 ^ (2 ^ log - 1) := Nat.pow_mul 2 8 _
  have top : value.toNat / 256 ^ (2 ^ log - 1) < 64 := Nat.div_lt_of_lt_mul (by
    rw [Nat.mul_comm]
    exact fits)
  rw [toUInt8_shiftRight value _ inside, places]
  generalize value.toNat / 256 ^ (2 ^ log - 1) = quotient at top ⊢
  have byte : (UInt8.ofNat quotient).toNat = quotient := by
    rw [UInt8.toNat_ofNat']
    omega
  rw [toNat_tag atMost _ (by rw [byte]; exact top), byte]

theorem toBigEndian_one (value : UInt64) : toBigEndian 1 value.toNat = [value.toUInt8] := by
  simp [toBigEndian]

/-- The lower bytes are written by shifts. -/
theorem toBigEndian_succ (value : UInt64) (count : ℕ) (inside : 8 * count < 64) :
    toBigEndian (count + 1) value.toNat =
      (value >>> UInt64.ofNat (8 * count)).toUInt8 :: toBigEndian count value.toNat := by
  rw [toBigEndian, toUInt8_shiftRight value _ inside, Nat.pow_mul]

theorem varintSize_cases (small : value.toNat < 2 ^ 62) :
    ∃ log ≤ 3, varintSize value = 2 ^ log ∧ value.toNat < Rfc9000.capacity log ∧
      ∀ log' < log, Rfc9000.capacity log' ≤ value.toNat := by
  rcases Rfc9000.capacity_values with ⟨one, two, four, eight⟩
  have bounds : (0x3F : UInt64).toNat = 63 ∧ (0x3FFF : UInt64).toNat = 16383 ∧
      (0x3FFFFFFF : UInt64).toNat = 1073741823 := by decide
  rcases bounds with ⟨below1, below2, below4⟩
  unfold varintSize
  simp only [UInt64.le_iff_toNat_le, below1, below2, below4]
  split_ifs with fits1 fits2 fits4
  · exact ⟨0, by omega, rfl, by omega, by omega⟩
  · refine ⟨1, by omega, rfl, by omega, ?_⟩
    intro log' smaller
    interval_cases log'
    omega
  · refine ⟨2, by omega, rfl, by omega, ?_⟩
    intro log' smaller
    interval_cases log' <;> omega
  · refine ⟨3, by omega, rfl, by omega, ?_⟩
    intro log' smaller
    interval_cases log' <;> omega

theorem encodeVarint_eq {log : ℕ} (atMost : log ≤ 3) (size : varintSize value = 2 ^ log) :
    encodeVarint value =
      (UInt8.ofNat (log * 64) ||| (value >>> UInt64.ofNat (8 * (2 ^ log - 1))).toUInt8) ::
        toBigEndian (2 ^ log - 1) value.toNat := by
  simp only [encodeVarint, size]
  interval_cases log
  · simp [toBigEndian]
  · show _ = _ :: toBigEndian 1 value.toNat
    rw [toBigEndian_one]
    rfl
  · show _ = _ :: toBigEndian 3 value.toNat
    rw [toBigEndian_succ value 2 (by omega), toBigEndian_succ value 1 (by omega),
      toBigEndian_one]
    rfl
  · show _ = _ :: toBigEndian 7 value.toNat
    rw [toBigEndian_succ value 6 (by omega), toBigEndian_succ value 5 (by omega),
      toBigEndian_succ value 4 (by omega), toBigEndian_succ value 3 (by omega),
      toBigEndian_succ value 2 (by omega), toBigEndian_succ value 1 (by omega),
      toBigEndian_one]
    rfl

/-- A number below `2 ^ 62` is written as an integer with that value. -/
theorem varint_encodeVarint (small : value.toNat < 2 ^ 62) :
    Rfc9000.Varint (encodeVarint value) value.toNat := by
  rcases varintSize_cases small with ⟨log, atMost, size, fits, -⟩
  rw [encodeVarint_eq atMost size]
  exact Rfc9000.varint_cons atMost fits (toNat_firstByte atMost fits)

theorem length_encodeVarint (small : value.toNat < 2 ^ 62) :
    (encodeVarint value).length = varintSize value := by
  rcases varintSize_cases small with ⟨log, atMost, size, -⟩
  have positive : 0 < 2 ^ log := Nat.two_pow_pos log
  rw [encodeVarint_eq atMost size, size, List.length_cons, length_toBigEndian]
  omega

/-- No integer is shorter than the one written. -/
theorem varintSize_le {coded : Bytes} (isVarint : Rfc9000.Varint coded value.toNat) :
    varintSize value ≤ coded.length := by
  rcases isVarint.length_eq with ⟨log, atMost, length, fits⟩
  have small : value.toNat < 2 ^ 62 := isVarint.value_lt
  rcases varintSize_cases small with ⟨least, -, size, -, larger⟩
  have minimal : least ≤ log := by
    by_contra shorter
    have tooLarge := larger log (by omega)
    omega
  rw [size, length]
  exact Nat.pow_le_pow_right (by omega) minimal

/-- The integer written is the shortest one, and the only one of its length. -/
theorem eq_encodeVarint_iff {coded : Bytes} (isVarint : Rfc9000.Varint coded value.toNat) :
    coded = encodeVarint value ↔ coded.length = varintSize value := by
  have written := varint_encodeVarint isVarint.value_lt
  rw [← length_encodeVarint isVarint.value_lt]
  constructor
  · intro same
    rw [same]
  · exact isVarint.unique written

/-! ## The two directions -/

/--
What is written is read back whole and only whole; what is read was written that way, or
in a longer form of the same number.
-/
theorem varint_inverse :
    (∀ value : UInt64, value.toNat < 2 ^ 62 →
      (∀ behind : Bytes,
        decodeVarint (encodeVarint value ++ behind) (encodeVarint value ++ behind).length =
          .ok ⟨value, varintSize value⟩) ∧
      ∀ cut : Bytes, cut <+: encodeVarint value → cut ≠ encodeVarint value →
        decodeVarint cut cut.length = .ok ⟨0, 0⟩) ∧
    ∀ (data : Bytes) (value : UInt64) (count : ℕ),
      decodeVarint data data.length = .ok ⟨value, count⟩ → 0 < count →
        value.toNat < 2 ^ 62 ∧ count ≤ data.length ∧ varintSize value ≤ count ∧
          (data.take count = encodeVarint value ↔ count = varintSize value) := by
  refine ⟨?_, ?_⟩
  · intro value small
    have written := varint_encodeVarint small
    constructor
    · intro behind
      rcases decodeVarint_of_varint written behind with ⟨number, same, decoded⟩
      rw [decoded, UInt64.toNat_inj.mp same, length_encodeVarint small]
    · intro cut starts proper
      rcases decodeVarint_cases cut with ⟨result, decoded, positive, inside, holds⟩ | ⟨none, -⟩
      · exfalso
        have same := holds.eq_of_prefix written ((List.take_prefix _ _).trans starts)
        apply proper
        apply starts.eq_of_length_le
        rw [← same]
        exact List.length_take_le' _ _
      · exact none
  · intro data value count decoded positive
    rcases decodeVarint_cases data with ⟨result, decoded', -, inside, holds⟩ | ⟨decoded', -⟩
    · rw [decoded] at decoded'
      cases decoded'
      have taken : (data.take count).length = count := by
        rw [List.length_take]
        exact Nat.min_eq_left inside
      refine ⟨holds.value_lt, inside, ?_, ?_⟩
      · rw [← taken]
        exact varintSize_le holds
      · rw [eq_encodeVarint_iff holds, taken]
    · rw [decoded] at decoded'
      cases decoded'
      omega

theorem varint_inverse_twoBytes :
    encodeVarint 15293 = [0x7B, 0xBD] ∧
      decodeVarint ([0x7B, 0xBD] ++ [7]) 3 = .ok ⟨15293, 2⟩ ∧
      decodeVarint [0x7B] 1 = .ok ⟨0, 0⟩ :=
  ⟨by decide, (varint_inverse.1 15293 (by decide)).1 [7],
    (varint_inverse.1 15293 (by decide)).2 [0x7B] (by decide) (by decide)⟩

end ReverseProxy
