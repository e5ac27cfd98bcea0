import Mathlib.Data.List.TakeWhile
import Mathlib.Data.Nat.Digits.Lemmas
import ReverseProxy.Text.Search

/-!
# Byte strings and their numerals

Byte strings with the character classes of the "C" locale, and the conversions
between numerals and numbers that the standard library of C offers: `strtoul`,
`strtol` and `to_string`, on a platform whose `long` has 64 bits.  The
conversions never fail on overflow; they saturate, as the standard library does.
-/

namespace Text

/-- A text. -/
abbrev Bytes := List UInt8

/-- The bytes of a string of ASCII characters. -/
def ascii (text : String) : Bytes :=
  text.toList.map fun char => UInt8.ofNat char.toNat

/-- Carriage return. -/
def CR : UInt8 := 13
/-- Line feed. -/
def LF : UInt8 := 10
/-- Blank. -/
def SP : UInt8 := 32
/-- Tab. -/
def HTAB : UInt8 := 9
/-- `:`. -/
def COLON : UInt8 := 58
/-- `/`. -/
def SLASH : UInt8 := 47

/-- A line end. -/
def crlf : Bytes := [CR, LF]

/-- `isspace`. -/
def isSpace (byte : UInt8) : Bool :=
  byte = SP || (9 ≤ byte && byte ≤ 13)

/-- The set `" \t"`, also the optional whitespace around a field value. -/
def isBlank (byte : UInt8) : Bool :=
  byte = SP || byte = HTAB

/-- `isdigit`. -/
def isDigit (byte : UInt8) : Bool :=
  48 ≤ byte && byte ≤ 57

/-- `tolower`. -/
def toLower (byte : UInt8) : UInt8 :=
  if 65 ≤ byte ∧ byte ≤ 90 then byte + 32 else byte

/-- In lower case. -/
def lower (text : Bytes) : Bytes :=
  text.map toLower

theorem isSpace_of_isBlank {byte : UInt8} (blank : isBlank byte = true) : isSpace byte = true := by
  simp only [isBlank, Bool.or_eq_true, decide_eq_true_eq] at blank
  rcases blank with rfl | rfl <;> decide

/-- A fact about all bytes is a fact about 256 codes. -/
theorem forall_byte {Holds : UInt8 → Prop} (codes : ∀ code : Fin 256, Holds (.ofFin code)) :
    ∀ byte, Holds byte := by
  intro byte
  simpa using codes byte.toFin

theorem toLower_toLower (byte : UInt8) : toLower (toLower byte) = toLower byte := by
  revert byte
  refine forall_byte ?_
  decide +kernel

@[simp]
theorem lower_lower (text : Bytes) : lower (lower text) = lower text := by
  simp [lower, toLower_toLower]

@[simp]
theorem lower_eq_nil_iff (text : Bytes) : lower text = [] ↔ text = [] := by
  simp [lower]

/-- Removes the optional whitespace before a field value. -/
def trimLeft (text : Bytes) : Bytes :=
  text.dropWhile isBlank

/-- Removes the optional whitespace around a field value. -/
def trim (text : Bytes) : Bytes :=
  (trimLeft (trimLeft text).reverse).reverse

/-- The value of a digit in the given base, letters in either case. -/
def digitValue (base : ℕ) (byte : UInt8) : Option ℕ :=
  let value :=
    if 48 ≤ byte ∧ byte ≤ 57 then some (byte.toNat - 48)
    else if 97 ≤ byte ∧ byte ≤ 122 then some (byte.toNat - 87)
    else if 65 ≤ byte ∧ byte ≤ 90 then some (byte.toNat - 55)
    else none
  value.filter (· < base)

/-- The longest leading run of digits. -/
def leadingDigits (base : ℕ) : Bytes → List ℕ
  | [] => []
  | byte :: rest =>
    match digitValue base byte with
    | some digit => digit :: leadingDigits base rest
    | none => []

/-- The number written by a list of digits, most significant first. -/
def ofDigits (base : ℕ) (digits : List ℕ) : ℕ :=
  Nat.ofDigits base digits.reverse

/-- `ULONG_MAX`. -/
def ulongMax : ℕ := 2 ^ 64 - 1
/-- `LONG_MAX`. -/
def longMax : ℕ := 2 ^ 63 - 1

/-- The sign that a numeral may start with: whether it is negative, and the rest. -/
def splitSign : Bytes → Bool × Bytes
  | 45 :: rest => (true, rest)
  | 43 :: rest => (false, rest)
  | text => (false, text)

/-- The `0x` that a hexadecimal numeral may start with. -/
def dropHexMark : Bytes → Bytes
  | 48 :: mark :: digit :: rest =>
    if (mark = 120 ∨ mark = 88) ∧ (digitValue 16 digit).isSome then digit :: rest
    else 48 :: mark :: digit :: rest
  | text => text

/-- The digits that `strtoul` and `strtol` convert, and whether they are negated. -/
def numeral (base : ℕ) (text : Bytes) : Bool × List ℕ :=
  let signed := splitSign (text.dropWhile isSpace)
  (signed.1, leadingDigits base (if base = 16 then dropHexMark signed.2 else signed.2))

/-- `strtoul`: `none` when no digit was converted, in which case it returns `0`. -/
def strtoul (base : ℕ) (text : Bytes) : Option ℕ :=
  match numeral base text with
  | (_, []) => none
  | (negative, digits) =>
    let value := ofDigits base digits
    if ulongMax < value then some ulongMax
    else some (if negative then (2 ^ 64 - value) % 2 ^ 64 else value)

/-- `strtol`: `none` when no digit was converted, in which case it returns `0`. -/
def strtol (base : ℕ) (text : Bytes) : Option ℤ :=
  match numeral base text with
  | (_, []) => none
  | (true, digits) => some (-(min (ofDigits base digits) (longMax + 1) : ℕ))
  | (false, digits) => some (min (ofDigits base digits) longMax : ℕ)

/-- The digit that writes a number below ten. -/
def digitByte (digit : ℕ) : UInt8 := UInt8.ofNat (48 + digit)

/-- `to_string` of an unsigned number. -/
def decimal (value : ℕ) : Bytes :=
  if value = 0 then [48] else (Nat.digits 10 value).reverse.map digitByte

/-- `to_string` of a signed number. -/
def toDecimal : ℤ → Bytes
  | .ofNat value => decimal value
  | .negSucc value => 45 :: decimal (value + 1)

theorem digitValue_digitByte {digit : ℕ} (small : digit < 10) :
    digitValue 10 (digitByte digit) = some digit := by
  interval_cases digit <;> decide

theorem isDigit_iff_digitValue (byte : UInt8) :
    isDigit byte = true ↔ (digitValue 10 byte).isSome = true := by
  revert byte
  refine forall_byte ?_
  decide +kernel

theorem leadingDigits_of_digits {digits : List ℕ} (small : ∀ digit ∈ digits, digit < 10)
    {rest : Bytes} (stops : ∀ byte ∈ rest.head?, digitValue 10 byte = none) :
    leadingDigits 10 (digits.map digitByte ++ rest) = digits := by
  induction digits with
  | nil =>
    cases rest with
    | nil => rfl
    | cons byte rest => simp [leadingDigits, stops byte (by simp)]
  | cons digit digits ih =>
    have tail := ih fun later laterMem => small later (by simp [laterMem])
    simp [leadingDigits, digitValue_digitByte (small digit (by simp)), tail]

/-- The digits of a decimal numeral. -/
def decimalDigits (value : ℕ) : List ℕ :=
  if value = 0 then [0] else (Nat.digits 10 value).reverse

theorem decimal_eq (value : ℕ) : decimal value = (decimalDigits value).map digitByte := by
  by_cases zero : value = 0
  · simp [decimal, decimalDigits, zero]
    decide
  · simp [decimal, decimalDigits, zero]

theorem decimalDigits_ne_nil (value : ℕ) : decimalDigits value ≠ [] := by
  by_cases zero : value = 0
  · simp [decimalDigits, zero]
  · simp [decimalDigits, zero, Nat.digits_ne_nil_iff_ne_zero]

theorem decimalDigits_lt {value digit : ℕ} (digitMem : digit ∈ decimalDigits value) :
    digit < 10 := by
  by_cases zero : value = 0
  · simp [decimalDigits, zero] at digitMem
    omega
  · simp only [decimalDigits, zero, if_false, List.mem_reverse] at digitMem
    exact Nat.digits_lt_base (by omega) digitMem

@[simp]
theorem ofDigits_decimalDigits (value : ℕ) : ofDigits 10 (decimalDigits value) = value := by
  by_cases zero : value = 0
  · simp [ofDigits, decimalDigits, zero]
  · simp [ofDigits, decimalDigits, zero, Nat.ofDigits_digits]

theorem leadingDigits_decimal (value : ℕ) :
    leadingDigits 10 (decimal value) = decimalDigits value := by
  have small : ∀ digit ∈ decimalDigits value, digit < 10 := fun _ => decimalDigits_lt
  have stops : ∀ byte ∈ ([] : Bytes).head?, digitValue 10 byte = none := by simp
  simpa [decimal_eq] using leadingDigits_of_digits small stops

theorem splitSign_cons {first : UInt8} (notSpace : isSpace first = false) (notMinus : first ≠ 45)
    (notPlus : first ≠ 43) (rest : Bytes) :
    splitSign ((first :: rest).dropWhile isSpace) = (false, first :: rest) := by
  rw [List.dropWhile_cons_of_neg (by simp [notSpace])]
  unfold splitSign
  split <;> simp_all

theorem splitSign_decimal (value : ℕ) (rest : Bytes) :
    splitSign ((decimal value ++ rest).dropWhile isSpace) = (false, decimal value ++ rest) := by
  rcases List.exists_cons_of_ne_nil (decimalDigits_ne_nil value) with ⟨first, later, split⟩
  have small : first < 10 := decimalDigits_lt (by rw [split]; simp)
  rw [decimal_eq, split, List.map_cons, List.cons_append]
  apply splitSign_cons <;> interval_cases first <;> decide

theorem numeral_decimal (value : ℕ) :
    numeral 10 (decimal value) = (false, decimalDigits value) := by
  have unsigned := splitSign_decimal value []
  rw [List.append_nil] at unsigned
  simp [numeral, unsigned, leadingDigits_decimal]

theorem numeral_minus_decimal (value : ℕ) :
    numeral 10 (45 :: decimal value) = (true, decimalDigits value) := by
  have notSpace : isSpace 45 = false := by decide
  simp [numeral, notSpace, splitSign, leadingDigits_decimal]

theorem strtol_toDecimal {value : ℤ} (low : -(2 ^ 31) ≤ value) (high : value < 2 ^ 31) :
    strtol 10 (toDecimal value) = some value := by
  cases value with
  | ofNat value =>
    have fits : value ≤ longMax := by
      simp only [Int.ofNat_eq_natCast] at high
      simp only [longMax]
      omega
    simp only [toDecimal, strtol, numeral_decimal]
    split
    · rename_i empty
      simp [decimalDigits_ne_nil] at empty
    · rename_i negative
      simp at negative
    · rename_i positive
      simp only [Prod.mk.injEq, true_and] at positive
      subst positive
      simp [fits]
  | negSucc value =>
    have fits : value + 1 ≤ longMax + 1 := by
      simp only [longMax]
      omega
    simp only [toDecimal, strtol, numeral_minus_decimal]
    split
    · rename_i empty
      simp [decimalDigits_ne_nil] at empty
    · rename_i negative
      simp only [Prod.mk.injEq, true_and] at negative
      subst negative
      simp only [ofDigits_decimalDigits, Nat.min_eq_left fits, Option.some.injEq]
      omega
    · rename_i positive
      simp at positive

theorem trim_parts (text : Bytes) :
    ∃ before after, text = before ++ trim text ++ after ∧
      (∀ byte ∈ before, isBlank byte = true) ∧ ∀ byte ∈ after, isBlank byte = true := by
  have left : text.takeWhile isBlank ++ trimLeft text = text := List.takeWhile_append_dropWhile
  have right : (trimLeft text).reverse.takeWhile isBlank ++ trimLeft (trimLeft text).reverse =
      (trimLeft text).reverse := List.takeWhile_append_dropWhile
  refine ⟨text.takeWhile isBlank, ((trimLeft text).reverse.takeWhile isBlank).reverse, ?_, ?_, ?_⟩
  · have whole := congrArg List.reverse right
    rw [List.reverse_append, List.reverse_reverse] at whole
    rw [trim, List.append_assoc, whole, left]
  · exact fun byte byteMem => List.mem_takeWhile_imp byteMem
  · intro byte byteMem
    exact List.mem_takeWhile_imp (List.mem_reverse.mp byteMem)

theorem trim_blank_cons (text : Bytes) : trim (SP :: text) = trim text := by
  have blank : isBlank SP = true := by decide
  simp [trim, trimLeft, blank]

/-- The white space that a conversion skips includes the blanks. -/
theorem dropWhile_isSpace_trimLeft (text : Bytes) :
    (trimLeft text).dropWhile isSpace = text.dropWhile isSpace := by
  induction text with
  | nil => rfl
  | cons byte text ih =>
    by_cases blank : isBlank byte = true
    · rw [trimLeft, List.dropWhile_cons_of_pos blank,
        List.dropWhile_cons_of_pos (isSpace_of_isBlank blank)]
      exact ih
    · rw [trimLeft, List.dropWhile_cons_of_neg blank]

theorem strtoul_trimLeft (base : ℕ) (text : Bytes) :
    strtoul base (trimLeft text) = strtoul base text := by
  rw [strtoul, numeral, dropWhile_isSpace_trimLeft]
  rfl

theorem leadingDigits_append_of_stop {base : ℕ} {text rest : Bytes}
    (digits : ∀ byte ∈ text, (digitValue base byte).isSome = true)
    (stops : ∀ byte ∈ rest.head?, digitValue base byte = none) :
    leadingDigits base (text ++ rest) = leadingDigits base text := by
  induction text with
  | nil =>
    cases rest with
    | nil => rfl
    | cons byte rest => simp [leadingDigits, stops byte (by simp)]
  | cons byte text ih =>
    have tail := ih fun later laterMem => digits later (by simp [laterMem])
    simp [leadingDigits, tail]

theorem leadingDigits_append {text rest : Bytes} (digits : ∀ byte ∈ text, isDigit byte = true)
    (stops : ∀ byte ∈ rest.head?, isDigit byte = false) :
    leadingDigits 10 (text ++ rest) = leadingDigits 10 text := by
  apply leadingDigits_append_of_stop
  · intro byte byteMem
    rw [← isDigit_iff_digitValue]
    exact digits byte byteMem
  · intro byte byteMem
    rw [← Option.not_isSome_iff_eq_none, ← isDigit_iff_digitValue, stops byte byteMem]
    simp

theorem isDigit_facts : ∀ byte, isDigit byte = true →
    isSpace byte = false ∧ byte ≠ 45 ∧ byte ≠ 43 ∧ (digitValue 10 byte).isSome = true :=
  forall_byte (by decide +kernel)

theorem isDigit_of_isBlank : ∀ byte, isBlank byte = true → isDigit byte = false :=
  forall_byte (by decide +kernel)

theorem isDigit_of_mem_decimal {value : ℕ} {byte : UInt8} (byteMem : byte ∈ decimal value) :
    isDigit byte = true := by
  rw [decimal_eq] at byteMem
  rcases List.mem_map.mp byteMem with ⟨digit, digitMem, rfl⟩
  rw [isDigit_iff_digitValue, digitValue_digitByte (decimalDigits_lt digitMem)]
  rfl

theorem trimLeft_of_unblank {text : Bytes} (unblank : ∀ byte ∈ text, isBlank byte = false) :
    trimLeft text = text := by
  cases text with
  | nil => rfl
  | cons byte text => exact List.dropWhile_cons_of_neg (by simp [unblank byte])

theorem trim_decimal (value : ℕ) : trim (decimal value) = decimal value := by
  have unblank : ∀ byte ∈ decimal value, isBlank byte = false := by
    intro byte byteMem
    by_contra blank
    have notDigit := isDigit_of_isBlank byte (by simpa using blank)
    simp [isDigit_of_mem_decimal byteMem] at notDigit
  rw [trim, trimLeft_of_unblank unblank, trimLeft_of_unblank, List.reverse_reverse]
  exact fun byte byteMem => unblank byte (List.mem_reverse.mp byteMem)

/-- `strtoul` on a numeral without a minus. -/
theorem strtoul_of_numeral {base : ℕ} {text : Bytes} {digits : List ℕ}
    (unsigned : numeral base text = (false, digits)) (nonempty : digits ≠ []) :
    strtoul base text = some (min (ofDigits base digits) ulongMax) := by
  unfold strtoul
  rw [unsigned]
  split
  · simp_all
  · rename_i negative digits' _ same
    simp only [Prod.mk.injEq] at same
    obtain ⟨rfl, rfl⟩ := same
    by_cases large : ulongMax < ofDigits base digits
    · simp [large, Nat.min_eq_right large.le]
    · simp [large, Nat.min_eq_left (not_lt.mp large)]

theorem leadingDigits_ne_nil {text : Bytes} (nonempty : text ≠ [])
    (digits : ∀ byte ∈ text, isDigit byte = true) : leadingDigits 10 text ≠ [] := by
  rcases List.exists_cons_of_ne_nil nonempty with ⟨first, later, rfl⟩
  have isDigit := (isDigit_facts first (digits first (by simp))).2.2.2
  rcases Option.isSome_iff_exists.mp isDigit with ⟨digit, isValue⟩
  simp [leadingDigits, isValue]

/-- A numeral: white space, a sign, digits, and something else behind them. -/
structure Numeral (spaces sign digits junk : Bytes) : Prop where
  isSpaces : ∀ byte ∈ spaces, isSpace byte = true
  isSign : sign = [] ∨ sign = [43] ∨ sign = [45]
  nonempty : digits ≠ []
  isDigits : ∀ byte ∈ digits, isDigit byte = true
  stops : ∀ byte ∈ junk.head?, isDigit byte = false

theorem Numeral.numeral_eq {spaces sign digits junk : Bytes}
    (isNumeral : Numeral spaces sign digits junk) :
    numeral 10 (spaces ++ (sign ++ (digits ++ junk))) =
      (decide (sign = [45]), leadingDigits 10 digits) := by
  rcases isNumeral with ⟨isSpaces, isSign, nonempty, isDigits, stops⟩
  have read := leadingDigits_append isDigits stops
  have signed : splitSign ((sign ++ (digits ++ junk)).dropWhile isSpace) =
      (decide (sign = [45]), digits ++ junk) := by
    rcases isSign with rfl | rfl | rfl
    · rcases List.exists_cons_of_ne_nil nonempty with ⟨first, later, rfl⟩
      rcases isDigit_facts first (isDigits first (by simp)) with ⟨notSpace, notMinus, notPlus, -⟩
      exact splitSign_cons notSpace notMinus notPlus _
    · rfl
    · rfl
  rw [numeral, List.dropWhile_append_of_pos isSpaces, signed]
  simp [read]

theorem numeral_bare {digits : Bytes} (nonempty : digits ≠ [])
    (isDigits : ∀ byte ∈ digits, isDigit byte = true) : Numeral [] [] digits [] :=
  ⟨by simp, .inl rfl, nonempty, isDigits, by simp⟩

/-- A numeral that is nothing but digits. -/
theorem Numeral.bare {spaces sign digits junk : Bytes} (isNumeral : Numeral spaces sign digits junk)
    (decimal : ∀ byte ∈ spaces ++ (sign ++ (digits ++ junk)), isDigit byte = true) :
    spaces = [] ∧ sign = [] ∧ junk = [] := by
  refine ⟨?_, ?_, ?_⟩
  · cases spaces with
    | nil => rfl
    | cons byte spaces =>
      have notSpace := (isDigit_facts byte (decimal byte (by simp))).1
      simp [isNumeral.isSpaces byte (by simp)] at notSpace
  · rcases isNumeral.isSign with rfl | rfl | rfl
    · rfl
    · exact absurd (decimal 43 (by simp)) (by decide)
    · exact absurd (decimal 45 (by simp)) (by decide)
  · cases junk with
    | nil => rfl
    | cons byte junk =>
      have stops := isNumeral.stops byte rfl
      simp [decimal byte (by simp)] at stops

theorem splitSign_parts (text : Bytes) :
    ∃ sign, (sign = [] ∨ sign = [43] ∨ sign = [45]) ∧ text = sign ++ (splitSign text).2 := by
  unfold splitSign
  split
  · exact ⟨[45], by simp, rfl⟩
  · exact ⟨[43], by simp, rfl⟩
  · exact ⟨[], by simp, rfl⟩

/-- Where digits are converted, the text is a numeral. -/
theorem exists_numeral {text : Bytes} (converted : (numeral 10 text).2 ≠ []) :
    ∃ spaces sign digits junk, text = spaces ++ (sign ++ (digits ++ junk)) ∧
      Numeral spaces sign digits junk := by
  rcases splitSign_parts (text.dropWhile isSpace) with ⟨sign, isSign, isSigned⟩
  change leadingDigits 10 (splitSign (text.dropWhile isSpace)).2 ≠ [] at converted
  generalize (splitSign (text.dropWhile isSpace)).2 = rest at isSigned converted
  have split : rest.takeWhile isDigit ++ rest.dropWhile isDigit = rest :=
    List.takeWhile_append_dropWhile
  have stops : ∀ byte ∈ (rest.dropWhile isDigit).head?, isDigit byte = false := by
    intro byte isHead
    have head := List.head?_dropWhile_not isDigit rest
    rw [Option.mem_def.mp isHead] at head
    simpa using head
  refine ⟨text.takeWhile isSpace, sign, rest.takeWhile isDigit, rest.dropWhile isDigit, ?_,
    fun _ => List.mem_takeWhile_imp, isSign, ?_, fun _ => List.mem_takeWhile_imp, stops⟩
  · rw [split, ← isSigned, List.takeWhile_append_dropWhile]
  · intro empty
    rw [empty, List.nil_append] at split
    rw [split] at stops
    have none : leadingDigits 10 ([] ++ rest) = leadingDigits 10 [] :=
      leadingDigits_append (by simp) stops
    exact converted none

/-- A numeral with blanks before it and something else after it. -/
theorem numeral_of_digits {before text after : Bytes}
    (blanks : ∀ byte ∈ before, isBlank byte = true) (nonempty : text ≠ [])
    (digits : ∀ byte ∈ text, isDigit byte = true)
    (stops : ∀ byte ∈ after.head?, isDigit byte = false) :
    numeral 10 (before ++ text ++ after) = (false, leadingDigits 10 text) := by
  have isNumeral : Numeral before [] text after :=
    ⟨fun byte byteMem => isSpace_of_isBlank (blanks byte byteMem), .inl rfl, nonempty, digits, stops⟩
  simpa using isNumeral.numeral_eq

theorem strtoul_of_digits {before text after : Bytes}
    (blanks : ∀ byte ∈ before, isBlank byte = true) (nonempty : text ≠ [])
    (digits : ∀ byte ∈ text, isDigit byte = true)
    (stops : ∀ byte ∈ after.head?, isDigit byte = false) :
    strtoul 10 (before ++ text ++ after) =
      some (min (ofDigits 10 (leadingDigits 10 text)) ulongMax) :=
  strtoul_of_numeral (numeral_of_digits blanks nonempty digits stops)
    (leadingDigits_ne_nil nonempty digits)

theorem isHex_facts : ∀ byte, (digitValue 16 byte).isSome = true →
    isSpace byte = false ∧ byte ≠ 45 ∧ byte ≠ 43 ∧ byte ≠ 120 ∧ byte ≠ 88 :=
  forall_byte (by decide +kernel)

/-- A hexadecimal numeral that is only digits is not taken for one with a mark. -/
theorem dropHexMark_of_hex {text after : Bytes} (nonempty : text ≠ [])
    (digits : ∀ byte ∈ text, (digitValue 16 byte).isSome = true)
    (stops : ∀ byte ∈ after.head?, byte ≠ 120 ∧ byte ≠ 88) :
    dropHexMark (text ++ after) = text ++ after := by
  unfold dropHexMark
  split
  · rename_i mark digit rest same
    have notMark : mark ≠ 120 ∧ mark ≠ 88 := by
      rcases text with _ | ⟨first, _ | ⟨second, text⟩⟩
      · exact absurd rfl nonempty
      · rcases List.cons.inj same with ⟨-, rfl⟩
        exact stops mark (by simp)
      · rcases List.cons.inj same with ⟨-, later⟩
        obtain rfl := (List.cons.inj later).1
        exact (isHex_facts second (digits second (by simp))).2.2.2
    rw [if_neg fun marked => marked.1.elim notMark.1 notMark.2]
    exact same.symm
  · rfl

/-- `strtoul` in base 16 on a numeral with something else after it. -/
theorem strtoul_of_hex {text after : Bytes} (nonempty : text ≠ [])
    (digits : ∀ byte ∈ text, (digitValue 16 byte).isSome = true)
    (stops : ∀ byte ∈ after.head?, digitValue 16 byte = none ∧ byte ≠ 120 ∧ byte ≠ 88) :
    strtoul 16 (text ++ after) =
      some (min (ofDigits 16 (leadingDigits 16 text)) ulongMax) := by
  rcases List.exists_cons_of_ne_nil nonempty with ⟨first, later, rfl⟩
  rcases isHex_facts first (digits first (by simp)) with ⟨notSpace, notMinus, notPlus, -⟩
  have unsigned := splitSign_cons notSpace notMinus notPlus (later ++ after)
  rw [← List.cons_append] at unsigned
  have value : numeral 16 (first :: later ++ after) =
      (false, leadingDigits 16 (first :: later)) := by
    simp only [numeral, unsigned, if_true,
      dropHexMark_of_hex nonempty digits fun byte byteMem => (stops byte byteMem).2]
    rw [leadingDigits_append_of_stop digits fun byte byteMem => (stops byte byteMem).1]
  refine strtoul_of_numeral value ?_
  rcases Option.isSome_iff_exists.mp (digits first (by simp)) with ⟨digit, isDigit⟩
  simp [leadingDigits, isDigit]

end Text
