import ReverseProxy.Codec.H3.Varint
import ReverseProxy.Codec.H3.Message
import ReverseProxy.Http1.Framing

/-!
# Literal header lists

`h3_detail::parse_request_headers` (`codec/h3_codec.cpp`): a list of fields, each a name
and a value, each of them a variable-length integer and that many bytes.  A length comes
from the peer and is added to an offset in 64 bits; a `content-length` is converted by
`std::stoull`, which throws.

`Coded` states which buffers are such lists.  The loop is followed through any fields at
the start of a buffer (`parseFrom_coded`), and there are always some fields that it
consumes (`parseFrom_cases`).
-/

namespace ReverseProxy

namespace H3Detail

open H3Codec (lastValue lastValue_cons)

open Text

/-! ## The format -/

/-- A string with its length before it. -/
def Lengthed (coded text : Bytes) : Prop :=
  ∃ count, Rfc9000.Varint count text.length ∧ coded = count ++ text

/-- The coding of a header list. -/
inductive Coded : HeaderList → Bytes → Prop where
  | nil : Coded [] []
  | cons {name value codedName codedValue rest : Bytes} {fields : HeaderList}
      (isName : Lengthed codedName name) (isValue : Lengthed codedValue value)
      (coded : Coded fields rest) :
      Coded ((name, value) :: fields) (codedName ++ (codedValue ++ rest))

/-- A string written with `encode_varint`. -/
def encodeString (text : Bytes) : Bytes :=
  encodeVarint (UInt64.ofNat text.length) ++ text

/-- A list of fields written with `encode_varint`. -/
def encodeFields (fields : HeaderList) : Bytes :=
  fields.flatMap fun field => encodeString field.1 ++ encodeString field.2

/-! ## The parser -/

/-- What `parse_request_headers` fills in. -/
structure LiteralHead where
  method : Bytes := []
  path : Bytes := []
  headers : HeaderMap := {}
  contentLength : Option ℕ := none
  deriving DecidableEq, Repr

/-- A buffer; no object has more than `PTRDIFF_MAX` bytes. -/
structure Buffer where
  bytes : Bytes
  fits : bytes.length < 2 ^ 63

/-- `std::stoull`. -/
def stoull (text : Bytes) : Except Fault ℕ :=
  let number := ofDigits 10 (numeral 10 text).2
  if (numeral 10 text).2 = [] then .error (.throws .invalidArgument)
  else if ulongMax < number then .error (.throws .outOfRange)
  else .ok (if (numeral 10 text).1 then (2 ^ 64 - number) % 2 ^ 64 else number)

/-- The string of `count` bytes at `data + pos`. -/
def slice (data : Bytes) (pos count : ℕ) : Except Fault Bytes :=
  if pos + count ≤ data.length then .ok ((data.drop pos).take count) else .error .overread

/-- What is read of a block. -/
inductive Piece where
  /-- The code returns `false`. -/
  | malformed
  | string (text : Bytes) (next : ℕ)
  deriving DecidableEq, Repr

/-- Reads a length and that many bytes, for the name and for the value of a field. -/
def takeString (data : Bytes) (len pos : ℕ) : Except Fault Piece := do
  let vr ← decodeVarint (data.drop pos) (len - pos)
  if vr.bytesRead = 0 then .ok .malformed
  else if len < (pos + vr.bytesRead + vr.value.toNat) % 2 ^ 64 then .ok .malformed
  else do
    let text ← slice data (pos + vr.bytesRead) vr.value.toNat
    return .string text (pos + vr.bytesRead + vr.value.toNat)

/-- Where a field goes. -/
def route (head : LiteralHead) (name value : Bytes) : Except Fault LiteralHead :=
  if name = ascii ":method" then .ok { head with method := value }
  else if name = ascii ":path" then .ok { head with path := value }
  else if name = ascii ":authority" then
    .ok { head with headers := head.headers.add (ascii "host") value }
  else if name = ascii "content-length" then do
    let length ← stoull value
    return { head with contentLength := some length }
  else if H3Codec.isPseudo name then .ok head
  else .ok { head with headers := head.headers.add name value }

/-- The loop of `parse_request_headers`, for at most so many rounds. -/
def parseFrom (data : Bytes) (len : ℕ) : ℕ → ℕ → LiteralHead → Except Fault (Bool × LiteralHead)
  | 0, _, _ => .error .diverges
  | fuel + 1, pos, head =>
    if len ≤ pos then .ok (true, head)
    else do
      match ← takeString data len pos with
      | .malformed => return (false, head)
      | .string name pos =>
        match ← takeString data len pos with
        | .malformed => return (false, head)
        | .string value pos =>
          let head ← route head name value
          parseFrom data len fuel pos head

/-- `parse_request_headers`; every round but the last takes two bytes or more. -/
def parseRequestHeaders (data : Bytes) (head : LiteralHead) : Except Fault (Bool × LiteralHead) :=
  parseFrom data data.length (data.length + 1) 0 head

/-! ## One string -/

theorem decodeVarint_drop (before rest : Bytes) :
    decodeVarint ((before ++ rest).drop before.length)
        ((before ++ rest).length - before.length) = decodeVarint rest rest.length := by
  rw [List.drop_left, List.length_append, Nat.add_sub_cancel_left]

/-- A string at the read position is taken. -/
theorem takeString_of_lengthed {before coded text behind : Bytes} (isString : Lengthed coded text)
    (fits : (before ++ (coded ++ behind)).length < 2 ^ 63) :
    takeString (before ++ (coded ++ behind)) (before ++ (coded ++ behind)).length before.length =
      .ok (.string text (before.length + coded.length)) := by
  rcases isString with ⟨count, isCount, rfl⟩
  rcases decodeVarint_of_varint isCount (text ++ behind) with ⟨number, same, decoded⟩
  have nonempty : count.length ≠ 0 := by simpa using isCount.ne_nil
  have inside : before.length + count.length + text.length ≤
      (before ++ (count ++ text ++ behind)).length := by
    simp only [List.length_append]
    omega
  have exact : (before.length + count.length + text.length) % 2 ^ 64 =
      before.length + count.length + text.length := Nat.mod_eq_of_lt (by omega)
  have sliced : slice (before ++ (count ++ text ++ behind)) (before.length + count.length)
      text.length = .ok text := by
    have dropped : (before ++ (count ++ text ++ behind)).drop (before.length + count.length) =
        text ++ behind := by
      rw [List.append_assoc, ← List.append_assoc before, ← List.length_append, List.drop_left]
    rw [slice, if_pos inside, dropped, List.take_left]
  unfold takeString
  rw [decodeVarint_drop, List.append_assoc, decoded]
  simp only [Fault.ok_bind, if_neg nonempty, same]
  rw [← List.append_assoc count, exact, if_neg (not_lt.mpr inside), sliced]
  simp only [Fault.ok_bind, List.length_append, ← Nat.add_assoc]
  rfl

/-- Where no string is, the code returns `false`; it never reads behind the buffer. -/
theorem takeString_cases {before rest : Bytes} (fits : (before ++ rest).length < 2 ^ 63) :
    (∃ coded text behind, Lengthed coded text ∧ rest = coded ++ behind) ∨
      takeString (before ++ rest) (before ++ rest).length before.length = .ok .malformed := by
  rcases decodeVarint_cases rest with ⟨result, decoded, positive, inside, isCount⟩ | ⟨decoded, -⟩
  · by_cases enough : result.bytesRead + result.value.toNat ≤ rest.length
    · left
      refine ⟨rest.take (result.bytesRead + result.value.toNat),
        (rest.drop result.bytesRead).take result.value.toNat,
        rest.drop (result.bytesRead + result.value.toNat), ⟨_, ?_, List.take_add⟩,
        (List.take_append_drop _ _).symm⟩
      have taken : ((rest.drop result.bytesRead).take result.value.toNat).length =
          result.value.toNat := by
        rw [List.length_take, List.length_drop]
        omega
      rw [taken]
      exact isCount
    · right
      have small := isCount.value_lt
      have size : (before ++ rest).length = before.length + rest.length := List.length_append
      -- the announced length is too small for the sum to wrap around
      have exact : (before.length + result.bytesRead + result.value.toNat) % 2 ^ 64 =
          before.length + result.bytesRead + result.value.toNat := Nat.mod_eq_of_lt (by omega)
      unfold takeString
      rw [decodeVarint_drop, decoded]
      simp only [Fault.ok_bind, exact]
      rw [if_neg (by omega), if_pos (by omega)]
  · right
    unfold takeString
    rw [decodeVarint_drop, decoded]
    rfl

/-! ## The loop -/

/-- What the loop does with the fields it has read. -/
def routeAll (head : LiteralHead) (fields : HeaderList) : Except Fault LiteralHead :=
  fields.foldlM (fun head field => route head field.1 field.2) head

@[simp]
theorem routeAll_nil (head : LiteralHead) : routeAll head [] = .ok head := rfl

theorem routeAll_cons (head : LiteralHead) (name value : Bytes) (fields : HeaderList) :
    routeAll head ((name, value) :: fields) =
      route head name value >>= fun head => routeAll head fields := rfl

theorem Lengthed.ne_nil {coded text : Bytes} (isString : Lengthed coded text) : coded ≠ [] := by
  rcases isString with ⟨count, isCount, rfl⟩
  simp [isCount.ne_nil]

theorem parseFrom_end (data : Bytes) (fuel : ℕ) (head : LiteralHead) :
    parseFrom data data.length (fuel + 1) data.length head = .ok (true, head) := by
  simp [parseFrom]

/-- One round of the loop. -/
theorem parseFrom_field {before name value codedName codedValue behind : Bytes}
    (isName : Lengthed codedName name) (isValue : Lengthed codedValue value) {data : Bytes}
    (split : data = before ++ (codedName ++ (codedValue ++ behind)))
    (fits : data.length < 2 ^ 63) (fuel : ℕ) (head : LiteralHead) :
    parseFrom data data.length (fuel + 1) before.length head =
      route head name value >>= fun head =>
        parseFrom data data.length fuel (before ++ (codedName ++ codedValue)).length head := by
  have nameRead : takeString data data.length before.length =
      .ok (.string name (before ++ codedName).length) := by
    subst split
    rw [takeString_of_lengthed isName fits, List.length_append]
  have valueRead : takeString data data.length (before ++ codedName).length =
      .ok (.string value (before ++ (codedName ++ codedValue)).length) := by
    rw [← List.append_assoc] at split
    subst split
    rw [takeString_of_lengthed isValue fits]
    simp only [List.length_append, Nat.add_assoc]
  have started : ¬data.length ≤ before.length := by
    have nonempty := List.length_pos_iff.mpr isName.ne_nil
    rw [split]
    simp only [List.length_append]
    omega
  rw [parseFrom, if_neg started, nameRead]
  simp only [Fault.ok_bind, valueRead]

variable {fields : HeaderList}

/-- The loop goes through the fields at the read position, one after the other. -/
theorem parseFrom_coded {bytes : Bytes} (coded : Coded fields bytes) {data before behind : Bytes}
    (split : data = before ++ (bytes ++ behind)) (fits : data.length < 2 ^ 63) (fuel : ℕ)
    (head : LiteralHead) :
    parseFrom data data.length (fields.length + fuel) before.length head =
      routeAll head fields >>= fun head =>
        parseFrom data data.length fuel (before ++ bytes).length head := by
  induction coded generalizing before head with
  | nil => simp
  | @cons name value codedName codedValue rest fields isName isValue coded ih =>
    have here : data = before ++ (codedName ++ (codedValue ++ (rest ++ behind))) := by
      simpa using split
    have there : data = before ++ (codedName ++ codedValue) ++ (rest ++ behind) := by
      simpa using split
    have count : ((name, value) :: fields).length + fuel = fields.length + fuel + 1 := by
      rw [List.length_cons]
      omega
    have place : before ++ (codedName ++ codedValue) ++ rest =
        before ++ (codedName ++ (codedValue ++ rest)) := by simp
    rw [count, parseFrom_field isName isValue here fits, routeAll_cons, bind_assoc]
    congr 1
    funext head
    rw [ih there head, place]

/-- Where no field is, the loop ends. -/
theorem parseFrom_of_no_field {data before rest : Bytes} (split : data = before ++ rest)
    (fits : data.length < 2 ^ 63) (more : rest ≠ []) :
    (∃ codedName name codedValue value behind, Lengthed codedName name ∧
      Lengthed codedValue value ∧ rest = codedName ++ (codedValue ++ behind)) ∨
    ∀ fuel head,
      parseFrom data data.length (fuel + 1) before.length head = .ok (false, head) := by
  have started : ¬data.length ≤ before.length := by
    have nonempty := List.length_pos_iff.mpr more
    rw [split, List.length_append]
    omega
  rcases takeString_cases (split ▸ fits) with ⟨codedName, name, rest', isName, rfl⟩ | noName
  · have nameRead : takeString data data.length before.length =
        .ok (.string name (before ++ codedName).length) := by
      subst split
      rw [takeString_of_lengthed isName fits, List.length_append]
    rw [← List.append_assoc] at split
    rcases takeString_cases (split ▸ fits) with ⟨codedValue, value, behind, isValue, rfl⟩ | noValue
    · exact .inl ⟨codedName, name, codedValue, value, behind, isName, isValue, rfl⟩
    · right
      intro fuel head
      rw [← split] at noValue
      rw [parseFrom, if_neg started, nameRead]
      simp only [Fault.ok_bind, noValue]
      rfl
  · right
    intro fuel head
    rw [← split] at noName
    rw [parseFrom, if_neg started, noName]
    rfl

/-- The loop ends: behind some fields the buffer ends as well, or there is no further field. -/
theorem parseFrom_cases {data before rest : Bytes} (split : data = before ++ rest)
    (fits : data.length < 2 ^ 63) {fuel : ℕ} (enough : rest.length < fuel) :
    ∃ fields bytes behind, Coded fields bytes ∧ rest = bytes ++ behind ∧
      ∀ head, parseFrom data data.length fuel before.length head =
        routeAll head fields >>= fun head => .ok (decide (behind = []), head) := by
  induction fuel generalizing before rest with
  | zero => omega
  | succ fuel ih =>
    by_cases ended : rest = []
    · refine ⟨[], [], [], .nil, ended, ?_⟩
      intro head
      rw [ended, List.append_nil] at split
      rw [← split, parseFrom_end]
      rfl
    rcases parseFrom_of_no_field split fits ended with
      ⟨codedName, name, codedValue, value, behind, isName, isValue, rfl⟩ | noField
    · have nonempty := List.length_pos_iff.mpr isName.ne_nil
      have there : data = before ++ (codedName ++ codedValue) ++ behind := by
        simpa using split
      have left : behind.length < fuel := by
        simp only [List.length_append] at enough
        omega
      rcases ih there left with ⟨fields, bytes, behind', coded, rfl, parsed⟩
      refine ⟨(name, value) :: fields, _, behind', .cons isName isValue coded, ?_, ?_⟩
      · simp
      · intro head
        rw [parseFrom_field isName isValue split fits, routeAll_cons, bind_assoc]
        congr 1
        funext head
        exact parsed head
    · refine ⟨[], [], rest, .nil, rfl, ?_⟩
      intro head
      rw [noField fuel head]
      simp [ended]

/-! ## One reading of a buffer -/

theorem Lengthed.cancel {coded coded' text text' rest rest' : Bytes}
    (isString : Lengthed coded text) (isString' : Lengthed coded' text')
    (same : coded ++ rest = coded' ++ rest') : text = text' ∧ rest = rest' := by
  rcases isString with ⟨count, isCount, rfl⟩
  rcases isString' with ⟨count', isCount', rfl⟩
  rw [List.append_assoc, List.append_assoc] at same
  have starts : count <+: count ++ (text ++ rest) := List.prefix_append _ _
  have starts' : count' <+: count ++ (text ++ rest) := same ▸ List.prefix_append _ _
  have sameCount : count = count' := by
    rcases List.prefix_or_prefix_of_prefix starts starts' with shorter | longer
    · exact isCount.eq_of_prefix isCount' shorter
    · exact (isCount'.eq_of_prefix isCount longer).symm
  subst sameCount
  exact List.append_inj (List.append_cancel_left same) (isCount.value_unique isCount')

/-- Every field takes some bytes. -/
theorem Coded.length_le {bytes : Bytes} (coded : Coded fields bytes) :
    fields.length ≤ bytes.length := by
  induction coded with
  | nil => rfl
  | cons isName isValue coded ih =>
    have nonempty := List.length_pos_iff.mpr isName.ne_nil
    simp only [List.length_cons, List.length_append]
    omega

/-- A buffer is the coding of one list at most. -/
theorem Coded.unique {fields fields' : HeaderList} {bytes : Bytes} (coded : Coded fields bytes)
    (coded' : Coded fields' bytes) : fields = fields' := by
  induction coded generalizing fields' with
  | nil =>
    generalize none : ([] : Bytes) = empty at coded'
    cases coded' with
    | nil => rfl
    | cons isName isValue coded => simp [isName.ne_nil] at none
  | @cons name value codedName codedValue rest fields isName isValue coded ih =>
    generalize whole : codedName ++ (codedValue ++ rest) = bytes at coded'
    cases coded' with
    | nil => simp [isName.ne_nil] at whole
    | cons isName' isValue' coded' =>
      rcases isName.cancel isName' whole with ⟨rfl, sameRest⟩
      rcases isValue.cancel isValue' sameRest with ⟨rfl, rfl⟩
      rw [ih coded']

/-! ## Where the fields go -/

/-- The value is a decimal number that fits 64 bits. -/
def IsLength (value : Bytes) : Prop :=
  ∃ length < 2 ^ 64, Rfc9112.number? value = some length

/--
What `stoull` converts: white space and a sign may come before the digits, and anything
behind them.
-/
def Convertible (value : Bytes) : Prop :=
  (numeral 10 value).2 ≠ [] ∧ ofDigits 10 (numeral 10 value).2 < 2 ^ 64

theorem stoull_eq_ok_iff (value : Bytes) : (∃ length, stoull value = .ok length) ↔
    Convertible value := by
  have bound : ulongMax = 2 ^ 64 - 1 := rfl
  unfold stoull Convertible
  by_cases none : (numeral 10 value).2 = []
  · simp [none]
  by_cases large : ulongMax < ofDigits 10 (numeral 10 value).2
  · simp only [none, large, if_true, if_false, reduceCtorEq, exists_false, false_iff, not_and]
    omega
  · simp only [none, large, if_false, ne_eq, not_false_eq_true, true_and]
    constructor
    · intro _
      omega
    · intro _
      exact ⟨_, rfl⟩

theorem stoull_of_number? {value : Bytes} {length : ℕ} (small : length < 2 ^ 64)
    (number : Rfc9112.number? value = some length) : stoull value = .ok length := by
  rcases Rfc9112.number?_eq_some number with ⟨nonempty, digits, same⟩
  have bound : ulongMax = 2 ^ 64 - 1 := rfl
  have isNumeral : numeral 10 value = (false, leadingDigits 10 value) := by
    simpa using (numeral_bare nonempty digits).numeral_eq
  have fits : ¬ulongMax < length := by omega
  simp [stoull, isNumeral, leadingDigits_ne_nil nonempty digits, same, fits]

/-- Only a `content-length` can keep the loop from going on. -/
theorem route_eq_ok_iff (head : LiteralHead) (name value : Bytes) :
    (∃ next, route head name value = .ok next) ↔
      (name = ascii "content-length" → Convertible value) := by
  unfold route
  split_ifs with isMethod isPath isAuthority isLength isPseudo
  · simp [isMethod, show ascii ":method" ≠ ascii "content-length" by decide]
  · simp [isPath, show ascii ":path" ≠ ascii "content-length" by decide]
  · simp [isAuthority, show ascii ":authority" ≠ ascii "content-length" by decide]
  · rw [← stoull_eq_ok_iff]
    rcases converted : stoull value with fault | length
    · simp [isLength]
    · simp [isLength, pure, Except.pure]
  · simp [isLength]
  · simp [isLength]

theorem routeAll_eq_ok_iff (head : LiteralHead) (fields : HeaderList) :
    (∃ last, routeAll head fields = .ok last) ↔
      ∀ field ∈ fields, field.1 = ascii "content-length" → Convertible field.2 := by
  induction fields generalizing head with
  | nil => simp
  | cons field fields ih =>
    rcases field with ⟨name, value⟩
    rw [routeAll_cons, List.forall_mem_cons, ← route_eq_ok_iff head name value]
    rcases routed : route head name value with fault | next
    · simp
    · simp [ih next]

/-- What a field leaves in the header map. -/
def kept (field : Bytes × Bytes) : Option (Bytes × Bytes) :=
  if field.1 = ascii ":authority" then some (ascii "host", field.2)
  else if H3Codec.isPseudo field.1 || field.1 = ascii "content-length" then none
  else some field

/-- The head that a list of fields is to leave. -/
def LiteralHead.after (head : LiteralHead) (fields : HeaderList) : LiteralHead where
  method := (lastValue (ascii ":method") fields).getD head.method
  path := (lastValue (ascii ":path") fields).getD head.path
  headers := ⟨head.headers.entries ++ fields.filterMap kept⟩
  contentLength :=
    (lastValue (ascii "content-length") fields).elim head.contentLength Rfc9112.number?

theorem LiteralHead.after_nil (head : LiteralHead) : head.after [] = head := by
  simp [LiteralHead.after, lastValue]

theorem LiteralHead.after_cons (head : LiteralHead) (field : Bytes × Bytes)
    (fields : HeaderList) : head.after (field :: fields) = (head.after [field]).after fields := by
  have none (name : Bytes) : lastValue name [] = none := rfl
  simp only [LiteralHead.after, lastValue_cons, none, LiteralHead.mk.injEq,
    List.append_assoc, HeaderMap.mk.injEq, List.append_cancel_left_eq]
  refine ⟨?_, ?_, ?_, ?_⟩
  · cases lastValue (ascii ":method") fields <;> rfl
  · cases lastValue (ascii ":path") fields <;> rfl
  · rw [← List.filterMap_append]
    rfl
  · cases lastValue (ascii "content-length") fields <;> rfl

theorem LiteralHead.after_singleton (head : LiteralHead) (name value : Bytes) :
    head.after [(name, value)] =
      { method := if name = ascii ":method" then value else head.method
        path := if name = ascii ":path" then value else head.path
        headers := ⟨head.headers.entries ++ (kept (name, value)).toList⟩
        contentLength :=
          if name = ascii "content-length" then Rfc9112.number? value
          else head.contentLength } := by
  have none (name : Bytes) : lastValue name [] = none := rfl
  simp only [LiteralHead.after, lastValue_cons, none, LiteralHead.mk.injEq,
    HeaderMap.mk.injEq, List.append_cancel_left_eq]
  refine ⟨?_, ?_, ?_, ?_⟩
  · split_ifs <;> rfl
  · split_ifs <;> rfl
  · cases isKept : kept (name, value) <;> simp [isKept]
  · split_ifs <;> rfl

theorem route_of_isLength {name value : Bytes}
    (isLength : name = ascii "content-length" → IsLength value) (head : LiteralHead) :
    route head name value = .ok (head.after [(name, value)]) := by
  rw [LiteralHead.after_singleton]
  by_cases isMethod : name = ascii ":method"
  · subst isMethod
    have others : ascii ":method" ≠ ascii ":path" ∧ ascii ":method" ≠ ascii ":authority" ∧
        ascii ":method" ≠ ascii "content-length" ∧
        H3Codec.isPseudo (ascii ":method") = true := by decide
    simp [route, kept, others]
  by_cases isPath : name = ascii ":path"
  · subst isPath
    have others : ascii ":path" ≠ ascii ":authority" ∧ ascii ":path" ≠ ascii "content-length" ∧
        H3Codec.isPseudo (ascii ":path") = true := by decide
    simp [route, kept, isMethod, others]
  by_cases isAuthority : name = ascii ":authority"
  · subst isAuthority
    have others : ascii ":authority" ≠ ascii "content-length" := by decide
    simp [route, kept, isMethod, isPath, others, HeaderMap.add]
  by_cases isName : name = ascii "content-length"
  · subst isName
    rcases isLength rfl with ⟨length, small, number⟩
    simp [route, kept, isMethod, isPath, isAuthority, stoull_of_number? small number, number,
      pure, Except.pure]
  by_cases isPseudo : H3Codec.isPseudo name = true
  · simp [route, kept, isMethod, isPath, isAuthority, isName, isPseudo]
  · simp [route, kept, isMethod, isPath, isAuthority, isName, isPseudo, HeaderMap.add]

theorem routeAll_of_isLength
    (lengths : ∀ field ∈ fields, field.1 = ascii "content-length" → IsLength field.2)
    (head : LiteralHead) : routeAll head fields = .ok (head.after fields) := by
  induction fields generalizing head with
  | nil => rw [LiteralHead.after_nil]; rfl
  | cons field fields ih =>
    rcases List.forall_mem_cons.mp lengths with ⟨first, later⟩
    rcases field with ⟨name, value⟩
    rw [routeAll_cons, route_of_isLength first, Fault.ok_bind, ih later,
      LiteralHead.after_cons head (name, value) fields]

/-! ## What is accepted -/

/-- Every `content-length` of the list is a decimal number that fits 64 bits. -/
def Lengths (fields : HeaderList) : Prop :=
  ∀ field ∈ fields, field.1 = ascii "content-length" → IsLength field.2

/--
The parser returns, without a fault; it accepts the codings of lists with proper lengths
and no other buffer, and leaves what the list is to leave.
-/
def ParsedExactly (buffer : Buffer) (head : LiteralHead) : Prop :=
  ∃ accepted last, parseRequestHeaders buffer.bytes head = .ok (accepted, last) ∧
    (accepted = true ↔ ∃ fields, Coded fields buffer.bytes ∧ Lengths fields) ∧
    ∀ fields, Coded fields buffer.bytes → Lengths fields → last = head.after fields

theorem parseRequestHeaders_append {bytes behind data : Bytes} (coded : Coded fields bytes)
    (split : data = bytes ++ behind) (fits : data.length < 2 ^ 63) (head : LiteralHead) :
    ∃ fuel, parseRequestHeaders data head =
      routeAll head fields >>= fun head =>
        parseFrom data data.length (fuel + 1) bytes.length head := by
  have rounds : fields.length ≤ data.length := by
    rw [split, List.length_append]
    exact coded.length_le.trans (Nat.le_add_right _ _)
  refine ⟨data.length - fields.length, ?_⟩
  have count : data.length + 1 = fields.length + (data.length - fields.length + 1) := by omega
  rw [parseRequestHeaders, count]
  have followed := parseFrom_coded coded (show data = [] ++ (bytes ++ behind) from split) fits
    (data.length - fields.length + 1) head
  simpa using followed

/-- The coding of a list is accepted unless a length throws. -/
theorem parseRequestHeaders_coded {data : Bytes} (coded : Coded fields data)
    (fits : data.length < 2 ^ 63) (head : LiteralHead) :
    parseRequestHeaders data head =
      routeAll head fields >>= fun head => .ok (true, head) := by
  have whole : data = data ++ [] := by simp
  rcases parseRequestHeaders_append coded whole fits head with ⟨fuel, parsed⟩
  simp only [parseFrom_end] at parsed
  exact parsed

theorem routeAll_of_parsed {data : Bytes} {head last : LiteralHead} {accepted : Bool}
    (coded : Coded fields data) (fits : data.length < 2 ^ 63)
    (parsed : parseRequestHeaders data head = .ok (accepted, last)) :
    accepted = true ∧ routeAll head fields = .ok last := by
  rw [parseRequestHeaders_coded coded fits] at parsed
  rcases routed : routeAll head fields with fault | next <;> rw [routed] at parsed
  · cases parsed
  · cases parsed
    exact ⟨rfl, rfl⟩

/--
The parser does what it is to do unless a `content-length` in a complete field makes
`stoull` throw, or `stoull` lets one pass that is not a decimal number.
-/
theorem parsedExactly_iff (buffer : Buffer) (head : LiteralHead) :
    ParsedExactly buffer head ↔
      (∀ fields bytes, Coded fields bytes → bytes <+: buffer.bytes →
        ∀ field ∈ fields, field.1 = ascii "content-length" → Convertible field.2) ∧
      ∀ fields, Coded fields buffer.bytes → Lengths fields := by
  rcases buffer with ⟨data, fits⟩
  constructor
  · rintro ⟨accepted, last, parsed, exactly, -⟩
    refine ⟨?_, ?_⟩
    · rintro fields bytes coded ⟨behind, split⟩
      rw [← routeAll_eq_ok_iff head]
      rcases parseRequestHeaders_append coded split.symm fits head with ⟨fuel, followed⟩
      rw [parsed] at followed
      rcases routed : routeAll head fields with fault | next
      · rw [routed] at followed
        cases followed
      · exact ⟨next, rfl⟩
    · intro fields coded
      rcases routeAll_of_parsed coded fits parsed with ⟨rfl, -⟩
      rcases exactly.mp rfl with ⟨fields', coded', lengths⟩
      rw [coded.unique coded']
      exact lengths
  · rintro ⟨convertible, lengths⟩
    rcases parseFrom_cases (show data = [] ++ data from rfl) fits (Nat.lt_succ_self _) with
      ⟨fields, bytes, behind, coded, split, parsed⟩
    have routes := convertible fields bytes coded ⟨behind, split.symm⟩
    rcases (routeAll_eq_ok_iff head fields).mpr routes with ⟨last, routed⟩
    have returned : parseRequestHeaders data head = .ok (decide (behind = []), last) := by
      have whole := parsed head
      rw [routed] at whole
      exact whole
    refine ⟨_, last, returned, ?_, ?_⟩
    · constructor
      · intro ended
        have whole : bytes = data := by
          rw [split, of_decide_eq_true ended, List.append_nil]
        exact ⟨fields, whole ▸ coded, lengths fields (whole ▸ coded)⟩
      · rintro ⟨fields', coded', -⟩
        exact (routeAll_of_parsed coded' fits returned).1
    · intro fields' coded' proper
      have same := (routeAll_of_parsed coded' fits returned).2
      rw [routeAll_of_isLength proper head] at same
      exact (Except.ok.inj same).symm

/-- A list is coded by what `encode_varint` writes for its lengths. -/
theorem coded_encodeFields
    (short : ∀ field ∈ fields, field.1.length < 2 ^ 62 ∧ field.2.length < 2 ^ 62) :
    Coded fields (encodeFields fields) := by
  have string : ∀ text : Bytes, text.length < 2 ^ 62 → Lengthed (encodeString text) text := by
    intro text small
    have exact : (UInt64.ofNat text.length).toNat = text.length := by
      rw [UInt64.toNat_ofNat']
      omega
    have written : Rfc9000.Varint (encodeVarint (UInt64.ofNat text.length))
        (UInt64.ofNat text.length).toNat := varint_encodeVarint (by omega)
    rw [exact] at written
    exact ⟨_, written, rfl⟩
  induction fields with
  | nil => exact .nil
  | cons field fields ih =>
    rcases List.forall_mem_cons.mp short with ⟨first, later⟩
    have coded := Coded.cons (string _ first.1) (string _ first.2) (ih later)
    simpa [encodeFields] using coded

/-- A length that is no number. -/
def wordAsLength : Buffer where
  bytes := encodeFields [(ascii "content-length", ascii "abc")]
  fits := by decide

/-- A length that is negative. -/
def minusOneAsLength : Buffer where
  bytes := encodeFields [(ascii "content-length", ascii "-1")]
  fits := by decide

theorem not_parsedExactly :
    parseRequestHeaders wordAsLength.bytes {} = .error (.throws .invalidArgument) ∧
      ¬ParsedExactly wordAsLength {} ∧
      parseRequestHeaders minusOneAsLength.bytes {} =
        .ok (true, { contentLength := some (2 ^ 64 - 1) }) ∧
      ¬ParsedExactly minusOneAsLength {} := by
  have throws : parseRequestHeaders wordAsLength.bytes {} = .error (.throws .invalidArgument) := by
    decide +kernel
  have wraps : parseRequestHeaders minusOneAsLength.bytes {} =
      .ok (true, { contentLength := some (2 ^ 64 - 1) }) := by
    decide +kernel
  refine ⟨throws, ?_, wraps, ?_⟩
  · rintro ⟨accepted, last, parsed, -⟩
    rw [throws] at parsed
    cases parsed
  · rintro ⟨accepted, last, parsed, exactly, -⟩
    have listed : Coded [(ascii "content-length", ascii "-1")] minusOneAsLength.bytes := by
      apply coded_encodeFields
      decide
    rw [wraps] at parsed
    cases parsed
    rcases exactly.mp rfl with ⟨fields, coded, lengths⟩
    rw [← listed.unique coded] at lengths
    rcases lengths _ (List.mem_singleton.mpr rfl) rfl with ⟨length, -, number⟩
    have none : Rfc9112.number? (ascii "-1") = none := by decide
    rw [none] at number
    cases number

end H3Detail

end ReverseProxy
