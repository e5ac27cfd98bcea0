import ReverseProxy.Codec.H3.Message
import ReverseProxy.Machine.Run

/-!
# Header sets filled by lsquic

lsquic decodes the fields of a message one at a time through the `hsi_*` functions of
`transport/quic_transport.cpp`.  For each field it asks for room in the buffer of the
header set, writes the field there and has it processed.  All fields of a message share
the 64 KB of one buffer, which is never grown and in which no room is used twice.

The functions of lsxpack are a parameter, and lsquic is whatever makes the calls.  What is
assumed of both is `Documented`: a field is written into the room that it was given, and the
header then says where in it the name and the value are and how much of it is used.
-/

namespace ReverseProxy

open Machine Text

/-- What the `hsi_*` functions use of lsxpack, over the type `χ` of `lsxpack_header`. -/
structure Lsxpack (χ : Type) where
  /-- `lsxpack_header_prepare_decode`, with an offset into the buffer and the room behind it. -/
  prepareDecode : (offset room : ℕ) → χ
  /-- The offset that `lsxpack_header_get_name` points to; there is none for a null pointer. -/
  getName : χ → Option ℕ
  getValue : χ → Option ℕ
  nameLen : χ → ℕ
  valLen : χ → ℕ
  /-- `lsxpack_header_get_dec_size`. -/
  getDecSize : χ → ℕ

/-- The size of `decode_buf`. -/
def decodeSize : ℕ := 64 * 1024

/-- `QuicH3HeaderSet`, with the bytes of `decode_buf` by their offsets. -/
structure QuicH3HeaderSet (χ : Type) where
  decodeBuf : ℕ → UInt8 := fun _ => 0
  headers : HeaderList := []
  xhdr : χ
  decodeOff : ℕ := 0
  haveXhdr : Bool := false

namespace Lsxpack

variable {χ : Type} (lsxpack : Lsxpack χ)

/-- The bytes from an offset on. -/
def slice (buf : ℕ → UInt8) (offset count : ℕ) : Bytes :=
  (List.range count).map fun i => buf (offset + i)

/-- The field that a header describes, unless one of its pointers is null. -/
def field (buf : ℕ → UInt8) (hdr : χ) : Option (Bytes × Bytes) :=
  match lsxpack.getName hdr, lsxpack.getValue hdr with
  | some name, some value =>
    some (slice buf name (lsxpack.nameLen hdr), slice buf value (lsxpack.valLen hdr))
  | _, _ => none

/-- The field of the header ends before this offset. -/
def Below (hdr : χ) (bound : ℕ) : Prop :=
  (∀ offset ∈ lsxpack.getName hdr, offset + lsxpack.nameLen hdr ≤ bound) ∧
    ∀ offset ∈ lsxpack.getValue hdr, offset + lsxpack.valLen hdr ≤ bound

instance (hdr : χ) (bound : ℕ) : Decidable (lsxpack.Below hdr bound) :=
  inferInstanceAs (Decidable (_ ∧ _))

variable {lsxpack}

theorem Below.mono {hdr : χ} {bound bound' : ℕ} (below : lsxpack.Below hdr bound)
    (less : bound ≤ bound') : lsxpack.Below hdr bound' := by
  refine ⟨?_, ?_⟩
  · intro offset isName
    exact (below.1 offset isName).trans less
  · intro offset isValue
    exact (below.2 offset isValue).trans less

theorem slice_congr {buf buf' : ℕ → UInt8} {bound offset count : ℕ}
    (same : ∀ address < bound, buf' address = buf address) (within : offset + count ≤ bound) :
    slice buf' offset count = slice buf offset count := by
  apply List.map_congr_left
  intro i isBelow
  rw [List.mem_range] at isBelow
  exact same _ (by omega)

/-- Only the bytes below its end matter for a field. -/
theorem field_congr {buf buf' : ℕ → UInt8} {bound : ℕ} {hdr : χ}
    (below : lsxpack.Below hdr bound) (same : ∀ address < bound, buf' address = buf address) :
    lsxpack.field buf' hdr = lsxpack.field buf hdr := by
  unfold field
  split
  · rename_i name value isName isValue
    rw [slice_congr same (below.1 name isName), slice_congr same (below.2 value isValue)]
  · rfl

end Lsxpack

namespace QuicH3HeaderSet

variable {χ : Type} (lsxpack : Lsxpack χ)

/-- The header that lsquic is to decode into; `hdr` is the one that has turned out too small. -/
def hsiPrepareDecode (hs : QuicH3HeaderSet χ) (hdr : Option χ) (space : ℕ) :
    QuicH3HeaderSet χ × Option χ :=
  match hdr with
  | some _ => (hs, none)
  | none =>
    let hs :=
      if hs.haveXhdr then { hs with decodeOff := hs.decodeOff + lsxpack.getDecSize hs.xhdr }
      else { hs with haveXhdr := true }
    if decodeSize < hs.decodeOff + space then (hs, none)
    else
      let xhdr := lsxpack.prepareDecode hs.decodeOff (decodeSize - hs.decodeOff)
      ({ hs with xhdr }, some xhdr)

/-- `hdr` is null at the end of the header set. -/
def hsiProcess (hs : QuicH3HeaderSet χ) (hdr : Option χ) : QuicH3HeaderSet χ × ℤ :=
  match hdr with
  | none => (hs, 0)
  | some hdr =>
    match lsxpack.field hs.decodeBuf hdr with
    | none => (hs, -1)
    | some field => ({ hs with headers := hs.headers ++ [field] }, 0)

/-- Where lsquic is with a message. -/
inductive Phase where
  | idle
  /-- It has been given room from this offset on. -/
  | granted (offset : ℕ)
  /-- It has written a field. -/
  | written
  /-- The message is complete, or has been given up. -/
  | ended
  deriving DecidableEq, Repr

/-- Where the room begins that a field is to be decoded into. -/
def Phase.room : Phase → Option ℕ
  | .granted offset => some offset
  | .idle | .written | .ended => none

/-- A header set that lsquic decodes a message into. -/
structure Decoding (χ : Type) where
  set : QuicH3HeaderSet χ
  phase : Phase := .idle

/-- What lsquic does. -/
inductive Call (χ : Type) where
  | prepareDecode (space : ℕ)
  /-- It asks for more room than it has been given. -/
  | grow (space : ℕ)
  /-- A field is decoded into the buffer and the header. -/
  | decode (buf : ℕ → UInt8) (xhdr : χ)
  | process
  | complete

/-- A field that has been decoded: where its room began, its header, and what it was. -/
structure Decoded (χ : Type) where
  offset : ℕ
  xhdr : χ
  field : Option (Bytes × Bytes)

/-- One call of lsquic. -/
def step : Step (Decoding χ) (Call χ) (Decoded χ)
  | ⟨hs, .idle⟩, .prepareDecode space =>
    match hs.hsiPrepareDecode lsxpack none space with
    | (hs, some _) => some (⟨hs, .granted hs.decodeOff⟩, [])
    | (hs, none) => some (⟨hs, .ended⟩, [])
  | ⟨hs, .granted _⟩, .grow space =>
    some (⟨(hs.hsiPrepareDecode lsxpack (some hs.xhdr) space).1, .ended⟩, [])
  | ⟨hs, .granted offset⟩, .decode buf xhdr =>
    some (⟨{ hs with decodeBuf := buf, xhdr }, .written⟩,
      [⟨offset, xhdr, lsxpack.field buf xhdr⟩])
  | ⟨hs, .written⟩, .process =>
    let result := hs.hsiProcess lsxpack (some hs.xhdr)
    some (⟨result.1, if result.2 = 0 then .idle else .ended⟩, [])
  | ⟨hs, .idle⟩, .complete => some (⟨(hs.hsiProcess lsxpack none).1, .ended⟩, [])
  | _, _ => none

/--
What lsquic and lsxpack promise: a field is decoded behind the offset that it was given, is
within the size that the header reports, and this within the room.
-/
def Documented (decoding : Decoding χ) : Call χ → Prop
  | .decode buf xhdr =>
    ∀ offset ∈ decoding.phase.room,
      (∀ address < offset, buf address = decoding.set.decodeBuf address) ∧
        lsxpack.Below xhdr (offset + lsxpack.getDecSize xhdr) ∧
        offset + lsxpack.getDecSize xhdr ≤ decodeSize
  | .prepareDecode _ | .grow _ | .process | .complete => True

instance (decoding : Decoding χ) : ∀ call, Decidable (Documented lsxpack decoding call)
  | .decode buf xhdr =>
    inferInstanceAs (Decidable (∀ offset ∈ decoding.phase.room,
      (∀ address < offset, buf address = decoding.set.decodeBuf address) ∧
        lsxpack.Below xhdr (offset + lsxpack.getDecSize xhdr) ∧
        offset + lsxpack.getDecSize xhdr ≤ decodeSize))
  | .prepareDecode _ | .grow _ | .process | .complete => .isTrue trivial

/-- The bytes that the fields take up. -/
def used (fields : List (Decoded χ)) : ℕ :=
  fields.foldl (fun total decoded => total + lsxpack.getDecSize decoded.xhdr) 0

/-- The fields in the buffer: one behind the other, and as they were when they were decoded. -/
structure Packed (buf : ℕ → UInt8) (fields : List (Decoded χ)) : Prop where
  offsets : ∀ before decoded after, fields = before ++ decoded :: after →
    decoded.offset = used lsxpack before
  inside : used lsxpack fields ≤ decodeSize
  intact : ∀ decoded ∈ fields, lsxpack.field buf decoded.xhdr = decoded.field
  below : ∀ decoded ∈ fields, lsxpack.Below decoded.xhdr (used lsxpack fields)

/-- Where the next field goes. -/
def nextOff (hs : QuicH3HeaderSet χ) : ℕ :=
  if hs.haveXhdr then hs.decodeOff + lsxpack.getDecSize hs.xhdr else hs.decodeOff

/-- What the header set knows of the fields, by where lsquic is. -/
def Follows (fields : List (Decoded χ)) : Decoding χ → Prop
  | ⟨hs, .idle⟩ =>
    hs.nextOff lsxpack = used lsxpack fields ∧ hs.headers.map some = fields.map Decoded.field
  | ⟨hs, .granted offset⟩ =>
    (offset = used lsxpack fields ∧ hs.decodeOff = offset ∧ hs.haveXhdr = true) ∧
      hs.headers.map some = fields.map Decoded.field
  | ⟨hs, .written⟩ =>
    (hs.nextOff lsxpack = used lsxpack fields ∧ hs.haveXhdr = true) ∧
      hs.headers.map some ++ [lsxpack.field hs.decodeBuf hs.xhdr] = fields.map Decoded.field
  | ⟨hs, .ended⟩ => hs.headers.map some <+: fields.map Decoded.field

variable {lsxpack} {hs : QuicH3HeaderSet χ} {fields : List (Decoded χ)}

theorem used_concat (fields : List (Decoded χ)) (decoded : Decoded χ) :
    used lsxpack (fields ++ [decoded]) = used lsxpack fields + lsxpack.getDecSize decoded.xhdr := by
  simp [used]

/-- A field that is decoded behind the others leaves them as they are. -/
theorem Packed.decode {buf buf' : ℕ → UInt8} {xhdr : χ} (packed : Packed lsxpack buf fields)
    (same : ∀ address < used lsxpack fields, buf' address = buf address)
    (below : lsxpack.Below xhdr (used lsxpack fields + lsxpack.getDecSize xhdr))
    (room : used lsxpack fields + lsxpack.getDecSize xhdr ≤ decodeSize) :
    Packed lsxpack buf'
      (fields ++ [⟨used lsxpack fields, xhdr, lsxpack.field buf' xhdr⟩]) := by
  refine ⟨?_, ?_, ?_, ?_⟩
  · intro before decoded after split
    rcases List.append_eq_append_iff.mp split with ⟨more, isBefore, isLast⟩ | ⟨more, isFields, isLast⟩
    · cases more with
      | nil =>
        cases isLast
        rw [isBefore, List.append_nil]
      | cons first more => simp at isLast
    · cases more with
      | nil =>
        cases isLast
        rw [isFields, List.append_nil]
      | cons first more =>
        cases isLast
        exact packed.offsets before decoded more isFields
  · rw [used_concat]
    exact room
  · intro decoded isDecoded
    rcases List.mem_append.mp isDecoded with old | new
    · rw [Lsxpack.field_congr (packed.below decoded old) same]
      exact packed.intact decoded old
    · rw [List.mem_singleton.mp new]
  · intro decoded isDecoded
    rw [used_concat]
    rcases List.mem_append.mp isDecoded with old | new
    · exact (packed.below decoded old).mono (Nat.le_add_right _ _)
    · rw [List.mem_singleton.mp new]
      exact below

theorem hsiPrepareDecode_none (hs : QuicH3HeaderSet χ) (space : ℕ) :
    hs.hsiPrepareDecode lsxpack none space =
      if decodeSize < hs.nextOff lsxpack + space then
        ({ hs with decodeOff := hs.nextOff lsxpack, haveXhdr := true }, none)
      else
        ({ hs with
            xhdr := lsxpack.prepareDecode (hs.nextOff lsxpack) (decodeSize - hs.nextOff lsxpack)
            decodeOff := hs.nextOff lsxpack
            haveXhdr := true },
          some (lsxpack.prepareDecode (hs.nextOff lsxpack)
            (decodeSize - hs.nextOff lsxpack))) := by
  rcases hs with ⟨buf, headers, xhdr, decodeOff, haveXhdr⟩
  cases haveXhdr <;> rfl

/-- What the codec is given comes first among the fields. -/
theorem Follows.isPrefix {decoding : Decoding χ} (follows : Follows lsxpack fields decoding) :
    decoding.set.headers.map some <+: fields.map Decoded.field := by
  rcases decoding with ⟨hs, phase⟩
  cases phase with
  | idle => exact ⟨[], by rw [List.append_nil, follows.2]⟩
  | granted offset => exact ⟨[], by rw [List.append_nil, follows.2]⟩
  | written => exact ⟨_, follows.2⟩
  | ended => exact follows

/-- One call keeps the fields packed and the header set in step with them. -/
theorem Packed.step {decoding next : Decoding χ} {call : Call χ} {more : List (Decoded χ)}
    (packed : Packed lsxpack decoding.set.decodeBuf fields) (follows : Follows lsxpack fields decoding)
    (documented : Documented lsxpack decoding call)
    (taken : step lsxpack decoding call = some (next, more)) :
    Packed lsxpack next.set.decodeBuf (fields ++ more) ∧ Follows lsxpack (fields ++ more) next := by
  rcases decoding with ⟨hs, phase⟩
  cases phase with
  | idle =>
    cases call with
    | prepareDecode space =>
      rw [QuicH3HeaderSet.step, hsiPrepareDecode_none] at taken
      split_ifs at taken with large
      · cases taken
        rw [List.append_nil]
        exact ⟨packed, follows.isPrefix⟩
      · cases taken
        rw [List.append_nil]
        exact ⟨packed, ⟨follows.1, rfl, rfl⟩, follows.2⟩
    | complete =>
      cases taken
      rw [List.append_nil]
      exact ⟨packed, follows.isPrefix⟩
    | grow space => cases taken
    | decode buf xhdr => cases taken
    | process => cases taken
  | granted offset =>
    have ⟨⟨isOffset, isDecodeOff, haveXhdr⟩, kept⟩ := follows
    cases call with
    | grow space =>
      cases taken
      rw [List.append_nil]
      exact ⟨packed, follows.isPrefix⟩
    | decode buf xhdr =>
      cases taken
      rcases documented offset rfl with ⟨same, below, room⟩
      rw [isOffset] at same below room
      refine ⟨?_, ⟨?_, haveXhdr⟩, ?_⟩
      · rw [isOffset]
        exact packed.decode same below room
      · rw [used_concat, nextOff, if_pos haveXhdr, ← isOffset, ← isDecodeOff]
      · rw [List.map_append, ← kept]
        rfl
    | prepareDecode space => cases taken
    | process => cases taken
    | complete => cases taken
  | written =>
    have ⟨⟨isNext, haveXhdr⟩, kept⟩ := follows
    cases call with
    | process =>
      rw [QuicH3HeaderSet.step, hsiProcess] at taken
      cases isField : lsxpack.field hs.decodeBuf hs.xhdr with
      | none =>
        rw [isField] at taken
        cases taken
        rw [List.append_nil]
        exact ⟨packed, follows.isPrefix⟩
      | some field =>
        rw [isField] at taken kept
        cases taken
        rw [List.append_nil]
        refine ⟨packed, isNext, ?_⟩
        rw [List.map_append, ← kept]
        rfl
    | prepareDecode space => cases taken
    | grow space => cases taken
    | decode buf xhdr => cases taken
    | complete => cases taken
  | ended => cases call <;> cases taken

end QuicH3HeaderSet

end ReverseProxy
