import ZgChoir.HeartbeatRoundTrip

/-!
# Database updates on the wire

An update carries a payload in two forms: the message that the user knows, and
the deflated bytes that go over the wire.  Either is made from the other when
it is asked for, and kept.  A `Payload` has either form, both or none, and if
it has both they belong together: this is a field of the structure, so the
conversions have nothing left to prove.

The bytes of the payload enter the checksum of the update.  `parses_unflatten`
says what is accepted: updates without a cached message whose checksum is
right.
-/

namespace ZgChoir.UpdateWire

open ByteFormat HeartbeatWire

/-- How messages are flattened and deflated: the zlib codec, of which a
deflated buffer is never empty, and MUSCLE's messages, which survive their
flattening. -/
structure PayloadCodec (Msg : Type) extends ZLibCodec where
  flattenToByteBuffer : Msg → List UInt8
  getMessageFromPool : List UInt8 → Option Msg
  getMessageFromPool_flatten : ∀ msg,
    getMessageFromPool (flattenToByteBuffer msg) = some msg
  deflate_ne_nil : ∀ bytes, deflate bytes ≠ []

namespace PayloadCodec

variable {Msg : Type} (codec : PayloadCodec Msg)

/-- `DeflateByteBuffer`, of a flattened message. -/
def deflateMessage (msg : Msg) : List UInt8 :=
  codec.deflate (codec.flattenToByteBuffer msg)

/-- `GetMessageFromPool`, of an inflated buffer. -/
def inflateMessage (buf : List UInt8) : Option Msg :=
  (codec.inflate buf).bind codec.getMessageFromPool

theorem inflateMessage_deflateMessage (msg : Msg) :
    codec.inflateMessage (codec.deflateMessage msg) = some msg := by
  rw [inflateMessage, deflateMessage, codec.inflate_deflate, Option.bind_some,
    codec.getMessageFromPool_flatten]

end PayloadCodec

/-! ### The payload -/

/-- The two forms of a payload, as far as they are there. -/
structure Payload {Msg : Type} (codec : PayloadCodec Msg) where
  updateBuf : Option (List UInt8)
  updateMsg : Option Msg
  nonempty : updateBuf ≠ some []
  agree : ∀ {buf msg}, updateBuf = some buf → updateMsg = some msg →
    codec.inflateMessage buf = some msg

namespace Payload

variable {Msg : Type} {codec : PayloadCodec Msg} (payload : Payload codec)

/-- `SetPayloadMessage`. -/
def ofMessage (updateMsg : Option Msg) : Payload codec where
  updateBuf := none
  updateMsg
  nonempty := by simp
  agree := by simp

/-- The payload that is read off the wire: no bytes are no payload. -/
def ofBytes (bytes : List UInt8) : Payload codec where
  updateBuf := if bytes = [] then none else some bytes
  updateMsg := none
  nonempty := by
    split
    · simp
    · next hbytes => simpa using hbytes
  agree := by simp

/-- What `GetPayloadBuffer` returns. -/
def payloadBuffer : Option (List UInt8) :=
  match payload.updateBuf with
  | some buf => some buf
  | none => payload.updateMsg.map codec.deflateMessage

/-- What `GetPayloadBufferAsMessage` returns. -/
def payloadMessage : Option Msg :=
  match payload.updateMsg with
  | some msg => some msg
  | none => payload.updateBuf.bind codec.inflateMessage

theorem payloadBuffer_ne : payload.payloadBuffer ≠ some [] := by
  unfold payloadBuffer
  cases hbuf : payload.updateBuf with
  | some buf => exact fun hnil => payload.nonempty (hbuf.trans hnil)
  | none =>
      cases payload.updateMsg with
      | none => simp
      | some msg =>
          intro hnil
          exact codec.deflate_ne_nil _ (Option.some.inj hnil)

/-- Whatever is cached, the buffer holds the message. -/
theorem payloadMessage_eq :
    payload.payloadMessage = payload.payloadBuffer.bind codec.inflateMessage := by
  unfold payloadMessage payloadBuffer
  cases hmsg : payload.updateMsg with
  | none =>
      cases payload.updateBuf <;> rfl
  | some msg =>
      cases hbuf : payload.updateBuf with
      | some buf => exact (payload.agree hbuf hmsg).symm
      | none => exact (codec.inflateMessage_deflateMessage msg).symm

/-- The payload after `GetPayloadBuffer`. -/
def cacheBuffer : Payload codec where
  updateBuf := payload.payloadBuffer
  updateMsg := payload.updateMsg
  nonempty := payload.payloadBuffer_ne
  agree := by
    intro buf msg hbuf hmsg
    have hmessage : payload.payloadMessage = some msg := by
      rw [payloadMessage, hmsg]
    rw [payloadMessage_eq, hbuf] at hmessage
    exact hmessage

/-- The payload after `GetPayloadBufferAsMessage`. -/
def cacheMessage : Payload codec where
  updateBuf := payload.updateBuf
  updateMsg := payload.payloadMessage
  nonempty := payload.nonempty
  agree := by
    intro buf msg hbuf hmsg
    rwa [payloadMessage_eq, payloadBuffer, hbuf] at hmsg

/-- `UncachePayloadBufferAsMessage`. -/
def uncacheMessage : Payload codec where
  updateBuf := payload.updateBuf
  updateMsg := if payload.updateBuf.isSome then none else payload.updateMsg
  nonempty := payload.nonempty
  agree := by
    intro buf msg hbuf hmsg
    simp [hbuf] at hmsg

/-- The conversions change what is cached, not what the payload is. -/
theorem payloadBuffer_cache :
    payload.cacheBuffer.payloadBuffer = payload.payloadBuffer ∧
    payload.cacheMessage.payloadMessage = payload.payloadMessage ∧
    payload.uncacheMessage.payloadBuffer = payload.payloadBuffer := by
  obtain ⟨buf, msg, hnonempty, hagree⟩ := payload
  cases buf with
  | none =>
      cases msg with
      | none => exact ⟨rfl, rfl, rfl⟩
      | some msg => exact ⟨rfl, rfl, rfl⟩
  | some buf =>
      refine ⟨rfl, ?_, rfl⟩
      cases msg with
      | none =>
          simp only [cacheMessage, payloadMessage, Option.bind_some]
          cases codec.inflateMessage buf <;> rfl
      | some msg => rfl

theorem payloadBuffer_ofBytes (bytes : List UInt8) :
    (ofBytes bytes : Payload codec).payloadBuffer =
      if bytes = [] then none else some bytes := by
  by_cases hbytes : bytes = [] <;> simp [ofBytes, payloadBuffer, hbytes]

end Payload

/-! ### Updates -/

/-- The fields of `PZGDatabaseUpdate`, less its payload. -/
structure UpdateFields where
  updateType : UInt8
  databaseIndex : UInt16
  seniorElapsedTimeMillis : UInt16
  seniorStartTimeMicros : UInt64
  sourcePeerID : ZGPeerID
  updateID : UInt64
  preUpdateDBChecksum : UInt32
  postUpdateDBChecksum : UInt32
  deriving DecidableEq

/-- `PZGDatabaseUpdate`. -/
structure PZGDatabaseUpdate {Msg : Type} (codec : PayloadCodec Msg) extends
    UpdateFields where
  payload : Payload codec

/-- `PZG_DATABASE_UPDATE_TYPE_CODE`. -/
def pzgDatabaseUpdateTypeCode : UInt32 := 1684174192

namespace PZGDatabaseUpdate

variable {Msg : Type} {codec : PayloadCodec Msg}

/-- `FlattenedSizeNotIncludingPayload`. -/
def flattenedSizeNotIncludingPayload : UInt32 :=
  4 + 1 + 1 + 2 + 2 + 8 + 2 + 16 + 8 + 4 + 4 + 4 + 4

/-- `PZGDatabaseUpdate::FlattenedSize`. -/
def flattenedSize (u : PZGDatabaseUpdate codec) : UInt32 :=
  flattenedSizeNotIncludingPayload +
    match u.payload.payloadBuffer with
    | some updateBuf => UInt32.ofNat updateBuf.length
    | none => 0

/-- The words of an update that come after its type code, up to its
checksum. -/
def unflattenFields : Unflattening UpdateFields := do
  let updateType ← readWord UInt8
  let _ ← readWord UInt8
  let databaseIndex ← readWord UInt16
  let seniorElapsedTimeMillis ← readWord UInt16
  let _ ← readWord UInt16
  let seniorStartTimeMicros ← readWord UInt64
  let sourcePeerID ← unflattenPeerID
  let updateID ← readWord UInt64
  let preUpdateDBChecksum ← readWord UInt32
  let postUpdateDBChecksum ← readWord UInt32
  return { updateType, databaseIndex, seniorElapsedTimeMillis
           seniorStartTimeMicros, sourcePeerID, updateID
           preUpdateDBChecksum, postUpdateDBChecksum }

/-- The bytes of some fields, apart from the reserved ones. -/
def FieldsFlattenedAs (fields : UpdateFields) (bytes : List UInt8) : Prop :=
  ∃ (reserved : UInt8) (reserved' : UInt16), bytes =
    wordBytes fields.updateType ++ wordBytes reserved ++
    wordBytes fields.databaseIndex ++
    wordBytes fields.seniorElapsedTimeMillis ++ wordBytes reserved' ++
    wordBytes fields.seniorStartTimeMicros ++
    flattenPeerID fields.sourcePeerID ++ wordBytes fields.updateID ++
    wordBytes fields.preUpdateDBChecksum ++
    wordBytes fields.postUpdateDBChecksum

theorem parses_unflattenFields :
    Parses unflattenFields FieldsFlattenedAs := by
  refine (Parses.word_bind fun _ => Parses.word_bind fun _ =>
    Parses.word_bind fun _ => Parses.word_bind fun _ =>
    Parses.word_bind fun _ => Parses.word_bind fun _ =>
    parses_unflattenPeerID.bind fun _ => Parses.word_bind fun _ =>
    Parses.word_bind fun _ => Parses.word_bind fun _ => Parses.pure).congr ?_
  intro fields used
  constructor
  · rintro ⟨_, _, rfl, reserved, _, rfl, _, _, rfl, _, _, rfl, reserved', _, rfl, _,
      _, rfl, _, _, _, rfl, rfl, _, _, rfl, _, _, rfl, _, _, rfl, rfl, rfl⟩
    exact ⟨reserved, reserved', by simp only [List.append_assoc, List.append_nil]⟩
  · rintro ⟨reserved, reserved', rfl⟩
    exact ⟨fields.updateType, _, by simp only [List.append_assoc], reserved, _, rfl,
      fields.databaseIndex, _, rfl, fields.seniorElapsedTimeMillis, _, rfl,
      reserved', _, rfl, fields.seniorStartTimeMicros, _, rfl,
      fields.sourcePeerID, _, _, rfl, rfl, fields.updateID, _, rfl,
      fields.preUpdateDBChecksum, _, rfl, fields.postUpdateDBChecksum, [],
      (List.append_nil _).symm, rfl, rfl⟩

variable (podChecksums : UpdateFields → Option (List UInt8) → UInt32)

/-- `PZGDatabaseUpdate::CalculateChecksum`: MUSCLE's checksum of the fields
and of the deflated payload. -/
def calculateChecksum (u : PZGDatabaseUpdate codec) : UInt32 :=
  podChecksums u.toUpdateFields u.payload.payloadBuffer

/-- `PZGDatabaseUpdate::Flatten`. -/
def flatten (u : PZGDatabaseUpdate codec) : List UInt8 :=
  let updateBuf := u.payload.payloadBuffer.getD []
  wordBytes pzgDatabaseUpdateTypeCode ++ wordBytes u.updateType ++
  wordBytes (0 : UInt8) ++ wordBytes u.databaseIndex ++
  wordBytes u.seniorElapsedTimeMillis ++ wordBytes (0 : UInt16) ++
  wordBytes u.seniorStartTimeMicros ++ flattenPeerID u.sourcePeerID ++
  wordBytes u.updateID ++ wordBytes u.preUpdateDBChecksum ++
  wordBytes u.postUpdateDBChecksum ++
  wordBytes (u.calculateChecksum podChecksums) ++
  wordBytes (UInt32.ofNat updateBuf.length) ++ updateBuf

/-- The update with the payload that is read off the wire. -/
def withPayloadBytes (fields : UpdateFields) (bytes : List UInt8) :
    PZGDatabaseUpdate codec :=
  ⟨fields, .ofBytes bytes⟩

/-- The last part of `Unflatten`: the checksum and the status. -/
def verifyChecksum (chk : UInt32) (u : PZGDatabaseUpdate codec) :
    Unflattening (PZGDatabaseUpdate codec) :=
  if chk ≠ u.calculateChecksum podChecksums then giveUp
  else do
    checkStatus
    return u

/-- The second half of `Unflatten`: the payload, and the checksum of all. -/
def unflattenPayload (fields : UpdateFields) (chk dataSize : UInt32) :
    Unflattening (PZGDatabaseUpdate codec) := do
  if (← numBytesAvailable) < dataSize.toNat then giveUp
  else do
    let bytes ← readBytes dataSize.toNat
    verifyChecksum podChecksums chk (withPayloadBytes fields bytes)

/-- `PZGDatabaseUpdate::Unflatten`. -/
def unflatten : Unflattening (PZGDatabaseUpdate codec) := do
  let typeCode ← readWord UInt32
  if typeCode ≠ pzgDatabaseUpdateTypeCode then giveUp
  else do
    let fields ← unflattenFields
    let chk ← readWord UInt32
    let dataSize ← readWord UInt32
    unflattenPayload podChecksums fields chk dataSize

/-! ### What is accepted -/

variable {u v : PZGDatabaseUpdate codec} {bytes rest : List UInt8}

/-- The bytes of an update as they are accepted, apart from the reserved
fields. -/
def FlattenedAs (u : PZGDatabaseUpdate codec) (bytes : List UInt8) : Prop :=
  ∃ fields, FieldsFlattenedAs u.toUpdateFields fields ∧
    bytes = wordBytes pzgDatabaseUpdateTypeCode ++ (fields ++
      (wordBytes (u.calculateChecksum podChecksums) ++
        (wordBytes (UInt32.ofNat (u.payload.payloadBuffer.getD []).length) ++
          u.payload.payloadBuffer.getD [])))

/-- The update as it arrives: its payload has not been inflated yet. -/
def received (u : PZGDatabaseUpdate codec) : PZGDatabaseUpdate codec :=
  withPayloadBytes u.toUpdateFields (u.payload.payloadBuffer.getD [])

theorem getD_payloadBuffer_withPayloadBytes (fields : UpdateFields) :
    (withPayloadBytes fields bytes :
      PZGDatabaseUpdate codec).payload.payloadBuffer.getD [] = bytes := by
  rw [withPayloadBytes, Payload.payloadBuffer_ofBytes]
  split <;> simp_all

theorem parses_verifyChecksum (chk : UInt32) (u : PZGDatabaseUpdate codec) :
    Parses (verifyChecksum podChecksums chk u) fun v used =>
      v = u ∧ chk = u.calculateChecksum podChecksums ∧ used = [] := by
  refine (parses_checkStatus.bind fun _ => Parses.pure).guarded.congr ?_
  intro v used
  constructor
  · rintro ⟨hchk, _, _, _, rfl, rfl, rfl, rfl⟩
    exact ⟨rfl, not_not.mp hchk, rfl⟩
  · rintro ⟨rfl, hchk, rfl⟩
    exact ⟨not_not.mpr hchk, (), [], [], rfl, rfl, rfl, rfl⟩

theorem parses_unflattenPayload (fields : UpdateFields) (chk dataSize : UInt32) :
    Parses (unflattenPayload podChecksums fields chk dataSize :
        Unflattening (PZGDatabaseUpdate codec))
      fun u used => used.length = dataSize.toNat ∧
        u = withPayloadBytes fields used ∧
        chk = u.calculateChecksum podChecksums := by
  refine (((parses_readBytes dataSize.toNat).bind fun bytes =>
    parses_verifyChecksum podChecksums chk
      (withPayloadBytes fields bytes)).require ?_).congr ?_
  · rintro u used ⟨bytes, _, _, rfl, ⟨rfl, hlen⟩, -⟩
    rw [List.length_append]
    omega
  · intro u used
    constructor
    · rintro ⟨bytes, _, _, rfl, ⟨rfl, hlen⟩, rfl, hchk, rfl⟩
      rw [List.append_nil]
      exact ⟨hlen, rfl, hchk⟩
    · rintro ⟨hlen, rfl, hchk⟩
      exact ⟨used, _, [], (List.append_nil _).symm, ⟨rfl, hlen⟩, rfl, hchk, rfl⟩

theorem parses_unflatten :
    Parses (unflatten podChecksums : Unflattening (PZGDatabaseUpdate codec))
      fun u used => (u.payload.payloadBuffer.getD []).length < 2 ^ 32 ∧
        u.received = u ∧ u.FlattenedAs podChecksums used := by
  refine (Parses.word_bind fun _ => Parses.guarded <|
    parses_unflattenFields.bind fun fields => Parses.word_bind fun chk =>
    Parses.word_bind fun dataSize =>
    parses_unflattenPayload podChecksums fields chk dataSize).congr ?_
  intro u used
  constructor
  · rintro ⟨code, _, rfl, hcode, fields, fieldBytes, _, rfl, hfields, chk, _, rfl,
      dataSize, bytes, rfl, hlen, rfl, rfl⟩
    obtain rfl : code = pzgDatabaseUpdateTypeCode := not_not.mp hcode
    have hbytes : (withPayloadBytes fields bytes :
        PZGDatabaseUpdate codec).payload.payloadBuffer.getD [] = bytes :=
      getD_payloadBuffer_withPayloadBytes fields
    refine ⟨?_, ?_, fieldBytes, hfields, ?_⟩
    · rw [hbytes, hlen]
      exact dataSize.toNat_lt
    · rw [received, hbytes]
      rfl
    · rw [hbytes, hlen]
      simp
  · rintro ⟨hlen, hreceived, fieldBytes, hfields, rfl⟩
    refine ⟨_, _, rfl, not_not.mpr rfl, _, _, _, rfl, hfields, _, _, rfl, _, _,
      rfl, (UInt32.toNat_ofNat_of_lt' hlen).symm, hreceived.symm, ?_⟩
    exact rfl

/-! ### The wire -/

theorem length_flatten : (u.flatten podChecksums).length =
    60 + (u.payload.payloadBuffer.getD []).length := by
  simp [flatten]
  omega

/-- `FlattenedSize` counts modulo `2 ^ 32`. -/
theorem flattenedSize_eq :
    u.flattenedSize = UInt32.ofNat (u.flatten podChecksums).length := by
  have hstatic : flattenedSizeNotIncludingPayload = UInt32.ofNat 60 := by decide
  rw [length_flatten, flattenedSize, hstatic, UInt32.ofNat_add]
  cases u.payload.payloadBuffer <;> rfl

theorem received_payloadBuffer :
    u.received.payload.payloadBuffer = u.payload.payloadBuffer := by
  have hne := u.payload.payloadBuffer_ne
  rw [received, withPayloadBytes, Payload.payloadBuffer_ofBytes]
  cases hbuf : u.payload.payloadBuffer with
  | none => rfl
  | some buf =>
      have hbuf' : buf ≠ [] := fun hnil => hne (hnil ▸ hbuf)
      simp [hbuf']

/-- What is written is read back as it arrives. -/
theorem unflatten_flatten
    (h : (u.payload.payloadBuffer.getD []).length < 2 ^ 32) :
    ByteFormat.unflatten (unflatten podChecksums) (u.flatten podChecksums) =
      some (u.received, []) := by
  have hbuffer := u.received_payloadBuffer
  refine (parses_unflatten podChecksums).unflatten_iff.mpr
    ⟨_, (List.append_nil _).symm, hbuffer.symm ▸ h, ?_, ?_⟩
  · rw [received, hbuffer]
    rfl
  · have hchecksum : u.received.calculateChecksum podChecksums =
        u.calculateChecksum podChecksums := by
      rw [calculateChecksum, hbuffer]
      rfl
    refine ⟨_, ⟨0, 0, rfl⟩, ?_⟩
    rw [hchecksum, hbuffer]
    simp only [flatten, List.append_assoc]
    rfl

/-- The checksum that is stored in the bytes of an update. -/
def storedChecksum (bytes : List UInt8) : UInt32 :=
  importAt UInt32 bytes 52

theorem storedChecksum_of_flattenedAs (h : u.FlattenedAs podChecksums bytes) :
    storedChecksum (bytes ++ rest) = u.calculateChecksum podChecksums := by
  obtain ⟨fields, ⟨reserved, reserved', hfields⟩, rfl⟩ := h
  have hlen : (wordBytes pzgDatabaseUpdateTypeCode ++ fields).length = 52 := by
    simp [hfields]
  have hread := importAt_append _
    (wordBytes (UInt32.ofNat (u.payload.payloadBuffer.getD []).length) ++
      (u.payload.payloadBuffer.getD [] ++ rest)) hlen
    (u.calculateChecksum podChecksums)
  simp only [List.append_assoc] at hread ⊢
  exact hread

/-- **The wire.** An update whose size 32 bits can count is written in
`FlattenedSize` bytes and read back with the same fields and the same payload,
but not from a proper prefix; and what is read from any buffer has the
checksum that is stored there. -/
theorem update_roundTrip (codec : PayloadCodec Msg)
    (podChecksums : UpdateFields → Option (List UInt8) → UInt32) :
    (∀ u : PZGDatabaseUpdate codec, (u.flatten podChecksums).length < 2 ^ 32 →
      (u.flatten podChecksums).length = u.flattenedSize.toNat ∧
      (∃ v : PZGDatabaseUpdate codec,
        ByteFormat.unflatten (unflatten podChecksums) (u.flatten podChecksums) =
          some (v, []) ∧
        v.toUpdateFields = u.toUpdateFields ∧
        v.payload.payloadBuffer = u.payload.payloadBuffer ∧
        v.payload.payloadMessage = u.payload.payloadMessage) ∧
      ∀ bytes more, u.flatten podChecksums = bytes ++ more → more ≠ [] →
        ByteFormat.unflatten (unflatten podChecksums :
          Unflattening (PZGDatabaseUpdate codec)) bytes = none) ∧
    ∀ (bytes rest : List UInt8) (v : PZGDatabaseUpdate codec),
      ByteFormat.unflatten (unflatten podChecksums) bytes = some (v, rest) →
      storedChecksum bytes = v.calculateChecksum podChecksums := by
  constructor
  · intro u hsize
    have hlen : (u.payload.payloadBuffer.getD []).length < 2 ^ 32 := by
      rw [length_flatten] at hsize
      omega
    have hread := unflatten_flatten podChecksums hlen
    have hbuffer := u.received_payloadBuffer
    refine ⟨?_, ⟨u.received, hread, rfl, hbuffer, ?_⟩, ?_⟩
    · rw [flattenedSize_eq podChecksums]
      exact (UInt32.toNat_ofNat_of_lt' hsize).symm
    · rw [Payload.payloadMessage_eq, Payload.payloadMessage_eq, hbuffer]
    · intro bytes more hsplit hmore
      rw [hsplit] at hread
      exact (parses_unflatten podChecksums).unflatten_eq_none hread hmore
  · intro bytes rest v h
    obtain ⟨used, rfl, -, -, hused⟩ :=
      (parses_unflatten podChecksums).unflatten_iff.mp h
    exact storedChecksum_of_flattenedAs podChecksums hused

end PZGDatabaseUpdate

/-! ### Updates in the flesh -/

/-- A codec that stores messages of bytes as they are, behind a byte. -/
def storingCodec : PayloadCodec (List UInt8) where
  deflate bytes := 0x78 :: bytes
  inflate
    | [] => none
    | _ :: bytes => some bytes
  inflate_deflate _ := rfl
  flattenToByteBuffer msg := msg
  getMessageFromPool msg := some msg
  getMessageFromPool_flatten _ := rfl
  deflate_ne_nil _ := by simp

/-- A checksum of an update ID and a payload. -/
def exampleChecksum (fields : UpdateFields) (buf : Option (List UInt8)) :
    UInt32 :=
  fields.updateID.toUInt32 + UInt32.ofNat (ofLE (buf.getD []))

/-- An update with a payload. -/
def updateWith (payload : Payload storingCodec) :
    PZGDatabaseUpdate storingCodec where
  updateType := 3
  databaseIndex := 1
  seniorElapsedTimeMillis := 20
  seniorStartTimeMicros := 1000
  sourcePeerID := ⟨1, 2⟩
  updateID := 7
  preUpdateDBChecksum := 8
  postUpdateDBChecksum := 9
  payload

/-- An update with a message that has not been deflated yet. -/
def exampleUpdate : PZGDatabaseUpdate storingCodec :=
  updateWith (.ofMessage (some [5, 6]))

theorem length_exampleUpdate :
    (exampleUpdate.flatten exampleChecksum).length = 63 := by
  rw [PZGDatabaseUpdate.length_flatten]
  rfl

/-- It is read back with its message, and not from its first ten bytes. -/
theorem update_roundTrip_message :
    (∃ v : PZGDatabaseUpdate storingCodec,
      ByteFormat.unflatten (PZGDatabaseUpdate.unflatten exampleChecksum)
        (exampleUpdate.flatten exampleChecksum) = some (v, []) ∧
      v.toUpdateFields = exampleUpdate.toUpdateFields ∧
      v.payload.payloadBuffer = some [0x78, 5, 6] ∧
      v.payload.payloadMessage = some [5, 6]) ∧
    ByteFormat.unflatten (PZGDatabaseUpdate.unflatten exampleChecksum :
      Unflattening (PZGDatabaseUpdate storingCodec))
        ((exampleUpdate.flatten exampleChecksum).take 10) = none ∧
    PZGDatabaseUpdate.storedChecksum (exampleUpdate.flatten exampleChecksum) =
      exampleUpdate.received.calculateChecksum exampleChecksum := by
  have hroundTrip :=
    PZGDatabaseUpdate.update_roundTrip storingCodec exampleChecksum
  have hsize : (exampleUpdate.flatten exampleChecksum).length < 2 ^ 32 :=
    length_exampleUpdate.trans_lt (by decide)
  obtain ⟨-, hread, hproper⟩ := hroundTrip.1 exampleUpdate hsize
  refine ⟨hread, ?_, ?_⟩
  · refine hproper _ _ (List.take_append_drop 10 _).symm fun hnil => ?_
    have hlen := congrArg List.length hnil
    rw [List.length_drop, length_exampleUpdate] at hlen
    cases hlen
  · refine hroundTrip.2 _ [] _ (PZGDatabaseUpdate.unflatten_flatten _ ?_)
    decide

theorem length_flatten_ofBytes (bytes : List UInt8) :
    ((updateWith (.ofBytes bytes)).flatten exampleChecksum).length =
      60 + bytes.length := by
  rw [PZGDatabaseUpdate.length_flatten]
  exact congrArg (60 + ·.length)
    (PZGDatabaseUpdate.getD_payloadBuffer_withPayloadBytes
      (updateWith (.ofBytes bytes)).toUpdateFields)

/-- A payload of so many bytes that 32 bits cannot count the bytes of the
update. -/
theorem update_roundTrip_fails :
    ((updateWith (.ofBytes (List.replicate 4294967236 0))).flatten
      exampleChecksum).length ≠
    (updateWith (.ofBytes (List.replicate 4294967236 0))).flattenedSize.toNat := by
  rw [PZGDatabaseUpdate.flattenedSize_eq exampleChecksum, length_flatten_ofBytes,
    List.length_replicate]
  decide

end ZgChoir.UpdateWire
