import ZgChoir.HeartbeatWire

/-!
# What the format of heartbeats accepts

`FlattenedAs` is the format of each part of a packet, with the reserved words
left open, and `parses_unflatten` says for each part that `Unflatten` accepts
this format and nothing else.  So a packet survives the wire up to what is
not sent with it: its network send time, and the difference between no
attributes and empty ones.
-/

namespace ZgChoir.HeartbeatWire

open ByteFormat

/-! ### The flag in the peer type -/

theorem toNat_clearHighBit (bits : UInt16) :
    (bits &&& ~~~0x8000).toNat = bits.toNat % 32768 := by
  have hmask : (~~~0x8000 : UInt16) = 0x7fff := by decide
  rw [hmask, UInt16.toNat_and]
  exact Nat.and_two_pow_sub_one_eq_mod _ 15

theorem highBit_eq (bits : UInt16) :
    (bits &&& 0x8000 != 0) = decide (32768 ≤ bits.toNat) := by
  have hlt : bits.toNat < 65536 := bits.toNat_lt
  have hand : (bits &&& 0x8000).toNat =
      (bits.toNat.testBit 15).toNat * 32768 := by
    rw [UInt16.toNat_and]
    exact Nat.and_two_pow bits.toNat 15
  have hbit : bits.toNat.testBit 15 = decide (32768 ≤ bits.toNat) := by
    rw [Nat.testBit_eq_decide_div_mod_eq]
    congr 1
    apply propext
    omega
  have hzero : bits &&& 0x8000 = 0 ↔ (bits &&& 0x8000).toNat = 0 :=
    UInt16.toNat_inj.symm
  rw [hbit] at hand
  by_cases h : 32768 ≤ bits.toNat
  · simp [bne, hzero, hand, h]
  · have hnone : bits &&& 0x8000 = 0 := by simp [hzero, hand, h]
    simp [hnone, h]

theorem toNat_setHighBit {peerType : UInt16} (h : peerType.toNat < 32768) :
    (peerType ||| 0x8000).toNat = 32768 + peerType.toNat := by
  have hor := Nat.two_pow_add_eq_or_of_lt (i := 15) h 1
  rw [UInt16.toNat_or, Nat.or_comm]
  exact hor.symm

/-- The flag and the type make up the bits again. -/
theorem setHighBit_clearHighBit (bits : UInt16) :
    (bits &&& ~~~0x8000) ||| (if bits &&& 0x8000 != 0 then 0x8000 else 0) =
      bits := by
  have hlt : bits.toNat < 65536 := bits.toNat_lt
  have hclear := toNat_clearHighBit bits
  rw [highBit_eq]
  apply UInt16.toNat_inj.mp
  by_cases h : 32768 ≤ bits.toNat
  · rw [decide_eq_true h, if_pos rfl, toNat_setHighBit (by omega)]
    omega
  · rw [decide_eq_false h, if_neg (by simp), UInt16.or_zero]
    omega

/-- The bits of a packet tell its type and its flag. -/
theorem peerTypeBits_eq {p : PZGHeartbeatPacket} (h : p.peerType < 0x8000) :
    p.peerTypeBits &&& ~~~0x8000 = p.peerType ∧
      (p.peerTypeBits &&& 0x8000 != 0) = p.isFullyAttached := by
  have htype : p.peerType.toNat < 32768 := h
  have hbits : p.peerTypeBits.toNat =
      (if p.isFullyAttached then 32768 else 0) + p.peerType.toNat := by
    unfold PZGHeartbeatPacket.peerTypeBits
    cases p.isFullyAttached with
    | true => exact toNat_setHighBit htype
    | false => simp
  constructor
  · apply UInt16.toNat_inj.mp
    rw [toNat_clearHighBit, hbits]
    split <;> omega
  · rw [highBit_eq, hbits]
    cases p.isFullyAttached <;> simp [htype]

/-! ### The parts -/

theorem parses_unflattenPeerID :
    Parses unflattenPeerID fun id used => used = flattenPeerID id := by
  refine (Parses.word_bind fun _ => (parses_readWord UInt64).checked).congr ?_
  intro id used
  constructor
  · rintro ⟨high, cs, rfl, low, rfl, rfl⟩
    rfl
  · rintro rfl
    exact ⟨_, _, rfl, _, rfl, rfl⟩

@[simp] theorem length_flattenPeerID (id : ZGPeerID) :
    (flattenPeerID id).length = 16 := by simp [flattenPeerID]

/-- The bytes of a timing entry, apart from the reserved word. -/
def PZGTimingInfo.FlattenedAs (t : PZGTimingInfo) (bytes : List UInt8) :
    Prop :=
  ∃ reserved : UInt16, bytes = wordBytes t.sourceTag ++ wordBytes reserved ++
    wordBytes t.heartbeatPacketID ++ wordBytes t.dwellTimeMicros

namespace PZGTimingInfo

variable {t : PZGTimingInfo} {bytes : List UInt8}

theorem flattenedAs_flatten : t.FlattenedAs t.flatten := ⟨0, rfl⟩

@[simp] theorem length_flatten : t.flatten.length = 12 := by simp [flatten]

theorem FlattenedAs.length_eq (h : t.FlattenedAs bytes) :
    bytes.length = t.flatten.length := by
  obtain ⟨reserved, rfl⟩ := h
  simp

theorem parses_unflatten : Parses unflatten FlattenedAs := by
  refine (Parses.word_bind fun _ => Parses.word_bind fun _ =>
    Parses.word_bind fun _ => (parses_readWord UInt32).checked).congr ?_
  intro t used
  constructor
  · rintro ⟨tag, _, rfl, reserved, _, rfl, id, _, rfl, dwell, rfl, rfl⟩
    exact ⟨reserved, by simp⟩
  · rintro ⟨reserved, rfl⟩
    exact ⟨_, _, by simp only [List.append_assoc], reserved, _, rfl, _, _, rfl,
      _, rfl, rfl⟩

end PZGTimingInfo

namespace PZGHeartbeatPeerInfo

variable {info : PZGHeartbeatPeerInfo} {bytes : List UInt8}

/-- The bytes of a peer info, apart from the reserved words. -/
def FlattenedAs (info : PZGHeartbeatPeerInfo) (bytes : List UInt8) : Prop :=
  ∃ timings, EachParsed PZGTimingInfo.FlattenedAs info.timings timings ∧
    bytes = flattenPeerID info.peerID ++
      wordBytes (UInt32.ofNat info.timings.length) ++ timings

/-- The number of the timing entries fits into its word. -/
def Fits (info : PZGHeartbeatPeerInfo) : Prop :=
  info.timings.length < 2 ^ 32

theorem flattenedAs_flatten : info.FlattenedAs info.flatten :=
  ⟨_, eachParsed_flatMap (fun _ => PZGTimingInfo.flattenedAs_flatten) _, rfl⟩

@[simp] theorem length_flatten :
    info.flatten.length = 20 + 12 * info.timings.length := by
  simp [flatten, List.length_flatMap]
  omega

theorem FlattenedAs.length_eq (h : info.FlattenedAs bytes) :
    bytes.length = info.flatten.length := by
  obtain ⟨timings, htimings, rfl⟩ := h
  have := htimings.length_eq PZGTimingInfo.FlattenedAs.length_eq
  simp [flatten, this]

theorem parses_unflatten : Parses unflatten fun info used =>
    info.Fits ∧ info.FlattenedAs used := by
  have htimings : ∀ numTimings : UInt32,
      Parses (readMany PZGTimingInfo.unflatten numTimings.toNat)
        fun timings used => timings.length = numTimings.toNat ∧
          EachParsed PZGTimingInfo.FlattenedAs timings used :=
    fun _ => PZGTimingInfo.parses_unflatten.readMany _
  refine (parses_unflattenPeerID.bind fun peerID => Parses.word_bind
    fun numTimings => Parses.require ((htimings numTimings).checked) ?_).congr ?_
  · rintro _ used ⟨timings, rfl, hcount, hused⟩
    have := hused.length_eq PZGTimingInfo.FlattenedAs.length_eq
    rw [this, List.length_flatMap]
    simp only [PZGTimingInfo.length_flatten, List.map_const', List.sum_replicate,
      hcount, smul_eq_mul]
    exact min_le_left _ _
  · intro info used
    constructor
    · rintro ⟨peerID, _, _, rfl, rfl, numTimings, _, rfl, timings, rfl, hcount,
        hused⟩
      refine ⟨hcount.trans_lt numTimings.toNat_lt, _, hused, ?_⟩
      simp [hcount]
    · rintro ⟨hfits, timings, htimings, rfl⟩
      refine ⟨_, _, _, List.append_assoc _ _ _, rfl, _, _, rfl, info.timings, rfl,
        ?_, htimings⟩
      exact (UInt32.toNat_ofNat_of_lt' hfits).symm

end PZGHeartbeatPeerInfo

/-! ### The packet -/

namespace PZGHeartbeatPacket

variable {p : PZGHeartbeatPacket} {bytes : List UInt8}

/-- The bytes of a packet, apart from the reserved words. -/
def FlattenedAs (p : PZGHeartbeatPacket) (bytes : List UInt8) : Prop :=
  ∃ (reserved : UInt16) (peers : List UInt8),
    EachParsed PZGHeartbeatPeerInfo.FlattenedAs p.orderedPeersList peers ∧
    bytes =
      wordBytes pzgHeartbeatPacketTypeCode ++ wordBytes p.heartbeatPacketID ++
      wordBytes p.versionCode ++ wordBytes p.systemKey ++
      wordBytes p.tcpAcceptPort ++ wordBytes p.peerUptimeSeconds ++
      flattenPeerID p.sourcePeerID ++ wordBytes p.peerTypeBits ++
      wordBytes (UInt16.ofNat p.orderedPeersList.length) ++
      wordBytes (UInt16.ofNat (p.peerAttributesBuf.getD []).length) ++
      wordBytes reserved ++ peers ++ p.peerAttributesBuf.getD []

/-- The counts and the type of a packet fit into their words. -/
structure Fits (p : PZGHeartbeatPacket) : Prop where
  peers : p.orderedPeersList.length < 2 ^ 16
  timings : ∀ info ∈ p.orderedPeersList, info.Fits
  attributes : (p.peerAttributesBuf.getD []).length < 2 ^ 16
  peerType : p.peerType < 0x8000

/-- The packet as it arrives: the time of sending is not sent with it, and no
attributes are the same as empty ones. -/
def received (p : PZGHeartbeatPacket) : PZGHeartbeatPacket :=
  { p with
    networkSendTimeMicros := 0
    peerAttributesBuf := p.peerAttributesBuf.filter (· ≠ []) }

theorem received_eq_iff : p.received = p ↔
    p.networkSendTimeMicros = 0 ∧ p.peerAttributesBuf ≠ some [] := by
  have hsplit : p.received = p ↔ 0 = p.networkSendTimeMicros ∧
      p.peerAttributesBuf.filter (· ≠ []) = p.peerAttributesBuf := by
    constructor
    · intro h
      exact ⟨congrArg networkSendTimeMicros h, congrArg peerAttributesBuf h⟩
    · rintro ⟨htime, hbuf⟩
      rw [received, htime, hbuf]
  rw [hsplit, eq_comm]
  refine and_congr_right fun _ => ?_
  cases p.peerAttributesBuf with
  | none => simp
  | some bytes => cases bytes <;> simp

theorem flattenedAs_flatten : p.FlattenedAs p.flatten :=
  ⟨0, _, eachParsed_flatMap (fun _ => PZGHeartbeatPeerInfo.flattenedAs_flatten) _,
    rfl⟩

theorem FlattenedAs.length_eq (h : p.FlattenedAs bytes) :
    bytes.length = p.flatten.length := by
  obtain ⟨reserved, peers, hpeers, rfl⟩ := h
  have := hpeers.length_eq PZGHeartbeatPeerInfo.FlattenedAs.length_eq
  simp [flatten, this]

theorem length_flatten : p.flatten.length = 50 +
    (p.orderedPeersList.map fun info => 20 + 12 * info.timings.length).sum +
    (p.peerAttributesBuf.getD []).length := by
  simp [flatten, List.length_flatMap]
  omega

/-- `FlattenedSize` counts modulo `2 ^ 32`. -/
theorem flattenedSize_eq : p.flattenedSize = UInt32.ofNat p.flatten.length := by
  have hpeer : ∀ info : PZGHeartbeatPeerInfo,
      info.flattenedSize = UInt32.ofNat (20 + 12 * info.timings.length) := by
    intro info
    have hsize : PZGTimingInfo.flattenedSize = UInt32.ofNat 12 := by decide
    have hconst : (16 + 4 : UInt32) = UInt32.ofNat 20 := by decide
    rw [PZGHeartbeatPeerInfo.flattenedSize, hsize, hconst, ← UInt32.ofNat_mul,
      ← UInt32.ofNat_add, Nat.mul_comm]
  have hpeers : ∀ (infos : List PZGHeartbeatPeerInfo) (n : ℕ),
      infos.foldl (fun ret info => ret + info.flattenedSize) (UInt32.ofNat n) =
        UInt32.ofNat (n +
          (infos.map fun info => 20 + 12 * info.timings.length).sum) := by
    intro infos
    induction infos with
    | nil => simp
    | cons info infos ih =>
        intro n
        rw [List.foldl_cons, hpeer, ← UInt32.ofNat_add, ih, List.map_cons,
          List.sum_cons, Nat.add_assoc]
  have hstatic : flattenedSizeNotIncludingVariableLengthData =
      UInt32.ofNat 50 := by decide
  rw [length_flatten, flattenedSize, hstatic, hpeers]
  cases p.peerAttributesBuf with
  | none => rfl
  | some buf => exact UInt32.ofNat_add _ _ |>.symm

/-- The attributes that are read back, if there are any. -/
theorem parses_unflattenAttributes (attribBufSize : UInt16) :
    Parses (unflattenAttributes attribBufSize) fun buf used =>
      used = buf.getD [] ∧ used.length = attribBufSize.toNat ∧
        buf ≠ some [] := by
  unfold unflattenAttributes
  split
  · next hzero =>
    subst hzero
    refine Parses.pure.congr fun buf used => ?_
    constructor
    · rintro ⟨rfl, rfl⟩
      simp
    · rintro ⟨rfl, hlen, hbuf⟩
      cases buf with
      | none => simp
      | some buf => simp_all
  · next hsome =>
    refine (Parses.require (parses_readBytes _).checked ?_).congr ?_
    · rintro _ used ⟨bytes, -, rfl, hlen⟩
      exact hlen.ge
    · have hpos : attribBufSize.toNat ≠ 0 := fun h =>
        hsome (UInt16.toNat_inj.mp h)
      intro buf used
      constructor
      · rintro ⟨bytes, rfl, rfl, hlen⟩
        refine ⟨rfl, hlen, ?_⟩
        rintro hnil
        obtain rfl : used = [] := Option.some.inj hnil
        exact hpos hlen.symm
      · rintro ⟨rfl, hlen, hbuf⟩
        cases buf with
        | none => exact absurd hlen.symm hpos
        | some buf => exact ⟨buf, rfl, rfl, hlen⟩

/-- A packet less its lists, as its words tell it. -/
def words (p : PZGHeartbeatPacket) : PZGHeartbeatPacket :=
  { p with
    networkSendTimeMicros := 0
    orderedPeersList := []
    peerAttributesBuf := none }

theorem parses_unflattenWords : Parses unflattenWords fun p used =>
    p.words = p ∧ p.peerType < 0x8000 ∧
    used = wordBytes p.heartbeatPacketID ++ wordBytes p.versionCode ++
      wordBytes p.systemKey ++ wordBytes p.tcpAcceptPort ++
      wordBytes p.peerUptimeSeconds ++ flattenPeerID p.sourcePeerID ++
      wordBytes p.peerTypeBits := by
  refine (Parses.word_bind fun _ => Parses.word_bind fun _ =>
    Parses.word_bind fun _ => Parses.word_bind fun _ =>
    Parses.word_bind fun _ => parses_unflattenPeerID.bind fun _ =>
    Parses.word_bind fun _ => Parses.pure).congr ?_
  intro p used
  constructor
  · rintro ⟨_, _, rfl, _, _, rfl, _, _, rfl, _, _, rfl, _, _, rfl, _, _, _, rfl,
      rfl, bits, _, rfl, rfl, rfl⟩
    refine ⟨rfl, ?_, ?_⟩
    · rw [UInt16.lt_iff_toNat_lt, toNat_clearHighBit]
      exact Nat.mod_lt _ (by decide)
    · have hbits := setHighBit_clearHighBit bits
      simp only [peerTypeBits, hbits, List.append_assoc, List.append_nil]
  · rintro ⟨hp, htype, rfl⟩
    refine ⟨p.heartbeatPacketID, _, by simp only [List.append_assoc],
      p.versionCode, _, rfl, p.systemKey, _, rfl, p.tcpAcceptPort, _, rfl,
      p.peerUptimeSeconds, _, rfl, p.sourcePeerID, _, _, rfl, rfl,
      p.peerTypeBits, [], (List.append_nil _).symm, ?_, rfl⟩
    obtain ⟨hbits, hflag⟩ := peerTypeBits_eq htype
    rw [hbits, hflag]
    exact hp.symm

theorem parses_unflattenVariableLengthData
    (opListItemCount attribBufSize : UInt16) :
    Parses (unflattenVariableLengthData p opListItemCount attribBufSize)
      fun p' used => ∃ infos peers buf,
        p' = { p with orderedPeersList := infos, peerAttributesBuf := buf } ∧
        used = peers ++ buf.getD [] ∧
        infos.length = opListItemCount.toNat ∧ (∀ info ∈ infos, info.Fits) ∧
        EachParsed PZGHeartbeatPeerInfo.FlattenedAs infos peers ∧
        (buf.getD []).length = attribBufSize.toNat ∧ buf ≠ some [] := by
  refine ((PZGHeartbeatPeerInfo.parses_unflatten.readMany _).bind fun _ =>
    (parses_unflattenAttributes _).checked).congr ?_
  intro p' used
  constructor
  · rintro ⟨infos, peers, _, rfl, ⟨hcount, heach⟩, buf, rfl, rfl, hlen, hbuf⟩
    obtain ⟨hfits, heach⟩ := eachParsed_and.mp heach
    exact ⟨infos, peers, buf, rfl, rfl, hcount, hfits, heach, hlen, hbuf⟩
  · rintro ⟨infos, peers, buf, rfl, rfl, hcount, hfits, heach, hlen, hbuf⟩
    exact ⟨infos, peers, _, rfl, ⟨hcount, eachParsed_and.mpr ⟨hfits, heach⟩⟩, buf,
      rfl, rfl, hlen, hbuf⟩

/-- **What `Unflatten` accepts.** -/
theorem parses_unflatten : Parses unflatten fun p used =>
    p.Fits ∧ p.received = p ∧ p.FlattenedAs used := by
  refine (Parses.require (Parses.word_bind fun _ => Parses.guarded <|
    parses_unflattenWords.bind fun _ => Parses.word_bind fun n =>
    Parses.word_bind fun a => Parses.word_bind fun _ =>
    parses_unflattenVariableLengthData n a) ?_).congr ?_
  · rintro p used ⟨code, _, rfl, -, q, _, _, rfl, ⟨-, -, rfl⟩, n, _, rfl, a, _, rfl,
      reserved, _, rfl, -⟩
    simp [flattenedSizeNotIncludingVariableLengthData]
    omega
  · intro p used
    constructor
    · rintro ⟨code, _, rfl, hcode, q, _, _, rfl, ⟨hq, htype, rfl⟩, n, _, rfl, a, _,
        rfl, reserved, _, rfl, infos, peers, buf, rfl, rfl, hcount, hfits, heach,
        hlen, hbuf⟩
      obtain rfl : code = pzgHeartbeatPacketTypeCode := not_not.mp hcode
      refine ⟨⟨?_, hfits, ?_, htype⟩, ?_, reserved, peers, heach, ?_⟩
      · exact hcount.trans_lt n.toNat_lt
      · exact hlen.trans_lt a.toNat_lt
      · exact received_eq_iff.mpr ⟨congrArg networkSendTimeMicros hq.symm, hbuf⟩
      · have hbits : peerTypeBits { q with
          orderedPeersList := infos, peerAttributesBuf := buf } =
            q.peerTypeBits := rfl
        simp [hcount, hlen, hbits]
    · rintro ⟨hfits, hreceived, reserved, peers, heach, rfl⟩
      obtain ⟨htime, hbuf⟩ := received_eq_iff.mp hreceived
      have hpeers := UInt16.toNat_ofNat_of_lt' hfits.peers
      have hattributes := UInt16.toNat_ofNat_of_lt' hfits.attributes
      have hwords : p.words.peerTypeBits = p.peerTypeBits := rfl
      refine ⟨_, _, ?_, not_not.mpr rfl, p.words, _, _, rfl,
        ⟨rfl, hfits.peerType, rfl⟩, UInt16.ofNat p.orderedPeersList.length, _, rfl,
        UInt16.ofNat (p.peerAttributesBuf.getD []).length, _, rfl, reserved, _,
        rfl, p.orderedPeersList, peers, p.peerAttributesBuf, ?_, rfl, hpeers.symm,
        hfits.timings, heach, hattributes.symm, hbuf⟩
      · simp only [hwords, List.append_assoc]
        rfl
      · rw [words, ← htime]

/-! ### The wire -/

/-- What can be asked of a packet that is to be sent: the sizes of its lists
and its type are within their limits. -/
structure Sendable (p : PZGHeartbeatPacket) : Prop where
  peers : p.orderedPeersList.length < 65536
  attributes : ∀ buf, p.peerAttributesBuf = some buf → buf.length ≤ 65535
  peerType : p.peerType < 0x8000

/-- A list of timing entries that is too long for its count makes the packet
too long as well. -/
theorem Sendable.fits (h : p.Sendable) (hsize : p.flatten.length < 2 ^ 32) :
    p.Fits where
  peers := h.peers
  timings := by
    intro info hinfo
    have hone : 20 + 12 * info.timings.length ≤
        (p.orderedPeersList.map fun info => 20 + 12 * info.timings.length).sum :=
      List.le_sum_of_mem (List.mem_map_of_mem hinfo)
    rw [length_flatten] at hsize
    unfold PZGHeartbeatPeerInfo.Fits
    omega
  attributes := by
    cases hbuf : p.peerAttributesBuf with
    | none => simp
    | some buf => exact Nat.lt_succ_of_le (h.attributes buf hbuf)
  peerType := h.peerType

/-- A packet that fits is read back as it arrives. -/
theorem unflatten_flatten (h : p.Fits) (rest : List UInt8) :
    ByteFormat.unflatten unflatten (p.flatten ++ rest) =
      some (p.received, rest) := by
  have hreceived : p.received.received = p.received := by
    refine received_eq_iff.mpr ⟨rfl, ?_⟩
    intro hnil
    simp [received, Option.filter_eq_some_iff] at hnil
  have hbytes : p.received.peerAttributesBuf.getD [] =
      p.peerAttributesBuf.getD [] := by
    cases hbuf : p.peerAttributesBuf with
    | none => simp [received, hbuf]
    | some buf =>
        rw [received, hbuf]
        cases buf <;> rfl
  have hflatten : p.received.flatten = p.flatten := by
    unfold flatten
    rw [hbytes]
    rfl
  have hfits : p.received.Fits :=
    ⟨h.peers, h.timings, hbytes ▸ h.attributes, h.peerType⟩
  refine parses_unflatten.unflatten_iff.mpr ⟨p.flatten, rfl, hfits, hreceived, ?_⟩
  exact hflatten ▸ flattenedAs_flatten

/-- What is read from a buffer is a packet as it arrives. -/
theorem received_of_unflatten {rest : List UInt8}
    (h : ByteFormat.unflatten unflatten bytes = some (p, rest)) :
    p.received = p := by
  obtain ⟨_, -, -, hreceived, -⟩ := parses_unflatten.unflatten_iff.mp h
  exact hreceived

/-- **The wire.** A packet within its limits whose size 32 bits can count is
written in `FlattenedSize` bytes, and read back apart from the time of its
sending and from empty attributes.  Whatever is read from a buffer is a
packet whose bytes, but for the reserved words, the buffer starts with. -/
theorem wire_roundTrip :
    (∀ p : PZGHeartbeatPacket, p.Sendable → p.flatten.length < 2 ^ 32 →
      p.flatten.length = p.flattenedSize.toNat ∧
      ByteFormat.unflatten unflatten p.flatten = some (p.received, [])) ∧
    ∀ (bytes rest : List UInt8) (p : PZGHeartbeatPacket),
      ByteFormat.unflatten unflatten bytes = some (p, rest) →
      ∃ used, bytes = used ++ rest ∧ p.FlattenedAs used ∧
        used.length = p.flatten.length := by
  constructor
  · intro p hsend hsize
    constructor
    · rw [flattenedSize_eq]
      exact (UInt32.toNat_ofNat_of_lt' hsize).symm
    · have h := unflatten_flatten (hsend.fits hsize) []
      rwa [List.append_nil] at h
  · intro bytes rest p h
    obtain ⟨used, rfl, -, -, hused⟩ := parses_unflatten.unflatten_iff.mp h
    exact ⟨used, rfl, hused, hused.length_eq⟩

/-- A packet of a peer that lists nobody and has nothing to say. -/
def plain : PZGHeartbeatPacket where
  heartbeatPacketID := 1
  versionCode := 2
  systemKey := 3
  networkSendTimeMicros := 0
  tcpAcceptPort := 4
  peerType := 0
  peerUptimeSeconds := 5
  sourcePeerID := ⟨6, 7⟩
  orderedPeersList := []
  isFullyAttached := true
  peerAttributesBuf := none

/-- A packet that lists a peer with a timing entry, and has attributes. -/
def talkative : PZGHeartbeatPacket :=
  { plain with
    orderedPeersList := [⟨⟨6, 7⟩, [⟨1, 2, 3⟩]⟩, ⟨⟨8, 9⟩, []⟩]
    peerAttributesBuf := some [10, 11] }

theorem sendable_talkative : talkative.Sendable where
  peers := by decide
  attributes := by simp [talkative]
  peerType := by decide

/-- The packet goes over the wire, with another byte behind it. -/
theorem wire_roundTrip_talkative :
    (talkative.flatten.length = talkative.flattenedSize.toNat ∧
      ByteFormat.unflatten unflatten talkative.flatten =
        some (talkative.received, [])) ∧
    ∃ used, talkative.flatten ++ [12] = used ++ [12] ∧
      talkative.received.FlattenedAs used ∧
      used.length = talkative.received.flatten.length := by
  have hsize : talkative.flatten.length < 2 ^ 32 := by
    rw [length_flatten]
    decide
  exact ⟨wire_roundTrip.1 talkative sendable_talkative hsize,
    wire_roundTrip.2 _ _ _ (unflatten_flatten (sendable_talkative.fits hsize) [12])⟩

/-- A peer with `n` timing entries. -/
def withTimings (n : ℕ) : PZGHeartbeatPeerInfo where
  peerID := ⟨6, 7⟩
  timings := List.replicate n ⟨0, 0, 0⟩

theorem length_flatten_withTimings (n : ℕ) :
    ({ plain with orderedPeersList := [withTimings n] }).flatten.length =
      70 + 12 * n := by
  rw [length_flatten]
  simp [plain, withTimings]
  omega

theorem sendable_withPeers {infos : List PZGHeartbeatPeerInfo}
    (h : infos.length < 65536) :
    Sendable { plain with orderedPeersList := infos } where
  peers := h
  attributes := by simp [plain]
  peerType := by simp [plain]

/-- Three packets within the limits.  The bytes of one are more than
`FlattenedSize` can count; one has a time of sending, which is not on the
wire; and one has empty attributes, which come back as none. -/
theorem wire_roundTrip_fails :
    (let p := { plain with orderedPeersList := [withTimings 357913942] }
     p.Sendable ∧ p.flatten.length ≠ p.flattenedSize.toNat) ∧
    (let p := { plain with networkSendTimeMicros := 8 }
     p.Sendable ∧ ByteFormat.unflatten unflatten p.flatten ≠ some (p, [])) ∧
    (let p := { plain with peerAttributesBuf := some [] }
     p.Sendable ∧ ByteFormat.unflatten unflatten p.flatten ≠ some (p, [])) := by
  have hplain := sendable_withPeers (List.length_nil.trans_lt (by decide))
  refine ⟨⟨sendable_withPeers (by simp), ?_⟩,
    ⟨⟨hplain.peers, hplain.attributes, hplain.peerType⟩, ?_⟩,
    ⟨⟨hplain.peers, by simp, hplain.peerType⟩, ?_⟩⟩
  · rw [flattenedSize_eq, length_flatten_withTimings]
    decide
  · intro h
    have htime := (received_eq_iff.mp (received_of_unflatten h)).1
    revert htime
    decide
  · intro h
    exact (received_eq_iff.mp (received_of_unflatten h)).2 rfl

end PZGHeartbeatPacket

end ZgChoir.HeartbeatWire
