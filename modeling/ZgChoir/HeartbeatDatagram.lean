import ZgChoir.HeartbeatRoundTrip
import ZgChoir.HeartbeatTiming

/-!
# Datagrams with heartbeats

A heartbeat travels deflated, behind a header of 16 bytes: a magic number, the
tag of the sender's interface, the network time of the sending and a checksum
of the deflated bytes.  Sender and receiver find the fields of the header by
their offsets.  The receiver reads into a buffer of 2048 bytes, and what does
not fit into it is lost; a datagram that cannot be parsed leaves the thread as
it is.

The zlib codec and the checksum are parameters; of the codec it is only used
that `inflate` undoes `deflate`.
-/

namespace ZgChoir.HeartbeatWire

open ByteFormat

/-! ### Sending -/

/-- The settings of the peer that sends.  The constructor gives up on
attributes of more than 65535 bytes, and deflated attributes are never
empty. -/
structure PZGHeartbeatSettings extends ZgChoir.PZGHeartbeatSettings where
  dataTCPPort : UInt16
  peerAttributesByteBuffer : Option (List UInt8)
  accepted : ∀ buf, peerAttributesByteBuffer = some buf →
    buf ≠ [] ∧ buf.length ≤ 65535

/-- `PZGHeartbeatPacket::Initialize`, and the peers list that is filled in
after it. -/
def PZGHeartbeatSettings.heartbeat (hbSettings : PZGHeartbeatSettings)
    (uptimeSeconds : UInt32) (isFullyAttached : Bool) (packetID : UInt32)
    (orderedPeersList : List PZGHeartbeatPeerInfo) : PZGHeartbeatPacket where
  heartbeatPacketID := packetID
  versionCode := hbSettings.versionCode
  systemKey := hbSettings.systemKey
  networkSendTimeMicros := 0
  tcpAcceptPort := hbSettings.dataTCPPort
  peerType := hbSettings.peerType
  peerUptimeSeconds := uptimeSeconds
  sourcePeerID := hbSettings.localPeerID
  orderedPeersList
  isFullyAttached
  peerAttributesBuf := hbSettings.peerAttributesByteBuffer

/-- `HB_HEADER_SIZE`. -/
def hbHeaderSize : ℕ := 2 + 2 + 8 + 4

/-- `HB_HEADER_MAGIC`. -/
def hbHeaderMagic : UInt16 := 25874

section

variable (codec : ZLibCodec) (calculateChecksum : List UInt8 → UInt32)

/-- The first part of `SendHeartbeatPackets`: the deflated packet behind the
room for the header, and the words of the header that are the same for each
interface. -/
def deflatedBuffer (room : List UInt8) (hb : PZGHeartbeatPacket) :
    List UInt8 :=
  let dsb := room ++ codec.deflate hb.flatten
  let checksum := calculateChecksum (dsb.drop hbHeaderSize)
  exportAt (exportAt dsb 0 hbHeaderMagic) (2 * 2 + 8) checksum

/-- The last part of `SendHeartbeatPackets`: what is written to one
interface. -/
def datagram (room : List UInt8) (hb : PZGHeartbeatPacket) (tag : UInt16)
    (networkTime : UInt64) : List UInt8 :=
  let dsb := deflatedBuffer codec calculateChecksum room hb
  exportAt (exportAt dsb (1 * 2) tag) (2 * 2) networkTime

/-! ### Receiving -/

/-- What is known of a packet that has been parsed. -/
structure ParsedPacket where
  packet : PZGHeartbeatPacket
  sourceTag : UInt16
  deriving DecidableEq

/-- `ParseHeartbeatPacketBuffer`. -/
def parseHeartbeatPacketBuffer (defBuf : List UInt8) : Option ParsedPacket :=
  if defBuf.length < hbHeaderSize then none
  else if importAt UInt16 defBuf 0 ≠ hbHeaderMagic then none
  else if importAt UInt32 defBuf (2 * 2 + 8) ≠
      calculateChecksum (defBuf.drop hbHeaderSize) then none
  else match codec.inflate (defBuf.drop hbHeaderSize) with
    | some raw =>
        match ByteFormat.unflatten PZGHeartbeatPacket.unflatten raw with
        | some (newHB, _) =>
            some {
              packet := { newHB with
                networkSendTimeMicros := importAt UInt64 defBuf (2 + 2) }
              sourceTag := importAt UInt16 defBuf 2 }
        | none => none
    | none => none

/-- The size of the buffer that `ReceiveMulticastTraffic` reads into. -/
def receiveBufferSize : ℕ := 2048

/-- `ReceiveMulticastTraffic`, for one datagram: as much of it is read as the
buffer can hold. -/
def receiveDatagram {Addr : Type} [DecidableEq Addr]
    (st : TimedHeartbeatThread Addr) (sourceIAP : Addr)
    (bytes : List UInt8) (localReceiveTimeMicros : ℕ) :
    TimedHeartbeatThread Addr :=
  match parseHeartbeatPacketBuffer codec calculateChecksum
      (bytes.take receiveBufferSize) with
  | some newHB => st.receiveMulticastTraffic sourceIAP newHB.sourceTag
      newHB.packet localReceiveTimeMicros
  | none => st

/-! ### What arrives -/

variable {codec calculateChecksum} {hb : PZGHeartbeatPacket} {tag : UInt16}
variable {networkTime : UInt64} {room bytes : List UInt8}

/-- The fields of a datagram in their order. -/
theorem datagram_eq (hroom : room.length = hbHeaderSize) :
    datagram codec calculateChecksum room hb tag networkTime =
      wordBytes hbHeaderMagic ++ (wordBytes tag ++ (wordBytes networkTime ++
        (wordBytes (calculateChecksum (codec.deflate hb.flatten)) ++
          codec.deflate hb.flatten))) := by
  obtain ⟨magic, rest, rfl, hmagic, hrest⟩ := exists_append (n := 2 + (8 + 4)) hroom
  obtain ⟨t, rest, rfl, ht, hrest⟩ := exists_append hrest
  obtain ⟨time, chk, rfl, htime, hchk⟩ := exists_append hrest
  have hdrop : (magic ++ (t ++ (time ++ chk)) ++ codec.deflate hb.flatten).drop
      hbHeaderSize = codec.deflate hb.flatten := List.drop_left' hroom
  unfold datagram deflatedBuffer
  dsimp only
  rw [hdrop]
  simp only [List.append_assoc]
  generalize calculateChecksum (codec.deflate hb.flatten) = checksum
  generalize codec.deflate hb.flatten = deflated
  have hstart : exportAt (magic ++ (t ++ (time ++ (chk ++ deflated)))) 0
      hbHeaderMagic = wordBytes hbHeaderMagic ++
        (t ++ (time ++ (chk ++ deflated))) :=
    exportAt_append [] _ rfl hmagic hbHeaderMagic
  have hchecksum : exportAt (wordBytes hbHeaderMagic ++
      (t ++ (time ++ (chk ++ deflated)))) (2 * 2 + 8) checksum =
      wordBytes hbHeaderMagic ++ (t ++ (time ++
        (wordBytes checksum ++ deflated))) := by
    have hlen : (wordBytes hbHeaderMagic ++ (t ++ time)).length = 2 * 2 + 8 := by
      simp [ht, htime]
    have h := exportAt_append _ deflated hlen hchk checksum
    simpa only [List.append_assoc] using h
  have htag : exportAt (wordBytes hbHeaderMagic ++ (t ++ (time ++
      (wordBytes checksum ++ deflated)))) (1 * 2) tag =
      wordBytes hbHeaderMagic ++ (wordBytes tag ++ (time ++
        (wordBytes checksum ++ deflated))) :=
    exportAt_append _ _ (length_wordBytes _) ht tag
  have hnetwork : exportAt (wordBytes hbHeaderMagic ++ (wordBytes tag ++ (time ++
      (wordBytes checksum ++ deflated)))) (2 * 2) networkTime =
      wordBytes hbHeaderMagic ++ (wordBytes tag ++ (wordBytes networkTime ++
        (wordBytes checksum ++ deflated))) := by
    have hlen : (wordBytes hbHeaderMagic ++ wordBytes tag).length = 2 * 2 := by
      simp
    have h := exportAt_append _ (wordBytes checksum ++ deflated) hlen htime
      networkTime
    simpa only [List.append_assoc] using h
  rw [hstart, hchecksum, htag, hnetwork]

/-- What is parsed of a buffer with such fields: the tag and the time of the
header, and the packet that the deflated bytes hold. -/
theorem parse_fields (bytes : List UInt8) :
    parseHeartbeatPacketBuffer codec calculateChecksum
      (wordBytes hbHeaderMagic ++ (wordBytes tag ++ (wordBytes networkTime ++
        (wordBytes (calculateChecksum bytes) ++ bytes)))) =
      ((codec.inflate bytes).bind
        (ByteFormat.unflatten PZGHeartbeatPacket.unflatten)).map fun result =>
          ⟨{ result.1 with networkSendTimeMicros := networkTime }, tag⟩ := by
  have hlen : ¬(wordBytes hbHeaderMagic ++ (wordBytes tag ++
      (wordBytes networkTime ++ (wordBytes (calculateChecksum bytes) ++
        bytes)))).length < hbHeaderSize := by
    simp [hbHeaderSize]
    omega
  have hmagic : importAt UInt16 (wordBytes hbHeaderMagic ++ (wordBytes tag ++
      (wordBytes networkTime ++ (wordBytes (calculateChecksum bytes) ++
        bytes)))) 0 = hbHeaderMagic := importAt_append [] _ rfl _
  have htag : importAt UInt16 (wordBytes hbHeaderMagic ++ (wordBytes tag ++
      (wordBytes networkTime ++ (wordBytes (calculateChecksum bytes) ++
        bytes)))) 2 = tag := importAt_append _ _ (length_wordBytes _) _
  have hnetwork : importAt UInt64 (wordBytes hbHeaderMagic ++ (wordBytes tag ++
      (wordBytes networkTime ++ (wordBytes (calculateChecksum bytes) ++
        bytes)))) (2 + 2) = networkTime := by
    rw [← List.append_assoc]
    exact importAt_append _ _ (by simp) _
  have hchecksum : importAt UInt32 (wordBytes hbHeaderMagic ++ (wordBytes tag ++
      (wordBytes networkTime ++ (wordBytes (calculateChecksum bytes) ++
        bytes)))) (2 * 2 + 8) = calculateChecksum bytes := by
    rw [← List.append_assoc, ← List.append_assoc]
    exact importAt_append _ _ (by simp) _
  have hdrop : (wordBytes hbHeaderMagic ++ (wordBytes tag ++
      (wordBytes networkTime ++ (wordBytes (calculateChecksum bytes) ++
        bytes)))).drop hbHeaderSize = bytes := by
    rw [← List.append_assoc, ← List.append_assoc, ← List.append_assoc]
    exact List.drop_left' (by simp [hbHeaderSize])
  unfold parseHeartbeatPacketBuffer
  rw [if_neg hlen, if_neg (not_not.mpr hmagic), hdrop,
    if_neg (not_not.mpr hchecksum), htag, hnetwork]
  cases codec.inflate bytes with
  | none => rfl
  | some raw =>
      cases hraw : ByteFormat.unflatten PZGHeartbeatPacket.unflatten raw with
      | none => simp [hraw]
      | some result => simp [hraw]

/-- A packet is never longer than the bytes that it was inflated from. -/
theorem length_of_parse {result : ParsedPacket}
    (h : parseHeartbeatPacketBuffer codec calculateChecksum bytes =
      some result) :
    ∃ raw, codec.inflate (bytes.drop hbHeaderSize) = some raw ∧
      result.packet.flatten.length ≤ raw.length := by
  unfold parseHeartbeatPacketBuffer at h
  split_ifs at h
  cases hraw : codec.inflate (bytes.drop hbHeaderSize) with
  | none => simp [hraw] at h
  | some raw =>
      cases hpacket : ByteFormat.unflatten PZGHeartbeatPacket.unflatten raw with
      | none => simp [hraw, hpacket] at h
      | some newHB =>
          obtain ⟨newHB, rest⟩ := newHB
          obtain ⟨used, rfl, -, hlen⟩ :=
            PZGHeartbeatPacket.wire_roundTrip.2 raw rest newHB hpacket
          simp only [hraw, hpacket] at h
          obtain rfl := Option.some.inj h
          refine ⟨_, rfl, ?_⟩
          rw [List.length_append, hlen]
          exact Nat.le_add_right _ _

/-- A datagram is received: the packet, its tag and its time are as they were
sent, the thread goes on with them, and a peer of the same system takes the
packet. -/
structure ReceivedBy {Addr : Type} [DecidableEq Addr] (codec : ZLibCodec)
    (calculateChecksum : List UInt8 → UInt32) (bytes : List UInt8)
    (hb : PZGHeartbeatPacket) (tag : UInt16) (st : TimedHeartbeatThread Addr) :
    Prop where
  parsed : parseHeartbeatPacketBuffer codec calculateChecksum
    (bytes.take receiveBufferSize) = some ⟨hb, tag⟩
  received : ∀ a t, receiveDatagram codec calculateChecksum st a bytes t =
    st.receiveMulticastTraffic a tag hb t
  taken : st.thread.hbSettings.versionCode = hb.versionCode →
    st.thread.hbSettings.systemKey = hb.systemKey → st.takes hb = true

variable {Addr : Type} [DecidableEq Addr]

theorem receivedBy_iff {st : TimedHeartbeatThread Addr} :
    ReceivedBy codec calculateChecksum bytes hb tag st ↔
      parseHeartbeatPacketBuffer codec calculateChecksum
        (bytes.take receiveBufferSize) = some ⟨hb, tag⟩ := by
  refine ⟨ReceivedBy.parsed, fun h => ⟨h, ?_, ?_⟩⟩
  · intro a t
    rw [receiveDatagram, h]
  · intro hversion hkey
    simp [TimedHeartbeatThread.takes, hversion, hkey]

/-- What is wrong with a buffer that is to be rejected. -/
def Rejectable (codec : ZLibCodec) (calculateChecksum : List UInt8 → UInt32)
    (defBuf : List UInt8) : Prop :=
  defBuf.length < hbHeaderSize ∨ importAt UInt16 defBuf 0 ≠ hbHeaderMagic ∨
  importAt UInt32 defBuf (2 * 2 + 8) ≠
    calculateChecksum (defBuf.drop hbHeaderSize) ∨
  codec.inflate (defBuf.drop hbHeaderSize) = none

theorem parse_of_rejectable (h : Rejectable codec calculateChecksum bytes) :
    parseHeartbeatPacketBuffer codec calculateChecksum bytes = none := by
  unfold parseHeartbeatPacketBuffer
  split_ifs with hlen hmagic hchecksum
  · rfl
  · rfl
  · rfl
  · have hinflate : codec.inflate (bytes.drop hbHeaderSize) = none :=
      ((h.resolve_left hlen).resolve_left hmagic).resolve_left hchecksum
    rw [hinflate]

/-- **Heartbeats.** A datagram that the receive buffer can hold is received
exactly when its peers can be counted with 16 bits and the type of the sender
leaves the highest bit free; and what is too short, or has a wrong magic number
or checksum, or cannot be inflated, changes nothing. -/
theorem heartbeat_received_iff (codec : ZLibCodec)
    (calculateChecksum : List UInt8 → UInt32) :
    (∀ (hbSettings : PZGHeartbeatSettings) (uptimeSeconds : UInt32)
      (isFullyAttached : Bool) (packetID : UInt32)
      (orderedPeersList : List PZGHeartbeatPeerInfo) (room : List UInt8)
      (tag : UInt16) (networkTime : UInt64) (st : TimedHeartbeatThread Addr),
      let hb := hbSettings.heartbeat uptimeSeconds isFullyAttached packetID
        orderedPeersList
      let bytes := datagram codec calculateChecksum room hb tag networkTime
      room.length = hbHeaderSize → hb.flatten.length < 2 ^ 32 →
      bytes.length ≤ receiveBufferSize →
      (ReceivedBy codec calculateChecksum bytes
        { hb with networkSendTimeMicros := networkTime } tag st ↔
        orderedPeersList.length < 65536 ∧ hbSettings.peerType < 0x8000)) ∧
    ∀ (bytes : List UInt8) (st : TimedHeartbeatThread Addr) (a : Addr) (t : ℕ),
      Rejectable codec calculateChecksum (bytes.take receiveBufferSize) →
      receiveDatagram codec calculateChecksum st a bytes t = st := by
  constructor
  · intro hbSettings uptimeSeconds isFullyAttached packetID orderedPeersList room
      tag networkTime st hb bytes hroom hsize hfits
    have hparsed : parseHeartbeatPacketBuffer codec calculateChecksum
        (bytes.take receiveBufferSize) =
        (ByteFormat.unflatten PZGHeartbeatPacket.unflatten hb.flatten).map
          fun result =>
            ⟨{ result.1 with networkSendTimeMicros := networkTime }, tag⟩ := by
      rw [List.take_of_length_le hfits]
      simp only [bytes, datagram_eq hroom, parse_fields, codec.inflate_deflate,
        Option.bind_some]
    rw [receivedBy_iff, hparsed]
    constructor
    · intro h
      obtain ⟨⟨p, rest⟩, hread, hsame⟩ := Option.map_eq_some_iff.mp h
      obtain ⟨_, -, hp, -⟩ :=
        PZGHeartbeatPacket.parses_unflatten.unflatten_iff.mp hread
      have hpacket : { p with networkSendTimeMicros := networkTime } =
          { hb with networkSendTimeMicros := networkTime } :=
        congrArg ParsedPacket.packet hsame
      have hpeers : p.orderedPeersList = orderedPeersList :=
        congrArg PZGHeartbeatPacket.orderedPeersList hpacket
      have htype : p.peerType = hbSettings.peerType :=
        congrArg PZGHeartbeatPacket.peerType hpacket
      exact ⟨hpeers ▸ hp.peers, htype ▸ hp.peerType⟩
    · rintro ⟨hpeers, htype⟩
      have hsend : hb.Sendable :=
        ⟨hpeers, fun buf hbuf => (hbSettings.accepted buf hbuf).2, htype⟩
      have hreceived : hb.received = hb := by
        refine PZGHeartbeatPacket.received_eq_iff.mpr ⟨rfl, fun hnil => ?_⟩
        exact (hbSettings.accepted [] hnil).1 rfl
      have hread := PZGHeartbeatPacket.unflatten_flatten (hsend.fits hsize) []
      rw [List.append_nil, hreceived] at hread
      rw [hread]
      rfl
  · intro bytes st a t h
    rw [receiveDatagram, parse_of_rejectable h]

/-! ### A datagram that is too long -/

/-- A codec that stores what it is given, behind two bytes. -/
def storingCodec : ZLibCodec where
  deflate bytes := 0x78 :: 0x01 :: bytes
  inflate bytes :=
    if bytes.take 2 = [0x78, 0x01] then some (bytes.drop 2) else none
  inflate_deflate bytes := by simp

/-- The settings of a full peer with `n` bytes of attributes, if these are
neither none nor too many. -/
def settingsWith (n : ℕ) (h : 0 < n ∧ n ≤ 65535) : PZGHeartbeatSettings where
  localPeerID := ⟨1, 1⟩
  systemKey := 4
  versionCode := 5
  peerType := 0
  heartbeatsPerSecond := 2
  maxNumMissingHeartbeats := 6
  heartbeatsBeforeFullyAttached := 4
  dataTCPPort := 7
  peerAttributesByteBuffer := some (List.replicate n 8)
  accepted := by
    intro buf hbuf
    obtain rfl := Option.some.inj hbuf
    refine ⟨fun hnil => ?_, by simpa using h.2⟩
    have := congrArg List.length hnil
    simp at this
    omega

/-- A checksum. -/
def sumOfBytes (bytes : List UInt8) : UInt32 :=
  bytes.foldl (fun sum byte => sum + byte.toUInt32) 0

/-- A heartbeat of a peer with `n` bytes of attributes, that lists one
peer. -/
def heartbeatWith (n : ℕ) (h : 0 < n ∧ n ≤ 65535) : PZGHeartbeatPacket :=
  (settingsWith n h).heartbeat 60 true 20 [⟨⟨2, 2⟩, [⟨1, 7, 300⟩]⟩]

/-- The datagram of that heartbeat, with tag 3, at the network time 1000. -/
def datagramWith (n : ℕ) (h : 0 < n ∧ n ≤ 65535) : List UInt8 :=
  datagram storingCodec sumOfBytes (List.replicate 16 0) (heartbeatWith n h) 3
    1000

theorem length_heartbeatWith {n : ℕ} (h : 0 < n ∧ n ≤ 65535) :
    (heartbeatWith n h).flatten.length = 82 + n := by
  rw [PZGHeartbeatPacket.length_flatten]
  simp [heartbeatWith, PZGHeartbeatSettings.heartbeat, settingsWith]

theorem length_datagramWith {n : ℕ} (h : 0 < n ∧ n ≤ 65535) :
    (datagramWith n h).length = 100 + n := by
  rw [datagramWith, datagram_eq rfl]
  simp [storingCodec, length_heartbeatWith h]
  omega

/-- Another peer of the same system, that has just started. -/
def receivingThread : TimedHeartbeatThread ℕ :=
  .initialized (settingsWith 1 (by decide)).toPZGHeartbeatSettings 0 0

/-- A heartbeat with few attributes is received, and two bytes are not. -/
theorem heartbeat_received_small :
    ReceivedBy storingCodec sumOfBytes (datagramWith 20 (by decide))
      { heartbeatWith 20 (by decide) with networkSendTimeMicros := 1000 } 3
      receivingThread ∧
    receiveDatagram storingCodec sumOfBytes receivingThread 5 [25, 26] 2000 =
      receivingThread := by
  have hiff := @heartbeat_received_iff ℕ _ storingCodec sumOfBytes
  refine ⟨(hiff.1 (settingsWith 20 (by decide)) 60 true 20
    [⟨⟨2, 2⟩, [⟨1, 7, 300⟩]⟩] (List.replicate 16 0) 3 1000 receivingThread rfl
    ?_ ?_).mpr ?_, ?_⟩
  · exact (length_heartbeatWith _).trans_lt (by decide)
  · exact (length_datagramWith _).trans_le (by decide)
  · exact ⟨by decide, by decide⟩
  · exact hiff.2 _ _ _ _ (Or.inl (by decide))

/-- The settings permit 4000 bytes of attributes.  The datagram has 4100
bytes, of which the receiver reads 2048. -/
theorem heartbeat_received_fails :
    (datagramWith 4000 (by decide)).length = 4100 ∧
    ¬ReceivedBy storingCodec sumOfBytes (datagramWith 4000 (by decide))
      { heartbeatWith 4000 (by decide) with networkSendTimeMicros := 1000 } 3
      receivingThread := by
  refine ⟨length_datagramWith _, fun h => ?_⟩
  obtain ⟨raw, hraw, hlen⟩ := length_of_parse h.parsed
  have hlong : 4082 ≤ raw.length :=
    (length_heartbeatWith (n := 4000) (by decide)).symm.trans_le hlen
  have hshort : raw.length ≤ 2030 := by
    simp only [storingCodec] at hraw
    split_ifs at hraw
    obtain rfl := Option.some.inj hraw
    simp only [List.length_drop, List.length_take, receiveBufferSize,
      hbHeaderSize]
    omega
  omega

end

end ZgChoir.HeartbeatWire
