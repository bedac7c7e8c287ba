import ZgChoir.ByteFormat
import ZgChoir.DatabaseUpdate

/-!
# Heartbeats on the wire

A heartbeat packet names the peer that sends it and lists the peers that it
knows, each with the timing information that is owed to it.  Its format has
three variable parts: the list of the peers, the timing entries of each, and
the attributes of the sender, which come last.  The counts are words of 16
and of 32 bits, and the highest bit of the peer type tells whether the sender
is fully attached.

Two words of the format are reserved: they are written as zero and skipped
when they are read, so `FlattenedAs` leaves them open.  `parses_unflatten`
says what is accepted, and everything else follows from it.
-/

namespace ZgChoir.HeartbeatWire

open ByteFormat

/-- A zlib codec. -/
structure ZLibCodec where
  deflate : List UInt8 → List UInt8
  inflate : List UInt8 → Option (List UInt8)
  inflate_deflate : ∀ bytes, inflate (deflate bytes) = some bytes

/-! ### The parts of a packet -/

/-- `PZGTimingInfo`: when the sender got a heartbeat of a peer, and how long
it has kept it before it sent its own. -/
structure PZGTimingInfo where
  sourceTag : UInt16
  heartbeatPacketID : UInt32
  dwellTimeMicros : UInt32
  deriving DecidableEq

/-- `PZGHeartbeatPeerInfo`: a peer that the sender knows. -/
structure PZGHeartbeatPeerInfo where
  peerID : ZGPeerID
  timings : List PZGTimingInfo
  deriving DecidableEq

/-- `PZGHeartbeatPacket`. -/
structure PZGHeartbeatPacket where
  heartbeatPacketID : UInt32
  versionCode : UInt32
  systemKey : UInt64
  networkSendTimeMicros : UInt64
  tcpAcceptPort : UInt16
  peerType : UInt16
  peerUptimeSeconds : UInt32
  sourcePeerID : ZGPeerID
  orderedPeersList : List PZGHeartbeatPeerInfo
  isFullyAttached : Bool
  peerAttributesBuf : Option (List UInt8)
  deriving DecidableEq

/-- `PZG_HEARTBEAT_PACKET_TYPE_CODE`. -/
def pzgHeartbeatPacketTypeCode : UInt32 := 2053597282

/-! ### Flattening -/

/-- `ZGPeerID::Flatten`. -/
def flattenPeerID (id : ZGPeerID) : List UInt8 :=
  wordBytes id.highBits ++ wordBytes id.lowBits

namespace PZGTimingInfo

/-- `PZGTimingInfo::FlattenedSize`. -/
def flattenedSize : UInt32 := 2 + 2 + 4 + 4

/-- `PZGTimingInfo::Flatten`. -/
def flatten (t : PZGTimingInfo) : List UInt8 :=
  wordBytes t.sourceTag ++ wordBytes (0 : UInt16) ++
  wordBytes t.heartbeatPacketID ++ wordBytes t.dwellTimeMicros

/-- `PZGTimingInfo::Unflatten`. -/
def unflatten : Unflattening PZGTimingInfo := do
  let sourceTag ← readWord UInt16
  let _ ← readWord UInt16
  let heartbeatPacketID ← readWord UInt32
  let dwellTimeMicros ← readWord UInt32
  checkStatus
  return { sourceTag, heartbeatPacketID, dwellTimeMicros }

end PZGTimingInfo

namespace PZGHeartbeatPeerInfo

/-- `PZGHeartbeatPeerInfo::FlattenedSize`. -/
def flattenedSize (pi : PZGHeartbeatPeerInfo) : UInt32 :=
  16 + 4 + UInt32.ofNat pi.timings.length * PZGTimingInfo.flattenedSize

/-- `PZGHeartbeatPeerInfo::Flatten`. -/
def flatten (pi : PZGHeartbeatPeerInfo) : List UInt8 :=
  flattenPeerID pi.peerID ++ wordBytes (UInt32.ofNat pi.timings.length) ++
  pi.timings.flatMap PZGTimingInfo.flatten

end PZGHeartbeatPeerInfo

/-- `ZGPeerID::Unflatten`. -/
def unflattenPeerID : Unflattening ZGPeerID := do
  let highBits ← readWord UInt64
  let lowBits ← readWord UInt64
  checkStatus
  return { highBits, lowBits }

/-- `SaturatingUnsignedMultiply`, for 32 bits. -/
def saturatingUnsignedMultiply (a b : UInt32) : ℕ :=
  min (a.toNat * b.toNat) (2 ^ 32 - 1)

/-- `PZGHeartbeatPeerInfo::Unflatten`. -/
def PZGHeartbeatPeerInfo.unflatten : Unflattening PZGHeartbeatPeerInfo := do
  let peerID ← unflattenPeerID
  let numTimings ← readWord UInt32
  if (← numBytesAvailable) <
      saturatingUnsignedMultiply numTimings PZGTimingInfo.flattenedSize then
    giveUp
  else do
    let timings ← readMany PZGTimingInfo.unflatten numTimings.toNat
    checkStatus
    return { peerID, timings }

namespace PZGHeartbeatPacket

/-- `FlattenedSizeNotIncludingVariableLengthData`. -/
def flattenedSizeNotIncludingVariableLengthData : UInt32 :=
  4 + 4 + 4 + 8 + 2 + 4 + 16 + 2 + 2 + 2 + 2

/-- `PZGHeartbeatPacket::FlattenedSize`. -/
def flattenedSize (p : PZGHeartbeatPacket) : UInt32 :=
  let ret := p.orderedPeersList.foldl (fun ret pi => ret + pi.flattenedSize)
    flattenedSizeNotIncludingVariableLengthData
  match p.peerAttributesBuf with
  | some buf => ret + UInt32.ofNat buf.length
  | none => ret

/-- The peer type and, in its highest bit, whether the peer is fully
attached. -/
def peerTypeBits (p : PZGHeartbeatPacket) : UInt16 :=
  p.peerType ||| (if p.isFullyAttached then 0x8000 else 0)

/-- `PZGHeartbeatPacket::Flatten`. -/
def flatten (p : PZGHeartbeatPacket) : List UInt8 :=
  let opListItemCount := p.orderedPeersList.length
  let attribBufSize := (p.peerAttributesBuf.getD []).length
  wordBytes pzgHeartbeatPacketTypeCode ++ wordBytes p.heartbeatPacketID ++
  wordBytes p.versionCode ++ wordBytes p.systemKey ++
  wordBytes p.tcpAcceptPort ++ wordBytes p.peerUptimeSeconds ++
  flattenPeerID p.sourcePeerID ++ wordBytes p.peerTypeBits ++
  wordBytes (UInt16.ofNat opListItemCount) ++
  wordBytes (UInt16.ofNat attribBufSize) ++ wordBytes (0 : UInt16) ++
  p.orderedPeersList.flatMap PZGHeartbeatPeerInfo.flatten ++
  p.peerAttributesBuf.getD []

/-- The last part of `Unflatten`: the attributes, if there are any. -/
def unflattenAttributes (attribBufSize : UInt16) :
    Unflattening (Option (List UInt8)) :=
  if attribBufSize = 0 then return none
  else do
    if (← numBytesAvailable) < attribBufSize.toNat then giveUp
    else do
      let buf ← readBytes attribBufSize.toNat
      checkStatus
      return some buf

/-- The second half of `Unflatten`: what comes after the words of a packet. -/
def unflattenVariableLengthData (p : PZGHeartbeatPacket)
    (opListItemCount attribBufSize : UInt16) :
    Unflattening PZGHeartbeatPacket := do
  let orderedPeersList ←
    readMany PZGHeartbeatPeerInfo.unflatten opListItemCount.toNat
  let peerAttributesBuf ← unflattenAttributes attribBufSize
  checkStatus
  return { p with orderedPeersList, peerAttributesBuf }

/-- The words of a packet that come after its type code. -/
def unflattenWords : Unflattening PZGHeartbeatPacket := do
  let heartbeatPacketID ← readWord UInt32
  let versionCode ← readWord UInt32
  let systemKey ← readWord UInt64
  let tcpAcceptPort ← readWord UInt16
  let peerUptimeSeconds ← readWord UInt32
  let sourcePeerID ← unflattenPeerID
  let bits ← readWord UInt16
  return {
    heartbeatPacketID, versionCode, systemKey, tcpAcceptPort
    peerUptimeSeconds, sourcePeerID
    networkSendTimeMicros := 0
    peerType := bits &&& ~~~0x8000
    isFullyAttached := bits &&& 0x8000 != 0
    orderedPeersList := []
    peerAttributesBuf := none }

/-- `PZGHeartbeatPacket::Unflatten`. -/
def unflatten : Unflattening PZGHeartbeatPacket := do
  if (← numBytesAvailable) <
      flattenedSizeNotIncludingVariableLengthData.toNat then giveUp
  else do
    let typeCode ← readWord UInt32
    if typeCode ≠ pzgHeartbeatPacketTypeCode then giveUp
    else do
      let p ← unflattenWords
      let opListItemCount ← readWord UInt16
      let attribBufSize ← readWord UInt16
      let _ ← readWord UInt16
      unflattenVariableLengthData p opListItemCount attribBufSize

end PZGHeartbeatPacket

end ZgChoir.HeartbeatWire
