import ZgChoir.Hashtable
import ZgChoir.HeartbeatSources
import ZgChoir.HeartbeatWire

/-!
# Round-trip times of heartbeats

The heartbeat thread measures how long a heartbeat takes to a peer and back.
It remembers when it has sent each of its last heartbeats.  A peer answers in
its own next heartbeat, with the ID of the heartbeat it has got and how long
it has kept it: the dwell time.  What is left of the time since the sending is
a round trip, and the average of the last ones is kept for each source.

This is a layer over the thread of `HeartbeatThread`: `thread` is the state of
that model, and every step here moves it as it moves there.  Clocks count on
in `ℕ` there; the round trips are computed in the 64 bits of the code.  The
average of an averager is a parameter: the code takes it with floating-point
numbers.
-/

namespace ZgChoir

open HeartbeatWire (PZGTimingInfo PZGHeartbeatPeerInfo)

/-- `MUSCLE_NO_LIMIT`: a dwell time that is not known. -/
def muscleNoLimit : UInt32 := 0xffffffff

/-- `MUSCLE_TIME_NEVER`. -/
def muscleTimeNever : UInt64 := 0xffffffffffffffff

/-! ### Averages -/

/-- `SaturatingUnsignedAdd`. -/
def saturatingUnsignedAdd (a b : UInt64) : UInt64 :=
  if a + b < a then 0xffffffffffffffff else a + b

/-- `ZGTimeAverager`, less the average that it caches. -/
structure ZGTimeAverager where
  measurements : List UInt64
  totalMicros : UInt64
  lastMeasurementTime : ℕ
  deriving DecidableEq

namespace ZGTimeAverager

/-- An averager without measurements. -/
def new : ZGTimeAverager := ⟨[], 0, 0⟩

/-- `RemoveOldMeasurement`, until fewer than `maxMeasurements` are left. -/
def removeOldMeasurements (maxMeasurements : ℕ) :
    List UInt64 → UInt64 → List UInt64 × UInt64
  | [], totalMicros => ([], totalMicros)
  | oldMeasurement :: measurements, totalMicros =>
      if maxMeasurements ≤ measurements.length + 1 then
        removeOldMeasurements maxMeasurements measurements
          (if oldMeasurement < totalMicros then totalMicros - oldMeasurement
            else 0)
      else (oldMeasurement :: measurements, totalMicros)

/-- `ZGTimeAverager::AddMeasurement`. -/
def addMeasurement (maxMeasurements : ℕ) (newMeasurementMicros : UInt64)
    (now : ℕ) (averager : ZGTimeAverager) : ZGTimeAverager :=
  let (measurements, totalMicros) := removeOldMeasurements maxMeasurements
    averager.measurements averager.totalMicros
  { measurements := measurements ++ [newMeasurementMicros]
    totalMicros := saturatingUnsignedAdd totalMicros newMeasurementMicros
    lastMeasurementTime := now }

end ZGTimeAverager

/-! ### The state -/

/-- What the thread keeps of a source for the measurements: of its last
packet, and the round trips to it on each of our multicast addresses. -/
structure SourceTiming (Addr : Type) where
  sourceTag : UInt16
  heartbeatPacketID : UInt32
  localReceiveTimeMicros : ℕ
  haveSentTimingReply : Bool
  rttAveragers : Hashtable Addr ZGTimeAverager

/-- The heartbeat thread with its measurements.  `mainThreadLatencies` is the
table that the main thread reads. -/
structure TimedHeartbeatThread (Addr : Type) where
  thread : PZGHeartbeatThreadState Addr
  timings : Hashtable (PZGHeartbeatSourceKey Addr) (SourceTiming Addr)
  mainThreadLatencies : AList fun _ : ZGPeerID => UInt64
  outgoingHeartbeatPacketIDCounter : UInt32
  recentlySentHeartbeatLocalSendTimes : Hashtable UInt32 UInt64
  heartbeatSourceTagCounter : UInt16
  heartbeatSourceTagToDest : Hashtable UInt16 Addr
  heartbeatSourceDestToTag : Hashtable Addr UInt16

/-- A packet as the heartbeat thread keeps it. -/
def HeartbeatWire.PZGHeartbeatPacket.withMetaData
    (p : HeartbeatWire.PZGHeartbeatPacket) :
    PZGHeartbeatPacketWithMetaData where
  heartbeatPacketID := p.heartbeatPacketID
  systemKey := p.systemKey
  tcpAcceptPort := p.tcpAcceptPort
  peerType := p.peerType
  sourcePeerID := p.sourcePeerID
  peerAttributesBuf := p.peerAttributesBuf
  versionCode := p.versionCode
  peerUptimeSeconds := p.peerUptimeSeconds
  isFullyAttached := p.isFullyAttached
  orderedPeersList := p.orderedPeersList.map (·.peerID)

namespace TimedHeartbeatThread

variable {Addr : Type}

/-- `PZGHeartbeatThreadState::Initialize`. -/
def initialized (hbSettings : PZGHeartbeatSettings) (startTime : ℕ)
    (outgoingHeartbeatPacketIDCounter : UInt32) : TimedHeartbeatThread Addr where
  thread := .initialized hbSettings startTime
  timings := .empty
  mainThreadLatencies := ∅
  outgoingHeartbeatPacketIDCounter
  recentlySentHeartbeatLocalSendTimes := .empty
  heartbeatSourceTagCounter := 0
  heartbeatSourceTagToDest := .empty
  heartbeatSourceDestToTag := .empty

variable [DecidableEq Addr]

/-! ### A round trip -/

/-- The timing entry that counts: in the first item about this peer, the first
entry whose tag is the one of a multicast address of ours. -/
def timingEntry (localPeerID : ZGPeerID)
    (heartbeatSourceTagToDest : Hashtable UInt16 Addr)
    (opq : List PZGHeartbeatPeerInfo) : Option (Addr × PZGTimingInfo) :=
  match opq.find? fun info => info.peerID == localPeerID with
  | some info => info.timings.findSome? fun ti =>
      (heartbeatSourceTagToDest.get? ti.sourceTag).map fun multicastIAP =>
        (multicastIAP, ti)
  | none => none

/-- The heartbeat of ours that a timing entry is about: when it was sent, if
the entry has a dwell time and the heartbeat is remembered. -/
def sendTimeOf (sendTimes : Hashtable UInt32 UInt64) (ti : PZGTimingInfo) :
    Option UInt64 :=
  if ti.dwellTimeMicros = muscleNoLimit then none
  else sendTimes.get? ti.heartbeatPacketID

/-- A round trip that `ReceiveMulticastTraffic` has measured. -/
structure Measurement (Addr : Type) where
  multicastAddr : Addr
  newMeasurementMicros : UInt64
  deriving DecidableEq

/-- `PZGHeartbeatSourceState::AddMeasurement`, for sources that keep the last
20 measurements. -/
def addMeasurement (m : Measurement Addr) (now : ℕ) (t : SourceTiming Addr) :
    SourceTiming Addr :=
  let rtt := (t.rttAveragers.get? m.multicastAddr).getD .new
  { t with
    rttAveragers := t.rttAveragers.put m.multicastAddr
      (rtt.addMeasurement 20 m.newMeasurementMicros now) }

/-! ### Sources that come and go -/

/-- The latencies after `ExpireSource`: a peer whose last source has gone is
forgotten. -/
def latenciesWithout (st : TimedHeartbeatThread Addr)
    (source : PZGHeartbeatSourceKey Addr) : AList fun _ : ZGPeerID => UInt64 :=
  match st.thread.onlineSources.lookup source with
  | some sourceInfo =>
      let pid := sourceInfo.hbPacket.sourcePeerID
      match st.thread.peerIDToIPAddresses.lookup pid with
      | some q =>
          if source.ipAddressAndPort ∈ q ∧
              (q.erase source.ipAddressAndPort).isEmpty then
            st.mainThreadLatencies.erase pid
          else st.mainThreadLatencies
      | none => st.mainThreadLatencies
  | none => st.mainThreadLatencies

/-- `ExpireSource`. -/
def expireSource (st : TimedHeartbeatThread Addr)
    (source : PZGHeartbeatSourceKey Addr) : TimedHeartbeatThread Addr :=
  { st with
    thread := st.thread.expireSource source
    timings := st.timings.remove source
    mainThreadLatencies := st.latenciesWithout source }

/-- The timing of a source after a packet: what was measured so far stays,
unless the source is another one now. -/
def timingAfter (st : TimedHeartbeatThread Addr)
    (source : PZGHeartbeatSourceKey Addr) (sourceTag : UInt16)
    (newHB : PZGHeartbeatPacketWithMetaData) (localReceiveTimeMicros : ℕ)
    (m : Option (Measurement Addr)) : SourceTiming Addr :=
  let new : SourceTiming Addr :=
    { sourceTag
      heartbeatPacketID := newHB.heartbeatPacketID
      localReceiveTimeMicros
      haveSentTimingReply := false
      rttAveragers := .empty }
  match st.thread.onlineSources.lookup source, st.timings.get? source with
  | some oldSource, some t =>
      if newHB.isEqualIgnoreTransients
          oldSource.hbPacket.toPZGHeartbeatPacket then
        let t := match m with
          | some m => addMeasurement m st.thread.now t
          | none => t
        { new with rttAveragers := t.rttAveragers }
      else new
  | _, _ => new

/-- The latencies after a packet: a source that is another one now has gone
offline in between. -/
def latenciesAfter (st : TimedHeartbeatThread Addr)
    (source : PZGHeartbeatSourceKey Addr)
    (newHB : PZGHeartbeatPacketWithMetaData) :
    AList fun _ : ZGPeerID => UInt64 :=
  match st.thread.onlineSources.lookup source with
  | some oldSource =>
      if newHB.isEqualIgnoreTransients
          oldSource.hbPacket.toPZGHeartbeatPacket then st.mainThreadLatencies
      else st.latenciesWithout source
  | none => st.mainThreadLatencies

/-- Whether `ReceiveMulticastTraffic` takes a packet at all. -/
def takes (st : TimedHeartbeatThread Addr)
    (newHB : HeartbeatWire.PZGHeartbeatPacket) : Bool :=
  newHB.versionCode == st.thread.hbSettings.versionCode &&
    newHB.systemKey == st.thread.hbSettings.systemKey

/-- The timing entry of a packet that is measured. -/
structure MeasuredEntry (Addr : Type) where
  multicastAddr : Addr
  timing : PZGTimingInfo
  packetLocalSendTime : UInt64
  deriving DecidableEq

/-- The entry of a packet from `sourceIAP` that is measured, if there is one:
the packet is taken, the entry is about a heartbeat that is remembered, and
the source is known already. -/
def measuredEntry (st : TimedHeartbeatThread Addr) (sourceIAP : Addr)
    (newHB : HeartbeatWire.PZGHeartbeatPacket) : Option (MeasuredEntry Addr) :=
  if st.takes newHB then
    match timingEntry st.thread.hbSettings.localPeerID
        st.heartbeatSourceTagToDest newHB.orderedPeersList with
    | some (multicastAddr, timing) =>
        match sendTimeOf st.recentlySentHeartbeatLocalSendTimes timing with
        | some packetLocalSendTime =>
            if (⟨sourceIAP, newHB.sourcePeerID⟩ : PZGHeartbeatSourceKey Addr) ∈
                st.thread.onlineSources then
              some ⟨multicastAddr, timing, packetLocalSendTime⟩
            else none
        | none => none
    | none => none
  else none

/-- The round trip of an entry: the time since the sending and the dwell time
together. -/
def MeasuredEntry.measurement (e : MeasuredEntry Addr)
    (localReceiveTimeMicros : UInt64) : Measurement Addr where
  multicastAddr := e.multicastAddr
  newMeasurementMicros := localReceiveTimeMicros -
    (e.packetLocalSendTime + e.timing.dwellTimeMicros.toUInt64)

/-- What `ReceiveMulticastTraffic` passes to `AddMeasurement` for a packet
from `sourceIAP`, if anything. -/
def measured (st : TimedHeartbeatThread Addr) (sourceIAP : Addr)
    (newHB : HeartbeatWire.PZGHeartbeatPacket)
    (localReceiveTimeMicros : UInt64) : Option (Measurement Addr) :=
  (st.measuredEntry sourceIAP newHB).map fun e =>
    e.measurement localReceiveTimeMicros

/-- `ReceiveMulticastTraffic`, for one packet. -/
def receiveMulticastTraffic (st : TimedHeartbeatThread Addr)
    (sourceIAP : Addr) (sourceTag : UInt16)
    (newHB : HeartbeatWire.PZGHeartbeatPacket) (localReceiveTimeMicros : ℕ) :
    TimedHeartbeatThread Addr :=
  let source : PZGHeartbeatSourceKey Addr := ⟨sourceIAP, newHB.sourcePeerID⟩
  let thread := st.thread.receiveMulticastTraffic sourceIAP newHB.withMetaData
    localReceiveTimeMicros
  if st.takes newHB then
    let m := st.measured sourceIAP newHB (.ofNat localReceiveTimeMicros)
    { st with
      thread
      timings := st.timings.put source (st.timingAfter source sourceTag
        newHB.withMetaData localReceiveTimeMicros m)
      mainThreadLatencies := st.latenciesAfter source newHB.withMetaData }
  else { st with thread }

/-! ### Sending -/

/-- How long a packet has been kept, as it is told to its sender. -/
def dwellTimeMicros (now localReceiveTimeMicros : UInt64) : UInt32 :=
  (min (now - localReceiveTimeMicros) 0xffffffff).toUInt32

/-- `GetPZGHeartbeatPeerInfoRefFor`: what a heartbeat says of a peer.  Each of
the peer's packets is answered once. -/
def peerInfoFor (st : TimedHeartbeatThread Addr) (peerID : ZGPeerID) :
    PZGHeartbeatPeerInfo × TimedHeartbeatThread Addr :=
  let sources := (st.thread.peerIDToIPAddresses.lookup peerID).getD []
  sources.foldl (fun (info, st) address =>
    let source : PZGHeartbeatSourceKey Addr := ⟨address, peerID⟩
    match st.timings.get? source with
    | some phb =>
        if phb.haveSentTimingReply then (info, st)
        else
          let dwell := dwellTimeMicros (.ofNat st.thread.now)
            (.ofNat phb.localReceiveTimeMicros)
          let ti := ⟨phb.sourceTag, phb.heartbeatPacketID, dwell⟩
          ({ info with timings := info.timings ++ [ti] },
            { st with
              timings :=
                st.timings.put source { phb with haveSentTimingReply := true } })
    | none => (info, st)) (⟨peerID, []⟩, st)

/-- The peers that a heartbeat lists: only a full peer that is half attached
lists any. -/
def outgoingPeersList [IPAddressAndPort Addr]
    (st : TimedHeartbeatThread Addr) :
    List PZGHeartbeatPeerInfo × TimedHeartbeatThread Addr :=
  if st.thread.hbSettings.peerType = peerTypeFullPeer ∧
      st.thread.halfAttachedTime ≤ st.thread.now then
    let (thread, pids) := st.thread.calculateOrderedPeersList
    pids.foldl (fun (infos, st) pid =>
      let (info, st) := st.peerInfoFor pid
      (infos ++ [info], st)) ([], { st with thread })
  else ([], st)

/-- A multicast address that is no longer sent to loses its tag, and the
measurements on it. -/
def removeTag (st : TimedHeartbeatThread Addr) (iap : Addr) (tag : UInt16) :
    TimedHeartbeatThread Addr :=
  { st with
    timings := st.timings.mapValues fun _ t =>
      { t with rttAveragers := t.rttAveragers.remove iap }
    heartbeatSourceDestToTag := st.heartbeatSourceDestToTag.remove iap
    heartbeatSourceTagToDest := st.heartbeatSourceTagToDest.remove tag }

/-- A multicast address that is sent to gets a tag, if it has none. -/
def addTag (st : TimedHeartbeatThread Addr) (iap : Addr) :
    TimedHeartbeatThread Addr :=
  if iap ∈ st.heartbeatSourceDestToTag.keys then st
  else
    let next := st.heartbeatSourceTagCounter + 1
    let nextTag := if next = 0 then 1 else next
    { st with
      heartbeatSourceTagCounter := nextTag
      heartbeatSourceTagToDest := st.heartbeatSourceTagToDest.put nextTag iap
      heartbeatSourceDestToTag := st.heartbeatSourceDestToTag.put iap nextTag }

/-- `EnsureHeartbeatSourceTagsTableUpdated`, for the addresses that are sent
to now. -/
def ensureHeartbeatSourceTagsTableUpdated (dests : List Addr)
    (st : TimedHeartbeatThread Addr) : TimedHeartbeatThread Addr :=
  let st := st.heartbeatSourceDestToTag.entries.foldl (fun st (iap, tag) =>
    if iap ∈ dests then st else st.removeTag iap tag) st
  dests.foldl addTag st

/-- The times of the last 100 heartbeats, with a new one. -/
def rememberSendTime (sendTimes : Hashtable UInt32 UInt64) (id : UInt32)
    (now : UInt64) : Hashtable UInt32 UInt64 :=
  let sendTimes := sendTimes.put id now
  match sendTimes.keys with
  | first :: _ =>
      if 100 < sendTimes.keys.length then sendTimes.remove first else sendTimes
  | [] => sendTimes

/-- `SendHeartbeatPackets`, to the multicast addresses `dests`. -/
def sendHeartbeatPackets [IPAddressAndPort Addr] (dests : List Addr)
    (st : TimedHeartbeatThread Addr) : TimedHeartbeatThread Addr :=
  if dests.isEmpty then st
  else
    let heartbeatPacketID := st.outgoingHeartbeatPacketIDCounter + 1
    let st := { st with outgoingHeartbeatPacketIDCounter := heartbeatPacketID }
    let st := st.outgoingPeersList.2.ensureHeartbeatSourceTagsTableUpdated dests
    { st with
      recentlySentHeartbeatLocalSendTimes :=
        rememberSendTime st.recentlySentHeartbeatLocalSendTimes
          heartbeatPacketID (.ofNat st.thread.now) }

/-! ### The loop of the thread -/

/-- `GetPreferredAverageValue(0)`: the average of the first averager. -/
def getPreferredAverageValue (average : ZGTimeAverager → UInt64)
    (t : SourceTiming Addr) : UInt64 :=
  match t.rttAveragers.entries with
  | (_, rtt) :: _ => average rtt
  | [] => 0

/-- The latency that the main thread sees of a peer. -/
def latencyOf (average : ZGTimeAverager → UInt64)
    (st : TimedHeartbeatThread Addr) (peerID : ZGPeerID) (q : List Addr) :
    UInt64 :=
  match q with
  | head :: _ =>
      match st.timings.get? ⟨head, peerID⟩ with
      | some t => getPreferredAverageValue average t
      | none => muscleTimeNever
  | [] => muscleTimeNever

/-- The latencies of all peers are put into the table of the main thread. -/
def updateLatencies (average : ZGTimeAverager → UInt64)
    (st : TimedHeartbeatThread Addr) : TimedHeartbeatThread Addr :=
  { st with
    mainThreadLatencies := st.thread.peerIDToIPAddresses.entries.foldl
      (fun latencies e => latencies.put e.1 (st.latencyOf average e.1 e.2))
      st.mainThreadLatencies }

/-- The part of `Pulse` that sends heartbeats. -/
def pulseSend [IPAddressAndPort Addr] (average : ZGTimeAverager → UInt64)
    (dests : List Addr) (st : TimedHeartbeatThread Addr) :
    TimedHeartbeatThread Addr :=
  if st.thread.nextSendHeartbeatTime ≤ st.thread.now then
    let st := { st with
      thread := { st.thread with
        nextSendHeartbeatTime :=
          st.thread.now + st.thread.heartbeatPingInterval } }
    (st.sendHeartbeatPackets dests).updateLatencies average
  else st

/-- The part of `Pulse` that expires sources. -/
def pulseExpire (st : TimedHeartbeatThread Addr) : TimedHeartbeatThread Addr :=
  st.thread.onlineSources.entries.foldl (fun st source =>
    if source.2.localExpirationTimeMicros ≤ (st.thread.now : WithTop ℕ) then
      st.expireSource source.1
    else st) st

/-- `Pulse`. -/
def pulse [IPAddressAndPort Addr] (average : ZGTimeAverager → UInt64)
    (dests : List Addr) (st : TimedHeartbeatThread Addr) :
    TimedHeartbeatThread Addr :=
  let thread := { st.thread.pulseOfficialPeersList.1 with
    updateToNetworkTimeOffsetPending := false }
  let st := (pulseSend average dests { st with thread }).pulseExpire
  { st with thread := st.thread.pulseAttach }

/-- What can happen: the thread wakes up after some time and may send to the
multicast addresses `dests`, or a packet arrives. -/
inductive Event (Addr : Type) where
  | awoke (elapsedMicros : ℕ) (dests : List Addr)
  | received (sourceIAP : Addr) (sourceTag : UInt16)
      (newHB : HeartbeatWire.PZGHeartbeatPacket) (localReceiveTimeMicros : ℕ)

/-- A turn of `InternalThreadEntry`. -/
def wake [IPAddressAndPort Addr] (average : ZGTimeAverager → UInt64)
    (st : TimedHeartbeatThread Addr) (elapsedMicros : ℕ) (dests : List Addr) :
    TimedHeartbeatThread Addr :=
  let st' := { st with
    thread := { st.thread with now := st.thread.now + elapsedMicros } }
  if st.thread.getPulseTime ≤ (st'.thread.now : WithTop ℕ) then
    st'.pulse average dests
  else st'

/-- The thread after an event. -/
def step [IPAddressAndPort Addr] (average : ZGTimeAverager → UInt64)
    (st : TimedHeartbeatThread Addr) : Event Addr → TimedHeartbeatThread Addr
  | .awoke elapsedMicros dests => st.wake average elapsedMicros dests
  | .received sourceIAP sourceTag newHB localReceiveTimeMicros =>
      st.receiveMulticastTraffic sourceIAP sourceTag newHB
        localReceiveTimeMicros

end TimedHeartbeatThread

end ZgChoir
