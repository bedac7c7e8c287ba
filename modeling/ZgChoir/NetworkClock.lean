import ZgChoir.HeartbeatTables
import ZgChoir.TimeAverages

/-!
# The network clock

Every peer has a clock of its own, and an offset that it adds to it: the
senior's clock is the network's.  A heartbeat says what the network clock was
when it was written.  A junior takes the time that the senior's last heartbeat
tells of for the time half a round trip before it came in, and the difference
is its offset.

This is a layer over the thread of `HeartbeatTiming`, with the heartbeats that
it sends; `ClockSystem` has a thread for each peer and all the heartbeats that
are on their way, each of which may come in late, more than once, or never.
The clocks run at the same rate.  How a table of MUSCLE's is iterated while
its entries are moved is left open.
-/

namespace ZgChoir

/-! ### Offsets -/

/-- `INVALID_TIME_OFFSET`. -/
def invalidTimeOffset : Int64 := Int64.maxValue

/-- `GetNetworkTime64ForRunTime64`. -/
def getNetworkTime64ForRunTime64 (toNetworkTimeOffset : Int64)
    (runTime64TimeStamp : UInt64) : UInt64 :=
  if toNetworkTimeOffset = invalidTimeOffset ∨
      runTime64TimeStamp = muscleTimeNever then muscleTimeNever
  else runTime64TimeStamp + toNetworkTimeOffset.toUInt64

/-- `GetRunTime64ForNetworkTime64`. -/
def getRunTime64ForNetworkTime64 (toNetworkTimeOffset : Int64)
    (networkTime64TimeStamp : UInt64) : UInt64 :=
  if toNetworkTimeOffset = invalidTimeOffset ∨
      networkTime64TimeStamp = muscleTimeNever then muscleTimeNever
  else networkTime64TimeStamp - toNetworkTimeOffset.toUInt64

/-- A network time that is known is turned back into the run time. -/
theorem getRunTime64_getNetworkTime64 {toNetworkTimeOffset : Int64}
    {runTime64TimeStamp : UInt64}
    (h : getNetworkTime64ForRunTime64 toNetworkTimeOffset runTime64TimeStamp ≠
      muscleTimeNever) :
    getRunTime64ForNetworkTime64 toNetworkTimeOffset
      (getNetworkTime64ForRunTime64 toNetworkTimeOffset runTime64TimeStamp) =
        runTime64TimeStamp := by
  unfold getNetworkTime64ForRunTime64 at h ⊢
  split at h
  · exact absurd rfl h
  · next hknown =>
      rw [if_neg hknown, getRunTime64ForNetworkTime64,
        if_neg (not_or.mpr ⟨(not_or.mp hknown).1, h⟩)]
      apply UInt64.add_sub_cancel

theorem toNat_ofNat_runTime {n : ℕ} (h : n < 2 ^ 62) :
    (UInt64.ofNat n).toNat = n := by
  have hsize : UInt64.size = 2 ^ 64 := rfl
  exact UInt64.toNat_ofNat_of_lt' (by omega)

/-- What the network time is, with an offset that is known. -/
theorem getNetworkTime64_of_known {toNetworkTimeOffset : Int64} {n : ℕ}
    (hvalid : toNetworkTimeOffset ≠ invalidTimeOffset) (h : n < 2 ^ 62) :
    getNetworkTime64ForRunTime64 toNetworkTimeOffset (.ofNat n) =
      .ofNat n + toNetworkTimeOffset.toUInt64 := by
  have hnever : UInt64.ofNat n ≠ muscleTimeNever := by
    intro heq
    have hmax : muscleTimeNever.toNat = 2 ^ 64 - 1 := rfl
    have hn := toNat_ofNat_runTime h
    rw [heq, hmax] at hn
    omega
  rw [getNetworkTime64ForRunTime64, if_neg (not_or.mpr ⟨hvalid, hnever⟩)]

/-- **One sample puts an offset right.**  On a clock that is `a` ahead, a
network time that has been told at `r` is taken for that of half a round trip
before, and goes on from there. -/
theorem toNat_networkTime_of_sample {told half : UInt64} {a r t : ℕ}
    (htold : told.toNat + half.toNat < 2 ^ 63 - 1) (ha : a < 2 ^ 61)
    (hr : r ≤ t) (ht : t < 2 ^ 61) :
    (getNetworkTime64ForRunTime64
      (told - (UInt64.ofNat (r + a) - half)).toInt64 (.ofNat (t + a))).toNat =
      t + told.toNat + half.toNat - r := by
  have hreceived := toNat_ofNat_runTime (show r + a < 2 ^ 62 by omega)
  have hclock := toNat_ofNat_runTime (show t + a < 2 ^ 62 by omega)
  have hvalue : (told - (UInt64.ofNat (r + a) - half)).toNat =
      (2 ^ 64 - (r + a) + told.toNat + half.toNat) % 2 ^ 64 := by
    have hmod := told.toNat_lt
    rw [UInt64.toNat_sub, UInt64.toNat_sub, hreceived]
    omega
  have hvalid : (told - (UInt64.ofNat (r + a) - half)).toInt64 ≠
      invalidTimeOffset := by
    intro heq
    have hback := congrArg Int64.toUInt64 heq
    have hinvalid : invalidTimeOffset.toUInt64.toNat = 2 ^ 63 - 1 := by decide
    rw [UInt64.toUInt64_toInt64] at hback
    rw [hback, hinvalid] at hvalue
    omega
  rw [getNetworkTime64_of_known hvalid (by omega), UInt64.toUInt64_toInt64,
    UInt64.toNat_add, hvalue, hclock]
  omega

/-! ### What does not change -/

/-- The clocks and the settings of the peers.  `movedToBack` is a table of
averagers after those before one of them have been moved to the back. -/
structure ClockEnvironment (Addr : Type) where
  clockAhead : ZGPeerID → ℕ
  clockAhead_lt : ∀ p, clockAhead p < 2 ^ 61
  hbSettings : ZGPeerID → PZGHeartbeatSettings
  localPeerID_hbSettings : ∀ p, (hbSettings p).localPeerID = p
  dataTCPPort : ZGPeerID → UInt16
  peerAttributesByteBuffer : ZGPeerID → Option (List UInt8)
  firstPacketID : ZGPeerID → UInt32
  movedToBack : Addr → Hashtable Addr ZGTimeAverager →
    Hashtable Addr ZGTimeAverager
  perm_movedToBack : ∀ a t, (movedToBack a t).entries.Perm t.entries

/-- What a peer's clock says. -/
def ClockEnvironment.clock {Addr : Type} (env : ClockEnvironment Addr)
    (p : ZGPeerID) (time : ℕ) : ℕ :=
  time + env.clockAhead p

/-! ### One peer -/

/-- The heartbeat thread with its network clock.  `networkSendTimes` is what
the last packet of each source says. -/
structure SyncedThread (Addr : Type) where
  timed : TimedHeartbeatThread Addr
  heartbeatThreadStateBirthdate : ℕ
  networkSendTimes : Hashtable (PZGHeartbeatSourceKey Addr) UInt64
  toNetworkTimeOffset : Int64

namespace SyncedThread

variable {Addr : Type}

/-- `PZGHeartbeatThreadState::Initialize`. -/
def initialized (env : ClockEnvironment Addr) (p : ZGPeerID)
    (startTime : ℕ) : SyncedThread Addr where
  timed := .initialized (env.hbSettings p) startTime (env.firstPacketID p)
  heartbeatThreadStateBirthdate := startTime
  networkSendTimes := .empty
  toNetworkTimeOffset := invalidTimeOffset

variable [DecidableEq Addr] (env : ClockEnvironment Addr)

/-- `PZGHeartbeatSourceState::GetPreferredAverageValue`. -/
def getPreferredAverageValue (mustHaveMeasurementsAfterThisTime : UInt64)
    (t : SourceTiming Addr) : UInt64 × SourceTiming Addr :=
  match t.rttAveragers.entries.find? fun e => decide
    (mustHaveMeasurementsAfterThisTime ≤ .ofNat e.2.lastMeasurementTime) with
  | some (a, rtt) =>
      (rtt.getAverageValueIgnoringOutliersAux,
        if t.rttAveragers.keys.head? = some a then t
        else { t with rttAveragers := env.movedToBack a t.rttAveragers })
  | none => (0, t)

/-- The last heartbeat of the senior, from the first of its addresses: the
source, its timing and what the heartbeat says of the network clock. -/
def seniorHeartbeat (official : PZGHeartbeatThreadState Addr)
    (st : SyncedThread Addr) :
    Option (PZGHeartbeatSourceKey Addr × SourceTiming Addr × UInt64) :=
  match official.peerIDToIPAddresses.lookup official.getSeniorPeerID with
  | some (head :: _) =>
      let source : PZGHeartbeatSourceKey Addr :=
        ⟨head, official.getSeniorPeerID⟩
      match st.timed.timings.get? source, st.networkSendTimes.get? source with
      | some t, some seniorNetTime => some (source, t, seniorNetTime)
      | _, _ => none
  | _ => none

/-- `UpdateToNetworkTimeOffset`, once the list is `official`. -/
def updateToNetworkTimeOffset (official : PZGHeartbeatThreadState Addr)
    (st : SyncedThread Addr) : SyncedThread Addr :=
  if official.halfAttachedTime ≤ official.now then
    if official.getSeniorPeerID = official.hbSettings.localPeerID then
      { st with toNetworkTimeOffset := 0 }
    else
      match st.seniorHeartbeat official with
      | some (source, t, seniorNetTime) =>
          let preferred := getPreferredAverageValue env
            (.ofNat official.now -
              .ofNat official.heartbeatExpirationTimeMicros) t
          let localRecvTime : UInt64 := .ofNat t.localReceiveTimeMicros
          { st with
            timed := { st.timed with
              timings := st.timed.timings.put source preferred.2 }
            toNetworkTimeOffset := (seniorNetTime -
              (localRecvTime - preferred.1 / 2)).toInt64 }
      | none => st
  else st

/-- Whether `Pulse` comes to `UpdateToNetworkTimeOffset`. -/
def updatesOffset (st : SyncedThread Addr) : Bool :=
  st.timed.thread.updateOfficialPeersListPending ||
    st.timed.thread.updateToNetworkTimeOffsetPending

/-- The first part of `Pulse`. -/
def pulseOffset [IPAddressAndPort Addr] (st : SyncedThread Addr) :
    SyncedThread Addr :=
  if st.updatesOffset then
    st.updateToNetworkTimeOffset env st.timed.thread.pulseOfficialPeersList.1
  else st

/-- The state in which `Pulse` comes to `SendHeartbeatPackets`. -/
def beforeSending [IPAddressAndPort Addr] (timed : TimedHeartbeatThread Addr) :
    TimedHeartbeatThread Addr :=
  let official := timed.thread.pulseOfficialPeersList.1
  { timed with
    thread := { official with
      updateToNetworkTimeOffsetPending := false
      nextSendHeartbeatTime := official.now + official.heartbeatPingInterval }
    outgoingHeartbeatPacketIDCounter :=
      timed.outgoingHeartbeatPacketIDCounter + 1 }

/-- The packet of `SendHeartbeatPackets`, without its network time. -/
def heartbeatPacket [IPAddressAndPort Addr] (p : ZGPeerID)
    (st : SyncedThread Addr) : HeartbeatWire.PZGHeartbeatPacket :=
  let sending := beforeSending st.timed
  let hbSettings := sending.thread.hbSettings
  { heartbeatPacketID := sending.outgoingHeartbeatPacketIDCounter
    versionCode := hbSettings.versionCode
    systemKey := hbSettings.systemKey
    networkSendTimeMicros := 0
    tcpAcceptPort := env.dataTCPPort p
    peerType := hbSettings.peerType
    peerUptimeSeconds := .ofNat
      ((sending.thread.now - st.heartbeatThreadStateBirthdate) / 1000000)
    sourcePeerID := hbSettings.localPeerID
    orderedPeersList := sending.outgoingPeersList.1
    isFullyAttached := sending.thread.isFullyAttached
    peerAttributesBuf := env.peerAttributesByteBuffer p }

/-- Whether `Pulse` sends heartbeats to `dests`. -/
def sends (dests : List Addr) (st : SyncedThread Addr) : Bool :=
  decide (st.timed.thread.nextSendHeartbeatTime ≤ st.timed.thread.now) &&
    !dests.isEmpty

/-- `Pulse`, and the packet that it sends. -/
def pulse [IPAddressAndPort Addr] (p : ZGPeerID) (dests : List Addr)
    (st : SyncedThread Addr) :
    SyncedThread Addr × Option HeartbeatWire.PZGHeartbeatPacket :=
  let st := st.pulseOffset env
  ({ st with
      timed := st.timed.pulse
        ZGTimeAverager.getAverageValueIgnoringOutliersAux dests },
    if st.sends dests then some (st.heartbeatPacket env p) else none)

omit [DecidableEq Addr] env in
/-- The thread once it has read its clock. -/
def withNow (now : ℕ) (st : SyncedThread Addr) : SyncedThread Addr :=
  { st with timed := { st.timed with thread := { st.timed.thread with now } } }

/-- A turn of `InternalThreadEntry`. -/
def wake [IPAddressAndPort Addr] (p : ZGPeerID) (elapsedMicros : ℕ)
    (dests : List Addr) (st : SyncedThread Addr) :
    SyncedThread Addr × Option HeartbeatWire.PZGHeartbeatPacket :=
  let pulseTime := st.timed.thread.getPulseTime
  let st := st.withNow (st.timed.thread.now + elapsedMicros)
  if pulseTime ≤ (st.timed.thread.now : WithTop ℕ) then st.pulse env p dests
  else (st, none)

omit env in
/-- `ReceiveMulticastTraffic`, for one packet. -/
def receiveMulticastTraffic (sourceIAP : Addr) (sourceTag : UInt16)
    (newHB : HeartbeatWire.PZGHeartbeatPacket) (localReceiveTimeMicros : ℕ)
    (st : SyncedThread Addr) : SyncedThread Addr :=
  { st with
    timed := st.timed.receiveMulticastTraffic sourceIAP sourceTag newHB
      localReceiveTimeMicros
    networkSendTimes :=
      if st.timed.takes newHB then
        st.networkSendTimes.put ⟨sourceIAP, newHB.sourcePeerID⟩
          newHB.networkSendTimeMicros
      else st.networkSendTimes }

end SyncedThread

/-! ### All the peers -/

/-- A heartbeat that has been sent: by whom, with which offset, when its
sender woke up for it and when it was written. -/
structure SentHeartbeat where
  sender : ZGPeerID
  offset : Int64
  wokeAt : ℕ
  writtenAt : ℕ
  sourceTag : UInt16
  packet : HeartbeatWire.PZGHeartbeatPacket

/-- The peers that are running, and all the heartbeats that have been sent. -/
structure ClockSystem (Addr : Type) where
  time : ℕ
  peers : ZGPeerID → Option (SyncedThread Addr)
  sent : List SentHeartbeat

namespace ClockSystem

variable {Addr : Type} [DecidableEq Addr] [IPAddressAndPort Addr]
  (env : ClockEnvironment Addr)

/-- No peer is running yet. -/
def initial : ClockSystem Addr := ⟨0, fun _ => none, []⟩

/-- Time passes; a peer starts; the thread of one takes a turn, and would
write to each address after some time; a heartbeat comes in. -/
inductive Event (Addr : Type) where
  | timePasses (micros : ℕ)
  | starts (p : ZGPeerID)
  | awakes (p : ZGPeerID) (dests : List (Addr × ℕ))
  | receives (p : ZGPeerID) (sourceIAP : Addr) (k : ℕ)

/-- The thread of `p` after its turn, with the packet that it sends. -/
def awoken (s : ClockSystem Addr) (p : ZGPeerID) (dests : List Addr)
    (st : SyncedThread Addr) :
    SyncedThread Addr × Option HeartbeatWire.PZGHeartbeatPacket :=
  st.wake env p (env.clock p s.time - st.timed.thread.now) dests

omit [IPAddressAndPort Addr] in
/-- The packet as it is written to each address that has a tag. -/
def written (s : ClockSystem Addr) (p : ZGPeerID) (dests : List (Addr × ℕ))
    (st : SyncedThread Addr) (packet : HeartbeatWire.PZGHeartbeatPacket) :
    List SentHeartbeat :=
  dests.filterMap fun dest =>
    (st.timed.heartbeatSourceDestToTag.get? dest.1).map fun sourceTag =>
      { sender := p
        offset := st.toNetworkTimeOffset
        wokeAt := s.time
        writtenAt := s.time + dest.2
        sourceTag
        packet := { packet with
          networkSendTimeMicros := getNetworkTime64ForRunTime64
            st.toNetworkTimeOffset (.ofNat (env.clock p (s.time + dest.2))) } }

/-- The heartbeats that `p` writes in its turn. -/
def newHeartbeats (s : ClockSystem Addr) (p : ZGPeerID)
    (dests : List (Addr × ℕ)) (st : SyncedThread Addr) : List SentHeartbeat :=
  let r := s.awoken env p (dests.map Prod.fst) st
  r.2.toList.flatMap (s.written env p dests r.1)

/-- The system after an event. -/
def step (s : ClockSystem Addr) : Event Addr → ClockSystem Addr
  | .timePasses micros => { s with time := s.time + micros }
  | .starts p =>
      match s.peers p with
      | some _ => s
      | none =>
          { s with
            peers := Function.update s.peers p
              (some (.initialized env p (env.clock p s.time))) }
  | .awakes p dests =>
      match s.peers p with
      | some st =>
          { s with
            peers := Function.update s.peers p
              (some (s.awoken env p (dests.map Prod.fst) st).1)
            sent := s.sent ++ s.newHeartbeats env p dests st }
      | none => s
  | .receives p sourceIAP k =>
      match s.peers p, s.sent[k]? with
      | some st, some hb =>
          { s with
            peers := Function.update s.peers p
              (some (st.receiveMulticastTraffic sourceIAP hb.sourceTag
                hb.packet (env.clock p s.time))) }
      | _, _ => s

end ClockSystem

end ZgChoir
