import ZgChoir.HeartbeatSession

/-!
# The heartbeat thread

Every peer sends heartbeats and listens for those of the others.  A
`PZGHeartbeatThreadState` remembers the last heartbeat from each source (an
address and a peer), until nothing has been heard from the source for too
long, and keeps the official list of the peers in the order of their
seniority: the order that the kingmaker advertises, if there is one, else an
order of its own.  When the list has changed, it goes to the main thread.

A turn of the thread's loop is an event, and so is a heartbeat that arrives.
Clocks count in microseconds and never run over.  Round-trip measurements,
the network clock and the datagrams themselves are left out; so is
`officialPeersList` in the source, which remembers the list that was computed
last.
-/

namespace ZgChoir

/-! ### The order of the IDs -/

instance : LinearOrder ZGPeerID :=
  LinearOrder.lift' (fun p => toLex (p.highBits.toNat, p.lowBits.toNat)) (by
    rintro ⟨high, low⟩ ⟨high', low'⟩ h
    have hbits : high.toNat = high'.toNat ∧ low.toNat = low'.toNat := by
      simpa using h
    rw [UInt64.toNat_inj.mp hbits.1, UInt64.toNat_inj.mp hbits.2])

/-- `ZGPeerID::operator <`. -/
theorem ZGPeerID.lt_iff {p q : ZGPeerID} : p < q ↔
    p.highBits < q.highBits ∨
      (p.highBits = q.highBits ∧ p.lowBits < q.lowBits) := by
  rw [UInt64.lt_iff_toNat_lt, UInt64.lt_iff_toNat_lt, ← UInt64.toNat_inj]
  exact Prod.Lex.toLex_lt_toLex

/-- MUSCLE's `muscleCompare`. -/
def muscleCompare {α : Type} [LT α] [DecidableLT α] (arg1 arg2 : α) : ℤ :=
  if arg1 < arg2 then -1 else if arg2 < arg1 then 1 else 0

/-! ### Packets and sources -/

/-- `PEER_TYPE_JUNIOR_ONLY`: a peer that does not want to be the senior. -/
def peerTypeJuniorOnly : UInt16 := 1

/-- A heartbeat packet as the heartbeat thread keeps it.  Of the ordered
peers list only the IDs are kept, not the timing information. -/
structure PZGHeartbeatPacketWithMetaData extends PZGHeartbeatPacket where
  versionCode : UInt32
  peerUptimeSeconds : UInt32
  isFullyAttached : Bool
  orderedPeersList : List ZGPeerID
  deriving DecidableEq

/-- What is asked of MUSCLE's `IPAddressAndPort`. -/
class IPAddressAndPort (Addr : Type) where
  isValid : Addr → Bool

/-- A source of heartbeats. -/
structure PZGHeartbeatSourceKey (Addr : Type) where
  ipAddressAndPort : Addr
  peerID : ZGPeerID
  deriving DecidableEq

/-- `PZGHeartbeatSourceKey::IsValid`. -/
def PZGHeartbeatSourceKey.isValid {Addr : Type} [IPAddressAndPort Addr]
    (key : PZGHeartbeatSourceKey Addr) : Bool :=
  IPAddressAndPort.isValid key.ipAddressAndPort && key.peerID.isValid

/-- What is known of a source: its last packet, and when it is taken to be
offline.  The peer itself never is. -/
structure PZGHeartbeatSourceState where
  hbPacket : PZGHeartbeatPacketWithMetaData
  localExpirationTimeMicros : WithTop ℕ
  deriving DecidableEq

/-- What the thread reads of its settings. -/
structure PZGHeartbeatSettings where
  localPeerID : ZGPeerID
  systemKey : UInt64
  versionCode : UInt32
  peerType : UInt16
  heartbeatsPerSecond : ℕ
  maxNumMissingHeartbeats : ℕ
  heartbeatsBeforeFullyAttached : ℕ

/-- The state of the heartbeat thread.  The tables are iterated in the order
of their keys. -/
structure PZGHeartbeatThreadState (Addr : Type) where
  hbSettings : PZGHeartbeatSettings
  heartbeatPingInterval : ℕ
  heartbeatExpirationTimeMicros : ℕ
  nextSendHeartbeatTime : ℕ
  now : ℕ
  halfAttachedTime : ℕ
  fullyAttachedTime : ℕ
  fullAttachmentReported : Bool
  updateToNetworkTimeOffsetPending : Bool
  onlineSources :
    AList fun _ : PZGHeartbeatSourceKey Addr => PZGHeartbeatSourceState
  peerIDToIPAddresses : AList fun _ : ZGPeerID => List Addr
  updateOfficialPeersListPending : Bool
  forceOfficialPeersUpdate : Bool
  lastSourcesSentToMaster : List (PZGHeartbeatSourceKey Addr)
  officialPeersList : List ZGPeerID

namespace PZGHeartbeatThreadState

variable {Addr : Type}

/-- `PZGHeartbeatThreadState::Initialize`. -/
def initialized (hbSettings : PZGHeartbeatSettings) (startTime : ℕ) :
    PZGHeartbeatThreadState Addr :=
  let heartbeatPingInterval := 1000000 / max 1 hbSettings.heartbeatsPerSecond
  { hbSettings
    heartbeatPingInterval
    heartbeatExpirationTimeMicros :=
      heartbeatPingInterval * hbSettings.maxNumMissingHeartbeats
    nextSendHeartbeatTime := startTime
    now := startTime
    halfAttachedTime := startTime +
      hbSettings.heartbeatsBeforeFullyAttached * heartbeatPingInterval / 2
    fullyAttachedTime := startTime +
      hbSettings.heartbeatsBeforeFullyAttached * heartbeatPingInterval
    fullAttachmentReported := false
    updateToNetworkTimeOffsetPending := false
    onlineSources := ∅
    peerIDToIPAddresses := ∅
    updateOfficialPeersListPending := false
    forceOfficialPeersUpdate := false
    lastSourcesSentToMaster := []
    officialPeersList := [] }

/-- `IsFullyAttached`. -/
def isFullyAttached (s : PZGHeartbeatThreadState Addr) : Bool :=
  decide (s.fullyAttachedTime ≤ s.now)

/-- `GetSeniorPeerID`: the peer of the first source in the list that was sent
last. -/
def getSeniorPeerID (s : PZGHeartbeatThreadState Addr) : ZGPeerID :=
  match s.lastSourcesSentToMaster with
  | source :: _ => source.peerID
  | [] => .invalid

/-- `ScheduleUpdateOfficialPeersList`. -/
def scheduleUpdateOfficialPeersList (forceUpdate : Bool)
    (s : PZGHeartbeatThreadState Addr) : PZGHeartbeatThreadState Addr :=
  { s with
    updateOfficialPeersListPending := true
    forceOfficialPeersUpdate := s.forceOfficialPeersUpdate || forceUpdate }

/-- `GetPulseTime`. -/
def getPulseTime (s : PZGHeartbeatThreadState Addr) : WithTop ℕ :=
  if s.updateOfficialPeersListPending || s.updateToNetworkTimeOffsetPending
  then 0
  else s.onlineSources.entries.foldl
    (fun ret source => min ret source.2.localExpirationTimeMicros)
    s.nextSendHeartbeatTime

section

variable [DecidableEq Addr]

/-- The last packet from a source. -/
def packetFrom (s : PZGHeartbeatThreadState Addr)
    (source : PZGHeartbeatSourceKey Addr) :
    Option PZGHeartbeatPacketWithMetaData :=
  (s.onlineSources.lookup source).map (·.hbPacket)

/-! ### The order of the peers -/

/-- `PeersListMatchesIgnoreOrdering`: as many IDs as there are peers online,
and each of them online. -/
def peersListMatchesIgnoreOrdering (s : PZGHeartbeatThreadState Addr)
    (infoQ : List ZGPeerID) : Bool :=
  infoQ.length == s.peerIDToIPAddresses.entries.length &&
    infoQ.all fun peerID => decide (peerID ∈ s.peerIDToIPAddresses)

/-- One step of the search for the kingmaker: the source that has been found
so far, and its peer. -/
def considerSource (s : PZGHeartbeatThreadState Addr)
    (found : Option (PZGHeartbeatSourceKey Addr) × ZGPeerID)
    (next : Σ _ : PZGHeartbeatSourceKey Addr, PZGHeartbeatSourceState) :
    Option (PZGHeartbeatSourceKey Addr) × ZGPeerID :=
  let hbPacket := next.2.hbPacket
  if (found.2.isValid = false ∨ hbPacket.sourcePeerID < found.2) ∧
      s.peersListMatchesIgnoreOrdering hbPacket.orderedPeersList then
    (some next.1, hbPacket.sourcePeerID)
  else found

/-- The search for the kingmaker: the lowest peer whose list names the peers
that are online. -/
def searchKingmaker (s : PZGHeartbeatThreadState Addr) :
    Option (PZGHeartbeatSourceKey Addr) × ZGPeerID :=
  s.onlineSources.entries.foldl s.considerSource (none, .invalid)

/-- `GetKingmakerPeerID`. -/
def getKingmakerPeerID (s : PZGHeartbeatThreadState Addr) : ZGPeerID :=
  s.searchKingmaker.2

/-- `GetKingmakerPeerSource`, which is `none` for a key that has never been
set. -/
def getKingmakerPeerSource (s : PZGHeartbeatThreadState Addr) :
    Option (PZGHeartbeatSourceKey Addr) :=
  s.searchKingmaker.1

/-- The largest of the values that the packets from a peer's sources have,
or `ret`. -/
def maxFromQueue {α : Type} [Max α]
    (value : PZGHeartbeatPacketWithMetaData → α)
    (s : PZGHeartbeatThreadState Addr) (pid : ZGPeerID) (ret : α)
    (q : List Addr) : α :=
  q.foldl (fun ret address =>
    match s.packetFrom ⟨address, pid⟩ with
    | some hb => max ret (value hb)
    | none => ret) ret

/-- `GetPeerTypeFromQueue`. -/
def getPeerTypeFromQueue (s : PZGHeartbeatThreadState Addr) (pid : ZGPeerID)
    (q : List Addr) : UInt16 :=
  maxFromQueue (·.peerType) s pid 0 q

/-- `GetPeerUptimeSecondsFromQueue`. -/
def getPeerUptimeSecondsFromQueue (s : PZGHeartbeatThreadState Addr)
    (pid : ZGPeerID) (q : List Addr) : UInt32 :=
  maxFromQueue (·.peerUptimeSeconds) s pid 0 q

/-- `ComparePeerIDsBySeniority`. -/
def comparePeerIDsBySeniority (s : PZGHeartbeatThreadState Addr)
    (pid1 pid2 : ZGPeerID) : ℤ :=
  match s.peerIDToIPAddresses.lookup pid1,
      s.peerIDToIPAddresses.lookup pid2 with
  | some q1, some q2 =>
      let byType := -muscleCompare (s.getPeerTypeFromQueue pid1 q1)
        (s.getPeerTypeFromQueue pid2 q2)
      if byType ≠ 0 then byType
      else
        let byUptime := -muscleCompare
          (s.getPeerUptimeSecondsFromQueue pid1 q1)
          (s.getPeerUptimeSecondsFromQueue pid2 q2)
        if byUptime ≠ 0 then byUptime else -muscleCompare pid1 pid2
  | _, _ => 0

/-- `_peerIDToIPAddresses.SortByKey`, with the order of seniority. -/
def sortBySeniority (s : PZGHeartbeatThreadState Addr) :
    PZGHeartbeatThreadState Addr :=
  { s with
    peerIDToIPAddresses :=
      { entries := s.peerIDToIPAddresses.entries.insertionSort fun e1 e2 =>
          s.comparePeerIDsBySeniority e1.1 e2.1 ≤ 0
        nodupKeys := (List.perm_nodupKeys (List.perm_insertionSort _ _)).mpr
          s.peerIDToIPAddresses.nodupKeys } }

variable [IPAddressAndPort Addr]

/-- `CalculateOrderedPeersList`: the list that the kingmaker advertises, or
the peers in the order of their seniority, in which they are left. -/
def calculateOrderedPeersList (s : PZGHeartbeatThreadState Addr) :
    PZGHeartbeatThreadState Addr × List ZGPeerID :=
  match s.getKingmakerPeerSource.filter (·.isValid) with
  | some kmSource =>
      (s, match s.packetFrom kmSource with
        | some hb => hb.orderedPeersList
        | none => [])
  | none => (s.sortBySeniority, s.sortBySeniority.peerIDToIPAddresses.keys)

/-! ### The official list -/

omit [IPAddressAndPort Addr] in
/-- The sources of the peers in `idQ`, in their order. -/
def sourcesOf (s : PZGHeartbeatThreadState Addr) (idQ : List ZGPeerID) :
    List (PZGHeartbeatSourceKey Addr) :=
  idQ.foldl (fun newPeers pid =>
    match s.peerIDToIPAddresses.lookup pid with
    | some q => q.foldl (fun newPeers address =>
        if ⟨address, pid⟩ ∈ newPeers then newPeers
        else newPeers ++ [⟨address, pid⟩]) newPeers
    | none => newPeers) []

/-- `Hashtable::operator ==`, of two tables without values: their order does
not matter. -/
def sameSources (sources rhs : List (PZGHeartbeatSourceKey Addr)) : Bool :=
  sources.length == rhs.length && sources.all fun source =>
    decide (source ∈ rhs)

/-- The message that tells the main thread of the sources that are fully
attached. -/
def peersUpdate (s : PZGHeartbeatThreadState Addr)
    (sources : List (PZGHeartbeatSourceKey Addr)) : HeartbeatThreadMessage :=
  { what := pzgHeartbeatCommandPeersUpdate
    peerInfo := sources.filterMap fun source =>
      match s.packetFrom source with
      | some hb =>
          if hb.isFullyAttached then some (some hb.toPZGHeartbeatPacket)
          else none
      | none => none }

/-- `UpdateOfficialPeersList`. -/
def updateOfficialPeersList (forceUpdate : Bool)
    (s : PZGHeartbeatThreadState Addr) :
    PZGHeartbeatThreadState Addr × Option HeartbeatThreadMessage :=
  let (s, idQ) := s.calculateOrderedPeersList
  let newPeers := s.sourcesOf idQ
  let s := { s with
    officialPeersList := idQ, updateToNetworkTimeOffsetPending := false }
  if forceUpdate || !sameSources newPeers s.lastSourcesSentToMaster then
    ({ s with lastSourcesSentToMaster := newPeers },
      if s.isFullyAttached then some (s.peersUpdate newPeers) else none)
  else (s, none)

/-! ### Sources that come and go -/

/-- `ExpireSource`. -/
def expireSource (s : PZGHeartbeatThreadState Addr)
    (source : PZGHeartbeatSourceKey Addr) : PZGHeartbeatThreadState Addr :=
  match s.onlineSources.lookup source with
  | some sourceInfo =>
      let pid := sourceInfo.hbPacket.sourcePeerID
      let peers :=
        match s.peerIDToIPAddresses.lookup pid with
        | some q =>
            if source.ipAddressAndPort ∈ q then
              if (q.erase source.ipAddressAndPort).isEmpty then
                s.peerIDToIPAddresses.erase pid
              else s.peerIDToIPAddresses.replace pid
                (q.erase source.ipAddressAndPort)
            else s.peerIDToIPAddresses
        | none => s.peerIDToIPAddresses
      scheduleUpdateOfficialPeersList true
        { s with
          peerIDToIPAddresses := peers
          onlineSources := s.onlineSources.erase source }
  | none => s

/-- `IntroduceSource`. -/
def introduceSource (s : PZGHeartbeatThreadState Addr)
    (source : PZGHeartbeatSourceKey Addr) (newSource : PZGHeartbeatSourceState) :
    PZGHeartbeatThreadState Addr :=
  let pid := newSource.hbPacket.sourcePeerID
  scheduleUpdateOfficialPeersList true
    { s with
      onlineSources := s.onlineSources.put source newSource
      peerIDToIPAddresses := s.peerIDToIPAddresses.put pid
        ((s.peerIDToIPAddresses.lookup pid).getD [] ++
          [source.ipAddressAndPort]) }

/-- The source of a packet that is not to be ignored. -/
def heartbeatReceived (s : PZGHeartbeatThreadState Addr)
    (source : PZGHeartbeatSourceKey Addr) (newSource : PZGHeartbeatSourceState) :
    PZGHeartbeatThreadState Addr :=
  match s.onlineSources.lookup source with
  | some oldSource =>
      if newSource.hbPacket.isEqualIgnoreTransients
          oldSource.hbPacket.toPZGHeartbeatPacket then
        -- the main thread is not told of peers that are not fully attached
        let s :=
          if oldSource.hbPacket.isFullyAttached ≠
              newSource.hbPacket.isFullyAttached then
            s.scheduleUpdateOfficialPeersList true
          else s
        { s with onlineSources := s.onlineSources.replace source newSource }
      else (s.expireSource source).introduceSource source newSource
  | none => s.introduceSource source newSource

/-- `ReceiveMulticastTraffic`, for one packet. -/
def receiveMulticastTraffic (s : PZGHeartbeatThreadState Addr)
    (sourceIAP : Addr) (newHB : PZGHeartbeatPacketWithMetaData)
    (localReceiveTimeMicros : ℕ) : PZGHeartbeatThreadState Addr :=
  let pid := newHB.sourcePeerID
  if newHB.versionCode ≠ s.hbSettings.versionCode then s
  else if newHB.systemKey ≠ s.hbSettings.systemKey then s
  else
    let localExpirationTimeMicros : WithTop ℕ :=
      if pid = s.hbSettings.localPeerID then ⊤
      else (localReceiveTimeMicros + s.heartbeatExpirationTimeMicros : ℕ)
    let s := s.heartbeatReceived ⟨sourceIAP, pid⟩
      { hbPacket := newHB, localExpirationTimeMicros }
    let s :=
      if s.updateOfficialPeersListPending = false ∧
          pid = s.getKingmakerPeerID then
        s.scheduleUpdateOfficialPeersList false
      else s
    if pid = s.getSeniorPeerID then
      { s with updateToNetworkTimeOffsetPending := true }
    else s

/-! ### The loop of the thread -/

/-- The first part of `Pulse`: the official list, if it is to be updated. -/
def pulseOfficialPeersList (s : PZGHeartbeatThreadState Addr) :
    PZGHeartbeatThreadState Addr × Option HeartbeatThreadMessage :=
  if s.updateOfficialPeersListPending then
    updateOfficialPeersList s.forceOfficialPeersUpdate
      { s with
        updateOfficialPeersListPending := false
        forceOfficialPeersUpdate := false }
  else (s, none)

/-- The part of `Pulse` that sends heartbeats.  A full peer puts its list
into them, once it is half attached; `canSend` tells whether there is
anything to send through. -/
def pulseSend (canSend : Bool) (s : PZGHeartbeatThreadState Addr) :
    PZGHeartbeatThreadState Addr :=
  if s.nextSendHeartbeatTime ≤ s.now then
    let s :=
      { s with nextSendHeartbeatTime := s.now + s.heartbeatPingInterval }
    if canSend ∧ s.hbSettings.peerType = peerTypeFullPeer ∧
        s.halfAttachedTime ≤ s.now then s.calculateOrderedPeersList.1
    else s
  else s

/-- The part of `Pulse` that expires sources. -/
def pulseExpire (s : PZGHeartbeatThreadState Addr) :
    PZGHeartbeatThreadState Addr :=
  s.onlineSources.entries.foldl (fun s source =>
    if source.2.localExpirationTimeMicros ≤ (s.now : WithTop ℕ) then
      s.expireSource source.1
    else s) s

/-- The last part of `Pulse`: the main thread learns that this peer is fully
attached. -/
def pulseAttach (s : PZGHeartbeatThreadState Addr) :
    PZGHeartbeatThreadState Addr :=
  if s.fullAttachmentReported = false ∧ s.isFullyAttached then
    { s with fullAttachmentReported := true }.scheduleUpdateOfficialPeersList
      true
  else s

/-- `Pulse`. -/
def pulse (canSend : Bool) (s : PZGHeartbeatThreadState Addr) :
    PZGHeartbeatThreadState Addr × Option HeartbeatThreadMessage :=
  let (s, msg) := s.pulseOfficialPeersList
  let s := { s with updateToNetworkTimeOffsetPending := false }
  ((s.pulseSend canSend).pulseExpire.pulseAttach, msg)

/-- What can happen to the thread: it wakes up after some time, or a packet
arrives. -/
inductive Event (Addr : Type) where
  | awoke (elapsedMicros : ℕ) (canSend : Bool)
  | received (sourceIAP : Addr) (newHB : PZGHeartbeatPacketWithMetaData)
      (localReceiveTimeMicros : ℕ)

/-- A turn of `InternalThreadEntry`: the pulse is due at the time that was
set before the thread went to sleep. -/
def wake (s : PZGHeartbeatThreadState Addr) (elapsedMicros : ℕ)
    (canSend : Bool) :
    PZGHeartbeatThreadState Addr × Option HeartbeatThreadMessage :=
  let s' := { s with now := s.now + elapsedMicros }
  if s.getPulseTime ≤ (s'.now : WithTop ℕ) then s'.pulse canSend
  else (s', none)

/-- The thread after an event, and the message that it has sent to the main
thread, if any. -/
def handle (s : PZGHeartbeatThreadState Addr) :
    Event Addr → PZGHeartbeatThreadState Addr × Option HeartbeatThreadMessage
  | .awoke elapsedMicros canSend => s.wake elapsedMicros canSend
  | .received sourceIAP newHB localReceiveTimeMicros =>
      (s.receiveMulticastTraffic sourceIAP newHB localReceiveTimeMicros, none)

/-- The thread after an event. -/
def step (s : PZGHeartbeatThreadState Addr) (e : Event Addr) :
    PZGHeartbeatThreadState Addr :=
  (s.handle e).1

end

end PZGHeartbeatThreadState

end ZgChoir
