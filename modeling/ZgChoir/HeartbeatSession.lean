import ZgChoir.DatabaseUpdate
import ZgChoir.Occurrences
import ZgChoir.PutOrder

/-!
# The main thread's copy of the peer list

The heartbeat thread keeps the official list of the peers, in the order of
their seniority, and sends it to the main thread whenever it changes.
`PZGHeartbeatSession` folds such a message into a table of its own, and tells
its master who has come, who has gone and whether the senior is another one.
The senior is the first peer of that table, so the order of the table is what
decides it.

The order is followed exactly when the peers that stay are already in it:
`followsOfficialList_iff`.  A peer that stays keeps its place, wherever the
message puts it.
-/

namespace ZgChoir

/-- `PEER_TYPE_FULL_PEER`: a peer that may become the senior. -/
def peerTypeFullPeer : UInt16 := 0

/-- `PZG_HEARTBEAT_COMMAND_PEERS_UPDATE`. -/
def pzgHeartbeatCommandPeersUpdate : UInt32 := 1751281781

/-- A heartbeat packet, less the fields that the main thread never reads.
The packet ID stands for the transient ones: it is another one in every
packet. -/
structure PZGHeartbeatPacket where
  heartbeatPacketID : UInt32
  systemKey : UInt64
  tcpAcceptPort : UInt16
  peerType : UInt16
  sourcePeerID : ZGPeerID
  peerAttributesBuf : Option (List UInt8)
  deriving DecidableEq

/-- `PZGHeartbeatPacket::IsEqualIgnoreTransients`. -/
def PZGHeartbeatPacket.isEqualIgnoreTransients
    (packet rhs : PZGHeartbeatPacket) : Bool :=
  packet.systemKey == rhs.systemKey &&
  packet.tcpAcceptPort == rhs.tcpAcceptPort &&
  packet.peerType == rhs.peerType &&
  packet.sourcePeerID == rhs.sourcePeerID &&
  packet.peerAttributesBuf == rhs.peerAttributesBuf

/-- The packets of one peer, one for each source it is heard from.  There is
always a first one. -/
structure PacketQueue where
  head : PZGHeartbeatPacket
  rest : List PZGHeartbeatPacket
  deriving DecidableEq

/-- `AddTail`, on the queue that `GetOrPut` has found or made. -/
def PacketQueue.addTail (packet : PZGHeartbeatPacket) :
    Option PacketQueue → PacketQueue
  | some q => { q with rest := q.rest ++ [packet] }
  | none => { head := packet, rest := [] }

/-- A `Hashtable` of the peers; it is iterated in the order of its keys. -/
abbrev PeerTable := AList fun _ : ZGPeerID => PacketQueue

/-- A message from the heartbeat thread.  `none` is a packet that `FindFlat`
cannot restore. -/
structure HeartbeatThreadMessage where
  what : UInt32
  peerInfo : List (Option PZGHeartbeatPacket)

/-- What the session calls on its master, a `PZGNetworkIOSession`. -/
inductive NetworkIOCall (Attributes : Type) where
  | peerHasGoneOffline (peerID : ZGPeerID) (peerInfo : Option Attributes)
  | peerHasComeOnline (peerID : ZGPeerID) (peerInfo : Option Attributes)
  | seniorPeerChanged (oldSeniorPeerID newSeniorPeerID : ZGPeerID)
  deriving DecidableEq

/-- The session: whether it still has its master, and the peers as the main
thread knows them. -/
structure PZGHeartbeatSession where
  hasMaster : Bool
  mainThreadPeers : PeerTable

variable {Attributes : Type}

/-- `GetPeerAttributesAsMessage`; inflating the buffer and unflattening what
it holds is `inflateByteBuffer`'s work. -/
def PZGHeartbeatPacket.getPeerAttributesAsMessage
    (inflateByteBuffer : List UInt8 → Option Attributes)
    (packet : PZGHeartbeatPacket) : Option Attributes :=
  packet.peerAttributesBuf.bind inflateByteBuffer

/-- `PZGHeartbeatSession::GetSeniorPeerID`: full peers stand above the
others, so the first peer is the senior if it is a full one, and nobody is
if it is not. -/
def PZGHeartbeatSession.getSeniorPeerID (s : PZGHeartbeatSession) : ZGPeerID :=
  match s.mainThreadPeers.entries with
  | [] => .invalid
  | ⟨firstPeer, q⟩ :: _ =>
      if q.head.peerType = peerTypeFullPeer then firstPeer else .invalid

/-- The packets of a message, gathered by their source. -/
def gatherNewPeers (packets : List (Option PZGHeartbeatPacket)) : PeerTable :=
  packets.foldl (fun newPeers optPacket =>
    match optPacket with
    | some hb =>
        newPeers.put hb.sourcePeerID
          (.addTail hb (newPeers.lookup hb.sourcePeerID))
    | none => newPeers) ∅

/-- Whether the peer of an old entry is there no more, or so changed that it
is taken for another one. -/
def hasGone (newPeers : PeerTable) (peerID : ZGPeerID)
    (oldInfoQ : PacketQueue) : Bool :=
  match newPeers.lookup peerID with
  | some newInfoQ => !newInfoQ.head.isEqualIgnoreTransients oldInfoQ.head
  | none => true

/-- The first loop of an update, over the old entries: the peers that have
gone are removed. -/
def removeGonePeers (inflateByteBuffer : List UInt8 → Option Attributes)
    (newPeers : PeerTable) :
    List (Σ _ : ZGPeerID, PacketQueue) → PeerTable →
      PeerTable × List (NetworkIOCall Attributes)
  | [], peers => (peers, [])
  | ⟨peerID, oldInfoQ⟩ :: iter, peers =>
      if hasGone newPeers peerID oldInfoQ then
        let (left, calls) :=
          removeGonePeers inflateByteBuffer newPeers iter (peers.erase peerID)
        (left, .peerHasGoneOffline peerID
          (oldInfoQ.head.getPeerAttributesAsMessage inflateByteBuffer) :: calls)
      else removeGonePeers inflateByteBuffer newPeers iter peers

/-- Put a new peer behind the peer before it in the message, or in front of
all of them. -/
def putNewPeer (optPrevID : Option ZGPeerID) (peerID : ZGPeerID)
    (newRefQ : PacketQueue) (peers : PeerTable) : PeerTable :=
  match optPrevID with
  | some prevID => (peers.put peerID newRefQ).moveToBehind peerID prevID
  | none => (peers.put peerID newRefQ).moveToFront peerID

/-- The second loop of an update, over the new entries.  A peer that is in
the table has its packets replaced, and stays where it is. -/
def putNewPeers (inflateByteBuffer : List UInt8 → Option Attributes) :
    Option ZGPeerID → List (Σ _ : ZGPeerID, PacketQueue) → PeerTable →
      PeerTable × List (NetworkIOCall Attributes)
  | _, [], peers => (peers, [])
  | optPrevID, ⟨peerID, newRefQ⟩ :: iter, peers =>
      if peerID ∈ peers then
        putNewPeers inflateByteBuffer (some peerID) iter
          (peers.replace peerID newRefQ)
      else
        let (updated, calls) :=
          putNewPeers inflateByteBuffer (some peerID) iter
            (putNewPeer optPrevID peerID newRefQ peers)
        (updated, .peerHasComeOnline peerID
          (newRefQ.head.getPeerAttributesAsMessage inflateByteBuffer) :: calls)

/-- `PZGHeartbeatSession::MessageReceivedFromInternalThread`: the session
afterwards, and the calls it has made, in order. -/
def PZGHeartbeatSession.messageReceivedFromInternalThread
    (inflateByteBuffer : List UInt8 → Option Attributes)
    (s : PZGHeartbeatSession) (msgFromHeartbeatThread : HeartbeatThreadMessage) :
    PZGHeartbeatSession × List (NetworkIOCall Attributes) :=
  if msgFromHeartbeatThread.what = pzgHeartbeatCommandPeersUpdate then
    if s.hasMaster then
      let newPeers := gatherNewPeers msgFromHeartbeatThread.peerInfo
      let oldSeniorPeerID := s.getSeniorPeerID
      let (left, offline) := removeGonePeers inflateByteBuffer newPeers
        s.mainThreadPeers.entries s.mainThreadPeers
      let (updated, online) :=
        putNewPeers inflateByteBuffer none newPeers.entries left
      let s' := { s with mainThreadPeers := updated }
      let newSeniorPeerID := s'.getSeniorPeerID
      (s', offline ++ online ++
        if newSeniorPeerID ≠ oldSeniorPeerID then
          [.seniorPeerChanged oldSeniorPeerID newSeniorPeerID]
        else [])
    else (s, [])
  else (s, [])

/-! ### What an update is to achieve -/

/-- The packets of a message that could be restored. -/
def HeartbeatThreadMessage.packets (msg : HeartbeatThreadMessage) :
    List PZGHeartbeatPacket :=
  msg.peerInfo.reduceOption

/-- The official list: the peers of a message, in order of first
appearance. -/
def HeartbeatThreadMessage.peerIDs (msg : HeartbeatThreadMessage) :
    List ZGPeerID :=
  (msg.packets.map (·.sourcePeerID)).eraseDups

/-- The first packet that a message has of a peer. -/
def HeartbeatThreadMessage.firstPacketOf (msg : HeartbeatThreadMessage)
    (p : ZGPeerID) : Option PZGHeartbeatPacket :=
  msg.packets.find? fun hb => decide (hb.sourcePeerID = p)

/-- `p` is in the table, and the message has a packet of it that differs
only transiently. -/
def PZGHeartbeatSession.unchanged (s : PZGHeartbeatSession)
    (msg : HeartbeatThreadMessage) (p : ZGPeerID) : Bool :=
  match s.mainThreadPeers.lookup p, msg.firstPacketOf p with
  | some oldInfoQ, some hb => hb.isEqualIgnoreTransients oldInfoQ.head
  | _, _ => false

/-- The peers reported gone, in order. -/
def offlineOf (calls : List (NetworkIOCall Attributes)) : List ZGPeerID :=
  calls.filterMap fun
    | .peerHasGoneOffline p _ => some p
    | _ => none

/-- The peers reported new, in order. -/
def onlineOf (calls : List (NetworkIOCall Attributes)) : List ZGPeerID :=
  calls.filterMap fun
    | .peerHasComeOnline p _ => some p
    | _ => none

section

variable {calls calls' : List (NetworkIOCall Attributes)} {p : ZGPeerID}
variable {peerInfo : Option Attributes}

@[simp] theorem offlineOf_cons_offline :
    offlineOf (.peerHasGoneOffline p peerInfo :: calls) =
      p :: offlineOf calls := rfl

@[simp] theorem onlineOf_cons_online :
    onlineOf (.peerHasComeOnline p peerInfo :: calls) =
      p :: onlineOf calls := rfl

@[simp] theorem offlineOf_append :
    offlineOf (calls ++ calls') = offlineOf calls ++ offlineOf calls' :=
  List.filterMap_append

@[simp] theorem onlineOf_append :
    onlineOf (calls ++ calls') = onlineOf calls ++ onlineOf calls' :=
  List.filterMap_append

end

/-- `after` and `calls` are what the official list of `msg` asks for, from
the session `s`. -/
structure FollowsOfficialList (s : PZGHeartbeatSession)
    (msg : HeartbeatThreadMessage) (after : PZGHeartbeatSession)
    (calls : List (NetworkIOCall Attributes)) : Prop where
  keyOrder : after.mainThreadPeers.keys = msg.peerIDs
  keySet : ∀ p, p ∈ after.mainThreadPeers ↔
    ∃ hb ∈ msg.packets, hb.sourcePeerID = p
  goneOffline : offlineOf calls =
    s.mainThreadPeers.keys.filter fun p => !s.unchanged msg p
  comeOnline : onlineOf calls =
    msg.peerIDs.filter fun p => !s.unchanged msg p
  seniorChanged : ∀ old new, .seniorPeerChanged old new ∈ calls ↔
    old = s.getSeniorPeerID ∧ new = after.getSeniorPeerID ∧ old ≠ new

/-! ### The new peers, gathered from the message -/

section

variable {packets : List (Option PZGHeartbeatPacket)} {p : ZGPeerID}

/-- One more packet, at the end. -/
private theorem gatherNewPeers_snoc (hb : PZGHeartbeatPacket) :
    gatherNewPeers (packets ++ [some hb]) =
      (gatherNewPeers packets).put hb.sourcePeerID
        (.addTail hb ((gatherNewPeers packets).lookup hb.sourcePeerID)) := by
  simp [gatherNewPeers]

private theorem gatherNewPeers_snoc_none :
    gatherNewPeers (packets ++ [none]) = gatherNewPeers packets := by
  simp [gatherNewPeers]

theorem keys_gatherNewPeers :
    (gatherNewPeers packets).keys =
      (packets.reduceOption.map (·.sourcePeerID)).eraseDups := by
  induction packets using List.reverseRecOn with
  | nil => rfl
  | append_singleton packets optPacket ih =>
      cases optPacket with
      | none =>
          rw [gatherNewPeers_snoc_none, ih]
          simp [List.reduceOption_append]
      | some hb =>
          have hkeys : (packets ++ [some hb]).reduceOption.map (·.sourcePeerID) =
              packets.reduceOption.map (·.sourcePeerID) ++ [hb.sourcePeerID] := by
            simp [List.reduceOption_append]
          have hmem : hb.sourcePeerID ∈ gatherNewPeers packets ↔
              hb.sourcePeerID ∈ packets.reduceOption.map (·.sourcePeerID) := by
            rw [AList.mem_keys, ih, List.mem_eraseDups]
          rw [gatherNewPeers_snoc, hkeys, Occurrences.eraseDups_concat]
          by_cases hheld : hb.sourcePeerID ∈ gatherNewPeers packets
          · rw [AList.keys_put_of_mem hheld, ih, if_pos (hmem.mp hheld)]
          · rw [AList.keys_put_of_notMem hheld, ih,
              if_neg fun h => hheld (hmem.mpr h)]

/-- The head of a gathered queue is the first packet of its peer. -/
theorem head_lookup_gatherNewPeers :
    ((gatherNewPeers packets).lookup p).map (·.head) =
      packets.reduceOption.find? fun hb => decide (hb.sourcePeerID = p) := by
  induction packets using List.reverseRecOn with
  | nil => rfl
  | append_singleton packets optPacket ih =>
      cases optPacket with
      | none =>
          rw [gatherNewPeers_snoc_none, ih]
          simp [List.reduceOption_append]
      | some hb =>
          rw [gatherNewPeers_snoc, List.reduceOption_append,
            List.find?_append, ← ih, AList.lookup_put]
          by_cases hp : p = hb.sourcePeerID
          · subst hp
            cases (gatherNewPeers packets).lookup hb.sourcePeerID <;>
              simp [PacketQueue.addTail]
          · simp [hp, Ne.symm hp]

end

/-! ### The two loops -/

section

variable {inflateByteBuffer : List UInt8 → Option Attributes}
variable {newPeers peers : PeerTable} {p prevID : ZGPeerID}
variable {iter : List (Σ _ : ZGPeerID, PacketQueue)}

/-- The first loop removes the peers that have gone, and no others. -/
theorem keys_removeGonePeers :
    (removeGonePeers inflateByteBuffer newPeers iter peers).1.keys =
      peers.keys.filter fun p =>
        !(iter.filter fun x => hasGone newPeers x.1 x.2).keys.contains p := by
  induction iter generalizing peers with
  | nil => simp [removeGonePeers]
  | cons x iter ih =>
      obtain ⟨peerID, oldInfoQ⟩ := x
      by_cases hgone : hasGone newPeers peerID oldInfoQ
      · simp only [removeGonePeers, hgone, if_true, ih, AList.keys_erase,
          peers.keys_nodup.erase_eq_filter, List.filter_filter]
        refine List.filter_congr fun p _ => ?_
        by_cases hp : p = peerID <;> simp [hgone, hp]
      · simp [removeGonePeers, hgone, ih]

/-- It reports them, in the order of the table. -/
theorem offlineOf_removeGonePeers :
    offlineOf (removeGonePeers inflateByteBuffer newPeers iter peers).2 =
      (iter.filter fun x => hasGone newPeers x.1 x.2).keys := by
  induction iter generalizing peers with
  | nil => rfl
  | cons x iter ih =>
      obtain ⟨peerID, oldInfoQ⟩ := x
      by_cases hgone : hasGone newPeers peerID oldInfoQ
      · simp [removeGonePeers, hgone, ih]
      · simpa [removeGonePeers, hgone] using ih

/-- A new peer lands right behind the one before it in the message. -/
theorem keys_putNewPeer_some {xs ys : List ZGPeerID} {q : PacketQueue}
    (hnew : p ∉ peers) (hkeys : peers.keys = xs ++ prevID :: ys) :
    (putNewPeer (some prevID) p q peers).keys = xs ++ prevID :: p :: ys :=
  AList.keys_moveToBehind_put hnew hkeys

theorem keys_putNewPeer_none {q : PacketQueue} (hnew : p ∉ peers) :
    (putNewPeer none p q peers).keys = p :: peers.keys :=
  AList.keys_moveToFront_put hnew

/-- Putting a new peer splits the table at one place and changes nothing
else. -/
theorem putNewPeer_split {optPrevID : Option ZGPeerID} {q : PacketQueue}
    (hnew : p ∉ peers) (hprev : ∀ prevID ∈ optPrevID, prevID ∈ peers) :
    ∃ xs ys, peers.keys = xs ++ ys ∧
      (putNewPeer optPrevID p q peers).keys = xs ++ p :: ys := by
  cases optPrevID with
  | none => exact ⟨[], peers.keys, rfl, keys_putNewPeer_none hnew⟩
  | some prevID =>
      obtain ⟨xs, ys, hkeys⟩ :=
        List.append_of_mem (AList.mem_keys.mp (hprev prevID rfl))
      refine ⟨xs ++ [prevID], ys, by simp [hkeys], ?_⟩
      simp [keys_putNewPeer_some hnew hkeys]

theorem mem_putNewPeer {optPrevID : Option ZGPeerID} {q : PacketQueue}
    {p' : ZGPeerID} (hnew : p ∉ peers)
    (hprev : ∀ prevID ∈ optPrevID, prevID ∈ peers) :
    p' ∈ putNewPeer optPrevID p q peers ↔ p' = p ∨ p' ∈ peers := by
  obtain ⟨xs, ys, hkeys, hput⟩ := putNewPeer_split (q := q) hnew hprev
  rw [AList.mem_keys, AList.mem_keys, hkeys, hput]
  simp only [List.mem_append, List.mem_cons]
  exact or_left_comm

/-- The second loop reports the peers that were not in the table, in the
order of the message. -/
theorem onlineOf_putNewPeers {optPrevID : Option ZGPeerID}
    (hnodup : iter.NodupKeys) (hprev : ∀ prevID ∈ optPrevID, prevID ∈ peers) :
    onlineOf (putNewPeers inflateByteBuffer optPrevID iter peers).2 =
      iter.keys.filter fun p => decide (p ∉ peers) := by
  induction iter generalizing peers optPrevID with
  | nil => rfl
  | cons x iter ih =>
      obtain ⟨peerID, newRefQ⟩ := x
      obtain ⟨hfirst, hrest⟩ := List.nodupKeys_cons.mp hnodup
      by_cases hheld : peerID ∈ peers
      · have hprev' : ∀ prevID ∈ some peerID,
            prevID ∈ peers.replace peerID newRefQ := by simpa using hheld
        simpa [putNewPeers, hheld] using ih hrest hprev'
      · have hprev' : ∀ prevID ∈ some peerID,
            prevID ∈ putNewPeer optPrevID peerID newRefQ peers := by
          simp [mem_putNewPeer hheld hprev]
        rw [List.keys_cons, List.filter_cons_of_pos (by simpa using hheld)]
        simp only [putNewPeers, hheld, if_false, onlineOf_cons_online,
          ih hrest hprev', mem_putNewPeer hheld hprev]
        refine congrArg _ (List.filter_congr fun p hp => ?_)
        have hne : p ≠ peerID := fun h => hfirst (h ▸ hp)
        simp [hne]

/-- The second loop leaves every peer of the message with its new packets. -/
theorem lookup_putNewPeers {optPrevID : Option ZGPeerID}
    (hnodup : iter.NodupKeys) :
    (putNewPeers inflateByteBuffer optPrevID iter peers).1.lookup p =
      (iter.dlookup p).or (peers.lookup p) := by
  induction iter generalizing peers optPrevID with
  | nil => rfl
  | cons x iter ih =>
      obtain ⟨peerID, newRefQ⟩ := x
      obtain ⟨hfirst, hrest⟩ := List.nodupKeys_cons.mp hnodup
      have hput : ∀ {peers' : PeerTable},
          (∀ p, peers'.lookup p =
            if p = peerID then some newRefQ else peers.lookup p) →
          (iter.dlookup p).or (peers'.lookup p) =
            (List.dlookup p (⟨peerID, newRefQ⟩ :: iter)).or
              (peers.lookup p) := by
        intro peers' hpeers'
        rw [hpeers']
        by_cases hp : p = peerID
        · subst hp
          rw [List.dlookup_cons_eq, List.dlookup_eq_none.mpr hfirst]
          simp
        · rw [List.dlookup_cons_ne _ _ hp, if_neg hp]
      by_cases hheld : peerID ∈ peers
      · simp only [putNewPeers, hheld, if_true]
        rw [ih hrest]
        exact hput fun p => AList.lookup_replace hheld
      · simp only [putNewPeers, hheld, if_false]
        rw [ih hrest]
        refine hput fun p => ?_
        cases optPrevID with
        | none => exact AList.lookup_moveToFront.trans AList.lookup_put
        | some prevID => exact AList.lookup_moveToBehind.trans AList.lookup_put

/-- It never moves the peers of which `kept` holds, when those of the
message are in the table. -/
theorem keys_filter_putNewPeers {optPrevID : Option ZGPeerID}
    {kept : ZGPeerID → Bool}
    (hkept : ∀ p ∈ iter.keys, kept p = true → p ∈ peers)
    (hprev : ∀ prevID ∈ optPrevID, prevID ∈ peers) :
    (putNewPeers inflateByteBuffer optPrevID iter peers).1.keys.filter kept =
      peers.keys.filter kept := by
  induction iter generalizing peers optPrevID with
  | nil => rfl
  | cons x iter ih =>
      obtain ⟨peerID, newRefQ⟩ := x
      have hrest : ∀ p ∈ iter.keys, kept p = true → p ∈ peers :=
        fun p hp => hkept p (List.mem_cons_of_mem _ hp)
      by_cases hheld : peerID ∈ peers
      · have hrest' : ∀ p ∈ iter.keys, kept p = true →
            p ∈ peers.replace peerID newRefQ := by simpa using hrest
        have hprev' : ∀ prevID ∈ some peerID,
            prevID ∈ peers.replace peerID newRefQ := by simpa using hheld
        simpa [putNewPeers, hheld] using ih hrest' hprev'
      · have hmem : ∀ {p'}, p' ∈ putNewPeer optPrevID peerID newRefQ peers ↔
            p' = peerID ∨ p' ∈ peers := mem_putNewPeer hheld hprev
        have hrest' : ∀ p ∈ iter.keys, kept p = true →
            p ∈ putNewPeer optPrevID peerID newRefQ peers :=
          fun p hp hk => hmem.mpr (.inr (hrest p hp hk))
        have hprev' : ∀ prevID ∈ some peerID,
            prevID ∈ putNewPeer optPrevID peerID newRefQ peers := by
          simp [hmem]
        have hnew : kept peerID = false := by
          by_contra hk
          exact hheld (hkept peerID List.mem_cons_self (by simpa using hk))
        obtain ⟨xs, ys, hkeys, hput⟩ :=
          putNewPeer_split (q := newRefQ) hheld hprev
        simp only [putNewPeers, hheld, if_false, ih hrest' hprev', hput, hkeys]
        simp [hnew]

/-- Where the peers of the table that come next are in the order of the
message, the loop brings the whole table into it.  The table reads, all
along, as the peers the loop has passed and then those it will pass. -/
theorem keys_putNewPeers {passed : List ZGPeerID} {kept : ZGPeerID → Bool}
    (hkeys : peers.keys = passed ++ iter.keys.filter kept)
    (hnodup : (passed ++ iter.keys).Nodup) :
    (putNewPeers inflateByteBuffer passed.getLast? iter peers).1.keys =
      passed ++ iter.keys := by
  induction iter generalizing peers passed with
  | nil => simpa [putNewPeers] using hkeys
  | cons x iter ih =>
      obtain ⟨peerID, newRefQ⟩ := x
      have hsplit : passed ++ peerID :: iter.keys =
          (passed ++ [peerID]) ++ iter.keys := by simp
      have hnodup' : ((passed ++ [peerID]) ++ iter.keys).Nodup := by
        rw [← hsplit]
        exact hnodup
      have hheld : peerID ∈ peers ↔ kept peerID = true := by
        have hpassed : peerID ∉ passed := fun h =>
          List.disjoint_of_nodup_append hnodup h List.mem_cons_self
        rw [AList.mem_keys, hkeys]
        simp [hpassed, List.mem_filter]
      cases hk : kept peerID with
      | true =>
          have hkeys' : (peers.replace peerID newRefQ).keys =
              (passed ++ [peerID]) ++ iter.keys.filter kept := by
            simp [hkeys, hk]
          simpa [putNewPeers, hheld.mpr hk] using ih hkeys' hnodup'
      | false =>
          have hnew : peerID ∉ peers := fun h => by
            rw [hheld, hk] at h
            cases h
          have hput : (putNewPeer passed.getLast? peerID newRefQ peers).keys =
              (passed ++ [peerID]) ++ iter.keys.filter kept := by
            rcases List.eq_nil_or_concat passed with rfl | ⟨xs, prevID, rfl⟩
            · simpa [hk, hkeys] using keys_putNewPeer_none (q := newRefQ) hnew
            · have hbehind : peers.keys =
                  xs ++ prevID :: iter.keys.filter kept := by
                simpa [hk] using hkeys
              simpa using keys_putNewPeer_some (q := newRefQ) hnew hbehind
          simpa [putNewPeers, hnew] using ih hput hnodup'

/-- What the first loop reports. -/
theorem eq_offline_of_mem_removeGonePeers {c : NetworkIOCall Attributes}
    (hc : c ∈ (removeGonePeers inflateByteBuffer newPeers iter peers).2) :
    ∃ p peerInfo, c = .peerHasGoneOffline p peerInfo := by
  induction iter generalizing peers with
  | nil => cases hc
  | cons x iter ih =>
      obtain ⟨peerID, oldInfoQ⟩ := x
      by_cases hgone : hasGone newPeers peerID oldInfoQ
      · simp only [removeGonePeers, hgone, if_true] at hc
        rcases List.mem_cons.mp hc with rfl | hc
        · exact ⟨_, _, rfl⟩
        · exact ih hc
      · simp only [removeGonePeers, hgone] at hc
        exact ih hc

/-- What the second loop reports. -/
theorem eq_online_of_mem_putNewPeers {c : NetworkIOCall Attributes}
    {optPrevID : Option ZGPeerID}
    (hc : c ∈ (putNewPeers inflateByteBuffer optPrevID iter peers).2) :
    ∃ p peerInfo, c = .peerHasComeOnline p peerInfo := by
  induction iter generalizing peers optPrevID with
  | nil => cases hc
  | cons x iter ih =>
      obtain ⟨peerID, newRefQ⟩ := x
      by_cases hheld : peerID ∈ peers
      · simp only [putNewPeers, hheld, if_true] at hc
        exact ih hc
      · simp only [putNewPeers, hheld, if_false] at hc
        rcases List.mem_cons.mp hc with rfl | hc
        · exact ⟨_, _, rfl⟩
        · exact ih hc

theorem onlineOf_removeGonePeers :
    onlineOf (removeGonePeers inflateByteBuffer newPeers iter peers).2 = [] := by
  refine List.filterMap_eq_nil_iff.mpr fun c hc => ?_
  obtain ⟨p, peerInfo, rfl⟩ := eq_offline_of_mem_removeGonePeers hc
  rfl

theorem offlineOf_putNewPeers {optPrevID : Option ZGPeerID} :
    offlineOf (putNewPeers inflateByteBuffer optPrevID iter peers).2 = [] := by
  refine List.filterMap_eq_nil_iff.mpr fun c hc => ?_
  obtain ⟨p, peerInfo, rfl⟩ := eq_online_of_mem_putNewPeers hc
  rfl

end

/-! ### An update as a whole -/

section

variable {inflateByteBuffer : List UInt8 → Option Attributes}
variable {s : PZGHeartbeatSession} {msg : HeartbeatThreadMessage}

/-- The first loop treats a peer as gone exactly when it has changed. -/
theorem hasGone_eq {p : ZGPeerID} {oldInfoQ : PacketQueue}
    (hheld : ⟨p, oldInfoQ⟩ ∈ s.mainThreadPeers.entries) :
    hasGone (gatherNewPeers msg.peerInfo) p oldInfoQ =
      !s.unchanged msg p := by
  have hlookup : s.mainThreadPeers.lookup p = some oldInfoQ :=
    AList.mem_lookup_iff.mpr hheld
  have hfirst : msg.firstPacketOf p =
      ((gatherNewPeers msg.peerInfo).lookup p).map (·.head) :=
    head_lookup_gatherNewPeers.symm
  rw [hasGone, PZGHeartbeatSession.unchanged, hlookup, hfirst]
  cases (gatherNewPeers msg.peerInfo).lookup p <;> rfl

theorem keys_filter_hasGone :
    (s.mainThreadPeers.entries.filter fun x =>
      hasGone (gatherNewPeers msg.peerInfo) x.1 x.2).keys =
      s.mainThreadPeers.keys.filter fun p => !s.unchanged msg p := by
  rw [List.filter_congr fun x hx => hasGone_eq hx]
  rw [AList.keys, List.keys, List.filter_map]
  rfl

/-- What the first loop of an update leaves, and reports. -/
def leftPeers (inflateByteBuffer : List UInt8 → Option Attributes)
    (s : PZGHeartbeatSession) (msg : HeartbeatThreadMessage) :
    PeerTable × List (NetworkIOCall Attributes) :=
  removeGonePeers inflateByteBuffer (gatherNewPeers msg.peerInfo)
    s.mainThreadPeers.entries s.mainThreadPeers

/-- What the second loop makes of it, and reports. -/
def updatedPeers (inflateByteBuffer : List UInt8 → Option Attributes)
    (s : PZGHeartbeatSession) (msg : HeartbeatThreadMessage) :
    PeerTable × List (NetworkIOCall Attributes) :=
  putNewPeers inflateByteBuffer none (gatherNewPeers msg.peerInfo).entries
    (leftPeers inflateByteBuffer s msg).1

theorem keys_leftPeers :
    (leftPeers inflateByteBuffer s msg).1.keys =
      s.mainThreadPeers.keys.filter (s.unchanged msg) := by
  rw [leftPeers, keys_removeGonePeers, keys_filter_hasGone]
  refine List.filter_congr fun p hp => ?_
  cases h : s.unchanged msg p <;> simp [h, hp]

theorem mem_of_unchanged {p : ZGPeerID} (h : s.unchanged msg p = true) :
    p ∈ s.mainThreadPeers := by
  rw [PZGHeartbeatSession.unchanged] at h
  cases hlookup : s.mainThreadPeers.lookup p with
  | none =>
      rw [hlookup] at h
      cases h
  | some q => exact AList.lookup_isSome.mp (by simp [hlookup])

theorem mem_leftPeers {p : ZGPeerID} :
    p ∈ (leftPeers inflateByteBuffer s msg).1 ↔ s.unchanged msg p = true := by
  rw [AList.mem_keys, keys_leftPeers, List.mem_filter]
  exact ⟨And.right, fun h => ⟨AList.mem_keys.mp (mem_of_unchanged h), h⟩⟩

theorem keys_newPeers :
    (gatherNewPeers msg.peerInfo).entries.keys = msg.peerIDs :=
  keys_gatherNewPeers

/-- The peers that stay stand in the table in the order in which the message
first names them. -/
def PZGHeartbeatSession.KeepsOrder (s : PZGHeartbeatSession)
    (msg : HeartbeatThreadMessage) : Prop :=
  s.mainThreadPeers.keys.filter (s.unchanged msg) =
    msg.peerIDs.filter (s.unchanged msg)

instance : Decidable (s.KeepsOrder msg) :=
  inferInstanceAs (Decidable (_ = _))

/-- The second loop never moves the peers that stay, and puts the others
where the message has them. -/
theorem keys_updatedPeers_iff :
    (updatedPeers inflateByteBuffer s msg).1.keys = msg.peerIDs ↔
      s.KeepsOrder msg := by
  constructor
  · intro horder
    have hkept : (updatedPeers inflateByteBuffer s msg).1.keys.filter
        (s.unchanged msg) =
        (leftPeers inflateByteBuffer s msg).1.keys.filter (s.unchanged msg) :=
      keys_filter_putNewPeers (fun p _ hp => mem_leftPeers.mpr hp) (by simp)
    rw [horder, keys_leftPeers, List.filter_filter] at hkept
    simpa [PZGHeartbeatSession.KeepsOrder] using hkept.symm
  · intro horder
    have hstart : (leftPeers inflateByteBuffer s msg).1.keys = [] ++
        (gatherNewPeers msg.peerInfo).entries.keys.filter
          (s.unchanged msg) := by
      rw [keys_leftPeers, keys_newPeers]
      exact horder
    have hnodup : ([] ++ (gatherNewPeers msg.peerInfo).entries.keys).Nodup :=
      (gatherNewPeers msg.peerInfo).keys_nodup
    rw [← keys_newPeers]
    exact keys_putNewPeers hstart hnodup

/-- The peer of the first packet, if it is a full one. -/
def HeartbeatThreadMessage.seniorPeerID (msg : HeartbeatThreadMessage) :
    ZGPeerID :=
  match msg.packets with
  | hb :: _ => if hb.peerType = peerTypeFullPeer then hb.sourcePeerID else .invalid
  | [] => .invalid

/-- After an update that keeps the order, the senior is the peer of the first
packet. -/
theorem getSeniorPeerID_updatedPeers (hkeeps : s.KeepsOrder msg) :
    ({ s with mainThreadPeers :=
        (updatedPeers inflateByteBuffer s msg).1 }).getSeniorPeerID =
      msg.seniorPeerID := by
  have hkeys : (updatedPeers inflateByteBuffer s msg).1.keys = msg.peerIDs :=
    keys_updatedPeers_iff.mpr hkeeps
  unfold PZGHeartbeatSession.getSeniorPeerID
  unfold HeartbeatThreadMessage.seniorPeerID
  unfold HeartbeatThreadMessage.peerIDs at hkeys
  cases hpackets : msg.packets with
  | nil =>
      have hempty : (updatedPeers inflateByteBuffer s msg).1.entries = [] := by
        rw [hpackets] at hkeys
        simpa [AList.keys, List.keys] using hkeys
      simp [hempty]
  | cons hb packets =>
      rw [hpackets, List.map_cons, List.eraseDups_cons] at hkeys
      have hhead : ((gatherNewPeers msg.peerInfo).lookup hb.sourcePeerID).map
          (·.head) = some hb := by
        rw [head_lookup_gatherNewPeers]
        unfold HeartbeatThreadMessage.packets at hpackets
        rw [hpackets]
        simp
      have hlookup : (updatedPeers inflateByteBuffer s msg).1.lookup
          hb.sourcePeerID =
          (gatherNewPeers msg.peerInfo).lookup hb.sourcePeerID := by
        have h : (updatedPeers inflateByteBuffer s msg).1.lookup
            hb.sourcePeerID = _ :=
          lookup_putNewPeers (gatherNewPeers msg.peerInfo).nodupKeys
        cases hq : (gatherNewPeers msg.peerInfo).lookup hb.sourcePeerID with
        | none => simp [hq] at hhead
        | some q =>
            have hq' : (gatherNewPeers msg.peerInfo).entries.dlookup
                hb.sourcePeerID = some q := hq
            rw [hq'] at h
            exact h
      generalize (updatedPeers inflateByteBuffer s msg).1 = peers
        at hkeys hlookup
      cases hentries : peers.entries with
      | nil => simp [AList.keys, List.keys, hentries] at hkeys
      | cons x entries =>
          obtain ⟨firstPeer, q⟩ := x
          have hfirst : firstPeer = hb.sourcePeerID := by
            simp only [AList.keys, List.keys, hentries, List.map_cons,
              List.cons.injEq] at hkeys
            exact hkeys.1
          subst hfirst
          have hq : peers.lookup hb.sourcePeerID = some q :=
            AList.mem_lookup_iff.mpr (by simp [hentries])
          rw [← hlookup, hq] at hhead
          obtain rfl : q.head = hb := by simpa using hhead
          rfl

section

variable (hmaster : s.hasMaster = true)
variable (hwhat : msg.what = pzgHeartbeatCommandPeersUpdate)

include hmaster hwhat

/-- An update, loop by loop. -/
theorem messageReceivedFromInternalThread_eq :
    s.messageReceivedFromInternalThread inflateByteBuffer msg =
      let s' := { s with
        mainThreadPeers := (updatedPeers inflateByteBuffer s msg).1 }
      (s', (leftPeers inflateByteBuffer s msg).2 ++
        (updatedPeers inflateByteBuffer s msg).2 ++
        if s'.getSeniorPeerID ≠ s.getSeniorPeerID then
          [.seniorPeerChanged s.getSeniorPeerID s'.getSeniorPeerID]
        else []) := by
  simp only [PZGHeartbeatSession.messageReceivedFromInternalThread, hwhat,
    hmaster, if_true]
  rfl

/-- The peers that have gone or changed are reported gone, whatever the
order. -/
theorem offlineOf_update :
    offlineOf (s.messageReceivedFromInternalThread inflateByteBuffer msg).2 =
      s.mainThreadPeers.keys.filter fun p => !s.unchanged msg p := by
  have hloop : offlineOf (leftPeers inflateByteBuffer s msg).2 =
      s.mainThreadPeers.keys.filter fun p => !s.unchanged msg p :=
    offlineOf_removeGonePeers.trans keys_filter_hasGone
  have hquiet : offlineOf (updatedPeers inflateByteBuffer s msg).2 = [] :=
    offlineOf_putNewPeers
  rw [messageReceivedFromInternalThread_eq hmaster hwhat]
  dsimp only
  rw [offlineOf_append, offlineOf_append, hloop, hquiet]
  split <;> simp [offlineOf]

/-- The peers that are new or have changed are reported new, whatever the
order. -/
theorem onlineOf_update :
    onlineOf (s.messageReceivedFromInternalThread inflateByteBuffer msg).2 =
      msg.peerIDs.filter fun p => !s.unchanged msg p := by
  have hloop : onlineOf (updatedPeers inflateByteBuffer s msg).2 =
      msg.peerIDs.filter fun p => !s.unchanged msg p := by
    rw [updatedPeers, onlineOf_putNewPeers
      (gatherNewPeers msg.peerInfo).nodupKeys (by simp), keys_newPeers]
    refine List.filter_congr fun p _ => ?_
    simp [mem_leftPeers]
  have hquiet : onlineOf (leftPeers inflateByteBuffer s msg).2 = [] :=
    onlineOf_removeGonePeers
  rw [messageReceivedFromInternalThread_eq hmaster hwhat]
  dsimp only
  rw [onlineOf_append, onlineOf_append, hloop, hquiet]
  split <;> simp [onlineOf]

/-- The master is told of another senior exactly when the table has one. -/
theorem seniorPeerChanged_mem_update {old new : ZGPeerID} :
    .seniorPeerChanged old new ∈
        (s.messageReceivedFromInternalThread inflateByteBuffer msg).2 ↔
      old = s.getSeniorPeerID ∧
      new = (s.messageReceivedFromInternalThread
        inflateByteBuffer msg).1.getSeniorPeerID ∧ old ≠ new := by
  have hleft : .seniorPeerChanged old new ∉
      (leftPeers inflateByteBuffer s msg).2 := by
    intro hc
    obtain ⟨p, peerInfo, heq⟩ := eq_offline_of_mem_removeGonePeers hc
    cases heq
  have hupdated : .seniorPeerChanged old new ∉
      (updatedPeers inflateByteBuffer s msg).2 := by
    intro hc
    obtain ⟨p, peerInfo, heq⟩ := eq_online_of_mem_putNewPeers hc
    cases heq
  rw [messageReceivedFromInternalThread_eq hmaster hwhat]
  dsimp only
  rw [List.mem_append, List.mem_append]
  simp only [hleft, hupdated, false_or]
  split
  · rename_i hchanged
    simp only [List.mem_singleton, NetworkIOCall.seniorPeerChanged.injEq]
    constructor
    · rintro ⟨rfl, rfl⟩
      exact ⟨rfl, rfl, Ne.symm hchanged⟩
    · rintro ⟨hold, hnew, -⟩
      exact ⟨hold, hnew⟩
  · rename_i hsame
    constructor
    · intro hc
      cases hc
    · rintro ⟨rfl, rfl, hne⟩
      exact absurd (Ne.symm hne) hsame

/-- An update of a session that still has its master follows the official
list if and only if the peers that stay are in its order already. -/
theorem followsOfficialList_iff :
    FollowsOfficialList s msg
        (s.messageReceivedFromInternalThread inflateByteBuffer msg).1
        (s.messageReceivedFromInternalThread inflateByteBuffer msg).2 ↔
      s.KeepsOrder msg := by
  have htable : (s.messageReceivedFromInternalThread
      inflateByteBuffer msg).1.mainThreadPeers =
      (updatedPeers inflateByteBuffer s msg).1 := by
    rw [messageReceivedFromInternalThread_eq hmaster hwhat]
  constructor
  · intro h
    have horder := h.keyOrder
    rw [htable] at horder
    exact keys_updatedPeers_iff.mp horder
  · intro hkeeps
    have horder : (s.messageReceivedFromInternalThread
        inflateByteBuffer msg).1.mainThreadPeers.keys = msg.peerIDs := by
      rw [htable]
      exact keys_updatedPeers_iff.mpr hkeeps
    refine ⟨horder, fun p => ?_, offlineOf_update hmaster hwhat,
      onlineOf_update hmaster hwhat,
      fun old new => seniorPeerChanged_mem_update hmaster hwhat⟩
    rw [AList.mem_keys, horder, HeartbeatThreadMessage.peerIDs,
      List.mem_eraseDups, List.mem_map]

end

end

/-! ### Two peers that change places -/

/-- A packet of a full peer without attributes. -/
def fullPeerPacket (heartbeatPacketID : UInt32) (p : ZGPeerID) :
    PZGHeartbeatPacket :=
  { heartbeatPacketID, systemKey := 1, tcpAcceptPort := 4000
    peerType := peerTypeFullPeer, sourcePeerID := p, peerAttributesBuf := none }

/-- An update that names full peers, heard from one source each. -/
def officialList (heartbeatPacketID : UInt32) (ids : List ZGPeerID) :
    HeartbeatThreadMessage :=
  { what := pzgHeartbeatCommandPeersUpdate
    peerInfo := ids.map fun p => some (fullPeerPacket heartbeatPacketID p) }

/-- A session that has heard of the peers 1 and 2, in this order. -/
def knowsTwoPeers : PZGHeartbeatSession :=
  (PZGHeartbeatSession.messageReceivedFromInternalThread
    (fun bytes => some bytes) { hasMaster := true, mainThreadPeers := ∅ }
    (officialList 1 [⟨0, 1⟩, ⟨0, 2⟩])).1

/-- A third peer may join anywhere. -/
theorem knowsTwoPeers_followsOfficialList :
    FollowsOfficialList knowsTwoPeers
      (officialList 2 [⟨0, 3⟩, ⟨0, 1⟩, ⟨0, 3⟩, ⟨0, 2⟩])
      (knowsTwoPeers.messageReceivedFromInternalThread (fun bytes => some bytes)
        (officialList 2 [⟨0, 3⟩, ⟨0, 1⟩, ⟨0, 3⟩, ⟨0, 2⟩])).1
      (knowsTwoPeers.messageReceivedFromInternalThread (fun bytes => some bytes)
        (officialList 2 [⟨0, 3⟩, ⟨0, 1⟩, ⟨0, 3⟩, ⟨0, 2⟩])).2 :=
  (followsOfficialList_iff rfl rfl).mpr (by decide)

/-- The official list puts peer 2 first; the table does not follow, and
peer 1 stays the senior. -/
theorem knowsTwoPeers_ignores_new_order :
    ¬ FollowsOfficialList knowsTwoPeers (officialList 2 [⟨0, 2⟩, ⟨0, 1⟩])
      (knowsTwoPeers.messageReceivedFromInternalThread (fun bytes => some bytes)
        (officialList 2 [⟨0, 2⟩, ⟨0, 1⟩])).1
      (knowsTwoPeers.messageReceivedFromInternalThread (fun bytes => some bytes)
        (officialList 2 [⟨0, 2⟩, ⟨0, 1⟩])).2 ∧
    (knowsTwoPeers.messageReceivedFromInternalThread (fun bytes => some bytes)
      (officialList 2 [⟨0, 2⟩, ⟨0, 1⟩])).1.getSeniorPeerID = ⟨0, 1⟩ := by
  constructor
  · intro h
    have horder := h.keyOrder
    revert horder
    decide
  · decide

end ZgChoir
