import ZgChoir.Kingmaker

/-!
# The pecking order in both threads

The heartbeat thread takes the network clock from the peer whose source is
the first in the list that it has sent; the main thread takes its orders from
the first peer of its own table, if this is a full one.  The list goes from
one to the other in messages, and only when the sources in it have changed,
in whatever order they are.

`agreesOnOrder_of_keepsPace` says when the two agree, once the last message
has been handled.
-/

namespace ZgChoir

open PZGHeartbeatThreadState

variable {Addr : Type} [DecidableEq Addr] [IPAddressAndPort Addr]
variable {Attributes : Type} {inflateByteBuffer : List UInt8 → Option Attributes}

/-! ### The two threads -/

/-- The heartbeat thread, the messages that it has sent to the main thread and
that are still to be handled, the oldest first, and the main thread's
session. -/
structure HeartbeatThreads (Addr : Type) where
  thread : PZGHeartbeatThreadState Addr
  sent : List HeartbeatThreadMessage
  main : PZGHeartbeatSession

namespace HeartbeatThreads

/-- Either thread takes a turn. -/
inductive Event (Addr : Type) where
  | heartbeat (e : PZGHeartbeatThreadState.Event Addr)
  | messageReceived

/-- Both threads at the start. -/
def initialized (hbSettings : PZGHeartbeatSettings) (startTime : ℕ) :
    HeartbeatThreads Addr where
  thread := .initialized hbSettings startTime
  sent := []
  main := { hasMaster := true, mainThreadPeers := ∅ }

/-- The threads after an event. -/
def step (inflateByteBuffer : List UInt8 → Option Attributes)
    (s : HeartbeatThreads Addr) : Event Addr → HeartbeatThreads Addr
  | .heartbeat e =>
      { s with
        thread := (s.thread.handle e).1
        sent := s.sent ++ (s.thread.handle e).2.toList }
  | .messageReceived =>
      match s.sent with
      | [] => s
      | msg :: sent =>
          { s with
            sent
            main := (s.main.messageReceivedFromInternalThread
              inflateByteBuffer msg).1 }

omit [IPAddressAndPort Addr] in
/-- The fully attached peers in the list that was computed last, in its
order. -/
def attachedOrder (s : HeartbeatThreads Addr) : List ZGPeerID :=
  s.thread.officialPeersList.eraseDups.filter s.thread.isAttachedPeer

omit [IPAddressAndPort Addr] in
/-- When this peer is fully attached and nothing is left to do, the two
threads have the same order and the same senior. -/
def AgreesOnOrder (s : HeartbeatThreads Addr) : Prop :=
  s.thread.isFullyAttached = true →
  s.thread.updateOfficialPeersListPending = false → s.sent = [] →
  s.main.mainThreadPeers.keys = s.attachedOrder ∧
    s.thread.getSeniorPeerID = s.main.getSeniorPeerID

end HeartbeatThreads

namespace PZGHeartbeatThreadState

variable {s s' t : PZGHeartbeatThreadState Addr} {p : ZGPeerID}

/-! ### What happens between two updates of the list -/

omit [IPAddressAndPort Addr] in
/-- From `s` to `s'` the list was left alone, and so was who is fully
attached, unless the list is to be sent again. -/
structure ForcedOrKept (s s' : PZGHeartbeatThreadState Addr) : Prop where
  now : s'.now = s.now
  fullyAttachedTime : s'.fullyAttachedTime = s.fullyAttachedTime
  reported : s'.fullAttachmentReported = s.fullAttachmentReported ∨
    (s.isFullyAttached = true ∧ s'.forceOfficialPeersUpdate = true)
  forcedOrKept :
    (s'.forceOfficialPeersUpdate = true ∧
      s'.updateOfficialPeersListPending = true) ∨
    (s'.forceOfficialPeersUpdate = s.forceOfficialPeersUpdate ∧
      (s.updateOfficialPeersListPending = true →
        s'.updateOfficialPeersListPending = true) ∧
      s'.officialPeersList = s.officialPeersList ∧
      s'.lastSourcesSentToMaster = s.lastSourcesSentToMaster ∧
      s'.isAttachedPeer = s.isAttachedPeer)

section

omit [IPAddressAndPort Addr]

theorem ForcedOrKept.isFullyAttached_eq (h : ForcedOrKept s s') :
    s'.isFullyAttached = s.isFullyAttached := by
  rw [isFullyAttached, isFullyAttached, h.now, h.fullyAttachedTime]

/-- What is forced stays so. -/
theorem ForcedOrKept.forced (h : ForcedOrKept s s')
    (hforced : s.forceOfficialPeersUpdate = true) :
    s'.forceOfficialPeersUpdate = true := by
  rcases h.forcedOrKept with ⟨hforced', -⟩ | ⟨hforce, -⟩
  · exact hforced'
  · exact hforce.trans hforced

theorem ForcedOrKept.refl : ForcedOrKept s s :=
  ⟨rfl, rfl, Or.inl rfl, Or.inr ⟨rfl, id, rfl, rfl, rfl⟩⟩

theorem ForcedOrKept.trans (h : ForcedOrKept s s') (h' : ForcedOrKept s' t) :
    ForcedOrKept s t := by
  refine ⟨h'.now.trans h.now, h'.fullyAttachedTime.trans h.fullyAttachedTime,
    ?_, ?_⟩
  · rcases h'.reported with hreported | ⟨hattached, hforced⟩
    · rw [hreported]
      exact h.reported.imp_right fun hforced => ⟨hforced.1, h'.forced hforced.2⟩
    · exact Or.inr ⟨h.isFullyAttached_eq ▸ hattached, hforced⟩
  · rcases h'.forcedOrKept with hforced | ⟨hforce, hpending, hlist, hlast, hattached⟩
    · exact Or.inl hforced
    · rcases h.forcedOrKept with
        ⟨hforced, hpending₁⟩ | ⟨hforce₁, hpending₁, hlist₁, hlast₁, hattached₁⟩
      · exact Or.inl ⟨hforce.trans hforced, hpending hpending₁⟩
      · exact Or.inr ⟨hforce.trans hforce₁, hpending ∘ hpending₁,
          hlist.trans hlist₁, hlast.trans hlast₁, hattached.trans hattached₁⟩

/-- Scheduling an update changes nothing else. -/
theorem forcedOrKept_schedule {forceUpdate : Bool} :
    ForcedOrKept s (s.scheduleUpdateOfficialPeersList forceUpdate) := by
  refine ⟨rfl, rfl, Or.inl rfl, ?_⟩
  cases forceUpdate with
  | false =>
      exact Or.inr ⟨Bool.or_false _, fun _ => rfl, rfl, rfl, rfl⟩
  | true => exact Or.inl ⟨Bool.or_true _, rfl⟩

/-- A peer is fully attached when one of its sources says so. -/
theorem isAttachedPeer_iff_source : s.isAttachedPeer p = true ↔
    ∃ source ∈ s.sourcesOfPeer p,
      (s.packetFrom source).map (·.isFullyAttached) = some true := by
  rw [isAttachedPeer_iff]
  simp only [attachedPackets, List.mem_filterMap, attachedPacketFrom]
  constructor
  · rintro ⟨hb, source, hsource, hhb⟩
    refine ⟨source, hsource, ?_⟩
    cases hfrom : s.packetFrom source with
    | none => simp [hfrom] at hhb
    | some packet =>
        by_cases hattached : packet.isFullyAttached = true
        · simp [hattached]
        · simp [hfrom, hattached] at hhb
  · rintro ⟨source, hsource, hattached⟩
    obtain ⟨packet, hfrom, hattached⟩ := Option.map_eq_some_iff.mp hattached
    exact ⟨packet.toPZGHeartbeatPacket, source, hsource, by simp [hfrom, hattached]⟩

/-- Sources with the same addresses, as attached as before, are of peers as
attached as before. -/
theorem isAttachedPeer_congr (haddresses : s'.addressesOf = s.addressesOf)
    (hattached : ∀ source, (s'.packetFrom source).map (·.isFullyAttached) =
      (s.packetFrom source).map (·.isFullyAttached)) :
    s'.isAttachedPeer = s.isAttachedPeer := by
  funext p
  rw [Bool.eq_iff_iff, isAttachedPeer_iff_source, isAttachedPeer_iff_source]
  simp only [hattached, sourcesOfPeer, haddresses]

theorem forcedOrKept_expireSource {source : PZGHeartbeatSourceKey Addr} :
    ForcedOrKept s (s.expireSource source) := by
  unfold expireSource
  split
  · exact ⟨rfl, rfl, Or.inl rfl, Or.inl ⟨Bool.or_true _, rfl⟩⟩
  · exact .refl

theorem forcedOrKept_introduceSource {source : PZGHeartbeatSourceKey Addr}
    {newSource : PZGHeartbeatSourceState} :
    ForcedOrKept s (s.introduceSource source newSource) :=
  ⟨rfl, rfl, Or.inl rfl, Or.inl ⟨Bool.or_true _, rfl⟩⟩

/-- A heartbeat either leaves its peer as attached as it was, or has the list
sent again. -/
theorem forcedOrKept_heartbeatReceived {source : PZGHeartbeatSourceKey Addr}
    {newSource : PZGHeartbeatSourceState} :
    ForcedOrKept s (s.heartbeatReceived source newSource) := by
  unfold heartbeatReceived
  split
  · rename_i oldSource hold
    have hin : source ∈ s.onlineSources :=
      AList.lookup_isSome.mp (by rw [hold]; rfl)
    dsimp only
    split_ifs with hsame hattached
    · exact ⟨rfl, rfl, Or.inl rfl, Or.inl ⟨Bool.or_true _, rfl⟩⟩
    · refine ⟨rfl, rfl, Or.inl rfl, Or.inr ⟨rfl, id, rfl, rfl, ?_⟩⟩
      refine isAttachedPeer_congr rfl fun source' => ?_
      rw [packetFrom, AList.lookup_replace hin]
      by_cases hsource : source' = source
      · subst hsource
        simpa [packetFrom, hold] using (not_not.mp hattached).symm
      · simp [hsource, packetFrom]
    · exact forcedOrKept_expireSource.trans forcedOrKept_introduceSource
  · exact forcedOrKept_introduceSource

theorem forcedOrKept_receiveMulticastTraffic {a : Addr}
    {newHB : PZGHeartbeatPacketWithMetaData} {localReceiveTimeMicros : ℕ} :
    ForcedOrKept s (s.receiveMulticastTraffic a newHB localReceiveTimeMicros) := by
  have hscheduled : ∀ s : PZGHeartbeatThreadState Addr, ForcedOrKept s
      (if s.updateOfficialPeersListPending = false ∧
        newHB.sourcePeerID = s.getKingmakerPeerID then
        s.scheduleUpdateOfficialPeersList false else s) := by
    intro s
    split_ifs
    · exact forcedOrKept_schedule
    · exact .refl
  have hoffset : ∀ s : PZGHeartbeatThreadState Addr, ForcedOrKept s
      (if newHB.sourcePeerID = s.getSeniorPeerID then
        { s with updateToNetworkTimeOffsetPending := true } else s) := by
    intro s
    split_ifs
    · exact ⟨rfl, rfl, Or.inl rfl, Or.inr ⟨rfl, id, rfl, rfl, rfl⟩⟩
    · exact .refl
  unfold receiveMulticastTraffic
  split_ifs with hversion hkey
  · exact .refl
  · exact .refl
  · exact forcedOrKept_heartbeatReceived.trans
      ((hscheduled _).trans (hoffset _))

end

/-! ### A pulse -/

theorem sameTables_calculateOrderedPeersList :
    SameTables s s.calculateOrderedPeersList.1 := by
  unfold calculateOrderedPeersList
  split
  · exact ⟨rfl, rfl⟩
  · exact sameTables_sortBySeniority

theorem isAttachedPeer_calculateOrderedPeersList :
    s.calculateOrderedPeersList.1.isAttachedPeer = s.isAttachedPeer := by
  funext p
  rw [isAttachedPeer, sameTables_calculateOrderedPeersList.attachedPackets_eq,
    isAttachedPeer]

/-- Working out the list does not touch the one that is kept. -/
theorem forcedOrKept_calculateOrderedPeersList :
    ForcedOrKept s s.calculateOrderedPeersList.1 := by
  have hattached := isAttachedPeer_calculateOrderedPeersList (s := s)
  unfold calculateOrderedPeersList at hattached ⊢
  split at hattached
  · exact .refl
  · exact ⟨rfl, rfl, Or.inl rfl, Or.inr ⟨rfl, id, rfl, rfl, hattached⟩⟩

theorem forcedOrKept_pulseSend {canSend : Bool} :
    ForcedOrKept s (s.pulseSend canSend) := by
  have htime : ∀ nextSendHeartbeatTime, ForcedOrKept s
      { s with nextSendHeartbeatTime } := fun _ =>
    ⟨rfl, rfl, Or.inl rfl, Or.inr ⟨rfl, id, rfl, rfl, rfl⟩⟩
  unfold pulseSend
  split
  · dsimp only
    split
    · exact (htime _).trans forcedOrKept_calculateOrderedPeersList
    · exact htime _
  · exact .refl

omit [IPAddressAndPort Addr] in
theorem forcedOrKept_pulseExpire : ForcedOrKept s s.pulseExpire := by
  unfold pulseExpire
  generalize s.onlineSources.entries = sources
  induction sources generalizing s with
  | nil => exact .refl
  | cons source sources ih =>
      rw [List.foldl_cons]
      split_ifs
      · exact forcedOrKept_expireSource.trans ih
      · exact ih

omit [IPAddressAndPort Addr] in
theorem forcedOrKept_pulseAttach : ForcedOrKept s s.pulseAttach := by
  unfold pulseAttach
  split_ifs with hattach
  · exact ⟨rfl, rfl, Or.inr ⟨hattach.2, Bool.or_true _⟩,
      Or.inl ⟨Bool.or_true _, rfl⟩⟩
  · exact .refl

omit [DecidableEq Addr] [IPAddressAndPort Addr] in
/-- A fully attached peer that has not yet said so has the list sent
again. -/
theorem forced_pulseAttach (hattached : s.isFullyAttached = true)
    (hunreported : s.fullAttachmentReported = false) :
    s.pulseAttach.forceOfficialPeersUpdate = true := by
  rw [pulseAttach, if_pos ⟨hunreported, hattached⟩]
  exact Bool.or_true _

/-- All that a pulse does after the list. -/
theorem forcedOrKept_pulse {canSend : Bool} :
    ForcedOrKept s.pulseOfficialPeersList.1 (s.pulse canSend).1 ∧
      (s.pulseOfficialPeersList.1.isFullyAttached = true →
        s.pulseOfficialPeersList.1.fullAttachmentReported = false →
        (s.pulse canSend).1.forceOfficialPeersUpdate = true) := by
  have hoffset : ∀ s : PZGHeartbeatThreadState Addr, ForcedOrKept s
      { s with updateToNetworkTimeOffsetPending := false } := fun _ =>
    ⟨rfl, rfl, Or.inl rfl, Or.inr ⟨rfl, id, rfl, rfl, rfl⟩⟩
  have hsend : ∀ s : PZGHeartbeatThreadState Addr, ForcedOrKept s
      (s.pulseSend canSend).pulseExpire := fun _ =>
    forcedOrKept_pulseSend.trans forcedOrKept_pulseExpire
  obtain ⟨t, ht, hpulse⟩ : ∃ t, ForcedOrKept s.pulseOfficialPeersList.1 t ∧
      (s.pulse canSend).1 = t.pulseAttach :=
    ⟨_, (hoffset _).trans (hsend _), rfl⟩
  rw [hpulse]
  refine ⟨ht.trans forcedOrKept_pulseAttach, fun hattached hunreported => ?_⟩
  rcases ht.reported with hreported | ⟨-, hforced⟩
  · exact forced_pulseAttach (ht.isFullyAttached_eq.trans hattached)
      (hreported.trans hunreported)
  · exact forcedOrKept_pulseAttach.forced hforced

/-! ### An update of the list -/

/-- Whether an update of the list is to be sent. -/
def resends (s : PZGHeartbeatThreadState Addr) : Bool :=
  s.forceOfficialPeersUpdate ||
    !sameSources (s.sourcesOf s.calculateOrderedPeersList.2)
      s.lastSourcesSentToMaster

/-- The update of the list keeps pace: a list that is sent begins with a full
peer that is fully attached, and one that is not has those who are fully
attached in the order of the last one. -/
def UpdateKeepsPace (s : PZGHeartbeatThreadState Addr) : Prop :=
  let ids := s.calculateOrderedPeersList.2
  if s.resends then
    ∀ p ∈ ids.head?, ∃ hb ∈ (s.attachedPackets p).head?,
      hb.peerType = peerTypeFullPeer
  else ids.eraseDups.filter s.isAttachedPeer =
    s.officialPeersList.eraseDups.filter s.isAttachedPeer

instance : Decidable s.UpdateKeepsPace :=
  inferInstanceAs (Decidable (if s.resends then _ else _))

omit [DecidableEq Addr] [IPAddressAndPort Addr] in
theorem isFullyAttached_later {elapsedMicros : ℕ}
    (h : s.isFullyAttached = true) :
    { s with now := s.now + elapsedMicros }.isFullyAttached = true := by
  rw [isFullyAttached, decide_eq_true_eq] at h ⊢
  exact h.trans (Nat.le_add_right _ _)

omit [IPAddressAndPort Addr] in
/-- The first source in a list is of its first peer, if that one is fully
attached. -/
theorem Coherent.seniorPeerID_peersUpdate {ids : List ZGPeerID}
    (h : Coherent s)
    (hfirst : ∀ p ∈ ids.head?, ∃ hb ∈ (s.attachedPackets p).head?,
      hb.peerType = peerTypeFullPeer)
    (hlast : s'.lastSourcesSentToMaster = s.sourcesOf ids) :
    (s.peersUpdate (s.sourcesOf ids)).seniorPeerID = s'.getSeniorPeerID := by
  cases ids with
  | nil =>
      have hnone : s.sourcesOf [] = [] := rfl
      rw [getSeniorPeerID, hlast, hnone]
      rfl
  | cons p ids =>
      obtain ⟨hb, hhb, htype⟩ := hfirst p rfl
      have hpackets : (s.peersUpdate (s.sourcesOf (p :: ids))).packets.head? =
          some hb := by
        rw [h.head_peersUpdate, List.findSome?_cons, hhb]
      have hin : hb ∈ s.attachedPackets p := List.mem_of_head? hhb
      obtain ⟨others, hsources⟩ : ∃ others,
          s.sourcesOf (p :: ids) = s.sourcesOfPeer p ++ others :=
        ⟨_, by rw [h.sourcesOf_eq, List.eraseDups_cons, List.flatMap_cons]⟩
      obtain ⟨source, hsource, -⟩ := List.mem_filterMap.mp hin
      rw [seniorPeerID_eq hpackets, if_pos htype,
        (h.of_mem_attachedPackets hin).1, getSeniorPeerID, hlast, hsources]
      cases hq : s.sourcesOfPeer p with
      | nil =>
          rw [hq] at hsource
          cases hsource
      | cons first rest =>
          have hmem : first ∈ s.sourcesOfPeer p := hq ▸ List.mem_cons_self
          exact (mem_sourcesOfPeer.mp hmem).1.symm

theorem sourcesOf_calculateOrderedPeersList {ids : List ZGPeerID} :
    s.calculateOrderedPeersList.1.sourcesOf ids = s.sourcesOf ids := by
  simp only [sourcesOf, lookup_calculateOrderedPeersList.2.2]

omit [IPAddressAndPort Addr] in
theorem SameTables.peersUpdate_eq (h : SameTables s s') :
    s'.peersUpdate = s.peersUpdate := by
  funext sources
  simp only [peersUpdate, h.packets]

/-- What an update of the list leaves behind, and the message that it has
for the main thread. -/
structure ListUpdated (s s' : PZGHeartbeatThreadState Addr)
    (msg : Option HeartbeatThreadMessage) : Prop where
  isFullyAttached : s'.isFullyAttached = s.isFullyAttached
  reported : s'.fullAttachmentReported = s.fullAttachmentReported
  unforced : s'.forceOfficialPeersUpdate = false
  list : s'.officialPeersList = s.calculateOrderedPeersList.2
  isAttachedPeer : s'.isAttachedPeer = s.isAttachedPeer
  last : s'.lastSourcesSentToMaster =
    if s.resends then s.sourcesOf s.calculateOrderedPeersList.2
    else s.lastSourcesSentToMaster
  sent : msg =
    if s.resends = true ∧ s.isFullyAttached = true then
      some (s.peersUpdate (s.sourcesOf s.calculateOrderedPeersList.2))
    else none

omit [DecidableEq Addr] [IPAddressAndPort Addr] in
/-- `s` without an update that is pending. -/
def cleared (s : PZGHeartbeatThreadState Addr) : PZGHeartbeatThreadState Addr :=
  { s with
    updateOfficialPeersListPending := false
    forceOfficialPeersUpdate := false }

theorem calculateOrderedPeersList_cleared :
    s.cleared.calculateOrderedPeersList =
      (s.calculateOrderedPeersList.1.cleared, s.calculateOrderedPeersList.2) := by
  have hkm : s.cleared.getKingmakerPeerSource = s.getKingmakerPeerSource := rfl
  unfold calculateOrderedPeersList
  rw [hkm]
  split <;> rfl

/-- **An update of the list.** -/
theorem listUpdated_pulse (hpending : s.updateOfficialPeersListPending = true) :
    ListUpdated s s.pulseOfficialPeersList.1 s.pulseOfficialPeersList.2 := by
  have hunforced : s.pulseOfficialPeersList = updateOfficialPeersList
      s.forceOfficialPeersUpdate s.cleared := if_pos hpending
  rw [hunforced, updateOfficialPeersList, calculateOrderedPeersList_cleared]
  have hsources : s.calculateOrderedPeersList.1.cleared.sourcesOf
      s.calculateOrderedPeersList.2 =
      s.sourcesOf s.calculateOrderedPeersList.2 :=
    sourcesOf_calculateOrderedPeersList
  have hlast : s.calculateOrderedPeersList.1.lastSourcesSentToMaster =
      s.lastSourcesSentToMaster := by
    unfold calculateOrderedPeersList
    split <;> rfl
  have hreported : s.calculateOrderedPeersList.1.fullAttachmentReported =
      s.fullAttachmentReported := by
    unfold calculateOrderedPeersList
    split <;> rfl
  have hfully : s.calculateOrderedPeersList.1.isFullyAttached =
      s.isFullyAttached :=
    forcedOrKept_calculateOrderedPeersList.isFullyAttached_eq
  have hattached := isAttachedPeer_calculateOrderedPeersList (s := s)
  have hmessage : s.calculateOrderedPeersList.1.peersUpdate = s.peersUpdate :=
    sameTables_calculateOrderedPeersList.peersUpdate_eq
  dsimp only
  rw [hsources]
  split
  · rename_i hresends
    have hresends' : s.resends = true := by
      rw [resends, ← hlast]
      exact hresends
    refine ⟨hfully, hreported, rfl, rfl, hattached, ?_, ?_⟩
    · rw [if_pos hresends']
    · change (if s.calculateOrderedPeersList.1.isFullyAttached = true then
        some (s.calculateOrderedPeersList.1.peersUpdate _) else none) = _
      rw [hfully, hmessage]
      simp only [hresends', true_and]
  · rename_i hresends
    have hresends' : ¬ s.resends = true := by
      rw [resends, ← hlast]
      exact hresends
    refine ⟨hfully, hreported, rfl, rfl, hattached, ?_, ?_⟩
    · rw [if_neg hresends']
      exact hlast
    · rw [if_neg fun h => hresends' h.1]

end PZGHeartbeatThreadState

namespace HeartbeatThreads

variable {s : HeartbeatThreads Addr}

/-! ### Keeping pace -/

/-- The event keeps pace: the turn in which this peer becomes fully attached
makes its pulse, an update of the list while it is keeps pace, and the peers
that stay in the main thread's table are in the order of the message. -/
def KeepsPace (s : HeartbeatThreads Addr) : Event Addr → Prop
  | .heartbeat (.awoke elapsedMicros _) =>
      s.thread.fullyAttachedTime ≤ s.thread.now + elapsedMicros →
        (s.thread.isFullyAttached = false →
          s.thread.getPulseTime ≤ (s.thread.now + elapsedMicros : ℕ)) ∧
        (s.thread.updateOfficialPeersListPending = true →
          { s.thread with now := s.thread.now + elapsedMicros }.UpdateKeepsPace)
  | .heartbeat (.received _ _ _) => True
  | .messageReceived => ∀ msg ∈ s.sent.head?, s.main.KeepsOrder msg

instance : ∀ e : Event Addr, Decidable (s.KeepsPace e)
  | .heartbeat (.awoke _ _) => inferInstanceAs (Decidable (_ → _ ∧ _))
  | .heartbeat (.received _ _ _) => .isTrue trivial
  | .messageReceived => inferInstanceAs (Decidable (∀ msg ∈ s.sent.head?, _))

omit [IPAddressAndPort Addr] in
/-- The last message that is under way, or the main thread if none is, has
the order and the senior of the heartbeat thread. -/
def Told (s : HeartbeatThreads Addr) : Prop :=
  match s.sent.getLast? with
  | some msg => msg.peerIDs = s.attachedOrder ∧
      msg.seniorPeerID = s.thread.getSeniorPeerID
  | none => s.main.mainThreadPeers.keys = s.attachedOrder ∧
      s.main.getSeniorPeerID = s.thread.getSeniorPeerID

omit [IPAddressAndPort Addr] in
/-- What every event preserves. -/
structure Sound (s : HeartbeatThreads Addr) : Prop where
  coherent : Coherent s.thread
  hasMaster : s.main.hasMaster = true
  updates : ∀ msg ∈ s.sent, msg.what = pzgHeartbeatCommandPeersUpdate
  forced : s.thread.forceOfficialPeersUpdate = true →
    s.thread.updateOfficialPeersListPending = true
  unreported : s.thread.fullAttachmentReported = true →
    s.thread.isFullyAttached = true

omit [IPAddressAndPort Addr] in
/-- What every event that keeps pace preserves. -/
structure InPace (s : HeartbeatThreads Addr) : Prop extends Sound s where
  told : s.thread.isFullyAttached = true →
    s.thread.forceOfficialPeersUpdate = false → s.Told

omit [IPAddressAndPort Addr] in
theorem inPace_initialized {hbSettings : PZGHeartbeatSettings} {startTime : ℕ} :
    InPace (initialized hbSettings startTime : HeartbeatThreads Addr) where
  coherent := coherent_initialized
  hasMaster := rfl
  updates := by simp [initialized]
  forced h := by cases h
  unreported h := by cases h
  told _ _ := ⟨rfl, rfl⟩

/-- A turn of the main thread. -/
theorem InPace.messageReceived (h : InPace s)
    (hkeeps : ∀ msg ∈ s.sent.head?, s.main.KeepsOrder msg) :
    InPace (s.step inflateByteBuffer .messageReceived) := by
  cases hsent : s.sent with
  | nil =>
      have hidle : s.step inflateByteBuffer .messageReceived = s := by
        rw [step, hsent]
      rwa [hidle]
  | cons msg sent =>
      have hwhat := h.updates msg (hsent ▸ List.mem_cons_self)
      have horder : s.main.KeepsOrder msg := hkeeps msg (by rw [hsent]; rfl)
      have hstep : s.step inflateByteBuffer .messageReceived =
          { s with
            sent
            main := { s.main with
              mainThreadPeers :=
                (updatedPeers inflateByteBuffer s.main msg).1 } } := by
        rw [step, hsent]
        dsimp only
        rw [messageReceivedFromInternalThread_eq h.hasMaster hwhat]
      rw [hstep]
      refine ⟨⟨h.coherent, h.hasMaster, fun msg' hmsg' => ?_, h.forced,
        h.unreported⟩, fun hattached hunforced => ?_⟩
      · exact h.updates msg' (hsent ▸ List.mem_cons_of_mem msg hmsg')
      · have htold := h.told hattached hunforced
        unfold Told at htold ⊢
        rw [hsent] at htold
        cases sent with
        | nil =>
            exact ⟨(keys_updatedPeers_iff.mpr horder).trans htold.1,
              (getSeniorPeerID_updatedPeers horder).trans htold.2⟩
        | cons msg' sent => exact htold

section

omit [IPAddressAndPort Addr]

variable {t : PZGHeartbeatThreadState Addr}

theorem Sound.kept (h : Sound s) (hkept : ForcedOrKept s.thread t)
    (hcoherent : Coherent t) : Sound { s with thread := t } := by
  refine ⟨hcoherent, h.hasMaster, h.updates, fun hforced => ?_,
    fun hreported => ?_⟩
  · rcases hkept.forcedOrKept with ⟨-, hpending⟩ | ⟨hforce, hpending, -⟩
    · exact hpending
    · exact hpending (h.forced (hforce ▸ hforced))
  · dsimp only
    rw [hkept.isFullyAttached_eq]
    rcases hkept.reported with hsame | ⟨hattached, -⟩
    · exact h.unreported (hsame ▸ hreported)
    · exact hattached

/-- The heartbeat thread without an update of the list. -/
theorem InPace.kept (h : InPace s) (hkept : ForcedOrKept s.thread t)
    (hcoherent : Coherent t) : InPace { s with thread := t } := by
  refine ⟨h.toSound.kept hkept hcoherent, fun hattached hunforced => ?_⟩
  rcases hkept.forcedOrKept with ⟨hforced, -⟩ | ⟨hforce, -, hlist, hlast, hpeers⟩
  · exact absurd (hforced.symm.trans hunforced) (by decide)
  · have htold := h.told (hkept.isFullyAttached_eq ▸ hattached)
      (hforce ▸ hunforced)
    have horder : attachedOrder { s with thread := t } = s.attachedOrder := by
      rw [attachedOrder, attachedOrder, hlist, hpeers]
    have hsenior : t.getSeniorPeerID = s.thread.getSeniorPeerID := by
      rw [getSeniorPeerID, getSeniorPeerID, hlast]
    unfold Told at htold ⊢
    rw [horder]
    dsimp only
    rwa [hsenior]

end

/-- A turn in which the clock moves and the list is updated, if it is to
be. -/
theorem InPace.listUpdated {elapsedMicros : ℕ} {canSend : Bool} (h : InPace s)
    (hpace : s.KeepsPace (.heartbeat (.awoke elapsedMicros canSend))) :
    let t := { s.thread with now := s.thread.now + elapsedMicros }
    let u : HeartbeatThreads Addr :=
      { s with
        thread := t.pulseOfficialPeersList.1
        sent := s.sent ++ t.pulseOfficialPeersList.2.toList }
    Sound u ∧ (u.thread.fullAttachmentReported = true → InPace u) := by
  intro t u
  have hcoherent : Coherent t := h.coherent.congr rfl rfl fun _ => rfl
  have hlater : s.thread.isFullyAttached = true → t.isFullyAttached = true :=
    isFullyAttached_later
  by_cases hpending : t.updateOfficialPeersListPending = true
  · obtain ⟨hfully, hreported, hunforced, hlist, hpeers, hlast, hsent⟩ :=
      listUpdated_pulse hpending
    have hsound : Sound u := by
      refine ⟨hcoherent.pulseOfficialPeersList, h.hasMaster, fun msg hmsg => ?_,
        fun hforced => ?_, fun hreported' => ?_⟩
      · rcases List.mem_append.mp hmsg with hin | hin
        · exact h.updates msg hin
        · rw [hsent] at hin
          split_ifs at hin
          · obtain rfl : msg = _ := by simpa using hin
            rfl
          · simp at hin
      · exact absurd (hforced.symm.trans hunforced) (by decide)
      · exact hfully.trans (hlater (h.unreported (hreported.symm.trans hreported')))
    refine ⟨hsound, fun hreported' => ⟨hsound, fun hattached _ => ?_⟩⟩
    have hbefore : s.thread.isFullyAttached = true :=
      h.unreported (hreported.symm.trans hreported')
    have hupdate : t.UpdateKeepsPace :=
      (hpace (by simpa [t, isFullyAttached] using hlater hbefore)).2 hpending
    have horder : u.attachedOrder =
        t.calculateOrderedPeersList.2.eraseDups.filter t.isAttachedPeer := by
      rw [attachedOrder, hlist, hpeers]
    unfold UpdateKeepsPace at hupdate
    unfold Told
    by_cases hresends : t.resends = true
    · rw [if_pos hresends] at hupdate hlast
      rw [if_pos ⟨hresends, hlater hbefore⟩] at hsent
      have hlastMessage : u.sent.getLast? = some (t.peersUpdate
          (t.sourcesOf t.calculateOrderedPeersList.2)) := by
        simp [u, hsent]
      rw [hlastMessage]
      exact ⟨hcoherent.peerIDs_peersUpdate.trans horder.symm,
        hcoherent.seniorPeerID_peersUpdate hupdate hlast⟩
    · rw [if_neg hresends] at hupdate hlast
      rw [if_neg fun h => hresends h.1] at hsent
      have hnothing : u.sent = s.sent := by simp [u, hsent]
      have hsame : u.attachedOrder = s.attachedOrder := horder.trans hupdate
      have hsenior : u.thread.getSeniorPeerID = s.thread.getSeniorPeerID := by
        rw [getSeniorPeerID, getSeniorPeerID, hlast]
      have hforce : s.thread.forceOfficialPeersUpdate = false := by
        by_contra hforce
        refine hresends ?_
        rw [resends, Bool.or_eq_true]
        exact Or.inl (by simpa using hforce)
      have htold := h.told hbefore hforce
      unfold Told at htold
      rwa [hnothing, hsame, hsenior]
  · have hidle : t.pulseOfficialPeersList = (t, none) := if_neg hpending
    have hu : u = { s with thread := t } := by
      simp only [u, hidle, Option.toList_none, List.append_nil]
    have hsound : Sound u := by
      rw [hu]
      exact ⟨hcoherent, h.hasMaster, h.updates, h.forced,
        fun hreported => hlater (h.unreported hreported)⟩
    refine ⟨hsound, fun hreported => ⟨hsound, fun _ hunforced => ?_⟩⟩
    rw [hu] at hreported hunforced ⊢
    exact h.told (h.unreported hreported) hunforced

/-- **One event.** -/
theorem InPace.step {e : Event Addr} (h : InPace s) (hpace : s.KeepsPace e) :
    InPace (s.step inflateByteBuffer e) := by
  cases e with
  | messageReceived => exact h.messageReceived hpace
  | heartbeat e =>
      cases e with
      | received a newHB localReceiveTimeMicros =>
          have hstep : s.step inflateByteBuffer
              (.heartbeat (.received a newHB localReceiveTimeMicros)) =
              { s with
                thread := s.thread.receiveMulticastTraffic a newHB
                  localReceiveTimeMicros } := by
            simp [HeartbeatThreads.step, handle]
          rw [hstep]
          exact h.kept forcedOrKept_receiveMulticastTraffic
            h.coherent.receiveMulticastTraffic
      | awoke elapsedMicros canSend =>
          let t := { s.thread with now := s.thread.now + elapsedMicros }
          have hcoherent : Coherent t := h.coherent.congr rfl rfl fun _ => rfl
          by_cases hdue : s.thread.getPulseTime ≤
              (s.thread.now + elapsedMicros : ℕ)
          · have hstep : s.step inflateByteBuffer
                (.heartbeat (.awoke elapsedMicros canSend)) =
                { s with
                  thread := (t.pulse canSend).1
                  sent := s.sent ++ t.pulseOfficialPeersList.2.toList } := by
              simp only [HeartbeatThreads.step, handle, wake, if_pos hdue]
              rfl
            rw [hstep]
            obtain ⟨hsound, hupdated⟩ := h.listUpdated hpace
            obtain ⟨hkept, hforces⟩ := forcedOrKept_pulse (s := t)
            have hafter : Coherent (t.pulse canSend).1 := hcoherent.pulse
            refine ⟨hsound.kept hkept hafter, fun hattached hunforced => ?_⟩
            have hreported :
                t.pulseOfficialPeersList.1.fullAttachmentReported = true := by
              by_contra hunreported
              have hforced := hforces (hkept.isFullyAttached_eq ▸ hattached)
                (by simpa using hunreported)
              exact absurd (hforced.symm.trans hunforced) (by decide)
            exact ((hupdated hreported).kept hkept hafter).told hattached hunforced
          · have hstep : s.step inflateByteBuffer
                (.heartbeat (.awoke elapsedMicros canSend)) =
                { s with thread := t } := by
              simp only [HeartbeatThreads.step, handle, wake, if_neg hdue,
                Option.toList_none, List.append_nil]
              rfl
            have hsame : t.isFullyAttached = true →
                s.thread.isFullyAttached = true := by
              intro hattached
              by_contra hbefore
              have hle : s.thread.fullyAttachedTime ≤
                  s.thread.now + elapsedMicros := by
                simpa [t, isFullyAttached] using hattached
              exact hdue ((hpace hle).1 (by simpa using hbefore))
            rw [hstep]
            exact ⟨⟨hcoherent, h.hasMaster, h.updates, h.forced,
              fun hreported => isFullyAttached_later (h.unreported hreported)⟩,
              fun hattached hunforced => h.told (hsame hattached) hunforced⟩

omit [IPAddressAndPort Addr] in
theorem InPace.agreesOnOrder (h : InPace s) : s.AgreesOnOrder := by
  intro hattached hpending hsent
  have hunforced : s.thread.forceOfficialPeersUpdate = false := by
    by_contra hforced
    have := h.forced (by simpa using hforced)
    rw [hpending] at this
    cases this
  have htold := h.told hattached hunforced
  unfold Told at htold
  rw [hsent] at htold
  exact ⟨htold.1, htold.2.symm⟩

/-- In a run whose events all keep pace, the two threads agree on the order
whenever nothing is left to do. -/
theorem agreesOnOrder_of_keepsPace {hbSettings : PZGHeartbeatSettings}
    {startTime : ℕ} {es : List (Event Addr)}
    (hpace : Runs.StepsMeet (step inflateByteBuffer) KeepsPace
      (initialized hbSettings startTime) es) :
    AgreesOnOrder (Runs.run (step inflateByteBuffer)
      (initialized hbSettings startTime) es) :=
  (Runs.run_invariant_of_stepsMeet inPace_initialized hpace
    fun _ _ h hkeeps => h.step hkeeps).agreesOnOrder

/-! ### Two peers that change places, and one that is junior-only -/

/-- Peers 1 and 2 have been heard from; peer 2, which is this one, has become
fully attached and told the main thread. -/
def twoPeersKnown (heartbeat : PZGHeartbeatPacketWithMetaData) :
    List (Event ℕ) :=
  [.heartbeat (.received 11 heartbeat 0),
    .heartbeat (.received 12 (heartbeatOf ⟨0, 2⟩ peerTypeFullPeer []) 0),
    .heartbeat (.awoke 700000 true), .heartbeat (.awoke 0 true),
    .messageReceived, .messageReceived]

/-- The run of these events. -/
def runOf (es : List (Event ℕ)) : HeartbeatThreads ℕ :=
  Runs.run (step fun bytes => some bytes)
    (initialized { peerOneSettings with localPeerID := ⟨0, 2⟩ } 0) es

theorem twoPeersKnown_agreesOnOrder :
    (runOf (twoPeersKnown (heartbeatOf ⟨0, 1⟩ peerTypeFullPeer
      [⟨0, 1⟩, ⟨0, 2⟩]))).AgreesOnOrder :=
  agreesOnOrder_of_keepsPace (by decide)

/-- The kingmaker, peer 1, then advertises the other order. -/
def placesChanged : HeartbeatThreads ℕ :=
  runOf (twoPeersKnown (heartbeatOf ⟨0, 1⟩ peerTypeFullPeer [⟨0, 1⟩, ⟨0, 2⟩]) ++
    [.heartbeat (.received 11
      (heartbeatOf ⟨0, 1⟩ peerTypeFullPeer [⟨0, 2⟩, ⟨0, 1⟩]) 0),
     .heartbeat (.awoke 0 true)])

/-- Peer 1 is junior-only. -/
def juniorOnlyFirst : HeartbeatThreads ℕ :=
  runOf (twoPeersKnown (heartbeatOf ⟨0, 1⟩ peerTypeJuniorOnly []))

/-- The new order is never sent; and the heartbeat thread takes its clock from
a junior-only peer when the main thread has no senior. -/
theorem placesChanged_disagrees :
    (¬ placesChanged.AgreesOnOrder ∧
      placesChanged.main.mainThreadPeers.keys = [⟨0, 1⟩, ⟨0, 2⟩] ∧
      placesChanged.attachedOrder = [⟨0, 2⟩, ⟨0, 1⟩]) ∧
    ¬ juniorOnlyFirst.AgreesOnOrder ∧
      juniorOnlyFirst.thread.getSeniorPeerID = ⟨0, 1⟩ ∧
      juniorOnlyFirst.main.getSeniorPeerID = .invalid := by
  refine ⟨⟨fun h => ?_, by decide, by decide⟩, fun h => ?_, by decide, by decide⟩
  · have horder := (h (by decide) (by decide) (by decide)).1
    revert horder
    decide
  · have hsenior := (h (by decide) (by decide) (by decide)).2
    revert hsenior
    decide

end HeartbeatThreads

end ZgChoir
