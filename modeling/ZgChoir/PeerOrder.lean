import ZgChoir.HeartbeatSources

/-!
# The order of the peers

Without a kingmaker, `CalculateOrderedPeersList` sorts the peers by their
seniority: by their type, then by how long they have been up, then by their
IDs, the greatest first.  Junior-only peers are meant to stay at the end of
the list, but theirs is the greater type: `fullPeersOutrank_iff`.
-/

namespace ZgChoir

/-! ### Comparing by one key after another -/

section

variable {α : Type} [LinearOrder α] {a b : α} {rest : ℤ}

theorem neg_muscleCompare_nonpos : -muscleCompare a b ≤ 0 ↔ b ≤ a := by
  unfold muscleCompare
  split_ifs with h h'
  · simp [h]
  · simp [h'.le]
  · simpa using not_lt.mp h

theorem neg_muscleCompare_then_nonpos :
    (if -muscleCompare a b ≠ 0 then -muscleCompare a b else rest) ≤ 0 ↔
      b < a ∨ b = a ∧ rest ≤ 0 := by
  unfold muscleCompare
  rcases lt_trichotomy a b with h | rfl | h
  · simp [h, h.not_gt, h.ne']
  · simp
  · simp [h, h.not_gt]

theorem muscleCompare_uInt16 {a b : UInt16} :
    muscleCompare a b = muscleCompare a.toNat b.toNat := by
  simp only [muscleCompare, UInt16.lt_iff_toNat_lt]

theorem muscleCompare_uInt32 {a b : UInt32} :
    muscleCompare a b = muscleCompare a.toNat b.toNat := by
  simp only [muscleCompare, UInt32.lt_iff_toNat_lt]

end

instance lawfulOrderSup_uInt16 : Std.LawfulOrderSup UInt16 where
  max_le_iff a b c := by
    simp only [UInt16.le_iff_toNat_le, show max a b = if a ≤ b then b else a from rfl]
    split_ifs <;> omega

instance lawfulOrderSup_uInt32 : Std.LawfulOrderSup UInt32 where
  max_le_iff a b c := by
    simp only [UInt32.le_iff_toNat_le, show max a b = if a ≤ b then b else a from rfl]
    split_ifs <;> omega

theorem ZGPeerID.le_of_isValid_eq_false {p q : ZGPeerID}
    (h : p.isValid = false) : p ≤ q := by
  have hp : p.highBits = 0 ∧ p.lowBits = 0 := by
    simpa [ZGPeerID.isValid] using h
  refine not_lt.mp fun hlt => ?_
  rcases ZGPeerID.lt_iff.mp hlt with hhigh | ⟨-, hlow⟩
  · rw [hp.1] at hhigh
    exact UInt64.not_lt_zero hhigh
  · rw [hp.2] at hlow
    exact UInt64.not_lt_zero hlow

namespace PZGHeartbeatThreadState

variable {Addr : Type} [DecidableEq Addr]
variable {s s' : PZGHeartbeatThreadState Addr} {p q : ZGPeerID}
variable {ids : List ZGPeerID}

/-! ### Seniority -/

/-- The type of a peer, aggregated over its sources. -/
def peerTypeOf (s : PZGHeartbeatThreadState Addr) (p : ZGPeerID) : UInt16 :=
  s.getPeerTypeFromQueue p (s.addressesOf p)

/-- The uptime of a peer, aggregated over its sources. -/
def uptimeOf (s : PZGHeartbeatThreadState Addr) (p : ZGPeerID) : UInt32 :=
  s.getPeerUptimeSecondsFromQueue p (s.addressesOf p)

/-- What the peers are sorted by; the greatest comes first. -/
def seniority (s : PZGHeartbeatThreadState Addr) (p : ZGPeerID) :
    ℕ ×ₗ ℕ ×ₗ ZGPeerID :=
  toLex ((s.peerTypeOf p).toNat, toLex ((s.uptimeOf p).toNat, p))

theorem seniority_le_iff : s.seniority q ≤ s.seniority p ↔
    s.peerTypeOf q < s.peerTypeOf p ∨ s.peerTypeOf q = s.peerTypeOf p ∧
      (s.uptimeOf q < s.uptimeOf p ∨
        s.uptimeOf q = s.uptimeOf p ∧ q ≤ p) := by
  simp only [seniority, Prod.Lex.toLex_le_toLex, UInt16.lt_iff_toNat_lt,
    UInt32.lt_iff_toNat_lt, UInt16.toNat_inj, UInt32.toNat_inj]

theorem seniority_injective : Function.Injective s.seniority := by
  intro p q h
  simp only [seniority, EmbeddingLike.apply_eq_iff_eq, Prod.mk.injEq] at h
  exact h.2.2

theorem comparePeerIDsBySeniority_nonpos (hp : p ∈ s.peerIDToIPAddresses)
    (hq : q ∈ s.peerIDToIPAddresses) :
    s.comparePeerIDsBySeniority p q ≤ 0 ↔ s.seniority q ≤ s.seniority p := by
  simp only [comparePeerIDsBySeniority, lookup_eq_addressesOf hp,
    lookup_eq_addressesOf hq]
  rw [muscleCompare_uInt16, muscleCompare_uInt32,
    neg_muscleCompare_then_nonpos, neg_muscleCompare_then_nonpos,
    neg_muscleCompare_nonpos]
  simp only [seniority, Prod.Lex.toLex_le_toLex]
  rfl

section

variable {α : Type} [Max α] [LE α] [Std.LawfulOrderSup α]
variable {value : PZGHeartbeatPacketWithMetaData → α} {ret bound : α}
variable {addresses : List Addr}

/-- The largest value from some sources, in whatever order they are. -/
theorem maxFromQueue_le_iff :
    maxFromQueue value s p ret addresses ≤ bound ↔ ret ≤ bound ∧
      ∀ a ∈ addresses, ∀ hb, s.packetFrom ⟨a, p⟩ = some hb →
        value hb ≤ bound := by
  induction addresses generalizing ret with
  | nil => simp [maxFromQueue]
  | cons a addresses ih =>
      rw [maxFromQueue, List.foldl_cons, ← maxFromQueue, ih, List.forall_mem_cons]
      cases s.packetFrom ⟨a, p⟩ with
      | none => simp
      | some hb => simp [Std.max_le_iff, and_assoc]

end

theorem le_peerTypeOf {a : Addr} {hb : PZGHeartbeatPacketWithMetaData}
    (ha : a ∈ s.addressesOf p) (hhb : s.packetFrom ⟨a, p⟩ = some hb) :
    hb.peerType ≤ s.peerTypeOf p := by
  have hle : maxFromQueue (·.peerType) s p 0 (s.addressesOf p) ≤
      s.peerTypeOf p := UInt16.le_refl _
  exact (maxFromQueue_le_iff.mp hle).2 a ha hb hhb

/-- The sort leaves the same peers, in the order of their seniority. -/
theorem keys_sortBySeniority :
    s.sortBySeniority.peerIDToIPAddresses.keys =
      s.peerIDToIPAddresses.keys.insertionSort
        fun p q => s.seniority q ≤ s.seniority p := by
  refine List.map_insertionSort _ _ _ _ fun e1 he1 e2 he2 => ?_
  exact comparePeerIDsBySeniority_nonpos (List.mem_map_of_mem he1)
    (List.mem_map_of_mem he2)

theorem perm_keys_sortBySeniority :
    s.sortBySeniority.peerIDToIPAddresses.keys.Perm
      s.peerIDToIPAddresses.keys := by
  rw [keys_sortBySeniority]
  exact List.perm_insertionSort _ _

theorem pairwise_keys_sortBySeniority :
    s.sortBySeniority.peerIDToIPAddresses.keys.Pairwise
      fun p q => s.seniority q ≤ s.seniority p := by
  have : Std.Total fun p q => s.seniority q ≤ s.seniority p :=
    ⟨fun p q => le_total _ _⟩
  have : IsTrans ZGPeerID fun p q => s.seniority q ≤ s.seniority p :=
    ⟨fun p q r hpq hqr => hqr.trans hpq⟩
  rw [keys_sortBySeniority]
  exact List.pairwise_insertionSort _ _

/-! ### What the main thread is told -/

/-- The sources of one peer. -/
def sourcesOfPeer (s : PZGHeartbeatThreadState Addr) (p : ZGPeerID) :
    List (PZGHeartbeatSourceKey Addr) :=
  (s.addressesOf p).map fun a => ⟨a, p⟩

/-- The packet from a source, if its peer says in it that it is fully
attached. -/
def attachedPacketFrom (s : PZGHeartbeatThreadState Addr)
    (source : PZGHeartbeatSourceKey Addr) : Option PZGHeartbeatPacket :=
  match s.packetFrom source with
  | some hb => if hb.isFullyAttached then some hb.toPZGHeartbeatPacket else none
  | none => none

/-- The packets from a peer's sources that are fully attached. -/
def attachedPackets (s : PZGHeartbeatThreadState Addr) (p : ZGPeerID) :
    List PZGHeartbeatPacket :=
  (s.sourcesOfPeer p).filterMap s.attachedPacketFrom

/-- Whether one of a peer's sources is fully attached. -/
def isAttachedPeer (s : PZGHeartbeatThreadState Addr) (p : ZGPeerID) : Bool :=
  !(s.attachedPackets p).isEmpty

omit [DecidableEq Addr] in
theorem mem_sourcesOfPeer {source : PZGHeartbeatSourceKey Addr} :
    source ∈ s.sourcesOfPeer p ↔
      source.peerID = p ∧ source.ipAddressAndPort ∈ s.addressesOf p := by
  obtain ⟨a, q⟩ := source
  simp only [sourcesOfPeer, List.mem_map, PZGHeartbeatSourceKey.mk.injEq]
  constructor
  · rintro ⟨a', ha', rfl, rfl⟩
    exact ⟨rfl, ha'⟩
  · rintro ⟨rfl, ha⟩
    exact ⟨a, ha, rfl, rfl⟩

/-- One loop of `sourcesOf`, over the sources of one peer. -/
private theorem putSources {sources newPeers : List (PZGHeartbeatSourceKey Addr)}
    (hnodup : sources.Nodup) (hnew : sources.Disjoint newPeers) :
    sources.foldl (fun newPeers source =>
      if source ∈ newPeers then newPeers else newPeers ++ [source]) newPeers =
      newPeers ++ sources := by
  induction sources generalizing newPeers with
  | nil => simp
  | cons source sources ih =>
      obtain ⟨hfirst, hrest⟩ := List.nodup_cons.mp hnodup
      obtain ⟨hsource, hsources⟩ := List.disjoint_cons_left.mp hnew
      have hdisjoint : sources.Disjoint (newPeers ++ [source]) :=
        List.disjoint_append_right.mpr
          ⟨hsources, List.disjoint_singleton.mpr hfirst⟩
      rw [List.foldl_cons, if_neg hsource, ih hrest hdisjoint]
      simp

private theorem putSources_again
    {sources newPeers : List (PZGHeartbeatSourceKey Addr)}
    (hold : ∀ source ∈ sources, source ∈ newPeers) :
    sources.foldl (fun newPeers source =>
      if source ∈ newPeers then newPeers else newPeers ++ [source]) newPeers =
      newPeers := by
  induction sources with
  | nil => rfl
  | cons source sources ih =>
      obtain ⟨hsource, hsources⟩ := List.forall_mem_cons.mp hold
      rw [List.foldl_cons, if_pos hsource, ih hsources]

private theorem sourcesOf_concat :
    s.sourcesOf (ids ++ [p]) =
      (s.sourcesOfPeer p).foldl (fun newPeers source =>
        if source ∈ newPeers then newPeers else newPeers ++ [source])
        (s.sourcesOf ids) := by
  rw [sourcesOf, List.foldl_append, ← sourcesOf, List.foldl_cons,
    List.foldl_nil, sourcesOfPeer, List.foldl_map, addressesOf]
  cases s.peerIDToIPAddresses.lookup p <;> rfl

/-- A peer's sources are where the list names the peer first. -/
theorem Coherent.sourcesOf_eq (h : Coherent s) :
    s.sourcesOf ids = ids.eraseDups.flatMap s.sourcesOfPeer := by
  induction ids using List.reverseRecOn with
  | nil => rfl
  | append_singleton ids p ih =>
      have hnodup : (s.sourcesOfPeer p).Nodup :=
        (h.nodup p).map fun a a' heq => congrArg (·.ipAddressAndPort) heq
      rw [sourcesOf_concat, ih, Occurrences.eraseDups_concat]
      by_cases hp : p ∈ ids
      · rw [if_pos hp]
        refine putSources_again fun source hsource => ?_
        exact List.mem_flatMap.mpr ⟨p, List.mem_eraseDups.mpr hp, hsource⟩
      · rw [if_neg hp, List.flatMap_append, List.flatMap_singleton]
        refine putSources hnodup fun source hsource hold => hp ?_
        obtain ⟨q, hq, hsource'⟩ := List.mem_flatMap.mp hold
        have hpq : p = q := (mem_sourcesOfPeer.mp hsource).1.symm.trans
          (mem_sourcesOfPeer.mp hsource').1
        rw [hpq]
        exact List.mem_eraseDups.mp hq

/-- The packets of the message about a list of peers. -/
theorem Coherent.packets_peersUpdate (h : Coherent s) :
    (s.peersUpdate (s.sourcesOf ids)).packets =
      ids.eraseDups.flatMap s.attachedPackets := by
  have hpackets : ∀ sources, (s.peersUpdate sources).packets =
      sources.filterMap s.attachedPacketFrom := by
    intro sources
    simp only [HeartbeatThreadMessage.packets, peersUpdate, List.reduceOption,
      List.filterMap_filterMap]
    refine List.filterMap_congr fun source _ => ?_
    unfold attachedPacketFrom
    cases s.packetFrom source with
    | none => rfl
    | some hb => by_cases hattached : hb.isFullyAttached <;> simp [hattached]
  rw [hpackets, h.sourcesOf_eq, List.filterMap_flatMap]
  rfl

/-- A packet that says its peer is fully attached is of a source of that
peer. -/
theorem Coherent.of_mem_attachedPackets {hb : PZGHeartbeatPacket}
    (h : Coherent s) (hmem : hb ∈ s.attachedPackets p) :
    hb.sourcePeerID = p ∧ hb.peerType ≤ s.peerTypeOf p ∧
      p ∈ s.peerIDToIPAddresses := by
  obtain ⟨⟨a, p'⟩, hsource, hpacket⟩ := List.mem_filterMap.mp hmem
  obtain ⟨rfl, ha⟩ := mem_sourcesOfPeer.mp hsource
  unfold attachedPacketFrom at hpacket
  cases hfrom : s.packetFrom ⟨a, p'⟩ with
  | none => simp [hfrom] at hpacket
  | some packet =>
      obtain ⟨hattached, rfl⟩ : packet.isFullyAttached = true ∧
          packet.toPZGHeartbeatPacket = hb := by simpa [hfrom] using hpacket
      obtain ⟨state, hstate, rfl⟩ := Option.map_eq_some_iff.mp hfrom
      refine ⟨(h.accepted hstate).1, le_peerTypeOf ha hfrom, ?_⟩
      exact h.nonempty.mpr (List.ne_nil_of_mem ha)

/-- The peers of that message. -/
theorem Coherent.peerIDs_peersUpdate (h : Coherent s) :
    (s.peersUpdate (s.sourcesOf ids)).peerIDs =
      ids.eraseDups.filter s.isAttachedPeer := by
  rw [HeartbeatThreadMessage.peerIDs, h.packets_peersUpdate, List.map_flatMap,
    Occurrences.eraseDups_flatMap ?_ Occurrences.nodup_eraseDups]
  · simp only [List.isEmpty_map]
    rfl
  · intro p q hq
    obtain ⟨hb, hhb, rfl⟩ := List.mem_map.mp hq
    exact (h.of_mem_attachedPackets hhb).1

/-- Its first packet is of the first peer in the list that is fully
attached. -/
theorem Coherent.head_peersUpdate (h : Coherent s) :
    (s.peersUpdate (s.sourcesOf ids)).packets.head? =
      ids.findSome? fun p => (s.attachedPackets p).head? := by
  rw [h.packets_peersUpdate, List.head?_flatMap, Occurrences.findSome?_eraseDups]

/-! ### Full peers and junior-only ones -/

variable [IPAddressAndPort Addr]
variable {Attributes : Type} {inflateByteBuffer : List UInt8 → Option Attributes}

/-- The states that the thread can reach. -/
def Reachable (s : PZGHeartbeatThreadState Addr) : Prop :=
  ∃ hbSettings startTime es, s = Runs.run step (initialized hbSettings startTime) es

theorem Reachable.coherent (h : Reachable s) : Coherent s := by
  obtain ⟨hbSettings, startTime, es, rfl⟩ := h
  exact coherent_run

omit [IPAddressAndPort Addr] in
/-- No junior-only peer stands before a full one. -/
def FullPeersFirst (s : PZGHeartbeatThreadState Addr) (ids : List ZGPeerID) :
    Prop :=
  ids.Pairwise fun p q => ¬ (s.peerTypeOf p = peerTypeJuniorOnly ∧
    s.peerTypeOf q = peerTypeFullPeer)

omit [IPAddressAndPort Addr] in
instance : Decidable (s.FullPeersFirst ids) :=
  inferInstanceAs (Decidable (ids.Pairwise _))

/-- The main thread after its first update. -/
def firstUpdate (inflateByteBuffer : List UInt8 → Option Attributes)
    (s : PZGHeartbeatThreadState Addr) : PZGHeartbeatSession :=
  let (s, ids) := s.calculateOrderedPeersList
  (PZGHeartbeatSession.messageReceivedFromInternalThread inflateByteBuffer
    { hasMaster := true, mainThreadPeers := ∅ }
    (s.peersUpdate (s.sourcesOf ids))).1

/-- If a full peer is fully attached, the main thread has a senior, and this
is a full peer. -/
def SeniorIsFull (inflateByteBuffer : List UInt8 → Option Attributes)
    (s : PZGHeartbeatThreadState Addr) : Prop :=
  (∃ p ∈ s.calculateOrderedPeersList.2, s.isAttachedPeer p = true ∧
    s.peerTypeOf p = peerTypeFullPeer) →
  (s.firstUpdate inflateByteBuffer).getSeniorPeerID.isValid = true ∧
    (s.firstUpdate inflateByteBuffer).getSeniorPeerID ∈ s.peerIDToIPAddresses ∧
    s.peerTypeOf (s.firstUpdate inflateByteBuffer).getSeniorPeerID =
      peerTypeFullPeer

omit [IPAddressAndPort Addr] in
/-- Full peers and junior-only ones are not online together, no other peer is
fully attached when a full one is, and the peer without an ID, if it should
be heard from, has not been up for longer than everyone else. -/
structure FullPeersUncontested (s : PZGHeartbeatThreadState Addr) : Prop where
  oneKind : ∀ p ∈ s.peerIDToIPAddresses, ∀ q ∈ s.peerIDToIPAddresses,
    s.peerTypeOf p = peerTypeFullPeer → s.peerTypeOf q ≠ peerTypeJuniorOnly
  attached : ∀ p q, s.isAttachedPeer p = true → s.isAttachedPeer q = true →
    s.peerTypeOf p = peerTypeFullPeer → s.peerTypeOf q = peerTypeFullPeer
  named : ∀ p q, s.isAttachedPeer p = true → s.isAttachedPeer q = true →
    s.peerTypeOf p = peerTypeFullPeer → q.isValid = false →
    ∃ r, s.isAttachedPeer r = true ∧ r ≠ q ∧ s.uptimeOf q ≤ s.uptimeOf r

theorem calculateOrderedPeersList_of_no_kingmaker
    (hnone : s.getKingmakerPeerSource.filter (·.isValid) = none) :
    s.calculateOrderedPeersList =
      (s.sortBySeniority, s.sortBySeniority.peerIDToIPAddresses.keys) := by
  rw [calculateOrderedPeersList, hnone]

omit [IPAddressAndPort Addr] in
theorem peerTypeOf_le_of_seniority_le (h : s.seniority q ≤ s.seniority p) :
    s.peerTypeOf q ≤ s.peerTypeOf p := by
  rcases seniority_le_iff.mp h with hlt | ⟨heq, -⟩
  · exact UInt16.le_of_lt hlt
  · rw [heq]
    exact UInt16.le_refl _

omit [IPAddressAndPort Addr] in
/-- Sorted by seniority, full peers stand before junior-only ones only when
they are not online together. -/
theorem fullPeersFirst_iff {ids : List ZGPeerID}
    (hsorted : ids.Pairwise fun p q => s.seniority q ≤ s.seniority p) :
    s.FullPeersFirst ids ↔ ∀ p ∈ ids, ∀ q ∈ ids,
      s.peerTypeOf p = peerTypeFullPeer →
      s.peerTypeOf q ≠ peerTypeJuniorOnly := by
  constructor
  · intro hfirst
    -- whichever of the two comes first, the order or the sort is violated
    let bothKinds (p q : ZGPeerID) : Prop :=
      s.peerTypeOf p = peerTypeJuniorOnly ∧ s.peerTypeOf q = peerTypeFullPeer
    have hneither : ids.Pairwise fun p q => ¬ bothKinds p q ∧ ¬ bothKinds q p := by
      refine (hsorted.and hfirst).imp fun {p q} h => ⟨h.2, ?_⟩
      rintro ⟨hq, hp⟩
      have hle := peerTypeOf_le_of_seniority_le h.1
      rw [hq, hp] at hle
      exact absurd hle (by decide)
    have hsymm : Std.Symm fun p q => ¬ bothKinds p q ∧ ¬ bothKinds q p :=
      ⟨fun p q h => h.symm⟩
    have hself : ∀ p ∈ ids, ¬ bothKinds p p ∧ ¬ bothKinds p p := by
      rintro p -
      have hnot : ¬ bothKinds p p := by
        rintro ⟨hjunior, hfull⟩
        rw [hjunior] at hfull
        exact absurd hfull (by decide)
      exact ⟨hnot, hnot⟩
    intro p hp q hq hfull hjunior
    exact (hneither.forall_of_forall hself hp hq).2 ⟨hjunior, hfull⟩
  · intro hone
    refine List.Pairwise.imp_of_mem (fun {p q} hp hq _ h => ?_) hsorted
    exact hone q hq p hp h.2 h.1

omit [IPAddressAndPort Addr] in
/-- The tables of `s'` are those of `s`, in an order of their own. -/
structure SameTables (s s' : PZGHeartbeatThreadState Addr) : Prop where
  packets : s'.packetFrom = s.packetFrom
  addresses : s'.addressesOf = s.addressesOf

omit [IPAddressAndPort Addr] in
theorem SameTables.attachedPackets_eq (h : SameTables s s') :
    s'.attachedPackets = s.attachedPackets := by
  have hfrom : s'.attachedPacketFrom = s.attachedPacketFrom := by
    funext source
    rw [attachedPacketFrom, attachedPacketFrom, h.packets]
  funext p
  rw [attachedPackets, attachedPackets, sourcesOfPeer, sourcesOfPeer, hfrom,
    h.addresses]

omit [IPAddressAndPort Addr] in
theorem sameTables_sortBySeniority : SameTables s s.sortBySeniority where
  packets := rfl
  addresses := by
    funext p
    rw [addressesOf, lookup_sortBySeniority, addressesOf]

/-- The senior of the main thread is the peer of the first packet. -/
theorem getSeniorPeerID_firstUpdate :
    (s.firstUpdate inflateByteBuffer).getSeniorPeerID =
      (s.calculateOrderedPeersList.1.peersUpdate
        (s.calculateOrderedPeersList.1.sourcesOf
          s.calculateOrderedPeersList.2)).seniorPeerID := by
  rw [firstUpdate]
  dsimp only
  rw [messageReceivedFromInternalThread_eq rfl rfl]
  refine getSeniorPeerID_updatedPeers ?_
  simp [PZGHeartbeatSession.KeepsOrder, PZGHeartbeatSession.unchanged]

omit [IPAddressAndPort Addr] in
theorem isAttachedPeer_iff :
    s.isAttachedPeer p = true ↔ ∃ hb, hb ∈ s.attachedPackets p := by
  rw [isAttachedPeer, Bool.not_eq_true', List.isEmpty_eq_false_iff_exists_mem]

omit [IPAddressAndPort Addr] in
theorem Coherent.mem_keys_of_isAttachedPeer (h : Coherent s)
    (hp : s.isAttachedPeer p = true) : p ∈ s.peerIDToIPAddresses.keys := by
  obtain ⟨hb, hhb⟩ := isAttachedPeer_iff.mp hp
  exact AList.mem_keys.mp (h.of_mem_attachedPackets hhb).2.2

omit [DecidableEq Addr] [IPAddressAndPort Addr] in
theorem seniorPeerID_eq {msg : HeartbeatThreadMessage} {hb : PZGHeartbeatPacket}
    (hhead : msg.packets.head? = some hb) :
    msg.seniorPeerID =
      if hb.peerType = peerTypeFullPeer then hb.sourcePeerID else .invalid := by
  obtain ⟨rest, hrest⟩ := List.head?_eq_some_iff.mp hhead
  rw [HeartbeatThreadMessage.seniorPeerID, hrest]

/-- The first packet that the main thread is told of is of the fully attached
peer of the greatest seniority. -/
theorem exists_head_firstUpdate
    (inflateByteBuffer : List UInt8 → Option Attributes) (h : Coherent s)
    (hnone : s.getKingmakerPeerSource.filter (·.isValid) = none)
    (hp : s.isAttachedPeer p = true) :
    ∃ first hb, s.isAttachedPeer first = true ∧
      hb ∈ s.attachedPackets first ∧
      (∀ q, s.isAttachedPeer q = true → s.seniority q ≤ s.seniority first) ∧
      (s.firstUpdate inflateByteBuffer).getSeniorPeerID =
        if hb.peerType = peerTypeFullPeer then first else .invalid := by
  have hlist := calculateOrderedPeersList_of_no_kingmaker hnone
  have htables : SameTables s s.sortBySeniority := sameTables_sortBySeniority
  have hcoherent : Coherent s.sortBySeniority :=
    h.congr rfl rfl fun _ => lookup_sortBySeniority
  have hsorted := pairwise_keys_sortBySeniority (s := s)
  have hkeys : ∀ {q}, s.isAttachedPeer q = true →
      q ∈ s.sortBySeniority.peerIDToIPAddresses.keys := fun hq =>
    perm_keys_sortBySeniority.mem_iff.mpr (h.mem_keys_of_isAttachedPeer hq)
  have hsenior : (s.firstUpdate inflateByteBuffer).getSeniorPeerID = _ :=
    getSeniorPeerID_firstUpdate
  rw [hlist] at hsenior
  generalize s.sortBySeniority.peerIDToIPAddresses.keys = ids
    at hsorted hkeys hsenior
  have hhead : (s.sortBySeniority.peersUpdate
      (s.sortBySeniority.sourcesOf ids)).packets.head? = _ :=
    hcoherent.head_peersUpdate
  rw [htables.attachedPackets_eq] at hhead
  cases hfound : ids.findSome? fun p => (s.attachedPackets p).head? with
  | none =>
      obtain ⟨hb, hhb⟩ := isAttachedPeer_iff.mp hp
      have hempty := List.findSome?_eq_none_iff.mp hfound p (hkeys hp)
      rw [List.head?_eq_none_iff.mp hempty] at hhb
      cases hhb
  | some hb =>
      rw [hfound] at hhead
      obtain ⟨before, first, behind, rfl, hfirst, hbefore⟩ :=
        List.findSome?_eq_some_iff.mp hfound
      have hhb : hb ∈ s.attachedPackets first := List.mem_of_head? hfirst
      refine ⟨first, hb, isAttachedPeer_iff.mpr ⟨hb, hhb⟩, hhb, ?_, ?_⟩
      · intro q hq
        rcases List.mem_append.mp (hkeys hq) with hin | hin
        · obtain ⟨hb', hhb'⟩ := isAttachedPeer_iff.mp hq
          rw [List.head?_eq_none_iff.mp (hbefore q hin)] at hhb'
          cases hhb'
        · rcases List.mem_cons.mp hin with rfl | hin
          · exact le_rfl
          · exact (List.pairwise_cons.mp (List.pairwise_append.mp hsorted).2.1).1
              q hin
      · rw [hsenior, seniorPeerID_eq hhead, (h.of_mem_attachedPackets hhb).1]

omit [IPAddressAndPort Addr] in
theorem peerTypeOf_eq_full_of_seniority_le
    (hp : s.peerTypeOf p = peerTypeFullPeer)
    (h : s.seniority q ≤ s.seniority p) : s.peerTypeOf q = peerTypeFullPeer := by
  have hle := peerTypeOf_le_of_seniority_le h
  rw [hp] at hle
  exact UInt16.le_zero_iff.mp hle

omit [IPAddressAndPort Addr] in
theorem uptimeOf_le_of_seniority_le (htype : s.peerTypeOf q = s.peerTypeOf p)
    (h : s.seniority q ≤ s.seniority p) : s.uptimeOf q ≤ s.uptimeOf p := by
  rcases seniority_le_iff.mp h with hlt | ⟨-, hlt | ⟨heq, -⟩⟩
  · rw [htype] at hlt
    exact absurd hlt (UInt16.lt_irrefl _)
  · exact UInt32.le_of_lt hlt
  · rw [heq]
    exact UInt32.le_refl _

theorem seniorIsFull_iff (h : Coherent s)
    (hnone : s.getKingmakerPeerSource.filter (·.isValid) = none) :
    SeniorIsFull inflateByteBuffer s ↔
      ∀ p q, s.isAttachedPeer p = true → s.isAttachedPeer q = true →
        s.peerTypeOf p = peerTypeFullPeer →
        s.peerTypeOf q = peerTypeFullPeer ∧
          (q.isValid = false → ∃ r, s.isAttachedPeer r = true ∧ r ≠ q ∧
            s.uptimeOf q ≤ s.uptimeOf r) := by
  have hlist := calculateOrderedPeersList_of_no_kingmaker hnone
  constructor
  · intro hsenior p q hp hq hfull
    obtain ⟨first, hb, hfirst, hhb, hgreatest, heq⟩ :=
      exists_head_firstUpdate inflateByteBuffer h hnone hp
    have hmem : p ∈ s.calculateOrderedPeersList.2 := by
      rw [hlist]
      exact perm_keys_sortBySeniority.mem_iff.mpr
        (h.mem_keys_of_isAttachedPeer hp)
    obtain ⟨hvalid, -, hseniorFull⟩ := hsenior ⟨p, hmem, hp, hfull⟩
    rw [heq] at hvalid hseniorFull
    split_ifs at hvalid hseniorFull with htype
    · have hqFull : s.peerTypeOf q = peerTypeFullPeer :=
        peerTypeOf_eq_full_of_seniority_le hseniorFull (hgreatest q hq)
      refine ⟨hqFull, fun hinvalid => ⟨first, hfirst, ?_, ?_⟩⟩
      · rintro rfl
        rw [hinvalid] at hvalid
        cases hvalid
      · exact uptimeOf_le_of_seniority_le (hqFull.trans hseniorFull.symm)
          (hgreatest q hq)
    · exact absurd hvalid (by decide)
  · rintro hall ⟨p, -, hp, hfull⟩
    obtain ⟨first, hb, hfirst, hhb, hgreatest, heq⟩ :=
      exists_head_firstUpdate inflateByteBuffer h hnone hp
    obtain ⟨hfirstFull, hnamed⟩ := hall p first hp hfirst hfull
    obtain ⟨-, htypeLe, hmem⟩ := h.of_mem_attachedPackets hhb
    have htype : hb.peerType = peerTypeFullPeer := by
      rw [hfirstFull] at htypeLe
      exact UInt16.le_zero_iff.mp htypeLe
    rw [heq, if_pos htype]
    refine ⟨?_, hmem, hfirstFull⟩
    by_contra hvalid
    have hinvalid : first.isValid = false := by simpa using hvalid
    obtain ⟨r, hr, hne, hle⟩ := hnamed hinvalid
    -- no ID is below that of nobody, so `r` stands before `first`
    have hbefore : s.seniority first < s.seniority r := by
      refine lt_of_le_of_ne ?_ fun heq => hne (seniority_injective heq).symm
      refine seniority_le_iff.mpr (Or.inr ⟨?_, ?_⟩)
      · exact hfirstFull.trans (hall p r hp hr hfull).1.symm
      · rcases UInt32.lt_or_eq_of_le hle with hlt | heq
        · exact Or.inl hlt
        · exact Or.inr ⟨heq, ZGPeerID.le_of_isValid_eq_false hinvalid⟩
    exact absurd (hgreatest r hr) (not_le_of_gt hbefore)

/-- The sort puts every full peer before every junior-only one, and gives the
main thread a full senior, exactly when there is nothing to decide between
them. -/
theorem fullPeersOutrank_iff (hreach : Reachable s)
    (hnone : s.getKingmakerPeerSource.filter (·.isValid) = none) :
    (s.FullPeersFirst s.calculateOrderedPeersList.2 ∧
      SeniorIsFull inflateByteBuffer s) ↔ s.FullPeersUncontested := by
  have hmem : ∀ p, p ∈ s.sortBySeniority.peerIDToIPAddresses.keys ↔
      p ∈ s.peerIDToIPAddresses := fun p => perm_keys_sortBySeniority.mem_iff
  have hfirst : s.FullPeersFirst s.calculateOrderedPeersList.2 ↔
      ∀ p ∈ s.peerIDToIPAddresses, ∀ q ∈ s.peerIDToIPAddresses,
        s.peerTypeOf p = peerTypeFullPeer →
        s.peerTypeOf q ≠ peerTypeJuniorOnly := by
    rw [calculateOrderedPeersList_of_no_kingmaker hnone,
      fullPeersFirst_iff pairwise_keys_sortBySeniority]
    simp only [hmem]
  rw [hfirst, seniorIsFull_iff hreach.coherent hnone]
  constructor
  · rintro ⟨hone, hsenior⟩
    exact ⟨hone, fun p q hp hq hfull => (hsenior p q hp hq hfull).1,
      fun p q hp hq hfull => (hsenior p q hp hq hfull).2⟩
  · rintro ⟨hone, hattached, hnamed⟩
    exact ⟨hone, fun p q hp hq hfull =>
      ⟨hattached p q hp hq hfull, hnamed p q hp hq hfull⟩⟩

/-- Addresses as numbers, for the runs below. -/
instance : IPAddressAndPort ℕ where
  isValid address := address != 0

/-- The settings of peer 1. -/
def peerOneSettings : PZGHeartbeatSettings where
  localPeerID := ⟨0, 1⟩
  systemKey := 1
  versionCode := 1
  peerType := peerTypeFullPeer
  heartbeatsPerSecond := 6
  maxNumMissingHeartbeats := 8
  heartbeatsBeforeFullyAttached := 4

/-- A heartbeat of a fully attached peer. -/
def heartbeatOf (p : ZGPeerID) (peerType : UInt16) (ids : List ZGPeerID) :
    PZGHeartbeatPacketWithMetaData where
  toPZGHeartbeatPacket := { fullPeerPacket 1 p with peerType }
  versionCode := 1
  peerUptimeSeconds := 10
  isFullyAttached := true
  orderedPeersList := ids

/-- Peer 1, a full one, and peer 2, a junior-only one, have been heard from. -/
def fullAndJuniorOnly : PZGHeartbeatThreadState ℕ :=
  Runs.run step (initialized peerOneSettings 0)
    [.received 11 (heartbeatOf ⟨0, 1⟩ peerTypeFullPeer []) 0,
      .received 12 (heartbeatOf ⟨0, 2⟩ peerTypeJuniorOnly []) 0]

/-- The junior-only peer is sorted first, and the main thread has no
senior. -/
theorem fullAndJuniorOnly_juniorOutranks :
    ¬ fullAndJuniorOnly.FullPeersFirst
        fullAndJuniorOnly.calculateOrderedPeersList.2 ∧
    ¬ SeniorIsFull (fun bytes => some bytes) fullAndJuniorOnly := by
  constructor
  · decide
  · intro h
    have hvalid := (h (by decide)).1
    revert hvalid
    decide

theorem fullAndJuniorOnly_fullPeersOutrank_iff :
    (fullAndJuniorOnly.FullPeersFirst
        fullAndJuniorOnly.calculateOrderedPeersList.2 ∧
      SeniorIsFull (fun bytes => some bytes) fullAndJuniorOnly) ↔
      fullAndJuniorOnly.FullPeersUncontested :=
  fullPeersOutrank_iff ⟨_, _, _, rfl⟩ (by decide)

end PZGHeartbeatThreadState

end ZgChoir
