import ZgChoir.PeerOrder

/-!
# The kingmaker

The kingmaker is the lowest peer whose list names the peers that are online,
and its order is adopted by all who hear of it.  Two questions about that
are settled here: what the order depends on, and whether each peer is in the
list once.

* `orderIsUniform_iff` — those who have the same packets agree on the order
  exactly when all the sources that may be the kingmaker do;
* `perm_calculateOrderedPeersList_iff` — the list is one of the peers online
  exactly when the kingmaker names none twice.
-/

namespace ZgChoir

namespace PZGHeartbeatThreadState

variable {Addr : Type}
variable {s s' : PZGHeartbeatThreadState Addr}
variable {source : PZGHeartbeatSourceKey Addr}

/-! ### The search -/

variable {packets : List (PZGHeartbeatSourceKey Addr × PZGHeartbeatPacketWithMetaData)}
variable {next : PZGHeartbeatSourceKey Addr × PZGHeartbeatPacketWithMetaData}
variable {found : Option (PZGHeartbeatSourceKey Addr) × ZGPeerID}

/-- The sources and their packets, in the order of the table. -/
def sourcePackets (s : PZGHeartbeatThreadState Addr) :
    List (PZGHeartbeatSourceKey Addr × PZGHeartbeatPacketWithMetaData) :=
  s.onlineSources.entries.map fun entry => (entry.1, entry.2.hbPacket)

/-- The part of a table that names the peers online. -/
def matchingOf (s : PZGHeartbeatThreadState Addr)
    (packets : List (PZGHeartbeatSourceKey Addr × PZGHeartbeatPacketWithMetaData)) :
    List (PZGHeartbeatSourceKey Addr × PZGHeartbeatPacketWithMetaData) :=
  packets.filter fun next =>
    s.peersListMatchesIgnoreOrdering next.2.orderedPeersList

/-- One step of the search, on a source and its packet. -/
def considerPacket (s : PZGHeartbeatThreadState Addr)
    (found : Option (PZGHeartbeatSourceKey Addr) × ZGPeerID)
    (next : PZGHeartbeatSourceKey Addr × PZGHeartbeatPacketWithMetaData) :
    Option (PZGHeartbeatSourceKey Addr) × ZGPeerID :=
  if (found.2.isValid = false ∨ next.2.sourcePeerID < found.2) ∧
      s.peersListMatchesIgnoreOrdering next.2.orderedPeersList then
    (some next.1, next.2.sourcePeerID)
  else found

theorem searchKingmaker_eq : s.searchKingmaker =
    s.sourcePackets.foldl s.considerPacket (none, .invalid) := by
  rw [sourcePackets, List.foldl_map]
  rfl

/-- What the search has found after some of the sources. -/
def FoundAmong (s : PZGHeartbeatThreadState Addr)
    (packets : List (PZGHeartbeatSourceKey Addr × PZGHeartbeatPacketWithMetaData))
    (found : Option (PZGHeartbeatSourceKey Addr) × ZGPeerID) : Prop :=
  (found = (none, .invalid) ∧ s.matchingOf packets = []) ∨
    ∃ next ∈ s.matchingOf packets, found = (some next.1, next.2.sourcePeerID) ∧
      ((∀ other ∈ s.matchingOf packets,
        next.2.sourcePeerID ≤ other.2.sourcePeerID) ∨
        ∃ other ∈ s.matchingOf packets, other.2.sourcePeerID.isValid = false)

/-- **One source of the search.** -/
theorem FoundAmong.considerPacket (h : s.FoundAmong packets found) :
    s.FoundAmong (packets ++ [next]) (s.considerPacket found next) := by
  unfold FoundAmong at h ⊢
  have happend : s.matchingOf (packets ++ [next]) =
      s.matchingOf packets ++ s.matchingOf [next] :=
    List.filter_append _ _
  rw [happend]
  cases hmatches : s.peersListMatchesIgnoreOrdering next.2.orderedPeersList with
  | false =>
      have hskip : s.considerPacket found next = found := by
        simp [PZGHeartbeatThreadState.considerPacket, hmatches]
      have hnone : s.matchingOf [next] = [] := by simp [matchingOf, hmatches]
      rw [hskip, hnone, List.append_nil]
      exact h
  | true =>
      have hone : s.matchingOf [next] = [next] := by simp [matchingOf, hmatches]
      rw [hone]
      simp only [PZGHeartbeatThreadState.considerPacket, hmatches, and_true]
      rcases h with ⟨rfl, hnone⟩ | ⟨held, hheld, rfl, hleast⟩
      · refine Or.inr ⟨next, by simp, if_pos (Or.inl rfl), Or.inl ?_⟩
        intro other hother
        obtain rfl : other = next := by simpa [hnone] using hother
        exact le_rfl
      · have hheld' : held ∈ s.matchingOf packets ++ [next] :=
          List.mem_append_left _ hheld
        have hnext : next ∈ s.matchingOf packets ++ [next] := by simp
        split_ifs with htake
        · refine Or.inr ⟨next, hnext, rfl, ?_⟩
          rcases htake with hinvalid | hlt
          · exact Or.inr ⟨held, hheld', hinvalid⟩
          · refine hleast.imp (fun hle other hother => ?_) ?_
            · rcases List.mem_append.mp hother with hin | hin
              · exact hlt.le.trans (hle other hin)
              · rw [List.mem_singleton.mp hin]
            · rintro ⟨other, hother, hinvalid⟩
              exact ⟨other, List.mem_append_left _ hother, hinvalid⟩
        · refine Or.inr ⟨held, hheld', rfl, ?_⟩
          refine hleast.imp (fun hle other hother => ?_) ?_
          · rcases List.mem_append.mp hother with hin | hin
            · exact hle other hin
            · rw [List.mem_singleton.mp hin]
              exact not_lt.mp fun hlt => htake (Or.inr hlt)
          · rintro ⟨other, hother, hinvalid⟩
            exact ⟨other, List.mem_append_left _ hother, hinvalid⟩

/-- **The search.** -/
theorem foundAmong_foldl :
    s.FoundAmong packets (packets.foldl s.considerPacket (none, .invalid)) := by
  induction packets using List.reverseRecOn with
  | nil => exact Or.inl ⟨rfl, rfl⟩
  | append_singleton packets next ih =>
      rw [List.foldl_append]
      exact ih.considerPacket

/-- A matching source of nobody is always taken. -/
theorem considerPacket_nobody
    (hmatches : s.peersListMatchesIgnoreOrdering next.2.orderedPeersList = true)
    (hnobody : next.2.sourcePeerID.isValid = false) :
    s.considerPacket found next = (some next.1, next.2.sourcePeerID) := by
  refine if_pos ⟨?_, hmatches⟩
  by_cases hvalid : found.2.isValid = true
  · refine Or.inr (lt_of_le_of_ne (ZGPeerID.le_of_isValid_eq_false hnobody) ?_)
    rintro heq
    rw [heq, hvalid] at hnobody
    cases hnobody
  · exact Or.inl (by simpa using hvalid)

/-- What is as low as everything that matches is kept, once it is found. -/
theorem foldl_considerPacket_of_least
    (hvalid : next.2.sourcePeerID.isValid = true)
    (hleast : ∀ other ∈ s.matchingOf packets,
      next.2.sourcePeerID ≤ other.2.sourcePeerID) :
    packets.foldl s.considerPacket (some next.1, next.2.sourcePeerID) =
      (some next.1, next.2.sourcePeerID) := by
  induction packets with
  | nil => rfl
  | cons other packets ih =>
      have hkeep : s.considerPacket (some next.1, next.2.sourcePeerID) other =
          (some next.1, next.2.sourcePeerID) := by
        refine if_neg ?_
        rintro ⟨hinvalid | hlt, hmatches⟩
        · rw [hvalid] at hinvalid
          cases hinvalid
        · refine absurd hlt (not_lt.mpr (hleast other ?_))
          simp [matchingOf, hmatches]
      rw [List.foldl_cons, hkeep]
      refine ih fun other' hother' => hleast other' ?_
      exact (List.Sublist.filter _ (List.sublist_cons_self other packets)).subset
        hother'

variable [DecidableEq Addr]

/-- The packet from `source` names the peers that are online. -/
def Matching (s : PZGHeartbeatThreadState Addr)
    (source : PZGHeartbeatSourceKey Addr) : Prop :=
  ∃ hb, s.packetFrom source = some hb ∧
    s.peersListMatchesIgnoreOrdering hb.orderedPeersList = true

/-- Whether `source` is the kingmaker's in some order of the sources: no
other matching source is of a lower peer, unless one is of nobody, which
makes the search begin anew. -/
def MayBeKingmaker (s : PZGHeartbeatThreadState Addr)
    (source : PZGHeartbeatSourceKey Addr) : Prop :=
  s.Matching source ∧
    ((∀ other, s.Matching other → source.peerID ≤ other.peerID) ∨
      ∃ other, s.Matching other ∧ other.peerID.isValid = false)

theorem packetFrom_eq_some_iff {hb : PZGHeartbeatPacketWithMetaData} :
    s.packetFrom source = some hb ↔ (source, hb) ∈ s.sourcePackets := by
  simp only [packetFrom, Option.map_eq_some_iff, sourcePackets, List.mem_map,
    Prod.mk.injEq]
  constructor
  · rintro ⟨state, hstate, rfl⟩
    exact ⟨⟨source, state⟩, AList.mem_lookup_iff.mp hstate, rfl, rfl⟩
  · rintro ⟨⟨source', state⟩, hentry, rfl, rfl⟩
    exact ⟨state, AList.mem_lookup_iff.mpr hentry, rfl⟩

/-- The matching sources are those of the matching packets. -/
theorem matching_iff : s.Matching source ↔
    ∃ next ∈ s.matchingOf s.sourcePackets, next.1 = source := by
  simp only [Matching, packetFrom_eq_some_iff, matchingOf, List.mem_filter]
  constructor
  · rintro ⟨hb, hin, hmatches⟩
    exact ⟨(source, hb), ⟨hin, hmatches⟩, rfl⟩
  · rintro ⟨⟨source', hb⟩, ⟨hin, hmatches⟩, rfl⟩
    exact ⟨hb, hin, hmatches⟩

/-- The source that the search finds may be the kingmaker's, and it finds
none only if no source matches. -/
theorem Coherent.getKingmakerPeerSource_cases (h : Coherent s) :
    (s.getKingmakerPeerSource = none ∧ ∀ source, ¬ s.Matching source) ∨
      ∃ source, s.getKingmakerPeerSource = some source ∧
        s.MayBeKingmaker source := by
  have hpid : ∀ next ∈ s.matchingOf s.sourcePackets,
      next.2.sourcePeerID = next.1.peerID := by
    rintro ⟨source, hb⟩ hnext
    exact h.sourcePeerID_eq (packetFrom_eq_some_iff.mpr (List.mem_of_mem_filter hnext))
  have hfound : s.FoundAmong s.sourcePackets _ := foundAmong_foldl
  rw [getKingmakerPeerSource, searchKingmaker_eq]
  rcases hfound with ⟨hfound, hnone⟩ | ⟨next, hnext, hfound, hleast⟩
  · refine Or.inl ⟨by rw [hfound], fun source hmatches => ?_⟩
    obtain ⟨next, hnext, -⟩ := matching_iff.mp hmatches
    rw [hnone] at hnext
    cases hnext
  · refine Or.inr ⟨next.1, by rw [hfound], matching_iff.mpr ⟨next, hnext, rfl⟩, ?_⟩
    refine hleast.imp (fun hle other hother => ?_) ?_
    · obtain ⟨next', hnext', rfl⟩ := matching_iff.mp hother
      rw [← hpid next hnext, ← hpid next' hnext']
      exact hle next' hnext'
    · rintro ⟨other, hother, hinvalid⟩
      exact ⟨other.1, matching_iff.mpr ⟨other, hother, rfl⟩,
        hpid other hother ▸ hinvalid⟩

theorem matching_of_getKingmakerPeerSource
    (h : s.getKingmakerPeerSource = some source) : s.Matching source := by
  have hfound : s.FoundAmong s.sourcePackets _ := foundAmong_foldl
  rw [getKingmakerPeerSource, searchKingmaker_eq] at h
  rcases hfound with ⟨hfound, -⟩ | ⟨next, hnext, hfound, -⟩
  · rw [hfound] at h
    cases h
  · rw [hfound] at h
    exact matching_iff.mpr ⟨next, hnext, Option.some.inj h⟩

/-! ### Whether each peer is in the list once -/

omit [DecidableEq Addr] in
/-- The list that has passed the comparison with the peers online is one of
these exactly when it has no repeats. -/
theorem perm_keys_iff_of_matches {ids : List ZGPeerID}
    (hmatches : s.peersListMatchesIgnoreOrdering ids = true) :
    ids.Perm s.peerIDToIPAddresses.keys ↔ ids.Nodup := by
  obtain ⟨hlength, hmem⟩ : ids.length = s.peerIDToIPAddresses.entries.length ∧
      ∀ p ∈ ids, p ∈ s.peerIDToIPAddresses := by
    simpa [peersListMatchesIgnoreOrdering] using hmatches
  constructor
  · intro hperm
    exact hperm.nodup_iff.mpr s.peerIDToIPAddresses.keys_nodup
  · intro hnodup
    refine (List.subperm_of_subset hnodup fun p hp =>
      AList.mem_keys.mp (hmem p hp)).perm_of_length_le ?_
    rw [hlength]
    simp [AList.keys, List.keys]

variable [IPAddressAndPort Addr]

/-- The list contains each peer that is online once, and nothing else,
exactly when that of the kingmaker has no repeats. -/
theorem perm_calculateOrderedPeersList_iff :
    s.calculateOrderedPeersList.2.Perm s.peerIDToIPAddresses.keys ↔
      ∀ kmSource ∈ s.getKingmakerPeerSource.filter (·.isValid),
        ∀ hb ∈ s.packetFrom kmSource, hb.orderedPeersList.Nodup := by
  unfold calculateOrderedPeersList
  cases hkm : s.getKingmakerPeerSource.filter (·.isValid) with
  | none => simpa using perm_keys_sortBySeniority
  | some kmSource =>
      obtain ⟨hkm, -⟩ := Option.filter_eq_some_iff.mp hkm
      obtain ⟨hb, hhb, hmatches⟩ := matching_of_getKingmakerPeerSource hkm
      simpa [hhb] using perm_keys_iff_of_matches hmatches

/-- Peer 1 names itself twice, and peer 2 not at all. -/
def kingmakerRepeatsItself : PZGHeartbeatThreadState ℕ :=
  Runs.run step (initialized peerOneSettings 0)
    [.received 11 (heartbeatOf ⟨0, 1⟩ peerTypeFullPeer [⟨0, 1⟩, ⟨0, 1⟩]) 0,
      .received 12 (heartbeatOf ⟨0, 2⟩ peerTypeFullPeer []) 0]

/-- Its list is taken for one of two peers. -/
theorem kingmakerRepeatsItself_adopted :
    kingmakerRepeatsItself.peerIDToIPAddresses.keys = [⟨0, 1⟩, ⟨0, 2⟩] ∧
    kingmakerRepeatsItself.calculateOrderedPeersList.2 =
      [⟨0, 1⟩, ⟨0, 1⟩] ∧
    ¬ kingmakerRepeatsItself.calculateOrderedPeersList.2.Perm
      kingmakerRepeatsItself.peerIDToIPAddresses.keys := by
  decide

/-! ### What the order depends on -/

section

omit [IPAddressAndPort Addr]

/-- The same sources are online, with the same packets. -/
def SameSources (s s' : PZGHeartbeatThreadState Addr) : Prop :=
  ∀ source, s'.packetFrom source = s.packetFrom source

/-- Coherent tables with the same sources have the same peers, and the
addresses of each in some order. -/
theorem SameSources.perm_addressesOf (hsame : SameSources s s')
    (h : Coherent s) (h' : Coherent s') (p : ZGPeerID) :
    (s'.addressesOf p).Perm (s.addressesOf p) := by
  refine (List.perm_ext_iff_of_nodup (h'.nodup p) (h.nodup p)).mpr fun a => ?_
  have hiff : ∀ {s : PZGHeartbeatThreadState Addr} {source},
      source ∈ s.onlineSources ↔ (s.packetFrom source).isSome = true := by
    intro s source
    rw [packetFrom, Option.isSome_map, AList.lookup_isSome]
  rw [h.addresses, h'.addresses, hiff, hiff, hsame]

theorem SameSources.perm_keys (hsame : SameSources s s') (h : Coherent s)
    (h' : Coherent s') :
    s'.peerIDToIPAddresses.keys.Perm s.peerIDToIPAddresses.keys := by
  refine (List.perm_ext_iff_of_nodup s'.peerIDToIPAddresses.keys_nodup
    s.peerIDToIPAddresses.keys_nodup).mpr fun p => ?_
  rw [← AList.mem_keys, ← AList.mem_keys, h.nonempty, h'.nonempty, ne_eq, ne_eq,
    ← List.length_eq_zero_iff, ← List.length_eq_zero_iff,
    (hsame.perm_addressesOf h h' p).length_eq]

theorem SameSources.peersListMatchesIgnoreOrdering_eq
    (hsame : SameSources s s') (h : Coherent s) (h' : Coherent s') :
    s'.peersListMatchesIgnoreOrdering = s.peersListMatchesIgnoreOrdering := by
  have hperm := hsame.perm_keys h h'
  have hlength : s'.peerIDToIPAddresses.entries.length =
      s.peerIDToIPAddresses.entries.length := by
    simpa [AList.keys, List.keys] using hperm.length_eq
  have hmem : ∀ p, p ∈ s'.peerIDToIPAddresses ↔ p ∈ s.peerIDToIPAddresses :=
    fun p => hperm.mem_iff
  funext ids
  simp only [peersListMatchesIgnoreOrdering, hlength, hmem]

theorem SameSources.matching_iff (hsame : SameSources s s') (h : Coherent s)
    (h' : Coherent s') : s'.Matching source ↔ s.Matching source := by
  simp only [Matching, hsame.peersListMatchesIgnoreOrdering_eq h h', hsame source]

theorem SameSources.mayBeKingmaker_iff (hsame : SameSources s s')
    (h : Coherent s) (h' : Coherent s') :
    s'.MayBeKingmaker source ↔ s.MayBeKingmaker source := by
  simp only [MayBeKingmaker, hsame.matching_iff h h']

theorem SameSources.maxFromQueue_eq {α : Type} [Max α] [LE α]
    [Std.LawfulOrderSup α] [Std.IsPartialOrder α]
    {value : PZGHeartbeatPacketWithMetaData → α} {ret : α}
    (hsame : SameSources s s') (h : Coherent s) (h' : Coherent s')
    (p : ZGPeerID) :
    maxFromQueue value s' p ret (s'.addressesOf p) =
      maxFromQueue value s p ret (s.addressesOf p) := by
  have hbound : ∀ bound, maxFromQueue value s' p ret (s'.addressesOf p) ≤ bound ↔
      maxFromQueue value s p ret (s.addressesOf p) ≤ bound := by
    intro bound
    simp only [maxFromQueue_le_iff, hsame _,
      (hsame.perm_addressesOf h h' p).mem_iff]
  exact Std.le_antisymm ((hbound _).mpr (Std.le_refl _))
    ((hbound _).mp (Std.le_refl _))

/-- The seniority of a peer is the same for all who have the same sources. -/
theorem SameSources.seniority_eq (hsame : SameSources s s') (h : Coherent s)
    (h' : Coherent s') : s'.seniority = s.seniority := by
  funext p
  have htype : s'.peerTypeOf p = s.peerTypeOf p :=
    hsame.maxFromQueue_eq h h' p
  have huptime : s'.uptimeOf p = s.uptimeOf p :=
    hsame.maxFromQueue_eq h h' p
  rw [seniority, htype, huptime, seniority]

/-- So is the order that the peers are sorted into. -/
theorem SameSources.keys_sortBySeniority_eq (hsame : SameSources s s')
    (h : Coherent s) (h' : Coherent s') :
    s'.sortBySeniority.peerIDToIPAddresses.keys =
      s.sortBySeniority.peerIDToIPAddresses.keys := by
  have hperm := (perm_keys_sortBySeniority (s := s')).trans
    ((hsame.perm_keys h h').trans (perm_keys_sortBySeniority (s := s)).symm)
  have hsorted := pairwise_keys_sortBySeniority (s := s')
  rw [hsame.seniority_eq h h'] at hsorted
  refine hperm.eq_of_pairwise (fun p q _ _ hqp hpq => ?_) hsorted
    pairwise_keys_sortBySeniority
  exact seniority_injective (le_antisymm hpq hqp)

end

/-- The order that a source makes as the kingmaker's. -/
def orderFrom (s : PZGHeartbeatThreadState Addr)
    (source : PZGHeartbeatSourceKey Addr) : List ZGPeerID :=
  if source.isValid then ((s.packetFrom source).map (·.orderedPeersList)).getD []
  else s.sortBySeniority.peerIDToIPAddresses.keys

/-- All sources that may be the kingmaker's make the same order. -/
def KingmakerUnanimous (s : PZGHeartbeatThreadState Addr) : Prop :=
  ∀ source other, s.MayBeKingmaker source → s.MayBeKingmaker other →
    s.orderFrom source = s.orderFrom other

theorem SameSources.orderFrom_eq (hsame : SameSources s s') (h : Coherent s)
    (h' : Coherent s') : s'.orderFrom source = s.orderFrom source := by
  rw [orderFrom, orderFrom, hsame, hsame.keys_sortBySeniority_eq h h']

theorem calculateOrderedPeersList_of_kingmaker
    (hkm : s.getKingmakerPeerSource = some source) :
    s.calculateOrderedPeersList.2 = s.orderFrom source := by
  obtain ⟨hb, hhb, -⟩ := matching_of_getKingmakerPeerSource hkm
  rw [calculateOrderedPeersList, orderFrom, hkm, hhb]
  by_cases hvalid : source.isValid = true
  · simp [Option.filter, hvalid, hhb]
  · simp [Option.filter, hvalid]

/-- What the kingmaker's sources agree on does not depend on the order of the
table. -/
theorem KingmakerUnanimous.calculateOrderedPeersList_eq
    (hunanimous : s.KingmakerUnanimous) (hsame : SameSources s s')
    (h : Coherent s) (h' : Coherent s') :
    s'.calculateOrderedPeersList.2 = s.calculateOrderedPeersList.2 := by
  rcases h.getKingmakerPeerSource_cases with ⟨hnone, hno⟩ | ⟨source, hkm, hmay⟩
  · rcases h'.getKingmakerPeerSource_cases with ⟨hnone', -⟩ | ⟨source', -, hmay'⟩
    · rw [calculateOrderedPeersList_of_no_kingmaker (by rw [hnone']; rfl),
        calculateOrderedPeersList_of_no_kingmaker (by rw [hnone]; rfl)]
      exact hsame.keys_sortBySeniority_eq h h'
    · exact absurd ((hsame.matching_iff h h').mp hmay'.1) (hno source')
  · rcases h'.getKingmakerPeerSource_cases with
      ⟨-, hno'⟩ | ⟨source', hkm', hmay'⟩
    · exact absurd ((hsame.matching_iff h h').mpr hmay.1) (hno' source)
    · rw [calculateOrderedPeersList_of_kingmaker hkm,
        calculateOrderedPeersList_of_kingmaker hkm', hsame.orderFrom_eq h h']
      exact hunanimous _ _ ((hsame.mayBeKingmaker_iff h h').mp hmay') hmay

/-! ### Hearing the sources in another order -/

omit [IPAddressAndPort Addr] in
/-- A packet that is not ignored is put into the table of the sources. -/
theorem receiveMulticastTraffic_accepted {a : Addr}
    {hb : PZGHeartbeatPacketWithMetaData} {localReceiveTimeMicros : ℕ}
    (hversion : hb.versionCode = s.hbSettings.versionCode)
    (hkey : hb.systemKey = s.hbSettings.systemKey) :
    ∃ expiration,
      (s.receiveMulticastTraffic a hb localReceiveTimeMicros).hbSettings =
        (s.heartbeatReceived ⟨a, hb.sourcePeerID⟩ ⟨hb, expiration⟩).hbSettings ∧
      (s.receiveMulticastTraffic a hb localReceiveTimeMicros).onlineSources =
        (s.heartbeatReceived ⟨a, hb.sourcePeerID⟩
          ⟨hb, expiration⟩).onlineSources := by
  unfold receiveMulticastTraffic
  rw [if_neg (not_not.mpr hversion), if_neg (not_not.mpr hkey)]
  dsimp only
  refine ⟨if hb.sourcePeerID = s.hbSettings.localPeerID then ⊤
    else (localReceiveTimeMicros + s.heartbeatExpirationTimeMicros : ℕ), ?_⟩
  generalize s.heartbeatReceived ⟨a, hb.sourcePeerID⟩ _ = received
  constructor <;> (split_ifs <;> rfl)

/-- A source that is new goes to the end of the table. -/
theorem step_received_new {a : Addr} {hb : PZGHeartbeatPacketWithMetaData}
    (hversion : hb.versionCode = s.hbSettings.versionCode)
    (hkey : hb.systemKey = s.hbSettings.systemKey)
    (hnew : (⟨a, hb.sourcePeerID⟩ : PZGHeartbeatSourceKey Addr) ∉ s.onlineSources) :
    (s.step (.received a hb 0)).hbSettings = s.hbSettings ∧
      ∃ expiration, (s.step (.received a hb 0)).onlineSources.entries =
        s.onlineSources.entries ++ [⟨⟨a, hb.sourcePeerID⟩, ⟨hb, expiration⟩⟩] := by
  obtain ⟨expiration, hsettings, hsources⟩ :=
    receiveMulticastTraffic_accepted (a := a) hversion hkey
  have hreceived : ∀ state : PZGHeartbeatSourceState,
      s.heartbeatReceived ⟨a, hb.sourcePeerID⟩ state =
        s.introduceSource ⟨a, hb.sourcePeerID⟩ state := by
    intro state
    rw [heartbeatReceived, AList.lookup_eq_none.mpr hnew]
  rw [hreceived] at hsettings hsources
  refine ⟨hsettings, expiration, ?_⟩
  rw [step, handle, hsources]
  exact AList.entries_put_of_notMem hnew

/-- Packets from some sources, heard one after another. -/
def hearings
    (packets : List (PZGHeartbeatSourceKey Addr × PZGHeartbeatPacketWithMetaData)) :
    List (Event Addr) :=
  packets.map fun next => .received next.1.ipAddressAndPort next.2 0

/-- The table has the sources in the order in which they were heard from. -/
theorem run_hearings {hbSettings : PZGHeartbeatSettings}
    (hnodup : (packets.map Prod.fst).Nodup)
    (haccepted : ∀ next ∈ packets, next.2.sourcePeerID = next.1.peerID ∧
      next.2.versionCode = hbSettings.versionCode ∧
      next.2.systemKey = hbSettings.systemKey) :
    (Runs.run step (initialized hbSettings 0) (hearings packets)).hbSettings =
        hbSettings ∧
      (Runs.run step (initialized hbSettings 0)
        (hearings packets)).sourcePackets = packets := by
  induction packets using List.reverseRecOn with
  | nil => exact ⟨rfl, rfl⟩
  | append_singleton packets next ih =>
      obtain ⟨⟨a, p⟩, hb⟩ := next
      have hnext : hb.sourcePeerID = p ∧
          hb.versionCode = hbSettings.versionCode ∧
          hb.systemKey = hbSettings.systemKey :=
        haccepted _ (List.mem_append_right _ List.mem_cons_self)
      obtain ⟨rfl, hversion, hkey⟩ := hnext
      rw [List.map_append] at hnodup
      obtain ⟨hfirst, -, hdisjoint⟩ := List.nodup_append'.mp hnodup
      obtain ⟨hsettings, hpackets⟩ := ih hfirst fun next hnext =>
        haccepted next (List.mem_append_left _ hnext)
      rw [hearings, List.map_append, Runs.run_append, ← hearings]
      generalize Runs.run step (initialized hbSettings 0) (hearings packets) = s
        at hsettings hpackets
      have hkeys : s.onlineSources.keys = packets.map Prod.fst := by
        rw [← hpackets, sourcePackets, List.map_map]
        rfl
      have hnew : (⟨a, hb.sourcePeerID⟩ : PZGHeartbeatSourceKey Addr) ∉
          s.onlineSources := by
        rw [AList.mem_keys, hkeys]
        exact fun hin => hdisjoint hin List.mem_cons_self
      obtain ⟨hsettings', expiration, hentries⟩ := step_received_new
        (hsettings ▸ hversion) (hsettings ▸ hkey) hnew
      refine ⟨hsettings'.trans hsettings, ?_⟩
      simp only [List.map_cons, List.map_nil, Runs.run_cons, Runs.run_nil,
        hentries, sourcePackets, List.map_append]
      rw [← sourcePackets, hpackets]

/-- Any order of the sources of a state is that of another one. -/
theorem Reachable.exists_reordered (hreach : Reachable s)
    (hperm : packets.Perm s.sourcePackets) :
    ∃ s', Reachable s' ∧ SameSources s s' ∧ s'.sourcePackets = packets := by
  have h := hreach.coherent
  have hkeys : (s.sourcePackets.map Prod.fst).Nodup := by
    have hsame : s.sourcePackets.map Prod.fst = s.onlineSources.keys := by
      rw [sourcePackets, List.map_map]
      rfl
    exact hsame ▸ s.onlineSources.keys_nodup
  have haccepted : ∀ next ∈ packets, next.2.sourcePeerID = next.1.peerID ∧
      next.2.versionCode = s.hbSettings.versionCode ∧
      next.2.systemKey = s.hbSettings.systemKey := by
    intro next hnext
    obtain ⟨⟨source, state⟩, hentry, rfl⟩ :=
      List.mem_map.mp (hperm.mem_iff.mp hnext)
    exact h.accepted (AList.mem_lookup_iff.mpr hentry)
  obtain ⟨-, hpackets⟩ :=
    run_hearings ((hperm.map Prod.fst).nodup_iff.mpr hkeys) haccepted
  refine ⟨_, ⟨s.hbSettings, 0, hearings packets, rfl⟩, fun source => ?_, hpackets⟩
  refine Option.ext fun hb => ?_
  rw [packetFrom_eq_some_iff, packetFrom_eq_some_iff, hpackets, hperm.mem_iff]

/-- Every source that may be the kingmaker's is, in some order. -/
theorem MayBeKingmaker.exists_reachable (hmay : s.MayBeKingmaker source)
    (hreach : Reachable s) :
    ∃ s', Reachable s' ∧ SameSources s s' ∧
      s'.getKingmakerPeerSource = some source := by
  have h := hreach.coherent
  have hpid : ∀ next ∈ s.sourcePackets, next.2.sourcePeerID = next.1.peerID :=
    fun next hnext => h.sourcePeerID_eq (packetFrom_eq_some_iff.mpr hnext)
  obtain ⟨⟨next, hnext, rfl⟩, hleast⟩ := hmay.imp_left matching_iff.mp
  obtain ⟨hin, hmatches⟩ := List.mem_filter.mp hnext
  -- it is enough to put the packets into an order in which it is found
  suffices hfound : ∃ packets : List (PZGHeartbeatSourceKey Addr ×
      PZGHeartbeatPacketWithMetaData), packets.Perm s.sourcePackets ∧
      (packets.foldl s.considerPacket (none, .invalid)).1 = some next.1 by
    obtain ⟨packets, hperm, hfound⟩ := hfound
    obtain ⟨s', hreach', hsame, rfl⟩ := hreach.exists_reordered hperm
    refine ⟨s', hreach', hsame, ?_⟩
    have hsearch : s'.considerPacket = s.considerPacket := by
      funext found next
      rw [considerPacket, considerPacket,
        hsame.peersListMatchesIgnoreOrdering_eq h hreach'.coherent]
    rw [getKingmakerPeerSource, searchKingmaker_eq, hsearch, hfound]
  have hperm := List.perm_cons_erase hin
  have hbehind : (s.sourcePackets.erase next ++ [next]).Perm s.sourcePackets :=
    (List.perm_append_singleton _ _).trans hperm.symm
  by_cases hvalid : next.2.sourcePeerID.isValid = true
  · rcases hleast with hleast | ⟨other, hother, hinvalid⟩
    · refine ⟨next :: s.sourcePackets.erase next, hperm.symm, ?_⟩
      have hfirst : s.considerPacket (none, .invalid) next =
          (some next.1, next.2.sourcePeerID) := if_pos ⟨Or.inl rfl, hmatches⟩
      rw [List.foldl_cons, hfirst, foldl_considerPacket_of_least hvalid]
      intro other hother
      obtain ⟨hrest, hmatches'⟩ := List.mem_filter.mp hother
      have hin' : other ∈ s.sourcePackets := List.mem_of_mem_erase hrest
      rw [hpid next hin, hpid other hin']
      exact hleast other.1 (matching_iff.mpr
        ⟨other, List.mem_filter.mpr ⟨hin', hmatches'⟩, rfl⟩)
    · obtain ⟨nobody, hnobody, rfl⟩ := matching_iff.mp hother
      obtain ⟨hin', hmatches'⟩ := List.mem_filter.mp hnobody
      rw [← hpid nobody hin'] at hinvalid
      have hne : nobody ≠ next := by
        rintro rfl
        rw [hinvalid] at hvalid
        cases hvalid
      have hrest := List.perm_cons_erase ((List.mem_erase_of_ne hne).mpr hin')
      refine ⟨(s.sourcePackets.erase next).erase nobody ++ [nobody, next], ?_, ?_⟩
      · refine List.Perm.trans ?_ hbehind
        rw [← List.singleton_append (l := [next]), ← List.append_assoc]
        exact ((List.perm_append_singleton _ _).trans hrest.symm).append_right _
      · rw [List.foldl_append, List.foldl_cons,
          considerPacket_nobody hmatches' hinvalid]
        exact congrArg Prod.fst (if_pos ⟨Or.inl hinvalid, hmatches⟩)
  · refine ⟨_, hbehind, ?_⟩
    rw [List.foldl_append, List.foldl_cons,
      considerPacket_nobody hmatches (by simpa using hvalid)]
    rfl

/-- All who have the packets of a reachable state calculate its order if and
only if all sources that may be the kingmaker's make the same one. -/
theorem orderIsUniform_iff (hreach : Reachable s) :
    (∀ s', Reachable s' → SameSources s s' →
      s'.calculateOrderedPeersList.2 = s.calculateOrderedPeersList.2) ↔
      s.KingmakerUnanimous := by
  have h := hreach.coherent
  constructor
  · intro huniform
    have horder : ∀ {source}, s.MayBeKingmaker source →
        s.orderFrom source = s.calculateOrderedPeersList.2 := by
      intro source hmay
      obtain ⟨s', hreach', hsame, hkm⟩ := hmay.exists_reachable hreach
      rw [← huniform s' hreach' hsame, calculateOrderedPeersList_of_kingmaker hkm,
        hsame.orderFrom_eq h hreach'.coherent]
    exact fun source other hsource hother =>
      (horder hsource).trans (horder hother).symm
  · intro hunanimous s' hreach' hsame
    exact hunanimous.calculateOrderedPeersList_eq hsame h hreach'.coherent

/-- A packet of peer 1, from each of the two addresses it is heard from; the
second puts peer 2 first. -/
def fromFirstAddress : Event ℕ :=
  .received 11 (heartbeatOf ⟨0, 1⟩ peerTypeFullPeer [⟨0, 1⟩, ⟨0, 2⟩]) 0

def fromSecondAddress : Event ℕ :=
  .received 12 (heartbeatOf ⟨0, 1⟩ peerTypeFullPeer [⟨0, 2⟩, ⟨0, 1⟩]) 0

/-- Peer 2 has been heard from, and then peer 1. -/
def heardFrom (packets : List (Event ℕ)) : PZGHeartbeatThreadState ℕ :=
  Runs.run step (initialized peerOneSettings 0)
    (.received 13 (heartbeatOf ⟨0, 2⟩ peerTypeFullPeer []) 0 :: packets)

/-- The packet that came first decides. -/
theorem heardFrom_order_matters :
    Reachable (heardFrom [fromFirstAddress, fromSecondAddress]) ∧
    Reachable (heardFrom [fromSecondAddress, fromFirstAddress]) ∧
    SameSources (heardFrom [fromFirstAddress, fromSecondAddress])
        (heardFrom [fromSecondAddress, fromFirstAddress]) ∧
    (heardFrom [fromFirstAddress, fromSecondAddress]).calculateOrderedPeersList.2 =
      [⟨0, 1⟩, ⟨0, 2⟩] ∧
    (heardFrom [fromSecondAddress, fromFirstAddress]).calculateOrderedPeersList.2 =
      [⟨0, 2⟩, ⟨0, 1⟩] := by
  refine ⟨⟨_, _, _, rfl⟩, ⟨_, _, _, rfl⟩, fun source => ?_, by decide, by decide⟩
  have hperm : (heardFrom [fromSecondAddress,
      fromFirstAddress]).onlineSources.entries.Perm
      (heardFrom [fromFirstAddress, fromSecondAddress]).onlineSources.entries := by
    decide
  rw [packetFrom, packetFrom, AList.perm_lookup hperm]

theorem heardFrom_orderIsUniform_iff :
    (∀ s', Reachable s' →
      SameSources (heardFrom [fromFirstAddress, fromSecondAddress]) s' →
      s'.calculateOrderedPeersList.2 = (heardFrom
        [fromFirstAddress, fromSecondAddress]).calculateOrderedPeersList.2) ↔
      (heardFrom [fromFirstAddress, fromSecondAddress]).KingmakerUnanimous :=
  orderIsUniform_iff ⟨_, _, _, rfl⟩

end PZGHeartbeatThreadState

end ZgChoir
