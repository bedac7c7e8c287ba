import ZgChoir.HeartbeatThread
import ZgChoir.Runs

/-!
# The two tables of sources

The heartbeat thread keeps its sources in one table, with their packets, and
the addresses of each peer in another.  `Coherent` says how the two belong
together; it holds in every state the thread can reach.
-/

namespace ZgChoir

namespace PZGHeartbeatThreadState

variable {Addr : Type} [DecidableEq Addr]
variable {s s' : PZGHeartbeatThreadState Addr} {p : ZGPeerID} {a : Addr}
variable {source : PZGHeartbeatSourceKey Addr}
variable {newSource : PZGHeartbeatSourceState}

/-- The addresses from which a peer is heard. -/
def addressesOf (s : PZGHeartbeatThreadState Addr) (p : ZGPeerID) :
    List Addr :=
  (s.peerIDToIPAddresses.lookup p).getD []

/-- How the tables belong together: the packet of a source is its peer's and
has been accepted, the addresses of a peer are those of its sources, each
once, and a peer without addresses is in no table. -/
structure Coherent (s : PZGHeartbeatThreadState Addr) : Prop where
  accepted : ∀ {source state}, s.onlineSources.lookup source = some state →
    state.hbPacket.sourcePeerID = source.peerID ∧
      state.hbPacket.versionCode = s.hbSettings.versionCode ∧
      state.hbPacket.systemKey = s.hbSettings.systemKey
  addresses : ∀ {a p},
    a ∈ s.addressesOf p ↔ (⟨a, p⟩ : PZGHeartbeatSourceKey Addr) ∈ s.onlineSources
  nodup : ∀ p, (s.addressesOf p).Nodup
  nonempty : ∀ {p}, p ∈ s.peerIDToIPAddresses ↔ s.addressesOf p ≠ []

/-- A peer is in the table exactly when it has a source. -/
theorem Coherent.mem_iff (h : Coherent s) : p ∈ s.peerIDToIPAddresses ↔
    ∃ a, (⟨a, p⟩ : PZGHeartbeatSourceKey Addr) ∈ s.onlineSources := by
  simp only [h.nonempty, ← h.addresses, ← List.isEmpty_eq_false_iff,
    List.isEmpty_eq_false_iff_exists_mem]

theorem Coherent.sourcePeerID_eq {hb : PZGHeartbeatPacketWithMetaData}
    (h : Coherent s) (hhb : s.packetFrom source = some hb) :
    hb.sourcePeerID = source.peerID := by
  obtain ⟨state, hstate, rfl⟩ := Option.map_eq_some_iff.mp hhb
  exact (h.accepted hstate).1

omit [DecidableEq Addr] in
theorem lookup_eq_addressesOf (hp : p ∈ s.peerIDToIPAddresses) :
    s.peerIDToIPAddresses.lookup p = some (s.addressesOf p) := by
  obtain ⟨q, hq⟩ := Option.isSome_iff_exists.mp (AList.lookup_isSome.mpr hp)
  rw [addressesOf, hq]
  rfl

/-- What the thread's tables hold is all that coherence is about; the table
of the peers may be in any order. -/
theorem Coherent.congr (h : Coherent s) (hsettings : s'.hbSettings = s.hbSettings)
    (hsources : s'.onlineSources = s.onlineSources)
    (hpeers : ∀ p, s'.peerIDToIPAddresses.lookup p =
      s.peerIDToIPAddresses.lookup p) : Coherent s' := by
  have hsame : ∀ p, s'.addressesOf p = s.addressesOf p := fun p => by
    rw [addressesOf, addressesOf, hpeers]
  have hmem : ∀ p, p ∈ s'.peerIDToIPAddresses ↔ p ∈ s.peerIDToIPAddresses :=
    fun p => by rw [← AList.lookup_isSome, hpeers, AList.lookup_isSome]
  constructor
  · intro source state hstate
    rw [hsources] at hstate
    rw [hsettings]
    exact h.accepted hstate
  · intro a p
    rw [hsame, hsources]
    exact h.addresses
  · intro p
    rw [hsame]
    exact h.nodup p
  · intro p
    rw [hsame, hmem]
    exact h.nonempty

theorem coherent_initialized {hbSettings : PZGHeartbeatSettings}
    {startTime : ℕ} :
    Coherent (initialized hbSettings startTime :
      PZGHeartbeatThreadState Addr) where
  accepted := by simp [initialized]
  addresses := by simp [initialized, addressesOf]
  nodup := by simp [initialized, addressesOf]
  nonempty := by simp [initialized, addressesOf]

/-! ### One source more or less -/

theorem Coherent.lookup_expireSource {state : PZGHeartbeatSourceState}
    (h : Coherent s) (hstate : s.onlineSources.lookup source = some state) :
    (s.expireSource source).peerIDToIPAddresses.lookup p =
      if p = source.peerID then
        if (s.addressesOf p).erase source.ipAddressAndPort = [] then none
        else some ((s.addressesOf p).erase source.ipAddressAndPort)
      else s.peerIDToIPAddresses.lookup p := by
  have hpid := (h.accepted hstate).1
  have hin : source ∈ s.onlineSources :=
    AList.lookup_isSome.mp (by rw [hstate]; rfl)
  have haddress : source.ipAddressAndPort ∈ s.addressesOf source.peerID :=
    h.addresses.mpr hin
  have hmem : source.peerID ∈ s.peerIDToIPAddresses :=
    h.mem_iff.mpr ⟨_, hin⟩
  have hpeers : (s.expireSource source).peerIDToIPAddresses =
      if (s.addressesOf source.peerID).erase source.ipAddressAndPort = [] then
        s.peerIDToIPAddresses.erase source.peerID
      else s.peerIDToIPAddresses.replace source.peerID
        ((s.addressesOf source.peerID).erase source.ipAddressAndPort) := by
    simp only [expireSource, hstate, scheduleUpdateOfficialPeersList]
    rw [hpid, lookup_eq_addressesOf hmem]
    simp [haddress]
  rw [hpeers]
  by_cases hp : p = source.peerID
  · subst hp
    rw [if_pos rfl]
    split_ifs
    · exact AList.lookup_erase _ _
    · rw [AList.lookup_replace hmem, if_pos rfl]
  · rw [if_neg hp]
    split_ifs
    · exact AList.lookup_erase_ne hp
    · rw [AList.lookup_replace hmem, if_neg hp]

theorem onlineSources_expireSource {state : PZGHeartbeatSourceState}
    (hstate : s.onlineSources.lookup source = some state) :
    (s.expireSource source).onlineSources = s.onlineSources.erase source := by
  simp [expireSource, hstate, scheduleUpdateOfficialPeersList]

/-- A source that expires leaves the tables coherent. -/
theorem Coherent.expireSource (h : Coherent s) :
    Coherent (s.expireSource source) := by
  cases hstate : s.onlineSources.lookup source with
  | none =>
      have hsame : s.expireSource source = s := by
        simp [PZGHeartbeatThreadState.expireSource, hstate]
      rwa [hsame]
  | some state =>
      have hsettings : (s.expireSource source).hbSettings = s.hbSettings := by
        simp [PZGHeartbeatThreadState.expireSource, hstate,
          scheduleUpdateOfficialPeersList]
      have hsources := onlineSources_expireSource hstate
      have hpeers := fun p => h.lookup_expireSource (p := p) hstate
      have haddresses : ∀ p, (s.expireSource source).addressesOf p =
          if p = source.peerID then
            (s.addressesOf p).erase source.ipAddressAndPort
          else s.addressesOf p := by
        intro p
        rw [addressesOf, hpeers]
        split_ifs with hp hlast
        · simp [hlast]
        · rfl
        · rfl
      constructor
      · intro source' state' hstate'
        rw [hsources] at hstate'
        rw [hsettings]
        by_cases hsource : source' = source
        · rw [hsource, AList.lookup_erase] at hstate'
          cases hstate'
        · rw [AList.lookup_erase_ne hsource] at hstate'
          exact h.accepted hstate'
      · intro a p
        rw [haddresses, hsources, AList.mem_erase, ← h.addresses]
        by_cases hp : p = source.peerID
        · subst hp
          rw [if_pos rfl, (h.nodup _).mem_erase_iff]
          refine and_congr_left fun _ => not_congr ⟨?_, ?_⟩
          · intro ha
            rw [ha]
          · intro heq
            rw [← heq]
        · rw [if_neg hp]
          refine ⟨fun ha => ⟨?_, ha⟩, And.right⟩
          rintro rfl
          exact hp rfl
      · intro p
        rw [haddresses]
        split_ifs
        · exact (h.nodup p).erase _
        · exact h.nodup p
      · intro p
        rw [haddresses, ← AList.lookup_isSome, hpeers]
        split_ifs with hp hlast
        · simp [hlast]
        · simp [hlast]
        · rw [AList.lookup_isSome]
          exact h.nonempty

theorem onlineSources_introduceSource :
    (s.introduceSource source newSource).onlineSources =
      s.onlineSources.put source newSource := rfl

/-- A source that is new leaves the tables coherent. -/
theorem Coherent.introduceSource (h : Coherent s)
    (hnew : source ∉ s.onlineSources)
    (hpid : newSource.hbPacket.sourcePeerID = source.peerID)
    (hversion : newSource.hbPacket.versionCode = s.hbSettings.versionCode)
    (hkey : newSource.hbPacket.systemKey = s.hbSettings.systemKey) :
    Coherent (s.introduceSource source newSource) := by
  have haddresses : ∀ p, (s.introduceSource source newSource).addressesOf p =
      if p = source.peerID then
        s.addressesOf p ++ [source.ipAddressAndPort]
      else s.addressesOf p := by
    intro p
    simp only [addressesOf, PZGHeartbeatThreadState.introduceSource,
      scheduleUpdateOfficialPeersList, AList.lookup_put]
    rw [hpid]
    by_cases hp : p = source.peerID
    · subst hp
      simp
    · simp [hp]
  constructor
  · intro source' state' hstate'
    rw [onlineSources_introduceSource, AList.lookup_put] at hstate'
    split_ifs at hstate' with hsource
    · obtain rfl : newSource = state' := by simpa using hstate'
      rw [hsource]
      exact ⟨hpid, hversion, hkey⟩
    · exact h.accepted hstate'
  · intro a p
    rw [haddresses, onlineSources_introduceSource, AList.mem_put]
    by_cases hp : p = source.peerID
    · subst hp
      rw [if_pos rfl, List.mem_append, List.mem_singleton, h.addresses, or_comm]
      refine or_congr ⟨?_, ?_⟩ Iff.rfl
      · rintro rfl
        rfl
      · intro heq
        rw [← heq]
    · rw [if_neg hp, h.addresses]
      refine ⟨Or.inr, fun hin => hin.resolve_left ?_⟩
      rintro rfl
      exact hp rfl
  · intro p
    rw [haddresses]
    split_ifs with hp
    · subst hp
      refine List.nodup_append'.mpr ⟨h.nodup _, List.nodup_singleton _, ?_⟩
      exact List.disjoint_singleton.mpr fun hin => hnew (h.addresses.mp hin)
    · exact h.nodup p
  · intro p
    rw [haddresses]
    simp only [PZGHeartbeatThreadState.introduceSource,
      scheduleUpdateOfficialPeersList, AList.mem_put, hpid]
    by_cases hp : p = source.peerID
    · simp [hp]
    · simp [hp, h.nonempty]

/-- A packet that replaces the one of its source leaves the tables
coherent. -/
theorem Coherent.replaceSource (h : Coherent s)
    (hin : source ∈ s.onlineSources)
    (hpid : newSource.hbPacket.sourcePeerID = source.peerID)
    (hversion : newSource.hbPacket.versionCode = s.hbSettings.versionCode)
    (hkey : newSource.hbPacket.systemKey = s.hbSettings.systemKey) :
    Coherent { s with
      onlineSources := s.onlineSources.replace source newSource } := by
  constructor
  · intro source' state' hstate'
    simp only [AList.lookup_replace hin] at hstate'
    split_ifs at hstate' with hsource
    · obtain rfl : newSource = state' := by simpa using hstate'
      rw [hsource]
      exact ⟨hpid, hversion, hkey⟩
    · exact h.accepted hstate'
  · intro a p
    rw [AList.mem_replace]
    exact h.addresses
  · exact h.nodup
  · exact h.nonempty

/-! ### Steps and runs -/

theorem lookup_sortBySeniority :
    s.sortBySeniority.peerIDToIPAddresses.lookup p =
      s.peerIDToIPAddresses.lookup p :=
  List.perm_dlookup p s.sortBySeniority.peerIDToIPAddresses.nodupKeys
    (List.perm_insertionSort _ _)

variable [IPAddressAndPort Addr]

/-- Working out the order of the peers does not change what the tables
hold. -/
theorem lookup_calculateOrderedPeersList :
    s.calculateOrderedPeersList.1.hbSettings = s.hbSettings ∧
    s.calculateOrderedPeersList.1.onlineSources = s.onlineSources ∧
    ∀ p, s.calculateOrderedPeersList.1.peerIDToIPAddresses.lookup p =
      s.peerIDToIPAddresses.lookup p := by
  unfold calculateOrderedPeersList
  split
  · exact ⟨rfl, rfl, fun _ => rfl⟩
  · exact ⟨rfl, rfl, fun _ => lookup_sortBySeniority⟩

theorem Coherent.calculateOrderedPeersList (h : Coherent s) :
    Coherent s.calculateOrderedPeersList.1 :=
  h.congr lookup_calculateOrderedPeersList.1
    lookup_calculateOrderedPeersList.2.1 lookup_calculateOrderedPeersList.2.2

theorem Coherent.updateOfficialPeersList {forceUpdate : Bool}
    (h : Coherent s) : Coherent (s.updateOfficialPeersList forceUpdate).1 := by
  unfold PZGHeartbeatThreadState.updateOfficialPeersList
  dsimp only
  split <;>
    exact h.calculateOrderedPeersList.congr rfl rfl fun _ => rfl

omit [IPAddressAndPort Addr] in
theorem Coherent.heartbeatReceived (h : Coherent s)
    (hpid : newSource.hbPacket.sourcePeerID = source.peerID)
    (hversion : newSource.hbPacket.versionCode = s.hbSettings.versionCode)
    (hkey : newSource.hbPacket.systemKey = s.hbSettings.systemKey) :
    Coherent (s.heartbeatReceived source newSource) := by
  unfold PZGHeartbeatThreadState.heartbeatReceived
  cases hstate : s.onlineSources.lookup source with
  | none =>
      exact h.introduceSource (AList.lookup_eq_none.mp hstate) hpid hversion hkey
  | some oldSource =>
      have hin : source ∈ s.onlineSources :=
        AList.lookup_isSome.mp (by rw [hstate]; rfl)
      dsimp only
      split_ifs with hsame hattached
      · have hold : Coherent (s.scheduleUpdateOfficialPeersList true) :=
          h.congr rfl rfl fun _ => rfl
        exact hold.replaceSource hin hpid hversion hkey
      · exact h.replaceSource hin hpid hversion hkey
      · have hsettings : (s.expireSource source).hbSettings =
            s.hbSettings := by
          simp [PZGHeartbeatThreadState.expireSource, hstate,
            scheduleUpdateOfficialPeersList]
        refine h.expireSource.introduceSource ?_ hpid (hsettings ▸ hversion)
          (hsettings ▸ hkey)
        rw [onlineSources_expireSource hstate, AList.mem_erase]
        exact fun hkept => hkept.1 rfl

omit [IPAddressAndPort Addr] in
theorem Coherent.receiveMulticastTraffic
    {newHB : PZGHeartbeatPacketWithMetaData} {localReceiveTimeMicros : ℕ}
    (h : Coherent s) :
    Coherent (s.receiveMulticastTraffic a newHB localReceiveTimeMicros) := by
  unfold PZGHeartbeatThreadState.receiveMulticastTraffic
  dsimp only
  split_ifs with hversion hkey
  · exact h
  · exact h
  all_goals
    have hreceived : ∀ newSource : PZGHeartbeatSourceState,
        newSource.hbPacket = newHB →
        Coherent (s.heartbeatReceived ⟨a, newHB.sourcePeerID⟩ newSource) := by
      rintro newSource rfl
      exact h.heartbeatReceived rfl (not_not.mp hversion) (not_not.mp hkey)
    exact (hreceived _ rfl).congr rfl rfl fun _ => rfl

omit [IPAddressAndPort Addr] in
theorem Coherent.pulseExpire (h : Coherent s) : Coherent s.pulseExpire := by
  unfold PZGHeartbeatThreadState.pulseExpire
  generalize s.onlineSources.entries = sources
  induction sources generalizing s with
  | nil => exact h
  | cons source sources ih =>
      rw [List.foldl_cons]
      split_ifs
      · exact ih h.expireSource
      · exact ih h

theorem Coherent.pulseOfficialPeersList (h : Coherent s) :
    Coherent s.pulseOfficialPeersList.1 := by
  unfold PZGHeartbeatThreadState.pulseOfficialPeersList
  split
  · refine Coherent.updateOfficialPeersList (h.congr ?_ ?_ ?_)
    · rfl
    · rfl
    · exact fun _ => rfl
  · exact h

theorem Coherent.pulse {canSend : Bool} (h : Coherent s) :
    Coherent (s.pulse canSend).1 := by
  have hsend : ∀ {s : PZGHeartbeatThreadState Addr}, Coherent s →
      Coherent (s.pulseSend canSend) := by
    intro s h
    unfold pulseSend
    split
    · dsimp only
      split
      · refine Coherent.calculateOrderedPeersList (h.congr ?_ ?_ ?_)
        · rfl
        · rfl
        · exact fun _ => rfl
      · exact h.congr rfl rfl fun _ => rfl
    · exact h
  have hattach : ∀ {s : PZGHeartbeatThreadState Addr}, Coherent s →
      Coherent s.pulseAttach := by
    intro s h
    unfold pulseAttach
    split
    · exact h.congr rfl rfl fun _ => rfl
    · exact h
  refine hattach (Coherent.pulseExpire (hsend ?_))
  exact h.pulseOfficialPeersList.congr rfl rfl fun _ => rfl

/-- **One event.** -/
theorem Coherent.step (h : Coherent s) (e : Event Addr) :
    Coherent (s.step e) := by
  cases e with
  | awoke elapsedMicros canSend =>
      have hlater : Coherent { s with now := s.now + elapsedMicros } :=
        h.congr rfl rfl fun _ => rfl
      simp only [PZGHeartbeatThreadState.step, handle, wake]
      split
      · exact hlater.pulse
      · exact hlater
  | received sourceIAP newHB localReceiveTimeMicros =>
      exact h.receiveMulticastTraffic

/-- **Runs.** -/
theorem coherent_run {hbSettings : PZGHeartbeatSettings} {startTime : ℕ}
    {es : List (Event Addr)} :
    Coherent (Runs.run PZGHeartbeatThreadState.step
      (initialized hbSettings startTime) es) :=
  Runs.run_invariant coherent_initialized fun _ e h => h.step e

end PZGHeartbeatThreadState

end ZgChoir
