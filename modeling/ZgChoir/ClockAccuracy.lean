import ZgChoir.ClockExchange

/-!
# How far apart the network clocks are

A junior's offset puts the senior's heartbeat half a round trip before the
time at which it came in.  It was under way for at least `lo` and at most `hi`
microseconds, and half a round trip is between the two as well, or 0 as long
as there is none: so the junior's clock is at most `hi` behind the senior's,
and at most `hi - lo` ahead of it, from then on.
-/

namespace ZgChoir.ClockSystem

variable {Addr : Type} [DecidableEq Addr]

/-- From `time` on, what `p` takes for the network time is at most `hi` before
what the clock of `q` says, and at most `hi - lo` after it. -/
def InTime (env : ClockEnvironment Addr) (lo hi : ℕ) (q p : ZGPeerID)
    (time : ℕ) (toNetworkTimeOffset : Int64) : Prop :=
  ∀ t, time ≤ t → t < 2 ^ 61 →
    env.clock q t ≤ (getNetworkTime64ForRunTime64 toNetworkTimeOffset
      (.ofNat (env.clock p t))).toNat + hi ∧
    (getNetworkTime64ForRunTime64 toNetworkTimeOffset
      (.ofNat (env.clock p t))).toNat ≤ env.clock q t + (hi - lo)

variable {env : ClockEnvironment Addr} {lo hi : ℕ} {s s' : ClockSystem Addr}
  {q p : ZGPeerID} {st : SyncedThread Addr}

/-! ### One offset -/

omit [DecidableEq Addr] in
theorem InTime.later {time time' : ℕ} {offset : Int64}
    (h : InTime env lo hi q p time offset) (hle : time ≤ time') :
    InTime env lo hi q p time' offset :=
  fun t ht hlt => h t (hle.trans ht) hlt

omit [DecidableEq Addr] in
/-- The senior is in time with itself. -/
theorem inTime_zero (env : ClockEnvironment Addr) (lo hi : ℕ) (q : ZGPeerID)
    (time : ℕ) : InTime env lo hi q q time 0 := by
  intro t _ ht
  have hclock := toNat_clock env q t ht
  have hzero : Int64.toUInt64 0 = 0 := rfl
  rw [getNetworkTime64_of_known (by decide) (clock_lt env q ht), hzero,
    UInt64.add_zero, hclock]
  omega

omit [DecidableEq Addr] in
/-- **A heartbeat that was written at `w` and came in at `r`** puts the offset
right, with any half round trip `h` that is 0 or as long as heartbeats
take. -/
theorem inTime_of_heartbeat {w r : ℕ} {half : UInt64} (hhi : hi < 2 ^ 28)
    (hlow : w + lo ≤ r) (hhigh : r ≤ w + hi) (hr : r < 2 ^ 61)
    (hhalf : half.toNat = 0 ∨ (lo ≤ half.toNat ∧ half.toNat ≤ hi)) :
    InTime env lo hi q p r (UInt64.ofNat (env.clock q w) -
      (UInt64.ofNat (env.clock p r) - half)).toInt64 := by
  intro t hle ht
  have hw := toNat_clock env q w (by omega)
  have hwritten := clock_lt env q (show w < 2 ^ 61 by omega)
  have hnetwork : (getNetworkTime64ForRunTime64
      (UInt64.ofNat (env.clock q w) -
        (UInt64.ofNat (env.clock p r) - half)).toInt64
      (.ofNat (env.clock p t))).toNat =
      t + (UInt64.ofNat (env.clock q w)).toNat + half.toNat - r :=
    toNat_networkTime_of_sample (by omega) (env.clockAhead_lt p) hle ht
  rw [hnetwork, hw]
  unfold ClockEnvironment.clock
  omega

/-! ### Under one senior -/

section

variable [IPAddressAndPort Addr]

/-- Whoever computes its offset takes `q` for the senior, and, unless it is
`q`, has a heartbeat of it that tells the network time, if any. -/
def UnderSenior (env : ClockEnvironment Addr) (q : ZGPeerID)
    (s : ClockSystem Addr) : Event Addr → Prop
  | .awakes p _ => ∀ st ∈ s.peers p,
      let st := st.withNow (env.clock p s.time)
      let official := st.timed.thread.pulseOfficialPeersList.1
      st.updatesOffset = true → official.halfAttachedTime ≤ official.now →
        official.getSeniorPeerID = q ∧
          (p = q ∨ ∀ hb ∈ st.seniorHeartbeat official,
            hb.2.2 ≠ muscleTimeNever)
  | _ => True

instance (env : ClockEnvironment Addr) (q : ZGPeerID) (s : ClockSystem Addr) :
    ∀ e : Event Addr, Decidable (UnderSenior env q s e)
  | .timePasses _ => inferInstanceAs (Decidable True)
  | .starts _ => inferInstanceAs (Decidable True)
  | .awakes p _ => inferInstanceAs (Decidable (∀ st ∈ s.peers p, _ → _ →
      _ ∧ (_ ∨ ∀ hb ∈ SyncedThread.seniorHeartbeat _ _, _)))
  | .receives _ _ _ => inferInstanceAs (Decidable True)

/-- The offset of `p`: it is not known, or it is in time with `q`. -/
def KnownInTime (env : ClockEnvironment Addr) (lo hi : ℕ) (q p : ZGPeerID)
    (time : ℕ) (offset : Int64) : Prop :=
  offset = invalidTimeOffset ∨
    (p = q → offset = 0) ∧ InTime env lo hi q p time offset

/-- Every offset is in time with `q`, and what `q` has sent was sent with an
offset of 0, if any. -/
structure Synced (env : ClockEnvironment Addr) (lo hi : ℕ) (q : ZGPeerID)
    (s : ClockSystem Addr) : Prop where
  offsets : ∀ p st, s.peers p = some st →
    KnownInTime env lo hi q p s.time st.toNetworkTimeOffset
  sent : ∀ hb ∈ s.sent, hb.sender = q →
    hb.offset = invalidTimeOffset ∨ hb.offset = 0

omit [IPAddressAndPort Addr] in
/-- The offset from the last heartbeat of `q`. -/
theorem knownInTime_of_seniorHeartbeat (hhi : hi < 2 ^ 28)
    (hkeeps : Keeps env lo hi s) (h : Informed env lo hi s p st)
    (hsynced : Synced env lo hi q s) (hp : p ≠ q)
    {source : PZGHeartbeatSourceKey Addr} {t : SourceTiming Addr}
    {seniorNetTime : UInt64} (hpeer : source.peerID = q)
    (ht : st.timed.timings.get? source = some t)
    (hnet : st.networkSendTimes.get? source = some seniorNetTime)
    (hknown : seniorNetTime ≠ muscleTimeNever) (after : UInt64) :
    KnownInTime env lo hi q p s.time (seniorNetTime -
      (.ofNat t.localReceiveTimeMicros -
        (SyncedThread.getPreferredAverageValue env after t).1 /
          2)).toInt64 := by
  obtain ⟨hb, hheard⟩ := h.heard source t ht
  have hhonest := hkeeps.honest hb hheard.sent
  have hsender : hb.sender = q := hheard.sender.trans hpeer
  have htold : hb.packet.networkSendTimeMicros = seniorNetTime :=
    Option.some.inj (hheard.networkTime.symm.trans hnet)
  obtain ⟨r, hr, hreceived, hlow, hhigh⟩ := hheard.received
  have htime := hkeeps.time
  have hwoke := hhonest.wokeAt.2
  have hzero : hb.offset = 0 := by
    refine (hsynced.sent hb hheard.sent hsender).resolve_left fun hinvalid => ?_
    rw [hhonest.networkTime, hinvalid, getNetworkTime64ForRunTime64,
      if_pos (.inl rfl)] at htold
    exact hknown htold.symm
  have hsent : seniorNetTime = .ofNat (env.clock q hb.writtenAt) := by
    have hnone : Int64.toUInt64 0 = 0 := rfl
    rw [← htold, hhonest.networkTime, hzero, hsender,
      getNetworkTime64_of_known (by decide)
        (clock_lt env q hhonest.writtenAt),
      hnone, UInt64.add_zero]
  have hhalf : ((SyncedThread.getPreferredAverageValue env after t).1 /
      2).toNat = 0 ∨
      lo ≤ ((SyncedThread.getPreferredAverageValue env after t).1 /
        2).toNat ∧
      ((SyncedThread.getPreferredAverageValue env after t).1 / 2).toNat ≤
        hi := by
    have htwo : UInt64.toNat 2 = 2 := rfl
    rw [UInt64.toNat_div, htwo]
    rcases (spec_getPreferredAverageValue env after t).2 with
      hnone | ⟨e, he, havg⟩
    · rw [hnone]
      exact .inl rfl
    · obtain ⟨hleast, hmost⟩ :=
        (h.averagers source t ht e he).average (by omega)
      rw [havg]
      omega
  refine .inr ⟨fun heq => absurd heq hp, ?_⟩
  rw [hsent, hreceived]
  exact (inTime_of_heartbeat hhi hlow (by omega) (by omega) hhalf).later hr

/-- **One computation of the offset.** -/
theorem knownInTime_pulseOffset (hhi : hi < 2 ^ 28)
    (hkeeps : Keeps env lo hi s) (hsynced : Synced env lo hi q s)
    (hst : s.peers p = some st) {dests : List (Addr × ℕ)}
    (hsenior : UnderSenior env q s (.awakes p dests)) :
    KnownInTime env lo hi q p s.time ((st.withNow
      (env.clock p s.time)).pulseOffset env).toNetworkTimeOffset := by
  have hold := hsynced.offsets p st hst
  have h := hkeeps.informed p st hst
  have hsettings : (st.withNow (env.clock p
      s.time)).timed.thread.pulseOfficialPeersList.1.hbSettings.localPeerID =
      p := by
    rw [(PZGHeartbeatThreadState.sameClock_pulseOfficialPeersList
      _).1.hbSettings]
    exact (congrArg PZGHeartbeatSettings.localPeerID h.hbSettings).trans
      (env.localPeerID_hbSettings p)
  unfold SyncedThread.pulseOffset
  by_cases hupdates : (st.withNow (env.clock p s.time)).updatesOffset = true
  · rw [if_pos hupdates]
    have hcondition := hsenior st hst hupdates
    unfold SyncedThread.updateToNetworkTimeOffset
    split
    · next hhalf =>
      obtain ⟨hq, hknown⟩ := hcondition hhalf
      rw [hq, hsettings]
      by_cases hp : q = p
      · rw [if_pos hp, ← hp]
        exact .inr ⟨fun _ => rfl, inTime_zero env lo hi q s.time⟩
      · rw [if_neg hp]
        cases hhb : (st.withNow (env.clock p s.time)).seniorHeartbeat
            (st.withNow (env.clock p
              s.time)).timed.thread.pulseOfficialPeersList.1 with
        | none => exact hold
        | some hb =>
            obtain ⟨source, t, seniorNetTime⟩ := hb
            obtain ⟨hpeer, ht, hnet⟩ := seniorHeartbeat_parts hhb
            have hne := hknown.resolve_left (Ne.symm hp) _ hhb
            exact knownInTime_of_seniorHeartbeat hhi hkeeps h hsynced
              (Ne.symm hp) (hpeer.trans hq) ht hnet hne _
    · exact hold
  · rw [if_neg hupdates]
    exact hold

/-- A turn leaves the offset that was computed in it, if any. -/
theorem knownInTime_awoken (hhi : hi < 2 ^ 28) (hkeeps : Keeps env lo hi s)
    (hsynced : Synced env lo hi q s) (hst : s.peers p = some st)
    {dests : List (Addr × ℕ)}
    (hsenior : UnderSenior env q s (.awakes p dests)) :
    KnownInTime env lo hi q p s.time (s.awoken env p (dests.map Prod.fst)
      st).1.toNetworkTimeOffset := by
  have hnow := Nat.add_sub_cancel' (hkeeps.informed p st hst).now
  unfold awoken SyncedThread.wake
  rw [hnow]
  dsimp only
  split
  · exact knownInTime_pulseOffset hhi hkeeps hsynced hst hsenior
  · exact hsynced.offsets p st hst

/-- **One event.** -/
theorem Synced.step (hhi : hi < 2 ^ 28) (hkeeps : Keeps env lo hi s)
    (h : Synced env lo hi q s) {e : Event Addr}
    (hsenior : UnderSenior env q s e) : Synced env lo hi q (s.step env e) := by
  have hsteps := steps_step env s e
  generalize s.step env e = s' at *
  cases hsteps with
  | ignored => exact h
  | timePasses micros =>
      exact ⟨fun p st hst => (h.offsets p st hst).imp_right fun hknown =>
        ⟨hknown.1, hknown.2.later (Nat.le_add_right _ _)⟩, h.sent⟩
  | starts p =>
      exact ⟨forall_update (.inl rfl) fun p' st _ hst => h.offsets p' st hst,
        h.sent⟩
  | awakes p dests st hp =>
      have hturn := knownInTime_awoken hhi hkeeps h hp hsenior
      refine ⟨forall_update hturn fun p' st' _ hst' => h.offsets p' st' hst',
        fun hb hmem hsender => ?_⟩
      rcases List.mem_append.mp hmem with hold | hnew
      · exact h.sent hb hold hsender
      · obtain ⟨packet, -, hwritten⟩ := List.mem_flatMap.mp hnew
        obtain ⟨hnow, -⟩ := of_mem_written hwritten
        rw [hnow.offset]
        exact hturn.imp_right fun hknown =>
          hknown.1 (hnow.sender.symm.trans hsender)
  | receives p sourceIAP k st hb hp hk =>
      exact ⟨forall_update (h.offsets p st hp) fun p' st' _ hst' =>
        h.offsets p' st' hst', h.sent⟩

/-! ### Runs -/

/-- Every peer that knows the network time is in time with `q`. -/
def AllInTime (env : ClockEnvironment Addr) (lo hi : ℕ) (q : ZGPeerID)
    (s : ClockSystem Addr) : Prop :=
  ∀ p st, s.peers p = some st →
    st.toNetworkTimeOffset = invalidTimeOffset ∨
      InTime env lo hi q p s.time st.toNetworkTimeOffset

/-- **The network clocks agree.**  In every run under one senior, whichever
heartbeats are lost, come in late or come in twice, every peer that knows the
network time is in time with the senior's clock. -/
theorem networkClocks_inTime (env : ClockEnvironment Addr) (lo hi : ℕ)
    (hhi : hi < 2 ^ 28) (q : ZGPeerID) (es : List (Event Addr))
    (htimely : Runs.StepsMeet (step env) (Timely lo hi) initial es)
    (hsenior : Runs.StepsMeet (step env) (UnderSenior env q) initial es) :
    AllInTime env lo hi q (Runs.run (step env) initial es) := by
  have hstart : Keeps env lo hi initial ∧ Synced env lo hi q initial :=
    ⟨keeps_initial, fun _ _ h => (nomatch h), fun _ h => (nomatch h)⟩
  have hboth : Runs.StepsMeet (step env)
      (fun s e => Timely lo hi s e ∧ UnderSenior env q s e) initial es :=
    htimely.and hsenior
  obtain ⟨-, hend⟩ := Runs.run_invariant_of_stepsMeet
    (I := fun s => Keeps env lo hi s ∧ Synced env lo hi q s) hstart hboth
    fun s e h he => ⟨h.1.step hhi he.1, h.2.step hhi h.1 he.2⟩
  exact fun p st hst => (hend.offsets p st hst).imp_right And.right

end

/-! ### Two clocks -/

/-- Interfaces, for the run below. -/
structure InterfaceAddress where
  interfaceIndex : ℕ
  deriving DecidableEq

instance instIPAddressAndPortInterfaceAddress :
    IPAddressAndPort InterfaceAddress := ⟨fun _ => true⟩

/-- The keys before `a`, which are moved to the back. -/
def moveToBack (a : Addr) (t : Hashtable Addr ZGTimeAverager) :
    Hashtable Addr ZGTimeAverager where
  entries := t.entries.dropWhile (fun e => decide (e.1 ≠ a)) ++
    t.entries.takeWhile fun e => decide (e.1 ≠ a)
  distinct := by
    have hperm : (t.entries.dropWhile (fun e => decide (e.1 ≠ a)) ++
        t.entries.takeWhile fun e => decide (e.1 ≠ a)).Perm t.entries :=
      List.perm_append_comm.trans
        (List.takeWhile_append_dropWhile ▸ List.Perm.refl _)
    exact (hperm.map Prod.fst).nodup_iff.mpr t.distinct

/-- The clock of peer 2 is 900 microseconds ahead, that of peer 1 only 20;
both are full peers, which attach at once. -/
def twoClocks : ClockEnvironment InterfaceAddress where
  clockAhead p := if p = ⟨0, 2⟩ then 900 else 20
  clockAhead_lt p := by split <;> decide
  hbSettings p :=
    { localPeerID := p
      systemKey := 1
      versionCode := 1
      peerType := peerTypeFullPeer
      heartbeatsPerSecond := 100
      maxNumMissingHeartbeats := 8
      heartbeatsBeforeFullyAttached := 0 }
  localPeerID_hbSettings _ := rfl
  dataTCPPort _ := 2000
  peerAttributesByteBuffer _ := none
  firstPacketID _ := 0
  movedToBack := moveToBack
  perm_movedToBack _ _ := List.perm_append_comm.trans
    (List.takeWhile_append_dropWhile ▸ List.Perm.refl _)

/-- Peer 2 hears its own first heartbeat and becomes the senior.  Peer 1 hears
the second one, and peer 2 that of peer 1; the third one answers it. -/
def followsTwo : List (Event InterfaceAddress) :=
  [.timePasses 1000000,
    .starts ⟨0, 2⟩, .starts ⟨0, 1⟩, .awakes ⟨0, 2⟩ [(⟨9⟩, 1)],
    .timePasses 30, .receives ⟨0, 2⟩ ⟨7⟩ 0, .awakes ⟨0, 2⟩ [(⟨9⟩, 1)],
    .timePasses 10000, .awakes ⟨0, 2⟩ [(⟨9⟩, 2)], .awakes ⟨0, 1⟩ [(⟨9⟩, 1)],
    .timePasses 42, .receives ⟨0, 1⟩ ⟨8⟩ 1, .awakes ⟨0, 1⟩ [],
    .timePasses 10, .receives ⟨0, 2⟩ ⟨6⟩ 2, .awakes ⟨0, 2⟩ [],
    .timePasses 10000, .awakes ⟨0, 2⟩ [(⟨9⟩, 3)],
    .timePasses 36, .receives ⟨0, 1⟩ ⟨8⟩ 3, .awakes ⟨0, 1⟩ []]

/-- What peer 1 has to add to its clock after some of these events. -/
def offsetAfter (n : ℕ) : Option Int64 :=
  ((Runs.run (step twoClocks) initial (followsTwo.take n)).peers
    ⟨0, 1⟩).map (·.toNetworkTimeOffset)

example : offsetAfter 13 = some 840 ∧ offsetAfter 21 = some 891 := by
  decide +kernel

/-- The clocks of the two peers, 880 microseconds apart. -/
theorem networkClocks_inTime_followsTwo :
    AllInTime twoClocks 25 60 ⟨0, 2⟩
      (Runs.run (step twoClocks) initial followsTwo) :=
  networkClocks_inTime twoClocks 25 60 (by decide) ⟨0, 2⟩ followsTwo
    (by decide +kernel) (by decide +kernel)

end ZgChoir.ClockSystem
