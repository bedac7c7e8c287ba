import ZgChoir.ClockAccuracy

/-!
# How long a heartbeat takes there and back

What the main thread is told of a peer is an average of the round trips to it,
none yet, or that the peer is not there.  In contrast to a heartbeat that
lies, which may make the round trip as long as it likes, the heartbeats of the
peers themselves keep it between twice the shortest and twice the longest time
that one is under way.
-/

namespace ZgChoir

variable {Addr : Type} [DecidableEq Addr]

/-- `GetEstimatedLatencyToPeer`. -/
def SyncedThread.getEstimatedLatencyToPeer (st : SyncedThread Addr)
    (peerID : ZGPeerID) : UInt64 :=
  (st.timed.mainThreadLatencies.lookup peerID).getD muscleTimeNever

/-- Nothing is known, or it is between the bounds. -/
def Estimated (lo hi : ℕ) (latency : UInt64) : Prop :=
  latency = muscleTimeNever ∨ latency = 0 ∨
    (2 * lo ≤ latency.toNat ∧ latency.toNat ≤ 2 * hi)

namespace TimedHeartbeatThread

variable {st st' : TimedHeartbeatThread Addr} {lo hi : ℕ}
  {source : PZGHeartbeatSourceKey Addr}

/-- Every latency in the table is between the bounds, if it is known. -/
def AllEstimated (lo hi : ℕ)
    (latencies : AList fun _ : ZGPeerID => UInt64) : Prop :=
  ∀ p v, latencies.lookup p = some v → Estimated lo hi v

omit [DecidableEq Addr] in
theorem AllEstimated.erase {latencies : AList fun _ : ZGPeerID => UInt64}
    (h : AllEstimated lo hi latencies) (p : ZGPeerID) :
    AllEstimated lo hi (latencies.erase p) := by
  intro q v hv
  by_cases hq : q = p
  · subst hq
    rw [AList.lookup_erase] at hv
    cases hv
  · rw [AList.lookup_erase_ne hq] at hv
    exact h q v hv

theorem AllEstimated.latenciesWithout
    (h : AllEstimated lo hi st.mainThreadLatencies) :
    AllEstimated lo hi (st.latenciesWithout source) := by
  unfold TimedHeartbeatThread.latenciesWithout
  cases st.thread.onlineSources.lookup source with
  | none => exact h
  | some sourceInfo =>
      dsimp only
      cases st.thread.peerIDToIPAddresses.lookup
          sourceInfo.hbPacket.sourcePeerID with
      | none => exact h
      | some q =>
          dsimp only
          split
          · exact h.erase _
          · exact h

theorem AllEstimated.pulseExpire
    (h : AllEstimated lo hi st.mainThreadLatencies) :
    AllEstimated lo hi st.pulseExpire.mainThreadLatencies := by
  unfold TimedHeartbeatThread.pulseExpire
  refine List.foldlRecOn (motive := fun st' : TimedHeartbeatThread Addr =>
    AllEstimated lo hi st'.mainThreadLatencies) _ _ h ?_
  intro st' hst' source _
  split
  · exact hst'.latenciesWithout
  · exact hst'

theorem AllEstimated.receives {a : Addr} {tag : UInt16}
    {newHB : HeartbeatWire.PZGHeartbeatPacket} {t : ℕ}
    (h : AllEstimated lo hi st.mainThreadLatencies) :
    AllEstimated lo hi
      (st.receiveMulticastTraffic a tag newHB t).mainThreadLatencies := by
  unfold receiveMulticastTraffic
  dsimp only
  split
  · unfold latenciesAfter
    dsimp only
    split
    · split
      · exact h
      · exact h.latenciesWithout
    · exact h
  · exact h

/-- The latency that is computed of a peer. -/
theorem estimated_latencyOf (hhi : hi < 2 ^ 28)
    (h : ∀ source t, st.timings.get? source = some t →
      ∀ e ∈ t.rttAveragers.entries,
        ZGTimeAverager.Within (2 * lo) (2 * hi) e.2)
    (p : ZGPeerID) (q : List Addr) :
    Estimated lo hi (st.latencyOf
      ZGTimeAverager.getAverageValueIgnoringOutliersAux p q) := by
  unfold latencyOf
  cases q with
  | nil => exact .inl rfl
  | cons head _ =>
      dsimp only
      cases ht : st.timings.get? ⟨head, p⟩ with
      | none => exact .inl rfl
      | some t =>
          dsimp only
          unfold getPreferredAverageValue
          cases hentries : t.rttAveragers.entries with
          | nil => exact .inr (.inl rfl)
          | cons e rest =>
              have he : e ∈ t.rttAveragers.entries := by
                rw [hentries]
                exact List.mem_cons_self
              exact .inr (.inr ((h _ t ht e he).average (by omega)))

variable [IPAddressAndPort Addr]

/-- **A turn** computes them anew, or leaves them alone. -/
theorem AllEstimated.pulse (hhi : hi < 2 ^ 28) {dests : List Addr}
    (htimings : ∀ source t, st.timings.get? source = some t →
      ∀ e ∈ t.rttAveragers.entries,
        ZGTimeAverager.Within (2 * lo) (2 * hi) e.2)
    (h : AllEstimated lo hi st.mainThreadLatencies) :
    AllEstimated lo hi (st.pulse
      ZGTimeAverager.getAverageValueIgnoringOutliersAux
        dests).mainThreadLatencies := by
  unfold TimedHeartbeatThread.pulse
  refine AllEstimated.pulseExpire ?_
  unfold TimedHeartbeatThread.pulseSend
  dsimp only
  split
  · unfold updateLatencies
    dsimp only
    refine List.foldlRecOn (motive := AllEstimated lo hi) _ _ ?_ ?_
    · rw [(sameTables_sendHeartbeatPackets _ dests).latencies]
      exact h
    · intro latencies hlatencies e _ p v hv
      rw [AList.lookup_put] at hv
      by_cases hp : p = e.1
      · rw [if_pos hp] at hv
        obtain rfl := Option.some.inj hv
        refine estimated_latencyOf hhi ?_ _ _
        intro source t' ht' x hx
        obtain ⟨t, ht, hleft⟩ := (NoNewTimings.trans (noNewTimings_of_eq rfl)
          noNewTimings_sendHeartbeatPackets) source t' ht'
        exact htimings source t ht x (hleft.averagers x hx)
      · rw [if_neg hp] at hv
        exact hlatencies p v hv
  · exact h

end TimedHeartbeatThread

namespace ClockSystem

variable {env : ClockEnvironment Addr} {lo hi : ℕ} {s : ClockSystem Addr}
  {p : ZGPeerID} {st : SyncedThread Addr} [IPAddressAndPort Addr]

/-- The table of every peer. -/
def AllPeersEstimated (lo hi : ℕ) (s : ClockSystem Addr) : Prop :=
  ∀ p st, s.peers p = some st →
    TimedHeartbeatThread.AllEstimated lo hi st.timed.mainThreadLatencies

/-- A turn of one peer. -/
theorem allEstimated_awoken (hhi : hi < 2 ^ 28)
    (hinformed : Informed env lo hi s p st)
    (h : TimedHeartbeatThread.AllEstimated lo hi
      st.timed.mainThreadLatencies) (dests : List Addr) :
    TimedHeartbeatThread.AllEstimated lo hi
      (s.awoken env p dests st).1.timed.mainThreadLatencies := by
  unfold awoken SyncedThread.wake
  dsimp only
  split
  · have honly := offsetOnly_pulseOffset env
      (st.withNow (st.timed.thread.now +
        (env.clock p s.time - st.timed.thread.now)))
    refine TimedHeartbeatThread.AllEstimated.pulse hhi ?_ ?_
    · intro source t' ht' e he
      obtain ⟨t, ht, hleft⟩ := honly.noNew source t' ht'
      exact hinformed.averagers source t ht e (hleft.averagers e he)
    · rw [honly.latencies]
      exact h
  · exact h

/-- **One event.** -/
theorem AllPeersEstimated.step (hhi : hi < 2 ^ 28)
    (hkeeps : Keeps env lo hi s) (h : AllPeersEstimated lo hi s)
    (e : Event Addr) : AllPeersEstimated lo hi (s.step env e) := by
  have hsteps := steps_step env s e
  generalize s.step env e = s' at *
  cases hsteps with
  | ignored => exact h
  | timePasses micros => exact h
  | starts p =>
      exact forall_update (fun _ _ hv => (nomatch hv)) fun q st _ hst =>
        h q st hst
  | awakes p dests st hp =>
      exact forall_update (allEstimated_awoken hhi (hkeeps.informed p st hp)
        (h p st hp) _) fun q st' _ hst' => h q st' hst'
  | receives p sourceIAP k st hb hp hk =>
      exact forall_update (h p st hp).receives fun q st' _ hst' =>
        h q st' hst'

/-- What a peer can be told of its latency to another. -/
def AllAnswersEstimated (lo hi : ℕ) (s : ClockSystem Addr) : Prop :=
  ∀ p st, s.peers p = some st → ∀ peerID,
    Estimated lo hi (st.getEstimatedLatencyToPeer peerID)

/-- **Latencies.**  In every run, what a peer says of the latency to another
is between twice the shortest and twice the longest time that a heartbeat is
under way, if it says anything. -/
theorem latencies_estimated (env : ClockEnvironment Addr) (lo hi : ℕ)
    (hhi : hi < 2 ^ 28) (es : List (Event Addr))
    (htimely : Runs.StepsMeet (step env) (Timely lo hi) initial es) :
    AllAnswersEstimated lo hi (Runs.run (step env) initial es) := by
  have hstart : Keeps env lo hi initial ∧
      AllPeersEstimated lo hi (initial : ClockSystem Addr) :=
    ⟨keeps_initial, fun _ _ h => (nomatch h)⟩
  obtain ⟨-, hend⟩ := Runs.run_invariant_of_stepsMeet
    (I := fun s => Keeps env lo hi s ∧ AllPeersEstimated lo hi s)
    hstart htimely fun s e h he => ⟨h.1.step hhi he, h.2.step hhi h.1 e⟩
  intro p st hp peerID
  unfold SyncedThread.getEstimatedLatencyToPeer
  cases hlookup : st.timed.mainThreadLatencies.lookup peerID with
  | none => exact .inl rfl
  | some v => exact hend p st hp peerID v hlookup

example : ((Runs.run (step twoClocks) initial followsTwo).peers ⟨0, 1⟩).map
    (·.getEstimatedLatencyToPeer ⟨0, 2⟩) = some 88 := by
  decide +kernel

/-- The answers after the run of the two clocks. -/
theorem latencies_estimated_followsTwo :
    AllAnswersEstimated 25 60
      (Runs.run (step twoClocks) initial followsTwo) :=
  latencies_estimated twoClocks 25 60 (by decide) followsTwo
    (by decide +kernel)

end ClockSystem

end ZgChoir
