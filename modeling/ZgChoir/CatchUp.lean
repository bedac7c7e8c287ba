import ZgChoir.Replicas

/-!
# A junior that has handled a beacon will catch up

Once a junior has handled an entry of its senior's beacon, it knows the
senior's state, and when it is behind that state something will wake it up.
This outlives every event, a change of the senior included, as long as

* the fallback is not lost (`KeepsFallback`),
* a beacon entry that names the state and the oldest ID that the peer has on
  record already finds it on its way there.

The second condition is about a gap in `SeniorDatabaseStateInfoChanged`: an
entry that is equal to the recorded one is taken for old news, even when it
was another senior that the record was about.
-/

namespace ZgChoir

variable {DB Msg : Type} {cb : Callbacks DB Msg}

open PZGDatabaseState

namespace PZGDatabaseState

variable {m : Master} {d : PZGDatabaseState DB Msg}

/-- A database that is behind the senior's state has heard of that state, and
waits for an order or for a rescan, which an unattached peer will schedule
when it gets attached. -/
def WakesUp (m : Master) (d : PZGDatabaseState DB Msg) : Prop :=
  d.localDatabaseStateID < d.seniorDatabaseStateID →
    d.seniorDatabaseStateReceived = true ∧
      (HasOrder m d ∨ (m.iAmFullyAttached = true → d.rescanLogPending = true))

instance : Decidable (WakesUp m d) := inferInstanceAs (Decidable (_ → _ ∧ _))

theorem WakesUp.notStuck (h : WakesUp m d) : NotStuck m d := by
  intro hattached _ hbehind
  rcases (h hbehind).2 with horder | hpending
  · exact .inr horder
  · exact .inl (hpending hattached)

/-- A rescan of a peer that has not heard of the senior's state orders
nothing. -/
theorem rescanIfNecessary_backorders_of_not_received {link : Link}
    (h : d.seniorDatabaseStateReceived = false) :
    (rescanUpdateLogIfNecessary cb m link d).backorders = d.backorders := by
  unfold rescanUpdateLogIfNecessary
  split
  · cases hrole : m.iAmTheSeniorPeer with
    | true =>
        exact ((rescanUpdateLog_moves cb m link
          { d with rescanLogPending := false }).database_of_senior hrole).2
    | false =>
        unfold rescanUpdateLog rescanUpdateLogAsJunior
        rw [if_neg (by simp [hrole]), if_neg (by simp [h])]
  · rfl

end PZGDatabaseState

namespace ZGPeerSession

variable {p : ZGPeerSession DB Msg} {e : PeerEvent Msg}

/-- The invariant: orders are placed only by a peer that has heard of the
senior's state, and a peer that has handled a beacon entry will catch up
with it. -/
structure WillCatchUp (p : ZGPeerSession DB Msg) : Prop where
  received : ∀ k ∈ p.database.backorders,
    p.database.seniorDatabaseStateReceived = true
  following : ∀ info ∈ p.processedBeacon, p.iAmTheSeniorPeer = false ∧
    p.database.seniorDatabaseStateID = info.currentDatabaseStateID
  wakesUp : p.processedBeacon.isSome → p.seniorPeerID.isValid = true →
    WakesUp p.master p.database

/-- **The peer keeps up**, as it meets each event: a beacon entry that is
equal to the recorded one finds it on its way, a checksum that is recomputed
is the running one, and once it has handled a beacon entry the fallback is
not lost. -/
def KeepsUp (cb : Callbacks DB Msg) (p : ZGPeerSession DB Msg) :
    PeerEvent Msg → Prop
  | .beaconReceived fromPeerID info =>
      fromPeerID = p.seniorPeerID → fromPeerID ≠ p.localPeerID →
        info.currentDatabaseStateID = p.database.seniorDatabaseStateID →
        info.oldestDatabaseIDInLog = p.database.seniorOldestIDInLog →
        WakesUp p.master p.database
  | .backOrderRequested ubok due =>
      ubok.databaseUpdateID = databaseUpdateIDFullUpdate → due = true →
        cb.calculateLocalDatabaseChecksum p.database.database =
          p.database.dbChecksum
  | e => p.processedBeacon.isSome → KeepsFallback cb p e

instance : ∀ {e : PeerEvent Msg}, Decidable (KeepsUp cb p e)
  | .beaconReceived _ _ => inferInstanceAs (Decidable (_ → _ → _ → _ → _))
  | .backOrderRequested _ _ => inferInstanceAs (Decidable (_ → _ → _))
  | .backOrderResult _ _ _ => inferInstanceAs
      (Decidable (_ → KeepsFallback _ _ _))
  | .rescan _ => inferInstanceAs (Decidable (_ → KeepsFallback _ _ _))
  | .pulse _ => inferInstanceAs (Decidable (_ → KeepsFallback _ _ _))
  | .seniorPeerChanged _ => .isTrue fun _ => trivial
  | .peerHasComeOnline => .isTrue fun _ => trivial
  | .databaseUpdateRequest _ _ _ => .isTrue fun _ => trivial

theorem KeepsUp.keepsFallback (h : KeepsUp cb p e)
    (hprocessed : p.processedBeacon.isSome) : KeepsFallback cb p e := by
  cases e with
  | beaconReceived _ _ => trivial
  | backOrderRequested _ _ => trivial
  | _ => exact h hprocessed

/-- Only a beacon and a change of the senior touch what the peer remembers of
the senior's beacon. -/
theorem step_processedBeacon (cb : Callbacks DB Msg)
    (p : ZGPeerSession DB Msg)
    (hsenior : ∀ newSeniorPeerID, e ≠ .seniorPeerChanged newSeniorPeerID)
    (hbeacon : ∀ fromPeerID info, e ≠ .beaconReceived fromPeerID info) :
    (step cb p e).processedBeacon = p.processedBeacon := by
  cases e with
  | peerHasComeOnline =>
      simp only [step, peerHasComeOnline]
      split <;> rfl
  | seniorPeerChanged q => exact absurd rfl (hsenior q)
  | databaseUpdateRequest fromPeerID msg time =>
      simp only [step]
      rcases handleDatabaseUpdateRequest_cases cb p.forgetCalls fromPeerID msg
        time with ⟨_, h, _⟩ | ⟨_, _, _, _, h⟩ | ⟨_, _, _, _, h⟩
      all_goals
        rw [h]
        rfl
  | beaconReceived fromPeerID info => exact absurd rfl (hbeacon _ _)
  | backOrderResult ubok opt link => rfl
  | rescan link => rfl
  | pulse link =>
      simp only [step, pulse]
      split <;> rfl
  | backOrderRequested ubok due =>
      simp only [step, backOrderRequested]
      split <;> rfl

/-- Orders are placed only by a peer that has heard of the senior's state. -/
theorem step_received (cb : Callbacks DB Msg)
    (h : ∀ k ∈ p.database.backorders,
      p.database.seniorDatabaseStateReceived = true) :
    ∀ k ∈ (step cb p e).database.backorders,
      (step cb p e).database.seniorDatabaseStateReceived = true := by
  intro k hk
  obtain ⟨hkept, -⟩ := step_seniorState cb p e
  -- a peer that has heard nothing has nothing on order
  by_contra hno
  have hnever : p.database.seniorDatabaseStateReceived = false := by
    simpa using fun hreceived => hno (hkept hreceived)
  have hnone : ∀ k, k ∉ p.database.backorders := fun k hk => by
    have hreceived := h k hk
    simp [hnever] at hreceived
  have hstep := step_database cb p e
  generalize (step cb p e).database = d' at hstep hk
  cases hstep with
  | informed e _ _ _ _ _ _ => exact hnone k hk
  | requested _ _ _ _ r hrequest =>
      cases hrequest with
      | refused _ _ => exact hnone k hk
      | completed _ _ _ _ _ _ _ _ _ _ => exact hnone k hk
      | rolledBack _ _ _ _ _ _ _ _ _ => exact hnone k hk
  | heard dbUp _ _ =>
      obtain ⟨_, _, _, hadd, -⟩ := addDatabaseUpdateToUpdateLog_eq cb p.master
        p.forgetCalls.database dbUp
      rw [hadd] at hk
      exact hnone k hk
  | replied ubok opt link =>
      have hignored : p.forgetCalls.database.backOrderResultReceived cb
          p.master link ubok opt = p.forgetCalls.database := if_neg (hnone ubok)
      rw [hignored] at hk
      exact hnone k hk
  | rescanned e link =>
      rw [rescanIfNecessary_backorders_of_not_received (by exact hnever)] at hk
      exact hnone k hk
  | verified _ _ => exact hnone k hk

/-- An event other than a beacon or a change of the senior leaves a junior on
its way. -/
theorem step_wakesUp (h : WillCatchUp p) (hkeeps : KeepsUp cb p e)
    (hsenior : KeepsSenior e)
    (hbeacon : ∀ fromPeerID info, e ≠ .beaconReceived fromPeerID info)
    (hprocessed : p.processedBeacon.isSome)
    (hvalid : p.seniorPeerID.isValid = true) :
    WakesUp (step cb p e).master (step cb p e).database := by
  obtain ⟨info, hinfo⟩ := Option.isSome_iff_exists.mp hprocessed
  have hjunior := (h.following info hinfo).1
  have hwakes := h.wakesUp hprocessed hvalid
  obtain ⟨hreceived, hstateID⟩ := step_seniorState cb p e
  have hstateID := hstateID hjunior hbeacon
  have hnotStuck := step_notStuck hjunior hvalid hsenior
    (hkeeps.keepsFallback hprocessed) hwakes.notStuck
  have hrequest : ¬ SeniorRequest p e := by
    intro hrequest
    cases e with
    | databaseUpdateRequest _ _ _ =>
        have hrequest : p.iAmTheSeniorPeer = true := hrequest
        simp [hjunior] at hrequest
    | _ => exact hrequest
  intro hbehind
  rw [hstateID] at hbehind
  have hheard : (step cb p e).database.seniorDatabaseStateReceived = true := by
    rcases step_local cb hrequest with hsame | ⟨hle, _, _⟩ |
      ⟨ubok, _, _, _, hmem, _⟩
    · exact hreceived (hwakes (hsame ▸ hbehind)).1
    · exact hreceived (hwakes (hle.trans_lt hbehind)).1
    · exact hreceived (h.received ubok hmem)
  refine ⟨hheard, ?_⟩
  by_cases hattached : (step cb p e).master.iAmFullyAttached = true
  · rcases hnotStuck hattached hheard (hstateID ▸ hbehind) with hpending | horder
    · exact .inr fun _ => hpending
    · exact .inl horder
  · exact .inr fun h => absurd h hattached

/-- **One event.**  A peer that keeps up will catch up. -/
theorem step_willCatchUp (h : WillCatchUp p) (hkeeps : KeepsUp cb p e) :
    WillCatchUp (step cb p e) := by
  have hreceived := step_received cb (e := e) h.received
  by_cases hbeacon : ∃ fromPeerID info, e = .beaconReceived fromPeerID info
  · obtain ⟨fromPeerID, info, rfl⟩ := hbeacon
    simp only [step, beaconDataChanged] at hreceived ⊢
    split
    · rename_i hmine
      rw [if_pos hmine] at hreceived
      obtain ⟨hfrom, hother⟩ := hmine
      have hfrom : fromPeerID = p.seniorPeerID := hfrom
      have hother : fromPeerID ≠ p.localPeerID := hother
      have hjunior : p.iAmTheSeniorPeer = false :=
        decide_eq_false fun hself => hother (hfrom.trans hself)
      by_cases hnew : info.currentDatabaseStateID ≠
          p.forgetCalls.database.seniorDatabaseStateID ∨
          info.oldestDatabaseIDInLog ≠
            p.forgetCalls.database.seniorOldestIDInLog
      · have hchanged : p.forgetCalls.database.seniorDatabaseStateInfoChanged
            p.forgetCalls.master info = _ := if_pos hnew
        rw [scheduleLogContentsRescan_eq] at hchanged
        rw [hchanged] at hreceived ⊢
        refine ⟨hreceived, fun info' hinfo' => ?_, fun _ _ _ => ?_⟩
        · cases hinfo'
          exact ⟨hjunior, rfl⟩
        · refine ⟨rfl, .inr fun hattached => ?_⟩
          have hattached : p.forgetCalls.master.iAmFullyAttached = true :=
            hattached
          simp [hattached]
      · have hsame : p.forgetCalls.database.seniorDatabaseStateInfoChanged
            p.forgetCalls.master info = p.forgetCalls.database := if_neg hnew
        rw [hsame] at hreceived ⊢
        simp only [not_or, ne_eq, not_not] at hnew
        refine ⟨hreceived, fun info' hinfo' => ?_, fun _ _ => ?_⟩
        · cases hinfo'
          exact ⟨hjunior, hnew.1.symm⟩
        · exact hkeeps hfrom hother hnew.1 hnew.2
    · exact ⟨h.received, h.following, h.wakesUp⟩
  · have hbeacon : ∀ fromPeerID info, e ≠ .beaconReceived fromPeerID info :=
      fun fromPeerID info heq => hbeacon ⟨fromPeerID, info, heq⟩
    by_cases hsenior : ∃ q, e = .seniorPeerChanged q
    · obtain ⟨q, rfl⟩ := hsenior
      have hforgotten : (step cb p (.seniorPeerChanged q)).processedBeacon =
          none := by
        simp only [step, seniorPeerChanged]
        split <;> rfl
      refine ⟨hreceived, fun info hinfo => ?_, fun hprocessed => ?_⟩
      · rw [hforgotten] at hinfo
        cases hinfo
      · rw [hforgotten] at hprocessed
        cases hprocessed
    · have hsenior : ∀ q, e ≠ .seniorPeerChanged q := fun q heq =>
        hsenior ⟨q, heq⟩
      have hkeepsSenior : KeepsSenior e := by
        cases e with
        | seniorPeerChanged q => exact absurd rfl (hsenior q)
        | _ => trivial
      have hprocessed := step_processedBeacon cb p hsenior hbeacon
      obtain ⟨hlocal, hids⟩ := step_peerIDs cb p e
      have hids : (step cb p e).seniorPeerID = p.seniorPeerID := by
        rcases hids with heq | ⟨q, heq, -⟩
        · exact heq
        · exact absurd heq (hsenior q)
      refine ⟨hreceived, fun info hinfo => ?_, fun hsome hvalid => ?_⟩
      · rw [hprocessed] at hinfo
        obtain ⟨hjunior, hstateID⟩ := h.following info hinfo
        refine ⟨?_, ?_⟩
        · have hjunior := of_decide_eq_false hjunior
          refine decide_eq_false fun heq => hjunior ?_
          exact hids.symm.trans (heq.trans hlocal)
        · rw [(step_seniorState cb p e).2 hjunior hbeacon, hstateID]
      · rw [hprocessed] at hsome
        rw [hids] at hvalid
        exact step_wakesUp h hkeeps hkeepsSenior hbeacon hsome hvalid

end ZGPeerSession

end ZgChoir
