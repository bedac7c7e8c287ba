import ZgChoir.PeerSession

/-!
# What a senior peer advertises, and what it can serve

A junior that is behind orders single updates as long as the senior
advertises an oldest ID that is low enough, and the whole database
otherwise.  So a senior must hold every update from the oldest ID it
advertises to its own state, and none beyond.

The senior's own requests and the trimming of the log keep this.  A junior
peer fills its log in the order in which updates reach it, may be moved past
a stretch of updates by a full database, and never clears the log: the
method that would, `ClearUpdateLog`, has no caller.  `LogStaysServable` is
the condition that no update is logged, no database replaced and no peer
promoted in a way that leaves a gap or an update beyond the peer's state.

The invariant is `GapFreeUpTo` the peer's own state, on junior and senior
alike.
-/

namespace ZgChoir

variable {DB Msg : Type} {cb : Callbacks DB Msg} {m : Master} {link : Link}

namespace PZGDatabaseState

variable {d : PZGDatabaseState DB Msg}

/-- No logged update is beyond the state of the database. -/
def NothingAhead (d : PZGDatabaseState DB Msg) : Prop :=
  ∀ u ∈ d.updateLog.entries, u.updateID ≤ d.localDatabaseStateID

instance : Decidable (NothingAhead d) :=
  inferInstanceAs (Decidable (∀ u ∈ d.updateLog.entries, _))

/-- **What is asked of a senior's log.**  If an oldest ID is
advertised, every update from it to the advertised state can be served, and
none beyond is held. -/
def ServesWhatItAdvertises (cb : Callbacks DB Msg) (m : Master)
    (d : PZGDatabaseState DB Msg) : Prop :=
  ∀ oldest : ℕ, d.getDatabaseStateInfo.oldestDatabaseIDInLog = oldest →
    (∀ k, oldest ≤ k → k ≤ d.getDatabaseStateInfo.currentDatabaseStateID →
      ∀ time, ∃ u, d.getDatabaseUpdateByID cb m k time = some u ∧
        u.updateID = k) ∧
    ∀ u ∈ d.updateLog.entries,
      u.updateID ≤ d.getDatabaseStateInfo.currentDatabaseStateID

/-- The invariant of the log: no gap up to the peer's own state, and on a
senior nothing beyond it. -/
structure LogServable (m : Master) (d : PZGDatabaseState DB Msg) : Prop where
  gapFree : d.updateLog.GapFreeUpTo d.localDatabaseStateID
  nothingAhead : m.iAmTheSeniorPeer = true → NothingAhead d

/-- A log that is not empty advertises the ID of its first update. -/
theorem exists_oldest_of_mem {u : PZGDatabaseUpdate Msg}
    (hu : u ∈ d.updateLog.entries) :
    ∃ oldest : ℕ, d.getDatabaseStateInfo.oldestDatabaseIDInLog = oldest ∧
      oldest ≤ u.updateID := by
  cases hfirst : d.updateLog.first? with
  | none =>
      rw [OrderedTable.first?_eq_none.mp hfirst] at hu
      cases hu
  | some first =>
      refine ⟨first.updateID, ?_, (OrderedTable.first?_eq_some hfirst).2 u hu⟩
      simp [getDatabaseStateInfo, hfirst]

/-- A database serves what it advertises when its log has no gap up to the
state and nothing beyond it, and only then. -/
theorem servesWhatItAdvertises_iff :
    ServesWhatItAdvertises cb m d ↔
      d.updateLog.GapFreeUpTo d.localDatabaseStateID ∧ NothingAhead d := by
  constructor
  · intro h
    refine ⟨fun u hu hlt => ?_, fun u hu => ?_⟩
    · obtain ⟨oldest, holdest, hle⟩ := exists_oldest_of_mem hu
      obtain ⟨v, hget, -⟩ :=
        (h oldest holdest).1 (u.updateID + 1) (by omega) hlt ⟨0, 0⟩
      have hget : d.updateLog.get? (u.updateID + 1) = some v := hget
      simp [OrderedTable.containsKey, hget]
    · obtain ⟨oldest, holdest, -⟩ := exists_oldest_of_mem hu
      exact (h oldest holdest).2 u hu
  · rintro ⟨hgap, hahead⟩ oldest holdest
    refine ⟨fun k hfrom hto time => ?_, hahead⟩
    unfold getDatabaseStateInfo at holdest
    cases hfirst : d.updateLog.first? with
    | none => simp [hfirst] at holdest
    | some first =>
        have hfirstID : first.updateID = oldest := by
          simpa [hfirst] using holdest
        obtain ⟨u, hu, hid⟩ := hgap.exists_key
          (OrderedTable.first?_eq_some hfirst).1 (hfirstID.le.trans hfrom) hto
        exact ⟨u, OrderedTable.get?_eq_some.mpr ⟨hu, hid⟩, hid⟩

/-! ## What keeps the log servable -/

/-- Logging `dbUp` on a junior peer makes no gap: the update is not below
the peer's state, or the update that follows it is logged. -/
def MayLog (d : PZGDatabaseState DB Msg) (dbUp : PZGDatabaseUpdate Msg) :
    Prop :=
  d.localDatabaseStateID ≤ dbUp.updateID ∨
    d.updateLog.containsKey (dbUp.updateID + 1) = true

instance {dbUp : PZGDatabaseUpdate Msg} : Decidable (MayLog d dbUp) :=
  inferInstanceAs (Decidable (_ ∨ _))

theorem not_mayLog {dbUp : PZGDatabaseUpdate Msg} :
    ¬ MayLog d dbUp ↔ dbUp.updateID < d.localDatabaseStateID ∧
      d.updateLog.containsKey (dbUp.updateID + 1) = false := by
  simp [MayLog]

/-- The changes of a rescan keep the log servable. -/
theorem LogServable.rescanMove {d' : PZGDatabaseState DB Msg}
    (h : LogServable m d) (hmove : RescanMove cb m link d d') :
    LogServable m d' := by
  obtain ⟨hgap, hahead⟩ := h
  cases hmove with
  | mark _ => exact ⟨hgap, hahead⟩
  | send dbUp _ _ _ => exact ⟨hgap, hahead⟩
  | execute dbUp hjunior hmem _ hcan =>
      have hid := hcan.1
      refine ⟨?_, fun hsenior => by simp [hjunior] at hsenior⟩
      have hnext := hgap.succ (OrderedTable.containsKey_iff.mpr
        ⟨dbUp, hmem, hid.symm⟩)
      rw [hid] at hnext
      exact hnext
  | executeFails dbUp hjunior _ _ _ failed hfailed =>
      obtain ⟨_, _, horder⟩ := requestBackOrderFromSeniorPeer_eq link failed
        (fullDatabaseKey m failed) true
      refine ⟨?_, fun hsenior => by simp [hjunior] at hsenior⟩
      rw [requestFullDatabaseResendFromSeniorPeer, horder]
      rcases hfailed with rfl | rfl
      · exact hgap
      · exact hgap
  | order ubok hjunior _ _ =>
      obtain ⟨_, _, horder⟩ :=
        requestBackOrderFromSeniorPeer_eq link d ubok false
      rw [horder]
      exact ⟨hgap, hahead⟩
  | trim first hfirst =>
      obtain ⟨_, _, _, hremove, -⟩ :=
        removeDatabaseUpdateFromUpdateLog_eq cb m d first
      rw [hremove]
      exact ⟨hgap.remove_first hfirst, fun hsenior u hu =>
        hahead hsenior u (OrderedTable.mem_remove.mp hu).1⟩

theorem LogServable.rescanIfNecessary (h : LogServable m d) :
    LogServable m (rescanUpdateLogIfNecessary cb m link d) := by
  unfold rescanUpdateLogIfNecessary
  split
  · exact preserved_of_moves (rescanUpdateLog_moves cb m link _)
      (⟨h.gapFree, h.nothingAhead⟩ : LogServable m
        { d with rescanLogPending := false })
      fun _ _ hab hmove => hab.rescanMove hmove
  · exact h

/-- A request on a senior peer keeps the log servable. -/
theorem LogServable.request {r : Status × PZGDatabaseState DB Msg}
    (h : LogServable m d) (hsenior : m.iAmTheSeniorPeer = true)
    (hstep : RequestStep cb m d r) : LogServable m r.2 := by
  obtain ⟨hgap, hahead⟩ := h
  have hahead := hahead hsenior
  cases hstep with
  | refused ret _ => exact ⟨hgap, fun _ => hahead⟩
  | completed fromPeerID updateType callback _ time payloadMsg _ _ _ _ =>
      refine ⟨?_, fun _ u hu => ?_⟩
      · refine (hgap.put (.inl (Nat.le_succ _))).succ ?_
        exact OrderedTable.containsKey_put.mpr (.inl rfl)
      · rcases OrderedTable.mem_put.mp hu with rfl | ⟨hu, -⟩
        · exact le_rfl
        · exact (hahead u hu).trans (Nat.le_succ _)
  | rolledBack updateType callback _ ret _ _ _ _ _ =>
      refine ⟨hgap.remove fun u _ hlt _ => by omega, fun _ u hu => ?_⟩
      exact hahead u (OrderedTable.mem_remove.mp hu).1

/-- Logging an update that makes no gap keeps a junior's log servable. -/
theorem LogServable.add (h : LogServable m d)
    (hjunior : m.iAmTheSeniorPeer = false) {dbUp : PZGDatabaseUpdate Msg}
    (hmay : MayLog d dbUp) :
    LogServable m (addDatabaseUpdateToUpdateLog cb m d dbUp) := by
  obtain ⟨_, _, _, hadd, -⟩ := addDatabaseUpdateToUpdateLog_eq cb m d dbUp
  rw [hadd]
  exact ⟨h.gapFree.put hmay, fun hsenior => by simp [hjunior] at hsenior⟩

/-- The condition on a reply to an outstanding back-order of the current
senior: a full database leaves no gap below its own state, a single update
may be logged. -/
def ReplyKeepsLog (cb : Callbacks DB Msg) (m : Master)
    (d : PZGDatabaseState DB Msg) (ubok : PZGUpdateBackOrderKey)
    (opt : Option (PZGDatabaseUpdate Msg)) : Prop :=
  ∀ dbUp ∈ opt, ubok ∈ d.backorders → ubok.targetPeerID = m.seniorPeerID →
    m.iAmTheSeniorPeer = false →
    if ubok.databaseUpdateID = databaseUpdateIDFullUpdate then
      Restores cb d dbUp → d.updateLog.GapFreeUpTo dbUp.updateID
    else MayLog d dbUp

instance {ubok : PZGUpdateBackOrderKey}
    {opt : Option (PZGDatabaseUpdate Msg)} :
    Decidable (ReplyKeepsLog cb m d ubok opt) :=
  inferInstanceAs (Decidable (∀ dbUp ∈ opt, _ → _ → _ → ite _ _ _))

/-- A reply that meets the condition keeps the log servable. -/
theorem LogServable.reply {ubok : PZGUpdateBackOrderKey}
    {opt : Option (PZGDatabaseUpdate Msg)} (h : LogServable m d)
    (hkeeps : ReplyKeepsLog cb m d ubok opt) :
    LogServable m (backOrderResultReceived cb m link d ubok opt) := by
  have hstep := backOrderResultReceived_step cb m link d ubok opt
  generalize backOrderResultReceived cb m link d ubok opt = d' at hstep ⊢
  cases hstep with
  | ignored _ _ => exact h
  | dropped _ _ _ => exact ⟨h.gapFree, h.nothingAhead⟩
  | replaced dbUp hmem htarget hjunior hfull hrestores =>
      have hgap := hkeeps dbUp rfl hmem htarget hjunior
      rw [if_pos hfull] at hgap
      exact ⟨hgap hrestores, fun hsenior => by simp [hjunior] at hsenior⟩
  | replaceFailed dbUp _ _ _ _ _ => exact ⟨h.gapFree, h.nothingAhead⟩
  | fullMissing _ _ _ _ => exact ⟨h.gapFree, h.nothingAhead⟩
  | logged dbUp hmem htarget hjunior hsingle _ _ =>
      have hmay := hkeeps dbUp rfl hmem htarget hjunior
      rw [if_neg hsingle] at hmay
      exact ⟨h.gapFree.put hmay, fun hsenior => by simp [hjunior] at hsenior⟩
  | singleMissing _ _ _ _ =>
      obtain ⟨_, _, horder⟩ := requestBackOrderFromSeniorPeer_eq link
        (withoutBackOrder d ubok)
        (fullDatabaseKey m (withoutBackOrder d ubok)) false
      rw [requestFullDatabaseResendFromSeniorPeer, horder]
      exact ⟨h.gapFree, h.nothingAhead⟩

end PZGDatabaseState

namespace ZGPeerSession

open PZGDatabaseState

variable {p : ZGPeerSession DB Msg}

/-- **The log stays servable**, as the peer meets each event: a junior logs
no update that leaves a gap behind it, is moved by no full database past a
gap, and is promoted with no update beyond its state. -/
def LogStaysServable (cb : Callbacks DB Msg) (p : ZGPeerSession DB Msg) :
    PeerEvent Msg → Prop
  | .seniorPeerChanged newSeniorPeerID =>
      newSeniorPeerID = p.localPeerID → p.iAmTheSeniorPeer = false →
        NothingAhead p.database
  | .databaseUpdateRequest fromPeerID (.updateJuniorDatabase (some dbUp)) _ =>
      fromPeerID = p.seniorPeerID → p.iAmTheSeniorPeer = false →
        MayLog p.database dbUp
  | .backOrderResult ubok optUpdateData _ =>
      ReplyKeepsLog cb p.master p.database ubok optUpdateData
  | _ => True

instance : ∀ {e : PeerEvent Msg}, Decidable (LogStaysServable cb p e)
  | .seniorPeerChanged _ => inferInstanceAs (Decidable (_ → _ → _))
  | .databaseUpdateRequest _ (.updateJuniorDatabase (some _)) _ =>
      inferInstanceAs (Decidable (_ → _ → _))
  | .databaseUpdateRequest _ (.updateJuniorDatabase none) _ => .isTrue trivial
  | .databaseUpdateRequest _ .resetSeniorDatabase _ => .isTrue trivial
  | .databaseUpdateRequest _ (.replaceSeniorDatabase _) _ => .isTrue trivial
  | .databaseUpdateRequest _ (.updateSeniorDatabase _) _ => .isTrue trivial
  | .databaseUpdateRequest _ (.unknown _) _ => .isTrue trivial
  | .backOrderResult _ _ _ =>
      inferInstanceAs (Decidable (ReplyKeepsLog _ _ _ _ _))
  | .peerHasComeOnline => .isTrue trivial
  | .beaconReceived _ _ => .isTrue trivial
  | .rescan _ => .isTrue trivial
  | .pulse _ => .isTrue trivial
  | .backOrderRequested _ _ => .isTrue trivial

/-- **One event.**  The log of the peer stays servable. -/
theorem step_logServable {e : PeerEvent Msg}
    (h : LogServable p.master p.database) (hkeeps : LogStaysServable cb p e) :
    LogServable (step cb p e).master (step cb p e).database := by
  have hforget : LogServable p.forgetCalls.master p.forgetCalls.database :=
    ⟨h.gapFree, h.nothingAhead⟩
  cases e with
  | peerHasComeOnline =>
      show LogServable p.forgetCalls.peerHasComeOnline.master
        p.forgetCalls.peerHasComeOnline.database
      unfold peerHasComeOnline
      split
      · exact hforget
      · rw [database_withDatabase, scheduleLogContentsRescan_eq]
        exact ⟨h.gapFree, h.nothingAhead⟩
  | seniorPeerChanged newSeniorPeerID =>
      have hdatabase : (step cb p (.seniorPeerChanged newSeniorPeerID)).database =
          p.forgetCalls.database := by
        simp only [step, seniorPeerChanged]
        split <;> rfl
      have hmaster : (step cb p (.seniorPeerChanged newSeniorPeerID)).master =
          { p.master with seniorPeerID := newSeniorPeerID } := by
        simp only [step, seniorPeerChanged]
        split <;> rfl
      rw [hdatabase, hmaster]
      refine ⟨h.gapFree, fun hpromoted => ?_⟩
      have hself : newSeniorPeerID = p.localPeerID := of_decide_eq_true hpromoted
      cases hrole : p.iAmTheSeniorPeer with
      | true => exact h.nothingAhead hrole
      | false => exact hkeeps hself hrole
  | databaseUpdateRequest fromPeerID msg time =>
      simp only [step]
      rcases handleDatabaseUpdateRequest_cases cb p.forgetCalls fromPeerID msg
        time with ⟨_, hrefused, _⟩ | ⟨hsenior, r, hstep, _, hhandled⟩ |
          ⟨hjunior, hfrom, dbUp, hmsg, hhandled⟩
      · rw [hrefused]
        exact hforget
      · rw [hhandled]
        exact hforget.request hsenior hstep
      · rw [hhandled]
        subst hmsg
        exact hforget.add hjunior (hkeeps hfrom hjunior)
  | beaconReceived fromPeerID info =>
      simp only [step, beaconDataChanged]
      split
      · simp only [seniorDatabaseStateInfoChanged]
        split
        · rw [scheduleLogContentsRescan_eq]
          exact ⟨h.gapFree, h.nothingAhead⟩
        · exact hforget
      · exact hforget
  | backOrderResult ubok opt link => exact hforget.reply hkeeps
  | rescan link => exact hforget.rescanIfNecessary
  | pulse link =>
      simp only [step, pulse]
      split
      · exact hforget.rescanIfNecessary
      · exact hforget
  | backOrderRequested ubok due =>
      simp only [step, backOrderRequested]
      split
      · exact ⟨h.gapFree, h.nothingAhead⟩
      · exact hforget

/-- **A senior serves what it advertises.**  From the default state, through
every change of the senior, in every run whose events keep the log servable,
a peer that is the senior can serve every update it advertises and holds
none beyond. -/
theorem servesWhatItAdvertises_of_logStaysServable (cb : Callbacks DB Msg)
    (db : DB) (localPeerID : ZGPeerID) (whichDatabase : UInt32)
    (maxPayloadBytesInLog : UInt64) (es : List (PeerEvent Msg))
    (hmeet : Runs.StepsMeet (step cb) (LogStaysServable cb)
      (fresh cb db localPeerID whichDatabase maxPayloadBytesInLog) es) :
    let p := Runs.run (step cb)
      (fresh cb db localPeerID whichDatabase maxPayloadBytesInLog) es
    p.iAmTheSeniorPeer = true →
      ServesWhatItAdvertises cb p.master p.database := by
  have hinv := Runs.run_invariant_of_stepsMeet
    (I := fun p : ZGPeerSession DB Msg => LogServable p.master p.database)
    ⟨OrderedTable.gapFreeUpTo_empty, fun _ u hu => by cases hu⟩ hmeet
    fun _ _ h hkeeps => step_logServable h hkeeps
  exact fun hsenior => servesWhatItAdvertises_iff.mpr
    ⟨hinv.gapFree, hinv.nothingAhead hsenior⟩

/-! ## The condition is exact -/

/-- The peer after it has been told that it is the senior. -/
def promoted (p : ZGPeerSession DB Msg) : ZGPeerSession DB Msg :=
  p.forgetCalls.seniorPeerChanged p.localPeerID

theorem database_promoted :
    p.promoted.database = p.forgetCalls.database := by
  simp only [promoted, seniorPeerChanged]
  split <;> rfl

theorem promoted_iAmTheSeniorPeer : p.promoted.iAmTheSeniorPeer = true := by
  simp only [promoted, seniorPeerChanged]
  split <;> exact decide_eq_true rfl

/-- A peer that is promoted with a gap in its log does not serve what it
advertises. -/
theorem not_serves_of_gap
    (hgap : ¬ p.database.updateLog.GapFreeUpTo
      p.database.localDatabaseStateID) :
    ¬ ServesWhatItAdvertises cb p.promoted.master p.promoted.database := by
  rw [servesWhatItAdvertises_iff, database_promoted]
  exact fun h => hgap h.1

/-- An event that does not keep the log servable leaves a peer that, told
that it is the senior, does not serve what it advertises. -/
theorem not_serves_of_not_logStaysServable {e : PeerEvent Msg}
    (h : ¬ LogStaysServable cb p e) :
    (step cb p e).promoted.iAmTheSeniorPeer = true ∧
      ¬ ServesWhatItAdvertises cb (step cb p e).promoted.master
        (step cb p e).promoted.database := by
  refine ⟨promoted_iAmTheSeniorPeer, ?_⟩
  cases e with
  | seniorPeerChanged newSeniorPeerID =>
      simp only [LogStaysServable, Classical.not_imp] at h
      have hdatabase : (step cb p (.seniorPeerChanged newSeniorPeerID)).database =
          p.forgetCalls.database := by
        simp only [step, seniorPeerChanged]
        split <;> rfl
      rw [servesWhatItAdvertises_iff, database_promoted]
      unfold forgetCalls
      rw [hdatabase]
      exact fun hserves => h.2.2 hserves.2
  | databaseUpdateRequest fromPeerID msg time =>
      cases msg with
      | updateJuniorDatabase dbUp =>
          cases dbUp with
          | none => exact (h trivial).elim
          | some dbUp =>
              simp only [LogStaysServable, Classical.not_imp] at h
              obtain ⟨hfrom, hjunior, hmay⟩ := h
              have hjunior : p.forgetCalls.iAmTheSeniorPeer = false := hjunior
              have hfrom : fromPeerID = p.forgetCalls.seniorPeerID := hfrom
              have hhandled : handleDatabaseUpdateRequest cb p.forgetCalls
                  fromPeerID (.updateJuniorDatabase (some dbUp)) time =
                  (.noError, p.forgetCalls.withDatabase
                    (addDatabaseUpdateToUpdateLog cb p.forgetCalls.master
                      p.forgetCalls.database dbUp)) := by
                unfold handleDatabaseUpdateRequest
                rw [hjunior, if_neg (by simp [isMeantForSeniorPeer]),
                  if_neg (by simp [hfrom])]
                rfl
              refine not_serves_of_gap ?_
              simp only [step, hhandled, database_withDatabase]
              obtain ⟨_, _, _, hadd, -⟩ := addDatabaseUpdateToUpdateLog_eq cb
                p.forgetCalls.master p.forgetCalls.database dbUp
              rw [hadd]
              exact OrderedTable.not_gapFreeUpTo_put
                (not_mayLog.mp hmay)
      | resetSeniorDatabase | replaceSeniorDatabase _
      | updateSeniorDatabase _ | unknown _ => exact (h trivial).elim
  | backOrderResult ubok opt link =>
      simp only [LogStaysServable, ReplyKeepsLog, Classical.not_imp,
        not_forall] at h
      obtain ⟨dbUp, hopt, hmem, htarget, hjunior, hlost⟩ := h
      obtain rfl : opt = some dbUp := hopt
      refine not_serves_of_gap ?_
      have hstep := backOrderResultReceived_step cb p.forgetCalls.master link
        p.forgetCalls.database ubok (some dbUp)
      change ¬ OrderedTable.GapFreeUpTo
        (PZGDatabaseState.backOrderResultReceived cb p.forgetCalls.master link
          p.forgetCalls.database ubok (some dbUp)).updateLog
        (PZGDatabaseState.backOrderResultReceived cb p.forgetCalls.master link
          p.forgetCalls.database ubok (some dbUp)).localDatabaseStateID
      generalize PZGDatabaseState.backOrderResultReceived cb _ link _ ubok
        (some dbUp) = d' at hstep ⊢
      cases hstep with
      | ignored _ habsent => exact absurd hmem habsent
      | dropped _ _ hother => exact absurd ⟨htarget, hjunior⟩ hother
      | replaced _ _ _ _ hfull _ =>
          rw [if_pos hfull, Classical.not_imp] at hlost
          exact hlost.2
      | replaceFailed _ _ _ _ hfull hrestores =>
          rw [if_pos hfull, Classical.not_imp] at hlost
          exact absurd hlost.1 hrestores
      | logged _ _ _ _ hsingle _ _ =>
          rw [if_neg hsingle] at hlost
          exact OrderedTable.not_gapFreeUpTo_put
            (not_mayLog.mp hlost)
  | peerHasComeOnline | beaconReceived _ _ | rescan _ | pulse _
  | backOrderRequested _ _ => exact (h trivial).elim

/-! ## A junior promoted with a whole log, and one with a gap

Peer 1 follows peer 2, executes update 1, and is promoted; it makes update 2
itself.  `promotedJunior` is promoted with update 3 in its log instead. -/

/-- The events of a junior that executes update 1 and is promoted, and then
executes a request. -/
def countsOn : List (PeerEvent ℕ) :=
  [.peerHasComeOnline, .seniorPeerChanged ⟨0, 2⟩,
    .beaconReceived ⟨0, 2⟩ ⟨1, (1 : ℕ), 1⟩,
    .databaseUpdateRequest ⟨0, 2⟩ (.updateJuniorDatabase (some (countUp 1)))
      ⟨0, 0⟩,
    .rescan .up, .seniorPeerChanged ⟨0, 1⟩,
    .databaseUpdateRequest ⟨0, 1⟩ (.updateSeniorDatabase (some 1)) ⟨0, 0⟩]

/-- The peer that counts on serves updates 1 and 2. -/
theorem countsOn_serves :
    let p := Runs.run (step counterCallbacks)
      (fresh counterCallbacks 0 ⟨0, 1⟩ 0 100) countsOn
    p.database.getDatabaseStateInfo = ⟨2, (1 : ℕ), 2⟩ ∧
      ServesWhatItAdvertises counterCallbacks p.master p.database :=
  ⟨by decide, servesWhatItAdvertises_of_logStaysServable counterCallbacks 0
    ⟨0, 1⟩ 0 100 countsOn (by decide) (by decide)⟩

/-- The promoted junior advertises the oldest ID 1 at state 1, and its log
holds update 3. -/
theorem promotedJunior_holds_update_ahead :
    promotedJunior.iAmTheSeniorPeer = true ∧
      promotedJunior.database.getDatabaseStateInfo = ⟨1, (1 : ℕ), 1⟩ ∧
      countUp 3 ∈ promotedJunior.database.updateLog.entries ∧
      ¬ ServesWhatItAdvertises counterCallbacks promotedJunior.master
        promotedJunior.database := by
  have hmem : countUp 3 ∈ promotedJunior.database.updateLog.entries := by
    decide
  refine ⟨by decide, by decide, hmem, fun h => ?_⟩
  have hbound := (servesWhatItAdvertises_iff.mp h).2 _ hmem
  exact absurd hbound (by decide)

end ZGPeerSession

end ZgChoir
