import ZgChoir.PeerSession

/-!
# What the totals of the update log are worth

A database keeps the bytes and the milliseconds of its log in two running
totals, and trims the log by the first of them.  Their comment says that they
are "always set to be equal" to what is in the log.

`drift` is by how much the totals are off.  Removing an update and completing
one leave it as it is; adding an update under an ID that is logged already
moves it by the weight of the update that is replaced (`drift_step`).  So the
totals are right in all states of a run exactly when no step of the run
replaces an update that weighs something: `logAccounted_iff`.
-/

namespace ZgChoir

variable {DB Msg : Type} {cb : Callbacks DB Msg} {m : Master} {link : Link}

namespace PZGDatabaseState

variable {d d' : PZGDatabaseState DB Msg} {dbUp : PZGDatabaseUpdate Msg}

/-- The running totals are those of the updates in the log. -/
structure LogAccounted (cb : Callbacks DB Msg) (d : PZGDatabaseState DB Msg) :
    Prop where
  payloadBytes : d.totalPayloadBytesInLog =
    (d.updateLog.entries.map (payloadNumBytes cb)).sum
  elapsedMillis : d.totalElapsedMillisInLog =
    (d.updateLog.entries.map (·.seniorElapsedTimeMillis.toUInt64)).sum

instance : Decidable (LogAccounted cb d) :=
  decidable_of_iff (_ ∧ _)
    ⟨fun h => ⟨h.1, h.2⟩, fun h => ⟨h.payloadBytes, h.elapsedMillis⟩⟩

/-- What an update adds to the two totals. -/
def logWeight (cb : Callbacks DB Msg) (dbUp : PZGDatabaseUpdate Msg) :
    UInt64 × UInt64 :=
  (payloadNumBytes cb dbUp, dbUp.seniorElapsedTimeMillis.toUInt64)

/-- The two totals. -/
def logTotals (d : PZGDatabaseState DB Msg) : UInt64 × UInt64 :=
  (d.totalPayloadBytesInLog, d.totalElapsedMillisInLog)

/-- By how much the two totals are off. -/
def drift (cb : Callbacks DB Msg) (d : PZGDatabaseState DB Msg) :
    UInt64 × UInt64 :=
  d.logTotals - d.updateLog.total (logWeight cb)

theorem logAccounted_iff_drift : LogAccounted cb d ↔ drift cb d = 0 := by
  have hsum : d.updateLog.total (logWeight cb) =
      ((d.updateLog.entries.map (payloadNumBytes cb)).sum,
        (d.updateLog.entries.map (·.seniorElapsedTimeMillis.toUInt64)).sum) := by
    unfold OrderedTable.total
    induction d.updateLog.entries with
    | nil => rfl
    | cons dbUp entries ih =>
        rw [List.map_cons, List.sum_cons, ih]
        rfl
  rw [drift, sub_eq_zero, hsum, logTotals, Prod.mk.injEq]
  exact ⟨fun h => ⟨h.payloadBytes, h.elapsedMillis⟩, fun h => ⟨h.1, h.2⟩⟩

theorem logWeight_eq_zero : logWeight cb dbUp = 0 ↔
    payloadNumBytes cb dbUp = 0 ∧ dbUp.seniorElapsedTimeMillis = 0 := by
  have hwide : dbUp.seniorElapsedTimeMillis.toUInt64 = 0 ↔
      dbUp.seniorElapsedTimeMillis = 0 := by
    rw [← UInt64.toNat_inj, ← UInt16.toNat_inj]
    simp
  rw [← hwide]
  exact Prod.mk_eq_zero

/-! ### What each method does to the drift -/

/-- The totals and the log are all that the drift looks at. -/
theorem drift_congr (hlog : d'.updateLog = d.updateLog)
    (htotals : d'.logTotals = d.logTotals) : drift cb d' = drift cb d := by
  rw [drift, drift, hlog, htotals]

/-- An update that is added leaves the weight of the one it replaces in the
totals. -/
theorem drift_addDatabaseUpdateToUpdateLog :
    drift cb (addDatabaseUpdateToUpdateLog cb m d dbUp) =
      drift cb d + d.updateLog.weightAt (logWeight cb) dbUp.updateID := by
  have htotals : (addDatabaseUpdateToUpdateLog cb m d dbUp).logTotals =
      d.logTotals + logWeight cb dbUp := by
    rw [addDatabaseUpdateToUpdateLog, scheduleLogContentsRescan_eq]
    rfl
  have hlog : (addDatabaseUpdateToUpdateLog cb m d dbUp).updateLog =
      d.updateLog.put dbUp := by
    rw [addDatabaseUpdateToUpdateLog, scheduleLogContentsRescan_eq]
  rw [drift, drift, htotals, hlog, OrderedTable.total_put]
  abel

theorem drift_removeDatabaseUpdateFromUpdateLog :
    drift cb (removeDatabaseUpdateFromUpdateLog cb m d dbUp) = drift cb d := by
  unfold removeDatabaseUpdateFromUpdateLog
  cases hget : d.updateLog.get? dbUp.updateID with
  | none => rfl
  | some temp =>
      have htotals : (d.totalPayloadBytesInLog - payloadNumBytes cb temp,
          d.totalElapsedMillisInLog - temp.seniorElapsedTimeMillis.toUInt64) =
          d.logTotals - logWeight cb temp := rfl
      have hweight : d.updateLog.weightAt (logWeight cb) dbUp.updateID =
          logWeight cb temp := by
        rw [OrderedTable.weightAt, hget]
      simp only [drift, logTotals] at htotals ⊢
      rw [htotals, OrderedTable.total_remove, hweight]
      abel

/-- Completing the update that is logged moves the totals by as much as it
moves the log. -/
theorem drift_seniorUpdateCompleted {time : Timing} {payloadMsg : Option Msg}
    (hlogged : d.updateLog.get? dbUp.updateID = some dbUp) :
    drift cb (seniorUpdateCompleted cb d dbUp time payloadMsg) =
      drift cb d := by
  have htotals : (seniorUpdateCompleted cb d dbUp time payloadMsg).logTotals =
      d.logTotals - logWeight cb dbUp +
        logWeight cb (completedUpdate d dbUp time payloadMsg) := rfl
  have hlog : (seniorUpdateCompleted cb d dbUp time payloadMsg).updateLog =
      d.updateLog.put (completedUpdate d dbUp time payloadMsg) := rfl
  have hweight : d.updateLog.weightAt (logWeight cb)
      (completedUpdate d dbUp time payloadMsg).updateID =
      logWeight cb dbUp := by
    have hid : (completedUpdate d dbUp time payloadMsg).updateID =
        dbUp.updateID := rfl
    rw [OrderedTable.weightAt, hid, hlogged]
  rw [drift, drift, htotals, hlog, OrderedTable.total_put, hweight]
  abel

/-- Whether its callback succeeds or fails, a senior request replaces what is
logged under the next ID. -/
theorem drift_executeSeniorUpdate {fromPeerID : ZGPeerID}
    {updateType : UpdateType}
    {callback : DB → UInt32 → SeniorOutcome DB Msg} {time : Timing} :
    drift cb (executeSeniorUpdate cb m d fromPeerID updateType callback
        time).2 =
      drift cb d +
        d.updateLog.weightAt (logWeight cb) (d.localDatabaseStateID + 1) := by
  have hadd : drift cb (addDatabaseUpdateToUpdateLog cb m d
        (newUpdate d fromPeerID updateType)) =
      drift cb d +
        d.updateLog.weightAt (logWeight cb) (d.localDatabaseStateID + 1) :=
    drift_addDatabaseUpdateToUpdateLog
  have hlogged : (addDatabaseUpdateToUpdateLog cb m d
        (newUpdate d fromPeerID updateType)).updateLog.get?
      (d.localDatabaseStateID + 1) =
        some (newUpdate d fromPeerID updateType) := by
    rw [addDatabaseUpdateToUpdateLog, scheduleLogContentsRescan_eq]
    exact OrderedTable.get?_put_self
  unfold executeSeniorUpdate
  dsimp only
  generalize addDatabaseUpdateToUpdateLog cb m d
    (newUpdate d fromPeerID updateType) = logged at hadd hlogged ⊢
  have hcalled : ∀ db chk,
      drift cb { logged with database := db, dbChecksum := chk } =
        drift cb logged := fun db chk => drift_congr rfl rfl
  split
  · rw [drift_seniorUpdateCompleted, hcalled, hadd]
    exact hlogged
  · rw [drift_removeDatabaseUpdateFromUpdateLog, hcalled, hadd]

theorem drift_requestBackOrderFromSeniorPeer {ubok : PZGUpdateBackOrderKey}
    {due : Bool} :
    drift cb (requestBackOrderFromSeniorPeer link d ubok due).2 =
      drift cb d := by
  obtain ⟨orders, calls, heq⟩ :=
    requestBackOrderFromSeniorPeer_eq link d ubok due
  rw [heq]
  rfl

theorem drift_rescanUpdateLogIfNecessary :
    drift cb (rescanUpdateLogIfNecessary cb m link d) = drift cb d := by
  unfold rescanUpdateLogIfNecessary
  split
  · refine preserved_of_moves (P := fun d' => drift cb d' = drift cb d)
      (rescanUpdateLog_moves cb m link _) rfl fun a b ha hmove => ?_
    rw [← ha]
    cases hmove with
    | mark hjunior => rfl
    | send dbUp hsenior hmem hunsent => rfl
    | execute dbUp hjunior hmem hfree hcan => rfl
    | executeFails dbUp hjunior hmem hid hcan failed hfailed =>
        refine drift_requestBackOrderFromSeniorPeer.trans ?_
        rcases hfailed with rfl | rfl <;> rfl
    | order ubok hjunior htarget hwhich =>
        exact drift_requestBackOrderFromSeniorPeer
    | trim first hfirst => exact drift_removeDatabaseUpdateFromUpdateLog
  · rfl

/-- The ID under which a reply to a back-order is logged, if it is. -/
def replyLoggedUnder (m : Master) (d : PZGDatabaseState DB Msg)
    (ubok : PZGUpdateBackOrderKey)
    (optUpdateData : Option (PZGDatabaseUpdate Msg)) : Option ℕ :=
  if ubok ∈ d.backorders ∧ ubok.targetPeerID = m.seniorPeerID ∧
      m.iAmTheSeniorPeer = false ∧
      ubok.databaseUpdateID ≠ databaseUpdateIDFullUpdate then
    optUpdateData.map (·.updateID)
  else none

/-- The ID under which a request is logged, if it is. -/
def requestLoggedUnder (d : PZGDatabaseState DB Msg) :
    DatabaseUpdateRequest Msg → Option ℕ
  | .resetSeniorDatabase => some (d.localDatabaseStateID + 1)
  | .replaceSeniorDatabase userMsg | .updateSeniorDatabase userMsg =>
      userMsg.map fun _ => d.localDatabaseStateID + 1
  | .updateJuniorDatabase dbUp => dbUp.map (·.updateID)
  | .unknown _ => none

/-- The weight of what is logged under an ID, if there is one. -/
def replacedWeight (cb : Callbacks DB Msg) (d : PZGDatabaseState DB Msg) :
    Option ℕ → UInt64 × UInt64
  | some updateID => d.updateLog.weightAt (logWeight cb) updateID
  | none => 0

theorem drift_handleDatabaseUpdateRequest {fromPeerID : ZGPeerID}
    {msg : DatabaseUpdateRequest Msg} {time : Timing} :
    drift cb (handleDatabaseUpdateRequest cb m d fromPeerID msg time).2 =
      drift cb d + replacedWeight cb d (requestLoggedUnder d msg) := by
  cases msg with
  | resetSeniorDatabase => exact drift_executeSeniorUpdate
  | replaceSeniorDatabase userMsg =>
      cases userMsg with
      | none => exact (add_zero _).symm
      | some userMsg => exact drift_executeSeniorUpdate
  | updateSeniorDatabase userMsg =>
      cases userMsg with
      | none => exact (add_zero _).symm
      | some userMsg => exact drift_executeSeniorUpdate
  | updateJuniorDatabase dbUp =>
      cases dbUp with
      | none => exact (add_zero _).symm
      | some dbUp => exact drift_addDatabaseUpdateToUpdateLog
  | unknown what => exact (add_zero _).symm

theorem drift_backOrderResultReceived {ubok : PZGUpdateBackOrderKey}
    {opt : Option (PZGDatabaseUpdate Msg)} :
    drift cb (backOrderResultReceived cb m link d ubok opt) =
      drift cb d + replacedWeight cb d (replyLoggedUnder m d ubok opt) := by
  have hunlogged : replyLoggedUnder m d ubok opt = none →
      drift cb (backOrderResultReceived cb m link d ubok opt) = drift cb d →
      drift cb (backOrderResultReceived cb m link d ubok opt) =
        drift cb d + replacedWeight cb d (replyLoggedUnder m d ubok opt) := by
    intro hnone hsame
    rw [hnone, hsame]
    exact (add_zero _).symm
  have hstep := backOrderResultReceived_step cb m link d ubok opt
  generalize hafter : backOrderResultReceived cb m link d ubok opt = after
    at hstep hunlogged ⊢
  cases hstep with
  | ignored opt hnot => exact hunlogged (by simp [replyLoggedUnder, hnot]) rfl
  | dropped opt hmem hother =>
      refine hunlogged (if_neg ?_) rfl
      rintro ⟨-, htarget, hjunior, -⟩
      exact hother ⟨htarget, hjunior⟩
  | replaced dbUp hmem htarget hjunior hfull hrestores =>
      exact hunlogged (by simp [replyLoggedUnder, hfull]) rfl
  | replaceFailed dbUp hmem htarget hjunior hfull hrestores =>
      exact hunlogged (by simp [replyLoggedUnder, hfull]) rfl
  | fullMissing hmem htarget hjunior hfull =>
      exact hunlogged (by simp [replyLoggedUnder]) rfl
  | logged dbUp hmem htarget hjunior hsingle bytes millis =>
      have hid : replyLoggedUnder m d ubok (some dbUp) = some dbUp.updateID :=
        if_pos ⟨hmem, htarget, hjunior, hsingle⟩
      rw [← hafter, hid, backOrderResultReceived, if_pos hmem,
        if_pos ⟨htarget, hjunior⟩, if_neg hsingle]
      dsimp only
      rw [scheduleLogContentsRescan_eq]
      exact (drift_congr rfl rfl).trans drift_addDatabaseUpdateToUpdateLog
  | singleMissing hmem htarget hjunior hsingle =>
      refine hunlogged (by simp [replyLoggedUnder]) ?_
      exact drift_requestBackOrderFromSeniorPeer.trans rfl

end PZGDatabaseState

/-! ### Runs of a peer -/

namespace ZGPeerSession

open PZGDatabaseState

variable {p : ZGPeerSession DB Msg} {e : PeerEvent Msg}

/-- The ID under which an event logs an update, if it does. -/
def loggedUnder (p : ZGPeerSession DB Msg) : PeerEvent Msg → Option ℕ
  | .databaseUpdateRequest fromPeerID msg _ =>
      if isMeantForSeniorPeer msg = p.iAmTheSeniorPeer ∧
          (isMeantForSeniorPeer msg = true ∨ fromPeerID = p.seniorPeerID) then
        requestLoggedUnder p.database msg
      else none
  | .backOrderResult ubok optUpdateData _ =>
      replyLoggedUnder p.master p.database ubok optUpdateData
  | _ => none

/-- Whatever the event replaces in the log counts nothing. -/
def ReplacesNoWeight (cb : Callbacks DB Msg) (p : ZGPeerSession DB Msg)
    (e : PeerEvent Msg) : Prop :=
  ∀ updateID ∈ p.loggedUnder e,
    ∀ old ∈ p.database.updateLog.get? updateID,
      payloadNumBytes cb old = 0 ∧ old.seniorElapsedTimeMillis = 0

theorem replacesNoWeight_iff : ReplacesNoWeight cb p e ↔
    replacedWeight cb p.database (p.loggedUnder e) = 0 := by
  unfold ReplacesNoWeight replacedWeight OrderedTable.weightAt
  cases p.loggedUnder e with
  | none => simp
  | some updateID =>
      cases hget : p.database.updateLog.get? updateID with
      | none => simp [hget]
      | some old => simp [hget, logWeight_eq_zero]

/-- **One event.**  The totals go off by the weight of what is replaced. -/
theorem drift_step : drift cb (step cb p e).database =
    drift cb p.database + replacedWeight cb p.database (p.loggedUnder e) := by
  have hidle : drift cb p.database = drift cb p.database +
      replacedWeight cb p.database none := (add_zero _).symm
  cases e with
  | peerHasComeOnline =>
      refine Eq.trans ?_ hidle
      simp only [step, peerHasComeOnline]
      split
      · rfl
      · rw [database_withDatabase, scheduleLogContentsRescan_eq]
        rfl
  | seniorPeerChanged newSeniorPeerID =>
      refine Eq.trans ?_ hidle
      simp only [step, seniorPeerChanged]
      split <;> rfl
  | databaseUpdateRequest fromPeerID msg time =>
      have hrefused : drift cb p.forgetCalls.database = drift cb p.database +
          replacedWeight cb p.database none := hidle
      simp only [step, handleDatabaseUpdateRequest, loggedUnder]
      split_ifs with hrole hmine hsource hmine hmine
      · exact absurd hmine.1 hrole
      · exact hrefused
      · rcases hmine.2 with hsenior | hfrom
        · exact absurd hsenior (by simp [hsource.1])
        · exact absurd hfrom hsource.2
      · exact hrefused
      · cases msg with
        | updateJuniorDatabase dbUp =>
            cases dbUp with
            | none => exact hrefused
            | some dbUp => exact drift_handleDatabaseUpdateRequest
        | resetSeniorDatabase | replaceSeniorDatabase _
        | updateSeniorDatabase _ | unknown _ =>
            exact drift_handleDatabaseUpdateRequest
      · refine absurd ⟨not_not.mp hrole, ?_⟩ hmine
        by_contra hneither
        rw [not_or] at hneither
        exact hsource ⟨by simpa using hneither.1, hneither.2⟩
  | beaconReceived fromPeerID info =>
      refine Eq.trans ?_ hidle
      simp only [step, beaconDataChanged]
      split
      · rw [seniorDatabaseStateInfoChanged]
        split
        · simp only [scheduleLogContentsRescan_eq]
          rfl
        · rfl
      · rfl
  | backOrderResult ubok opt link =>
      exact drift_backOrderResultReceived (d := p.forgetCalls.database)
  | rescan link =>
      exact Eq.trans drift_rescanUpdateLogIfNecessary hidle
  | pulse link =>
      refine Eq.trans ?_ hidle
      simp only [step, pulse]
      split
      · exact drift_rescanUpdateLogIfNecessary
      · rfl
  | backOrderRequested ubok due =>
      refine Eq.trans ?_ hidle
      simp only [step, backOrderRequested]
      split <;> rfl

/-- **Runs.**  The totals are right in all states of a run exactly when none
of its steps replaces an update that counts something. -/
theorem logAccounted_iff {db : DB} {localPeerID : ZGPeerID}
    {whichDatabase : UInt32} {maxPayloadBytesInLog : UInt64}
    {es : List (PeerEvent Msg)} :
    (∀ past, past <+: es → LogAccounted cb (Runs.run (step cb)
      (fresh cb db localPeerID whichDatabase maxPayloadBytesInLog)
      past).database) ↔
    Runs.StepsMeet (step cb) (ReplacesNoWeight cb)
      (fresh cb db localPeerID whichDatabase maxPayloadBytesInLog) es := by
  refine Runs.always_iff_stepsMeet
    (I := fun p : ZGPeerSession DB Msg => LogAccounted cb p.database)
    ⟨rfl, rfl⟩ fun p e hp => ?_
  rw [logAccounted_iff_drift] at hp ⊢
  rw [drift_step, hp, zero_add, replacesNoWeight_iff]

/-- Update 1 arrives twice, as it does when the order for a lost multicast
crosses its repetition: the log has 8 bytes in it, and the total is 16. -/
theorem heardTwice_not_logAccounted :
    ¬ LogAccounted counterCallbacks (Runs.run (step counterCallbacks)
      (fresh counterCallbacks 0 ⟨0, 1⟩ 0 100)
      [.peerHasComeOnline, .seniorPeerChanged ⟨0, 2⟩,
        .databaseUpdateRequest ⟨0, 2⟩
          (.updateJuniorDatabase (some (countUp 1))) ⟨0, 0⟩,
        .databaseUpdateRequest ⟨0, 2⟩
          (.updateJuniorDatabase (some (countUp 1))) ⟨0, 0⟩]).database := by
  decide

end ZGPeerSession

end ZgChoir
