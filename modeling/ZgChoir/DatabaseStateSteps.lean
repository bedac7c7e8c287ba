import ZgChoir.DatabaseState

/-!
# What each method of a database can do

Every invariant of this development is about the same few changes of a
`PZGDatabaseState`.  This file says once what they are.

* Each method that touches the log gets one equation, with the running
  totals left existential (`…_eq`): the fields it names are all that change.
* `updateEffect` is what an update does to a database and its checksum; the
  two `juniorExecute…` methods are characterised by it.
* `RequestStep` lists the outcomes of a senior request: refused, completed,
  or rolled back.
* `RescanMove` lists the primitive changes a rescan is made of, and
  `rescanUpdateLog_moves` says that a rescan is a chain of them.  A property
  kept by each move is kept by the rescan (`preserved_of_moves`).
-/

namespace ZgChoir

variable {DB Msg : Type} {cb : Callbacks DB Msg} {m : Master} {link : Link}

namespace PZGDatabaseState

variable {d : PZGDatabaseState DB Msg} {dbUp : PZGDatabaseUpdate Msg}

/-! ## The log -/

/-- Scheduling a rescan only raises the flag, and only on an attached
peer. -/
theorem scheduleLogContentsRescan_eq (m : Master)
    (d : PZGDatabaseState DB Msg) :
    scheduleLogContentsRescan m d =
      { d with
        rescanLogPending := d.rescanLogPending || m.iAmFullyAttached } := by
  unfold scheduleLogContentsRescan
  cases hp : d.rescanLogPending <;> cases ha : m.iAmFullyAttached <;>
    simp [← hp]

/-- Logging an update puts it in the log and schedules a rescan. -/
theorem addDatabaseUpdateToUpdateLog_eq (cb : Callbacks DB Msg) (m : Master)
    (d : PZGDatabaseState DB Msg) (dbUp : PZGDatabaseUpdate Msg) :
    ∃ bytes millis oldest,
      addDatabaseUpdateToUpdateLog cb m d dbUp =
        { d with
          updateLog := d.updateLog.put dbUp
          totalPayloadBytesInLog := bytes
          totalElapsedMillisInLog := millis
          seniorOldestIDInLog := oldest
          rescanLogPending := d.rescanLogPending || m.iAmFullyAttached } ∧
      (m.iAmTheSeniorPeer = false → oldest = d.seniorOldestIDInLog) := by
  refine ⟨_, _, _, scheduleLogContentsRescan_eq m _, fun hjunior => ?_⟩
  simp [hjunior]

/-- Unlogging an update removes its ID from the log. -/
theorem removeDatabaseUpdateFromUpdateLog_eq (cb : Callbacks DB Msg)
    (m : Master) (d : PZGDatabaseState DB Msg)
    (dbUp : PZGDatabaseUpdate Msg) :
    ∃ bytes millis oldest,
      removeDatabaseUpdateFromUpdateLog cb m d dbUp =
        { d with
          updateLog := d.updateLog.remove dbUp.updateID
          totalPayloadBytesInLog := bytes
          totalElapsedMillisInLog := millis
          seniorOldestIDInLog := oldest } ∧
      (m.iAmTheSeniorPeer = false → oldest = d.seniorOldestIDInLog) := by
  unfold removeDatabaseUpdateFromUpdateLog
  cases hget : d.updateLog.get? dbUp.updateID with
  | none =>
      refine ⟨d.totalPayloadBytesInLog, d.totalElapsedMillisInLog,
        d.seniorOldestIDInLog, ?_, fun _ => rfl⟩
      rw [OrderedTable.remove_of_get?_eq_none hget]
  | some temp => exact ⟨_, _, _, rfl, fun hjunior => by simp [hjunior]⟩

/-- Asking for a back-order changes the table of back-orders and the list of
calls. -/
theorem requestBackOrderFromSeniorPeer_eq (link : Link)
    (d : PZGDatabaseState DB Msg) (ubok : PZGUpdateBackOrderKey)
    (due : Bool) :
    ∃ orders calls,
      (requestBackOrderFromSeniorPeer link d ubok due).2 =
        { d with backorders := orders, masterCalls := calls } := by
  unfold requestBackOrderFromSeniorPeer
  split
  · exact ⟨d.backorders, d.masterCalls, rfl⟩
  · exact ⟨_, _, rfl⟩

end PZGDatabaseState

/-! ## The effect of an update -/

/-- What `JuniorExecuteDatabaseUpdateAux` does to the database and its
checksum. -/
def updateEffect (cb : Callbacks DB Msg) (dbUp : PZGDatabaseUpdate Msg)
    (db : DB) (chk : UInt32) : DB × UInt32 × Status :=
  match dbUp.updateType, dbUp.payload with
  | .noop, _ => (db, chk, .noError)
  | .reset, _ =>
      ((cb.resetLocalDatabaseToDefault db chk).1,
        (cb.resetLocalDatabaseToDefault db chk).2, .noError)
  | .replace, some msg => cb.setLocalDatabaseFromMessage db chk msg
  | .update, some msg => cb.juniorUpdateLocalDatabase db chk msg
  | .replace, none => (db, chk, .badObject)
  | .update, none => (db, chk, .badObject)
  | .unknown _, _ => (db, chk, .unimplemented)

/-- An update keeps the database in step with its checksum. -/
theorem Held.updateEffect {db : DB} {chk : UInt32} (h : Held cb db chk)
    (dbUp : PZGDatabaseUpdate Msg) :
    Held cb (updateEffect cb dbUp db chk).1
      (updateEffect cb dbUp db chk).2.1 := by
  unfold ZgChoir.updateEffect
  split
  · exact h
  · exact .reset db chk
  · exact .setFromMessage _ h
  · exact .juniorUpdate _ h
  all_goals exact h

namespace PZGDatabaseState

variable {d : PZGDatabaseState DB Msg} {dbUp : PZGDatabaseUpdate Msg}

/-- The state after `JuniorExecuteDatabaseUpdateAux`. -/
def applyEffect (cb : Callbacks DB Msg) (d : PZGDatabaseState DB Msg)
    (dbUp : PZGDatabaseUpdate Msg) : PZGDatabaseState DB Msg :=
  { d with
    seniorUpdateTimeForJuniorUpdate := dbUp.seniorStartTimeMicros
    database := (updateEffect cb dbUp d.database d.dbChecksum).1
    dbChecksum := (updateEffect cb dbUp d.database d.dbChecksum).2.1 }

theorem juniorExecuteDatabaseUpdateAux_eq :
    juniorExecuteDatabaseUpdateAux cb d dbUp =
      ((updateEffect cb dbUp d.database d.dbChecksum).2.2,
        applyEffect cb d dbUp) := by
  unfold juniorExecuteDatabaseUpdateAux applyEffect updateEffect
  cases dbUp.updateType <;> cases dbUp.payload <;> rfl

/-- `Restores cb d dbUp`: executing `dbUp` on this database succeeds and
leaves the checksum that `dbUp` promises. -/
def Restores (cb : Callbacks DB Msg) (d : PZGDatabaseState DB Msg)
    (dbUp : PZGDatabaseUpdate Msg) : Prop :=
  (updateEffect cb dbUp d.database d.dbChecksum).2.2.isOK = true ∧
    (updateEffect cb dbUp d.database d.dbChecksum).2.1 =
      dbUp.postUpdateDBChecksum

instance : Decidable (Restores cb d dbUp) :=
  inferInstanceAs (Decidable (_ ∧ _))

/-- `CanExecute cb d dbUp`: `dbUp` is the next update for this database, in
the state it wants, and its execution ends as it promises. -/
def CanExecute (cb : Callbacks DB Msg) (d : PZGDatabaseState DB Msg)
    (dbUp : PZGDatabaseUpdate Msg) : Prop :=
  d.localDatabaseStateID + 1 = dbUp.updateID ∧
    d.dbChecksum = dbUp.preUpdateDBChecksum ∧ Restores cb d dbUp

instance : Decidable (CanExecute cb d dbUp) :=
  inferInstanceAs (Decidable (_ ∧ _ ∧ _))

/-- An update that can be executed moves the database to its state. -/
theorem juniorExecuteDatabaseUpdate_of_canExecute
    (h : CanExecute cb d dbUp) :
    juniorExecuteDatabaseUpdate cb d dbUp =
      (.noError,
        { applyEffect cb d dbUp with
          localDatabaseStateID := dbUp.updateID }) := by
  obtain ⟨hid, hpre, hok, hpost⟩ := h
  have hpost : (applyEffect cb d dbUp).dbChecksum =
      dbUp.postUpdateDBChecksum := hpost
  unfold juniorExecuteDatabaseUpdate
  rw [juniorExecuteDatabaseUpdateAux_eq]
  dsimp only
  rw [if_neg (not_not_intro hid), if_neg (not_not_intro hpre),
    if_neg (by simp [hok]), if_neg (not_not_intro hpost)]

/-- An update that cannot be executed is an error.  It may have changed the
database and its checksum, and nothing else that matters. -/
theorem juniorExecuteDatabaseUpdate_of_not_canExecute
    (h : ¬ CanExecute cb d dbUp) :
    (juniorExecuteDatabaseUpdate cb d dbUp).1.isOK = false ∧
      ((juniorExecuteDatabaseUpdate cb d dbUp).2 = d ∨
        (juniorExecuteDatabaseUpdate cb d dbUp).2 =
          applyEffect cb d dbUp) := by
  unfold juniorExecuteDatabaseUpdate
  rw [juniorExecuteDatabaseUpdateAux_eq]
  dsimp only
  split_ifs with hid hpre hok hpost
  · exact ⟨rfl, .inl rfl⟩
  · exact ⟨rfl, .inl rfl⟩
  · exact ⟨hok, .inr rfl⟩
  · exact ⟨rfl, .inr rfl⟩
  · refine absurd ⟨not_not.mp hid, not_not.mp hpre, ?_, not_not.mp hpost⟩ h
    simpa using hok

/-- A replace that restores moves the database to the update's state. -/
theorem juniorExecuteDatabaseReplace_of_restores (h : Restores cb d dbUp) :
    juniorExecuteDatabaseReplace cb d dbUp =
      (.noError,
        { applyEffect cb d dbUp with
          localDatabaseStateID := dbUp.updateID }) := by
  obtain ⟨hok, hpost⟩ := h
  have hpost : (applyEffect cb d dbUp).dbChecksum =
      dbUp.postUpdateDBChecksum := hpost
  unfold juniorExecuteDatabaseReplace
  rw [juniorExecuteDatabaseUpdateAux_eq]
  dsimp only
  rw [if_neg (by simp [hok]), if_neg (not_not_intro hpost)]

/-- A replace that does not restore is an error, and leaves the database as
the callback left it. -/
theorem juniorExecuteDatabaseReplace_of_not_restores
    (h : ¬ Restores cb d dbUp) :
    (juniorExecuteDatabaseReplace cb d dbUp).1.isOK = false ∧
      (juniorExecuteDatabaseReplace cb d dbUp).2 = applyEffect cb d dbUp := by
  unfold juniorExecuteDatabaseReplace
  rw [juniorExecuteDatabaseUpdateAux_eq]
  dsimp only
  split_ifs with hok hpost
  · exact ⟨hok, rfl⟩
  · exact ⟨rfl, rfl⟩
  · exact absurd ⟨by simpa using hok, not_not.mp hpost⟩ h

/-! ## Requests on the senior peer -/

/-- The callbacks that a senior request may run, with the type under which
the update is logged. -/
inductive SeniorCall (cb : Callbacks DB Msg) :
    UpdateType → (DB → UInt32 → SeniorOutcome DB Msg) → Prop
  | reset : SeniorCall cb .reset (seniorReset cb)
  | replace (userMsg : Msg) :
      SeniorCall cb .replace (seniorReplace cb userMsg)
  | update (userMsg : Msg) : SeniorCall cb .update (seniorUpdate cb userMsg)

/-- The update as it is logged once its callback has left `chk`. -/
def finishedUpdate (d : PZGDatabaseState DB Msg) (fromPeerID : ZGPeerID)
    (updateType : UpdateType) (chk : UInt32) (time : Timing)
    (payloadMsg : Option Msg) : PZGDatabaseUpdate Msg :=
  completedUpdate { d with dbChecksum := chk }
    (newUpdate d fromPeerID updateType) time payloadMsg

@[simp] theorem newUpdate_updateID {fromPeerID : ZGPeerID}
    {updateType : UpdateType} :
    (newUpdate d fromPeerID updateType).updateID =
      d.localDatabaseStateID + 1 := rfl

@[simp] theorem finishedUpdate_updateID {fromPeerID : ZGPeerID}
    {updateType : UpdateType} {chk : UInt32} {time : Timing}
    {payloadMsg : Option Msg} :
    (finishedUpdate d fromPeerID updateType chk time payloadMsg).updateID =
      d.localDatabaseStateID + 1 := rfl

/-- The outcomes of a senior request on `d`: nothing happened, an update
was completed, or a callback failed and its update was unlogged. -/
inductive RequestStep (cb : Callbacks DB Msg) (m : Master)
    (d : PZGDatabaseState DB Msg) :
    Status × PZGDatabaseState DB Msg → Prop
  | refused (ret : Status) (hret : ret.isOK = false) :
      RequestStep cb m d (ret, d)
  | completed (fromPeerID : ZGPeerID) (updateType : UpdateType)
      (callback : DB → UInt32 → SeniorOutcome DB Msg)
      (hcall : SeniorCall cb updateType callback) (time : Timing)
      (payloadMsg : Option Msg)
      (hok : (callback d.database d.dbChecksum).2.2 = .ok payloadMsg)
      (bytes millis : UInt64) (oldest : WithTop ℕ) :
      RequestStep cb m d (.noError,
        { d with
          database := (callback d.database d.dbChecksum).1
          dbChecksum := (callback d.database d.dbChecksum).2.1
          updateLog := d.updateLog.put
            (finishedUpdate d fromPeerID updateType
              (callback d.database d.dbChecksum).2.1 time payloadMsg)
          totalPayloadBytesInLog := bytes
          totalElapsedMillisInLog := millis
          seniorOldestIDInLog := oldest
          rescanLogPending := d.rescanLogPending || m.iAmFullyAttached
          localDatabaseStateID := d.localDatabaseStateID + 1
          seniorDatabaseStateID := d.localDatabaseStateID + 1
          masterCalls := d.masterCalls ++ [.scheduleSetBeaconData] })
  | rolledBack (updateType : UpdateType)
      (callback : DB → UInt32 → SeniorOutcome DB Msg)
      (hcall : SeniorCall cb updateType callback) (ret : Status)
      (herr : (callback d.database d.dbChecksum).2.2 = .error ret)
      (hret : ret.isOK = false)
      (bytes millis : UInt64) (oldest : WithTop ℕ) :
      RequestStep cb m d (ret,
        { d with
          database := (callback d.database d.dbChecksum).1
          dbChecksum := (callback d.database d.dbChecksum).2.1
          updateLog := d.updateLog.remove (d.localDatabaseStateID + 1)
          totalPayloadBytesInLog := bytes
          totalElapsedMillisInLog := millis
          seniorOldestIDInLog := oldest
          rescanLogPending := d.rescanLogPending || m.iAmFullyAttached })

/-- A senior callback that fails names an error. -/
theorem SeniorCall.error_isOK {updateType : UpdateType}
    {callback : DB → UInt32 → SeniorOutcome DB Msg} {db : DB} {chk : UInt32}
    {ret : Status} (hcall : SeniorCall cb updateType callback)
    (herr : (callback db chk).2.2 = .error ret) : ret.isOK = false := by
  cases hcall with
  | reset => simp [seniorReset] at herr
  | replace userMsg =>
      simp only [seniorReplace] at herr
      split at herr
      · simp at herr
      · rename_i hfail
        obtain rfl : _ = ret := by simpa using herr
        simpa using hfail
  | update userMsg =>
      simp only [seniorUpdate] at herr
      split at herr
      · simp at herr
      · obtain rfl : _ = ret := by simpa using herr
        rfl

/-- A senior request whose callback succeeds. -/
theorem executeSeniorUpdate_of_ok (cb : Callbacks DB Msg) (m : Master)
    (d : PZGDatabaseState DB Msg) (fromPeerID : ZGPeerID)
    (updateType : UpdateType)
    {callback : DB → UInt32 → SeniorOutcome DB Msg} (time : Timing)
    {payloadMsg : Option Msg}
    (hok : (callback d.database d.dbChecksum).2.2 = .ok payloadMsg) :
    ∃ bytes millis oldest,
      executeSeniorUpdate cb m d fromPeerID updateType callback time =
        (.noError,
        { d with
          database := (callback d.database d.dbChecksum).1
          dbChecksum := (callback d.database d.dbChecksum).2.1
          updateLog := d.updateLog.put
            (finishedUpdate d fromPeerID updateType
              (callback d.database d.dbChecksum).2.1 time payloadMsg)
          totalPayloadBytesInLog := bytes
          totalElapsedMillisInLog := millis
          seniorOldestIDInLog := oldest
          rescanLogPending := d.rescanLogPending || m.iAmFullyAttached
          localDatabaseStateID := d.localDatabaseStateID + 1
          seniorDatabaseStateID := d.localDatabaseStateID + 1
          masterCalls := d.masterCalls ++ [.scheduleSetBeaconData] }) := by
  obtain ⟨bytes, millis, oldest, hadd, -⟩ :=
    addDatabaseUpdateToUpdateLog_eq cb m d
      (newUpdate d fromPeerID updateType)
  -- completing the update replaces the entry logged before the callback
  let logged := newUpdate d fromPeerID updateType
  let done := finishedUpdate d fromPeerID updateType
    (callback d.database d.dbChecksum).2.1 time payloadMsg
  have hput : (d.updateLog.put logged).put done = d.updateLog.put done :=
    OrderedTable.put_put rfl
  refine ⟨bytes - payloadNumBytes cb logged + payloadNumBytes cb done,
    millis - logged.seniorElapsedTimeMillis.toUInt64 +
      done.seniorElapsedTimeMillis.toUInt64, oldest, ?_⟩
  unfold executeSeniorUpdate
  dsimp only
  rw [hadd]
  dsimp only
  rw [hok, ← hput]
  rfl

/-- A senior request whose callback fails. -/
theorem executeSeniorUpdate_of_error (cb : Callbacks DB Msg) (m : Master)
    (d : PZGDatabaseState DB Msg) (fromPeerID : ZGPeerID)
    (updateType : UpdateType)
    {callback : DB → UInt32 → SeniorOutcome DB Msg} (time : Timing)
    {ret : Status}
    (herr : (callback d.database d.dbChecksum).2.2 = .error ret) :
    ∃ bytes millis oldest,
      executeSeniorUpdate cb m d fromPeerID updateType callback time =
        (ret,
        { d with
          database := (callback d.database d.dbChecksum).1
          dbChecksum := (callback d.database d.dbChecksum).2.1
          updateLog := d.updateLog.remove (d.localDatabaseStateID + 1)
          totalPayloadBytesInLog := bytes
          totalElapsedMillisInLog := millis
          seniorOldestIDInLog := oldest
          rescanLogPending := d.rescanLogPending || m.iAmFullyAttached }) := by
  obtain ⟨bytes, millis, oldest, hadd, -⟩ :=
    addDatabaseUpdateToUpdateLog_eq cb m d
      (newUpdate d fromPeerID updateType)
  obtain ⟨bytes', millis', oldest', hremove, -⟩ :=
    removeDatabaseUpdateFromUpdateLog_eq cb m
      { addDatabaseUpdateToUpdateLog cb m d
          (newUpdate d fromPeerID updateType) with
        database := (callback d.database d.dbChecksum).1
        dbChecksum := (callback d.database d.dbChecksum).2.1 }
      (newUpdate d fromPeerID updateType)
  have hlog : (d.updateLog.put (newUpdate d fromPeerID updateType)).remove
      (d.localDatabaseStateID + 1) =
      d.updateLog.remove (d.localDatabaseStateID + 1) :=
    OrderedTable.remove_put_self rfl
  refine ⟨bytes', millis', oldest', ?_⟩
  unfold executeSeniorUpdate
  dsimp only
  rw [hadd] at hremove ⊢
  dsimp only at hremove ⊢
  rw [herr]
  dsimp only
  rw [hremove, newUpdate_updateID, hlog]

/-- The three senior requests end in one of the listed ways. -/
theorem executeSeniorUpdate_step {fromPeerID : ZGPeerID}
    {updateType : UpdateType}
    {callback : DB → UInt32 → SeniorOutcome DB Msg} {time : Timing}
    (hcall : SeniorCall cb updateType callback) :
    RequestStep cb m d
      (executeSeniorUpdate cb m d fromPeerID updateType callback time) := by
  cases houtcome : (callback d.database d.dbChecksum).2.2 with
  | ok payloadMsg =>
      obtain ⟨bytes, millis, oldest, hstep⟩ :=
        executeSeniorUpdate_of_ok cb m d fromPeerID updateType time houtcome
      rw [hstep]
      exact .completed fromPeerID updateType callback hcall time payloadMsg
        houtcome bytes millis oldest
  | error ret =>
      obtain ⟨bytes, millis, oldest, hstep⟩ :=
        executeSeniorUpdate_of_error cb m d fromPeerID updateType time houtcome
      rw [hstep]
      exact .rolledBack updateType callback hcall ret houtcome
        (hcall.error_isOK houtcome) bytes millis oldest

/-- A request that is meant for the senior peer ends in one of the listed
ways; a junior update is logged, or refused when the message lacks it. -/
theorem handleDatabaseUpdateRequest_cases (fromPeerID : ZGPeerID)
    (msg : DatabaseUpdateRequest Msg) (time : Timing) :
    RequestStep cb m d
        (handleDatabaseUpdateRequest cb m d fromPeerID msg time) ∨
      ∃ dbUp, msg = .updateJuniorDatabase (some dbUp) ∧
        handleDatabaseUpdateRequest cb m d fromPeerID msg time =
          (.noError, addDatabaseUpdateToUpdateLog cb m d dbUp) := by
  cases msg with
  | resetSeniorDatabase => exact .inl (executeSeniorUpdate_step .reset)
  | replaceSeniorDatabase userMsg =>
      cases userMsg with
      | none => exact .inl (.refused .badData rfl)
      | some userMsg =>
          exact .inl (executeSeniorUpdate_step (.replace userMsg))
  | updateSeniorDatabase userMsg =>
      cases userMsg with
      | none => exact .inl (.refused .badData rfl)
      | some userMsg =>
          exact .inl (executeSeniorUpdate_step (.update userMsg))
  | updateJuniorDatabase dbUp =>
      cases dbUp with
      | none => exact .inl (.refused .unimplemented rfl)
      | some dbUp => exact .inr ⟨dbUp, rfl, rfl⟩
  | unknown what => exact .inl (.refused .unimplemented rfl)

/-! ## Rescans -/

/-- The primitive changes that a rescan is made of. -/
inductive RescanMove (cb : Callbacks DB Msg) (m : Master) (link : Link)
    (d : PZGDatabaseState DB Msg) : PZGDatabaseState DB Msg → Prop
  | mark (hjunior : m.iAmTheSeniorPeer = false) :
      RescanMove cb m link d
        { d with firstUnsentUpdateID := d.localDatabaseStateID + 1 }
  | send (dbUp : PZGDatabaseUpdate Msg)
      (hsenior : m.iAmTheSeniorPeer = true)
      (hmem : dbUp ∈ d.updateLog.entries)
      (hunsent : d.firstUnsentUpdateID ≤ dbUp.updateID) :
      RescanMove cb m link d (sendUpdate link d dbUp)
  | execute (dbUp : PZGDatabaseUpdate Msg)
      (hjunior : m.iAmTheSeniorPeer = false)
      (hmem : dbUp ∈ d.updateLog.entries)
      (hfree : isAwaitingFullDatabaseResendReply m d = false)
      (hcan : CanExecute cb d dbUp) :
      RescanMove cb m link d
        { applyEffect cb d dbUp with localDatabaseStateID := dbUp.updateID }
  | executeFails (dbUp : PZGDatabaseUpdate Msg)
      (hjunior : m.iAmTheSeniorPeer = false)
      (hmem : dbUp ∈ d.updateLog.entries)
      (hid : dbUp.updateID = d.localDatabaseStateID + 1)
      (hcan : ¬ CanExecute cb d dbUp) (failed : PZGDatabaseState DB Msg)
      (hfailed : failed = d ∨ failed = applyEffect cb d dbUp) :
      RescanMove cb m link d
        (requestFullDatabaseResendFromSeniorPeer m link failed true).2
  | order (ubok : PZGUpdateBackOrderKey)
      (hjunior : m.iAmTheSeniorPeer = false)
      (htarget : ubok.targetPeerID = m.seniorPeerID)
      (hwhich : ubok.whichDatabase = d.whichDatabase) :
      RescanMove cb m link d
        (requestBackOrderFromSeniorPeer link d ubok false).2
  | trim (first : PZGDatabaseUpdate Msg)
      (hfirst : d.updateLog.first? = some first) :
      RescanMove cb m link d (removeDatabaseUpdateFromUpdateLog cb m d first)

/-- A chain of primitive changes. -/
abbrev RescanMoves (cb : Callbacks DB Msg) (m : Master) (link : Link) :
    PZGDatabaseState DB Msg → PZGDatabaseState DB Msg → Prop :=
  Relation.ReflTransGen (RescanMove cb m link)

/-- What every primitive change keeps, every chain of them keeps. -/
theorem preserved_of_moves {P : PZGDatabaseState DB Msg → Prop}
    {d' : PZGDatabaseState DB Msg} (h : RescanMoves cb m link d d')
    (hP : P d) (hmove : ∀ a b, P a → RescanMove cb m link a b → P b) :
    P d' := by
  induction h with
  | refl => exact hP
  | tail _ hab ih => exact hmove _ _ ih hab

/-- The trimming loop only removes first entries. -/
theorem trimUpdateLog_moves
    {mayRemove : PZGDatabaseState DB Msg → ℕ → Bool} (fuel : ℕ) :
    RescanMoves cb m link d (trimUpdateLog cb m mayRemove fuel d) := by
  induction fuel generalizing d with
  | zero => exact .refl
  | succ n ih =>
      unfold trimUpdateLog
      cases hfirst : d.updateLog.first? with
      | none => exact .refl
      | some first =>
          dsimp only
          split
          · exact .head (.trim first hfirst) ih
          · exact .refl

/-- Trimming drops entries of the log and touches neither the state, nor the
mark, nor the calls. -/
theorem trimUpdateLog_frame (cb : Callbacks DB Msg) (m : Master)
    (mayRemove : PZGDatabaseState DB Msg → ℕ → Bool) (fuel : ℕ)
    (d : PZGDatabaseState DB Msg) :
    ∃ (log : UpdateLog Msg) (bytes millis : UInt64) (oldest : WithTop ℕ),
      (∀ u ∈ log.entries, u ∈ d.updateLog.entries) ∧
      trimUpdateLog cb m mayRemove fuel d =
        { d with
          updateLog := log
          totalPayloadBytesInLog := bytes
          totalElapsedMillisInLog := millis
          seniorOldestIDInLog := oldest } := by
  induction fuel generalizing d with
  | zero => exact ⟨_, _, _, _, fun _ h => h, rfl⟩
  | succ n ih =>
      unfold trimUpdateLog
      cases hfirst : d.updateLog.first? with
      | none => exact ⟨_, _, _, _, fun _ h => h, rfl⟩
      | some first =>
          dsimp only
          split
          · obtain ⟨_, _, _, hremove, -⟩ :=
              removeDatabaseUpdateFromUpdateLog_eq cb m d first
            obtain ⟨log, bytes, millis, oldest, hsub, heq⟩ :=
              ih (removeDatabaseUpdateFromUpdateLog cb m d first)
            refine ⟨log, bytes, millis, oldest, fun u hu => ?_, ?_⟩
            · have hu := hsub u hu
              rw [hremove] at hu
              exact (OrderedTable.mem_remove.mp hu).1
            · rw [heq, hremove]
          · exact ⟨_, _, _, _, fun _ h => h, rfl⟩

/-- The forwards walk only sends logged updates. -/
theorem sendUnsentUpdates_moves (hsenior : m.iAmTheSeniorPeer = true)
    (walk : List (PZGDatabaseUpdate Msg))
    (hwalk : ∀ dbUp ∈ walk, dbUp ∈ d.updateLog.entries) :
    RescanMoves cb m link d (sendUnsentUpdates link walk d) := by
  induction walk generalizing d with
  | nil => exact .refl
  | cons dbUp newer ih =>
      unfold sendUnsentUpdates
      have hnewer : ∀ u ∈ newer, u ∈ d.updateLog.entries := fun u hu =>
        hwalk u (List.mem_cons_of_mem dbUp hu)
      split
      · rename_i hunsent
        exact .head (.send dbUp hsenior (hwalk dbUp List.mem_cons_self)
          hunsent) (ih hnewer)
      · exact ih hnewer

/-- The walk from the turning point is the end of the log. -/
theorem entriesFromTurn_suffix {firstUnsentUpdateID oldestUpdateID : ℕ}
    {backwards walked : List (PZGDatabaseUpdate Msg)} :
    entriesFromTurn firstUnsentUpdateID oldestUpdateID backwards walked <:+
      backwards.reverse ++ walked := by
  induction backwards generalizing walked with
  | nil => exact List.suffix_rfl
  | cons u older ih =>
      unfold entriesFromTurn
      rw [List.reverse_cons, List.append_assoc, List.singleton_append]
      split
      · exact List.suffix_append older.reverse (u :: walked)
      · exact ih

theorem rescanUpdateLogAsSenior_moves
    (hsenior : m.iAmTheSeniorPeer = true) :
    RescanMoves cb m link d (rescanUpdateLogAsSenior cb m link d) := by
  unfold rescanUpdateLogAsSenior
  cases hfirst : d.updateLog.first? with
  | none => exact .refl
  | some oldest =>
      refine .trans (sendUnsentUpdates_moves hsenior _ ?_)
        (trimUpdateLog_moves _)
      intro dbUp hmem
      simpa using entriesFromTurn_suffix.mem hmem

/-- Placing the orders for missing updates is a chain of orders. -/
theorem orderMissingUpdates_moves (cb : Callbacks DB Msg)
    (hjunior : m.iAmTheSeniorPeer = false) (ids : List ℕ) :
    RescanMoves cb m link d (orderMissingUpdates m link ids d) := by
  induction ids generalizing d with
  | nil => exact .refl
  | cons updateID rest ih =>
      unfold orderMissingUpdates
      dsimp only
      split_ifs with hlogged hordered hok
      · exact ih
      · exact ih
      · exact .head (.order _ hjunior rfl rfl) ih
      · exact .head (.order _ hjunior rfl rfl)
          (.single (.order _ hjunior rfl rfl))

theorem handleMissingUpdate_moves (hjunior : m.iAmTheSeniorPeer = false)
    {target : ℕ} :
    RescanMoves cb m link d (handleMissingUpdate m link target d) := by
  unfold handleMissingUpdate
  dsimp only
  split_ifs with hinvalid hold
  · exact .refl
  · exact .single (.order _ hjunior rfl rfl)
  · exact orderMissingUpdates_moves cb hjunior _

/-- The replay loop executes logged updates one after another, and ends with
an order or with nothing left to do. -/
theorem replayUpdateLog_moves (hjunior : m.iAmTheSeniorPeer = false)
    {target : ℕ} (fuel : ℕ)
    (hfree : isAwaitingFullDatabaseResendReply m d = false) :
    RescanMoves cb m link d
      (replayUpdateLog cb m link target fuel d) := by
  induction fuel generalizing d with
  | zero => exact .refl
  | succ n ih =>
      unfold replayUpdateLog
      split
      · cases hget : d.updateLog.get? (d.localDatabaseStateID + 1) with
        | none => exact handleMissingUpdate_moves hjunior
        | some dbUp =>
            obtain ⟨hmem, hid⟩ := OrderedTable.get?_eq_some.mp hget
            dsimp only
            by_cases hcan : CanExecute cb d dbUp
            · rw [juniorExecuteDatabaseUpdate_of_canExecute hcan]
              exact .head (.execute dbUp hjunior hmem hfree hcan) (ih hfree)
            · obtain ⟨herr, hfailed⟩ :=
                juniorExecuteDatabaseUpdate_of_not_canExecute hcan
              rw [if_neg (by simp [herr])]
              exact .single
                (.executeFails dbUp hjunior hmem hid hcan _ hfailed)
      · exact .refl

theorem advanceJuniorDatabase_moves (hjunior : m.iAmTheSeniorPeer = false) :
    RescanMoves cb m link d (advanceJuniorDatabase cb m link d) := by
  unfold advanceJuniorDatabase
  dsimp only
  split_ifs with hawaiting hnew
  · exact .refl
  · exact .single (.order _ hjunior rfl rfl)
  · exact replayUpdateLog_moves hjunior _ (by simpa using hawaiting)

/-- **A rescan is a chain of primitive changes.** -/
theorem rescanUpdateLog_moves (cb : Callbacks DB Msg) (m : Master)
    (link : Link) (d : PZGDatabaseState DB Msg) :
    RescanMoves cb m link d (rescanUpdateLog cb m link d) := by
  unfold rescanUpdateLog
  split
  · exact rescanUpdateLogAsSenior_moves ‹_›
  · rename_i hnot
    have hjunior : m.iAmTheSeniorPeer = false := by simpa using hnot
    unfold rescanUpdateLogAsJunior
    split
    · exact .head (.mark hjunior)
        (.trans (advanceJuniorDatabase_moves hjunior)
          (trimUpdateLog_moves _))
    · exact .refl

/-! ## Replies to back-orders -/

/-- What a reply to the back-order `ubok` can do.  Only the last five
outcomes concern a junior peer and its current senior. -/
inductive BackOrderStep (cb : Callbacks DB Msg) (m : Master) (link : Link)
    (d : PZGDatabaseState DB Msg) (ubok : PZGUpdateBackOrderKey) :
    Option (PZGDatabaseUpdate Msg) → PZGDatabaseState DB Msg → Prop
  | ignored (opt : Option (PZGDatabaseUpdate Msg))
      (hnot : ubok ∉ d.backorders) : BackOrderStep cb m link d ubok opt d
  | dropped (opt : Option (PZGDatabaseUpdate Msg))
      (hmem : ubok ∈ d.backorders)
      (hother : ¬ (ubok.targetPeerID = m.seniorPeerID ∧
        m.iAmTheSeniorPeer = false)) :
      BackOrderStep cb m link d ubok opt (withoutBackOrder d ubok)
  | replaced (dbUp : PZGDatabaseUpdate Msg) (hmem : ubok ∈ d.backorders)
      (htarget : ubok.targetPeerID = m.seniorPeerID)
      (hjunior : m.iAmTheSeniorPeer = false)
      (hfull : ubok.databaseUpdateID = databaseUpdateIDFullUpdate)
      (hrestores : Restores cb d dbUp) :
      BackOrderStep cb m link d ubok (some dbUp)
        { applyEffect cb (withoutBackOrder d ubok) dbUp with
          localDatabaseStateID := dbUp.updateID
          rescanLogPending := d.rescanLogPending || m.iAmFullyAttached }
  | replaceFailed (dbUp : PZGDatabaseUpdate Msg)
      (hmem : ubok ∈ d.backorders)
      (htarget : ubok.targetPeerID = m.seniorPeerID)
      (hjunior : m.iAmTheSeniorPeer = false)
      (hfull : ubok.databaseUpdateID = databaseUpdateIDFullUpdate)
      (hrestores : ¬ Restores cb d dbUp) :
      BackOrderStep cb m link d ubok (some dbUp)
        (applyEffect cb (withoutBackOrder d ubok) dbUp)
  | fullMissing (hmem : ubok ∈ d.backorders)
      (htarget : ubok.targetPeerID = m.seniorPeerID)
      (hjunior : m.iAmTheSeniorPeer = false)
      (hfull : ubok.databaseUpdateID = databaseUpdateIDFullUpdate) :
      BackOrderStep cb m link d ubok none (withoutBackOrder d ubok)
  | logged (dbUp : PZGDatabaseUpdate Msg) (hmem : ubok ∈ d.backorders)
      (htarget : ubok.targetPeerID = m.seniorPeerID)
      (hjunior : m.iAmTheSeniorPeer = false)
      (hsingle : ubok.databaseUpdateID ≠ databaseUpdateIDFullUpdate)
      (bytes millis : UInt64) :
      BackOrderStep cb m link d ubok (some dbUp)
        { withoutBackOrder d ubok with
          updateLog := d.updateLog.put dbUp
          totalPayloadBytesInLog := bytes
          totalElapsedMillisInLog := millis
          rescanLogPending := d.rescanLogPending || m.iAmFullyAttached }
  | singleMissing (hmem : ubok ∈ d.backorders)
      (htarget : ubok.targetPeerID = m.seniorPeerID)
      (hjunior : m.iAmTheSeniorPeer = false)
      (hsingle : ubok.databaseUpdateID ≠ databaseUpdateIDFullUpdate) :
      BackOrderStep cb m link d ubok none
        (requestFullDatabaseResendFromSeniorPeer m link
          (withoutBackOrder d ubok) false).2

/-- A reply to a back-order ends in one of the listed ways. -/
theorem backOrderResultReceived_step (cb : Callbacks DB Msg) (m : Master)
    (link : Link) (d : PZGDatabaseState DB Msg)
    (ubok : PZGUpdateBackOrderKey)
    (opt : Option (PZGDatabaseUpdate Msg)) :
    BackOrderStep cb m link d ubok opt
      (backOrderResultReceived cb m link d ubok opt) := by
  unfold backOrderResultReceived
  split_ifs with hmem hmine hfull
  · obtain ⟨htarget, hjunior⟩ := hmine
    cases opt with
    | none => exact .fullMissing hmem htarget hjunior hfull
    | some dbUp =>
        dsimp only
        by_cases hrestores : Restores cb d dbUp
        · have hreplace : juniorExecuteDatabaseReplace cb
              (withoutBackOrder d ubok) dbUp = _ :=
            juniorExecuteDatabaseReplace_of_restores hrestores
          rw [hreplace, if_pos Status.isOK_noError,
            scheduleLogContentsRescan_eq]
          exact .replaced dbUp hmem htarget hjunior hfull hrestores
        · have hreplace : (juniorExecuteDatabaseReplace cb
              (withoutBackOrder d ubok) dbUp).1.isOK = false ∧ _ :=
            juniorExecuteDatabaseReplace_of_not_restores hrestores
          rw [if_neg (by simp [hreplace.1]), hreplace.2]
          exact .replaceFailed dbUp hmem htarget hjunior hfull hrestores
  · obtain ⟨htarget, hjunior⟩ := hmine
    cases opt with
    | none => exact .singleMissing hmem htarget hjunior hfull
    | some dbUp =>
        obtain ⟨bytes, millis, oldest, hadd, holdest⟩ :=
          addDatabaseUpdateToUpdateLog_eq cb m (withoutBackOrder d ubok) dbUp
        dsimp only
        rw [hadd, scheduleLogContentsRescan_eq, holdest hjunior]
        dsimp only
        rw [Bool.or_assoc, Bool.or_self]
        exact .logged dbUp hmem htarget hjunior hfull bytes millis
  · exact .dropped opt hmem hmine
  · exact .ignored opt hmem

end PZGDatabaseState

end ZgChoir
