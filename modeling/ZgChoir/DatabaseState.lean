import ZgChoir.Callbacks

/-!
# One replicated database on one peer

`PZGDatabaseState` is the same object on every peer.  On the senior peer it
executes requests, logs each executed update and multicasts what it has
logged; on a junior peer it logs the updates it hears of and replays them in
order, ordering from the senior what it has missed.

Every method of the class is a function of the state here.  What a method
asks of its surroundings comes in as a value: `Master` is what the peer
session answers, `Link` is the outcome of each send, `Timing` is what the
clocks said.  What a method does to its surroundings is appended to
`masterCalls`.  Logging and failed memory allocation are left out.
-/

namespace ZgChoir

variable {DB Msg : Type}

/-- What the peer session tells its databases about itself. -/
structure Master where
  localPeerID : ZGPeerID
  seniorPeerID : ZGPeerID
  iAmFullyAttached : Bool
  deriving DecidableEq

/-- `ZGPeerSession::IAmTheSeniorPeer`. -/
def Master.iAmTheSeniorPeer (m : Master) : Bool :=
  decide (m.seniorPeerID = m.localPeerID)

/-- The outcome of each send that one event may try. -/
structure Link where
  multicastStatus : ℕ → Status
  backOrderStatus : PZGUpdateBackOrderKey → Status

/-- The link on which every send succeeds. -/
def Link.up : Link := ⟨fun _ => .noError, fun _ => .noError⟩

/-- When a senior update started, on the network clock, and how long it
took. -/
structure Timing where
  startNetworkTimeMicros : UInt64
  elapsedMicros : UInt64
  deriving DecidableEq

/-- A call that a database made on its peer session. -/
inductive MasterCall (Msg : Type) where
  | sendDatabaseUpdateViaMulticast (dbUp : PZGDatabaseUpdate Msg)
      (ret : Status)
  | requestBackOrderFromSeniorPeer (ubok : PZGUpdateBackOrderKey)
      (dueToChecksumError : Bool) (ret : Status)
  | scheduleSetBeaconData
  deriving DecidableEq

/-- A request to a database, by the `what`-code of its message. -/
inductive DatabaseUpdateRequest (Msg : Type) where
  | resetSeniorDatabase
  | replaceSeniorDatabase (userMsg : Option Msg)
  | updateSeniorDatabase (userMsg : Option Msg)
  | updateJuniorDatabase (dbUp : Option (PZGDatabaseUpdate Msg))
  | unknown (what : UInt32)
  deriving DecidableEq

/-- The state of one database.  `database` is what the user's callbacks act
on; the other fields are the members of the class. -/
structure PZGDatabaseState (DB Msg : Type) where
  whichDatabase : UInt32
  maxPayloadBytesInLog : UInt64
  database : DB
  updateLog : UpdateLog Msg
  totalPayloadBytesInLog : UInt64
  totalElapsedMillisInLog : UInt64
  localDatabaseStateID : ℕ
  seniorDatabaseStateID : ℕ
  seniorOldestIDInLog : WithTop ℕ
  seniorDatabaseStateReceived : Bool
  dbChecksum : UInt32
  firstUnsentUpdateID : ℕ
  rescanLogPending : Bool
  backorders : List PZGUpdateBackOrderKey
  seniorUpdateTimeForJuniorUpdate : UInt64
  masterCalls : List (MasterCall Msg)

namespace PZGDatabaseState

/-- The constructor and `SetParameters`, followed by the
`ResetLocalDatabaseToDefaultState` that `AttachedToServer` does. -/
def fresh (cb : Callbacks DB Msg) (db : DB) (whichDatabase : UInt32)
    (maxPayloadBytesInLog : UInt64) : PZGDatabaseState DB Msg where
  whichDatabase := whichDatabase
  maxPayloadBytesInLog := maxPayloadBytesInLog
  database := (cb.resetLocalDatabaseToDefault db 0).1
  updateLog := .empty
  totalPayloadBytesInLog := 0
  totalElapsedMillisInLog := 0
  localDatabaseStateID := 0
  seniorDatabaseStateID := 0
  seniorOldestIDInLog := ⊤
  seniorDatabaseStateReceived := false
  dbChecksum := (cb.resetLocalDatabaseToDefault db 0).2
  firstUnsentUpdateID := 0
  rescanLogPending := false
  backorders := []
  seniorUpdateTimeForJuniorUpdate := 0
  masterCalls := []

/-- `GetPayloadBuffer()->GetNumBytes()`, 0 when there is no payload. -/
def payloadNumBytes (cb : Callbacks DB Msg) (dbUp : PZGDatabaseUpdate Msg) :
    UInt64 :=
  match dbUp.payload with
  | some msg => cb.payloadNumBytes msg
  | none => 0

/-! ## The update log -/

/-- `ScheduleLogContentsRescan`: does nothing until the peer is fully
attached. -/
def scheduleLogContentsRescan (m : Master) (d : PZGDatabaseState DB Msg) :
    PZGDatabaseState DB Msg :=
  if d.rescanLogPending = false ∧ m.iAmFullyAttached then
    { d with rescanLogPending := true }
  else d

/-- `AddDatabaseUpdateToUpdateLog`.  An update already logged under the same
ID is replaced, and its bytes and milliseconds stay in the totals. -/
def addDatabaseUpdateToUpdateLog (cb : Callbacks DB Msg) (m : Master)
    (d : PZGDatabaseState DB Msg) (dbUp : PZGDatabaseUpdate Msg) :
    PZGDatabaseState DB Msg :=
  scheduleLogContentsRescan m
    { d with
      updateLog := d.updateLog.put dbUp
      totalPayloadBytesInLog :=
        d.totalPayloadBytesInLog + payloadNumBytes cb dbUp
      totalElapsedMillisInLog :=
        d.totalElapsedMillisInLog + dbUp.seniorElapsedTimeMillis.toUInt64
      seniorOldestIDInLog :=
        if d.updateLog.size = 0 ∧ m.iAmTheSeniorPeer then dbUp.updateID
        else d.seniorOldestIDInLog }

/-- `RemoveDatabaseUpdateFromUpdateLog`: whatever is logged under the ID of
`dbUp` goes. -/
def removeDatabaseUpdateFromUpdateLog (cb : Callbacks DB Msg) (m : Master)
    (d : PZGDatabaseState DB Msg) (dbUp : PZGDatabaseUpdate Msg) :
    PZGDatabaseState DB Msg :=
  match d.updateLog.get? dbUp.updateID with
  | some temp =>
      { d with
        updateLog := d.updateLog.remove dbUp.updateID
        totalPayloadBytesInLog :=
          d.totalPayloadBytesInLog - payloadNumBytes cb temp
        totalElapsedMillisInLog :=
          d.totalElapsedMillisInLog - temp.seniorElapsedTimeMillis.toUInt64
        seniorOldestIDInLog :=
          if (d.updateLog.remove dbUp.updateID).size = 0 ∧
              m.iAmTheSeniorPeer then ⊤
          else d.seniorOldestIDInLog }
  | none => d

/-! ## Executing a request on the senior peer -/

/-- What `SeniorUpdateCompleted` writes into the update it completes. -/
def completedUpdate (d : PZGDatabaseState DB Msg)
    (dbUp : PZGDatabaseUpdate Msg) (time : Timing)
    (payloadMsg : Option Msg) : PZGDatabaseUpdate Msg :=
  { dbUp with
    seniorStartTimeMicros := time.startNetworkTimeMicros
    seniorElapsedTimeMillis := elapsedMillisOfMicros time.elapsedMicros
    postUpdateDBChecksum := d.dbChecksum
    payload := payloadMsg }

/-- `SeniorUpdateCompleted`.  The update is completed in place: the log
holds the same object.  Where the payload is the one the update already
had, the code skips the two byte adjustments, which cancel. -/
def seniorUpdateCompleted (cb : Callbacks DB Msg)
    (d : PZGDatabaseState DB Msg) (dbUp : PZGDatabaseUpdate Msg)
    (time : Timing) (payloadMsg : Option Msg) : PZGDatabaseState DB Msg :=
  let done := completedUpdate d dbUp time payloadMsg
  { d with
    updateLog := d.updateLog.put done
    totalElapsedMillisInLog :=
      d.totalElapsedMillisInLog - dbUp.seniorElapsedTimeMillis.toUInt64 +
        done.seniorElapsedTimeMillis.toUInt64
    totalPayloadBytesInLog :=
      d.totalPayloadBytesInLog - payloadNumBytes cb dbUp +
        payloadNumBytes cb done
    localDatabaseStateID := d.localDatabaseStateID + 1
    seniorDatabaseStateID := d.localDatabaseStateID + 1
    masterCalls := d.masterCalls ++ [.scheduleSetBeaconData] }

/-- The outcome of a senior callback: the payload to log, or an error. -/
abbrev SeniorOutcome (DB Msg : Type) : Type :=
  DB × UInt32 × Except Status (Option Msg)

/-- The `ResetLocalDatabaseToDefault` of a RESET request: it cannot fail. -/
def seniorReset (cb : Callbacks DB Msg) (db : DB) (chk : UInt32) :
    SeniorOutcome DB Msg :=
  let r := cb.resetLocalDatabaseToDefault db chk
  (r.1, r.2, .ok none)

/-- The `SetLocalDatabaseFromMessage` of a REPLACE request. -/
def seniorReplace (cb : Callbacks DB Msg) (userMsg : Msg) (db : DB)
    (chk : UInt32) : SeniorOutcome DB Msg :=
  let r := cb.setLocalDatabaseFromMessage db chk userMsg
  (r.1, r.2.1, if r.2.2.isOK then .ok (some userMsg) else .error r.2.2)

/-- The `SeniorUpdateLocalDatabase` of an UPDATE request. -/
def seniorUpdate (cb : Callbacks DB Msg) (userMsg : Msg) (db : DB)
    (chk : UInt32) : SeniorOutcome DB Msg :=
  let r := cb.seniorUpdateLocalDatabase db chk userMsg
  (r.1, r.2.1,
    match r.2.2 with
    | some juniorMsg => .ok (some juniorMsg)
    | none => .error .logicError)

/-- The update that a senior request makes, before its callback has run. -/
def newUpdate (d : PZGDatabaseState DB Msg) (fromPeerID : ZGPeerID)
    (updateType : UpdateType) : PZGDatabaseUpdate Msg :=
  getPZGDatabaseUpdateFromPool updateType d.whichDatabase.toUInt16
    (d.localDatabaseStateID + 1) fromPeerID d.dbChecksum

/-- What the three senior requests have in common: log an update that is not
complete yet, run the callback, then complete the update or take it out of
the log again. -/
def executeSeniorUpdate (cb : Callbacks DB Msg) (m : Master)
    (d : PZGDatabaseState DB Msg) (fromPeerID : ZGPeerID)
    (updateType : UpdateType) (callback : DB → UInt32 → SeniorOutcome DB Msg)
    (time : Timing) : Status × PZGDatabaseState DB Msg :=
  let dbUp := newUpdate d fromPeerID updateType
  let logged := addDatabaseUpdateToUpdateLog cb m d dbUp
  let r := callback logged.database logged.dbChecksum
  let called := { logged with database := r.1, dbChecksum := r.2.1 }
  match r.2.2 with
  | .ok payloadMsg =>
      (.noError, seniorUpdateCompleted cb called dbUp time payloadMsg)
  | .error ret =>
      (ret, removeDatabaseUpdateFromUpdateLog cb m called dbUp)

/-- `HandleDatabaseUpdateRequest`. -/
def handleDatabaseUpdateRequest (cb : Callbacks DB Msg) (m : Master)
    (d : PZGDatabaseState DB Msg) (fromPeerID : ZGPeerID)
    (msg : DatabaseUpdateRequest Msg) (time : Timing) :
    Status × PZGDatabaseState DB Msg :=
  match msg with
  | .resetSeniorDatabase =>
      executeSeniorUpdate cb m d fromPeerID .reset (seniorReset cb) time
  | .replaceSeniorDatabase none => (.badData, d)
  | .replaceSeniorDatabase (some userMsg) =>
      executeSeniorUpdate cb m d fromPeerID .replace
        (seniorReplace cb userMsg) time
  | .updateSeniorDatabase none => (.badData, d)
  | .updateSeniorDatabase (some userMsg) =>
      executeSeniorUpdate cb m d fromPeerID .update
        (seniorUpdate cb userMsg) time
  | .updateJuniorDatabase (some dbUp) =>
      (.noError, addDatabaseUpdateToUpdateLog cb m d dbUp)
  | .updateJuniorDatabase none => (.unimplemented, d)
  | .unknown _ => (.unimplemented, d)

/-! ## Back-orders -/

/-- `PZGDatabaseState::RequestBackOrderFromSeniorPeer`: the key is taken out
of the table again when the peer session refuses the request. -/
def requestBackOrderFromSeniorPeer (link : Link)
    (d : PZGDatabaseState DB Msg) (ubok : PZGUpdateBackOrderKey)
    (dueToChecksumError : Bool) : Status × PZGDatabaseState DB Msg :=
  if ubok ∈ d.backorders then (.noError, d)
  else
    let ret := link.backOrderStatus ubok
    (ret,
      { d with
        backorders :=
          if ret.isOK then d.backorders ++ [ubok] else d.backorders
        masterCalls := d.masterCalls ++
          [.requestBackOrderFromSeniorPeer ubok dueToChecksumError ret] })

/-- The key of the back-order for the whole database. -/
def fullDatabaseKey (m : Master) (d : PZGDatabaseState DB Msg) :
    PZGUpdateBackOrderKey :=
  ⟨m.seniorPeerID, d.whichDatabase, databaseUpdateIDFullUpdate⟩

/-- `RequestFullDatabaseResendFromSeniorPeer`. -/
def requestFullDatabaseResendFromSeniorPeer (m : Master) (link : Link)
    (d : PZGDatabaseState DB Msg) (dueToChecksumError : Bool) :
    Status × PZGDatabaseState DB Msg :=
  requestBackOrderFromSeniorPeer link d (fullDatabaseKey m d)
    dueToChecksumError

/-- `IsAwaitingFullDatabaseResendReply`. -/
def isAwaitingFullDatabaseResendReply (m : Master)
    (d : PZGDatabaseState DB Msg) : Bool :=
  decide (fullDatabaseKey m d ∈ d.backorders)

/-- `GetTargetDatabaseStateID`: the last key of the log (0 when it is empty)
or the senior's state, whichever is larger. -/
def getTargetDatabaseStateID (d : PZGDatabaseState DB Msg) : ℕ :=
  max ((d.updateLog.last?.map (·.updateID)).getD 0) d.seniorDatabaseStateID

/-- `IsDatabaseUpdateStillNeededToAdvanceJuniorPeerState`. -/
def isDatabaseUpdateStillNeeded (m : Master) (d : PZGDatabaseState DB Msg)
    (databaseUpdateID : ℕ) : Bool :=
  if databaseUpdateID ≤ d.localDatabaseStateID then false
  else if getTargetDatabaseStateID d < databaseUpdateID then false
  else if isAwaitingFullDatabaseResendReply m d then false
  else true

/-! ## Executing an update on a junior peer -/

/-- `JuniorExecuteDatabaseUpdateAux`. -/
def juniorExecuteDatabaseUpdateAux (cb : Callbacks DB Msg)
    (d : PZGDatabaseState DB Msg) (dbUp : PZGDatabaseUpdate Msg) :
    Status × PZGDatabaseState DB Msg :=
  let d :=
    { d with seniorUpdateTimeForJuniorUpdate := dbUp.seniorStartTimeMicros }
  match dbUp.updateType with
  | .noop => (.noError, d)
  | .reset =>
      let r := cb.resetLocalDatabaseToDefault d.database d.dbChecksum
      (.noError, { d with database := r.1, dbChecksum := r.2 })
  | .replace =>
      match dbUp.payload with
      | none => (.badObject, d)
      | some userDBStateMsg =>
          let r := cb.setLocalDatabaseFromMessage d.database d.dbChecksum
            userDBStateMsg
          (r.2.2, { d with database := r.1, dbChecksum := r.2.1 })
  | .update =>
      match dbUp.payload with
      | none => (.badObject, d)
      | some userDBUpdateMsg =>
          let r := cb.juniorUpdateLocalDatabase d.database d.dbChecksum
            userDBUpdateMsg
          (r.2.2, { d with database := r.1, dbChecksum := r.2.1 })
  | .unknown _ => (.unimplemented, d)

/-- `JuniorExecuteDatabaseUpdate`.  When the callback fails or leaves the
wrong checksum the database has been changed, but not the state ID. -/
def juniorExecuteDatabaseUpdate (cb : Callbacks DB Msg)
    (d : PZGDatabaseState DB Msg) (dbUp : PZGDatabaseUpdate Msg) :
    Status × PZGDatabaseState DB Msg :=
  if d.localDatabaseStateID + 1 ≠ dbUp.updateID then (.badObject, d)
  else if d.dbChecksum ≠ dbUp.preUpdateDBChecksum then (.badObject, d)
  else
    let r := juniorExecuteDatabaseUpdateAux cb d dbUp
    if r.1.isOK = false then r
    else if r.2.dbChecksum ≠ dbUp.postUpdateDBChecksum then
      (.badObject, r.2)
    else (.noError, { r.2 with localDatabaseStateID := dbUp.updateID })

/-- `JuniorExecuteDatabaseReplace`. -/
def juniorExecuteDatabaseReplace (cb : Callbacks DB Msg)
    (d : PZGDatabaseState DB Msg) (dbUp : PZGDatabaseUpdate Msg) :
    Status × PZGDatabaseState DB Msg :=
  let r := juniorExecuteDatabaseUpdateAux cb d dbUp
  if r.1.isOK = false then r
  else if r.2.dbChecksum ≠ dbUp.postUpdateDBChecksum then (.badObject, r.2)
  else (.noError, { r.2 with localDatabaseStateID := dbUp.updateID })

/-! ## Rescanning the log -/

/-- The backwards walk of the senior's rescan: step back over the log until
an update already sent, or the oldest one, and turn round there. -/
def entriesFromTurn (firstUnsentUpdateID oldestUpdateID : ℕ) :
    List (PZGDatabaseUpdate Msg) → List (PZGDatabaseUpdate Msg) →
      List (PZGDatabaseUpdate Msg)
  | [], walked => walked
  | dbUp :: older, walked =>
      if dbUp.updateID ≤ firstUnsentUpdateID ∨
          dbUp.updateID = oldestUpdateID then dbUp :: walked
      else entriesFromTurn firstUnsentUpdateID oldestUpdateID older
        (dbUp :: walked)

/-- `SendDatabaseUpdateViaMulticast`, and the mark that a success moves. -/
def sendUpdate (link : Link) (d : PZGDatabaseState DB Msg)
    (dbUp : PZGDatabaseUpdate Msg) : PZGDatabaseState DB Msg :=
  let ret := link.multicastStatus dbUp.updateID
  { d with
    firstUnsentUpdateID :=
      if ret.isOK then dbUp.updateID + 1 else d.firstUnsentUpdateID
    masterCalls :=
      d.masterCalls ++ [.sendDatabaseUpdateViaMulticast dbUp ret] }

/-- The forwards walk: send every update that has not been sent. -/
def sendUnsentUpdates (link : Link) :
    List (PZGDatabaseUpdate Msg) → PZGDatabaseState DB Msg →
      PZGDatabaseState DB Msg
  | [], d => d
  | dbUp :: newer, d =>
      if d.firstUnsentUpdateID ≤ dbUp.updateID then
        sendUnsentUpdates link newer (sendUpdate link d dbUp)
      else sendUnsentUpdates link newer d

/-- The trimming loop that ends both rescans: while the log is over its
budget and holds more than one update, the oldest one goes if `mayRemove`
lets it. -/
def trimUpdateLog (cb : Callbacks DB Msg) (m : Master)
    (mayRemove : PZGDatabaseState DB Msg → ℕ → Bool) :
    ℕ → PZGDatabaseState DB Msg → PZGDatabaseState DB Msg
  | 0, d => d
  | fuel + 1, d =>
      match d.updateLog.first? with
      | some first =>
          if d.maxPayloadBytesInLog < d.totalPayloadBytesInLog ∧
              1 < d.updateLog.size ∧ mayRemove d first.updateID then
            trimUpdateLog cb m mayRemove fuel
              (removeDatabaseUpdateFromUpdateLog cb m d first)
          else d
      | none => d

/-- The senior branch of `RescanUpdateLog`. -/
def rescanUpdateLogAsSenior (cb : Callbacks DB Msg) (m : Master)
    (link : Link) (d : PZGDatabaseState DB Msg) : PZGDatabaseState DB Msg :=
  match d.updateLog.first? with
  | none => d
  | some oldest =>
      let sent := sendUnsentUpdates link
        (entriesFromTurn d.firstUnsentUpdateID oldest.updateID
          d.updateLog.entries.reverse []) d
      trimUpdateLog cb m (fun _ _ => true) sent.updateLog.size sent

/-- The innermost loop of the junior's rescan: put every missing update on
back-order, falling back to the full database when an order is refused. -/
def orderMissingUpdates (m : Master) (link : Link) :
    List ℕ → PZGDatabaseState DB Msg → PZGDatabaseState DB Msg
  | [], d => d
  | updateID :: rest, d =>
      let ubok : PZGUpdateBackOrderKey :=
        ⟨m.seniorPeerID, d.whichDatabase, updateID⟩
      if d.updateLog.containsKey updateID then
        orderMissingUpdates m link rest d
      else if ubok ∈ d.backorders then orderMissingUpdates m link rest d
      else
        let r := requestBackOrderFromSeniorPeer link d ubok false
        if r.1.isOK then orderMissingUpdates m link rest r.2
        else (requestFullDatabaseResendFromSeniorPeer m link r.2 false).2

/-- What the junior's rescan does when the update it needs next is not in
its log. -/
def handleMissingUpdate (m : Master) (link : Link)
    (targetDatabaseStateID : ℕ) (d : PZGDatabaseState DB Msg) :
    PZGDatabaseState DB Msg :=
  let nextStateID := d.localDatabaseStateID + 1
  if m.seniorPeerID.isValid = false then d
  else if (nextStateID : WithTop ℕ) < d.seniorOldestIDInLog then
    (requestFullDatabaseResendFromSeniorPeer m link d false).2
  else
    orderMissingUpdates m link
      (List.range' nextStateID (targetDatabaseStateID + 1 - nextStateID)) d

/-- The loop of the junior's rescan.  An iteration that does not leave the
loop moves the database one state forward, so `target - local` iterations
are enough. -/
def replayUpdateLog (cb : Callbacks DB Msg) (m : Master) (link : Link)
    (targetDatabaseStateID : ℕ) :
    ℕ → PZGDatabaseState DB Msg → PZGDatabaseState DB Msg
  | 0, d => d
  | fuel + 1, d =>
      if d.localDatabaseStateID < targetDatabaseStateID then
        match d.updateLog.get? (d.localDatabaseStateID + 1) with
        | some dbUp =>
            let r := juniorExecuteDatabaseUpdate cb d dbUp
            if r.1.isOK then
              replayUpdateLog cb m link targetDatabaseStateID fuel r.2
            else (requestFullDatabaseResendFromSeniorPeer m link r.2 true).2
        | none => handleMissingUpdate m link targetDatabaseStateID d
      else d

/-- The part of the junior's rescan that moves the database forward. -/
def advanceJuniorDatabase (cb : Callbacks DB Msg) (m : Master) (link : Link)
    (d : PZGDatabaseState DB Msg) : PZGDatabaseState DB Msg :=
  if isAwaitingFullDatabaseResendReply m d then d
  else
    let targetDatabaseStateID := getTargetDatabaseStateID d
    if d.localDatabaseStateID = 0 ∧ 1 < targetDatabaseStateID then
      (requestFullDatabaseResendFromSeniorPeer m link d false).2
    else
      replayUpdateLog cb m link targetDatabaseStateID
        (targetDatabaseStateID - d.localDatabaseStateID) d

/-- The junior branch of `RescanUpdateLog`. -/
def rescanUpdateLogAsJunior (cb : Callbacks DB Msg) (m : Master)
    (link : Link) (d : PZGDatabaseState DB Msg) : PZGDatabaseState DB Msg :=
  if d.seniorDatabaseStateReceived then
    let marked := { d with firstUnsentUpdateID := d.localDatabaseStateID + 1 }
    let advanced := advanceJuniorDatabase cb m link marked
    trimUpdateLog cb m (fun d id => !isDatabaseUpdateStillNeeded m d id)
      advanced.updateLog.size advanced
  else d

/-- `RescanUpdateLog`. -/
def rescanUpdateLog (cb : Callbacks DB Msg) (m : Master) (link : Link)
    (d : PZGDatabaseState DB Msg) : PZGDatabaseState DB Msg :=
  if m.iAmTheSeniorPeer then rescanUpdateLogAsSenior cb m link d
  else rescanUpdateLogAsJunior cb m link d

/-- `RescanUpdateLogIfNecessary`. -/
def rescanUpdateLogIfNecessary (cb : Callbacks DB Msg) (m : Master)
    (link : Link) (d : PZGDatabaseState DB Msg) : PZGDatabaseState DB Msg :=
  if d.rescanLogPending then
    rescanUpdateLog cb m link { d with rescanLogPending := false }
  else d

/-! ## What the peers tell each other -/

/-- `GetDatabaseStateInfo`. -/
def getDatabaseStateInfo (d : PZGDatabaseState DB Msg) :
    PZGDatabaseStateInfo where
  currentDatabaseStateID := d.localDatabaseStateID
  oldestDatabaseIDInLog :=
    match d.updateLog.first? with
    | some first => first.updateID
    | none => ⊤
  dbChecksum := d.dbChecksum

/-- `SeniorDatabaseStateInfoChanged`.  The advertised checksum is not looked
at. -/
def seniorDatabaseStateInfoChanged (m : Master)
    (d : PZGDatabaseState DB Msg) (info : PZGDatabaseStateInfo) :
    PZGDatabaseState DB Msg :=
  if info.currentDatabaseStateID ≠ d.seniorDatabaseStateID ∨
      info.oldestDatabaseIDInLog ≠ d.seniorOldestIDInLog then
    scheduleLogContentsRescan m
      { d with
        seniorDatabaseStateReceived := true
        seniorDatabaseStateID := info.currentDatabaseStateID
        seniorOldestIDInLog := info.oldestDatabaseIDInLog }
  else d

/-- `_backorders.Remove(ubok)`. -/
def withoutBackOrder (d : PZGDatabaseState DB Msg)
    (ubok : PZGUpdateBackOrderKey) : PZGDatabaseState DB Msg :=
  { d with backorders := d.backorders.filter (· ≠ ubok) }

/-- `BackOrderResultReceived`.  A full database that does not arrive, or
cannot be executed, is only logged. -/
def backOrderResultReceived (cb : Callbacks DB Msg) (m : Master)
    (link : Link) (d : PZGDatabaseState DB Msg)
    (ubok : PZGUpdateBackOrderKey)
    (optUpdateData : Option (PZGDatabaseUpdate Msg)) :
    PZGDatabaseState DB Msg :=
  if ubok ∈ d.backorders then
    let d := withoutBackOrder d ubok
    if ubok.targetPeerID = m.seniorPeerID ∧ m.iAmTheSeniorPeer = false then
      if ubok.databaseUpdateID = databaseUpdateIDFullUpdate then
        match optUpdateData with
        | some dbUp =>
            let r := juniorExecuteDatabaseReplace cb d dbUp
            if r.1.isOK then scheduleLogContentsRescan m r.2 else r.2
        | none => d
      else
        match optUpdateData with
        | some dbUp =>
            scheduleLogContentsRescan m
              (addDatabaseUpdateToUpdateLog cb m d dbUp)
        | none => (requestFullDatabaseResendFromSeniorPeer m link d false).2
    else d
  else d

/-- `VerifyOrFixLocalDatabaseChecksum`. -/
def verifyOrFixLocalDatabaseChecksum (cb : Callbacks DB Msg)
    (d : PZGDatabaseState DB Msg) : PZGDatabaseState DB Msg :=
  { d with dbChecksum := cb.calculateLocalDatabaseChecksum d.database }

/-- `GetDatabaseUpdateByID`: a logged update, or the whole database as a
REPLACE update to the current state. -/
def getDatabaseUpdateByID (cb : Callbacks DB Msg) (m : Master)
    (d : PZGDatabaseState DB Msg) (updateID : WithTop ℕ) (time : Timing) :
    Option (PZGDatabaseUpdate Msg) :=
  match updateID with
  | ⊤ =>
      (cb.saveLocalDatabaseToMessage d.database).map fun savedDBMsg =>
        completedUpdate d
          (getPZGDatabaseUpdateFromPool .replace d.whichDatabase.toUInt16
            d.localDatabaseStateID m.localPeerID d.dbChecksum)
          time (some savedDBMsg)
  | (updateID : ℕ) => d.updateLog.get? updateID

end PZGDatabaseState

end ZgChoir
