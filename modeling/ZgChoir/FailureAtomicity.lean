import ZgChoir.DryRuns
import ZgChoir.RunningChecksum
import ZgChoir.UndoStackRequests

/-!
# Requests that fail

"Roll back!" says the code where a request has failed, and takes the update
out of the log again.  What the commands of the request had done to the tree
by then stays done.  So a failed request leaves everything as it was if it is
refused before it has changed anything, which a dry run on the state before
the request tells (`refusedRequest_restores`).  Otherwise it does so only by
chance, when later changes happen to take the earlier ones back
(`failedRequest_restores_iff`).
-/

namespace ZgChoir

variable {P : Type} {um : UndoStackMuscle P} {mount : Mount}
variable {master : Master} {d : UndoStackState P}

/-! ### Both kinds of message-tree databases -/

section

variable (um mount)

/-- The callbacks of `ZGDatabasePeerSession` for a database of the base
class. -/
def messageTreeCallbacks (inSeniorUpdate : Bool) :
    Callbacks (MessageTreeDatabaseObject P) (UndoStackMessage P) where
  resetLocalDatabaseToDefault db _ :=
    let reset := db.setToDefaultState um.toMuscle mount inSeniorUpdate
    (reset, reset.checksum)
  seniorUpdateLocalDatabase db _ seniorDoMsg :=
    let ret := db.seniorUpdate um.toMuscle mount seniorDoMsg.asTreeMessage
    (ret.1, ret.1.checksum, ret.2.map (.tree []))
  juniorUpdateLocalDatabase db _ juniorDoMsg :=
    let ret := db.juniorUpdate um.toMuscle mount juniorDoMsg.asTreeMessage
    (ret.1, ret.1.checksum, ret.2)
  setLocalDatabaseFromMessage db _ newDBStateMsg :=
    let ret := db.setFromArchive um.toMuscle mount inSeniorUpdate
      (um.archiveOf newDBStateMsg)
    (ret.1, ret.1.checksum, ret.2)
  saveLocalDatabaseToMessage db :=
    let ret := db.saveToArchive um.toMuscle mount
    if ret.1.isOK then some (.archive [] ret.2) else none
  calculateLocalDatabaseChecksum db :=
    db.calculateChecksum um.toMuscle mount
  payloadNumBytes := um.payloadNumBytes

namespace UndoStackState

/-- The callbacks of the class that the database object is of. -/
def callbacks (d : UndoStackState P) :
    Callbacks (MessageTreeDatabaseObject P) (UndoStackMessage P) :=
  if d.database.recordsUndo then undoStackCallbacks um mount true d.view
  else messageTreeCallbacks um mount true

/-- `HandleDatabaseUpdateRequest` on the senior peer, whichever the class. -/
def handleRequest (master : Master) (d : UndoStackState P)
    (request : SeniorRequest P) : Status × UndoStackState P :=
  d.handleDatabaseUpdateRequest (d.callbacks um mount) master
    request.fromPeerID request.msg request.time

/-- What a message that is sent for an update does to the tree. -/
def updateExecution (d : UndoStackState P) (userMsg : UndoStackMessage P) :
    Execution d.database.tree :=
  if d.database.recordsUndo then
    seniorMessageTreeUpdate um mount (.plain true) d.view userMsg
      d.database.tree
  else d.database.seniorMessageTreeUpdate um.toMuscle mount
    userMsg.asTreeMessage

/-- The same message followed through the tree as it is now, up to the first
change. -/
def dryRun (d : UndoStackState P) (userMsg : UndoStackMessage P) :
    Option Status :=
  if d.database.recordsUndo then
    DryRun.seniorMessageTreeUpdate um mount d.database.tree (.plain true)
      d.view userMsg
  else
    DryRun.runMessage
      (DryRun.seniorCommand um.toMuscle mount d.database.tree (.plain true))
      userMsg.asTreeMessage

end UndoStackState

/-- The condition on a request: MUSCLE would come to its first error, or to
the end, without a change of the tree as it is, and the update that the
request makes is not in the log yet.  Without a user's message nothing is
executed at all. -/
def RefusedAtOnce (d : UndoStackState P) :
    DatabaseUpdateRequest (UndoStackMessage P) → Prop
  | .replaceSeniorDatabase (some userMsg) =>
      (um.restoreNodeTreeFromMessage d.database.tree (um.archiveOf userMsg)
        mount.root).changes = [] ∧
      d.updateLog.containsKey (d.localDatabaseStateID + 1) = false
  | .updateSeniorDatabase (some userMsg) =>
      (d.dryRun um mount userMsg).isSome = true ∧
      d.updateLog.containsKey (d.localDatabaseStateID + 1) = false
  | _ => True

/-- What the callbacks for `effects` add to the running checksum. -/
def checksumMoved (m : Muscle P) (mount : Mount) :
    MessageTree P → List (Effect P) → UInt32
  | _, [] => 0
  | t, e :: effects =>
      (if Unheard m mount e then 0
        else checksumAt m (e.change.applyTo t) e.change.path -
          checksumAt m t e.change.path) +
        checksumMoved m mount (e.change.applyTo t) effects

/-- Every node is again what it was, if the changes that are about it are
taken alone, and so is the checksum. -/
structure ChangedBack (m : Muscle P) (mount : Mount) {t : MessageTree P}
    (execution : Execution t) : Prop where
  nodes : ∀ p, ((execution.effects.map (·.change)).filter
    (·.path = p)).foldl (fun node c => c.nodeAfter node) (t.lookup p) =
      t.lookup p
  checksum : checksumMoved m mount t execution.effects = 0

/-- What the commands of a request have changed by its first error they have
changed back, and the update that it makes was not in the log before. -/
def FailsCleanly (d : UndoStackState P) :
    DatabaseUpdateRequest (UndoStackMessage P) → Prop
  | .replaceSeniorDatabase (some userMsg) =>
      ChangedBack um.toMuscle mount
        (d.database.restore um.toMuscle mount (um.archiveOf userMsg)) ∧
      d.updateLog.containsKey (d.localDatabaseStateID + 1) = false
  | .updateSeniorDatabase (some userMsg) =>
      ChangedBack um.toMuscle mount (d.updateExecution um mount userMsg) ∧
      d.updateLog.containsKey (d.localDatabaseStateID + 1) = false
  | _ => True

end

/-- The nodes, the running checksum, the state ID and the log are what they
were. -/
structure Restored (d d' : UndoStackState P) : Prop where
  tree : d'.database.tree = d.database.tree
  checksum : d'.database.checksum = d.database.checksum
  localDatabaseStateID : d'.localDatabaseStateID = d.localDatabaseStateID
  updateLog : d'.updateLog = d.updateLog

/-! ### One execution -/

private theorem notify_checksum_eq {m : Muscle P} {inSeniorUpdate : Bool}
    {db : MessageTreeDatabaseObject P} {e : Effect P}
    (happlies : e.change.AppliesTo db.tree) :
    (db.notify m mount inSeniorUpdate e).checksum = db.checksum +
      if Unheard m mount e then 0
      else checksumAt m (e.change.applyTo db.tree) e.change.path -
        checksumAt m db.tree e.change.path := by
  unfold MessageTreeDatabaseObject.notify
  cases hquiet : e.quiet with
  | true => simp [Unheard, hquiet]
  | false =>
      cases hpath : relativePathOf m mount e.change.path with
      | none => simp [Unheard, hquiet, isNodeInThisDatabase, hpath]
      | some relativePath =>
          have hheard : ¬ Unheard m mount e := by
            simp [Unheard, hquiet, isNodeInThisDatabase, hpath]
          simp only [Bool.false_eq_true, if_false]
          rw [if_neg hheard, hear_checksum happlies]
          abel

/-- The callbacks add up to `checksumMoved`. -/
theorem notifyAll_checksum_eq {m : Muscle P} {inSeniorUpdate : Bool}
    (db : MessageTreeDatabaseObject P) {effects : List (Effect P)}
    (hvalid : TreeChange.Valid db.tree (effects.map (·.change))) :
    (db.notifyAll m mount inSeniorUpdate effects).checksum =
      db.checksum + checksumMoved m mount db.tree effects := by
  induction effects generalizing db with
  | nil => exact (add_zero _).symm
  | cons e effects ih =>
      have hrest := ih (db.notify m mount inSeniorUpdate e) hvalid.2
      have hcons : db.notifyAll m mount inSeniorUpdate (e :: effects) =
          (db.notify m mount inSeniorUpdate e).notifyAll m mount
            inSeniorUpdate effects := rfl
      rw [hcons, hrest, notify_checksum_eq hvalid.1, checksumMoved,
        add_assoc]
      rfl

/-- The tree and the checksum are what they were exactly if everything has
been changed back. -/
theorem changedBack_iff {m : Muscle P} (inSeniorUpdate : Bool)
    {db : MessageTreeDatabaseObject P} {execution : Execution db.tree} :
    ((db.notifyAll m mount inSeniorUpdate execution.effects).tree = db.tree ∧
      (db.notifyAll m mount inSeniorUpdate execution.effects).checksum =
        db.checksum) ↔ ChangedBack m mount execution := by
  rw [notifyAll_checksum_eq db execution.valid, notifyAll_tree, add_eq_left]
  constructor
  · rintro ⟨htree, hchecksum⟩
    refine ⟨fun p => ?_, hchecksum⟩
    rw [← TreeChange.lookup_applyAll execution.valid, htree]
  · intro h
    refine ⟨MessageTree.ext_lookup fun p => ?_, h.checksum⟩
    rw [TreeChange.lookup_applyAll execution.valid, h.nodes]

/-- A request that had changed nothing by its first error has nothing to
change back. -/
theorem changedBack_of_no_effects {m : Muscle P} {t : MessageTree P}
    {execution : Execution t} (h : execution.effects = []) :
    ChangedBack m mount execution :=
  ⟨fun p => by rw [h]; rfl, by rw [h]; rfl⟩

/-! ### One request -/

/-- A request whose callback has been called, and that fails. -/
private theorem restored_iff_of_fails
    {cb : Callbacks (MessageTreeDatabaseObject P) (UndoStackMessage P)}
    {fromPeerID : ZGPeerID} {updateType : UpdateType} {time : Timing}
    {callback : MessageTreeDatabaseObject P → UInt32 →
      PZGDatabaseState.SeniorOutcome (MessageTreeDatabaseObject P)
        (UndoStackMessage P)}
    (hfails : (d.executeSeniorUpdate cb master fromPeerID updateType callback
      time).1.isOK = false) :
    Restored d (d.executeSeniorUpdate cb master fromPeerID updateType callback
        time).2 ↔
      ((callback d.database d.dbChecksum).1.tree = d.database.tree ∧
        (callback d.database d.dbChecksum).1.checksum =
          d.database.checksum) ∧
        d.updateLog.containsKey (d.localDatabaseStateID + 1) = false := by
  cases houtcome : (callback d.database d.dbChecksum).2.2 with
  | ok payloadMsg =>
      obtain ⟨bytes, millis, oldest, hstep⟩ :=
        PZGDatabaseState.executeSeniorUpdate_of_ok cb master d fromPeerID
          updateType time houtcome
      rw [hstep] at hfails
      cases hfails
  | error ret =>
      obtain ⟨bytes, millis, oldest, hstep⟩ :=
        PZGDatabaseState.executeSeniorUpdate_of_error cb master d fromPeerID
          updateType time houtcome
      rw [hstep, ← OrderedTable.remove_eq_self]
      exact ⟨fun h => ⟨⟨h.tree, h.checksum⟩, h.updateLog⟩,
        fun h => ⟨h.1.1, h.1.2, rfl, h.2⟩⟩

/-- What the update callback leaves behind, whichever the class. -/
private theorem seniorUpdate_callback (um : UndoStackMuscle P)
    (mount : Mount) (d : UndoStackState P) (userMsg : UndoStackMessage P)
    (chk : UInt32) :
    ((d.callbacks um mount).seniorUpdateLocalDatabase d.database chk
        userMsg).1.tree = (d.database.notifyAll um.toMuscle mount true
          (d.updateExecution um mount userMsg).effects).tree ∧
      ((d.callbacks um mount).seniorUpdateLocalDatabase d.database chk
        userMsg).1.checksum = (d.database.notifyAll um.toMuscle mount true
          (d.updateExecution um mount userMsg).effects).checksum := by
  unfold UndoStackState.callbacks UndoStackState.updateExecution
  cases d.database.recordsUndo with
  | true =>
      simp only [if_true, undoStackCallbacks,
        UndoStackMessageTreeDatabaseObject.seniorUpdate]
      split <;> exact ⟨rfl, rfl⟩
  | false =>
      simp only [Bool.false_eq_true, if_false, messageTreeCallbacks,
        MessageTreeDatabaseObject.seniorUpdate]
      split <;> exact ⟨rfl, rfl⟩

/-- What the REPLACE callback leaves behind, whichever the class. -/
private theorem setFromMessage_callback (userMsg : UndoStackMessage P)
    (chk : UInt32) :
    ((d.callbacks um mount).setLocalDatabaseFromMessage d.database chk
      userMsg).1 = d.database.notifyAll um.toMuscle mount true
        (d.database.restore um.toMuscle mount (um.archiveOf userMsg)).effects
      := by
  unfold UndoStackState.callbacks
  cases d.database.recordsUndo with
  | true => rfl
  | false => rfl

/-- A request that fails leaves the nodes, the running checksum, the state ID
and the log as they were if and only if it fails cleanly. -/
theorem failedRequest_restores_iff {request : SeniorRequest P}
    (hfails : (d.handleRequest um mount master request).1.isOK = false) :
    Restored d (d.handleRequest um mount master request).2 ↔
      FailsCleanly um mount d request.msg := by
  obtain ⟨fromPeerID, msg, time⟩ := request
  have hsame : Restored d d := ⟨rfl, rfl, rfl, rfl⟩
  cases msg with
  | resetSeniorDatabase =>
      -- a RESET cannot fail
      obtain ⟨bytes, millis, oldest, hstep⟩ :=
        PZGDatabaseState.executeSeniorUpdate_of_ok (d.callbacks um mount)
          master d fromPeerID .reset time
          (show (PZGDatabaseState.seniorReset (d.callbacks um mount)
            d.database d.dbChecksum).2.2 = .ok none from rfl)
      simp only [UndoStackState.handleRequest,
        PZGDatabaseState.handleDatabaseUpdateRequest] at hfails
      rw [hstep] at hfails
      cases hfails
  | replaceSeniorDatabase userMsg =>
      cases userMsg with
      | none => exact iff_of_true hsame trivial
      | some userMsg =>
          refine (restored_iff_of_fails hfails).trans ?_
          rw [FailsCleanly, ← changedBack_iff true]
          simp only [PZGDatabaseState.seniorReplace, setFromMessage_callback]
  | updateSeniorDatabase userMsg =>
      cases userMsg with
      | none => exact iff_of_true hsame trivial
      | some userMsg =>
          refine (restored_iff_of_fails hfails).trans ?_
          rw [FailsCleanly, ← changedBack_iff true]
          obtain ⟨htree, hchecksum⟩ :=
            seniorUpdate_callback um mount d userMsg d.dbChecksum
          simp only [PZGDatabaseState.seniorUpdate, htree, hchecksum]
  | updateJuniorDatabase dbUp =>
      cases dbUp with
      | none => exact iff_of_true hsame trivial
      | some dbUp => cases hfails
  | unknown what => exact iff_of_true hsame trivial

/-- A dry run tells the status of a message that changes nothing. -/
theorem dryRun_eq_idle {userMsg : UndoStackMessage P} :
    d.dryRun um mount userMsg = (d.updateExecution um mount userMsg).idle := by
  unfold UndoStackState.dryRun UndoStackState.updateExecution
  split
  · exact DryRun.idle_seniorMessageTreeUpdate.symm
  · rw [MessageTreeDatabaseObject.seniorMessageTreeUpdate,
      DryRun.idle_runMessage]
    congr 1
    funext msg
    exact DryRun.idle_seniorCommand.symm

theorem dryRun_isSome_iff {userMsg : UndoStackMessage P} :
    (d.dryRun um mount userMsg).isSome = true ↔
      (d.updateExecution um mount userMsg).effects = [] := by
  rw [dryRun_eq_idle, Execution.isSome_idle]

/-- What has not been changed need not be changed back. -/
theorem failsCleanly_of_refusedAtOnce
    {msg : DatabaseUpdateRequest (UndoStackMessage P)}
    (h : RefusedAtOnce um mount d msg) : FailsCleanly um mount d msg := by
  cases msg with
  | resetSeniorDatabase | updateJuniorDatabase | unknown => trivial
  | replaceSeniorDatabase userMsg =>
      cases userMsg with
      | none => trivial
      | some userMsg =>
          obtain ⟨hchanges, hlog⟩ := h
          have hnone : (d.database.restore um.toMuscle mount
              (um.archiveOf userMsg)).effects = [] := by
            simp [MessageTreeDatabaseObject.restore, Execution.ofOutcome,
              hchanges]
          exact ⟨changedBack_of_no_effects hnone, hlog⟩
  | updateSeniorDatabase userMsg =>
      cases userMsg with
      | none => trivial
      | some userMsg =>
          obtain ⟨hdry, hlog⟩ := h
          have hnone := dryRun_isSome_iff.mp hdry
          exact ⟨changedBack_of_no_effects hnone, hlog⟩

/-- **Failure atomicity.**  A request that fails, and that is refused before
it changes anything, leaves the nodes, the running checksum, the state ID and
the log as they were. -/
theorem refusedRequest_restores {request : SeniorRequest P}
    (hfails : (d.handleRequest um mount master request).1.isOK = false)
    (hatOnce : RefusedAtOnce um mount d request.msg) :
    Restored d (d.handleRequest um mount master request).2 :=
  (failedRequest_restores_iff hfails).mpr
    (failsCleanly_of_refusedAtOnce hatOnce)

/-- A batch whose first message has nothing to do and whose second is not
understood. -/
theorem idleBatch_restores :
    Restored attachedState (attachedState.handleRequest sheetMuscle sheetMount
      sheetMaster (updateRequest
        (.batch [] [.tree [] .noop, .archive [] (.number 0)]))).2 :=
  refusedRequest_restores (by decide) ⟨by decide, by decide⟩

/-- A batch that puts 1 on a sheet and takes it off again before its error. -/
def cancellingBatch : UndoStackMessage Sheet :=
  .batch []
    [.tree [] (.updateNodeValue ["x"] (some (.number 1)) {} "" ""),
      .tree [] (.updateNodeValue ["x"] none {} "" ""),
      .archive [] (.number 0)]

/-- Being refused at once is not necessary: changes may cancel. -/
theorem cancellingBatch_restores :
    Restored attachedState (attachedState.handleRequest sheetMuscle sheetMount
      sheetMaster (updateRequest cancellingBatch)).2 ∧
      ¬ RefusedAtOnce sheetMuscle sheetMount attachedState
        (updateRequest cancellingBatch).msg := by
  constructor
  · apply (failedRequest_restores_iff (by decide)).mpr
    refine ⟨⟨fun p => ?_, by decide⟩, by decide⟩
    have hpaths : ∀ c ∈ (attachedState.updateExecution sheetMuscle sheetMount
        cancellingBatch).effects.map (·.change), c.path = ["db", "x"] := by
      decide
    by_cases hp : p = ["db", "x"]
    · subst hp
      decide
    · rw [List.filter_eq_nil_iff.mpr]
      · rfl
      · intro c hc
        simpa [hpaths c hc] using Ne.symm hp
  · intro h
    exact absurd h.1 (by decide)

/-- The same database, of the base class. -/
def attachedPlainState : UndoStackState Sheet :=
  { attachedState with
    database := { attachedState.database with recordsUndo := false } }

/-- A batch whose first message puts 1 on a sheet, and whose second is not
understood, fails, and the 1 stays; so it does in both classes. -/
theorem halfDoneBatch_not_restored :
    (¬ ∀ (d : UndoStackState Sheet) (request : SeniorRequest Sheet),
      d.database.recordsUndo = true →
      (d.handleRequest sheetMuscle sheetMount sheetMaster request).1.isOK =
        false →
      Restored d
        (d.handleRequest sheetMuscle sheetMount sheetMaster request).2) ∧
    ¬ ∀ (d : UndoStackState Sheet) (request : SeniorRequest Sheet),
      d.database.recordsUndo = false →
      (d.handleRequest sheetMuscle sheetMount sheetMaster request).1.isOK =
        false →
      Restored d
        (d.handleRequest sheetMuscle sheetMount sheetMaster request).2 := by
  let request := updateRequest (.batch []
    [.tree [] (.updateNodeValue ["x"] (some (.number 1)) {} "" ""),
      .archive [] (.number 0)])
  constructor
  · intro h
    have hchecksum := (h attachedState request (by decide) (by decide)).checksum
    exact absurd hchecksum (by decide)
  · intro h
    have hchecksum :=
      (h attachedPlainState request (by decide) (by decide)).checksum
    exact absurd hchecksum (by decide)

end ZgChoir
