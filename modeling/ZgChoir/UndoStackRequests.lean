import ZgChoir.SheetMuscle
import ZgChoir.DatabaseStateSteps
import ZgChoir.Runs

/-!
# Requests to an undo-stack database, and what each records

RESET, REPLACE and UPDATE all run inside a senior update, so the callbacks
record what any of them does; only UPDATE takes what has been recorded out
again.  What a RESET or a REPLACE leaves behind becomes part of the messages
of the next UPDATE.  The messages of an update are built from its own changes
alone if and only if nothing was left behind
(`startsClean_iff_leavesNothing`).
-/

namespace ZgChoir

variable {P : Type} {um : UndoStackMuscle P} {mount : Mount}
variable {master : Master} {d : UndoStackState P}

open UndoStackMessageTreeDatabaseObject

/-! ### The database after a request -/

/-- A senior request leaves behind what its callback has made. -/
theorem PZGDatabaseState.executeSeniorUpdate_database {DB Msg : Type}
    {cb : Callbacks DB Msg} {m : Master} {d : PZGDatabaseState DB Msg}
    {fromPeerID : ZGPeerID} {updateType : UpdateType}
    {callback : DB → UInt32 → SeniorOutcome DB Msg} {time : Timing} :
    (executeSeniorUpdate cb m d fromPeerID updateType callback time).2.database
      = (callback d.database d.dbChecksum).1 := by
  cases houtcome : (callback d.database d.dbChecksum).2.2 with
  | ok payloadMsg =>
      obtain ⟨bytes, millis, oldest, hstep⟩ :=
        executeSeniorUpdate_of_ok cb m d fromPeerID updateType time houtcome
      rw [hstep]
  | error ret =>
      obtain ⟨bytes, millis, oldest, hstep⟩ :=
        executeSeniorUpdate_of_error cb m d fromPeerID updateType time houtcome
      rw [hstep]

/-- A command sees the log as it is once the update has been logged. -/
theorem UndoStackState.view_eq_logged
    {cb : Callbacks (MessageTreeDatabaseObject P) (UndoStackMessage P)}
    {fromPeerID : ZGPeerID} {updateType : UpdateType} {transactionID : ℕ} :
    d.view.updateLogContainsUpdate transactionID =
        (d.addDatabaseUpdateToUpdateLog cb master
          (d.newUpdate fromPeerID updateType)).updateLog.containsKey
            transactionID ∧
      d.view.getUpdatePayload transactionID =
        ((d.addDatabaseUpdateToUpdateLog cb master
          (d.newUpdate fromPeerID updateType)).updateLog.get?
            transactionID).bind (·.payload) := by
  obtain ⟨bytes, millis, oldest, hadd, -⟩ :=
    PZGDatabaseState.addDatabaseUpdateToUpdateLog_eq cb master d
      (d.newUpdate fromPeerID updateType)
  rw [hadd]
  dsimp only
  constructor
  · rw [Bool.eq_iff_iff, OrderedTable.containsKey_put]
    simp only [view, Bool.or_eq_true, decide_eq_true_eq,
      PZGDatabaseState.newUpdate_updateID]
    exact or_congr_left eq_comm
  · by_cases hnew : transactionID = d.localDatabaseStateID + 1
    · subst hnew
      have hget := OrderedTable.get?_put_self (t := d.updateLog)
        (a := d.newUpdate fromPeerID updateType)
      rw [PZGDatabaseState.newUpdate_updateID] at hget
      rw [hget]
      simp [view, PZGDatabaseState.newUpdate, getPZGDatabaseUpdateFromPool]
    · have hget : (d.updateLog.put (d.newUpdate fromPeerID updateType)).get?
          transactionID = d.updateLog.get? transactionID :=
        OrderedTable.get?_put_of_ne fun hsame => hnew hsame.symm
      rw [hget]
      simp [view, hnew]

section

variable (um mount)

/-- The database after a request. -/
def UndoStackState.databaseAfter (d : UndoStackState P) :
    DatabaseUpdateRequest (UndoStackMessage P) → MessageTreeDatabaseObject P
  | .resetSeniorDatabase => setToDefaultState um mount true d.database
  | .replaceSeniorDatabase (some userMsg) =>
      (d.database.setFromArchive um.toMuscle mount true
        (um.archiveOf userMsg)).1
  | .updateSeniorDatabase (some userMsg) =>
      (seniorUpdate um mount d.view d.database userMsg).1
  | _ => d.database

end

theorem UndoStackState.handle_database {request : SeniorRequest P} :
    (d.handle um mount master request).database =
      d.databaseAfter um mount request.msg := by
  obtain ⟨fromPeerID, msg, time⟩ := request
  cases msg with
  | resetSeniorDatabase => exact PZGDatabaseState.executeSeniorUpdate_database
  | replaceSeniorDatabase userMsg =>
      cases userMsg with
      | none => rfl
      | some userMsg => exact PZGDatabaseState.executeSeniorUpdate_database
  | updateSeniorDatabase userMsg =>
      cases userMsg with
      | none => rfl
      | some userMsg => exact PZGDatabaseState.executeSeniorUpdate_database
  | updateJuniorDatabase dbUp =>
      cases dbUp with
      | none => rfl
      | some dbUp =>
          obtain ⟨bytes, millis, oldest, hadd, -⟩ :=
            PZGDatabaseState.addDatabaseUpdateToUpdateLog_eq
              (undoStackCallbacks um mount true d.view) master d dbUp
          simp only [handle, PZGDatabaseState.handleDatabaseUpdateRequest]
          rw [hadd]
          rfl
  | unknown what => rfl

/-! ### What is left behind -/

/-- Nothing has been recorded that no update has taken out again. -/
structure StartsClean (db : MessageTreeDatabaseObject P) : Prop where
  recordsUndo : db.recordsUndo = true
  juniorMessage : db.assembledJuniorMessage = none
  juniorUndoMessage : db.assembledJuniorUndoMessage = none

section

variable (um mount)

/-- What the requests that send no message of their own do to the tree. -/
def UndoStackState.effectsLeft (d : UndoStackState P) :
    DatabaseUpdateRequest (UndoStackMessage P) → List (Effect P)
  | .resetSeniorDatabase => (renewTree um mount d.database.tree).effects
  | .replaceSeniorDatabase (some userMsg) =>
      (d.database.restore um.toMuscle mount (um.archiveOf userMsg)).effects
  | _ => []

/-- A RESET or a REPLACE of which the database hears nothing; or neither. -/
def LeavesNothing (d : UndoStackState P) (request : SeniorRequest P) : Prop :=
  ∀ e ∈ d.effectsLeft um mount request.msg, Unheard um.toMuscle mount e

instance (d : UndoStackState P) :
    DecidablePred (LeavesNothing um mount d) := fun _ =>
  inferInstanceAs (Decidable (∀ e ∈ _, _))

/-- The messages of an update are put together from its own changes, in the
order in which they were made; those of the undo message, back to front. -/
def BuiltFromOwnChanges (d : UndoStackState P) : Prop :=
  ∀ msg pair, (seniorUpdate um mount d.view d.database msg).2 = some pair →
    let own := recordsOf um.toMuscle mount d.database.tree
      (seniorMessageTreeUpdate um mount (.plain true) d.view msg
        d.database.tree).effects
    pair = .messagePair msg.undoKey
      ((assembleAll um.toMuscle none (own.map (·.1)) false).getD .noop)
      (assembleAll um.toMuscle none (own.map (·.2)) true)

end

/-- The messages are as clean after the callbacks as before exactly if the
database has heard of nothing. -/
private theorem notifyAll_startsClean {db : MessageTreeDatabaseObject P}
    {effects : List (Effect P)}
    (hvalid : TreeChange.Valid db.tree (effects.map (·.change)))
    (h : StartsClean db) :
    StartsClean (db.notifyAll um.toMuscle mount true effects) ↔
      ∀ e ∈ effects, Unheard um.toMuscle mount e := by
  rw [← recordsOf_eq_nil hvalid]
  have hjunior := MessageTreeDatabaseObject.notifyAll_assembledJuniorMessage
    um.toMuscle mount db effects
  have hundo :=
    MessageTreeDatabaseObject.notifyAll_assembledJuniorUndoMessage
      um.toMuscle mount effects h.recordsUndo
  rw [h.juniorMessage] at hjunior
  rw [h.juniorUndoMessage] at hundo
  constructor
  · intro hclean
    have hnone := hjunior.symm.trans hclean.juniorMessage
    exact List.map_eq_nil_iff.mp (assembleAll_eq_none.mp hnone).2
  · intro hnil
    rw [hnil] at hjunior hundo
    exact ⟨MessageTreeDatabaseObject.notifyAll_recordsUndo.trans h.recordsUndo,
      hjunior, hundo⟩

/-- A database that is set up outside a senior update is clean. -/
theorem setToDefaultState_startsClean {db : MessageTreeDatabaseObject P}
    (h : StartsClean db) :
    StartsClean (setToDefaultState um mount false db) := by
  obtain ⟨checksum, hafter⟩ := MessageTreeDatabaseObject.notifyAll_outside
    um.toMuscle mount db (renewTree um mount db.tree).effects
  rw [setToDefaultState, hafter]
  exact ⟨h.recordsUndo, h.juniorMessage, h.juniorUndoMessage⟩

/-- An update leaves nothing behind, whether it succeeds or fails. -/
theorem seniorUpdate_startsClean {view : LogView P}
    {db : MessageTreeDatabaseObject P} {msg : UndoStackMessage P}
    (h : StartsClean db) :
    StartsClean (seniorUpdate um mount view db msg).1 := by
  unfold seniorUpdate
  dsimp only
  split <;> exact ⟨MessageTreeDatabaseObject.notifyAll_recordsUndo.trans
    h.recordsUndo, rfl, rfl⟩

/-- **One request.** -/
theorem handle_startsClean_iff {request : SeniorRequest P}
    (h : StartsClean d.database) :
    StartsClean (d.handle um mount master request).database ↔
      LeavesNothing um mount d request := by
  obtain ⟨fromPeerID, msg, time⟩ := request
  rw [UndoStackState.handle_database]
  have hnone : ∀ e ∈ ([] : List (Effect P)), Unheard um.toMuscle mount e :=
    fun e he => absurd he List.not_mem_nil
  cases msg with
  | resetSeniorDatabase => exact notifyAll_startsClean (Execution.valid _) h
  | replaceSeniorDatabase userMsg =>
      cases userMsg with
      | none => exact iff_of_true h hnone
      | some userMsg => exact notifyAll_startsClean (Execution.valid _) h
  | updateSeniorDatabase userMsg =>
      cases userMsg with
      | none => exact iff_of_true h hnone
      | some userMsg => exact iff_of_true (seniorUpdate_startsClean h) hnone
  | updateJuniorDatabase dbUp => exact iff_of_true h hnone
  | unknown what => exact iff_of_true h hnone

/-- An update that starts clean is told by its own changes. -/
theorem builtFromOwnChanges_of_startsClean (h : StartsClean d.database) :
    BuiltFromOwnChanges um mount d := by
  intro msg pair hpair
  unfold seniorUpdate at hpair
  dsimp only at hpair
  split at hpair
  · dsimp only at hpair
    rw [MessageTreeDatabaseObject.notifyAll_assembledJuniorMessage,
      MessageTreeDatabaseObject.notifyAll_assembledJuniorUndoMessage _ _ _
        h.recordsUndo, h.juniorMessage, h.juniorUndoMessage] at hpair
    exact (Option.some.inj hpair).symm
  · cases hpair

/-- **Runs.**  From a clean start, every update of a run starts clean, and
its messages are told by its own changes, if and only if the database hears
of no RESET and of no REPLACE. -/
theorem startsClean_iff_leavesNothing {requests : List (SeniorRequest P)}
    (h : StartsClean d.database) :
    (∀ past, past <+: requests →
      StartsClean (Runs.run (UndoStackState.handle um mount master) d
        past).database ∧
      BuiltFromOwnChanges um mount
        (Runs.run (UndoStackState.handle um mount master) d past)) ↔
      Runs.StepsMeet (UndoStackState.handle um mount master)
        (LeavesNothing um mount) d requests := by
  rw [← Runs.always_iff_stepsMeet
    (I := fun d : UndoStackState P => StartsClean d.database) h
    fun _ _ hclean => handle_startsClean_iff hclean]
  constructor
  · intro hboth past hpast
    exact (hboth past hpast).1
  · intro hclean past hpast
    exact ⟨hclean past hpast,
      builtFromOwnChanges_of_startsClean (hclean past hpast)⟩

/-- A peer that has just been attached is clean. -/
theorem attachedState_startsClean : StartsClean attachedState.database :=
  setToDefaultState_startsClean ⟨rfl, rfl, rfl⟩

/-- Two updates, one of them in vain, and a REPLACE that fails. -/
theorem threeRequests_startClean :
    let requests := [writeRequest ["a"] ["x"] 1 {},
      updateRequest (.batch ["a"] [.tree [] .noop, .archive [] (.number 0)]),
      sheetRequest (.replaceSeniorDatabase (some (.tree [] .noop)))]
    StartsClean (Runs.run (UndoStackState.handle sheetMuscle sheetMount
      sheetMaster) attachedState requests).database ∧
    BuiltFromOwnChanges sheetMuscle sheetMount
      (Runs.run (UndoStackState.handle sheetMuscle sheetMount sheetMaster)
        attachedState requests) :=
  (startsClean_iff_leavesNothing attachedState_startsClean).mpr (by decide) _
    (List.prefix_refl _)

/-- A pair whose message for the junior peers does nothing. -/
def isNoop : UndoStackMessage P → Bool
  | .messagePair _ doMsg _ =>
      match doMsg with
      | .noop => true
      | _ => false
  | _ => false

/-- After a RESET, an update that changes nothing tells the junior peers to
remove the nodes that the RESET has removed. -/
theorem reset_not_startsClean :
    (¬ ∀ requests : List (SeniorRequest Sheet),
      StartsClean (Runs.run (UndoStackState.handle sheetMuscle sheetMount
        sheetMaster) attachedState requests).database) ∧
    ¬ ∀ requests : List (SeniorRequest Sheet),
      BuiltFromOwnChanges sheetMuscle sheetMount
        (Runs.run (UndoStackState.handle sheetMuscle sheetMount sheetMaster)
          attachedState requests) := by
  constructor
  · intro hclean
    have hnone :=
      (hclean [sheetRequest .resetSeniorDatabase]).juniorMessage
    exact absurd (congrArg Option.isNone hnone) (by decide)
  · intro hown
    have hreset := hown [sheetRequest .resetSeniorDatabase] (.tree [] .noop)
    generalize hret : (seniorUpdate sheetMuscle sheetMount _ _ _).2 = ret
      at hreset
    cases ret with
    | none => exact absurd (congrArg Option.isNone hret) (by decide)
    | some pair =>
        have hpair := congrArg isNoop (hreset pair rfl)
        have hnot := congrArg (Option.map isNoop) hret
        rw [Option.map_some, hpair] at hnot
        exact absurd hnot (by decide)

end ZgChoir
