import ZgChoir.UndoStack

/-!
# Dry runs

How far a request gets before it changes anything can be told from the tree
as it is before the request.  A dry run asks MUSCLE for every answer on that
tree, and gives up where an answer comes with a change; until then the tree
is what it was, so the next answer is the right one as well.

Each function that executes commands has its dry run here, under its own name,
and the theorem beside it says that the dry run comes to a status exactly if
the function changes nothing, and that it is then the function's status
(`idle_seniorCommand`, `idle_seniorMessageTreeUpdate`).
-/

namespace ZgChoir

variable {P : Type} {t : MessageTree P}

/-- The status of an answer of MUSCLE that comes without a change. -/
def Outcome.idle (o : Outcome t) : Option Status :=
  if o.changes.isEmpty then some o.status else none

namespace Execution

/-- The status of an execution that has changed nothing. -/
def idle (e : Execution t) : Option Status :=
  if e.effects.isEmpty then some e.status else none

variable {e : Execution t} {next : (t' : MessageTree P) → Execution t'}
  {status : Status}

theorem idle_eq_some_iff :
    e.idle = some status ↔ e.effects = [] ∧ e.status = status := by
  simp [idle]

theorem isSome_idle : e.idle.isSome = true ↔ e.effects = [] := by
  simp [idle]

theorem tree_of_no_effects (h : e.effects = []) : e.tree = t := by
  simp [tree, h]

@[simp] theorem idle_nothing : (nothing t status).idle = some status := rfl

@[simp] theorem idle_ofOutcome {o : Outcome t} {quiet interim : Bool}
    {opTag : String} : (ofOutcome o quiet interim opTag).idle = o.idle := by
  simp [idle, Outcome.idle, ofOutcome]

@[simp] theorem idle_withStatus :
    (e.withStatus status).idle = e.idle.map fun _ => status := by
  unfold idle withStatus
  split <;> rfl

end Execution

namespace DryRun

/-- What comes next in a dry run, whatever the status so far. -/
def followedBy (first next : Option Status) : Option Status :=
  first.bind fun _ => next

/-- `MRETURN_ON_ERROR` in a dry run. -/
def andThen (first next : Option Status) : Option Status :=
  first.bind fun status => if status.isOK then next else some status

end DryRun

namespace Execution

variable {e : Execution t} {next : (t' : MessageTree P) → Execution t'}

@[simp] theorem idle_followedBy :
    (e.followedBy next).idle = DryRun.followedBy e.idle (next t).idle := by
  by_cases heffects : e.effects = []
  · have htree := tree_of_no_effects heffects
    have hidle : e.idle = some e.status := idle_eq_some_iff.mpr ⟨heffects, rfl⟩
    have hnext : (next e.tree).idle = (next t).idle :=
      congrArg (fun t' => (next t').idle) htree
    rw [hidle, DryRun.followedBy, Option.bind_some, ← hnext]
    simp [idle, followedBy, heffects]
  · simp [idle, followedBy, DryRun.followedBy, heffects]

@[simp] theorem idle_andThen :
    (e.andThen next).idle = DryRun.andThen e.idle (next t).idle := by
  unfold andThen
  by_cases heffects : e.effects = []
  · have hidle : e.idle = some e.status := idle_eq_some_iff.mpr ⟨heffects, rfl⟩
    split
    · rename_i hok
      rw [idle_followedBy, hidle]
      simp [DryRun.followedBy, DryRun.andThen, hok]
    · rename_i hfails
      simp [hidle, DryRun.andThen, hfails]
  · have hidle : e.idle = none := by simp [idle, heffects]
    split
    · simp [hidle, DryRun.followedBy, DryRun.andThen]
    · simp [hidle, DryRun.andThen]

end Execution

namespace DryRun

/-! ### Commands of the base class -/

section

variable (m : Muscle P) (mount : Mount) (t : MessageTree P)

def withUnusedChildID (path : NodePath) (use : ℕ → Option Status) :
    Option Status :=
  match m.getDataNode t path with
  | some node =>
      match findUnusedNodeID t node numNodeIDs
          (m.getMaxKnownChildIDHint t node % numNodeIDs) with
      | some newNodeID => use newNodeID
      | none => some (.other "Node IDs exhausted")
  | none => some .dataNotFound

def withUnusedNodeID (path : NodePath) (use : ℕ → Option Status) :
    Option Status :=
  match m.getDataNode t path with
  | some _ => withUnusedChildID m t path use
  | none => andThen (m.setDataNode t path m.emptyMessage {} none).idle
      (withUnusedChildID m t path use)

def removeDataNodes (nodePath : NodePath) (filter : Option (P → Bool)) :
    Option Status :=
  (m.removeDataNodes t nodePath fun p node =>
    isNodeInThisDatabase m mount p &&
      (match filter with
        | some matchesFilter => matchesFilter node.payload
        | none => true)).idle

def setNodeValue (flags : TreeGatewayFlags) (optBefore : String)
    (sessionRelativePath : NodePath) (payload : P) : Option Status :=
  (m.setDataNode t sessionRelativePath payload
    (convertTreeGatewayFlagsToSetDataNodeFlags flags)
    (if optBefore = "" then none else some optBefore)).idle.map fun status =>
      if status = .accessDenied &&
          (flags.dontCreateNode || flags.dontOverwriteData) then .noError
      else status

def handleNodeUpdateMessage (ctx : CommandContext) (path : NodePath)
    (optPayload : Option P) (flags : TreeGatewayFlags) (optBefore : String) :
    Option Status :=
  if ctx.isOkayToHandleUpdateMessage path flags then
    let sessionRelativePath :=
      databaseSubpathToSessionRelativePath m mount t path flags
    match optPayload with
    | some payload =>
        if ctx.inSeniorUpdate && sessionRelativePath.getLast? == some "" then
          withUnusedNodeID m t sessionRelativePath.dropLast fun newNodeID =>
            setNodeValue m t flags optBefore
              (sessionRelativePath.dropLast ++
                [(if flags.indexed then "I" else "") ++ toString newNodeID])
              payload
        else setNodeValue m t flags optBefore sessionRelativePath payload
    | none => removeDataNodes m mount t sessionRelativePath none
  else some .noError

def handleNodeIndexUpdateMessage (ctx : CommandContext) (path : NodePath)
    (inserts : Bool) (index : ℕ) (key : String) (flags : TreeGatewayFlags) :
    Option Status :=
  if ctx.isOkayToHandleUpdateMessage path {} then
    match m.getDataNode t
      (databaseSubpathToSessionRelativePath m mount t path flags) with
    | some node =>
        (if inserts then m.insertIndexEntryAt t node index key
          else m.removeIndexEntryAt t node index).idle.map fun _ => .noError
    | none => some .dataNotFound
  else some .noError

def handleSubtreeUpdateMessage (path : NodePath) (optPayload : Option P)
    (flags : TreeGatewayFlags) : Option Status :=
  match optPayload with
  | some payload =>
      (m.restoreNodeTreeFromMessage t payload
        (databaseSubpathToSessionRelativePath m mount t path flags)).idle
  | none => some .badArgument

def seniorCommand (ctx : CommandContext) : TreeMessage P → Option Status
  | .noop => some .noError
  | .updateNodeValue path optPayload flags optBefore _ =>
      handleNodeUpdateMessage m mount t ctx path optPayload flags optBefore
  | .updateSubtree path optPayload flags _ =>
      handleSubtreeUpdateMessage m mount t path optPayload flags
  | .insertIndexEntry path index key flags _ =>
      handleNodeIndexUpdateMessage m mount t ctx path true index key flags
  | .removeIndexEntry path index key flags _ =>
      handleNodeIndexUpdateMessage m mount t ctx path false index key flags
  | .requestDeleteNodes path filter flags _ =>
      removeDataNodes m mount t
        (databaseSubpathToSessionRelativePath m mount t path flags) filter
  | .moveIndexEntry path optBefore filter flags _ =>
      (m.moveIndexEntries t
        (databaseSubpathToSessionRelativePath m mount t path flags)
        (if optBefore = "" then none else some optBefore) fun p node =>
          isNodeInThisDatabase m mount p &&
            (match filter with
              | some matchesFilter => matchesFilter node.payload
              | none => true)).idle
  | .batch _ => some .unimplemented
  | .unknown _ => some .unimplemented

end

/-- A batch in a dry run. -/
def runMessage (command : TreeMessage P → Option Status) :
    TreeMessage P → Option Status
  | .batch subMsgs => runAll subMsgs
  | msg => command msg
where
  runAll : List (TreeMessage P) → Option Status
  | [] => some .noError
  | subMsg :: subMsgs => andThen (runMessage command subMsg) (runAll subMsgs)

variable {m : Muscle P} {mount : Mount} {ctx : CommandContext}

theorem idle_withUnusedChildID {path : NodePath}
    {use : (t' : MessageTree P) → ℕ → Execution t'} :
    (ZgChoir.withUnusedChildID m t path use).idle =
      withUnusedChildID m t path fun newNodeID => (use t newNodeID).idle := by
  unfold withUnusedChildID ZgChoir.withUnusedChildID
  cases m.getDataNode t path with
  | none => rfl
  | some node =>
      simp only
      cases findUnusedNodeID t node numNodeIDs
        (m.getMaxKnownChildIDHint t node % numNodeIDs) with
      | none => rfl
      | some newNodeID => rfl

theorem idle_withUnusedNodeID {interim : Bool} {opTag : String}
    {path : NodePath} {use : (t' : MessageTree P) → ℕ → Execution t'} :
    (ZgChoir.withUnusedNodeID m interim opTag t path use).idle =
      withUnusedNodeID m t path fun newNodeID => (use t newNodeID).idle := by
  unfold withUnusedNodeID ZgChoir.withUnusedNodeID
  cases m.getDataNode t path with
  | none => simp [idle_withUnusedChildID]
  | some node => exact idle_withUnusedChildID

theorem idle_removeDataNodes {interim quiet : Bool} {opTag : String}
    {nodePath : NodePath} {filter : Option (P → Bool)} :
    (ZgChoir.removeDataNodes m mount interim opTag t nodePath filter
      quiet).idle = removeDataNodes m mount t nodePath filter :=
  Execution.idle_ofOutcome

theorem idle_setNodeValue {flags : TreeGatewayFlags}
    {optBefore opTag : String} {sessionRelativePath : NodePath} {payload : P} :
    (ZgChoir.setNodeValue m flags optBefore opTag t sessionRelativePath
      payload).idle =
      setNodeValue m t flags optBefore sessionRelativePath payload := by
  unfold setNodeValue ZgChoir.setNodeValue
  generalize m.setDataNode t sessionRelativePath payload
    (convertTreeGatewayFlagsToSetDataNodeFlags flags)
    (if optBefore = "" then none else some optBefore) = o
  have hstatus : (Execution.ofOutcome o false flags.interim opTag).status =
    o.status := rfl
  simp only [hstatus]
  split
  · rename_i hasked
    rw [Execution.idle_withStatus, Execution.idle_ofOutcome, Outcome.idle]
    split
    · simp only [Option.map_some, if_pos hasked]
    · rfl
  · rename_i hasked
    rw [Execution.idle_ofOutcome, Outcome.idle]
    split
    · simp only [Option.map_some, if_neg hasked]
    · rfl

theorem idle_handleNodeUpdateMessage {path : NodePath} {optPayload : Option P}
    {flags : TreeGatewayFlags} {optBefore optOpTag : String} :
    (ZgChoir.handleNodeUpdateMessage m mount ctx t path optPayload flags
      optBefore optOpTag).idle =
      handleNodeUpdateMessage m mount t ctx path optPayload flags
        optBefore := by
  unfold handleNodeUpdateMessage ZgChoir.handleNodeUpdateMessage
  cases ctx.isOkayToHandleUpdateMessage path flags with
  | false => rfl
  | true =>
      simp only [if_true]
      cases optPayload with
      | none => exact idle_removeDataNodes
      | some payload =>
          simp only
          split
          · simp only [idle_withUnusedNodeID, idle_setNodeValue]
          · exact idle_setNodeValue

theorem idle_handleNodeIndexUpdateMessage {path : NodePath} {inserts : Bool}
    {index : ℕ} {key : String} {flags : TreeGatewayFlags}
    {optOpTag : String} :
    (ZgChoir.handleNodeIndexUpdateMessage m mount ctx t path inserts index key
      flags optOpTag).idle =
      handleNodeIndexUpdateMessage m mount t ctx path inserts index key
        flags := by
  unfold handleNodeIndexUpdateMessage ZgChoir.handleNodeIndexUpdateMessage
  cases ctx.isOkayToHandleUpdateMessage path {} with
  | false => rfl
  | true =>
      simp only [if_true]
      cases m.getDataNode t
          (databaseSubpathToSessionRelativePath m mount t path flags) with
      | none => rfl
      | some node => simp

theorem idle_handleSubtreeUpdateMessage {path : NodePath}
    {optPayload : Option P} {flags : TreeGatewayFlags} {optOpTag : String} :
    (ZgChoir.handleSubtreeUpdateMessage m mount ctx t path optPayload flags
      optOpTag).idle =
      handleSubtreeUpdateMessage m mount t path optPayload flags := by
  cases optPayload with
  | none => rfl
  | some payload => exact Execution.idle_ofOutcome

/-- **One command.** -/
theorem idle_seniorCommand {msg : TreeMessage P} :
    (ZgChoir.seniorCommand m mount ctx t msg).idle =
      seniorCommand m mount t ctx msg := by
  cases msg with
  | noop | batch | unknown => rfl
  | updateNodeValue => exact idle_handleNodeUpdateMessage
  | updateSubtree => exact idle_handleSubtreeUpdateMessage
  | insertIndexEntry | removeIndexEntry =>
      exact idle_handleNodeIndexUpdateMessage
  | requestDeleteNodes => exact idle_removeDataNodes
  | moveIndexEntry => exact Execution.idle_ofOutcome

mutual

/-- **A batch.** -/
theorem idle_runMessage
    (command : (t' : MessageTree P) → TreeMessage P → Execution t')
    (t : MessageTree P) : ∀ msg : TreeMessage P,
      (ZgChoir.runMessage command msg t).idle =
        runMessage (fun msg => (command t msg).idle) msg
  | .batch subMsgs => idle_runAll command t subMsgs
  | .noop => rfl
  | .updateNodeValue .. => rfl
  | .updateSubtree .. => rfl
  | .insertIndexEntry .. => rfl
  | .removeIndexEntry .. => rfl
  | .requestDeleteNodes .. => rfl
  | .moveIndexEntry .. => rfl
  | .unknown _ => rfl

theorem idle_runAll
    (command : (t' : MessageTree P) → TreeMessage P → Execution t')
    (t : MessageTree P) : ∀ msgs : List (TreeMessage P),
      (ZgChoir.runMessage.runAll command msgs t).idle =
        runMessage.runAll (fun msg => (command t msg).idle) msgs
  | [] => rfl
  | msg :: msgs => by
      rw [runMessage.runAll, ← idle_runMessage command t msg,
        ← idle_runAll command t msgs]
      exact Execution.idle_andThen

end

/-! ### Commands of an undo-stack database -/

section

variable (um : UndoStackMuscle P) (mount : Mount) (t : MessageTree P)

def removeObsoleteSequences (view : LogView P) (perClientNode : NodePath) :
    ℕ → Option Status
  | 0 => some .noError
  | fuel + 1 =>
      match t.indexOf perClientNode with
      | [] => some .noError
      | firstSeqNode :: _ =>
          let seqStartID :=
            um.startDBID (um.getData t (perClientNode ++ [firstSeqNode]))
          if seqStartID ≠ view.currentDatabaseStateID + 1 ∧
              view.updateLogContainsUpdate seqStartID = false then
            followedBy (um.removeChild t perClientNode firstSeqNode).idle
              (removeObsoleteSequences view perClientNode fuel)
          else some .noError

def tidyClient (view : LogView P) (undoNode : NodePath)
    (perClientKey : String) : Option Status :=
  let perClientNode := undoNode ++ [perClientKey]
  followedBy
    (removeObsoleteSequences um t view perClientNode
      (t.indexOf perClientNode).length)
    (if t.indexOf perClientNode = [] then
      (um.removeChild t undoNode perClientKey).idle
    else some .noError)

def tidyClients (view : LogView P) (undoNode : NodePath) :
    List String → Option Status
  | [] => some .noError
  | perClientKey :: perClientKeys =>
      followedBy (tidyClient um t view undoNode perClientKey)
        (tidyClients view undoNode perClientKeys)

def tidyUndoStack (view : LogView P) : Option Status :=
  match um.getDataNode t (mount.rootPathWithSlash ++ ["undo"]) with
  | some undoNode =>
      (tidyClients um t view undoNode (um.getChildIterator t undoNode)).map
        fun _ => .noError
  | none => some .noError

def withDemandedNode (path : NodePath) (ifMissing : Status)
    (use : NodePath → Option Status) : Option Status :=
  match um.getDataNode t path with
  | some node => use node
  | none => andThen (um.setDataNode t path um.emptyMessage {} none).idle
      (some ifMissing)

def pushSequence (path clientNode : NodePath) (payload : P) : Option Status :=
  withUnusedNodeID um.toMuscle t path fun newNodeID =>
    andThen
      (um.setDataNode t (path ++ ["I" ++ toString newNodeID]) payload
        { addToIndex := true } none).idle
      ((um.setData t clientNode payload).idle.map fun _ => .noError)

def beginSequence (view : LogView P) (clientKey : UndoKey)
    (label : Option String) : Option Status :=
  let undoNodePath := mount.clientNodePath "undo" clientKey
  withDemandedNode um t undoNodePath .badArgument fun clientNode =>
    let oldClientPayload := um.getData t clientNode
    if um.what oldClientPayload = 0 then
      andThen
        (removeDataNodes um.toMuscle mount t
          (mount.clientNodePath "redo" clientKey) none)
        (pushSequence um t undoNodePath clientNode
          (um.newSequence label (view.currentDatabaseStateID + 1)))
    else
      (um.setData t clientNode
        (um.setWhat oldClientPayload
          (um.what oldClientPayload + 1))).idle.map fun _ => .noError

def endSequence (view : LogView P) (clientKey : UndoKey)
    (label : Option String) : Option Status :=
  match um.getDataNode t (mount.clientNodePath "undo" clientKey) with
  | none => some .badArgument
  | some clientNode =>
      let oldClientPayload := um.getData t clientNode
      if 1 < um.what oldClientPayload then
        (um.setData t clientNode
          (um.setWhat oldClientPayload
            (um.what oldClientPayload - 1))).idle.map fun _ => .noError
      else if um.what oldClientPayload = 0 then some .badArgument
      else
        match (t.indexOf clientNode).getLast? with
        | none => some .badObject
        | some seqName =>
            let seqNode := clientNode ++ [seqName]
            let seqPayload := um.closedSequence (um.getData t seqNode) label
              (view.currentDatabaseStateID + 1)
            followedBy (um.setData t seqNode seqPayload).idle
              ((um.setData t clientNode seqPayload).idle.map fun _ => .noError)

def treeUpdateAux (ctx : CommandContext) (view : LogView P) :
    TreeMessage P → Option Status
  | .batch subMsgs => treeUpdateAll subMsgs
  | msg => seniorCommand um.toMuscle mount t ctx msg
where
  treeUpdateAll : List (TreeMessage P) → Option Status
  | [] => some .noError
  | subMsg :: subMsgs =>
      andThen (andThen (treeUpdateAux ctx view subMsg)
        (tidyUndoStack um mount t view)) (treeUpdateAll subMsgs)

def replayTransactions (ctx : CommandContext) (view : LogView P)
    (isRedo : Bool) (clientKey : UndoKey) : List ℕ → Option Status
  | [] => some .noError
  | transID :: transIDs =>
      match view.getUpdatePayload transID with
      | some updatePayload =>
          andThen
            (match updatePayload.findMessage isRedo with
              | some subMsg =>
                  if updatePayload.undoKey = clientKey then
                    treeUpdateAux um mount t ctx view subMsg
                  else some .noError
              | none => some .noError)
            (replayTransactions ctx view isRedo clientKey transIDs)
      | none => some .badObject

def popSequence (fromClientNode : NodePath) : Option Status :=
  match (t.indexOf fromClientNode).getLast? with
  | none => some .badObject
  | some seqName =>
      andThen (um.removeChild t fromClientNode seqName).idle
        ((um.setData t fromClientNode
          (um.getData t (fromClientNode ++ [seqName]))).idle.map
            fun _ => .noError)

def undoOrRedo (ctx : CommandContext) (view : LogView P) (isRedo : Bool)
    (clientKey : UndoKey) (optOpTag : String) : Option Status :=
  let fromNodePath :=
    mount.clientNodePath (if isRedo then "redo" else "undo") clientKey
  let destNodePath :=
    mount.clientNodePath (if isRedo then "undo" else "redo") clientKey
  match um.getDataNode t fromNodePath with
  | none => some .badObject
  | some fromClientNode =>
      match (t.indexOf fromClientNode).getLast? with
      | none => some .badObject
      | some seqName =>
          let payload := um.getData t (fromClientNode ++ [seqName])
          let seqStartID := um.startDBID payload
          let seqEndID := um.endDBID payload
          let transIDs := transactionsOf seqStartID seqEndID
          if seqStartID ≤ seqEndID ∧
              transIDs.all view.updateLogContainsUpdate then
            andThen
              (replayTransactions um mount t
                { ctx with
                  opTag := ctx.guardTag optOpTag
                  isOkayToHandleUpdateMessage := isOkayDuringUndoRedo }
                view isRedo clientKey
                (if isRedo then transIDs.reverse else transIDs))
              (andThen (popSequence um t fromClientNode)
                (withDemandedNode um t destNodePath .badObject
                  fun destClientNode =>
                    pushSequence um t destNodePath destClientNode payload))
          else some .badObject

def seniorMessageTreeUpdateAux (ctx : CommandContext) (view : LogView P) :
    UndoStackMessage P → Option Status
  | .batch _ subMsgs => updateAll subMsgs
  | .beginSequence clientKey label =>
      beginSequence um mount t view clientKey label
  | .endSequence clientKey label =>
      endSequence um mount t view clientKey label
  | .undo clientKey optOpTag =>
      undoOrRedo um mount t ctx view false clientKey optOpTag
  | .redo clientKey optOpTag =>
      undoOrRedo um mount t ctx view true clientKey optOpTag
  | .tree _ msg => treeUpdateAux um mount t ctx view msg
  | .messagePair .. => some .unimplemented
  | .archive .. => some .unimplemented
where
  updateAll : List (UndoStackMessage P) → Option Status
  | [] => some .noError
  | subMsg :: subMsgs =>
      andThen (andThen (seniorMessageTreeUpdateAux ctx view subMsg)
        (tidyUndoStack um mount t view)) (updateAll subMsgs)

def seniorMessageTreeUpdate (ctx : CommandContext) (view : LogView P)
    (msg : UndoStackMessage P) : Option Status :=
  andThen (seniorMessageTreeUpdateAux um mount t ctx view msg)
    (tidyUndoStack um mount t view)

end

variable {um : UndoStackMuscle P} {view : LogView P} {opTag : String}

theorem idle_removeObsoleteSequences {perClientNode : NodePath} (fuel : ℕ) :
    (ZgChoir.removeObsoleteSequences um view opTag perClientNode fuel t).idle =
      removeObsoleteSequences um t view perClientNode fuel := by
  induction fuel with
  | zero => rfl
  | succ fuel ih =>
      unfold removeObsoleteSequences ZgChoir.removeObsoleteSequences
      cases t.indexOf perClientNode with
      | nil => rfl
      | cons firstSeqNode rest =>
          simp only
          split
          · rw [Execution.idle_followedBy, Execution.idle_ofOutcome, ih]
          · rfl

theorem idle_tidyClient {undoNode : NodePath} {perClientKey : String} :
    (ZgChoir.tidyClient um view opTag undoNode perClientKey t).idle =
      tidyClient um t view undoNode perClientKey := by
  unfold tidyClient ZgChoir.tidyClient
  rw [Execution.idle_followedBy, idle_removeObsoleteSequences]
  split <;> simp [*]

theorem idle_tidyClients {undoNode : NodePath} (perClientKeys : List String) :
    (ZgChoir.tidyClients um view opTag undoNode perClientKeys t).idle =
      tidyClients um t view undoNode perClientKeys := by
  induction perClientKeys with
  | nil => rfl
  | cons perClientKey perClientKeys ih =>
      rw [ZgChoir.tidyClients, Execution.idle_followedBy, idle_tidyClient, ih,
        tidyClients]

theorem idle_tidyUndoStack :
    (ZgChoir.tidyUndoStack um mount view opTag t).idle =
      tidyUndoStack um mount t view := by
  unfold tidyUndoStack ZgChoir.tidyUndoStack
  cases um.getDataNode t (mount.rootPathWithSlash ++ ["undo"]) with
  | none => rfl
  | some undoNode =>
      simp only
      rw [Execution.idle_withStatus, idle_tidyClients]

/-- A node that has not been created is missing. -/
theorem idle_withDemandedNode {path : NodePath} {ifMissing : Status}
    {use : (t' : MessageTree P) → NodePath → Execution t'} :
    (ZgChoir.withDemandedNode um opTag t path ifMissing use).idle =
      withDemandedNode um t path ifMissing fun node => (use t node).idle := by
  unfold withDemandedNode ZgChoir.withDemandedNode
  cases hget : um.getDataNode t path with
  | none => simp [hget]
  | some node => rfl

theorem idle_pushSequence {path clientNode : NodePath} {payload : P} :
    (ZgChoir.pushSequence um opTag path clientNode payload t).idle =
      pushSequence um t path clientNode payload := by
  simp [ZgChoir.pushSequence, pushSequence, idle_withUnusedNodeID]

theorem idle_beginSequence {clientKey : UndoKey} {label : Option String} :
    (ZgChoir.beginSequence um mount ctx view clientKey label t).idle =
      beginSequence um mount t view clientKey label := by
  unfold beginSequence ZgChoir.beginSequence
  simp only [idle_withDemandedNode]
  congr 1
  funext clientNode
  split
  · rw [Execution.idle_andThen, idle_removeDataNodes, idle_pushSequence]
  · simp

theorem idle_endSequence {clientKey : UndoKey} {label : Option String} :
    (ZgChoir.endSequence um mount ctx view clientKey label t).idle =
      endSequence um mount t view clientKey label := by
  unfold endSequence ZgChoir.endSequence
  cases um.getDataNode t (mount.clientNodePath "undo" clientKey) with
  | none => rfl
  | some clientNode =>
      simp only
      split
      · simp
      · split
        · rfl
        · cases (t.indexOf clientNode).getLast? with
          | none => rfl
          | some seqName => simp

mutual

theorem idle_treeUpdateAux (um : UndoStackMuscle P) (mount : Mount)
    (ctx : CommandContext) (view : LogView P) (t : MessageTree P) :
    ∀ msg : TreeMessage P,
      (ZgChoir.treeUpdateAux um mount ctx view msg t).idle =
        treeUpdateAux um mount t ctx view msg
  | .batch subMsgs => idle_treeUpdateAll um mount ctx view t subMsgs
  | .noop => idle_seniorCommand
  | .updateNodeValue .. => idle_seniorCommand
  | .updateSubtree .. => idle_seniorCommand
  | .insertIndexEntry .. => idle_seniorCommand
  | .removeIndexEntry .. => idle_seniorCommand
  | .requestDeleteNodes .. => idle_seniorCommand
  | .moveIndexEntry .. => idle_seniorCommand
  | .unknown _ => idle_seniorCommand

theorem idle_treeUpdateAll (um : UndoStackMuscle P) (mount : Mount)
    (ctx : CommandContext) (view : LogView P) (t : MessageTree P) :
    ∀ msgs : List (TreeMessage P),
      (ZgChoir.treeUpdateAux.treeUpdateAll um mount ctx view msgs t).idle =
        treeUpdateAux.treeUpdateAll um mount t ctx view msgs
  | [] => rfl
  | msg :: msgs => by
      rw [treeUpdateAux.treeUpdateAll,
        ← idle_treeUpdateAux um mount ctx view t msg,
        ← idle_treeUpdateAll um mount ctx view t msgs]
      simp only [ZgChoir.treeUpdateAux.treeUpdateAll, Execution.idle_andThen,
        idle_tidyUndoStack]

end

theorem idle_replayTransactions {isRedo : Bool} {clientKey : UndoKey}
    (transIDs : List ℕ) :
    (ZgChoir.replayTransactions um mount ctx view isRedo clientKey transIDs
      t).idle =
      replayTransactions um mount t ctx view isRedo clientKey transIDs := by
  induction transIDs with
  | nil => rfl
  | cons transID transIDs ih =>
      unfold replayTransactions ZgChoir.replayTransactions
      cases view.getUpdatePayload transID with
      | none => rfl
      | some updatePayload =>
          simp only
          rw [Execution.idle_andThen, ih]
          congr 1
          cases updatePayload.findMessage isRedo with
          | none => rfl
          | some subMsg =>
              simp only
              split
              · exact idle_treeUpdateAux um mount ctx view t subMsg
              · rfl

/-- The sequence at the top stays where it is when its removal changes
nothing. -/
theorem idle_popSequence {fromClientNode : NodePath} :
    (ZgChoir.popSequence um opTag fromClientNode t).idle =
      popSequence um t fromClientNode := by
  unfold popSequence ZgChoir.popSequence
  cases htop : (t.indexOf fromClientNode).getLast? with
  | none => rfl
  | some seqName => simp [htop]

theorem idle_undoOrRedo {isRedo : Bool} {clientKey : UndoKey}
    {optOpTag : String} :
    (ZgChoir.undoOrRedo um mount ctx view isRedo clientKey optOpTag t).idle =
      undoOrRedo um mount t ctx view isRedo clientKey optOpTag := by
  unfold undoOrRedo ZgChoir.undoOrRedo
  simp only
  cases um.getDataNode t
      (mount.clientNodePath (if isRedo then "redo" else "undo") clientKey) with
  | none => rfl
  | some fromClientNode =>
      simp only
      cases (t.indexOf fromClientNode).getLast? with
      | none => rfl
      | some seqName =>
          simp only
          split
          · simp only [Execution.idle_andThen, idle_replayTransactions,
              idle_popSequence, idle_withDemandedNode, idle_pushSequence]
          · rfl

mutual

theorem idle_seniorMessageTreeUpdateAux (um : UndoStackMuscle P)
    (mount : Mount) (ctx : CommandContext) (view : LogView P)
    (t : MessageTree P) : ∀ msg : UndoStackMessage P,
      (ZgChoir.seniorMessageTreeUpdateAux um mount ctx view msg t).idle =
        seniorMessageTreeUpdateAux um mount t ctx view msg
  | .batch _ subMsgs => idle_updateAll um mount ctx view t subMsgs
  | .beginSequence .. => idle_beginSequence
  | .endSequence .. => idle_endSequence
  | .undo .. => idle_undoOrRedo
  | .redo .. => idle_undoOrRedo
  | .tree _ msg => idle_treeUpdateAux um mount ctx view t msg
  | .messagePair .. => rfl
  | .archive .. => rfl

theorem idle_updateAll (um : UndoStackMuscle P) (mount : Mount)
    (ctx : CommandContext) (view : LogView P) (t : MessageTree P) :
    ∀ msgs : List (UndoStackMessage P),
      (ZgChoir.seniorMessageTreeUpdateAux.updateAll um mount ctx view msgs
        t).idle =
        seniorMessageTreeUpdateAux.updateAll um mount t ctx view msgs
  | [] => rfl
  | msg :: msgs => by
      rw [seniorMessageTreeUpdateAux.updateAll,
        ← idle_seniorMessageTreeUpdateAux um mount ctx view t msg,
        ← idle_updateAll um mount ctx view t msgs]
      simp only [ZgChoir.seniorMessageTreeUpdateAux.updateAll,
        Execution.idle_andThen, idle_tidyUndoStack]

end

/-- **One update.** -/
theorem idle_seniorMessageTreeUpdate {msg : UndoStackMessage P} :
    (ZgChoir.seniorMessageTreeUpdate um mount ctx view msg t).idle =
      seniorMessageTreeUpdate um mount t ctx view msg := by
  rw [ZgChoir.seniorMessageTreeUpdate, Execution.idle_andThen,
    idle_seniorMessageTreeUpdateAux, idle_tidyUndoStack,
    seniorMessageTreeUpdate]

end DryRun

end ZgChoir
