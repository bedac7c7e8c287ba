import ZgChoir.Records
import ZgChoir.DatabaseState

/-!
# Undo and redo

`UndoStackMessageTreeDatabaseObject` keeps its stacks in the database itself:
below the nodes "undo" and "redo" every client has a node, and in the index of
that node the sequences of updates that it can take back or repeat.  The
what-code of the client's node counts the sequences the client has begun and
not ended yet.  A sequence is two numbers, the state IDs of its first and its
last transaction; what is replayed are the payloads of these transactions, as
the update log has them.

A command is followed through the tree as in the base class.  The log does not
change meanwhile, so a command takes what it sees of it as a `LogView`.
-/

namespace ZgChoir

variable {P : Type} {t : MessageTree P}

/-- The string that a client goes by, cut at its slashes; the empty string is
the empty list. -/
abbrev UndoKey := List String

/-- The messages of an undo-stack database, by their what-code; each may say
which client it comes from.  Whatever else an update may be is a message of
the base class.  The pair is what a senior update leaves in the log. -/
inductive UndoStackMessage (P : Type) where
  | batch (undoKey : UndoKey) (subMsgs : List (UndoStackMessage P))
  | beginSequence (undoKey : UndoKey) (label : Option String)
  | endSequence (undoKey : UndoKey) (label : Option String)
  | undo (undoKey : UndoKey) (optOpTag : String)
  | redo (undoKey : UndoKey) (optOpTag : String)
  | tree (undoKey : UndoKey) (msg : TreeMessage P)
  | messagePair (undoKey : UndoKey) (doMsg : TreeMessage P)
      (undoMsg : Option (TreeMessage P))
  | archive (undoKey : UndoKey) (archive : P)

namespace UndoStackMessage

/-- The field `UNDOSTACK_NAME_UNDOKEY`. -/
def undoKey : UndoStackMessage P → UndoKey
  | .batch key _ => key
  | .beginSequence key _ => key
  | .endSequence key _ => key
  | .undo key _ => key
  | .redo key _ => key
  | .tree key _ => key
  | .messagePair key _ _ => key
  | .archive key _ => key

/-- The message under `UNDOSTACK_NAME_DOMESSAGE` or, for an undo, under
`UNDOSTACK_NAME_UNDOMESSAGE`. -/
def findMessage (isRedo : Bool) : UndoStackMessage P → Option (TreeMessage P)
  | .messagePair _ doMsg undoMsg => if isRedo then some doMsg else undoMsg
  | _ => none

/-- `UNDOSTACK_COMMAND_MESSAGE_PAIR`, the first of the what-codes. -/
def messagePairWhat : UInt32 := 1970168943

/-- A message as the base class sees it, to which most of these what-codes are
unknown. -/
def asTreeMessage : UndoStackMessage P → TreeMessage P
  | .batch _ subMsgs => .batch (asTreeMessages subMsgs)
  | .tree _ msg => msg
  | .messagePair .. => .unknown messagePairWhat
  | .beginSequence .. => .unknown (messagePairWhat + 1)
  | .endSequence .. => .unknown (messagePairWhat + 2)
  | .undo .. => .unknown (messagePairWhat + 3)
  | .redo .. => .unknown (messagePairWhat + 4)
  | .archive .. => .unknown 0
where
  asTreeMessages : List (UndoStackMessage P) → List (TreeMessage P)
  | [] => []
  | subMsg :: subMsgs => asTreeMessage subMsg :: asTreeMessages subMsgs

end UndoStackMessage

/-- What an undo-stack database uses of MUSCLE besides: fields of messages,
and methods of single nodes. -/
structure UndoStackMuscle (P : Type) extends Muscle P where
  /-- `Message::what` -/
  what : P → UInt32
  /-- a lightweight copy with another what-code -/
  setWhat : P → UInt32 → P
  /-- `Message::FindInt64` -/
  findInt64 : P → String → Option ℕ
  /-- `Message::AddInt64`: behind the values that the field has -/
  addInt64 : P → String → ℕ → P
  /-- `Message::AddString` -/
  addString : P → String → String → P
  /-- `Message::RemoveName` -/
  removeName : P → String → P
  /-- any message, taken for an archive -/
  archiveOf : UndoStackMessage P → P
  /-- the size of a message that has been flattened and deflated -/
  payloadNumBytes : UndoStackMessage P → UInt64
  /-- `DataNode::GetChildIterator` -/
  getChildIterator : MessageTree P → NodePath → List String
  /-- `DataNode::RemoveChild`, recursively -/
  removeChild (t : MessageTree P) (path : NodePath) (name : String) : Outcome t
  /-- `DataNode::SetData` -/
  setData (t : MessageTree P) (path : NodePath) (payload : P) : Outcome t

/-- What a command sees of its database state: the log holds the update that
is being made already, without a payload. -/
structure LogView (P : Type) where
  currentDatabaseStateID : ℕ
  updateLogContainsUpdate : ℕ → Bool
  getUpdatePayload : ℕ → Option (UndoStackMessage P)

/-- The root path with a slash at its end.  Of an empty root path only the
slash is left, and what follows is an absolute path. -/
def Mount.rootPathWithSlash (mount : Mount) : NodePath :=
  if mount.root = [] then [""] else mount.root

/-- The node of a client below "undo" or "redo". -/
def Mount.clientNodePath (mount : Mount) (stack : String)
    (clientKey : UndoKey) : NodePath :=
  mount.rootPathWithSlash ++
    stack :: (if clientKey = [] then ["default"] else clientKey)

/-- `UndoStackMessageTreeDatabaseObject::IsOkayToHandleUpdateMessage`, during
an undo or a redo: interim updates are skipped, and nothing touches the stacks
themselves. -/
def isOkayDuringUndoRedo (path : NodePath) (flags : TreeGatewayFlags) : Bool :=
  if flags.interim then false
  else match path with
    | stack :: _ :: _ => !(stack == "undo" || stack == "redo")
    | _ => true

section

variable (um : UndoStackMuscle P) (mount : Mount)

namespace UndoStackMuscle

/-- `Message::GetInt64`. -/
def getInt64 (payload : P) (fieldName : String) : ℕ :=
  (um.findInt64 payload fieldName).getD 0

/-- `UNDOSTACK_NAME_STARTDBID`. -/
def startDBID (payload : P) : ℕ := um.getInt64 payload "sid"

/-- `UNDOSTACK_NAME_ENDDBID`. -/
def endDBID (payload : P) : ℕ := um.getInt64 payload "eid"

/-- The payload of a node. -/
def getData (t : MessageTree P) (path : NodePath) : P :=
  match t.lookup path with
  | some node => node.payload
  | none => um.emptyMessage

/-- The payload of a sequence that begins. -/
def newSequence (label : Option String) (startDBID : ℕ) : P :=
  let seqPayload := um.setWhat um.emptyMessage 1
  um.addInt64
    (match label with
      | some label => um.addString seqPayload "lab" label
      | none => seqPayload) "sid" startDBID

/-- The payload of a sequence that ends. -/
def closedSequence (seqPayload : P) (label : Option String)
    (afterLastDBID : ℕ) : P :=
  let seqPayload := um.addInt64 seqPayload "eid" afterLastDBID
  um.setWhat
    (match label with
      | some label =>
          if label = "" then seqPayload
          else um.addString (um.removeName seqPayload "lab") "lab" label
      | none => seqPayload) 0

end UndoStackMuscle

open UndoStackMuscle

/-! ### Obsolete sequences -/

/-- The `while` loop of the clean-up: a client's oldest sequence goes as long
as the log does not hold its first transaction.  Every iteration takes an
entry off the index. -/
def removeObsoleteSequences (view : LogView P) (opTag : String)
    (perClientNode : NodePath) : ℕ → (t : MessageTree P) → Execution t
  | 0, t => .nothing t .noError
  | fuel + 1, t =>
      match t.indexOf perClientNode with
      | [] => .nothing t .noError
      | firstSeqNode :: _ =>
          let seqStartID :=
            um.startDBID (um.getData t (perClientNode ++ [firstSeqNode]))
          if seqStartID ≠ view.currentDatabaseStateID + 1 ∧
              view.updateLogContainsUpdate seqStartID = false then
            (Execution.ofOutcome (um.removeChild t perClientNode firstSeqNode)
              false false opTag).followedBy
              (removeObsoleteSequences view opTag perClientNode fuel)
          else .nothing t .noError

/-- The clean-up of one client: its node goes with its last sequence. -/
def tidyClient (view : LogView P) (opTag : String) (undoNode : NodePath)
    (perClientKey : String) (t : MessageTree P) : Execution t :=
  let perClientNode := undoNode ++ [perClientKey]
  (removeObsoleteSequences um view opTag perClientNode
    (t.indexOf perClientNode).length t).followedBy fun t' =>
      if t'.indexOf perClientNode = [] then
        (Execution.ofOutcome (um.removeChild t' undoNode perClientKey)
          false false opTag)
      else .nothing t' .noError

/-- The clean-up of one client after another. -/
def tidyClients (view : LogView P) (opTag : String) (undoNode : NodePath) :
    List String → (t : MessageTree P) → Execution t
  | [], t => .nothing t .noError
  | perClientKey :: perClientKeys, t =>
      (tidyClient um view opTag undoNode perClientKey t).followedBy
        (tidyClients view opTag undoNode perClientKeys)

/-- What `SeniorMessageTreeUpdate` does after every update that has succeeded:
sequences whose transactions are gone from the log cannot be undone. -/
def tidyUndoStack (view : LogView P) (opTag : String) (t : MessageTree P) :
    Execution t :=
  match um.getDataNode t (mount.rootPathWithSlash ++ ["undo"]) with
  | some undoNode =>
      (tidyClients um view opTag undoNode (um.getChildIterator t undoNode)
        t).withStatus .noError
  | none => .nothing t .noError

/-! ### Commands -/

/-- The node at `path`, created on demand, and what is done with it. -/
def withDemandedNode (opTag : String) (t : MessageTree P) (path : NodePath)
    (ifMissing : Status) (use : (t' : MessageTree P) → NodePath → Execution t') :
    Execution t :=
  match um.getDataNode t path with
  | some node => use t node
  | none =>
      (Execution.ofOutcome (um.setDataNode t path um.emptyMessage {} none)
        false false opTag).andThen fun t' =>
          match um.getDataNode t' path with
          | some node => use t' node
          | none => .nothing t' ifMissing

/-- A sequence goes to the top of a stack, and the client's node shows it. -/
def pushSequence (opTag : String) (path clientNode : NodePath) (payload : P)
    (t : MessageTree P) : Execution t :=
  withUnusedNodeID um.toMuscle false opTag t path fun t' newNodeID =>
    (Execution.ofOutcome
      (um.setDataNode t' (path ++ ["I" ++ toString newNodeID]) payload
        { addToIndex := true } none) false false opTag).andThen fun t'' =>
      (Execution.ofOutcome (um.setData t'' clientNode payload)
        false false opTag).withStatus .noError

/-- `UNDOSTACK_COMMAND_BEGINSEQUENCE`. -/
def beginSequence (ctx : CommandContext) (view : LogView P)
    (clientKey : UndoKey) (label : Option String) (t : MessageTree P) :
    Execution t :=
  let undoNodePath := mount.clientNodePath "undo" clientKey
  withDemandedNode um ctx.opTag t undoNodePath .badArgument
    fun t₁ clientNode =>
      let oldClientPayload := um.getData t₁ clientNode
      if um.what oldClientPayload = 0 then
        -- the first level of nesting clears the redo stack
        (removeDataNodes um.toMuscle mount false ctx.opTag t₁
          (mount.clientNodePath "redo" clientKey) none false).andThen
          (pushSequence um ctx.opTag undoNodePath clientNode
            (um.newSequence label (view.currentDatabaseStateID + 1)))
      else
        (Execution.ofOutcome
          (um.setData t₁ clientNode
            (um.setWhat oldClientPayload (um.what oldClientPayload + 1)))
          false false ctx.opTag).withStatus .noError

/-- `UNDOSTACK_COMMAND_ENDSEQUENCE`. -/
def endSequence (ctx : CommandContext) (view : LogView P)
    (clientKey : UndoKey) (label : Option String) (t : MessageTree P) :
    Execution t :=
  match um.getDataNode t (mount.clientNodePath "undo" clientKey) with
  | none => .nothing t .badArgument
  | some clientNode =>
      let oldClientPayload := um.getData t clientNode
      if 1 < um.what oldClientPayload then
        (Execution.ofOutcome
          (um.setData t clientNode
            (um.setWhat oldClientPayload (um.what oldClientPayload - 1)))
          false false ctx.opTag).withStatus .noError
      else if um.what oldClientPayload = 0 then
        .nothing t .badArgument
      else
        match (t.indexOf clientNode).getLast? with
        | none => .nothing t .badObject
        | some seqName =>
            let seqNode := clientNode ++ [seqName]
            let seqPayload := um.closedSequence (um.getData t seqNode) label
              (view.currentDatabaseStateID + 1)
            (Execution.ofOutcome (um.setData t seqNode seqPayload)
              false false ctx.opTag).followedBy fun t' =>
                (Execution.ofOutcome (um.setData t' clientNode seqPayload)
                  false false ctx.opTag).withStatus .noError

/-- `SeniorMessageTreeUpdateAux`, of a message of the base class.  The base
class hands every message of a batch to the virtual method again. -/
def treeUpdateAux (ctx : CommandContext) (view : LogView P) :
    TreeMessage P → (t : MessageTree P) → Execution t
  | .batch subMsgs => treeUpdateAll subMsgs
  | msg => fun t => seniorCommand um.toMuscle mount ctx t msg
where
  treeUpdateAll : List (TreeMessage P) → (t : MessageTree P) → Execution t
  | [] => fun t => .nothing t .noError
  | subMsg :: subMsgs => fun t =>
      ((treeUpdateAux ctx view subMsg t).andThen
        (tidyUndoStack um mount view ctx.opTag)).andThen
          (treeUpdateAll subMsgs)

/-- The loop of an undo or a redo over the transactions of the sequence.  Only
what the client itself has uploaded is replayed. -/
def replayTransactions (ctx : CommandContext) (view : LogView P)
    (isRedo : Bool) (clientKey : UndoKey) :
    List ℕ → (t : MessageTree P) → Execution t
  | [], t => .nothing t .noError
  | transID :: transIDs, t =>
      match view.getUpdatePayload transID with
      | some updatePayload =>
          (match updatePayload.findMessage isRedo with
            | some subMsg =>
                if updatePayload.undoKey = clientKey then
                  treeUpdateAux um mount ctx view subMsg t
                else .nothing t .noError
            | none => .nothing t .noError).andThen
              (replayTransactions ctx view isRedo clientKey transIDs)
      | none => .nothing t .badObject

/-- The sequence at the top of a stack goes, and the client's node with the
last one.  Replaying has left the stack alone, so there is one. -/
def popSequence (opTag : String) (fromClientNode : NodePath)
    (t : MessageTree P) : Execution t :=
  match (t.indexOf fromClientNode).getLast? with
  | none => .nothing t .badObject
  | some seqName =>
      (Execution.ofOutcome (um.removeChild t fromClientNode seqName)
        false false opTag).andThen fun t' =>
          (match (t'.indexOf fromClientNode).getLast? with
            | some topName => Execution.ofOutcome
                (um.setData t' fromClientNode
                  (um.getData t' (fromClientNode ++ [topName])))
                false false opTag
            | none => Execution.ofOutcome
                (um.removeChild t' fromClientNode.dropLast
                  (fromClientNode.getLast?.getD ""))
                false false opTag).withStatus .noError

/-- The transactions of a sequence, in the order in which they are undone. -/
def transactionsOf (seqStartID seqEndID : ℕ) : List ℕ :=
  (List.range' seqStartID (seqEndID + 1 - seqStartID)).reverse

/-- `UNDOSTACK_COMMAND_UNDO` and `UNDOSTACK_COMMAND_REDO`. -/
def undoOrRedo (ctx : CommandContext) (view : LogView P) (isRedo : Bool)
    (clientKey : UndoKey) (optOpTag : String) (t : MessageTree P) :
    Execution t :=
  let opTag := ctx.guardTag optOpTag
  let fromNodePath :=
    mount.clientNodePath (if isRedo then "redo" else "undo") clientKey
  let destNodePath :=
    mount.clientNodePath (if isRedo then "undo" else "redo") clientKey
  match um.getDataNode t fromNodePath with
  | none => .nothing t .badObject
  | some fromClientNode =>
      match (t.indexOf fromClientNode).getLast? with
      | none => .nothing t .badObject
      | some seqName =>
          let payload := um.getData t (fromClientNode ++ [seqName])
          let seqStartID := um.startDBID payload
          let seqEndID := um.endDBID payload
          let transIDs := transactionsOf seqStartID seqEndID
          if seqStartID ≤ seqEndID ∧
              transIDs.all view.updateLogContainsUpdate then
            (replayTransactions um mount
              { ctx with
                opTag := opTag
                isOkayToHandleUpdateMessage := isOkayDuringUndoRedo }
              view isRedo clientKey
              (if isRedo then transIDs.reverse else transIDs) t).andThen
              fun t₁ => (popSequence um opTag fromClientNode t₁).andThen
                fun t₂ => withDemandedNode um opTag t₂ destNodePath .badObject
                  fun t₃ destClientNode =>
                    pushSequence um opTag destNodePath destClientNode payload
                      t₃
          else .nothing t .badObject

/-- `SeniorMessageTreeUpdateAux`. -/
def seniorMessageTreeUpdateAux (ctx : CommandContext) (view : LogView P) :
    UndoStackMessage P → (t : MessageTree P) → Execution t
  | .batch _ subMsgs => updateAll subMsgs
  | .beginSequence clientKey label =>
      beginSequence um mount ctx view clientKey label
  | .endSequence clientKey label =>
      endSequence um mount ctx view clientKey label
  | .undo clientKey optOpTag =>
      undoOrRedo um mount ctx view false clientKey optOpTag
  | .redo clientKey optOpTag =>
      undoOrRedo um mount ctx view true clientKey optOpTag
  | .tree _ msg => treeUpdateAux um mount ctx view msg
  | .messagePair .. => fun t => .nothing t .unimplemented
  | .archive .. => fun t => .nothing t .unimplemented
where
  updateAll : List (UndoStackMessage P) → (t : MessageTree P) → Execution t
  | [] => fun t => .nothing t .noError
  | subMsg :: subMsgs => fun t =>
      ((seniorMessageTreeUpdateAux ctx view subMsg t).andThen
        (tidyUndoStack um mount view ctx.opTag)).andThen (updateAll subMsgs)

/-- `UndoStackMessageTreeDatabaseObject::SeniorMessageTreeUpdate`. -/
def seniorMessageTreeUpdate (ctx : CommandContext) (view : LogView P)
    (msg : UndoStackMessage P) (t : MessageTree P) : Execution t :=
  (seniorMessageTreeUpdateAux um mount ctx view msg t).andThen
    (tidyUndoStack um mount view ctx.opTag)

/-! ### Methods of the object -/

namespace UndoStackMessageTreeDatabaseObject

/-- `UndoStackMessageTreeDatabaseObject::SeniorUpdate`. -/
def seniorUpdate (view : LogView P) (db : MessageTreeDatabaseObject P)
    (seniorDoMsg : UndoStackMessage P) :
    MessageTreeDatabaseObject P × Option (UndoStackMessage P) :=
  let ret := seniorMessageTreeUpdate um mount (.plain true) view seniorDoMsg
    db.tree
  let updated := db.notifyAll um.toMuscle mount true ret.effects
  let done :=
    { updated with
      assembledJuniorMessage := none
      assembledJuniorUndoMessage := none }
  if ret.status.isOK then
    (done, some (.messagePair seniorDoMsg.undoKey
      (updated.assembledJuniorMessage.getD .noop)
      updated.assembledJuniorUndoMessage))
  else (done, none)

/-- `UndoStackMessageTreeDatabaseObject::JuniorUpdate`.  A message that is no
pair is taken as it is. -/
def juniorUpdate (db : MessageTreeDatabaseObject P) :
    UndoStackMessage P → MessageTreeDatabaseObject P × Status
  | .messagePair _ doMsg _ => db.juniorUpdate um.toMuscle mount doMsg
  | pairMsg => db.juniorUpdate um.toMuscle mount pairMsg.asTreeMessage

/-- What `SetToDefaultState` does to the tree. -/
def renewTree (t : MessageTree P) : Execution t :=
  ((removeDataNodes um.toMuscle mount false "" t mount.root none
    false).followedBy fun t₁ => Execution.ofOutcome
      (um.setDataNode t₁ (mount.root ++ ["undo"]) um.emptyMessage {} none)
      false false "").followedBy fun t₂ => Execution.ofOutcome
        (um.setDataNode t₂ (mount.root ++ ["redo"]) um.emptyMessage {} none)
        false false ""

/-- `UndoStackMessageTreeDatabaseObject::SetToDefaultState`. -/
def setToDefaultState (inSeniorUpdate : Bool)
    (db : MessageTreeDatabaseObject P) : MessageTreeDatabaseObject P :=
  db.notifyAll um.toMuscle mount inSeniorUpdate
    (renewTree um mount db.tree).effects

end UndoStackMessageTreeDatabaseObject

open UndoStackMessageTreeDatabaseObject

/-- The callbacks of `ZGDatabasePeerSession` for an undo-stack database. -/
def undoStackCallbacks (inSeniorUpdate : Bool) (view : LogView P) :
    Callbacks (MessageTreeDatabaseObject P) (UndoStackMessage P) where
  resetLocalDatabaseToDefault db _ :=
    let reset := setToDefaultState um mount inSeniorUpdate db
    (reset, reset.checksum)
  seniorUpdateLocalDatabase db _ seniorDoMsg :=
    let ret := seniorUpdate um mount view db seniorDoMsg
    (ret.1, ret.1.checksum, ret.2)
  juniorUpdateLocalDatabase db _ juniorDoMsg :=
    let ret := juniorUpdate um mount db juniorDoMsg
    (ret.1, ret.1.checksum, ret.2)
  setLocalDatabaseFromMessage db _ newDBStateMsg :=
    let ret := db.setFromArchive um.toMuscle mount inSeniorUpdate
      (um.archiveOf newDBStateMsg)
    (ret.1, ret.1.checksum, ret.2)
  saveLocalDatabaseToMessage db :=
    let ret := db.saveToArchive um.toMuscle mount
    if ret.1.isOK then some (.archive [] ret.2) else none
  calculateLocalDatabaseChecksum db :=
    db.calculateChecksum um.toMuscle mount
  payloadNumBytes := um.payloadNumBytes

/-! ### On the senior peer -/

/-- The state of a replicated undo-stack database. -/
abbrev UndoStackState (P : Type) : Type :=
  PZGDatabaseState (MessageTreeDatabaseObject P) (UndoStackMessage P)

/-- What the log looks like while the senior peer executes a request. -/
def UndoStackState.view (d : UndoStackState P) : LogView P where
  currentDatabaseStateID := d.localDatabaseStateID
  updateLogContainsUpdate transactionID :=
    transactionID = d.localDatabaseStateID + 1 ||
      d.updateLog.containsKey transactionID
  getUpdatePayload transactionID :=
    if transactionID = d.localDatabaseStateID + 1 then none
    else (d.updateLog.get? transactionID).bind (·.payload)

/-- A request to the senior peer, from whom, and when. -/
structure SeniorRequest (P : Type) where
  fromPeerID : ZGPeerID
  msg : DatabaseUpdateRequest (UndoStackMessage P)
  time : Timing

/-- `HandleDatabaseUpdateRequest` on the senior peer. -/
def UndoStackState.handle (master : Master) (d : UndoStackState P)
    (request : SeniorRequest P) : UndoStackState P :=
  (d.handleDatabaseUpdateRequest (undoStackCallbacks um mount true d.view)
    master request.fromPeerID request.msg request.time).2

end

end ZgChoir
