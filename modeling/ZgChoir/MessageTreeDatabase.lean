import ZgChoir.Muscle

/-!
# A message-tree database

`MessageTreeDatabaseObject` keeps one database of a peer below a node of the
session's tree.  A command changes the tree through MUSCLE; from the
callbacks that MUSCLE makes on the way, the object keeps a running checksum
and, on the senior peer, puts together the message that will repeat the
changes on the junior peers.

The model has these two halves.  A command is first followed through the
tree, which gives an `Execution`; the callbacks are then made for its
effects, one after another.  Nothing that the callbacks do has a bearing on
the tree.
-/

namespace ZgChoir

variable {P : Type}

/-- Where a database lives: the root paths of the message-tree databases of
the session, in the order of the databases, and which one it is. -/
structure Mount where
  roots : List NodePath
  dbIndex : ℕ
  root : NodePath
  mounted : roots[dbIndex]? = some root

/-- A message-tree database, with the tree that it shares with the other
databases of the session.  `recordsUndo` tells an
`UndoStackMessageTreeDatabaseObject` from its base class; only the former
uses `assembledJuniorUndoMessage`. -/
structure MessageTreeDatabaseObject (P : Type) where
  tree : MessageTree P
  checksum : UInt32
  assembledJuniorMessage : Option (TreeMessage P)
  recordsUndo : Bool
  assembledJuniorUndoMessage : Option (TreeMessage P)

/-- What the handlers of commands depend on besides the tree: whether they
run in a senior update, the operation tag that is current, and the virtual
method that may skip a message. -/
structure CommandContext where
  inSeniorUpdate : Bool
  opTag : String
  isOkayToHandleUpdateMessage : NodePath → TreeGatewayFlags → Bool

/-- `DECLARE_OP_TAG_GUARD`: a tag that is not empty is the current one. -/
def CommandContext.guardTag (ctx : CommandContext) (optOpTag : String) :
    String :=
  if optOpTag = "" then ctx.opTag else optOpTag

/-- The base class skips nothing. -/
def CommandContext.plain (inSeniorUpdate : Bool) : CommandContext :=
  { inSeniorUpdate, opTag := "", isOkayToHandleUpdateMessage := fun _ _ => true }

section

variable (m : Muscle P) (mount : Mount)

/-! ### Paths -/

/-- `MessageTreeDatabaseObject::GetDatabaseSubpath`, of a path that is
relative to the session: what is left of it below the database's root.  A
path that may be a pattern is matched against the root. -/
def getDatabaseSubpath (root path : NodePath) : Option NodePath :=
  if m.canMatchMultipleValues path then
    if path.length < root.length then none
    else if m.segmentsMatch (path.take root.length) root then
      some (path.drop root.length)
    else none
  else if root <+: path then some (path.drop root.length)
  else none

/-- `MessageTreeDatabasePeerSession::GetDatabaseForNodePath`: the database
whose root is closest above the node, and the path below that root. -/
def getDatabaseForNodePath (nodePath : NodePath) : Option (ℕ × NodePath) :=
  mount.roots.zipIdx.foldl (fun closest next =>
    match getDatabaseSubpath m next.1 nodePath, closest with
    | some subPath, some (_, closestSubpath) =>
        if subPath.length < closestSubpath.length then some (next.2, subPath)
        else closest
    | some subPath, none => some (next.2, subPath)
    | none, _ => closest) none

/-- The path of a node below the root, when the node is in this database. -/
def relativePathOf (nodePath : NodePath) : Option NodePath :=
  match getDatabaseForNodePath m mount nodePath with
  | some (i, relativePath) =>
      if i = mount.dbIndex then some relativePath else none
  | none => none

/-- `IsNodeInThisDatabase`. -/
def isNodeInThisDatabase (nodePath : NodePath) : Bool :=
  (relativePathOf m mount nodePath).isSome

/-- `DatabaseSubpathToSessionRelativePath`. -/
def databaseSubpathToSessionRelativePath (t : MessageTree P)
    (subPath : NodePath) (flags : TreeGatewayFlags) : NodePath :=
  let ret := mount.root ++ subPath
  if flags.traverseSymlink then
    -- `GetDataNode` takes a path that starts with a slash as absolute
    match (m.getDataNode t
      (if subPath.head? = some "" then subPath else ret)).bind t.lookup with
    | some dn => (m.symlinkTarget dn.payload).getD ret
    | none => ret
  else ret

/-! ### Commands -/

/-- `NUM_NODE_IDS`. -/
def numNodeIDs : ℕ := 100000

/-- The loop of `GetUnusedNodeID`: the next ID that names no child, with or
without an "I" in front. -/
def findUnusedNodeID (t : MessageTree P) (node : NodePath) : ℕ → ℕ → Option ℕ
  | 0, _ => none
  | tries + 1, nextID =>
      if node ++ [toString nextID] ∈ t.nodes ∨
          node ++ ["I" ++ toString nextID] ∈ t.nodes then
        findUnusedNodeID t node tries ((nextID + 1) % numNodeIDs)
      else some nextID

/-- What `GetUnusedNodeID` does when the node is there. -/
def withUnusedChildID (t : MessageTree P) (path : NodePath)
    (use : (t' : MessageTree P) → ℕ → Execution t') : Execution t :=
  match m.getDataNode t path with
  | some node =>
      match findUnusedNodeID t node numNodeIDs
          (m.getMaxKnownChildIDHint t node % numNodeIDs) with
      | some newNodeID => use t newNodeID
      | none => .nothing t (.other "Node IDs exhausted")
  | none => .nothing t .dataNotFound

/-- `MessageTreeDatabasePeerSession::GetUnusedNodeID`, and what is done with
the ID.  A node that is not there is created first. -/
def withUnusedNodeID (interim : Bool) (opTag : String) (t : MessageTree P)
    (path : NodePath) (use : (t' : MessageTree P) → ℕ → Execution t') :
    Execution t :=
  match m.getDataNode t path with
  | some _ => withUnusedChildID m t path use
  | none =>
      (Execution.ofOutcome (m.setDataNode t path m.emptyMessage {} none)
        false interim opTag).andThen fun t' =>
          withUnusedChildID m t' path use

/-- `MessageTreeDatabaseObject::RemoveDataNodes`, with a filter that lets
nodes of other databases alone. -/
def removeDataNodes (interim : Bool) (opTag : String) (t : MessageTree P)
    (nodePath : NodePath) (filter : Option (P → Bool)) (quiet : Bool) :
    Execution t :=
  .ofOutcome (m.removeDataNodes t nodePath fun p node =>
    isNodeInThisDatabase m mount p &&
      (match filter with
        | some matchesFilter => matchesFilter node.payload
        | none => true)) quiet interim opTag

/-- The end of `HandleNodeUpdateMessageAux`: the payload is set, and a
refusal that the flags asked for is no error. -/
def setNodeValue (flags : TreeGatewayFlags) (optBefore opTag : String)
    (t : MessageTree P) (sessionRelativePath : NodePath) (payload : P) :
    Execution t :=
  let ret := Execution.ofOutcome
    (m.setDataNode t sessionRelativePath payload
      (convertTreeGatewayFlagsToSetDataNodeFlags flags)
      (if optBefore = "" then none else some optBefore))
    false flags.interim opTag
  if ret.status = .accessDenied &&
      (flags.dontCreateNode || flags.dontOverwriteData) then
    ret.withStatus .noError
  else ret

/-- `HandleNodeUpdateMessage`. -/
def handleNodeUpdateMessage (ctx : CommandContext) (t : MessageTree P)
    (path : NodePath) (optPayload : Option P) (flags : TreeGatewayFlags)
    (optBefore optOpTag : String) : Execution t :=
  if ctx.isOkayToHandleUpdateMessage path flags then
    let opTag := ctx.guardTag optOpTag
    let sessionRelativePath :=
      databaseSubpathToSessionRelativePath m mount t path flags
    match optPayload with
    | some payload =>
        if ctx.inSeniorUpdate && sessionRelativePath.getLast? == some "" then
          -- the client wants us to choose an available node ID
          withUnusedNodeID m flags.interim opTag t sessionRelativePath.dropLast
            fun t' newNodeID =>
              setNodeValue m flags optBefore opTag t'
                (sessionRelativePath.dropLast ++
                  [(if flags.indexed then "I" else "") ++ toString newNodeID])
                payload
        else setNodeValue m flags optBefore opTag t sessionRelativePath payload
    | none =>
        removeDataNodes m mount flags.interim opTag t sessionRelativePath none
          flags.noReply
  else .nothing t .noError

/-- `HandleNodeIndexUpdateMessage`. -/
def handleNodeIndexUpdateMessage (ctx : CommandContext) (t : MessageTree P)
    (path : NodePath) (inserts : Bool) (index : ℕ) (key : String)
    (flags : TreeGatewayFlags) (optOpTag : String) : Execution t :=
  if ctx.isOkayToHandleUpdateMessage path {} then
    match m.getDataNode t
      (databaseSubpathToSessionRelativePath m mount t path flags) with
    | some node =>
        let ret := Execution.ofOutcome
          (if inserts then m.insertIndexEntryAt t node index key
            else m.removeIndexEntryAt t node index)
          false false (ctx.guardTag optOpTag)
        ret.withStatus .noError
    | none => .nothing t .dataNotFound
  else .nothing t .noError

/-- `HandleSubtreeUpdateMessage`. -/
def handleSubtreeUpdateMessage (ctx : CommandContext) (t : MessageTree P)
    (path : NodePath) (optPayload : Option P) (flags : TreeGatewayFlags)
    (optOpTag : String) : Execution t :=
  match optPayload with
  | some payload =>
      .ofOutcome (m.restoreNodeTreeFromMessage t payload
        (databaseSubpathToSessionRelativePath m mount t path flags))
        false false (ctx.guardTag optOpTag)
  | none => .nothing t .badArgument

/-- `SeniorMessageTreeUpdate`, of a message that is no batch. -/
def seniorCommand (ctx : CommandContext) (t : MessageTree P) :
    TreeMessage P → Execution t
  | .noop => .nothing t .noError
  | .updateNodeValue path optPayload flags optBefore optOpTag =>
      handleNodeUpdateMessage m mount ctx t path optPayload flags optBefore
        optOpTag
  | .updateSubtree path optPayload flags optOpTag =>
      handleSubtreeUpdateMessage m mount ctx t path optPayload flags optOpTag
  | .insertIndexEntry path index key flags optOpTag =>
      handleNodeIndexUpdateMessage m mount ctx t path true index key flags
        optOpTag
  | .removeIndexEntry path index key flags optOpTag =>
      handleNodeIndexUpdateMessage m mount ctx t path false index key flags
        optOpTag
  | .requestDeleteNodes path filter flags optOpTag =>
      removeDataNodes m mount false (ctx.guardTag optOpTag) t
        (databaseSubpathToSessionRelativePath m mount t path flags) filter
        flags.noReply
  | .moveIndexEntry path optBefore filter flags optOpTag =>
      .ofOutcome (m.moveIndexEntries t
        (databaseSubpathToSessionRelativePath m mount t path flags)
        (if optBefore = "" then none else some optBefore) fun p node =>
          isNodeInThisDatabase m mount p &&
            (match filter with
              | some matchesFilter => matchesFilter node.payload
              | none => true)) false false (ctx.guardTag optOpTag)
  | .batch _ => .nothing t .unimplemented
  | .unknown _ => .nothing t .unimplemented

/-- `JuniorMessageTreeUpdate`, of a message that is no batch. -/
def juniorCommand (ctx : CommandContext) (t : MessageTree P) :
    TreeMessage P → Execution t
  | .noop => .nothing t .noError
  | .updateNodeValue path optPayload flags optBefore optOpTag =>
      handleNodeUpdateMessage m mount ctx t path optPayload flags optBefore
        optOpTag
  | .updateSubtree .. => .nothing t .badArgument
  | .insertIndexEntry path index key flags optOpTag =>
      handleNodeIndexUpdateMessage m mount ctx t path true index key flags
        optOpTag
  | .removeIndexEntry path index key flags optOpTag =>
      handleNodeIndexUpdateMessage m mount ctx t path false index key flags
        optOpTag
  | _ => .nothing t .unimplemented

end

/-- A batch, recursively: the messages in it one after another, up to the
first error. -/
def runMessage (command : (t : MessageTree P) → TreeMessage P → Execution t) :
    TreeMessage P → (t : MessageTree P) → Execution t
  | .batch subMsgs => runAll subMsgs
  | msg => fun t => command t msg
where
  runAll : List (TreeMessage P) → (t : MessageTree P) → Execution t
  | [] => fun t => .nothing t .noError
  | subMsg :: subMsgs => fun t =>
      (runMessage command subMsg t).andThen (runAll subMsgs)

section

variable (m : Muscle P) (mount : Mount)

/-! ### Checksums -/

/-- What a node adds to a checksum itself. -/
def nodeChecksum (node : DataNode P) : UInt32 :=
  m.messageChecksum node.payload + (node.index.map m.stringChecksum).sum

/-- `DataNode::CalculateChecksum`, of the node at `p`: itself and everything
below it. -/
def subtreeChecksum (t : MessageTree P) (p : NodePath) : UInt32 :=
  t.nodes.total fun q node => if p <+: q then nodeChecksum m node else 0

namespace MessageTreeDatabaseObject

/-- `MessageTreeDatabaseObject::CalculateChecksum`. -/
def calculateChecksum (db : MessageTreeDatabaseObject P) : UInt32 :=
  if mount.root ∈ db.tree.nodes then subtreeChecksum m db.tree mount.root
  else 0

/-! ### Callbacks -/

/-- `SeniorRecordNodeUpdateMessage` and `SeniorRecordNodeIndexUpdateMessage`:
the message for the junior peers grows at its end; an undo-stack database
puts the opposite action in front of its undo message as well. -/
def record (db : MessageTreeDatabaseObject P) (doMsg undoMsg : TreeMessage P) :
    MessageTreeDatabaseObject P :=
  { db with
    assembledJuniorMessage :=
      some (m.assembleBatchMessage db.assembledJuniorMessage doMsg false)
    assembledJuniorUndoMessage :=
      if db.recordsUndo then
        some (m.assembleBatchMessage db.assembledJuniorUndoMessage undoMsg true)
      else db.assembledJuniorUndoMessage }

/-- `CreateNodeUpdateMessage`, as the senior records it. -/
def createNodeUpdateMessage (relativePath : NodePath) (optPayload : Option P)
    (interim : Bool) (opTag : String) : TreeMessage P :=
  .updateNodeValue relativePath optPayload { interim } "" opTag

/-- `CreateNodeIndexUpdateMessage`. -/
def createNodeIndexUpdateMessage (relativePath : NodePath) (inserted : Bool)
    (index : ℕ) (key : String) (opTag : String) : TreeMessage P :=
  if inserted then .insertIndexEntry relativePath index key {} opTag
  else .removeIndexEntry relativePath index key {} opTag

/-- `MessageTreeNodeUpdated`, of a node with this payload and checksum. -/
def messageTreeNodeUpdated (inSeniorUpdate : Bool)
    (db : MessageTreeDatabaseObject P) (relativePath : NodePath) (payload : P)
    (checksumOfNode : UInt32) (oldPayload : Option P) (isBeingRemoved : Bool)
    (interim : Bool) (opTag : String) : MessageTreeDatabaseObject P :=
  let newPayload := if isBeingRemoved then none else some payload
  let recorded :=
    if inSeniorUpdate then
      db.record m
        (createNodeUpdateMessage relativePath newPayload interim opTag)
        (createNodeUpdateMessage relativePath oldPayload interim opTag)
    else db
  { recorded with
    checksum :=
      if isBeingRemoved then db.checksum - checksumOfNode
      else match oldPayload with
        | some old =>
            db.checksum - m.messageChecksum old + m.messageChecksum payload
        | none => db.checksum + checksumOfNode }

/-- `MessageTreeNodeIndexChanged`. -/
def messageTreeNodeIndexChanged (inSeniorUpdate : Bool)
    (db : MessageTreeDatabaseObject P) (relativePath : NodePath)
    (inserted : Bool) (index : ℕ) (key : String) (opTag : String) :
    MessageTreeDatabaseObject P :=
  let recorded :=
    if inSeniorUpdate then
      db.record m
        (createNodeIndexUpdateMessage relativePath inserted index key opTag)
        (createNodeIndexUpdateMessage relativePath (!inserted) index key opTag)
    else db
  { recorded with
    checksum :=
      if inserted then db.checksum + m.stringChecksum key
      else db.checksum - m.stringChecksum key }

/-- The callback for a change of one of the database's own nodes.  A node is
still there when its removal is reported. -/
def hear (inSeniorUpdate : Bool) (db : MessageTreeDatabaseObject P)
    (relativePath : NodePath) (e : Effect P) : MessageTreeDatabaseObject P :=
  match e.change with
  | .payloadSet path payload =>
      messageTreeNodeUpdated m inSeniorUpdate db relativePath payload
        (subtreeChecksum m (e.change.applyTo db.tree) path)
        ((db.tree.lookup path).map (·.payload)) false e.interim e.opTag
  | .removed path =>
      match db.tree.lookup path with
      | some node =>
          messageTreeNodeUpdated m inSeniorUpdate db relativePath node.payload
            (subtreeChecksum m db.tree path) (some node.payload) true
            e.interim e.opTag
      | none => db
  | .indexInserted _ index key =>
      messageTreeNodeIndexChanged m inSeniorUpdate db relativePath true index
        key e.opTag
  | .indexRemoved _ index key =>
      messageTreeNodeIndexChanged m inSeniorUpdate db relativePath false index
        key e.opTag

/-- One effect: the tree changes, and `NotifySubscribersThatNodeChanged` or
`NotifySubscribersThatNodeIndexChanged` hands it to the database that the
node belongs to, unless it was to be kept quiet. -/
def notify (inSeniorUpdate : Bool) (db : MessageTreeDatabaseObject P)
    (e : Effect P) : MessageTreeDatabaseObject P :=
  let heard :=
    if e.quiet then db
    else match relativePathOf m mount e.change.path with
      | some relativePath => db.hear m inSeniorUpdate relativePath e
      | none => db
  { heard with tree := e.change.applyTo db.tree }

/-- All effects of an execution. -/
def notifyAll (inSeniorUpdate : Bool) (db : MessageTreeDatabaseObject P)
    (effects : List (Effect P)) : MessageTreeDatabaseObject P :=
  effects.foldl (notify m mount inSeniorUpdate) db

/-! ### Methods of the object -/

/-- What `SeniorMessageTreeUpdate` does to the tree. -/
def seniorMessageTreeUpdate (db : MessageTreeDatabaseObject P)
    (msg : TreeMessage P) : Execution db.tree :=
  runMessage (seniorCommand m mount (.plain true)) msg db.tree

/-- What `JuniorMessageTreeUpdate` does to the tree. -/
def juniorMessageTreeUpdate (db : MessageTreeDatabaseObject P)
    (msg : TreeMessage P) : Execution db.tree :=
  runMessage (juniorCommand m mount (.plain false)) msg db.tree

/-- `MessageTreeDatabaseObject::SeniorUpdate`: the message for the junior
peers, or nothing if the update failed. -/
def seniorUpdate (db : MessageTreeDatabaseObject P)
    (seniorDoMsg : TreeMessage P) :
    MessageTreeDatabaseObject P × Option (TreeMessage P) :=
  let ret := db.seniorMessageTreeUpdate m mount seniorDoMsg
  let updated := db.notifyAll m mount true ret.effects
  let done := { updated with assembledJuniorMessage := none }
  if ret.status.isOK then
    (done, some (updated.assembledJuniorMessage.getD .noop))
  else (done, none)

/-- `MessageTreeDatabaseObject::JuniorUpdate`. -/
def juniorUpdate (db : MessageTreeDatabaseObject P)
    (juniorDoMsg : TreeMessage P) : MessageTreeDatabaseObject P × Status :=
  let ret := db.juniorMessageTreeUpdate m mount juniorDoMsg
  (db.notifyAll m mount false ret.effects, ret.status)

/-- What `SetToDefaultState` does to the tree: the root node is removed. -/
def removeRoot (db : MessageTreeDatabaseObject P) : Execution db.tree :=
  removeDataNodes m mount false "" db.tree mount.root none false

/-- `MessageTreeDatabaseObject::SetToDefaultState`. -/
def setToDefaultState (inSeniorUpdate : Bool)
    (db : MessageTreeDatabaseObject P) : MessageTreeDatabaseObject P :=
  db.notifyAll m mount inSeniorUpdate (db.removeRoot m mount).effects

/-- What `SetFromArchive` does to the tree. -/
def restore (db : MessageTreeDatabaseObject P) (archive : P) :
    Execution db.tree :=
  .ofOutcome (m.restoreNodeTreeFromMessage db.tree archive mount.root)
    false false ""

/-- `MessageTreeDatabaseObject::SetFromArchive`. -/
def setFromArchive (inSeniorUpdate : Bool) (db : MessageTreeDatabaseObject P)
    (archive : P) : MessageTreeDatabaseObject P × Status :=
  let ret := db.restore m mount archive
  (db.notifyAll m mount inSeniorUpdate ret.effects, ret.status)

/-- `MessageTreeDatabaseObject::SaveToArchive`, into an empty message. -/
def saveToArchive (db : MessageTreeDatabaseObject P) : Status × P :=
  if mount.root ∈ db.tree.nodes then
    m.saveNodeTreeToMessage db.tree mount.root
  else (.noError, m.emptyMessage)

end MessageTreeDatabaseObject

end

end ZgChoir
