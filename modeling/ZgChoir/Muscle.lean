import ZgChoir.MessageTree

/-!
# What a database object asks of MUSCLE

The tree belongs to the session, a MUSCLE `StorageReflectSession`; a database
object changes it through the session's methods, and hears of the changes
through callbacks.  MUSCLE is not part of the repository, so its methods are
the fields of a structure.  A method answers with a status and the changes it
has made; that each of them applies in its turn is part of the answer.

An `Execution` is what becomes of a tree in the course of a command: the
changes, each with the circumstances its callback finds.
-/

namespace ZgChoir

/-- The bits of `TreeGatewayFlags`. -/
structure TreeGatewayFlags where
  indexed : Bool := false
  noReply : Bool := false
  interim : Bool := false
  sync : Bool := false
  dontCreateNode : Bool := false
  dontOverwriteData : Bool := false
  enableSupercede : Bool := false
  traverseSymlink : Bool := false
  deriving DecidableEq

/-- The bits of MUSCLE's `SetDataNodeFlags` that are used. -/
structure SetDataNodeFlags where
  addToIndex : Bool := false
  dontCreateNode : Bool := false
  dontOverwriteData : Bool := false
  enableSupercede : Bool := false

/-- `ConvertTreeGatewayFlagsToSetDataNodeFlags`.  The quiet bit is left out
on purpose: "it prevents data replication from working across peers". -/
def convertTreeGatewayFlagsToSetDataNodeFlags (tgf : TreeGatewayFlags) :
    SetDataNodeFlags :=
  { addToIndex := tgf.indexed
    dontCreateNode := tgf.dontCreateNode
    dontOverwriteData := tgf.dontOverwriteData
    enableSupercede := tgf.enableSupercede }

/-- The messages that a message-tree database is updated with, by their
what-code.  A filter is what the query-filter factory makes of the filter
field; empty strings stand for absent ones, as in the code. -/
inductive TreeMessage (P : Type) where
  | batch (subMsgs : List (TreeMessage P))
  | noop
  | updateNodeValue (path : NodePath) (optPayload : Option P)
      (flags : TreeGatewayFlags) (optBefore optOpTag : String)
  | updateSubtree (path : NodePath) (optPayload : Option P)
      (flags : TreeGatewayFlags) (optOpTag : String)
  | insertIndexEntry (path : NodePath) (index : ℕ) (key : String)
      (flags : TreeGatewayFlags) (optOpTag : String)
  | removeIndexEntry (path : NodePath) (index : ℕ) (key : String)
      (flags : TreeGatewayFlags) (optOpTag : String)
  | requestDeleteNodes (path : NodePath) (filter : Option (P → Bool))
      (flags : TreeGatewayFlags) (optOpTag : String)
  | moveIndexEntry (path : NodePath) (optBefore : String)
      (filter : Option (P → Bool)) (flags : TreeGatewayFlags)
      (optOpTag : String)
  | unknown (what : UInt32)

variable {P : Type} {t : MessageTree P}

/-- The answer of a method of MUSCLE that may change the tree. -/
structure Outcome (t : MessageTree P) where
  status : Status
  changes : List (TreeChange P)
  valid : TreeChange.Valid t changes

/-- What a database object uses of MUSCLE. -/
structure Muscle (P : Type) where
  /-- `Message::CalculateChecksum` -/
  messageChecksum : P → UInt32
  /-- `String::CalculateChecksum` -/
  stringChecksum : String → UInt32
  /-- a message without fields -/
  emptyMessage : P
  /-- `CanWildcardStringMatchMultipleValues` -/
  canMatchMultipleValues : NodePath → Bool
  /-- `SegmentedStringMatcher::Match` -/
  segmentsMatch (pattern path : NodePath) : Bool
  /-- the string under `SYMLINK_FIELD_NAME` -/
  symlinkTarget : P → Option NodePath
  /-- `AssembleBatchMessage`, on a reference that may be null -/
  assembleBatchMessage : Option (TreeMessage P) → TreeMessage P → Bool →
    TreeMessage P
  /-- `GetDataNode`: the node that a path, or the first that a pattern,
  names -/
  getDataNode : MessageTree P → NodePath → Option NodePath
  /-- `DataNode::GetMaxKnownChildIDHint` -/
  getMaxKnownChildIDHint : MessageTree P → NodePath → ℕ
  /-- `SetDataNode` -/
  setDataNode (t : MessageTree P) (path : NodePath) (payload : P)
    (flags : SetDataNodeFlags) (optInsertBefore : Option String) : Outcome t
  /-- `RemoveDataNodes` -/
  removeDataNodes (t : MessageTree P) (path : NodePath)
    (filter : NodePath → DataNode P → Bool) : Outcome t
  /-- `MoveIndexEntries` -/
  moveIndexEntries (t : MessageTree P) (path : NodePath)
    (optBefore : Option String) (filter : NodePath → DataNode P → Bool) :
    Outcome t
  /-- `RestoreNodeTreeFromMessage` -/
  restoreNodeTreeFromMessage (t : MessageTree P) (msg : P) (path : NodePath) :
    Outcome t
  /-- `SaveNodeTreeToMessage`, into an empty message -/
  saveNodeTreeToMessage (t : MessageTree P) (path : NodePath) : Status × P
  /-- `DataNode::InsertIndexEntryAt` -/
  insertIndexEntryAt (t : MessageTree P) (path : NodePath) (index : ℕ)
    (key : String) : Outcome t
  /-- `DataNode::RemoveIndexEntryAt` -/
  removeIndexEntryAt (t : MessageTree P) (path : NodePath) (index : ℕ) :
    Outcome t

/-- A change as its callback finds it: whether there is a callback at all,
whether an interim update is being handled, and the current operation tag. -/
structure Effect (P : Type) where
  quiet : Bool
  interim : Bool
  opTag : String
  change : TreeChange P

/-- What has become of the tree `t`. -/
structure Execution (t : MessageTree P) where
  status : Status
  effects : List (Effect P)
  valid : TreeChange.Valid t (effects.map (·.change))

namespace Execution

/-- The tree as it is now. -/
def tree (e : Execution t) : MessageTree P :=
  TreeChange.applyAll t (e.effects.map (·.change))

/-- Nothing has happened. -/
def nothing (t : MessageTree P) (status : Status) : Execution t :=
  { status, effects := [], valid := trivial }

/-- MUSCLE has done something, in the given circumstances. -/
def ofOutcome (o : Outcome t) (quiet interim : Bool) (opTag : String) :
    Execution t where
  status := o.status
  effects := o.changes.map fun change => { quiet, interim, opTag, change }
  valid := by simpa [Function.comp_def] using o.valid

/-- Another status for the same effects. -/
def withStatus (e : Execution t) (status : Status) : Execution t :=
  { e with status }

/-- What comes next, whatever the status so far. -/
def followedBy (e : Execution t) (next : (t' : MessageTree P) → Execution t') :
    Execution t where
  status := (next e.tree).status
  effects := e.effects ++ (next e.tree).effects
  valid := by
    rw [List.map_append, TreeChange.valid_append]
    exact ⟨e.valid, (next e.tree).valid⟩

/-- `MRETURN_ON_ERROR`: what comes next, unless there has been an error. -/
def andThen (e : Execution t) (next : (t' : MessageTree P) → Execution t') :
    Execution t :=
  if e.status.isOK then e.followedBy next else e

end Execution

end ZgChoir
