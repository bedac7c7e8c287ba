import ZgChoir.DecimalText
import ZgChoir.NetworkTreeGateway

/-!
# Operation tags in a subscription message

A subscription message of MUSCLE's says what has become of some nodes: in a
`PR_RESULT_DATAITEMS` message a field under a node's path holds its payloads,
one after another, and one field lists the nodes that are gone; in a
`PR_RESULT_INDEXUPDATED` message a field under a node's path holds the changes
of its index.  `ServerSideMessageTreeSession` adds which operation each item
comes from.  The tags are listed once each in a field of their own; the items
are matched with them by position, in one field for the payloads and index
changes, as `(opTagIndex<<24)|(fieldNameIndex<<12)|(valueIndex)`, and in
another for the removals.

The client side goes through the fields by position, too.  Here are both
sides.  What MUSCLE does of its own accord, `StorageReflectSession`'s
`UpdateSubscriptionMessage` and its fellows, is one addition to a field or the
removal of one.
-/

namespace ZgChoir.OpTagMap

open DecimalText NetworkTreeGateway

/-- The names of the fields: MUSCLE's list of removed nodes, the three of the
operation tags, and the paths of nodes. -/
inductive SubscriptionField where
  | removedDataItems
  | opTagFieldName
  | opTagPutMap
  | opTagRemoveMap
  | node (nodePath : String)
  deriving DecidableEq

/-- A message that is being put together. -/
abbrev SubscriptionMessage (P : Type) := Message SubscriptionField P

/-- The changes of an index, `INDEX_OP_*`. -/
inductive IndexOp where
  | cleared
  | entryInserted
  | entryRemoved

/-- The letter of a change. -/
def IndexOp.letter : IndexOp → Char
  | .cleared => 'c'
  | .entryInserted => 'i'
  | .entryRemoved => 'r'

variable {P : Type}

section ServerSide

/-- `GetOrPutOpTagIndex` -/
def getOrPutOpTagIndex (subscriptionMessage : SubscriptionMessage P)
    (optOpTag : String) : Except Status (ℕ × SubscriptionMessage P) :=
  let opTags := subscriptionMessage.findStrings .opTagFieldName
  if optOpTag ∈ opTags then .ok (opTags.idxOf optOpTag, subscriptionMessage)
  else do
    let subscriptionMessage ←
      subscriptionMessage.addString .opTagFieldName optOpTag
    return (opTags.length, subscriptionMessage)

/-- The index of the current operation tag; -1 if there is none. -/
def currentOpTagIndex (subscriptionMessage : SubscriptionMessage P)
    (optOpTag : String) : Except Status (Int32 × SubscriptionMessage P) :=
  if optOpTag = "" then .ok (-1, subscriptionMessage)
  else do
    let (opTagIndex, subscriptionMessage) ←
      getOrPutOpTagIndex subscriptionMessage optOpTag
    return (.ofNat opTagIndex, subscriptionMessage)

/-- `(opTagIndex<<24)|(fieldNameIndex<<12)|(valueIndex)` -/
def putMapEntry (opTagIndex fieldNameIndex valueIndex : UInt32) : UInt32 :=
  (opTagIndex <<< 24) ||| (fieldNameIndex <<< 12) ||| valueIndex

/-- The entry for the value that has just been added under `nodePath`.  If it
is the only one, the field is the last one. -/
def addPutMapEntry (subscriptionMessage : SubscriptionMessage P)
    (nodePath : String) (opTagIndex : Int32) :
    Except Status (SubscriptionMessage P) :=
  let numValuesInField := subscriptionMessage.numValues (.node nodePath)
  let fieldNameIndex :=
    if 1 < numValuesInField then
      (subscriptionMessage.indexOfName (.node nodePath)).getD 4294967295
    else subscriptionMessage.numNames - 1
  subscriptionMessage.addInt32 .opTagPutMap
    (putMapEntry opTagIndex.toUInt32 (.ofNat fieldNameIndex)
      (.ofNat (numValuesInField - 1))).toInt32

/-- The items that have no tag, up to the one that has: -1 each. -/
def padRemoveMap (subscriptionMessage : SubscriptionMessage P) :
    ℕ → Except Status (SubscriptionMessage P)
  | 0 => .ok subscriptionMessage
  | missing + 1 => do
      let subscriptionMessage ←
        subscriptionMessage.addInt32 .opTagRemoveMap (-1)
      padRemoveMap subscriptionMessage missing

/-- `UpdateSubscriptionMessage`, under the current operation tag. -/
def updateSubscriptionMessage (subscriptionMessage : SubscriptionMessage P)
    (nodePath : String) (optMessageData : Option P) (optOpTag : String) :
    Except Status (SubscriptionMessage P) := do
  let (opTagIndex, subscriptionMessage) ←
    currentOpTagIndex subscriptionMessage optOpTag
  match optMessageData with
  | some messageData =>
      let subscriptionMessage ←
        subscriptionMessage.add (.node nodePath) (.message messageData)
      if 0 ≤ opTagIndex then
        addPutMapEntry subscriptionMessage nodePath opTagIndex
      else return subscriptionMessage
  | none =>
      let subscriptionMessage ←
        subscriptionMessage.addString .removedDataItems nodePath
      if 0 ≤ opTagIndex then
        let removeMapLength := subscriptionMessage.numValues .opTagRemoveMap
        let dataItemsLength := subscriptionMessage.numValues .removedDataItems
        let subscriptionMessage ← padRemoveMap subscriptionMessage
          (dataItemsLength - 1 - removeMapLength)
        subscriptionMessage.replaceInt32 .opTagRemoveMap (dataItemsLength - 1)
          opTagIndex
      else return subscriptionMessage

/-- The text of a change of an index. -/
def indexCommand (op : IndexOp) (index : UInt32) (key : String) : String :=
  .ofList (op.letter :: Nat.toDigits 10 index.toNat ++ ':' :: key.toList)

/-- `UpdateSubscriptionIndexMessage` -/
def updateSubscriptionIndexMessage
    (subscriptionIndexMessage : SubscriptionMessage P) (nodePath : String)
    (op : IndexOp) (index : UInt32) (key optOpTag : String) :
    Except Status (SubscriptionMessage P) := do
  let (opTagIndex, subscriptionIndexMessage) ←
    currentOpTagIndex subscriptionIndexMessage optOpTag
  let subscriptionIndexMessage ← subscriptionIndexMessage.addString
    (.node nodePath) (indexCommand op index key)
  if 0 ≤ opTagIndex then
    addPutMapEntry subscriptionIndexMessage nodePath opTagIndex
  else return subscriptionIndexMessage

/-- `(mapEntry>>24) & 0xFFF` -/
def opTagIndexOf (mapEntry : UInt32) : UInt32 := (mapEntry >>> 24) &&& 0xFFF

/-- `(mapEntry>>12) & 0xFFF` -/
def fieldNameIndexOf (mapEntry : UInt32) : UInt32 :=
  (mapEntry >>> 12) &&& 0xFFF

/-- `mapEntry & 0xFFF` -/
def valueIndexOf (mapEntry : UInt32) : UInt32 := mapEntry &&& 0xFFF

/-- What becomes of an entry when the field at `nodePathIndex` goes. -/
def prunedEntry (nodePathIndex : ℕ) (nextEntry : UInt32) : Option UInt32 :=
  if (fieldNameIndexOf nextEntry).toNat = nodePathIndex then none
  else if nodePathIndex < (fieldNameIndexOf nextEntry).toNat then
    some (putMapEntry (opTagIndexOf nextEntry) (fieldNameIndexOf nextEntry - 1)
      (valueIndexOf nextEntry))
  else some nextEntry

/-- The entries of the put map. -/
def putMapOf (msg : SubscriptionMessage P) : List UInt32 :=
  (Message.int32sIn (msg.valuesOf .opTagPutMap)).map Int32.toUInt32

/-- `PruneSubscriptionMessage` -/
def pruneSubscriptionMessage (subscriptionMessage : SubscriptionMessage P)
    (nodePath : String) : SubscriptionMessage P :=
  let nodePathIndex :=
    if subscriptionMessage.hasName .opTagPutMap .int32 then
      subscriptionMessage.indexOfName (.node nodePath)
    else none
  let subscriptionMessage :=
    match nodePathIndex with
    | some nodePathIndex =>
        subscriptionMessage.setInt32s .opTagPutMap
          (((putMapOf subscriptionMessage).filterMap
            (prunedEntry nodePathIndex)).map UInt32.toInt32)
    | none => subscriptionMessage
  subscriptionMessage.removeName (.node nodePath)

end ServerSide

section ClientSide

/-- `LookupOpTagInPutMap` -/
def lookupOpTagInPutMap (msg : SubscriptionMessage P)
    (opTagPutMap : List UInt32)
    (currentFieldNameIndex currentValueIndex : ℕ) : String :=
  match opTagPutMap.find? fun mapEntry =>
      (fieldNameIndexOf mapEntry).toNat = currentFieldNameIndex &&
        (valueIndexOf mapEntry).toNat = currentValueIndex with
  | some mapEntry =>
      msg.getString .opTagFieldName (opTagIndexOf mapEntry).toNat
  | none => ""

/-- `hasOpTags` -/
def hasOpTags (msg : SubscriptionMessage P) : Bool :=
  msg.hasName .opTagFieldName .string

/-- The put map that the client side uses: none without tags. -/
def usedPutMap (msg : SubscriptionMessage P) : List UInt32 :=
  if hasOpTags msg then putMapOf msg else []

/-- The tag of a removal. -/
def lookupOpTagInRemoveMap (msg : SubscriptionMessage P) (i : ℕ) : String :=
  if hasOpTags msg then
    msg.getString .opTagFieldName
      (msg.getInt32 .opTagRemoveMap (-1) i).toUInt32.toNat
  else ""

variable (convertPathToSessionRelative : String → Option String)

/-- The path of a field's node, if it is deep enough in the tree; a name that
is no path is not. -/
def relativePathOf : SubscriptionField → Option String
  | .node nodePath => convertPathToSessionRelative nodePath
  | _ => none

/-- What the loop over the fields makes of each of them and its position. -/
def overFields (msg : SubscriptionMessage P)
    (ofField : ℕ → String → MessageField P → List (TreeCallback P)) :
    List (TreeCallback P) :=
  msg.fields.entries.zipIdx.flatMap fun entry =>
    match relativePathOf convertPathToSessionRelative entry.1.1 with
    | some nodePath => ofField entry.2 nodePath entry.1.2
    | none => []

/-- `PR_RESULT_DATAITEMS` in `IncomingMuscledMessageReceivedFromServer` -/
def dataItemsReceived (msg : SubscriptionMessage P) : List (TreeCallback P) :=
  (msg.findStrings .removedDataItems).zipIdx.filterMap (fun item =>
    (convertPathToSessionRelative item.1).map fun nodePath =>
      .treeNodeUpdated nodePath none (lookupOpTagInRemoveMap msg item.2)) ++
  overFields convertPathToSessionRelative msg fun currentFieldNameIndex nodePath
      field =>
    (Message.messagesIn field.values).zipIdx.map fun item =>
      .treeNodeUpdated nodePath (some item.1)
        (lookupOpTagInPutMap msg (usedPutMap msg) currentFieldNameIndex item.2)

/-- The callback for the text of a change of an index. -/
def indexCallback (nodePath indexCmd optOpTag : String) :
    Option (TreeCallback P) :=
  let index := (atoi indexCmd.toList.tail).toUInt32
  let key := String.ofList (indexCmd.toList.dropWhile (· ≠ ':')).tail
  match indexCmd.toList.head? with
  | some 'c' => some (.treeNodeIndexCleared nodePath optOpTag)
  | some 'i' =>
      some (.treeNodeIndexEntryInserted nodePath index key optOpTag)
  | some 'r' =>
      some (.treeNodeIndexEntryRemoved nodePath index key optOpTag)
  | _ => none

/-- `PR_RESULT_INDEXUPDATED` in `IncomingMuscledMessageReceivedFromServer` -/
def indexUpdatesReceived (msg : SubscriptionMessage P) :
    List (TreeCallback P) :=
  overFields convertPathToSessionRelative msg fun currentFieldNameIndex nodePath
      field =>
    (Message.stringsIn field.values).zipIdx.filterMap fun item =>
      indexCallback nodePath item.1
        (lookupOpTagInPutMap msg (usedPutMap msg) currentFieldNameIndex item.2)

end ClientSide

end ZgChoir.OpTagMap
