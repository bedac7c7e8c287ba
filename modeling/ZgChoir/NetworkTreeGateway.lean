import ZgChoir.Message

/-!
# The network gateway's protocol

`ClientSideNetworkTreeGateway` turns the calls of the `ITreeGateway` interface
into messages, `ServerSideNetworkTreeGatewaySubscriber` turns the messages
into calls of the server's gateway; callbacks take the same way back.  Each
command and each callback is written by a method of its own and read in one
`switch`.

Here are the calls and the callbacks, each with its arguments, the methods
that write the messages and the two that read them.  Payloads are messages of
a type `M`, filters of a type `F`: a filter travels as the archive of it that
`QueryFilter` makes, and the factory makes a filter of an archive.
-/

namespace ZgChoir.NetworkTreeGateway

/-- The names of the fields. -/
inductive FieldName where
  | path
  | queryFilter
  | payload
  | flags
  | tag
  | maxDepth
  | before
  | index
  | name
  deriving DecidableEq

/-- The names as they are sent. -/
def FieldName.text : FieldName → String
  | .path => "ntg_pth"
  | .queryFilter => "ntg_qf"
  | .payload => "ntg_pay"
  | .flags => "ntg_flg"
  | .tag => "ntg_tag"
  | .maxDepth => "ntg_max"
  | .before => "ntg_b4"
  | .index => "ntg_idx"
  | .name => "ntg_nam"

/-- No two fields share a name. -/
theorem FieldName.text_injective : Function.Injective FieldName.text := by
  intro a b h
  cases a <;> cases b <;> first | rfl | simp [FieldName.text] at h

/-- The commands, `NTG_COMMAND_*`. -/
inductive CommandCode where
  | addSubscription
  | removeSubscription
  | removeAllSubscriptions
  | requestNodeSubtrees
  | requestNodeValues
  | ping
  | uploadNodeValue
  | uploadNodeSubtree
  | removeNodes
  | moveIndexEntries
  | beginSequence
  | endSequence
  | undo
  | redo
  | messageToSeniorPeer
  | messageToSubscriber
  deriving DecidableEq

/-- The what-code of a command, `'ngc0'` and on. -/
def CommandCode.what : CommandCode → UInt32
  | .addSubscription => 1852269360
  | .removeSubscription => 1852269361
  | .removeAllSubscriptions => 1852269362
  | .requestNodeSubtrees => 1852269363
  | .requestNodeValues => 1852269364
  | .ping => 1852269365
  | .uploadNodeValue => 1852269366
  | .uploadNodeSubtree => 1852269367
  | .removeNodes => 1852269368
  | .moveIndexEntries => 1852269369
  | .beginSequence => 1852269370
  | .endSequence => 1852269371
  | .undo => 1852269372
  | .redo => 1852269373
  | .messageToSeniorPeer => 1852269374
  | .messageToSubscriber => 1852269375

/-- The command that a what-code stands for. -/
def CommandCode.ofWhat? (what : UInt32) : Option CommandCode :=
  [addSubscription, removeSubscription, removeAllSubscriptions,
    requestNodeSubtrees, requestNodeValues, ping, uploadNodeValue,
    uploadNodeSubtree, removeNodes, moveIndexEntries, beginSequence,
    endSequence, undo, redo, messageToSeniorPeer, messageToSubscriber].find?
      fun code => decide (code.what = what)

@[simp] theorem CommandCode.ofWhat?_what (code : CommandCode) :
    ofWhat? code.what = some code := by
  cases code <;> rfl

/-- The replies, `NTG_REPLY_*`. -/
inductive ReplyCode where
  | nodeUpdated
  | indexCleared
  | indexEntryInserted
  | indexEntryRemoved
  | pong
  | subtrees
  | messageFromSeniorPeer
  | messageFromSubscriber
  deriving DecidableEq

/-- The what-code of a reply, `'ngr0'` and on. -/
def ReplyCode.what : ReplyCode → UInt32
  | .nodeUpdated => 1852273200
  | .indexCleared => 1852273201
  | .indexEntryInserted => 1852273202
  | .indexEntryRemoved => 1852273203
  | .pong => 1852273204
  | .subtrees => 1852273205
  | .messageFromSeniorPeer => 1852273206
  | .messageFromSubscriber => 1852273207

/-- The reply that a what-code stands for. -/
def ReplyCode.ofWhat? (what : UInt32) : Option ReplyCode :=
  [nodeUpdated, indexCleared, indexEntryInserted, indexEntryRemoved, pong,
    subtrees, messageFromSeniorPeer, messageFromSubscriber].find?
      fun code => decide (code.what = what)

@[simp] theorem ReplyCode.ofWhat?_what (code : ReplyCode) :
    ofWhat? code.what = some code := by
  cases code <;> rfl

/-- A call of the `ITreeGateway` interface.  A null reference is `none`. -/
inductive TreeCommand (M F : Type) where
  | addSubscription (subscriptionPath : String) (optFilterRef : Option F)
      (flags : TreeGatewayFlags)
  | removeSubscription (subscriptionPath : String) (optFilterRef : Option F)
      (flags : TreeGatewayFlags)
  | removeAllSubscriptions (flags : TreeGatewayFlags)
  | requestNodeValues (queryString : String) (optFilterRef : Option F)
      (flags : TreeGatewayFlags) (tag : String)
  | requestNodeSubtrees (queryStrings : List String)
      (queryFilters : List (Option F)) (tag : String) (maxDepth : UInt32)
      (flags : TreeGatewayFlags)
  | uploadNodeValue (path : String) (optPayload : Option M)
      (flags : TreeGatewayFlags) (optBefore optOpTag : String)
  | uploadNodeSubtree (basePath : String) (valuesMsg : Option M)
      (flags : TreeGatewayFlags) (optOpTag : String)
  | requestDeleteNodes (path : String) (optFilterRef : Option F)
      (flags : TreeGatewayFlags) (optOpTag : String)
  | requestMoveIndexEntry (path optBefore : String) (optFilterRef : Option F)
      (flags : TreeGatewayFlags) (optOpTag : String)
  | pingLocalPeer (tag : String) (flags : TreeGatewayFlags)
  | pingSeniorPeer (tag : String) (whichDB : UInt32) (flags : TreeGatewayFlags)
  | sendMessageToSeniorPeer (userMsg : Option M) (whichDB : UInt32)
      (tag : String)
  | sendMessageToSubscriber (path : String) (userMsg : Option M)
      (optFilterRef : Option F) (tag : String)
  | beginUndoSequence (optSequenceLabel : String) (whichDB : UInt32)
  | endUndoSequence (optSequenceLabel : String) (whichDB : UInt32)
  | requestUndo (whichDB : UInt32) (optOpTag : String)
  | requestRedo (whichDB : UInt32) (optOpTag : String)

/-- A callback of the `ITreeGatewaySubscriber` interface. -/
inductive TreeCallback (M : Type) where
  | treeNodeUpdated (nodePath : String) (optPayloadMsg : Option M)
      (optOpTag : String)
  | treeNodeIndexCleared (path optOpTag : String)
  | treeNodeIndexEntryInserted (path : String) (insertedAtIndex : UInt32)
      (nodeName optOpTag : String)
  | treeNodeIndexEntryRemoved (path : String) (removedAtIndex : UInt32)
      (nodeName optOpTag : String)
  | treeLocalPeerPonged (tag : String)
  | treeSeniorPeerPonged (tag : String) (whichDB : UInt32)
  | messageReceivedFromTreeSeniorPeer (whichDB : Int32) (tag : String)
      (payload : Option M)
  | messageReceivedFromSubscriber (nodePath : String) (payload : Option M)
      (returnAddress : String)
  | subtreesRequestResultReturned (tag : String) (subtreeData : Option M)

/-- `MUSCLE_NO_LIMIT` -/
def muscleNoLimit : UInt32 := 4294967295

/-- A message of this protocol. -/
abbrev NetworkMessage (M : Type) := Message FieldName M

variable {M F : Type}

section ClientSide

variable (archive : F → M)

/-- `HandleBasicCommandAux` -/
def handleBasicCommandAux (code : CommandCode) (subscriptionPath : String)
    (optFilterRef : Option F) (flags : TreeGatewayFlags) (optOpTag : String) :
    Except Status (NetworkMessage M) := do
  let msg ← (Message.ofWhat code.what).cAddMessage .queryFilter
    (optFilterRef.map archive)
  let msg ← msg.cAddString .path subscriptionPath
  let msg ← msg.cAddString .tag optOpTag
  msg.cAddFlat .flags flags

/-- `TreeGateway_RemoveAllSubscriptions` -/
def removeAllSubscriptions (flags : TreeGatewayFlags) :
    Except Status (NetworkMessage M) :=
  (Message.ofWhat CommandCode.removeAllSubscriptions.what).cAddFlat .flags flags

/-- The loop of `TreeGateway_RequestNodeSubtrees`: each string is followed by
its filter, if there is one left, and that must not be null. -/
def addQueries (msg : NetworkMessage M) :
    List String → List (Option F) → Except Status (NetworkMessage M)
  | [], _ => .ok msg
  | queryString :: queryStrings, [] => do
      let msg ← msg.addString .path queryString
      addQueries msg queryStrings []
  | queryString :: queryStrings, some queryFilter :: queryFilters => do
      let msg ← msg.addString .path queryString
      let msg ← msg.add .queryFilter (.message (archive queryFilter))
      addQueries msg queryStrings queryFilters
  | queryString :: _, none :: _ => do
      let _ ← msg.addString .path queryString
      .error .badArgument

/-- `TreeGateway_RequestNodeSubtrees` -/
def requestNodeSubtrees (queryStrings : List String)
    (queryFilters : List (Option F)) (tag : String) (maxDepth : UInt32)
    (flags : TreeGatewayFlags) : Except Status (NetworkMessage M) := do
  let msg ← addQueries archive
    (Message.ofWhat CommandCode.requestNodeSubtrees.what)
    queryStrings queryFilters
  let msg ← msg.cAddInt32 .maxDepth maxDepth.toInt32 muscleNoLimit.toInt32
  let msg ← msg.cAddFlat .flags flags
  msg.addString .tag tag

/-- `TreeGateway_UploadNodeValue` -/
def uploadNodeValue (path : String) (optPayload : Option M)
    (flags : TreeGatewayFlags) (optBefore optOpTag : String) :
    Except Status (NetworkMessage M) := do
  let msg ← (Message.ofWhat CommandCode.uploadNodeValue.what).cAddString
    .path path
  let msg ← msg.cAddMessage .payload optPayload
  let msg ← msg.cAddFlat .flags flags
  let msg ← msg.cAddString .before optBefore
  msg.cAddString .tag optOpTag

/-- `TreeGateway_UploadNodeSubtree` -/
def uploadNodeSubtree (basePath : String) (valuesMsg : Option M)
    (flags : TreeGatewayFlags) (optOpTag : String) :
    Except Status (NetworkMessage M) := do
  let msg ← (Message.ofWhat CommandCode.uploadNodeSubtree.what).cAddString
    .path basePath
  let msg ← msg.cAddMessage .payload valuesMsg
  let msg ← msg.cAddFlat .flags flags
  msg.cAddString .tag optOpTag

/-- `TreeGateway_RequestMoveIndexEntry` -/
def requestMoveIndexEntry (path optBefore : String) (optFilterRef : Option F)
    (flags : TreeGatewayFlags) (optOpTag : String) :
    Except Status (NetworkMessage M) := do
  let msg ← (Message.ofWhat CommandCode.moveIndexEntries.what).cAddMessage
    .queryFilter (optFilterRef.map archive)
  let msg ← msg.cAddString .path path
  let msg ← msg.cAddString .tag optOpTag
  let msg ← msg.cAddFlat .flags flags
  msg.cAddString .before optBefore

/-- `PingLocalPeerAux` -/
def pingLocalPeerAux (tag : String) (optWhichDB : Int32)
    (flags : TreeGatewayFlags) : Except Status (NetworkMessage M) := do
  let msg ← (Message.ofWhat CommandCode.ping.what).cAddFlat .flags flags
  let msg ← msg.cAddInt32 .index optWhichDB 0
  msg.cAddString .tag tag

/-- `TreeGateway_SendMessageToSeniorPeer` -/
def sendMessageToSeniorPeer (userMsg : Option M) (whichDB : UInt32)
    (tag : String) : Except Status (NetworkMessage M) := do
  let msg ← (Message.ofWhat CommandCode.messageToSeniorPeer.what).addMessage
    .payload userMsg
  let msg ← msg.cAddInt32 .index whichDB.toInt32 0
  msg.cAddString .tag tag

/-- `TreeGateway_SendMessageToSubscriber` -/
def sendMessageToSubscriber (path : String) (userMsg : Option M)
    (optFilterRef : Option F) (tag : String) :
    Except Status (NetworkMessage M) := do
  let msg ← (Message.ofWhat CommandCode.messageToSubscriber.what).cAddString
    .path path
  let msg ← msg.addMessage .payload userMsg
  let msg ← msg.cAddMessage .queryFilter (optFilterRef.map archive)
  msg.cAddString .tag tag

/-- `SendUndoRedoMessage` -/
def sendUndoRedoMessage (code : CommandCode) (tag : String)
    (whichDB : UInt32) : Except Status (NetworkMessage M) := do
  let msg ← (Message.ofWhat code.what).cAddString .tag tag
  msg.cAddInt32 .index whichDB.toInt32 0

/-- The message of a call, as each of the `TreeGateway_*` methods makes it. -/
def messageOf : TreeCommand M F → Except Status (NetworkMessage M)
  | .addSubscription subscriptionPath optFilterRef flags =>
      handleBasicCommandAux archive .addSubscription subscriptionPath
        optFilterRef flags ""
  | .removeSubscription subscriptionPath optFilterRef flags =>
      handleBasicCommandAux archive .removeSubscription subscriptionPath
        optFilterRef flags ""
  | .removeAllSubscriptions flags => removeAllSubscriptions flags
  | .requestNodeValues queryString optFilterRef flags tag =>
      handleBasicCommandAux archive .requestNodeValues queryString
        optFilterRef flags tag
  | .requestNodeSubtrees queryStrings queryFilters tag maxDepth flags =>
      requestNodeSubtrees archive queryStrings queryFilters tag maxDepth flags
  | .uploadNodeValue path optPayload flags optBefore optOpTag =>
      uploadNodeValue path optPayload flags optBefore optOpTag
  | .uploadNodeSubtree basePath valuesMsg flags optOpTag =>
      uploadNodeSubtree basePath valuesMsg flags optOpTag
  | .requestDeleteNodes path optFilterRef flags optOpTag =>
      handleBasicCommandAux archive .removeNodes path optFilterRef flags
        optOpTag
  | .requestMoveIndexEntry path optBefore optFilterRef flags optOpTag =>
      requestMoveIndexEntry archive path optBefore optFilterRef flags optOpTag
  | .pingLocalPeer tag flags => pingLocalPeerAux tag (-1) flags
  | .pingSeniorPeer tag whichDB flags =>
      pingLocalPeerAux tag whichDB.toInt32 flags
  | .sendMessageToSeniorPeer userMsg whichDB tag =>
      sendMessageToSeniorPeer userMsg whichDB tag
  | .sendMessageToSubscriber path userMsg optFilterRef tag =>
      sendMessageToSubscriber archive path userMsg optFilterRef tag
  | .beginUndoSequence optSequenceLabel whichDB =>
      sendUndoRedoMessage .beginSequence optSequenceLabel whichDB
  | .endUndoSequence optSequenceLabel whichDB =>
      sendUndoRedoMessage .endSequence optSequenceLabel whichDB
  | .requestUndo whichDB optOpTag =>
      sendUndoRedoMessage .undo optOpTag whichDB
  | .requestRedo whichDB optOpTag =>
      sendUndoRedoMessage .redo optOpTag whichDB

end ClientSide

section ServerSide

variable (createQueryFilter : M → Option F)

/-- `InstantiateQueryFilterAux` -/
def instantiateQueryFilterAux (msg : NetworkMessage M) (which : ℕ) :
    Option F :=
  (msg.findMessage .queryFilter which).bind createQueryFilter

/-- The filters of a request for subtrees: for each of its strings the one
at the same index, if there is one. -/
def queryFiltersOf (msg : NetworkMessage M) : List (Option F) :=
  ((List.range (msg.findStrings .path).length).map
    (instantiateQueryFilterAux createQueryFilter msg)).filter Option.isSome

/-- `IncomingTreeMessageReceivedFromClient`: the call that is made, none for
a message that is not of this protocol. -/
def incomingTreeMessageReceivedFromClient (msg : NetworkMessage M) :
    Option (TreeCommand M F) :=
  let flags := msg.getFlat .flags
  let qfRef := instantiateQueryFilterAux createQueryFilter msg 0
  let path := msg.getString .path 0
  let optB4 := msg.getString .before 0
  let tag := msg.getString .tag 0
  let payload := msg.getMessage .payload
  let index := msg.getInt32 .index 0 0
  match CommandCode.ofWhat? msg.what with
  | some .addSubscription => some (.addSubscription path qfRef flags)
  | some .removeSubscription => some (.removeSubscription path qfRef flags)
  | some .removeAllSubscriptions => some (.removeAllSubscriptions flags)
  | some .requestNodeValues => some (.requestNodeValues path qfRef flags tag)
  | some .removeNodes => some (.requestDeleteNodes path qfRef flags tag)
  | some .uploadNodeSubtree =>
      some (.uploadNodeSubtree path payload flags tag)
  | some .moveIndexEntries =>
      some (.requestMoveIndexEntry path optB4 qfRef flags tag)
  | some .uploadNodeValue =>
      some (.uploadNodeValue path payload flags optB4 tag)
  | some .ping =>
      if 0 ≤ index then some (.pingSeniorPeer tag index.toUInt32 flags)
      else some (.pingLocalPeer tag flags)
  | some .requestNodeSubtrees =>
      some (.requestNodeSubtrees (msg.findStrings .path)
        (queryFiltersOf createQueryFilter msg) tag
        (msg.getInt32 .maxDepth muscleNoLimit.toInt32 0).toUInt32 flags)
  | some .beginSequence => some (.beginUndoSequence tag index.toUInt32)
  | some .endSequence => some (.endUndoSequence tag index.toUInt32)
  | some .undo => some (.requestUndo index.toUInt32 tag)
  | some .redo => some (.requestRedo index.toUInt32 tag)
  | some .messageToSeniorPeer =>
      some (.sendMessageToSeniorPeer payload index.toUInt32 tag)
  | some .messageToSubscriber =>
      some (.sendMessageToSubscriber path payload qfRef tag)
  | none => none

end ServerSide

/-- `HandleIndexEntryUpdate` -/
def handleIndexEntryUpdate (code : ReplyCode) (path : String) (idx : UInt32)
    (nodeName optOpTag : String) : Except Status (NetworkMessage M) := do
  let msg ← (Message.ofWhat code.what).cAddString .path path
  let msg ← msg.cAddString .tag optOpTag
  let msg ← msg.cAddInt32 .index idx.toInt32 0
  msg.cAddString .name nodeName

/-- The message of a callback, as each of the callback methods of
`ServerSideNetworkTreeGatewaySubscriber` makes it; without one, nothing is
sent. -/
def replyOf : TreeCallback M → Except Status (NetworkMessage M)
  | .treeNodeUpdated nodePath optPayloadMsg optOpTag => do
      let msg ← (Message.ofWhat ReplyCode.nodeUpdated.what).cAddString
        .path nodePath
      let msg ← msg.cAddString .tag optOpTag
      msg.cAddMessage .payload optPayloadMsg
  | .treeNodeIndexCleared path optOpTag => do
      let msg ← (Message.ofWhat ReplyCode.indexCleared.what).cAddString
        .path path
      msg.cAddString .tag optOpTag
  | .treeNodeIndexEntryInserted path insertedAtIndex nodeName optOpTag =>
      handleIndexEntryUpdate .indexEntryInserted path insertedAtIndex nodeName
        optOpTag
  | .treeNodeIndexEntryRemoved path removedAtIndex nodeName optOpTag =>
      handleIndexEntryUpdate .indexEntryRemoved path removedAtIndex nodeName
        optOpTag
  | .treeLocalPeerPonged tag => do
      let msg ← (Message.ofWhat ReplyCode.pong.what).cAddString .tag tag
      msg.addInt32 .index (-1)
  | .treeSeniorPeerPonged tag whichDB => do
      let msg ← (Message.ofWhat ReplyCode.pong.what).cAddString .tag tag
      msg.cAddInt32 .index whichDB.toInt32 0
  | .messageReceivedFromTreeSeniorPeer whichDB tag payload => do
      let msg ← (Message.ofWhat ReplyCode.messageFromSeniorPeer.what).cAddString
        .tag tag
      let msg ← msg.cAddInt32 .index whichDB 0
      msg.addMessage .payload payload
  | .messageReceivedFromSubscriber nodePath payload returnAddress => do
      let msg ← (Message.ofWhat ReplyCode.messageFromSubscriber.what).cAddString
        .tag returnAddress
      let msg ← msg.cAddString .path nodePath
      msg.addMessage .payload payload
  | .subtreesRequestResultReturned tag subtreeData => do
      let msg ← (Message.ofWhat ReplyCode.subtrees.what).cAddString .tag tag
      msg.cAddMessage .payload subtreeData

/-- What becomes of a message from the server. -/
inductive ServerMessage (M : Type) where
  /-- left to `IncomingMuscledMessageReceivedFromServer` -/
  | muscled
  | callback (callback : TreeCallback M)
  | unimplemented

/-- `IncomingTreeMessageReceivedFromServer`.  The messages that are in the
form of a result of MUSCLE, by their what-codes, are not of this protocol. -/
def incomingTreeMessageReceivedFromServer (isMuscleResult : UInt32 → Bool)
    (msg : NetworkMessage M) : ServerMessage M :=
  let path := msg.getString .path 0
  let tag := msg.getString .tag 0
  let name := msg.getString .name 0
  let payload := msg.getMessage .payload
  let idx := msg.getInt32 .index 0 0
  if isMuscleResult msg.what then .muscled
  else
    match ReplyCode.ofWhat? msg.what with
    | some .nodeUpdated => .callback (.treeNodeUpdated path payload tag)
    | some .indexCleared => .callback (.treeNodeIndexCleared path tag)
    | some .indexEntryInserted =>
        .callback (.treeNodeIndexEntryInserted path idx.toUInt32 name tag)
    | some .indexEntryRemoved =>
        .callback (.treeNodeIndexEntryRemoved path idx.toUInt32 name tag)
    | some .subtrees => .callback (.subtreesRequestResultReturned tag payload)
    | some .pong =>
        if 0 ≤ idx then .callback (.treeSeniorPeerPonged tag idx.toUInt32)
        else .callback (.treeLocalPeerPonged tag)
    | some .messageFromSeniorPeer =>
        .callback (.messageReceivedFromTreeSeniorPeer idx tag payload)
    | some .messageFromSubscriber =>
        .callback (.messageReceivedFromSubscriber path payload tag)
    | none => .unimplemented

/-! ## What each method writes, and what is read of it -/

open Message

variable {archive : F → M} {createQueryFilter : M → Option F}
  {msg : NetworkMessage M}

/-- A filter that comes back from its archive is read as it was written. -/
theorem instantiateQueryFilterAux_of_values
    (harchive : ∀ f, createQueryFilter (archive f) = some f)
    {optFilterRef : Option F}
    (h : msg.valuesOf .queryFilter = optMessage (optFilterRef.map archive)) :
    instantiateQueryFilterAux createQueryFilter msg 0 = optFilterRef := by
  have hmsg := getMessage_of_values h
  rw [getMessage] at hmsg
  rw [instantiateQueryFilterAux, hmsg]
  cases optFilterRef with
  | none => rfl
  | some f => simp [harchive]

/-- What a basic command is read as. -/
theorem handleBasicCommandAux_read
    (harchive : ∀ f, createQueryFilter (archive f) = some f)
    {code : CommandCode} {subscriptionPath optOpTag : String}
    {optFilterRef : Option F} {flags : TreeGatewayFlags}
    (h : handleBasicCommandAux archive code subscriptionPath optFilterRef flags
      optOpTag = .ok msg) :
    msg.what = code.what ∧
      instantiateQueryFilterAux createQueryFilter msg 0 = optFilterRef ∧
      msg.getString .path 0 = subscriptionPath ∧
      msg.getString .tag 0 = optOpTag ∧ msg.getFlat .flags = flags := by
  simp only [handleBasicCommandAux, bind_eq_ok] at h
  obtain ⟨m₁, h₁, m₂, h₂, m₃, h₃, h₄⟩ := h
  have hb := (((built_ofWhat.push (cAddMessage_eq_ok h₁)).push
    (cAddString_eq_ok h₂)).push (cAddString_eq_ok h₃)).push
    (cAddFlat_eq_ok h₄)
  exact ⟨hb.what_eq,
    instantiateQueryFilterAux_of_values harchive (by simp [hb.valuesOf_eq]),
    getString_of_values (by simp [hb.valuesOf_eq]),
    getString_of_values (by simp [hb.valuesOf_eq]),
    getFlat_of_values (by simp [hb.valuesOf_eq])⟩

theorem uploadNodeValue_read {path : String} {optPayload : Option M}
    {flags : TreeGatewayFlags} {optBefore optOpTag : String}
    (h : uploadNodeValue path optPayload flags optBefore optOpTag = .ok msg) :
    msg.what = CommandCode.uploadNodeValue.what ∧
      msg.getString .path 0 = path ∧ msg.getMessage .payload = optPayload ∧
      msg.getFlat .flags = flags ∧ msg.getString .before 0 = optBefore ∧
      msg.getString .tag 0 = optOpTag := by
  simp only [uploadNodeValue, bind_eq_ok] at h
  obtain ⟨m₁, h₁, m₂, h₂, m₃, h₃, m₄, h₄, h₅⟩ := h
  have hb := ((((built_ofWhat.push (cAddString_eq_ok h₁)).push
    (cAddMessage_eq_ok h₂)).push (cAddFlat_eq_ok h₃)).push
    (cAddString_eq_ok h₄)).push (cAddString_eq_ok h₅)
  exact ⟨hb.what_eq, getString_of_values (by simp [hb.valuesOf_eq]),
    getMessage_of_values (by simp [hb.valuesOf_eq]),
    getFlat_of_values (by simp [hb.valuesOf_eq]),
    getString_of_values (by simp [hb.valuesOf_eq]),
    getString_of_values (by simp [hb.valuesOf_eq])⟩

theorem uploadNodeSubtree_read {basePath : String} {valuesMsg : Option M}
    {flags : TreeGatewayFlags} {optOpTag : String}
    (h : uploadNodeSubtree basePath valuesMsg flags optOpTag = .ok msg) :
    msg.what = CommandCode.uploadNodeSubtree.what ∧
      msg.getString .path 0 = basePath ∧ msg.getMessage .payload = valuesMsg ∧
      msg.getFlat .flags = flags ∧ msg.getString .tag 0 = optOpTag := by
  simp only [uploadNodeSubtree, bind_eq_ok] at h
  obtain ⟨m₁, h₁, m₂, h₂, m₃, h₃, h₄⟩ := h
  have hb := (((built_ofWhat.push (cAddString_eq_ok h₁)).push
    (cAddMessage_eq_ok h₂)).push (cAddFlat_eq_ok h₃)).push
    (cAddString_eq_ok h₄)
  exact ⟨hb.what_eq, getString_of_values (by simp [hb.valuesOf_eq]),
    getMessage_of_values (by simp [hb.valuesOf_eq]),
    getFlat_of_values (by simp [hb.valuesOf_eq]),
    getString_of_values (by simp [hb.valuesOf_eq])⟩

theorem requestMoveIndexEntry_read
    (harchive : ∀ f, createQueryFilter (archive f) = some f)
    {path optBefore : String} {optFilterRef : Option F}
    {flags : TreeGatewayFlags} {optOpTag : String}
    (h : requestMoveIndexEntry archive path optBefore optFilterRef flags
      optOpTag = .ok msg) :
    msg.what = CommandCode.moveIndexEntries.what ∧
      instantiateQueryFilterAux createQueryFilter msg 0 = optFilterRef ∧
      msg.getString .path 0 = path ∧ msg.getString .tag 0 = optOpTag ∧
      msg.getFlat .flags = flags ∧ msg.getString .before 0 = optBefore := by
  simp only [requestMoveIndexEntry, bind_eq_ok] at h
  obtain ⟨m₁, h₁, m₂, h₂, m₃, h₃, m₄, h₄, h₅⟩ := h
  have hb := ((((built_ofWhat.push (cAddMessage_eq_ok h₁)).push
    (cAddString_eq_ok h₂)).push (cAddString_eq_ok h₃)).push
    (cAddFlat_eq_ok h₄)).push (cAddString_eq_ok h₅)
  exact ⟨hb.what_eq,
    instantiateQueryFilterAux_of_values harchive (by simp [hb.valuesOf_eq]),
    getString_of_values (by simp [hb.valuesOf_eq]),
    getString_of_values (by simp [hb.valuesOf_eq]),
    getFlat_of_values (by simp [hb.valuesOf_eq]),
    getString_of_values (by simp [hb.valuesOf_eq])⟩

theorem pingLocalPeerAux_read {tag : String} {optWhichDB : Int32}
    {flags : TreeGatewayFlags}
    (h : pingLocalPeerAux tag optWhichDB flags = .ok msg) :
    msg.what = CommandCode.ping.what ∧ msg.getFlat .flags = flags ∧
      msg.getInt32 .index 0 0 = optWhichDB ∧ msg.getString .tag 0 = tag := by
  simp only [pingLocalPeerAux, bind_eq_ok] at h
  obtain ⟨m₁, h₁, m₂, h₂, h₃⟩ := h
  have hb := ((built_ofWhat.push (cAddFlat_eq_ok h₁)).push
    (cAddInt32_eq_ok h₂)).push (cAddString_eq_ok h₃)
  exact ⟨hb.what_eq, getFlat_of_values (by simp [hb.valuesOf_eq]),
    getInt32_of_values (by simp [hb.valuesOf_eq]),
    getString_of_values (by simp [hb.valuesOf_eq])⟩

theorem sendMessageToSeniorPeer_read {userMsg : Option M} {whichDB : UInt32}
    {tag : String}
    (h : sendMessageToSeniorPeer userMsg whichDB tag = .ok msg) :
    msg.what = CommandCode.messageToSeniorPeer.what ∧
      msg.getMessage .payload = userMsg ∧
      msg.getInt32 .index 0 0 = whichDB.toInt32 ∧
      msg.getString .tag 0 = tag := by
  simp only [sendMessageToSeniorPeer, bind_eq_ok] at h
  obtain ⟨m₁, h₁, m₂, h₂, h₃⟩ := h
  have hb := ((built_ofWhat.push (addMessage_eq_ok h₁)).push
    (cAddInt32_eq_ok h₂)).push (cAddString_eq_ok h₃)
  exact ⟨hb.what_eq, getMessage_of_values (by simp [hb.valuesOf_eq]),
    getInt32_of_values (by simp [hb.valuesOf_eq]),
    getString_of_values (by simp [hb.valuesOf_eq])⟩

theorem sendMessageToSubscriber_read
    (harchive : ∀ f, createQueryFilter (archive f) = some f) {path : String}
    {userMsg : Option M} {optFilterRef : Option F} {tag : String}
    (h : sendMessageToSubscriber archive path userMsg optFilterRef tag =
      .ok msg) :
    msg.what = CommandCode.messageToSubscriber.what ∧
      msg.getString .path 0 = path ∧ msg.getMessage .payload = userMsg ∧
      instantiateQueryFilterAux createQueryFilter msg 0 = optFilterRef ∧
      msg.getString .tag 0 = tag := by
  simp only [sendMessageToSubscriber, bind_eq_ok] at h
  obtain ⟨m₁, h₁, m₂, h₂, m₃, h₃, h₄⟩ := h
  have hb := (((built_ofWhat.push (cAddString_eq_ok h₁)).push
    (addMessage_eq_ok h₂)).push (cAddMessage_eq_ok h₃)).push
    (cAddString_eq_ok h₄)
  exact ⟨hb.what_eq, getString_of_values (by simp [hb.valuesOf_eq]),
    getMessage_of_values (by simp [hb.valuesOf_eq]),
    instantiateQueryFilterAux_of_values harchive (by simp [hb.valuesOf_eq]),
    getString_of_values (by simp [hb.valuesOf_eq])⟩

theorem sendUndoRedoMessage_read {code : CommandCode} {tag : String}
    {whichDB : UInt32}
    (h : sendUndoRedoMessage code tag whichDB = .ok msg) :
    msg.what = code.what ∧ msg.getString .tag 0 = tag ∧
      msg.getInt32 .index 0 0 = whichDB.toInt32 := by
  simp only [sendUndoRedoMessage, bind_eq_ok] at h
  obtain ⟨m₁, h₁, h₂⟩ := h
  have hb := (built_ofWhat.push (cAddString_eq_ok h₁)).push
    (cAddInt32_eq_ok h₂)
  exact ⟨hb.what_eq, getString_of_values (by simp [hb.valuesOf_eq]),
    getInt32_of_values (by simp [hb.valuesOf_eq])⟩

theorem handleIndexEntryUpdate_read {code : ReplyCode} {path : String}
    {idx : UInt32} {nodeName optOpTag : String}
    (h : handleIndexEntryUpdate code path idx nodeName optOpTag = .ok msg) :
    msg.what = code.what ∧ msg.getString .path 0 = path ∧
      msg.getString .tag 0 = optOpTag ∧
      msg.getInt32 .index 0 0 = idx.toInt32 ∧
      msg.getString .name 0 = nodeName := by
  simp only [handleIndexEntryUpdate, bind_eq_ok] at h
  obtain ⟨m₁, h₁, m₂, h₂, m₃, h₃, h₄⟩ := h
  have hb := (((built_ofWhat.push (cAddString_eq_ok h₁)).push
    (cAddString_eq_ok h₂)).push (cAddInt32_eq_ok h₃)).push
    (cAddString_eq_ok h₄)
  exact ⟨hb.what_eq, getString_of_values (by simp [hb.valuesOf_eq]),
    getString_of_values (by simp [hb.valuesOf_eq]),
    getInt32_of_values (by simp [hb.valuesOf_eq]),
    getString_of_values (by simp [hb.valuesOf_eq])⟩

/-- The loop over the query strings writes each of them, and each of the
filters; there is no hole among these. -/
theorem addQueries_eq_ok {queryStrings : List String}
    {queryFilters : List (Option F)} {m : NetworkMessage M}
    (h : addQueries archive m queryStrings queryFilters = .ok msg)
    (hlength : queryFilters.length ≤ queryStrings.length) :
    ∃ filters : List F, queryFilters = filters.map some ∧
      msg.what = m.what ∧
      msg.valuesOf .path = m.valuesOf .path ++ queryStrings.map .string ∧
      msg.valuesOf .queryFilter = m.valuesOf .queryFilter ++
        filters.map (.message ∘ archive) ∧
      ∀ field, field ≠ .path → field ≠ .queryFilter →
        msg.valuesOf field = m.valuesOf field := by
  induction m, queryStrings, queryFilters using addQueries.induct with
  | case1 m queryFilters =>
      obtain rfl : queryFilters = [] := by simpa using hlength
      obtain rfl : m = msg := by simpa [addQueries] using h
      exact ⟨[], rfl, rfl, by simp, by simp, fun _ _ _ => rfl⟩
  | case2 m queryString queryStrings ih =>
      simp only [addQueries, bind_eq_ok] at h
      obtain ⟨m₁, h₁, hrest⟩ := h
      obtain ⟨hwhat₁, hvalues₁⟩ := add_eq_ok h₁
      obtain ⟨filters, hfilters, hwhat, hpath, hfilter, hother⟩ :=
        ih m₁ hrest (by simp)
      refine ⟨filters, hfilters, hwhat.trans hwhat₁, ?_, ?_, ?_⟩
      · simp [hpath, hvalues₁]
      · simp [hfilter, hvalues₁]
      · intro field hpath' hfilter'
        simp [hother field hpath' hfilter', hvalues₁, hpath']
  | case3 m queryString queryStrings queryFilter queryFilters ih =>
      simp only [addQueries, bind_eq_ok] at h
      obtain ⟨m₁, h₁, m₂, h₂, hrest⟩ := h
      obtain ⟨hwhat₁, hvalues₁⟩ := add_eq_ok h₁
      obtain ⟨hwhat₂, hvalues₂⟩ := add_eq_ok h₂
      obtain ⟨filters, hfilters, hwhat, hpath, hfilter, hother⟩ :=
        ih m₂ hrest (by simpa using hlength)
      refine ⟨queryFilter :: filters, by simp [hfilters],
        hwhat.trans (hwhat₂.trans hwhat₁), ?_, ?_, ?_⟩
      · simp [hpath, hvalues₂, hvalues₁]
      · simp [hfilter, hvalues₂, hvalues₁]
      · intro field hpath' hfilter'
        simp [hother field hpath' hfilter', hvalues₂, hvalues₁, hpath',
          hfilter']
  | case4 m queryString queryStrings queryFilters =>
      simp only [addQueries, bind_eq_ok] at h
      obtain ⟨_, _, h⟩ := h
      cases h

/-! ## Every call and every callback arrives as it was made -/

/-- What the protocol asks of a call besides what its encoder checks: an
index of a database is below 2³¹, and there are no more filters than query
strings. -/
def TreeCommand.Fits : TreeCommand M F → Prop
  | .requestNodeSubtrees queryStrings queryFilters _ _ _ =>
      queryFilters.length ≤ queryStrings.length
  | .pingSeniorPeer _ whichDB _ => whichDB < 2147483648
  | .sendMessageToSeniorPeer _ whichDB _ => whichDB < 2147483648
  | .beginUndoSequence _ whichDB => whichDB < 2147483648
  | .endUndoSequence _ whichDB => whichDB < 2147483648
  | .requestUndo whichDB _ => whichDB < 2147483648
  | .requestRedo whichDB _ => whichDB < 2147483648
  | _ => True

/-- The same for a callback. -/
def TreeCallback.Fits : TreeCallback M → Prop
  | .treeSeniorPeerPonged _ whichDB => whichDB < 2147483648
  | _ => True

/-- The filters of a request for subtrees are read one by one. -/
theorem queryFiltersOf_eq
    (harchive : ∀ f, createQueryFilter (archive f) = some f)
    {queryStrings : List String} {filters : List F}
    (hpath : msg.findStrings .path = queryStrings)
    (hfilter : msg.valuesOf .queryFilter = filters.map (.message ∘ archive))
    (hlength : filters.length ≤ queryStrings.length) :
    queryFiltersOf createQueryFilter msg = filters.map some := by
  have hread : ∀ i, instantiateQueryFilterAux createQueryFilter msg i =
      filters[i]? := by
    intro i
    cases hi : filters[i]? with
    | none => simp [instantiateQueryFilterAux, findMessage, hfilter, hi]
    | some f =>
        simp [instantiateQueryFilterAux, findMessage, hfilter, hi, harchive]
  have hsplit : List.range queryStrings.length =
      List.range filters.length ++
        (List.range (queryStrings.length - filters.length)).map
          (filters.length + ·) := by
    rw [← List.range_add, Nat.add_sub_cancel' hlength]
  rw [queryFiltersOf, hpath, hsplit, List.map_append, List.filter_append]
  have hbeyond : (((List.range (queryStrings.length - filters.length)).map
      (filters.length + ·)).map
        (instantiateQueryFilterAux createQueryFilter msg)).filter
          Option.isSome = [] := by
    simp [List.filter_eq_nil_iff, hread]
  have hthere : (List.range filters.length).map
      (instantiateQueryFilterAux createQueryFilter msg) = filters.map some := by
    apply List.ext_getElem
    · simp
    · intro i hi hi'
      simp [hread]
  rw [hbeyond, hthere, List.append_nil, List.filter_eq_self]
  simp

/-- The request for subtrees arrives as it was made. -/
theorem requestNodeSubtrees_received
    (harchive : ∀ f, createQueryFilter (archive f) = some f)
    {queryStrings : List String} {queryFilters : List (Option F)} {tag : String}
    {maxDepth : UInt32} {flags : TreeGatewayFlags}
    (h : requestNodeSubtrees archive queryStrings queryFilters tag maxDepth
      flags = .ok msg)
    (hlength : queryFilters.length ≤ queryStrings.length) :
    incomingTreeMessageReceivedFromClient createQueryFilter msg =
      some (.requestNodeSubtrees queryStrings queryFilters tag maxDepth
        flags) := by
  simp only [requestNodeSubtrees, bind_eq_ok] at h
  obtain ⟨m₁, h₁, m₂, h₂, m₃, h₃, h₄⟩ := h
  obtain ⟨filters, rfl, hwhat₁, hpath₁, hfilter₁, hother₁⟩ :=
    addQueries_eq_ok h₁ hlength
  obtain ⟨hwhat₂, hvalues₂⟩ := cAddInt32_eq_ok h₂
  obtain ⟨hwhat₃, hvalues₃⟩ := cAddFlat_eq_ok h₃
  obtain ⟨hwhat₄, hvalues₄⟩ := add_eq_ok h₄
  have hwhat : msg.what = CommandCode.requestNodeSubtrees.what := by
    rw [hwhat₄, hwhat₃, hwhat₂, hwhat₁, what_ofWhat]
  have hstrings : msg.findStrings .path = queryStrings :=
    findStrings_of_values (by simp [hvalues₄, hvalues₃, hvalues₂, hpath₁])
  have hfilters : queryFiltersOf createQueryFilter msg = filters.map some :=
    queryFiltersOf_eq harchive hstrings
      (by simp [hvalues₄, hvalues₃, hvalues₂, hfilter₁])
      (by simpa using hlength)
  have hdepth : msg.getInt32 .maxDepth muscleNoLimit.toInt32 0 =
      maxDepth.toInt32 :=
    getInt32_of_values (by simp [hvalues₄, hvalues₃, hvalues₂, hother₁])
  have hflags : msg.getFlat .flags = flags :=
    getFlat_of_values (by simp [hvalues₄, hvalues₃, hvalues₂, hother₁])
  have htag : msg.getString .tag 0 = tag := by
    simp [getString, findString, hvalues₄, hvalues₃, hvalues₂, hother₁]
  simp [incomingTreeMessageReceivedFromClient, hwhat, hstrings, hfilters,
    hdepth, hflags, htag]

/-- **A command arrives as it was made.** -/
theorem messageOf_received
    (harchive : ∀ f, createQueryFilter (archive f) = some f)
    {command : TreeCommand M F} (hfits : command.Fits)
    (h : messageOf archive command = .ok msg) :
    incomingTreeMessageReceivedFromClient createQueryFilter msg =
      some command := by
  cases command with
  | addSubscription | removeSubscription | requestNodeValues
  | requestDeleteNodes =>
      obtain ⟨hwhat, hfilter, hpath, htag, hflags⟩ :=
        handleBasicCommandAux_read harchive h
      simp [incomingTreeMessageReceivedFromClient, hwhat, hfilter, hpath, htag,
        hflags]
  | removeAllSubscriptions flags =>
      have hb := built_ofWhat.push (cAddFlat_eq_ok h)
      have hflags : msg.getFlat .flags = flags :=
        getFlat_of_values (by simp [hb.valuesOf_eq])
      simp [incomingTreeMessageReceivedFromClient, hb.what_eq, hflags]
  | requestNodeSubtrees =>
      exact requestNodeSubtrees_received harchive h hfits
  | uploadNodeValue =>
      obtain ⟨hwhat, hpath, hpayload, hflags, hbefore, htag⟩ :=
        uploadNodeValue_read h
      simp [incomingTreeMessageReceivedFromClient, hwhat, hpath, hpayload,
        hflags, hbefore, htag]
  | uploadNodeSubtree =>
      obtain ⟨hwhat, hpath, hpayload, hflags, htag⟩ := uploadNodeSubtree_read h
      simp [incomingTreeMessageReceivedFromClient, hwhat, hpath, hpayload,
        hflags, htag]
  | requestMoveIndexEntry =>
      obtain ⟨hwhat, hfilter, hpath, htag, hflags, hbefore⟩ :=
        requestMoveIndexEntry_read harchive h
      simp [incomingTreeMessageReceivedFromClient, hwhat, hfilter, hpath, htag,
        hflags, hbefore]
  | pingLocalPeer =>
      -- an index below zero is what tells a ping of the local peer
      obtain ⟨hwhat, hflags, hindex, htag⟩ := pingLocalPeerAux_read h
      have hlocal : ¬(0 : Int32) ≤ -1 := by decide
      simp [incomingTreeMessageReceivedFromClient, hwhat, hflags, hindex, htag,
        hlocal]
  | pingSeniorPeer tag whichDB =>
      obtain ⟨hwhat, hflags, hindex, htag⟩ := pingLocalPeerAux_read h
      have hsenior : (0 : Int32) ≤ whichDB.toInt32 :=
        zero_le_toInt32_iff.mpr hfits
      simp [incomingTreeMessageReceivedFromClient, hwhat, hflags, hindex, htag,
        hsenior]
  | sendMessageToSeniorPeer =>
      obtain ⟨hwhat, hpayload, hindex, htag⟩ := sendMessageToSeniorPeer_read h
      simp [incomingTreeMessageReceivedFromClient, hwhat, hpayload, hindex,
        htag]
  | sendMessageToSubscriber =>
      obtain ⟨hwhat, hpath, hpayload, hfilter, htag⟩ :=
        sendMessageToSubscriber_read harchive h
      simp [incomingTreeMessageReceivedFromClient, hwhat, hpath, hpayload,
        hfilter, htag]
  | beginUndoSequence | endUndoSequence | requestUndo | requestRedo =>
      obtain ⟨hwhat, htag, hindex⟩ := sendUndoRedoMessage_read h
      simp [incomingTreeMessageReceivedFromClient, hwhat, htag, hindex]

/-- **A callback arrives as it was made.** -/
theorem replyOf_received {isMuscleResult : UInt32 → Bool}
    (hresult : ∀ code : ReplyCode, isMuscleResult code.what = false)
    {callback : TreeCallback M} (hfits : callback.Fits)
    (h : replyOf callback = .ok msg) :
    incomingTreeMessageReceivedFromServer isMuscleResult msg =
      .callback callback := by
  cases callback with
  | treeNodeUpdated nodePath optPayloadMsg optOpTag =>
      simp only [replyOf, bind_eq_ok] at h
      obtain ⟨m₁, h₁, m₂, h₂, h₃⟩ := h
      have hb := ((built_ofWhat.push (cAddString_eq_ok h₁)).push
        (cAddString_eq_ok h₂)).push (cAddMessage_eq_ok h₃)
      have hpath : msg.getString .path 0 = nodePath :=
        getString_of_values (by simp [hb.valuesOf_eq])
      have htag : msg.getString .tag 0 = optOpTag :=
        getString_of_values (by simp [hb.valuesOf_eq])
      have hpayload : msg.getMessage .payload = optPayloadMsg :=
        getMessage_of_values (by simp [hb.valuesOf_eq])
      simp [incomingTreeMessageReceivedFromServer, hb.what_eq, hresult, hpath,
        htag, hpayload]
  | treeNodeIndexCleared path optOpTag =>
      simp only [replyOf, bind_eq_ok] at h
      obtain ⟨m₁, h₁, h₂⟩ := h
      have hb := (built_ofWhat.push (cAddString_eq_ok h₁)).push
        (cAddString_eq_ok h₂)
      have hpath : msg.getString .path 0 = path :=
        getString_of_values (by simp [hb.valuesOf_eq])
      have htag : msg.getString .tag 0 = optOpTag :=
        getString_of_values (by simp [hb.valuesOf_eq])
      simp [incomingTreeMessageReceivedFromServer, hb.what_eq, hresult, hpath,
        htag]
  | treeNodeIndexEntryInserted | treeNodeIndexEntryRemoved =>
      obtain ⟨hwhat, hpath, htag, hindex, hname⟩ :=
        handleIndexEntryUpdate_read h
      simp [incomingTreeMessageReceivedFromServer, hwhat, hresult, hpath, htag,
        hindex, hname]
  | treeLocalPeerPonged tag =>
      simp only [replyOf, bind_eq_ok] at h
      obtain ⟨m₁, h₁, h₂⟩ := h
      have hb := (built_ofWhat.push (cAddString_eq_ok h₁)).push (add_eq_ok h₂)
      have htag : msg.getString .tag 0 = tag :=
        getString_of_values (by simp [hb.valuesOf_eq])
      have hindex : msg.getInt32 .index 0 0 = -1 := by
        simp [getInt32, findInt32, hb.valuesOf_eq]
      have hlocal : ¬(0 : Int32) ≤ -1 := by decide
      simp [incomingTreeMessageReceivedFromServer, hb.what_eq, hresult, htag,
        hindex, hlocal]
  | treeSeniorPeerPonged tag whichDB =>
      simp only [replyOf, bind_eq_ok] at h
      obtain ⟨m₁, h₁, h₂⟩ := h
      have hb := (built_ofWhat.push (cAddString_eq_ok h₁)).push
        (cAddInt32_eq_ok h₂)
      have htag : msg.getString .tag 0 = tag :=
        getString_of_values (by simp [hb.valuesOf_eq])
      have hindex : msg.getInt32 .index 0 0 = whichDB.toInt32 :=
        getInt32_of_values (by simp [hb.valuesOf_eq])
      have hsenior : (0 : Int32) ≤ whichDB.toInt32 :=
        zero_le_toInt32_iff.mpr hfits
      simp [incomingTreeMessageReceivedFromServer, hb.what_eq, hresult, htag,
        hindex, hsenior]
  | messageReceivedFromTreeSeniorPeer whichDB tag payload =>
      simp only [replyOf, bind_eq_ok] at h
      obtain ⟨m₁, h₁, m₂, h₂, h₃⟩ := h
      have hb := ((built_ofWhat.push (cAddString_eq_ok h₁)).push
        (cAddInt32_eq_ok h₂)).push (addMessage_eq_ok h₃)
      have htag : msg.getString .tag 0 = tag :=
        getString_of_values (by simp [hb.valuesOf_eq])
      have hindex : msg.getInt32 .index 0 0 = whichDB :=
        getInt32_of_values (by simp [hb.valuesOf_eq])
      have hpayload : msg.getMessage .payload = payload :=
        getMessage_of_values (by simp [hb.valuesOf_eq])
      simp [incomingTreeMessageReceivedFromServer, hb.what_eq, hresult, htag,
        hindex, hpayload]
  | messageReceivedFromSubscriber nodePath payload returnAddress =>
      simp only [replyOf, bind_eq_ok] at h
      obtain ⟨m₁, h₁, m₂, h₂, h₃⟩ := h
      have hb := ((built_ofWhat.push (cAddString_eq_ok h₁)).push
        (cAddString_eq_ok h₂)).push (addMessage_eq_ok h₃)
      have htag : msg.getString .tag 0 = returnAddress :=
        getString_of_values (by simp [hb.valuesOf_eq])
      have hpath : msg.getString .path 0 = nodePath :=
        getString_of_values (by simp [hb.valuesOf_eq])
      have hpayload : msg.getMessage .payload = payload :=
        getMessage_of_values (by simp [hb.valuesOf_eq])
      simp [incomingTreeMessageReceivedFromServer, hb.what_eq, hresult, htag,
        hpath, hpayload]
  | subtreesRequestResultReturned tag subtreeData =>
      simp only [replyOf, bind_eq_ok] at h
      obtain ⟨m₁, h₁, h₂⟩ := h
      have hb := (built_ofWhat.push (cAddString_eq_ok h₁)).push
        (cAddMessage_eq_ok h₂)
      have htag : msg.getString .tag 0 = tag :=
        getString_of_values (by simp [hb.valuesOf_eq])
      have hpayload : msg.getMessage .payload = subtreeData :=
        getMessage_of_values (by simp [hb.valuesOf_eq])
      simp [incomingTreeMessageReceivedFromServer, hb.what_eq, hresult, htag,
        hpayload]

end ZgChoir.NetworkTreeGateway
