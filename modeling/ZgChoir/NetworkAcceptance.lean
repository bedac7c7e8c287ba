import ZgChoir.NetworkTreeGateway

/-!
# What the network gateway's encoders accept

An encoder gives up at the first addition to its message that fails.  Each of
them writes every field once, so an addition can fail only where a null
reference is written as a message, or where a list of filters has a hole.

Which commands and which callbacks are accepted is read off their arguments,
and the two theorems here say that these are the ones a message is made of.
-/

namespace ZgChoir.NetworkTreeGateway

open Message

variable {M F : Type}

/-- What the encoder of a command asks: that a message to be sent on is there,
and that no filter among those that stand beside a query string is null. -/
def TreeCommand.accepted : TreeCommand M F → Bool
  | .requestNodeSubtrees queryStrings queryFilters _ _ _ =>
      (queryFilters.take queryStrings.length).all Option.isSome
  | .sendMessageToSeniorPeer userMsg _ _ => userMsg.isSome
  | .sendMessageToSubscriber _ userMsg _ _ => userMsg.isSome
  | _ => true

/-- What the encoder of a callback asks: that a message to be passed on is
there. -/
def TreeCallback.accepted : TreeCallback M → Bool
  | .messageReceivedFromTreeSeniorPeer _ _ payload => payload.isSome
  | .messageReceivedFromSubscriber _ payload _ => payload.isSome
  | _ => true

variable {archive : F → M} {msg : NetworkMessage M}

/-! ## The commands -/

theorem exists_handleBasicCommandAux {code : CommandCode}
    {subscriptionPath optOpTag : String} {optFilterRef : Option F}
    {flags : TreeGatewayFlags} :
    ∃ msg, handleBasicCommandAux archive code subscriptionPath optFilterRef
      flags optOpTag = .ok msg := by
  apply exists_bind_eq_ok (built_ofWhat.exists_cAddMessage (by simp))
  intro m₁ h₁
  apply exists_bind_eq_ok (h₁.exists_cAddString (by simp))
  intro m₂ h₂
  apply exists_bind_eq_ok (h₂.exists_cAddString (by simp))
  intro m₃ h₃
  exact exists_eq_ok (h₃.exists_cAddFlat (by simp))

theorem exists_uploadNodeValue {path : String} {optPayload : Option M}
    {flags : TreeGatewayFlags} {optBefore optOpTag : String} :
    ∃ msg, uploadNodeValue path optPayload flags optBefore optOpTag =
      .ok msg := by
  apply exists_bind_eq_ok (built_ofWhat.exists_cAddString (by simp))
  intro m₁ h₁
  apply exists_bind_eq_ok (h₁.exists_cAddMessage (by simp))
  intro m₂ h₂
  apply exists_bind_eq_ok (h₂.exists_cAddFlat (by simp))
  intro m₃ h₃
  apply exists_bind_eq_ok (h₃.exists_cAddString (by simp))
  intro m₄ h₄
  exact exists_eq_ok (h₄.exists_cAddString (by simp))

theorem exists_uploadNodeSubtree {basePath : String} {valuesMsg : Option M}
    {flags : TreeGatewayFlags} {optOpTag : String} :
    ∃ msg, uploadNodeSubtree basePath valuesMsg flags optOpTag = .ok msg := by
  apply exists_bind_eq_ok (built_ofWhat.exists_cAddString (by simp))
  intro m₁ h₁
  apply exists_bind_eq_ok (h₁.exists_cAddMessage (by simp))
  intro m₂ h₂
  apply exists_bind_eq_ok (h₂.exists_cAddFlat (by simp))
  intro m₃ h₃
  exact exists_eq_ok (h₃.exists_cAddString (by simp))

theorem exists_requestMoveIndexEntry {path optBefore : String}
    {optFilterRef : Option F} {flags : TreeGatewayFlags} {optOpTag : String} :
    ∃ msg, requestMoveIndexEntry archive path optBefore optFilterRef flags
      optOpTag = .ok msg := by
  apply exists_bind_eq_ok (built_ofWhat.exists_cAddMessage (by simp))
  intro m₁ h₁
  apply exists_bind_eq_ok (h₁.exists_cAddString (by simp))
  intro m₂ h₂
  apply exists_bind_eq_ok (h₂.exists_cAddString (by simp))
  intro m₃ h₃
  apply exists_bind_eq_ok (h₃.exists_cAddFlat (by simp))
  intro m₄ h₄
  exact exists_eq_ok (h₄.exists_cAddString (by simp))

theorem exists_pingLocalPeerAux {tag : String} {optWhichDB : Int32}
    {flags : TreeGatewayFlags} :
    ∃ msg : NetworkMessage M,
      pingLocalPeerAux tag optWhichDB flags = .ok msg := by
  apply exists_bind_eq_ok (built_ofWhat.exists_cAddFlat (by simp))
  intro m₁ h₁
  apply exists_bind_eq_ok (h₁.exists_cAddInt32 (by simp))
  intro m₂ h₂
  exact exists_eq_ok (h₂.exists_cAddString (by simp))

theorem exists_sendUndoRedoMessage {code : CommandCode} {tag : String}
    {whichDB : UInt32} :
    ∃ msg : NetworkMessage M,
      sendUndoRedoMessage code tag whichDB = .ok msg := by
  apply exists_bind_eq_ok (built_ofWhat.exists_cAddString (by simp))
  intro m₁ h₁
  exact exists_eq_ok (h₁.exists_cAddInt32 (by simp))

theorem exists_sendMessageToSeniorPeer_iff {userMsg : Option M}
    {whichDB : UInt32} {tag : String} :
    (∃ msg, sendMessageToSeniorPeer userMsg whichDB tag = .ok msg) ↔
      userMsg.isSome = true := by
  constructor
  · intro ⟨msg, h⟩
    obtain ⟨m₁, h₁, -⟩ := bind_eq_ok.mp h
    exact isSome_of_addMessage h₁
  · intro huserMsg
    apply exists_bind_eq_ok (built_ofWhat.exists_addMessage (by simp) huserMsg)
    intro m₁ h₁
    apply exists_bind_eq_ok (h₁.exists_cAddInt32 (by simp))
    intro m₂ h₂
    exact exists_eq_ok (h₂.exists_cAddString (by simp))

theorem exists_sendMessageToSubscriber_iff {path : String} {userMsg : Option M}
    {optFilterRef : Option F} {tag : String} :
    (∃ msg, sendMessageToSubscriber archive path userMsg optFilterRef tag =
      .ok msg) ↔ userMsg.isSome = true := by
  constructor
  · intro ⟨msg, h⟩
    obtain ⟨m₁, -, h⟩ := bind_eq_ok.mp h
    obtain ⟨m₂, h₂, -⟩ := bind_eq_ok.mp h
    exact isSome_of_addMessage h₂
  · intro huserMsg
    apply exists_bind_eq_ok (built_ofWhat.exists_cAddString (by simp))
    intro m₁ h₁
    apply exists_bind_eq_ok (h₁.exists_addMessage (by simp) huserMsg)
    intro m₂ h₂
    apply exists_bind_eq_ok (h₂.exists_cAddMessage (by simp))
    intro m₃ h₃
    exact exists_eq_ok (h₃.exists_cAddString (by simp))

/-- The loop over the query strings gives up at a hole among the filters that
it comes to, and nowhere else. -/
theorem exists_addQueries_iff {queryStrings : List String}
    {queryFilters : List (Option F)} {m : NetworkMessage M}
    (hpath : ∀ w ∈ m.valuesOf .path, w.type = .string)
    (hfilter : ∀ w ∈ m.valuesOf .queryFilter, w.type = .message) :
    (∃ msg, addQueries archive m queryStrings queryFilters = .ok msg) ↔
      (queryFilters.take queryStrings.length).all Option.isSome = true := by
  induction m, queryStrings, queryFilters using addQueries.induct with
  | case1 m queryFilters => simp [addQueries]
  | case2 m queryString queryStrings ih =>
      obtain ⟨m₁, h₁⟩ := exists_add_eq_ok (v := .string queryString) hpath
      obtain ⟨-, hvalues₁⟩ := add_eq_ok h₁
      have hrest := ih m₁
        (by simpa [hvalues₁, or_imp, forall_and, FieldValue.type] using hpath)
        (by simpa [hvalues₁] using hfilter)
      simpa [addQueries, addString, h₁, bind_eq_ok] using hrest
  | case3 m queryString queryStrings queryFilter queryFilters ih =>
      obtain ⟨m₁, h₁⟩ := exists_add_eq_ok (v := .string queryString) hpath
      obtain ⟨-, hvalues₁⟩ := add_eq_ok h₁
      have hfilter₁ : ∀ w ∈ m₁.valuesOf .queryFilter,
          w.type = (FieldValue.message (archive queryFilter)).type := by
        simpa [hvalues₁, FieldValue.type] using hfilter
      obtain ⟨m₂, h₂⟩ := exists_add_eq_ok hfilter₁
      obtain ⟨-, hvalues₂⟩ := add_eq_ok h₂
      have hrest := ih m₂
        (by simpa [hvalues₂, hvalues₁, or_imp, forall_and, FieldValue.type]
          using hpath)
        (by simpa [hvalues₂, hvalues₁, or_imp, forall_and, FieldValue.type]
          using hfilter)
      simpa [addQueries, addString, h₁, h₂, bind_eq_ok] using hrest
  | case4 m queryString queryStrings queryFilters =>
      simp [addQueries, bind_eq_ok]

theorem valuesOf_of_addQueries {queryStrings : List String}
    {queryFilters : List (Option F)} {m : NetworkMessage M} {field : FieldName}
    (h : addQueries archive m queryStrings queryFilters = .ok msg)
    (hpath : field ≠ .path) (hfilter : field ≠ .queryFilter) :
    msg.valuesOf field = m.valuesOf field := by
  induction m, queryStrings, queryFilters using addQueries.induct with
  | case1 m queryFilters =>
      obtain rfl : m = msg := by simpa [addQueries] using h
      rfl
  | case2 m queryString queryStrings ih =>
      obtain ⟨m₁, h₁, hrest⟩ := bind_eq_ok.mp h
      obtain ⟨-, hvalues₁⟩ := add_eq_ok h₁
      simp [ih m₁ hrest, hvalues₁, hpath]
  | case3 m queryString queryStrings queryFilter queryFilters ih =>
      obtain ⟨m₁, h₁, hrest⟩ := bind_eq_ok.mp h
      obtain ⟨m₂, h₂, hrest⟩ := bind_eq_ok.mp hrest
      obtain ⟨-, hvalues₁⟩ := add_eq_ok h₁
      obtain ⟨-, hvalues₂⟩ := add_eq_ok h₂
      simp [ih m₂ hrest, hvalues₂, hvalues₁, hpath, hfilter]
  | case4 m queryString queryStrings queryFilters =>
      obtain ⟨_, _, h⟩ := bind_eq_ok.mp h
      cases h

theorem exists_requestNodeSubtrees_iff {queryStrings : List String}
    {queryFilters : List (Option F)} {tag : String} {maxDepth : UInt32}
    {flags : TreeGatewayFlags} :
    (∃ msg, requestNodeSubtrees archive queryStrings queryFilters tag maxDepth
      flags = .ok msg) ↔
      (queryFilters.take queryStrings.length).all Option.isSome = true := by
  have hqueries : (∃ m₁, addQueries archive
      (Message.ofWhat CommandCode.requestNodeSubtrees.what) queryStrings
      queryFilters = .ok m₁) ↔ _ :=
    exists_addQueries_iff (by simp) (by simp)
  rw [← hqueries]
  constructor
  · intro haccepted
    obtain ⟨msg, h⟩ := haccepted
    obtain ⟨m₁, h₁, -⟩ := bind_eq_ok.mp h
    exact ⟨m₁, h₁⟩
  · intro hadded
    obtain ⟨m₁, h₁⟩ := hadded
    -- the other fields are not there yet when the loop is done
    have hbuilt : Built m₁.what [(.path, m₁.valuesOf .path),
        (.queryFilter, m₁.valuesOf .queryFilter)] m₁ := by
      refine ⟨rfl, fun field => ?_⟩
      by_cases hpath : field = .path
      · simp [hpath]
      · by_cases hfilter : field = .queryFilter
        · simp [hfilter]
        · simp [valuesOf_of_addQueries h₁ hpath hfilter, Ne.symm hpath,
            Ne.symm hfilter]
    apply exists_bind_eq_ok ⟨m₁, h₁, hbuilt⟩
    intro m₁ h₁
    apply exists_bind_eq_ok (h₁.exists_cAddInt32 (by simp))
    intro m₂ h₂
    apply exists_bind_eq_ok (h₂.exists_cAddFlat (by simp))
    intro m₃ h₃
    exact exists_eq_ok (h₃.exists_add (by simp))

/-- **The commands that are accepted.**  A message is made of these commands
and of no others. -/
theorem messageOf_isOK_iff {command : TreeCommand M F} :
    (∃ msg, messageOf archive command = .ok msg) ↔ command.accepted = true := by
  cases command with
  | addSubscription | removeSubscription | requestNodeValues
  | requestDeleteNodes =>
      exact iff_of_true exists_handleBasicCommandAux rfl
  | removeAllSubscriptions =>
      exact iff_of_true
        (exists_eq_ok (built_ofWhat.exists_cAddFlat (by simp))) rfl
  | requestNodeSubtrees => exact exists_requestNodeSubtrees_iff
  | uploadNodeValue => exact iff_of_true exists_uploadNodeValue rfl
  | uploadNodeSubtree => exact iff_of_true exists_uploadNodeSubtree rfl
  | requestMoveIndexEntry =>
      exact iff_of_true exists_requestMoveIndexEntry rfl
  | pingLocalPeer | pingSeniorPeer =>
      exact iff_of_true exists_pingLocalPeerAux rfl
  | sendMessageToSeniorPeer => exact exists_sendMessageToSeniorPeer_iff
  | sendMessageToSubscriber => exact exists_sendMessageToSubscriber_iff
  | beginUndoSequence | endUndoSequence | requestUndo | requestRedo =>
      exact iff_of_true exists_sendUndoRedoMessage rfl

/-! ## The callbacks -/

theorem exists_handleIndexEntryUpdate {code : ReplyCode} {path : String}
    {idx : UInt32} {nodeName optOpTag : String} :
    ∃ msg : NetworkMessage M,
      handleIndexEntryUpdate code path idx nodeName optOpTag = .ok msg := by
  apply exists_bind_eq_ok (built_ofWhat.exists_cAddString (by simp))
  intro m₁ h₁
  apply exists_bind_eq_ok (h₁.exists_cAddString (by simp))
  intro m₂ h₂
  apply exists_bind_eq_ok (h₂.exists_cAddInt32 (by simp))
  intro m₃ h₃
  exact exists_eq_ok (h₃.exists_cAddString (by simp))

/-- **The callbacks that are accepted.**  A message is made of these callbacks
and of no others. -/
theorem replyOf_isOK_iff {callback : TreeCallback M} :
    (∃ msg, replyOf callback = .ok msg) ↔ callback.accepted = true := by
  cases callback with
  | treeNodeUpdated =>
      apply iff_of_true _ rfl
      apply exists_bind_eq_ok (built_ofWhat.exists_cAddString (by simp))
      intro m₁ h₁
      apply exists_bind_eq_ok (h₁.exists_cAddString (by simp))
      intro m₂ h₂
      exact exists_eq_ok (h₂.exists_cAddMessage (by simp))
  | treeNodeIndexCleared =>
      apply iff_of_true _ rfl
      apply exists_bind_eq_ok (built_ofWhat.exists_cAddString (by simp))
      intro m₁ h₁
      exact exists_eq_ok (h₁.exists_cAddString (by simp))
  | treeNodeIndexEntryInserted | treeNodeIndexEntryRemoved =>
      exact iff_of_true exists_handleIndexEntryUpdate rfl
  | treeLocalPeerPonged =>
      apply iff_of_true _ rfl
      apply exists_bind_eq_ok (built_ofWhat.exists_cAddString (by simp))
      intro m₁ h₁
      exact exists_eq_ok (h₁.exists_add (by simp))
  | treeSeniorPeerPonged =>
      apply iff_of_true _ rfl
      apply exists_bind_eq_ok (built_ofWhat.exists_cAddString (by simp))
      intro m₁ h₁
      exact exists_eq_ok (h₁.exists_cAddInt32 (by simp))
  | messageReceivedFromTreeSeniorPeer =>
      constructor
      · intro ⟨msg, h⟩
        obtain ⟨m₁, -, h⟩ := bind_eq_ok.mp h
        obtain ⟨m₂, -, h⟩ := bind_eq_ok.mp h
        exact isSome_of_addMessage h
      · intro hpayload
        apply exists_bind_eq_ok (built_ofWhat.exists_cAddString (by simp))
        intro m₁ h₁
        apply exists_bind_eq_ok (h₁.exists_cAddInt32 (by simp))
        intro m₂ h₂
        exact exists_eq_ok (h₂.exists_addMessage (by simp) hpayload)
  | messageReceivedFromSubscriber =>
      constructor
      · intro ⟨msg, h⟩
        obtain ⟨m₁, -, h⟩ := bind_eq_ok.mp h
        obtain ⟨m₂, -, h⟩ := bind_eq_ok.mp h
        exact isSome_of_addMessage h
      · intro hpayload
        apply exists_bind_eq_ok (built_ofWhat.exists_cAddString (by simp))
        intro m₁ h₁
        apply exists_bind_eq_ok (h₁.exists_cAddString (by simp))
        intro m₂ h₂
        exact exists_eq_ok (h₂.exists_addMessage (by simp) hpayload)
  | subtreesRequestResultReturned =>
      apply iff_of_true _ rfl
      apply exists_bind_eq_ok (built_ofWhat.exists_cAddString (by simp))
      intro m₁ h₁
      exact exists_eq_ok (h₁.exists_cAddMessage (by simp))

end ZgChoir.NetworkTreeGateway
