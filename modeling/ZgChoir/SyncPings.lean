import ZgChoir.Muscle
import ZgChoir.Runs

/-!
# Synchronous pings

A client may ping its own connection: such a ping is answered when its turn
comes to be sent, and is not sent.  `FilterLocalPingMessageIOGateway` looks for
these pings among the outgoing messages, and in the batches among them, and in
the batches in those.

A message is compared with what becomes of it through its traversal, from
which it can be told (`traversalAll_injective`): the messages in it one after
the other, and where each batch begins and ends.
-/

namespace ZgChoir.SyncPings

/-! ## The code -/

/-- The what-codes that matter here. -/
inductive MessageWhat where
  | prCommandBatch
  | ntgCommandPing
  | ntgReplyPong
  | other (code : UInt32)
  deriving DecidableEq

/-- An outgoing message: what is in `NTG_NAME_FLAGS`, in `NTG_NAME_TAG`, the
messages in `PR_NAME_KEYS`, and the other fields. -/
inductive OutgoingMessage (F : Type) where
  | mk (what : MessageWhat) (flags : TreeGatewayFlags) (tag : String)
      (keys : List (OutgoingMessage F)) (fields : F)

namespace OutgoingMessage

variable {F : Type}

def what : OutgoingMessage F → MessageWhat
  | mk what _ _ _ _ => what

def flags : OutgoingMessage F → TreeGatewayFlags
  | mk _ flags _ _ _ => flags

def tag : OutgoingMessage F → String
  | mk _ _ tag _ _ => tag

def keys : OutgoingMessage F → List (OutgoingMessage F)
  | mk _ _ _ keys _ => keys

def fields : OutgoingMessage F → F
  | mk _ _ _ _ fields => fields

def setWhat (what : MessageWhat) : OutgoingMessage F → OutgoingMessage F
  | mk _ flags tag keys fields => mk what flags tag keys fields

def setKeys (keys : List (OutgoingMessage F)) :
    OutgoingMessage F → OutgoingMessage F
  | mk what flags tag _ fields => mk what flags tag keys fields

end OutgoingMessage

variable {F : Type}

/-- `GetPongForLocalSyncPing` -/
def getPongForLocalSyncPing (maybeSyncPingMsg : OutgoingMessage F) :
    Option (OutgoingMessage F) :=
  if maybeSyncPingMsg.what = .ntgCommandPing ∧
      maybeSyncPingMsg.flags.sync = true then
    some (maybeSyncPingMsg.setWhat .ntgReplyPong)
  else none

theorem sizeOf_keys_lt (m : OutgoingMessage F) : sizeOf m.keys < sizeOf m := by
  obtain ⟨what, flags, tag, keys, fields⟩ := m
  simp only [OutgoingMessage.keys, OutgoingMessage.mk.sizeOf_spec]
  omega

theorem sizeOf_drop {keys : List (OutgoingMessage F)} {i : ℕ}
    {subMsg : OutgoingMessage F} (hsub : keys[i]? = some subMsg) :
    sizeOf (keys.drop i) = 1 + sizeOf subMsg + sizeOf (keys.drop (i + 1)) := by
  rw [List.drop_eq_getElem?_toList_append, hsub, Option.toList_some,
    List.singleton_append, List.cons.sizeOf_spec]

/-- The loop of `StripBatchSyncPings`, from index `i` on.  A batch in the batch
is stripped in its place. -/
def stripFrom (keys : List (OutgoingMessage F)) (i : ℕ)
    (retPongMessages : List (OutgoingMessage F)) :
    List (OutgoingMessage F) × List (OutgoingMessage F) :=
  match _hsub : keys[i]? with
  | none => (keys, retPongMessages)
  | some subMsg =>
      match getPongForLocalSyncPing subMsg with
      | some pongMsg =>
          stripFrom (keys.eraseIdx i) i (retPongMessages ++ [pongMsg])
      | none =>
          if subMsg.what = .prCommandBatch then
            let stripped := stripFrom subMsg.keys 0 retPongMessages
            stripFrom (keys.set i (subMsg.setKeys stripped.1)) (i + 1)
              stripped.2
          else stripFrom keys (i + 1) retPongMessages
termination_by sizeOf (keys.drop i)
decreasing_by
  · have hlt := (List.getElem?_eq_some_iff.mp _hsub).1
    rw [List.eraseIdx_eq_take_drop_succ,
      List.drop_left' (List.length_take_of_le hlt.le), sizeOf_drop _hsub]
    omega
  · have hkeys := sizeOf_keys_lt subMsg
    rw [List.drop_zero, sizeOf_drop _hsub]
    omega
  · rw [List.drop_set_of_lt (Nat.lt_add_one i), sizeOf_drop _hsub]
    omega
  · rw [sizeOf_drop _hsub]
    omega

/-- `StripBatchSyncPings` -/
def stripBatchSyncPings (batchMsg : OutgoingMessage F)
    (retPongMessages : List (OutgoingMessage F)) :
    OutgoingMessage F × List (OutgoingMessage F) :=
  let stripped := stripFrom batchMsg.keys 0 retPongMessages
  (batchMsg.setKeys stripped.1, stripped.2)

/-- `FilterOutgoingLocalPingMessages`: what is left of the message, and what is
passed to `CallMessageReceivedFromGateway`. -/
def filterOutgoingLocalPingMessages (msgRef : OutgoingMessage F) :
    Option (OutgoingMessage F) × List (OutgoingMessage F) :=
  if msgRef.what = .prCommandBatch then
    let stripped := stripBatchSyncPings msgRef []
    (some stripped.1, stripped.2)
  else
    match getPongForLocalSyncPing msgRef with
    | some pongMsg => (none, [pongMsg])
    | none => (some msgRef, [])

/-- A `FilterLocalPingMessageIOGateway`.  What was added, what was sent and
which messages its session received from it is kept for the record. -/
structure FilterGateway (F : Type) where
  outgoingMessages : List (OutgoingMessage F)
  added : List (OutgoingMessage F)
  sent : List (OutgoingMessage F)
  receivedFromGateway : List (OutgoingMessage F)

namespace FilterGateway

def initial : FilterGateway F := ⟨[], [], [], []⟩

/-- `AddOutgoingMessage` -/
def addOutgoingMessage (g : FilterGateway F) (msg : OutgoingMessage F) :
    FilterGateway F :=
  { g with
    outgoingMessages := g.outgoingMessages ++ [msg]
    added := g.added ++ [msg] }

/-- The loop of `PopNextOutgoingMessage`, over the messages in the queue: the
message that is sent, if any, what the session receives, and what stays in the
queue. -/
def popNext : List (OutgoingMessage F) →
    Option (OutgoingMessage F) × List (OutgoingMessage F) ×
      List (OutgoingMessage F)
  | [] => (none, [], [])
  | msg :: rest =>
      match filterOutgoingLocalPingMessages msg with
      | (some ret, pongs) => (some ret, pongs, rest)
      | (none, pongs) =>
          let next := popNext rest
          (next.1, pongs ++ next.2.1, next.2.2)

/-- `PopNextOutgoingMessage`, and what it returns is sent. -/
def popNextOutgoingMessage (g : FilterGateway F) : FilterGateway F :=
  let next := popNext g.outgoingMessages
  { g with
    outgoingMessages := next.2.2
    sent := g.sent ++ next.1.toList
    receivedFromGateway := g.receivedFromGateway ++ next.2.1 }

end FilterGateway

inductive GatewayEvent (F : Type) where
  | addOutgoingMessage (msg : OutgoingMessage F)
  | popNextOutgoingMessage

def gatewayStep (g : FilterGateway F) : GatewayEvent F → FilterGateway F
  | .addOutgoingMessage msg => g.addOutgoingMessage msg
  | .popNextOutgoingMessage => g.popNextOutgoingMessage

/-! ## Traversals -/

/-- What is met in a message: a batch begins, with what is in it besides the
messages, or ends, or there is a message that is no batch. -/
inductive Item (F : Type) where
  | beginBatch (flags : TreeGatewayFlags) (tag : String) (fields : F)
  | endBatch
  | message (msg : OutgoingMessage F)

mutual

/-- A message in traversal order. -/
def traversal : OutgoingMessage F → List (Item F)
  | .mk what flags tag keys fields =>
      if what = .prCommandBatch then
        .beginBatch flags tag fields :: (traversalAll keys ++ [.endBatch])
      else [.message (.mk what flags tag keys fields)]

/-- Messages in traversal order. -/
def traversalAll : List (OutgoingMessage F) → List (Item F)
  | [] => []
  | msg :: rest => traversal msg ++ traversalAll rest

end

/-- A ping that is to be answered here. -/
def IsSyncPing (msg : OutgoingMessage F) : Prop :=
  msg.what = .ntgCommandPing ∧ msg.flags.sync = true

instance : DecidablePred (IsSyncPing (F := F)) := fun msg =>
  inferInstanceAs (Decidable (msg.what = .ntgCommandPing ∧ _))

/-- What is sent. -/
def Item.isOrdinary : Item F → Bool
  | .message msg => !decide (IsSyncPing msg)
  | _ => true

/-- The pong for a sync ping: the ping, with another what-code. -/
def Item.pong? : Item F → Option (OutgoingMessage F)
  | .message msg =>
      if IsSyncPing msg then some (msg.setWhat .ntgReplyPong) else none
  | _ => none

/-! ### A traversal tells the message -/

section

variable {msg : OutgoingMessage F} {msgs msgs' : List (OutgoingMessage F)}

theorem traversal_of_batch (h : msg.what = .prCommandBatch) :
    traversal msg = .beginBatch msg.flags msg.tag msg.fields ::
      (traversalAll msg.keys ++ [.endBatch]) := by
  obtain ⟨what, flags, tag, keys, fields⟩ := msg
  rw [traversal]
  exact if_pos h

theorem traversal_of_not_batch (h : msg.what ≠ .prCommandBatch) :
    traversal msg = [.message msg] := by
  obtain ⟨what, flags, tag, keys, fields⟩ := msg
  rw [traversal]
  exact if_neg h

theorem traversalAll_append :
    traversalAll (msgs ++ msgs') = traversalAll msgs ++ traversalAll msgs' := by
  induction msgs with
  | nil => rfl
  | cons first rest ih =>
      rw [List.cons_append, traversalAll, ih, traversalAll, List.append_assoc]

theorem traversalAll_singleton : traversalAll [msg] = traversal msg := by
  rw [traversalAll, traversalAll, List.append_nil]

theorem batch_ext {msg' : OutgoingMessage F}
    (h : msg.what = .prCommandBatch) (h' : msg'.what = .prCommandBatch)
    (hflags : msg.flags = msg'.flags) (htag : msg.tag = msg'.tag)
    (hfields : msg.fields = msg'.fields) (hkeys : msg.keys = msg'.keys) :
    msg = msg' := by
  obtain ⟨what, flags, tag, keys, fields⟩ := msg
  obtain ⟨what', flags', tag', keys', fields'⟩ := msg'
  obtain rfl : what = what' := Eq.trans h (Eq.symm h')
  obtain rfl : flags = flags' := hflags
  obtain rfl : tag = tag' := htag
  obtain rfl : keys = keys' := hkeys
  obtain rfl : fields = fields' := hfields
  rfl

/-- No message begins with the end of a batch. -/
theorem traversal_ne_endBatch {after after' : List (Item F)} :
    .endBatch :: after ≠ traversal msg ++ after' := by
  intro h
  by_cases hbatch : msg.what = .prCommandBatch
  · rw [traversal_of_batch hbatch] at h
    exact nomatch (List.cons.inj h).1
  · rw [traversal_of_not_batch hbatch] at h
    exact nomatch (List.cons.inj h).1

end

mutual

theorem traversal_append_inj : ∀ {msg msg' : OutgoingMessage F}
    {after after' : List (Item F)},
    traversal msg ++ after = traversal msg' ++ after' →
      msg = msg' ∧ after = after'
  | .mk what flags tag keys fields, msg', after, after', h => by
      by_cases hbatch : (OutgoingMessage.mk what flags tag keys fields).what =
          .prCommandBatch
      · rw [traversal_of_batch hbatch] at h
        by_cases hbatch' : msg'.what = .prCommandBatch
        · rw [traversal_of_batch hbatch', List.cons_append,
            List.cons_append] at h
          obtain ⟨hbegin, hrest⟩ := List.cons.inj h
          obtain ⟨hflags, htag, hfields⟩ := Item.beginBatch.inj hbegin
          rw [List.append_assoc, List.append_assoc] at hrest
          obtain ⟨hkeys, hafter⟩ := traversalAll_endBatch_inj hrest
          exact ⟨batch_ext hbatch hbatch' hflags htag hfields hkeys, hafter⟩
        · rw [traversal_of_not_batch hbatch'] at h
          exact nomatch (List.cons.inj h).1
      · rw [traversal_of_not_batch hbatch] at h
        by_cases hbatch' : msg'.what = .prCommandBatch
        · rw [traversal_of_batch hbatch'] at h
          exact nomatch (List.cons.inj h).1
        · rw [traversal_of_not_batch hbatch'] at h
          obtain ⟨hmsg, hafter⟩ := List.cons.inj h
          exact ⟨Item.message.inj hmsg, hafter⟩

theorem traversalAll_endBatch_inj : ∀ {msgs msgs' : List (OutgoingMessage F)}
    {after after' : List (Item F)},
    traversalAll msgs ++ .endBatch :: after =
        traversalAll msgs' ++ .endBatch :: after' →
      msgs = msgs' ∧ after = after'
  | [], [], _, _, h => ⟨rfl, (List.cons.inj h).2⟩
  | [], msg' :: rest', after, after', h => by
      rw [traversalAll, traversalAll, List.append_assoc] at h
      exact absurd h traversal_ne_endBatch
  | msg :: rest, [], after, after', h => by
      rw [traversalAll, traversalAll, List.append_assoc] at h
      exact absurd h.symm traversal_ne_endBatch
  | msg :: rest, msg' :: rest', after, after', h => by
      rw [traversalAll, traversalAll, List.append_assoc, List.append_assoc] at h
      obtain ⟨hmsg, hrest⟩ := traversal_append_inj h
      obtain ⟨hrest, hafter⟩ := traversalAll_endBatch_inj hrest
      exact ⟨congrArg₂ List.cons hmsg hrest, hafter⟩

end

/-- **A traversal tells the messages.** -/
theorem traversalAll_injective :
    Function.Injective (traversalAll (F := F)) := by
  intro msgs msgs' h
  have hend : traversalAll msgs ++ .endBatch :: [] =
      traversalAll msgs' ++ .endBatch :: [] := congrArg (· ++ [.endBatch]) h
  exact (traversalAll_endBatch_inj hend).1

/-! ## Stripping -/

section

variable {msg : OutgoingMessage F}

theorem getPongForLocalSyncPing_of_syncPing (h : IsSyncPing msg) :
    getPongForLocalSyncPing msg = some (msg.setWhat .ntgReplyPong) :=
  if_pos h

theorem getPongForLocalSyncPing_of_not (h : ¬ IsSyncPing msg) :
    getPongForLocalSyncPing msg = none :=
  if_neg h

theorem getPongForLocalSyncPing_eq_some {pongMsg : OutgoingMessage F}
    (h : getPongForLocalSyncPing msg = some pongMsg) :
    IsSyncPing msg ∧ pongMsg = msg.setWhat .ntgReplyPong := by
  by_cases hping : IsSyncPing msg
  · rw [getPongForLocalSyncPing_of_syncPing hping] at h
    exact ⟨hping, (Option.some.inj h).symm⟩
  · exact nomatch (getPongForLocalSyncPing_of_not hping).symm.trans h

theorem not_isSyncPing (h : getPongForLocalSyncPing msg = none) :
    ¬ IsSyncPing msg := by
  intro hping
  exact nomatch (getPongForLocalSyncPing_of_syncPing hping).symm.trans h

theorem not_batch_of_isSyncPing (h : IsSyncPing msg) :
    msg.what ≠ .prCommandBatch := by
  rw [h.1]
  decide

/-- Nothing is left of a sync ping. -/
theorem filter_traversal_of_isSyncPing (h : IsSyncPing msg) :
    (traversal msg).filter Item.isOrdinary = [] := by
  rw [traversal_of_not_batch (not_batch_of_isSyncPing h)]
  simp [Item.isOrdinary, h]

theorem filterMap_traversal_of_isSyncPing (h : IsSyncPing msg) :
    (traversal msg).filterMap Item.pong? = [msg.setWhat .ntgReplyPong] := by
  rw [traversal_of_not_batch (not_batch_of_isSyncPing h)]
  simp [Item.pong?, h]

theorem filter_traversal_of_ordinary (hbatch : msg.what ≠ .prCommandBatch)
    (h : ¬ IsSyncPing msg) :
    (traversal msg).filter Item.isOrdinary = traversal msg := by
  rw [traversal_of_not_batch hbatch]
  simp [Item.isOrdinary, h]

theorem filterMap_traversal_of_ordinary (hbatch : msg.what ≠ .prCommandBatch)
    (h : ¬ IsSyncPing msg) : (traversal msg).filterMap Item.pong? = [] := by
  rw [traversal_of_not_batch hbatch]
  simp [Item.pong?, h]

/-- A batch is stripped where the messages in it are. -/
theorem traversal_setKeys {keys : List (OutgoingMessage F)}
    (hbatch : msg.what = .prCommandBatch)
    (h : traversalAll keys =
      (traversalAll msg.keys).filter Item.isOrdinary) :
    traversal (msg.setKeys keys) =
      (traversal msg).filter Item.isOrdinary := by
  obtain ⟨what, flags, tag, oldKeys, fields⟩ := msg
  have hstripped : (OutgoingMessage.mk what flags tag keys fields).what =
    .prCommandBatch := hbatch
  rw [traversal_of_batch hbatch, List.filter_cons_of_pos rfl,
    List.filter_append, ← h]
  exact traversal_of_batch hstripped

theorem filterMap_traversal_of_batch (hbatch : msg.what = .prCommandBatch) :
    (traversal msg).filterMap Item.pong? =
      (traversalAll msg.keys).filterMap Item.pong? := by
  rw [traversal_of_batch hbatch, List.filterMap_cons_none rfl,
    List.filterMap_append]
  exact List.append_nil _

end

section

variable {keys retPongMessages : List (OutgoingMessage F)} {i : ℕ}
  {subMsg : OutgoingMessage F}

theorem stripFrom_end (hend : keys[i]? = none) :
    stripFrom keys i retPongMessages = (keys, retPongMessages) := by
  rw [stripFrom]
  split
  · rfl
  · next hsub => exact nomatch hend.symm.trans hsub

theorem stripFrom_syncPing (hsub : keys[i]? = some subMsg)
    (hping : IsSyncPing subMsg) :
    stripFrom keys i retPongMessages =
      stripFrom (keys.eraseIdx i) i
        (retPongMessages ++ [subMsg.setWhat .ntgReplyPong]) := by
  rw [stripFrom]
  split
  · next hend => exact nomatch hend.symm.trans hsub
  · next found hfound =>
      obtain rfl := Option.some.inj (hsub.symm.trans hfound)
      rw [getPongForLocalSyncPing_of_syncPing hping]

theorem stripFrom_batch (hsub : keys[i]? = some subMsg)
    (hping : ¬ IsSyncPing subMsg) (hbatch : subMsg.what = .prCommandBatch) :
    stripFrom keys i retPongMessages =
      stripFrom (keys.set i (subMsg.setKeys
          (stripFrom subMsg.keys 0 retPongMessages).1)) (i + 1)
        (stripFrom subMsg.keys 0 retPongMessages).2 := by
  rw [stripFrom]
  split
  · next hend => exact nomatch hend.symm.trans hsub
  · next found hfound =>
      obtain rfl := Option.some.inj (hsub.symm.trans hfound)
      rw [getPongForLocalSyncPing_of_not hping]
      exact if_pos hbatch

theorem stripFrom_ordinary (hsub : keys[i]? = some subMsg)
    (hping : ¬ IsSyncPing subMsg) (hbatch : subMsg.what ≠ .prCommandBatch) :
    stripFrom keys i retPongMessages =
      stripFrom keys (i + 1) retPongMessages := by
  rw [stripFrom]
  split
  · next hend => exact nomatch hend.symm.trans hsub
  · next found hfound =>
      obtain rfl := Option.some.inj (hsub.symm.trans hfound)
      rw [getPongForLocalSyncPing_of_not hping]
      exact if_neg hbatch

/-- The message at an index, met after those before it. -/
theorem traversalAll_take (hsub : keys[i]? = some subMsg) :
    traversalAll (keys.take (i + 1)) =
      traversalAll (keys.take i) ++ traversal subMsg := by
  rw [List.take_add_one, hsub, Option.toList_some, traversalAll_append,
    traversalAll_singleton]

/-- It is met before those after it. -/
theorem traversalAll_drop (hsub : keys[i]? = some subMsg) :
    traversalAll (keys.drop i) =
      traversal subMsg ++ traversalAll (keys.drop (i + 1)) := by
  rw [List.drop_eq_getElem?_toList_append, hsub, Option.toList_some,
    traversalAll_append, traversalAll_singleton]

end

/-- **The loop** leaves what is ordinary from its index on, and finds a pong
for each sync ping there. -/
theorem stripFrom_correct (keys : List (OutgoingMessage F)) (i : ℕ)
    (retPongMessages : List (OutgoingMessage F)) :
    traversalAll (stripFrom keys i retPongMessages).1 =
        traversalAll (keys.take i) ++
          (traversalAll (keys.drop i)).filter Item.isOrdinary ∧
      (stripFrom keys i retPongMessages).2 =
        retPongMessages ++
          (traversalAll (keys.drop i)).filterMap Item.pong? := by
  induction keys, i, retPongMessages using stripFrom.induct with
  | case1 keys i retPongMessages hend =>
      have hlen : keys.length ≤ i := List.getElem?_eq_none_iff.mp hend
      rw [stripFrom_end hend, List.take_of_length_le hlen,
        List.drop_of_length_le hlen, traversalAll]
      exact ⟨(List.append_nil _).symm, (List.append_nil _).symm⟩
  | case2 keys i retPongMessages subMsg hsub pongMsg hpong ih =>
      obtain ⟨hping, rfl⟩ := getPongForLocalSyncPing_eq_some hpong
      have hlt := (List.getElem?_eq_some_iff.mp hsub).1
      have hdrop : (keys.eraseIdx i).drop i = keys.drop (i + 1) := by
        rw [List.eraseIdx_eq_take_drop_succ]
        exact List.drop_left' (List.length_take_of_le hlt.le)
      rw [stripFrom_syncPing hsub hping]
      rw [List.take_eraseIdx_eq_take_of_le keys i i le_rfl, hdrop] at ih
      rw [traversalAll_drop hsub, List.filter_append,
        List.filterMap_append, filter_traversal_of_isSyncPing hping,
        filterMap_traversal_of_isSyncPing hping, List.nil_append,
        ← List.append_assoc]
      exact ih
  | case3 keys i retPongMessages subMsg hsub hnone hbatch stripped ih ih' =>
      have hping := not_isSyncPing hnone
      have hlt := (List.getElem?_eq_some_iff.mp hsub).1
      rw [List.take_zero, List.drop_zero, traversalAll, List.nil_append] at ih
      rw [stripFrom_batch hsub hping hbatch]
      rw [← filterMap_traversal_of_batch hbatch] at ih
      rw [List.drop_set_of_lt (Nat.lt_add_one i),
        traversalAll_take (List.getElem?_set_self hlt),
        List.take_set_of_le (le_refl i), traversal_setKeys hbatch ih.1] at ih'
      rw [traversalAll_drop hsub, List.filter_append,
        List.filterMap_append, ← List.append_assoc, ← List.append_assoc]
      exact ⟨ih'.1, ih'.2.trans (congrArg (· ++ _) ih.2)⟩
  | case4 keys i retPongMessages subMsg hsub hnone hbatch ih =>
      have hping := not_isSyncPing hnone
      rw [stripFrom_ordinary hsub hping hbatch, ih.1, ih.2,
        traversalAll_take hsub, traversalAll_drop hsub,
        List.filter_append, List.filterMap_append,
        filter_traversal_of_ordinary hbatch hping,
        filterMap_traversal_of_ordinary hbatch hping, List.append_assoc,
        List.nil_append]
      exact ⟨rfl, rfl⟩

/-! ## What is sent -/

/-- **One message.**  What is sent of it is what is ordinary in it, and a pong
is received for each sync ping. -/
theorem filterOutgoingLocalPingMessages_correct (msg : OutgoingMessage F) :
    let filtered := filterOutgoingLocalPingMessages msg
    traversalAll filtered.1.toList =
        (traversal msg).filter Item.isOrdinary ∧
      filtered.2 = (traversal msg).filterMap Item.pong? := by
  unfold filterOutgoingLocalPingMessages
  by_cases hbatch : msg.what = .prCommandBatch
  · obtain ⟨hkeys, hpongs⟩ := stripFrom_correct msg.keys 0 []
    rw [List.take_zero, List.drop_zero, traversalAll, List.nil_append] at hkeys
    rw [List.drop_zero, List.nil_append,
      ← filterMap_traversal_of_batch hbatch] at hpongs
    rw [if_pos hbatch]
    refine ⟨?_, hpongs⟩
    exact traversalAll_singleton.trans (traversal_setKeys hbatch hkeys)
  · rw [if_neg hbatch]
    by_cases hping : IsSyncPing msg
    · rw [getPongForLocalSyncPing_of_syncPing hping,
        filter_traversal_of_isSyncPing hping,
        filterMap_traversal_of_isSyncPing hping]
      exact ⟨rfl, rfl⟩
    · rw [getPongForLocalSyncPing_of_not hping,
        filter_traversal_of_ordinary hbatch hping,
        filterMap_traversal_of_ordinary hbatch hping]
      exact ⟨traversalAll_singleton, rfl⟩

/-- What is left of the messages. -/
def sentOf (msgs : List (OutgoingMessage F)) : List (OutgoingMessage F) :=
  msgs.filterMap fun msg => (filterOutgoingLocalPingMessages msg).1

/-- The pongs for the messages. -/
def pongsOf (msgs : List (OutgoingMessage F)) : List (OutgoingMessage F) :=
  msgs.flatMap fun msg => (filterOutgoingLocalPingMessages msg).2

/-- The loop takes messages from the queue until one is left to be sent. -/
theorem popNext_correct (msgs : List (OutgoingMessage F)) :
    ∃ popped, msgs = popped ++ (FilterGateway.popNext msgs).2.2 ∧
      (FilterGateway.popNext msgs).1.toList = sentOf popped ∧
      (FilterGateway.popNext msgs).2.1 = pongsOf popped := by
  induction msgs with
  | nil => exact ⟨[], rfl, rfl, rfl⟩
  | cons first rest ih =>
      rw [FilterGateway.popNext]
      split
      · next ret pongs hfirst =>
          refine ⟨[first], rfl, ?_, ?_⟩
          · simp [sentOf, hfirst]
          · simp [pongsOf, hfirst]
      · next pongs hfirst =>
          obtain ⟨popped, hsplit, hsent, hpongs⟩ := ih
          refine ⟨first :: popped, congrArg (first :: ·) hsplit, ?_, ?_⟩
          · rw [hsent]
            simp [sentOf, hfirst]
          · refine (congrArg (pongs ++ ·) hpongs).trans ?_
            simp [pongsOf, hfirst]

/-- Of what was added, what is not in the queue has been dealt with. -/
def GatewayCorrect (g : FilterGateway F) : Prop :=
  ∃ popped, g.added = popped ++ g.outgoingMessages ∧
    g.sent = sentOf popped ∧ g.receivedFromGateway = pongsOf popped

/-- **Step lemma.** -/
theorem gatewayCorrect_step {g : FilterGateway F} {e : GatewayEvent F}
    (h : GatewayCorrect g) : GatewayCorrect (gatewayStep g e) := by
  obtain ⟨popped, hadded, hsent, hreceived⟩ := h
  cases e with
  | addOutgoingMessage msg =>
      refine ⟨popped, ?_, hsent, hreceived⟩
      exact (congrArg (· ++ [msg]) hadded).trans (List.append_assoc _ _ _)
  | popNextOutgoingMessage =>
      obtain ⟨next, hsplit, hnextSent, hnextPongs⟩ :=
        popNext_correct g.outgoingMessages
      refine ⟨popped ++ next, ?_, ?_, ?_⟩
      · refine hadded.trans ?_
        rw [List.append_assoc]
        exact congrArg (popped ++ ·) hsplit
      · rw [sentOf, List.filterMap_append]
        exact congrArg₂ (· ++ ·) hsent hnextSent
      · rw [pongsOf, List.flatMap_append]
        exact congrArg₂ (· ++ ·) hreceived hnextPongs

end ZgChoir.SyncPings
