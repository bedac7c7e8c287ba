import ZgChoir.MuxUpstream
import ZgChoir.ReturnAddress

/-!
# Subscriptions that fail

For a subscription three calls go to the gateway upstream: a ping that names
the subscriber whose first results come next, the subscription, and a ping
that ends them.  The pings come back with the results in between, and from
the first one on until the second is back only the subscriber that is named
is served.  The first call that fails ends the whole, and
`TreeGateway_AddSubscription` rolls back.

What it rolls back is its own two tables.  It removes the path from the
subscriber's own, also if the subscriber had asked for it before, and it
sends nothing: if the first ping has gone out, the second never does.  Where
there is no memory for the first entry of a queue, the empty queue is kept.
-/

namespace ZgChoir.MuxSubscriptions

variable {σ φ M : Type}

/-- A call on the gateway upstream. -/
inductive UpstreamCall (φ : Type) where
  | pingLocalPeer (tag : String)
  | addSubscription (path : String) (filter : SentFilter φ)
      (flags : TreeGatewayFlags)
  deriving DecidableEq

/-- The ping that marks the beginning of the returned results. -/
def openingPing (registrationID : UInt32) : UpstreamCall φ :=
  .pingLocalPeer
    ("obss:" ++ MuxTreeGateway.getRegistrationIDPrefix registrationID '_')

/-- The ping that marks the end of the returned results. -/
def closingPing : UpstreamCall φ := .pingLocalPeer "obss:"

/-- What `UpdateSubscription` calls for one subscriber, if all goes well. -/
def subscriptionCalls (registrationID : UInt32) (path : String)
    (flags : TreeGatewayFlags) (q : List (SubscriptionInfo σ φ)) :
    List (UpstreamCall φ) :=
  [openingPing registrationID, .addSubscription path (sendFilter q) flags,
    closingPing]

/-- How these calls end; one that fails has not gone out. -/
def answerTo (accepts : UpstreamCall φ → Bool) (calls : List (UpstreamCall φ)) :
    Answer :=
  if calls.all accepts then .ok
  else if (calls.take 2).all accepts then .cutOff
  else .refused

/-- Where the gateway's own part fails; only `PutPathString` may do so for
other reasons than memory. -/
inductive InternalFailure where
  | getOrPut
  | addTail
  | newSubscriberInfo
  | putPathString
  deriving DecidableEq

/-- `B_OUT_OF_MEMORY` -/
def outOfMemory : Status := .other "Out of Memory"

/-- Whether the path gets into the subscriber's own table; a new one is only
allocated if there is none. -/
def pathIsPut (failure : Option InternalFailure)
    (hisSubs : Option (TreeSubscriberInfo φ)) : Bool :=
  match failure with
  | none => true
  | some .newSubscriberInfo => hisSubs.isSome
  | some _ => false

section Call

variable [DecidableEq σ] (rules : PathMatching φ M)
  (registrationID : σ → UInt32)

/-- `TreeGateway_AddSubscription`, with the calls that have gone out. -/
def addSubscriptionVia (failure : Option InternalFailure)
    (accepts : UpstreamCall φ → Bool) (calledBy : σ) (path : String)
    (filter : Option φ) (flags : TreeGatewayFlags) (st : MuxState σ φ) :
    Status × MuxState σ φ × List (UpstreamCall φ) :=
  match st.subscriberInfos.get? calledBy, failure with
  | none, _ => (.badArgument, st, [])
  | some _, some .getOrPut => (outOfMemory, st, [])
  | some _, some .addTail =>
      -- what `GetOrPut` has put stays
      (outOfMemory,
        { st with
          subscribedStrings := st.subscribedStrings.put path (st.queue path) },
        [])
  | some hisSubs, _ =>
      let calls := subscriptionCalls (registrationID calledBy) path flags
        (st.queue path ++ [⟨calledBy, filter, flags⟩])
      let added := addSubscription rules (pathIsPut failure hisSubs)
        (answerTo accepts calls) calledBy path filter flags st
      (added.1, added.2,
        if pathIsPut failure hisSubs = true ∧ st.isConnected = true then
          calls.takeWhile accepts
        else [])

/-- The paths and filters that a subscriber is matched against. -/
def MuxState.matchedAgainst (st : MuxState σ φ) (s : σ) :
    List (String × Option φ) :=
  match st.subscriberInfos.get? s with
  | some (some info) => info.entries.entries
  | _ => []

/-- Each ping that restricts the callbacks is followed by the one that lifts
the restriction. -/
def EveryWindowCloses (sent : List (UpstreamCall φ)) : Prop :=
  ∀ before registrationID after,
    sent = before ++ openingPing registrationID :: after → closingPing ∈ after

/-- What a call that has failed ought to have done. -/
structure LeavesNoTrace (st st' : MuxState σ φ)
    (sent : List (UpstreamCall φ)) : Prop where
  matchedAgainst (s : σ) : st'.matchedAgainst s = st.matchedAgainst s
  subscribedStrings : st'.subscribedStrings = st.subscribedStrings
  subscriberInfos : st'.subscriberInfos = st.subscriberInfos
  windows : EveryWindowCloses sent

/-- The subscriber has asked for the path before. -/
def HasAskedFor (calledBy : σ) (path : String) (st : MuxState σ φ) : Prop :=
  ∃ own ∈ st.subscriberInfos.get? calledBy, ∃ info ∈ own,
    rules.withoutPrefix path ∈ info.entries.keys

/-- The gateway's own part goes well, and so do the calls upstream. -/
def GoesWell (failure : Option InternalFailure)
    (accepts : UpstreamCall φ → Bool) (calledBy : σ) (path : String)
    (filter : Option φ) (flags : TreeGatewayFlags) (st : MuxState σ φ)
    (hisSubs : Option (TreeSubscriberInfo φ)) : Prop :=
  pathIsPut failure hisSubs = true ∧ (st.isConnected = true →
    ∀ call ∈ subscriptionCalls (registrationID calledBy) path flags
      (st.queue path ++ [⟨calledBy, filter, flags⟩]), accepts call = true)

/-- Nothing has been done yet when the call fails, or nothing fails, or the
queue was not empty, the path is new to the caller and nothing has gone out. -/
def CanRollBack (failure : Option InternalFailure)
    (accepts : UpstreamCall φ → Bool) (calledBy : σ) (path : String)
    (filter : Option φ) (flags : TreeGatewayFlags) (st : MuxState σ φ) : Prop :=
  ∀ hisSubs ∈ st.subscriberInfos.get? calledBy,
    match failure with
    | some .getOrPut => True
    | some .addTail => path ∈ st.subscribedStrings.keys
    | _ =>
        GoesWell registrationID failure accepts calledBy path filter flags st
          hisSubs ∨
        st.subscribedStrings.get? path ≠ some [] ∧
          ¬HasAskedFor rules calledBy path st ∧
          (pathIsPut failure hisSubs = true → st.isConnected = true →
            accepts (openingPing (registrationID calledBy)) = false)

end Call

/-! ## The calls that go out -/

section Calls

variable {accepts : UpstreamCall φ → Bool} {registrationID : UInt32}
  {path : String} {flags : TreeGatewayFlags}
  {q : List (SubscriptionInfo σ φ)}

theorem everyWindowCloses_nil : EveryWindowCloses ([] : List (UpstreamCall φ)) := by
  intro before id after h
  simp at h

/-- Where not all of the calls go out, the window is closed only if it has
never been opened. -/
theorem everyWindowCloses_takeWhile_iff
    (hfails : ¬∀ call ∈ subscriptionCalls registrationID path flags q,
      accepts call = true) :
    EveryWindowCloses ((subscriptionCalls registrationID path flags
      q).takeWhile accepts) ↔ accepts (openingPing registrationID) = false := by
  constructor
  · intro h
    by_contra hopen
    have hopen : accepts (openingPing registrationID) = true := by
      simpa using hopen
    have hclosing : closingPing ∈ ([.addSubscription path (sendFilter q) flags,
        closingPing] : List (UpstreamCall φ)).takeWhile accepts :=
      h [] registrationID _ (by simp [subscriptionCalls, hopen])
    refine hfails ?_
    cases hadd : accepts (.addSubscription path (sendFilter q) flags) with
    | false => simp [hadd] at hclosing
    | true =>
        have hclose : accepts closingPing = true :=
          List.mem_takeWhile_imp hclosing
        simp [subscriptionCalls, hopen, hadd, hclose]
  · intro hopen
    rw [subscriptionCalls, List.takeWhile_cons_of_neg (by simp [hopen])]
    exact everyWindowCloses_nil

theorem answerTo_eq_ok_iff {calls : List (UpstreamCall φ)} :
    answerTo accepts calls = .ok ↔ ∀ call ∈ calls, accepts call = true := by
  unfold answerTo
  split <;> [skip; split] <;> simp_all

end Calls

/-! ## The tables -/

section States

variable [DecidableEq σ] {st : MuxState σ φ} {path : String} {s : σ}
  {q : List (SubscriptionInfo σ φ)} {info : TreeSubscriberInfo φ}

omit [DecidableEq σ] in
@[simp] theorem setQueue_subscriberInfos :
    (st.setQueue path q).subscriberInfos = st.subscriberInfos := rfl

@[simp] theorem setInfoOrNone_subscribedStrings :
    (st.setInfoOrNone s info).subscribedStrings = st.subscribedStrings := rfl

omit [DecidableEq σ] in
@[simp] theorem updateSubscription_subscriberInfos {answer : Answer} :
    (st.updateSubscription answer path).subscriberInfos =
      st.subscriberInfos := by
  unfold MuxState.updateSubscription
  split <;> rfl

omit [DecidableEq σ] in
@[simp] theorem updateSubscription_subscribedStrings {answer : Answer} :
    (st.updateSubscription answer path).subscribedStrings =
      st.subscribedStrings := by
  unfold MuxState.updateSubscription
  split <;> rfl

omit [DecidableEq σ] in
theorem setQueue_congr {st' : MuxState σ φ}
    (h : st'.subscribedStrings = st.subscribedStrings) :
    (st'.setQueue path q).subscribedStrings =
      (st.setQueue path q).subscribedStrings := by
  simp [MuxState.setQueue, h]

omit [DecidableEq σ] in
/-- A queue that gets one more and loses it again is as it was, unless it was
empty. -/
theorem setQueue_setQueue_iff (hq : q ≠ []) :
    ((st.setQueue path q).setQueue path (st.queue path)).subscribedStrings =
      st.subscribedStrings ↔ st.subscribedStrings.get? path ≠ some [] := by
  cases hget : st.subscribedStrings.get? path with
  | none =>
      have hnew := Hashtable.get?_eq_none_iff.mp hget
      simp [MuxState.setQueue, MuxState.queue, hget, hq,
        Hashtable.remove_put_of_notMem hnew]
  | some q' =>
      by_cases hq' : q' = []
      · subst hq'
        simp only [MuxState.setQueue, MuxState.queue, hget, hq, if_false,
          Option.getD_some, if_true, ne_eq, not_true_eq_false, iff_false]
        intro heq
        have hgone := congrArg (fun t => t.get? path) heq
        simp [hget] at hgone
      · simp [MuxState.setQueue, MuxState.queue, hget, hq, hq',
          Hashtable.put_put, Hashtable.put_of_get? hget]

variable {rules : PathMatching φ M} {pathPut : Bool} {answer : Answer}
  {filter : Option φ} {flags : TreeGatewayFlags}
  {hisSubs : Option (TreeSubscriberInfo φ)}

variable (path rules filter flags) in
/-- A subscription that succeeds. -/
theorem addSubscription_of_succeeds
    (hinfo : st.subscriberInfos.get? s = some hisSubs)
    (hput : pathPut = true) (hok : st.isConnected = true → answer = .ok) :
    let added := addSubscription rules pathPut answer s path filter flags st
    added.1 = .noError ∧
      added.2.subscriberInfos = st.subscriberInfos.put s (some ((hisSubs.getD
        .new).putPathString (rules.withoutPrefix path) filter)) ∧
      added.2.subscribedStrings = (st.setQueue path (st.queue path ++
        [⟨s, filter, flags⟩])).subscribedStrings := by
  subst hput
  cases hconnected : st.isConnected with
  | false =>
      simp [addSubscription, hinfo, hconnected, MuxState.setInfo,
        MuxState.setQueue]
  | true =>
      obtain rfl := hok hconnected
      simp [addSubscription, hinfo, hconnected, MuxState.setInfo,
        MuxState.setQueue, MuxState.updateSubscription]

variable (path rules pathPut answer filter flags) in
/-- A subscription that fails: the path is out of the subscriber's table. -/
theorem addSubscription_of_fails
    (hinfo : st.subscriberInfos.get? s = some hisSubs)
    (hfails : pathPut = true → st.isConnected = true ∧ answer ≠ .ok) :
    let added := addSubscription rules pathPut answer s path filter flags st
    added.1 = .badObject ∧
      added.2.subscriberInfos = (st.setInfoOrNone s ((hisSubs.getD
        .new).removePathString (rules.withoutPrefix path))).subscriberInfos ∧
      added.2.subscribedStrings = ((st.setQueue path (st.queue path ++
        [⟨s, filter, flags⟩])).setQueue path
          (st.queue path)).subscribedStrings := by
  have hrolled : (if pathPut then (hisSubs.getD .new).putPathString
      (rules.withoutPrefix path) filter
      else hisSubs.getD .new).removePathString (rules.withoutPrefix path) =
        (hisSubs.getD .new).removePathString (rules.withoutPrefix path) := by
    split
    · simp only [TreeSubscriberInfo.removePathString,
        TreeSubscriberInfo.putPathString, Hashtable.remove_put]
    · rfl
  have hstatus : ¬(pathPut = true ∧
      (st.isConnected = false ∨ answer = .ok)) := by
    rintro ⟨hput, hok⟩
    obtain ⟨hconnected, hne⟩ := hfails hput
    rcases hok with hok | hok
    · simp [hconnected] at hok
    · exact hne hok
  simp only [addSubscription, hinfo, hrolled, if_neg hstatus, true_and]
  refine ⟨?_, ?_⟩
  · split <;> simp [MuxState.setInfoOrNone, MuxState.setInfo, Hashtable.put_put]
  · apply setQueue_congr
    split
    · exact updateSubscription_subscribedStrings.trans (setQueue_congr rfl)
    · exact setQueue_congr rfl

/-! ## What is left behind -/

/-- No subscriber has a table without entries. -/
def NoTableEmpty (st : MuxState σ φ) : Prop :=
  ∀ s info, st.subscriberInfos.get? s = some (some info) →
    info.entries.entries ≠ []

variable {registrationID : σ → UInt32} {accepts : UpstreamCall φ → Bool}
  {failure : Option InternalFailure}

/-- The tables are as before only if the subscriber had not asked for the path
before. -/
theorem setInfoOrNone_rollback_iff (h : NoTableEmpty st)
    (hinfo : st.subscriberInfos.get? s = some hisSubs) :
    (st.setInfoOrNone s ((hisSubs.getD .new).removePathString
      (rules.withoutPrefix path))).subscriberInfos = st.subscriberInfos ↔
      ¬HasAskedFor rules s path st := by
  constructor
  · rintro heq ⟨own, hown, info, hmem, hkey⟩
    obtain rfl : hisSubs = own := by simpa [hinfo] using hown
    obtain rfl := Option.mem_def.mp hmem
    have hget := congrArg (fun t => t.get? s) heq
    have hsame : info.removePathString (rules.withoutPrefix path) = info := by
      simp only [MuxState.setInfoOrNone, MuxState.setInfo, Hashtable.get?_put,
        hinfo, Option.getD_some] at hget
      split at hget <;> simp_all
    rw [← hsame] at hkey
    simp [TreeSubscriberInfo.removePathString] at hkey
  · intro hnew
    refine Hashtable.put_of_get? (hinfo.trans ?_)
    cases hisSubs with
    | none =>
        have hnone : ((TreeSubscriberInfo.new : TreeSubscriberInfo
            φ).removePathString (rules.withoutPrefix path)).entries.entries =
              [] := rfl
        simp [hnone]
    | some own =>
        have hkey : rules.withoutPrefix path ∉ own.entries.keys := fun hkey =>
          hnew ⟨some own, hinfo, own, rfl, hkey⟩
        have hsame : own.removePathString (rules.withoutPrefix path) = own := by
          rw [TreeSubscriberInfo.removePathString,
            Hashtable.remove_of_notMem hkey]
        simp [hsame, h s own hinfo]

/-- What is matched follows from the tables. -/
theorem leavesNoTrace_iff_tables {st' : MuxState σ φ}
    {sent : List (UpstreamCall φ)} :
    LeavesNoTrace st st' sent ↔
      st'.subscribedStrings = st.subscribedStrings ∧
        st'.subscriberInfos = st.subscriberInfos ∧ EveryWindowCloses sent := by
  constructor
  · intro h
    exact ⟨h.subscribedStrings, h.subscriberInfos, h.windows⟩
  · rintro ⟨hstrings, hinfos, hwindows⟩
    refine ⟨fun s => ?_, hstrings, hinfos, hwindows⟩
    simp only [MuxState.matchedAgainst, hinfos]

omit [DecidableEq σ] in
/-- A queue that is put for nothing is a trace, if it was not there. -/
theorem put_queue_iff :
    st.subscribedStrings.put path (st.queue path) = st.subscribedStrings ↔
      path ∈ st.subscribedStrings.keys := by
  constructor
  · intro heq
    rw [← heq]
    exact Hashtable.mem_keys_put.mpr (.inl rfl)
  · intro hmem
    obtain ⟨q, hq⟩ := Option.isSome_iff_exists.mp
      (Hashtable.isSome_get?.mpr hmem)
    apply Hashtable.put_of_get?
    simp [MuxState.queue, hq]

omit [DecidableEq σ] in
/-- The calls go out when the path has been put and there is a connection. -/
theorem everyWindowCloses_sent_iff {pathPut : Bool}
    {calls : List (UpstreamCall φ)} {id : UInt32}
    (hcalls : calls = subscriptionCalls id path flags q)
    (hfails : pathPut = true → st.isConnected = true →
      ¬∀ call ∈ calls, accepts call = true) :
    EveryWindowCloses (if pathPut = true ∧ st.isConnected = true then
      calls.takeWhile accepts else []) ↔
        (pathPut = true → st.isConnected = true →
          accepts (openingPing id) = false) := by
  subst hcalls
  split
  · next hsent =>
    rw [everyWindowCloses_takeWhile_iff (hfails hsent.1 hsent.2)]
    simp [hsent]
  · next hsent =>
    exact iff_of_true everyWindowCloses_nil fun hput hconnected =>
      absurd ⟨hput, hconnected⟩ hsent

variable (path rules filter flags registrationID accepts failure) in
/-- What is left when the gateway's own tables have come to be changed. -/
theorem NoTableEmpty.leavesNoTrace_iff_of_put (h : NoTableEmpty st)
    (hinfo : st.subscriberInfos.get? s = some hisSubs) :
    let calls := subscriptionCalls (registrationID s) path flags
      (st.queue path ++ [⟨s, filter, flags⟩])
    let added := addSubscription rules (pathIsPut failure hisSubs)
      (answerTo accepts calls) s path filter flags st
    let sent := if pathIsPut failure hisSubs = true ∧ st.isConnected = true
      then calls.takeWhile accepts else []
    (added.1 ≠ .noError → LeavesNoTrace st added.2 sent) ↔
      GoesWell registrationID failure accepts s path filter flags st hisSubs ∨
      st.subscribedStrings.get? path ≠ some [] ∧ ¬HasAskedFor rules s path st ∧
        (pathIsPut failure hisSubs = true → st.isConnected = true →
          accepts (openingPing (registrationID s)) = false) := by
  intro calls added sent
  by_cases hok : GoesWell registrationID failure accepts s path filter flags st
      hisSubs
  · have hstatus : added.1 = .noError := (addSubscription_of_succeeds path
      rules filter flags hinfo hok.1 fun hconnected => answerTo_eq_ok_iff.mpr (hok.2 hconnected)).1
    exact ⟨fun _ => .inl hok, fun _ hfails => absurd hstatus hfails⟩
  · have hfails : pathIsPut failure hisSubs = true → st.isConnected = true ∧
        ¬∀ call ∈ calls, accepts call = true := by
      intro hput
      by_contra hno
      refine hok ⟨hput, fun hconnected => ?_⟩
      by_contra hcalls
      exact hno ⟨hconnected, hcalls⟩
    obtain ⟨hstatus, hinfos, hstrings⟩ := addSubscription_of_fails
      path rules _ _ filter flags hinfo fun hput => ⟨(hfails hput).1, fun hanswer =>
        (hfails hput).2 (answerTo_eq_ok_iff.mp hanswer)⟩
    have hfailed : added.1 ≠ .noError := by simp [added, hstatus]
    have hqueue : added.2.subscribedStrings = st.subscribedStrings ↔
        st.subscribedStrings.get? path ≠ some [] := by
      rw [← setQueue_setQueue_iff (List.concat_ne_nil (⟨s, filter, flags⟩ :
        SubscriptionInfo σ φ) (st.queue path))]
      exact iff_of_eq (congrArg (· = st.subscribedStrings) hstrings)
    have htable : added.2.subscriberInfos = st.subscriberInfos ↔
        ¬HasAskedFor rules s path st := by
      rw [← setInfoOrNone_rollback_iff h hinfo]
      exact iff_of_eq (congrArg (· = st.subscriberInfos) hinfos)
    rw [leavesNoTrace_iff_tables, hqueue, htable, everyWindowCloses_sent_iff
      rfl fun hput _ => (hfails hput).2]
    simp [hok, hfailed]

/-- A call leaves nothing behind if it fails, if and only if it can be rolled
back. -/
theorem NoTableEmpty.leavesNoTrace_iff (h : NoTableEmpty st) :
    let added := addSubscriptionVia rules registrationID failure accepts s path
      filter flags st
    (added.1 ≠ .noError → LeavesNoTrace st added.2.1 added.2.2) ↔
      CanRollBack rules registrationID failure accepts s path filter flags
        st := by
  intro added
  unfold CanRollBack
  cases hinfo : st.subscriberInfos.get? s with
  | none =>
      have hsame : added = (.badArgument, st, []) := by
        simp [added, addSubscriptionVia, hinfo]
      simp [hsame, leavesNoTrace_iff_tables, everyWindowCloses_nil]
  | some hisSubs =>
      have hput := h.leavesNoTrace_iff_of_put path rules filter flags
        registrationID accepts failure hinfo
      simp only [Option.mem_some, forall_eq']
      cases failure with
      | none => simpa [added, addSubscriptionVia, hinfo] using hput
      | some failure =>
          cases failure with
          | getOrPut =>
              simp [added, addSubscriptionVia, hinfo, leavesNoTrace_iff_tables,
                everyWindowCloses_nil]
          | addTail =>
              simp [added, addSubscriptionVia, hinfo, leavesNoTrace_iff_tables,
                everyWindowCloses_nil, put_queue_iff, outOfMemory]
          | newSubscriberInfo =>
              simpa [added, addSubscriptionVia, hinfo] using hput
          | putPathString =>
              simpa [added, addSubscriptionVia, hinfo] using hput

end States

/-! ## Every state of a gateway -/

/-- What happens to a gateway, with what upstream answers to its calls. -/
inductive GatewayEvent (σ φ M : Type) where
  | addSubscription (registrationID : σ → UInt32)
      (failure : Option InternalFailure) (accepts : UpstreamCall φ → Bool)
      (calledBy : σ) (path : String) (filter : Option φ)
      (flags : TreeGatewayFlags)
  | removeSubscription (answer : Answer) (calledBy : σ) (path : String)
      (filter : Option φ) (flags : TreeGatewayFlags)
  | removeAllSubscriptions (answers : String → Answer) (calledBy : σ)
  | registerSubscriber (s : σ)
  | unregisterSubscriber (answers : String → Answer) (s : σ)
  | treeNodeUpdated (path : String) (msgRef : Option M)
  | connected (answers : String → Answer)
  | disconnected (answer : Answer)
  | shutdownGateway (answers : σ → String → Answer)

section Histories

variable [DecidableEq σ] [DecidableEq φ] (rules : PathMatching φ M)

/-- `TreeGatewayConnectionStateChanged`, when there is a connection: all
subscriptions are made again. -/
def gatewayConnected (answers : String → Answer) (st : MuxState σ φ) :
    MuxState σ φ :=
  if st.isConnected = true then st
  else
    st.subscribedStrings.keys.foldl
      (fun st path => st.updateSubscription (answers path) path)
      { st with isConnected := true }

/-- `TreeGatewayConnectionStateChanged`, when there is none any more. -/
def gatewayDisconnected (answer : Answer) (st : MuxState σ φ) :
    MuxState σ φ :=
  if st.isConnected = true then
    { st with
      isConnected := false
      upstream := if answer = .refused then st.upstream else fun _ => none }
  else st

/-- `ShutdownGateway` -/
def shutdownGateway (answers : σ → String → Answer) (st : MuxState σ φ) :
    MuxState σ φ :=
  { st.registeredSubscribers.foldl
      (fun st s => (unregisterSubscriber rules (answers s) s st).1) st with
    subscriberInfos := .empty
    subscribedStrings := .empty }

/-- One event. -/
def gatewayStep (st : MuxState σ φ) : GatewayEvent σ φ M → MuxState σ φ
  | .addSubscription registrationID failure accepts calledBy path filter
      flags =>
      (addSubscriptionVia rules registrationID failure accepts calledBy path
        filter flags st).2.1
  | .removeSubscription answer calledBy path filter flags =>
      (removeSubscription rules answer calledBy path filter flags st).2.1
  | .removeAllSubscriptions answers calledBy =>
      (removeAllSubscriptions rules answers calledBy st).1
  | .registerSubscriber s => registerSubscriber s st
  | .unregisterSubscriber answers s =>
      (unregisterSubscriber rules answers s st).1
  | .treeNodeUpdated path msgRef => treeNodeUpdated rules path msgRef st
  | .connected answers => gatewayConnected answers st
  | .disconnected answer => gatewayDisconnected answer st
  | .shutdownGateway answers => shutdownGateway rules answers st

variable {rules} {st : MuxState σ φ} {s : σ} {path : String}
  {filter : Option φ} {flags : TreeGatewayFlags} {answer : Answer}

omit [DecidableEq φ] in
theorem NoTableEmpty.setInfo (h : NoTableEmpty st)
    {own : Option (TreeSubscriberInfo φ)}
    (hown : ∀ info ∈ own, info.entries.entries ≠ []) :
    NoTableEmpty (st.setInfo s own) := by
  intro s' info' hinfo
  simp only [MuxState.setInfo, Hashtable.get?_put] at hinfo
  split at hinfo
  · exact hown info' (Option.some.inj hinfo)
  · exact h s' info' hinfo

omit [DecidableEq φ] in
theorem NoTableEmpty.setInfoOrNone (h : NoTableEmpty st)
    {info : TreeSubscriberInfo φ} : NoTableEmpty (st.setInfoOrNone s info) := by
  refine h.setInfo ?_
  intro info' hinfo
  split at hinfo
  · simp at hinfo
  · next hentries =>
    obtain rfl : info = info' := by simpa using hinfo
    exact hentries

omit [DecidableEq φ] in
/-- Only the one table counts. -/
theorem NoTableEmpty.congr {st' : MuxState σ φ} (h : NoTableEmpty st)
    (hinfos : st'.subscriberInfos = st.subscriberInfos) :
    NoTableEmpty st' := by
  intro s info hinfo
  exact h s info (hinfos ▸ hinfo)

omit [DecidableEq φ] in
theorem entries_put_ne_nil {table : Hashtable String (Option φ)} :
    (table.put path filter).entries ≠ [] := by
  intro h
  have hmem : path ∈ (table.put path filter).keys :=
    Hashtable.mem_keys_put.mpr (.inl rfl)
  simp [Hashtable.keys, h] at hmem

omit [DecidableEq φ] in
theorem NoTableEmpty.addSubscription (h : NoTableEmpty st) {pathPut : Bool} :
    NoTableEmpty
      (addSubscription rules pathPut answer s path filter flags st).2 := by
  cases hinfo : st.subscriberInfos.get? s with
  | none => simpa [MuxSubscriptions.addSubscription, hinfo] using h
  | some hisSubs =>
      by_cases hok : pathPut = true ∧ (st.isConnected = true → answer = .ok)
      · obtain ⟨-, hinfos, -⟩ := addSubscription_of_succeeds path rules
          filter flags hinfo hok.1 hok.2
        have hset : NoTableEmpty (st.setInfo s (some ((hisSubs.getD
            .new).putPathString (rules.withoutPrefix path) filter))) := by
          refine h.setInfo ?_
          intro info hput
          obtain rfl := Option.mem_some.mp hput
          exact entries_put_ne_nil
        exact hset.congr hinfos
      · obtain ⟨-, hinfos, -⟩ := addSubscription_of_fails path rules
          pathPut answer filter flags hinfo fun hput => by
            by_contra hno
            exact hok ⟨hput, fun hconnected => by
              by_contra hanswer
              exact hno ⟨hconnected, hanswer⟩⟩
        exact h.setInfoOrNone.congr hinfos

omit [DecidableEq φ] in
theorem NoTableEmpty.addSubscriptionVia {registrationID : σ → UInt32}
    {failure : Option InternalFailure} {accepts : UpstreamCall φ → Bool}
    (h : NoTableEmpty st) :
    NoTableEmpty (addSubscriptionVia rules registrationID failure accepts s
      path filter flags st).2.1 := by
  unfold MuxSubscriptions.addSubscriptionVia
  split
  · exact h
  · exact h
  · exact h.congr rfl
  · exact h.addSubscription

theorem NoTableEmpty.removeSubscription (h : NoTableEmpty st) :
    NoTableEmpty
      (removeSubscription rules answer s path filter flags st).2.1 := by
  have hremoved : ∀ q, NoTableEmpty
      ((st.setQueue path q).updateSubscription answer path) := fun q =>
    h.congr updateSubscription_subscriberInfos
  unfold MuxSubscriptions.removeSubscription
  split
  · exact h
  · split
    · split
      · exact (hremoved _).setInfoOrNone
      · exact hremoved _
    · exact h

theorem NoTableEmpty.removeEntries {answers : String → Answer}
    {entries : List (String × Option φ)} (h : NoTableEmpty st) :
    NoTableEmpty (removeEntries rules answers s entries st).1 := by
  induction entries generalizing st with
  | nil => exact h
  | cons entry rest ih => exact ih h.removeSubscription

theorem NoTableEmpty.unregisterSubscriber {answers : String → Answer}
    (h : NoTableEmpty st) :
    NoTableEmpty (removeAllSubscriptions rules answers s st).1 ∧
      NoTableEmpty (unregisterSubscriber rules answers s st).1 := by
  have hremoved : NoTableEmpty
      (removeAllSubscriptions rules answers s st).1 := by
    unfold removeAllSubscriptions
    split
    · exact h.removeEntries
    · exact h
  refine ⟨hremoved, ?_⟩
  intro s' info hinfo
  simp only [MuxSubscriptions.unregisterSubscriber,
    Hashtable.get?_remove] at hinfo
  split at hinfo
  · simp at hinfo
  · exact hremoved s' info hinfo

omit [DecidableEq φ] in
theorem updateInfo_entries {msgRef : Option M}
    {info : TreeSubscriberInfo φ} :
    (updateInfo rules path msgRef info).1.entries = info.entries := by
  unfold updateInfo updateSubscriber
  split
  · rfl
  · split <;> rfl

omit [DecidableEq φ] in
theorem NoTableEmpty.gatewayConnected {answers : String → Answer}
    (h : NoTableEmpty st) : NoTableEmpty (gatewayConnected answers st) := by
  unfold MuxSubscriptions.gatewayConnected
  split
  · exact h
  · exact List.foldlRecOn (motive := NoTableEmpty) _ _ (h.congr rfl)
      fun _ hst _ _ => hst.congr updateSubscription_subscriberInfos

/-- **A table without entries is not kept**, whatever happens. -/
theorem NoTableEmpty.step {e : GatewayEvent σ φ M} (h : NoTableEmpty st) :
    NoTableEmpty (gatewayStep rules st e) := by
  cases e with
  | addSubscription registrationID failure accepts calledBy path filter flags =>
      exact h.addSubscriptionVia
  | removeSubscription answer calledBy path filter flags =>
      exact h.removeSubscription
  | removeAllSubscriptions answers calledBy => exact h.unregisterSubscriber.1
  | registerSubscriber s =>
      have hset : NoTableEmpty (st.setInfo s none) := h.setInfo (by simp)
      exact hset.congr rfl
  | unregisterSubscriber answers s => exact h.unregisterSubscriber.2
  | treeNodeUpdated path msgRef =>
      intro s' info hinfo
      simp only [gatewayStep, MuxSubscriptions.treeNodeUpdated,
        Hashtable.get?_mapValues, Option.map_eq_some_iff] at hinfo
      obtain ⟨own, hown, info', rfl, rfl⟩ := hinfo
      rw [updateInfo_entries]
      exact h s' info' hown
  | connected answers => exact h.gatewayConnected
  | disconnected answer =>
      simp only [gatewayStep, gatewayDisconnected]
      split
      · exact h.congr rfl
      · exact h
  | shutdownGateway answers =>
      intro s' info hinfo
      simp [gatewayStep, shutdownGateway] at hinfo

omit [DecidableEq φ] in
theorem noTableEmpty_initial {isConnected : Bool} :
    NoTableEmpty (.initial isConnected : MuxState σ φ) := by
  intro s info hinfo
  simp [MuxState.initial] at hinfo

/-- **A failed subscription leaves no trace** in whatever state the gateway has
come to, if and only if it can be rolled back. -/
theorem failedSubscription_leavesNoTrace_iff (rules : PathMatching φ M)
    (registrationID : σ → UInt32) (es : List (GatewayEvent σ φ M))
    (isConnected : Bool) (failure : Option InternalFailure)
    (accepts : UpstreamCall φ → Bool) (calledBy : σ) (path : String)
    (filter : Option φ) (flags : TreeGatewayFlags) :
    let st := Runs.run (gatewayStep rules) (.initial isConnected) es
    let added := addSubscriptionVia rules registrationID failure accepts
      calledBy path filter flags st
    (added.1 ≠ .noError → LeavesNoTrace st added.2.1 added.2.2) ↔
      CanRollBack rules registrationID failure accepts calledBy path filter
        flags st :=
  NoTableEmpty.leavesNoTrace_iff (Runs.run_invariant (I := NoTableEmpty)
    noTableEmpty_initial fun _ _ hst => hst.step)

end Histories

/-- A subscriber has asked for everything at a path. -/
def subscribed : List (GatewayEvent ℕ ℕ ℕ) :=
  [.registerSubscriber 1,
    .addSubscription (fun _ => 1) none (fun _ => true) 1 "a" none {}]

/-- Upstream takes the pings only. -/
def takesPings : UpstreamCall ℕ → Bool
  | .pingLocalPeer _ => true
  | .addSubscription _ _ _ => false

/-- It asks again, with a filter, and fails: its table is gone, though the
first subscription stands in the queue, and the window stays open. -/
theorem not_leavesNoTrace_subscribed :
    let st := Runs.run (gatewayStep plainRules) (.initial true) subscribed
    let added := addSubscriptionVia plainRules (fun _ => 1) none takesPings 1
      "a" (some 3) {} st
    added.1 = .badObject ∧ st.matchedAgainst 1 = [("a", none)] ∧
      added.2.1.matchedAgainst 1 = [] ∧
      added.2.1.queue "a" = [⟨1, none, {}⟩] ∧
      added.2.2 = [openingPing 1] ∧
      ¬LeavesNoTrace st added.2.1 added.2.2 := by
  intro st added
  have hbefore : st.matchedAgainst 1 = [("a", none)] := by decide
  have hafter : added.2.1.matchedAgainst 1 = [] := by decide
  refine ⟨by decide, hbefore, hafter, by decide, by decide, ?_⟩
  intro h
  have hsame := h.matchedAgainst 1
  simp [hbefore, hafter] at hsame

end ZgChoir.MuxSubscriptions
