import ZgChoir.Hashtable
import ZgChoir.Muscle

/-!
# Many subscribers behind one subscription

A `MuxTreeGateway` passes the subscriptions of its own subscribers on to the
gateway upstream, one for each path string, and hands what comes back to
those of its subscribers whose subscriptions match.  It keeps two tables.
`_subscribedStrings` has for each path string the triples of subscriber,
filter and flags, in the order in which they came; from it follows what is
asked of upstream.  A subscriber's own table, MUSCLE's `PathMatcher`, has one
filter for each path, without the slash in front; it decides what the
subscriber gets.  Beside it stand the paths of which the subscriber has been
given a value.

A call is one step: the code of a subscriber that is called on the way does
not call back here.  The windows of first results, in which only some of the
subscribers are served, are left out.
-/

namespace ZgChoir.MuxSubscriptions

/-- What MUSCLE does with paths and filters. -/
structure PathMatching (φ M : Type) where
  /-- `String::WithoutPrefix("/")` -/
  withoutPrefix : String → String
  /-- Whether a pattern of a `PathMatcher` matches a path. -/
  matchesPath : String → String → Bool
  /-- `QueryFilter::Matches`, for a node of this path and payload. -/
  filterMatches : φ → String → M → Bool

/-- `SubscriptionInfo` -/
structure SubscriptionInfo (σ φ : Type) where
  sub : σ
  qfRef : Option φ
  flags : TreeGatewayFlags
  deriving DecidableEq

/-- `TreeSubscriberInfo`: the entries of the `PathMatcher`, and the paths that
a value was given of. -/
structure TreeSubscriberInfo (φ : Type) where
  entries : Hashtable String (Option φ)
  receivedPaths : List String

/-- The filter of a subscription upstream: none, one of those below, or an
`OrQueryFilter` of them. -/
inductive SentFilter (φ : Type) where
  | all
  | one (f : φ)
  | any (children : List φ)
  deriving DecidableEq

/-- A gateway's tables, and the subscriptions it has upstream. -/
structure MuxState (σ φ : Type) where
  isConnected : Bool
  registeredSubscribers : List σ
  subscriberInfos : Hashtable σ (Option (TreeSubscriberInfo φ))
  subscribedStrings : Hashtable String (List (SubscriptionInfo σ φ))
  upstream : String → Option (SentFilter φ)

/-- How the calls upstream end: the last one may fail when the subscription
has been made. -/
inductive Answer where
  | ok
  | refused
  | cutOff
  deriving DecidableEq

section Model

variable {σ φ M : Type} [DecidableEq σ] [DecidableEq φ]
  (rules : PathMatching φ M)

namespace TreeSubscriberInfo

/-- A new one. -/
def new : TreeSubscriberInfo φ := ⟨.empty, []⟩

/-- `PutPathString` -/
def putPathString (info : TreeSubscriberInfo φ) (path : String)
    (filter : Option φ) : TreeSubscriberInfo φ :=
  { info with entries := info.entries.put path filter }

/-- `RemovePathString` -/
def removePathString (info : TreeSubscriberInfo φ) (path : String) :
    TreeSubscriberInfo φ :=
  { info with entries := info.entries.remove path }

/-- `MatchesPath`; without a payload the filters are not asked. -/
def MatchesPath (info : TreeSubscriberInfo φ) (path : String)
    (payload : Option M) : Prop :=
  ∃ entry ∈ info.entries.entries, rules.matchesPath entry.1 path = true ∧
    ∀ f ∈ entry.2, ∀ msg ∈ payload, rules.filterMatches f path msg = true

instance decidableMatchesPath (info : TreeSubscriberInfo φ) (path : String)
    (payload : Option M) : Decidable (info.MatchesPath rules path payload) :=
  inferInstanceAs (Decidable (∃ _ ∈ _, _))

end TreeSubscriberInfo

/-- The loop of `UpdateSubscription` that makes one filter of many: the filter
so far, and whether there is any use in going on. -/
def addFilter (sent : SentFilter φ × Bool) (info : SubscriptionInfo σ φ) :
    SentFilter φ × Bool :=
  if sent.2 then
    match info.qfRef, sent.1 with
    | none, _ => (.all, false)
    | some f, .all => (.one f, true)
    | some f, .one g => (.any [g, f], true)
    | some f, .any children => (.any (children ++ [f]), true)
  else sent

/-- The filter that goes upstream; the last subscription comes first. -/
def sendFilter (q : List (SubscriptionInfo σ φ)) : SentFilter φ :=
  (q.reverse.foldl addFilter (.all, true)).1

namespace MuxState

variable (st : MuxState σ φ)

/-- The queue of a path; a path without one has an empty one. -/
def queue (path : String) : List (SubscriptionInfo σ φ) :=
  (st.subscribedStrings.get? path).getD []

/-- A queue that is empty is not kept. -/
def setQueue (path : String) (q : List (SubscriptionInfo σ φ)) :
    MuxState σ φ :=
  { st with
    subscribedStrings :=
      if q = [] then st.subscribedStrings.remove path
      else st.subscribedStrings.put path q }

def setInfo (s : σ) (info : Option (TreeSubscriberInfo φ)) : MuxState σ φ :=
  { st with subscriberInfos := st.subscriberInfos.put s info }

/-- What a subscriber is left with: one without entries needs no table. -/
def setInfoOrNone (s : σ) (info : TreeSubscriberInfo φ) : MuxState σ φ :=
  st.setInfo s (if info.entries.entries = [] then none else some info)

/-- `UpdateSubscription`: what upstream has of the path follows the queue. -/
def updateSubscription (answer : Answer) (path : String) : MuxState σ φ :=
  if answer = .refused then st
  else
    { st with
      upstream := Function.update st.upstream path
        (if st.queue path = [] then none
          else some (sendFilter (st.queue path))) }

/-- Nobody is registered yet. -/
def initial (isConnected : Bool) : MuxState σ φ where
  isConnected := isConnected
  registeredSubscribers := []
  subscriberInfos := .empty
  subscribedStrings := .empty
  upstream _ := none

end MuxState

/-- `TreeGateway_AddSubscription`; `pathPut` is what `PutPathString` says. -/
def addSubscription (pathPut : Bool) (answer : Answer) (calledBy : σ)
    (path : String) (filter : Option φ) (flags : TreeGatewayFlags)
    (st : MuxState σ φ) : Status × MuxState σ φ :=
  match st.subscriberInfos.get? calledBy with
  | none => (.badArgument, st)
  | some hisSubs =>
      -- an error is that of the call that failed
      let info := hisSubs.getD .new
      let ps := rules.withoutPrefix path
      let put := if pathPut then info.putPathString ps filter else info
      let added := (st.setInfo calledBy (some put)).setQueue path
        (st.queue path ++ [⟨calledBy, filter, flags⟩])
      let updated :=
        if pathPut = true ∧ st.isConnected = true then
          added.updateSubscription answer path
        else added
      if pathPut = true ∧ (st.isConnected = false ∨ answer = .ok) then
        (.noError, updated)
      else
        let rolledBack := put.removePathString ps
        (.badObject, (updated.setInfoOrNone calledBy rolledBack).setQueue path
          (st.queue path))

/-- The paths of which a subscriber no longer hears, and the others. -/
def keepReceived (info : TreeSubscriberInfo φ) :
    TreeSubscriberInfo φ × List String :=
  ({ info with
      receivedPaths := info.receivedPaths.filter fun path =>
        decide (info.MatchesPath rules path none) },
    info.receivedPaths.filter fun path =>
      decide (¬info.MatchesPath rules path none))

/-- `TreeGateway_RemoveSubscription`, and the paths that it dropped. -/
def removeSubscription (answer : Answer) (calledBy : σ) (path : String)
    (filter : Option φ) (flags : TreeGatewayFlags) (st : MuxState σ φ) :
    Status × MuxState σ φ × List String :=
  match st.subscribedStrings.get? path with
  | none => (.noError, st, [])
  | some q =>
      if ⟨calledBy, filter, flags⟩ ∈ q then
        let removed := (st.setQueue path
          (q.erase ⟨calledBy, filter, flags⟩)).updateSubscription answer path
        match st.subscriberInfos.get? calledBy with
        | some (some hisSubs) =>
            let kept := keepReceived rules
              (hisSubs.removePathString (rules.withoutPrefix path))
            (.noError, removed.setInfoOrNone calledBy kept.1, kept.2)
        | _ => (.noError, removed, [])
      else (.dataNotFound, st, [])

/-- The loop of `TreeGateway_RemoveAllSubscriptions`, over the subscriber's own
table as it was. -/
def removeEntries (answers : String → Answer) (calledBy : σ) :
    List (String × Option φ) → MuxState σ φ → MuxState σ φ × List String
  | [], st => (st, [])
  | (path, filter) :: rest, st =>
      let removed :=
        removeSubscription rules (answers path) calledBy path filter {} st
      let others := removeEntries answers calledBy rest removed.2.1
      (others.1, removed.2.2 ++ others.2)

/-- `TreeGateway_RemoveAllSubscriptions` -/
def removeAllSubscriptions (answers : String → Answer) (calledBy : σ)
    (st : MuxState σ φ) : MuxState σ φ × List String :=
  match st.subscriberInfos.get? calledBy with
  | some (some subs) =>
      removeEntries rules answers calledBy subs.entries.entries st
  | _ => (st, [])

/-- `RegisterSubscriber` -/
def registerSubscriber (s : σ) (st : MuxState σ φ) : MuxState σ φ :=
  { st with
    registeredSubscribers := st.registeredSubscribers ++ [s]
    subscriberInfos := st.subscriberInfos.put s none }

/-- `UnregisterSubscriber` -/
def unregisterSubscriber (answers : String → Answer) (s : σ)
    (st : MuxState σ φ) : MuxState σ φ × List String :=
  let removed := removeAllSubscriptions rules answers s st
  ({ removed.1 with
      registeredSubscribers :=
        removed.1.registeredSubscribers.filter fun a => decide (a ≠ s)
      subscriberInfos := removed.1.subscriberInfos.remove s },
    removed.2)

/-- `UpdateSubscriber`: what the subscriber is given, if anything. -/
def updateSubscriber (info : TreeSubscriberInfo φ) (path : String)
    (msgRef : Option M) : TreeSubscriberInfo φ × Option (Option M) :=
  match msgRef with
  | some msg =>
      ({ info with
          receivedPaths := if path ∈ info.receivedPaths then info.receivedPaths
            else info.receivedPaths ++ [path] },
        some (some msg))
  | none =>
      if path ∈ info.receivedPaths then
        ({ info with
            receivedPaths := info.receivedPaths.filter fun p =>
              decide (p ≠ path) },
          some none)
      else (info, none)

/-- One round of the loop of `TreeNodeUpdatedAux`. -/
def updateInfo (path : String) (msgRef : Option M)
    (info : TreeSubscriberInfo φ) :
    TreeSubscriberInfo φ × Option (Option M) :=
  updateSubscriber info path
    (if info.MatchesPath rules path msgRef then msgRef else none)

/-- `TreeNodeUpdatedAux`, when no subscriber is excluded. -/
def treeNodeUpdated (path : String) (msgRef : Option M) (st : MuxState σ φ) :
    MuxState σ φ :=
  { st with
    subscriberInfos := st.subscriberInfos.mapValues fun _ subInfo =>
      subInfo.map fun info => (updateInfo rules path msgRef info).1 }

/-- What a subscriber is given of an update: nothing, or a payload or its
absence. -/
def given (path : String) (msgRef : Option M) (s : σ) (st : MuxState σ φ) :
    Option (Option M) :=
  match st.subscriberInfos.get? s with
  | some (some info) => (updateInfo rules path msgRef info).2
  | _ => none

end Model

end ZgChoir.MuxSubscriptions
