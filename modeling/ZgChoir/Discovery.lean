import ZgChoir.TableUpdates
import ZgChoir.HeartbeatThread
import ZgChoir.Runs

/-!
# The discovery of systems

A `SystemDiscoveryClient` pings the network and tells its targets which
systems there are.  A thread of its own keeps a raw result for each source
that has answered, until nothing has been heard of it for too long.  When the
raw results have changed, it groups them by their systems
(`calculateCookedResults`), and reports the systems that are gone, new or
different.

The reports wait in `_pendingUpdates`, where a later one takes the place of an
earlier one, until a dispatch grabs them in the main thread.  The two threads
share nothing but this table and the bits of the callbacks that are requested,
so a report may come between any two steps of the main thread.

A target that is registered gets what is known with the first dispatch, and
what is grabbed with every dispatch.  The targets are expected not to come and
go while they are told.
-/

namespace ZgChoir.Discovery

/-- What is asked of a message.  Messages that are deeply equal are the
same. -/
class DiscoveryMessage (M : Type) where
  /-- The what-code is `PR_RESULT_PONG`. -/
  isPong : M → Bool
  /-- `FindFlat(ZG_DISCOVERY_NAME_PEERID)` -/
  findPeerID : M → Option ZGPeerID
  /-- `FindString(ZG_DISCOVERY_NAME_SYSTEMNAME)` -/
  findSystemName : M → Option String
  /-- `AddString(ZG_DISCOVERY_NAME_SOURCE)` -/
  addSource : M → String → Option M

open DiscoveryMessage

/-! ## The discovery thread -/

structure RawDiscoveryKey (Addr : Type) where
  localIAP : Addr
  sourceIAP : Addr
  peerID : ZGPeerID
  deriving DecidableEq

/-- `RawDiscoveryKey::operator <` -/
def RawDiscoveryKey.lt {Addr : Type} [LinearOrder Addr]
    (a b : RawDiscoveryKey Addr) : Bool :=
  if a.localIAP < b.localIAP then true
  else if a.localIAP = b.localIAP then
    if a.sourceIAP < b.sourceIAP then true
    else if a.sourceIAP = b.sourceIAP then decide (a.peerID < b.peerID)
    else false
  else false

structure RawDiscoveryResult (M : Type) where
  data : M
  expirationTime : UInt64

/-- `RawDiscoveryResult::Update`, and whether the data have changed. -/
def RawDiscoveryResult.update {M : Type} [DecidableEq M]
    (r : RawDiscoveryResult M) (newData : M) (newExpirationTime : UInt64) :
    Bool × RawDiscoveryResult M :=
  if r.data = newData then (false, { r with expirationTime := newExpirationTime })
  else (true, ⟨newData, newExpirationTime⟩)

/-- The message about a system: `ZG_DISCOVERY_NAME_PEERINFO`. -/
structure SystemInfo (M : Type) where
  peerInfo : List M
  deriving DecidableEq

/-- The raw results of a thread's sources. -/
abbrev RawResults (Addr M : Type) :=
  Hashtable (RawDiscoveryKey Addr) (RawDiscoveryResult M)

/-- A raw result goes to its system, if it says which. -/
def addPeerInfo {M : Type} [DiscoveryMessage M]
    (systemNameToPeerIDToInfo : Hashtable String (Hashtable ZGPeerID M))
    (result : M) : Hashtable String (Hashtable ZGPeerID M) :=
  match findPeerID result, findSystemName result with
  | some peerID, some systemName =>
      systemNameToPeerIDToInfo.put systemName
        (((systemNameToPeerIDToInfo.get? systemName).getD .empty).put peerID
          result)
  | _, _ => systemNameToPeerIDToInfo

/-- `CalculateCookedResults` -/
def calculateCookedResults {Addr M : Type} [DiscoveryMessage M]
    (rawDiscoveryResults : RawResults Addr M) :
    Hashtable String (SystemInfo M) :=
  (rawDiscoveryResults.entries.foldl (fun t e => addPeerInfo t e.2.data)
    .empty).mapValues fun _ infos => ⟨infos.entries.map Prod.snd⟩

/-- A `DiscoveryClientManagerSession`. -/
structure DiscoveryManager (Addr M : Type) where
  pingInterval : UInt64
  queryFilter : Option (M → Bool)
  nextPingTime : UInt64
  rawDiscoveryResults : RawResults Addr M
  reportedCookedResults : Hashtable String (SystemInfo M)
  updateResultSetPending : Bool

namespace DiscoveryManager

variable {Addr M : Type} (m : DiscoveryManager Addr M)

/-- `GetExpirationTime`; the largest time is `MUSCLE_TIME_NEVER`. -/
def getExpirationTime (baseTime : UInt64) : UInt64 :=
  if baseTime = 18446744073709551615 then baseTime
  else baseTime + 3 * m.pingInterval

variable [DecidableEq M]

/-- Timing has been thrown off, so everybody is taken to have just answered. -/
def refreshExpirationTimes (now : UInt64) : DiscoveryManager Addr M :=
  { m with
    rawDiscoveryResults := m.rawDiscoveryResults.mapValues fun _ r =>
      (r.update r.data (m.getExpirationTime now)).2 }

variable [LinearOrder Addr]

/-- `RawDiscoveryResultReceived` -/
def rawDiscoveryResultReceived (localIAP sourceIAP : Addr) (peerID : ZGPeerID)
    (dataMsg : M) (now : UInt64) : DiscoveryManager Addr M :=
  if m.queryFilter.any (fun f => !f dataMsg) = true then m
  else
    let key : RawDiscoveryKey Addr := ⟨localIAP, sourceIAP, peerID⟩
    let expirationTime := m.getExpirationTime now
    match m.rawDiscoveryResults.get? key with
    | some r =>
        let updated := r.update dataMsg expirationTime
        { m with
          rawDiscoveryResults := m.rawDiscoveryResults.put key updated.2
          updateResultSetPending := m.updateResultSetPending || updated.1 }
    | none =>
        -- a result that has just been made has no data to be equal to
        { m with
          rawDiscoveryResults :=
            m.rawDiscoveryResults.put key ⟨dataMsg, expirationTime⟩
          updateResultSetPending := true }

/-- The sources that have not answered for too long are forgotten. -/
def expireSources (now : UInt64) : DiscoveryManager Addr M :=
  let expired := m.rawDiscoveryResults.entries.filter fun e =>
    decide (e.2.expirationTime ≤ now)
  { m with
    rawDiscoveryResults :=
      expired.foldl (fun t e => t.remove e.1) m.rawDiscoveryResults
    updateResultSetPending := m.updateResultSetPending || !expired.isEmpty
    nextPingTime := now + m.pingInterval }

variable [DiscoveryMessage M]

/-- `UpdateResultSet`, and the reports it makes. -/
def updateResultSet :
    DiscoveryManager Addr M × List (String × Option (SystemInfo M)) :=
  let rawDiscoveryResults := m.rawDiscoveryResults.sortByKey RawDiscoveryKey.lt
  let newCookedResults := calculateCookedResults rawDiscoveryResults
  ({ m with
      rawDiscoveryResults
      reportedCookedResults := newCookedResults
      updateResultSetPending := false },
    m.reportedCookedResults.changes newCookedResults)

/-- `Pulse` -/
def pulse (scheduledTime now : UInt64) :
    DiscoveryManager Addr M × List (String × Option (SystemInfo M)) :=
  let lateBy := now - scheduledTime
  let m := if 0 ≤ lateBy.toInt64 ∧ m.pingInterval ≤ lateBy then
    m.refreshExpirationTimes now else m
  let m := if m.nextPingTime ≤ now then m.expireSources now else m
  if m.updateResultSetPending = true then m.updateResultSet else (m, [])

/-- A message has come in: `DiscoverySession::DoInput`. -/
def messageReceived [ToString Addr] (multicastIAP sourceLoc : Addr)
    (newDataMsg : M) (now : UInt64) : DiscoveryManager Addr M :=
  if isPong newDataMsg = true then
    match findPeerID newDataMsg, addSource newDataMsg (toString sourceLoc) with
    | some peerID, some dataMsg =>
        m.rawDiscoveryResultReceived multicastIAP sourceLoc peerID dataMsg now
    | _, _ => m
  else m

end DiscoveryManager

/-! ## The main thread -/

/-- The callbacks that are requested: `DISCOVERY_EVENT_TYPE_*`. -/
structure EventBits where
  update : Bool := false
  sleep : Bool := false
  awake : Bool := false
  deriving DecidableEq

/-- What a target is told. -/
inductive TargetCallback (M : Type) where
  | discoveryUpdate (systemName : String) (optSystemInfo : Option (SystemInfo M))
  | computerIsAboutToSleep
  | computerJustWokeUp

/-- The updates of a dispatch, for one target. -/
def updatesFor {M : Type} (isNewTarget : Bool)
    (knownInfos : Hashtable String (SystemInfo M))
    (updates : Hashtable String (Option (SystemInfo M))) :
    List (String × Option (SystemInfo M)) :=
  if isNewTarget = true then
    ((knownInfos.entries.filter fun e => decide (e.1 ∉ updates.keys)).map
      fun e => (e.1, some e.2)) ++ updates.entries
  else updates.entries

/-- A `SystemDiscoveryClient` and its `DiscoveryImplementation`.  The thread
has still to make the `reports`, and to signal one if `sendSignal`; the main
thread has taken the bits `dispatching`. -/
structure DiscoveryClient (τ Addr M : Type) where
  manager : DiscoveryManager Addr M
  reports : List (String × Option (SystemInfo M))
  sendSignal : Bool
  pendingUpdates : Hashtable String (Option (SystemInfo M))
  requestedBits : EventBits
  dispatching : Option EventBits
  targets : Hashtable τ Bool
  knownInfos : Hashtable String (SystemInfo M)

namespace DiscoveryClient

variable {τ Addr M : Type} (c : DiscoveryClient τ Addr M)

/-- `ScheduleDiscoveryUpdate` -/
def scheduleDiscoveryUpdate : DiscoveryClient τ Addr M :=
  { c with requestedBits := { c.requestedBits with update := true } }

/-- `ReportSleepNotification`: the two bits are mutually exclusive. -/
def reportSleepNotification (isAboutToSleep : Bool) :
    DiscoveryClient τ Addr M :=
  { c with
    requestedBits := { c.requestedBits with
      sleep := isAboutToSleep
      awake := !isAboutToSleep } }

/-- The next thing that `UpdateResultSet` does: `ReportSystemUpdate` puts a
report into the table, and then signals. -/
def reportNext : DiscoveryClient τ Addr M :=
  if c.sendSignal = true then
    { c.scheduleDiscoveryUpdate with sendSignal := false }
  else
    match c.reports with
    | [] => c
    | (systemName, msg) :: reports =>
        { c with
          reports
          pendingUpdates := c.pendingUpdates.put systemName msg
          sendSignal := true }

variable [DecidableEq τ]

/-- `RegisterTarget` -/
def registerTarget (newTarget : τ) : DiscoveryClient τ Addr M :=
  { c.scheduleDiscoveryUpdate with targets := c.targets.put newTarget true }

/-- `UnregisterTarget` -/
def unregisterTarget (target : τ) : DiscoveryClient τ Addr M :=
  { c with targets := c.targets.remove target }

omit [DecidableEq τ] in
/-- What `DispatchCallbacks` tells each target. -/
def callbacks (eventTypeBits : EventBits) :
    Hashtable τ (List (TargetCallback M)) :=
  c.targets.mapValues fun _ isNewTarget =>
    (if eventTypeBits.update = true then
      (updatesFor isNewTarget c.knownInfos c.pendingUpdates).map
        fun u => .discoveryUpdate u.1 u.2
    else []) ++
    (if eventTypeBits.sleep = true then [.computerIsAboutToSleep] else []) ++
    if eventTypeBits.awake = true then [.computerJustWokeUp] else []

omit [DecidableEq τ] in
/-- `DispatchCallbacks` -/
def dispatchCallbacks (eventTypeBits : EventBits) : DiscoveryClient τ Addr M :=
  if eventTypeBits.update = true then
    { c with
      pendingUpdates := .empty
      targets := c.targets.mapValues fun _ _ => false
      knownInfos := c.pendingUpdates.entries.foldl
        (fun t u => t.putOrRemove u.1 u.2) c.knownInfos }
  else c

end DiscoveryClient

/-- A client, what its targets have been told since they were registered, and
the reports that dispatches have grabbed. -/
structure DiscoveryHistory (τ Addr M : Type) where
  client : DiscoveryClient τ Addr M
  received : τ → List (TargetCallback M)
  grabbed : List (String × Option (SystemInfo M))

/-- What happens to a client. -/
inductive DiscoveryEvent (τ Addr M : Type) where
  /-- The thread reads a message from the network. -/
  | messageReceived (multicastIAP sourceLoc : Addr) (newDataMsg : M)
      (now : UInt64)
  | pulse (scheduledTime now : UInt64)
  | reportNext
  | reportSleepNotification (isAboutToSleep : Bool)
  | registerTarget (newTarget : τ)
  | unregisterTarget (target : τ)
  /-- The main thread takes the bits. -/
  | takeEventTypeBits
  | dispatchCallbacks

section Steps

variable {τ Addr M : Type} [DecidableEq τ] [LinearOrder Addr] [ToString Addr]
  [DecidableEq M] [DiscoveryMessage M]

omit [DecidableEq τ] [LinearOrder Addr] [ToString Addr] [DecidableEq M]
  [DiscoveryMessage M] in
/-- A client that has just been started. -/
def DiscoveryHistory.started (pingInterval now : UInt64)
    (queryFilter : Option (M → Bool)) : DiscoveryHistory τ Addr M where
  client :=
    { manager := ⟨pingInterval, queryFilter, now, .empty, .empty, false⟩
      reports := []
      sendSignal := false
      pendingUpdates := .empty
      requestedBits := {}
      dispatching := none
      targets := .empty
      knownInfos := .empty }
  received := fun _ => []
  grabbed := []

omit [DecidableEq τ] [LinearOrder Addr] [ToString Addr] [DecidableEq M]
  [DiscoveryMessage M] in
/-- The thread is not in the middle of `UpdateResultSet`. -/
def DiscoveryClient.threadIsIdle (c : DiscoveryClient τ Addr M) : Bool :=
  c.reports.isEmpty && !c.sendSignal

/-- One event.  A thread does one thing at a time.  What a target has received
is counted from its latest registration on.  Targets that register or
unregister from within a callback are left out: while a dispatch is going on,
nobody comes or goes. -/
def discoveryStep (t : DiscoveryHistory τ Addr M) :
    DiscoveryEvent τ Addr M → DiscoveryHistory τ Addr M
  | .messageReceived multicastIAP sourceLoc newDataMsg now =>
      if t.client.threadIsIdle = true then
        { t with client := { t.client with
            manager := t.client.manager.messageReceived multicastIAP sourceLoc
              newDataMsg now } }
      else t
  | .pulse scheduledTime now =>
      if t.client.threadIsIdle = true then
        let pulsed := t.client.manager.pulse scheduledTime now
        { t with client := { t.client with
            manager := pulsed.1
            reports := pulsed.2 } }
      else t
  | .reportNext => { t with client := t.client.reportNext }
  | .reportSleepNotification isAboutToSleep =>
      if t.client.threadIsIdle = true then
        { t with client := t.client.reportSleepNotification isAboutToSleep }
      else t
  | .registerTarget newTarget =>
      -- a target that has the client already is not registered again
      if t.client.dispatching = none ∧ newTarget ∉ t.client.targets.keys then
        { t with
          client := t.client.registerTarget newTarget
          received := Function.update t.received newTarget [] }
      else t
  | .unregisterTarget target =>
      if t.client.dispatching = none then
        { t with client := t.client.unregisterTarget target }
      else t
  | .takeEventTypeBits =>
      if t.client.dispatching = none ∧ t.client.requestedBits ≠ {} then
        { t with client := { t.client with
            dispatching := some t.client.requestedBits
            requestedBits := {} } }
      else t
  | .dispatchCallbacks =>
      match t.client.dispatching with
      | none => t
      | some eventTypeBits =>
          { client :=
              { t.client.dispatchCallbacks eventTypeBits with
                dispatching := none }
            received := fun target => t.received target ++
              ((t.client.callbacks eventTypeBits).get? target).getD []
            grabbed := t.grabbed ++
              if eventTypeBits.update = true then
                t.client.pendingUpdates.entries
              else [] }

end Steps

end ZgChoir.Discovery
