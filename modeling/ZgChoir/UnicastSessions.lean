import ZgChoir.DatabaseStateSteps
import ZgChoir.Runs

/-!
# The TCP sessions of a peer, and its outstanding back-orders

A back-order is remembered twice: in the table of the `PZGDatabaseState` that
wants the update, and in the table of the `PZGUnicastSession` over which it
was asked for.  A session that goes away reports every order in its table as
failed; the database may answer a report by ordering the whole database, and
that order may go out over the very session that is going away.

The model follows all databases of one peer and all its sessions.  A session
is a number; `sessions` says what the object holds.  A session that has no
master any more is in none of the tables of the `PZGNetworkIOSession`, and
takes part in nothing.

A database's method is run on the state of the database alone, as in
`DatabaseState`.  What it is answered when it asks for a back-order is what
the sessions answer (`link`), and what it has asked for is then done to the
sessions, in the same order (`place`).  `ordered` and `reported` are no
members of any class: they list the back-orders that have been accepted, and
the calls of `BackOrderResultReceived`.
-/

namespace ZgChoir

variable {DB Msg : Type}

/-- `PZGUnicastSession`.  The keys of `_backorders` are in the order of
insertion. -/
structure PZGUnicastSession where
  remotePeerID : ZGPeerID
  backorders : List PZGUpdateBackOrderKey
  deriving DecidableEq

/-- What an event finds of the network: whether a session can be connected to
a peer (its address is known, and the session can be added), and what becomes
of the messages. -/
structure Network where
  connects : ZGPeerID → Bool
  addOutgoingMessage : PZGUpdateBackOrderKey → Status
  multicastStatus : ℕ → Status

/-- The tables of sessions.  `isSetUp` is whether there are `_hbSettings`. -/
structure PZGNetworkIOSession where
  localPeerID : ZGPeerID
  isSetUp : Bool
  sessionsCreated : ℕ
  sessions : ℕ → PZGUnicastSession
  registeredUnicastSessions : List ℕ
  namedUnicastSessions : ZGPeerID → List ℕ

namespace PZGNetworkIOSession

/-- `RegisterUnicastSession`. -/
def registerUnicastSession (n : PZGNetworkIOSession) (s : ℕ) :
    PZGNetworkIOSession :=
  let remotePeerID := (n.sessions s).remotePeerID
  { n with
    registeredUnicastSessions :=
      if s ∈ n.registeredUnicastSessions then n.registeredUnicastSessions
      else n.registeredUnicastSessions ++ [s]
    namedUnicastSessions :=
      if remotePeerID.isValid then
        Function.update n.namedUnicastSessions remotePeerID
          (n.namedUnicastSessions remotePeerID ++ [s])
      else n.namedUnicastSessions }

/-- `UnregisterUnicastSession`. -/
def unregisterUnicastSession (n : PZGNetworkIOSession) (s : ℕ) :
    PZGNetworkIOSession :=
  let remotePeerID := (n.sessions s).remotePeerID
  { n with
    registeredUnicastSessions := n.registeredUnicastSessions.filter (· ≠ s)
    namedUnicastSessions :=
      if remotePeerID.isValid then
        Function.update n.namedUnicastSessions remotePeerID
          ((n.namedUnicastSessions remotePeerID).filter (· ≠ s))
      else n.namedUnicastSessions }

/-- Another table of back-orders for a session. -/
def withBackOrders (n : PZGNetworkIOSession) (s : ℕ)
    (backorders : List PZGUpdateBackOrderKey) : PZGNetworkIOSession :=
  { n with
    sessions :=
      Function.update n.sessions s { n.sessions s with backorders } }

/-- A new `PZGUnicastSession`, which is attached to its server and registers
itself. -/
def newUnicastSession (n : PZGNetworkIOSession) (remotePeerID : ZGPeerID) :
    PZGNetworkIOSession :=
  registerUnicastSession
    { n with
      sessionsCreated := n.sessionsCreated + 1
      sessions := Function.update n.sessions n.sessionsCreated
        { remotePeerID, backorders := [] } } n.sessionsCreated

/-- `GetUnicastSessionForPeerID`, which may allocate a session. -/
def getUnicastSessionForPeerID (net : Network) (n : PZGNetworkIOSession)
    (peerID : ZGPeerID) : Option ℕ × PZGNetworkIOSession :=
  match (n.namedUnicastSessions peerID).head? with
  | some s => (some s, n)
  | none =>
      if net.connects peerID then
        (some n.sessionsCreated, n.newUnicastSession peerID)
      else (none, n)

/-- `PZGUnicastSession::RequestBackOrderFromSeniorPeer`. -/
def requestBackOrder (net : Network) (n : PZGNetworkIOSession) (s : ℕ)
    (ubok : PZGUpdateBackOrderKey) : Status × PZGNetworkIOSession :=
  if ubok ∈ (n.sessions s).backorders then (.noError, n)
  else
    let ret := net.addOutgoingMessage ubok
    if ret.isOK then
      (.noError, n.withBackOrders s ((n.sessions s).backorders ++ [ubok]))
    else (ret, n)

/-- `PZGNetworkIOSession::RequestBackOrderFromSeniorPeer`. -/
def requestBackOrderFromSeniorPeer (net : Network) (n : PZGNetworkIOSession)
    (ubok : PZGUpdateBackOrderKey) : Status × PZGNetworkIOSession :=
  if n.isSetUp = false then (.badObject, n)
  else if ubok.targetPeerID = n.localPeerID then (.unimplemented, n)
  else
    match n.getUnicastSessionForPeerID net ubok.targetPeerID with
    | (some s, n') => n'.requestBackOrder net s ubok
    | (none, n') => (.dataNotFound, n')

/-- What the sessions answer to a request. -/
def link (net : Network) (n : PZGNetworkIOSession) : Link where
  multicastStatus := net.multicastStatus
  backOrderStatus ubok := (n.requestBackOrderFromSeniorPeer net ubok).1

/-- The sessions after these requests, one after another. -/
def place (net : Network) (n : PZGNetworkIOSession)
    (uboks : List PZGUpdateBackOrderKey) : PZGNetworkIOSession :=
  uboks.foldl (fun n ubok => (n.requestBackOrderFromSeniorPeer net ubok).2) n

end PZGNetworkIOSession

/-- The back-orders among the calls of a database. -/
def requestsOf (calls : List (MasterCall Msg)) :
    List (PZGUpdateBackOrderKey × Status) :=
  calls.filterMap fun
    | .requestBackOrderFromSeniorPeer ubok _ ret => some (ubok, ret)
    | _ => none

/-- A peer with all its databases and all its sessions. -/
structure ConnectedPeer (DB Msg : Type) where
  master : Master
  numDatabases : UInt32
  databases : UInt32 → PZGDatabaseState DB Msg
  ioSession : PZGNetworkIOSession
  ordered : List PZGUpdateBackOrderKey
  reported : List PZGUpdateBackOrderKey

namespace ConnectedPeer

/-- A peer that has just been attached to its server. -/
def fresh (cb : Callbacks DB Msg) (db : UInt32 → DB) (localPeerID : ZGPeerID)
    (numDatabases : UInt32) (maxPayloadBytesInLog : UInt32 → UInt64) :
    ConnectedPeer DB Msg where
  master := { localPeerID, seniorPeerID := .invalid, iAmFullyAttached := false }
  numDatabases := numDatabases
  databases i := .fresh cb (db i) i (maxPayloadBytesInLog i)
  ioSession :=
    { localPeerID, isSetUp := true, sessionsCreated := 0
      sessions := fun _ => { remotePeerID := .invalid, backorders := [] }
      registeredUnicastSessions := []
      namedUnicastSessions := fun _ => [] }
  ordered := []
  reported := []

/-- One of the databases runs a method. -/
def runDatabase (net : Network) (p : ConnectedPeer DB Msg) (i : UInt32)
    (method : Master → Link → PZGDatabaseState DB Msg →
      PZGDatabaseState DB Msg) : ConnectedPeer DB Msg :=
  if i < p.numDatabases then
    let d := method p.master (p.ioSession.link net)
      { p.databases i with masterCalls := [] }
    let requests := requestsOf d.masterCalls
    { p with
      databases := Function.update p.databases i d
      ioSession := p.ioSession.place net (requests.map (·.1))
      ordered := p.ordered ++ (requests.filter (·.2.isOK)).map (·.1) }
  else p

/-- `ZGPeerSession::BackOrderResultReceived`. -/
def backOrderResultReceived (cb : Callbacks DB Msg) (net : Network)
    (p : ConnectedPeer DB Msg) (ubok : PZGUpdateBackOrderKey)
    (optUpdateData : Option (PZGDatabaseUpdate Msg)) :
    ConnectedPeer DB Msg :=
  { p with reported := p.reported ++ [ubok] }.runDatabase net
    ubok.whichDatabase fun m link d =>
      d.backOrderResultReceived cb m link ubok optUpdateData

/-- The loop of `UnregisterMyself`, from a position in the table on.  An
iterator of MUSCLE's tables also comes to keys that are put into the table
while it is at work.  Every turn has a network of its own. -/
def reportFailures (cb : Callbacks DB Msg) (nets : ℕ → Network) (s : ℕ) :
    ℕ → ℕ → ConnectedPeer DB Msg → ConnectedPeer DB Msg
  | 0, _, p => p
  | fuel + 1, position, p =>
      match (p.ioSession.sessions s).backorders[position]? with
      | some ubok =>
          reportFailures cb nets s fuel (position + 1)
            (p.backOrderResultReceived cb (nets position) ubok none)
      | none => p

/-- `UnregisterMyself`, of a session that has a master.  A report adds one key
to the table at most, and a report about a whole database adds none, so two
turns for every key are enough. -/
def unregisterMyself (cb : Callbacks DB Msg) (nets : ℕ → Network)
    (p : ConnectedPeer DB Msg) (s : ℕ) : ConnectedPeer DB Msg :=
  let told := p.reportFailures cb nets s
    (2 * (p.ioSession.sessions s).backorders.length) 0
  { told with
    ioSession := (told.ioSession.withBackOrders s []).unregisterUnicastSession
      s }

/-- `EndSession` and `AboutToDetachFromServer`, of a session that may have a
master. -/
def endSession (cb : Callbacks DB Msg) (nets : ℕ → Network)
    (p : ConnectedPeer DB Msg) (s : ℕ) : ConnectedPeer DB Msg :=
  if s ∈ p.ioSession.registeredUnicastSessions then
    p.unregisterMyself cb nets s
  else p

/-- Some sessions are told to end, one after another. -/
def endSessions (cb : Callbacks DB Msg) (nets : ℕ → ℕ → Network)
    (p : ConnectedPeer DB Msg) (sessions : List ℕ) : ConnectedPeer DB Msg :=
  sessions.foldl (fun p s => p.endSession cb (nets s) s) p

/-- `ClearAllUnicastSessions`. -/
def clearAllUnicastSessions (cb : Callbacks DB Msg)
    (nets : ℕ → ℕ → Network) (p : ConnectedPeer DB Msg) :
    ConnectedPeer DB Msg :=
  let ended := p.endSessions cb nets p.ioSession.registeredUnicastSessions
  { ended with
    ioSession := { ended.ioSession with
      registeredUnicastSessions := []
      namedUnicastSessions := fun _ => [] } }

/-- `PZG_UNICAST_COMMAND_ANNOUNCE_UNICAST_PEER_ID`, with a peer ID or
without. -/
def announceUnicastPeerID (cb : Callbacks DB Msg) (nets : ℕ → Network)
    (p : ConnectedPeer DB Msg) (s : ℕ) (optPeerID : Option ZGPeerID) :
    ConnectedPeer DB Msg :=
  if s ∈ p.ioSession.registeredUnicastSessions then
    let p := p.unregisterMyself cb nets s
    match optPeerID with
    | some remotePeerID =>
        { p with
          ioSession := { p.ioSession with
            sessions := Function.update p.ioSession.sessions s
              { remotePeerID, backorders := [] } }.registerUnicastSession s }
    | none => p
  else p

/-- `PZG_UNICAST_COMMAND_REPLY_BACK_ORDER`. -/
def replyBackOrder (cb : Callbacks DB Msg) (net : Network)
    (p : ConnectedPeer DB Msg) (s : ℕ) (ubok : PZGUpdateBackOrderKey)
    (optUpdateData : Option (PZGDatabaseUpdate Msg)) :
    ConnectedPeer DB Msg :=
  if s ∈ p.ioSession.registeredUnicastSessions ∧
      ubok ∈ (p.ioSession.sessions s).backorders then
    { p with
      ioSession := p.ioSession.withBackOrders s
        ((p.ioSession.sessions s).backorders.filter (· ≠ ubok)) }
      |>.backOrderResultReceived cb net ubok optUpdateData
  else p

end ConnectedPeer

/-- What can happen to a peer with sessions.  Which requests and beacons a
peer passes on to its databases is of no account here: all are. -/
inductive ConnectionEvent (Msg : Type) where
  | peerHasComeOnline
  | seniorPeerChanged (newSeniorPeerID : ZGPeerID)
  | peerHasGoneOffline (peerID : ZGPeerID) (nets : ℕ → ℕ → Network)
  | databaseUpdateRequest (i : UInt32) (fromPeerID : ZGPeerID)
      (msg : DatabaseUpdateRequest Msg) (time : Timing) (net : Network)
  | beaconReceived (i : UInt32) (info : PZGDatabaseStateInfo) (net : Network)
  | rescan (i : UInt32) (net : Network)
  | checksumMismatch (i : UInt32) (net : Network)
  | sessionAccepted
  | sessionNeeded (peerID : ZGPeerID) (net : Network)
  | unicastPeerIDAnnounced (s : ℕ) (optPeerID : Option ZGPeerID)
      (nets : ℕ → Network)
  | backOrderReplied (s : ℕ) (ubok : PZGUpdateBackOrderKey)
      (optUpdateData : Option (PZGDatabaseUpdate Msg)) (net : Network)
  | sessionEnded (s : ℕ) (nets : ℕ → Network)
  | allUnicastSessionsCleared (nets : ℕ → ℕ → Network)
  | childSessionsShutDown (nets : ℕ → ℕ → Network)

namespace ConnectedPeer

/-- Every database hears that the peer is attached now. -/
def peerHasComeOnline (p : ConnectedPeer DB Msg) : ConnectedPeer DB Msg :=
  if p.master.iAmFullyAttached then p
  else
    let master := { p.master with iAmFullyAttached := true }
    { p with
      master
      databases := fun i => (p.databases i).scheduleLogContentsRescan master }

/-- The peer after one event. -/
def step (cb : Callbacks DB Msg) (p : ConnectedPeer DB Msg) :
    ConnectionEvent Msg → ConnectedPeer DB Msg
  | .peerHasComeOnline => p.peerHasComeOnline
  | .seniorPeerChanged newSeniorPeerID =>
      { p with master := { p.master with seniorPeerID := newSeniorPeerID } }
  | .peerHasGoneOffline peerID nets =>
      p.endSessions cb nets (p.ioSession.namedUnicastSessions peerID)
  | .databaseUpdateRequest i fromPeerID msg time net =>
      p.runDatabase net i fun m _ d =>
        (d.handleDatabaseUpdateRequest cb m fromPeerID msg time).2
  | .beaconReceived i info net =>
      p.runDatabase net i fun m _ d => d.seniorDatabaseStateInfoChanged m info
  | .rescan i net =>
      p.runDatabase net i fun m link d =>
        d.rescanUpdateLogIfNecessary cb m link
  | .checksumMismatch i net =>
      p.runDatabase net i fun _ _ d => d.verifyOrFixLocalDatabaseChecksum cb
  | .sessionAccepted =>
      if p.ioSession.isSetUp then
        { p with ioSession := p.ioSession.newUnicastSession .invalid }
      else p
  | .sessionNeeded peerID net =>
      if p.ioSession.isSetUp && decide (peerID ≠ p.ioSession.localPeerID) then
        { p with
          ioSession := (p.ioSession.getUnicastSessionForPeerID net peerID).2 }
      else p
  | .unicastPeerIDAnnounced s optPeerID nets =>
      p.announceUnicastPeerID cb nets s optPeerID
  | .backOrderReplied s ubok optUpdateData net =>
      p.replyBackOrder cb net s ubok optUpdateData
  | .sessionEnded s nets => p.endSession cb nets s
  | .allUnicastSessionsCleared nets => p.clearAllUnicastSessions cb nets
  | .childSessionsShutDown nets =>
      { p with ioSession := { p.ioSession with isSetUp := false } }
        |>.clearAllUnicastSessions cb nets

end ConnectedPeer

end ZgChoir
