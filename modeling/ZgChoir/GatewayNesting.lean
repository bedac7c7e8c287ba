import ZgChoir.Registrations
import ZgChoir.Runs

/-!
# Nested gateways, and the way of a reply

A subscriber registers with a `MuxTreeGateway`, which is a subscriber itself:
of another gateway, or, if it is the one that a peer's clients use, of the
peer.  Subscribers come and go all the time, and every registration gets the
next registration ID of its gateway.

A message to a subscriber goes up to the peer, where its tag has become a
return address, then to the peer that the address names and down again.  On
the way down each gateway takes the ID before the colon and passes the rest to
the subscriber that is registered under it; a path that is no return address
goes to the subscribers that have received a node it matches.

Between peers the messages pass as they are, and so they do on the network
between a client and its server.
-/

namespace ZgChoir

/-- A subscriber: a gateway in turn, or a client of one. -/
inductive Subscriber (μ κ : Type) where
  | mux (gateway : μ)
  | client (name : κ)
  deriving DecidableEq

/-- What a `MuxTreeGateway` keeps of its subscribers. -/
structure MuxTreeGateway (μ κ : Type) extends
    Registrations (Subscriber μ κ) where
  isConnected : Bool
  /-- the paths of `_receivedPaths`, with their numbers of segments -/
  receivedPaths : Subscriber μ κ → List (String × ℕ)

namespace MuxTreeGateway

variable {μ κ : Type} [DecidableEq μ] [DecidableEq κ]

/-- A gateway without subscribers. -/
def new : MuxTreeGateway μ κ where
  toRegistrations := .nobody
  isConnected := false
  receivedPaths _ := []

/-- `RegisterSubscriber` -/
def registerSubscriber (m : MuxTreeGateway μ κ) (sub : Subscriber μ κ) :
    MuxTreeGateway μ κ where
  toRegistrations := m.register sub
  isConnected := m.isConnected
  receivedPaths := Function.update m.receivedPaths sub []

/-- `UnregisterSubscriber` -/
def unregisterSubscriber (m : MuxTreeGateway μ κ) (sub : Subscriber μ κ) :
    MuxTreeGateway μ κ where
  toRegistrations := m.unregister sub
  isConnected := m.isConnected
  receivedPaths :=
    if (m.registeredSubscribers.get? sub).isSome then
      Function.update m.receivedPaths sub []
    else m.receivedPaths

/-- The tag that a subscriber's message goes on with. -/
def tagFor (m : MuxTreeGateway μ κ) (sub : Subscriber μ κ) (tag : String) :
    String :=
  m.toRegistrations.prependRegistrationIDPrefix sub tag '_'

end MuxTreeGateway

/-- The peers of a system, and the gateway that each makes for its clients. -/
structure Peers (μ : Type) where
  peerIDs : List ZGPeerID
  muxGateway : ZGPeerID → μ

/-- Where a subscriber is registered. -/
inductive Upstream (μ : Type) where
  | peer (peerID : ZGPeerID)
  | mux (gateway : μ)

/-- All gateways, and the gateway that each subscriber is registered with.
A peer's own gateway is registered with the peer. -/
@[ext] structure GatewaySystem (μ κ : Type) where
  muxes : μ → MuxTreeGateway μ κ
  gateway : Subscriber μ κ → Option μ

/-- A message of one subscriber to others, as peers exchange it. -/
structure SubscriberMessage (M : Type) where
  path : String
  payload : M
  tag : String

/-- A `MessageReceivedFromSubscriber` that has reached a client. -/
structure ReceivedMessage (κ M : Type) where
  client : κ
  nodePath : String
  payload : M
  returnAddress : String

/-- What happens to the gateways. -/
inductive GatewayEvent (μ κ : Type) where
  | setGateway (sub : Subscriber μ κ) (optGateway : Option μ)
  | connectionStateChanged (gateway : μ) (isConnected : Bool)
  | nodesReceived (gateway : μ) (sub : Subscriber μ κ)
      (paths : List (String × ℕ))

namespace GatewaySystem

variable {μ κ M : Type} [DecidableEq μ] [DecidableEq κ]

section Operations

variable (peers : Peers μ)

/-- The peer whose own gateway `gateway` is. -/
def ownPeer (gateway : μ) : Option ZGPeerID :=
  peers.peerIDs.find? fun p => decide (peers.muxGateway p = gateway)

/-- The gateway, or the peer, that a subscriber's calls go to. -/
def upstream (sys : GatewaySystem μ κ) (sub : Subscriber μ κ) :
    Option (Upstream μ) :=
  match sub with
  | .client _ => (sys.gateway sub).map .mux
  | .mux gateway =>
      match ownPeer peers gateway with
      | some p => some (.peer p)
      | none => (sys.gateway sub).map .mux

/-- One gateway has changed. -/
def setMux (sys : GatewaySystem μ κ) (gateway : μ) (m : MuxTreeGateway μ κ) :
    GatewaySystem μ κ :=
  { sys with muxes := Function.update sys.muxes gateway m }

/-- The part of `SetGateway` before the new gateway is taken. -/
def unregister (sys : GatewaySystem μ κ) (sub : Subscriber μ κ) :
    GatewaySystem μ κ :=
  match sys.gateway sub with
  | some gateway =>
      { sys.setMux gateway ((sys.muxes gateway).unregisterSubscriber sub) with
        gateway := Function.update sys.gateway sub none }
  | none => sys

/-- The part of `SetGateway` after that. -/
def register (sys : GatewaySystem μ κ) (sub : Subscriber μ κ) :
    Option μ → GatewaySystem μ κ
  | some gateway =>
      { sys.setMux gateway ((sys.muxes gateway).registerSubscriber sub) with
        gateway := Function.update sys.gateway sub (some gateway) }
  | none => sys

/-- `SetGateway` -/
def setGateway (sys : GatewaySystem μ κ) (sub : Subscriber μ κ)
    (optGateway : Option μ) : GatewaySystem μ κ :=
  if sys.gateway sub = optGateway then sys
  else (sys.unregister sub).register sub optGateway

/-- The gateways that the peers have made stay with them. -/
def isPeersOwn : Subscriber μ κ → Bool
  | .client _ => false
  | .mux gateway => (ownPeer peers gateway).isSome

/-- One event. -/
def step (sys : GatewaySystem μ κ) : GatewayEvent μ κ → GatewaySystem μ κ
  | .setGateway sub optGateway =>
      if isPeersOwn peers sub then sys else sys.setGateway sub optGateway
  | .connectionStateChanged gateway isConnected =>
      sys.setMux gateway { sys.muxes gateway with isConnected }
  | .nodesReceived gateway sub paths =>
      sys.setMux gateway
        { sys.muxes gateway with
          receivedPaths :=
            Function.update (sys.muxes gateway).receivedPaths sub paths }

/-- At the beginning no subscriber is registered. -/
def initial : GatewaySystem μ κ where
  muxes _ := .new
  gateway _ := none

/-- `TreeGateway_SendMessageToSubscriber`, from gateway to gateway: the peer
at which the message arrives, and the tag it sends along.  Without a
connection, and without a gateway, there is an error. -/
def sendMessageToSubscriber (sys : GatewaySystem μ κ) :
    ℕ → Subscriber μ κ → String → Option (ZGPeerID × String)
  | 0, _, _ => none
  | fuel + 1, sub, tag =>
      match sys.upstream peers sub with
      | some (.peer p) => some (p, returnAddress p tag)
      | some (.mux gateway) =>
          if (sys.muxes gateway).isConnected then
            sys.sendMessageToSubscriber fuel (.mux gateway)
              ((sys.muxes gateway).tagFor sub tag)
          else none
      | none => none

/-- The peers that a message goes to: the one that its path names, or else
those whose subscribers may have a node that the path matches.  `none` stands
for all peers. -/
def getPerClientPeerIDsForPath (atoxll : List Char → UInt64)
    (peersOfNodes : String → Option (List ZGPeerID)) (path : String) :
    Option (List ZGPeerID) :=
  let peerID := (getPeerIDFromReturnAddress atoxll path).1
  if peerID.isValid then some [peerID] else peersOfNodes path

variable (nodeMatches : String → String → Bool)

/-- The subscribers that a path matches a received node of, with the first
such node each. -/
def matchingSubscribers (m : MuxTreeGateway μ κ) (nodePath : String) :
    List (Subscriber μ κ × String) :=
  let numPathSegments := nodePath.toList.count '/' + 1
  m.registeredSubscribers.keys.filterMap fun sub =>
    ((m.receivedPaths sub).find? fun received =>
      received.2 = numPathSegments && nodeMatches nodePath received.1).map
        fun received => (sub, received.1)

/-- `MessageReceivedFromSubscriber`, down to the clients. -/
def messageReceivedFromSubscriber (sys : GatewaySystem μ κ) (payload : M)
    (returnAddress : String) :
    ℕ → Subscriber μ κ → String → List (ReceivedMessage κ M)
  | _, .client client, nodePath => [{ client, nodePath, payload, returnAddress }]
  | 0, .mux _, _ => []
  | fuel + 1, .mux gateway, nodePath =>
      if MuxTreeGateway.isReturnAddress nodePath then
        match MuxTreeGateway.parseRegistrationIDPrefix nodePath '_' with
        | some (registrationID, suffix) =>
            match (sys.muxes gateway).registrationIDs.get? registrationID with
            | some sub =>
                sys.messageReceivedFromSubscriber payload returnAddress fuel sub
                  suffix
            | none => []
        | none => []
      else
        (matchingSubscribers nodeMatches (sys.muxes gateway) nodePath).flatMap
          fun found =>
            sys.messageReceivedFromSubscriber payload returnAddress fuel found.1
              found.2

/-- `MTDPS_COMMAND_MESSAGETOSUBSCRIBER` in `MessageReceivedFromPeer`.  A
message that names another peer is logged and dropped, one that names none
goes to the sessions that are subscribed to the nodes its path matches. -/
def messageReceivedFromPeer (sys : GatewaySystem μ κ)
    (atoxll : List Char → UInt64)
    (subscribedSessions : String → List (Subscriber μ κ)) (fuel : ℕ)
    (localPeerID : ZGPeerID) (msg : SubscriberMessage M) :
    List (ReceivedMessage κ M) :=
  let (targetPeerID, suffix) := getPeerIDFromReturnAddress atoxll msg.path
  if targetPeerID.isValid then
    if targetPeerID = localPeerID then
      sys.messageReceivedFromSubscriber nodeMatches msg.payload msg.tag fuel
        (.mux (peers.muxGateway localPeerID)) suffix
    else []
  else
    (subscribedSessions msg.path).flatMap fun sub =>
      sys.messageReceivedFromSubscriber nodeMatches msg.payload msg.tag fuel sub
        msg.path

end Operations

end GatewaySystem

end ZgChoir
