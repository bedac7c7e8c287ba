import ZgChoir.GatewayNesting

/-!
# A reply finds its way back

In a run of registrations and unregistrations each gateway's two tables say
the same, as long as its registration IDs do not run over; a registration that
lasts keeps its ID; and a gateway that finds its own writing before the first
colon passes the rest to the subscriber it came from.  So, going up one
gateway and coming down it again cancel, and the reply arrives at the sender
of the message with the tag it was sent with.

`IsReturnAddress` reads the ID with `atoi`, and the ID is an unsigned number:
from 2³¹ on it is not recognised, and the reply is taken for one to the
subscribers of a node of that name.  `RoomForRegistration` keeps clear of
that.
-/

namespace ZgChoir

variable {μ κ M : Type} [DecidableEq μ] [DecidableEq κ]

namespace MuxTreeGateway

/-- The two tables are each other's inverse, no ID is above the counter, and
that is small enough for `IsReturnAddress`. -/
structure Consistent (m : MuxTreeGateway μ κ) : Prop where
  inverse : m.toRegistrations.Inverse
  le_counter (sub : Subscriber μ κ) (registrationID : UInt32) :
    m.registeredSubscribers.get? sub = some registrationID →
      registrationID.toNat ≤ m.registrationIDCounter.toNat
  counter_lt : m.registrationIDCounter.toNat < 2147483648

variable {m : MuxTreeGateway μ κ} {sub : Subscriber μ κ}

theorem consistent_new : (new : MuxTreeGateway μ κ).Consistent where
  inverse := Registrations.inverse_nobody
  le_counter := by simp [new, Registrations.nobody]
  counter_lt := by simp [new, Registrations.nobody]

@[simp] theorem toRegistrations_registerSubscriber :
    (m.registerSubscriber sub).toRegistrations = m.register sub := rfl

@[simp] theorem toRegistrations_unregisterSubscriber :
    (m.unregisterSubscriber sub).toRegistrations = m.unregister sub := rfl

/-- A new registration gets an ID that nobody has. -/
theorem Consistent.registerSubscriber (h : m.Consistent)
    (hnew : m.registeredSubscribers.get? sub = none)
    (hroom : m.registrationIDCounter.toNat + 1 < 2147483648) :
    (m.registerSubscriber sub).Consistent := by
  have hnext : (m.registrationIDCounter + 1).toNat =
      m.registrationIDCounter.toNat + 1 := by
    rw [UInt32.toNat_add, UInt32.toNat_one]
    omega
  have hfree : m.toRegistrations.NextIsFree := by
    refine Option.eq_none_iff_forall_ne_some.mpr ?_
    intro s hs
    have hle : (m.registrationIDCounter + 1).toNat ≤ _ :=
      h.le_counter s _ ((h.inverse _ s).mp hs)
    omega
  refine ⟨h.inverse.register hfree hnew, fun s registrationID hs => ?_, ?_⟩
  · change registrationID.toNat ≤ (m.registrationIDCounter + 1).toNat
    rw [toRegistrations_registerSubscriber, Registrations.get?_register] at hs
    split at hs
    · obtain rfl := Option.some.inj hs
      exact le_rfl
    · have hle := h.le_counter s registrationID hs
      omega
  · change (m.registrationIDCounter + 1).toNat < 2147483648
    omega

/-- An unregistration clears both tables. -/
theorem Consistent.unregisterSubscriber (h : m.Consistent) :
    (m.unregisterSubscriber sub).Consistent := by
  refine ⟨h.inverse.unregister, fun s registrationID hs => ?_, ?_⟩
  · rw [toRegistrations_unregisterSubscriber,
      Registrations.get?_unregister] at hs
    rw [toRegistrations_unregisterSubscriber,
      Registrations.counter_unregister]
    split at hs
    · cases hs
    · exact h.le_counter s registrationID hs
  · rw [toRegistrations_unregisterSubscriber,
      Registrations.counter_unregister]
    exact h.counter_lt

end MuxTreeGateway

namespace GatewaySystem

variable {peers : Peers μ} {sys : GatewaySystem μ κ} {sub other : Subscriber μ κ}

/-- The registration ID of a subscriber at a gateway. -/
def registrationOf (sys : GatewaySystem μ κ) (sub : Subscriber μ κ)
    (gateway : μ) : Option UInt32 :=
  (sys.muxes gateway).registeredSubscribers.get? sub

/-- Every gateway is consistent, and has exactly those registered that take
it for their gateway. -/
structure Consistent (sys : GatewaySystem μ κ) : Prop where
  muxes (gateway : μ) : (sys.muxes gateway).Consistent
  registered_iff (sub : Subscriber μ κ) (gateway : μ) :
    (sys.registrationOf sub gateway).isSome = true ↔
      sys.gateway sub = some gateway

/-- The gateway that is to register a subscriber has given out fewer than
2³¹ - 1 registration IDs so far. -/
def RoomForRegistration (sys : GatewaySystem μ κ) : GatewayEvent μ κ → Prop
  | .setGateway _ (some gateway) =>
      (sys.muxes gateway).registrationIDCounter.toNat + 1 < 2147483648
  | _ => True

instance decidableRoomForRegistration (sys : GatewaySystem μ κ)
    (e : GatewayEvent μ κ) : Decidable (sys.RoomForRegistration e) := by
  unfold RoomForRegistration
  split <;> infer_instance

theorem consistent_initial : (initial : GatewaySystem μ κ).Consistent where
  muxes _ := MuxTreeGateway.consistent_new
  registered_iff := by
    simp [registrationOf, initial, MuxTreeGateway.new, Registrations.nobody]

theorem unregister_muxes (gateway : μ) :
    (sys.unregister sub).muxes gateway =
      if sys.gateway sub = some gateway then
        (sys.muxes gateway).unregisterSubscriber sub
      else sys.muxes gateway := by
  cases hsub : sys.gateway sub with
  | none => simp [unregister, hsub]
  | some current =>
      by_cases hcurrent : gateway = current
      · simp [unregister, hsub, setMux, hcurrent]
      · simp [unregister, hsub, setMux, hcurrent, Ne.symm hcurrent]

theorem unregister_gateway :
    (sys.unregister sub).gateway = Function.update sys.gateway sub none := by
  cases hsub : sys.gateway sub with
  | none =>
      have hsame : Function.update sys.gateway sub none = sys.gateway :=
        Function.update_eq_self_iff.mpr hsub.symm
      simp [unregister, hsub, hsame]
  | some current => simp [unregister, hsub]

theorem register_muxes {optGateway : Option μ} (gateway : μ) :
    (sys.register sub optGateway).muxes gateway =
      if optGateway = some gateway then
        (sys.muxes gateway).registerSubscriber sub
      else sys.muxes gateway := by
  cases optGateway with
  | none => simp [register]
  | some next =>
      by_cases hnext : gateway = next
      · simp [register, setMux, hnext]
      · simp [register, setMux, hnext, Ne.symm hnext]

theorem register_gateway {optGateway : Option μ}
    (hsub : sys.gateway sub = none) :
    (sys.register sub optGateway).gateway =
      Function.update sys.gateway sub optGateway := by
  cases optGateway with
  | none =>
      have hsame : Function.update sys.gateway sub none = sys.gateway :=
        Function.update_eq_self_iff.mpr hsub.symm
      simp [register, hsame]
  | some next => simp [register]

/-- A client goes where it wants. -/
theorem step_client {name : κ} {optGateway : Option μ} :
    step peers sys (.setGateway (.client name) optGateway) =
      sys.setGateway (.client name) optGateway := by
  simp [step, isPeersOwn]

/-- `SetGateway` changes one gateway pointer. -/
theorem setGateway_gateway {optGateway : Option μ} :
    (sys.setGateway sub optGateway).gateway =
      Function.update sys.gateway sub optGateway := by
  unfold setGateway
  split
  · next hsame => exact (Function.update_eq_self_iff.mpr hsame.symm).symm
  · rw [register_gateway (by simp [unregister_gateway]), unregister_gateway,
      Function.update_idem]

/-- The registrations of the other subscribers are left alone. -/
theorem setGateway_registrationOf {optGateway : Option μ} {gateway : μ}
    (hne : other ≠ sub) :
    (sys.setGateway sub optGateway).registrationOf other gateway =
      sys.registrationOf other gateway := by
  unfold setGateway
  split
  · rfl
  · simp only [registrationOf, register_muxes, unregister_muxes]
    split <;> split <;>
      simp [Registrations.get?_register, Registrations.get?_unregister, hne]

theorem Consistent.unregister (h : sys.Consistent) :
    (sys.unregister sub).Consistent := by
  refine ⟨fun gateway => ?_, fun s gateway => ?_⟩
  · rw [unregister_muxes]
    split
    · exact (h.muxes gateway).unregisterSubscriber
    · exact h.muxes gateway
  · have hreg := h.registered_iff s gateway
    simp only [registrationOf, unregister_muxes, unregister_gateway] at hreg ⊢
    by_cases hs : s = sub
    · subst hs
      split
      · simp [Registrations.get?_unregister]
      · next hother => simpa [hother] using hreg
    · split
      · simpa [Registrations.get?_unregister, hs] using hreg
      · simpa [hs] using hreg

theorem Consistent.register {optGateway : Option μ} (h : sys.Consistent)
    (hsub : sys.gateway sub = none)
    (hroom : sys.RoomForRegistration (.setGateway sub optGateway)) :
    (sys.register sub optGateway).Consistent := by
  have hnone : ∀ gateway, sys.registrationOf sub gateway = none := by
    intro gateway
    rw [← Option.not_isSome_iff_eq_none, h.registered_iff, hsub]
    simp
  refine ⟨fun gateway => ?_, fun s gateway => ?_⟩
  · rw [register_muxes]
    split
    · next hnext =>
      subst hnext
      exact (h.muxes gateway).registerSubscriber (hnone gateway) hroom
    · exact h.muxes gateway
  · have hreg := h.registered_iff s gateway
    rw [register_gateway hsub]
    simp only [registrationOf, register_muxes] at hreg ⊢
    by_cases hs : s = sub
    · subst hs
      split
      · next hnext =>
        simp [Registrations.get?_register, hnext]
      · next hother =>
        have hnone' := hnone gateway
        simp only [registrationOf] at hnone'
        simp [hnone', hother]
    · split
      · simpa [Registrations.get?_register, hs] using hreg
      · simpa [hs] using hreg

/-- Whatever happens, the tables stay consistent. -/
theorem Consistent.step {e : GatewayEvent μ κ} (h : sys.Consistent)
    (hroom : sys.RoomForRegistration e) :
    (GatewaySystem.step peers sys e).Consistent := by
  have hsetMux : ∀ (gateway : μ) (m : MuxTreeGateway μ κ), m.Consistent →
      m.registeredSubscribers = (sys.muxes gateway).registeredSubscribers →
        (sys.setMux gateway m).Consistent := by
    intro gateway m hm hsame
    refine ⟨fun g => ?_, fun s g => ?_⟩
    · by_cases hg : g = gateway
      · simpa [setMux, hg] using hm
      · simpa [setMux, hg] using h.muxes g
    · have hreg := h.registered_iff s g
      by_cases hg : g = gateway
      · subst hg
        simpa [registrationOf, setMux, hsame] using hreg
      · simpa [registrationOf, setMux, hg] using hreg
  cases e with
  | setGateway sub optGateway =>
      simp only [GatewaySystem.step]
      split
      · exact h
      · unfold setGateway
        split
        · exact h
        · refine h.unregister.register (by simp [unregister_gateway]) ?_
          cases optGateway with
          | none => trivial
          | some next =>
              have hcounter : ((sys.unregister sub).muxes
                  next).registrationIDCounter =
                    (sys.muxes next).registrationIDCounter := by
                rw [unregister_muxes]
                split
                · exact Registrations.counter_unregister
                · rfl
              simpa [RoomForRegistration, hcounter] using hroom
  | connectionStateChanged gateway isConnected =>
      have hm := h.muxes gateway
      exact hsetMux gateway _ ⟨hm.inverse, hm.le_counter, hm.counter_lt⟩ rfl
  | nodesReceived gateway sub paths =>
      have hm := h.muxes gateway
      exact hsetMux gateway _ ⟨hm.inverse, hm.le_counter, hm.counter_lt⟩ rfl

/-- A registration that lasts through an event keeps its ID. -/
theorem registrationOf_step {e : GatewayEvent μ κ} {gateway : μ}
    (hbefore : sys.gateway sub = some gateway)
    (hafter : (step peers sys e).gateway sub = some gateway) :
    (step peers sys e).registrationOf sub gateway =
      sys.registrationOf sub gateway := by
  cases e with
  | setGateway moved optGateway =>
      simp only [step] at hafter ⊢
      split
      · rfl
      · next hown =>
        rw [if_neg hown] at hafter
        by_cases hmoved : sub = moved
        · subst hmoved
          obtain rfl : optGateway = some gateway := by
            simpa [setGateway_gateway] using hafter
          simp [setGateway, hbefore]
        · exact setGateway_registrationOf hmoved
  | connectionStateChanged changed isConnected =>
      by_cases hchanged : gateway = changed
      · subst hchanged
        simp [step, registrationOf, setMux]
      · simp [step, registrationOf, setMux, hchanged]
  | nodesReceived changed receiver paths =>
      by_cases hchanged : gateway = changed
      · subst hchanged
        simp [step, registrationOf, setMux]
      · simp [step, registrationOf, setMux, hchanged]

/-- A registration that lasts through a run keeps its ID. -/
theorem registrationOf_run {events : List (GatewayEvent μ κ)} {gateway : μ}
    (hlasts : ∀ mid, mid <+: events →
      (Runs.run (step peers) sys mid).gateway sub = some gateway) :
    (Runs.run (step peers) sys events).registrationOf sub gateway =
      sys.registrationOf sub gateway := by
  induction events generalizing sys with
  | nil => rfl
  | cons e events ih =>
      have hbefore : sys.gateway sub = some gateway :=
        hlasts [] List.nil_prefix
      have hrest : ∀ mid, mid <+: events →
          (Runs.run (step peers) (step peers sys e) mid).gateway sub =
            some gateway := fun mid hmid =>
        hlasts (e :: mid) (List.cons_prefix_cons.mpr ⟨rfl, hmid⟩)
      rw [Runs.run_cons, ih hrest]
      exact registrationOf_step hbefore (hrest [] List.nil_prefix)

/-- The registrations that a subscriber's message goes through on its way up:
its own, its gateway's, and so on to the peer. -/
def links (peers : Peers μ) (sys : GatewaySystem μ κ) :
    ℕ → Subscriber μ κ → List (Subscriber μ κ × μ)
  | 0, _ => []
  | fuel + 1, sub =>
      match sys.upstream peers sub with
      | some (.mux gateway) =>
          (sub, gateway) :: sys.links peers fuel (.mux gateway)
      | _ => []

omit [DecidableEq κ] in
theorem upstream_eq_mux {gateway : μ}
    (h : sys.upstream peers sub = some (.mux gateway)) :
    sys.gateway sub = some gateway := by
  cases sub with
  | client name => simpa [upstream] using h
  | mux own =>
      simp only [upstream] at h
      split at h
      · cases h
      · simpa using h

omit [DecidableEq κ] in
theorem upstream_eq_peer {p : ZGPeerID}
    (h : sys.upstream peers sub = some (.peer p)) :
    sub = .mux (peers.muxGateway p) := by
  cases sub with
  | client name => simp [upstream] at h
  | mux own =>
      simp only [upstream] at h
      split at h
      · next q hq =>
        obtain rfl : q = p := by simpa using h
        have hown := List.find?_some hq
        rw [of_decide_eq_true hown]
      · simp at h

variable (nodeMatches : String → String → Bool)

/-- **One gateway, up and down again.**  What a gateway writes before a tag,
it takes off again, and it passes the tag to where it came from. -/
theorem messageReceivedFromSubscriber_tagFor {fuel : ℕ} {gateway : μ}
    {payload : M} {returned tag : String} {registrationID : UInt32}
    (hsys : sys.Consistent)
    (hregistered : sys.registrationOf sub gateway = some registrationID) :
    sys.messageReceivedFromSubscriber nodeMatches payload returned (fuel + 1)
        (.mux gateway)
        (MuxTreeGateway.prependRegistrationIDPrefix registrationID tag '_') =
      sys.messageReceivedFromSubscriber nodeMatches payload returned fuel sub
        tag := by
  have hm := hsys.muxes gateway
  have hsmall : registrationID.toNat < 2147483648 :=
    lt_of_le_of_lt (hm.le_counter sub registrationID hregistered) hm.counter_lt
  have hlookup := (hm.inverse registrationID sub).mpr hregistered
  rw [messageReceivedFromSubscriber, MuxTreeGateway.isReturnAddress_prepend,
    MuxTreeGateway.parseRegistrationIDPrefix_prepend]
  simp [hsmall, hlookup]

/-- **The way up and the way down cancel.**  With as many steps as there are
gateways on the way, what arrives at the peer's own gateway has come down to
the sender. -/
theorem messageReceivedFromSubscriber_sent {sent now : GatewaySystem μ κ}
    (hsent : sent.Consistent) (hnow : now.Consistent) {fuel : ℕ}
    {tag address : String} {p : ZGPeerID}
    (hlinks : ∀ link ∈ sent.links peers fuel sub,
      now.registrationOf link.1 link.2 = sent.registrationOf link.1 link.2)
    (haddress : sent.sendMessageToSubscriber peers fuel sub tag =
      some (p, address)) :
    ∃ depth suffix, address = returnAddress p suffix ∧
      ∀ (payload : M) (returned : String) (f : ℕ),
        now.messageReceivedFromSubscriber nodeMatches payload returned
            (f + depth) (.mux (peers.muxGateway p)) suffix =
          now.messageReceivedFromSubscriber nodeMatches payload returned f sub
            tag := by
  induction fuel generalizing sub tag with
  | zero => simp [sendMessageToSubscriber] at haddress
  | succ fuel ih =>
      simp only [sendMessageToSubscriber] at haddress
      cases hup : sent.upstream peers sub with
      | none => simp [hup] at haddress
      | some up =>
          cases up with
          | peer q =>
              simp only [hup, Option.some.injEq, Prod.mk.injEq] at haddress
              obtain ⟨rfl, rfl⟩ := haddress
              refine ⟨0, tag, rfl, fun payload returned f => ?_⟩
              rw [Nat.add_zero, upstream_eq_peer hup]
          | mux gateway =>
              simp only [hup] at haddress
              split at haddress
              · have hlink : (sub, gateway) ∈ sent.links peers (fuel + 1) sub := by
                  simp [links, hup]
                have hrest : ∀ link ∈ sent.links peers fuel (.mux gateway),
                    now.registrationOf link.1 link.2 =
                      sent.registrationOf link.1 link.2 := fun link hmem =>
                  hlinks link (by simp [links, hup, hmem])
                obtain ⟨registrationID, hid⟩ := Option.isSome_iff_exists.mp
                  ((hsent.registered_iff sub gateway).mpr (upstream_eq_mux hup))
                have htag : (sent.muxes gateway).tagFor sub tag =
                    MuxTreeGateway.prependRegistrationIDPrefix registrationID
                      tag '_' := by
                  rw [registrationOf] at hid
                  simp [MuxTreeGateway.tagFor,
                    Registrations.prependRegistrationIDPrefix,
                    Registrations.idOf, hid]
                obtain ⟨depth, suffix, hsuffix, hdown⟩ := ih hrest haddress
                refine ⟨depth + 1, suffix, hsuffix,
                  fun payload returned f => ?_⟩
                have hstill := (hlinks (sub, gateway) hlink).trans hid
                rw [← Nat.add_assoc, Nat.add_right_comm,
                  hdown payload returned (f + 1), htag]
                exact messageReceivedFromSubscriber_tagFor nodeMatches hnow hstill
              · cases haddress

/-- A reply is delivered to the sender of the message that it replies to, and
to nobody else: the address leads to one peer, and there the reply arrives at
that client alone, with the tag that it has sent. -/
def RepliesReach (M : Type) (peers : Peers μ)
    (nodeMatches : String → String → Bool) (atoxll : List Char → UInt64)
    (peersOfNodes : String → Option (List ZGPeerID))
    (subscribedSessions : String → List (Subscriber μ κ))
    (sys : GatewaySystem μ κ) (p : ZGPeerID) (address : String) (client : κ)
    (tag : String) : Prop :=
  getPerClientPeerIDsForPath atoxll peersOfNodes address = some [p] ∧
    ∃ enough, ∀ fuel, enough ≤ fuel → ∀ reply : SubscriberMessage M,
      reply.path = address →
        sys.messageReceivedFromPeer peers nodeMatches atoxll subscribedSessions
            fuel p reply =
          [{ client, nodePath := tag, payload := reply.payload,
             returnAddress := reply.tag }]

variable {nodeMatches} {atoxll : List Char → UInt64}
  {peersOfNodes : String → Option (List ZGPeerID)}
  {subscribedSessions : String → List (Subscriber μ κ)}

/-- **Return addresses lead back.**  In a run in which no gateway gives out
2³¹ registration IDs or more: a message that a client sends at some point
carries an address, and as long as the registrations that it has gone through
last, a reply to that address is delivered to the client, with its own tag,
and to nobody else. -/
theorem repliesReach_of_roomForRegistration
    {past later : List (GatewayEvent μ κ)}
    (hroom : Runs.StepsMeet (step peers) RoomForRegistration initial
      (past ++ later))
    {fuel : ℕ} {client : κ} {tag address : String} {p : ZGPeerID}
    (hvalid : p.isValid = true)
    (hparse : ZGPeerID.fromString atoxll p.toText = p)
    (hsent : (Runs.run (step peers) initial past).sendMessageToSubscriber peers
      fuel (.client client) tag = some (p, address))
    (hlasts : ∀ link ∈ (Runs.run (step peers) initial past).links peers fuel
        (.client client), ∀ mid, mid <+: later →
      (Runs.run (step peers) (Runs.run (step peers) initial past) mid).gateway
        link.1 = some link.2) :
    RepliesReach M peers nodeMatches atoxll peersOfNodes subscribedSessions
      (Runs.run (step peers) initial (past ++ later)) p address client tag := by
  obtain ⟨hpast, hlater⟩ := Runs.stepsMeet_append.mp hroom
  have hthen : (Runs.run (step peers) initial past).Consistent :=
    Runs.run_invariant_of_stepsMeet consistent_initial hpast
      fun _ _ h hC => h.step hC
  have hnow : (Runs.run (step peers)
      (Runs.run (step peers) initial past) later).Consistent :=
    Runs.run_invariant_of_stepsMeet hthen hlater fun _ _ h hC => h.step hC
  obtain ⟨depth, suffix, rfl, hdown⟩ :=
    messageReceivedFromSubscriber_sent nodeMatches hthen hnow
      (fun link hmem => registrationOf_run (hlasts link hmem)) hsent
  have haddress : getPeerIDFromReturnAddress atoxll (returnAddress p suffix) =
      (p, suffix) := getPeerIDFromReturnAddress_returnAddress hparse
  rw [Runs.run_append]
  refine ⟨by simp [getPerClientPeerIDsForPath, haddress, hvalid], depth, ?_⟩
  intro enough hle reply hreply
  obtain ⟨f, rfl⟩ := Nat.exists_eq_add_of_le' hle
  have hreach := hdown reply.payload reply.tag f
  simp only [messageReceivedFromPeer, hreply, haddress, hvalid, if_true]
  rw [hreach]
  simp [messageReceivedFromSubscriber]

/-! ## A nested client, and a gateway that has run for long -/

/-- The number that hexadecimal digits make, up to the first other
character. -/
def hexNumber (text : List Char) : UInt64 :=
  (text.takeWhile Char.isAlphanum).foldl
    (fun sum c =>
      16 * sum + (if c.isDigit then c.toNat - 48 else c.toNat - 87).toUInt64) 0

/-- One peer. -/
def onePeer : ZGPeerID := ⟨42, 7⟩

/-- Its own gateway is number 0. -/
def onePeerSystem : Peers ℕ := { peerIDs := [onePeer], muxGateway := fun _ => 0 }

/-- A client of gateway 1, which is a client of the peer's. -/
def nestedClient : List (GatewayEvent ℕ ℕ) :=
  [.setGateway (.mux 1) (some 0), .setGateway (.client 5) (some 1),
    .connectionStateChanged 0 true, .connectionStateChanged 1 true]

/-- Another client comes in between. -/
def anotherClient : List (GatewayEvent ℕ ℕ) :=
  [.setGateway (.client 6) (some 0)]

/-- The nested client's tag looks like an address; it comes back as it is. -/
theorem repliesReach_nestedClient :
    RepliesReach Unit onePeerSystem (fun _ _ => false) hexNumber
      (fun _ => none) (fun _ => [])
      (Runs.run (step onePeerSystem) initial (nestedClient ++ anotherClient))
      onePeer "\x7b2a:7\x7d:_1_:_1_:_1_:x" (5 : ℕ) "_1_:x" := by
  have hroom : Runs.StepsMeet (step onePeerSystem) RoomForRegistration initial
      (nestedClient ++ anotherClient) := by
    decide
  have hparse : ZGPeerID.fromString hexNumber onePeer.toText = onePeer := by
    decide
  have hsent : (Runs.run (step onePeerSystem) initial
      nestedClient).sendMessageToSubscriber onePeerSystem 3 (.client 5)
        "_1_:x" = some (onePeer, "\x7b2a:7\x7d:_1_:_1_:_1_:x") := by
    decide
  have hlasts : ∀ link ∈ (Runs.run (step onePeerSystem) initial
      nestedClient).links onePeerSystem 3 (.client 5),
        ∀ mid ∈ anotherClient.inits,
          (Runs.run (step onePeerSystem) (Runs.run (step onePeerSystem) initial
            nestedClient) mid).gateway link.1 = some link.2 := by
    decide
  exact repliesReach_of_roomForRegistration hroom (by decide) hparse hsent
    fun link hmem mid hmid => hlasts link hmem mid ((List.mem_inits _ _).mpr hmid)

/-- A client that comes and goes `n` times. -/
def comingAndGoing (n : ℕ) : List (GatewayEvent ℕ ℕ) :=
  (List.replicate n [.setGateway (.client 6) (some 0),
    .setGateway (.client 6) none]).flatten

/-- Nobody is registered, but gateway 0 has given out `n` registration IDs. -/
def afterRegistrations (n : ℕ) : GatewaySystem ℕ ℕ :=
  initial.setMux 0 { (.new : MuxTreeGateway ℕ ℕ) with
    registrationIDCounter := .ofNat n }

/-- A registration that ends leaves the next registration ID, and nothing
else. -/
theorem unregisterSubscriber_registerSubscriber {m : MuxTreeGateway μ κ}
    (hsub : m.registeredSubscribers.get? sub = none)
    (hid : m.toRegistrations.NextIsFree)
    (hpaths : m.receivedPaths sub = []) :
    (m.registerSubscriber sub).unregisterSubscriber sub =
      { m with registrationIDCounter := m.registrationIDCounter + 1 } := by
  have hback := Registrations.unregister_register hsub hid
  have hthere : ((m.register sub).registeredSubscribers.get? sub).isSome := by
    rw [Registrations.get?_register, if_pos rfl]
    rfl
  have hsame : Function.update m.receivedPaths sub [] = m.receivedPaths :=
    Function.update_eq_self_iff.mpr hpaths.symm
  simp [MuxTreeGateway.unregisterSubscriber, MuxTreeGateway.registerSubscriber,
    hback, hthere, hsame]

/-- The same for `SetGateway`, there and back. -/
theorem setGateway_setGateway_none {gateway : μ}
    (hsub : sys.gateway sub = none)
    (hnone : sys.registrationOf sub gateway = none)
    (hpaths : (sys.muxes gateway).receivedPaths sub = [])
    (hid : (sys.muxes gateway).toRegistrations.NextIsFree) :
    (sys.setGateway sub (some gateway)).setGateway sub none =
      sys.setMux gateway { sys.muxes gateway with
        registrationIDCounter :=
          (sys.muxes gateway).registrationIDCounter + 1 } := by
  have hthere : (sys.setGateway sub (some gateway)).gateway sub =
      some gateway := by
    simp [setGateway_gateway]
  have hmuxes : ∀ other, (sys.setGateway sub (some gateway)).muxes other =
      if gateway = other then (sys.muxes other).registerSubscriber sub
      else sys.muxes other := by
    intro other
    simp [setGateway, hsub, register_muxes, unregister_muxes]
  apply GatewaySystem.ext
  · funext other
    rw [setGateway, if_neg (by simp [hthere]), register, unregister_muxes,
      hthere, hmuxes]
    by_cases hother : gateway = other
    · subst hother
      simp [setMux, unregisterSubscriber_registerSubscriber hnone hid hpaths]
    · simp [setMux, hother, Ne.symm hother]
  · rw [setGateway_gateway, setGateway_gateway, Function.update_idem]
    exact Function.update_eq_self_iff.mpr hsub.symm

/-- Coming and going only counts. -/
theorem run_comingAndGoing (n k : ℕ) :
    Runs.run (step onePeerSystem) (afterRegistrations k) (comingAndGoing n) =
      afterRegistrations (k + n) := by
  induction n generalizing k with
  | zero => rfl
  | succ n ih =>
      have hround : Runs.run (step onePeerSystem) (afterRegistrations k)
          [.setGateway (.client 6) (some 0), .setGateway (.client 6) none] =
            afterRegistrations (k + 1) := by
        have hback : ((afterRegistrations k).setGateway (.client 6)
            (some 0)).setGateway (.client 6) none =
              (afterRegistrations k).setMux 0 _ :=
          setGateway_setGateway_none rfl rfl rfl rfl
        have hnext : UInt32.ofNat k + 1 = UInt32.ofNat (k + 1) := by simp
        rw [Runs.run_cons, Runs.run_cons, Runs.run_nil, step_client,
          step_client, hback]
        simp only [afterRegistrations, setMux, Function.update_self,
          Function.update_idem, hnext]
      rw [comingAndGoing, List.replicate_succ, List.flatten_cons,
        Runs.run_append, hround]
      have hrest := ih (k + 1)
      rw [comingAndGoing, Nat.add_right_comm] at hrest
      exact hrest

/-- The registration after 2³¹ - 1 others. -/
def lateClient : List (GatewayEvent ℕ ℕ) :=
  comingAndGoing 2147483647 ++
    [.setGateway (.client 5) (some 0), .connectionStateChanged 0 true]

/-- The gateway no longer recognises what it has written: the reply is
lost. -/
theorem not_repliesReach_lateClient :
    ¬∀ (past later : List (GatewayEvent ℕ ℕ)) (tag address : String),
      (Runs.run (step onePeerSystem) initial past).sendMessageToSubscriber
          onePeerSystem 2 (.client 5) tag = some (onePeer, address) →
        (∀ link ∈ (Runs.run (step onePeerSystem) initial past).links
            onePeerSystem 2 (.client 5), ∀ mid, mid <+: later →
          (Runs.run (step onePeerSystem)
            (Runs.run (step onePeerSystem) initial past) mid).gateway link.1 =
              some link.2) →
          RepliesReach Unit onePeerSystem (fun _ _ => false) hexNumber
            (fun _ => none) (fun _ => [])
            (Runs.run (step onePeerSystem) initial (past ++ later)) onePeer
            address (5 : ℕ) tag := by
  intro h
  have hstart : (initial : GatewaySystem ℕ ℕ) = afterRegistrations 0 := by
    simp [afterRegistrations, setMux, initial, MuxTreeGateway.new,
      Registrations.nobody]
  have hlate : Runs.run (step onePeerSystem) initial lateClient =
      Runs.run (step onePeerSystem) (afterRegistrations 2147483647)
        [.setGateway (.client 5) (some 0), .connectionStateChanged 0 true] := by
    rw [lateClient, Runs.run_append, hstart, run_comingAndGoing, Nat.zero_add]
  have hsent : (Runs.run (step onePeerSystem) initial
      lateClient).sendMessageToSubscriber onePeerSystem 2 (.client 5) "t" =
        some (onePeer, "\x7b2a:7\x7d:_2147483648_:t") := by
    rw [hlate]
    decide
  have hlasts : ∀ link ∈ (Runs.run (step onePeerSystem) initial
      lateClient).links onePeerSystem 2 (.client 5), ∀ mid, mid <+: [] →
        (Runs.run (step onePeerSystem)
          (Runs.run (step onePeerSystem) initial lateClient) mid).gateway
            link.1 = some link.2 := by
    rw [hlate]
    intro link hmem mid hmid
    obtain rfl := List.prefix_nil.mp hmid
    revert link
    decide
  obtain ⟨-, enough, hreply⟩ := h lateClient [] "t" _ hsent hlasts
  have hreply := hreply enough le_rfl ⟨"\x7b2a:7\x7d:_2147483648_:t", (), "r"⟩ rfl
  rw [List.append_nil, hlate] at hreply
  have hlost : MuxTreeGateway.isReturnAddress "_2147483648_:t" = false := by
    decide
  have hpeer : getPeerIDFromReturnAddress hexNumber "\x7b2a:7\x7d:_2147483648_:t" =
      (onePeer, "_2147483648_:t") := by
    decide
  have hnobody : ∀ fuel, (Runs.run (step onePeerSystem)
      (afterRegistrations 2147483647)
      [.setGateway (.client 5) (some 0), .connectionStateChanged 0 true]
        ).messageReceivedFromSubscriber (fun _ _ => false) () "r" fuel (.mux 0)
          "_2147483648_:t" = [] := by
    intro fuel
    cases fuel with
    | zero => rfl
    | succ fuel =>
        rw [messageReceivedFromSubscriber, hlost]
        rfl
  simp only [messageReceivedFromPeer, hpeer] at hreply
  rw [if_pos (by decide), if_pos trivial] at hreply
  rw [show onePeerSystem.muxGateway onePeer = 0 from rfl, hnobody] at hreply
  cases hreply

end GatewaySystem

end ZgChoir
