import ZgChoir.PeerSession

/-!
# The peers of a system, and what travels between them

Any number of peers, each with its own `ZGPeerSession`, act one after another
in any order.  Between them travel

* multicast updates and beacons: whatever has ever been sent may be
  delivered to anybody, late, again, in another order, or never;
* back-orders.  An order and its reply travel over one TCP connection, so an
  order is answered at most once, and only with a reply to that same order;
  a connection that breaks fails its orders, while a request that is already
  under way may still reach the peer that was asked.
-/

namespace ZgChoir

variable {DB Msg : Type}

/-- What has become of a back-order: its request is under way, or its reply
is. -/
inductive OrderState (Msg : Type) where
  | requested (dueToChecksumError : Bool)
  | replied (optUpdateData : Option (PZGDatabaseUpdate Msg))
  deriving DecidableEq

/-- The state of a system of peers. -/
structure PeerSystem (DB Msg : Type) where
  peers : ZGPeerID → ZGPeerSession DB Msg
  /-- The updates that have been multicast, each with its sender. -/
  multicasts : List (ZGPeerID × PZGDatabaseUpdate Msg)
  /-- The beacon entries that have been sent, each with its sender. -/
  beacons : List (ZGPeerID × PZGDatabaseStateInfo)
  /-- The open orders of each peer. -/
  orders : ZGPeerID → List (PZGUpdateBackOrderKey × OrderState Msg)
  /-- The requests under way whose order has failed. -/
  abandoned : List (PZGUpdateBackOrderKey × Bool)

/-- What can happen in a system.  An index points into the list of what has
been sent. -/
inductive SystemEvent (Msg : Type) where
  | peerHasComeOnline (peerID : ZGPeerID)
  | seniorPeerChanged (peerID newSeniorPeerID : ZGPeerID)
  | databaseUpdateRequest (peerID fromPeerID : ZGPeerID)
      (msg : DatabaseUpdateRequest Msg) (time : Timing)
  | rescan (peerID : ZGPeerID) (link : Link)
  | pulse (peerID : ZGPeerID) (link : Link)
  | sendBeacon (peerID : ZGPeerID)
  | multicastReceived (peerID : ZGPeerID) (index : ℕ)
  | beaconReceived (peerID : ZGPeerID) (index : ℕ)
  | backOrderRequested (peerID : ZGPeerID) (index : ℕ) (time : Timing)
  | backOrderReplied (peerID : ZGPeerID) (index : ℕ) (link : Link)
  | backOrderFailed (peerID : ZGPeerID) (index : ℕ) (link : Link)
  | abandonedRequestReceived (index : ℕ)

/-- The back-orders that the list of calls has placed. -/
def ordersOf (calls : List (MasterCall Msg)) :
    List (PZGUpdateBackOrderKey × OrderState Msg) :=
  calls.filterMap fun
    | .requestBackOrderFromSeniorPeer ubok due ret =>
        if ret.isOK then some (ubok, .requested due) else none
    | _ => none

theorem mem_multicastsOf {calls : List (MasterCall Msg)}
    {dbUp : PZGDatabaseUpdate Msg} :
    dbUp ∈ multicastsOf calls ↔
      ∃ ret, .sendDatabaseUpdateViaMulticast dbUp ret ∈ calls := by
  constructor
  · intro h
    obtain ⟨call, hcall, hsome⟩ := List.mem_filterMap.mp h
    cases call with
    | sendDatabaseUpdateViaMulticast u ret =>
        obtain rfl : u = dbUp := by simpa using hsome
        exact ⟨ret, hcall⟩
    | requestBackOrderFromSeniorPeer _ _ _ => simp at hsome
    | scheduleSetBeaconData => simp at hsome
  · rintro ⟨ret, hcall⟩
    exact List.mem_filterMap.mpr ⟨_, hcall, rfl⟩

theorem mem_ordersOf {calls : List (MasterCall Msg)}
    {ubok : PZGUpdateBackOrderKey} {state : OrderState Msg}
    (h : (ubok, state) ∈ ordersOf calls) :
    ∃ due ret, .requestBackOrderFromSeniorPeer ubok due ret ∈ calls ∧
      ret.isOK = true ∧ state = .requested due := by
  obtain ⟨call, hcall, hsome⟩ := List.mem_filterMap.mp h
  cases call with
  | sendDatabaseUpdateViaMulticast _ _ => simp at hsome
  | requestBackOrderFromSeniorPeer k due ret =>
      dsimp only at hsome
      by_cases hret : ret.isOK = true
      · rw [if_pos hret] at hsome
        cases hsome
        exact ⟨due, ret, hcall, hret, rfl⟩
      · rw [if_neg hret] at hsome
        cases hsome
  | scheduleSetBeaconData => simp at hsome

/-- The request of a failed order, if it is still under way. -/
def underWay (ubok : PZGUpdateBackOrderKey) :
    OrderState Msg → List (PZGUpdateBackOrderKey × Bool)
  | .requested due => [(ubok, due)]
  | .replied _ => []

namespace PeerSystem

/-- A system of peers that have just been attached, all with the same
default database. -/
def fresh (cb : Callbacks DB Msg) (db : DB) (whichDatabase : UInt32)
    (maxPayloadBytesInLog : ZGPeerID → UInt64) : PeerSystem DB Msg where
  peers peerID := .fresh cb db peerID whichDatabase
    (maxPayloadBytesInLog peerID)
  multicasts := []
  beacons := []
  orders _ := []
  abandoned := []

/-- The same, with every peer told who the senior is. -/
def freshUnder (cb : Callbacks DB Msg) (db : DB) (seniorPeerID : ZGPeerID)
    (whichDatabase : UInt32) (maxPayloadBytesInLog : ZGPeerID → UInt64) :
    PeerSystem DB Msg :=
  { fresh cb db whichDatabase maxPayloadBytesInLog with
    peers peerID := .freshUnder cb db peerID seniorPeerID whichDatabase
      (maxPayloadBytesInLog peerID) }

/-- One peer takes one event, and the calls it makes on its peer session put
messages under way. -/
def act (cb : Callbacks DB Msg) (w : PeerSystem DB Msg) (peerID : ZGPeerID)
    (e : PeerEvent Msg) : PeerSystem DB Msg :=
  let p := (w.peers peerID).step cb e
  { w with
    peers := Function.update w.peers peerID p
    multicasts := w.multicasts ++
      (multicastsOf p.database.masterCalls).map (Prod.mk peerID)
    orders := Function.update w.orders peerID
      (w.orders peerID ++ ordersOf p.database.masterCalls) }

/-- The open orders of a peer without those for `ubok`. -/
def closeOrder (w : PeerSystem DB Msg) (peerID : ZGPeerID)
    (ubok : PZGUpdateBackOrderKey) : PeerSystem DB Msg :=
  { w with
    orders := Function.update w.orders peerID
      ((w.orders peerID).filter fun order => order.1 ≠ ubok) }

/-- The request of an open order reaches the peer that is asked, and the
reply goes under way. -/
def answerOrder (cb : Callbacks DB Msg) (w : PeerSystem DB Msg)
    (peerID : ZGPeerID) (index : ℕ) (ubok : PZGUpdateBackOrderKey)
    (due : Bool) (time : Timing) : PeerSystem DB Msg :=
  let w := act cb w ubok.targetPeerID (.backOrderRequested ubok due)
  let asked := w.peers ubok.targetPeerID
  { w with
    orders := Function.update w.orders peerID
      ((w.orders peerID).set index (ubok, .replied
        (asked.database.getDatabaseUpdateByID cb asked.master
          ubok.databaseUpdateID time))) }

/-- The system after one event.  An event that is about a message that was
never sent does nothing. -/
def step (cb : Callbacks DB Msg) (w : PeerSystem DB Msg)
    (e : SystemEvent Msg) : PeerSystem DB Msg :=
  match e with
  | .peerHasComeOnline peerID => act cb w peerID .peerHasComeOnline
  | .seniorPeerChanged peerID newSeniorPeerID =>
      act cb w peerID (.seniorPeerChanged newSeniorPeerID)
  | .databaseUpdateRequest peerID fromPeerID msg time =>
      if ZGPeerSession.isMeantForSeniorPeer msg then
        act cb w peerID (.databaseUpdateRequest fromPeerID msg time)
      else w
  | .rescan peerID link => act cb w peerID (.rescan link)
  | .pulse peerID link => act cb w peerID (.pulse link)
  | .sendBeacon peerID =>
      if (w.peers peerID).iAmFullyAttached then
        { w with
          beacons := w.beacons ++
            (w.peers peerID).beaconData.toList.map (Prod.mk peerID) }
      else w
  | .multicastReceived peerID index =>
      match w.multicasts[index]? with
      | some (fromPeerID, dbUp) =>
          -- a peer drops what it has multicast itself
          if fromPeerID ≠ peerID then
            act cb w peerID (.databaseUpdateRequest fromPeerID
              (.updateJuniorDatabase (some dbUp)) ⟨0, 0⟩)
          else w
      | none => w
  | .beaconReceived peerID index =>
      match w.beacons[index]? with
      | some (fromPeerID, info) =>
          act cb w peerID (.beaconReceived fromPeerID info)
      | none => w
  | .backOrderRequested peerID index time =>
      match (w.orders peerID)[index]? with
      | some (ubok, .requested due) => answerOrder cb w peerID index ubok due time
      | _ => w
  | .backOrderReplied peerID index link =>
      match (w.orders peerID)[index]? with
      | some (ubok, .replied opt) =>
          act cb (closeOrder w peerID ubok) peerID (.backOrderResult ubok opt link)
      | _ => w
  | .backOrderFailed peerID index link =>
      match (w.orders peerID)[index]? with
      | some (ubok, state) =>
          let w := { w with abandoned := w.abandoned ++ underWay ubok state }
          act cb (closeOrder w peerID ubok) peerID (.backOrderResult ubok none link)
      | none => w
  | .abandonedRequestReceived index =>
      match w.abandoned[index]? with
      | some (ubok, due) =>
          act cb w ubok.targetPeerID (.backOrderRequested ubok due)
      | none => w

/-- The peer that an event of the system is about, and the event it is for
that peer. -/
def peerEvent (w : PeerSystem DB Msg) :
    SystemEvent Msg → Option (ZGPeerID × PeerEvent Msg)
  | .peerHasComeOnline peerID => some (peerID, .peerHasComeOnline)
  | .seniorPeerChanged peerID newSeniorPeerID =>
      some (peerID, .seniorPeerChanged newSeniorPeerID)
  | .databaseUpdateRequest peerID fromPeerID msg time =>
      if ZGPeerSession.isMeantForSeniorPeer msg then
        some (peerID, .databaseUpdateRequest fromPeerID msg time)
      else none
  | .rescan peerID link => some (peerID, .rescan link)
  | .pulse peerID link => some (peerID, .pulse link)
  | .sendBeacon _ => none
  | .multicastReceived peerID index =>
      w.multicasts[index]?.bind fun m =>
        if m.1 ≠ peerID then
          some (peerID, .databaseUpdateRequest m.1
            (.updateJuniorDatabase (some m.2)) ⟨0, 0⟩)
        else none
  | .beaconReceived peerID index =>
      w.beacons[index]?.map fun b => (peerID, .beaconReceived b.1 b.2)
  | .backOrderRequested peerID index _ =>
      (w.orders peerID)[index]?.bind fun order =>
        match order.2 with
        | .requested due =>
            some (order.1.targetPeerID, .backOrderRequested order.1 due)
        | .replied _ => none
  | .backOrderReplied peerID index link =>
      (w.orders peerID)[index]?.bind fun order =>
        match order.2 with
        | .requested _ => none
        | .replied opt => some (peerID, .backOrderResult order.1 opt link)
  | .backOrderFailed peerID index link =>
      (w.orders peerID)[index]?.map fun order =>
        (peerID, .backOrderResult order.1 none link)
  | .abandonedRequestReceived index =>
      w.abandoned[index]?.map fun request =>
        (request.1.targetPeerID, .backOrderRequested request.1 request.2)

/-- The senior stays who it is. -/
def KeepsSenior : SystemEvent Msg → Prop
  | .seniorPeerChanged _ _ => False
  | _ => True

instance : ∀ {e : SystemEvent Msg}, Decidable (KeepsSenior e)
  | .seniorPeerChanged _ _ => .isFalse id
  | .peerHasComeOnline _ => .isTrue trivial
  | .databaseUpdateRequest _ _ _ _ => .isTrue trivial
  | .rescan _ _ => .isTrue trivial
  | .pulse _ _ => .isTrue trivial
  | .sendBeacon _ => .isTrue trivial
  | .multicastReceived _ _ => .isTrue trivial
  | .beaconReceived _ _ => .isTrue trivial
  | .backOrderRequested _ _ _ => .isTrue trivial
  | .backOrderReplied _ _ _ => .isTrue trivial
  | .backOrderFailed _ _ _ => .isTrue trivial
  | .abandonedRequestReceived _ => .isTrue trivial

/-! ## What one peer's event does to the system -/

variable {cb : Callbacks DB Msg} {w : PeerSystem DB Msg}
  {peerID otherID : ZGPeerID} {e : PeerEvent Msg}

@[simp] theorem peers_act_self :
    (act cb w peerID e).peers peerID = (w.peers peerID).step cb e :=
  Function.update_self ..

theorem peers_act_of_ne (h : otherID ≠ peerID) :
    (act cb w peerID e).peers otherID = w.peers otherID :=
  Function.update_of_ne h ..

@[simp] theorem orders_act_self :
    (act cb w peerID e).orders peerID = w.orders peerID ++
      ordersOf ((w.peers peerID).step cb e).database.masterCalls :=
  Function.update_self ..

theorem orders_act_of_ne (h : otherID ≠ peerID) :
    (act cb w peerID e).orders otherID = w.orders otherID :=
  Function.update_of_ne h ..

/-- Acting only adds orders. -/
theorem mem_orders_act (cb : Callbacks DB Msg) (peerID : ZGPeerID)
    (e : PeerEvent Msg) {order : PZGUpdateBackOrderKey × OrderState Msg}
    (h : order ∈ w.orders otherID) :
    order ∈ (act cb w peerID e).orders otherID := by
  by_cases hself : otherID = peerID
  · subst hself
    rw [orders_act_self]
    exact List.mem_append_left _ h
  · rw [orders_act_of_ne hself]
    exact h

@[simp] theorem peers_closeOrder {ubok : PZGUpdateBackOrderKey} :
    (closeOrder w peerID ubok).peers = w.peers := rfl

/-- Closing an order takes it out of the open orders of its peer. -/
theorem mem_orders_closeOrder {ubok : PZGUpdateBackOrderKey}
    {order : PZGUpdateBackOrderKey × OrderState Msg}
    (h : order ∈ (closeOrder w peerID ubok).orders otherID) :
    order ∈ w.orders otherID ∧ (otherID = peerID → order.1 ≠ ubok) := by
  unfold closeOrder at h
  by_cases hself : otherID = peerID
  · subst hself
    simp only [Function.update_self, List.mem_filter,
      decide_eq_true_eq] at h
    exact ⟨h.1, fun _ => h.2⟩
  · simp only [Function.update_of_ne hself] at h
    exact ⟨h, fun heq => absurd heq hself⟩

/-- Answering an order replaces it by its reply. -/
theorem mem_orders_answerOrder {index : ℕ} {ubok : PZGUpdateBackOrderKey}
    {due : Bool} {time : Timing}
    {order : PZGUpdateBackOrderKey × OrderState Msg}
    (h : order ∈ (answerOrder cb w peerID index ubok due time).orders otherID) :
    order ∈ (act cb w ubok.targetPeerID (.backOrderRequested ubok due)).orders
        otherID ∨
      otherID = peerID ∧ order = (ubok, .replied
        ((((w.peers ubok.targetPeerID).step cb
            (.backOrderRequested ubok due)).database).getDatabaseUpdateByID cb
          ((w.peers ubok.targetPeerID).step cb
            (.backOrderRequested ubok due)).master
          ubok.databaseUpdateID time)) := by
  unfold answerOrder at h
  by_cases hself : otherID = peerID
  · subst hself
    simp only [Function.update_self] at h
    rcases List.mem_or_eq_of_mem_set h with h | h
    · exact .inl h
    · refine .inr ⟨rfl, ?_⟩
      rw [h, peers_act_self]
  · simp only [Function.update_of_ne hself] at h
    exact .inl h

/-- An event of the system is an event of one peer, or of none. -/
theorem peers_step (cb : Callbacks DB Msg) (w : PeerSystem DB Msg)
    (e : SystemEvent Msg) :
    (step cb w e).peers =
      match peerEvent w e with
      | some (p, e') => Function.update w.peers p ((w.peers p).step cb e')
      | none => w.peers := by
  cases e with
  | peerHasComeOnline p => rfl
  | seniorPeerChanged p newSeniorPeerID => rfl
  | databaseUpdateRequest p fromPeerID msg time =>
      simp only [step, peerEvent]
      split <;> rfl
  | rescan p link => rfl
  | pulse p link => rfl
  | sendBeacon p =>
      simp only [step, peerEvent]
      split <;> rfl
  | multicastReceived p index =>
      simp only [step, peerEvent]
      cases hget : w.multicasts[index]? with
      | none => rfl
      | some m =>
          obtain ⟨fromPeerID, dbUp⟩ := m
          simp only [Option.bind_some]
          split <;> rfl
  | beaconReceived p index =>
      simp only [step, peerEvent]
      cases hget : w.beacons[index]? <;> rfl
  | backOrderRequested p index time =>
      simp only [step, peerEvent]
      cases hget : (w.orders p)[index]? with
      | none => rfl
      | some order =>
          obtain ⟨ubok, state⟩ := order
          cases state <;> rfl
  | backOrderReplied p index link =>
      simp only [step, peerEvent]
      cases hget : (w.orders p)[index]? with
      | none => rfl
      | some order =>
          obtain ⟨ubok, state⟩ := order
          cases state <;> rfl
  | backOrderFailed p index link =>
      simp only [step, peerEvent]
      cases hget : (w.orders p)[index]? <;> rfl
  | abandonedRequestReceived index =>
      simp only [step, peerEvent]
      cases hget : w.abandoned[index]? <;> rfl

/-- A reply that reaches a peer is the reply to one of its open orders. -/
theorem mem_orders_of_peerEvent {e : SystemEvent Msg}
    {ubok : PZGUpdateBackOrderKey} {u : PZGDatabaseUpdate Msg} {link : Link}
    (h : peerEvent w e =
      some (peerID, .backOrderResult ubok (some u) link)) :
    (ubok, .replied (some u)) ∈ w.orders peerID := by
  cases e with
  | databaseUpdateRequest p fromPeerID msg time =>
      simp only [peerEvent] at h
      split at h <;> simp at h
  | multicastReceived p index =>
      simp only [peerEvent, Option.bind_eq_some_iff] at h
      obtain ⟨m, -, h⟩ := h
      split at h <;> simp at h
  | backOrderRequested p index time =>
      simp only [peerEvent, Option.bind_eq_some_iff] at h
      obtain ⟨order, -, h⟩ := h
      split at h <;> simp at h
  | backOrderReplied p index link =>
      simp only [peerEvent, Option.bind_eq_some_iff] at h
      obtain ⟨⟨k, state⟩, hget, h⟩ := h
      cases state with
      | requested due => simp at h
      | replied opt =>
          simp only [Option.some.injEq, Prod.mk.injEq,
            PeerEvent.backOrderResult.injEq] at h
          obtain ⟨rfl, rfl, rfl, -⟩ := h
          exact List.mem_of_getElem? hget
  | _ => simp [peerEvent] at h

end PeerSystem

end ZgChoir
