import ZgChoir.DatabaseStateSteps
import ZgChoir.Runs

/-!
# One peer, as its databases see it

`ZGPeerSession` is the part of the peer session that stands between one
replicated database and the network: it decides which requests reach the
database, when the log is rescanned, and what the beacon carries.  A peer
takes one `PeerEvent` after another, in any order; `step` is the method that
the event calls.

The system may hold several databases; they share nothing but the session,
so one is followed here.  `processedBeacon` is not a member of the class.
It remembers the entry of the current senior's beacon that the peer has
handled last.
-/

namespace ZgChoir

variable {DB Msg : Type}

/-- The state of a peer session with one database. -/
structure ZGPeerSession (DB Msg : Type) where
  localPeerID : ZGPeerID
  seniorPeerID : ZGPeerID
  iAmFullyAttached : Bool
  setBeaconDataPending : Bool
  beaconData : Option PZGDatabaseStateInfo
  processedBeacon : Option PZGDatabaseStateInfo
  database : PZGDatabaseState DB Msg

/-- What can happen to a peer. -/
inductive PeerEvent (Msg : Type) where
  | peerHasComeOnline
  | seniorPeerChanged (newSeniorPeerID : ZGPeerID)
  | databaseUpdateRequest (fromPeerID : ZGPeerID)
      (msg : DatabaseUpdateRequest Msg) (time : Timing)
  | beaconReceived (fromPeerID : ZGPeerID) (info : PZGDatabaseStateInfo)
  | backOrderResult (ubok : PZGUpdateBackOrderKey)
      (optUpdateData : Option (PZGDatabaseUpdate Msg)) (link : Link)
  | rescan (link : Link)
  | pulse (link : Link)
  | backOrderRequested (ubok : PZGUpdateBackOrderKey)
      (dueToChecksumError : Bool)

/-- The updates passed to `SendDatabaseUpdateViaMulticast`, in order. -/
def multicastsOf (calls : List (MasterCall Msg)) :
    List (PZGDatabaseUpdate Msg) :=
  calls.filterMap fun
    | .sendDatabaseUpdateViaMulticast dbUp _ => some dbUp
    | _ => none

@[simp] theorem multicastsOf_append (xs ys : List (MasterCall Msg)) :
    multicastsOf (xs ++ ys) = multicastsOf xs ++ multicastsOf ys :=
  List.filterMap_append

namespace ZGPeerSession

/-- A peer that has just been attached to its server: no senior is known
yet, and the database is in its default state. -/
def fresh (cb : Callbacks DB Msg) (db : DB) (localPeerID : ZGPeerID)
    (whichDatabase : UInt32) (maxPayloadBytesInLog : UInt64) :
    ZGPeerSession DB Msg where
  localPeerID := localPeerID
  seniorPeerID := .invalid
  iAmFullyAttached := false
  setBeaconDataPending := true
  beaconData := none
  processedBeacon := none
  database := .fresh cb db whichDatabase maxPayloadBytesInLog

/-- A peer that has just been attached and has been told who the senior
is. -/
def freshUnder (cb : Callbacks DB Msg) (db : DB)
    (localPeerID seniorPeerID : ZGPeerID) (whichDatabase : UInt32)
    (maxPayloadBytesInLog : UInt64) : ZGPeerSession DB Msg :=
  { fresh cb db localPeerID whichDatabase maxPayloadBytesInLog with
    seniorPeerID := seniorPeerID }

/-- The session, as its databases see it. -/
def master (p : ZGPeerSession DB Msg) : Master :=
  ⟨p.localPeerID, p.seniorPeerID, p.iAmFullyAttached⟩

/-- `IAmTheSeniorPeer`. -/
def iAmTheSeniorPeer (p : ZGPeerSession DB Msg) : Bool :=
  p.master.iAmTheSeniorPeer

/-- Whether a call is `ScheduleSetBeaconData`. -/
def isScheduleSetBeaconData : MasterCall Msg → Bool
  | .scheduleSetBeaconData => true
  | _ => false

/-- The session after its database has become `d` and has made the calls
that `d` lists. -/
def withDatabase (p : ZGPeerSession DB Msg) (d : PZGDatabaseState DB Msg) :
    ZGPeerSession DB Msg :=
  { p with
    database := d
    setBeaconDataPending :=
      p.setBeaconDataPending || d.masterCalls.any isScheduleSetBeaconData }

/-- The list of calls is that of one event: it is emptied before each. -/
def forgetCalls (p : ZGPeerSession DB Msg) : ZGPeerSession DB Msg :=
  { p with database := { p.database with masterCalls := [] } }

/-- `PeerHasComeOnline`: seeing any peer online, itself included, makes this
peer fully attached. -/
def peerHasComeOnline (p : ZGPeerSession DB Msg) : ZGPeerSession DB Msg :=
  if p.iAmFullyAttached then p
  else
    let p := { p with iAmFullyAttached := true }
    p.withDatabase (p.database.scheduleLogContentsRescan p.master)

/-- `SeniorPeerChanged`.  No database is told. -/
def seniorPeerChanged (p : ZGPeerSession DB Msg)
    (newSeniorPeerID : ZGPeerID) : ZGPeerSession DB Msg :=
  let q :=
    { p with seniorPeerID := newSeniorPeerID, processedBeacon := none }
  if p.iAmTheSeniorPeer ≠ q.iAmTheSeniorPeer then
    { q with setBeaconDataPending := true }
  else q

/-- Whether a request is meant for the senior peer. -/
def isMeantForSeniorPeer : DatabaseUpdateRequest Msg → Bool
  | .updateJuniorDatabase _ => false
  | _ => true

/-- `ZGPeerSession::HandleDatabaseUpdateRequest`. -/
def handleDatabaseUpdateRequest (cb : Callbacks DB Msg)
    (p : ZGPeerSession DB Msg) (fromPeerID : ZGPeerID)
    (msg : DatabaseUpdateRequest Msg) (time : Timing) :
    Status × ZGPeerSession DB Msg :=
  if isMeantForSeniorPeer msg ≠ p.iAmTheSeniorPeer then (.badData, p)
  else if isMeantForSeniorPeer msg = false ∧ fromPeerID ≠ p.seniorPeerID
  then (.badData, p)
  else
    match msg with
    | .updateJuniorDatabase none => (.badData, p)
    | msg =>
        let r := p.database.handleDatabaseUpdateRequest cb p.master
          fromPeerID msg time
        (r.1, p.withDatabase r.2)

/-- Beacon data reaches `BeaconDataChanged` only when it comes from the peer
that this peer takes for the senior, and never from itself. -/
def beaconDataChanged (p : ZGPeerSession DB Msg) (fromPeerID : ZGPeerID)
    (info : PZGDatabaseStateInfo) : ZGPeerSession DB Msg :=
  if fromPeerID = p.seniorPeerID ∧ fromPeerID ≠ p.localPeerID then
    { p.withDatabase
        (p.database.seniorDatabaseStateInfoChanged p.master info) with
      processedBeacon := some info }
  else p

/-- `BackOrderResultReceived`. -/
def backOrderResultReceived (cb : Callbacks DB Msg) (link : Link)
    (p : ZGPeerSession DB Msg) (ubok : PZGUpdateBackOrderKey)
    (optUpdateData : Option (PZGDatabaseUpdate Msg)) :
    ZGPeerSession DB Msg :=
  p.withDatabase (p.database.backOrderResultReceived cb p.master link ubok
    optUpdateData)

/-- `PZGDatabaseState::Pulse`. -/
def rescanUpdateLogIfNecessary (cb : Callbacks DB Msg) (link : Link)
    (p : ZGPeerSession DB Msg) : ZGPeerSession DB Msg :=
  p.withDatabase (p.database.rescanUpdateLogIfNecessary cb p.master link)

/-- `ZGPeerSession::Pulse`: the log is rescanned before the beacon data is
renewed, and only the senior peer has beacon data. -/
def pulse (cb : Callbacks DB Msg) (link : Link)
    (p : ZGPeerSession DB Msg) : ZGPeerSession DB Msg :=
  if p.setBeaconDataPending then
    let q := rescanUpdateLogIfNecessary cb link
      { p with setBeaconDataPending := false }
    { q with
      beaconData :=
        if q.iAmTheSeniorPeer then some q.database.getDatabaseStateInfo
        else none }
  else p

/-- What `PZG_UNICAST_COMMAND_REQUEST_BACK_ORDER` does to the peer that is
asked, before it looks up the update. -/
def backOrderRequested (cb : Callbacks DB Msg) (p : ZGPeerSession DB Msg)
    (ubok : PZGUpdateBackOrderKey) (dueToChecksumError : Bool) :
    ZGPeerSession DB Msg :=
  if ubok.databaseUpdateID = databaseUpdateIDFullUpdate ∧
      dueToChecksumError then
    p.withDatabase (p.database.verifyOrFixLocalDatabaseChecksum cb)
  else p

/-- The peer after one event. -/
def step (cb : Callbacks DB Msg) (p : ZGPeerSession DB Msg)
    (e : PeerEvent Msg) : ZGPeerSession DB Msg :=
  match e with
  | .peerHasComeOnline => p.forgetCalls.peerHasComeOnline
  | .seniorPeerChanged newSeniorPeerID =>
      p.forgetCalls.seniorPeerChanged newSeniorPeerID
  | .databaseUpdateRequest fromPeerID msg time =>
      (p.forgetCalls.handleDatabaseUpdateRequest cb fromPeerID msg time).2
  | .beaconReceived fromPeerID info =>
      p.forgetCalls.beaconDataChanged fromPeerID info
  | .backOrderResult ubok optUpdateData link =>
      p.forgetCalls.backOrderResultReceived cb link ubok optUpdateData
  | .rescan link => p.forgetCalls.rescanUpdateLogIfNecessary cb link
  | .pulse link => p.forgetCalls.pulse cb link
  | .backOrderRequested ubok dueToChecksumError =>
      p.forgetCalls.backOrderRequested cb ubok dueToChecksumError

/-- The senior stays who it is. -/
def KeepsSenior : PeerEvent Msg → Prop
  | .seniorPeerChanged _ => False
  | _ => True

instance : ∀ {e : PeerEvent Msg}, Decidable (KeepsSenior e)
  | .seniorPeerChanged _ => .isFalse id
  | .peerHasComeOnline => .isTrue trivial
  | .databaseUpdateRequest _ _ _ => .isTrue trivial
  | .beaconReceived _ _ => .isTrue trivial
  | .backOrderResult _ _ _ => .isTrue trivial
  | .rescan _ => .isTrue trivial
  | .pulse _ => .isTrue trivial
  | .backOrderRequested _ _ => .isTrue trivial

/-! ## What an event does to a peer -/

variable {cb : Callbacks DB Msg} {p : ZGPeerSession DB Msg}

@[simp] theorem master_withDatabase {d : PZGDatabaseState DB Msg} :
    (p.withDatabase d).master = p.master := rfl

@[simp] theorem database_withDatabase {d : PZGDatabaseState DB Msg} :
    (p.withDatabase d).database = d := rfl

/-- A request is refused, executed as a senior request, or logged as a
junior update that comes from the senior. -/
theorem handleDatabaseUpdateRequest_cases (cb : Callbacks DB Msg)
    (p : ZGPeerSession DB Msg) (fromPeerID : ZGPeerID)
    (msg : DatabaseUpdateRequest Msg) (time : Timing) :
    (∃ ret, handleDatabaseUpdateRequest cb p fromPeerID msg time = (ret, p) ∧
        ret.isOK = false) ∨
      (p.iAmTheSeniorPeer = true ∧ ∃ r,
        PZGDatabaseState.RequestStep cb p.master p.database r ∧
        r = p.database.handleDatabaseUpdateRequest cb p.master fromPeerID msg
          time ∧
        handleDatabaseUpdateRequest cb p fromPeerID msg time =
          (r.1, p.withDatabase r.2)) ∨
      (p.iAmTheSeniorPeer = false ∧ fromPeerID = p.seniorPeerID ∧
        ∃ dbUp, msg = .updateJuniorDatabase (some dbUp) ∧
        handleDatabaseUpdateRequest cb p fromPeerID msg time =
          (.noError, p.withDatabase
            (p.database.addDatabaseUpdateToUpdateLog cb p.master dbUp))) := by
  unfold handleDatabaseUpdateRequest
  split_ifs with hrole hsource
  · exact .inl ⟨.badData, rfl, rfl⟩
  · exact .inl ⟨.badData, rfl, rfl⟩
  · have hrole : isMeantForSeniorPeer msg = p.iAmTheSeniorPeer :=
      not_not.mp hrole
    cases msg with
    | updateJuniorDatabase dbUp =>
        cases dbUp with
        | none => exact .inl ⟨.badData, rfl, rfl⟩
        | some dbUp =>
            refine .inr (.inr ⟨hrole.symm, ?_, dbUp, rfl, rfl⟩)
            by_contra hother
            exact hsource ⟨rfl, hother⟩
    | resetSeniorDatabase | replaceSeniorDatabase _ | updateSeniorDatabase _ | unknown _ =>
        refine .inr (.inl ⟨hrole.symm, _, ?_, rfl, rfl⟩)
        rcases PZGDatabaseState.handleDatabaseUpdateRequest_cases _ _ _
          with hstep | ⟨_, hmsg, _⟩
        · exact hstep
        · cases hmsg

/-- No event changes who the peer is, and only `SeniorPeerChanged` changes
who it takes for the senior. -/
theorem step_peerIDs (cb : Callbacks DB Msg) (p : ZGPeerSession DB Msg)
    (e : PeerEvent Msg) :
    (step cb p e).localPeerID = p.localPeerID ∧
      ((step cb p e).seniorPeerID = p.seniorPeerID ∨
        ∃ newSeniorPeerID, e = .seniorPeerChanged newSeniorPeerID ∧
          (step cb p e).seniorPeerID = newSeniorPeerID) := by
  cases e with
  | peerHasComeOnline =>
      simp only [step, peerHasComeOnline]
      split <;> exact ⟨rfl, .inl rfl⟩
  | seniorPeerChanged newSeniorPeerID =>
      simp only [step, seniorPeerChanged]
      split <;> exact ⟨rfl, .inr ⟨_, rfl, rfl⟩⟩
  | databaseUpdateRequest fromPeerID msg time =>
      simp only [step]
      rcases handleDatabaseUpdateRequest_cases cb p.forgetCalls fromPeerID msg
        time with ⟨_, h, _⟩ | ⟨_, _, _, _, h⟩ | ⟨_, _, _, _, h⟩
      all_goals rw [h]; exact ⟨rfl, .inl rfl⟩
  | beaconReceived fromPeerID info =>
      simp only [step, beaconDataChanged]
      split <;> exact ⟨rfl, .inl rfl⟩
  | backOrderResult ubok opt link => exact ⟨rfl, .inl rfl⟩
  | rescan link => exact ⟨rfl, .inl rfl⟩
  | pulse link =>
      simp only [step, pulse]
      split <;> exact ⟨rfl, .inl rfl⟩
  | backOrderRequested ubok due =>
      simp only [step, backOrderRequested]
      split <;> exact ⟨rfl, .inl rfl⟩

/-- A request to the senior peer ends in one of the ways of its database. -/
theorem step_request_of_senior (cb : Callbacks DB Msg)
    (hsenior : p.iAmTheSeniorPeer = true) (fromPeerID : ZGPeerID)
    (msg : DatabaseUpdateRequest Msg) (time : Timing) :
    ∃ r, PZGDatabaseState.RequestStep cb p.master p.forgetCalls.database r ∧
      (step cb p (.databaseUpdateRequest fromPeerID msg time)).database =
        r.2 := by
  have hsenior' : p.forgetCalls.iAmTheSeniorPeer = true := hsenior
  simp only [step]
  rcases handleDatabaseUpdateRequest_cases cb p.forgetCalls fromPeerID msg
    time with ⟨ret, h, hret⟩ | ⟨_, r, hstep, _, h⟩ | ⟨hjunior, _⟩
  · exact ⟨_, .refused ret hret, by rw [h]⟩
  · exact ⟨r, hstep, by rw [h]; rfl⟩
  · simp [hsenior'] at hjunior

/-- What an event can do to the database of a peer: tell it about the senior
or about itself, hand it a request, an update or a reply, make it rescan its
log, or make it recompute its checksum. -/
inductive DatabaseStep (cb : Callbacks DB Msg) (p : ZGPeerSession DB Msg) :
    PeerEvent Msg → PZGDatabaseState DB Msg → Prop
  | informed (e : PeerEvent Msg) (pending received : Bool) (stateID : ℕ)
      (oldest : WithTop ℕ)
      (hreceived : p.database.seniorDatabaseStateReceived = true →
        received = true)
      (hstateID : stateID = p.database.seniorDatabaseStateID ∨
        ∃ fromPeerID info, e = .beaconReceived fromPeerID info) :
      DatabaseStep cb p e
        { p.forgetCalls.database with
          rescanLogPending := pending
          seniorDatabaseStateReceived := received
          seniorDatabaseStateID := stateID
          seniorOldestIDInLog := oldest }
  | requested (fromPeerID : ZGPeerID) (msg : DatabaseUpdateRequest Msg)
      (time : Timing) (hsenior : p.iAmTheSeniorPeer = true)
      (r : Status × PZGDatabaseState DB Msg)
      (hstep : PZGDatabaseState.RequestStep cb p.master
        p.forgetCalls.database r) :
      DatabaseStep cb p (.databaseUpdateRequest fromPeerID msg time) r.2
  | heard (dbUp : PZGDatabaseUpdate Msg) (time : Timing)
      (hjunior : p.iAmTheSeniorPeer = false) :
      DatabaseStep cb p (.databaseUpdateRequest p.seniorPeerID
          (.updateJuniorDatabase (some dbUp)) time)
        (p.forgetCalls.database.addDatabaseUpdateToUpdateLog cb p.master dbUp)
  | replied (ubok : PZGUpdateBackOrderKey)
      (opt : Option (PZGDatabaseUpdate Msg)) (link : Link) :
      DatabaseStep cb p (.backOrderResult ubok opt link)
        (p.forgetCalls.database.backOrderResultReceived cb p.master link ubok
          opt)
  | rescanned (e : PeerEvent Msg) (link : Link) :
      DatabaseStep cb p e
        (p.forgetCalls.database.rescanUpdateLogIfNecessary cb p.master link)
  | verified (ubok : PZGUpdateBackOrderKey)
      (hfull : ubok.databaseUpdateID = databaseUpdateIDFullUpdate) :
      DatabaseStep cb p (.backOrderRequested ubok true)
        (p.forgetCalls.database.verifyOrFixLocalDatabaseChecksum cb)

/-- **The database after an event** is what the list above says. -/
theorem step_database (cb : Callbacks DB Msg) (p : ZGPeerSession DB Msg)
    (e : PeerEvent Msg) : DatabaseStep cb p e (step cb p e).database := by
  have hidle : ∀ e, DatabaseStep cb p e p.forgetCalls.database := fun e =>
    .informed e _ _ _ _ id (.inl rfl)
  cases e with
  | peerHasComeOnline =>
      simp only [step, peerHasComeOnline]
      split
      · exact hidle _
      · rw [database_withDatabase,
          PZGDatabaseState.scheduleLogContentsRescan_eq]
        exact .informed _ _ _ _ _ id (.inl rfl)
  | seniorPeerChanged newSeniorPeerID =>
      simp only [step, seniorPeerChanged]
      split <;> exact hidle _
  | databaseUpdateRequest fromPeerID msg time =>
      simp only [step]
      rcases handleDatabaseUpdateRequest_cases cb p.forgetCalls fromPeerID msg
        time with ⟨_, h, _⟩ | ⟨hsenior, r, hstep, _, h⟩ |
          ⟨hjunior, hfrom, dbUp, hmsg, h⟩
      · rw [h]
        exact hidle _
      · rw [h]
        exact .requested (p := p) fromPeerID msg time hsenior r hstep
      · rw [h, hmsg, hfrom]
        exact .heard (p := p) dbUp time hjunior
  | beaconReceived fromPeerID info =>
      simp only [step, beaconDataChanged]
      split
      · simp only [PZGDatabaseState.seniorDatabaseStateInfoChanged]
        split
        · rw [database_withDatabase,
            PZGDatabaseState.scheduleLogContentsRescan_eq]
          exact .informed _ _ _ _ _ (fun _ => rfl) (.inr ⟨_, _, rfl⟩)
        · exact hidle _
      · exact hidle _
  | backOrderResult ubok opt link => exact .replied ubok opt link
  | rescan link => exact .rescanned _ link
  | pulse link =>
      simp only [step, pulse]
      split
      · exact .rescanned _ link
      · exact hidle _
  | backOrderRequested ubok due =>
      simp only [step, backOrderRequested]
      split
      · rename_i hfull
        obtain ⟨hfull, rfl⟩ := hfull
        exact .verified ubok hfull
      · exact hidle _

/-! ## A promoted junior

Peer 1 follows peer 2.  It executes update 1, hears of update 3, and is
promoted while update 2 is still on order. -/

/-- The update of a counter to the state `updateID`, which adds one. -/
def countUp (updateID : ℕ) : PZGDatabaseUpdate ℕ :=
  { (getPZGDatabaseUpdateFromPool .update 0 updateID ⟨0, 2⟩
      (UInt32.ofNat (updateID - 1)) : PZGDatabaseUpdate ℕ) with
    postUpdateDBChecksum := UInt32.ofNat updateID
    payload := some 1 }

/-- Peer 1 as a junior of peer 2, then promoted. -/
def promotedJunior : ZGPeerSession ℕ ℕ :=
  Runs.run (step counterCallbacks)
    (freshUnder counterCallbacks 0 ⟨0, 1⟩ ⟨0, 2⟩ 0 100)
    [.peerHasComeOnline, .beaconReceived ⟨0, 2⟩ ⟨1, (1 : ℕ), 1⟩,
      .databaseUpdateRequest ⟨0, 2⟩
        (.updateJuniorDatabase (some (countUp 1))) ⟨0, 0⟩,
      .rescan .up,
      .databaseUpdateRequest ⟨0, 2⟩
        (.updateJuniorDatabase (some (countUp 3))) ⟨0, 0⟩,
      .rescan .up, .seniorPeerChanged ⟨0, 1⟩]

end ZGPeerSession

end ZgChoir
