import ZgChoir.JuniorProgress
import ZgChoir.PeerSession

/-!
# What a replica may hold

Two results about systems of peers, replica agreement and convergence, rest
on invariants of the same shape: every state a peer is in is a good one, and
so is every update it holds or sends.  What "good" means differs; what the
code does with good states and good updates does not.

`ReplicaRules` is a notion of good states and updates that survives the
execution of an update, whether it succeeds or fails.  `Sound` says that a
database is in a good state, holds good updates and makes good calls.  Every
method of a junior peer keeps it (`step_sound`).

The user's callbacks enter in three places only: an update made by the
senior replays the senior's own step (`SeniorCall.replays`), a failed
request leaves the database alone (`SeniorCall.error_restores`), and a full
database restores the one it was saved from (`getDatabaseUpdateByID_full`).
-/

namespace ZgChoir

variable {DB Msg : Type} {cb : Callbacks DB Msg} {m : Master} {link : Link}

namespace PZGDatabaseState

variable {d : PZGDatabaseState DB Msg}

/-! ## The contract of the callbacks, in terms of updates -/

/-- The update that a senior request makes, executed on the database that
the request found, does what the request did. -/
theorem SeniorCall.replays (hcontract : CallbackContract cb)
    {updateType : UpdateType} {callback : DB → UInt32 → SeniorOutcome DB Msg}
    (hcall : SeniorCall cb updateType callback)
    (hheld : Held cb d.database d.dbChecksum) {payloadMsg : Option Msg}
    (hok : (callback d.database d.dbChecksum).2.2 = .ok payloadMsg)
    (fromPeerID : ZGPeerID) (time : Timing) :
    updateEffect cb (d.finishedUpdate fromPeerID updateType
        (callback d.database d.dbChecksum).2.1 time payloadMsg)
        d.database d.dbChecksum =
      ((callback d.database d.dbChecksum).1,
        (callback d.database d.dbChecksum).2.1, .noError) := by
  cases hcall with
  | reset => rfl
  | replace userMsg =>
      simp only [seniorReplace] at hok
      split at hok
      · rename_i hisOK
        obtain rfl : some userMsg = payloadMsg := by simpa using hok
        change cb.setLocalDatabaseFromMessage d.database d.dbChecksum userMsg =
          _
        cases hret : (cb.setLocalDatabaseFromMessage d.database d.dbChecksum
            userMsg).2.2 with
        | noError => exact Prod.ext rfl (Prod.ext rfl hret)
        | _ => simp [hret, Status.isOK] at hisOK
      · simp at hok
  | update userMsg =>
      simp only [seniorUpdate] at hok
      split at hok
      · rename_i juniorMsg hjunior
        obtain rfl : some juniorMsg = payloadMsg := by simpa using hok
        exact hcontract.juniorReplaysSenior hheld hjunior
      · simp at hok

/-- A senior request that fails leaves the database and its checksum as they
were. -/
theorem SeniorCall.error_restores (hcontract : CallbackContract cb)
    {updateType : UpdateType} {callback : DB → UInt32 → SeniorOutcome DB Msg}
    {db : DB} {chk : UInt32} (hcall : SeniorCall cb updateType callback)
    {ret : Status} (herr : (callback db chk).2.2 = .error ret) :
    (callback db chk).1 = db ∧ (callback db chk).2.1 = chk := by
  cases hcall with
  | reset => simp [seniorReset] at herr
  | replace userMsg =>
      simp only [seniorReplace] at herr
      split at herr
      · simp at herr
      · rename_i hfail
        exact hcontract.failedSeniorReplace (by simpa using hfail)
  | update userMsg =>
      simp only [seniorUpdate] at herr
      split at herr
      · simp at herr
      · rename_i hfail
        exact hcontract.failedSeniorUpdate hfail

/-- A request leaves the database alone, or moves it one state forward by an
update that replays the move. -/
theorem RequestStep.replays (hcontract : CallbackContract cb)
    (hheld : Held cb d.database d.dbChecksum)
    {r : Status × PZGDatabaseState DB Msg} (hstep : RequestStep cb m d r) :
    r.2.backorders = d.backorders ∧ r.2.whichDatabase = d.whichDatabase ∧
    ((r.2.localDatabaseStateID = d.localDatabaseStateID ∧
        r.2.database = d.database ∧ r.2.dbChecksum = d.dbChecksum ∧
        (∀ u ∈ r.2.updateLog.entries, u ∈ d.updateLog.entries) ∧
        r.2.masterCalls = d.masterCalls) ∨
      ∃ done : PZGDatabaseUpdate Msg,
        r.2.localDatabaseStateID = d.localDatabaseStateID + 1 ∧
        done.updateID = d.localDatabaseStateID + 1 ∧
        done.preUpdateDBChecksum = d.dbChecksum ∧
        done.postUpdateDBChecksum = r.2.dbChecksum ∧
        updateEffect cb done d.database d.dbChecksum =
          (r.2.database, r.2.dbChecksum, .noError) ∧
        (∀ u ∈ r.2.updateLog.entries, u = done ∨ u ∈ d.updateLog.entries) ∧
        r.2.masterCalls = d.masterCalls ++ [.scheduleSetBeaconData]) := by
  cases hstep with
  | refused ret _ =>
      exact ⟨rfl, rfl, .inl ⟨rfl, rfl, rfl, fun _ h => h, rfl⟩⟩
  | completed fromPeerID updateType callback hcall time payloadMsg hok bytes
      millis oldest =>
      refine ⟨rfl, rfl, .inr ⟨d.finishedUpdate fromPeerID updateType
        (callback d.database d.dbChecksum).2.1 time payloadMsg, rfl, rfl, rfl,
        rfl, hcall.replays hcontract hheld hok fromPeerID time, ?_, rfl⟩⟩
      intro u hu
      exact (OrderedTable.mem_put.mp hu).imp id And.left
  | rolledBack updateType callback hcall ret herr _ bytes millis oldest =>
      obtain ⟨hdatabase, hchecksum⟩ := hcall.error_restores hcontract herr
      refine ⟨rfl, rfl, .inl ⟨rfl, hdatabase, hchecksum, ?_, rfl⟩⟩
      intro u hu
      exact (OrderedTable.mem_remove.mp hu).1

/-- The full database that a peer sends restores the database it was saved
from, on any other. -/
theorem getDatabaseUpdateByID_full (hcontract : CallbackContract cb)
    (hheld : Held cb d.database d.dbChecksum) {time : Timing}
    {dbUp : PZGDatabaseUpdate Msg}
    (hget : d.getDatabaseUpdateByID cb m databaseUpdateIDFullUpdate time =
      some dbUp) :
    dbUp.updateID = d.localDatabaseStateID ∧
      dbUp.postUpdateDBChecksum = d.dbChecksum ∧
      ∀ db₀ chk₀, updateEffect cb dbUp db₀ chk₀ =
        (d.database, d.dbChecksum, .noError) := by
  unfold getDatabaseUpdateByID at hget
  simp only [Option.map_eq_some_iff] at hget
  obtain ⟨savedDBMsg, hsave, rfl⟩ := hget
  exact ⟨rfl, rfl, fun db₀ chk₀ =>
    hcontract.setUndoesSave db₀ chk₀ hheld hsave⟩

end PZGDatabaseState

/-! ## Good states, good updates -/

open PZGDatabaseState

/-- A notion of good states and good updates that fits together: executing a
good update on a good state leads to a good state, and where that can fail,
the database is left in a good state too.  `MayFail` says whether it can. -/
structure ReplicaRules (cb : Callbacks DB Msg) where
  GoodState : ℕ → DB → UInt32 → Prop
  GoodUpdate : PZGDatabaseUpdate Msg → Prop
  MayFail : Prop
  execute : ∀ {d : PZGDatabaseState DB Msg} {dbUp : PZGDatabaseUpdate Msg},
    GoodState d.localDatabaseStateID d.database d.dbChecksum →
    GoodUpdate dbUp → CanExecute cb d dbUp →
    GoodState dbUp.updateID (applyEffect cb d dbUp).database
      (applyEffect cb d dbUp).dbChecksum
  executeFails : ∀ {d : PZGDatabaseState DB Msg}
    {dbUp : PZGDatabaseUpdate Msg},
    GoodState d.localDatabaseStateID d.database d.dbChecksum →
    GoodUpdate dbUp → dbUp.updateID = d.localDatabaseStateID + 1 →
    ¬ CanExecute cb d dbUp →
    MayFail ∧ GoodState d.localDatabaseStateID
      (applyEffect cb d dbUp).database (applyEffect cb d dbUp).dbChecksum

namespace PZGDatabaseState

variable {d : PZGDatabaseState DB Msg} {R : ReplicaRules cb}

/-- A call on the peer session sends a good update, or places an order that
is then in the table. -/
def GoodCall (R : ReplicaRules cb) (d : PZGDatabaseState DB Msg) :
    MasterCall Msg → Prop
  | .sendDatabaseUpdateViaMulticast dbUp _ => R.GoodUpdate dbUp
  | .requestBackOrderFromSeniorPeer ubok due ret => ret.isOK = true →
      ubok ∈ d.backorders ∧ ubok.whichDatabase = d.whichDatabase ∧
        (due = true → R.MayFail)
  | .scheduleSetBeaconData => True

/-- The database is in a good state, its log holds good updates, and the
calls of the current event are good. -/
structure Sound (R : ReplicaRules cb) (d : PZGDatabaseState DB Msg) :
    Prop where
  state : R.GoodState d.localDatabaseStateID d.database d.dbChecksum
  log : ∀ u ∈ d.updateLog.entries, R.GoodUpdate u
  calls : ∀ call ∈ d.masterCalls, GoodCall R d call

/-- Placing an order keeps a database sound. -/
theorem Sound.requestBackOrder (h : Sound R d) (link : Link)
    {ubok : PZGUpdateBackOrderKey} {due : Bool}
    (hwhich : ubok.whichDatabase = d.whichDatabase)
    (hdue : due = true → R.MayFail) :
    Sound R (requestBackOrderFromSeniorPeer link d ubok due).2 := by
  unfold requestBackOrderFromSeniorPeer
  split
  · exact h
  · have hkept : ∀ k ∈ d.backorders,
        k ∈ (if (link.backOrderStatus ubok).isOK then d.backorders ++ [ubok]
          else d.backorders) := by
      intro k hk
      split
      · exact List.mem_append_left _ hk
      · exact hk
    refine ⟨h.state, h.log, fun call hcall => ?_⟩
    rcases List.mem_append.mp hcall with hcall | hcall
    · have hgood := h.calls call hcall
      cases call with
      | sendDatabaseUpdateViaMulticast dbUp ret => exact hgood
      | requestBackOrderFromSeniorPeer k due' ret =>
          intro hret
          obtain ⟨hmem, hrest⟩ := hgood hret
          exact ⟨hkept k hmem, hrest⟩
      | scheduleSetBeaconData => trivial
    · obtain rfl := List.mem_singleton.mp hcall
      intro hret
      have hret : (link.backOrderStatus ubok).isOK = true := hret
      refine ⟨?_, hwhich, hdue⟩
      simp [hret]

/-- Every change of a rescan keeps a database sound. -/
theorem Sound.rescanMove {d' : PZGDatabaseState DB Msg} (h : Sound R d)
    (hmove : RescanMove cb m link d d') : Sound R d' := by
  cases hmove with
  | mark _ => exact ⟨h.state, h.log, h.calls⟩
  | send dbUp _ hmem _ =>
      refine ⟨h.state, h.log, fun call hcall => ?_⟩
      rcases List.mem_append.mp hcall with hcall | hcall
      · exact h.calls call hcall
      · obtain rfl := List.mem_singleton.mp hcall
        exact h.log dbUp hmem
  | execute dbUp _ hmem _ hcan =>
      exact ⟨R.execute h.state (h.log dbUp hmem) hcan, h.log, h.calls⟩
  | executeFails dbUp _ hmem hid hcan failed hfailed =>
      obtain ⟨hmay, hstate⟩ :=
        R.executeFails h.state (h.log dbUp hmem) hid hcan
      have hsound : Sound R failed := by
        rcases hfailed with rfl | rfl
        · exact h
        · exact ⟨hstate, h.log, h.calls⟩
      exact hsound.requestBackOrder link rfl fun _ => hmay
  | order ubok _ _ hwhich =>
      exact h.requestBackOrder link hwhich fun hdue => by cases hdue
  | trim first _ =>
      obtain ⟨_, _, _, hremove, -⟩ :=
        removeDatabaseUpdateFromUpdateLog_eq cb m d first
      rw [hremove]
      exact ⟨h.state, fun u hu => h.log u (OrderedTable.mem_remove.mp hu).1,
        h.calls⟩

theorem Sound.rescanIfNecessary (h : Sound R d) (m : Master) (link : Link) :
    Sound R (rescanUpdateLogIfNecessary cb m link d) := by
  unfold rescanUpdateLogIfNecessary
  split
  · exact preserved_of_moves (rescanUpdateLog_moves cb m link _)
      (⟨h.state, h.log, h.calls⟩ : Sound R { d with rescanLogPending := false })
      fun _ _ hab hmove => hab.rescanMove hmove
  · exact h

/-- Logging a good update keeps a database sound. -/
theorem Sound.add (h : Sound R d) (m : Master) {dbUp : PZGDatabaseUpdate Msg}
    (hgood : R.GoodUpdate dbUp) :
    Sound R (addDatabaseUpdateToUpdateLog cb m d dbUp) := by
  obtain ⟨_, _, _, hadd, -⟩ := addDatabaseUpdateToUpdateLog_eq cb m d dbUp
  rw [hadd]
  refine ⟨h.state, fun u hu => ?_, h.calls⟩
  rcases OrderedTable.mem_put.mp hu with rfl | ⟨hu, -⟩
  · exact hgood
  · exact h.log u hu

/-- A reply is good when what it carries is: a full database leads to a good
state, a single update is good. -/
def GoodReply (R : ReplicaRules cb) (d : PZGDatabaseState DB Msg)
    (ubok : PZGUpdateBackOrderKey) (dbUp : PZGDatabaseUpdate Msg) : Prop :=
  if ubok.databaseUpdateID = databaseUpdateIDFullUpdate then
    Restores cb d dbUp ∧
      R.GoodState dbUp.updateID (applyEffect cb d dbUp).database
        (applyEffect cb d dbUp).dbChecksum
  else R.GoodUpdate dbUp

/-- A good reply from the current senior keeps a junior's database sound. -/
theorem Sound.reply (h : Sound R d) (hcalls : d.masterCalls = [])
    (link : Link) {ubok : PZGUpdateBackOrderKey}
    {opt : Option (PZGDatabaseUpdate Msg)}
    (hgood : ∀ dbUp ∈ opt, ubok ∈ d.backorders →
      ubok.targetPeerID = m.seniorPeerID → m.iAmTheSeniorPeer = false →
      GoodReply R d ubok dbUp) :
    Sound R (backOrderResultReceived cb m link d ubok opt) := by
  have hnone : ∀ {e : PZGDatabaseState DB Msg}, e.masterCalls = [] →
      ∀ call ∈ e.masterCalls, GoodCall R e call := by
    intro e he call hcall
    rw [he] at hcall
    cases hcall
  have hstep := backOrderResultReceived_step cb m link d ubok opt
  generalize backOrderResultReceived cb m link d ubok opt = d' at hstep ⊢
  cases hstep with
  | ignored _ _ => exact h
  | dropped _ _ _ => exact ⟨h.state, h.log, hnone hcalls⟩
  | replaced dbUp hmem htarget hjunior hfull _ =>
      have hreply := hgood dbUp rfl hmem htarget hjunior
      rw [GoodReply, if_pos hfull] at hreply
      exact ⟨hreply.2, h.log, hnone hcalls⟩
  | replaceFailed dbUp hmem htarget hjunior hfull hrestores =>
      have hreply := hgood dbUp rfl hmem htarget hjunior
      rw [GoodReply, if_pos hfull] at hreply
      exact absurd hreply.1 hrestores
  | fullMissing _ _ _ _ => exact ⟨h.state, h.log, hnone hcalls⟩
  | logged dbUp hmem htarget hjunior hsingle _ _ =>
      have hreply := hgood dbUp rfl hmem htarget hjunior
      rw [GoodReply, if_neg hsingle] at hreply
      refine ⟨h.state, fun u hu => ?_, hnone hcalls⟩
      rcases OrderedTable.mem_put.mp hu with rfl | ⟨hu, -⟩
      · exact hreply
      · exact h.log u hu
  | singleMissing _ _ _ _ =>
      have hsound : Sound R (withoutBackOrder d ubok) :=
        ⟨h.state, h.log, hnone hcalls⟩
      exact hsound.requestBackOrder link rfl fun hdue => by cases hdue

/-! ## What never moves a database -/

/-- While a full database is on order, a rescan does not move the state. -/
theorem RescanMoves.local_of_awaiting {d' : PZGDatabaseState DB Msg}
    (h : RescanMoves cb m link d d')
    (hawaiting : fullDatabaseKey m d ∈ d.backorders) :
    d'.localDatabaseStateID = d.localDatabaseStateID := by
  have hinv := preserved_of_moves
    (P := fun e => RescanFrame d e ∧
      e.localDatabaseStateID = d.localDatabaseStateID) h ⟨.refl d, rfl⟩
    fun a b hab hmove => by
      obtain ⟨hframe, hlocal⟩ := hab
      refine ⟨hframe.trans hmove.frame, ?_⟩
      cases hmove with
      | mark _ => exact hlocal
      | send dbUp _ _ _ => exact hlocal
      | execute dbUp _ _ hfree _ =>
          have hkey : fullDatabaseKey m a = fullDatabaseKey m d := by
            simp [fullDatabaseKey, hframe.whichDatabase]
          have hmem := hframe.backorders _ hawaiting
          simp [isAwaitingFullDatabaseResendReply, hkey, hmem] at hfree
      | executeFails dbUp _ _ _ _ failed hfailed =>
          obtain ⟨_, _, horder⟩ := requestBackOrderFromSeniorPeer_eq link
            failed (fullDatabaseKey m failed) true
          rw [requestFullDatabaseResendFromSeniorPeer, horder]
          rcases hfailed with rfl | rfl
          · exact hlocal
          · exact hlocal
      | order ubok _ _ _ =>
          obtain ⟨_, _, horder⟩ :=
            requestBackOrderFromSeniorPeer_eq link a ubok false
          rw [horder]
          exact hlocal
      | trim first _ =>
          obtain ⟨_, _, _, hremove, -⟩ :=
            removeDatabaseUpdateFromUpdateLog_eq cb m a first
          rw [hremove]
          exact hlocal
  exact hinv.2

/-- The rescan of a senior peer does not touch the database, and orders
nothing. -/
theorem RescanMoves.database_of_senior {d' : PZGDatabaseState DB Msg}
    (h : RescanMoves cb m link d d') (hsenior : m.iAmTheSeniorPeer = true) :
    (d'.localDatabaseStateID = d.localDatabaseStateID ∧
      d'.database = d.database ∧ d'.dbChecksum = d.dbChecksum) ∧
      d'.backorders = d.backorders := by
  refine preserved_of_moves
    (P := fun e => (e.localDatabaseStateID = d.localDatabaseStateID ∧
      e.database = d.database ∧ e.dbChecksum = d.dbChecksum) ∧
      e.backorders = d.backorders) h
    ⟨⟨rfl, rfl, rfl⟩, rfl⟩ fun a b hab hmove => ?_
  cases hmove with
  | mark hjunior | execute _ hjunior _ _ _ | executeFails _ hjunior _ _ _ _ _
  | order _ hjunior _ _ => simp [hsenior] at hjunior
  | send dbUp _ _ _ => exact hab
  | trim first _ =>
      obtain ⟨_, _, _, hremove, -⟩ :=
        removeDatabaseUpdateFromUpdateLog_eq cb m a first
      rw [hremove]
      exact hab

end PZGDatabaseState

namespace ZGPeerSession

variable {p : ZGPeerSession DB Msg} {R : ReplicaRules cb}
  {e : PeerEvent Msg}

/-- The event is a request to a peer that is the senior. -/
def SeniorRequest (p : ZGPeerSession DB Msg) : PeerEvent Msg → Prop
  | .databaseUpdateRequest _ _ _ => p.iAmTheSeniorPeer = true
  | _ => False

/-- What the event brings is good. -/
def GoodEvent (R : ReplicaRules cb) (p : ZGPeerSession DB Msg) :
    PeerEvent Msg → Prop
  | .databaseUpdateRequest fromPeerID (.updateJuniorDatabase (some dbUp)) _ =>
      fromPeerID = p.seniorPeerID → p.iAmTheSeniorPeer = false →
        R.GoodUpdate dbUp
  | .backOrderResult ubok opt _ => ∀ dbUp ∈ opt,
      ubok ∈ p.database.backorders → ubok.targetPeerID = p.seniorPeerID →
        p.iAmTheSeniorPeer = false → GoodReply R p.database ubok dbUp
  | .backOrderRequested ubok due =>
      ubok.databaseUpdateID = databaseUpdateIDFullUpdate → due = true →
        R.GoodState p.database.localDatabaseStateID p.database.database
          (cb.calculateLocalDatabaseChecksum p.database.database)
  | _ => True

/-- **A good event keeps a peer's database sound**, unless it is a request to
the senior. -/
theorem step_sound (h : Sound R p.forgetCalls.database)
    (hgood : GoodEvent R p e) (hnot : ¬ SeniorRequest p e) :
    Sound R (step cb p e).database := by
  have hstep := step_database cb p e
  generalize (step cb p e).database = d' at hstep ⊢
  cases hstep with
  | informed e pending received stateID oldest _ _ =>
      refine ⟨h.state, h.log, fun call hcall => ?_⟩
      cases hcall
  | requested _ _ _ hsenior _ _ => exact absurd hsenior hnot
  | heard dbUp _ hjunior => exact h.add p.master (hgood rfl hjunior)
  | replied ubok opt link => exact h.reply rfl link hgood
  | rescanned _ link => exact h.rescanIfNecessary p.master link
  | verified ubok hfull =>
      refine ⟨hgood hfull rfl, h.log, fun call hcall => ?_⟩
      cases hcall

/-- An event keeps every back-order but the one it is the reply to. -/
theorem step_backorders (cb : Callbacks DB Msg) (p : ZGPeerSession DB Msg)
    (e : PeerEvent Msg) :
    (step cb p e).database.whichDatabase = p.database.whichDatabase ∧
      ∀ k ∈ p.database.backorders,
        (∀ opt link, e ≠ .backOrderResult k opt link) →
          k ∈ (step cb p e).database.backorders := by
  have hstep := step_database cb p e
  generalize (step cb p e).database = d' at hstep ⊢
  cases hstep with
  | informed e _ _ _ _ _ _ => exact ⟨rfl, fun _ hk _ => hk⟩
  | requested _ _ _ _ r hrequest =>
      cases hrequest with
      | refused _ _ => exact ⟨rfl, fun _ hk _ => hk⟩
      | completed _ _ _ _ _ _ _ _ _ _ => exact ⟨rfl, fun _ hk _ => hk⟩
      | rolledBack _ _ _ _ _ _ _ _ _ => exact ⟨rfl, fun _ hk _ => hk⟩
  | heard dbUp _ _ =>
      obtain ⟨_, _, _, hadd, -⟩ := addDatabaseUpdateToUpdateLog_eq cb p.master
        p.forgetCalls.database dbUp
      rw [hadd]
      exact ⟨rfl, fun _ hk _ => hk⟩
  | replied ubok opt link =>
      have hkept : ∀ k ∈ p.database.backorders,
          (∀ opt' link', PeerEvent.backOrderResult ubok opt link ≠
            .backOrderResult k opt' link') →
          k ∈ (p.forgetCalls.database.withoutBackOrder ubok).backorders := by
        intro k hk hother
        refine List.mem_filter.mpr ⟨hk, decide_eq_true fun heq => ?_⟩
        exact hother opt link (heq ▸ rfl)
      have hreply := backOrderResultReceived_step cb p.master link
        p.forgetCalls.database ubok opt
      generalize PZGDatabaseState.backOrderResultReceived cb _ link _ ubok
        opt = d' at hreply ⊢
      cases hreply with
      | ignored _ _ => exact ⟨rfl, fun _ hk _ => hk⟩
      | dropped _ _ _ => exact ⟨rfl, hkept⟩
      | replaced _ _ _ _ _ _ => exact ⟨rfl, hkept⟩
      | replaceFailed _ _ _ _ _ _ => exact ⟨rfl, hkept⟩
      | fullMissing _ _ _ _ => exact ⟨rfl, hkept⟩
      | logged _ _ _ _ _ _ _ => exact ⟨rfl, hkept⟩
      | singleMissing _ _ _ _ =>
          have hframe := requestBackOrderFromSeniorPeer_frame link
            (p.forgetCalls.database.withoutBackOrder ubok)
            (fullDatabaseKey p.master
              (p.forgetCalls.database.withoutBackOrder ubok)) false
          exact ⟨hframe.whichDatabase, fun k hk hother =>
            hframe.backorders k (hkept k hk hother)⟩
  | rescanned e link =>
      unfold PZGDatabaseState.rescanUpdateLogIfNecessary
      split
      · have hframe := (rescanUpdateLog_moves cb p.master link
          { p.forgetCalls.database with rescanLogPending := false }).frame
        exact ⟨hframe.whichDatabase, fun k hk _ => hframe.backorders k hk⟩
      · exact ⟨rfl, fun _ hk _ => hk⟩
  | verified _ _ => exact ⟨rfl, fun _ hk _ => hk⟩

/-- What a peer knows of its senior: that it has heard of its state stays,
and the state itself changes only with a beacon. -/
theorem step_seniorState (cb : Callbacks DB Msg) (p : ZGPeerSession DB Msg)
    (e : PeerEvent Msg) :
    (p.database.seniorDatabaseStateReceived = true →
        (step cb p e).database.seniorDatabaseStateReceived = true) ∧
      (p.iAmTheSeniorPeer = false →
        (∀ fromPeerID info, e ≠ .beaconReceived fromPeerID info) →
          (step cb p e).database.seniorDatabaseStateID =
            p.database.seniorDatabaseStateID) := by
  have hstep := step_database cb p e
  generalize (step cb p e).database = d' at hstep ⊢
  cases hstep with
  | informed e _ _ _ _ hreceived hstateID =>
      refine ⟨hreceived, fun _ hother => ?_⟩
      rcases hstateID with heq | ⟨_, _, rfl⟩
      · exact heq
      · exact absurd rfl (hother _ _)
  | requested _ _ _ hsenior r hrequest =>
      refine ⟨fun h => ?_, fun hjunior => by simp [hsenior] at hjunior⟩
      cases hrequest with
      | refused _ _ => exact h
      | completed _ _ _ _ _ _ _ _ _ _ => exact h
      | rolledBack _ _ _ _ _ _ _ _ _ => exact h
  | heard dbUp _ _ =>
      obtain ⟨_, _, _, hadd, -⟩ := addDatabaseUpdateToUpdateLog_eq cb p.master
        p.forgetCalls.database dbUp
      rw [hadd]
      exact ⟨id, fun _ _ => rfl⟩
  | replied ubok opt link =>
      have hreply := backOrderResultReceived_step cb p.master link
        p.forgetCalls.database ubok opt
      generalize PZGDatabaseState.backOrderResultReceived cb _ link _ ubok
        opt = d' at hreply ⊢
      cases hreply with
      | singleMissing _ _ _ _ =>
          have hframe := requestBackOrderFromSeniorPeer_frame link
            (p.forgetCalls.database.withoutBackOrder ubok)
            (fullDatabaseKey p.master
              (p.forgetCalls.database.withoutBackOrder ubok)) false
          exact ⟨hframe.received.trans, fun _ _ =>
            hframe.seniorDatabaseStateID⟩
      | _ => exact ⟨id, fun _ _ => rfl⟩
  | rescanned e link =>
      unfold PZGDatabaseState.rescanUpdateLogIfNecessary
      split
      · have hframe := (rescanUpdateLog_moves cb p.master link
          { p.forgetCalls.database with rescanLogPending := false }).frame
        exact ⟨hframe.received.trans, fun _ _ => hframe.seniorDatabaseStateID⟩
      · exact ⟨id, fun _ _ => rfl⟩
  | verified _ _ => exact ⟨id, fun _ _ => rfl⟩

/-- What moves a peer's state: a request to the senior, a full database, or
a rescan, which only moves it forward and not while a full database is on
order. -/
theorem step_local (cb : Callbacks DB Msg) (hnot : ¬ SeniorRequest p e) :
    (step cb p e).database.localDatabaseStateID =
        p.database.localDatabaseStateID ∨
      (p.database.localDatabaseStateID ≤
          (step cb p e).database.localDatabaseStateID ∧
        fullDatabaseKey p.master p.database ∉ p.database.backorders ∧
        p.iAmTheSeniorPeer = false) ∨
      ∃ ubok dbUp link, e = .backOrderResult ubok (some dbUp) link ∧
        ubok ∈ p.database.backorders ∧ ubok.targetPeerID = p.seniorPeerID ∧
        p.iAmTheSeniorPeer = false ∧
        ubok.databaseUpdateID = databaseUpdateIDFullUpdate ∧
        (step cb p e).database.localDatabaseStateID = dbUp.updateID := by
  have hstep := step_database cb p e
  generalize (step cb p e).database = d' at hstep ⊢
  cases hstep with
  | informed e _ _ _ _ _ _ => exact .inl rfl
  | requested _ _ _ hsenior _ _ => exact absurd hsenior hnot
  | heard dbUp _ _ =>
      obtain ⟨_, _, _, hadd, -⟩ := addDatabaseUpdateToUpdateLog_eq cb p.master
        p.forgetCalls.database dbUp
      rw [hadd]
      exact .inl rfl
  | replied ubok opt link =>
      have hreply := backOrderResultReceived_step cb p.master link
        p.forgetCalls.database ubok opt
      generalize PZGDatabaseState.backOrderResultReceived cb _ link _ ubok
        opt = d' at hreply ⊢
      cases hreply with
      | ignored _ _ => exact .inl rfl
      | dropped _ _ _ => exact .inl rfl
      | replaced dbUp hmem htarget hjunior hfull _ =>
          exact .inr (.inr ⟨ubok, dbUp, link, rfl, hmem, htarget, hjunior,
            hfull, rfl⟩)
      | replaceFailed _ _ _ _ _ _ => exact .inl rfl
      | fullMissing _ _ _ _ => exact .inl rfl
      | logged _ _ _ _ _ _ _ => exact .inl rfl
      | singleMissing _ _ _ _ =>
          obtain ⟨_, _, horder⟩ := requestBackOrderFromSeniorPeer_eq link
            (p.forgetCalls.database.withoutBackOrder ubok)
            (fullDatabaseKey p.master
              (p.forgetCalls.database.withoutBackOrder ubok)) false
          rw [requestFullDatabaseResendFromSeniorPeer, horder]
          exact .inl rfl
  | rescanned e link =>
      unfold PZGDatabaseState.rescanUpdateLogIfNecessary
      split
      · have hmoves := rescanUpdateLog_moves cb p.master link
          { p.forgetCalls.database with rescanLogPending := false }
        by_cases hawaiting : fullDatabaseKey p.master p.database ∈
            p.database.backorders
        · exact .inl (hmoves.local_of_awaiting hawaiting)
        · cases hrole : p.iAmTheSeniorPeer with
          | true => exact .inl (hmoves.database_of_senior hrole).1.1
          | false =>
              exact .inr (.inl ⟨hmoves.frame.localDatabaseStateID, hawaiting,
                rfl⟩)
      · exact .inl rfl
  | verified _ _ => exact .inl rfl

/-- A request to the senior moves its state by one at most. -/
theorem step_local_of_request (cb : Callbacks DB Msg)
    (h : SeniorRequest p e) :
    p.database.localDatabaseStateID ≤
        (step cb p e).database.localDatabaseStateID ∧
      (step cb p e).database.localDatabaseStateID ≤
        p.database.localDatabaseStateID + 1 := by
  cases e with
  | databaseUpdateRequest fromPeerID msg time =>
      obtain ⟨r, hstep, hdatabase⟩ :=
        step_request_of_senior cb h fromPeerID msg time
      rw [hdatabase]
      cases hstep with
      | refused _ _ => exact ⟨le_rfl, Nat.le_succ _⟩
      | completed _ _ _ _ _ _ _ _ _ _ => exact ⟨Nat.le_succ _, le_rfl⟩
      | rolledBack _ _ _ _ _ _ _ _ _ => exact ⟨le_rfl, Nat.le_succ _⟩
  | _ => exact h.elim

/-- Only a request changes the database of a senior peer, and only a
recomputed checksum its checksum. -/
theorem step_database_of_senior (cb : Callbacks DB Msg)
    (hsenior : p.iAmTheSeniorPeer = true) (hnot : ¬ SeniorRequest p e)
    (hverify : ∀ ubok, ubok.databaseUpdateID = databaseUpdateIDFullUpdate →
      e = .backOrderRequested ubok true →
      cb.calculateLocalDatabaseChecksum p.database.database =
        p.database.dbChecksum) :
    (step cb p e).database.localDatabaseStateID =
        p.database.localDatabaseStateID ∧
      (step cb p e).database.database = p.database.database ∧
      (step cb p e).database.dbChecksum = p.database.dbChecksum := by
  have hstep := step_database cb p e
  generalize (step cb p e).database = d' at hstep ⊢
  cases hstep with
  | informed e _ _ _ _ _ _ => exact ⟨rfl, rfl, rfl⟩
  | requested _ _ _ hsenior _ _ => exact absurd hsenior hnot
  | heard dbUp _ hjunior => simp [hsenior] at hjunior
  | replied ubok opt link =>
      have hsenior : p.master.iAmTheSeniorPeer = true := hsenior
      have hreply := backOrderResultReceived_step cb p.master link
        p.forgetCalls.database ubok opt
      generalize PZGDatabaseState.backOrderResultReceived cb _ link _ ubok
        opt = d' at hreply ⊢
      cases hreply with
      | ignored _ _ => exact ⟨rfl, rfl, rfl⟩
      | dropped _ _ _ => exact ⟨rfl, rfl, rfl⟩
      | replaced _ _ _ hjunior _ _ | replaceFailed _ _ _ hjunior _ _
      | fullMissing _ _ hjunior _ | logged _ _ _ hjunior _ _ _
      | singleMissing _ _ hjunior _ => simp [hsenior] at hjunior
  | rescanned e link =>
      unfold PZGDatabaseState.rescanUpdateLogIfNecessary
      split
      · exact (rescanUpdateLog_moves cb p.master link
          { p.forgetCalls.database with
            rescanLogPending := false }).database_of_senior hsenior |>.1
      · exact ⟨rfl, rfl, rfl⟩
  | verified ubok hfull => exact ⟨rfl, rfl, hverify ubok hfull rfl⟩

end ZGPeerSession

end ZgChoir
