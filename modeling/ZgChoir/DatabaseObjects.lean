import ZgChoir.ReplicaAgreement

/-!
# Database objects

`ZGDatabasePeerSession` leaves each of its databases to an `IDatabaseObject`,
and answers its own callbacks by the object's methods; the checksum is read
off the object after each.  An object that `Replays` has callbacks that meet
the contract, and so is the same on every peer.

The object's own invariant is part of `Replays`, since a method may rely on
what the earlier ones have left.
-/

namespace ZgChoir

/-- The methods of an `IDatabaseObject`. -/
structure DatabaseObject (Obj Msg : Type) where
  setToDefaultState : Obj
  setFromArchive : Obj → Msg → Obj × Status
  saveToArchive : Obj → Option Msg
  getCurrentChecksum : Obj → UInt32
  calculateChecksum : Obj → UInt32
  seniorUpdate : Obj → Msg → Obj × Option Msg
  juniorUpdate : Obj → Msg → Obj × Status

namespace DatabaseObject

variable {Obj Msg : Type} {o : DatabaseObject Obj Msg} {I : Obj → Prop}

/-- The callbacks of `ZGDatabasePeerSession` for one of its objects.  Where
the method fails the object is as it was, and so is its checksum; the
callback leaves it alone. -/
def callbacks (o : DatabaseObject Obj Msg) (payloadNumBytes : Msg → UInt64) :
    Callbacks Obj Msg where
  resetLocalDatabaseToDefault _ _ :=
    (o.setToDefaultState, o.getCurrentChecksum o.setToDefaultState)
  seniorUpdateLocalDatabase db dbChecksum seniorDoMsg :=
    match o.seniorUpdate db seniorDoMsg with
    | (db, none) => (db, dbChecksum, none)
    | (db, some ret) => (db, o.getCurrentChecksum db, some ret)
  juniorUpdateLocalDatabase db _ juniorDoMsg :=
    let (db, ret) := o.juniorUpdate db juniorDoMsg
    (db, o.getCurrentChecksum db, ret)
  setLocalDatabaseFromMessage db dbChecksum newDBStateMsg :=
    match o.setFromArchive db newDBStateMsg with
    | (db, .noError) => (db, o.getCurrentChecksum db, .noError)
    | (db, ret) => (db, dbChecksum, ret)
  saveLocalDatabaseToMessage db := o.saveToArchive db
  calculateLocalDatabaseChecksum db := o.calculateChecksum db
  payloadNumBytes := payloadNumBytes

/-- What the documentation of `IDatabaseObject` asks of the methods, for an
object with the invariant `I`. -/
structure Replays (o : DatabaseObject Obj Msg) (I : Obj → Prop) : Prop where
  default : I o.setToDefaultState
  senior : ∀ {db} msg, I db → I (o.seniorUpdate db msg).1
  junior : ∀ {db} msg, I db → I (o.juniorUpdate db msg).1
  setFrom : ∀ {db} msg, I db → I (o.setFromArchive db msg).1
  juniorReplaysSenior : ∀ {db db' msg juniorMsg}, I db →
    o.seniorUpdate db msg = (db', some juniorMsg) →
    o.juniorUpdate db juniorMsg = (db', .noError)
  setUndoesSave : ∀ {db msg} (db₀ : Obj), I db →
    o.saveToArchive db = some msg →
    o.setFromArchive db₀ msg = (db, .noError)
  failedSenior : ∀ {db db' msg},
    o.seniorUpdate db msg = (db', none) → db' = db
  failedSet : ∀ {db db' msg status},
    o.setFromArchive db msg = (db', status) → status ≠ .noError → db' = db

variable {payloadNumBytes : Msg → UInt64} {db : Obj} {chk : UInt32}

/-- What the callbacks leave has the invariant, and the checksum that goes
with it is the object's: it is right to leave it alone where a method
fails. -/
theorem Replays.of_held (h : o.Replays I)
    (hheld : Held (o.callbacks payloadNumBytes) db chk) :
    I db ∧ chk = o.getCurrentChecksum db := by
  induction hheld with
  | reset _ _ => exact ⟨h.default, rfl⟩
  | @seniorUpdate db chk msg _ ih =>
      cases hres : o.seniorUpdate db msg with
      | mk db' ret =>
          have hI : I db' := by simpa [hres] using h.senior msg ih.1
          cases ret with
          | none =>
              obtain rfl := h.failedSenior hres
              simpa [callbacks, hres] using ih
          | some _ => simpa [callbacks, hres] using hI
  | @juniorUpdate db chk msg _ ih => exact ⟨h.junior msg ih.1, rfl⟩
  | @setFromMessage db chk msg _ ih =>
      cases hres : o.setFromArchive db msg with
      | mk db' status =>
          have hI : I db' := by simpa [hres] using h.setFrom msg ih.1
          by_cases hok : status = .noError
          · subst hok
            simpa [callbacks, hres] using hI
          · obtain rfl := h.failedSet hres hok
            have hleft : (o.callbacks
                payloadNumBytes).setLocalDatabaseFromMessage db' chk msg =
                (db', chk, status) := by
              simp only [callbacks, hres]
            rw [hleft]
            exact ih

/-- A senior update that succeeds. -/
theorem held_seniorUpdate {db' : Obj} {msg juniorMsg : Msg}
    (hheld : Held (o.callbacks payloadNumBytes) db chk)
    (hsenior : o.seniorUpdate db msg = (db', some juniorMsg)) :
    Held (o.callbacks payloadNumBytes) db' (o.getCurrentChecksum db') := by
  have hnext := Held.seniorUpdate msg hheld
  simp only [callbacks, hsenior] at hnext
  exact hnext

/-- An object that replays meets the contract of the replication code. -/
theorem Replays.contract (h : o.Replays I)
    (payloadNumBytes : Msg → UInt64) :
    CallbackContract (o.callbacks payloadNumBytes) where
  juniorReplaysSenior := by
    intro db chk msg juniorMsg hheld hok
    cases hres : o.seniorUpdate db msg with
    | mk db' ret =>
        cases ret with
        | none => simp [callbacks, hres] at hok
        | some ret =>
            obtain rfl : ret = juniorMsg := by
              simpa [callbacks, hres] using hok
            have hjunior := h.juniorReplaysSenior (h.of_held hheld).1 hres
            simp [callbacks, hres, hjunior]
  setUndoesSave := by
    intro db chk msg db₀ chk₀ hheld hsave
    obtain ⟨hI, rfl⟩ := h.of_held hheld
    have hset := h.setUndoesSave db₀ hI hsave
    simp only [callbacks, hset]
  failedSeniorUpdate := by
    intro db chk msg herr
    cases hres : o.seniorUpdate db msg with
    | mk db' ret =>
        cases ret with
        | none =>
            obtain rfl := h.failedSenior hres
            simp [callbacks, hres]
        | some ret => simp [callbacks, hres] at herr
  failedSeniorReplace := by
    intro db chk msg herr
    cases hres : o.setFromArchive db msg with
    | mk db' status =>
        have hbad : status ≠ .noError := by
          rintro rfl
          simp [callbacks, hres] at herr
        obtain rfl := h.failedSet hres hbad
        simp only [callbacks, hres, and_self]

/-! ## Objects on every peer -/

/-- **What is asked of the object on one peer** after the events `es`: it
has its invariant, the session's copy of its checksum is right, and it is
what the senior's was at the same state. -/
structure SameAsSenior (o : DatabaseObject Obj Msg) (I : Obj → Prop)
    (payloadNumBytes : Msg → UInt64) (start : PeerSystem Obj Msg)
    (seniorPeerID peerID : ZGPeerID) (es : List (SystemEvent Msg)) :
    Prop where
  kept : I ((Runs.run (PeerSystem.step (o.callbacks payloadNumBytes)) start
    es).peers peerID).database.database
  checksum : ((Runs.run (PeerSystem.step (o.callbacks payloadNumBytes)) start
      es).peers peerID).database.dbChecksum =
    o.getCurrentChecksum ((Runs.run (PeerSystem.step
      (o.callbacks payloadNumBytes)) start es).peers
        peerID).database.database
  agrees : PeerSystem.AgreesWithSenior (o.callbacks payloadNumBytes) start
    seniorPeerID peerID es

/-- In every run under one senior, the object is the same on every peer. -/
theorem Replays.sameAsSenior (h : o.Replays I)
    (payloadNumBytes : Msg → UInt64) (db : Obj)
    (seniorPeerID peerID : ZGPeerID) (whichDatabase : UInt32)
    (maxPayloadBytesInLog : ZGPeerID → UInt64)
    (es : List (SystemEvent Msg))
    (hes : ∀ e ∈ es, PeerSystem.KeepsSenior e) :
    SameAsSenior o I payloadNumBytes
      (PeerSystem.freshUnder (o.callbacks payloadNumBytes) db seniorPeerID
        whichDatabase maxPayloadBytesInLog) seniorPeerID peerID es := by
  have hcontract := h.contract payloadNumBytes
  have hstart := PeerSystem.replicates_freshUnder
    (o.callbacks payloadNumBytes) db seniorPeerID whichDatabase
    maxPayloadBytesInLog
  obtain ⟨H, -, hend⟩ := hstart.run hcontract hes
  obtain ⟨hI, hchk⟩ := h.of_held (hend.heldState peerID)
  exact ⟨hI, hchk, PeerSystem.agreesWithSenior_of_keepsSenior hcontract db
    seniorPeerID peerID whichDatabase maxPayloadBytesInLog es hes⟩

end DatabaseObject

end ZgChoir
