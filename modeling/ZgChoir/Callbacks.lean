import ZgChoir.DatabaseUpdate

/-!
# The user's database, as the replication code sees it

`PZGDatabaseState` never looks inside a database.  It calls the virtual
methods that the user's subclass of `ZGPeerSession` provides, and hands each
of them the running checksum by reference.  `Callbacks` is that interface,
each method as the pure function of the database and checksum that it is
called with.

`CallbackContract` is what the replication code relies on.  The contract is
about *held* pairs only: a database together with the checksum that the
callbacks themselves computed for it.
-/

namespace ZgChoir

/-- The user's callbacks for one database.  Every callback that changes the
database returns it together with the running checksum it leaves behind. -/
structure Callbacks (DB Msg : Type) where
  resetLocalDatabaseToDefault : DB → UInt32 → DB × UInt32
  seniorUpdateLocalDatabase : DB → UInt32 → Msg → DB × UInt32 × Option Msg
  juniorUpdateLocalDatabase : DB → UInt32 → Msg → DB × UInt32 × Status
  setLocalDatabaseFromMessage : DB → UInt32 → Msg → DB × UInt32 × Status
  saveLocalDatabaseToMessage : DB → Option Msg
  calculateLocalDatabaseChecksum : DB → UInt32
  /-- The size of a payload message once it is flattened and deflated. -/
  payloadNumBytes : Msg → UInt64

variable {DB Msg : Type}

/-- `Held cb db chk`: the callbacks, called one after another from some
reset, have left the database `db` with the running checksum `chk`. -/
inductive Held (cb : Callbacks DB Msg) : DB → UInt32 → Prop
  | reset (db : DB) (chk : UInt32) :
      Held cb (cb.resetLocalDatabaseToDefault db chk).1
        (cb.resetLocalDatabaseToDefault db chk).2
  | seniorUpdate {db : DB} {chk : UInt32} (msg : Msg) (h : Held cb db chk) :
      Held cb (cb.seniorUpdateLocalDatabase db chk msg).1
        (cb.seniorUpdateLocalDatabase db chk msg).2.1
  | juniorUpdate {db : DB} {chk : UInt32} (msg : Msg) (h : Held cb db chk) :
      Held cb (cb.juniorUpdateLocalDatabase db chk msg).1
        (cb.juniorUpdateLocalDatabase db chk msg).2.1
  | setFromMessage {db : DB} {chk : UInt32} (msg : Msg) (h : Held cb db chk) :
      Held cb (cb.setLocalDatabaseFromMessage db chk msg).1
        (cb.setLocalDatabaseFromMessage db chk msg).2.1

/-- **The user-callback assumptions.**  A junior update replays the senior
update it came from; setting a database from a saved one restores it,
checksum included; a senior callback that fails changes nothing. -/
structure CallbackContract (cb : Callbacks DB Msg) : Prop where
  juniorReplaysSenior : ∀ {db chk msg juniorMsg}, Held cb db chk →
    (cb.seniorUpdateLocalDatabase db chk msg).2.2 = some juniorMsg →
    cb.juniorUpdateLocalDatabase db chk juniorMsg =
      ((cb.seniorUpdateLocalDatabase db chk msg).1,
        (cb.seniorUpdateLocalDatabase db chk msg).2.1, .noError)
  setUndoesSave : ∀ {db chk msg} (db₀ : DB) (chk₀ : UInt32), Held cb db chk →
    cb.saveLocalDatabaseToMessage db = some msg →
    cb.setLocalDatabaseFromMessage db₀ chk₀ msg = (db, chk, .noError)
  failedSeniorUpdate : ∀ {db chk msg},
    (cb.seniorUpdateLocalDatabase db chk msg).2.2 = none →
    (cb.seniorUpdateLocalDatabase db chk msg).1 = db ∧
      (cb.seniorUpdateLocalDatabase db chk msg).2.1 = chk
  failedSeniorReplace : ∀ {db chk msg},
    (cb.setLocalDatabaseFromMessage db chk msg).2.2.isOK = false →
    (cb.setLocalDatabaseFromMessage db chk msg).1 = db ∧
      (cb.setLocalDatabaseFromMessage db chk msg).2.1 = chk

/-! ## A database that is one number

The smallest database that meets the contract: an update adds its message,
and the checksum is the number itself.  Adding 0 is refused. -/

/-- The callbacks of a database that is one number. -/
def counterCallbacks : Callbacks ℕ ℕ where
  resetLocalDatabaseToDefault _ _ := (0, 0)
  seniorUpdateLocalDatabase db chk msg :=
    if msg = 0 then (db, chk, none)
    else (db + msg, UInt32.ofNat (db + msg), some msg)
  juniorUpdateLocalDatabase db _ msg :=
    (db + msg, UInt32.ofNat (db + msg), .noError)
  setLocalDatabaseFromMessage _ _ msg := (msg, UInt32.ofNat msg, .noError)
  saveLocalDatabaseToMessage db := some db
  calculateLocalDatabaseChecksum db := UInt32.ofNat db
  payloadNumBytes _ := 8

theorem counter_checksum_of_held {db : ℕ} {chk : UInt32}
    (h : Held counterCallbacks db chk) : chk = UInt32.ofNat db := by
  induction h with
  | reset db chk => rfl
  | @seniorUpdate db chk msg _ ih =>
      simp only [counterCallbacks]
      split
      · exact ih
      · rfl
  | juniorUpdate msg _ _ => rfl
  | setFromMessage msg _ _ => rfl

/-- The counter meets the contract. -/
theorem counter_contract : CallbackContract counterCallbacks where
  juniorReplaysSenior := by
    intro db chk msg juniorMsg _ hok
    by_cases hmsg : msg = 0
    · simp [counterCallbacks, hmsg] at hok
    · obtain rfl : msg = juniorMsg := by
        simpa [counterCallbacks, hmsg] using hok
      simp [counterCallbacks, hmsg]
  setUndoesSave := by
    intro db chk msg db₀ chk₀ hheld hsave
    obtain rfl : db = msg := by simpa [counterCallbacks] using hsave
    simp [counterCallbacks, counter_checksum_of_held hheld]
  failedSeniorUpdate := by
    intro db chk msg herr
    by_cases hmsg : msg = 0
    · simp [counterCallbacks, hmsg]
    · simp [counterCallbacks, hmsg] at herr
  failedSeniorReplace := by
    intro db chk msg herr
    simp [counterCallbacks] at herr

end ZgChoir
