import ZgChoir.OrderedTable

/-!
# What the peers exchange about one database

A database update moves a database from the state `updateID - 1` to the
state `updateID`, and names the checksum the database must have before and
after.  The senior peer advertises its state in a `PZGDatabaseStateInfo`;
a junior peer orders updates it misses under a `PZGUpdateBackOrderKey`.

State IDs count from 0 and are natural numbers here: the 64-bit counter of
the code is advanced by one per update.  The one reserved 64-bit value,
`(uint64)-1`, stands for "the full database" in a back-order and for "the
log is empty" in an advertised state; it is larger than every ID, and is
`⊤ : WithTop ℕ`.
-/

namespace ZgChoir

/-- A MUSCLE `status_t`: success, or an error that names itself. -/
inductive Status where
  | noError
  | badArgument
  | badData
  | badObject
  | dataNotFound
  | accessDenied
  | logicError
  | unimplemented
  | other (description : String)
  deriving DecidableEq, Repr

/-- `status_t::IsOK`. -/
def Status.isOK : Status → Bool
  | .noError => true
  | _ => false

@[simp] theorem Status.isOK_noError : Status.noError.isOK = true := rfl
@[simp] theorem Status.isOK_badObject : Status.badObject.isOK = false := rfl
@[simp] theorem Status.isOK_badData : Status.badData.isOK = false := rfl
@[simp] theorem Status.isOK_logicError : Status.logicError.isOK = false := rfl
@[simp] theorem Status.isOK_unimplemented :
    Status.unimplemented.isOK = false := rfl

/-- The 128-bit ID of a peer. -/
structure ZGPeerID where
  highBits : UInt64
  lowBits : UInt64
  deriving DecidableEq, Repr

/-- `ZGPeerID::IsValid`: the all-zero ID stands for "nobody". -/
def ZGPeerID.isValid (p : ZGPeerID) : Bool :=
  p.highBits != 0 || p.lowBits != 0

/-- The ID of nobody, as the default constructor makes it. -/
def ZGPeerID.invalid : ZGPeerID := ⟨0, 0⟩

/-- The update types of `PZGDatabaseUpdate.h`; the type is read off the
network as a byte, so an unknown code is a value too. -/
inductive UpdateType where
  | noop
  | reset
  | replace
  | update
  | unknown (code : UInt8)
  deriving DecidableEq, Repr

/-- An update (full or incremental) to an existing database.  `payload` is
the user's message, absent for a reset. -/
structure PZGDatabaseUpdate (Msg : Type) where
  updateType : UpdateType
  databaseIndex : UInt16
  seniorElapsedTimeMillis : UInt16
  seniorStartTimeMicros : UInt64
  sourcePeerID : ZGPeerID
  updateID : ℕ
  preUpdateDBChecksum : UInt32
  postUpdateDBChecksum : UInt32
  payload : Option Msg
  deriving DecidableEq, Repr

/-- `GetPZGDatabaseUpdateFromPool` with arguments: the fields given, every
other field as the default constructor leaves it. -/
def getPZGDatabaseUpdateFromPool {Msg : Type} (updateType : UpdateType)
    (databaseIndex : UInt16) (updateID : ℕ) (sourcePeerID : ZGPeerID)
    (preUpdateDBChecksum : UInt32) : PZGDatabaseUpdate Msg where
  updateType := updateType
  databaseIndex := databaseIndex
  seniorElapsedTimeMillis := 0
  seniorStartTimeMicros := 0
  sourcePeerID := sourcePeerID
  updateID := updateID
  preUpdateDBChecksum := preUpdateDBChecksum
  postUpdateDBChecksum := 0
  payload := none

/-- `SetSeniorElapsedTimeMicros`: whole milliseconds, saturating at the
largest 16-bit value. -/
def elapsedMillisOfMicros (micros : UInt64) : UInt16 :=
  (min 65535 (micros / 1000)).toUInt16

/-- The state of one database, as the senior peer's beacon advertises it. -/
structure PZGDatabaseStateInfo where
  currentDatabaseStateID : ℕ
  oldestDatabaseIDInLog : WithTop ℕ
  dbChecksum : UInt32
  deriving DecidableEq

/-- A request to `targetPeerID` to resend an update, or the full database. -/
structure PZGUpdateBackOrderKey where
  targetPeerID : ZGPeerID
  whichDatabase : UInt32
  databaseUpdateID : WithTop ℕ
  deriving DecidableEq

/-- `DATABASE_UPDATE_ID_FULL_UPDATE`. -/
abbrev databaseUpdateIDFullUpdate : WithTop ℕ := ⊤

/-- The update log: an `OrderedKeysHashtable` keyed by update ID.  The code
only ever puts an update under its own ID. -/
abbrev UpdateLog (Msg : Type) : Type :=
  OrderedTable (@PZGDatabaseUpdate.updateID Msg)

end ZgChoir
