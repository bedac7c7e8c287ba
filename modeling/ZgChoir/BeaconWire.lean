import ZgChoir.DatabaseUpdate
import ZgChoir.HeartbeatRoundTrip

/-!
# Beacons on the wire

The senior peer's beacon says of each database which state it is in, which
update is the oldest in its log, and what its checksum is.  On the wire there
is a count, and for each database two words of 64 bits and one of 32; the
largest word stands for "no update in the log".

The format leaves nothing open: a beacon is read exactly from its own bytes
(`unflatten_iff_flatten`), so two beacons are the same if their bytes are, and
no beacon that was cut off on the way is taken for another.
-/

namespace ZgChoir.BeaconWire

open ByteFormat
open HeartbeatWire (saturatingUnsignedMultiply)

/-! ### One database -/

/-- The word of an update ID, or of no ID. -/
def wordOfID : WithTop ℕ → UInt64
  | none => 0xffffffffffffffff
  | some updateID => .ofNat updateID

/-- What a word says. -/
def idOfWord (w : UInt64) : WithTop ℕ :=
  if w = 0xffffffffffffffff then ⊤ else (w.toNat : WithTop ℕ)

/-- An ID that has a word of its own. -/
def IDFits : WithTop ℕ → Prop
  | none => True
  | some updateID => updateID < 2 ^ 64 - 1

instance : DecidablePred IDFits
  | none => .isTrue trivial
  | some _ => inferInstanceAs (Decidable (_ < _))

/-- The words hold what is said of the database. -/
def StateInfoFits (info : PZGDatabaseStateInfo) : Prop :=
  info.currentDatabaseStateID < 2 ^ 64 ∧ IDFits info.oldestDatabaseIDInLog

instance (info : PZGDatabaseStateInfo) : Decidable (StateInfoFits info) :=
  inferInstanceAs (Decidable (_ ∧ _))

/-- `PZGDatabaseStateInfo::FlattenedSize`. -/
def stateInfoFlattenedSize : UInt32 := 8 + 8 + 4

/-- `PZGDatabaseStateInfo::Flatten`. -/
def flattenStateInfo (info : PZGDatabaseStateInfo) : List UInt8 :=
  wordBytes (UInt64.ofNat info.currentDatabaseStateID) ++
    wordBytes (wordOfID info.oldestDatabaseIDInLog) ++
    wordBytes info.dbChecksum

/-- `PZGDatabaseStateInfo::Unflatten`. -/
def unflattenStateInfo : Unflattening PZGDatabaseStateInfo := do
  let currentDatabaseStateID ← readWord UInt64
  let oldestDatabaseIDInLog ← readWord UInt64
  let dbChecksum ← readWord UInt32
  checkStatus
  return { currentDatabaseStateID := currentDatabaseStateID.toNat
           oldestDatabaseIDInLog := idOfWord oldestDatabaseIDInLog
           dbChecksum }

theorem wordOfID_idOfWord (w : UInt64) : wordOfID (idOfWord w) = w := by
  unfold idOfWord
  split
  · next hw => exact hw.symm
  · exact UInt64.ofNat_toNat

theorem idFits_idOfWord (w : UInt64) : IDFits (idOfWord w) := by
  unfold idOfWord
  split
  · exact trivial
  · next hw =>
      have hlt := w.toNat_lt
      have hmax : (0xffffffffffffffff : UInt64).toNat = 2 ^ 64 - 1 := rfl
      have hne : w.toNat ≠ 2 ^ 64 - 1 := by
        intro heq
        exact hw (UInt64.toNat_inj.mp (heq.trans hmax.symm))
      change w.toNat < 2 ^ 64 - 1
      omega

theorem idOfWord_wordOfID {id : WithTop ℕ} (h : IDFits id) :
    idOfWord (wordOfID id) = id := by
  cases id with
  | top => exact if_pos rfl
  | coe updateID =>
      have hlt : updateID < 2 ^ 64 - 1 := h
      have hsize : UInt64.size = 2 ^ 64 := rfl
      have hword : (UInt64.ofNat updateID).toNat = updateID :=
        UInt64.toNat_ofNat_of_lt' (by omega)
      have hne : UInt64.ofNat updateID ≠ 0xffffffffffffffff := by
        intro heq
        have hmax : (0xffffffffffffffff : UInt64).toNat = 2 ^ 64 - 1 := rfl
        rw [heq, hmax] at hword
        omega
      change idOfWord (UInt64.ofNat updateID) = _
      rw [idOfWord, if_neg hne, hword]
      rfl

@[simp] theorem length_flattenStateInfo (info : PZGDatabaseStateInfo) :
    (flattenStateInfo info).length = 20 := by
  simp [flattenStateInfo]

theorem parses_unflattenStateInfo :
    Parses unflattenStateInfo fun info used =>
      StateInfoFits info ∧ used = flattenStateInfo info := by
  refine (Parses.word_bind fun _ => Parses.word_bind fun _ =>
    (parses_readWord UInt32).checked).congr ?_
  intro info used
  constructor
  · intro h
    obtain ⟨current, _, rfl, oldest, _, rfl, chk, rfl, rfl⟩ := h
    refine ⟨⟨current.toNat_lt, idFits_idOfWord oldest⟩, ?_⟩
    simp only [flattenStateInfo, UInt64.ofNat_toNat, wordOfID_idOfWord,
      List.append_assoc]
  · intro h
    obtain ⟨⟨hcurrent, holdest⟩, rfl⟩ := h
    refine ⟨_, _, List.append_assoc _ _ _, _, _, rfl, _, ?_, rfl⟩
    obtain ⟨current, oldest, chk⟩ := info
    rw [idOfWord_wordOfID holdest, UInt64.toNat_ofNat_of_lt' hcurrent]

/-! ### All databases -/

/-- `PZGBeaconData`. -/
structure PZGBeaconData where
  dbis : List PZGDatabaseStateInfo
  deriving DecidableEq

namespace PZGBeaconData

/-- The words of the beacon hold what it says. -/
def Fits (beacon : PZGBeaconData) : Prop :=
  beacon.dbis.length < 2 ^ 32 ∧ ∀ info ∈ beacon.dbis, StateInfoFits info

/-- `PZGBeaconData::FlattenedSize`. -/
def flattenedSize (beacon : PZGBeaconData) : UInt32 :=
  4 + .ofNat (saturatingUnsignedMultiply (.ofNat beacon.dbis.length)
    stateInfoFlattenedSize)

/-- `PZGBeaconData::Flatten`. -/
def flatten (beacon : PZGBeaconData) : List UInt8 :=
  wordBytes (UInt32.ofNat beacon.dbis.length) ++
    beacon.dbis.flatMap flattenStateInfo

/-- `PZGBeaconData::Unflatten`. -/
def unflatten : Unflattening PZGBeaconData := do
  let newNumItems ← readWord UInt32
  if (← numBytesAvailable) <
      saturatingUnsignedMultiply newNumItems stateInfoFlattenedSize then
    giveUp
  else do
    let dbis ← readMany unflattenStateInfo newNumItems.toNat
    checkStatus
    return { dbis }

instance (beacon : PZGBeaconData) : Decidable beacon.Fits :=
  inferInstanceAs (Decidable (_ ∧ _))

variable {beacon : PZGBeaconData} {bytes rest : List UInt8}

theorem length_flatten (beacon : PZGBeaconData) :
    beacon.flatten.length = 4 + 20 * beacon.dbis.length := by
  simp [flatten, List.length_flatMap, Nat.mul_comm]

/-- The buffer has the size that was asked for. -/
theorem toNat_flattenedSize (h : 4 + 20 * beacon.dbis.length < 2 ^ 32) :
    beacon.flattenedSize.toNat = beacon.flatten.length := by
  have hsize : UInt32.size = 2 ^ 32 := rfl
  have hcount : (UInt32.ofNat beacon.dbis.length).toNat =
      beacon.dbis.length := UInt32.toNat_ofNat_of_lt' (by omega)
  have htwenty : stateInfoFlattenedSize.toNat = 20 := rfl
  have hproduct : saturatingUnsignedMultiply (.ofNat beacon.dbis.length)
      stateInfoFlattenedSize = beacon.dbis.length * 20 := by
    rw [saturatingUnsignedMultiply, hcount, htwenty]
    omega
  have hfour : (4 : UInt32).toNat = 4 := rfl
  rw [flattenedSize, hproduct, UInt32.toNat_add,
    UInt32.toNat_ofNat_of_lt' (by omega), hfour, length_flatten]
  omega

theorem eachParsed_flatten {dbis : List PZGDatabaseStateInfo} :
    EachParsed (fun info used => used = flattenStateInfo info) dbis bytes ↔
      bytes = dbis.flatMap flattenStateInfo := by
  constructor
  · intro h
    induction h with
    | nil => rfl
    | cons head _ ih => rw [List.flatMap_cons, head, ih]
  · intro h
    rw [h]
    apply eachParsed_flatMap
    intro _
    rfl

theorem parses_unflatten :
    Parses unflatten fun beacon used => beacon.Fits ∧
      used = beacon.flatten := by
  have hdbis : ∀ newNumItems : UInt32,
      Parses (readMany unflattenStateInfo newNumItems.toNat)
        fun dbis used => dbis.length = newNumItems.toNat ∧
          (∀ info ∈ dbis, StateInfoFits info) ∧
            used = dbis.flatMap flattenStateInfo := by
    intro newNumItems
    refine (parses_unflattenStateInfo.readMany _).congr fun dbis used => ?_
    rw [eachParsed_and, eachParsed_flatten]
  refine (Parses.word_bind fun newNumItems =>
    Parses.require (hdbis newNumItems).checked ?_).congr ?_
  · intro _ used h
    obtain ⟨dbis, rfl, hcount, -, rfl⟩ := h
    have htwenty : stateInfoFlattenedSize.toNat = 20 := rfl
    have hlength : (dbis.flatMap flattenStateInfo).length =
        newNumItems.toNat * 20 := by
      simp [List.length_flatMap, hcount]
    rw [hlength, saturatingUnsignedMultiply, htwenty]
    exact min_le_left _ _
  · intro beacon used
    constructor
    · intro h
      obtain ⟨newNumItems, _, rfl, dbis, rfl, hcount, hfits, rfl⟩ := h
      refine ⟨⟨hcount.trans_lt newNumItems.toNat_lt, hfits⟩, ?_⟩
      simp [flatten, hcount]
    · intro h
      obtain ⟨⟨hcount, hfits⟩, rfl⟩ := h
      exact ⟨_, _, rfl, beacon.dbis, rfl,
        (UInt32.toNat_ofNat_of_lt' hcount).symm, hfits, rfl⟩

/-- **A beacon is read exactly from its own bytes**, and from no part of
them. -/
theorem unflatten_iff_flatten (bytes rest : List UInt8)
    (beacon : PZGBeaconData) :
    (ByteFormat.unflatten unflatten bytes = some (beacon, rest) ↔
      beacon.Fits ∧ bytes = beacon.flatten ++ rest) ∧
    (beacon.Fits → ∀ n < beacon.flatten.length,
      ByteFormat.unflatten unflatten (beacon.flatten.take n) = none) := by
  have hread : ∀ bytes rest : List UInt8,
      ByteFormat.unflatten unflatten bytes = some (beacon, rest) ↔
        beacon.Fits ∧ bytes = beacon.flatten ++ rest := by
    intro bytes rest
    rw [parses_unflatten.unflatten_iff]
    constructor
    · intro h
      obtain ⟨_, rfl, hfits, rfl⟩ := h
      exact ⟨hfits, rfl⟩
    · intro h
      exact ⟨_, h.2, h.1, rfl⟩
  refine ⟨hread bytes rest, fun hfits n hn => ?_⟩
  have hsplit : beacon.flatten.take n ++ beacon.flatten.drop n =
      beacon.flatten := List.take_append_drop n _
  have hmore : beacon.flatten.drop n ≠ [] := by
    intro hnil
    have := List.drop_eq_nil_iff.mp hnil
    omega
  apply Parses.unflatten_eq_none parses_unflatten _ hmore
  · exact beacon
  · rw [hsplit]
    exact (hread _ []).mpr ⟨hfits, (List.append_nil _).symm⟩

/-- A database that has an update in its log, and one that has none. -/
def twoDatabases : PZGBeaconData :=
  ⟨[⟨12, (9 : ℕ), 0x5eed⟩, ⟨0, ⊤, 0⟩]⟩

/-- The beacon of the two databases in a buffer that is longer. -/
theorem unflatten_iff_flatten_twoDatabases :
    ByteFormat.unflatten unflatten (twoDatabases.flatten ++ [7]) =
        some (twoDatabases, [7]) ∧
      ∀ n < twoDatabases.flatten.length,
        ByteFormat.unflatten unflatten (twoDatabases.flatten.take n) = none :=
  have hboth := unflatten_iff_flatten (twoDatabases.flatten ++ [7]) [7]
    twoDatabases
  ⟨hboth.1.mpr ⟨by decide, rfl⟩, hboth.2 (by decide)⟩

end PZGBeaconData

end ZgChoir.BeaconWire
