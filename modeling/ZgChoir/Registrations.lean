import ZgChoir.Hashtable
import ZgChoir.ReturnAddress

/-!
# Registrations

A gateway keeps its subscribers in two tables, by subscriber and by
registration ID, and gives every registration the next ID of a 32-bit counter.
As long as the ID that is next is nobody's, the two tables are each other's
inverse (`Registrations.Inverse`).

The ID goes before a tag, between two marker characters and with a colon, and
is looked up again when the tag comes back.  What kind of tag it is shows in
the marker.
-/

namespace ZgChoir

/-- The subscribers of an `IGateway`. -/
@[ext] structure Registrations (σ : Type) where
  registrationIDCounter : UInt32
  registeredSubscribers : Hashtable σ UInt32
  registrationIDs : Hashtable UInt32 σ

namespace Registrations

variable {σ : Type} [DecidableEq σ]

/-- Nobody is registered. -/
def nobody : Registrations σ := ⟨0, .empty, .empty⟩

/-- `RegisterSubscriber` -/
def register (r : Registrations σ) (sub : σ) : Registrations σ where
  registrationIDCounter := r.registrationIDCounter + 1
  registeredSubscribers :=
    r.registeredSubscribers.put sub (r.registrationIDCounter + 1)
  registrationIDs := r.registrationIDs.put (r.registrationIDCounter + 1) sub

/-- `UnregisterSubscriber` -/
def unregister (r : Registrations σ) (sub : σ) : Registrations σ :=
  match r.registeredSubscribers.get? sub with
  | some registrationID =>
      { r with
        registeredSubscribers := r.registeredSubscribers.remove sub
        registrationIDs := r.registrationIDs.remove registrationID }
  | none => r

/-- `GetRegisteredSubscribers()[sub]` -/
def idOf (r : Registrations σ) (sub : σ) : UInt32 :=
  (r.registeredSubscribers.get? sub).getD 0

/-- `PrependRegistrationIDPrefix` -/
def prependRegistrationIDPrefix (r : Registrations σ) (sub : σ) (s : String)
    (markerChar : Char) : String :=
  MuxTreeGateway.prependRegistrationIDPrefix (r.idOf sub) s markerChar

/-- `ParseRegistrationIDPrefix`: the subscriber, and the suffix, which is not
set if there is no colon. -/
def parseRegistrationIDPrefix (r : Registrations σ) (s : String)
    (markerChar : Char) : Option σ × String :=
  match MuxTreeGateway.splitAtColon s.toList with
  | some (ascii, suffix) =>
      ((MuxTreeGateway.parseRegistrationID (.ofList ascii) markerChar).bind
        r.registrationIDs.get?, .ofList suffix)
  | none => (none, "")

/-- The two tables say the same. -/
def Inverse (r : Registrations σ) : Prop :=
  ∀ registrationID sub, r.registrationIDs.get? registrationID = some sub ↔
    r.registeredSubscribers.get? sub = some registrationID

/-- The ID that is next is nobody's. -/
def NextIsFree (r : Registrations σ) : Prop :=
  r.registrationIDs.get? (r.registrationIDCounter + 1) = none

variable {r : Registrations σ} {sub other : σ} {registrationID : UInt32}

theorem inverse_nobody : (nobody : Registrations σ).Inverse := by
  simp [Inverse, nobody]

theorem get?_register : (r.register sub).registeredSubscribers.get? other =
    if other = sub then some (r.registrationIDCounter + 1)
    else r.registeredSubscribers.get? other :=
  Hashtable.get?_put

/-- An unregistration takes out one subscriber. -/
theorem get?_unregister :
    (r.unregister sub).registeredSubscribers.get? other =
      if other = sub then none
      else r.registeredSubscribers.get? other := by
  unfold unregister
  split
  · exact Hashtable.get?_remove
  · next hsub =>
    split
    · next hother => rw [hother, hsub]
    · rfl

theorem counter_unregister :
    (r.unregister sub).registrationIDCounter = r.registrationIDCounter := by
  unfold unregister
  split <;> rfl

/-- Who still has an ID had it before. -/
theorem get?_of_get?_unregister
    (h : (r.unregister sub).registrationIDs.get? registrationID =
      some other) : r.registrationIDs.get? registrationID = some other := by
  unfold unregister at h
  split at h
  · rw [Hashtable.get?_remove] at h
    split at h
    · simp at h
    · exact h
  · exact h

/-- A new registration gets an ID that nobody has. -/
theorem Inverse.register (h : r.Inverse) (hfree : r.NextIsFree)
    (hnew : r.registeredSubscribers.get? sub = none) :
    (r.register sub).Inverse := by
  intro registrationID s
  simp only [Registrations.register, Hashtable.get?_put]
  by_cases hs : s = sub
  · by_cases hid : registrationID = r.registrationIDCounter + 1
    · simp [hs, hid]
    · have hnone : r.registrationIDs.get? registrationID ≠ some sub := by
        rw [ne_eq, h, hnew]
        simp
      simpa [hs, hid, Ne.symm hid] using hnone
  · by_cases hid : registrationID = r.registrationIDCounter + 1
    · have hnone : r.registeredSubscribers.get? s ≠
          some (r.registrationIDCounter + 1) := by
        rw [ne_eq, ← h, hfree]
        simp
      simpa [hs, hid, Ne.symm hs] using hnone
    · simpa [hs, hid] using h registrationID s

/-- An unregistration clears both tables. -/
theorem Inverse.unregister (h : r.Inverse) : (r.unregister sub).Inverse := by
  unfold Registrations.unregister
  split
  · next own hsub =>
    have hown := (h own sub).mpr hsub
    intro registrationID s
    simp only [Hashtable.get?_remove]
    by_cases hs : s = sub
    · by_cases hid : registrationID = own
      · simp [hs, hid]
      · have hnone : r.registrationIDs.get? registrationID ≠ some sub := by
          rw [ne_eq, h, hsub, Option.some.injEq]
          exact Ne.symm hid
        simpa [hs, hid] using hnone
    · by_cases hid : registrationID = own
      · have hnone : r.registeredSubscribers.get? s ≠ some own := by
          rw [ne_eq, ← h, hown, Option.some.injEq]
          exact Ne.symm hs
        simpa [hs, hid] using hnone
      · simpa [hs, hid] using h registrationID s
  · exact h

/-- A registration that ends leaves the next registration ID, and nothing
else. -/
theorem unregister_register
    (hnew : r.registeredSubscribers.get? sub = none) (hfree : r.NextIsFree) :
    (r.register sub).unregister sub =
      { r with registrationIDCounter := r.registrationIDCounter + 1 } := by
  have hsubs := Hashtable.remove_put_of_notMem
    (v := r.registrationIDCounter + 1) (Hashtable.get?_eq_none_iff.mp hnew)
  have hids := Hashtable.remove_put_of_notMem (v := sub)
    (Hashtable.get?_eq_none_iff.mp hfree)
  simp [Registrations.unregister, Registrations.register, hsubs, hids]

/-! ## What is prepended is parsed -/

variable {s : String} {markerChar otherMarker : Char}

omit [DecidableEq σ] in
/-- What has been written is looked up. -/
theorem parseRegistrationIDPrefix_prepend (hcolon : markerChar ≠ ':')
    (hdigit : markerChar.isDigit = false) :
    r.parseRegistrationIDPrefix (MuxTreeGateway.prependRegistrationIDPrefix
      registrationID s markerChar) markerChar =
        (r.registrationIDs.get? registrationID, s) := by
  rw [parseRegistrationIDPrefix,
    MuxTreeGateway.splitAtColon_prependRegistrationIDPrefix hcolon]
  simp [MuxTreeGateway.parseRegistrationID_getRegistrationIDPrefix hdigit]

omit [DecidableEq σ] in
/-- Another marker says nothing. -/
theorem parseRegistrationIDPrefix_prepend_of_ne (hcolon : markerChar ≠ ':')
    (hne : markerChar ≠ otherMarker) :
    r.parseRegistrationIDPrefix (MuxTreeGateway.prependRegistrationIDPrefix
      registrationID s markerChar) otherMarker = (none, s) := by
  rw [parseRegistrationIDPrefix,
    MuxTreeGateway.splitAtColon_prependRegistrationIDPrefix hcolon]
  simp [MuxTreeGateway.parseRegistrationID,
    MuxTreeGateway.getRegistrationIDPrefix, hne]

end Registrations

end ZgChoir
