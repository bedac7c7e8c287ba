import ZgChoir.CatchUp
import ZgChoir.PeerSystem

/-!
# States within a senior's state

State IDs alone do not tell two databases apart: two peers that were seniors
apart from each other number their own updates alike.  A state is *within* a
senior's when its ID is lower, or when it is the same ID with the same
checksum.  A junior that is within its senior's state, and has reached the
same ID, has the same checksum; and what is within stays within while the
senior moves on.

Nothing that a senior does leads out of its own state
(`step_within_of_senior`), and a junior that hears only updates within the
senior's state stays within it (`step_within_of_junior`), even when an update
fails on it.
-/

namespace ZgChoir

variable {DB Msg : Type} {cb : Callbacks DB Msg}

open PZGDatabaseState

/-! ## States within a senior's -/

/-- A state is within the senior's when it is an earlier one, or the same
one with the same checksum. -/
def Within (tip : ℕ × UInt32) (stateID : ℕ) (chk : UInt32) : Prop :=
  stateID < tip.1 ∨ stateID = tip.1 ∧ chk = tip.2

instance {tip : ℕ × UInt32} {stateID : ℕ} {chk : UInt32} :
    Decidable (Within tip stateID chk) :=
  inferInstanceAs (Decidable (_ ∨ _))

/-- The update leads to a state within the senior's. -/
abbrev UpdateWithin (tip : ℕ × UInt32) (dbUp : PZGDatabaseUpdate Msg) :
    Prop :=
  Within tip dbUp.updateID dbUp.postUpdateDBChecksum

/-- The full database can be set on any database. -/
def RestoresAll (cb : Callbacks DB Msg) (dbUp : PZGDatabaseUpdate Msg) :
    Prop :=
  ∀ db₀ chk₀, (updateEffect cb dbUp db₀ chk₀).2.2.isOK = true ∧
    (updateEffect cb dbUp db₀ chk₀).2.1 = dbUp.postUpdateDBChecksum

/-- States and updates within a senior's state.  An update that fails is not
the last one, so the database it spoils is still at an earlier state. -/
def tipRules (cb : Callbacks DB Msg) (tip : ℕ × UInt32) :
    ReplicaRules cb where
  GoodState n _ chk := Within tip n chk
  GoodUpdate := UpdateWithin tip
  MayFail := True
  execute {d dbUp} _ hgood hcan := by
    have hpost : (applyEffect cb d dbUp).dbChecksum =
        dbUp.postUpdateDBChecksum := hcan.2.2.2
    rw [hpost]
    exact hgood
  executeFails {d dbUp} _ hgood hid _ := by
    refine ⟨trivial, .inl ?_⟩
    rcases hgood with hlt | ⟨heq, -⟩
    · omega
    · omega

/-- States that the user's callbacks have made. -/
def heldRules (cb : Callbacks DB Msg) : ReplicaRules cb where
  GoodState _ db chk := Held cb db chk
  GoodUpdate _ := True
  MayFail := True
  execute hheld _ _ := hheld.updateEffect _
  executeFails hheld _ _ _ := ⟨trivial, hheld.updateEffect _⟩

namespace PZGDatabaseState

variable {d : PZGDatabaseState DB Msg} {t t' : ℕ × UInt32}

/-- The state ID and the checksum of a database. -/
def tip (d : PZGDatabaseState DB Msg) : ℕ × UInt32 :=
  (d.localDatabaseStateID, d.dbChecksum)

/-- The database and its log are within a senior's state. -/
structure HoldsWithin (t : ℕ × UInt32) (d : PZGDatabaseState DB Msg) :
    Prop where
  state : Within t d.localDatabaseStateID d.dbChecksum
  log : ∀ u ∈ d.updateLog.entries, UpdateWithin t u

theorem HoldsWithin.mono (h : HoldsWithin t d)
    (hle : ∀ {n chk}, Within t n chk → Within t' n chk) :
    HoldsWithin t' d :=
  ⟨hle h.state, fun u hu => hle (h.log u hu)⟩

theorem HoldsWithin.sound (h : HoldsWithin t d)
    (hcalls : d.masterCalls = []) : Sound (tipRules cb t) d := by
  refine ⟨h.state, h.log, fun call hcall => ?_⟩
  rw [hcalls] at hcall
  cases hcall

theorem Sound.holdsWithin (h : Sound (tipRules cb t) d) :
    HoldsWithin t d :=
  ⟨h.state, h.log⟩

end PZGDatabaseState

namespace ZGPeerSession

variable {p : ZGPeerSession DB Msg} {e : PeerEvent Msg}
  {t : ℕ × UInt32}

/-- A full database that is handed to the peer can be set on any database. -/
def RepliesRestore (cb : Callbacks DB Msg) (e : PeerEvent Msg) : Prop :=
  ∀ ubok u link, e = .backOrderResult ubok (some u) link →
    ubok.databaseUpdateID = databaseUpdateIDFullUpdate → RestoresAll cb u

/-- Whatever happens to a peer, its database is one that the user's callbacks
have made. -/
theorem step_held (hcontract : CallbackContract cb)
    (hheld : Held cb p.database.database p.database.dbChecksum)
    (hkeeps : KeepsUp cb p e) (hrestore : RepliesRestore cb e) :
    Held cb (step cb p e).database.database
      (step cb p e).database.dbChecksum := by
  have hheld' : Held cb p.forgetCalls.database.database
      p.forgetCalls.database.dbChecksum := hheld
  by_cases hrequest : SeniorRequest p e
  · cases e with
    | databaseUpdateRequest fromPeerID msg time =>
        obtain ⟨r, hstep, hdatabase⟩ :=
          step_request_of_senior cb hrequest fromPeerID msg time
        rw [hdatabase]
        rcases (hstep.replays hcontract hheld').2.2 with
          ⟨_, hdb, hchk, _, _⟩ | ⟨done, _, _, _, _, heffect, _, _⟩
        · rw [hdb, hchk]
          exact hheld'
        · have hmoved := hheld'.updateEffect done
          rw [heffect] at hmoved
          exact hmoved
    | _ => exact hrequest.elim
  · have hsound : Sound (heldRules cb) p.forgetCalls.database :=
      ⟨hheld, fun _ _ => trivial, fun call hcall => by cases hcall⟩
    refine (step_sound hsound ?_ hrequest).state
    cases e with
    | databaseUpdateRequest fromPeerID msg time =>
        cases msg with
        | updateJuniorDatabase dbUp =>
            cases dbUp with
            | none => trivial
            | some dbUp => exact fun _ _ => trivial
        | _ => trivial
    | backOrderResult ubok opt link =>
        intro u hu _ _ _
        obtain rfl : opt = some u := hu
        unfold GoodReply
        split
        · rename_i hfull
          exact ⟨hrestore ubok u link rfl hfull _ _, hheld.updateEffect u⟩
        · trivial
    | backOrderRequested ubok due =>
        intro hfull hdue
        rw [show (heldRules cb).GoodState = fun _ db chk => Held cb db chk
          from rfl]
        dsimp only
        rw [hkeeps hfull hdue]
        exact hheld
    | _ => trivial

/-- What a reigning senior does is within the state it reaches. -/
theorem step_within_of_senior (hcontract : CallbackContract cb)
    (hheld : Held cb p.database.database p.database.dbChecksum)
    (hsenior : p.iAmTheSeniorPeer = true)
    (hown : HoldsWithin p.database.tip p.database)
    (hkeeps : KeepsUp cb p e) :
    (∀ {n chk}, Within p.database.tip n chk →
        Within (step cb p e).database.tip n chk) ∧
      HoldsWithin (step cb p e).database.tip (step cb p e).database ∧
      ∀ u ∈ multicastsOf (step cb p e).database.masterCalls,
        UpdateWithin (step cb p e).database.tip u := by
  by_cases hrequest : SeniorRequest p e
  · cases e with
    | databaseUpdateRequest fromPeerID msg time =>
        obtain ⟨r, hstep, hdatabase⟩ :=
          step_request_of_senior cb hsenior fromPeerID msg time
        have hheld : Held cb p.forgetCalls.database.database
            p.forgetCalls.database.dbChecksum := hheld
        rw [hdatabase]
        rcases (hstep.replays hcontract hheld).2.2 with
          ⟨hid, _, hchk, hlog, hcalls⟩ |
          ⟨done, hid, hdone, _, hpost, _, hlog, hcalls⟩
        · have htip : r.2.tip = p.database.tip := Prod.ext hid hchk
          rw [htip, hcalls]
          refine ⟨id, ⟨.inr ⟨hid, hchk⟩, fun u hu => hown.log u (hlog u hu)⟩,
            fun u hu => ?_⟩
          cases hu
        · have hle : ∀ {n chk}, Within p.database.tip n chk →
              Within r.2.tip n chk := by
            intro n chk hwithin
            have hlocal : r.2.localDatabaseStateID =
                p.database.localDatabaseStateID + 1 := hid
            refine .inl ?_
            rcases hwithin with hlt | ⟨heq, -⟩
            · simp only [tip] at hlt ⊢
              omega
            · simp only [tip] at heq ⊢
              omega
          rw [hcalls]
          refine ⟨hle, ⟨.inr ⟨rfl, rfl⟩, fun u hu => ?_⟩, fun u hu => ?_⟩
          · rcases hlog u hu with rfl | hu
            · exact .inr ⟨hdone.trans hid.symm, hpost⟩
            · exact hle (hown.log u hu)
          · cases hu
    | _ => exact hrequest.elim
  · obtain ⟨hlocal, hdb, hchk⟩ := step_database_of_senior cb hsenior
      hrequest fun ubok hfull heq => by
        subst heq
        exact hkeeps hfull rfl
    have htip : (step cb p e).database.tip = p.database.tip :=
      Prod.ext hlocal hchk
    rw [htip]
    have hsound : Sound (tipRules cb p.database.tip)
        (step cb p e).database := by
      refine step_sound (HoldsWithin.sound ⟨hown.state, hown.log⟩ rfl) ?_
        hrequest
      cases e with
      | databaseUpdateRequest _ _ _ => exact absurd hsenior hrequest
      | backOrderResult ubok opt link =>
          intro u _ _ _ hjunior
          simp [hsenior] at hjunior
      | backOrderRequested ubok due =>
          intro hfull hdue
          rw [hkeeps hfull hdue]
          exact .inr ⟨rfl, rfl⟩
      | _ => trivial
    refine ⟨id, hsound.holdsWithin, fun u hu => ?_⟩
    obtain ⟨ret, hcall⟩ := mem_multicastsOf.mp hu
    exact hsound.calls _ hcall

/-- What a junior hears from its senior is within the senior's state. -/
def HearsWithin (t : ℕ × UInt32) (p : ZGPeerSession DB Msg) :
    PeerEvent Msg → Prop
  | .databaseUpdateRequest fromPeerID (.updateJuniorDatabase (some dbUp)) _ =>
      fromPeerID = p.seniorPeerID → UpdateWithin t dbUp
  | .backOrderResult ubok opt _ => ∀ dbUp ∈ opt,
      ubok.targetPeerID = p.seniorPeerID → UpdateWithin t dbUp
  | _ => True

/-- A junior stays within its senior's state. -/
theorem step_within_of_junior (hjunior : p.iAmTheSeniorPeer = false)
    (hown : HoldsWithin t p.database) (hkeeps : KeepsUp cb p e)
    (hrestore : RepliesRestore cb e) (hhears : HearsWithin t p e) :
    HoldsWithin t (step cb p e).database := by
  have hrequest : ¬ SeniorRequest p e := by
    intro hrequest
    cases e with
    | databaseUpdateRequest _ _ _ =>
        have hrequest : p.iAmTheSeniorPeer = true := hrequest
        simp [hjunior] at hrequest
    | _ => exact hrequest
  refine (step_sound (R := tipRules cb t)
    (HoldsWithin.sound ⟨hown.state, hown.log⟩ rfl) ?_ hrequest).holdsWithin
  cases e with
  | databaseUpdateRequest fromPeerID msg time =>
      cases msg with
      | updateJuniorDatabase dbUp =>
          cases dbUp with
          | none => trivial
          | some dbUp => exact fun hfrom _ => hhears hfrom
      | _ => trivial
  | backOrderResult ubok opt link =>
      intro u hu _ htarget _
      have hwithin := hhears u hu htarget
      obtain rfl : opt = some u := hu
      unfold GoodReply
      split
      · rename_i hfull
        have hrestores := hrestore ubok u link rfl hfull p.database.database
          p.database.dbChecksum
        refine ⟨hrestores, ?_⟩
        change Within t u.updateID (applyEffect cb p.database u).dbChecksum
        rw [show (applyEffect cb p.database u).dbChecksum =
          u.postUpdateDBChecksum from hrestores.2]
        exact hwithin
      · exact hwithin
  | backOrderRequested ubok due =>
      intro hfull hdue
      rw [hkeeps hfull hdue]
      exact hown.state
  | _ => trivial

/-- The beacon data is what it was, or the state of the database. -/
theorem step_beaconData (cb : Callbacks DB Msg) (p : ZGPeerSession DB Msg)
    (e : PeerEvent Msg) :
    ∀ info ∈ (step cb p e).beaconData, info ∈ p.beaconData ∨
      info = (step cb p e).database.getDatabaseStateInfo := by
  intro info hinfo
  cases e with
  | peerHasComeOnline =>
      simp only [step, peerHasComeOnline] at hinfo
      split at hinfo <;> exact .inl hinfo
  | seniorPeerChanged q =>
      simp only [step, seniorPeerChanged] at hinfo
      split at hinfo <;> exact .inl hinfo
  | databaseUpdateRequest fromPeerID msg time =>
      simp only [step] at hinfo
      rcases handleDatabaseUpdateRequest_cases cb p.forgetCalls fromPeerID msg
        time with ⟨_, h, _⟩ | ⟨_, _, _, _, h⟩ | ⟨_, _, _, _, h⟩
      all_goals
        rw [h] at hinfo
        exact .inl hinfo
  | beaconReceived fromPeerID i =>
      simp only [step, beaconDataChanged] at hinfo
      split at hinfo <;> exact .inl hinfo
  | backOrderResult ubok opt link => exact .inl hinfo
  | rescan link => exact .inl hinfo
  | pulse link =>
      simp only [step, pulse] at hinfo ⊢
      split at hinfo
      · rename_i hpending
        rw [if_pos hpending]
        dsimp only at hinfo
        split at hinfo
        · exact .inr (Option.some.inj hinfo).symm
        · cases hinfo
      · exact .inl hinfo
  | backOrderRequested ubok due =>
      simp only [step, backOrderRequested] at hinfo
      split at hinfo <;> exact .inl hinfo

end ZGPeerSession

end ZgChoir
