import ZgChoir.PeerSession
import ZgChoir.Runs

/-!
# When a junior peer is stuck behind the senior

A junior peer that is behind its senior moves on only when something wakes
it up: a rescan that is pending, or the reply to a back-order.  `NotStuck`
says that it has one of the two.

The code keeps this with one exception.  The full database is the fallback
of every other recovery, and nothing stands behind it: when the order for
the full database is refused, or its reply is missing or cannot be
executed, `BackOrderResultReceived` and `RescanUpdateLog` only log the
error.  `KeepsFallback` is the condition that this does not happen to a
peer with no other wake-up left, and `notStuck_of_keepsFallback` says that
under it no event leaves the peer stuck.

The proof follows the code: a rescan that ends short of its target has
placed an order (`advanceJuniorDatabase_wakes`), and every other event keeps
or creates a wake-up.
-/

namespace ZgChoir

variable {DB Msg : Type} {cb : Callbacks DB Msg} {m : Master} {link : Link}

namespace PZGDatabaseState

variable {d : PZGDatabaseState DB Msg}

/-- Some back-order to the current senior is outstanding. -/
def HasOrder (m : Master) (d : PZGDatabaseState DB Msg) : Prop :=
  ∃ ubok ∈ d.backorders, ubok.targetPeerID = m.seniorPeerID

instance : Decidable (HasOrder m d) :=
  inferInstanceAs (Decidable (∃ ubok ∈ d.backorders, _))

/-- The link accepts the order for the full database. -/
def FullOrderAccepted (m : Master) (link : Link)
    (d : PZGDatabaseState DB Msg) : Prop :=
  (link.backOrderStatus (fullDatabaseKey m d)).isOK = true

instance : Decidable (FullOrderAccepted m link d) :=
  inferInstanceAs (Decidable (_ = true))

/-! ## What a rescan leaves alone -/

/-- The fields that no primitive change of a rescan touches, and the two
that it only ever moves forward: the state ID and the back-orders. -/
structure RescanFrame (d d' : PZGDatabaseState DB Msg) : Prop where
  whichDatabase : d'.whichDatabase = d.whichDatabase
  seniorDatabaseStateID : d'.seniorDatabaseStateID = d.seniorDatabaseStateID
  received : d'.seniorDatabaseStateReceived = d.seniorDatabaseStateReceived
  rescanLogPending : d'.rescanLogPending = d.rescanLogPending
  localDatabaseStateID : d.localDatabaseStateID ≤ d'.localDatabaseStateID
  backorders : ∀ ubok ∈ d.backorders, ubok ∈ d'.backorders

theorem RescanFrame.refl (d : PZGDatabaseState DB Msg) : RescanFrame d d :=
  ⟨rfl, rfl, rfl, rfl, le_rfl, fun _ h => h⟩

theorem RescanFrame.trans {d₁ d₂ d₃ : PZGDatabaseState DB Msg}
    (h₁ : RescanFrame d₁ d₂) (h₂ : RescanFrame d₂ d₃) : RescanFrame d₁ d₃ :=
  ⟨h₂.whichDatabase.trans h₁.whichDatabase,
    h₂.seniorDatabaseStateID.trans h₁.seniorDatabaseStateID,
    h₂.received.trans h₁.received,
    h₂.rescanLogPending.trans h₁.rescanLogPending,
    h₁.localDatabaseStateID.trans h₂.localDatabaseStateID,
    fun ubok h => h₂.backorders ubok (h₁.backorders ubok h)⟩

/-- Asking for a back-order never takes another one back. -/
theorem requestBackOrderFromSeniorPeer_frame (link : Link)
    (d : PZGDatabaseState DB Msg) (ubok : PZGUpdateBackOrderKey)
    (due : Bool) :
    RescanFrame d (requestBackOrderFromSeniorPeer link d ubok due).2 := by
  unfold requestBackOrderFromSeniorPeer
  split
  · exact .refl d
  · refine ⟨rfl, rfl, rfl, rfl, le_rfl, fun k hk => ?_⟩
    dsimp only
    split
    · exact List.mem_append_left _ hk
    · exact hk

theorem RescanMove.frame {d' : PZGDatabaseState DB Msg}
    (h : RescanMove cb m link d d') : RescanFrame d d' := by
  cases h with
  | mark _ => exact ⟨rfl, rfl, rfl, rfl, le_rfl, fun _ h => h⟩
  | send dbUp _ _ _ => exact ⟨rfl, rfl, rfl, rfl, le_rfl, fun _ h => h⟩
  | execute dbUp _ _ _ hcan =>
      exact ⟨rfl, rfl, rfl, rfl, (Nat.le_succ _).trans hcan.1.le,
        fun _ h => h⟩
  | executeFails dbUp _ _ _ _ failed hfailed =>
      refine .trans ?_ (requestBackOrderFromSeniorPeer_frame link failed _ true)
      rcases hfailed with rfl | rfl
      · exact .refl _
      · exact ⟨rfl, rfl, rfl, rfl, le_rfl, fun _ h => h⟩
  | order ubok _ _ _ => exact requestBackOrderFromSeniorPeer_frame link d ubok false
  | trim first _ =>
      obtain ⟨_, _, _, h, -⟩ :=
        removeDatabaseUpdateFromUpdateLog_eq cb m d first
      rw [h]
      exact ⟨rfl, rfl, rfl, rfl, le_rfl, fun _ h => h⟩

theorem RescanMoves.frame {d' : PZGDatabaseState DB Msg}
    (h : RescanMoves cb m link d d') : RescanFrame d d' :=
  preserved_of_moves (P := RescanFrame d) h (.refl d)
    fun _ _ hab hmove => hab.trans hmove.frame

theorem RescanFrame.hasOrder {d' : PZGDatabaseState DB Msg}
    (h : RescanFrame d d') (horder : HasOrder m d) : HasOrder m d' := by
  obtain ⟨ubok, hmem, htarget⟩ := horder
  exact ⟨ubok, h.backorders ubok hmem, htarget⟩

/-! ## A rescan that ends short of its target has placed an order -/

/-- An order that the link accepts is in the table afterwards. -/
theorem mem_requestBackOrder {ubok : PZGUpdateBackOrderKey} {due : Bool}
    (h : (requestBackOrderFromSeniorPeer link d ubok due).1.isOK = true) :
    ubok ∈ (requestBackOrderFromSeniorPeer link d ubok due).2.backorders := by
  unfold requestBackOrderFromSeniorPeer at h ⊢
  split
  · rename_i hmem
    exact hmem
  · rename_i hnot
    rw [if_neg hnot] at h
    simp only at h ⊢
    simp [h]

/-- Falling back to the full database leaves an order behind, if the link
accepts it or some order is there already. -/
theorem requestFullDatabaseResend_hasOrder {due : Bool}
    (h : FullOrderAccepted m link d ∨ HasOrder m d) :
    HasOrder m (requestFullDatabaseResendFromSeniorPeer m link d due).2 := by
  rcases h with haccepted | horder
  · refine ⟨fullDatabaseKey m d, mem_requestBackOrder ?_, rfl⟩
    unfold requestBackOrderFromSeniorPeer
    split
    · rfl
    · exact haccepted
  · exact (requestBackOrderFromSeniorPeer_frame link d _ due).hasOrder horder

/-- Ordering a list of updates whose first is not logged leaves an order
behind. -/
theorem orderMissingUpdates_hasOrder (cb : Callbacks DB Msg)
    (hjunior : m.iAmTheSeniorPeer = false) {updateID : ℕ} {rest : List ℕ}
    (hmissing : d.updateLog.containsKey updateID = false)
    (h : FullOrderAccepted m link d ∨ HasOrder m d) :
    HasOrder m (orderMissingUpdates m link (updateID :: rest) d) := by
  unfold orderMissingUpdates
  dsimp only
  rw [if_neg (by simp [hmissing])]
  split_ifs with hordered hok
  · exact (orderMissingUpdates_moves cb hjunior rest).frame.hasOrder
      ⟨_, hordered, rfl⟩
  · exact (orderMissingUpdates_moves cb hjunior rest).frame.hasOrder
      ⟨_, mem_requestBackOrder hok, rfl⟩
  · refine requestFullDatabaseResend_hasOrder (h.imp ?_ ?_)
    · intro haccepted
      have hframe := requestBackOrderFromSeniorPeer_frame link d
        ⟨m.seniorPeerID, d.whichDatabase, updateID⟩ false
      unfold FullOrderAccepted fullDatabaseKey at haccepted ⊢
      rw [hframe.whichDatabase]
      exact haccepted
    · exact (requestBackOrderFromSeniorPeer_frame link d _ false).hasOrder

/-- When the update needed next is missing, an order is placed. -/
theorem handleMissingUpdate_hasOrder (cb : Callbacks DB Msg)
    (hjunior : m.iAmTheSeniorPeer = false)
    (hvalid : m.seniorPeerID.isValid = true) {target : ℕ}
    (hbehind : d.localDatabaseStateID < target)
    (hmissing : d.updateLog.get? (d.localDatabaseStateID + 1) = none)
    (h : FullOrderAccepted m link d ∨ HasOrder m d) :
    HasOrder m (handleMissingUpdate m link target d) := by
  unfold handleMissingUpdate
  dsimp only
  rw [if_neg (by simp [hvalid])]
  split
  · exact requestFullDatabaseResend_hasOrder h
  · obtain ⟨n, hn⟩ : ∃ n, target + 1 - (d.localDatabaseStateID + 1) =
        n + 1 := ⟨target - d.localDatabaseStateID - 1, by omega⟩
    rw [hn, List.range'_succ]
    refine orderMissingUpdates_hasOrder cb hjunior ?_ h
    simp [OrderedTable.containsKey, hmissing]

/-- The replay loop reaches its target or leaves an order behind. -/
theorem replayUpdateLog_wakes (hjunior : m.iAmTheSeniorPeer = false)
    (hvalid : m.seniorPeerID.isValid = true) {target : ℕ} (fuel : ℕ)
    (hfuel : target ≤ d.localDatabaseStateID + fuel)
    (h : FullOrderAccepted m link d ∨ HasOrder m d) :
    target ≤ (replayUpdateLog cb m link target fuel d).localDatabaseStateID ∨
      HasOrder m (replayUpdateLog cb m link target fuel d) := by
  induction fuel generalizing d with
  | zero => exact .inl hfuel
  | succ n ih =>
      unfold replayUpdateLog
      split
      · rename_i hbehind
        cases hget : d.updateLog.get? (d.localDatabaseStateID + 1) with
        | none =>
            exact .inr (handleMissingUpdate_hasOrder cb hjunior hvalid
              hbehind hget h)
        | some dbUp =>
            dsimp only
            by_cases hcan : CanExecute cb d dbUp
            · have hid : d.localDatabaseStateID + 1 = dbUp.updateID := hcan.1
              rw [juniorExecuteDatabaseUpdate_of_canExecute hcan,
                if_pos Status.isOK_noError]
              refine ih ?_ h
              dsimp only
              omega
            · obtain ⟨herr, hfailed⟩ :=
                juniorExecuteDatabaseUpdate_of_not_canExecute hcan
              rw [if_neg (by simp [herr])]
              refine .inr (requestFullDatabaseResend_hasOrder ?_)
              rcases hfailed with hfailed | hfailed
              · rw [hfailed]
                exact h
              · rw [hfailed]
                exact h
      · rename_i hdone
        exact .inl (by omega)

theorem le_getTargetDatabaseStateID :
    d.seniorDatabaseStateID ≤ getTargetDatabaseStateID d :=
  le_max_right _ _

/-- **A junior's rescan wakes the peer up again**: it ends at the senior's
state or later, or with an order to the senior outstanding. -/
theorem advanceJuniorDatabase_wakes (cb : Callbacks DB Msg)
    (hjunior : m.iAmTheSeniorPeer = false)
    (hvalid : m.seniorPeerID.isValid = true)
    (h : FullOrderAccepted m link d ∨ HasOrder m d) :
    d.seniorDatabaseStateID ≤
        (advanceJuniorDatabase cb m link d).localDatabaseStateID ∨
      HasOrder m (advanceJuniorDatabase cb m link d) := by
  unfold advanceJuniorDatabase
  dsimp only
  split_ifs with hawaiting hnew
  · exact .inr ⟨fullDatabaseKey m d, by
      simpa [isAwaitingFullDatabaseResendReply] using hawaiting, rfl⟩
  · exact .inr (requestFullDatabaseResend_hasOrder h)
  · exact (replayUpdateLog_wakes hjunior hvalid _ (by omega) h).imp
      le_getTargetDatabaseStateID.trans id

/-! ## The invariant -/

/-- `NotStuck m d`: a database that is behind the senior's state has a
rescan pending or a back-order to the senior outstanding. -/
def NotStuck (m : Master) (d : PZGDatabaseState DB Msg) : Prop :=
  m.iAmFullyAttached = true → d.seniorDatabaseStateReceived = true →
    d.localDatabaseStateID < d.seniorDatabaseStateID →
      d.rescanLogPending = true ∨ HasOrder m d

instance : Decidable (NotStuck m d) :=
  inferInstanceAs (Decidable (_ → _))

/-- A wake-up that does not depend on the order `ubok`. -/
def HasOtherWakeUp (m : Master) (d : PZGDatabaseState DB Msg)
    (ubok : PZGUpdateBackOrderKey) : Prop :=
  d.rescanLogPending = true ∨ HasOrder m (withoutBackOrder d ubok)

instance {ubok : PZGUpdateBackOrderKey} :
    Decidable (HasOtherWakeUp m d ubok) :=
  inferInstanceAs (Decidable (_ ∨ _))

/-- **The fallback is not lost by a reply.**  When a reply to an order to
the senior takes the last wake-up of a peer that is behind, then a full
database is there and can be executed, and a missing single update can be
replaced by an order for the full database. -/
def ReplyKeepsFallback (cb : Callbacks DB Msg) (m : Master) (link : Link)
    (d : PZGDatabaseState DB Msg) (ubok : PZGUpdateBackOrderKey)
    (opt : Option (PZGDatabaseUpdate Msg)) : Prop :=
  ubok ∈ d.backorders → ubok.targetPeerID = m.seniorPeerID →
    d.localDatabaseStateID < d.seniorDatabaseStateID →
    ¬ HasOtherWakeUp m d ubok →
    match opt with
    | some dbUp =>
        ubok.databaseUpdateID = databaseUpdateIDFullUpdate →
          Restores cb d dbUp
    | none =>
        ubok.databaseUpdateID ≠ databaseUpdateIDFullUpdate ∧
          FullOrderAccepted m link d

instance {ubok : PZGUpdateBackOrderKey}
    {opt : Option (PZGDatabaseUpdate Msg)} :
    Decidable (ReplyKeepsFallback cb m link d ubok opt) :=
  match opt with
  | some _ => inferInstanceAs (Decidable (_ → _ → _ → _ → _ → _))
  | none => inferInstanceAs (Decidable (_ → _ → _ → _ → _ ∧ _))

/-- **The fallback is not lost by a rescan.**  A rescan of a peer that is
behind and has no order outstanding finds a link that accepts an order for
the full database. -/
def RescanKeepsFallback (m : Master) (link : Link)
    (d : PZGDatabaseState DB Msg) : Prop :=
  d.rescanLogPending = true → d.seniorDatabaseStateReceived = true →
    d.localDatabaseStateID < d.seniorDatabaseStateID →
    FullOrderAccepted m link d ∨ HasOrder m d

instance : Decidable (RescanKeepsFallback m link d) :=
  inferInstanceAs (Decidable (_ → _ → _ → _))

/-- A pending rescan that keeps the fallback leaves the peer not stuck. -/
theorem rescanUpdateLogIfNecessary_notStuck
    (hjunior : m.iAmTheSeniorPeer = false)
    (hvalid : m.seniorPeerID.isValid = true) (hnot : NotStuck m d)
    (h : RescanKeepsFallback m link d) :
    NotStuck m (rescanUpdateLogIfNecessary cb m link d) := by
  unfold rescanUpdateLogIfNecessary
  split
  · rename_i hpending
    intro _ hreceived hbehind
    have hframe := (rescanUpdateLog_moves cb m link
      { d with rescanLogPending := false }).frame
    rw [hframe.received] at hreceived
    rw [hframe.seniorDatabaseStateID] at hbehind
    have hlocal := hframe.localDatabaseStateID
    have hlink := h hpending hreceived (lt_of_le_of_lt hlocal hbehind)
    right
    unfold rescanUpdateLog rescanUpdateLogAsJunior at hbehind ⊢
    rw [if_neg (by simp [hjunior]), if_pos hreceived] at hbehind ⊢
    dsimp only at hbehind ⊢
    obtain ⟨_, _, _, _, -, htrim⟩ := trimUpdateLog_frame cb m
      (fun d id => !isDatabaseUpdateStillNeeded m d id) _
      (advanceJuniorDatabase cb m link { d with
        rescanLogPending := false
        firstUnsentUpdateID := d.localDatabaseStateID + 1 })
    rw [htrim] at hbehind ⊢
    rcases advanceJuniorDatabase_wakes cb hjunior hvalid
      (d := { d with
        rescanLogPending := false
        firstUnsentUpdateID := d.localDatabaseStateID + 1 }) hlink
      with hreached | horder
    · exact absurd hbehind (Nat.not_lt.mpr hreached)
    · exact horder
  · exact hnot

/-- An order other than `ubok` stays when `ubok` is taken out. -/
theorem hasOrder_withoutBackOrder {ubok : PZGUpdateBackOrderKey}
    (htarget : ubok.targetPeerID ≠ m.seniorPeerID) (h : HasOrder m d) :
    HasOrder m (withoutBackOrder d ubok) := by
  obtain ⟨k, hmem, hk⟩ := h
  refine ⟨k, List.mem_filter.mpr ⟨hmem, decide_eq_true fun heq => ?_⟩, hk⟩
  exact htarget (heq ▸ hk)

/-- A reply that keeps the fallback leaves the peer not stuck. -/
theorem backOrderResultReceived_notStuck
    (hjunior : m.iAmTheSeniorPeer = false)
    {ubok : PZGUpdateBackOrderKey} {opt : Option (PZGDatabaseUpdate Msg)}
    (hnot : NotStuck m d) (h : ReplyKeepsFallback cb m link d ubok opt) :
    NotStuck m (backOrderResultReceived cb m link d ubok opt) := by
  intro hattached
  have hstep := backOrderResultReceived_step cb m link d ubok opt
  generalize backOrderResultReceived cb m link d ubok opt = d' at hstep ⊢
  cases hstep with
  | ignored _ _ => exact hnot hattached
  | dropped _ _ hother =>
      intro hreceived hbehind
      refine (hnot hattached hreceived hbehind).imp id ?_
      exact hasOrder_withoutBackOrder fun htarget => hother ⟨htarget, hjunior⟩
  | replaced dbUp _ _ _ _ _ =>
      intro _ _
      left
      simp [hattached]
  | replaceFailed dbUp hmem htarget _ hfull hrestores =>
      intro _ hbehind
      by_contra hno
      exact hrestores (h hmem htarget hbehind hno hfull)
  | fullMissing hmem htarget _ hfull =>
      intro _ hbehind
      by_contra hno
      exact (h hmem htarget hbehind hno).1 hfull
  | logged dbUp _ _ _ _ _ _ =>
      intro _ _
      left
      simp [hattached]
  | singleMissing hmem htarget _ hsingle =>
      have hframe := requestBackOrderFromSeniorPeer_frame link
        (withoutBackOrder d ubok)
        (fullDatabaseKey m (withoutBackOrder d ubok)) false
      intro _ hbehind
      rw [requestFullDatabaseResendFromSeniorPeer,
        hframe.seniorDatabaseStateID] at hbehind
      have hbehind : d.localDatabaseStateID < d.seniorDatabaseStateID :=
        lt_of_le_of_lt hframe.localDatabaseStateID hbehind
      by_cases hother : HasOtherWakeUp m d ubok
      · exact hother.imp hframe.rescanLogPending.trans hframe.hasOrder
      · have haccepted := (h hmem htarget hbehind hother).2
        exact .inr (requestFullDatabaseResend_hasOrder (.inl haccepted))

/-- The condition on replies is exact: a reply that does not keep the
fallback leaves an attached junior stuck. -/
theorem stuck_of_not_replyKeepsFallback
    (hattached : m.iAmFullyAttached = true)
    (hreceived : d.seniorDatabaseStateReceived = true)
    (hjunior : m.iAmTheSeniorPeer = false)
    {ubok : PZGUpdateBackOrderKey} {opt : Option (PZGDatabaseUpdate Msg)}
    (h : ¬ ReplyKeepsFallback cb m link d ubok opt) :
    ¬ NotStuck m (backOrderResultReceived cb m link d ubok opt) := by
  simp only [ReplyKeepsFallback, Classical.not_imp] at h
  obtain ⟨hmem, htarget, hbehind, hno, hlost⟩ := h
  have hpending : ¬ d.rescanLogPending = true := fun hp => hno (.inl hp)
  have horder : ¬ HasOrder m (withoutBackOrder d ubok) := fun ho =>
    hno (.inr ho)
  have hstep := backOrderResultReceived_step cb m link d ubok opt
  generalize backOrderResultReceived cb m link d ubok opt = d' at hstep ⊢
  intro hnot
  cases hstep with
  | ignored _ habsent => exact habsent hmem
  | dropped _ _ hother => exact hother ⟨htarget, hjunior⟩
  | replaced dbUp _ _ _ _ hrestores => exact hlost fun _ => hrestores
  | replaceFailed dbUp _ _ _ _ _ =>
      exact (hnot hattached hreceived hbehind).elim hpending horder
  | fullMissing _ _ _ _ =>
      exact (hnot hattached hreceived hbehind).elim hpending horder
  | logged dbUp _ _ _ hsingle _ _ => exact hlost fun hfull => (hsingle hfull).elim
  | singleMissing _ _ _ hsingle =>
      have hrefused : ¬ (link.backOrderStatus
          (fullDatabaseKey m (withoutBackOrder d ubok))).isOK = true :=
        fun haccepted => hlost ⟨hsingle, haccepted⟩
      unfold requestFullDatabaseResendFromSeniorPeer
        requestBackOrderFromSeniorPeer at hnot
      split at hnot
      · exact (hnot hattached hreceived hbehind).elim hpending horder
      · have := hnot hattached hreceived hbehind
        simp only [HasOrder] at this
        rw [if_neg hrefused] at this
        exact this.elim hpending horder

end PZGDatabaseState

namespace ZGPeerSession

variable {p : ZGPeerSession DB Msg}

/-- The event does not take the last wake-up of a peer that is behind: the
condition on replies and on rescans, as the peer meets them. -/
def KeepsFallback (cb : Callbacks DB Msg) (p : ZGPeerSession DB Msg) :
    PeerEvent Msg → Prop
  | .backOrderResult ubok opt link =>
      PZGDatabaseState.ReplyKeepsFallback cb p.master link p.database ubok opt
  | .rescan link => PZGDatabaseState.RescanKeepsFallback p.master link p.database
  | .pulse link => p.setBeaconDataPending = true →
      PZGDatabaseState.RescanKeepsFallback p.master link p.database
  | _ => True

instance : ∀ {e : PeerEvent Msg}, Decidable (KeepsFallback cb p e)
  | .backOrderResult _ _ _ => inferInstanceAs
      (Decidable (PZGDatabaseState.ReplyKeepsFallback _ _ _ _ _ _))
  | .rescan _ => inferInstanceAs
      (Decidable (PZGDatabaseState.RescanKeepsFallback _ _ _))
  | .pulse _ => inferInstanceAs
      (Decidable (_ → PZGDatabaseState.RescanKeepsFallback _ _ _))
  | .seniorPeerChanged _ => .isTrue trivial
  | .peerHasComeOnline => .isTrue trivial
  | .databaseUpdateRequest _ _ _ => .isTrue trivial
  | .beaconReceived _ _ => .isTrue trivial
  | .backOrderRequested _ _ => .isTrue trivial

/-- **One event.**  An event that keeps the senior and the fallback leaves a
junior peer not stuck. -/
theorem step_notStuck (hjunior : p.iAmTheSeniorPeer = false)
    (hvalid : p.seniorPeerID.isValid = true) {e : PeerEvent Msg}
    (hsenior : KeepsSenior e) (hkeeps : KeepsFallback cb p e)
    (hnot : PZGDatabaseState.NotStuck p.master p.database) :
    PZGDatabaseState.NotStuck (step cb p e).master (step cb p e).database := by
  cases e with
  | peerHasComeOnline =>
      show PZGDatabaseState.NotStuck p.forgetCalls.peerHasComeOnline.master
        p.forgetCalls.peerHasComeOnline.database
      unfold peerHasComeOnline
      split
      · exact hnot
      · intro _ _ _
        left
        simp [withDatabase, PZGDatabaseState.scheduleLogContentsRescan_eq,
          master]
  | seniorPeerChanged newSeniorPeerID => exact hsenior.elim
  | databaseUpdateRequest fromPeerID msg time =>
      simp only [step]
      rcases handleDatabaseUpdateRequest_cases cb p.forgetCalls fromPeerID msg
        time with ⟨_, h, _⟩ | ⟨hsr, _⟩ | ⟨_, _, dbUp, _, h⟩
      · rw [h]
        exact hnot
      · have hsr : p.iAmTheSeniorPeer = true := hsr
        simp [hjunior] at hsr
      · obtain ⟨_, _, _, hadd, _⟩ :=
          PZGDatabaseState.addDatabaseUpdateToUpdateLog_eq cb
            p.forgetCalls.master p.forgetCalls.database dbUp
        rw [h]
        intro hattached _ _
        left
        have hattached : p.forgetCalls.master.iAmFullyAttached = true :=
          hattached
        simp [hadd, hattached]
  | beaconReceived fromPeerID info =>
      simp only [step, beaconDataChanged]
      split
      · simp only [PZGDatabaseState.seniorDatabaseStateInfoChanged]
        split
        · intro hattached _ _
          left
          have hattached : p.forgetCalls.master.iAmFullyAttached = true :=
            hattached
          simp [withDatabase, PZGDatabaseState.scheduleLogContentsRescan_eq,
            hattached]
        · exact hnot
      · exact hnot
  | backOrderResult ubok opt link =>
      exact PZGDatabaseState.backOrderResultReceived_notStuck hjunior hnot
        hkeeps
  | rescan link =>
      exact PZGDatabaseState.rescanUpdateLogIfNecessary_notStuck hjunior
        hvalid hnot hkeeps
  | pulse link =>
      simp only [step, pulse]
      split
      · rename_i hpending
        exact PZGDatabaseState.rescanUpdateLogIfNecessary_notStuck hjunior
          hvalid hnot (hkeeps hpending)
      · exact hnot
  | backOrderRequested ubok due =>
      simp only [step, backOrderRequested]
      split <;> exact hnot

/-- **A junior peer is never stuck while the fallback is kept.**  With one
valid senior for the whole run, in every run whose steps keep the fallback,
an attached junior that has received the senior's state and is behind it has
a rescan pending or a back-order to the senior outstanding. -/
theorem notStuck_of_keepsFallback (cb : Callbacks DB Msg) (db : DB)
    {localPeerID seniorPeerID : ZGPeerID} (whichDatabase : UInt32)
    (maxPayloadBytesInLog : UInt64)
    (hvalid : seniorPeerID.isValid = true)
    (hjunior : seniorPeerID ≠ localPeerID) (es : List (PeerEvent Msg))
    (hmeet : Runs.StepsMeet (step cb)
      (fun p e => KeepsSenior e ∧ KeepsFallback cb p e)
      (freshUnder cb db localPeerID seniorPeerID whichDatabase
        maxPayloadBytesInLog) es) :
    let p := Runs.run (step cb) (freshUnder cb db localPeerID seniorPeerID
      whichDatabase maxPayloadBytesInLog) es
    PZGDatabaseState.NotStuck p.master p.database := by
  have hinv := Runs.run_invariant_of_stepsMeet
    (I := fun p => p.localPeerID = localPeerID ∧
      p.seniorPeerID = seniorPeerID ∧
      PZGDatabaseState.NotStuck p.master p.database)
    ⟨rfl, rfl, fun _ hreceived => by cases hreceived⟩ hmeet ?_
  · exact hinv.2.2
  · rintro p e ⟨hlocal, hsenior, hnot⟩ ⟨hkeepsSenior, hkeeps⟩
    obtain ⟨hlocal', hsenior'⟩ := step_peerIDs cb p e
    refine ⟨hlocal'.trans hlocal, ?_, ?_⟩
    · rcases hsenior' with heq | ⟨_, rfl, _⟩
      · exact heq.trans hsenior
      · exact hkeepsSenior.elim
    · refine step_notStuck ?_ (hsenior ▸ hvalid) hkeepsSenior hkeeps hnot
      simp [iAmTheSeniorPeer, Master.iAmTheSeniorPeer, master, hlocal,
        hsenior, hjunior]

/-! ## A reply that is lost, and one that is not

Peer 1 is attached under the senior peer 2, hears that peer 2 is at state 2,
and orders the full database. -/

/-- The run up to the order for the full database. -/
def orderFullDatabase : List (PeerEvent ℕ) :=
  [.peerHasComeOnline, .beaconReceived ⟨0, 2⟩ ⟨2, (1 : ℕ), 5⟩, .rescan .up]

/-- The full database that peer 2 can send. -/
def counterAtFive : PZGDatabaseUpdate ℕ :=
  { (getPZGDatabaseUpdateFromPool .replace 0 2 ⟨0, 2⟩ 5 :
      PZGDatabaseUpdate ℕ) with
    postUpdateDBChecksum := 5
    payload := some 5 }

/-- The reply arrives: the condition of `notStuck_of_keepsFallback` holds of
the whole run. -/
theorem notStuck_after_full_reply :
    let p := Runs.run (step counterCallbacks)
      (freshUnder counterCallbacks 0 ⟨0, 1⟩ ⟨0, 2⟩ 0 100)
      (orderFullDatabase ++
        [.backOrderResult ⟨⟨0, 2⟩, 0, ⊤⟩ (some counterAtFive) .up,
          .rescan .up])
    PZGDatabaseState.NotStuck p.master p.database :=
  notStuck_of_keepsFallback counterCallbacks 0 0 100 (by decide) (by decide)
    _ (by decide)

/-- The reply is missing: peer 1 is attached, has received the senior's
state, is behind it, and nothing will wake it up. -/
theorem stuck_after_missing_full_reply :
    let es := orderFullDatabase ++ [.backOrderResult ⟨⟨0, 2⟩, 0, ⊤⟩ none .up]
    let p := Runs.run (step counterCallbacks)
      (freshUnder counterCallbacks 0 ⟨0, 1⟩ ⟨0, 2⟩ 0 100) es
    (∀ e ∈ es, KeepsSenior e) ∧ p.iAmFullyAttached = true ∧
      p.database.seniorDatabaseStateReceived = true ∧
      p.database.localDatabaseStateID < p.database.seniorDatabaseStateID ∧
      p.database.rescanLogPending = false ∧ p.database.backorders = [] := by
  decide

end ZGPeerSession

end ZgChoir
