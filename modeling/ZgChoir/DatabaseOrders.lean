import ZgChoir.UnicastSessions

/-!
# What a database orders

The back-orders that a method of a `PZGDatabaseState` asks for, and what its
table is afterwards (`Places`).  A database asks only for what it does not
wait for already, always asks the senior peer, and asks for a single update
only when it does not wait for the whole database.
-/

namespace ZgChoir

variable {DB Msg : Type}

namespace PZGUpdateBackOrderKey

variable {k k' : PZGUpdateBackOrderKey}

/-- An order for a whole database. -/
def IsFull (k : PZGUpdateBackOrderKey) : Prop :=
  k.databaseUpdateID = databaseUpdateIDFullUpdate

/-- The order for the whole database of an order. -/
def full (k : PZGUpdateBackOrderKey) : PZGUpdateBackOrderKey :=
  { k with databaseUpdateID := databaseUpdateIDFullUpdate }

theorem IsFull.eq_full (h : k.IsFull)
    (htarget : k.targetPeerID = k'.targetPeerID)
    (hwhich : k.whichDatabase = k'.whichDatabase) : k = k'.full := by
  cases k
  cases k'
  cases h
  cases htarget
  cases hwhich
  rfl

end PZGUpdateBackOrderKey

open PZGUpdateBackOrderKey

/-! ### What a database asks for -/

/-- Orders that a database places one after another: `b` and `b'` are its
table before and after.  An order is new, it is for the senior peer, and it is
for the whole database unless the database does not wait for that. -/
inductive Orders (m : Master) (whichDatabase : UInt32)
    (status : PZGUpdateBackOrderKey → Status) :
    List PZGUpdateBackOrderKey → List (PZGUpdateBackOrderKey × Status) →
      List PZGUpdateBackOrderKey → Prop
  | done (b : List PZGUpdateBackOrderKey) : Orders m whichDatabase status b [] b
  | order {b rest b'} (k : PZGUpdateBackOrderKey) (hnew : k ∉ b)
      (htarget : k.targetPeerID = m.seniorPeerID)
      (hwhich : k.whichDatabase = whichDatabase)
      (hkind : k.IsFull ∨ k.targetPeerID.isValid = true ∧ k.full ∉ b)
      (hrest : Orders m whichDatabase status
        (if (status k).isOK then b ++ [k] else b) rest b') :
      Orders m whichDatabase status b ((k, status k) :: rest) b'

theorem Orders.trans {m : Master} {whichDatabase : UInt32}
    {status : PZGUpdateBackOrderKey → Status}
    {b b' b'' : List PZGUpdateBackOrderKey}
    {requests requests' : List (PZGUpdateBackOrderKey × Status)}
    (h : Orders m whichDatabase status b requests b')
    (h' : Orders m whichDatabase status b' requests' b'') :
    Orders m whichDatabase status b (requests ++ requests') b'' := by
  induction h with
  | done b => exact h'
  | order k hnew htarget hwhich hkind _ ih =>
      exact .order k hnew htarget hwhich hkind (ih h')

namespace PZGDatabaseState

variable {cb : Callbacks DB Msg} {m : Master} {link : Link}
variable {d d' d'' : PZGDatabaseState DB Msg}

/-- `d'` has come of `d`, and of orders. -/
def Places (m : Master) (link : Link) (d d' : PZGDatabaseState DB Msg) :
    Prop :=
  d'.whichDatabase = d.whichDatabase ∧
  ∃ requests,
    requestsOf d'.masterCalls = requestsOf d.masterCalls ++ requests ∧
    Orders m d.whichDatabase link.backOrderStatus d.backorders requests
      d'.backorders

/-- A method that has nothing to do with back-orders. -/
theorem Places.of_eq (hwhich : d'.whichDatabase = d.whichDatabase)
    (hcalls : requestsOf d'.masterCalls = requestsOf d.masterCalls)
    (hbackorders : d'.backorders = d.backorders) : Places m link d d' :=
  ⟨hwhich, [], by rw [hcalls, List.append_nil],
    by rw [hbackorders]; exact .done _⟩

theorem Places.refl : Places m link d d := .of_eq rfl rfl rfl

theorem Places.trans (h : Places m link d d') (h' : Places m link d' d'') :
    Places m link d d'' := by
  obtain ⟨hwhich, requests, hcalls, horders⟩ := h
  obtain ⟨hwhich', requests', hcalls', horders'⟩ := h'
  rw [hwhich] at horders'
  refine ⟨hwhich'.trans hwhich, requests ++ requests', ?_,
    horders.trans horders'⟩
  rw [hcalls', hcalls, List.append_assoc]

theorem requestsOf_append {xs ys : List (MasterCall Msg)} :
    requestsOf (xs ++ ys) = requestsOf xs ++ requestsOf ys :=
  List.filterMap_append

theorem requestBackOrder_places (m : Master) (link : Link)
    (d : PZGDatabaseState DB Msg) (ubok : PZGUpdateBackOrderKey) (due : Bool)
    (htarget : ubok.targetPeerID = m.seniorPeerID)
    (hwhich : ubok.whichDatabase = d.whichDatabase)
    (hkind : ubok.IsFull ∨
      ubok.targetPeerID.isValid = true ∧ ubok.full ∉ d.backorders) :
    Places m link d (requestBackOrderFromSeniorPeer link d ubok due).2 := by
  unfold requestBackOrderFromSeniorPeer
  split
  · exact .refl
  · rename_i hnew
    refine ⟨rfl, [(ubok, link.backOrderStatus ubok)], ?_, ?_⟩
    · exact requestsOf_append
    · exact .order ubok hnew htarget hwhich hkind (.done _)

theorem requestFull_places (due : Bool) :
    Places m link d
      (requestFullDatabaseResendFromSeniorPeer m link d due).2 :=
  requestBackOrder_places m link d _ due rfl rfl (.inl rfl)

theorem orderMissingUpdates_places (hvalid : m.seniorPeerID.isValid = true)
    (ids : List ℕ) (hfree : fullDatabaseKey m d ∉ d.backorders) :
    Places m link d (orderMissingUpdates m link ids d) := by
  induction ids generalizing d with
  | nil => exact .refl
  | cons updateID rest ih =>
      unfold orderMissingUpdates
      dsimp only
      have hplaces := requestBackOrder_places m link d
        ⟨m.seniorPeerID, d.whichDatabase, updateID⟩ false rfl rfl
        (.inr ⟨hvalid, hfree⟩)
      split_ifs with hlogged hordered hok
      · exact ih hfree
      · exact ih hfree
      · refine hplaces.trans (ih ?_)
        -- the order that has been added is for a single update
        unfold requestBackOrderFromSeniorPeer
        rw [if_neg hordered]
        intro hfull
        dsimp only at hfull
        split at hfull
        · rcases List.mem_append.mp hfull with hfull | hfull
          · exact hfree hfull
          · have heq := List.mem_singleton.mp hfull
            have hid := congrArg databaseUpdateID heq
            exact WithTop.coe_ne_top hid.symm
        · exact hfree hfull
      · exact hplaces.trans (requestFull_places false)

theorem handleMissingUpdate_places {target : ℕ}
    (hfree : fullDatabaseKey m d ∉ d.backorders) :
    Places m link d (handleMissingUpdate m link target d) := by
  unfold handleMissingUpdate
  dsimp only
  split_ifs with hinvalid hold
  · exact .refl
  · exact requestFull_places false
  · exact orderMissingUpdates_places (by simpa using hinvalid) _ hfree

theorem applyEffect_places {dbUp : PZGDatabaseUpdate Msg} :
    Places m link d (applyEffect cb d dbUp) := .of_eq rfl rfl rfl

theorem replayUpdateLog_places {target : ℕ} (fuel : ℕ)
    (hfree : fullDatabaseKey m d ∉ d.backorders) :
    Places m link d (replayUpdateLog cb m link target fuel d) := by
  induction fuel generalizing d with
  | zero => exact .refl
  | succ n ih =>
      unfold replayUpdateLog
      split
      · cases hget : d.updateLog.get? (d.localDatabaseStateID + 1) with
        | none => exact handleMissingUpdate_places hfree
        | some dbUp =>
            dsimp only
            by_cases hcan : CanExecute cb d dbUp
            · rw [juniorExecuteDatabaseUpdate_of_canExecute hcan]
              exact .trans (.of_eq rfl rfl rfl) (ih hfree)
            · obtain ⟨herr, hfailed⟩ :=
                juniorExecuteDatabaseUpdate_of_not_canExecute hcan
              rw [if_neg (by simp [herr])]
              rcases hfailed with hsame | happlied
              · rw [hsame]
                exact requestFull_places true
              · rw [happlied]
                exact applyEffect_places.trans (requestFull_places true)
      · exact .refl

theorem advanceJuniorDatabase_places :
    Places m link d (advanceJuniorDatabase cb m link d) := by
  unfold advanceJuniorDatabase
  dsimp only
  split_ifs with hawaiting hnew
  · exact .refl
  · exact requestFull_places false
  · exact replayUpdateLog_places _
      (by simpa [isAwaitingFullDatabaseResendReply] using hawaiting)

theorem trimUpdateLog_places
    {mayRemove : PZGDatabaseState DB Msg → ℕ → Bool} {fuel : ℕ} :
    Places m link d (trimUpdateLog cb m mayRemove fuel d) := by
  obtain ⟨log, bytes, millis, oldest, -, heq⟩ :=
    trimUpdateLog_frame cb m mayRemove fuel d
  rw [heq]
  exact .of_eq rfl rfl rfl

theorem sendUnsentUpdates_places (walk : List (PZGDatabaseUpdate Msg)) :
    Places m link d (sendUnsentUpdates link walk d) := by
  induction walk generalizing d with
  | nil => exact .refl
  | cons dbUp newer ih =>
      unfold sendUnsentUpdates
      split
      · have hsend : Places m link d (sendUpdate link d dbUp) :=
          .of_eq rfl (requestsOf_append.trans (List.append_nil _)) rfl
        exact hsend.trans ih
      · exact ih

/-- A rescan places orders. -/
theorem rescanUpdateLogIfNecessary_places :
    Places m link d (rescanUpdateLogIfNecessary cb m link d) := by
  have hrescan : ∀ d : PZGDatabaseState DB Msg,
      Places m link d (rescanUpdateLog cb m link d) := by
    intro d
    unfold rescanUpdateLog
    split
    · unfold rescanUpdateLogAsSenior
      split
      · exact .refl
      · exact Places.trans (sendUnsentUpdates_places _) trimUpdateLog_places
    · unfold rescanUpdateLogAsJunior
      split
      · have hmark : Places m link d
            { d with firstUnsentUpdateID := d.localDatabaseStateID + 1 } :=
          .of_eq rfl rfl rfl
        exact Places.trans (hmark.trans advanceJuniorDatabase_places)
          trimUpdateLog_places
      · exact .refl
  unfold rescanUpdateLogIfNecessary
  split
  · have hmark : Places m link d { d with rescanLogPending := false } :=
      .of_eq rfl rfl rfl
    exact hmark.trans (hrescan _)
  · exact .refl

theorem handleDatabaseUpdateRequest_places {fromPeerID : ZGPeerID}
    {msg : DatabaseUpdateRequest Msg} {time : Timing} :
    Places m link d
      (handleDatabaseUpdateRequest cb m d fromPeerID msg time).2 := by
  have hcases : RequestStep cb m d
        (handleDatabaseUpdateRequest cb m d fromPeerID msg time) ∨
      ∃ dbUp, msg = .updateJuniorDatabase (some dbUp) ∧
        handleDatabaseUpdateRequest cb m d fromPeerID msg time =
          (.noError, addDatabaseUpdateToUpdateLog cb m d dbUp) :=
    handleDatabaseUpdateRequest_cases fromPeerID msg time
  rcases hcases with hstep | ⟨dbUp, -, heq⟩
  · generalize handleDatabaseUpdateRequest cb m d fromPeerID msg time = r
      at hstep
    cases hstep with
    | refused => exact .refl
    | completed =>
        refine .of_eq rfl ?_ rfl
        exact requestsOf_append.trans (List.append_nil _)
    | rolledBack => exact .of_eq rfl rfl rfl
  · obtain ⟨bytes, millis, oldest, hadd, -⟩ :=
      addDatabaseUpdateToUpdateLog_eq cb m d dbUp
    rw [heq, hadd]
    exact .of_eq rfl rfl rfl

theorem scheduleLogContentsRescan_places :
    Places m link d (scheduleLogContentsRescan m d) := by
  unfold scheduleLogContentsRescan
  split
  · exact .of_eq rfl rfl rfl
  · exact .refl

theorem seniorDatabaseStateInfoChanged_places {info : PZGDatabaseStateInfo} :
    Places m link d (seniorDatabaseStateInfoChanged m d info) := by
  unfold seniorDatabaseStateInfoChanged
  split
  · exact .trans (.of_eq rfl rfl rfl) scheduleLogContentsRescan_places
  · exact .refl

theorem verifyOrFixLocalDatabaseChecksum_places :
    Places m link d (verifyOrFixLocalDatabaseChecksum cb d) :=
  .of_eq rfl rfl rfl

/-- A result takes its key out of the table, and then places orders. -/
theorem backOrderResultReceived_places {ubok : PZGUpdateBackOrderKey}
    {opt : Option (PZGDatabaseUpdate Msg)} :
    Places m link (withoutBackOrder d ubok)
      (backOrderResultReceived cb m link d ubok opt) := by
  have hstep := backOrderResultReceived_step cb m link d ubok opt
  generalize backOrderResultReceived cb m link d ubok opt = r at hstep
  cases hstep with
  | ignored opt hnot =>
      refine .of_eq rfl rfl (List.filter_eq_self.mpr fun k hk => ?_).symm
      simpa using fun heq : k = ubok => hnot (heq ▸ hk)
  | dropped | fullMissing => exact .refl
  | replaced | replaceFailed | logged => exact .of_eq rfl rfl rfl
  | singleMissing => exact requestFull_places false

/-- A failure to send a single update makes the database order the whole
database, if anything. -/
theorem backOrderResultReceived_none (cb : Callbacks DB Msg) (m : Master)
    (link : Link) (d : PZGDatabaseState DB Msg) {ubok : PZGUpdateBackOrderKey}
    (hwhich : ubok.whichDatabase = d.whichDatabase)
    {requests : List (PZGUpdateBackOrderKey × Status)}
    (hrequests : requestsOf
      (backOrderResultReceived cb m link d ubok none).masterCalls =
        requestsOf d.masterCalls ++ requests) :
    requests = [] ∨ ¬ ubok.IsFull ∧ ∃ ret, requests = [(ubok.full, ret)] := by
  have hstep := backOrderResultReceived_step cb m link d ubok none
  generalize backOrderResultReceived cb m link d ubok none = r at *
  have hnone : ∀ {calls : List (MasterCall Msg)},
      requestsOf calls = requestsOf d.masterCalls →
      requestsOf calls = requestsOf d.masterCalls ++ requests →
      requests = [] := by
    intro calls h h'
    rw [h] at h'
    simpa using h'
  cases hstep with
  | ignored | dropped | fullMissing => exact .inl (hnone rfl hrequests)
  | singleMissing hmem htarget hjunior hsingle =>
      unfold requestFullDatabaseResendFromSeniorPeer
        requestBackOrderFromSeniorPeer at hrequests
      split at hrequests
      · exact .inl (hnone rfl hrequests)
      · dsimp only at hrequests
        rw [requestsOf_append] at hrequests
        rw [← List.append_cancel_left hrequests]
        refine .inr ⟨hsingle, _, congrArg (fun k => [(k, _)]) ?_⟩
        exact IsFull.eq_full (k := fullDatabaseKey m (withoutBackOrder d ubok))
          rfl htarget.symm hwhich.symm

end PZGDatabaseState

end ZgChoir
