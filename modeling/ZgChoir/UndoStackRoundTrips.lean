import ZgChoir.EditHistories
import ZgChoir.UndoStackSequences

/-!
# Undo and redo take the database back and forth

A client that works on its own puts all its updates into sequences, and between
them it undoes and redoes what it likes.  From its updates the log knows the
way from the database before a sequence to the database after it, and the way
back.  So the database, but for the stacks, is always what an editor would
have that remembers every state it has been in (`database_followsHistory`).
-/

namespace ZgChoir

open UndoRedo
open UndoStackMessageTreeDatabaseObject

variable {P : Type} {um : UndoStackMuscle P} {mount : Mount}
  {master : Master} {d d' : UndoStackState P} {s : CountedState P}
  {t t' before after : MessageTree P} {trees : ℕ → MessageTree P}
  {client : String} {key : UndoKey} {p : P} {first last n : ℕ}
  {fromPeerID : ZGPeerID} {userMsg : UndoStackMessage P} {time : Timing}

/-! ## What the log tells -/

section Model

variable (um : UndoStackMuscle P) (mount : Mount) (key : UndoKey)

/-- As far as the log goes back, it describes the transactions of a client
from `first` to `last`, each of which has led from one tree to the next. -/
def Recorded (d : UndoStackState P) (trees : ℕ → MessageTree P)
    (first last : ℕ) : Prop :=
  ∀ u ∈ d.updateLog.entries, first ≤ u.updateID → u.updateID ≤ last →
    ∃ payload, u.payload = some payload ∧
      Describes um.toMuscle mount key payload (trees u.updateID)
        (trees (u.updateID + 1))

/-- As far as the log goes back, it tells how a sequence has led from one tree
to another. -/
def Told (d : UndoStackState P) (p : P) (before after : MessageTree P) :
    Prop :=
  um.endDBID p ≤ d.localDatabaseStateID ∧ ∃ trees : ℕ → MessageTree P,
    SameOutside mount before (trees (um.startDBID p)) ∧
    SameOutside mount (trees (um.endDBID p + 1)) after ∧
    Recorded um mount key d trees (um.startDBID p) (um.endDBID p)

end Model

/-- A log goes on, and may go back less far. -/
structure LogGoesOn (d d' : UndoStackState P) : Prop where
  older : ∀ u ∈ d'.updateLog.entries, u.updateID ≤ d.localDatabaseStateID →
    u ∈ d.updateLog.entries
  le : d.localDatabaseStateID ≤ d'.localDatabaseStateID

theorem Recorded.goesOn (h : Recorded um mount key d trees first last)
    (hlast : last ≤ d.localDatabaseStateID) (hlog : LogGoesOn d d') :
    Recorded um mount key d' trees first last :=
  fun u hu hfrom hto => h u (hlog.older u hu (hto.trans hlast)) hfrom hto

theorem Told.goesOn (h : Told um mount key d p before after)
    (hlog : LogGoesOn d d') : Told um mount key d' p before after := by
  obtain ⟨hlast, trees, hbefore, hafter, hrecorded⟩ := h
  exact ⟨hlast.trans hlog.le, trees, hbefore, hafter,
    hrecorded.goesOn hlast hlog⟩

/-- The transactions from the last back to the first. -/
theorem chain_undo {view : LogView P}
    (h : ∀ k, first ≤ k → k < first + n → ∃ payload,
      view.getUpdatePayload k = some payload ∧
        Describes um.toMuscle mount key payload (trees k) (trees (k + 1))) :
    Chain um.toMuscle mount view false key (List.range' first n).reverse
      (trees (first + n)) (trees first) := by
  induction n with
  | zero => exact .nil (.refl _)
  | succ n ih =>
      obtain ⟨payload, hpayload, hdescribes⟩ :=
        h (first + n) (by omega) (by omega)
      rw [List.range'_concat, List.reverse_append, Nat.one_mul]
      exact .cons hpayload hdescribes.undoKey hdescribes.undo
        (ih fun k hfrom hto => h k hfrom (by omega))

/-- The transactions from the first on to the last. -/
theorem chain_redo {view : LogView P}
    (h : ∀ k, first ≤ k → k < first + n → ∃ payload,
      view.getUpdatePayload k = some payload ∧
        Describes um.toMuscle mount key payload (trees k) (trees (k + 1))) :
    Chain um.toMuscle mount view true key (List.range' first n)
      (trees first) (trees (first + n)) := by
  induction n generalizing first with
  | zero => exact .nil (.refl _)
  | succ n ih =>
      obtain ⟨payload, hpayload, hdescribes⟩ := h first (by omega) (by omega)
      have hrest : Chain um.toMuscle mount view true key
          (List.range' (first + 1) n) (trees (first + 1))
            (trees (first + 1 + n)) :=
        ih fun k hfrom hto => h k (by omega) (by omega)
      rw [Nat.add_assoc, Nat.add_comm 1 n] at hrest
      exact .cons hpayload hdescribes.undoKey hdescribes.redo hrest

/-- While the log has all transactions of a sequence, it can be undone and
redone. -/
theorem Told.chain (h : Told um mount key d p before after) :
    ∃ before' after', SameOutside mount before before' ∧
      SameOutside mount after' after ∧
      (um.startDBID p ≤ um.endDBID p →
        (transactionsOf (um.startDBID p) (um.endDBID p)).all
          d.view.updateLogContainsUpdate = true →
        Chain um.toMuscle mount d.view false key
            (transactionsOf (um.startDBID p) (um.endDBID p)) after' before' ∧
          Chain um.toMuscle mount d.view true key
            (transactionsOf (um.startDBID p) (um.endDBID p)).reverse before'
              after') := by
  obtain ⟨hlast, trees, hbefore, hafter, hrecorded⟩ := h
  refine ⟨trees (um.startDBID p), trees (um.endDBID p + 1), hbefore, hafter,
    fun hle hall => ?_⟩
  have hlogged : ∀ k, um.startDBID p ≤ k →
      k < um.startDBID p + (um.endDBID p + 1 - um.startDBID p) →
      ∃ payload, d.view.getUpdatePayload k = some payload ∧
        Describes um.toMuscle mount key payload (trees k) (trees (k + 1)) := by
    intro k hfrom hto
    have hkey := List.all_eq_true.mp hall k (by
      rw [transactionsOf, List.mem_reverse, List.mem_range'_1]
      exact ⟨hfrom, hto⟩)
    have hnot : k ≠ d.localDatabaseStateID + 1 := by omega
    simp only [UndoStackState.view, hnot, decide_false, Bool.false_or] at hkey
    obtain ⟨u, hu, rfl⟩ := OrderedTable.containsKey_iff.mp hkey
    obtain ⟨payload, hpayload, hdescribes⟩ :=
      hrecorded u hu hfrom (by omega)
    refine ⟨payload, ?_, hdescribes⟩
    have hget : d.updateLog.get? u.updateID = some u :=
      OrderedTable.get?_eq_some.mpr ⟨hu, rfl⟩
    simp only [UndoStackState.view, hnot, if_false, hget, Option.bind_some,
      hpayload]
  have hend : um.startDBID p + (um.endDBID p + 1 - um.startDBID p) =
      um.endDBID p + 1 := by omega
  constructor
  · have hchain := chain_undo hlogged
    rwa [hend] at hchain
  · have hchain := chain_redo hlogged
    rw [hend] at hchain
    rwa [transactionsOf, List.reverse_reverse]

/-! ## One update -/

/-- An update that is permitted and succeeds. -/
structure Carried (um : UndoStackMuscle P) (mount : Mount) (master : Master)
    (s : CountedState P) (fromPeerID : ZGPeerID)
    (userMsg : UndoStackMessage P) (time : Timing) : Prop where
  permitted : StackEvent.Permitted um mount s (.update fromPeerID userMsg time)
  ok : (s.state.handleDatabaseUpdateRequest
    (undoStackCallbacks um mount true s.state.view) master fromPeerID
    (.updateSeniorDatabase (some userMsg)) time).1.isOK = true

/-- An update of a client whose changes can be undone. -/
structure Made (um : UndoStackMuscle P) (mount : Mount) (master : Master)
    (key : UndoKey) (s : CountedState P) (fromPeerID : ZGPeerID)
    (userMsg : UndoStackMessage P) (time : Timing) : Prop extends
    Carried um mount master s fromPeerID userMsg time where
  undoKey : userMsg.undoKey = key
  undoable : ∀ e ∈ (seniorMessageTreeUpdate um mount (.plain true)
    s.state.view userMsg s.state.database.tree).effects,
      Undoable um.toMuscle mount e

/-- The stacks are kept, and no update has left anything behind. -/
structure CleanStacks (um : UndoStackMuscle P) (mount : Mount)
    (master : Master) (s : CountedState P) : Prop where
  invariant : StacksInvariant um mount master s
  clean : StartsClean s.state.database
  indexed : s.state.database.tree.Indexed

/-- What is known of an update that succeeds. -/
structure Succeeds (um : UndoStackMuscle P) (mount : Mount) (master : Master)
    (s s' : CountedState P) (userMsg : UndoStackMessage P) : Prop where
  clean : CleanStacks um mount master s'
  log : LogGoesOn s.state s'.state
  local_ : s'.state.localDatabaseStateID = s.state.localDatabaseStateID + 1
  ok : (seniorMessageTreeUpdate um mount (.plain true) s.state.view userMsg
    s.state.database.tree).status.isOK = true
  tree : s'.state.database.tree = (seniorMessageTreeUpdate um mount
    (.plain true) s.state.view userMsg s.state.database.tree).tree

/-- A successful update is in the log afterwards, with the pair that it has
brought about. -/
theorem UndoStackState.handle_logged (um : UndoStackMuscle P) (mount : Mount)
    (master : Master) (d : UndoStackState P) (fromPeerID : ZGPeerID)
    (userMsg : UndoStackMessage P) (time : Timing)
    (hok : (seniorMessageTreeUpdate um mount (.plain true) d.view userMsg
      d.database.tree).status.isOK = true) :
    ∃ u pair, (d.handle um mount master ⟨fromPeerID,
        .updateSeniorDatabase (some userMsg), time⟩).updateLog =
          d.updateLog.put u ∧
      u.updateID = d.localDatabaseStateID + 1 ∧ u.payload = some pair ∧
      (seniorUpdate um mount d.view d.database userMsg).2 = some pair := by
  obtain ⟨pair, hpair⟩ : ∃ pair,
      (seniorUpdate um mount d.view d.database userMsg).2 = some pair := by
    unfold seniorUpdate
    dsimp only
    rw [if_pos hok]
    exact ⟨_, rfl⟩
  have hcall : (PZGDatabaseState.seniorUpdate
      (undoStackCallbacks um mount true d.view) userMsg d.database
        d.dbChecksum).2.2 = .ok (some pair) := by
    simp [PZGDatabaseState.seniorUpdate, undoStackCallbacks, hpair]
  obtain ⟨bytes, millis, oldest, hstep⟩ :=
    PZGDatabaseState.executeSeniorUpdate_of_ok
      (undoStackCallbacks um mount true d.view) master d fromPeerID
      .update time hcall
  have hafter : d.handle um mount master ⟨fromPeerID,
      .updateSeniorDatabase (some userMsg), time⟩ =
        (PZGDatabaseState.executeSeniorUpdate
          (undoStackCallbacks um mount true d.view) master d fromPeerID
          .update (PZGDatabaseState.seniorUpdate
            (undoStackCallbacks um mount true d.view) userMsg) time).2 := rfl
  rw [hafter, hstep]
  exact ⟨_, pair, rfl, rfl, rfl, hpair⟩

/-- **An update that succeeds.** -/
theorem Carried.succeeds (hum : um.Lawful)
    (hmount : mount.ForStacks um.toMuscle)
    (hsenior : master.iAmTheSeniorPeer = true)
    (hs : CleanStacks um mount master s)
    (h : Carried um mount master s fromPeerID userMsg time) :
    Succeeds um mount master s
      (stackStep um mount master s (.update fromPeerID userMsg time))
      userMsg := by
  obtain ⟨htree, hstatus, -, hlocal⟩ := UndoStackState.handle_update um mount
    master s.state fromPeerID userMsg time
  have hok := h.ok
  rw [hstatus] at hok
  obtain ⟨hlocal, -⟩ := hlocal hok
  obtain ⟨u, pair, hlog, hid, -⟩ := UndoStackState.handle_logged um mount
    master s.state fromPeerID userMsg time hok
  refine ⟨⟨hs.invariant.update hum hmount hsenior h.permitted, ?_, ?_⟩,
    ⟨fun v hv hold => ?_, hlocal.symm ▸ Nat.le_succ _⟩, hlocal, hok, htree⟩
  · rw [stackStep, UndoStackState.handle_database]
    exact seniorUpdate_startsClean hs.clean
  · change MessageTree.Indexed (UndoStackState.handle um mount master s.state
      ⟨fromPeerID, .updateSeniorDatabase (some userMsg), time⟩).database.tree
    rw [UndoStackState.handle, htree]
    exact TreeChange.indexed_applyAll hs.indexed (Execution.valid _)
  · change v ∈ (UndoStackState.handle um mount master s.state
      ⟨fromPeerID, .updateSeniorDatabase (some userMsg),
        time⟩).updateLog.entries at hv
    rw [hlog] at hv
    rcases OrderedTable.mem_put.mp hv with rfl | ⟨hv, -⟩
    · rw [hid] at hold
      exact absurd hold (Nat.not_succ_le_self _)
    · exact hv

/-- **What the log says of it.** -/
theorem Made.recorded (hum : um.Lawful) (hmount : mount.ForStacks um.toMuscle)
    (hsenior : master.iAmTheSeniorPeer = true)
    (hs : CleanStacks um mount master s)
    (h : Made um mount master key s fromPeerID userMsg time)
    (htrees : trees (s.state.localDatabaseStateID + 1) =
      s.state.database.tree)
    (hrecorded : Recorded um mount key s.state trees first
      s.state.localDatabaseStateID) :
    let s' := stackStep um mount master s (.update fromPeerID userMsg time)
    ∃ trees' : ℕ → MessageTree P, (∀ k ≤ s.state.localDatabaseStateID + 1,
        trees' k = trees k) ∧
      trees' (s'.state.localDatabaseStateID + 1) = s'.state.database.tree ∧
      Recorded um mount key s'.state trees' first
        s'.state.localDatabaseStateID := by
  intro s'
  have hsucceeds : Succeeds um mount master s s' userMsg :=
    h.toCarried.succeeds hum hmount hsenior hs
  obtain ⟨u, pair, hlog, hid, hpayload, hpair⟩ :=
    UndoStackState.handle_logged um mount master s.state fromPeerID userMsg
      time hsucceeds.ok
  have hroot : mount.root ∈ s.state.database.tree.nodes :=
    MessageTree.mem_of_isPrefix
      (hs.invariant.kept.roots "undo" (by simp)) (List.prefix_append _ _)
  have hdescribes := describes_update hum.lawful hmount.root_ne hs.indexed
    hroot (Execution.valid _) h.undoable key
  rw [← h.undoKey, ← builtFromOwnChanges_of_startsClean hs.clean userMsg pair
    hpair] at hdescribes
  refine ⟨fun k => if k = s'.state.localDatabaseStateID + 1 then
    s'.state.database.tree else trees k, fun k hk => ?_, if_pos rfl,
    fun v hv hfrom hto => ?_⟩
  · have hne : k ≠ s'.state.localDatabaseStateID + 1 := by
      rw [hsucceeds.local_]
      omega
    exact if_neg hne
  · have hv : v ∈ (UndoStackState.handle um mount master s.state ⟨fromPeerID,
        .updateSeniorDatabase (some userMsg), time⟩).updateLog.entries := hv
    rw [hlog] at hv
    rcases OrderedTable.mem_put.mp hv with rfl | ⟨hv, -⟩
    · refine ⟨pair, hpayload, ?_⟩
      have hbefore : v.updateID ≠ s'.state.localDatabaseStateID + 1 := by
        rw [hid, hsucceeds.local_]
        omega
      have hafter : v.updateID + 1 = s'.state.localDatabaseStateID + 1 := by
        rw [hid, hsucceeds.local_]
      dsimp only
      rw [if_neg hbefore, if_pos hafter, hid, htrees, hsucceeds.tree,
        ← h.undoKey]
      exact hdescribes
    · have hold := hs.invariant.servable.nothingAhead hsenior v hv
      obtain ⟨payload, hpayload, hdescribes⟩ := hrecorded v hv hfrom hold
      refine ⟨payload, hpayload, ?_⟩
      have hbefore : v.updateID ≠ s'.state.localDatabaseStateID + 1 := by
        rw [hsucceeds.local_]
        omega
      have hafter : v.updateID + 1 ≠ s'.state.localDatabaseStateID + 1 := by
        rw [hsucceeds.local_]
        omega
      dsimp only
      rwa [if_neg hbefore, if_neg hafter]

/-- A rescan, after which the log may go back less far. -/
theorem rescan_frame (um : UndoStackMuscle P) (mount : Mount)
    (hsenior : master.iAmTheSeniorPeer = true) (s : CountedState P)
    (link : Link) :
    let s' := stackStep um mount master s (.rescan link)
    s'.state.database = s.state.database ∧
      s'.state.localDatabaseStateID = s.state.localDatabaseStateID ∧
      LogGoesOn s.state s'.state := by
  intro s'
  have hs' : s'.state = s.state.rescanUpdateLogIfNecessary
      (undoStackCallbacks um mount true s.state.view) master link := rfl
  rw [hs']
  unfold PZGDatabaseState.rescanUpdateLogIfNecessary
  split
  · have hmoves := PZGDatabaseState.rescanUpdateLog_moves
      (undoStackCallbacks um mount true s.state.view) master link
      { s.state with rescanLogPending := false }
    obtain ⟨⟨hlocal, hdatabase, -⟩, -⟩ := hmoves.database_of_senior hsenior
    refine ⟨hdatabase, hlocal, fun u hu _ => ?_, hlocal.ge⟩
    refine PZGDatabaseState.preserved_of_moves
      (P := fun d' => ∀ u ∈ d'.updateLog.entries,
        u ∈ s.state.updateLog.entries) hmoves (fun _ hu => hu)
      (fun a b hab hmove => ?_) u hu
    cases hmove with
    | mark hjunior | execute _ hjunior _ _ _ | executeFails _ hjunior _ _ _ _ _
    | order _ hjunior _ _ => simp [hsenior] at hjunior
    | send dbUp _ _ _ => exact hab
    | trim first _ =>
        obtain ⟨_, _, _, hremove, -⟩ :=
          PZGDatabaseState.removeDatabaseUpdateFromUpdateLog_eq
            (undoStackCallbacks um mount true s.state.view) master a first
        rw [hremove]
        exact fun u hu => hab u (OrderedTable.mem_remove.mp hu).1
  · exact ⟨rfl, rfl, fun u hu _ => hu, le_rfl⟩

theorem CleanStacks.rescan (hum : um.Lawful)
    (hmount : mount.ForStacks um.toMuscle)
    (hsenior : master.iAmTheSeniorPeer = true)
    (hs : CleanStacks um mount master s) (link : Link) :
    CleanStacks um mount master
      (stackStep um mount master s (.rescan link)) := by
  obtain ⟨hdatabase, -⟩ := rescan_frame um mount hsenior s link
  refine ⟨hs.invariant.step hum hmount hsenior trivial, ?_, ?_⟩
  · rw [hdatabase]
    exact hs.clean
  · rw [hdatabase]
    exact hs.indexed

/-! ## Actions of a client -/

/-- By whom and when an update is requested. -/
structure Origin where
  fromPeerID : ZGPeerID
  time : Timing

/-- What a client does, one thing after another: it edits the database, in a
sequence of updates, or it undoes or redoes a sequence.  Meanwhile the log is
looked through now and then. -/
inductive EditAction (P : Type) where
  | edit (start : Origin) (label : Option String) (work : List (StackEvent P))
      (finish : Origin) (endLabel : Option String)
  | undo (origin : Origin) (optOpTag : String)
  | redo (origin : Origin) (optOpTag : String)
  | rescan (link : Link)

section Model

variable (um : UndoStackMuscle P) (mount : Mount) (master : Master)
  (key : UndoKey)

def Origin.request (origin : Origin) (msg : UndoStackMessage P) :
    StackEvent P :=
  .update origin.fromPeerID msg origin.time

def EditAction.events : EditAction P → List (StackEvent P)
  | .edit start label work finish endLabel =>
      start.request (.beginSequence key label) ::
        (work ++ [finish.request (.endSequence key endLabel)])
  | .undo origin optOpTag => [origin.request (.undo key optOpTag)]
  | .redo origin optOpTag => [origin.request (.redo key optOpTag)]
  | .rescan link => [.rescan link]

/-- **The condition** on an event in a sequence: an update of the client that
can be undone, and is nested if it is a sequence itself. -/
def StackEvent.Works (s : CountedState P) : StackEvent P → Prop
  | .update fromPeerID userMsg time =>
      Made um mount master key s fromPeerID userMsg time ∧
      Nested um mount key (.plain true) s.state.view userMsg
        s.state.database.tree s.unmatched
  | .reset .. => False
  | .rescan _ => True

/-- **The condition** on an action: its updates succeed, those of an edit can
be undone, and at the end of the edit the sequence ends. -/
def EditAction.Succeeds (s : CountedState P) : EditAction P → Prop
  | .edit start label work finish endLabel =>
      let begun := stackStep um mount master s
        (start.request (.beginSequence key label))
      let worked := Runs.run (stackStep um mount master) begun work
      Made um mount master key s start.fromPeerID (.beginSequence key label)
        start.time ∧
      Runs.StepsMeet (stackStep um mount master)
        (StackEvent.Works um mount master key) begun work ∧
      worked.unmatched (clientNode key) = 1 ∧
      Made um mount master key worked finish.fromPeerID
        (.endSequence key endLabel) finish.time
  | .undo origin optOpTag => Carried um mount master s origin.fromPeerID
      (.undo key optOpTag) origin.time
  | .redo origin optOpTag => Carried um mount master s origin.fromPeerID
      (.redo key optOpTag) origin.time
  | .rescan _ => True

/-- The peer, and the states that an editor remembers. -/
structure EditedState (P : Type) where
  peer : CountedState P
  editing : Editing (MessageTree P)

/-- An action, as the peer and as an editor sees it.  All that the editor is
told of an edit is what the database is after it. -/
def editStep (s : EditedState P) (a : EditAction P) : EditedState P :=
  let peer := Runs.run (stackStep um mount master) s.peer (a.events key)
  { peer
    editing := match a with
      | .edit .. => s.editing.edit peer.state.database.tree
      | .undo .. => s.editing.undo.getD s.editing
      | .redo .. => s.editing.redo.getD s.editing
      | .rescan _ => s.editing }

/-- **The invariant** between two actions. -/
structure FollowsHistory (client : String) (s : EditedState P) : Prop where
  clean : CleanStacks um mount master s.peer
  idle : s.peer.unmatched [client] = 0
  here : SameOutside mount s.editing.present s.peer.state.database.tree
  remembers : Remembers (Told um mount key s.peer.state)
    (um.sequencesAt s.peer.state.database.tree
      (mount.stackRoot "undo" ++ [client]))
    (um.sequencesAt s.peer.state.database.tree
      (mount.stackRoot "redo" ++ [client])) s.editing

/-- The invariant in the middle of a sequence that has begun with the
transaction `first`. -/
structure MidSequence (client : String) (first : ℕ)
    (h : Editing (MessageTree P)) (s : CountedState P) : Prop where
  clean : CleanStacks um mount master s
  begun : s.unmatched [client] ≠ 0
  opened : ∃ older p, um.sequencesAt s.state.database.tree
      (mount.stackRoot "undo" ++ [client]) = older ++ [p] ∧
    um.what p ≠ 0 ∧ um.startDBID p = first ∧
    Remembers (Told um mount key s.state) older [] h
  noRedo : um.sequencesAt s.state.database.tree
    (mount.stackRoot "redo" ++ [client]) = []
  recorded : ∃ trees : ℕ → MessageTree P,
    SameOutside mount h.present (trees first) ∧
    trees (s.state.localDatabaseStateID + 1) = s.state.database.tree ∧
    Recorded um mount key s.state trees first s.state.localDatabaseStateID
  started : first ≤ s.state.localDatabaseStateID

end Model

/-! ### Steps -/

/-- The view of an update. -/
theorem CleanStacks.viewed (hs : CleanStacks um mount master s)
    (hpermitted : StackEvent.Permitted um mount s
      (.update fromPeerID userMsg time)) :
    s.state.view.Gapless ∧
      StacksKept um mount s.state.view s.state.database.tree s.unmatched :=
  ⟨UndoStackState.view_gapless hs.invariant.servable,
    hs.invariant.kept.ofView le_rfl hpermitted.1⟩

/-- The first part of an update that succeeds. -/
theorem Succeeds.aux_isOK {s' : CountedState P}
    (h : Succeeds um mount master s s' userMsg) :
    (seniorMessageTreeUpdateAux um mount (.plain true) s.state.view userMsg
      s.state.database.tree).status.isOK = true := by
  by_contra hfail
  have hok := h.ok
  unfold seniorMessageTreeUpdate at hok
  rw [Execution.andThen_of_not_isOK (Bool.of_not_eq_true hfail)] at hok
  exact hfail hok

theorem Succeeds.tree_eq {s' : CountedState P}
    (h : Succeeds um mount master s s' userMsg) :
    s'.state.database.tree = (tidyUndoStack um mount s.state.view
      (CommandContext.plain true).opTag (seniorMessageTreeUpdateAux um mount
        (.plain true) s.state.view userMsg s.state.database.tree).tree).tree :=
  h.tree.trans (Execution.andThen_tree_of_isOK h.aux_isOK)

/-- What the stacks are before the clean-up, they are after it. -/
theorem Succeeds.stacked {s' : CountedState P} {undo redo : List P}
    {unmatched : UndoKey → ℕ} (h : Succeeds um mount master s s' userMsg)
    (hum : um.Lawful) (hmount : mount.ForStacks um.toMuscle)
    (hgap : s.state.view.Gapless)
    (hkept : StacksKept um mount s.state.view (seniorMessageTreeUpdateAux um
      mount (.plain true) s.state.view userMsg s.state.database.tree).tree
        unmatched)
    (hstacked : Stacked um mount s.state.view client undo redo
      (seniorMessageTreeUpdateAux um mount (.plain true) s.state.view userMsg
        s.state.database.tree).tree) :
    Stacked um mount s.state.view client undo redo s'.state.database.tree := by
  rw [h.tree_eq]
  exact hstacked.tidied hum hgap hmount hkept _

/-- **A sequence begins.** -/
theorem FollowsHistory.begin (hum : um.Lawful)
    (hmount : mount.ForStacks um.toMuscle)
    (hsenior : master.iAmTheSeniorPeer = true)
    (hkey : clientNode key = [client]) {s : EditedState P}
    {label : Option String}
    (h : FollowsHistory um mount master key client s)
    (hmade : Made um mount master key s.peer fromPeerID
      (.beginSequence key label) time) :
    MidSequence um mount master key client
      (s.peer.state.localDatabaseStateID + 1) s.editing
      (stackStep um mount master s.peer
        (.update fromPeerID (.beginSequence key label) time)) := by
  obtain ⟨hgap, hkept⟩ := h.clean.viewed hmade.permitted
  obtain ⟨-, hallowed⟩ := hmade.permitted
  have haux := seniorMessageTreeUpdateAux_kept hum hgap hmount _ _ _ hkept
    hallowed
  obtain ⟨⟨client', hkey', hliteral⟩, -⟩ := hallowed
  obtain rfl : client = client' := by simpa using hkey.symm.trans hkey'
  have hsucceeds := hmade.toCarried.succeeds hum hmount hsenior h.clean
  have hok : (beginSequence um mount (.plain true) s.peer.state.view key label
      s.peer.state.database.tree).status.isOK = true := hsucceeds.aux_isOK
  have hstacked := hsucceeds.stacked hum hmount hgap haux
    (beginSequence_stacked hum hmount hkey hliteral hkept h.idle
      (.of_eq rfl rfl) hok)
  obtain ⟨hnew, hstart, -⟩ := hum.newSequence label
    (s.peer.state.view.currentDatabaseStateID + 1)
  have hheld : s.peer.state.view.Holds um (um.newSequence label
      (s.peer.state.view.currentDatabaseStateID + 1)) := by
    rw [LogView.Holds, hstart]
    exact hgap.current
  obtain ⟨older, hsuffix, hundo⟩ := hstacked.top hheld
  have hnone : Recorded um mount key s.peer.state
      (fun _ => s.peer.state.database.tree)
      (s.peer.state.localDatabaseStateID + 1)
      s.peer.state.localDatabaseStateID :=
    fun u _ hfrom hto => absurd hto (Nat.not_le.mpr hfrom)
  obtain ⟨trees, hbefore, hafter, hrecorded⟩ := hmade.recorded hum hmount
    hsenior h.clean rfl hnone
  refine ⟨hsucceeds.clean, ?_, ⟨older, _, hundo, by rw [hnew]; decide, hstart,
    ?_⟩, hstacked.redo, ⟨trees, ?_, hafter, hrecorded⟩, hsucceeds.local_.ge⟩
  · simp only [stackStep, unmatchedAfter, hkey]
    rw [if_pos hok, Function.update_self]
    exact Nat.succ_ne_zero _
  · exact ((h.remembers.forget hsuffix).clear).mono fun _ _ _ htold =>
      htold.goesOn hsucceeds.log
  · rw [hbefore _ le_rfl]
    exact h.here

/-- **An event in a sequence.** -/
theorem MidSequence.step (hum : um.Lawful)
    (hmount : mount.ForStacks um.toMuscle)
    (hsenior : master.iAmTheSeniorPeer = true)
    (hkey : clientNode key = [client]) {h : Editing (MessageTree P)}
    {e : StackEvent P} (hs : MidSequence um mount master key client first h s)
    (hworks : e.Works um mount master key s) :
    MidSequence um mount master key client first h
      (stackStep um mount master s e) := by
  obtain ⟨older, p, hundo, hopen, hstart, hremembers⟩ := hs.opened
  obtain ⟨trees, hpresent, hhere, hrecorded⟩ := hs.recorded
  cases e with
  | reset => exact hworks.elim
  | rescan link =>
      obtain ⟨hdatabase, hlocal, hlog⟩ := rescan_frame um mount hsenior s link
      refine ⟨hs.clean.rescan hum hmount hsenior link, hs.begun,
        ⟨older, p, ?_, hopen, hstart, ?_⟩, ?_, ⟨trees, hpresent, ?_, ?_⟩, ?_⟩
      · rw [hdatabase]
        exact hundo
      · exact hremembers.mono fun _ _ _ htold => htold.goesOn hlog
      · rw [hdatabase]
        exact hs.noRedo
      · rw [hlocal, hdatabase]
        exact hhere
      · rw [hlocal]
        exact hrecorded.goesOn le_rfl hlog
      · rw [hlocal]
        exact hs.started
  | update fromPeerID userMsg time =>
      obtain ⟨hmade, hnested⟩ := hworks
      obtain ⟨hgap, hkept⟩ := hs.clean.viewed hmade.permitted
      obtain ⟨hopenHeld, hallowed⟩ := hmade.permitted
      have haux := seniorMessageTreeUpdateAux_kept hum hgap hmount _ _ _ hkept
        hallowed
      have hsucceeds := hmade.toCarried.succeeds hum hmount hsenior hs.clean
      obtain ⟨hstacked, hbegun⟩ := seniorMessageTreeUpdateAux_nested hum hgap
        hmount hkey userMsg _ _ hkept hallowed hnested hs.begun
        (.of_eq hundo hs.noRedo)
      have hstacked' := hsucceeds.stacked hum hmount hgap haux hstacked
      obtain ⟨older', hsuffix, hundo'⟩ := hstacked'.top
        (hopenHeld client p (by rw [hundo]; simp) hopen)
      obtain ⟨trees', hsame, hhere', hrecorded'⟩ := hmade.recorded hum hmount
        hsenior hs.clean hhere hrecorded
      refine ⟨hsucceeds.clean, hbegun, ⟨older', p, hundo', hopen, hstart, ?_⟩,
        hstacked'.redo, ⟨trees', ?_, hhere', hrecorded'⟩,
        hs.started.trans hsucceeds.log.le⟩
      · exact (hremembers.forget hsuffix).mono fun _ _ _ htold =>
          htold.goesOn hsucceeds.log
      · rw [hsame first (hs.started.trans (Nat.le_succ _))]
        exact hpresent

/-- **The sequence ends.** -/
theorem MidSequence.finish (hum : um.Lawful)
    (hmount : mount.ForStacks um.toMuscle)
    (hsenior : master.iAmTheSeniorPeer = true)
    (hkey : clientNode key = [client]) {h : Editing (MessageTree P)}
    {label : Option String}
    (hs : MidSequence um mount master key client first h s)
    (hone : s.unmatched (clientNode key) = 1)
    (hmade : Made um mount master key s fromPeerID (.endSequence key label)
      time) :
    let s' := stackStep um mount master s
      (.update fromPeerID (.endSequence key label) time)
    FollowsHistory um mount master key client
      ⟨s', h.edit s'.state.database.tree⟩ := by
  intro s'
  obtain ⟨older, p, hundo, hopen, hstart, hremembers⟩ := hs.opened
  obtain ⟨trees, hpresent, hhere, hrecorded⟩ := hs.recorded
  obtain ⟨hgap, hkept⟩ := hs.clean.viewed hmade.permitted
  obtain ⟨hopenHeld, hallowed⟩ := hmade.permitted
  have haux := seniorMessageTreeUpdateAux_kept hum hgap hmount _ _ _ hkept
    hallowed
  obtain ⟨client', hkey', hliteral⟩ := hallowed
  obtain rfl : client = client' := by simpa using hkey.symm.trans hkey'
  have hsucceeds : Succeeds um mount master s s' _ :=
    hmade.toCarried.succeeds hum hmount hsenior hs.clean
  have hok : (endSequence um mount (.plain true) s.state.view key label
      s.state.database.tree).status.isOK = true := hsucceeds.aux_isOK
  rw [hkey] at hone
  obtain ⟨closed, -, hfirst, hlast, hstacked⟩ := endSequence_stacked hum hmount
    hkey hliteral hkept hone hundo hs.noRedo
  have hstacked' := hsucceeds.stacked hum hmount hgap haux hstacked
  have hheld : s.state.view.Holds um closed := by
    rw [LogView.Holds, hfirst]
    exact hopenHeld client p (by rw [hundo]; simp) hopen
  obtain ⟨older', hsuffix, hundo'⟩ := hstacked'.top hheld
  obtain ⟨trees', hsame, hhere', hrecorded'⟩ := hmade.recorded hum hmount
    hsenior hs.clean hhere hrecorded
  have hend : um.endDBID closed = s'.state.localDatabaseStateID :=
    hlast.trans hsucceeds.local_.symm
  refine ⟨hsucceeds.clean, ?_, .refl _, ?_⟩
  · simp only [s', stackStep, unmatchedAfter, hkey]
    rw [if_pos hok, Function.update_self, hone]
  · rw [hundo', hstacked'.redo]
    refine ((hremembers.forget hsuffix).mono fun _ _ _ htold =>
      htold.goesOn hsucceeds.log).edit ⟨hend.le, trees', ?_, ?_, ?_⟩
    · rw [hfirst, hstart, hsame first (hs.started.trans (Nat.le_succ _))]
      exact hpresent
    · rw [hend, hhere']
      exact .refl _
    · rw [hend, hfirst, hstart]
      exact hrecorded'

/-- Around the stacks, the clean-up after an update does nothing. -/
theorem Succeeds.outside {s' : CountedState P}
    (h : Succeeds um mount master s s' userMsg) (hum : um.Lawful)
    (hmount : mount.ForStacks um.toMuscle) :
    SameOutside mount (seniorMessageTreeUpdateAux um mount (.plain true)
      s.state.view userMsg s.state.database.tree).tree
        s'.state.database.tree := by
  rw [h.tree_eq]
  exact tidyUndoStack_outside hum hmount _ _

/-- **An undo.** -/
theorem FollowsHistory.undo (hum : um.Lawful)
    (hmount : mount.ForStacks um.toMuscle)
    (hsenior : master.iAmTheSeniorPeer = true)
    (hkey : clientNode key = [client]) {s : EditedState P} {optOpTag : String}
    (h : FollowsHistory um mount master key client s)
    (hcarried : Carried um mount master s.peer fromPeerID (.undo key optOpTag)
      time) :
    FollowsHistory um mount master key client
      ⟨stackStep um mount master s.peer
        (.update fromPeerID (.undo key optOpTag) time),
        s.editing.undo.getD s.editing⟩ := by
  obtain ⟨hgap, hkept⟩ := h.clean.viewed hcarried.permitted
  obtain ⟨-, hallowed⟩ := hcarried.permitted
  have haux := seniorMessageTreeUpdateAux_kept hum hgap hmount _ _ _ hkept
    hallowed
  obtain ⟨⟨client', hkey', hliteral⟩, -⟩ := hallowed
  obtain rfl : client = client' := by simpa using hkey.symm.trans hkey'
  have hsucceeds := hcarried.succeeds hum hmount hsenior h.clean
  have hok : (undoOrRedo um mount (.plain true) s.peer.state.view false key
      optOpTag s.peer.state.database.tree).status.isOK = true :=
    hsucceeds.aux_isOK
  obtain ⟨older, p, hundo⟩ := undoOrRedo_top hum hmount hkey hliteral hkept
    "undo" rfl hok
  have hremembers := h.remembers
  rw [hundo] at hremembers
  obtain ⟨editing, hediting, htold, hremembers⟩ := hremembers.undo
  obtain ⟨before, after, hbefore, hafter, hchain⟩ := htold.chain
  obtain ⟨hgoal, -, t₁, older₁, hstacked₁, htop₁, hsrc, hdest⟩ :=
    undoOrRedo_moves hum hgap hmount hkey hliteral hkept "undo" "redo" rfl
      rfl hundo (.of_eq hundo rfl) (hafter.trans h.here)
      (fun hle hall => (hchain hle hall).1) hok
  obtain ⟨⟨gone, hgone, hnot⟩, hredo₁⟩ := hstacked₁
  rw [htop₁, ← List.append_assoc] at hgone
  obtain ⟨hgone, -⟩ := List.append_inj' hgone rfl
  rw [hredo₁] at hdest
  have hstacked := hsucceeds.stacked hum hmount hgap haux
    ⟨⟨gone, hgone.trans (by rw [← hsrc]; rfl), hnot⟩, hdest⟩
  obtain ⟨⟨gone', hundo', -⟩, hredo'⟩ := hstacked
  rw [hediting, Option.getD_some]
  refine ⟨hsucceeds.clean, h.idle, ?_, ?_⟩
  · exact hbefore.trans (hgoal.trans (hsucceeds.outside hum hmount))
  · rw [hredo']
    exact (hremembers.forget ⟨gone', hundo'.symm⟩).mono fun _ _ _ htold =>
      htold.goesOn hsucceeds.log

/-- **A redo.** -/
theorem FollowsHistory.redo (hum : um.Lawful)
    (hmount : mount.ForStacks um.toMuscle)
    (hsenior : master.iAmTheSeniorPeer = true)
    (hkey : clientNode key = [client]) {s : EditedState P} {optOpTag : String}
    (h : FollowsHistory um mount master key client s)
    (hcarried : Carried um mount master s.peer fromPeerID (.redo key optOpTag)
      time) :
    FollowsHistory um mount master key client
      ⟨stackStep um mount master s.peer
        (.update fromPeerID (.redo key optOpTag) time),
        s.editing.redo.getD s.editing⟩ := by
  obtain ⟨hgap, hkept⟩ := h.clean.viewed hcarried.permitted
  obtain ⟨-, hallowed⟩ := hcarried.permitted
  have haux := seniorMessageTreeUpdateAux_kept hum hgap hmount _ _ _ hkept
    hallowed
  obtain ⟨⟨client', hkey', hliteral⟩, -⟩ := hallowed
  obtain rfl : client = client' := by simpa using hkey.symm.trans hkey'
  have hsucceeds := hcarried.succeeds hum hmount hsenior h.clean
  have hok : (undoOrRedo um mount (.plain true) s.peer.state.view true key
      optOpTag s.peer.state.database.tree).status.isOK = true :=
    hsucceeds.aux_isOK
  obtain ⟨older, p, hredo⟩ := undoOrRedo_top hum hmount hkey hliteral hkept
    "redo" rfl hok
  have hremembers := h.remembers
  rw [hredo] at hremembers
  obtain ⟨editing, hediting, htold, hremembers⟩ := hremembers.redo
  obtain ⟨before, after, hbefore, hafter, hchain⟩ := htold.chain
  obtain ⟨hgoal, -, t₁, older₁, hstacked₁, htop₁, hsrc, hdest⟩ :=
    undoOrRedo_moves hum hgap hmount hkey hliteral hkept "redo" "undo" rfl
      rfl hredo (.of_eq rfl hredo) (hbefore.symm.trans h.here)
      (fun hle hall => (hchain hle hall).2) hok
  obtain ⟨⟨gone, hgone, hnot⟩, hredo₁⟩ := hstacked₁
  obtain ⟨rfl, -⟩ := List.append_inj' (htop₁.symm.trans hredo₁) rfl
  have hmoved : Stacked um mount s.peer.state.view client
      (um.sequencesAt s.peer.state.database.tree
        (mount.stackRoot "undo" ++ [client]) ++ [p]) older₁
      (seniorMessageTreeUpdateAux um mount (.plain true) s.peer.state.view
        (.redo key optOpTag) s.peer.state.database.tree).tree :=
    ⟨⟨gone, by rw [hgone, List.append_assoc, ← hdest]; rfl, hnot⟩, hsrc⟩
  have hstacked := hsucceeds.stacked hum hmount hgap haux hmoved
  obtain ⟨⟨gone', hundo', -⟩, hredo'⟩ := hstacked
  rw [hediting, Option.getD_some]
  refine ⟨hsucceeds.clean, h.idle, ?_, ?_⟩
  · exact hafter.symm.trans (hgoal.trans (hsucceeds.outside hum hmount))
  · rw [hredo']
    exact (hremembers.forget ⟨gone', hundo'.symm⟩).mono fun _ _ _ htold =>
      htold.goesOn hsucceeds.log

/-- **An action.** -/
theorem FollowsHistory.step (hum : um.Lawful)
    (hmount : mount.ForStacks um.toMuscle)
    (hsenior : master.iAmTheSeniorPeer = true)
    (hkey : clientNode key = [client]) {s : EditedState P} {a : EditAction P}
    (h : FollowsHistory um mount master key client s)
    (hsucceeds : a.Succeeds um mount master key s.peer) :
    FollowsHistory um mount master key client
      (editStep um mount master key s a) := by
  cases a with
  | edit start label work finish endLabel =>
      obtain ⟨hbegin, hwork, hone, hend⟩ := hsucceeds
      have hworked := Runs.run_invariant_of_stepsMeet
        (h.begin hum hmount hsenior hkey hbegin) hwork
        fun s e hs hworks => hs.step hum hmount hsenior hkey hworks
      have hfinished := hworked.finish hum hmount hsenior hkey hone hend
      unfold editStep EditAction.events
      rw [Runs.run_cons, Runs.run_append, Runs.run_cons, Runs.run_nil]
      exact hfinished
  | undo origin optOpTag =>
      exact h.undo hum hmount hsenior hkey hsucceeds
  | redo origin optOpTag =>
      exact h.redo hum hmount hsenior hkey hsucceeds
  | rescan link =>
      obtain ⟨hdatabase, -, hlog⟩ :=
        rescan_frame um mount hsenior s.peer link
      refine ⟨h.clean.rescan hum hmount hsenior link, h.idle, ?_, ?_⟩
      · change SameOutside mount s.editing.present (stackStep um mount master
          s.peer (.rescan link)).state.database.tree
        rw [hdatabase]
        exact h.here
      · change Remembers (Told um mount key (stackStep um mount master s.peer
          (.rescan link)).state) (um.sequencesAt (stackStep um mount master
            s.peer (.rescan link)).state.database.tree _) (um.sequencesAt
              (stackStep um mount master s.peer
                (.rescan link)).state.database.tree _) s.editing
        rw [hdatabase]
        exact h.remembers.mono fun _ _ _ htold => htold.goesOn hlog

/-! ## Runs -/

/-- A peer with no clients, and an editor that has not done anything yet. -/
def EditedState.initial (d : UndoStackState P) : EditedState P where
  peer := ⟨d, fun _ => 0⟩
  editing := ⟨[], d.database.tree, []⟩

/-- Both after the actions of a client. -/
def editedAfter (um : UndoStackMuscle P) (mount : Mount) (master : Master)
    (key : UndoKey) (d : UndoStackState P) (actions : List (EditAction P)) :
    EditedState P :=
  Runs.run (editStep um mount master key) (.initial d) actions

/-! ### A run -/

/-- The only peer. -/
def sheetOrigin : Origin := ⟨⟨0, 1⟩, ⟨0, 0⟩⟩

/-- The client writes a number. -/
def sheetWrite (n : UInt32) : StackEvent Sheet :=
  sheetUpdate (.tree ["a"] (.updateNodeValue ["x"] (some (.number n)) {} ""
    ""))

/-- The client writes two numbers, one after the other in a sequence; it takes
the sequence back and repeats it; the log is looked through; then the client
takes the sequence back again. -/
def changesItsMind : List (EditAction Sheet) :=
  [.edit sheetOrigin (some "x") [sheetWrite 7, sheetWrite 8] sheetOrigin none,
    .undo sheetOrigin "", .redo sheetOrigin "", .rescan .up,
    .undo sheetOrigin ""]

theorem changesItsMind_permitted :
    Runs.StepsMeet (stackStep sheetMuscle sheetMount sheetMaster)
      (fun s e => e.Permitted sheetMuscle sheetMount s) attachedSheets
      (changesItsMind.flatMap (EditAction.events ["a"])) := by
  have hplain : PlainKey sheetMount sheetMuscle.toMuscle ["a"] := by
    refine ⟨"a", rfl, fun stack hstack => ?_⟩
    rcases List.mem_pair.mp hstack with rfl | rfl
    · exact ⟨rfl, by decide⟩
    · exact ⟨rfl, by decide⟩
  refine permitted_of_untrimmed sheetMuscle_lawfulForStacks
    sheetMount_forStacks rfl (attachedState_noClients.invariant
      sheetMuscle_lawfulForStacks attachedState_servable) ?_
  refine ⟨⟨by decide, hplain, by decide⟩, ⟨by decide +kernel, ?_⟩,
    ⟨by decide +kernel, ?_⟩, ⟨by decide +kernel, hplain⟩,
    ⟨by decide +kernel, hplain, ?_⟩, ⟨by decide +kernel, hplain, ?_⟩, trivial,
    ⟨by decide +kernel, hplain, ?_⟩, trivial⟩
  · intro subMsg hsubMsg
    obtain rfl := List.mem_singleton.mp hsubMsg
    exact sheet_sparesStacks rfl
  · intro subMsg hsubMsg
    obtain rfl := List.mem_singleton.mp hsubMsg
    exact sheet_sparesStacks rfl
  · exact sheet_logSparesStacks (by decide +kernel)
  · exact sheet_logSparesStacks (by decide +kernel)
  · exact sheet_logSparesStacks (by decide +kernel)

theorem changesItsMind_succeeds :
    Runs.StepsMeet (editStep sheetMuscle sheetMount sheetMaster ["a"])
      (fun s a => a.Succeeds sheetMuscle sheetMount sheetMaster ["a"] s.peer)
      (.initial attachedState) changesItsMind := by
  have hpermitted : Runs.StepsMeet
      (editStep sheetMuscle sheetMount sheetMaster ["a"])
      (fun s a => Runs.StepsMeet (stackStep sheetMuscle sheetMount sheetMaster)
        (fun s e => e.Permitted sheetMuscle sheetMount s) s.peer
          (a.events ["a"])) (.initial attachedState) changesItsMind :=
    Runs.stepsMeet_of_flatMap _ (fun _ _ => rfl) changesItsMind_permitted
  obtain ⟨⟨hbegin, hfirst, hsecond, hend, -⟩, ⟨hundo, -⟩, ⟨hredo, -⟩, -,
    ⟨hagain, -⟩, -⟩ := hpermitted
  refine ⟨⟨⟨⟨hbegin, by decide +kernel⟩, rfl, by decide +kernel⟩,
      ⟨⟨⟨⟨hfirst, by decide +kernel⟩, rfl, by decide +kernel⟩, trivial⟩,
        ⟨⟨⟨hsecond, by decide +kernel⟩, rfl, by decide +kernel⟩, trivial⟩,
        trivial⟩, by decide +kernel,
      ⟨⟨hend, by decide +kernel⟩, rfl, by decide +kernel⟩⟩,
    ⟨hundo, by decide +kernel⟩, ⟨hredo, by decide +kernel⟩, trivial,
    ⟨hagain, by decide +kernel⟩, trivial⟩

theorem attachedState_indexed : attachedState.database.tree.Indexed := by
  have htree : attachedState.database.tree =
      (renewTree sheetMuscle sheetMount blankSession).tree := notifyAll_tree
  have hblank : blankSession.Indexed := by
    intro p name hname
    unfold MessageTree.indexOf MessageTree.lookup blankSession at hname
    by_cases hp : p = []
    · subst hp
      simp at hname
    · rw [Finmap.lookup_insert_of_ne _ hp] at hname
      simp at hname
  rw [htree]
  exact TreeChange.indexed_applyAll hblank (Execution.valid _)

end ZgChoir
