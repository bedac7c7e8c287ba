import ZgChoir.Replicas
import ZgChoir.SeniorLog
import ZgChoir.UndoStackReplays
import ZgChoir.UndoStackRequests
import ZgChoir.UndoStackSheets

/-!
# The stacks over whole runs

Updates come and go, the log is trimmed now and then, and the database may be
reset.  Through all of it the stacks stay in order as long as the log keeps the
first transaction of every sequence that is still open.

Between two events the stacks are looked at with a view to which no update is
lost.  An update sees the log as it is; what it leaves on the undo stacks are
sequences that the log has from their first transaction on.
-/

namespace ZgChoir

open UndoRedo
open UndoStackMessageTreeDatabaseObject

variable {P : Type}

/-- What happens to the senior peer of an undo-stack database.  A rescan may
trim the log. -/
inductive StackEvent (P : Type) where
  | update (fromPeerID : ZGPeerID) (userMsg : UndoStackMessage P)
      (time : Timing)
  | reset (fromPeerID : ZGPeerID) (time : Timing)
  | rescan (link : Link)

/-- The state of the peer, and how many sequences each client has begun and
not ended. -/
structure CountedState (P : Type) where
  state : UndoStackState P
  unmatched : UndoKey → ℕ

/-- A view to which no update is lost. -/
def LogView.unlimited (currentDatabaseStateID : ℕ) : LogView P where
  currentDatabaseStateID
  updateLogContainsUpdate _ := true
  getUpdatePayload _ := none

section Model

variable (um : UndoStackMuscle P) (mount : Mount) (master : Master)

/-- The senior peer after an event.  A reset takes away what was begun. -/
def stackStep (s : CountedState P) : StackEvent P → CountedState P
  | .update fromPeerID userMsg time =>
      { state := s.state.handle um mount master
          ⟨fromPeerID, .updateSeniorDatabase (some userMsg), time⟩
        unmatched := unmatchedAfter um mount (.plain true) s.state.view userMsg
          s.state.database.tree s.unmatched }
  | .reset fromPeerID time =>
      { state := s.state.handle um mount master
          ⟨fromPeerID, .resetSeniorDatabase, time⟩
        unmatched := fun _ => 0 }
  | .rescan link =>
      { s with
        state := s.state.rescanUpdateLogIfNecessary
          (undoStackCallbacks um mount true s.state.view) master link }

/-- The peer after a run, at whose start there were no clients. -/
def stacksAfter (d : UndoStackState P) (events : List (StackEvent P)) :
    CountedState P :=
  Runs.run (stackStep um mount master) ⟨d, fun _ => 0⟩ events

/-- The payloads of the sequences on a stack, from the bottom to the top. -/
def UndoStackMuscle.sequencesAt (t : MessageTree P) (node : NodePath) :
    List P :=
  (t.indexOf node).map fun name => um.getData t (node ++ [name])

/-- The log has the first transaction of every open sequence. -/
def OpenHeld (d : UndoStackState P) : Prop :=
  ∀ client, ∀ p ∈ um.sequencesAt d.database.tree
    (mount.stackRoot "undo" ++ [client]), um.what p ≠ 0 → d.view.Holds um p

/-- **The condition** on an event. -/
def StackEvent.Permitted (s : CountedState P) : StackEvent P → Prop
  | .update _ userMsg _ => OpenHeld um mount s.state ∧
      Allowed um mount (.plain true) s.state.view userMsg
        s.state.database.tree s.unmatched
  | .reset .. => True
  | .rescan _ => True

/-- **The stacks of a client**, who has begun `n` sequences that have not
ended: one sequence is open if there are such, and it is on top of the undo
stack, and there is nothing to redo.  All others have ended, and not before
they began.  From the bottom of the undo stack to its top, and on from the top
of the redo stack to its bottom, they began one after another. -/
structure StacksInOrder (t : MessageTree P) (n : ℕ) (client : String) :
    Prop where
  counted : (um.what (um.getData t
    (mount.stackRoot "undo" ++ [client]))).toNat = n
  openOnTop : (∃ top ∈ (um.sequencesAt t
    (mount.stackRoot "undo" ++ [client])).getLast?, um.what top ≠ 0) ↔ n ≠ 0
  ended : ∀ p ∈ (um.sequencesAt t
      (mount.stackRoot "undo" ++ [client])).dropLast ++
    um.sequencesAt t (mount.stackRoot "redo" ++ [client]), um.what p = 0
  nothingToRedo : n ≠ 0 →
    um.sequencesAt t (mount.stackRoot "redo" ++ [client]) = []
  forward : ∀ p ∈ um.sequencesAt t (mount.stackRoot "undo" ++ [client]) ++
    um.sequencesAt t (mount.stackRoot "redo" ++ [client]),
      um.what p = 0 → um.startDBID p ≤ um.endDBID p
  chronological : (um.sequencesAt t (mount.stackRoot "undo" ++ [client]) ++
    (um.sequencesAt t (mount.stackRoot "redo" ++ [client])).reverse).Pairwise
      fun p q => um.startDBID p ≤ um.startDBID q

/-- The log has every transaction of every sequence on an undo stack, up to
the latest. -/
def UndoLogged (d : UndoStackState P) : Prop :=
  ∀ client, ∀ p ∈ um.sequencesAt d.database.tree
    (mount.stackRoot "undo" ++ [client]), ∀ transID, um.startDBID p ≤ transID →
      transID ≤ d.localDatabaseStateID →
        d.updateLog.containsKey transID = true

/-- There are no clients yet. -/
structure NoClients (t : MessageTree P) : Prop where
  roots : ∀ stack ∈ ["undo", "redo"], mount.stackRoot stack ∈ t.nodes
  absent : ∀ stack ∈ ["undo", "redo"], ∀ q,
    mount.stackRoot stack <+: q → q ≠ mount.stackRoot stack → q ∉ t.nodes

end Model

variable {um : UndoStackMuscle P} {mount : Mount} {master : Master}
  {d d' : UndoStackState P} {t : MessageTree P} {view view' : LogView P}
  {client : String} {n : ℕ} {undo redo entries : List (String × P)}
  {node : NodePath} {unmatched : UndoKey → ℕ}

/-! ## What the invariant says of the stacks -/

theorem StackAt.sequencesAt_eq (h : StackAt t node entries) :
    um.sequencesAt t node = entries.map (·.2) := by
  rw [UndoStackMuscle.sequencesAt, h.index, List.map_map]
  exact List.map_congr_left fun e he => h.getData_entry he

/-- A sequence that has ended did not do so before it began. -/
theorem UndoStackMuscle.forward_of_closed {p : P}
    (h : (um.sequenceOf p).Closed) :
    um.what p = 0 ∧ um.startDBID p ≤ um.endDBID p := by
  obtain ⟨last, hlast, hle⟩ := h
  unfold UndoStackMuscle.sequenceOf at hlast hle
  split at hlast
  · next hwhat =>
    obtain rfl := Option.some.inj hlast
    exact ⟨hwhat, hle⟩
  · cases hlast

/-- What is open is on top of the undo stack. -/
theorem ClientStacks.closed_or_top
    (h : ClientStacks um mount view t n client undo redo) {e : String × P}
    (he : e ∈ undo) : (um.sequenceOf e.2).Closed ∨
      n ≠ 0 ∧ um.what e.2 ≠ 0 := by
  by_cases hzero : n = 0
  · exact .inl (h.wellFormed.idle hzero _ (List.mem_map_of_mem he))
  · obtain ⟨-, older, current, heq, hclosed, hopen⟩ := h.wellFormed.busy hzero
    have hmem : um.sequenceOf e.2 ∈ older ++ [current] :=
      heq ▸ List.mem_map_of_mem he
    rcases List.mem_append.mp hmem with hmem | hmem
    · exact .inl (hclosed _ hmem)
    · refine .inr ⟨hzero, fun hwhat => ?_⟩
      rw [← List.mem_singleton.mp hmem] at hopen
      simp [UndoStackMuscle.sequenceOf, hwhat] at hopen

theorem ClientStacks.closed_dropLast
    (h : ClientStacks um mount view t n client undo redo) {e : String × P}
    (he : e ∈ undo.dropLast) : (um.sequenceOf e.2).Closed := by
  refine h.wellFormed.closed_dropLast _ ?_
  rw [← List.map_dropLast]
  exact List.mem_map_of_mem he

theorem ClientStacks.inOrder
    (h : ClientStacks um mount view t n client undo redo) :
    StacksInOrder um mount t n client := by
  have hundo : um.sequencesAt t (mount.stackRoot "undo" ++ [client]) =
      undo.map (·.2) := h.undoAt.sequencesAt_eq
  have hredo : um.sequencesAt t (mount.stackRoot "redo" ++ [client]) =
      redo.map (·.2) := h.redoAt.sequencesAt_eq
  have hundone : ∀ e ∈ redo, (um.sequenceOf e.2).Closed := fun e he =>
    h.wellFormed.undone _ (List.mem_map_of_mem he)
  constructor
  · exact h.counted
  · rw [hundo, List.getLast?_map]
    constructor
    · rintro ⟨top, htop, hwhat⟩
      obtain ⟨e, he, rfl⟩ := Option.mem_map.mp htop
      rcases h.closed_or_top (List.mem_of_getLast? he) with hclosed | hopen
      · exact absurd (UndoStackMuscle.forward_of_closed hclosed).1 hwhat
      · exact hopen.1
    · intro hne
      obtain ⟨-, older, top, rfl, hwhat, -⟩ := h.openTop hne
      exact ⟨top.2, by simp, by simp [hwhat]⟩
  · rw [hundo, hredo, ← List.map_dropLast, ← List.map_append]
    intro p hp
    obtain ⟨e, he, rfl⟩ := List.mem_map.mp hp
    rcases List.mem_append.mp he with he | he
    · exact (UndoStackMuscle.forward_of_closed (h.closed_dropLast he)).1
    · exact (UndoStackMuscle.forward_of_closed (hundone e he)).1
  · intro hne
    rw [hredo, (h.openTop hne).1]
    rfl
  · rw [hundo, hredo, ← List.map_append]
    intro p hp hwhat
    obtain ⟨e, he, rfl⟩ := List.mem_map.mp hp
    rcases List.mem_append.mp he with he | he
    · rcases h.closed_or_top he with hclosed | ⟨-, hopen⟩
      · exact (UndoStackMuscle.forward_of_closed hclosed).2
      · exact absurd hwhat hopen
    · exact (UndoStackMuscle.forward_of_closed (hundone e he)).2
  · rw [hundo, hredo, ← List.map_reverse, ← List.map_append]
    have hsorted := h.wellFormed.inOrder
    rw [History.sequences, ← List.map_reverse, ← List.map_append,
      List.pairwise_map] at hsorted
    exact List.pairwise_map.mpr hsorted

/-! ## Another view -/

theorem StacksKept.ofView (h : StacksKept um mount view t unmatched)
    (hle : view.currentDatabaseStateID ≤ view'.currentDatabaseStateID)
    (hholds : ∀ client, ∀ p ∈ um.sequencesAt t
      (mount.stackRoot "undo" ++ [client]), um.what p ≠ 0 →
        view'.Holds um p) :
    StacksKept um mount view' t unmatched where
  roots := h.roots
  client client := by
    obtain ⟨undo, redo, hc⟩ := h.client client
    refine ⟨undo, redo, hc.undoAt, hc.redoAt, hc.sound, fun e he hopen => ?_,
      hc.wellFormed.mono (by omega), hc.counted⟩
    refine hholds client e.2 ?_ hopen
    rw [hc.undoAt.sequencesAt_eq]
    exact List.mem_map_of_mem he

/-- A log without gaps has no gaps while an update is made either. -/
theorem UndoStackState.view_gapless (h : d.LogServable master) :
    d.view.Gapless where
  current := by simp [UndoStackState.view]
  gapless := by
    intro k n hk hle hn
    simp only [UndoStackState.view, Bool.or_eq_true,
      decide_eq_true_eq] at hk hn ⊢
    by_cases hlatest : n = d.localDatabaseStateID + 1
    · exact .inl hlatest
    · right
      have hk := hk.resolve_left (by omega)
      obtain ⟨u, hu, rfl⟩ := OrderedTable.containsKey_iff.mp hk
      obtain ⟨v, hv, hkey⟩ := h.gapFree.exists_key hu hle (by omega)
      exact OrderedTable.containsKey_iff.mpr ⟨v, hv, hkey⟩

/-! ## One event -/

/-- The invariant of a run: a log without gaps, and the stacks. -/
structure StacksInvariant (um : UndoStackMuscle P) (mount : Mount)
    (master : Master) (s : CountedState P) : Prop where
  servable : s.state.LogServable master
  kept : StacksKept um mount (.unlimited s.state.localDatabaseStateID)
    s.state.database.tree s.unmatched

theorem UndoStackState.handle_servable {request : SeniorRequest P}
    (h : d.LogServable master) (hsenior : master.iAmTheSeniorPeer = true)
    (hmsg : ∀ dbUp, request.msg ≠ .updateJuniorDatabase dbUp) :
    (d.handle um mount master request).LogServable master := by
  have hcases : PZGDatabaseState.RequestStep
      (undoStackCallbacks um mount true d.view) master d _ ∨ _ :=
    PZGDatabaseState.handleDatabaseUpdateRequest_cases request.fromPeerID
      request.msg request.time
  rcases hcases with hstep | ⟨dbUp, hjunior, -⟩
  · exact h.request hsenior hstep
  · exact absurd hjunior (hmsg (some dbUp))

/-- The outcome of an update, as far as the stacks are concerned. -/
theorem UndoStackState.handle_update (um : UndoStackMuscle P) (mount : Mount)
    (master : Master) (d : UndoStackState P) (fromPeerID : ZGPeerID)
    (userMsg : UndoStackMessage P) (time : Timing) :
    let e := seniorMessageTreeUpdate um mount (.plain true) d.view userMsg
      d.database.tree
    let r := d.handleDatabaseUpdateRequest
      (undoStackCallbacks um mount true d.view) master fromPeerID
      (.updateSeniorDatabase (some userMsg)) time
    r.2.database.tree = e.tree ∧ r.1.isOK = e.status.isOK ∧
      d.localDatabaseStateID ≤ r.2.localDatabaseStateID ∧
      (e.status.isOK = true →
        r.2.localDatabaseStateID = d.localDatabaseStateID + 1 ∧
        ∀ transID, d.view.updateLogContainsUpdate transID = true →
          r.2.updateLog.containsKey transID = true) := by
  intro e r
  have htree : r.2.database.tree = e.tree := by
    have hr : r.2 = d.handle um mount master
        ⟨fromPeerID, .updateSeniorDatabase (some userMsg), time⟩ := rfl
    rw [hr, UndoStackState.handle_database]
    change (seniorUpdate um mount d.view d.database userMsg).1.tree = _
    unfold seniorUpdate
    dsimp only
    split <;> exact notifyAll_tree
  refine ⟨htree, ?_⟩
  have hr : r = PZGDatabaseState.executeSeniorUpdate
      (undoStackCallbacks um mount true d.view) master d fromPeerID .update
      (PZGDatabaseState.seniorUpdate
        (undoStackCallbacks um mount true d.view) userMsg) time := rfl
  cases hstatus : e.status.isOK with
  | true =>
      obtain ⟨pair, hpair⟩ : ∃ pair,
          (seniorUpdate um mount d.view d.database userMsg).2 = some pair := by
        unfold seniorUpdate
        dsimp only
        rw [if_pos hstatus]
        exact ⟨_, rfl⟩
      have hcall : (PZGDatabaseState.seniorUpdate
          (undoStackCallbacks um mount true d.view) userMsg d.database
            d.dbChecksum).2.2 = .ok (some pair) := by
        simp [PZGDatabaseState.seniorUpdate, undoStackCallbacks, hpair]
      obtain ⟨bytes, millis, oldest, hstep⟩ :=
        PZGDatabaseState.executeSeniorUpdate_of_ok
          (undoStackCallbacks um mount true d.view) master d fromPeerID
          .update time hcall
      rw [hr, hstep]
      refine ⟨rfl, Nat.le_succ _, fun _ => ⟨rfl, fun transID hview => ?_⟩⟩
      simp only [UndoStackState.view, Bool.or_eq_true,
        decide_eq_true_eq] at hview
      exact OrderedTable.containsKey_put.mpr (hview.imp (·.symm) id)
  | false =>
      have hnone : (seniorUpdate um mount d.view d.database userMsg).2 =
          none := by
        unfold seniorUpdate
        dsimp only
        rw [if_neg (by simpa using hstatus)]
      have hcall : (PZGDatabaseState.seniorUpdate
          (undoStackCallbacks um mount true d.view) userMsg d.database
            d.dbChecksum).2.2 = .error .logicError := by
        simp [PZGDatabaseState.seniorUpdate, undoStackCallbacks, hnone]
      obtain ⟨bytes, millis, oldest, hstep⟩ :=
        PZGDatabaseState.executeSeniorUpdate_of_error
          (undoStackCallbacks um mount true d.view) master d fromPeerID
          .update time hcall
      rw [hr, hstep]
      exact ⟨rfl, le_rfl, fun hok => by cases hok⟩

/-- **An update.** -/
theorem StacksInvariant.update (hum : um.Lawful)
    (hmount : mount.ForStacks um.toMuscle)
    (hsenior : master.iAmTheSeniorPeer = true) {s : CountedState P}
    (h : StacksInvariant um mount master s) {fromPeerID : ZGPeerID}
    {userMsg : UndoStackMessage P} {time : Timing}
    (hpermitted : StackEvent.Permitted um mount s
      (.update fromPeerID userMsg time)) :
    StacksInvariant um mount master (stackStep um mount master s
      (.update fromPeerID userMsg time)) := by
  obtain ⟨hopen, hallowed⟩ := hpermitted
  have hkept : StacksKept um mount s.state.view s.state.database.tree
      s.unmatched := h.kept.ofView le_rfl hopen
  obtain ⟨hafter, -⟩ := seniorMessageTreeUpdate_kept hum
    (UndoStackState.view_gapless h.servable) hmount hkept hallowed
  obtain ⟨htree, -, hle, -⟩ := UndoStackState.handle_update um
    mount master s.state fromPeerID userMsg time
  refine ⟨UndoStackState.handle_servable h.servable hsenior (by simp), ?_⟩
  change StacksKept um mount _ (UndoStackState.handle um mount master s.state
    ⟨fromPeerID, .updateSeniorDatabase (some userMsg), time⟩).database.tree _
  unfold UndoStackState.handle
  rw [htree]
  exact hafter.ofView hle fun _ _ _ _ => rfl

/-- After an update that succeeds, the log has what the undo stacks need. -/
theorem StacksInvariant.undoLogged (hum : um.Lawful)
    (hmount : mount.ForStacks um.toMuscle) {s : CountedState P}
    (h : StacksInvariant um mount master s) {fromPeerID : ZGPeerID}
    {userMsg : UndoStackMessage P} {time : Timing}
    (hpermitted : StackEvent.Permitted um mount s
      (.update fromPeerID userMsg time))
    (hok : (s.state.handleDatabaseUpdateRequest
      (undoStackCallbacks um mount true s.state.view) master fromPeerID
      (.updateSeniorDatabase (some userMsg)) time).1.isOK = true) :
    UndoLogged um mount (stackStep um mount master s
      (.update fromPeerID userMsg time)).state := by
  obtain ⟨hopen, hallowed⟩ := hpermitted
  have hgap := UndoStackState.view_gapless h.servable
  obtain ⟨hafter, hheld⟩ := seniorMessageTreeUpdate_kept hum hgap hmount
    (h.kept.ofView le_rfl hopen) hallowed
  obtain ⟨htree, hstatus, -, hlogged⟩ := UndoStackState.handle_update um
    mount master s.state fromPeerID userMsg time
  rw [hstatus] at hok
  obtain ⟨hlocal, hkeys⟩ := hlogged hok
  intro client p hp transID hfrom hto
  obtain ⟨undo, redo, hc⟩ := hafter.client client
  change p ∈ um.sequencesAt (UndoStackState.handle um mount master s.state
    ⟨fromPeerID, .updateSeniorDatabase (some userMsg), time⟩).database.tree _
    at hp
  unfold UndoStackState.handle at hp
  rw [htree, hc.undoAt.sequencesAt_eq] at hp
  obtain ⟨e, he, rfl⟩ := List.mem_map.mp hp
  refine hkeys transID (hgap.gapless (hheld hok client undo hc.undoAt e he)
    hfrom ?_)
  change transID ≤ (s.state.handle um mount master
    ⟨fromPeerID, .updateSeniorDatabase (some userMsg),
      time⟩).localDatabaseStateID at hto
  exact hto.trans hlocal.le

/-! ### A reset -/

/-- A root is created again. -/
theorem renewedRoot (hum : um.Lawful) {stack : String}
    (hliteral : Literal um.toMuscle (mount.stackRoot stack))
    (t : MessageTree P) :
    let t' := TreeChange.applyAll t (um.setDataNode t (mount.stackRoot stack)
      um.emptyMessage {} none).changes
    mount.stackRoot stack ∈ t'.nodes ∧
      ∀ q, ¬ q <+: mount.stackRoot stack → t'.lookup q = t.lookup q := by
  obtain ⟨-, hchanges⟩ := hum.lawful.setDataNode t um.emptyMessage
    (by simp [Mount.stackRoot]) hliteral.clauses
  have hvalid := (um.setDataNode t (mount.stackRoot stack) um.emptyMessage {}
    none).valid
  rw [hchanges] at hvalid ⊢
  refine ⟨?_, fun q hq => TreeChange.lookup_applyAll_of_ne hvalid ?_⟩
  · rw [TreeChange.applyAll_append, TreeChange.applyAll_cons,
      TreeChange.applyAll_nil]
    obtain ⟨-, happlies, -⟩ := TreeChange.valid_append.mp hvalid
    exact (LiteralTree.mem_payloadSet happlies).mpr (.inl rfl)
  · intro c hc heq
    refine hq (heq ▸ ?_)
    rcases List.mem_append.mp hc with hc | hc
    · obtain ⟨above, habove, rfl⟩ := List.mem_map.mp hc
      obtain ⟨k, -, rfl⟩ := List.mem_map.mp (List.mem_of_mem_filter habove)
      exact List.take_prefix k _
    · obtain rfl := List.mem_singleton.mp hc
      exact List.prefix_refl _

/-- The first two steps of a reset. -/
private def renewUndo (um : UndoStackMuscle P) (mount : Mount)
    (t : MessageTree P) : Execution t :=
  (removeDataNodes um.toMuscle mount false "" t mount.root none
    false).followedBy fun t₁ => Execution.ofOutcome
      (um.setDataNode t₁ (mount.stackRoot "undo") um.emptyMessage {} none)
      false false ""

/-- **After a reset** there are no clients. -/
theorem renewTree_noClients (hum : um.Lawful)
    (hmount : mount.ForStacks um.toMuscle) (t : MessageTree P) :
    NoClients mount (renewTree um mount t).tree := by
  obtain ⟨parent, name, hroot⟩ : ∃ parent name,
      mount.root = parent ++ [name] :=
    ⟨_, _, (List.dropLast_concat_getLast hmount.root_ne).symm⟩
  have hbelow : ∀ q, mount.root <+: q → (removeDataNodes um.toMuscle mount
      false "" t mount.root none false).tree.lookup q = none := by
    have hcases := removeDataNodes_cases hum hmount (hroot ▸ hmount.plain)
      (hroot ▸ List.prefix_refl _) t ""
    rw [← hroot] at hcases
    intro q hq
    rcases hcases with ⟨-, hremoved⟩ | ⟨habsent, hsame⟩
    · exact hremoved.below q (hroot ▸ hq)
    · rw [hsame]
      exact MessageTree.lookup_eq_none.mpr fun hmem =>
        habsent (t.mem_of_isPrefix hmem hq)
  have hfirst : mount.stackRoot "undo" ∈ (renewUndo um mount t).tree.nodes ∧
      ∀ q, ¬ q <+: mount.stackRoot "undo" → mount.root <+: q →
        (renewUndo um mount t).tree.lookup q = none := by
    rw [renewUndo, Execution.followedBy_tree, Execution.ofOutcome_tree]
    generalize (removeDataNodes um.toMuscle mount false "" t mount.root none
      false).tree = t₁ at hbelow
    obtain ⟨hundo, helsewhere⟩ := renewedRoot hum
      (hmount.literal "undo" (by simp)) t₁
    exact ⟨hundo, fun q hq hroot => (helsewhere q hq).trans (hbelow q hroot)⟩
  have hrenew : renewTree um mount t = (renewUndo um mount t).followedBy
      fun t₂ => Execution.ofOutcome (um.setDataNode t₂
        (mount.stackRoot "redo") um.emptyMessage {} none) false false "" := rfl
  rw [hrenew, Execution.followedBy_tree, Execution.ofOutcome_tree]
  generalize (renewUndo um mount t).tree = t₂ at hfirst
  obtain ⟨hundo, helsewhere⟩ := hfirst
  obtain ⟨hredo, helsewhere'⟩ := renewedRoot hum
    (hmount.literal "redo" (by simp)) t₂
  have hapart : ¬ mount.stackRoot "undo" <+: mount.stackRoot "redo" := by
    simp [Mount.stackRoot]
  refine ⟨fun stack hstack => ?_, fun stack hstack q hq hne => ?_⟩
  · rcases List.mem_pair.mp hstack with rfl | rfl
    · exact (MessageTree.mem_nodes_of_lookup_eq
        (helsewhere' _ hapart)).mpr hundo
    · exact hredo
  · have hlonger : ∀ stack', ¬ q <+: mount.stackRoot stack' := by
      intro stack' hpre
      have hlength : (mount.stackRoot stack').length =
          (mount.stackRoot stack).length := by simp [Mount.stackRoot]
      exact hne (hq.eq_of_length_le (hlength ▸ hpre.length_le)).symm
    rw [← MessageTree.lookup_eq_none, helsewhere' q (hlonger "redo")]
    exact helsewhere q (hlonger "undo") ((List.prefix_append _ _).trans hq)

theorem NoClients.kept (hum : um.Lawful) (h : NoClients mount t) :
    StacksKept um mount view t fun _ => 0 where
  roots := h.roots
  client client := by
    have hnone : ∀ stack ∈ ["undo", "redo"],
        t.lookup (mount.stackRoot stack ++ [client]) = none := by
      intro stack hstack
      exact MessageTree.lookup_eq_none.mpr
        (h.absent stack hstack _ (List.prefix_append _ _) (by simp))
    refine ⟨[], [], stackAt_nil (hnone "undo" (by simp)),
      stackAt_nil (hnone "redo" (by simp)), by simp, by simp,
      History.wellFormed_empty, ?_⟩
    rw [UndoStackMuscle.getData, hnone "undo" (by simp)]
    simp [hum.what_emptyMessage]

/-- **Every event.** -/
theorem StacksInvariant.step (hum : um.Lawful)
    (hmount : mount.ForStacks um.toMuscle)
    (hsenior : master.iAmTheSeniorPeer = true) {s : CountedState P}
    {e : StackEvent P} (h : StacksInvariant um mount master s)
    (hpermitted : e.Permitted um mount s) :
    StacksInvariant um mount master (stackStep um mount master s e) := by
  cases e with
  | update fromPeerID userMsg time =>
      exact h.update hum hmount hsenior hpermitted
  | reset fromPeerID time =>
      refine ⟨UndoStackState.handle_servable h.servable hsenior (by simp), ?_⟩
      have htree : (stackStep um mount master s
          (.reset fromPeerID time)).state.database.tree =
            (renewTree um mount s.state.database.tree).tree := by
        rw [stackStep, UndoStackState.handle_database]
        exact notifyAll_tree
      rw [htree]
      exact (renewTree_noClients hum hmount _).kept hum
  | rescan link =>
      refine ⟨h.servable.rescanIfNecessary, ?_⟩
      unfold stackStep PZGDatabaseState.rescanUpdateLogIfNecessary
      dsimp only
      split
      · obtain ⟨⟨hlocal, hdatabase, -⟩, -⟩ :=
          (PZGDatabaseState.rescanUpdateLog_moves
            (undoStackCallbacks um mount true s.state.view) master link
            { s.state with rescanLogPending := false }).database_of_senior
              hsenior
        rw [hlocal, hdatabase]
        exact h.kept
      · exact h.kept

/-! ## Runs -/

/-- The log has everything from the first transaction on. -/
def Untrimmed (d : UndoStackState P) : Prop :=
  ∀ k < d.localDatabaseStateID, d.updateLog.containsKey (k + 1) = true

instance : Decidable (Untrimmed d) :=
  inferInstanceAs (Decidable (∀ k < _, _))

/-- **A log that has not been trimmed** has what the open sequences need. -/
theorem StacksInvariant.openHeld {s : CountedState P}
    (h : StacksInvariant um mount master s) (hlog : Untrimmed s.state) :
    OpenHeld um mount s.state := by
  intro client p hp hopen
  obtain ⟨undo, redo, hc⟩ := h.kept.client client
  rw [hc.undoAt.sequencesAt_eq] at hp
  obtain ⟨e, he, rfl⟩ := List.mem_map.mp hp
  have hstarted : 0 < um.startDBID e.2 :=
    ((hc.sound e he).resolve_left hopen).2.2
  have hrecent : um.startDBID e.2 ≤ s.state.localDatabaseStateID + 1 :=
    hc.wellFormed.recent _ (List.mem_append_left _ (List.mem_map_of_mem he))
  simp only [LogView.Holds, UndoStackState.view, Bool.or_eq_true,
    decide_eq_true_eq]
  by_cases hlatest : um.startDBID e.2 = s.state.localDatabaseStateID + 1
  · exact .inl hlatest
  · right
    have hkey := hlog (um.startDBID e.2 - 1) (by omega)
    rwa [Nat.sub_add_cancel hstarted] at hkey

/-- The condition on an event, with a log that has not been trimmed. -/
def StackEvent.AllowedUntrimmed (um : UndoStackMuscle P) (mount : Mount)
    (s : CountedState P) : StackEvent P → Prop
  | .update _ userMsg _ => Untrimmed s.state ∧
      Allowed um mount (.plain true) s.state.view userMsg
        s.state.database.tree s.unmatched
  | .reset .. => True
  | .rescan _ => True

theorem permitted_of_untrimmed (hum : um.Lawful)
    (hmount : mount.ForStacks um.toMuscle)
    (hsenior : master.iAmTheSeniorPeer = true) {s : CountedState P}
    (h : StacksInvariant um mount master s) {events : List (StackEvent P)}
    (hmeet : Runs.StepsMeet (stackStep um mount master)
      (fun s e => e.AllowedUntrimmed um mount s) s events) :
    Runs.StepsMeet (stackStep um mount master)
      (fun s e => e.Permitted um mount s) s events := by
  induction events generalizing s with
  | nil => trivial
  | cons e events ih =>
      obtain ⟨hallowed, hrest⟩ := hmeet
      have hpermitted : e.Permitted um mount s := by
        cases e with
        | update => exact ⟨h.openHeld hallowed.1, hallowed.2⟩
        | reset => trivial
        | rescan => trivial
      exact ⟨hpermitted, ih (h.step hum hmount hsenior hpermitted) hrest⟩

/-- A peer with no clients, and a log without gaps. -/
theorem NoClients.invariant (hum : um.Lawful) (hlog : d.LogServable master)
    (h : NoClients mount d.database.tree) :
    StacksInvariant um mount master ⟨d, fun _ => 0⟩ :=
  ⟨hlog, h.kept hum⟩

/-! ### A run -/

/-- The run of the sheets from where they have been attached. -/
abbrev attachedSheets : CountedState Sheet := ⟨attachedState, fun _ => 0⟩

/-- An update of the only peer. -/
def sheetUpdate (msg : UndoStackMessage Sheet) : StackEvent Sheet :=
  .update ⟨0, 1⟩ msg ⟨0, 0⟩

/-- A sequence with one change, which is undone and redone; then the log is
looked through, and another sequence begins. -/
def undoneAndRedone : List (StackEvent Sheet) :=
  [sheetUpdate (.beginSequence ["a"] (some "x")),
    sheetUpdate (.tree ["a"] (.updateNodeValue ["x"] (some (.number 7)) {} ""
      "")),
    sheetUpdate (.endSequence ["a"] none), sheetUpdate (.undo ["a"] ""),
    sheetUpdate (.redo ["a"] ""), .rescan .up,
    sheetUpdate (.beginSequence ["a"] none)]

theorem attachedState_servable : attachedState.LogServable sheetMaster where
  gapFree := OrderedTable.gapFreeUpTo_empty
  nothingAhead _ _ hu := absurd hu List.not_mem_nil

theorem attachedState_noClients :
    NoClients sheetMount attachedState.database.tree := by
  have htree : attachedState.database.tree =
      (renewTree sheetMuscle sheetMount blankSession).tree := notifyAll_tree
  rw [htree]
  exact renewTree_noClients sheetMuscle_lawfulForStacks sheetMount_forStacks _

theorem undoneAndRedone_permitted :
    Runs.StepsMeet (stackStep sheetMuscle sheetMount sheetMaster)
      (fun s e => e.Permitted sheetMuscle sheetMount s) attachedSheets
        undoneAndRedone := by
  have hplain : PlainKey sheetMount sheetMuscle.toMuscle ["a"] := by
    refine ⟨"a", rfl, fun stack hstack => ?_⟩
    rcases List.mem_pair.mp hstack with rfl | rfl
    · exact ⟨rfl, by decide⟩
    · exact ⟨rfl, by decide⟩
  refine permitted_of_untrimmed sheetMuscle_lawfulForStacks
    sheetMount_forStacks rfl (attachedState_noClients.invariant
      sheetMuscle_lawfulForStacks attachedState_servable) ?_
  refine ⟨⟨by decide, hplain, by decide⟩, ⟨by decide +kernel, ?_⟩,
    ⟨by decide +kernel, hplain⟩, ⟨by decide +kernel, hplain, ?_⟩,
    ⟨by decide +kernel, hplain, ?_⟩, trivial,
    ⟨by decide +kernel, hplain, by decide +kernel⟩, trivial⟩
  · intro subMsg hsubMsg
    obtain rfl := List.mem_singleton.mp hsubMsg
    exact sheet_sparesStacks rfl
  · exact sheet_logSparesStacks (by decide +kernel)
  · exact sheet_logSparesStacks (by decide +kernel)

/-! ### What runs keep -/

/-- The invariant, after a run. -/
theorem stacksAfter_invariant (hum : um.Lawful)
    (hmount : mount.ForStacks um.toMuscle)
    (hsenior : master.iAmTheSeniorPeer = true) (hlog : d.LogServable master)
    (hclients : NoClients mount d.database.tree) {events : List (StackEvent P)}
    (hmeet : Runs.StepsMeet (stackStep um mount master)
      (fun s e => e.Permitted um mount s) ⟨d, fun _ => 0⟩ events) :
    StacksInvariant um mount master (stacksAfter um mount master d events) :=
  Runs.run_invariant_of_stepsMeet
    (I := fun s => StacksInvariant um mount master s)
    (hclients.invariant hum hlog) hmeet fun _ _ hs hpermitted =>
      hs.step hum hmount hsenior hpermitted

/-- **Runs keep the stacks in order.** -/
theorem stacks_inOrder (hum : um.Lawful) (hmount : mount.ForStacks um.toMuscle)
    (hsenior : master.iAmTheSeniorPeer = true) (hlog : d.LogServable master)
    (hclients : NoClients mount d.database.tree) {events : List (StackEvent P)}
    (hmeet : Runs.StepsMeet (stackStep um mount master)
      (fun s e => e.Permitted um mount s) ⟨d, fun _ => 0⟩ events)
    (client : String) :
    StacksInOrder um mount
      (stacksAfter um mount master d events).state.database.tree
      ((stacksAfter um mount master d events).unmatched [client]) client := by
  have hinv :=
    stacksAfter_invariant hum hmount hsenior hlog hclients hmeet
  obtain ⟨undo, redo, hc⟩ := hinv.kept.client client
  exact hc.inOrder

theorem stacks_inOrder_undoneAndRedone :
    StacksInOrder sheetMuscle sheetMount
      (stacksAfter sheetMuscle sheetMount sheetMaster attachedState
        undoneAndRedone).state.database.tree
      ((stacksAfter sheetMuscle sheetMount sheetMaster attachedState
        undoneAndRedone).unmatched ["a"]) "a" :=
  stacks_inOrder sheetMuscle_lawfulForStacks sheetMount_forStacks (by decide)
    attachedState_servable attachedState_noClients undoneAndRedone_permitted "a"

/-- **Whatever is on an undo stack after an update can be undone**, as far as
the log is concerned. -/
theorem undo_logged (hum : um.Lawful) (hmount : mount.ForStacks um.toMuscle)
    (hsenior : master.iAmTheSeniorPeer = true) (hlog : d.LogServable master)
    (hclients : NoClients mount d.database.tree) {events : List (StackEvent P)}
    {fromPeerID : ZGPeerID} {userMsg : UndoStackMessage P} {time : Timing}
    (hmeet : Runs.StepsMeet (stackStep um mount master)
      (fun s e => e.Permitted um mount s) ⟨d, fun _ => 0⟩
      (events ++ [.update fromPeerID userMsg time])) :
    let d' := (stacksAfter um mount master d events).state
    (d'.handleDatabaseUpdateRequest (undoStackCallbacks um mount true d'.view)
      master fromPeerID (.updateSeniorDatabase (some userMsg))
      time).1.isOK = true →
    UndoLogged um mount (stacksAfter um mount master d
      (events ++ [.update fromPeerID userMsg time])).state := by
  intro d' hok
  obtain ⟨hmeet, hpermitted, -⟩ := Runs.stepsMeet_append.mp hmeet
  have hinv :=
    stacksAfter_invariant hum hmount hsenior hlog hclients hmeet
  have hafter : stacksAfter um mount master d
      (events ++ [.update fromPeerID userMsg time]) =
        stackStep um mount master (stacksAfter um mount master d events)
          (.update fromPeerID userMsg time) := Runs.run_append
  rw [hafter]
  exact hinv.undoLogged hum hmount hpermitted hok

theorem undo_logged_undoneAndRedone :
    UndoLogged sheetMuscle sheetMount
      (stacksAfter sheetMuscle sheetMount sheetMaster attachedState
        (undoneAndRedone.take 6 ++
          [sheetUpdate (.beginSequence ["a"] none)])).state :=
  undo_logged sheetMuscle_lawfulForStacks sheetMount_forStacks
    (by decide) attachedState_servable attachedState_noClients
    undoneAndRedone_permitted (by decide +kernel)

end ZgChoir
