import ZgChoir.PeerSession
import ZgChoir.Runs

/-!
# What a senior peer multicasts during its tenure

The senior's rescan sends every logged update that is not below
`_firstUnsentUpdateID`, in order, and moves that mark behind each update it
sends.  So a mark at or below the next update to be made, in a log that
holds nothing above the senior's own state, makes every update of the tenure
go out exactly once.

A junior peer leaves both untidy.  Its log holds updates it has heard of and
not executed, and its mark is moved only by a rescan.  Nothing tidies them
up when it is promoted.  `TenureCanStart` is the condition that they are
tidy, and `multicastsOnce_iff` says that it is exact: under it every run of
the tenure multicasts as it should, and without it some run does not.
-/

namespace ZgChoir

variable {DB Msg : Type} {cb : Callbacks DB Msg} {m : Master} {link : Link}

/-- Every multicast that the event may try succeeds. -/
def Link.MulticastsSucceed (link : Link) : Prop :=
  ∀ updateID, (link.multicastStatus updateID).isOK = true

theorem Link.up_multicastsSucceed : Link.up.MulticastsSucceed := fun _ => rfl

namespace PZGDatabaseState

variable {d : PZGDatabaseState DB Msg}

/-! ## One rescan of the senior peer -/

/-- The logged updates that are at or above the mark. -/
def unsentUpdates (d : PZGDatabaseState DB Msg) :
    List (PZGDatabaseUpdate Msg) :=
  d.updateLog.entries.filter fun dbUp =>
    decide (d.firstUnsentUpdateID ≤ dbUp.updateID)

theorem mem_unsentUpdates {dbUp : PZGDatabaseUpdate Msg} :
    dbUp ∈ unsentUpdates d ↔ dbUp ∈ d.updateLog.entries ∧
      d.firstUnsentUpdateID ≤ dbUp.updateID := by
  simp [unsentUpdates]

/-- The unsent updates are in order. -/
theorem unsentUpdates_sorted :
    (unsentUpdates d).Pairwise fun u v => u.updateID < v.updateID :=
  d.updateLog.sorted.filter _

/-- The turning point is early enough: what lies before it has been sent. -/
theorem filter_entriesFromTurn {mark oldestUpdateID : ℕ}
    {backwards walked : List (PZGDatabaseUpdate Msg)}
    (hsorted : backwards.Pairwise fun u v => v.updateID < u.updateID)
    (holdest : ∀ u ∈ backwards, oldestUpdateID ≤ u.updateID) :
    (entriesFromTurn mark oldestUpdateID backwards walked).filter
        (fun u => decide (mark ≤ u.updateID)) =
      (backwards.reverse ++ walked).filter
        (fun u => decide (mark ≤ u.updateID)) := by
  induction backwards generalizing walked with
  | nil => rfl
  | cons u older ih =>
      obtain ⟨holder, hsorted⟩ := List.pairwise_cons.mp hsorted
      unfold entriesFromTurn
      split
      · rename_i hturn
        have hsent : older.reverse.filter
            (fun u => decide (mark ≤ u.updateID)) = [] := by
          refine List.filter_eq_nil_iff.mpr fun v hv => ?_
          have hv := List.mem_reverse.mp hv
          have hbelow := holder v hv
          have habove := holdest v (List.mem_cons_of_mem u hv)
          rw [decide_eq_true_eq]
          omega
        rw [List.reverse_cons, List.append_assoc, List.filter_append, hsent]
        rfl
      · rw [ih hsorted fun v hv => holdest v (List.mem_cons_of_mem u hv),
          List.reverse_cons, List.append_assoc, List.singleton_append]

/-- The mark after a rescan has sent `sent`. -/
def markAfter (mark : ℕ) (sent : List (PZGDatabaseUpdate Msg)) : ℕ :=
  match sent.getLast? with
  | some last => last.updateID + 1
  | none => mark

theorem markAfter_cons {mark : ℕ} {u : PZGDatabaseUpdate Msg}
    {newer : List (PZGDatabaseUpdate Msg)} :
    markAfter mark (u :: newer) = markAfter (u.updateID + 1) newer := by
  cases newer with
  | nil => rfl
  | cons v rest =>
      obtain ⟨last, hlast⟩ : ∃ last, (v :: rest).getLast? = some last :=
        ⟨_, List.getLast?_eq_some_getLast (List.cons_ne_nil v rest)⟩
      simp [markAfter, List.getLast?_cons_cons, hlast]

/-- What the forwards walk over an ordered list sends, and where it leaves
the mark, when every send succeeds. -/
theorem sendUnsentUpdates_spec (hup : link.MulticastsSucceed)
    {walk : List (PZGDatabaseUpdate Msg)}
    (hsorted : walk.Pairwise fun u v => u.updateID < v.updateID) :
    ∃ calls, multicastsOf calls =
        walk.filter (fun u => decide (d.firstUnsentUpdateID ≤ u.updateID)) ∧
      sendUnsentUpdates link walk d =
        { d with
          firstUnsentUpdateID := markAfter d.firstUnsentUpdateID
            (walk.filter fun u =>
              decide (d.firstUnsentUpdateID ≤ u.updateID))
          masterCalls := d.masterCalls ++ calls } := by
  induction walk generalizing d with
  | nil => exact ⟨[], rfl, by simp [sendUnsentUpdates, markAfter]⟩
  | cons u newer ih =>
      obtain ⟨hnewer, hsorted⟩ := List.pairwise_cons.mp hsorted
      unfold sendUnsentUpdates
      split
      · rename_i hunsent
        obtain ⟨calls, hcalls, hstate⟩ := ih (d := sendUpdate link d u) hsorted
        have hmark : (sendUpdate link d u).firstUnsentUpdateID =
            u.updateID + 1 := by simp [sendUpdate, hup u.updateID]
        have hall : ∀ {mark}, mark ≤ u.updateID + 1 →
            newer.filter (fun v => decide (mark ≤ v.updateID)) = newer := by
          intro mark hmark
          refine List.filter_eq_self.mpr fun v hv => ?_
          have := hnewer v hv
          exact decide_eq_true (by omega)
        have hfilter : (u :: newer).filter
            (fun v => decide (d.firstUnsentUpdateID ≤ v.updateID)) =
            u :: newer := by
          rw [List.filter_cons_of_pos (by simpa using hunsent),
            hall (by omega)]
        rw [hmark, hall le_rfl] at hcalls hstate
        rw [hfilter, markAfter_cons, hstate]
        refine ⟨.sendDatabaseUpdateViaMulticast u
          (link.multicastStatus u.updateID) :: calls, ?_, ?_⟩
        · rw [← hcalls]
          rfl
        · simp [sendUpdate, List.append_assoc]
      · rename_i hsent
        obtain ⟨calls, hcalls, hstate⟩ := ih (d := d) hsorted
        have hskip : (u :: newer).filter
            (fun v => decide (d.firstUnsentUpdateID ≤ v.updateID)) =
            newer.filter
              (fun v => decide (d.firstUnsentUpdateID ≤ v.updateID)) :=
          List.filter_cons_of_neg (by simpa using hsent)
        rw [hskip]
        exact ⟨calls, hcalls, hstate⟩

/-- **One rescan of the senior peer**, every send succeeding: the unsent
updates go out in order, the mark moves behind them, and then old entries
may be dropped. -/
theorem rescanUpdateLog_senior (cb : Callbacks DB Msg)
    (hsenior : m.iAmTheSeniorPeer = true) (hup : link.MulticastsSucceed)
    (d : PZGDatabaseState DB Msg) :
    ∃ (calls : List (MasterCall Msg)) (log : UpdateLog Msg)
      (bytes millis : UInt64) (oldest : WithTop ℕ),
      multicastsOf calls = unsentUpdates d ∧
      (∀ u ∈ log.entries, u ∈ d.updateLog.entries) ∧
      rescanUpdateLog cb m link d =
        { d with
          updateLog := log
          totalPayloadBytesInLog := bytes
          totalElapsedMillisInLog := millis
          seniorOldestIDInLog := oldest
          firstUnsentUpdateID :=
            markAfter d.firstUnsentUpdateID (unsentUpdates d)
          masterCalls := d.masterCalls ++ calls } := by
  unfold rescanUpdateLog rescanUpdateLogAsSenior
  rw [if_pos hsenior]
  cases hfirst : d.updateLog.first? with
  | none =>
      have hnil : unsentUpdates d = [] := by
        simp [unsentUpdates, OrderedTable.first?_eq_none.mp hfirst]
      refine ⟨[], d.updateLog, d.totalPayloadBytesInLog,
        d.totalElapsedMillisInLog, d.seniorOldestIDInLog, hnil.symm,
        fun _ h => h, ?_⟩
      simp [hnil, markAfter]
  | some first =>
      obtain ⟨hfirstMem, hfirstLe⟩ := OrderedTable.first?_eq_some hfirst
      let walk := entriesFromTurn d.firstUnsentUpdateID first.updateID
        d.updateLog.entries.reverse []
      have hwalk : walk.filter
          (fun u => decide (d.firstUnsentUpdateID ≤ u.updateID)) =
          unsentUpdates d := by
        rw [filter_entriesFromTurn]
        · simp [unsentUpdates]
        · exact List.pairwise_reverse.mpr d.updateLog.sorted
        · exact fun u hu => hfirstLe u (List.mem_reverse.mp hu)
      have hsorted : walk.Pairwise fun u v => u.updateID < v.updateID := by
        have hsuffix : walk <:+ d.updateLog.entries.reverse.reverse ++ [] :=
          entriesFromTurn_suffix
        rw [List.reverse_reverse, List.append_nil] at hsuffix
        exact d.updateLog.sorted.sublist hsuffix.sublist
      obtain ⟨calls, hcalls, hsent⟩ :=
        sendUnsentUpdates_spec (d := d) hup hsorted
      rw [hwalk] at hcalls hsent
      obtain ⟨log, bytes, millis, oldest, hsub, htrim⟩ :=
        trimUpdateLog_frame cb m (fun _ _ => true)
          (sendUnsentUpdates link walk d).updateLog.size
          (sendUnsentUpdates link walk d)
      refine ⟨calls, log, bytes, millis, oldest, hcalls, ?_, ?_⟩
      · intro u hu
        have hu := hsub u hu
        rw [hsent] at hu
        exact hu
      · dsimp only
        rw [htrim, hsent]

/-! ## The mark -/

/-- Everything sent is below the mark afterwards. -/
theorem lt_markAfter {mark : ℕ} {sent : List (PZGDatabaseUpdate Msg)}
    (hsorted : sent.Pairwise fun u v => u.updateID < v.updateID)
    {u : PZGDatabaseUpdate Msg} (hu : u ∈ sent) :
    u.updateID < markAfter mark sent := by
  unfold markAfter
  cases hlast : sent.getLast? with
  | none =>
      rw [List.getLast?_eq_none_iff.mp hlast] at hu
      simp at hu
  | some last =>
      obtain ⟨earlier, rfl⟩ := List.getLast?_eq_some_iff.mp hlast
      have hearlier := (List.pairwise_append.mp hsorted).2.2
      rcases List.mem_append.mp hu with hu | hu
      · have := hearlier u hu last (List.mem_singleton_self last)
        exact this.trans (Nat.lt_succ_self _)
      · rw [List.mem_singleton.mp hu]
        exact Nat.lt_succ_self _

/-- The mark only moves forward, and no further than just behind the last
update sent. -/
theorem markAfter_bounds {mark bound : ℕ}
    {sent : List (PZGDatabaseUpdate Msg)}
    (hfrom : ∀ u ∈ sent, mark ≤ u.updateID)
    (hto : ∀ u ∈ sent, u.updateID < bound) (hmark : mark ≤ bound) :
    mark ≤ markAfter mark sent ∧ markAfter mark sent ≤ bound := by
  unfold markAfter
  cases hlast : sent.getLast? with
  | none => exact ⟨le_rfl, hmark⟩
  | some last =>
      have hmem : last ∈ sent := List.mem_of_getLast? hlast
      exact ⟨(hfrom last hmem).trans (Nat.le_succ _), hto last hmem⟩

/-- An ordered list holds an update under its ID exactly once. -/
theorem filter_updateID_eq_singleton {us : List (PZGDatabaseUpdate Msg)}
    (hsorted : us.Pairwise fun u v => u.updateID < v.updateID)
    {u : PZGDatabaseUpdate Msg} (hu : u ∈ us) :
    us.filter (fun v => decide (v.updateID = u.updateID)) = [u] := by
  induction us with
  | nil => simp at hu
  | cons w rest ih =>
      obtain ⟨hrest, hsorted⟩ := List.pairwise_cons.mp hsorted
      rcases List.mem_cons.mp hu with rfl | hu
      · rw [List.filter_cons_of_pos (by simp),
          List.filter_eq_nil_iff.mpr fun v hv => ?_]
        have := hrest v hv
        rw [decide_eq_true_eq]
        omega
      · have := hrest u hu
        rw [List.filter_cons_of_neg (by rw [decide_eq_true_eq]; omega)]
        exact ih hsorted hu

end PZGDatabaseState

/-! ## A tenure -/

/-- A senior peer with what it has done since it became senior: the updates
it has passed to `SendDatabaseUpdateViaMulticast` and the updates that
`SeniorUpdateCompleted` has completed, each in order. -/
structure Tenure (DB Msg : Type) where
  peer : ZGPeerSession DB Msg
  passed : List (PZGDatabaseUpdate Msg)
  completed : List (PZGDatabaseUpdate Msg)

namespace Tenure

/-- The start of a tenure. -/
def start (p : ZGPeerSession DB Msg) : Tenure DB Msg := ⟨p, [], []⟩

/-- The update that an event completes on a senior peer: a request that
succeeds completes the update of the state it leads to. -/
def completedBy (cb : Callbacks DB Msg) (p : ZGPeerSession DB Msg) :
    PeerEvent Msg → List (PZGDatabaseUpdate Msg)
  | .databaseUpdateRequest fromPeerID msg time =>
      let r := p.handleDatabaseUpdateRequest cb fromPeerID msg time
      if r.1.isOK then
        (r.2.database.updateLog.get?
          r.2.database.localDatabaseStateID).toList
      else []
  | _ => []

/-- One event of the tenure. -/
def step (cb : Callbacks DB Msg) (t : Tenure DB Msg) (e : PeerEvent Msg) :
    Tenure DB Msg where
  peer := t.peer.step cb e
  passed := t.passed ++ multicastsOf (t.peer.step cb e).database.masterCalls
  completed := t.completed ++ completedBy cb t.peer.forgetCalls e

/-- An event of a tenure keeps the senior, and all its multicasts succeed. -/
def TenureEvent : PeerEvent Msg → Prop
  | .seniorPeerChanged _ => False
  | .backOrderResult _ _ link => link.MulticastsSucceed
  | .rescan link => link.MulticastsSucceed
  | .pulse link => link.MulticastsSucceed
  | _ => True

/-- **What is asked of a tenure.**  Once no rescan is pending, every
completed update has been passed to the multicast exactly once, as it was
completed; updates are passed in increasing order; and none is ahead of the
senior's own state. -/
structure MulticastsOnce (t : Tenure DB Msg) : Prop where
  exactlyOnce : t.peer.database.rescanLogPending = false →
    ∀ u ∈ t.completed,
      t.passed.filter (fun v => decide (v.updateID = u.updateID)) = [u]
  increasing : t.passed.Pairwise fun u v => u.updateID < v.updateID
  notAhead : ∀ u ∈ t.passed,
    u.updateID ≤ t.peer.database.localDatabaseStateID

/-- **When a tenure can start.**  The mark is not past the next update, and
the log holds nothing above the senior's state, except that an update just
above it does no harm while no rescan is pending: the next request replaces
or removes it. -/
def TenureCanStart (d : PZGDatabaseState DB Msg) : Prop :=
  d.firstUnsentUpdateID ≤ d.localDatabaseStateID + 1 ∧
    ∀ u ∈ d.updateLog.entries, u.updateID ≤ d.localDatabaseStateID ∨
      d.rescanLogPending = false ∧
        u.updateID = d.localDatabaseStateID + 1

instance {d : PZGDatabaseState DB Msg} : Decidable (TenureCanStart d) :=
  inferInstanceAs (Decidable (_ ∧ ∀ u ∈ d.updateLog.entries, _ ∨ _ ∧ _))

/-- The invariant of a tenure: a completed update has been passed, or it is
still logged at or above the mark and a rescan is pending. -/
structure Inv (t : Tenure DB Msg) : Prop where
  senior : t.peer.iAmTheSeniorPeer = true
  attached : t.peer.iAmFullyAttached = true
  canStart : TenureCanStart t.peer.database
  passedBelow : ∀ u ∈ t.passed,
    u.updateID < t.peer.database.firstUnsentUpdateID
  increasing : t.passed.Pairwise fun u v => u.updateID < v.updateID
  completed : ∀ u ∈ t.completed,
    u.updateID ≤ t.peer.database.localDatabaseStateID ∧
    (u.updateID < t.peer.database.firstUnsentUpdateID ∧
        t.passed.filter (fun v => decide (v.updateID = u.updateID)) = [u] ∨
      t.peer.database.rescanLogPending = true ∧
        u ∈ PZGDatabaseState.unsentUpdates t.peer.database)

theorem inv_start {p : ZGPeerSession DB Msg}
    (hsenior : p.iAmTheSeniorPeer = true)
    (hattached : p.iAmFullyAttached = true)
    (hstart : TenureCanStart p.database) : Inv (start p) where
  senior := hsenior
  attached := hattached
  canStart := hstart
  passedBelow := fun _ h => by cases h
  increasing := .nil
  completed := fun _ h => by cases h

/-- The invariant gives what is asked. -/
theorem Inv.multicastsOnce {t : Tenure DB Msg} (h : Inv t) :
    MulticastsOnce t where
  exactlyOnce := by
    intro hquiet u hu
    rcases (h.completed u hu).2 with ⟨_, honce⟩ | ⟨hpending, _⟩
    · exact honce
    · simp [hquiet] at hpending
  increasing := h.increasing
  notAhead := by
    intro u hu
    have hbelow := h.passedBelow u hu
    have hmark := h.canStart.1
    omega

/-! ## What the events do to a tenure -/

section Events

variable {t : Tenure DB Msg}

/-- An event that leaves the database, the roles and the lists alone. -/
theorem Inv.of_same {t' : Tenure DB Msg} (h : Inv t)
    (hmaster : t'.peer.master = t.peer.master)
    (hpassed : t'.passed = t.passed) (hcompleted : t'.completed = t.completed)
    (hlog : t'.peer.database.updateLog = t.peer.database.updateLog)
    (hlocal : t'.peer.database.localDatabaseStateID =
      t.peer.database.localDatabaseStateID)
    (hmark : t'.peer.database.firstUnsentUpdateID =
      t.peer.database.firstUnsentUpdateID)
    (hpending : t'.peer.database.rescanLogPending =
      t.peer.database.rescanLogPending) : Inv t' := by
  obtain ⟨hsenior, hattached, hcan, hbelow, hincreasing, hdone⟩ := h
  refine ⟨?_, ?_, ?_, ?_, ?_, ?_⟩
  · rw [ZGPeerSession.iAmTheSeniorPeer, hmaster]
    exact hsenior
  · have := congrArg Master.iAmFullyAttached hmaster
    exact this.trans hattached
  · unfold TenureCanStart
    rw [hlog, hlocal, hmark, hpending]
    exact hcan
  · rw [hpassed, hmark]
    exact hbelow
  · rw [hpassed]
    exact hincreasing
  · rw [hcompleted, hpassed, hlocal, hmark, hpending]
    simp only [PZGDatabaseState.unsentUpdates, hlog, hmark]
    exact hdone

/-- An event that only empties the list of calls. -/
theorem Inv.of_forgetCalls (h : Inv t) {e : PeerEvent Msg}
    (hstep : t.peer.step cb e = t.peer.forgetCalls)
    (hcompleted : completedBy cb t.peer.forgetCalls e = []) :
    Inv (step cb t e) := by
  refine h.of_same ?_ ?_ ?_ ?_ ?_ ?_ ?_
  all_goals simp only [Tenure.step, hstep, hcompleted]
  all_goals simp [ZGPeerSession.forgetCalls, ZGPeerSession.master,
    multicastsOf]

/-- **A rescan of the senior peer** keeps the invariant: it passes every
update that is still to be passed. -/
theorem Inv.rescan {t' : Tenure DB Msg} (h : Inv t) {link : Link}
    (hup : link.MulticastsSucceed)
    (hpending : t.peer.database.rescanLogPending = true)
    (hmaster : t'.peer.master = t.peer.master)
    (hdatabase : t'.peer.database =
      PZGDatabaseState.rescanUpdateLog cb t.peer.master link
        { t.peer.database with rescanLogPending := false, masterCalls := [] })
    (hpassed : t'.passed =
      t.passed ++ multicastsOf t'.peer.database.masterCalls)
    (hcompleted : t'.completed = t.completed) : Inv t' := by
  obtain ⟨hsenior, hattached, ⟨hmark, hlog⟩, hbelow, hincreasing, hdone⟩ := h
  obtain ⟨calls, log, _, _, _, hcalls, hsub, hrescan⟩ :=
    PZGDatabaseState.rescanUpdateLog_senior cb hsenior hup
      { t.peer.database with rescanLogPending := false, masterCalls := [] }
  set sent := PZGDatabaseState.unsentUpdates t.peer.database with hsent
  have hcalls : multicastsOf calls = sent := hcalls
  have hpassed : t'.passed = t.passed ++ sent := by
    rw [hpassed, hdatabase, hrescan, ← hcalls]
    simp
  -- with a rescan pending, nothing in the log is above the senior's state
  have hbound : ∀ u ∈ t.peer.database.updateLog.entries,
      u.updateID ≤ t.peer.database.localDatabaseStateID := by
    intro u hu
    rcases hlog u hu with hle | ⟨hquiet, _⟩
    · exact hle
    · simp [hpending] at hquiet
  have hfrom : ∀ u ∈ sent,
      t.peer.database.firstUnsentUpdateID ≤ u.updateID := fun u hu =>
    (PZGDatabaseState.mem_unsentUpdates.mp hu).2
  have hto : ∀ u ∈ sent,
      u.updateID < t.peer.database.localDatabaseStateID + 1 := fun u hu =>
    Nat.lt_succ_of_le
      (hbound u (PZGDatabaseState.mem_unsentUpdates.mp hu).1)
  have hsorted : sent.Pairwise fun u v => u.updateID < v.updateID :=
    PZGDatabaseState.unsentUpdates_sorted
  obtain ⟨hforward, hstop⟩ :=
    PZGDatabaseState.markAfter_bounds hfrom hto hmark
  refine ⟨?_, ?_, ⟨?_, ?_⟩, ?_, ?_, ?_⟩
  · rw [ZGPeerSession.iAmTheSeniorPeer, hmaster]
    exact hsenior
  · exact (congrArg Master.iAmFullyAttached hmaster).trans hattached
  · rw [hdatabase, hrescan]
    exact hstop
  · rw [hdatabase, hrescan]
    exact fun u hu => .inl (hbound u (hsub u hu))
  · rw [hdatabase, hrescan, hpassed]
    intro u hu
    rcases List.mem_append.mp hu with hu | hu
    · exact lt_of_lt_of_le (hbelow u hu) hforward
    · exact PZGDatabaseState.lt_markAfter hsorted hu
  · rw [hpassed]
    refine List.pairwise_append.mpr ⟨hincreasing, hsorted, ?_⟩
    exact fun u hu v hv => lt_of_lt_of_le (hbelow u hu) (hfrom v hv)
  · rw [hcompleted, hpassed, hdatabase, hrescan]
    intro u hu
    obtain ⟨hle, hcase⟩ := hdone u hu
    refine ⟨hle, .inl ?_⟩
    rw [List.filter_append]
    rcases hcase with ⟨hlt, honce⟩ | ⟨_, hunsent⟩
    · refine ⟨lt_of_lt_of_le hlt hforward, ?_⟩
      rw [honce, List.filter_eq_nil_iff.mpr fun v hv => ?_]
      · rfl
      · have := hfrom v hv
        rw [decide_eq_true_eq]
        omega
    · refine ⟨PZGDatabaseState.lt_markAfter hsorted hunsent, ?_⟩
      rw [PZGDatabaseState.filter_updateID_eq_singleton hsorted hunsent,
        List.filter_eq_nil_iff.mpr fun v hv => ?_]
      · rfl
      · have := hbelow v hv
        have := hfrom u hunsent
        rw [decide_eq_true_eq]
        omega

/-- A rescan that happens only if one is pending keeps the invariant. -/
theorem Inv.rescanIfNecessary {t' : Tenure DB Msg} (h : Inv t)
    (cb : Callbacks DB Msg) {link : Link} (hup : link.MulticastsSucceed)
    (hmaster : t'.peer.master = t.peer.master)
    (hdatabase : t'.peer.database =
      PZGDatabaseState.rescanUpdateLogIfNecessary cb t.peer.master link
        { t.peer.database with masterCalls := [] })
    (hpassed : t'.passed =
      t.passed ++ multicastsOf t'.peer.database.masterCalls)
    (hcompleted : t'.completed = t.completed) : Inv t' := by
  unfold PZGDatabaseState.rescanUpdateLogIfNecessary at hdatabase
  split at hdatabase
  · rename_i hpending
    exact h.rescan hup hpending hmaster hdatabase hpassed hcompleted
  · refine h.of_same hmaster ?_ hcompleted ?_ ?_ ?_ ?_
    · rw [hpassed, hdatabase]
      exact List.append_nil _
    all_goals rw [hdatabase]

/-- A request that completes `done`, the update of the next state. -/
theorem Inv.requestCompleted {t' : Tenure DB Msg} (h : Inv t)
    (done : PZGDatabaseUpdate Msg)
    (hid : done.updateID = t.peer.database.localDatabaseStateID + 1)
    (hmaster : t'.peer.master = t.peer.master)
    (hpassed : t'.passed = t.passed)
    (hcompleted : t'.completed = t.completed ++ [done])
    (hlog : t'.peer.database.updateLog =
      t.peer.database.updateLog.put done)
    (hlocal : t'.peer.database.localDatabaseStateID =
      t.peer.database.localDatabaseStateID + 1)
    (hmark : t'.peer.database.firstUnsentUpdateID =
      t.peer.database.firstUnsentUpdateID)
    (hpending : t'.peer.database.rescanLogPending = true) : Inv t' := by
  obtain ⟨hsenior, hattached, ⟨hstart, hentries⟩, hbelow, hincreasing,
    hdone⟩ := h
  have hmem : ∀ u, u ∈ t'.peer.database.updateLog.entries ↔
      u = done ∨ u ∈ t.peer.database.updateLog.entries ∧
        u.updateID ≠ t.peer.database.localDatabaseStateID + 1 := by
    intro u
    rw [hlog, OrderedTable.mem_put, hid]
  refine ⟨?_, ?_, ⟨?_, ?_⟩, ?_, ?_, ?_⟩
  · rw [ZGPeerSession.iAmTheSeniorPeer, hmaster]
    exact hsenior
  · exact (congrArg Master.iAmFullyAttached hmaster).trans hattached
  · rw [hmark, hlocal]
    omega
  · intro u hu
    rw [hlocal]
    rcases (hmem u).mp hu with rfl | ⟨hu, hne⟩
    · exact .inl hid.le
    · rcases hentries u hu with hle | ⟨_, heq⟩
      · exact .inl (by omega)
      · exact absurd heq hne
  · rw [hpassed, hmark]
    exact hbelow
  · rw [hpassed]
    exact hincreasing
  · rw [hcompleted, hpassed, hlocal, hmark, hpending]
    intro u hu
    rw [PZGDatabaseState.mem_unsentUpdates, hmark, hmem]
    rcases List.mem_append.mp hu with hu | hu
    · obtain ⟨hle, hcase⟩ := hdone u hu
      refine ⟨by omega, hcase.imp id fun ⟨_, hunsent⟩ => ⟨rfl, ?_⟩⟩
      obtain ⟨hin, hfrom⟩ := PZGDatabaseState.mem_unsentUpdates.mp hunsent
      exact ⟨.inr ⟨hin, by omega⟩, hfrom⟩
    · obtain rfl : u = done := List.mem_singleton.mp hu
      exact ⟨hid.le, .inr ⟨rfl, .inl rfl, by omega⟩⟩

/-- A request that fails takes the update of the next state out of the
log again. -/
theorem Inv.requestRolledBack {t' : Tenure DB Msg} (h : Inv t)
    (hmaster : t'.peer.master = t.peer.master)
    (hpassed : t'.passed = t.passed)
    (hcompleted : t'.completed = t.completed)
    (hlog : t'.peer.database.updateLog = t.peer.database.updateLog.remove
      (t.peer.database.localDatabaseStateID + 1))
    (hlocal : t'.peer.database.localDatabaseStateID =
      t.peer.database.localDatabaseStateID)
    (hmark : t'.peer.database.firstUnsentUpdateID =
      t.peer.database.firstUnsentUpdateID)
    (hpending : t'.peer.database.rescanLogPending = true) : Inv t' := by
  obtain ⟨hsenior, hattached, ⟨hstart, hentries⟩, hbelow, hincreasing,
    hdone⟩ := h
  refine ⟨?_, ?_, ⟨?_, ?_⟩, ?_, ?_, ?_⟩
  · rw [ZGPeerSession.iAmTheSeniorPeer, hmaster]
    exact hsenior
  · exact (congrArg Master.iAmFullyAttached hmaster).trans hattached
  · rw [hmark, hlocal]
    exact hstart
  · intro u hu
    rw [hlog] at hu
    obtain ⟨hu, hne⟩ := OrderedTable.mem_remove.mp hu
    rw [hlocal]
    rcases hentries u hu with hle | ⟨_, heq⟩
    · exact .inl hle
    · exact absurd heq hne
  · rw [hpassed, hmark]
    exact hbelow
  · rw [hpassed]
    exact hincreasing
  · rw [hcompleted, hpassed, hlocal, hmark, hpending]
    intro u hu
    obtain ⟨hle, hcase⟩ := hdone u hu
    refine ⟨hle, hcase.imp id fun ⟨_, hunsent⟩ => ⟨rfl, ?_⟩⟩
    obtain ⟨hin, hfrom⟩ := PZGDatabaseState.mem_unsentUpdates.mp hunsent
    rw [PZGDatabaseState.mem_unsentUpdates, hlog, hmark]
    exact ⟨OrderedTable.mem_remove.mpr ⟨hin, by omega⟩, hfrom⟩

/-- **A request on the senior peer** keeps the invariant. -/
theorem Inv.request (h : Inv t) (fromPeerID : ZGPeerID)
    (msg : DatabaseUpdateRequest Msg) (time : Timing) :
    Inv (step cb t (.databaseUpdateRequest fromPeerID msg time)) := by
  rcases ZGPeerSession.handleDatabaseUpdateRequest_cases cb
    t.peer.forgetCalls fromPeerID msg time with
    ⟨ret, hrefused, herr⟩ | ⟨_, r, hstep, _, hhandled⟩ | ⟨hjunior, _⟩
  · have hpeer : ZGPeerSession.step cb t.peer
        (.databaseUpdateRequest fromPeerID msg time) =
        t.peer.forgetCalls := by
      simp only [ZGPeerSession.step, hrefused]
    refine h.of_same ?_ ?_ ?_ ?_ ?_ ?_ ?_
    all_goals simp only [Tenure.step, hpeer, completedBy, hrefused, herr]
    all_goals simp [ZGPeerSession.forgetCalls, ZGPeerSession.master, multicastsOf]
  · cases hstep with
    | refused ret herr =>
        refine h.of_same ?_ ?_ ?_ ?_ ?_ ?_ ?_
        all_goals simp only [Tenure.step, ZGPeerSession.step, completedBy,
          hhandled, herr]
        all_goals simp [ZGPeerSession.forgetCalls, ZGPeerSession.master,
          ZGPeerSession.withDatabase, multicastsOf]
    | completed from' updateType callback hcall time' payloadMsg hok bytes
        millis oldest =>
        have hattached : t.peer.forgetCalls.master.iAmFullyAttached = true :=
          h.attached
        let done := t.peer.forgetCalls.database.finishedUpdate from' updateType
          (callback t.peer.database.database t.peer.database.dbChecksum).2.1
          time' payloadMsg
        have hget : (t.peer.database.updateLog.put done).get?
            (t.peer.database.localDatabaseStateID + 1) = some done :=
          OrderedTable.get?_put_self
        refine h.requestCompleted done rfl ?_ ?_ ?_ ?_ ?_ ?_ ?_
        all_goals simp only [Tenure.step, ZGPeerSession.step, completedBy,
          hhandled]
        · rfl
        · simp [ZGPeerSession.forgetCalls, multicastsOf]
        · exact congrArg (fun u => t.completed ++ Option.toList u) hget
        · rfl
        · rfl
        · rfl
        · simp [ZGPeerSession.withDatabase, hattached]
    | rolledBack updateType callback hcall ret herr hret bytes millis
        oldest =>
        have hattached : t.peer.forgetCalls.master.iAmFullyAttached = true :=
          h.attached
        refine h.requestRolledBack ?_ ?_ ?_ ?_ ?_ ?_ ?_
        all_goals simp only [Tenure.step, ZGPeerSession.step, completedBy,
          hhandled, hret]
        all_goals simp [ZGPeerSession.forgetCalls, ZGPeerSession.master,
          ZGPeerSession.withDatabase, multicastsOf, h.attached]
  · have hsenior : t.peer.forgetCalls.iAmTheSeniorPeer = true := h.senior
    simp [hjunior] at hsenior

/-- **One event.**  The invariant survives every event of a tenure. -/
theorem Inv.step (h : Inv t) {e : PeerEvent Msg} (he : TenureEvent e) :
    Inv (step cb t e) := by
  have hsenior : t.peer.forgetCalls.iAmTheSeniorPeer = true := h.senior
  cases e with
  | peerHasComeOnline =>
      have hattached : t.peer.forgetCalls.iAmFullyAttached = true := h.attached
      have hstep : ZGPeerSession.step cb t.peer .peerHasComeOnline =
          t.peer.forgetCalls := by
        simp only [ZGPeerSession.step, ZGPeerSession.peerHasComeOnline]
        rw [if_pos hattached]
      exact h.of_forgetCalls hstep rfl
  | seniorPeerChanged newSeniorPeerID => exact he.elim
  | databaseUpdateRequest fromPeerID msg time => exact h.request fromPeerID msg time
  | beaconReceived fromPeerID info =>
      -- beacon data from the peer itself is never handled
      have hself : t.peer.forgetCalls.seniorPeerID =
          t.peer.forgetCalls.localPeerID := of_decide_eq_true hsenior
      have hstep : ZGPeerSession.step cb t.peer
          (.beaconReceived fromPeerID info) = t.peer.forgetCalls := by
        simp only [ZGPeerSession.step, ZGPeerSession.beaconDataChanged]
        rw [if_neg fun hcond => hcond.2 (hcond.1.trans hself)]
      exact h.of_forgetCalls hstep rfl
  | backOrderResult ubok opt link =>
      have hsenior : t.peer.forgetCalls.master.iAmTheSeniorPeer = true :=
        hsenior
      have hreply := PZGDatabaseState.backOrderResultReceived_step cb
        t.peer.forgetCalls.master link t.peer.forgetCalls.database ubok opt
      have hstep : ∃ orders, ZGPeerSession.step cb t.peer
          (.backOrderResult ubok opt link) = t.peer.forgetCalls.withDatabase
          { t.peer.forgetCalls.database with backorders := orders } := by
        simp only [ZGPeerSession.step, ZGPeerSession.backOrderResultReceived]
        generalize PZGDatabaseState.backOrderResultReceived cb _ link _ ubok
          opt = d' at hreply ⊢
        cases hreply with
        | ignored _ _ => exact ⟨t.peer.forgetCalls.database.backorders, rfl⟩
        | dropped _ _ _ => exact ⟨_, rfl⟩
        | _ => simp_all
      obtain ⟨orders, hstep⟩ := hstep
      refine h.of_same ?_ ?_ ?_ ?_ ?_ ?_ ?_
      all_goals simp only [Tenure.step, hstep]
      all_goals simp [ZGPeerSession.forgetCalls, ZGPeerSession.master,
        ZGPeerSession.withDatabase, completedBy, multicastsOf]
  | rescan link =>
      exact h.rescanIfNecessary cb he rfl rfl rfl (List.append_nil _)
  | pulse link =>
      by_cases hset : t.peer.setBeaconDataPending = true
      · have hstep : t.peer.step cb (.pulse link) = _ := if_pos hset
        refine h.rescanIfNecessary cb he ?_ ?_ ?_ (List.append_nil _)
        all_goals simp only [Tenure.step, hstep]
        · rfl
        · rfl
      · have hstep : t.peer.step cb (.pulse link) = t.peer.forgetCalls :=
          if_neg hset
        exact h.of_forgetCalls hstep rfl
  | backOrderRequested ubok due =>
      by_cases hdue : ubok.databaseUpdateID = databaseUpdateIDFullUpdate ∧
          due = true
      · have hstep : t.peer.step cb (.backOrderRequested ubok due) =
            t.peer.forgetCalls.withDatabase
              (t.peer.forgetCalls.database.verifyOrFixLocalDatabaseChecksum
                cb) := if_pos hdue
        refine h.of_same ?_ ?_ ?_ ?_ ?_ ?_ ?_
        all_goals simp only [Tenure.step, hstep]
        all_goals simp [ZGPeerSession.forgetCalls, ZGPeerSession.master,
          ZGPeerSession.withDatabase, completedBy, multicastsOf,
          PZGDatabaseState.verifyOrFixLocalDatabaseChecksum]
      · have hstep : t.peer.step cb (.backOrderRequested ubok due) =
            t.peer.forgetCalls := if_neg hdue
        exact h.of_forgetCalls hstep rfl

end Events

/-! ## When the tenure goes as claimed -/

section Exact

variable {p : ZGPeerSession DB Msg}

/-- A RESET request of the senior peer itself. -/
def resetRequest (p : ZGPeerSession DB Msg) : PeerEvent Msg :=
  .databaseUpdateRequest p.localPeerID .resetSeniorDatabase ⟨0, 0⟩

/-- A pending rescan of the senior peer passes every unsent update. -/
theorem step_rescan_up (cb : Callbacks DB Msg)
    (hsenior : p.iAmTheSeniorPeer = true)
    (hpending : p.database.rescanLogPending = true) :
    let q := p.step cb (.rescan .up)
    multicastsOf q.database.masterCalls =
        PZGDatabaseState.unsentUpdates p.database ∧
      q.database.rescanLogPending = false ∧
      q.database.localDatabaseStateID = p.database.localDatabaseStateID := by
  obtain ⟨calls, _, _, _, _, hcalls, -, hrescan⟩ :=
    PZGDatabaseState.rescanUpdateLog_senior cb hsenior
      Link.up_multicastsSucceed
      { p.database with rescanLogPending := false, masterCalls := [] }
  have hdatabase : (p.step cb (.rescan .up)).database =
      PZGDatabaseState.rescanUpdateLog cb p.master .up
        { p.database with rescanLogPending := false, masterCalls := [] } :=
    if_pos hpending
  dsimp only
  rw [hdatabase, hrescan]
  exact ⟨hcalls, rfl, rfl⟩

/-- A RESET request of the senior peer always completes an update. -/
theorem step_resetRequest (cb : Callbacks DB Msg)
    (hsenior : p.iAmTheSeniorPeer = true)
    (hattached : p.iAmFullyAttached = true) :
    ∃ done : PZGDatabaseUpdate Msg,
      done.updateID = p.database.localDatabaseStateID + 1 ∧
      completedBy cb p.forgetCalls (resetRequest p) = [done] ∧
      let q := p.step cb (resetRequest p)
      q.iAmTheSeniorPeer = true ∧
      q.database.updateLog = p.database.updateLog.put done ∧
      q.database.localDatabaseStateID =
        p.database.localDatabaseStateID + 1 ∧
      q.database.firstUnsentUpdateID = p.database.firstUnsentUpdateID ∧
      q.database.rescanLogPending = true ∧
      multicastsOf q.database.masterCalls = [] := by
  let r := PZGDatabaseState.executeSeniorUpdate cb p.forgetCalls.master
    p.forgetCalls.database p.localPeerID .reset
    (PZGDatabaseState.seniorReset cb) ⟨0, 0⟩
  have hok : r.1 = .noError := rfl
  have hstep : PZGDatabaseState.RequestStep cb p.forgetCalls.master
      p.forgetCalls.database r :=
    PZGDatabaseState.executeSeniorUpdate_step .reset
  have hhandled : p.forgetCalls.handleDatabaseUpdateRequest cb p.localPeerID
      .resetSeniorDatabase ⟨0, 0⟩ = (r.1, p.forgetCalls.withDatabase r.2) := by
    have hrole : p.forgetCalls.iAmTheSeniorPeer = true := hsenior
    have hmeant : ZGPeerSession.isMeantForSeniorPeer
        (.resetSeniorDatabase : DatabaseUpdateRequest Msg) = true := rfl
    unfold ZGPeerSession.handleDatabaseUpdateRequest
    rw [hmeant, hrole, if_neg (by simp), if_neg (by simp)]
    rfl
  clear_value r
  have hattached' : p.forgetCalls.master.iAmFullyAttached = true := hattached
  cases hstep with
  | refused ret herr =>
      have hok : ret = .noError := hok
      simp [hok] at herr
  | rolledBack _ _ _ ret _ hret _ _ _ =>
      have hok : ret = .noError := hok
      simp [hok] at hret
  | completed from' updateType callback hcall time payloadMsg hcallback bytes
      millis oldest =>
      let done := p.forgetCalls.database.finishedUpdate from' updateType
        (callback p.database.database p.database.dbChecksum).2.1 time
        payloadMsg
      have hget : (p.database.updateLog.put done).get?
          (p.database.localDatabaseStateID + 1) = some done :=
        OrderedTable.get?_put_self
      refine ⟨done, rfl, ?_, ?_⟩
      · simp only [completedBy, resetRequest, hhandled]
        exact congrArg Option.toList hget
      · dsimp only
        simp only [ZGPeerSession.step, resetRequest, hhandled]
        refine ⟨hsenior, rfl, rfl, rfl, ?_, ?_⟩
        · simp [ZGPeerSession.withDatabase, hattached']
        · simp [ZGPeerSession.withDatabase, ZGPeerSession.forgetCalls,
            multicastsOf]

/-- **Exactly-once multicast of the senior's own history, exactly when the
tenure can start.** -/
theorem multicastsOnce_iff (cb : Callbacks DB Msg)
    (hsenior : p.iAmTheSeniorPeer = true)
    (hattached : p.iAmFullyAttached = true) :
    (∀ es : List (PeerEvent Msg), (∀ e ∈ es, TenureEvent e) →
        MulticastsOnce (Runs.run (step cb) (start p) es)) ↔
      TenureCanStart p.database := by
  constructor
  · intro h
    obtain ⟨done, hid, hcompleted, hsenior', hlog, hlocal, hmark, hpending,
      hnone⟩ := step_resetRequest cb hsenior hattached
    obtain ⟨hpassed, hquiet, hkept⟩ := step_rescan_up cb hsenior' hpending
    have hafter : MulticastsOnce (Runs.run (step cb) (start p)
        [resetRequest p, .rescan .up]) :=
      h [resetRequest p, .rescan .up] (by
        simp [resetRequest, TenureEvent, Link.up_multicastsSucceed])
    obtain ⟨honce, -, hnotAhead⟩ := hafter
    simp only [Runs.run_cons, Runs.run_nil, step, start, hcompleted, hnone,
      hpassed, hkept, hlocal, List.nil_append] at honce hnotAhead
    have hunsent : ∀ u, u ∈ PZGDatabaseState.unsentUpdates
        (p.step cb (resetRequest p)).database ↔
        (u = done ∨ u ∈ p.database.updateLog.entries ∧
          u.updateID ≠ p.database.localDatabaseStateID + 1) ∧
        p.database.firstUnsentUpdateID ≤ u.updateID := by
      intro u
      rw [PZGDatabaseState.mem_unsentUpdates, hlog, hmark,
        OrderedTable.mem_put, hid]
    have hstart : p.database.firstUnsentUpdateID ≤
        p.database.localDatabaseStateID + 1 := by
      have hdone := honce hquiet done (by simp)
      have hmem := List.mem_of_mem_filter
        (hdone ▸ List.mem_singleton_self done)
      have := ((hunsent done).mp hmem).2
      omega
    refine ⟨hstart, fun u hu => ?_⟩
    by_contra hno
    simp only [not_or, not_and, Nat.not_le] at hno
    obtain ⟨habove, hnext⟩ := hno
    by_cases hid' : u.updateID = p.database.localDatabaseStateID + 1
    · -- a rescan that is pending already would pass `u` too early
      have hpending' : p.database.rescanLogPending = true := by
        by_contra hquiet'
        exact hnext (by simpa using hquiet') hid'
      obtain ⟨hpassed', -, hkept'⟩ := step_rescan_up cb hsenior hpending'
      have hearly := (h [.rescan .up] (by
        simp [TenureEvent, Link.up_multicastsSucceed])).notAhead
      simp only [Runs.run_cons, Runs.run_nil, step, start, hpassed', hkept',
        List.nil_append] at hearly
      have := hearly u
        (PZGDatabaseState.mem_unsentUpdates.mpr ⟨hu, by omega⟩)
      omega
    · have := hnotAhead u ((hunsent u).mpr ⟨.inr ⟨hu, hid'⟩, by omega⟩)
      omega
  · intro hstart es hes
    exact (Runs.run_invariant_of_stepsMeet
      (inv_start hsenior hattached hstart)
      (Runs.stepsMeet_of_forall hes)
      fun _ _ hinv he => hinv.step he).multicastsOnce

end Exact

/-! ## A fresh senior, and a promoted junior

Peer 1 is the senior from the start, or it is `promotedJunior`: it followed
peer 2, and is promoted with update 3 in its log and update 2 on order. -/

/-- A peer that is the senior from the start. -/
def freshSenior : ZGPeerSession ℕ ℕ :=
  { ZGPeerSession.freshUnder counterCallbacks 0 ⟨0, 1⟩ ⟨0, 1⟩ 0 100 with
    iAmFullyAttached := true }

/-- A senior peer from the start meets the condition, and multicasts the
update that its first request makes. -/
theorem freshSenior_multicastsOnce :
    TenureCanStart freshSenior.database ∧
      MulticastsOnce (Runs.run (step counterCallbacks) (start freshSenior)
        [resetRequest freshSenior, .rescan .up]) :=
  ⟨by decide, (multicastsOnce_iff counterCallbacks (by decide) (by decide)).mpr
    (by decide) _ (by
      simp [resetRequest, TenureEvent, Link.up_multicastsSucceed])⟩

/-- The promoted junior after `n` requests, each followed by a rescan. -/
def promotedTenure (n : ℕ) : Tenure ℕ ℕ :=
  Runs.run (step counterCallbacks) (start ZGPeerSession.promotedJunior)
    (List.replicate n
      [resetRequest ZGPeerSession.promotedJunior, .rescan .up]).flatten

/-- The promoted junior multicasts peer 2's update 3 while its own state is
2, and then does not multicast the update 3 that it makes itself. -/
theorem promotedJunior_multicasts_ahead :
    ZGPeerSession.promotedJunior.iAmTheSeniorPeer = true ∧
      ZGPeerSession.promotedJunior.iAmFullyAttached = true ∧
      (promotedTenure 1).peer.database.localDatabaseStateID = 2 ∧
      ZGPeerSession.countUp 3 ∈ (promotedTenure 1).passed ∧
      (promotedTenure 2).peer.database.rescanLogPending = false ∧
      (∃ u ∈ (promotedTenure 2).completed,
        u.updateID = 3 ∧ u ∉ (promotedTenure 2).passed) ∧
      ¬ MulticastsOnce (promotedTenure 1) := by
  have hlocal : (promotedTenure 1).peer.database.localDatabaseStateID = 2 := by
    decide
  have hpassed : ZGPeerSession.countUp 3 ∈ (promotedTenure 1).passed := by decide
  refine ⟨by decide, by decide, hlocal, hpassed, by decide, by decide,
    fun h => ?_⟩
  have hbound := h.notAhead _ hpassed
  rw [hlocal] at hbound
  exact absurd hbound (by decide)

end Tenure

end ZgChoir
