import ZgChoir.NoteAssignmentsMap

/-!
# What is kept beside the note assignments

As for the music sheet, a histogram and a checksum are kept beside the
chords of the peers, and `Kept` says that they are right.  An archive
restores the assignments in their order; so a junior that is sent the full
state after a review has what the senior has.
-/

namespace ZgChoir

namespace NoteAssignmentsMap

variable {c : Checksums} {it : RosterIterators} {m m' : NoteAssignmentsMap}
  {p q : ZGPeerID} {notes : UInt64} {i : Fin 64}

/-- How many peers play the note. -/
def noteCount (t : Hashtable ZGPeerID UInt64) (i : Fin 64) : ℕ :=
  (t.entries.map fun e => NoteHistogram.noteOf e.2 i).sum

/-- What is kept beside the chords is right. -/
structure Kept (c : Checksums) (m : NoteAssignmentsMap) : Prop where
  noSilence : ∀ e ∈ m.noteAssignments.entries, e.2 ≠ 0
  notes : m.notes.Counts (noteCount m.noteAssignments)
  checksum : m.checksum = m.calculateChecksum c

/-- Assignments are their strategy and their table. -/
theorem Kept.unique (h : m.Kept c) (h' : m'.Kept c)
    (hstrategy : m.assignmentStrategy = m'.assignmentStrategy)
    (htable : m.noteAssignments = m'.noteAssignments) : m = m' := by
  obtain ⟨table, strategy, notes, checksum⟩ := m
  obtain ⟨table', strategy', notes', checksum'⟩ := m'
  obtain rfl : table = table' := htable
  obtain rfl : strategy = strategy' := hstrategy
  have hnotes : notes = notes' := h.notes.unique h'.notes
  have hchecksum : checksum = checksum' := h.checksum.trans h'.checksum.symm
  rw [hnotes, hchecksum]

theorem kept_setToDefaultState : setToDefaultState.Kept c where
  noSilence := fun _ he => by cases he
  notes := NoteHistogram.counts_empty
  checksum := by
    simp [setToDefaultState, calculateChecksum, Hashtable.total,
      Hashtable.empty]

theorem Kept.setAssignmentStrategy (h : m.Kept c) (strategy : UInt32) :
    (m.setAssignmentStrategy strategy).Kept c := by
  refine ⟨h.noSilence, h.notes, ?_⟩
  simp only [NoteAssignmentsMap.setAssignmentStrategy, h.checksum,
    calculateChecksum]
  abel

/-! ### Counting the notes -/

theorem noteCount_eq_remove_add (t : Hashtable ZGPeerID UInt64)
    (p : ZGPeerID) (i : Fin 64) :
    noteCount t i = noteCount (t.remove p) i +
      NoteHistogram.noteOf ((t.get? p).getD 0) i := by
  have hweight : t.weightAt (fun _ notes => NoteHistogram.noteOf notes i) p =
      NoteHistogram.noteOf ((t.get? p).getD 0) i := by
    unfold Hashtable.weightAt
    cases t.get? p <;> simp
  rw [← hweight]
  exact Hashtable.total_eq_remove_add
    (w := fun _ notes => NoteHistogram.noteOf notes i)

theorem noteCount_put (t : Hashtable ZGPeerID UInt64) (p : ZGPeerID)
    (notes : UInt64) (i : Fin 64) :
    noteCount (t.put p notes) i =
      noteCount (t.remove p) i + NoteHistogram.noteOf notes i :=
  Hashtable.total_put_eq_remove_add
    (w := fun _ notes => NoteHistogram.noteOf notes i)

/-! ### One peer's notes -/

@[simp] theorem assignmentStrategy_set :
    (m.setNoteAssignmentsForPeerID c p notes).assignmentStrategy =
      m.assignmentStrategy := by
  simp only [setNoteAssignmentsForPeerID]
  split
  · split <;> rfl
  · split <;> rfl

/-- A peer without notes is removed, any other is put. -/
theorem noteAssignments_set :
    (m.setNoteAssignmentsForPeerID c p notes).noteAssignments =
      if notes ≠ 0 then m.noteAssignments.put p notes
      else m.noteAssignments.remove p := by
  simp only [setNoteAssignmentsForPeerID]
  split
  · split <;> rfl
  · split
    · rename_i hnone
      exact (Hashtable.remove_of_notMem
        (Hashtable.get?_eq_none_iff.mp hnone)).symm
    · rfl

@[simp] theorem getNoteAssignments_set :
    (m.setNoteAssignmentsForPeerID c p notes).getNoteAssignmentsForPeerID q =
      if q = p then notes else m.getNoteAssignmentsForPeerID q := by
  rw [getNoteAssignmentsForPeerID, noteAssignments_set]
  by_cases hnotes : notes = 0
  · rw [if_neg (by simp [hnotes]), Hashtable.get?_remove, hnotes]
    by_cases hq : q = p
    · simp [hq]
    · simp [hq, getNoteAssignmentsForPeerID]
  · rw [if_pos hnotes, Hashtable.get?_put]
    by_cases hq : q = p
    · simp [hq]
    · simp [hq, getNoteAssignmentsForPeerID]

/-- Only peers with notes are in the table. -/
theorem mem_keys_iff (h : m.Kept c) :
    p ∈ m.noteAssignments.keys ↔ m.getNoteAssignmentsForPeerID p ≠ 0 := by
  rw [← Hashtable.isSome_get?, getNoteAssignmentsForPeerID]
  cases hget : m.noteAssignments.get? p with
  | none => simp
  | some notes =>
      have hne := h.noSilence (p, notes) (Hashtable.get?_eq_some_iff.mp hget)
      simpa using hne

private theorem get?_eq_none_of_silent (h : m.Kept c)
    (hold : m.getNoteAssignmentsForPeerID p = 0) :
    m.noteAssignments.get? p = none := by
  apply Hashtable.get?_eq_none_iff.mpr
  rw [mem_keys_iff h]
  exact fun hne => hne hold

private theorem get?_of_sounds
    (hold : m.getNoteAssignmentsForPeerID p ≠ 0) :
    m.noteAssignments.get? p = some (m.getNoteAssignmentsForPeerID p) := by
  unfold getNoteAssignmentsForPeerID at hold ⊢
  cases hget : m.noteAssignments.get? p with
  | none => simp [hget] at hold
  | some notes => rfl

private theorem checksum_set (h : m.Kept c) (hnotes : notes ≠ 0) :
    (m.setNoteAssignmentsForPeerID c p notes).checksum =
      m.checksum - m.noteAssignments.weightAt (checksumForPeer c) p +
        checksumForPeer c p notes := by
  by_cases hold : m.getNoteAssignmentsForPeerID p = 0
  · have hnone := get?_eq_none_of_silent h hold
    simp [setNoteAssignmentsForPeerID, hnotes, hold, Hashtable.weightAt,
      hnone]
  · have hget := get?_of_sounds hold
    simp [setNoteAssignmentsForPeerID, hnotes, hold, Hashtable.weightAt,
      hget]

private theorem notes_set (h : m.Kept c) (hnotes : notes ≠ 0) :
    (m.setNoteAssignmentsForPeerID c p notes).notes.Counts
      (noteCount (m.noteAssignments.put p notes)) := by
  have hremoved := noteCount_eq_remove_add m.noteAssignments p
  have hput := noteCount_put m.noteAssignments p notes
  by_cases hold : m.getNoteAssignmentsForPeerID p = 0
  · simp only [setNoteAssignmentsForPeerID, hnotes, hold, ne_eq, not_true,
      not_false_eq_true, if_true, if_false]
    apply h.notes.add
    intro i
    rw [hput i, hremoved i,
      show (m.noteAssignments.get? p).getD 0 = 0 from hold,
      NoteHistogram.noteOf_zero, Nat.add_zero]
  · simp only [setNoteAssignmentsForPeerID, hnotes, hold, ne_eq,
      not_false_eq_true, if_true]
    exact (h.notes.remove hremoved).add hput

theorem Kept.set (h : m.Kept c) (p : ZGPeerID) (notes : UInt64) :
    (m.setNoteAssignmentsForPeerID c p notes).Kept c := by
  by_cases hnotes : notes = 0
  · subst hnotes
    cases hget : m.noteAssignments.get? p with
    | none => simpa [setNoteAssignmentsForPeerID, hget] using h
    | some oldVal =>
        have hset : m.setNoteAssignmentsForPeerID c p 0 =
            { m with
              noteAssignments := m.noteAssignments.remove p
              notes := updateNoteHistogram oldVal false m.notes
              checksum := m.checksum - checksumForPeer c p oldVal } := by
          simp [setNoteAssignmentsForPeerID, hget]
        have hcount := noteCount_eq_remove_add m.noteAssignments p
        simp only [hget, Option.getD_some] at hcount
        rw [hset]
        refine ⟨fun e he => h.noSilence e (List.mem_filter.mp he).1, ?_, ?_⟩
        · exact h.notes.remove hcount
        · simp only [h.checksum, calculateChecksum, Hashtable.total_remove,
            Hashtable.weightAt, hget]
          abel
  · refine ⟨fun e he => ?_, ?_, ?_⟩
    · rw [noteAssignments_set, if_pos hnotes] at he
      rcases Hashtable.mem_entries_put.mp he with rfl | ⟨he, -⟩
      · exact hnotes
      · exact h.noSilence e he
    · rw [noteAssignments_set, if_pos hnotes]
      exact notes_set h hnotes
    · rw [checksum_set h hnotes, h.checksum]
      simp only [calculateChecksum, assignmentStrategy_set,
        noteAssignments_set, if_pos hnotes, Hashtable.total_put]
      abel

/-! ### Archives -/

private theorem kept_foldl_set (es : List (ZGPeerID × UInt64))
    (h : m.Kept c) :
    (es.foldl (fun m e => m.setNoteAssignmentsForPeerID c e.1 e.2) m).Kept
      c :=
  List.foldlRecOn es _ h fun _ hm e _ => hm.set e.1 e.2

/-- Peers that are put one after the other, none of them twice. -/
private theorem foldl_set_eq {es : List (ZGPeerID × UInt64)}
    (hnotes : ∀ e ∈ es, e.2 ≠ 0)
    (hnodup : (m.noteAssignments.keys ++ es.map Prod.fst).Nodup) :
    let r := es.foldl (fun m e => m.setNoteAssignmentsForPeerID c e.1 e.2) m
    r.assignmentStrategy = m.assignmentStrategy ∧
      r.noteAssignments.entries = m.noteAssignments.entries ++ es := by
  induction es generalizing m with
  | nil => simp
  | cons e es ih =>
      have hnew : e.1 ∉ m.noteAssignments.keys := fun hmem =>
        (List.nodup_append.mp hnodup).2.2 e.1 hmem e.1 (by simp) rfl
      have hput : (m.setNoteAssignmentsForPeerID c e.1 e.2).noteAssignments =
          m.noteAssignments.put e.1 e.2 := by
        rw [noteAssignments_set, if_pos (hnotes e List.mem_cons_self)]
      have hkeys :=
        Hashtable.keys_put_of_notMem (v := e.2) hnew
      obtain ⟨hstrategy, hentries⟩ :=
        ih (m := m.setNoteAssignmentsForPeerID c e.1 e.2)
          (fun x hx => hnotes x (List.mem_cons_of_mem _ hx)) (by
            rw [hput, hkeys, List.append_assoc]
            simpa using hnodup)
      refine ⟨hstrategy.trans assignmentStrategy_set, ?_⟩
      rw [List.foldl_cons, hentries, hput,
        Hashtable.entries_put_of_notMem hnew, List.append_assoc]
      rfl

/-- The assignments that an archive restores. -/
theorem setFromArchive_saveToArchive (h : m.Kept c)
    (m₀ : NoteAssignmentsMap) :
    m₀.setFromArchive c (.assignmentsMap m.saveToArchive) =
      (m, .noError) := by
  have hzip : m.saveToArchive.pid.zip m.saveToArchive.chord =
      m.noteAssignments.entries := by
    rw [saveToArchive, List.zip_map']
    exact List.map_id' _
  have hstart : (setToDefaultState.setAssignmentStrategy
      m.assignmentStrategy).Kept c :=
    kept_setToDefaultState.setAssignmentStrategy _
  obtain ⟨hstrategy, hentries⟩ := foldl_set_eq (c := c)
    (m := setToDefaultState.setAssignmentStrategy m.assignmentStrategy)
    h.noSilence m.noteAssignments.distinct
  refine Prod.ext (((kept_foldl_set _ hstart).unique h ?_ ?_)) rfl
  · rw [hzip]
    exact hstrategy
  · rw [hzip]
    exact Hashtable.ext hentries

/-! ### Loops that tell whether they have changed anything -/

/-- A loop that started at `m` has come to `r`. -/
structure Tells (c : Checksums) (m : NoteAssignmentsMap)
    (r : NoteAssignmentsMap × Bool) : Prop where
  kept : r.1.Kept c
  unchanged : r.2 = false → r.1 = m

variable {r : NoteAssignmentsMap × Bool} {onlinePeers : List ZGPeerID}

theorem Tells.set (h : Tells c m r) (p : ZGPeerID) (notes : UInt64) :
    Tells c m (r.1.setNoteAssignmentsForPeerID c p notes, true) :=
  ⟨h.kept.set p notes, fun heq => by cases heq⟩

theorem tells_unassignOffline (h : m.Kept c)
    (onlinePeers visits : List ZGPeerID) :
    Tells c m (unassignOffline c onlinePeers visits m) := by
  refine List.foldlRecOn visits _ ⟨h, fun _ => rfl⟩ fun r hr p _ => ?_
  split
  · exact hr
  · exact hr.set p 0

theorem Tells.assignOrphans (h : Tells c m r) (onlinePeers : List ZGPeerID)
    (allNotesChord : UInt64) :
    Tells c m (assignOrphans c onlinePeers allNotesChord r) := by
  refine List.foldlRecOn _ _ h fun r hr i _ => ?_
  unfold assignOrphan
  split
  · exact hr.set _ _
  · exact hr

theorem Tells.removeRedundantNote (h : Tells c m r) (i : Fin 64) :
    Tells c m (removeRedundantNote c i r) := by
  refine List.foldlRecOn
    (motive := fun s : (NoteAssignmentsMap × Bool) × Bool => Tells c m s.1)
    _ _ h fun s hs p _ => ?_
  unfold removeRedundantFrom
  dsimp only
  split
  · split
    · exact hs.set _ _
    · exact hs
  · exact hs

theorem Tells.removeRedundantNotes (h : Tells c m r)
    (visits : List (Fin 64)) :
    Tells c m (removeRedundantNotes c visits r) := by
  refine List.foldlRecOn visits _ h fun r hr i _ => ?_
  split
  · exact hr.removeRedundantNote i
  · exact hr

theorem Tells.balanceLoop (h : Tells c m r) (onlinePeers : List ZGPeerID)
    (fuel : ℕ) : Tells c m (balanceLoop c onlinePeers fuel r) := by
  induction fuel generalizing r with
  | zero => exact h
  | succ fuel ih =>
      rw [NoteAssignmentsMap.balanceLoop]
      dsimp only
      split
      · exact ih ((h.set _ _).set _ _)
      · exact h

/-- A review keeps what is kept, and tells whether it has changed anything. -/
theorem tells_seniorAutoUpdateAssignments (h : m.Kept c)
    (onlinePeers : List ZGPeerID) (allNotesChord : UInt64) :
    Tells c m
      (m.seniorAutoUpdateAssignments c it onlinePeers allNotesChord) := by
  unfold seniorAutoUpdateAssignments
  split
  · exact ⟨h, fun _ => rfl⟩
  · have hfirst := tells_unassignOffline h onlinePeers
      (it.firstLoop m onlinePeers)
    dsimp only
    split
    · exact hfirst
    · have hsecond := hfirst.assignOrphans onlinePeers allNotesChord
      split
      · exact hsecond
      · have hthird := hsecond.removeRedundantNotes
          (it.histogramLoop (assignOrphans c onlinePeers allNotesChord
            (unassignOffline c onlinePeers
              (it.firstLoop m onlinePeers) m)).1)
        split
        · exact hthird.balanceLoop onlinePeers _
        · exact hthird

/-! ### Updates -/

theorem Kept.unassignNote (h : m.Kept c) (noteIdx : ℕ) :
    (m.unassignNote c noteIdx).Kept c := by
  refine List.foldlRecOn _ _ h fun m hm p _ => ?_
  dsimp only
  split
  · exact hm.set _ _
  · exact hm

theorem Kept.handleToggleAssignmentMessage (h : m.Kept c)
    (peerID : Option ZGPeerID) (noteIdx : UInt32) :
    (m.handleToggleAssignmentMessage c peerID noteIdx).1.Kept c := by
  cases peerID with
  | none => exact h
  | some p =>
      simp only [NoteAssignmentsMap.handleToggleAssignmentMessage]
      split
      · exact h.set _ _
      · split
        · exact h.unassignNote _
        · exact h

theorem Kept.setFromArchive (h : m.Kept c) (msg : RosterMessage) :
    (m.setFromArchive c msg).1.Kept c := by
  cases msg with
  | assignmentsMap archive =>
      exact kept_foldl_set _
        (kept_setToDefaultState.setAssignmentStrategy archive.strategy)
  | _ => exact h

theorem Kept.seniorUpdate (h : m.Kept c) (msg : RosterMessage) :
    (m.seniorUpdate c it msg).1.Kept c := by
  cases msg with
  | toggleAssignment peerID noteIdx =>
      exact h.handleToggleAssignmentMessage peerID noteIdx
  | unassignOrphans onlinePeers =>
      exact (tells_unassignOffline h onlinePeers _).kept
  | reviewAssignments onlinePeers allNotesChord =>
      exact (tells_seniorAutoUpdateAssignments h onlinePeers
        allNotesChord).kept
  | setStrategy strategy => exact h.setAssignmentStrategy strategy
  | noop => exact h
  | assignmentsMap _ => exact h
  | unknown _ => exact h

theorem Kept.juniorUpdate (h : m.Kept c) (msg : RosterMessage) :
    (m.juniorUpdate c msg).1.Kept c := by
  cases msg with
  | toggleAssignment peerID noteIdx =>
      exact h.handleToggleAssignmentMessage peerID noteIdx
  | setStrategy strategy => exact h.setAssignmentStrategy strategy
  | assignmentsMap archive => exact h.setFromArchive (.assignmentsMap archive)
  | unassignOrphans _ => exact h
  | reviewAssignments _ _ => exact h
  | noop => exact h
  | unknown _ => exact h

/-- The juniors get what the senior has, or hear that there is nothing to
do. -/
private theorem juniorUpdate_fullStateIf (h : Tells c m r) :
    m.juniorUpdate c (fullStateIf r.2 r.1) = (r.1, .noError) := by
  cases hchanged : r.2 with
  | false => exact congrArg (·, Status.noError) (h.unchanged hchanged).symm
  | true => exact setFromArchive_saveToArchive h.kept m

private theorem handleToggle_status (m : NoteAssignmentsMap)
    (peerID : Option ZGPeerID) (noteIdx : UInt32) :
    (m.handleToggleAssignmentMessage c peerID noteIdx).2 =
      if peerID.isSome then .noError else .dataNotFound := by
  cases peerID with
  | none => rfl
  | some p =>
      simp only [handleToggleAssignmentMessage]
      split
      · rfl
      · split <;> rfl

/-- The note assignments replay, whatever the iterators come to. -/
theorem replays (c : Checksums) (it : RosterIterators) :
    (databaseObject c it).Replays (Kept c) where
  default := kept_setToDefaultState
  senior msg h := h.seniorUpdate msg
  junior msg h := h.juniorUpdate msg
  setFrom msg h := h.setFromArchive msg
  juniorReplaysSenior := by
    intro m m' msg juniorMsg h hsenior
    cases msg with
    | toggleAssignment peerID noteIdx =>
        cases peerID with
        | none => cases hsenior
        | some p =>
            have hstatus := handleToggle_status (c := c) m (some p)
              noteIdx
            have hboth := Prod.mk.inj hsenior
            rw [hstatus] at hboth
            obtain rfl := Option.some.inj hboth.2
            exact Prod.ext hboth.1 hstatus
    | unassignOrphans onlinePeers =>
        cases hsenior
        exact juniorUpdate_fullStateIf (tells_unassignOffline h _ _)
    | reviewAssignments onlinePeers allNotesChord =>
        cases hsenior
        exact juniorUpdate_fullStateIf
          (tells_seniorAutoUpdateAssignments h _ _)
    | noop =>
        cases hsenior
        rfl
    | setStrategy strategy =>
        cases hsenior
        rfl
    | assignmentsMap _ => cases hsenior
    | unknown _ => cases hsenior
  setUndoesSave := by
    intro m msg m₀ h hsave
    obtain rfl : RosterMessage.assignmentsMap m.saveToArchive = msg :=
      Option.some.inj hsave
    exact setFromArchive_saveToArchive h m₀
  failedSenior := by
    intro m m' msg herr
    cases msg with
    | toggleAssignment peerID noteIdx =>
        cases peerID with
        | none =>
            cases herr
            rfl
        | some p =>
            have hstatus := handleToggle_status (c := c) m (some p)
              noteIdx
            have hboth := Prod.mk.inj herr
            rw [hstatus] at hboth
            cases hboth.2
    | unassignOrphans _ => cases herr
    | reviewAssignments _ _ => cases herr
    | noop => cases herr
    | setStrategy _ => cases herr
    | assignmentsMap _ =>
        cases herr
        rfl
    | unknown _ =>
        cases herr
        rfl
  failedSet := by
    intro m m' msg status hset hbad
    cases msg with
    | assignmentsMap archive =>
        cases hset
        exact absurd rfl hbad
    | _ =>
        cases hset
        rfl

end NoteAssignmentsMap

end ZgChoir
