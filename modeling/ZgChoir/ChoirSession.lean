import ZgChoir.MusicSheetReplicas
import ZgChoir.NoteReview
import ZgChoir.PlaybackState

/-!
# The choir session

The three databases of the choir demo are the same on every peer, by what
each of them does with a message.  The session itself asks for a review of
the note assignments when one may be necessary; a review settles that for as
long as the song, the peers and the assignments stay what they are.
-/

namespace ZgChoir

/-! ### The databases on every peer -/

/-- In every run under one senior the song, the playback state and the note
assignments are each the same on every peer, and what a peer keeps beside the
chords is right. -/
theorem choir_sameAsSenior (c : Checksums) (place : KeepsPlace)
    (it : RosterIterators) (sheetBytes : SheetMessage → UInt64)
    (playbackBytes : PlaybackMessage → UInt64)
    (rosterBytes : RosterMessage → UInt64) (seniorPeerID peerID : ZGPeerID)
    (maxPayloadBytesInLog : ZGPeerID → UInt64) :
    (∀ sheet, ∀ es : List (SystemEvent SheetMessage),
      (∀ e ∈ es, PeerSystem.KeepsSenior e) →
      DatabaseObject.SameAsSenior (MusicSheet.databaseObject c)
        (MusicSheet.Kept c) sheetBytes
        (PeerSystem.freshUnder
          ((MusicSheet.databaseObject c).callbacks sheetBytes) sheet
          seniorPeerID 0 maxPayloadBytesInLog) seniorPeerID peerID es) ∧
    (∀ playback, ∀ es : List (SystemEvent PlaybackMessage),
      (∀ e ∈ es, PeerSystem.KeepsSenior e) →
      DatabaseObject.SameAsSenior (PlaybackState.databaseObject c place)
        (fun _ => True) playbackBytes
        (PeerSystem.freshUnder
          ((PlaybackState.databaseObject c place).callbacks playbackBytes)
          playback seniorPeerID 1 maxPayloadBytesInLog)
        seniorPeerID peerID es) ∧
    (∀ roster, ∀ es : List (SystemEvent RosterMessage),
      (∀ e ∈ es, PeerSystem.KeepsSenior e) →
      DatabaseObject.SameAsSenior (NoteAssignmentsMap.databaseObject c it)
        (NoteAssignmentsMap.Kept c) rosterBytes
        (PeerSystem.freshUnder
          ((NoteAssignmentsMap.databaseObject c it).callbacks rosterBytes)
          roster seniorPeerID 2 maxPayloadBytesInLog)
        seniorPeerID peerID es) :=
  ⟨fun sheet es hes => (MusicSheet.replays c).sameAsSenior sheetBytes sheet
      seniorPeerID peerID 0 maxPayloadBytesInLog es hes,
    fun playback es hes => (PlaybackState.replays c place).sameAsSenior
      playbackBytes playback seniorPeerID peerID 1 maxPayloadBytesInLog es
      hes,
    fun roster es hes => (NoteAssignmentsMap.replays c it).sameAsSenior
      rosterBytes roster seniorPeerID peerID 2 maxPayloadBytesInLog es hes⟩

/-- Checksums that are easily computed. -/
def smallChecksums : Checksums where
  ofString text := UInt32.ofNat text.length
  ofPOD word := word.toUInt32

/-- Iterators that come to the first peer and to every note. -/
def smallIterators : RosterIterators where
  firstLoop m _ := m.noteAssignments.keys.take 1
  histogramLoop _ := List.finRange 64

/-- Peer 1 asks the senior, peer 2, to update the database, and is told. -/
def asksSenior {Msg : Type} (msg : Msg) : List (SystemEvent Msg) :=
  [.peerHasComeOnline ⟨0, 2⟩, .peerHasComeOnline ⟨0, 1⟩,
    .databaseUpdateRequest ⟨0, 2⟩ ⟨0, 1⟩ (.updateSeniorDatabase (some msg))
      ⟨0, 0⟩,
    .pulse ⟨0, 2⟩ .up, .sendBeacon ⟨0, 2⟩, .multicastReceived ⟨0, 1⟩ 0,
    .beaconReceived ⟨0, 1⟩ 0, .rescan ⟨0, 1⟩ .up]

theorem keepsSenior_asksSenior {Msg : Type} (msg : Msg) :
    ∀ e ∈ asksSenior msg, PeerSystem.KeepsSenior e := by
  simp [asksSenior, PeerSystem.KeepsSenior]

/-- Two peers that sing from an empty sheet. -/
def emptySheets : PeerSystem MusicSheet SheetMessage :=
  PeerSystem.freshUnder
    ((MusicSheet.databaseObject smallChecksums).callbacks fun _ => 8)
    MusicSheet.setToDefaultState ⟨0, 2⟩ 0 fun _ => 100

/-- The fourth note is put into the first column, on every peer. -/
theorem choir_sameAsSenior_toggleNote :
    DatabaseObject.SameAsSenior (MusicSheet.databaseObject smallChecksums)
      (MusicSheet.Kept smallChecksums) (fun _ => 8) emptySheets ⟨0, 2⟩ ⟨0, 1⟩
      (asksSenior (.toggleNote 0 3)) ∧
    ((Runs.run (PeerSystem.step
      ((MusicSheet.databaseObject smallChecksums).callbacks fun _ => 8))
      emptySheets (asksSenior (.toggleNote 0 3))).peers
        ⟨0, 1⟩).database.database.chords.chordAt 0 = 8 := by
  refine ⟨?_, by decide⟩
  exact (choir_sameAsSenior smallChecksums (fun now _ _ _ => now)
    smallIterators (fun _ => 8) (fun _ => 8) (fun _ => 8) ⟨0, 2⟩ ⟨0, 1⟩
    fun _ => 100).1 _ _ (keepsSenior_asksSenior _)

/-! ### Columns of the song -/

/-- In every state that a song comes to, deleting a column takes it out and
moves what follows it back; inserting one moves what follows forward and
leaves silence; and deleting the column that has just been inserted gives
back the sheet, histogram and checksum included, unless a chord was pushed
over the end. -/
theorem columns_of_held {c : Checksums} {sheetBytes : SheetMessage → UInt64}
    {s : MusicSheet} {chk : UInt32}
    (h : Held ((MusicSheet.databaseObject c).callbacks sheetBytes) s chk)
    (w : UInt32) :
    (s.deleteChordAt c w).getChordAtIndex =
        closeColumn w s.getChordAtIndex ∧
      (s.getChordAtIndex lastIndex = 0 →
        (s.insertChordAt c w).getChordAtIndex =
            openColumn w s.getChordAtIndex ∧
          (s.insertChordAt c w).deleteChordAt c w = s) := by
  obtain ⟨hkept, -⟩ := (MusicSheet.replays c).of_held h
  exact ⟨MusicSheet.chordAt_deleteChordAt hkept w, fun hlast =>
    ⟨MusicSheet.chordAt_insertChordAt hkept hlast w,
      MusicSheet.deleteChordAt_insertChordAt hkept hlast w⟩⟩

/-- A song with one note, in its third column. -/
def oneNote : MusicSheet :=
  (MusicSheet.setToDefaultState.seniorUpdate smallChecksums
    (.toggleNote 2 5)).1

theorem held_oneNote :
    Held ((MusicSheet.databaseObject smallChecksums).callbacks fun _ => 8)
      oneNote oneNote.checksum := by
  have hsenior : (MusicSheet.databaseObject smallChecksums).seniorUpdate
      MusicSheet.setToDefaultState (.toggleNote 2 5) =
      (oneNote, some (.setChord 2 (noteBit 5))) := rfl
  exact DatabaseObject.held_seniorUpdate
    (.reset MusicSheet.setToDefaultState 0) hsenior

/-- A column is inserted before the note and deleted again. -/
theorem columns_of_held_oneNote :
    (oneNote.insertChordAt smallChecksums 1).deleteChordAt smallChecksums 1 =
      oneNote :=
  ((columns_of_held held_oneNote 1).2 (by decide)).2

/-! ### Reviews -/

/-- `SetReviewResults`: what the last review has seen. -/
structure ReviewResults where
  allNotesAtLastReview : UInt64
  peersAtLastReview : List ZGPeerID

namespace NoteAssignmentsMap

/-- `IsStrategyReviewMaybeNecessary`, for the notes in the song and the peers
that are online. -/
def isStrategyReviewMaybeNecessary (m : NoteAssignmentsMap)
    (allNotesInMusic : UInt64) (onlinePeers : List ZGPeerID)
    (last : ReviewResults) : Bool :=
  if m.assignmentStrategy = assignmentStrategyManual then false
  else if allNotesInMusic &&& ~~~ m.getAllAssignedNotesChord ≠ 0 then true
  else if m.assignmentStrategy = assignmentStrategyAutomatic then
    if allNotesInMusic &&& ~~~ last.allNotesAtLastReview ≠ 0 then true
    else if !onlinePeers.isPerm last.peersAtLastReview then true
    else (List.finRange 64).any fun i =>
      decide (1 < (m.notes.counts.lookup i).getD 0)
  else false

variable {c : Checksums} {it : RosterIterators} {m m' : NoteAssignmentsMap}
  {onlinePeers : List ZGPeerID} {allNotesChord : UInt64}

/-- What is documented of MUSCLE's iterators: they come to entries of the
table, and to every entry that the loop does not remove. -/
structure RosterIterators.Documented (it : RosterIterators) : Prop where
  firstLoop : ∀ m onlinePeers, ∀ p ∈ it.firstLoop m onlinePeers,
    p ∈ m.noteAssignments.keys
  histogramLoop : ∀ m i, 1 < noteCount m.noteAssignments i →
    i ∈ it.histogramLoop m

/-- **What a review is for**: who has notes is online, no note has two
players, every note of the song has one and no note loses its last one, and
no peer has two notes more than another. -/
structure Reviewed (m m' : NoteAssignmentsMap) (onlinePeers : List ZGPeerID)
    (allNotesChord : UInt64) : Prop where
  onlineOnly : m'.OnlineOnly onlinePeers
  sole : m'.Sole
  assigned : ∀ i < 64, m'.Assigned i ↔ m.Assigned i ∨
    (i < numChoirNotes ∧ hasNote allNotesChord i = true)
  balanced : m'.Balanced onlinePeers

private theorem reviewed_of_automatic (allNotesChord : UInt64)
    (hit : RosterIterators.Documented it) (h : m.Kept c)
    (hstrategy : m.assignmentStrategy = assignmentStrategyAutomatic)
    (honline : m.OnlineOnly onlinePeers) (hnodup : onlinePeers.Nodup)
    (hne : onlinePeers ≠ []) :
    Underway c onlinePeers assignmentStrategyAutomatic
        (m.seniorAutoUpdateAssignments c it onlinePeers allNotesChord).1 ∧
      Reviewed m
        (m.seniorAutoUpdateAssignments c it onlinePeers allNotesChord).1
        onlinePeers allNotesChord := by
  have hfirst := unassignOffline_eq h honline (it.firstLoop m onlinePeers)
  have hstart : Underway c onlinePeers assignmentStrategyAutomatic
      (unassignOffline c onlinePeers (it.firstLoop m onlinePeers) m).1 := by
    rw [hfirst]
    exact ⟨h, hstrategy, honline⟩
  obtain ⟨hsecond, hassigned⟩ :=
    assignOrphans_spec allNotesChord hne hstart
  rw [hfirst] at hassigned
  obtain ⟨hthird, hsole, hstill⟩ := removeRedundantNotes_spec hsecond
    (hit.histogramLoop _)
  unfold seniorAutoUpdateAssignments
  rw [hstrategy, if_neg (by decide), if_neg (by simpa using hne)]
  dsimp only
  rw [hsecond.strategy, if_neg (by decide)]
  by_cases hmany : 1 < onlinePeers.length
  · rw [if_pos hmany]
    obtain ⟨hend, hsoleEnd, hstillEnd, hbalanced⟩ := balanceLoop_spec hnodup
      hne hthird hsole (balanceFuel_spec _ onlinePeers)
    exact ⟨hend, hend.onlineOnly, hsoleEnd, fun i hi =>
      (hstillEnd i hi).trans ((hstill i hi).trans (hassigned i hi)),
      hbalanced⟩
  · rw [if_neg hmany]
    refine ⟨hthird, hthird.onlineOnly, hsole, fun i hi =>
      (hstill i hi).trans (hassigned i hi), fun p hp q hq => ?_⟩
    have hsame : p = q := by
      cases onlinePeers with
      | nil => cases hp
      | cons x xs =>
          have hnil : xs = [] := by
            apply List.length_eq_zero_iff.mp
            rw [List.length_cons] at hmany
            omega
          subst hnil
          rw [List.mem_singleton.mp hp, List.mem_singleton.mp hq]
    rw [hsame]
    omega

private theorem count_le_one (h : m.Kept c) (hsole : m.Sole) (i : Fin 64) :
    (m.notes.counts.lookup i).getD 0 ≤ 1 := by
  have hone := (noteCount_le_one_iff h i).mpr (hsole i i.isLt)
  rw [h.notes.lookup i]
  split
  · simp
  · simpa using hone

/-- A review of assignments that are in order changes nothing. -/
private theorem seniorAutoUpdateAssignments_of_reviewed
    (hit : RosterIterators.Documented it) (h : m.Kept c)
    (hstrategy : m.assignmentStrategy = assignmentStrategyAutomatic)
    (hne : onlinePeers ≠ []) (honline : m.OnlineOnly onlinePeers)
    (hsole : m.Sole)
    (hassigned : ∀ i < numChoirNotes, hasNote allNotesChord i = true →
      m.Assigned i) (hbalanced : m.Balanced onlinePeers) :
    m.seniorAutoUpdateAssignments c it onlinePeers allNotesChord =
      (m, false) := by
  have hfirst : unassignOffline c onlinePeers (it.firstLoop m onlinePeers)
      m = (m, false) :=
    Prod.ext (unassignOffline_eq h honline _)
      (unassignOffline_unchanged h honline (hit.firstLoop m onlinePeers))
  have hsecond : assignOrphans c onlinePeers allNotesChord (m, false) =
      (m, false) := by
    refine List.foldlRecOn
      (motive := fun r : NoteAssignmentsMap × Bool => r = (m, false)) _ _ rfl
      fun r hr i hi => ?_
    have hi := List.mem_range.mp hi
    have hnone : ¬ (hasNote allNotesChord i &&
        !hasNote m.getAllAssignedNotesChord i) = true := by
      have hbit := hasNote_assigned_iff h (hi.trans (by decide))
      have hplayed := hassigned i hi
      simp only [Bool.and_eq_true, Bool.not_eq_true', not_and]
      intro hnote
      rw [hbit.mpr (hplayed hnote)]
      decide
    rw [hr, assignOrphan, if_neg hnone]
  have hthird : ∀ visits, removeRedundantNotes c visits (m, false) =
      (m, false) := by
    intro visits
    refine List.foldlRecOn
      (motive := fun r : NoteAssignmentsMap × Bool => r = (m, false)) _ _ rfl
      fun r hr i _ => ?_
    rw [hr]
    exact if_neg (Nat.not_lt.mpr (count_le_one h hsole i))
  have hlast : ∀ fuel, balanceLoop c onlinePeers fuel (m, false) =
      (m, false) := by
    intro fuel
    cases fuel with
    | zero => rfl
    | succ fuel =>
        obtain ⟨hlight, hlightCount, -⟩ := getLightestPeer_spec hne m
        obtain ⟨hheavy, hheavyCount, hmost⟩ := getHeaviestPeer_spec hne m
        have hapart := hbalanced _ hheavy _ hlight
        have hle := hmost _ hlight
        have hstop : ¬ 1 < (((m.getHeaviestPeer onlinePeers).2 : ℤ) -
            (m.getLightestPeer onlinePeers).2).natAbs := by
          omega
        rw [balanceLoop]
        exact if_neg hstop
  unfold seniorAutoUpdateAssignments
  rw [hstrategy, if_neg (by decide), hfirst, if_neg (by simpa using hne)]
  dsimp only
  rw [hsecond]
  dsimp only
  rw [hstrategy, if_neg (by decide), hthird, hlast, ite_self]

/-- After a review none is necessary. -/
private theorem not_necessary_of_reviewed (h : m.Kept c)
    (hsole : m.Sole)
    (hassigned : ∀ i < 64, hasNote allNotesChord i = true → m.Assigned i) :
    m.isStrategyReviewMaybeNecessary allNotesChord onlinePeers
      ⟨allNotesChord, onlinePeers⟩ = false := by
  have hplayed : allNotesChord &&& ~~~ m.getAllAssignedNotesChord = 0 := by
    apply chord_ext
    intro i hi
    rw [hasNote_and hi, hasNote_complement hi, hasNote_zero]
    have hbit := hasNote_assigned_iff h hi
    cases hnote : hasNote allNotesChord i with
    | false => rfl
    | true => simp [hbit.mpr (hassigned i hi hnote)]
  have hseen : allNotesChord &&& ~~~ allNotesChord = 0 := by
    apply chord_ext
    intro i hi
    rw [hasNote_and hi, hasNote_complement hi, hasNote_zero]
    cases hasNote allNotesChord i <;> rfl
  have honce : ((List.finRange 64).any fun i =>
      decide (1 < (m.notes.counts.lookup i).getD 0)) = false := by
    apply List.any_eq_false.mpr
    intro i _
    have := count_le_one h hsole i
    simpa using this
  have hpeers : onlinePeers.isPerm onlinePeers = true :=
    List.isPerm_iff.mpr (List.Perm.refl _)
  unfold isStrategyReviewMaybeNecessary
  simp [hplayed, hseen, honce, hpeers]

/-- **What a review settles.**  It does what it is for; the totals are still
right; a second review would change nothing; and the session asks for none,
unless the song has notes that no bell plays. -/
structure Settled (c : Checksums) (it : RosterIterators)
    (m m' : NoteAssignmentsMap) (onlinePeers : List ZGPeerID)
    (allNotesChord : UInt64) : Prop where
  reviewed : Reviewed m m' onlinePeers allNotesChord
  kept : m'.Kept c
  again : m'.seniorAutoUpdateAssignments c it onlinePeers allNotesChord =
    (m', false)
  notNecessary : (∀ i < 64, hasNote allNotesChord i = true →
      i < numChoirNotes) →
    m'.isStrategyReviewMaybeNecessary allNotesChord onlinePeers
      ⟨allNotesChord, onlinePeers⟩ = false

/-- In every state that the assignments come to, a review in the automatic
strategy comes to an end and settles them. -/
theorem review_settles (hit : RosterIterators.Documented it)
    {rosterBytes : RosterMessage → UInt64} {chk : UInt32}
    (hheld : Held ((databaseObject c it).callbacks rosterBytes) m chk)
    (hstrategy : m.assignmentStrategy = assignmentStrategyAutomatic)
    (honline : m.OnlineOnly onlinePeers) (hnodup : onlinePeers.Nodup)
    (hne : onlinePeers ≠ []) (allNotesChord : UInt64) :
    Settled c it m
      (m.seniorAutoUpdateAssignments c it onlinePeers allNotesChord).1
      onlinePeers allNotesChord := by
  obtain ⟨h, -⟩ := (replays c it).of_held hheld
  obtain ⟨hend, hreviewed⟩ := reviewed_of_automatic allNotesChord hit h
    hstrategy honline hnodup hne
  refine ⟨hreviewed, hend.kept, ?_, fun hbells => ?_⟩
  · exact seniorAutoUpdateAssignments_of_reviewed hit hend.kept
      hend.strategy hne hreviewed.onlineOnly hreviewed.sole
      (fun i hi hnote => (hreviewed.assigned i
        (hi.trans (by decide))).mpr (.inr ⟨hi, hnote⟩)) hreviewed.balanced
  · exact not_necessary_of_reviewed hend.kept hreviewed.sole
      fun i hi hnote => (hreviewed.assigned i hi).mpr
        (.inr ⟨hbells i hi hnote, hnote⟩)

theorem documented_smallIterators :
    RosterIterators.Documented smallIterators where
  firstLoop _ _ _ hp := List.mem_of_mem_take hp
  histogramLoop _ i _ := List.mem_finRange i

/-- Peers 1 and 2 both play the first note; peer 1 plays two more. -/
def crowded : NoteAssignmentsMap :=
  [((⟨0, 1⟩ : ZGPeerID), (0 : UInt32)), (⟨0, 1⟩, 1), (⟨0, 1⟩, 2),
    (⟨0, 2⟩, 0)].foldl
    (fun m e => (m.seniorUpdate smallChecksums smallIterators
      (.toggleAssignment (some e.1) e.2)).1) setToDefaultState

theorem onlineOnly_of_keys
    (h : ∀ p ∈ m.noteAssignments.keys, p ∈ onlinePeers) :
    m.OnlineOnly onlinePeers := by
  intro p hp
  apply h p
  rw [← Hashtable.isSome_get?]
  unfold getNoteAssignmentsForPeerID at hp
  cases hget : m.noteAssignments.get? p with
  | none => simp [hget] at hp
  | some _ => rfl

/-- A toggle of a peer that is named. -/
theorem held_toggle {rosterBytes : RosterMessage → UInt64} {chk : UInt32}
    (hheld : Held ((databaseObject c it).callbacks rosterBytes) m chk)
    (p : ZGPeerID) (noteIdx : UInt32) (hvalid : p.isValid = true) :
    Held ((databaseObject c it).callbacks rosterBytes)
      (m.seniorUpdate c it (.toggleAssignment (some p) noteIdx)).1
      (m.seniorUpdate c it
        (.toggleAssignment (some p) noteIdx)).1.checksum := by
  have hsenior : (databaseObject c it).seniorUpdate m
      (.toggleAssignment (some p) noteIdx) =
      ((m.seniorUpdate c it (.toggleAssignment (some p) noteIdx)).1,
        some (.toggleAssignment (some p) noteIdx)) := by
    simp [databaseObject, seniorUpdate, handleToggleAssignmentMessage,
      hvalid]
  exact DatabaseObject.held_seniorUpdate hheld hsenior

theorem held_crowded :
    Held ((databaseObject smallChecksums smallIterators).callbacks
      fun _ => 8) crowded crowded.checksum :=
  held_toggle (held_toggle (held_toggle (held_toggle
    (.reset setToDefaultState 0) ⟨0, 1⟩ 0 (by decide)) ⟨0, 1⟩ 1 (by decide))
    ⟨0, 1⟩ 2 (by decide)) ⟨0, 2⟩ 0 (by decide)

/-- A review of the assignments with a song of four notes. -/
theorem review_settles_crowded :
    Settled smallChecksums smallIterators crowded
      (crowded.seniorAutoUpdateAssignments smallChecksums smallIterators
        [⟨0, 1⟩, ⟨0, 2⟩] 15).1 [⟨0, 1⟩, ⟨0, 2⟩] 15 :=
  review_settles documented_smallIterators held_crowded (by decide)
    (onlineOnly_of_keys (by decide)) (by decide) (by decide) 15

end NoteAssignmentsMap

end ZgChoir
