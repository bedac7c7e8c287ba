import ZgChoir.DatabaseObjects
import ZgChoir.HashtableTotals
import ZgChoir.MusicSheet

/-!
# Who plays which note

The database of the choir demo that gives each peer the chord of the notes it
plays.  In the automatic strategy the senior peer reviews the assignments:
every note of the song goes to one peer that is online, and no peer has two
notes more than another.

A review reads the online peers off the session and the notes in use off the
music sheet; they are put with its message.  The loops over a table that the
loop itself changes are MUSCLE's matter: `RosterIterators` says what their
iterators come to.
-/

namespace ZgChoir

/-- `NUM_CHOIR_NOTES`. -/
def numChoirNotes : ℕ := 21

/-- `ASSIGNMENT_STRATEGY_AUTOMATIC`. -/
def assignmentStrategyAutomatic : UInt32 := 0

/-- `ASSIGNMENT_STRATEGY_ASSISTED`. -/
def assignmentStrategyAssisted : UInt32 := 1

/-- `ASSIGNMENT_STRATEGY_MANUAL`. -/
def assignmentStrategyManual : UInt32 := 2

/-- Which peers should be playing which notes. -/
structure NoteAssignmentsMap where
  noteAssignments : Hashtable ZGPeerID UInt64
  assignmentStrategy : UInt32
  notes : NoteHistogram
  checksum : UInt32

/-- The fields of a `MUSIC_TYPE_ASSIGNMENTS_MAP` message. -/
structure RosterArchive where
  strategy : UInt32
  pid : List ZGPeerID
  chord : List UInt64
  deriving DecidableEq

/-- The messages the assignments are updated with, by their what-code.
`onlinePeers` and `allNotesChord` are what the senior finds elsewhere. -/
inductive RosterMessage where
  | toggleAssignment (peerID : Option ZGPeerID) (noteIndex : UInt32)
  | unassignOrphans (onlinePeers : List ZGPeerID)
  | noop
  | reviewAssignments (onlinePeers : List ZGPeerID) (allNotesChord : UInt64)
  | setStrategy (strategy : UInt32)
  | assignmentsMap (archive : RosterArchive)
  | unknown (what : UInt32)
  deriving DecidableEq

/-- The loops of a review whose iterators stand on a table that is being
changed. -/
structure RosterIterators where
  /-- the peers that the first loop comes to; it moves its iterator by `--` -/
  firstLoop : NoteAssignmentsMap → List ZGPeerID → List ZGPeerID
  /-- the notes that the loop over the histogram comes to -/
  histogramLoop : NoteAssignmentsMap → List (Fin 64)

/-- `CountBits`. -/
def countBits (chord : UInt64) : ℕ :=
  (List.range numChoirNotes).countP fun i => hasNote chord i

/-- `GetLastNoteInChord`. -/
def getLastNoteInChord (chord : UInt64) : ℕ :=
  ((List.range numChoirNotes).reverse.find? fun i => hasNote chord i).getD 0

namespace NoteAssignmentsMap

section Operations

variable (c : Checksums)

/-- `ZGPeerID::CalculateChecksum`. -/
def checksumOfPeerID (peerID : ZGPeerID) : UInt32 :=
  c.ofPOD peerID.highBits + 3 * c.ofPOD peerID.lowBits

/-- `CalculateChecksumForPeer`. -/
def checksumForPeer (peerID : ZGPeerID) (chordValue : UInt64) : UInt32 :=
  checksumOfPeerID c peerID + c.ofPOD chordValue

/-- `CalculateChecksum`. -/
def calculateChecksum (m : NoteAssignmentsMap) : UInt32 :=
  m.assignmentStrategy + m.noteAssignments.total (checksumForPeer c)

/-- `SetToDefaultStateAux`. -/
def setToDefaultState : NoteAssignmentsMap where
  noteAssignments := Hashtable.empty
  assignmentStrategy := assignmentStrategyAutomatic
  notes := NoteHistogram.empty
  checksum := assignmentStrategyAutomatic

/-- `GetNoteAssignmentsForPeerID`. -/
def getNoteAssignmentsForPeerID (m : NoteAssignmentsMap)
    (peerID : ZGPeerID) : UInt64 :=
  (m.noteAssignments.get? peerID).getD 0

/-- `GetAllAssignedNotesChord`. -/
def getAllAssignedNotesChord (m : NoteAssignmentsMap) : UInt64 :=
  m.notes.bitchord

/-- `SetAssignmentStrategy`. -/
def setAssignmentStrategy (m : NoteAssignmentsMap) (strategy : UInt32) :
    NoteAssignmentsMap :=
  { m with
    assignmentStrategy := strategy
    checksum := m.checksum - m.assignmentStrategy + strategy }

/-- `SetNoteAssignmentsForPeerID`. -/
def setNoteAssignmentsForPeerID (m : NoteAssignmentsMap)
    (peerID : ZGPeerID) (assignedNotes : UInt64) : NoteAssignmentsMap :=
  if assignedNotes ≠ 0 then
    -- an entry that `GetOrPut` has just made is silent
    let oldVal := m.getNoteAssignmentsForPeerID peerID
    let m :=
      if oldVal ≠ 0 then
        { m with
          notes := updateNoteHistogram oldVal false m.notes
          checksum := m.checksum - checksumForPeer c peerID oldVal }
      else m
    { m with
      noteAssignments := m.noteAssignments.put peerID assignedNotes
      notes := updateNoteHistogram assignedNotes true m.notes
      checksum := m.checksum + checksumForPeer c peerID assignedNotes }
  else
    match m.noteAssignments.get? peerID with
    | none => m
    | some oldVal =>
        { m with
          noteAssignments := m.noteAssignments.remove peerID
          notes := updateNoteHistogram oldVal false m.notes
          checksum := m.checksum - checksumForPeer c peerID oldVal }

/-- `UnassignNote`. -/
def unassignNote (m : NoteAssignmentsMap) (noteIdx : ℕ) :
    NoteAssignmentsMap :=
  m.noteAssignments.keys.foldl (fun m pid =>
    let chord := m.getNoteAssignmentsForPeerID pid
    if hasNote chord noteIdx then
      m.setNoteAssignmentsForPeerID c pid (chord &&& ~~~ noteBit noteIdx)
    else m) m

/-- `HandleToggleAssignmentMessage`, of a message of the right type. -/
def handleToggleAssignmentMessage (m : NoteAssignmentsMap)
    (peerID : Option ZGPeerID) (noteIdx : UInt32) :
    NoteAssignmentsMap × Status :=
  match peerID with
  | none => (m, .dataNotFound)
  | some peerID =>
      if peerID.isValid then
        (m.setNoteAssignmentsForPeerID c peerID
          (m.getNoteAssignmentsForPeerID peerID ^^^ noteBit noteIdx.toNat),
          .noError)
      else if m.getAllAssignedNotesChord ≠ 0 then
        (m.unassignNote c noteIdx.toNat, .noError)
      else (m, .noError)

/-- `GetLightestPeer`, with the count it returns. -/
def getLightestPeer (m : NoteAssignmentsMap) (onlinePeers : List ZGPeerID) :
    ZGPeerID × ℕ :=
  onlinePeers.foldl (fun ret pid =>
    let count := countBits (m.getNoteAssignmentsForPeerID pid)
    if count < ret.2 then (pid, count) else ret)
    (onlinePeers.headD ZGPeerID.invalid, 4294967295)

/-- `GetHeaviestPeer`, with the count it returns. -/
def getHeaviestPeer (m : NoteAssignmentsMap) (onlinePeers : List ZGPeerID) :
    ZGPeerID × ℕ :=
  onlinePeers.foldl (fun ret pid =>
    let count := countBits (m.getNoteAssignmentsForPeerID pid)
    if ret.2 < count then (pid, count) else ret)
    (onlinePeers.headD ZGPeerID.invalid, 0)

/-- The peers among `visits` that are not online have no more notes.  Says
whether there were any. -/
def unassignOffline (onlinePeers visits : List ZGPeerID)
    (m : NoteAssignmentsMap) : NoteAssignmentsMap × Bool :=
  visits.foldl (fun r pid =>
    if onlinePeers.contains pid then r
    else (r.1.setNoteAssignmentsForPeerID c pid 0, true)) (m, false)

/-- A note that is orphaned goes to the peer with the least notes. -/
def assignOrphan (onlinePeers : List ZGPeerID) (allNotesChord : UInt64)
    (r : NoteAssignmentsMap × Bool) (i : ℕ) : NoteAssignmentsMap × Bool :=
  if hasNote allNotesChord i && !hasNote r.1.getAllAssignedNotesChord i then
    let pid := (r.1.getLightestPeer onlinePeers).1
    (r.1.setNoteAssignmentsForPeerID c pid
      (r.1.getNoteAssignmentsForPeerID pid ||| noteBit i), true)
  else r

/-- The second loop of `SeniorAutoUpdateAssignments`. -/
def assignOrphans (onlinePeers : List ZGPeerID) (allNotesChord : UInt64)
    (r : NoteAssignmentsMap × Bool) : NoteAssignmentsMap × Bool :=
  (List.range numChoirNotes).foldl
    (assignOrphan c onlinePeers allNotesChord) r

/-- A peer gives the note up if one before it plays it already. -/
def removeRedundantFrom (i : Fin 64)
    (s : (NoteAssignmentsMap × Bool) × Bool) (pid : ZGPeerID) :
    (NoteAssignmentsMap × Bool) × Bool :=
  let peerNotes := s.1.1.getNoteAssignmentsForPeerID pid
  if hasNote peerNotes i then
    if s.2 then
      ((s.1.1.setNoteAssignmentsForPeerID c pid
        (peerNotes &&& ~~~ noteBit i), true), true)
    else (s.1, true)
  else s

/-- Every peer but the first that plays the note stops playing it. -/
def removeRedundantNote (i : Fin 64) (r : NoteAssignmentsMap × Bool) :
    NoteAssignmentsMap × Bool :=
  (r.1.noteAssignments.keys.foldl (removeRedundantFrom c i) (r, false)).1

/-- The third loop: a note has one peer to play it. -/
def removeRedundantNotes (visits : List (Fin 64))
    (r : NoteAssignmentsMap × Bool) : NoteAssignmentsMap × Bool :=
  visits.foldl (fun r i =>
    if 1 < (r.1.notes.counts.lookup i).getD 0 then
      removeRedundantNote c i r
    else r) r

/-- The last loop: as long as one peer has two notes more than another, one
of them moves over. -/
def balanceLoop (onlinePeers : List ZGPeerID) :
    ℕ → NoteAssignmentsMap × Bool → NoteAssignmentsMap × Bool
  | 0, r => r
  | fuel + 1, r =>
      let light := r.1.getLightestPeer onlinePeers
      let heavy := r.1.getHeaviestPeer onlinePeers
      if 1 < ((heavy.2 : ℤ) - light.2).natAbs then
        let noteIdx :=
          getLastNoteInChord (r.1.getNoteAssignmentsForPeerID heavy.1)
        let m := r.1.setNoteAssignmentsForPeerID c heavy.1
          (r.1.getNoteAssignmentsForPeerID heavy.1 &&& ~~~ noteBit noteIdx)
        let m := m.setNoteAssignmentsForPeerID c light.1
          (m.getNoteAssignmentsForPeerID light.1 ||| noteBit noteIdx)
        balanceLoop onlinePeers fuel (m, true)
      else r

/-- More turns than the last loop can take. -/
def balanceFuel (onlinePeers : List ZGPeerID) : ℕ :=
  onlinePeers.length * numChoirNotes ^ 2 + 1

/-- `SeniorAutoUpdateAssignments`. -/
def seniorAutoUpdateAssignments (it : RosterIterators)
    (m : NoteAssignmentsMap) (onlinePeers : List ZGPeerID)
    (allNotesChord : UInt64) : NoteAssignmentsMap × Bool :=
  if m.assignmentStrategy = assignmentStrategyManual then (m, false)
  else
    let r := unassignOffline c onlinePeers (it.firstLoop m onlinePeers) m
    if onlinePeers.isEmpty then r
    else
      let r := assignOrphans c onlinePeers allNotesChord r
      if r.1.assignmentStrategy = assignmentStrategyAssisted then r
      else
        let r := removeRedundantNotes c (it.histogramLoop r.1) r
        if 1 < onlinePeers.length then
          balanceLoop c onlinePeers (balanceFuel onlinePeers) r
        else r

/-- `SetFromArchive`. -/
def setFromArchive (m : NoteAssignmentsMap) :
    RosterMessage → NoteAssignmentsMap × Status
  | .assignmentsMap archive =>
      ((archive.pid.zip archive.chord).foldl
        (fun m e => m.setNoteAssignmentsForPeerID c e.1 e.2)
        (setToDefaultState.setAssignmentStrategy archive.strategy),
        .noError)
  | _ => (m, .other "Type Mismatch")

/-- `SaveToArchive`. -/
def saveToArchive (m : NoteAssignmentsMap) : RosterArchive where
  strategy := m.assignmentStrategy
  pid := m.noteAssignments.entries.map Prod.fst
  chord := m.noteAssignments.entries.map Prod.snd

/-- What `SendFullStateToGUI` returns, if anything has changed. -/
def fullStateIf (changed : Bool) (m : NoteAssignmentsMap) : RosterMessage :=
  if changed then .assignmentsMap m.saveToArchive else .noop

/-- `SeniorUpdate`. -/
def seniorUpdate (it : RosterIterators) (m : NoteAssignmentsMap) :
    RosterMessage → NoteAssignmentsMap × Option RosterMessage
  | .toggleAssignment peerID noteIdx =>
      let r := m.handleToggleAssignmentMessage c peerID noteIdx
      (r.1, if r.2.isOK then some (.toggleAssignment peerID noteIdx)
        else none)
  | .unassignOrphans onlinePeers =>
      let r := unassignOffline c onlinePeers m.noteAssignments.keys m
      (r.1, some (fullStateIf r.2 r.1))
  | .noop => (m, some .noop)
  | .reviewAssignments onlinePeers allNotesChord =>
      let r := m.seniorAutoUpdateAssignments c it onlinePeers allNotesChord
      (r.1, some (fullStateIf r.2 r.1))
  | .setStrategy strategy =>
      (m.setAssignmentStrategy strategy, some (.setStrategy strategy))
  | .assignmentsMap _ | .unknown _ => (m, none)

/-- `JuniorUpdate`. -/
def juniorUpdate (m : NoteAssignmentsMap) :
    RosterMessage → NoteAssignmentsMap × Status
  | .noop => (m, .noError)
  | .toggleAssignment peerID noteIdx =>
      m.handleToggleAssignmentMessage c peerID noteIdx
  | .setStrategy strategy => (m.setAssignmentStrategy strategy, .noError)
  | .assignmentsMap archive => m.setFromArchive c (.assignmentsMap archive)
  | .unassignOrphans _ | .reviewAssignments _ _ | .unknown _ =>
      (m, .badArgument)

/-- The note assignments as a database object. -/
def databaseObject (it : RosterIterators) :
    DatabaseObject NoteAssignmentsMap RosterMessage where
  setToDefaultState := setToDefaultState
  setFromArchive := setFromArchive c
  saveToArchive m := some (.assignmentsMap m.saveToArchive)
  getCurrentChecksum m := m.checksum
  calculateChecksum := calculateChecksum c
  seniorUpdate := seniorUpdate c it
  juniorUpdate := juniorUpdate c

end Operations

end NoteAssignmentsMap

end ZgChoir
