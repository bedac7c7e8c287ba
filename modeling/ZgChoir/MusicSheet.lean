import ZgChoir.DatabaseObjects
import ZgChoir.NoteHistogram
import ZgChoir.OrderedTable

/-!
# The music sheet

The database of the choir demo that holds a song: the chords by their
position in time, silence left out, and the path of the file.  A histogram of
the notes and a checksum are patched with every change, and never computed
again.  `Kept` says that they are right.

A column of the sheet is opened and closed by moving chords one by one under
an iterator.  When the iterator's chord is taken out, MUSCLE lets it go on
from where it would have gone next.
-/

namespace ZgChoir

/-- A chord of the sheet, at its position. -/
structure Chord where
  index : UInt32
  notes : UInt64
  deriving DecidableEq

/-- The place of a chord in the table. -/
def Chord.position (e : Chord) : ℕ := e.index.toNat

/-- MUSCLE's checksums. -/
structure Checksums where
  /-- `String::CalculateChecksum` -/
  ofString : String → UInt32
  /-- `CalculatePODChecksum`, of a 64-bit word -/
  ofPOD : UInt64 → UInt32

/-- `_chords`. -/
abbrev ChordTable := OrderedTable Chord.position

/-- `GetWithDefault`: the chord at an index, or silence. -/
def ChordTable.chordAt (t : ChordTable) (whichChord : UInt32) : UInt64 :=
  match t.get? whichChord.toNat with
  | some e => e.notes
  | none => 0

/-- The entry that a backward iterator comes to after the index `k`. -/
def ChordTable.before? (t : ChordTable) (k : UInt32) : Option Chord :=
  t.entries.reverse.find? fun e => decide (e.index < k)

/-- The entry that a forward iterator comes to after the index `k`. -/
def ChordTable.after? (t : ChordTable) (k : UInt32) : Option Chord :=
  t.entries.find? fun e => decide (k < e.index)

/-- The in-memory representation of a song. -/
structure MusicSheet where
  songFilePath : String
  chords : ChordTable
  notes : NoteHistogram
  checksum : UInt32

/-- The fields of a `MUSIC_TYPE_MUSIC_SHEET` message. -/
structure SheetArchive where
  path : Option String
  idx : List UInt32
  chord : List UInt64
  deriving DecidableEq

/-- The messages a music sheet is updated with, by their what-code.  Where
`GetInt32` and its like find no field, they give 0 and the empty string. -/
inductive SheetMessage where
  | toggleNote (chordIndex noteIndex : UInt32)
  | setSongFilePath (songFilePath : String)
  | setChord (chordIndex : UInt32) (chordValue : UInt64)
  | insertChord (chordIndex : UInt32)
  | deleteChord (chordIndex : UInt32)
  | noop
  | musicSheet (archive : SheetArchive)
  | unknown (what : UInt32)
  deriving DecidableEq

theorem ChordTable.lt_of_before? {t : ChordTable} {k : UInt32} {e : Chord}
    (h : t.before? k = some e) : e.index.toNat < k.toNat := by
  have hfound := List.find?_some h
  simpa [UInt32.lt_iff_toNat_lt] using hfound

theorem ChordTable.lt_of_after? {t : ChordTable} {k : UInt32} {e : Chord}
    (h : t.after? k = some e) : k.toNat < e.index.toNat := by
  have hfound := List.find?_some h
  simpa [UInt32.lt_iff_toNat_lt] using hfound

namespace MusicSheet

/-- `SetToDefaultStateAux`. -/
def setToDefaultState : MusicSheet where
  songFilePath := ""
  chords := OrderedTable.empty
  notes := NoteHistogram.empty
  checksum := 0

/-- `GetChordAtIndex`, without looping. -/
def getChordAtIndex (s : MusicSheet) (whichChord : UInt32) : UInt64 :=
  s.chords.chordAt whichChord

section Operations

variable (c : Checksums)

/-- `CalculateChecksumForChord`. -/
def checksumForChord (whichChord : UInt32) (chordValue : UInt64) : UInt32 :=
  (whichChord + 1) * c.ofPOD chordValue

/-- `CalculateChecksum`. -/
def calculateChecksum (s : MusicSheet) : UInt32 :=
  c.ofString s.songFilePath +
    s.chords.total fun e => checksumForChord c e.index e.notes

/-- `SetSongFilePath`. -/
def setSongFilePath (s : MusicSheet) (songFilePath : String) : MusicSheet :=
  if songFilePath = s.songFilePath then s
  else
    { s with
      songFilePath
      checksum := s.checksum - c.ofString s.songFilePath +
        c.ofString songFilePath }

/-- `PutChord`. -/
def putChord (s : MusicSheet) (whichChord : UInt32) (chordValue : UInt64) :
    MusicSheet :=
  if chordValue ≠ 0 then
    -- an entry that `GetOrPut` has just made is silent
    let oldVal := s.getChordAtIndex whichChord
    let s :=
      if oldVal ≠ 0 then
        { s with
          notes := updateNoteHistogram oldVal false s.notes
          checksum := s.checksum - checksumForChord c whichChord oldVal }
      else s
    { s with
      chords := s.chords.put ⟨whichChord, chordValue⟩
      notes := updateNoteHistogram chordValue true s.notes
      checksum := s.checksum + checksumForChord c whichChord chordValue }
  else
    match s.chords.get? whichChord.toNat with
    | none => s
    | some e =>
        { s with
          chords := s.chords.remove whichChord.toNat
          notes := updateNoteHistogram e.notes false s.notes
          checksum := s.checksum - checksumForChord c whichChord e.notes }

/-- `RemoveChord`. -/
def removeChord (s : MusicSheet) (whichChord : UInt32) : MusicSheet :=
  s.putChord c whichChord 0

/-- The loop of `InsertChordAt`, with the iterator at `chordIdx`. -/
def insertChordLoop (whichChord chordIdx : UInt32) (s : MusicSheet) :
    MusicSheet :=
  if chordIdx < whichChord then s
  else
    let chordValue := s.getChordAtIndex chordIdx
    let removed := s.removeChord c chordIdx
    let moved := removed.putChord c (chordIdx + 1) chordValue
    match h : removed.chords.before? chordIdx with
    | none => moved
    | some next =>
        have := ChordTable.lt_of_before? h
        insertChordLoop whichChord next.index moved
termination_by chordIdx.toNat

/-- `InsertChordAt`. -/
def insertChordAt (s : MusicSheet) (whichChord : UInt32) : MusicSheet :=
  match s.chords.last? with
  | none => s
  | some e => insertChordLoop c whichChord e.index s

/-- The loop of `MoveChordsBackOneStartingAt`, with the iterator at
`chordIdx`. -/
def moveChordsBackOneLoop (chordIdx : UInt32) (s : MusicSheet) : MusicSheet :=
  let chordValue := s.getChordAtIndex chordIdx
  let removed := s.removeChord c chordIdx
  let moved := removed.putChord c (chordIdx - 1) chordValue
  match h : removed.chords.after? chordIdx with
  | none => moved
  | some next =>
      have := ChordTable.lt_of_after? h
      have := next.index.toNat_lt_size
      moveChordsBackOneLoop next.index moved
termination_by UInt32.size - chordIdx.toNat

/-- `MoveChordsBackOneStartingAt`.  An iterator that is given a key the table
does not have has no data. -/
def moveChordsBackOneStartingAt (s : MusicSheet) (whichChord : UInt32) :
    MusicSheet :=
  match s.chords.get? whichChord.toNat with
  | none => s
  | some e => moveChordsBackOneLoop c e.index s

/-- `DeleteChordAt`, once the chord itself is removed. -/
def moveLaterChordsBackOne (s : MusicSheet) (whichChord : UInt32) :
    MusicSheet :=
  match s.chords.last? with
  | none => s
  | some last =>
      if last.index < whichChord then s
      else
        -- backwards to the first index before `whichChord`
        match s.chords.before? whichChord with
        | some e =>
            -- and one forward again
            match s.chords.after? e.index with
            | some next => s.moveChordsBackOneStartingAt c next.index
            | none => s
        | none =>
            match s.chords.first? with
            | some first => s.moveChordsBackOneStartingAt c first.index
            | none => s

/-- `DeleteChordAt`. -/
def deleteChordAt (s : MusicSheet) (whichChord : UInt32) : MusicSheet :=
  (s.removeChord c whichChord).moveLaterChordsBackOne c whichChord

/-- `UpdateFromArchive`, of a message of the right type. -/
def updateFromArchive (s : MusicSheet) (archive : SheetArchive) :
    MusicSheet :=
  let s :=
    match archive.path with
    | some newSongFilePath => s.setSongFilePath c newSongFilePath
    | none => s
  (archive.idx.zip archive.chord).foldl
    (fun s e => s.putChord c e.1 e.2) s

/-- `SetFromArchive`. -/
def setFromArchive (s : MusicSheet) : SheetMessage → MusicSheet × Status
  | .musicSheet archive =>
      (setToDefaultState.updateFromArchive c archive, .noError)
  | _ => (s, .other "Type Mismatch")

/-- `SaveToArchive`. -/
def saveToArchive (s : MusicSheet) : SheetArchive where
  path := some s.songFilePath
  idx := s.chords.entries.map Chord.index
  chord := s.chords.entries.map Chord.notes

/-- `SeniorUpdate`. -/
def seniorUpdate (s : MusicSheet) :
    SheetMessage → MusicSheet × Option SheetMessage
  | .toggleNote chordIdx noteIdx =>
      let curChord := s.getChordAtIndex chordIdx
      let newChord := curChord ^^^ noteBit noteIdx.toNat
      (s.putChord c chordIdx newChord, some (.setChord chordIdx newChord))
  | .insertChord chordIdx =>
      (s.insertChordAt c chordIdx, some (.insertChord chordIdx))
  | .deleteChord chordIdx =>
      (s.deleteChordAt c chordIdx, some (.deleteChord chordIdx))
  | .setSongFilePath newSongPath =>
      (s.setSongFilePath c newSongPath, some (.setSongFilePath newSongPath))
  | .noop => (s, some .noop)
  | .setChord _ _ | .musicSheet _ | .unknown _ => (s, none)

/-- `JuniorUpdate`. -/
def juniorUpdate (s : MusicSheet) : SheetMessage → MusicSheet × Status
  | .noop => (s, .noError)
  | .setChord chordIdx chordVal => (s.putChord c chordIdx chordVal, .noError)
  | .insertChord chordIdx => (s.insertChordAt c chordIdx, .noError)
  | .deleteChord chordIdx => (s.deleteChordAt c chordIdx, .noError)
  | .setSongFilePath path => (s.setSongFilePath c path, .noError)
  | .musicSheet archive => s.setFromArchive c (.musicSheet archive)
  | .toggleNote _ _ | .unknown _ => (s, .badArgument)

/-- The music sheet as a database object. -/
def databaseObject : DatabaseObject MusicSheet SheetMessage where
  setToDefaultState := setToDefaultState
  setFromArchive := setFromArchive c
  saveToArchive s := some (.musicSheet s.saveToArchive)
  getCurrentChecksum s := s.checksum
  calculateChecksum := calculateChecksum c
  seniorUpdate := seniorUpdate c
  juniorUpdate := juniorUpdate c

end Operations

end MusicSheet

end ZgChoir
