import ZgChoir.HeartbeatTiming
import ZgChoir.MusicSheet

/-!
# How the song is being played

The database of the choir demo that says what the playhead does: the network
time at which the first chord was or will be played, the length of a chord,
and the chord at which playback is paused.  A junior never computes any of
it: it is sent the whole state.

The network time and the length of the song are read elsewhere when the
senior handles a message, and are put with it.  Keeping the playhead in its
place while the tempo changes is done in floating point, which is left to a
parameter.
-/

namespace ZgChoir

/-- The state of how the song should be performed over time. -/
structure PlaybackState where
  networkStartTimeMicros : UInt64
  microsPerChord : UInt64
  pausedIndex : UInt32
  loop : Bool
  deriving DecidableEq

/-- What a command brings along, and what the senior finds elsewhere. -/
structure PlaybackCommand where
  optNewMicrosPerChord : Option UInt64
  optSeekTo : Option UInt32
  optSetLoop : Option Bool
  networkNow : UInt64
  songLengthInChords : UInt32
  deriving DecidableEq

/-- The messages the playback state is updated with, by their what-code. -/
inductive PlaybackMessage where
  | play (command : PlaybackCommand)
  | pause (command : PlaybackCommand)
  | adjustPlayback (command : PlaybackCommand)
  | noop
  | playbackState (archive : PlaybackState)
  | unknown (what : UInt32)
  deriving DecidableEq

/-- `SetMicrosPerChord` computes the start time that leaves the playhead in
its place: from the network time, the old start time, and the old and the new
length of a chord. -/
abbrev KeepsPlace := UInt64 → UInt64 → UInt64 → UInt64 → UInt64

namespace PlaybackState

section Operations

variable (c : Checksums) (place : KeepsPlace)

/-- `SetToDefaultStateAux`. -/
def setToDefaultState : PlaybackState where
  networkStartTimeMicros := muscleTimeNever
  microsPerChord := 250000
  pausedIndex := 0
  loop := false

/-- `IsPaused`. -/
def isPaused (s : PlaybackState) : Bool := s.pausedIndex != muscleNoLimit

/-- `CalculateChecksum`. -/
def calculateChecksum (s : PlaybackState) : UInt32 :=
  c.ofPOD s.networkStartTimeMicros + c.ofPOD s.microsPerChord +
    s.pausedIndex + (if s.loop then 1 else 0)

/-- `SetMicrosPerChord`. -/
def setMicrosPerChord (s : PlaybackState) (microsPerChord : UInt64)
    (optNetworkNow : UInt64) : PlaybackState :=
  let s :=
    if optNetworkNow ≠ muscleTimeNever ∧ s.isPaused = false then
      { s with
        networkStartTimeMicros := place optNetworkNow
          s.networkStartTimeMicros s.microsPerChord microsPerChord }
    else s
  { s with microsPerChord }

/-- `StartPlayback`. -/
def startPlayback (s : PlaybackState) (networkNow : UInt64) : PlaybackState :=
  if s.isPaused then
    { s with
      networkStartTimeMicros :=
        networkNow - s.pausedIndex.toUInt64 * s.microsPerChord
      pausedIndex := muscleNoLimit }
  else s

/-- `PausePlayback`. -/
def pausePlayback (s : PlaybackState) (networkNow : UInt64) : PlaybackState :=
  if s.isPaused then s
  else
    { s with
      pausedIndex :=
        if 0 < s.microsPerChord ∧ s.networkStartTimeMicros < networkNow then
          ((networkNow - s.networkStartTimeMicros) /
            s.microsPerChord).toUInt32
        else 0
      networkStartTimeMicros := muscleTimeNever }

/-- `SeekTo`. -/
def seekTo (s : PlaybackState) (networkNow : UInt64) (whichChord : UInt32) :
    PlaybackState :=
  if s.isPaused then { s with pausedIndex := whichChord }
  else
    { s with
      networkStartTimeMicros :=
        networkNow - whichChord.toUInt64 * s.microsPerChord }

/-- `SetLoop`, as a command does it: a song that has looped goes on from
where it is in the present round. -/
def leaveLoop (s : PlaybackState) (cmd : PlaybackCommand) (loop : Bool) :
    PlaybackState :=
  let s :=
    if s.isPaused = false ∧ s.loop = true ∧ loop = false ∧
        0 < cmd.songLengthInChords then
      let songDurationMicros :=
        s.microsPerChord * cmd.songLengthInChords.toUInt64
      if 0 < songDurationMicros then
        { s with
          networkStartTimeMicros := cmd.networkNow -
            (cmd.networkNow - s.networkStartTimeMicros) %
              songDurationMicros }
      else s
    else s
  { s with loop }

/-- `if (optSetLoop)`, `if (optNewMicrosPerChord)` and `if (optSeekTo)`. -/
def whenGiven {α : Type} (opt : Option α)
    (f : PlaybackState → α → PlaybackState) (s : PlaybackState) :
    PlaybackState :=
  match opt with
  | some a => f s a
  | none => s

/-- `SeniorAdjustPlaybackState` for `CHOIR_COMMAND_PLAY`. -/
def seniorPlay (s : PlaybackState) (cmd : PlaybackCommand) : PlaybackState :=
  let s := whenGiven cmd.optSetLoop (leaveLoop · cmd ·) s
  if s.isPaused then
    let s := whenGiven cmd.optNewMicrosPerChord
      (setMicrosPerChord place · · muscleTimeNever) s
    let s := whenGiven cmd.optSeekTo (seekTo · cmd.networkNow ·) s
    s.startPlayback cmd.networkNow
  else s

/-- `SeniorAdjustPlaybackState` for `CHOIR_COMMAND_PAUSE`. -/
def seniorPause (s : PlaybackState) (cmd : PlaybackCommand) : PlaybackState :=
  let s := whenGiven cmd.optSetLoop (leaveLoop · cmd ·) s
  let s := if s.isPaused then s else s.pausePlayback cmd.networkNow
  let s := whenGiven cmd.optNewMicrosPerChord
    (setMicrosPerChord place · · muscleTimeNever) s
  whenGiven cmd.optSeekTo (seekTo · cmd.networkNow ·) s

/-- `SeniorAdjustPlaybackState` for `CHOIR_COMMAND_ADJUST_PLAYBACK`. -/
def seniorAdjust (s : PlaybackState) (cmd : PlaybackCommand) :
    PlaybackState :=
  let s := whenGiven cmd.optSetLoop (leaveLoop · cmd ·) s
  let s := whenGiven cmd.optNewMicrosPerChord
    (setMicrosPerChord place · ·
      (if cmd.optSeekTo.isSome then muscleTimeNever else cmd.networkNow)) s
  whenGiven cmd.optSeekTo (seekTo · cmd.networkNow ·) s

/-- `SeniorUpdate`. -/
def seniorUpdate (s : PlaybackState) :
    PlaybackMessage → PlaybackState × Option PlaybackMessage
  | .play cmd =>
      (s.seniorPlay place cmd, some (.playbackState (s.seniorPlay place cmd)))
  | .pause cmd =>
      (s.seniorPause place cmd,
        some (.playbackState (s.seniorPause place cmd)))
  | .adjustPlayback cmd =>
      (s.seniorAdjust place cmd,
        some (.playbackState (s.seniorAdjust place cmd)))
  | .noop => (s, some .noop)
  | .playbackState _ | .unknown _ => (s, none)

/-- `SetFromArchive`. -/
def setFromArchive (s : PlaybackState) :
    PlaybackMessage → PlaybackState × Status
  | .playbackState archive => (archive, .noError)
  | _ => (s, .other "Type Mismatch")

/-- `JuniorUpdate`. -/
def juniorUpdate (s : PlaybackState) :
    PlaybackMessage → PlaybackState × Status
  | .noop => (s, .noError)
  | .playbackState archive => s.setFromArchive (.playbackState archive)
  | .play _ | .pause _ | .adjustPlayback _ | .unknown _ => (s, .badArgument)

/-- The playback state as a database object.  Its checksum is computed every
time that it is asked for. -/
def databaseObject : DatabaseObject PlaybackState PlaybackMessage where
  setToDefaultState := setToDefaultState
  setFromArchive := setFromArchive
  saveToArchive s := some (.playbackState s)
  getCurrentChecksum := calculateChecksum c
  calculateChecksum := calculateChecksum c
  seniorUpdate := seniorUpdate place
  juniorUpdate := juniorUpdate

end Operations

variable {c : Checksums} {place : KeepsPlace}

/-- The playback state replays, however the tempo is changed. -/
theorem replays (c : Checksums) (place : KeepsPlace) :
    (databaseObject c place).Replays fun _ => True where
  default := trivial
  senior _ _ := trivial
  junior _ _ := trivial
  setFrom _ _ := trivial
  juniorReplaysSenior := by
    intro s s' msg juniorMsg _ hsenior
    cases msg <;> cases hsenior <;> rfl
  setUndoesSave := by
    intro s msg s₀ _ hsave
    obtain rfl : PlaybackMessage.playbackState s = msg :=
      Option.some.inj hsave
    rfl
  failedSenior := by
    intro s s' msg herr
    cases msg <;> cases herr <;> rfl
  failedSet := by
    intro s s' msg status hset hbad
    cases msg with
    | playbackState archive =>
        cases hset
        exact absurd rfl hbad
    | _ =>
        cases hset
        rfl

end PlaybackState

end ZgChoir
