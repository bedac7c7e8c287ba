import ZgChoir.MusicSheetColumns

/-!
# The music sheet on every peer

An archive of a sheet restores it, so that the sheet replays: what the senior
tells its juniors to do is what it has done itself.  With that the song is
the same on every peer, and what each of them keeps beside its chords is
right.
-/

namespace ZgChoir

namespace MusicSheet

open ChordTable

variable {c : Checksums} {s : MusicSheet}

/-! ### Archives -/

private theorem kept_foldl_putChord (es : List (UInt32 × UInt64))
    (h : s.Kept c) :
    (es.foldl (fun s e => s.putChord c e.1 e.2) s).Kept c := by
  induction es generalizing s with
  | nil => exact h
  | cons e es ih => exact ih (h.putChord e.1 e.2)

private theorem songFilePath_foldl_putChord
    (es : List (UInt32 × UInt64)) :
    (es.foldl (fun s e => s.putChord c e.1 e.2) s).songFilePath =
      s.songFilePath := by
  induction es generalizing s with
  | nil => rfl
  | cons e es ih => rw [List.foldl_cons, ih, songFilePath_putChord]

theorem Kept.updateFromArchive (h : s.Kept c) (archive : SheetArchive) :
    (s.updateFromArchive c archive).Kept c := by
  unfold MusicSheet.updateFromArchive
  apply kept_foldl_putChord
  split
  · exact h.setSongFilePath _
  · exact h

theorem Kept.setFromArchive (h : s.Kept c) (msg : SheetMessage) :
    (s.setFromArchive c msg).1.Kept c := by
  cases msg with
  | musicSheet archive => exact kept_setToDefaultState.updateFromArchive archive
  | _ => exact h

/-- Chords that are put one after the other, no index twice. -/
private theorem chordAt_foldl_putChord {es : List Chord}
    (hsorted : es.Pairwise fun a b => a.position < b.position) (k : UInt32) :
    ((es.map fun e => (e.index, e.notes)).foldl
        (fun s e => s.putChord c e.1 e.2) s).getChordAtIndex k =
      ((es.find? fun e => decide (e.position = k.toNat)).map
        Chord.notes).getD (s.getChordAtIndex k) := by
  induction es generalizing s with
  | nil => rfl
  | cons e es ih =>
      obtain ⟨hfirst, hrest⟩ := List.pairwise_cons.mp hsorted
      rw [List.map_cons, List.foldl_cons, ih hrest, List.find?_cons]
      by_cases hk : e.position = k.toNat
      · have hnone : es.find? (fun e => decide (e.position = k.toNat)) =
            none := by
          apply List.find?_eq_none.mpr
          intro x hx
          have := hfirst x hx
          simp only [decide_eq_true_eq]
          omega
        have hindex : k = e.index := (UInt32.toNat_inj.mp hk).symm
        simp only [hnone, hk, decide_true, Option.map_none, Option.map_some,
          Option.getD_none, Option.getD_some]
        rw [chordAt_putChord, if_pos hindex]
      · have hindex : k ≠ e.index := fun heq => hk (by rw [heq]; rfl)
        simp only [hk, decide_false]
        rw [chordAt_putChord, if_neg hindex]

/-- A saved sheet is restored, with everything that is kept beside it. -/
theorem updateFromArchive_saveToArchive (h : s.Kept c) :
    setToDefaultState.updateFromArchive c s.saveToArchive = s := by
  have hrestored :=
    kept_setToDefaultState.updateFromArchive (c := c) s.saveToArchive
  have hzip : s.saveToArchive.idx.zip s.saveToArchive.chord =
      s.chords.entries.map fun e => (e.index, e.notes) := by
    rw [saveToArchive, List.zip_map']
  refine hrestored.unique h ?_ (ext_chordAt hrestored.noSilence h.noSilence
    fun k => ?_)
  · rw [updateFromArchive, songFilePath_foldl_putChord]
    exact songFilePath_setSongFilePath
  · have hat := chordAt_foldl_putChord (c := c)
      (s := setToDefaultState.setSongFilePath c s.songFilePath)
      s.chords.sorted k
    have hdefault : (setToDefaultState.setSongFilePath c
        s.songFilePath).getChordAtIndex k = 0 := by
      rw [getChordAtIndex, chords_setSongFilePath]
      rfl
    have hfound : s.chords.chordAt k =
        ((s.chords.get? k.toNat).map Chord.notes).getD 0 := by
      unfold chordAt
      cases s.chords.get? k.toNat <;> rfl
    rw [hdefault] at hat
    rw [updateFromArchive, hzip, hfound]
    exact hat

/-! ### Updates -/

theorem Kept.seniorUpdate (h : s.Kept c) (msg : SheetMessage) :
    (s.seniorUpdate c msg).1.Kept c := by
  cases msg with
  | toggleNote chordIdx _ => exact h.putChord chordIdx _
  | setSongFilePath path => exact h.setSongFilePath path
  | insertChord chordIdx => exact h.insertChordAt chordIdx
  | deleteChord chordIdx => exact h.deleteChordAt chordIdx
  | setChord _ _ => exact h
  | noop => exact h
  | musicSheet _ => exact h
  | unknown _ => exact h

theorem Kept.juniorUpdate (h : s.Kept c) (msg : SheetMessage) :
    (s.juniorUpdate c msg).1.Kept c := by
  cases msg with
  | toggleNote _ _ => exact h
  | setSongFilePath path => exact h.setSongFilePath path
  | setChord chordIdx chordVal => exact h.putChord chordIdx chordVal
  | insertChord chordIdx => exact h.insertChordAt chordIdx
  | deleteChord chordIdx => exact h.deleteChordAt chordIdx
  | noop => exact h
  | musicSheet archive => exact kept_setToDefaultState.updateFromArchive archive
  | unknown _ => exact h

/-- The music sheet replays. -/
theorem replays (c : Checksums) : (databaseObject c).Replays (Kept c) where
  default := kept_setToDefaultState
  senior msg h := h.seniorUpdate msg
  junior msg h := h.juniorUpdate msg
  setFrom msg h := h.setFromArchive msg
  juniorReplaysSenior := by
    intro s s' msg juniorMsg _ hsenior
    cases msg <;> cases hsenior <;> rfl
  setUndoesSave := by
    intro s msg s₀ h hsave
    obtain rfl : SheetMessage.musicSheet s.saveToArchive = msg :=
      Option.some.inj hsave
    exact congrArg (·, Status.noError) (updateFromArchive_saveToArchive h)
  failedSenior := by
    intro s s' msg herr
    cases msg <;> cases herr <;> rfl
  failedSet := by
    intro s s' msg status hset hbad
    cases msg with
    | musicSheet archive =>
        cases hset
        exact absurd rfl hbad
    | _ =>
        cases hset
        rfl

end MusicSheet

end ZgChoir
