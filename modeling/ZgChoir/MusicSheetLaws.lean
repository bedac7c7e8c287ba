import ZgChoir.MusicSheet

/-!
# What is kept beside the chords of a music sheet

`Kept` is the invariant of a sheet: silence is not stored, the histogram
counts the notes of the chords, and the running checksum is the computed one,
but for the checksum of the empty path that the default state leaves out.
Every operation keeps it.  A sheet that is kept is determined by its path and
its chords, so that an archive of the two restores all of it.
-/

namespace ZgChoir

/-! ### Chords by their index -/

namespace ChordTable

variable {t u : ChordTable} {e : Chord} {j k : UInt32}

/-- Silence is not stored. -/
def NoSilence (t : ChordTable) : Prop := ∀ e ∈ t.entries, e.notes ≠ 0

theorem chordAt_put :
    chordAt (OrderedTable.put t e) j =
      if j = e.index then e.notes else t.chordAt j := by
  by_cases h : j = e.index
  · subst h
    have hself : (OrderedTable.put t e).get? e.index.toNat = some e :=
      OrderedTable.get?_put_self
    rw [if_pos rfl, chordAt, hself]
  · have hne : e.position ≠ j.toNat := fun heq =>
      h (UInt32.toNat_inj.mp heq.symm)
    rw [if_neg h, chordAt, OrderedTable.get?_put_of_ne hne, ← chordAt]

theorem chordAt_remove :
    chordAt (OrderedTable.remove t k.toNat) j =
      if j = k then 0 else t.chordAt j := by
  have hget : (OrderedTable.remove t k.toNat).get? j.toNat =
      if j = k then none else t.get? j.toNat := by
    ext e
    by_cases h : j = k
    · subst h
      simp only [OrderedTable.get?_eq_some, OrderedTable.mem_remove, if_true]
      grind
    · have hne : j.toNat ≠ k.toNat := fun heq => h (UInt32.toNat_inj.mp heq)
      simp only [OrderedTable.get?_eq_some, OrderedTable.mem_remove,
        if_neg h]
      grind
  rw [chordAt, hget]
  by_cases h : j = k
  · rw [if_pos h, if_pos h]
  · rw [if_neg h, if_neg h, ← chordAt]

/-- What is stored is what sounds. -/
theorem mem_iff_chordAt (h : t.NoSilence) :
    e ∈ t.entries ↔ e.notes ≠ 0 ∧ t.chordAt e.index = e.notes := by
  constructor
  · intro he
    have hget : t.get? e.index.toNat = some e :=
      OrderedTable.get?_eq_some.mpr ⟨he, rfl⟩
    exact ⟨h e he, by rw [chordAt, hget]⟩
  · rintro ⟨hne, hat⟩
    unfold chordAt at hat
    cases hget : t.get? e.index.toNat with
    | none =>
        rw [hget] at hat
        exact absurd hat.symm hne
    | some x =>
        rw [hget] at hat
        obtain ⟨hx, hkey⟩ := OrderedTable.get?_eq_some.mp hget
        obtain ⟨index, notes⟩ := x
        obtain rfl : index = e.index := UInt32.toNat_inj.mp hkey
        obtain rfl : notes = e.notes := hat
        exact hx

/-- A table is determined by what sounds at each index. -/
theorem ext_chordAt (ht : t.NoSilence) (hu : u.NoSilence)
    (h : ∀ k, t.chordAt k = u.chordAt k) : t = u := by
  apply OrderedTable.ext_mem
  intro e
  rw [mem_iff_chordAt ht, mem_iff_chordAt hu, h e.index]

theorem exists_of_chordAt_ne_zero (h : t.chordAt k ≠ 0) :
    ∃ e ∈ t.entries, e.index = k ∧ t.get? k.toNat = some e ∧
      e.notes = t.chordAt k := by
  unfold chordAt at h ⊢
  cases hget : t.get? k.toNat with
  | none =>
      rw [hget] at h
      exact absurd rfl h
  | some e =>
      obtain ⟨he, hkey⟩ := OrderedTable.get?_eq_some.mp hget
      exact ⟨e, he, UInt32.toNat_inj.mp hkey, rfl, rfl⟩

theorem get?_eq_none_of_chordAt (ht : t.NoSilence) (h : t.chordAt k = 0) :
    t.get? k.toNat = none := by
  cases hget : t.get? k.toNat with
  | none => rfl
  | some e =>
      obtain ⟨he, -⟩ := OrderedTable.get?_eq_some.mp hget
      rw [chordAt, hget] at h
      exact absurd h (ht e he)

theorem NoSilence.put (ht : t.NoSilence) (he : e.notes ≠ 0) :
    NoSilence (OrderedTable.put t e) := by
  intro x hx
  rcases OrderedTable.mem_put.mp hx with rfl | ⟨hx, -⟩
  · exact he
  · exact ht x hx

theorem NoSilence.remove (ht : t.NoSilence) (n : ℕ) :
    NoSilence (OrderedTable.remove t n) :=
  fun x hx => ht x (OrderedTable.mem_remove.mp hx).1

/-- The weight of what sounds at an index. -/
theorem weightAt_chordAt {M : Type} [AddCommMonoid M]
    {w : UInt32 → UInt64 → M} (hzero : ∀ k, w k 0 = 0) :
    t.weightAt (fun e => w e.index e.notes) k.toNat = w k (t.chordAt k) := by
  unfold OrderedTable.weightAt chordAt
  cases hget : t.get? k.toNat with
  | none => exact (hzero k).symm
  | some e =>
      obtain ⟨-, hkey⟩ := OrderedTable.get?_eq_some.mp hget
      obtain rfl : e.index = k := UInt32.toNat_inj.mp hkey
      rfl

/-- How many chords of the table have the note. -/
def noteCount (t : ChordTable) (i : Fin 64) : ℕ :=
  (t.entries.map fun e => NoteHistogram.noteOf e.notes i).sum

theorem noteCount_eq_remove_add (i : Fin 64) :
    t.noteCount i = noteCount (OrderedTable.remove t k.toNat) i +
      NoteHistogram.noteOf (t.chordAt k) i := by
  have hweight := weightAt_chordAt (t := t) (k := k)
    (w := fun _ notes => NoteHistogram.noteOf notes i) fun _ => by simp
  rw [← hweight]
  exact OrderedTable.total_eq_remove_add

theorem noteCount_put (i : Fin 64) :
    noteCount (OrderedTable.put t e) i =
      noteCount (OrderedTable.remove t e.index.toNat) i +
        NoteHistogram.noteOf e.notes i :=
  OrderedTable.total_put_eq_remove_add

end ChordTable

namespace MusicSheet

open ChordTable

variable {c : Checksums} {s s' : MusicSheet} {whichChord k : UInt32}
  {chordValue : UInt64} {path : String} {msg : SheetMessage}

/-! ### The invariant -/

/-- What is kept beside the chords is right. -/
structure Kept (c : Checksums) (s : MusicSheet) : Prop where
  noSilence : s.chords.NoSilence
  notes : s.notes.Counts s.chords.noteCount
  checksum : s.checksum = s.calculateChecksum c - c.ofString ""

/-- A sheet is its path and its chords. -/
theorem Kept.unique (h : s.Kept c) (h' : s'.Kept c)
    (hpath : s.songFilePath = s'.songFilePath)
    (hchords : s.chords = s'.chords) : s = s' := by
  obtain ⟨path, chords, notes, checksum⟩ := s
  obtain ⟨path', chords', notes', checksum'⟩ := s'
  obtain rfl : path = path' := hpath
  obtain rfl : chords = chords' := hchords
  have hnotes : notes = notes' := h.notes.unique h'.notes
  have hchecksum : checksum = checksum' := h.checksum.trans h'.checksum.symm
  rw [hnotes, hchecksum]

theorem kept_setToDefaultState : setToDefaultState.Kept c where
  noSilence := fun _ he => by cases he
  notes := NoteHistogram.counts_empty
  checksum := by
    simp [setToDefaultState, calculateChecksum]

theorem Kept.setSongFilePath (h : s.Kept c) (path : String) :
    (s.setSongFilePath c path).Kept c := by
  unfold MusicSheet.setSongFilePath
  by_cases hpath : path = s.songFilePath
  · rw [if_pos hpath]
    exact h
  · rw [if_neg hpath]
    refine ⟨h.noSilence, h.notes, ?_⟩
    simp only [h.checksum, calculateChecksum]
    abel

@[simp] theorem chords_setSongFilePath :
    (s.setSongFilePath c path).chords = s.chords := by
  unfold setSongFilePath
  split <;> rfl

@[simp] theorem songFilePath_setSongFilePath :
    (s.setSongFilePath c path).songFilePath = path := by
  unfold setSongFilePath
  split
  · rename_i h
    exact h.symm
  · rfl

/-! ### Putting a chord -/

@[simp] theorem songFilePath_putChord :
    (s.putChord c whichChord chordValue).songFilePath = s.songFilePath := by
  simp only [putChord]
  split
  · split <;> rfl
  · split <;> rfl

/-- Silence is removed, everything else is put. -/
theorem chords_putChord :
    (s.putChord c whichChord chordValue).chords =
      if chordValue ≠ 0 then s.chords.put ⟨whichChord, chordValue⟩
      else s.chords.remove whichChord.toNat := by
  simp only [putChord]
  split
  · split <;> rfl
  · split
    · rename_i hnone
      exact (OrderedTable.remove_of_get?_eq_none hnone).symm
    · rfl

@[simp] theorem chordAt_putChord :
    (s.putChord c whichChord chordValue).getChordAtIndex k =
      if k = whichChord then chordValue else s.getChordAtIndex k := by
  rw [getChordAtIndex, chords_putChord]
  by_cases hvalue : chordValue = 0
  · rw [if_neg (by simp [hvalue]), chordAt_remove, hvalue]
    rfl
  · rw [if_pos hvalue, chordAt_put]
    rfl

@[simp] theorem chordAt_removeChord :
    (s.removeChord c whichChord).getChordAtIndex k =
      if k = whichChord then 0 else s.getChordAtIndex k :=
  chordAt_putChord

private theorem checksum_put (h : s.Kept c) (hvalue : chordValue ≠ 0) :
    (s.putChord c whichChord chordValue).checksum =
      s.checksum -
        s.chords.weightAt (fun e => checksumForChord c e.index e.notes)
          whichChord.toNat +
        checksumForChord c whichChord chordValue := by
  by_cases hold : s.getChordAtIndex whichChord = 0
  · have hnone := get?_eq_none_of_chordAt h.noSilence hold
    simp [putChord, hvalue, hold, OrderedTable.weightAt, hnone]
  · obtain ⟨e, -, rfl, hget, hnotes⟩ := exists_of_chordAt_ne_zero hold
    have hat : s.getChordAtIndex e.index = e.notes := hnotes.symm
    rw [hat] at hold
    simp [putChord, hvalue, hat, hold, OrderedTable.weightAt, hget]

private theorem notes_put (h : s.Kept c) (hvalue : chordValue ≠ 0) :
    (s.putChord c whichChord chordValue).notes.Counts
      (noteCount (s.chords.put ⟨whichChord, chordValue⟩)) := by
  have hremoved := noteCount_eq_remove_add (t := s.chords) (k := whichChord)
  have hput := noteCount_put (t := s.chords) (e := ⟨whichChord, chordValue⟩)
  by_cases hold : s.getChordAtIndex whichChord = 0
  · simp only [putChord, hvalue, hold, ne_eq, not_true, not_false_eq_true,
      if_true, if_false]
    apply h.notes.add
    intro i
    rw [hput i, hremoved i, show s.chords.chordAt whichChord = 0 from hold,
      NoteHistogram.noteOf_zero, Nat.add_zero]
  · simp only [putChord, hvalue, hold, ne_eq, not_false_eq_true, if_true]
    exact (h.notes.remove hremoved).add hput

theorem Kept.putChord (h : s.Kept c) (whichChord : UInt32)
    (chordValue : UInt64) : (s.putChord c whichChord chordValue).Kept c := by
  by_cases hvalue : chordValue = 0
  · subst hvalue
    cases hget : s.chords.get? whichChord.toNat with
    | none => simpa [MusicSheet.putChord, hget] using h
    | some e =>
        have hput : s.putChord c whichChord 0 =
            { s with
              chords := s.chords.remove whichChord.toNat
              notes := updateNoteHistogram e.notes false s.notes
              checksum := s.checksum -
                checksumForChord c whichChord e.notes } := by
          simp [MusicSheet.putChord, hget]
        have hat : s.chords.chordAt whichChord = e.notes := by
          rw [chordAt, hget]
        have hindex : e.index = whichChord :=
          UInt32.toNat_inj.mp (OrderedTable.get?_eq_some.mp hget).2
        rw [hput]
        refine ⟨h.noSilence.remove _, ?_, ?_⟩
        · exact h.notes.remove fun i => hat ▸ noteCount_eq_remove_add i
        · simp only [h.checksum, calculateChecksum, OrderedTable.total_remove,
            OrderedTable.weightAt, hget, hindex]
          abel
  · refine ⟨?_, ?_, ?_⟩
    · rw [chords_putChord, if_pos hvalue]
      exact h.noSilence.put hvalue
    · rw [chords_putChord, if_pos hvalue]
      exact notes_put h hvalue
    · rw [checksum_put h hvalue, h.checksum]
      simp only [calculateChecksum, songFilePath_putChord, chords_putChord,
        if_pos hvalue, OrderedTable.total_put]
      simp only [Chord.position]
      abel

theorem Kept.removeChord (h : s.Kept c) (whichChord : UInt32) :
    (s.removeChord c whichChord).Kept c :=
  h.putChord whichChord 0

end MusicSheet

end ZgChoir
