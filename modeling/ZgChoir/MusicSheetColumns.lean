import ZgChoir.MusicSheetLaws

/-!
# Columns of a music sheet

`openColumn` and `closeColumn` say what it means to insert a column into a
song and to delete one, for a song as a function of time.  The code has only
a table of the chords that sound, and moves them one at a time while an
iterator stands on them.

Each loop is followed by an invariant at the chord that the iterator stands
on: what it has passed is shifted, what lies before it is as it was, and
nothing sounds in between.
-/

namespace ZgChoir

/-! ### Neighbours in the table -/

namespace ChordTable

variable {t : ChordTable} {e : Chord} {j k : UInt32}

private theorem le_of_find? {xs : List Chord} {p : Chord → Bool}
    {r : Chord → Chord → Prop} (hsorted : xs.Pairwise r)
    (h : xs.find? p = some e) {x : Chord} (hx : x ∈ xs) (hpx : p x = true) :
    x = e ∨ r e x := by
  obtain ⟨-, front, back, rfl, hfront⟩ := List.find?_eq_some_iff_append.mp h
  rcases List.mem_append.mp hx with hx | hx
  · have := hfront x hx
    rw [hpx] at this
    cases this
  · rcases List.mem_cons.mp hx with rfl | hx
    · exact .inl rfl
    · have hback := (List.pairwise_append.mp hsorted).2.1
      exact .inr ((List.pairwise_cons.mp hback).1 x hx)

private theorem silent_of_mem (h : ∀ e ∈ t.entries, e.index ≠ k) :
    t.chordAt k = 0 := by
  by_contra hne
  obtain ⟨e, he, hindex, -⟩ := exists_of_chordAt_ne_zero hne
  exact h e he hindex

theorem before?_eq_none (h : t.before? k = none) (hj : j < k) :
    t.chordAt j = 0 := by
  apply silent_of_mem
  rintro e he rfl
  have := List.find?_eq_none.mp h e (List.mem_reverse.mpr he)
  exact this (decide_eq_true hj)

/-- Nothing sounds between an index and the entry before it. -/
theorem before?_eq_some (h : t.before? k = some e) (hlt : e.index < j)
    (hj : j < k) : t.chordAt j = 0 := by
  apply silent_of_mem
  rintro x hx rfl
  have hsorted := List.pairwise_reverse.mpr t.sorted
  rcases le_of_find? hsorted h (List.mem_reverse.mpr hx) (decide_eq_true hj)
    with rfl | hbelow
  · exact lt_irrefl _ (UInt32.lt_iff_toNat_lt.mp hlt)
  · exact lt_asymm (UInt32.lt_iff_toNat_lt.mp hlt) hbelow

theorem after?_eq_none (h : t.after? k = none) (hj : k < j) :
    t.chordAt j = 0 := by
  apply silent_of_mem
  rintro e he rfl
  exact List.find?_eq_none.mp h e he (decide_eq_true hj)

/-- Nothing sounds between an index and the entry after it. -/
theorem after?_eq_some (h : t.after? k = some e) (hlt : k < j)
    (hj : j < e.index) : t.chordAt j = 0 := by
  apply silent_of_mem
  rintro x hx rfl
  rcases le_of_find? t.sorted h hx (decide_eq_true hlt) with rfl | habove
  · exact lt_irrefl _ (UInt32.lt_iff_toNat_lt.mp hj)
  · exact lt_asymm (UInt32.lt_iff_toNat_lt.mp hj) habove

theorem mem_of_after? (h : t.after? k = some e) : e ∈ t.entries :=
  List.mem_of_find?_eq_some h

theorem last?_eq_none (h : t.last? = none) (k : UInt32) : t.chordAt k = 0 := by
  have hnil : t.entries = [] := by simpa [OrderedTable.last?] using h
  apply silent_of_mem
  rw [hnil]
  intro e he
  cases he

/-- Nothing sounds after the last entry. -/
theorem last?_eq_some (h : t.last? = some e) (hj : e.index < j) :
    t.chordAt j = 0 := by
  apply silent_of_mem
  rintro x hx rfl
  obtain ⟨front, hfront⟩ := List.getLast?_eq_some_iff.mp h
  have hsorted := t.sorted
  rw [hfront] at hx hsorted
  have hlt := UInt32.lt_iff_toNat_lt.mp hj
  rcases List.mem_append.mp hx with hx | hx
  · exact lt_asymm hlt
      ((List.pairwise_append.mp hsorted).2.2 x hx e List.mem_cons_self)
  · rw [List.mem_singleton.mp hx] at hlt
    exact lt_irrefl _ hlt

theorem mem_of_last? (h : t.last? = some e) : e ∈ t.entries :=
  List.mem_of_getLast? h

/-- Nothing sounds before the first entry. -/
theorem first?_eq_some (h : t.first? = some e) (hj : j < e.index) :
    t.chordAt j = 0 := by
  apply silent_of_mem
  rintro x hx rfl
  exact absurd (UInt32.lt_iff_toNat_lt.mp hj)
    (not_lt.mpr ((OrderedTable.first?_eq_some h).2 x hx))

end ChordTable

/-! ### Songs as functions of time -/

/-- The last index that a chord can have. -/
def lastIndex : UInt32 := 4294967295

/-- A song with an empty column opened at `w`. -/
def openColumn (w : UInt32) (f : UInt32 → UInt64) (k : UInt32) : UInt64 :=
  if k < w then f k else if k = w then 0 else f (k - 1)

/-- A song with the column at `w` taken out. -/
def closeColumn (w : UInt32) (f : UInt32 → UInt64) (k : UInt32) : UInt64 :=
  if k < w then f k else if k = lastIndex then 0 else f (k + 1)

section Columns

variable {w : UInt32} {f : UInt32 → UInt64}

/-- A column that is opened can be closed again, unless the last chord had
to be pushed over the end. -/
theorem closeColumn_openColumn (hlast : f lastIndex = 0) :
    closeColumn w (openColumn w f) = f := by
  funext k
  unfold closeColumn openColumn
  by_cases hk : k < w
  · simp [hk]
  · by_cases hend : k = lastIndex
    · rw [if_neg hk, if_pos hend, hend, hlast]
    · have hnext : ¬ k + 1 < w ∧ k + 1 ≠ w := by
        unfold lastIndex at hend
        grind
      rw [if_neg hk, if_neg hend, if_neg hnext.1, if_neg hnext.2,
        UInt32.add_sub_cancel]

end Columns

namespace MusicSheet

open ChordTable

variable {c : Checksums} {s : MusicSheet} {w k : UInt32}
  {f : UInt32 → UInt64} {P : MusicSheet → Prop}

/-! ### What one turn of a loop does -/

/-- The chord at `k` goes to `k'`. -/
def moveChord (c : Checksums) (s : MusicSheet) (k k' : UInt32) : MusicSheet :=
  (s.removeChord c k).putChord c k' (s.getChordAtIndex k)

theorem chordAt_moveChord {k' j : UInt32} :
    (s.moveChord c k k').getChordAtIndex j =
      if j = k' then s.getChordAtIndex k
      else if j = k then 0 else s.getChordAtIndex j := by
  rw [moveChord, chordAt_putChord, chordAt_removeChord]

theorem insertChordLoop_stops (hstop : k < w) :
    insertChordLoop c w k s = s := by
  rw [insertChordLoop, if_pos hstop]

theorem insertChordLoop_ends (hgo : ¬ k < w)
    (hnone : (s.removeChord c k).chords.before? k = none) :
    insertChordLoop c w k s = s.moveChord c k (k + 1) := by
  rw [insertChordLoop, if_neg hgo]
  dsimp only
  split
  · rfl
  · rename_i next hnext
    rw [hnone] at hnext
    cases hnext

theorem insertChordLoop_goesOn (hgo : ¬ k < w) {next : Chord}
    (hnext : (s.removeChord c k).chords.before? k = some next) :
    insertChordLoop c w k s =
      insertChordLoop c w next.index (s.moveChord c k (k + 1)) := by
  rw [insertChordLoop, if_neg hgo]
  dsimp only
  split
  · rename_i hnone
    rw [hnone] at hnext
    cases hnext
  · rename_i next' hnext'
    obtain rfl : next = next' := Option.some.inj (hnext.symm.trans hnext')
    rfl

theorem moveChordsBackOneLoop_ends
    (hnone : (s.removeChord c k).chords.after? k = none) :
    moveChordsBackOneLoop c k s = s.moveChord c k (k - 1) := by
  rw [moveChordsBackOneLoop]
  dsimp only
  split
  · rfl
  · rename_i next hnext
    rw [hnone] at hnext
    cases hnext

theorem moveChordsBackOneLoop_goesOn {next : Chord}
    (hnext : (s.removeChord c k).chords.after? k = some next) :
    moveChordsBackOneLoop c k s =
      moveChordsBackOneLoop c next.index (s.moveChord c k (k - 1)) := by
  rw [moveChordsBackOneLoop]
  dsimp only
  split
  · rename_i hnone
    rw [hnone] at hnext
    cases hnext
  · rename_i next' hnext'
    obtain rfl : next = next' := Option.some.inj (hnext.symm.trans hnext')
    rfl

/-- An invariant of the loop of `InsertChordAt`, by the chord that the
iterator stands on. -/
theorem insertChordLoop_induct {I : UInt32 → MusicSheet → Prop}
    {Q : MusicSheet → Prop}
    (hstop : ∀ k s, k < w → I k s → Q s)
    (hend : ∀ k s, ¬ k < w → (s.removeChord c k).chords.before? k = none →
      I k s → Q (s.moveChord c k (k + 1)))
    (hnext : ∀ k s next, ¬ k < w →
      (s.removeChord c k).chords.before? k = some next →
      I k s → I next.index (s.moveChord c k (k + 1)))
    (h : I k s) : Q (insertChordLoop c w k s) := by
  induction hn : k.toNat using Nat.strongRecOn generalizing k s with
  | ind n ih =>
      by_cases hgo : k < w
      · rw [insertChordLoop_stops hgo]
        exact hstop k s hgo h
      · cases hbefore : (s.removeChord c k).chords.before? k with
        | none =>
            rw [insertChordLoop_ends hgo hbefore]
            exact hend k s hgo hbefore h
        | some next =>
            rw [insertChordLoop_goesOn hgo hbefore]
            have hless := lt_of_before? hbefore
            exact ih next.index.toNat (by omega)
              (hnext k s next hgo hbefore h) rfl

/-- An invariant of the loop of `MoveChordsBackOneStartingAt`. -/
theorem moveChordsBackOneLoop_induct {I : UInt32 → MusicSheet → Prop}
    {Q : MusicSheet → Prop}
    (hend : ∀ k s, (s.removeChord c k).chords.after? k = none →
      I k s → Q (s.moveChord c k (k - 1)))
    (hnext : ∀ k s next,
      (s.removeChord c k).chords.after? k = some next →
      I k s → I next.index (s.moveChord c k (k - 1)))
    (h : I k s) : Q (moveChordsBackOneLoop c k s) := by
  induction hn : UInt32.size - k.toNat using Nat.strongRecOn
      generalizing k s with
  | ind n ih =>
      cases hafter : (s.removeChord c k).chords.after? k with
      | none =>
          rw [moveChordsBackOneLoop_ends hafter]
          exact hend k s hafter h
      | some next =>
          rw [moveChordsBackOneLoop_goesOn hafter]
          have hless := lt_of_after? hafter
          have hsize := next.index.toNat_lt_size
          exact ih (UInt32.size - next.index.toNat) (by omega)
            (hnext k s next hafter h) rfl

theorem Kept.moveChord (h : s.Kept c) (k k' : UInt32) :
    (s.moveChord c k k').Kept c :=
  (h.removeChord k).putChord k' _

@[simp] theorem songFilePath_moveChord {k' : UInt32} :
    (s.moveChord c k k').songFilePath = s.songFilePath := by
  simp [moveChord, removeChord]

/-- Where the iterator goes next there is a chord. -/
theorem chordAt_of_mem (h : s.Kept c) {next : Chord}
    (hmem : next ∈ (s.removeChord c k).chords.entries) :
    next.index ≠ k ∧ s.getChordAtIndex next.index ≠ 0 := by
  obtain ⟨hnotes, hat⟩ :=
    (mem_iff_chordAt (h.removeChord k).noSilence).mp hmem
  have hremoved : (s.removeChord c k).getChordAtIndex next.index ≠ 0 := by
    rw [getChordAtIndex, hat]
    exact hnotes
  rw [chordAt_removeChord] at hremoved
  by_cases hk : next.index = k
  · simp [hk] at hremoved
  · rw [if_neg hk] at hremoved
    exact ⟨hk, hremoved⟩

/-- Nothing sounds where the sheet is silent without the chord at `k`. -/
theorem chordAt_of_removed {j : UInt32} (hne : j ≠ k)
    (h : (s.removeChord c k).chords.chordAt j = 0) :
    s.getChordAtIndex j = 0 := by
  have hremoved : (s.removeChord c k).getChordAtIndex j = 0 := h
  rwa [chordAt_removeChord, if_neg hne] at hremoved

/-! ### Inserting a column -/

/-- The loop of `InsertChordAt` at the chord `k`, for the song `f`. -/
structure Opening (c : Checksums) (w : UInt32) (f : UInt32 → UInt64)
    (k : UInt32) (s : MusicSheet) : Prop where
  kept : s.Kept c
  sounds : f k ≠ 0
  before : ∀ j, j ≤ k → s.getChordAtIndex j = f j
  between : ∀ j, k < j → j < w → f j = 0
  after : ∀ j, k < j →
    s.getChordAtIndex j = if j = k + 1 then 0 else f (j - 1)

namespace Opening

private theorem lt_succ (hlast : f lastIndex = 0) (h : Opening c w f k s) :
    k < k + 1 := by
  have hk : k ≠ lastIndex := fun heq => h.sounds (heq ▸ hlast)
  unfold lastIndex at hk
  grind

private theorem moved (h : Opening c w f k s) (j : UInt32) :
    (s.moveChord c k (k + 1)).getChordAtIndex j =
      if j = k + 1 then f k else if j = k then 0
      else s.getChordAtIndex j := by
  rw [chordAt_moveChord, h.before k (UInt32.le_refl k)]

/-- The iterator has passed the last chord that moves. -/
private theorem stops (h : Opening c w f k s) (hstop : k < w)
    (j : UInt32) : s.getChordAtIndex j = openColumn w f j := by
  unfold openColumn
  rcases lt_trichotomy j.toNat w.toNat with hj | hj | hj
  · have hjw : j < w := UInt32.lt_iff_toNat_lt.mpr hj
    rw [if_pos hjw]
    by_cases hk : j ≤ k
    · exact h.before j hk
    · have hkj : k < j := by grind
      rw [h.after j hkj, h.between j hkj hjw]
      split
      · rfl
      · exact h.between (j - 1) (by grind) (by grind)
  · obtain rfl : j = w := UInt32.toNat_inj.mp hj
    rw [if_neg (by grind), if_pos rfl, h.after j hstop]
    split
    · rfl
    · exact h.between (j - 1) (by grind) (by grind)
  · have hwj : w < j := UInt32.lt_iff_toNat_lt.mpr hj
    rw [if_neg (by grind), if_neg (by grind), h.after j (by grind),
      if_neg (by grind)]

/-- The first chord has moved. -/
private theorem ends (hlast : f lastIndex = 0) (h : Opening c w f k s)
    (hgo : ¬ k < w)
    (hnone : (s.removeChord c k).chords.before? k = none) (j : UInt32) :
    (s.moveChord c k (k + 1)).getChordAtIndex j = openColumn w f j := by
  have hk := h.lt_succ hlast
  have hsilent : ∀ i, i < k → f i = 0 := fun i hi => by
    rw [← h.before i (by grind)]
    exact chordAt_of_removed (by grind) (before?_eq_none hnone hi)
  rw [h.moved j]
  unfold openColumn
  by_cases hnext : j = k + 1
  · rw [if_pos hnext, if_neg (by grind), if_neg (by grind), hnext,
      UInt32.add_sub_cancel]
  · rw [if_neg hnext]
    by_cases hself : j = k
    · rw [if_pos hself, if_neg (by grind)]
      split
      · rfl
      · exact (hsilent (j - 1) (by grind)).symm
    · rw [if_neg hself]
      by_cases hj : j < k
      · rw [h.before j (by grind), hsilent j hj]
        split
        · rfl
        · split
          · rfl
          · exact (hsilent (j - 1) (by grind)).symm
      · rw [h.after j (by grind), if_neg hnext, if_neg (by grind),
          if_neg (by grind)]

/-- One turn of the loop. -/
private theorem goesOn (hlast : f lastIndex = 0) (h : Opening c w f k s)
    (hgo : ¬ k < w) {next : Chord}
    (hnext : (s.removeChord c k).chords.before? k = some next) :
    Opening c w f next.index (s.moveChord c k (k + 1)) := by
  have hk := h.lt_succ hlast
  have hless : next.index < k :=
    UInt32.lt_iff_toNat_lt.mpr (lt_of_before? hnext)
  have hsilent : ∀ i, next.index < i → i < k → f i = 0 := fun i hi hik => by
    rw [← h.before i (by grind)]
    exact chordAt_of_removed (by grind) (before?_eq_some hnext hi hik)
  have hmem : next ∈ (s.removeChord c k).chords.entries :=
    List.mem_reverse.mp (List.mem_of_find?_eq_some hnext)
  refine ⟨h.kept.moveChord _ _, ?_, fun j hj => ?_, fun j hj hjw => ?_,
    fun j hj => ?_⟩
  · rw [← h.before next.index (by grind)]
    exact (chordAt_of_mem h.kept hmem).2
  · rw [h.moved j, if_neg (by grind), if_neg (by grind)]
    exact h.before j (by grind)
  · exact hsilent j hj (by grind)
  · rw [h.moved j]
    by_cases hup : j = k + 1
    · rw [if_pos hup, if_neg (by grind), hup, UInt32.add_sub_cancel]
    · rw [if_neg hup]
      by_cases hself : j = k
      · rw [if_pos hself]
        split
        · rfl
        · exact (hsilent (j - 1) (by grind) (by grind)).symm
      · rw [if_neg hself]
        by_cases hjk : j < k
        · rw [h.before j (by grind), hsilent j hj hjk]
          split
          · rfl
          · exact (hsilent (j - 1) (by grind) (by grind)).symm
        · rw [h.after j (by grind), if_neg hup, if_neg (by grind)]

end Opening

/-- `InsertChordAt` opens a column. -/
theorem chordAt_insertChordAt (h : s.Kept c)
    (hlast : s.getChordAtIndex lastIndex = 0) (w : UInt32) :
    (s.insertChordAt c w).getChordAtIndex =
      openColumn w s.getChordAtIndex := by
  funext j
  unfold insertChordAt
  split
  · rename_i hnone
    have hsilent : s.getChordAtIndex = fun _ => 0 :=
      funext (last?_eq_none hnone)
    simp [hsilent, openColumn]
  · rename_i e he
    obtain ⟨hnotes, hat⟩ :=
      (mem_iff_chordAt h.noSilence).mp (mem_of_last? he)
    have hsilent : ∀ i, e.index < i → s.getChordAtIndex i = 0 :=
      fun i => last?_eq_some he
    have hstart : Opening c w s.getChordAtIndex e.index s := by
      refine ⟨h, ?_, fun i _ => rfl, fun i hi _ => hsilent i hi,
        fun i hi => ?_⟩
      · rw [getChordAtIndex, hat]
        exact hnotes
      · rw [hsilent i hi]
        split
        · rfl
        · exact (hsilent (i - 1) (by grind)).symm
    exact insertChordLoop_induct (I := Opening c w s.getChordAtIndex)
      (Q := fun s' => s'.getChordAtIndex j =
        openColumn w s.getChordAtIndex j)
      (fun _ _ hstop hI => hI.stops hstop j)
      (fun _ _ hgo hnone hI => hI.ends hlast hgo hnone j)
      (fun _ _ _ hgo hnext hI => hI.goesOn hlast hgo hnext) hstart

theorem Kept.insertChordAt (h : s.Kept c) (w : UInt32) :
    (s.insertChordAt c w).Kept c := by
  unfold MusicSheet.insertChordAt
  split
  · exact h
  · exact insertChordLoop_induct (I := fun _ s => s.Kept c)
      (fun _ _ _ hI => hI) (fun _ _ _ _ hI => hI.moveChord _ _)
      (fun _ _ _ _ _ hI => hI.moveChord _ _) h

@[simp] theorem songFilePath_insertChordAt :
    (s.insertChordAt c w).songFilePath = s.songFilePath := by
  unfold insertChordAt
  split
  · rfl
  · exact insertChordLoop_induct
      (I := fun _ s' => s'.songFilePath = s.songFilePath)
      (Q := fun s' => s'.songFilePath = s.songFilePath)
      (fun _ _ _ hI => hI) (fun _ _ _ _ hI => by simpa using hI)
      (fun _ _ _ _ _ hI => by simpa using hI) rfl

/-! ### Deleting a column -/

/-- The loop of `MoveChordsBackOneStartingAt` at the chord `k`, for the song
`f` from which the column `w` is taken. -/
structure Closing (c : Checksums) (w : UInt32) (f : UInt32 → UInt64)
    (k : UInt32) (s : MusicSheet) : Prop where
  kept : s.Kept c
  later : w < k
  behind : ∀ j, k ≤ j → s.getChordAtIndex j = f j
  passed : ∀ j, j < k → s.getChordAtIndex j =
    if j < w then f j else if j = k - 1 then 0 else f (j + 1)

namespace Closing

private theorem moved (h : Closing c w f k s) (j : UInt32) :
    (s.moveChord c k (k - 1)).getChordAtIndex j =
      if j = k - 1 then f k else if j = k then 0
      else s.getChordAtIndex j := by
  rw [chordAt_moveChord, h.behind k (UInt32.le_refl k)]

/-- The last chord has moved. -/
private theorem ends (h : Closing c w f k s)
    (hnone : (s.removeChord c k).chords.after? k = none) (j : UInt32) :
    (s.moveChord c k (k - 1)).getChordAtIndex j = closeColumn w f j := by
  have hlater := h.later
  have hsilent : ∀ i, k < i → f i = 0 := fun i hi => by
    rw [← h.behind i (by grind)]
    exact chordAt_of_removed (by grind) (after?_eq_none hnone hi)
  rw [h.moved j]
  unfold closeColumn lastIndex
  by_cases hdown : j = k - 1
  · rw [if_pos hdown, if_neg (by grind), if_neg (by grind), hdown,
      UInt32.sub_add_cancel]
  · rw [if_neg hdown]
    by_cases hself : j = k
    · rw [if_pos hself, if_neg (by grind)]
      split
      · rfl
      · exact (hsilent (j + 1) (by grind)).symm
    · rw [if_neg hself]
      by_cases hj : j < k
      · rw [h.passed j hj, if_neg hdown]
        split
        · rfl
        · rw [if_neg (by grind)]
      · rw [h.behind j (by grind), hsilent j (by grind), if_neg (by grind)]
        split
        · rfl
        · exact (hsilent (j + 1) (by grind)).symm

/-- One turn of the loop. -/
private theorem goesOn (h : Closing c w f k s) {next : Chord}
    (hnext : (s.removeChord c k).chords.after? k = some next) :
    Closing c w f next.index (s.moveChord c k (k - 1)) := by
  have hlater := h.later
  have hless : k < next.index :=
    UInt32.lt_iff_toNat_lt.mpr (lt_of_after? hnext)
  have hsilent : ∀ i, k < i → i < next.index → f i = 0 := fun i hi hik => by
    rw [← h.behind i (by grind)]
    exact chordAt_of_removed (by grind) (after?_eq_some hnext hi hik)
  refine ⟨h.kept.moveChord _ _, by grind, fun j hj => ?_, fun j hj => ?_⟩
  · rw [h.moved j, if_neg (by grind), if_neg (by grind)]
    exact h.behind j (by grind)
  · rw [h.moved j]
    by_cases hdown : j = k - 1
    · rw [if_pos hdown, if_neg (by grind), if_neg (by grind), hdown,
        UInt32.sub_add_cancel]
    · rw [if_neg hdown]
      by_cases hself : j = k
      · rw [if_pos hself, if_neg (by grind)]
        split
        · rfl
        · exact (hsilent (j + 1) (by grind) (by grind)).symm
      · rw [if_neg hself]
        by_cases hjk : j < k
        · rw [h.passed j hjk, if_neg hdown]
          split
          · rfl
          · rw [if_neg (by grind)]
        · rw [h.behind j (by grind), hsilent j (by grind) hj,
            if_neg (by grind)]
          split
          · rfl
          · exact (hsilent (j + 1) (by grind) (by grind)).symm

end Closing

private theorem get?_of_mem {t : ChordTable} {e : Chord}
    (he : e ∈ t.entries) : t.get? e.index.toNat = some e :=
  OrderedTable.get?_eq_some.mpr ⟨he, rfl⟩

/-- The loop is started at the first chord after `w`. -/
private theorem moveChordsBackOne_from (h : s.Kept c) {next : Chord}
    (hmem : next ∈ s.chords.entries) (hlater : w < next.index)
    (hsilent : ∀ i, w ≤ i → i < next.index → s.getChordAtIndex i = 0) :
    (s.moveChordsBackOneStartingAt c next.index).getChordAtIndex =
      closeColumn w s.getChordAtIndex := by
  funext j
  have hstart : Closing c w s.getChordAtIndex next.index s := by
    refine ⟨h, hlater, fun i _ => rfl, fun i hi => ?_⟩
    split
    · rfl
    · rw [hsilent i (by grind) hi]
      split
      · rfl
      · exact (hsilent (i + 1) (by grind) (by grind)).symm
  unfold moveChordsBackOneStartingAt
  rw [get?_of_mem hmem]
  exact moveChordsBackOneLoop_induct (I := Closing c w s.getChordAtIndex)
    (Q := fun s' => s'.getChordAtIndex j = closeColumn w s.getChordAtIndex j)
    (fun _ _ hnone hI => hI.ends hnone j)
    (fun _ _ _ hnext hI => hI.goesOn hnext) hstart

private theorem closeColumn_of_silent {g : UInt32 → UInt64}
    (hsilent : ∀ i, w ≤ i → g i = 0) : g = closeColumn w g := by
  funext j
  unfold closeColumn lastIndex
  split
  · rfl
  · rw [hsilent j (by grind)]
    split
    · rfl
    · exact (hsilent (j + 1) (by grind)).symm

/-- The column that is taken out does not matter. -/
theorem closeColumn_congr {g : UInt32 → UInt64}
    (hfg : ∀ k, k ≠ w → g k = f k) : closeColumn w g = closeColumn w f := by
  funext k
  unfold closeColumn lastIndex
  split
  · exact hfg k (by grind)
  · split
    · rfl
    · exact hfg (k + 1) (by grind)

/-- The chords after a column that has been emptied close up. -/
private theorem chordAt_moveLaterChordsBackOne (h : s.Kept c)
    (hempty : s.getChordAtIndex w = 0) :
    (s.moveLaterChordsBackOne c w).getChordAtIndex =
      closeColumn w s.getChordAtIndex := by
  have hsounds : ∀ e ∈ s.chords.entries, s.getChordAtIndex e.index ≠ 0 :=
    fun e he => by
      obtain ⟨hnotes, hat⟩ := (mem_iff_chordAt h.noSilence).mp he
      rw [getChordAtIndex, hat]
      exact hnotes
  have hmoves : ∀ next ∈ s.chords.entries, ¬ next.index < w →
      (∀ i, w ≤ i → i < next.index → s.getChordAtIndex i = 0) →
      (s.moveChordsBackOneStartingAt c next.index).getChordAtIndex =
        closeColumn w s.getChordAtIndex := by
    intro next hnext hlater hsilent
    have hne : next.index ≠ w := fun heq =>
      hsounds next hnext (heq ▸ hempty)
    exact moveChordsBackOne_from h hnext (by grind) hsilent
  unfold moveLaterChordsBackOne
  split
  · rename_i hnone
    exact closeColumn_of_silent fun i _ => last?_eq_none hnone i
  · rename_i last hlast
    have hlastMem := mem_of_last? hlast
    split
    · exact closeColumn_of_silent fun i hi => last?_eq_some hlast (by grind)
    · rename_i hpast
      split
      · rename_i e hbefore
        have hew : e.index < w :=
          UInt32.lt_iff_toNat_lt.mpr (lt_of_before? hbefore)
        split
        · rename_i next hafter
          have hnext := mem_of_after? hafter
          have henext : e.index < next.index :=
            UInt32.lt_iff_toNat_lt.mpr (lt_of_after? hafter)
          refine hmoves next hnext (fun hearly => ?_) fun i hi hin =>
            after?_eq_some hafter (by grind) hin
          exact hsounds next hnext (before?_eq_some hbefore henext hearly)
        · rename_i hafter
          exact absurd (after?_eq_none hafter (by grind))
            (hsounds last hlastMem)
      · rename_i hbefore
        split
        · rename_i first hfirst
          obtain ⟨hmem, -⟩ := OrderedTable.first?_eq_some hfirst
          refine hmoves first hmem (fun hearly => ?_) fun i _ hin =>
            first?_eq_some hfirst hin
          exact hsounds first hmem (before?_eq_none hbefore hearly)
        · rename_i hfirst
          rw [OrderedTable.first?_eq_none.mp hfirst] at hlastMem
          cases hlastMem

/-- `DeleteChordAt` closes a column. -/
theorem chordAt_deleteChordAt (h : s.Kept c) (w : UInt32) :
    (s.deleteChordAt c w).getChordAtIndex =
      closeColumn w s.getChordAtIndex := by
  have hempty : (s.removeChord c w).getChordAtIndex w = 0 := by
    rw [chordAt_removeChord, if_pos rfl]
  rw [deleteChordAt,
    chordAt_moveLaterChordsBackOne (h.removeChord w) hempty]
  exact closeColumn_congr fun k hk => by rw [chordAt_removeChord, if_neg hk]

private theorem kept_moveChordsBackOne (h : s.Kept c) (k : UInt32) :
    (s.moveChordsBackOneStartingAt c k).Kept c ∧
      (s.moveChordsBackOneStartingAt c k).songFilePath = s.songFilePath := by
  unfold moveChordsBackOneStartingAt
  split
  · exact ⟨h, rfl⟩
  · exact moveChordsBackOneLoop_induct
      (I := fun _ s' => s'.Kept c ∧ s'.songFilePath = s.songFilePath)
      (Q := fun s' => s'.Kept c ∧ s'.songFilePath = s.songFilePath)
      (fun _ _ _ hI => ⟨hI.1.moveChord _ _, by simpa using hI.2⟩)
      (fun _ _ _ _ hI => ⟨hI.1.moveChord _ _, by simpa using hI.2⟩) ⟨h, rfl⟩

private theorem kept_deleteChordAt (h : s.Kept c) (w : UInt32) :
    (s.deleteChordAt c w).Kept c ∧
      (s.deleteChordAt c w).songFilePath = s.songFilePath := by
  have hremoved : (s.removeChord c w).Kept c ∧
      (s.removeChord c w).songFilePath = s.songFilePath :=
    ⟨h.removeChord w, songFilePath_putChord⟩
  have hmoved : ∀ k,
      ((s.removeChord c w).moveChordsBackOneStartingAt c k).Kept c ∧
      ((s.removeChord c w).moveChordsBackOneStartingAt c k).songFilePath =
        s.songFilePath := fun k => by
    obtain ⟨hkept, hpath⟩ := kept_moveChordsBackOne hremoved.1 k
    exact ⟨hkept, hpath.trans hremoved.2⟩
  unfold MusicSheet.deleteChordAt moveLaterChordsBackOne
  split
  · exact hremoved
  · split
    · exact hremoved
    · split
      · split
        · exact hmoved _
        · exact hremoved
      · split
        · exact hmoved _
        · exact hremoved

theorem Kept.deleteChordAt (h : s.Kept c) (w : UInt32) :
    (s.deleteChordAt c w).Kept c :=
  (kept_deleteChordAt h w).1

theorem songFilePath_deleteChordAt (h : s.Kept c) (w : UInt32) :
    (s.deleteChordAt c w).songFilePath = s.songFilePath :=
  (kept_deleteChordAt h w).2

/-- Deleting the column just inserted gives back the sheet, with everything
that is kept beside the chords. -/
theorem deleteChordAt_insertChordAt (h : s.Kept c)
    (hlast : s.getChordAtIndex lastIndex = 0) (w : UInt32) :
    (s.insertChordAt c w).deleteChordAt c w = s := by
  have hinserted := h.insertChordAt w
  have hdeleted := hinserted.deleteChordAt w
  have hpath : ((s.insertChordAt c w).deleteChordAt c w).songFilePath =
      s.songFilePath := by
    rw [songFilePath_deleteChordAt hinserted, songFilePath_insertChordAt]
  have hat : ((s.insertChordAt c w).deleteChordAt c w).getChordAtIndex =
      s.getChordAtIndex := by
    rw [chordAt_deleteChordAt hinserted, chordAt_insertChordAt h hlast,
      closeColumn_openColumn hlast]
  exact hdeleted.unique h hpath
    (ext_chordAt hdeleted.noSilence h.noSilence (congrFun hat))

end MusicSheet

end ZgChoir
