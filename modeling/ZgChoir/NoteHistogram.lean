import Mathlib

/-!
# Chords of notes, and a histogram of them

In the choir demo a chord is a 64-bit word with one bit for each note.  A
table of chords keeps a histogram beside it: how many of its chords have each
note, and the chord of all notes that are counted at all.  The histogram is
never computed; `updateNoteHistogram` patches it when a chord comes or goes.

`Counts h n` says that the histogram is the one for the counts `n`.  Nothing
is said here of where the chords are kept.
-/

namespace ZgChoir

/-- `1LL<<noteIdx`.  The language leaves shifts from 64 on open; the
processors take the count modulo 64, as `<<<` does. -/
def noteBit (noteIdx : ℕ) : UInt64 := 1 <<< UInt64.ofNat noteIdx

/-- Whether the note is in the chord. -/
def hasNote (chord : UInt64) (noteIdx : ℕ) : Bool :=
  chord &&& noteBit noteIdx != 0

section Bits

variable {a b : UInt64} {i j : ℕ}

theorem toNat_noteBit (hi : i < 64) : (noteBit i).toNat = 2 ^ i := by
  have hpow : 2 ^ i < 2 ^ 64 := Nat.pow_lt_pow_right (by omega) hi
  have hmod : i % 18446744073709551616 = i := Nat.mod_eq_of_lt (by omega)
  simp only [noteBit, UInt64.toNat_shiftLeft, UInt64.toNat_ofNat',
    UInt64.toNat_one, Nat.shiftLeft_eq, Nat.reducePow]
  rw [hmod, Nat.mod_eq_of_lt hi, one_mul]
  exact Nat.mod_eq_of_lt hpow

/-- The notes of a chord are its bits. -/
theorem hasNote_eq_testBit (hi : i < 64) :
    hasNote a i = a.toNat.testBit i := by
  have hand : (a &&& noteBit i).toNat = (a.toNat.testBit i).toNat * 2 ^ i := by
    rw [UInt64.toNat_and, toNat_noteBit hi, Nat.and_two_pow]
  have hzero : a &&& noteBit i = 0 ↔ a.toNat.testBit i = false := by
    rw [← UInt64.toNat_inj, hand]
    simp
  cases h : a.toNat.testBit i with
  | false => simp [hasNote, hzero.mpr h]
  | true =>
      have hne : a &&& noteBit i ≠ 0 := fun heq => by
        rw [hzero.mp heq] at h
        cases h
      simp [hasNote, hne]

/-- Two chords with the same notes are the same chord. -/
theorem chord_ext (h : ∀ i < 64, hasNote a i = hasNote b i) : a = b := by
  apply UInt64.toNat_inj.mp
  apply Nat.eq_of_testBit_eq
  intro i
  by_cases hi : i < 64
  · rw [← hasNote_eq_testBit hi, ← hasNote_eq_testBit hi, h i hi]
  · have hbig : 2 ^ 64 ≤ 2 ^ i := Nat.pow_le_pow_right (by omega) (by omega)
    rw [Nat.testBit_lt_two_pow (lt_of_lt_of_le a.toNat_lt hbig),
      Nat.testBit_lt_two_pow (lt_of_lt_of_le b.toNat_lt hbig)]

@[simp] theorem hasNote_zero : hasNote 0 i = false := by
  simp [hasNote]

theorem hasNote_or (hi : i < 64) :
    hasNote (a ||| b) i = (hasNote a i || hasNote b i) := by
  simp [hasNote_eq_testBit hi]

theorem hasNote_and (hi : i < 64) :
    hasNote (a &&& b) i = (hasNote a i && hasNote b i) := by
  simp [hasNote_eq_testBit hi]

theorem hasNote_complement (hi : i < 64) :
    hasNote (~~~ a) i = !hasNote a i := by
  rw [hasNote_eq_testBit hi, hasNote_eq_testBit hi, UInt64.toNat_not,
    show UInt64.size - 1 - a.toNat = 2 ^ 64 - (a.toNat + 1) by
      simp only [UInt64.size]; omega,
    Nat.testBit_two_pow_sub_succ a.toNat_lt]
  simp [hi]

theorem hasNote_noteBit (hi : i < 64) (hj : j < 64) :
    hasNote (noteBit j) i = decide (j = i) := by
  rw [hasNote_eq_testBit hi, toNat_noteBit hj, Nat.testBit_two_pow]

end Bits

/-- `_noteHistogram` and the chord that is kept beside it.  A note that is
not counted has no entry.  The counts are natural numbers: no table holds
2^32 chords. -/
structure NoteHistogram where
  counts : Finmap fun _ : Fin 64 => ℕ
  bitchord : UInt64
  deriving DecidableEq

namespace NoteHistogram

/-- The histogram of no chords. -/
def empty : NoteHistogram := ⟨∅, 0⟩

/-- The note `i` once more. -/
def addNote (h : NoteHistogram) (i : Fin 64) : NoteHistogram :=
  let v := (h.counts.lookup i).getD 0 + 1
  { counts := h.counts.insert i v
    bitchord := if v = 1 then h.bitchord ||| noteBit i else h.bitchord }

/-- The note `i` once less. -/
def removeNote (h : NoteHistogram) (i : Fin 64) : NoteHistogram :=
  match h.counts.lookup i with
  | none => h
  | some v =>
      if v - 1 = 0 then
        { counts := h.counts.erase i
          bitchord := h.bitchord &&& ~~~ noteBit i }
      else { h with counts := h.counts.insert i (v - 1) }

/-- One turn of the loop of `UpdateNoteHistogram`. -/
def updateNote (chordVal : UInt64) (isAdd : Bool) (h : NoteHistogram)
    (i : Fin 64) : NoteHistogram :=
  if hasNote chordVal i then
    if isAdd then h.addNote i else h.removeNote i
  else h

end NoteHistogram

open NoteHistogram in
/-- `UpdateNoteHistogram`. -/
def updateNoteHistogram (chordVal : UInt64) (isAdd : Bool)
    (h : NoteHistogram) : NoteHistogram :=
  (List.finRange 64).foldl (updateNote chordVal isAdd) h

namespace NoteHistogram

/-- The histogram for the counts `n`. -/
structure Counts (h : NoteHistogram) (n : Fin 64 → ℕ) : Prop where
  lookup : ∀ i, h.counts.lookup i = if n i = 0 then none else some (n i)
  bitchord : ∀ i : Fin 64, hasNote h.bitchord i = decide (n i ≠ 0)

variable {h h' : NoteHistogram} {n n' : Fin 64 → ℕ} {i j : Fin 64}
  {chord : UInt64}

theorem counts_empty : Counts empty fun _ => 0 :=
  ⟨fun i => by simp [empty], fun i => by simp [empty]⟩

/-- There is one histogram for the counts. -/
theorem Counts.unique (hn : Counts h n) (hn' : Counts h' n) : h = h' := by
  obtain ⟨counts, bitchord⟩ := h
  obtain ⟨counts', bitchord'⟩ := h'
  have hcounts : counts = counts' := by
    apply Finmap.ext_lookup
    intro i
    exact (hn.lookup i).trans (hn'.lookup i).symm
  have hbits : bitchord = bitchord' := by
    apply chord_ext
    intro i hi
    exact (hn.bitchord ⟨i, hi⟩).trans (hn'.bitchord ⟨i, hi⟩).symm
  rw [hcounts, hbits]

/-- How often the chord has the note: once or not at all. -/
def noteOf (chord : UInt64) (i : Fin 64) : ℕ :=
  if hasNote chord i then 1 else 0

@[simp] theorem noteOf_zero : noteOf 0 i = 0 := by
  simp [noteOf]

private theorem hasNote_add_bit (chord : UInt64) :
    hasNote (chord ||| noteBit i) j = (hasNote chord j || decide (i = j)) := by
  rw [hasNote_or j.isLt, hasNote_noteBit j.isLt i.isLt]
  simp [Fin.ext_iff]

private theorem hasNote_drop_bit (chord : UInt64) :
    hasNote (chord &&& ~~~ noteBit i) j =
      (hasNote chord j && !decide (i = j)) := by
  rw [hasNote_and j.isLt, hasNote_complement j.isLt,
    hasNote_noteBit j.isLt i.isLt]
  simp [Fin.ext_iff]

theorem Counts.addNote (hn : Counts h n) (i : Fin 64) :
    Counts (h.addNote i) (Function.update n i (n i + 1)) := by
  have hv : (h.counts.lookup i).getD 0 = n i := by
    rw [hn.lookup i]
    split <;> simp_all
  refine ⟨fun j => ?_, fun j => ?_⟩
  · by_cases hj : j = i
    · subst hj
      simp [NoteHistogram.addNote, hv]
    · simp [NoteHistogram.addNote, Finmap.lookup_insert_of_ne _ hj,
        Function.update_of_ne hj, hn.lookup j]
  · by_cases hj : j = i
    · subst hj
      by_cases hzero : n j = 0
      · simp [NoteHistogram.addNote, hv, hzero, hasNote_add_bit]
      · simp [NoteHistogram.addNote, hv, hzero, hn.bitchord j]
    · simp only [NoteHistogram.addNote, Function.update_of_ne hj,
        ← hn.bitchord j]
      split
      · simp [hasNote_add_bit, Ne.symm hj]
      · rfl

theorem Counts.removeNote (hn : Counts h n) (hpos : 0 < n i) :
    Counts (h.removeNote i) (Function.update n i (n i - 1)) := by
  have hv : h.counts.lookup i = some (n i) := by
    rw [hn.lookup i, if_neg (by omega)]
  by_cases hone : n i - 1 = 0
  · have hstep : h.removeNote i =
        { counts := h.counts.erase i
          bitchord := h.bitchord &&& ~~~ noteBit i } := by
      simp [NoteHistogram.removeNote, hv, hone]
    refine ⟨fun j => ?_, fun j => ?_⟩
    · by_cases hj : j = i
      · subst hj
        simp [hstep, hone]
      · simp [hstep, Finmap.lookup_erase_ne hj, Function.update_of_ne hj,
          hn.lookup j]
    · by_cases hj : j = i
      · subst hj
        simp [hstep, hone, hasNote_drop_bit]
      · simp [hstep, hasNote_drop_bit, Ne.symm hj, Function.update_of_ne hj,
          hn.bitchord j]
  · have hstep : h.removeNote i =
        { h with counts := h.counts.insert i (n i - 1) } := by
      simp [NoteHistogram.removeNote, hv, hone]
    refine ⟨fun j => ?_, fun j => ?_⟩
    · by_cases hj : j = i
      · subst hj
        simp [hstep, hone]
      · simp [hstep, Finmap.lookup_insert_of_ne _ hj,
          Function.update_of_ne hj, hn.lookup j]
    · by_cases hj : j = i
      · subst hj
        have hne : n j ≠ 0 := by omega
        simp [hstep, hone, hn.bitchord j, hne]
      · simp [hstep, Function.update_of_ne hj, hn.bitchord j]

/-! ### The loop over the notes -/

/-- The counts once the notes in `is` have been handled. -/
def countsAfter (n n' : Fin 64 → ℕ) (is : List (Fin 64)) (i : Fin 64) : ℕ :=
  if i ∈ is then n' i else n i

private theorem Counts.foldl_updateNote (chord : UInt64) (isAdd : Bool)
    (n n' : Fin 64 → ℕ)
    (hstep : ∀ {h : NoteHistogram} {m : Fin 64 → ℕ} (i : Fin 64),
      Counts h m → m i = n i →
      Counts (h.updateNote chord isAdd i) (Function.update m i (n' i)))
    {is : List (Fin 64)} (hnodup : is.Nodup) {m : Fin 64 → ℕ}
    (hm : ∀ i ∈ is, m i = n i) {h : NoteHistogram} (hn : Counts h m) :
    Counts (is.foldl (updateNote chord isAdd) h) (countsAfter m n' is) := by
  induction is generalizing h m with
  | nil =>
      have heq : countsAfter m n' [] = m := by
        funext i
        simp [countsAfter]
      rw [heq]
      exact hn
  | cons i is ih =>
      obtain ⟨hout, hrest⟩ := List.nodup_cons.mp hnodup
      have hhead := hstep i hn (hm i List.mem_cons_self)
      have htail : ∀ j ∈ is, Function.update m i (n' i) j = n j := by
        intro j hj
        have hne : j ≠ i := fun heq => hout (heq ▸ hj)
        rw [Function.update_of_ne hne]
        exact hm j (List.mem_cons_of_mem _ hj)
      have heq : countsAfter (Function.update m i (n' i)) n' is =
          countsAfter m n' (i :: is) := by
        funext j
        by_cases hj : j = i
        · subst hj
          simp [countsAfter, hout]
        · simp [countsAfter, hj]
      rw [List.foldl_cons, ← heq]
      exact ih hrest htail hhead

private theorem countsAfter_finRange :
    countsAfter n n' (List.finRange 64) = n' := by
  funext i
  simp [countsAfter]

/-- A chord that comes adds its notes to the counts. -/
theorem Counts.add (hn : Counts h n)
    (hchord : ∀ i, n' i = n i + noteOf chord i) :
    Counts (updateNoteHistogram chord true h) n' := by
  have hfold := Counts.foldl_updateNote chord true n n' ?_
    (List.nodup_finRange 64) (fun _ _ => rfl) hn
  · rw [countsAfter_finRange] at hfold
    exact hfold
  · intro h m i hm hi
    rw [hchord i]
    cases hnote : hasNote chord i with
    | false => simpa [updateNote, hnote, noteOf, ← hi] using hm
    | true => simpa [updateNote, hnote, noteOf, ← hi] using hm.addNote i

/-- A chord that goes takes its notes away. -/
theorem Counts.remove (hn : Counts h n)
    (hchord : ∀ i, n i = n' i + noteOf chord i) :
    Counts (updateNoteHistogram chord false h) n' := by
  have hfold := Counts.foldl_updateNote chord false n n' ?_
    (List.nodup_finRange 64) (fun _ _ => rfl) hn
  · rw [countsAfter_finRange] at hfold
    exact hfold
  · intro h m i hm hi
    have hbefore := hchord i
    cases hnote : hasNote chord i with
    | false =>
        have hsame : n' i = m i := by simp_all [noteOf]
        simpa [updateNote, hnote, hsame] using hm
    | true =>
        have hless : n' i = m i - 1 ∧ 0 < m i := by
          simp only [noteOf, hnote, if_true] at hbefore
          omega
        simpa [updateNote, hnote, hless.1] using hm.removeNote hless.2

end NoteHistogram

end ZgChoir
