import ZgChoir.Balancing
import ZgChoir.NoteAssignmentsLaws

/-!
# What a review of the note assignments settles

`Reviewed` says what the automatic strategy is for: every note of the song
is played by one peer, all who play are online, and no peer has two notes
more than another.  Each of the four loops of a review brings about its part
of it and leaves alone what the earlier ones have done.

The last loop has no counter.  It ends because the sum of the squares of the
loads goes down.
-/

namespace ZgChoir

/-! ### Counting the notes of a chord -/

section Bits

variable {a : UInt64} {n i j : ℕ}

private theorem countP_flip (xs : List ℕ) (P Q : ℕ → Bool) {x : ℕ}
    (hnodup : xs.Nodup) (hx : x ∈ xs) (hP : P x = false) (hQ : Q x = true)
    (hsame : ∀ y ∈ xs, y ≠ x → Q y = P y) :
    xs.countP Q = xs.countP P + 1 := by
  induction xs with
  | nil => cases hx
  | cons y ys ih =>
      obtain ⟨hout, hrest⟩ := List.nodup_cons.mp hnodup
      by_cases hy : y = x
      · subst hy
        have heq : ys.countP Q = ys.countP P := by
          apply List.countP_congr
          intro z hz
          have hne : z ≠ y := fun heq => hout (heq ▸ hz)
          rw [hsame z (List.mem_cons_of_mem _ hz) hne]
        simp [hP, hQ, heq]
      · have hmem : x ∈ ys := (List.mem_cons.mp hx).resolve_left (Ne.symm hy)
        have htail := ih hrest hmem fun z hz => hsame z
          (List.mem_cons_of_mem _ hz)
        rw [List.countP_cons, List.countP_cons, htail,
          hsame y List.mem_cons_self hy]
        omega

private theorem lt_sixtyFour (hn : n < numChoirNotes) : n < 64 := by
  unfold numChoirNotes at hn
  omega

theorem hasNote_with (hn : n < 64) (hi : i < 64) :
    hasNote (a ||| noteBit n) i = (hasNote a i || decide (n = i)) := by
  rw [hasNote_or hi, hasNote_noteBit hi hn]

theorem hasNote_without (hn : n < 64) (hi : i < 64) :
    hasNote (a &&& ~~~ noteBit n) i = (hasNote a i && !decide (n = i)) := by
  rw [hasNote_and hi, hasNote_complement hi, hasNote_noteBit hi hn]

/-- A chord without one of its notes has one note less. -/
theorem countBits_without (hn : n < numChoirNotes) (h : hasNote a n = true) :
    countBits (a &&& ~~~ noteBit n) = countBits a - 1 := by
  have h64 := lt_sixtyFour hn
  have hone := countP_flip (List.range numChoirNotes)
    (fun i => hasNote (a &&& ~~~ noteBit n) i)
    (fun i => hasNote a i) List.nodup_range
    (List.mem_range.mpr hn) (by simp [hasNote_without h64 h64]) h
    fun i hi hne => by
      have hi64 := lt_sixtyFour (List.mem_range.mp hi)
      simp [hasNote_without h64 hi64, Ne.symm hne]
  unfold countBits
  omega

/-- A chord with a note that it did not have has one note more. -/
theorem countBits_with (hn : n < numChoirNotes) (h : hasNote a n = false) :
    countBits (a ||| noteBit n) = countBits a + 1 := by
  have h64 := lt_sixtyFour hn
  exact countP_flip (List.range numChoirNotes)
    (fun i => hasNote a i)
    (fun i => hasNote (a ||| noteBit n) i) List.nodup_range
    (List.mem_range.mpr hn) h (by simp [hasNote_with h64 h64])
    fun i hi hne => by
      have hi64 := lt_sixtyFour (List.mem_range.mp hi)
      simp [hasNote_with h64 hi64, Ne.symm hne]

theorem countBits_le : countBits a ≤ numChoirNotes := by
  have hle := List.countP_le_length (l := List.range numChoirNotes)
    (p := fun i => hasNote a i)
  rwa [List.length_range] at hle

/-- The last note of a chord that has notes is one of them. -/
theorem getLastNoteInChord_spec (h : 0 < countBits a) :
    getLastNoteInChord a < numChoirNotes ∧
      hasNote a (getLastNoteInChord a) = true := by
  obtain ⟨i, hi, hnote⟩ := List.countP_pos_iff.mp h
  cases hfind : (List.range numChoirNotes).reverse.find? fun i =>
      hasNote a i with
  | none =>
      have := List.find?_eq_none.mp hfind i (List.mem_reverse.mpr hi)
      exact absurd hnote this
  | some n =>
      have hmem := List.mem_reverse.mp (List.mem_of_find?_eq_some hfind)
      rw [getLastNoteInChord, hfind, Option.getD_some]
      exact ⟨List.mem_range.mp hmem,
        List.find?_some (p := fun i => hasNote a i) hfind⟩

end Bits

namespace NoteAssignmentsMap

variable {c : Checksums} {it : RosterIterators} {m m' : NoteAssignmentsMap}
  {r : NoteAssignmentsMap × Bool} {p q : ZGPeerID} {i j : ℕ}
  {onlinePeers : List ZGPeerID} {allNotesChord : UInt64}

/-- The peer plays the note. -/
def Plays (m : NoteAssignmentsMap) (p : ZGPeerID) (i : ℕ) : Prop :=
  hasNote (m.getNoteAssignmentsForPeerID p) i = true

/-- The number of notes of a peer that are counted. -/
def load (m : NoteAssignmentsMap) (p : ZGPeerID) : ℕ :=
  countBits (m.getNoteAssignmentsForPeerID p)

/-- Only peers that are online have notes. -/
def OnlineOnly (m : NoteAssignmentsMap) (onlinePeers : List ZGPeerID) :
    Prop :=
  ∀ p, m.getNoteAssignmentsForPeerID p ≠ 0 → p ∈ onlinePeers

/-- No two peers play one note. -/
def Sole (m : NoteAssignmentsMap) : Prop :=
  ∀ i < 64, ∀ p q, m.Plays p i → m.Plays q i → p = q

/-! ### The histogram and the peers -/

theorem Plays.mem_keys (h : m.Kept c) (hp : m.Plays p i) :
    p ∈ m.noteAssignments.keys := by
  rw [mem_keys_iff h]
  intro hzero
  rw [Plays, hzero, hasNote_zero] at hp
  cases hp

/-- The peers that play the note, in their order. -/
def players (m : NoteAssignmentsMap) (i : ℕ) : List ZGPeerID :=
  m.noteAssignments.keys.filter fun p =>
    hasNote (m.getNoteAssignmentsForPeerID p) i

theorem mem_players (h : m.Kept c) : p ∈ m.players i ↔ m.Plays p i := by
  rw [players, List.mem_filter]
  exact ⟨fun hp => hp.2, fun hp => ⟨hp.mem_keys h, hp⟩⟩

theorem nodup_players (m : NoteAssignmentsMap) (i : ℕ) :
    (m.players i).Nodup :=
  m.noteAssignments.nodup_keys.filter _

/-- A note is counted once for each of its players. -/
theorem noteCount_eq_length (m : NoteAssignmentsMap) (i : Fin 64) :
    noteCount m.noteAssignments i = (m.players i).length := by
  have hsame : ∀ e ∈ m.noteAssignments.entries,
      m.getNoteAssignmentsForPeerID e.1 = e.2 := fun e he => by
    rw [getNoteAssignmentsForPeerID, Hashtable.get?_eq_some_iff.mpr he,
      Option.getD_some]
  have hlist : ∀ es : List (ZGPeerID × UInt64),
      (∀ e ∈ es, m.getNoteAssignmentsForPeerID e.1 = e.2) →
      (es.map fun e => NoteHistogram.noteOf e.2 i).sum =
        ((es.map Prod.fst).filter fun p =>
          hasNote (m.getNoteAssignmentsForPeerID p) i).length := by
    intro es hes
    induction es with
    | nil => rfl
    | cons e es ih =>
        have hhead := hes e List.mem_cons_self
        have htail := ih fun x hx => hes x (List.mem_cons_of_mem _ hx)
        cases hnote : hasNote e.2 i with
        | false => simp [NoteHistogram.noteOf, hhead, hnote, ← htail]
        | true =>
            simp [NoteHistogram.noteOf, hhead, hnote, ← htail, Nat.add_comm]
  exact hlist _ hsame

/-- A note is counted when a peer plays it. -/
theorem noteCount_ne_zero_iff (h : m.Kept c) (i : Fin 64) :
    noteCount m.noteAssignments i ≠ 0 ↔ ∃ p, m.Plays p i := by
  rw [noteCount_eq_length m i]
  constructor
  · intro hne
    obtain ⟨p, hp⟩ := List.exists_mem_of_length_pos (Nat.pos_of_ne_zero hne)
    exact ⟨p, (mem_players h).mp hp⟩
  · rintro ⟨p, hp⟩
    exact (List.length_pos_of_mem ((mem_players h).mpr hp)).ne'

/-- Two peers play a note that is counted twice. -/
theorem noteCount_le_one_iff (h : m.Kept c) (i : Fin 64) :
    noteCount m.noteAssignments i ≤ 1 ↔
      ∀ p q, m.Plays p i → m.Plays q i → p = q := by
  rw [noteCount_eq_length m i,
    ← List.toFinset_card_of_nodup (nodup_players m i), Finset.card_le_one]
  simp only [List.mem_toFinset, mem_players h]
  grind

/-- The chord of all assigned notes is what the peers play. -/
theorem hasNote_assigned_iff (h : m.Kept c) (hi : i < 64) :
    hasNote m.getAllAssignedNotesChord i = true ↔ ∃ p, m.Plays p i := by
  have hbit := h.notes.bitchord ⟨i, hi⟩
  have hcount := noteCount_ne_zero_iff h ⟨i, hi⟩
  rw [getAllAssignedNotesChord, hbit, decide_eq_true_eq]
  exact hcount

/-- What the loops leave alone of an assignment. -/
theorem plays_set {notes : UInt64} :
    (m.setNoteAssignmentsForPeerID c p notes).Plays q j ↔
      if q = p then hasNote notes j = true else m.Plays q j := by
  unfold Plays
  rw [getNoteAssignments_set]
  split <;> rfl

theorem OnlineOnly.set (h : m.OnlineOnly onlinePeers) {notes : UInt64}
    (hp : notes ≠ 0 → p ∈ onlinePeers) :
    (m.setNoteAssignmentsForPeerID c p notes).OnlineOnly onlinePeers := by
  intro q hq
  rw [getNoteAssignments_set] at hq
  by_cases hqp : q = p
  · rw [if_pos hqp] at hq
    rw [hqp]
    exact hp hq
  · rw [if_neg hqp] at hq
    exact h q hq

end NoteAssignmentsMap

end ZgChoir
