import ZgChoir.NoteBalancing

/-!
# The loops of a review

What each of the four loops of `SeniorAutoUpdateAssignments` does to the
peers that play a note, and with that what a whole review settles.
-/

namespace ZgChoir

namespace NoteAssignmentsMap

variable {c : Checksums} {it : RosterIterators} {m : NoteAssignmentsMap}
  {r : NoteAssignmentsMap × Bool} {p q : ZGPeerID} {i j : ℕ}
  {onlinePeers : List ZGPeerID} {allNotesChord : UInt64} {strategy : UInt32}

/-- What holds between the loops: the totals are right, the strategy is what
it was, and only peers that are online have notes. -/
structure Underway (c : Checksums) (onlinePeers : List ZGPeerID)
    (strategy : UInt32) (m : NoteAssignmentsMap) : Prop where
  kept : m.Kept c
  strategy : m.assignmentStrategy = strategy
  onlineOnly : m.OnlineOnly onlinePeers

/-- Some peer plays the note. -/
def Assigned (m : NoteAssignmentsMap) (i : ℕ) : Prop := ∃ p, m.Plays p i

theorem Underway.set (h : Underway c onlinePeers strategy m)
    {notes : UInt64} (hp : notes ≠ 0 → p ∈ onlinePeers) :
    Underway c onlinePeers strategy
      (m.setNoteAssignmentsForPeerID c p notes) :=
  ⟨h.kept.set p notes, assignmentStrategy_set.trans h.strategy,
    h.onlineOnly.set hp⟩

/-- A peer that gives up a note was online before. -/
theorem Underway.without (h : Underway c onlinePeers strategy m)
    {noteBits : UInt64} :
    Underway c onlinePeers strategy (m.setNoteAssignmentsForPeerID c p
      (m.getNoteAssignmentsForPeerID p &&& noteBits)) := by
  apply h.set
  intro hne
  apply h.onlineOnly p
  intro hzero
  rw [hzero, UInt64.zero_and] at hne
  exact hne rfl

/-! ### The first loop -/

private theorem set_of_silent (h : m.Kept c)
    (hp : m.getNoteAssignmentsForPeerID p = 0) :
    m.setNoteAssignmentsForPeerID c p 0 = m := by
  have hnone : m.noteAssignments.get? p = none := by
    apply Hashtable.get?_eq_none_iff.mpr
    rw [mem_keys_iff h]
    exact fun hne => hne hp
  simp [setNoteAssignmentsForPeerID, hnone]

/-- When only peers that are online have notes there is nothing to unassign,
whatever the loop comes to. -/
theorem unassignOffline_eq (h : m.Kept c) (honline : m.OnlineOnly onlinePeers)
    (visits : List ZGPeerID) :
    (unassignOffline c onlinePeers visits m).1 = m := by
  refine List.foldlRecOn (motive := fun r : NoteAssignmentsMap × Bool =>
    r.1 = m) visits _ rfl fun r hr p _ => ?_
  split
  · exact hr
  · rename_i hoff
    rw [hr]
    apply set_of_silent h
    by_contra hne
    exact hoff (by simpa using honline p hne)

/-- A loop over peers of the table says so. -/
theorem unassignOffline_unchanged (h : m.Kept c)
    (honline : m.OnlineOnly onlinePeers) {visits : List ZGPeerID}
    (hvisits : ∀ p ∈ visits, p ∈ m.noteAssignments.keys) :
    (unassignOffline c onlinePeers visits m).2 = false := by
  refine List.foldlRecOn (motive := fun r : NoteAssignmentsMap × Bool =>
    r.2 = false) visits _ rfl fun r hr p hp => ?_
  have hin := honline p ((mem_keys_iff h).mp (hvisits p hp))
  rw [if_pos (by simpa using hin)]
  exact hr

/-! ### The lightest and the heaviest peer -/

private theorem lightest_fold {f : ZGPeerID → ℕ} (ps : List ZGPeerID)
    (ret : ZGPeerID × ℕ) :
    let found := ps.foldl (fun ret pid =>
      if f pid < ret.2 then (pid, f pid) else ret) ret
    (found = ret ∨ found.1 ∈ ps ∧ found.2 = f found.1) ∧
      found.2 ≤ ret.2 ∧ ∀ q ∈ ps, found.2 ≤ f q := by
  induction ps generalizing ret with
  | nil => simp
  | cons p ps ih =>
      obtain ⟨hfound, hle, hleast⟩ :=
        ih (if f p < ret.2 then (p, f p) else ret)
      rw [List.foldl_cons]
      refine ⟨?_, ?_, fun q hq => ?_⟩
      · rcases hfound with heq | ⟨hmem, hcount⟩
        · rw [heq]
          split
          · exact .inr ⟨by simp, rfl⟩
          · exact .inl rfl
        · exact .inr ⟨List.mem_cons_of_mem _ hmem, hcount⟩
      · refine hle.trans ?_
        split
        · omega
        · exact le_rfl
      · rcases List.mem_cons.mp hq with rfl | hq
        · refine hle.trans ?_
          split
          · exact le_rfl
          · omega
        · exact hleast q hq

private theorem heaviest_fold {f : ZGPeerID → ℕ} (ps : List ZGPeerID)
    (ret : ZGPeerID × ℕ) :
    let found := ps.foldl (fun ret pid =>
      if ret.2 < f pid then (pid, f pid) else ret) ret
    (found = ret ∨ found.1 ∈ ps ∧ found.2 = f found.1) ∧
      ret.2 ≤ found.2 ∧ ∀ q ∈ ps, f q ≤ found.2 := by
  induction ps generalizing ret with
  | nil => simp
  | cons p ps ih =>
      obtain ⟨hfound, hle, hmost⟩ :=
        ih (if ret.2 < f p then (p, f p) else ret)
      rw [List.foldl_cons]
      refine ⟨?_, ?_, fun q hq => ?_⟩
      · rcases hfound with heq | ⟨hmem, hcount⟩
        · rw [heq]
          split
          · exact .inr ⟨by simp, rfl⟩
          · exact .inl rfl
        · exact .inr ⟨List.mem_cons_of_mem _ hmem, hcount⟩
      · refine le_trans ?_ hle
        split
        · omega
        · exact le_rfl
      · rcases List.mem_cons.mp hq with rfl | hq
        · refine le_trans ?_ hle
          split
          · exact le_rfl
          · omega
        · exact hmost q hq

theorem load_le (m : NoteAssignmentsMap) (p : ZGPeerID) :
    m.load p ≤ numChoirNotes :=
  countBits_le

/-- `GetLightestPeer` finds a peer with the least notes. -/
theorem getLightestPeer_spec (hne : onlinePeers ≠ [])
    (m : NoteAssignmentsMap) :
    (m.getLightestPeer onlinePeers).1 ∈ onlinePeers ∧
      (m.getLightestPeer onlinePeers).2 =
        m.load (m.getLightestPeer onlinePeers).1 ∧
      ∀ q ∈ onlinePeers, (m.getLightestPeer onlinePeers).2 ≤ m.load q := by
  obtain ⟨hfound, -, hleast⟩ := lightest_fold (f := m.load) onlinePeers
    (onlinePeers.headD ZGPeerID.invalid, 4294967295)
  obtain ⟨first, hfirst⟩ := List.exists_mem_of_ne_nil onlinePeers hne
  have hsmall := (hleast first hfirst).trans (m.load_le first)
  rcases hfound with heq | ⟨hmem, hcount⟩
  · rw [heq] at hsmall
    simp [numChoirNotes] at hsmall
  · exact ⟨hmem, hcount, hleast⟩

/-- `GetHeaviestPeer` finds a peer with the most notes. -/
theorem getHeaviestPeer_spec (hne : onlinePeers ≠ [])
    (m : NoteAssignmentsMap) :
    (m.getHeaviestPeer onlinePeers).1 ∈ onlinePeers ∧
      (m.getHeaviestPeer onlinePeers).2 =
        m.load (m.getHeaviestPeer onlinePeers).1 ∧
      ∀ q ∈ onlinePeers, m.load q ≤ (m.getHeaviestPeer onlinePeers).2 := by
  obtain ⟨hfound, -, hmost⟩ := heaviest_fold (f := m.load) onlinePeers
    (onlinePeers.headD ZGPeerID.invalid, 0)
  rcases hfound with heq | ⟨hmem, hcount⟩
  · have hhead : onlinePeers.headD ZGPeerID.invalid ∈ onlinePeers := by
      cases onlinePeers with
      | nil => exact absurd rfl hne
      | cons p ps => exact List.mem_cons_self
    have hresult : m.getHeaviestPeer onlinePeers =
        (onlinePeers.headD ZGPeerID.invalid, 0) := heq
    rw [heq] at hmost
    rw [hresult]
    exact ⟨hhead, (Nat.le_zero.mp (hmost _ hhead)).symm, hmost⟩
  · exact ⟨hmem, hcount, hmost⟩

/-! ### The second loop -/

private theorem assigned_with (m : NoteAssignmentsMap) (p : ZGPeerID)
    (hi : i < 64) (hj : j < 64) :
    (m.setNoteAssignmentsForPeerID c p
        (m.getNoteAssignmentsForPeerID p ||| noteBit i)).Assigned j ↔
      m.Assigned j ∨ j = i := by
  have hplays : ∀ q, (m.setNoteAssignmentsForPeerID c p
      (m.getNoteAssignmentsForPeerID p ||| noteBit i)).Plays q j ↔
      m.Plays q j ∨ (q = p ∧ j = i) := by
    intro q
    rw [plays_set, hasNote_with hi hj]
    unfold Plays
    grind
  unfold Assigned
  simp only [hplays]
  grind

private theorem assignOrphan_spec (allNotesChord : UInt64)
    (hne : onlinePeers ≠ []) (h : Underway c onlinePeers strategy r.1)
    (hi : i < 64) :
    Underway c onlinePeers strategy
        (assignOrphan c onlinePeers allNotesChord r i).1 ∧
      ∀ j < 64,
        (assignOrphan c onlinePeers allNotesChord r i).1.Assigned j ↔
          r.1.Assigned j ∨ (j = i ∧ hasNote allNotesChord j = true) := by
  have hassigned : hasNote r.1.getAllAssignedNotesChord i = true ↔
      r.1.Assigned i := hasNote_assigned_iff h.kept hi
  unfold assignOrphan
  by_cases horphan : hasNote allNotesChord i = true ∧ ¬ r.1.Assigned i
  · rw [if_pos (by
      rw [← hassigned] at horphan
      simpa using horphan)]
    have hlight := (getLightestPeer_spec hne r.1).1
    refine ⟨h.set fun _ => hlight, fun j hj => ?_⟩
    rw [assigned_with r.1 _ hi hj]
    grind
  · rw [if_neg (by
      rw [← hassigned] at horphan
      simpa using horphan)]
    exact ⟨h, fun j hj => by grind⟩

/-- After the second loop every note of the song is assigned. -/
theorem assignOrphans_spec (allNotesChord : UInt64)
    (hne : onlinePeers ≠ []) (h : Underway c onlinePeers strategy r.1) :
    Underway c onlinePeers strategy
        (assignOrphans c onlinePeers allNotesChord r).1 ∧
      ∀ j < 64, (assignOrphans c onlinePeers allNotesChord r).1.Assigned j ↔
        r.1.Assigned j ∨
          (j < numChoirNotes ∧ hasNote allNotesChord j = true) := by
  have hloop : ∀ is : List ℕ, (∀ i ∈ is, i < 64) →
      ∀ r : NoteAssignmentsMap × Bool, Underway c onlinePeers strategy r.1 →
      Underway c onlinePeers strategy
          (is.foldl (assignOrphan c onlinePeers allNotesChord) r).1 ∧
        ∀ j < 64, (is.foldl (assignOrphan c onlinePeers allNotesChord)
            r).1.Assigned j ↔
          r.1.Assigned j ∨ (j ∈ is ∧ hasNote allNotesChord j = true) := by
    intro is his
    induction is with
    | nil => simp
    | cons i is ih =>
        intro r h
        obtain ⟨hstep, hone⟩ := assignOrphan_spec allNotesChord hne h
          (his i List.mem_cons_self)
        obtain ⟨hunder, hall⟩ :=
          ih (fun i hi => his i (List.mem_cons_of_mem _ hi)) _ hstep
        refine ⟨hunder, fun j hj => (hall j hj).trans ?_⟩
        rw [hone j hj, List.mem_cons]
        grind
  obtain ⟨hunder, hall⟩ := hloop (List.range numChoirNotes)
    (fun i hi => (List.mem_range.mp hi).trans (by decide)) r h
  refine ⟨hunder, fun j hj => (hall j hj).trans ?_⟩
  rw [List.mem_range]

/-! ### The third loop -/

/-- What giving up the note `i` leaves of the assignments. -/
structure GivesUp (i : Fin 64) (m m' : NoteAssignmentsMap) : Prop where
  fewer : ∀ p, m'.Plays p i → m.Plays p i
  others : ∀ p, ∀ j < 64, j ≠ i.val → (m'.Plays p j ↔ m.Plays p j)

theorem GivesUp.refl (i : Fin 64) (m : NoteAssignmentsMap) : GivesUp i m m :=
  ⟨fun _ hp => hp, fun _ _ _ _ => Iff.rfl⟩

theorem GivesUp.trans {i : Fin 64} {m m' m'' : NoteAssignmentsMap}
    (h : GivesUp i m m') (h' : GivesUp i m' m'') : GivesUp i m m'' :=
  ⟨fun p hp => h.fewer p (h'.fewer p hp),
    fun p j hj hne => (h'.others p j hj hne).trans (h.others p j hj hne)⟩

private theorem plays_without (m : NoteAssignmentsMap) (p : ZGPeerID)
    (i : Fin 64) (hj : j < 64) :
    (m.setNoteAssignmentsForPeerID c p
        (m.getNoteAssignmentsForPeerID p &&& ~~~ noteBit i)).Plays q j ↔
      m.Plays q j ∧ ¬ (q = p ∧ j = i) := by
  rw [plays_set, hasNote_without i.isLt hj]
  unfold Plays
  grind

/-- What the loop over the peers has done to the note `i`, by the peers it
has come to and by whether it had found a player before. -/
structure Thinned (i : Fin 64) (found : Bool) (ps : List ZGPeerID)
    (m m' : NoteAssignmentsMap) : Prop where
  givesUp : GivesUp i m m'
  outside : ∀ p, p ∉ ps → (m'.Plays p i ↔ m.Plays p i)
  noMore : found = true → ∀ p ∈ ps, ¬ m'.Plays p i
  sole : ∀ p ∈ ps, ∀ q ∈ ps, m'.Plays p i → m'.Plays q i → p = q
  first : found = false → ∀ p ∈ ps, m.Plays p i → ∃ q ∈ ps, m'.Plays q i

namespace Thinned

variable {i : Fin 64} {found : Bool} {ps : List ZGPeerID}
  {m m₁ m' : NoteAssignmentsMap}

/-- One before `p` plays the note already, and `p` gives it up. -/
private theorem redundant (hout : p ∉ ps)
    (hwithout : ∀ q, ∀ j < 64,
      m₁.Plays q j ↔ m.Plays q j ∧ ¬ (q = p ∧ j = i.val))
    (h : Thinned i true ps m₁ m') : Thinned i true (p :: ps) m m' := by
  have hself : ¬ m'.Plays p i := by
    rw [h.outside p hout, hwithout p i i.isLt]
    grind
  have hfew : GivesUp i m m₁ :=
    ⟨fun q hq => ((hwithout q i i.isLt).mp hq).1, fun q j hj hne => by
      rw [hwithout q j hj]
      grind⟩
  have hnone : ∀ q ∈ p :: ps, ¬ m'.Plays q i := by
    intro q hq
    rcases List.mem_cons.mp hq with rfl | hq
    · exact hself
    · exact h.noMore rfl q hq
  refine ⟨hfew.trans h.givesUp, fun q hq => ?_, fun _ => hnone,
    fun q hq _ _ hqp => absurd hqp (hnone q hq), ?_⟩
  · rw [List.mem_cons, not_or] at hq
    rw [h.outside q hq.2, hwithout q i i.isLt]
    grind
  · intro heq
    cases heq

/-- `p` is the first that plays the note. -/
private theorem firstPlayer (hout : p ∉ ps) (hp : m.Plays p i)
    (h : Thinned i true ps m m') : Thinned i false (p :: ps) m m' := by
  have hself := (h.outside p hout).mpr hp
  have hnone := h.noMore rfl
  refine ⟨h.givesUp, fun q hq => ?_, ?_, fun q hq q' hq' hqp hqp' => ?_,
    fun _ _ _ _ => ⟨p, List.mem_cons_self, hself⟩⟩
  · rw [List.mem_cons, not_or] at hq
    exact h.outside q hq.2
  · intro heq
    cases heq
  · rcases List.mem_cons.mp hq with rfl | hq
    · rcases List.mem_cons.mp hq' with rfl | hq'
      · rfl
      · exact absurd hqp' (hnone q' hq')
    · exact absurd hqp (hnone q hq)

/-- `p` does not play the note. -/
private theorem silent (hout : p ∉ ps) (hp : ¬ m.Plays p i)
    (h : Thinned i found ps m m') : Thinned i found (p :: ps) m m' := by
  have hself : ¬ m'.Plays p i := fun hq => hp ((h.outside p hout).mp hq)
  refine ⟨h.givesUp, fun q hq => ?_, fun hfound q hq => ?_,
    fun q hq q' hq' hqp hqp' => ?_, fun hfound q hq hqp => ?_⟩
  · rw [List.mem_cons, not_or] at hq
    exact h.outside q hq.2
  · rcases List.mem_cons.mp hq with rfl | hq
    · exact hself
    · exact h.noMore hfound q hq
  · rcases List.mem_cons.mp hq with rfl | hq
    · exact absurd hqp hself
    · rcases List.mem_cons.mp hq' with rfl | hq'
      · exact absurd hqp' hself
      · exact h.sole q hq q' hq' hqp hqp'
  · rcases List.mem_cons.mp hq with rfl | hq
    · exact absurd hqp hp
    · obtain ⟨x, hx, hxp⟩ := h.first hfound q hq hqp
      exact ⟨x, List.mem_cons_of_mem _ hx, hxp⟩

end Thinned

private theorem removeRedundantFrom_redundant {i : Fin 64}
    (h : Underway c onlinePeers strategy r.1) (hp : r.1.Plays p i) :
    ∃ m₁, removeRedundantFrom c i (r, true) p = ((m₁, true), true) ∧
      Underway c onlinePeers strategy m₁ ∧ ∀ q, ∀ j < 64,
        m₁.Plays q j ↔ r.1.Plays q j ∧ ¬ (q = p ∧ j = i.val) := by
  refine ⟨r.1.setNoteAssignmentsForPeerID c p
    (r.1.getNoteAssignmentsForPeerID p &&& ~~~ noteBit i), ?_, h.without,
    fun q j hj => plays_without r.1 p i hj⟩
  simp only [removeRedundantFrom, if_true]
  exact if_pos hp

private theorem thinned_fold {i : Fin 64} {ps : List ZGPeerID}
    (hnodup : ps.Nodup) {found : Bool}
    (h : Underway c onlinePeers strategy r.1) :
    Underway c onlinePeers strategy
        (ps.foldl (removeRedundantFrom c i) (r, found)).1.1 ∧
      Thinned i found ps r.1
        (ps.foldl (removeRedundantFrom c i) (r, found)).1.1 := by
  induction ps generalizing r found with
  | nil =>
      refine ⟨h, .refl i _, fun _ _ => Iff.rfl, fun _ _ hp => ?_,
        fun _ hp => ?_, fun _ _ hp => ?_⟩
      · cases hp
      · cases hp
      · cases hp
  | cons p ps ih =>
      obtain ⟨hout, hrest⟩ := List.nodup_cons.mp hnodup
      rw [List.foldl_cons]
      by_cases hp : r.1.Plays p i
      · cases found with
        | true =>
            obtain ⟨m₁, hstep, hunder, hwithout⟩ :=
              removeRedundantFrom_redundant h hp
            rw [hstep]
            obtain ⟨hend, hthin⟩ := ih (r := (m₁, true)) hrest hunder
            exact ⟨hend, hthin.redundant hout hwithout⟩
        | false =>
            have hstep : removeRedundantFrom c i (r, false) p = (r, true) := by
              simp only [removeRedundantFrom, Bool.false_eq_true, if_false]
              exact if_pos hp
            rw [hstep]
            obtain ⟨hend, hthin⟩ := ih hrest h
            exact ⟨hend, hthin.firstPlayer hout hp⟩
      · have hstep : removeRedundantFrom c i (r, found) p = (r, found) := by
          simp only [removeRedundantFrom]
          exact if_neg hp
        rw [hstep]
        obtain ⟨hend, hthin⟩ := ih hrest h
        exact ⟨hend, hthin.silent hout hp⟩

/-- What the third loop does to one note. -/
private theorem removeRedundantNote_spec (i : Fin 64)
    (h : Underway c onlinePeers strategy r.1) :
    Underway c onlinePeers strategy (removeRedundantNote c i r).1 ∧
      GivesUp i r.1 (removeRedundantNote c i r).1 ∧
      (∀ p q, (removeRedundantNote c i r).1.Plays p i →
        (removeRedundantNote c i r).1.Plays q i → p = q) ∧
      (r.1.Assigned i → (removeRedundantNote c i r).1.Assigned i) := by
  obtain ⟨hunder, hthin⟩ := thinned_fold (i := i)
    r.1.noteAssignments.nodup_keys h
  have hmem : ∀ p, (removeRedundantNote c i r).1.Plays p i →
      p ∈ r.1.noteAssignments.keys := fun p hp =>
    (hthin.givesUp.fewer p hp).mem_keys h.kept
  refine ⟨hunder, hthin.givesUp, fun p q hp hq =>
    hthin.sole p (hmem p hp) q (hmem q hq) hp hq, fun hassigned => ?_⟩
  obtain ⟨p, hp⟩ := hassigned
  obtain ⟨q, -, hq⟩ := hthin.first rfl p (hp.mem_keys h.kept) hp
  exact ⟨q, hq⟩

/-- After the third loop no two peers play one note. -/
theorem removeRedundantNotes_spec {visits : List (Fin 64)}
    (h : Underway c onlinePeers strategy r.1)
    (hvisits : ∀ i, 1 < noteCount r.1.noteAssignments i → i ∈ visits) :
    Underway c onlinePeers strategy (removeRedundantNotes c visits r).1 ∧
      (removeRedundantNotes c visits r).1.Sole ∧
      ∀ j < 64, (removeRedundantNotes c visits r).1.Assigned j ↔
        r.1.Assigned j := by
  induction visits generalizing r with
  | nil =>
      refine ⟨h, fun i hi => ?_, fun _ _ => Iff.rfl⟩
      apply (noteCount_le_one_iff h.kept ⟨i, hi⟩).mp
      by_contra hmany
      cases hvisits ⟨i, hi⟩ (by omega)
  | cons i visits ih =>
      have hlookup : (r.1.notes.counts.lookup i).getD 0 =
          noteCount r.1.noteAssignments i := by
        rw [h.kept.notes.lookup i]
        split
        · rename_i hzero
          exact hzero.symm
        · rfl
      rw [removeRedundantNotes, List.foldl_cons, hlookup]
      by_cases hmany : 1 < noteCount r.1.noteAssignments i
      · rw [if_pos hmany]
        obtain ⟨hunder, hfew, hsole, hassigned⟩ :=
          removeRedundantNote_spec i h
        have hone := (noteCount_le_one_iff hunder.kept i).mpr hsole
        have hstill : ∀ j < 64, (removeRedundantNote c i r).1.Assigned j ↔
            r.1.Assigned j := by
          intro j hj
          by_cases hji : j = i
          · subst hji
            exact ⟨fun ⟨p, hp⟩ => ⟨p, hfew.fewer p hp⟩, hassigned⟩
          · exact exists_congr fun p => hfew.others p j hj hji
        obtain ⟨hend, hsoleEnd, hall⟩ := ih hunder fun j hj => by
          have hji : j ≠ i := by
            rintro rfl
            omega
          have hbefore : 1 < noteCount r.1.noteAssignments j := by
            by_contra hle
            have hsame := (noteCount_le_one_iff h.kept j).mp (by omega)
            have hne : j.val ≠ i.val := fun heq => hji (Fin.ext heq)
            have := (noteCount_le_one_iff hunder.kept j).mpr
              fun p q hp hq => hsame p q
                ((hfew.others p j j.isLt hne).mp hp)
                ((hfew.others q j j.isLt hne).mp hq)
            omega
          exact (List.mem_cons.mp (hvisits j hbefore)).resolve_left hji
        exact ⟨hend, hsoleEnd, fun j hj => (hall j hj).trans (hstill j hj)⟩
      · rw [if_neg hmany]
        apply ih h
        intro j hj
        have hji : j ≠ i := by
          rintro rfl
          exact hmany hj
        exact (List.mem_cons.mp (hvisits j hj)).resolve_left hji

/-! ### The last loop -/

/-- No peer has two notes more than another. -/
def Balanced (m : NoteAssignmentsMap) (onlinePeers : List ZGPeerID) : Prop :=
  ∀ p ∈ onlinePeers, ∀ q ∈ onlinePeers, m.load p ≤ m.load q + 1

/-- One turn of the last loop: the note goes from `heavy` to `light`. -/
def moveNote (c : Checksums) (m : NoteAssignmentsMap)
    (heavy light : ZGPeerID) : NoteAssignmentsMap :=
  let noteIdx := getLastNoteInChord (m.getNoteAssignmentsForPeerID heavy)
  let m := m.setNoteAssignmentsForPeerID c heavy
    (m.getNoteAssignmentsForPeerID heavy &&& ~~~ noteBit noteIdx)
  m.setNoteAssignmentsForPeerID c light
    (m.getNoteAssignmentsForPeerID light ||| noteBit noteIdx)

/-- What a turn leaves. -/
structure Moves (onlinePeers : List ZGPeerID) (c : Checksums)
    (strategy : UInt32) (m m' : NoteAssignmentsMap)
    (heavy light : ZGPeerID) : Prop where
  underway : Underway c onlinePeers strategy m'
  sole : m'.Sole
  assigned : ∀ j < 64, m'.Assigned j ↔ m.Assigned j
  load : m'.load = Balancing.moveUnit m.load heavy light

theorem moves_moveNote {heavy light : ZGPeerID}
    (h : Underway c onlinePeers strategy m) (hsole : m.Sole)
    (hlight : light ∈ onlinePeers)
    (happart : m.load light + 2 ≤ m.load heavy) :
    Moves onlinePeers c strategy m (moveNote c m heavy light) heavy
      light := by
  have hne : light ≠ heavy := by
    rintro rfl
    omega
  obtain ⟨hn, hnote⟩ := getLastNoteInChord_spec
    (a := m.getNoteAssignmentsForPeerID heavy) (by
      change 0 < m.load heavy
      omega)
  have hmove : moveNote c m heavy light =
      ((m.setNoteAssignmentsForPeerID c heavy
        (m.getNoteAssignmentsForPeerID heavy &&& ~~~ noteBit
          (getLastNoteInChord (m.getNoteAssignmentsForPeerID heavy)))
        ).setNoteAssignmentsForPeerID c light
        (m.getNoteAssignmentsForPeerID light ||| noteBit
          (getLastNoteInChord (m.getNoteAssignmentsForPeerID heavy)))) := by
    simp only [moveNote, getNoteAssignments_set, if_neg hne]
  generalize getLastNoteInChord (m.getNoteAssignmentsForPeerID heavy) = n
    at hn hnote hmove
  have h64 : n < 64 := hn.trans (by decide)
  have hlacks : hasNote (m.getNoteAssignmentsForPeerID light) n = false := by
    by_contra hhas
    have hplays : m.Plays light n := by
      unfold Plays
      simpa using hhas
    exact hne (hsole n h64 light heavy hplays hnote)
  have hplays : ∀ p, ∀ j < 64, (moveNote c m heavy light).Plays p j ↔
      if j = n then p = light else m.Plays p j := by
    intro p j hj
    have honly : m.Plays p n ↔ p = heavy :=
      ⟨fun hp => hsole n h64 p heavy hp hnote, fun heq => heq ▸ hnote⟩
    rw [hmove, plays_set, plays_set, hasNote_with h64 hj,
      hasNote_without h64 hj]
    unfold Plays at honly ⊢
    grind
  refine ⟨?_, fun i hi p q hp hq => ?_, fun j hj => ?_, ?_⟩
  · rw [hmove]
    exact (h.without (p := heavy)).set fun _ => hlight
  · rw [hplays p i hi] at hp
    rw [hplays q i hi] at hq
    by_cases hin : i = n
    · rw [if_pos hin] at hp hq
      rw [hp, hq]
    · rw [if_neg hin] at hp hq
      exact hsole i hi p q hp hq
  · by_cases hjn : j = n
    · subst hjn
      refine iff_of_true ⟨light, ?_⟩ ⟨heavy, hnote⟩
      rw [hplays light j hj, if_pos rfl]
    · refine exists_congr fun p => ?_
      rw [hplays p j hj, if_neg hjn]
  · funext p
    have hget : (moveNote c m heavy light).getNoteAssignmentsForPeerID p =
        if p = light then m.getNoteAssignmentsForPeerID light ||| noteBit n
        else if p = heavy then
          m.getNoteAssignmentsForPeerID heavy &&& ~~~ noteBit n
        else m.getNoteAssignmentsForPeerID p := by
      rw [hmove, getNoteAssignments_set, getNoteAssignments_set]
    unfold NoteAssignmentsMap.load Balancing.moveUnit
    rw [hget]
    by_cases hpl : p = light
    · rw [if_pos hpl, hpl, Function.update_self, countBits_with hn hlacks]
    · rw [if_neg hpl, Function.update_of_ne hpl]
      by_cases hph : p = heavy
      · rw [if_pos hph, hph, Function.update_self,
          countBits_without hn hnote]
      · rw [if_neg hph, Function.update_of_ne hph]

/-- With more turns than the squares of the loads the last loop comes to
its end, and there the loads are balanced. -/
theorem balanceLoop_spec (hnodup : onlinePeers.Nodup)
    (hne : onlinePeers ≠ []) {fuel : ℕ}
    (h : Underway c onlinePeers strategy r.1) (hsole : r.1.Sole)
    (hfuel : Balancing.sumOfSquares onlinePeers r.1.load < fuel) :
    Underway c onlinePeers strategy
        (balanceLoop c onlinePeers fuel r).1 ∧
      (balanceLoop c onlinePeers fuel r).1.Sole ∧
      (∀ j < 64, (balanceLoop c onlinePeers fuel r).1.Assigned j ↔
        r.1.Assigned j) ∧
      (balanceLoop c onlinePeers fuel r).1.Balanced onlinePeers := by
  induction fuel generalizing r with
  | zero => omega
  | succ fuel ih =>
      obtain ⟨hlight, hlightCount, hleast⟩ := getLightestPeer_spec hne r.1
      obtain ⟨hheavy, hheavyCount, hmost⟩ := getHeaviestPeer_spec hne r.1
      rw [balanceLoop]
      dsimp only
      by_cases hgo : 1 < (((r.1.getHeaviestPeer onlinePeers).2 : ℤ) -
          (r.1.getLightestPeer onlinePeers).2).natAbs
      · rw [if_pos hgo]
        have happart : r.1.load (r.1.getLightestPeer onlinePeers).1 + 2 ≤
            r.1.load (r.1.getHeaviestPeer onlinePeers).1 := by
          have := hmost _ hlight
          omega
        have hmoves := moves_moveNote h hsole hlight happart
        have hless := Balancing.sumOfSquares_moveUnit_lt hnodup hheavy
          hlight happart
        rw [← hmoves.load] at hless
        obtain ⟨hend, hsoleEnd, hall, hbalanced⟩ :=
          ih (r := (moveNote c r.1 _ _, true)) hmoves.underway hmoves.sole
            (Nat.lt_of_lt_of_le hless (Nat.le_of_lt_succ hfuel))
        exact ⟨hend, hsoleEnd, fun j hj =>
          (hall j hj).trans (hmoves.assigned j hj), hbalanced⟩
      · rw [if_neg hgo]
        refine ⟨h, hsole, fun _ _ => Iff.rfl, fun p hp q hq => ?_⟩
        have hp := hmost p hp
        have hq := hleast q hq
        omega

/-- The last loop has turns enough. -/
theorem balanceFuel_spec (m : NoteAssignmentsMap)
    (onlinePeers : List ZGPeerID) :
    Balancing.sumOfSquares onlinePeers m.load < balanceFuel onlinePeers :=
  Nat.lt_succ_of_le (Balancing.sumOfSquares_le fun p _ => m.load_le p)

end NoteAssignmentsMap

end ZgChoir
