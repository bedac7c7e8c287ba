import Mathlib.Data.List.Basic

/-!
# Undo and redo stacks, and sequences that are still open

A user works in sequences of transactions, which are numbered as they are
carried out.  A sequence begins with one of them and ends with one; what is
begun within a sequence is nested in it.  Sequences that have been undone are
on a stack of their own, from where they can be redone, until the next one
begins.

The sequences of both stacks, one after the other, are in the order in which
they began: the first of those that were undone, which is on top of its stack,
began after the last of those that were not.  This and where the open sequence
is are one invariant, `History.WellFormed`, and every operation keeps it.
-/

namespace UndoRedo

/-- A sequence of transactions; one that is open has no last one yet. -/
structure Sequence where
  first : ℕ
  last : Option ℕ

/-- A sequence that has ended, and not before it began. -/
def Sequence.Closed (q : Sequence) : Prop :=
  ∃ n, q.last = some n ∧ q.first ≤ n

/-- The two stacks, with their tops at the ends of the lists, and how many
sequences have begun and not ended. -/
structure History where
  undo : List Sequence
  redo : List Sequence
  nesting : ℕ

/-- All sequences, in the order in which they should have begun. -/
def History.sequences (h : History) : List Sequence :=
  h.undo ++ h.redo.reverse

/-- **The invariant**, after `latest` transactions. -/
structure History.WellFormed (latest : ℕ) (h : History) : Prop where
  idle : h.nesting = 0 → ∀ q ∈ h.undo, q.Closed
  busy : h.nesting ≠ 0 → h.redo = [] ∧ ∃ older current,
    h.undo = older ++ [current] ∧ (∀ q ∈ older, q.Closed) ∧
      current.last = none
  undone : ∀ q ∈ h.redo, q.Closed
  inOrder : h.sequences.Pairwise fun q q' => q.first ≤ q'.first
  recent : ∀ q ∈ h.sequences, q.first ≤ latest

namespace History

variable {latest latest' nesting nesting' : ℕ} {undo redo : List Sequence}
  {q : Sequence} {h : History}

/-- Nothing has been done yet. -/
theorem wellFormed_empty : WellFormed latest ⟨[], [], 0⟩ where
  idle _ _ hmem := absurd hmem List.not_mem_nil
  busy hne := absurd rfl hne
  undone _ hmem := absurd hmem List.not_mem_nil
  inOrder := List.Pairwise.nil
  recent _ hmem := absurd hmem List.not_mem_nil

/-- More transactions. -/
theorem WellFormed.mono (hwf : h.WellFormed latest) (hle : latest ≤ latest') :
    h.WellFormed latest' :=
  { hwf with recent := fun q hq => Nat.le_trans (hwf.recent q hq) hle }

/-- If something has begun and not ended, it is the last one. -/
theorem WellFormed.open_last
    (hwf : WellFormed latest ⟨undo ++ [q], redo, nesting⟩)
    (hne : nesting ≠ 0) : redo = [] ∧ (∀ q' ∈ undo, q'.Closed) ∧
      q.last = none := by
  obtain ⟨hredo, older, current, heq, hclosed, hopen⟩ := hwf.busy hne
  obtain ⟨rfl, hsame⟩ := List.append_inj' heq rfl
  obtain rfl : q = current := by simpa using hsame
  exact ⟨hredo, hclosed, hopen⟩

/-- Whatever is not at the end of the undo stack has ended. -/
theorem WellFormed.closed_dropLast (hwf : h.WellFormed latest) :
    ∀ q ∈ h.undo.dropLast, q.Closed := by
  intro q hq
  by_cases hzero : h.nesting = 0
  · exact hwf.idle hzero q (List.dropLast_subset _ hq)
  · obtain ⟨-, older, current, heq, hclosed, -⟩ := hwf.busy hzero
    rw [heq, List.dropLast_concat] at hq
    exact hclosed q hq

/-! ### Beginning and ending -/

/-- The redo stack is cleared. -/
theorem WellFormed.clearRedo
    (hwf : WellFormed latest ⟨undo, redo, nesting⟩) :
    WellFormed latest ⟨undo, [], nesting⟩ where
  idle := hwf.idle
  busy hne := ⟨rfl, (hwf.busy hne).2⟩
  undone _ hmem := absurd hmem List.not_mem_nil
  inOrder := hwf.inOrder.sublist (by simp [sequences])
  recent q hq := hwf.recent q (by simp_all [sequences])

/-- A first sequence begins. -/
theorem WellFormed.begin (hwf : WellFormed latest ⟨undo, [], 0⟩) :
    WellFormed latest ⟨undo ++ [⟨latest, none⟩], [], 1⟩ where
  idle hzero := absurd hzero Nat.one_ne_zero
  busy _ := ⟨rfl, undo, ⟨latest, none⟩, rfl, hwf.idle rfl, rfl⟩
  undone _ hmem := absurd hmem List.not_mem_nil
  inOrder := by
    have horder := hwf.inOrder
    have hrecent := hwf.recent
    simp only [sequences, List.reverse_nil, List.append_nil] at *
    rw [List.pairwise_append]
    refine ⟨horder, List.pairwise_singleton _ _, fun q hq q' hq' => ?_⟩
    obtain rfl := List.mem_singleton.mp hq'
    exact hrecent q hq
  recent q hq := by
    have hrecent := hwf.recent
    simp only [sequences, List.reverse_nil, List.append_nil,
      List.mem_append, List.mem_singleton] at *
    rcases hq with hq | rfl
    · exact hrecent q hq
    · exact Nat.le_refl latest

/-- Another one begins, or ends, within the one that is open. -/
theorem WellFormed.nest (hwf : WellFormed latest ⟨undo, redo, nesting⟩)
    (hne : nesting ≠ 0) (hne' : nesting' ≠ 0) :
    WellFormed latest ⟨undo, redo, nesting'⟩ where
  idle hzero := absurd hzero hne'
  busy _ := hwf.busy hne
  undone := hwf.undone
  inOrder := hwf.inOrder
  recent := hwf.recent

/-- The open one ends. -/
theorem WellFormed.close
    (hwf : WellFormed latest ⟨undo ++ [q], redo, nesting⟩)
    (hne : nesting ≠ 0) :
    WellFormed latest ⟨undo ++ [⟨q.first, some latest⟩], redo, 0⟩ := by
  obtain ⟨rfl, hclosed, -⟩ := hwf.open_last hne
  have horder := hwf.inOrder
  have hrecent := hwf.recent
  simp only [sequences, List.reverse_nil, List.append_nil] at horder hrecent
  have hq : q.first ≤ latest := hrecent q (by simp)
  refine ⟨fun _ q' hq' => ?_, fun hne => absurd rfl hne,
    fun _ hmem => absurd hmem List.not_mem_nil, ?_, fun q' hq' => ?_⟩
  · rcases List.mem_append.mp hq' with hq' | hq'
    · exact hclosed q' hq'
    · obtain rfl := List.mem_singleton.mp hq'
      exact ⟨latest, rfl, hq⟩
  · simp only [sequences, List.reverse_nil, List.append_nil]
    rw [List.pairwise_append] at horder ⊢
    refine ⟨horder.1, List.pairwise_singleton _ _, fun q' hq' r hr => ?_⟩
    obtain rfl := List.mem_singleton.mp hr
    exact horder.2.2 q' hq' q (by simp)
  · simp only [sequences, List.reverse_nil, List.append_nil,
      List.mem_append, List.mem_singleton] at hq'
    rcases hq' with hq' | rfl
    · exact hrecent q' (by simp [hq'])
    · exact hq

/-! ### Undoing and redoing -/

/-- The top of the undo stack is undone: it becomes the top of the redo stack,
which moves nothing in the order of the sequences. -/
theorem WellFormed.moveToRedo
    (hwf : WellFormed latest ⟨undo ++ [q], redo, 0⟩) :
    WellFormed latest ⟨undo, redo ++ [q], 0⟩ where
  idle _ q' hq' := hwf.idle rfl q' (by simp [hq'])
  busy hne := absurd rfl hne
  undone q' hq' := by
    rcases List.mem_append.mp hq' with hq' | hq'
    · exact hwf.undone q' hq'
    · obtain rfl := List.mem_singleton.mp hq'
      exact hwf.idle rfl q' (by simp)
  inOrder := by simpa [sequences] using hwf.inOrder
  recent := by simpa [sequences] using hwf.recent

/-- The top of the redo stack is redone. -/
theorem WellFormed.moveToUndo
    (hwf : WellFormed latest ⟨undo, redo ++ [q], 0⟩) :
    WellFormed latest ⟨undo ++ [q], redo, 0⟩ where
  idle _ q' hq' := by
    rcases List.mem_append.mp hq' with hq' | hq'
    · exact hwf.idle rfl q' hq'
    · obtain rfl := List.mem_singleton.mp hq'
      exact hwf.undone q' (by simp)
  busy hne := absurd rfl hne
  undone q' hq' := hwf.undone q' (by simp [hq'])
  inOrder := by simpa [sequences] using hwf.inOrder
  recent := by simpa [sequences] using hwf.recent

/-- The top of the redo stack is gone. -/
theorem WellFormed.dropRedo
    (hwf : WellFormed latest ⟨undo, redo ++ [q], 0⟩) :
    WellFormed latest ⟨undo, redo, 0⟩ where
  idle := hwf.idle
  busy hne := absurd rfl hne
  undone q' hq' := hwf.undone q' (by simp [hq'])
  inOrder := hwf.inOrder.sublist (by simp [sequences])
  recent q' hq' := hwf.recent q' (by
    simp only [sequences, List.reverse_append, List.mem_append] at hq' ⊢
    tauto)

/-! ### Forgetting -/

/-- The oldest sequence is forgotten, if it has ended. -/
theorem WellFormed.forget
    (hwf : WellFormed latest ⟨q :: undo, redo, nesting⟩)
    (hended : q.last ≠ none) : WellFormed latest ⟨undo, redo, nesting⟩ where
  idle hzero q' hq' := hwf.idle hzero q' (List.mem_cons_of_mem q hq')
  busy hne := by
    obtain ⟨hredo, older, current, heq, hclosed, hopen⟩ := hwf.busy hne
    refine ⟨hredo, ?_⟩
    cases older with
    | nil =>
        obtain ⟨rfl, -⟩ : q = current ∧ undo = [] := by simpa using heq
        exact absurd hopen hended
    | cons oldest older =>
        obtain ⟨rfl, hundo⟩ : q = oldest ∧ undo = older ++ [current] := by
          simpa using heq
        exact ⟨older, current, hundo,
          fun q' hq' => hclosed q' (List.mem_cons_of_mem q hq'), hopen⟩
  undone := hwf.undone
  inOrder := (List.pairwise_cons.mp hwf.inOrder).2
  recent q' hq' := hwf.recent q' (List.mem_cons_of_mem q hq')

/-- The oldest sequences are forgotten. -/
theorem WellFormed.forgetAll {dropped : List Sequence}
    (hwf : WellFormed latest ⟨dropped ++ undo, redo, nesting⟩)
    (hended : ∀ q ∈ dropped, q.last ≠ none) :
    WellFormed latest ⟨undo, redo, nesting⟩ := by
  induction dropped with
  | nil => exact hwf
  | cons q dropped ih =>
      exact ih (hwf.forget (hended q List.mem_cons_self))
        fun q' hq' => hended q' (List.mem_cons_of_mem q hq')

/-- **If the oldest sequence is on record, all are**, provided that the record
has no gaps. -/
theorem WellFormed.onRecord {record : ℕ → Prop}
    (hwf : WellFormed latest ⟨undo, redo, nesting⟩)
    (hgapless : ∀ {k n}, record k → k ≤ n → n ≤ latest → record n)
    (holdest : ∀ q ∈ undo.head?, record q.first) :
    ∀ q ∈ undo, record q.first := by
  cases undo with
  | nil => exact fun _ hmem => absurd hmem List.not_mem_nil
  | cons oldest undo =>
      intro q hq
      have hrecord : record oldest.first := holdest oldest rfl
      have hrecent : q.first ≤ latest :=
        hwf.recent q (List.mem_append_left _ hq)
      rcases List.mem_cons.mp hq with rfl | hq
      · exact hrecord
      · have hle := (List.pairwise_cons.mp hwf.inOrder).1 q
          (List.mem_append_left _ hq)
        exact hgapless hrecord hle hrecent

end History

end UndoRedo
