import Mathlib.Data.List.Basic

/-!
# Editing with undo and redo

An editor goes from one state to the next, back to where it was, and forth
again.  What it remembers of the states before and after the present one are
two stacks of records, each of which tells of one step from a state to a state.
An edit, an undo and a redo keep the records in step with the states, and to
forget the oldest records does no harm.
-/

namespace UndoRedo

/-- The states that can be undone to, the next one first; the state now; the
states that can be redone to, the next one first. -/
structure Editing (S : Type*) where
  past : List S
  present : S
  future : List S

namespace Editing

variable {S : Type*}

/-- A step to a new state; what was undone is given up. -/
def edit (h : Editing S) (s : S) : Editing S :=
  ⟨h.present :: h.past, s, []⟩

def undo (h : Editing S) : Option (Editing S) :=
  match h.past with
  | [] => none
  | s :: past => some ⟨past, s, h.present :: h.future⟩

def redo (h : Editing S) : Option (Editing S) :=
  match h.future with
  | [] => none
  | s :: future => some ⟨h.present :: h.past, s, future⟩

end Editing

variable {S R : Type*} {told told' : R → S → S → Prop} {p : R} {s s' : S}
  {ps qs us rs : List R} {rest : List S} {h : Editing S}

/-- One record after another tells of a step to the next state. -/
def Recalls (told : R → S → S → Prop) : List R → S → List S → Prop
  | [], _, _ => True
  | _ :: _, _, [] => False
  | p :: ps, s, s' :: rest => told p s s' ∧ Recalls told ps s' rest

theorem Recalls.mono (h : Recalls told ps s rest)
    (hle : ∀ p ∈ ps, ∀ s s', told p s s' → told' p s s') :
    Recalls told' ps s rest := by
  induction ps generalizing s rest with
  | nil => trivial
  | cons p ps ih =>
      cases rest with
      | nil => exact h.elim
      | cons s' rest =>
          exact ⟨hle p List.mem_cons_self _ _ h.1,
            ih h.2 fun q hq => hle q (List.mem_cons_of_mem p hq)⟩

/-- What is at the end may be forgotten. -/
theorem Recalls.forget (h : Recalls told (ps ++ qs) s rest) :
    Recalls told ps s rest := by
  induction ps generalizing s rest with
  | nil => trivial
  | cons p ps ih =>
      cases rest with
      | nil => exact h.elim
      | cons s' rest => exact ⟨h.1, ih h.2⟩

theorem Recalls.length_le (h : Recalls told ps s rest) :
    ps.length ≤ rest.length := by
  induction ps generalizing s rest with
  | nil => exact Nat.zero_le _
  | cons p ps ih =>
      cases rest with
      | nil => exact h.elim
      | cons s' rest => exact Nat.succ_le_succ (ih h.2)

/-- The records of the two stacks, whose tops are at the ends of the lists,
tell of the steps that lead up to the present state, and on from there. -/
structure Remembers (told : R → S → S → Prop) (undo redo : List R)
    (h : Editing S) : Prop where
  back : Recalls (fun p after before => told p before after) undo.reverse
    h.present h.past
  forth : Recalls told redo.reverse h.present h.future

namespace Remembers

/-- Nothing has been done yet. -/
theorem start : Remembers told [] [] ⟨[], s, []⟩ := ⟨trivial, trivial⟩

theorem mono (hr : Remembers told us rs h)
    (hle : ∀ p s s', told p s s' → told' p s s') :
    Remembers told' us rs h :=
  ⟨hr.back.mono fun p _ s s' => hle p s' s,
    hr.forth.mono fun p _ s s' => hle p s s'⟩

/-- The oldest steps are forgotten. -/
theorem forget (hr : Remembers told us rs h) (hsuffix : ps <:+ us) :
    Remembers told ps rs h := by
  obtain ⟨gone, rfl⟩ := hsuffix
  have hback := hr.back
  rw [List.reverse_append] at hback
  exact ⟨hback.forget, hr.forth⟩

/-- What was undone is given up. -/
theorem clear (hr : Remembers told us rs h) : Remembers told us [] h :=
  ⟨hr.back, trivial⟩

/-- **An edit.** -/
theorem edit (hr : Remembers told us rs h) (hp : told p h.present s) :
    Remembers told (us ++ [p]) [] (h.edit s) := by
  refine ⟨?_, trivial⟩
  rw [List.reverse_append]
  exact ⟨hp, hr.back⟩

/-- **An undo**: what is on top tells of the step that is taken back. -/
theorem undo (hr : Remembers told (us ++ [p]) rs h) :
    ∃ h', h.undo = some h' ∧ told p h'.present h.present ∧
      Remembers told us (rs ++ [p]) h' := by
  obtain ⟨past, present, future⟩ := h
  obtain ⟨hback, hforth⟩ := hr
  rw [List.reverse_append] at hback
  cases past with
  | nil => exact hback.elim
  | cons s past =>
      refine ⟨⟨past, s, present :: future⟩, rfl, hback.1, hback.2, ?_⟩
      rw [List.reverse_append]
      exact ⟨hback.1, hforth⟩

/-- **A redo**: what is on top tells of the step that is repeated. -/
theorem redo (hr : Remembers told us (rs ++ [p]) h) :
    ∃ h', h.redo = some h' ∧ told p h.present h'.present ∧
      Remembers told (us ++ [p]) rs h' := by
  obtain ⟨past, present, future⟩ := h
  obtain ⟨hback, hforth⟩ := hr
  rw [List.reverse_append] at hforth
  cases future with
  | nil => exact hforth.elim
  | cons s future =>
      refine ⟨⟨present :: past, s, future⟩, rfl, hforth.1, ?_, hforth.2⟩
      rw [List.reverse_append]
      exact ⟨hforth.1, hback⟩

end Remembers

end UndoRedo
