import ZgChoir.Hashtable

/-!
# Updates of a table

An update sets what is under a key, or removes it.  Who starts with a table
and gets the updates that are made to it, in their order, has the table
(`applyUpdates`).

It is not the number of updates that counts.  Of several updates of one key
the last is enough, so they may wait in a table of their own
(`applyUpdates_put`); who comes late needs the entries that are not updated
anyway, and then the updates (`applyUpdates_snapshot`); and two tables give
the updates that lead from the one to the other (`applyUpdates_changes`).
-/

namespace Hashtable

variable {κ ν : Type*} [DecidableEq κ]

/-- What is known once the updates have come in. -/
def applyUpdates (view : κ → Option ν) (updates : List (κ × Option ν)) :
    κ → Option ν :=
  updates.foldl (fun view u => Function.update view u.1 u.2) view

/-- Put, or remove if there is no value. -/
def putOrRemove (t : Hashtable κ ν) (k : κ) (v : Option ν) : Hashtable κ ν :=
  match v with
  | some v => t.put k v
  | none => t.remove k

/-- The updates that lead from one table to another: first what is gone, then
what is new or different. -/
def changes [DecidableEq ν] (old new : Hashtable κ ν) : List (κ × Option ν) :=
  ((old.keys.filter fun k => decide (k ∉ new.keys)).map fun k => (k, none)) ++
    (new.entries.filter fun e => decide (old.get? e.1 ≠ some e.2)).map
      fun e => (e.1, some e.2)

variable {view f : κ → Option ν} {updates later : List (κ × Option ν)}
  {t : Hashtable κ ν} {k : κ}

@[simp] theorem applyUpdates_nil : applyUpdates view [] = view := rfl

@[simp] theorem applyUpdates_cons {u : κ × Option ν} :
    applyUpdates view (u :: updates) =
      applyUpdates (Function.update view u.1 u.2) updates := rfl

theorem applyUpdates_append : applyUpdates view (updates ++ later) =
    applyUpdates (applyUpdates view updates) later :=
  List.foldl_append

/-- Updates that agree with what is to be known lead there, if they cover all
that differs. -/
theorem applyUpdates_eq (hagree : ∀ u ∈ updates, u.2 = f u.1)
    (hrest : ∀ k, k ∉ updates.map Prod.fst → view k = f k) :
    applyUpdates view updates = f := by
  induction updates generalizing view with
  | nil => exact funext fun k => hrest k List.not_mem_nil
  | cons u updates ih =>
      rw [applyUpdates_cons]
      refine ih (fun u' hu' => hagree u' (List.mem_cons_of_mem _ hu')) ?_
      intro k hk
      by_cases hu : k = u.1
      · rw [hu, Function.update_self]
        exact hagree u List.mem_cons_self
      · rw [Function.update_of_ne hu]
        exact hrest k (by simp [hu, hk])

/-- What a table of updates leads to. -/
theorem applyUpdates_entries {pending : Hashtable κ (Option ν)} :
    applyUpdates view pending.entries =
      fun k => (pending.get? k).getD (view k) := by
  apply applyUpdates_eq
  · intro u hu
    rw [get?_eq_some_iff.mpr hu, Option.getD_some]
  · intro k hk
    rw [get?_eq_none_iff.mpr hk, Option.getD_none]

/-- An update may take the place of an earlier one. -/
theorem applyUpdates_put {pending : Hashtable κ (Option ν)} {v : Option ν} :
    applyUpdates view (pending.put k v).entries =
      Function.update (applyUpdates view pending.entries) k v := by
  funext k'
  simp only [applyUpdates_entries, get?_put, Function.update_apply]
  split <;> rfl

theorem get?_putOrRemove {v : Option ν} :
    (t.putOrRemove k v).get? = Function.update t.get? k v := by
  funext k'
  cases v with
  | none => rw [putOrRemove, get?_remove, Function.update_apply]
  | some v => rw [putOrRemove, get?_put, Function.update_apply]

/-- A table that keeps up with the updates. -/
theorem get?_foldl_putOrRemove :
    (updates.foldl (fun t u => t.putOrRemove u.1 u.2) t).get? =
      applyUpdates t.get? updates := by
  induction updates generalizing t with
  | nil => rfl
  | cons u updates ih =>
      rw [List.foldl_cons, ih, get?_putOrRemove, applyUpdates_cons]

/-- **Who comes late** needs what is not updated anyway, and the updates. -/
theorem applyUpdates_snapshot {pending : Hashtable κ (Option ν)} :
    applyUpdates (fun _ => none)
      (((t.entries.filter fun e => decide (e.1 ∉ pending.keys)).map
        fun e => (e.1, some e.2)) ++ pending.entries) =
      applyUpdates t.get? pending.entries := by
  rw [applyUpdates_entries]
  apply applyUpdates_eq
  · intro u hu
    rcases List.mem_append.mp hu with hu | hu
    · obtain ⟨e, he, rfl⟩ := List.mem_map.mp hu
      obtain ⟨hmem, hnew⟩ := List.mem_filter.mp he
      have hnone : pending.get? e.1 = none :=
        get?_eq_none_iff.mpr (of_decide_eq_true hnew)
      rw [hnone, Option.getD_none, get?_eq_some_iff.mpr hmem]
    · rw [get?_eq_some_iff.mpr hu, Option.getD_some]
  · intro k hk
    rw [List.map_append, List.mem_append, not_or] at hk
    rw [get?_eq_none_iff.mpr hk.2, Option.getD_none]
    cases hget : t.get? k with
    | none => rfl
    | some v =>
        refine absurd (List.mem_map.mpr ⟨(k, some v), ?_, rfl⟩) hk.1
        refine List.mem_map.mpr ⟨(k, v), List.mem_filter.mpr ⟨?_, ?_⟩, rfl⟩
        · exact get?_eq_some_iff.mp hget
        · exact decide_eq_true hk.2

/-- **The changes lead from the old table to the new one.** -/
theorem applyUpdates_changes [DecidableEq ν] {old new : Hashtable κ ν} :
    applyUpdates old.get? (old.changes new) = new.get? := by
  apply applyUpdates_eq
  · intro u hu
    rcases List.mem_append.mp hu with hu | hu
    · obtain ⟨k, hk, rfl⟩ := List.mem_map.mp hu
      have hgone := of_decide_eq_true (List.mem_filter.mp hk).2
      exact (get?_eq_none_iff.mpr hgone).symm
    · obtain ⟨e, he, rfl⟩ := List.mem_map.mp hu
      exact (get?_eq_some_iff.mpr (List.mem_filter.mp he).1).symm
  · intro k hk
    rw [changes, List.map_append, List.mem_append, not_or] at hk
    cases hnew : new.get? k with
    | none =>
        refine get?_eq_none_iff.mpr fun hold => hk.1 ?_
        refine List.mem_map.mpr ⟨(k, none), List.mem_map.mpr ⟨k, ?_, rfl⟩, rfl⟩
        exact List.mem_filter.mpr
          ⟨hold, decide_eq_true (get?_eq_none_iff.mp hnew)⟩
    | some v =>
        by_contra hold
        refine hk.2 (List.mem_map.mpr ⟨(k, some v), ?_, rfl⟩)
        refine List.mem_map.mpr ⟨(k, v), List.mem_filter.mpr ⟨?_, ?_⟩, rfl⟩
        · exact get?_eq_some_iff.mp hnew
        · exact decide_eq_true hold

end Hashtable
