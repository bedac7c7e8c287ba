import Mathlib

/-!
# A table in the order of insertion

A hash table whose iteration order is the order in which the keys were first
put: `put` leaves a key where it is when it is there and appends it when it
is not, `remove` closes the gap.  That no key is held twice is a field of the
structure.

What a table answers is said through `get?`, where its keys stand through
`keys`; a client uses the two and never looks at how `put` finds the place.
-/

/-- A table from `κ` to `ν`, in order of insertion. -/
@[ext] structure Hashtable (κ ν : Type*) where
  entries : List (κ × ν)
  distinct : (entries.map Prod.fst).Nodup

namespace Hashtable

variable {κ ν : Type*}

/-- The table with nothing in it. -/
def empty : Hashtable κ ν := ⟨[], List.nodup_nil⟩

/-- The keys, oldest first. -/
def keys (t : Hashtable κ ν) : List κ := t.entries.map Prod.fst

theorem nodup_keys (t : Hashtable κ ν) : t.keys.Nodup := t.distinct

@[simp] theorem keys_empty : (empty : Hashtable κ ν).keys = [] := rfl

variable [DecidableEq κ]

/-- The value under `k`, if there is one. -/
def get? (t : Hashtable κ ν) (k : κ) : Option ν := t.entries.lookup k

/-- An entry with another value, if it is the one of `k`. -/
def setEntry (k : κ) (v : ν) (e : κ × ν) : κ × ν :=
  if e.1 = k then (e.1, v) else e

@[simp] theorem setEntry_fst (k : κ) (v : ν) (e : κ × ν) :
    (setEntry k v e).1 = e.1 := by
  unfold setEntry
  split <;> rfl

theorem map_setEntry_keys (k : κ) (v : ν) (es : List (κ × ν)) :
    (es.map (setEntry k v)).map Prod.fst = es.map Prod.fst := by
  simp [Function.comp_def]

/-- Put `v` under `k`: at the place of `k`, or at the end. -/
def put (t : Hashtable κ ν) (k : κ) (v : ν) : Hashtable κ ν where
  entries :=
    if k ∈ t.keys then t.entries.map (setEntry k v) else t.entries ++ [(k, v)]
  distinct := by
    split
    · rw [map_setEntry_keys]
      exact t.distinct
    · next hnew =>
      rw [List.map_append, List.nodup_append]
      refine ⟨t.distinct, List.nodup_singleton k, ?_⟩
      intro a ha b hb hab
      obtain rfl : b = k := by simpa using hb
      exact hnew (hab ▸ ha)

/-- The same keys with other values. -/
def mapValues {ν' : Type*} (f : κ → ν → ν') (t : Hashtable κ ν) :
    Hashtable κ ν' where
  entries := t.entries.map fun e => (e.1, f e.1 e.2)
  distinct := by
    rw [List.map_map]
    exact t.distinct

/-- Forget what is under `k`. -/
def remove (t : Hashtable κ ν) (k : κ) : Hashtable κ ν where
  entries := t.entries.filter fun e => decide (e.1 ≠ k)
  distinct := t.distinct.sublist (List.filter_sublist.map Prod.fst)

omit [DecidableEq κ] in
/-- The entries in the order of their keys. -/
def sortByKey (lt : κ → κ → Bool) (t : Hashtable κ ν) : Hashtable κ ν where
  entries := t.entries.insertionSort fun a b => lt b.1 a.1 = false
  distinct := ((List.perm_insertionSort _ _).map Prod.fst).nodup_iff.mpr
    t.distinct

variable {t : Hashtable κ ν} {k k' : κ} {v w : ν}

@[simp] theorem get?_empty : (empty : Hashtable κ ν).get? k = none := rfl

/-- Looking up a key finds exactly the value held under it. -/
theorem get?_eq_some_iff : t.get? k = some v ↔ (k, v) ∈ t.entries := by
  constructor
  · intro h
    obtain ⟨before, after, hsplit, -⟩ := List.lookup_eq_some_iff.mp h
    simp [hsplit]
  · intro h
    obtain ⟨before, after, hsplit⟩ := List.append_of_mem h
    refine List.lookup_eq_some_iff.mpr ⟨before, after, hsplit, ?_⟩
    intro e he
    have hnodup := t.distinct
    rw [hsplit, List.map_append, List.nodup_append] at hnodup
    have hne : e.1 ≠ k :=
      hnodup.2.2 _ (List.mem_map_of_mem he) _ (by simp)
    simpa using hne.symm

theorem get?_eq_none_iff : t.get? k = none ↔ k ∉ t.keys := by
  rw [get?, List.lookup_eq_none_iff, keys, List.mem_map]
  grind

theorem isSome_get? : (t.get? k).isSome = true ↔ k ∈ t.keys := by
  rw [← Option.ne_none_iff_isSome, ne_eq, get?_eq_none_iff, not_not]

theorem mem_keys_of_get? (h : t.get? k = some v) : k ∈ t.keys :=
  List.mem_map_of_mem (get?_eq_some_iff.mp h)

@[simp] theorem keys_remove :
    (t.remove k).keys = t.keys.filter fun a => decide (a ≠ k) := by
  simp only [keys, remove, List.filter_map, Function.comp_def]

theorem entries_put_of_mem (h : k ∈ t.keys) :
    (t.put k v).entries = t.entries.map (setEntry k v) := by
  simp only [put, if_pos h]

theorem entries_put_of_notMem (h : k ∉ t.keys) :
    (t.put k v).entries = t.entries ++ [(k, v)] := by
  simp only [put, if_neg h]

theorem keys_put_of_mem (h : k ∈ t.keys) : (t.put k v).keys = t.keys := by
  rw [keys, entries_put_of_mem h, map_setEntry_keys, keys]

theorem keys_put_of_notMem (h : k ∉ t.keys) :
    (t.put k v).keys = t.keys ++ [k] := by
  rw [keys, entries_put_of_notMem h, List.map_append, keys]
  rfl

@[simp] theorem mem_keys_put :
    k' ∈ (t.put k v).keys ↔ k' = k ∨ k' ∈ t.keys := by
  by_cases h : k ∈ t.keys
  · rw [keys_put_of_mem h]
    grind
  · rw [keys_put_of_notMem h]
    grind

theorem mem_entries_put {e : κ × ν} :
    e ∈ (t.put k v).entries ↔ e = (k, v) ∨ (e ∈ t.entries ∧ e.1 ≠ k) := by
  by_cases h : k ∈ t.keys
  · obtain ⟨old, hold, hkey⟩ := List.mem_map.mp h
    simp only [entries_put_of_mem h, List.mem_map, setEntry]
    grind
  · have hne : ∀ e ∈ t.entries, e.1 ≠ k := fun e he hek =>
      h (hek ▸ List.mem_map_of_mem he)
    simp only [entries_put_of_notMem h, List.mem_append, List.mem_singleton]
    grind

theorem get?_put_self : (t.put k v).get? k = some v :=
  get?_eq_some_iff.mpr (mem_entries_put.mpr (.inl rfl))

theorem get?_put_of_ne (h : k' ≠ k) : (t.put k v).get? k' = t.get? k' := by
  apply Option.ext
  intro w
  rw [get?_eq_some_iff, get?_eq_some_iff, mem_entries_put]
  grind

@[simp] theorem get?_put :
    (t.put k v).get? k' = if k' = k then some v else t.get? k' := by
  by_cases h : k' = k
  · rw [if_pos h, h, get?_put_self]
  · rw [if_neg h, get?_put_of_ne h]

@[simp] theorem get?_remove :
    (t.remove k).get? k' = if k' = k then none else t.get? k' := by
  apply Option.ext
  intro w
  rw [get?_eq_some_iff, remove, List.mem_filter]
  by_cases h : k' = k
  · simp [h]
  · simp [h, get?_eq_some_iff]

@[simp] theorem get?_mapValues {ν' : Type*} {f : κ → ν → ν'} :
    (t.mapValues f).get? k = (t.get? k).map (f k) := by
  apply Option.ext
  intro w
  rw [get?_eq_some_iff, Option.map_eq_some_iff, mapValues, List.mem_map]
  constructor
  · rintro ⟨e, he, heq⟩
    obtain ⟨rfl, rfl⟩ := Prod.mk.inj heq
    exact ⟨e.2, get?_eq_some_iff.mpr he, rfl⟩
  · rintro ⟨v, hv, rfl⟩
    exact ⟨(k, v), get?_eq_some_iff.mp hv, rfl⟩

omit [DecidableEq κ] in
@[simp] theorem keys_mapValues {ν' : Type*} {f : κ → ν → ν'} :
    (t.mapValues f).keys = t.keys := by
  simp [keys, mapValues, Function.comp_def]

/-- The later of two values under one key is all that counts. -/
theorem put_put : (t.put k v).put k w = t.put k w := by
  apply Hashtable.ext
  have hmem : k ∈ (t.put k v).keys := mem_keys_put.mpr (.inl rfl)
  rw [entries_put_of_mem hmem]
  by_cases h : k ∈ t.keys
  · rw [entries_put_of_mem h, entries_put_of_mem h, List.map_map]
    apply List.map_congr_left
    intro e he
    simp only [Function.comp_apply, setEntry]
    split
    · simp_all
    · simp_all
  · have hkeep : ∀ e ∈ t.entries, setEntry k w e = e := fun e he =>
      if_neg fun hek : e.1 = k => h (hek ▸ List.mem_map_of_mem he)
    rw [entries_put_of_notMem h, entries_put_of_notMem h, List.map_append,
      List.map_congr_left hkeep, List.map_id']
    simp [setEntry]

/-- What is put is what stands there already. -/
theorem put_of_get? (h : t.get? k = some v) : t.put k v = t := by
  apply Hashtable.ext
  rw [entries_put_of_mem (mem_keys_of_get? h)]
  have hkeep : ∀ e ∈ t.entries, setEntry k v e = e := by
    intro e he
    unfold setEntry
    split
    · next hek =>
      have hv : t.get? k = some e.2 := get?_eq_some_iff.mpr (hek ▸ he)
      rw [Option.some.inj (h.symm.trans hv)]
    · rfl
  rw [List.map_congr_left hkeep, List.map_id']

/-- What a value stands for may be all that is kept of it. -/
theorem map_entries_put {α : Type*} {f : ν → α} (h : t.get? k = some w)
    (hsame : f v = f w) : (t.put k v).entries.map (fun e => f e.2) =
      t.entries.map fun e => f e.2 := by
  rw [entries_put_of_mem (mem_keys_of_get? h), List.map_map]
  apply List.map_congr_left
  intro e he
  simp only [Function.comp_apply, setEntry]
  split
  · next hek =>
    have hw : t.get? k = some e.2 := get?_eq_some_iff.mpr (hek ▸ he)
    rw [← Option.some.inj (h.symm.trans hw)]
    exact hsame
  · rfl

theorem remove_of_notMem (h : k ∉ t.keys) : t.remove k = t := by
  apply Hashtable.ext
  refine List.filter_eq_self.mpr ?_
  intro e he
  have hne : e.1 ≠ k := fun hek => h (hek ▸ List.mem_map_of_mem he)
  simpa using hne

/-- What is forgotten need not have been put. -/
theorem remove_put : (t.put k v).remove k = t.remove k := by
  apply Hashtable.ext
  by_cases h : k ∈ t.keys
  · simp only [remove, entries_put_of_mem h, List.filter_map]
    have hkeep : ∀ e ∈ t.entries.filter fun e => decide (e.1 ≠ k),
        setEntry k v e = e := by
      intro e he
      have hne := (List.mem_filter.mp he).2
      exact if_neg (by simpa using hne)
    simpa [Function.comp_def] using List.map_congr_left hkeep
  · simp [remove, entries_put_of_notMem h, List.filter_append]

/-- Putting a new key and forgetting it leaves no trace. -/
theorem remove_put_of_notMem (h : k ∉ t.keys) : (t.put k v).remove k = t :=
  remove_put.trans (remove_of_notMem h)

/-! ### Queues under keys -/

section

variable {α : Type*} {queues : Hashtable κ (List α)} {q : List α}

/-- A queue is exchanged for another one, which is not kept if it is empty. -/
theorem getD_exchange :
    ((if q = [] then queues.remove k else queues.put k q).get? k').getD [] =
      if k' = k then q else (queues.get? k').getD [] := by
  split
  · next hq =>
      rw [get?_remove]
      split
      · exact hq.symm
      · rfl
  · rw [get?_put]
    split
    · rfl
    · rfl

theorem exchange_ne_nil (h : queues.get? k' ≠ some []) :
    (if q = [] then queues.remove k else queues.put k q).get? k' ≠
      some [] := by
  split
  · rw [get?_remove]
    split
    · exact (Option.some_ne_none _).symm
    · exact h
  · next hq =>
      rw [get?_put]
      split
      · exact fun hsome => hq (Option.some.inj hsome)
      · exact h

end

end Hashtable
