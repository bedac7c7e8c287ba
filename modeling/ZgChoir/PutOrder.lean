import Mathlib

/-!
# A table iterated in the order its keys were put

An association list whose iteration order is the order in which its keys
were first put, until an entry is moved.  `put` replaces the value of a key
that is held where it stands and appends a key that is not; `moveToFront`
and `moveToBehind` change the place of one entry.

The order is the whole interest, so the operations are described by what
they do to `keys`; the values are followed by `lookup`.
-/

namespace AList

variable {κ α : Type*} [DecidableEq κ]
variable {t : AList fun _ : κ => α} {k k' prev : κ} {v : α} {xs ys : List κ}

/-- Put `v` under `k`: in its place if `k` is held, at the end if not. -/
def put (t : AList fun _ : κ => α) (k : κ) (v : α) : AList fun _ : κ => α :=
  if h : k ∈ t then t.replace k v
  else
    { entries := t.entries ++ [⟨k, v⟩]
      nodupKeys := by
        rw [List.NodupKeys, List.keys_append]
        exact List.nodup_append'.mpr ⟨t.nodupKeys, List.nodup_singleton k,
          List.disjoint_singleton.mpr h⟩ }

/-- Move the entry under `k` to the front. -/
def moveToFront (t : AList fun _ : κ => α) (k : κ) : AList fun _ : κ => α :=
  match t.lookup k with
  | some v => t.insert k v
  | none => t

/-- `l` with `x` put right behind the first entry under `prev`. -/
def insertBehind (prev : κ) (x : Σ _ : κ, α) :
    List (Σ _ : κ, α) → List (Σ _ : κ, α)
  | [] => []
  | y :: l => if y.1 = prev then y :: x :: l else y :: insertBehind prev x l

theorem insertBehind_perm {x : Σ _ : κ, α} {l : List (Σ _ : κ, α)}
    (h : prev ∈ l.keys) : (insertBehind prev x l).Perm (x :: l) := by
  induction l with
  | nil => simp at h
  | cons y l ih =>
      by_cases hy : y.1 = prev
      · simpa [insertBehind, hy] using List.Perm.swap x y l
      · have hl : prev ∈ l.keys := by
          simpa [Ne.symm hy] using h
        simpa [insertBehind, hy] using
          ((ih hl).cons y).trans (List.Perm.swap x y l)

/-- Move the entry under `k` right behind the one under `prev`; nothing
happens when one of them is not held, or they are the same. -/
def moveToBehind (t : AList fun _ : κ => α) (k prev : κ) :
    AList fun _ : κ => α :=
  match t.lookup k with
  | some v =>
      if h : prev ∈ t.erase k then
        { entries := insertBehind prev ⟨k, v⟩ (t.erase k).entries
          nodupKeys := by
            refine (List.perm_nodupKeys (insertBehind_perm h)).mpr ?_
            refine List.nodupKeys_cons.mpr ⟨?_, (t.erase k).nodupKeys⟩
            intro hk
            have hmem : k ∈ t.erase k := hk
            simp at hmem }
      else t
  | none => t

theorem keys_put_of_mem (h : k ∈ t) : (t.put k v).keys = t.keys := by
  simp [put, h]

theorem entries_put_of_notMem (h : k ∉ t) :
    (t.put k v).entries = t.entries ++ [⟨k, v⟩] := by
  simp [put, h]

theorem keys_put_of_notMem (h : k ∉ t) :
    (t.put k v).keys = t.keys ++ [k] := by
  simp [put, h, keys]

@[simp] theorem mem_put : k' ∈ t.put k v ↔ k' = k ∨ k' ∈ t := by
  by_cases h : k ∈ t
  · rw [mem_keys, keys_put_of_mem h, ← mem_keys]
    constructor
    · exact Or.inr
    · rintro (rfl | hk')
      · exact h
      · exact hk'
  · rw [mem_keys, keys_put_of_notMem h, List.mem_append, List.mem_singleton,
      ← mem_keys, or_comm]

private theorem dlookup_kreplace {l : List (Σ _ : κ, α)} (h : k ∈ l.keys) :
    (l.kreplace k v).dlookup k' =
      if k' = k then some v else l.dlookup k' := by
  induction l with
  | nil => simp at h
  | cons y l ih =>
      obtain ⟨y, w⟩ := y
      by_cases hy : k = y
      · subst hy
        rw [List.kreplace, List.lookmap_cons]
        by_cases hk' : k' = k
        · subst hk'
          simp
        · simp [hk']
      · have hl : k ∈ l.keys := by simpa [hy] using h
        have ih := ih hl
        rw [List.kreplace] at ih ⊢
        rw [List.lookmap_cons]
        by_cases hk' : k' = y
        · subst hk'
          simp [hy, Ne.symm hy]
        · simp [hy, hk', ih]

theorem lookup_put :
    (t.put k v).lookup k' = if k' = k then some v else t.lookup k' := by
  by_cases h : k ∈ t
  · simpa [put, h, lookup, replace] using dlookup_kreplace h
  · have hk : t.entries.dlookup k = none := List.dlookup_eq_none.mpr h
    by_cases hk' : k' = k
    · subst hk'
      simp [put, h, lookup, List.dlookup_append, hk]
    · simp [put, h, lookup, List.dlookup_append, hk']

/-- Replacing the value of a key that is held is putting it. -/
theorem lookup_replace (h : k ∈ t) :
    (t.replace k v).lookup k' = if k' = k then some v else t.lookup k' := by
  rw [← lookup_put, put, dif_pos h]

/-- Moving an entry changes no value. -/
theorem lookup_moveToFront : (t.moveToFront k).lookup k' = t.lookup k' := by
  unfold moveToFront
  split
  · rename_i v hv
    by_cases hk : k' = k
    · rw [hk, lookup_insert, hv]
    · exact lookup_insert_ne hk
  · rfl

theorem lookup_moveToBehind :
    (t.moveToBehind k prev).lookup k' = t.lookup k' := by
  unfold moveToBehind
  split
  · rename_i v hv
    split
    · rename_i hprev
      have hfirst : (⟨k, v⟩ :: (t.erase k).entries : List (Σ _ : κ, α)).NodupKeys :=
        List.nodupKeys_cons.mpr ⟨fun hk => (mem_erase.mp hk).1 rfl,
          (t.erase k).nodupKeys⟩
      refine (List.perm_dlookup k' ((List.perm_nodupKeys
        (insertBehind_perm hprev)).mpr hfirst)
        (insertBehind_perm hprev)).trans ?_
      by_cases hk : k' = k
      · subst hk
        rw [List.dlookup_cons_eq, hv]
      · rw [List.dlookup_cons_ne _ _ hk]
        exact lookup_erase_ne hk
    · rfl
  · rfl

/-- A new key that is put and moved to the front stands before all the
others. -/
theorem keys_moveToFront_put (h : k ∉ t) :
    ((t.put k v).moveToFront k).keys = k :: t.keys := by
  have hlookup : (t.put k v).lookup k = some v := by simp [lookup_put]
  have herase : (t.keys ++ [k]).erase k = t.keys := by
    rw [List.erase_append_right _ h]
    simp
  simp [moveToFront, hlookup, keys_put_of_notMem h, herase]

private theorem keys_insertBehind {x : Σ _ : κ, α} {l : List (Σ _ : κ, α)}
    (hkeys : l.keys = xs ++ prev :: ys) (h : prev ∉ xs) :
    (insertBehind prev x l).keys = xs ++ prev :: x.1 :: ys := by
  induction l generalizing xs with
  | nil => simp at hkeys
  | cons y l ih =>
      cases xs with
      | nil =>
          simp only [List.keys_cons, List.nil_append, List.cons.injEq] at hkeys
          simp [insertBehind, hkeys.1, hkeys.2]
      | cons z xs =>
          simp only [List.keys_cons, List.cons_append, List.cons.injEq] at hkeys
          have hz : y.1 ≠ prev := by
            rintro rfl
            exact h (hkeys.1 ▸ List.mem_cons_self)
          have hxs : prev ∉ xs := fun hmem => h (List.mem_cons_of_mem _ hmem)
          rw [insertBehind, if_neg hz, List.keys_cons, ih hkeys.2 hxs, hkeys.1,
            List.cons_append]

/-- A new key that is put and moved behind `prev` comes right after it. -/
theorem keys_moveToBehind_put (h : k ∉ t) (hkeys : t.keys = xs ++ prev :: ys) :
    ((t.put k v).moveToBehind k prev).keys = xs ++ prev :: k :: ys := by
  have hlookup : (t.put k v).lookup k = some v := by simp [lookup_put]
  have hmem : prev ∈ t := by
    rw [mem_keys, hkeys]
    simp
  have hprev : prev ∈ (t.put k v).erase k := by
    rw [mem_erase, mem_put]
    exact ⟨fun heq => h (heq ▸ hmem), Or.inr hmem⟩
  have herase : ((t.put k v).erase k).entries.keys = xs ++ prev :: ys := by
    have := keys_erase k (t.put k v)
    rw [keys_put_of_notMem h, List.erase_append_right _ h, hkeys] at this
    simpa [keys] using this
  have hxs : prev ∉ xs := by
    have hnodup := t.keys_nodup
    rw [hkeys] at hnodup
    intro hin
    exact List.disjoint_of_nodup_append hnodup hin List.mem_cons_self
  simp only [moveToBehind, hlookup, hprev, dif_pos, keys]
  exact keys_insertBehind herase hxs

end AList
