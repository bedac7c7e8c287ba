import Mathlib

/-!
# A total kept over a finite map

Every entry of a finite map has a weight, and the map has the sum of the
weights as its total.  A client that keeps the total in a variable has to
patch it whenever the map changes at one key: the old weight goes and the new
one comes (`total_of_agree_off`).
-/

namespace Finmap

variable {κ α G : Type*} [DecidableEq κ] [AddCommGroup G]
variable {w : κ → α → G} {m : Finmap fun _ : κ => α} {k : κ} {v : α}

/-- The sum of the weights of the entries. -/
def total (w : κ → α → G) (m : Finmap fun _ : κ => α) : G :=
  (m.entries.map fun e => w e.1 e.2).sum

/-- The weight of the entry under `k`, if there is one. -/
def weightAt (w : κ → α → G) (m : Finmap fun _ : κ => α) (k : κ) : G :=
  match m.lookup k with
  | some v => w k v
  | none => 0

theorem total_insert_of_notMem (h : k ∉ m) :
    total w (m.insert k v) = w k v + total w m := by
  simp [total, entries_insert_of_notMem h]

/-- Putting an entry back where it is taken from changes nothing. -/
theorem insert_erase_of_lookup (h : m.lookup k = some v) :
    (m.erase k).insert k v = m := by
  apply ext_lookup
  intro k'
  by_cases hk : k' = k
  · subst hk
    rw [lookup_insert, h]
  · rw [lookup_insert_of_ne _ hk, lookup_erase_ne hk]

/-- An entry that is erased takes its weight away. -/
theorem total_eq_erase_add : total w m = total w (m.erase k) + weightAt w m k := by
  cases hk : m.lookup k with
  | none =>
      have herase : m.erase k = m := by
        apply ext_lookup
        intro k'
        by_cases hk' : k' = k
        · subst hk'
          rw [lookup_erase, hk]
        · rw [lookup_erase_ne hk']
      simp [weightAt, hk, herase]
  | some v =>
      have hback := total_insert_of_notMem (w := w) (v := v)
        (notMem_erase_self (a := k) (s := m))
      rw [insert_erase_of_lookup hk] at hback
      rw [hback, weightAt, hk]
      exact add_comm _ _

/-- Two maps that differ at one key at most differ in total by what they have
there. -/
theorem total_of_agree_off {m' : Finmap fun _ : κ => α}
    (h : ∀ k', k' ≠ k → m'.lookup k' = m.lookup k') :
    total w m' = total w m - weightAt w m k + weightAt w m' k := by
  have herase : m'.erase k = m.erase k := by
    apply ext_lookup
    intro k'
    by_cases hk : k' = k
    · subst hk
      rw [lookup_erase, lookup_erase]
    · rw [lookup_erase_ne hk, lookup_erase_ne hk, h k' hk]
  have hm : total w m = total w (m.erase k) + weightAt w m k :=
    total_eq_erase_add
  have hm' : total w m' = total w (m'.erase k) + weightAt w m' k :=
    total_eq_erase_add
  rw [hm', herase, hm, add_sub_cancel_right]

/-- A total to which one entry at most contributes. -/
theorem total_eq_weightAt
    (hzero : ∀ k' v', m.lookup k' = some v' → k' ≠ k → w k' v' = 0) :
    total w m = weightAt w m k := by
  have hrest : total w (m.erase k) = 0 := by
    refine Multiset.sum_eq_zero fun x hx => ?_
    obtain ⟨e, he, rfl⟩ := Multiset.mem_map.mp hx
    have hlookup : (m.erase k).lookup e.1 = some e.2 := mem_lookup_iff.mpr he
    have hne : e.1 ≠ k := by
      rintro heq
      rw [heq, lookup_erase] at hlookup
      cases hlookup
    rw [lookup_erase_ne hne] at hlookup
    exact hzero e.1 e.2 hlookup hne
  rw [total_eq_erase_add (k := k), hrest, zero_add]

/-- The total as a sum over the keys. -/
theorem total_eq_sum : total w m = ∑ k ∈ m.keys, weightAt w m k := by
  have hweight : ∀ e ∈ m.entries, w e.1 e.2 = weightAt w m e.1 := by
    intro e he
    have hlookup : m.lookup e.1 = some e.2 := mem_lookup_iff.mpr he
    rw [weightAt, hlookup]
  have hkeys : m.keys.val = m.entries.map Sigma.fst := rfl
  rw [total, Multiset.map_congr rfl hweight, Finset.sum, hkeys,
    Multiset.map_map]
  rfl

/-- Where there is no entry there is no weight. -/
theorem weightAt_of_notMem_keys (h : k ∉ m.keys) : weightAt w m k = 0 := by
  have hnone : m.lookup k = none :=
    lookup_eq_none.mpr fun hmem => h (mem_keys.mpr hmem)
  rw [weightAt, hnone]

/-- The total is what the keys weigh. -/
theorem total_congr {m' : Finmap fun _ : κ => α}
    (h : ∀ k, weightAt w m k = weightAt w m' k) : total w m = total w m' := by
  rw [total_eq_sum, total_eq_sum]
  have hm : ∑ k ∈ m.keys, weightAt w m k =
      ∑ k ∈ m.keys ∪ m'.keys, weightAt w m k :=
    Finset.sum_subset Finset.subset_union_left
      fun k _ hk => weightAt_of_notMem_keys hk
  have hm' : ∑ k ∈ m'.keys, weightAt w m' k =
      ∑ k ∈ m.keys ∪ m'.keys, weightAt w m' k :=
    Finset.sum_subset Finset.subset_union_right
      fun k _ hk => weightAt_of_notMem_keys hk
  rw [hm, hm']
  exact Finset.sum_congr rfl fun k _ => h k

end Finmap
