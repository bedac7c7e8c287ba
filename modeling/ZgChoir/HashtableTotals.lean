import ZgChoir.Hashtable
import ZgChoir.KeyedTotals

/-!
# A total kept over a table

Every entry of a table has a weight, and the sum of the weights is the total
of the table.  The order of the entries does not matter to it: a key that is
put or removed takes the weight it had with it.
-/

namespace Hashtable

variable {κ ν M G : Type*} [DecidableEq κ] [AddCommMonoid M] [AddCommGroup G]
variable {w : κ → ν → M} {t : Hashtable κ ν} {k : κ} {v : ν}

omit [DecidableEq κ] in
/-- The sum of the weights of the entries. -/
def total (w : κ → ν → M) (t : Hashtable κ ν) : M :=
  (t.entries.map fun e => w e.1 e.2).sum

/-- The weight of the entry under `k`, if there is one. -/
def weightAt (w : κ → ν → M) (t : Hashtable κ ν) (k : κ) : M :=
  match t.get? k with
  | some v => w k v
  | none => 0

theorem total_eq_remove_add : t.total w = (t.remove k).total w +
    t.weightAt w k := by
  have hfound : ∀ e, (t.get? k).map (Prod.mk k) = some e ↔
      e ∈ t.entries ∧ e.1 = k := by
    intro e
    rw [Option.map_eq_some_iff]
    constructor
    · rintro ⟨v, hget, rfl⟩
      exact ⟨get?_eq_some_iff.mp hget, rfl⟩
    · rintro ⟨he, rfl⟩
      exact ⟨e.2, get?_eq_some_iff.mpr he, rfl⟩
  have hsum := KeyedList.sum_eq_filter_add (w := fun e => w e.1 e.2)
    t.distinct hfound
  rw [total, hsum, weightAt]
  cases t.get? k <;> rfl

theorem total_put_eq_remove_add :
    (t.put k v).total w = (t.remove k).total w + w k v := by
  rw [total_eq_remove_add (k := k), remove_put, weightAt, get?_put_self]

theorem total_remove {w : κ → ν → G} :
    (t.remove k).total w = t.total w - t.weightAt w k :=
  eq_sub_of_add_eq total_eq_remove_add.symm

theorem total_put {w : κ → ν → G} :
    (t.put k v).total w = t.total w - t.weightAt w k + w k v := by
  rw [total_put_eq_remove_add, total_remove]

end Hashtable
