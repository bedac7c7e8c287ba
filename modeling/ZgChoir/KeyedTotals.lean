import Mathlib

/-!
# The total of a list with keys

The elements of a list have keys, no two the same, and weights.  Without the
element under a key the list weighs as much less as that element weighs, if
there is one (`sum_eq_filter_add`).  A table that is such a list has its total
from that, whatever order it keeps.
-/

namespace KeyedList

variable {α κ M : Type*} [DecidableEq κ] {key : α → κ} {as : List α} {a : α}
  {k : κ}

/-- An element may as well stand in front. -/
theorem perm_cons_filter (hdistinct : (as.map key).Nodup) (ha : a ∈ as) :
    as.Perm (a :: as.filter fun b => decide (key b ≠ key a)) := by
  obtain ⟨before, after, rfl⟩ := List.append_of_mem ha
  have hkeys : (key a :: (before ++ after).map key).Nodup := by
    have hfront : (before ++ a :: after).Perm (a :: (before ++ after)) :=
      List.perm_middle
    exact (hfront.map key).nodup_iff.mp hdistinct
  have hothers : ∀ b ∈ before ++ after, key b ≠ key a := by
    intro b hb heq
    exact (List.nodup_cons.mp hkeys).1 (heq ▸ List.mem_map_of_mem hb)
  have hfilter : (before ++ a :: after).filter
      (fun b => decide (key b ≠ key a)) = before ++ after := by
    rw [List.filter_append, List.filter_cons_of_neg (by simp),
      ← List.filter_append, List.filter_eq_self]
    exact fun b hb => decide_eq_true (hothers b hb)
  rw [hfilter]
  exact List.perm_middle

/-- **What is under a key** makes up the rest of the total. -/
theorem sum_eq_filter_add [AddCommMonoid M] {w : α → M}
    (hdistinct : (as.map key).Nodup) {found : Option α}
    (hfound : ∀ a, found = some a ↔ a ∈ as ∧ key a = k) :
    (as.map w).sum = ((as.filter fun b => decide (key b ≠ k)).map w).sum +
      (found.map w).getD 0 := by
  cases found with
  | none =>
      have hfree : ∀ a ∈ as, key a ≠ k := fun a ha hk =>
        nomatch (hfound a).mpr ⟨ha, hk⟩
      rw [List.filter_eq_self.mpr fun a ha => decide_eq_true (hfree a ha)]
      exact (add_zero _).symm
  | some a =>
      obtain ⟨ha, rfl⟩ := (hfound a).mp rfl
      rw [((perm_cons_filter hdistinct ha).map w).sum_eq, List.map_cons,
        List.sum_cons]
      exact add_comm _ _

end KeyedList
