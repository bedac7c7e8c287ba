import Mathlib

/-!
# The last items of a list that grows

A bounded memory keeps the last `n` of what comes in: an item is appended, and
what is too old is dropped from the front.  What is kept is `l.rtake n`, where
`l` is all that has ever come in.
-/

namespace Windows

variable {α : Type*} {l l' : List α} {a : α} {n : ℕ}

theorem length_rtake_le : (l.rtake n).length ≤ n := by
  rw [List.rtake, List.length_drop]
  omega

theorem rtake_suffix : l.rtake n <:+ l := List.drop_suffix _ _

theorem rtake_of_length_le (h : l.length ≤ n) : l.rtake n = l := by
  rw [List.rtake, Nat.sub_eq_zero_of_le h, List.drop_zero]

/-- Of the last ones, the last ones. -/
theorem rtake_rtake {m : ℕ} (h : m ≤ n) : (l.rtake n).rtake m = l.rtake m := by
  simp only [List.rtake, List.drop_drop, List.length_drop]
  congr 1
  omega

/-- A full memory drops its oldest item for a new one. -/
theorem rtake_append_singleton (h : 0 < n) :
    (l ++ [a]).rtake n = (l.rtake n).rtake (n - 1) ++ [a] := by
  obtain ⟨k, rfl⟩ : ∃ k, n = k + 1 := ⟨n - 1, by omega⟩
  rw [List.rtake_concat_succ, Nat.add_sub_cancel, rtake_rtake (by omega)]

/-- **What is kept** follows from what was kept before, and what has come
in. -/
theorem rtake_rtake_append :
    (l.rtake n ++ l').rtake n = (l ++ l').rtake n := by
  simp only [List.rtake, List.length_append, List.length_drop,
    List.drop_append, List.drop_drop]
  congr 2 <;> omega

/-- What has come in since is in the way of nothing that is still kept. -/
theorem mem_rtake_append (h : l'.length < n) :
    a ∈ (l ++ a :: l').rtake n := by
  have hlen : (l ++ a :: l').length - n ≤ l.length := by
    rw [List.length_append, List.length_cons]
    omega
  rw [List.rtake, List.drop_append_of_le_length hlen]
  exact List.mem_append_right _ List.mem_cons_self

/-- Where the last ones are all different, they are the last different
ones. -/
theorem rtake_dedup [DecidableEq α] (h : (l.rtake n).Nodup) :
    l.dedup.rtake n = l.rtake n := by
  by_cases hfew : l.length ≤ n
  · rw [rtake_of_length_le hfew] at h ⊢
    rw [h.dedup, rtake_of_length_le hfew]
  · have hlen : (l.rtake n).length = n := by
      rw [List.rtake, List.length_drop]
      omega
    have hsplit : l.dedup = l.take (l.length - n) ∪ l.rtake n := by
      conv_lhs => rw [← List.take_append_drop (l.length - n) l]
      rw [List.dedup_append]
      exact congrArg _ h.dedup
    have hsuffix : l.rtake n <:+ l.dedup :=
      hsplit ▸ List.suffix_union_right _ _
    have hdrop := List.suffix_iff_eq_drop.mp hsuffix
    rw [hlen] at hdrop
    exact hdrop.symm

end Windows
