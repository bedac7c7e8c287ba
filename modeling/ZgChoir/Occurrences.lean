import Mathlib

/-!
# Where things are in a list

A loop may count its way through a list, and speak of an element by its
position; what the loop makes does not depend on the positions where they
follow from the elements (`map_zipIdx_congr`).  A list that grows, or loses an
element, keeps the positions of the others up to a shift.

`eraseDups` keeps the first occurrences of a list, in their order.  It is what
comes of a table that its keys are put into one after another
(`eraseDups_concat`).
-/

namespace Occurrences

variable {α β : Type*}

/-! ### Positions -/

section Positions

variable {xs : List α} {a b : α} {i : ℕ}

/-- A value of a list with one more is one of the list's or the last. -/
theorem getElem?_concat (h : (xs ++ [a])[i]? = some b) :
    xs[i]? = some b ∨ i = xs.length ∧ b = a := by
  rw [List.getElem?_append] at h
  split at h
  · exact .inl h
  · rw [List.getElem?_singleton] at h
    grind

/-- A loop that counts is one that does not, where the count follows from the
element. -/
theorem map_zipIdx_congr {f : α × ℕ → β} {g : α → β}
    (h : ∀ i x, xs[i]? = some x → f (x, i) = g x) :
    xs.zipIdx.map f = xs.map g := by
  apply List.ext_getElem?
  intro i
  rw [List.getElem?_map, List.getElem?_map, List.getElem?_zipIdx]
  cases hx : xs[i]? with
  | none => rfl
  | some x => simp [h i x hx]

theorem filterMap_zipIdx_congr {f : α × ℕ → Option β} {g : α → Option β}
    (h : ∀ i x, xs[i]? = some x → f (x, i) = g x) :
    xs.zipIdx.filterMap f = xs.filterMap g := by
  have hmap := congrArg (List.filterMap id) (map_zipIdx_congr h)
  rw [List.filterMap_map, List.filterMap_map] at hmap
  exact hmap

/-- The positions behind one that goes move up. -/
theorem idxOf_filter_ne [DecidableEq α] (hnodup : xs.Nodup) (ha : a ∈ xs)
    (hne : b ≠ a) :
    (xs.filter fun x => decide (x ≠ a)).idxOf b =
      if xs.idxOf a < xs.idxOf b then xs.idxOf b - 1 else xs.idxOf b := by
  induction xs with
  | nil => cases ha
  | cons x xs ih =>
      obtain ⟨hx, hnodup⟩ := List.nodup_cons.mp hnodup
      by_cases hxa : x = a
      · subst hxa
        have hall : xs.filter (fun y => decide (y ≠ x)) = xs := by
          rw [List.filter_eq_self]
          intro y hy
          simpa using ne_of_mem_of_not_mem hy hx
        rw [List.filter_cons_of_neg (by simp), hall, List.idxOf_cons_self,
          List.idxOf_cons_ne xs hne.symm]
        simp
      · rw [List.filter_cons_of_pos (by simpa using hxa),
          List.idxOf_cons_ne xs hxa]
        by_cases hxb : x = b
        · subst hxb
          simp
        · have hrest := ih hnodup ((List.mem_cons.mp ha).resolve_left
            (Ne.symm hxa))
          rw [List.idxOf_cons_ne _ hxb, List.idxOf_cons_ne _ hxb, hrest]
          split <;> split <;> omega

end Positions

/-! ### First occurrences -/

section First

variable [DecidableEq α] {xs : List α} {a : α}

theorem eraseDups_concat :
    (xs ++ [a]).eraseDups =
      if a ∈ xs then xs.eraseDups else xs.eraseDups ++ [a] := by
  rw [List.eraseDups_append]
  by_cases h : a ∈ xs <;> simp [List.removeAll, h, List.eraseDups_cons]

theorem nodup_eraseDups : xs.eraseDups.Nodup := by
  induction xs using List.reverseRecOn with
  | nil => exact List.nodup_nil
  | append_singleton xs a ih =>
      rw [eraseDups_concat]
      by_cases ha : a ∈ xs
      · rwa [if_pos ha]
      · rw [if_neg ha]
        refine List.nodup_append'.mpr ⟨ih, List.nodup_singleton a, ?_⟩
        exact List.disjoint_singleton.mpr fun hin =>
          ha (List.mem_eraseDups.mp hin)

/-- A search finds what it finds first. -/
theorem findSome?_eraseDups {f : α → Option β} :
    xs.eraseDups.findSome? f = xs.findSome? f := by
  induction xs using List.reverseRecOn with
  | nil => rfl
  | append_singleton xs a ih =>
      rw [eraseDups_concat, List.findSome?_append]
      by_cases ha : a ∈ xs
      · rw [if_pos ha, ih]
        cases hfound : xs.findSome? f with
        | some b => rfl
        | none => simp [List.findSome?_eq_none_iff.mp hfound a ha]
      · rw [if_neg ha, List.findSome?_append, ih]

/-- Where each element stands for copies of itself, those with any remain. -/
theorem eraseDups_flatMap {f : α → List α} (hf : ∀ a, ∀ b ∈ f a, b = a)
    (hnodup : xs.Nodup) :
    (xs.flatMap f).eraseDups = xs.filter fun a => !(f a).isEmpty := by
  induction xs using List.reverseRecOn with
  | nil => rfl
  | append_singleton xs a ih =>
      have hxs : xs.Nodup := (List.nodup_append'.mp hnodup).1
      have hnew : a ∉ xs := fun ha =>
        (List.nodup_append'.mp hnodup).2.2 ha List.mem_cons_self
      have hrest : (f a).removeAll (xs.flatMap f) = f a := by
        refine List.filter_eq_self.mpr fun b hb => ?_
        obtain rfl := hf a b hb
        have hold : b ∉ xs.flatMap f := by
          intro hold
          obtain ⟨b', hb', hmem⟩ := List.mem_flatMap.mp hold
          exact hnew (hf b' b hmem ▸ hb')
        simpa using hold
      have hlast : (f a).eraseDups = [a].filter fun a => !(f a).isEmpty := by
        have hall := hf a
        cases hfa : f a with
        | nil => simp [hfa]
        | cons b rest =>
            rw [hfa] at hall
            obtain ⟨rfl, hrest⟩ := List.forall_mem_cons.mp hall
            have hsame : rest.filter (fun b' => !(b' == b)) = [] :=
              List.filter_eq_nil_iff.mpr fun b' hb' => by simp [hrest b' hb']
            simp [List.eraseDups_cons, hsame, hfa]
      rw [List.flatMap_append, List.eraseDups_append, ih hxs,
        List.flatMap_singleton, hrest, hlast, List.filter_append]

end First

end Occurrences
