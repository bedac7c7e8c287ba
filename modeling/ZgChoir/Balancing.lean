import Mathlib

/-!
# Moving units from the heaviest to the lightest

Workers carry loads, and one unit at a time moves from a worker to one that
has at least two units less.  The sum of the squares of the loads goes down
with every move, so that there is an end to it; and when the heaviest worker
has no two units more than the lightest, no two workers are further apart
than one.
-/

namespace Balancing

variable {W : Type*} [DecidableEq W] {ws : List W} {load : W → ℕ}
  {heavy light : W}

omit [DecidableEq W] in
/-- The sum of the squares of the loads. -/
def sumOfSquares (ws : List W) (load : W → ℕ) : ℕ :=
  (ws.map fun w => load w ^ 2).sum

/-- The loads once a unit has moved. -/
def moveUnit (load : W → ℕ) (heavy light : W) : W → ℕ :=
  Function.update (Function.update load heavy (load heavy - 1)) light
    (load light + 1)

theorem sumOfSquares_eq_sum (hnodup : ws.Nodup) :
    sumOfSquares ws load = ∑ w ∈ ws.toFinset, load w ^ 2 :=
  (List.sum_toFinset _ hnodup).symm

/-- A move between loads that are two apart makes the squares smaller. -/
theorem sumOfSquares_moveUnit_lt (hnodup : ws.Nodup) (hheavy : heavy ∈ ws)
    (hlight : light ∈ ws) (happart : load light + 2 ≤ load heavy) :
    sumOfSquares ws (moveUnit load heavy light) < sumOfSquares ws load := by
  have hne : light ≠ heavy := by
    rintro rfl
    omega
  have hrest : ∀ f : W → ℕ, sumOfSquares ws f = f heavy ^ 2 +
      (f light ^ 2 +
        ∑ w ∈ (ws.toFinset.erase heavy).erase light, f w ^ 2) := by
    intro f
    have hmem : light ∈ ws.toFinset.erase heavy :=
      Finset.mem_erase.mpr ⟨hne, List.mem_toFinset.mpr hlight⟩
    rw [sumOfSquares_eq_sum hnodup,
      Finset.add_sum_erase _ (fun w => f w ^ 2) hmem,
      Finset.add_sum_erase _ (fun w => f w ^ 2)
        (List.mem_toFinset.mpr hheavy)]
  have hsame : ∑ w ∈ (ws.toFinset.erase heavy).erase light,
      moveUnit load heavy light w ^ 2 =
      ∑ w ∈ (ws.toFinset.erase heavy).erase light, load w ^ 2 := by
    apply Finset.sum_congr rfl
    intro w hw
    obtain ⟨hwl, hw⟩ := Finset.mem_erase.mp hw
    obtain ⟨hwh, -⟩ := Finset.mem_erase.mp hw
    simp [moveUnit, hwl, hwh]
  have hheavyLoad : moveUnit load heavy light heavy = load heavy - 1 := by
    simp [moveUnit, Ne.symm hne]
  have hlightLoad : moveUnit load heavy light light = load light + 1 := by
    simp [moveUnit]
  rw [hrest, hrest, hsame, hheavyLoad, hlightLoad]
  obtain ⟨d, hd⟩ := Nat.exists_eq_add_of_le happart
  rw [hd, show load light + 2 + d - 1 = load light + 1 + d by omega]
  nlinarith [sq_nonneg d]

omit [DecidableEq W] in
/-- Loads that are bounded have bounded squares. -/
theorem sumOfSquares_le {n : ℕ} (h : ∀ w ∈ ws, load w ≤ n) :
    sumOfSquares ws load ≤ ws.length * n ^ 2 := by
  have hle : ∀ x ∈ ws.map fun w => load w ^ 2, x ≤ n ^ 2 := by
    intro x hx
    obtain ⟨w, hw, rfl⟩ := List.mem_map.mp hx
    exact Nat.pow_le_pow_left (h w hw) 2
  have hsum := List.sum_le_card_nsmul _ _ hle
  simpa [sumOfSquares] using hsum

end Balancing
