import ZgChoir.KeyedTotals

/-!
# A table kept in key order

A table whose values carry their own key and which is iterated in
increasing key order.  The order is a field of the structure, so a table
that is out of order, or holds two values under one key, cannot be built.

`put` replaces the value under the same key, as a hash table does; `remove`
forgets a key.  Everything is stated through membership in `entries` and
through `get?`, so that a client never looks at how `put` splits the list.
-/

/-- A table of `α`, in strictly increasing order of `key`. -/
structure OrderedTable {α κ : Type*} [LinearOrder κ] (key : α → κ) where
  entries : List α
  sorted : entries.Pairwise fun a b => key a < key b

namespace OrderedTable

variable {α κ : Type*} [LinearOrder κ] {key : α → κ}

/-- The table with nothing in it. -/
def empty : OrderedTable key := ⟨[], List.Pairwise.nil⟩

/-- The value under `k`, if there is one. -/
def get? (t : OrderedTable key) (k : κ) : Option α :=
  t.entries.find? fun a => decide (key a = k)

/-- Whether some value is held under `k`. -/
def containsKey (t : OrderedTable key) (k : κ) : Bool :=
  (t.get? k).isSome

/-- The number of values held. -/
def size (t : OrderedTable key) : Nat := t.entries.length

/-- The value with the smallest key. -/
def first? (t : OrderedTable key) : Option α := t.entries.head?

/-- The value with the largest key. -/
def last? (t : OrderedTable key) : Option α := t.entries.getLast?

/-- Put `a` at its place in the order, replacing any value under its key. -/
def put (t : OrderedTable key) (a : α) : OrderedTable key where
  entries := t.entries.filter (fun b => decide (key b < key a)) ++
    a :: t.entries.filter (fun b => decide (key a < key b))
  sorted := by
    refine List.pairwise_append.mpr ⟨t.sorted.filter _, ?_, ?_⟩
    · refine List.pairwise_cons.mpr ⟨?_, t.sorted.filter _⟩
      intro b hb
      exact of_decide_eq_true (List.mem_filter.mp hb).2
    · intro b hb c hc
      have hba : key b < key a := of_decide_eq_true (List.mem_filter.mp hb).2
      rcases List.mem_cons.mp hc with rfl | hc
      · exact hba
      · exact hba.trans (of_decide_eq_true (List.mem_filter.mp hc).2)

/-- Forget the value under `k`. -/
def remove (t : OrderedTable key) (k : κ) : OrderedTable key where
  entries := t.entries.filter (fun b => decide (key b ≠ k))
  sorted := t.sorted.filter _

variable {t : OrderedTable key} {a b : α} {k : κ}

@[simp] theorem entries_empty : (empty : OrderedTable key).entries = [] := rfl

/-- Two tables with the same values are the same table: the order leaves no
freedom. -/
theorem ext_mem {u : OrderedTable key}
    (h : ∀ a, a ∈ t.entries ↔ a ∈ u.entries) : t = u := by
  obtain ⟨xs, hx⟩ := t
  obtain ⟨ys, hy⟩ := u
  have hnodup : ∀ {zs : List α}, zs.Pairwise (fun a b => key a < key b) →
      zs.Nodup := fun hz => hz.imp fun hlt heq => by
    rw [heq] at hlt
    exact lt_irrefl _ hlt
  have hperm : xs.Perm ys :=
    (List.perm_ext_iff_of_nodup (hnodup hx) (hnodup hy)).mpr h
  have : xs = ys := hperm.eq_of_pairwise
    (fun _ _ _ _ h₁ h₂ => absurd (h₁.trans h₂) (lt_irrefl _)) hx hy
  subst this
  rfl

/-- A key names at most one value. -/
theorem eq_of_key_eq (ha : a ∈ t.entries) (hb : b ∈ t.entries)
    (h : key a = key b) : a = b := by
  have hsame : t.entries.Pairwise fun a b => key a = key b → a = b :=
    t.sorted.imp fun hlt heq => absurd heq (ne_of_lt hlt)
  have hflip : t.entries.Pairwise (flip fun a b => key a = key b → a = b) :=
    t.sorted.imp fun hlt heq => absurd heq.symm (ne_of_lt hlt)
  exact hsame.forall_of_forall_of_flip (fun _ _ _ => rfl) hflip ha hb h

/-- Looking up a key finds exactly the value held under it. -/
theorem get?_eq_some : t.get? k = some a ↔ a ∈ t.entries ∧ key a = k := by
  constructor
  · intro h
    exact ⟨List.mem_of_find?_eq_some h,
      of_decide_eq_true (List.find?_some (p := fun a => decide (key a = k)) h)⟩
  · rintro ⟨ha, rfl⟩
    cases hfind : t.get? (key a) with
    | none =>
        have := List.find?_eq_none.mp hfind a ha
        simp at this
    | some b =>
        have hb := List.mem_of_find?_eq_some hfind
        have hkey : key b = key a := by simpa using List.find?_some hfind
        rw [eq_of_key_eq hb ha hkey]

theorem get?_eq_none : t.get? k = none ↔ ∀ a ∈ t.entries, key a ≠ k := by
  simp [get?]

theorem containsKey_iff :
    t.containsKey k = true ↔ ∃ a ∈ t.entries, key a = k := by
  simp [containsKey, get?]

theorem containsKey_eq_false :
    t.containsKey k = false ↔ ∀ a ∈ t.entries, key a ≠ k := by
  simp [containsKey, get?]

/-- After `put a` the table holds `a` and what was held under other keys. -/
theorem mem_put :
    b ∈ (t.put a).entries ↔ b = a ∨ b ∈ t.entries ∧ key b ≠ key a := by
  simp only [put, List.mem_append, List.mem_cons, List.mem_filter,
    decide_eq_true_eq, ne_iff_lt_or_gt]
  tauto

/-- After `remove k` the table holds what was held under other keys. -/
theorem mem_remove :
    b ∈ (t.remove k).entries ↔ b ∈ t.entries ∧ key b ≠ k := by
  simp [remove, List.mem_filter]

/-- Removing a key that is not held changes nothing. -/
theorem remove_of_get?_eq_none (h : t.get? k = none) : t.remove k = t := by
  have hfree := get?_eq_none.mp h
  exact ext_mem fun a => mem_remove.trans
    ⟨fun ha => ha.1, fun ha => ⟨ha, hfree a ha⟩⟩

theorem remove_eq_self : t.remove k = t ↔ t.containsKey k = false := by
  constructor
  · intro h
    rw [containsKey_eq_false]
    intro a ha
    rw [← h] at ha
    exact (mem_remove.mp ha).2
  · intro h
    exact remove_of_get?_eq_none
      (get?_eq_none.mpr (containsKey_eq_false.mp h))

theorem get?_put_self : (t.put a).get? (key a) = some a :=
  get?_eq_some.mpr ⟨mem_put.mpr (.inl rfl), rfl⟩

theorem get?_put_of_ne (h : key a ≠ k) : (t.put a).get? k = t.get? k := by
  ext b
  rw [get?_eq_some, get?_eq_some, mem_put]
  constructor
  · rintro ⟨rfl | ⟨hb, -⟩, hkey⟩
    · exact absurd hkey h
    · exact ⟨hb, hkey⟩
  · rintro ⟨hb, rfl⟩
    exact ⟨.inr ⟨hb, fun hsame => h hsame.symm⟩, rfl⟩

theorem containsKey_put :
    (t.put a).containsKey k = true ↔ key a = k ∨ t.containsKey k = true := by
  simp only [containsKey_iff, mem_put]
  constructor
  · rintro ⟨b, rfl | ⟨hb, -⟩, rfl⟩
    · exact .inl rfl
    · exact .inr ⟨b, hb, rfl⟩
  · rintro (rfl | ⟨b, hb, rfl⟩)
    · exact ⟨a, .inl rfl, rfl⟩
    · by_cases h : key b = key a
      · exact ⟨a, .inl rfl, h.symm⟩
      · exact ⟨b, .inr ⟨hb, h⟩, rfl⟩

/-- Removing the key just put removes whatever was held under it. -/
theorem remove_put_self (h : key a = k) : (t.put a).remove k = t.remove k := by
  refine ext_mem fun b => ?_
  simp only [mem_remove, mem_put, h]
  constructor
  · rintro ⟨rfl | ⟨hb, -⟩, hne⟩
    · exact absurd h hne
    · exact ⟨hb, hne⟩
  · rintro ⟨hb, hne⟩
    exact ⟨.inr ⟨hb, hne⟩, hne⟩

/-- Putting twice under one key keeps the second value. -/
theorem put_put (h : key b = key a) : (t.put a).put b = t.put b := by
  refine ext_mem fun c => ?_
  simp only [mem_put, h]
  constructor
  · rintro (rfl | ⟨rfl | ⟨hc, -⟩, hne⟩)
    · exact .inl rfl
    · exact absurd rfl hne
    · exact .inr ⟨hc, hne⟩
  · rintro (rfl | ⟨hc, hne⟩)
    · exact .inl rfl
    · exact .inr ⟨.inr ⟨hc, hne⟩, hne⟩

/-! ## The two ends of the table -/

theorem first?_eq_none : t.first? = none ↔ t.entries = [] := by
  simp [first?]

/-- The first value is held, and no key is smaller than its key. -/
theorem first?_eq_some (h : t.first? = some a) :
    a ∈ t.entries ∧ ∀ b ∈ t.entries, key a ≤ key b := by
  obtain ⟨xs, hx⟩ := t
  cases xs with
  | nil => simp [first?] at h
  | cons x xs =>
      obtain rfl : x = a := by simpa [first?] using h
      refine ⟨List.mem_cons_self, fun b hb => ?_⟩
      rcases List.mem_cons.mp hb with rfl | hb
      · exact le_rfl
      · exact ((List.pairwise_cons.mp hx).1 b hb).le

/-! ## Totals

A client may keep the sum of a weight over all values in a variable of its
own.  Removing a key takes the weight of its value away; putting a value does
that too, for the one it replaces. -/

section Totals

variable {M G : Type*} [AddCommMonoid M] [AddCommGroup G] {w : α → M}

/-- The sum of the weights of all values. -/
def total (w : α → M) (t : OrderedTable key) : M :=
  (t.entries.map w).sum

/-- The weight of the value under `k`, if there is one. -/
def weightAt (w : α → M) (t : OrderedTable key) (k : κ) : M :=
  match t.get? k with
  | some a => w a
  | none => 0

@[simp] theorem total_empty : (empty : OrderedTable key).total w = 0 := rfl

theorem total_eq_remove_add : t.total w = (t.remove k).total w +
    t.weightAt w k := by
  have hdistinct : (t.entries.map key).Nodup :=
    List.pairwise_map.mpr (t.sorted.imp fun hlt => ne_of_lt hlt)
  have hfound : ∀ a, t.get? k = some a ↔ a ∈ t.entries ∧ key a = k :=
    fun a => get?_eq_some
  have hsum := KeyedList.sum_eq_filter_add (w := w) hdistinct hfound
  rw [total, hsum, weightAt]
  cases t.get? k <;> rfl

theorem total_put_eq_remove_add :
    (t.put a).total w = (t.remove (key a)).total w + w a := by
  rw [total_eq_remove_add (k := key a), remove_put_self rfl, weightAt,
    get?_put_self]

theorem total_remove {w : α → G} :
    (t.remove k).total w = t.total w - t.weightAt w k :=
  eq_sub_of_add_eq total_eq_remove_add.symm

theorem total_put {w : α → G} :
    (t.put a).total w = t.total w - t.weightAt w (key a) + w a := by
  rw [total_put_eq_remove_add, total_remove]

end Totals

/-! ## Tables without gaps

With natural numbers for keys, a table may hold every key from its first one
up to some `n`.  It is enough to say that each key below `n` is followed by
the next one. -/

section GapFree

variable {key : α → ℕ} {t : OrderedTable key} {n : ℕ} {a : α}

/-- Every key of the table below `n` is followed by the next key. -/
def GapFreeUpTo (t : OrderedTable key) (n : ℕ) : Prop :=
  ∀ a ∈ t.entries, key a < n → t.containsKey (key a + 1) = true

instance : Decidable (GapFreeUpTo t n) :=
  inferInstanceAs (Decidable (∀ a ∈ t.entries, _ → _))

/-- A table without gaps holds every key from any of its keys up to `n`. -/
theorem GapFreeUpTo.exists_key (h : GapFreeUpTo t n) (ha : a ∈ t.entries)
    {k : ℕ} (hfrom : key a ≤ k) (hto : k ≤ n) :
    ∃ b ∈ t.entries, key b = k := by
  obtain ⟨d, rfl⟩ : ∃ d, k = key a + d := ⟨k - key a, by omega⟩
  induction d with
  | zero => exact ⟨a, ha, rfl⟩
  | succ d ih =>
      obtain ⟨b, hb, hkey⟩ := ih (by omega) (by omega)
      have hnext := h b hb (by omega)
      rw [hkey] at hnext
      exact containsKey_iff.mp hnext

theorem gapFreeUpTo_empty : GapFreeUpTo (empty : OrderedTable key) n :=
  fun _ h => by cases h

/-- Putting a value that is followed by the next key, or that is not below
`n`, makes no gap. -/
theorem GapFreeUpTo.put (h : GapFreeUpTo t n)
    (ha : n ≤ key a ∨ t.containsKey (key a + 1) = true) :
    GapFreeUpTo (t.put a) n := by
  intro b hb hlt
  rw [containsKey_put]
  right
  rcases mem_put.mp hb with rfl | ⟨hb, -⟩
  · rcases ha with hge | hnext
    · omega
    · exact hnext
  · exact h b hb hlt

/-- Putting a value below `n` that is not followed by the next key makes a
gap. -/
theorem not_gapFreeUpTo_put
    (ha : key a < n ∧ t.containsKey (key a + 1) = false) :
    ¬ GapFreeUpTo (t.put a) n := by
  intro h
  rcases containsKey_put.mp (h a (mem_put.mpr (.inl rfl)) ha.1) with heq | hnext
  · omega
  · simp [ha.2] at hnext

/-- Forgetting a key makes no gap below `n` if the key before it, when that
is below `n`, is not held. -/
theorem GapFreeUpTo.remove {k : ℕ} (h : GapFreeUpTo t n)
    (hk : ∀ b ∈ t.entries, key b < n → key b ≠ k → key b + 1 ≠ k) :
    GapFreeUpTo (t.remove k) n := by
  intro b hb hlt
  obtain ⟨hb, hne⟩ := mem_remove.mp hb
  obtain ⟨c, hc, hkey⟩ := containsKey_iff.mp (h b hb hlt)
  refine containsKey_iff.mpr ⟨c, mem_remove.mpr ⟨hc, ?_⟩, hkey⟩
  rw [hkey]
  exact hk b hb hlt hne

/-- Forgetting the first key makes no gap. -/
theorem GapFreeUpTo.remove_first (h : GapFreeUpTo t n)
    (hfirst : t.first? = some a) : GapFreeUpTo (t.remove (key a)) n := by
  refine h.remove fun b hb _ _ => ?_
  have := (first?_eq_some hfirst).2 b hb
  omega

/-- With the key `n + 1` held, a table without gaps up to `n` has none up to
`n + 1`. -/
theorem GapFreeUpTo.succ (h : GapFreeUpTo t n)
    (hnext : t.containsKey (n + 1) = true) : GapFreeUpTo t (n + 1) := by
  intro b hb hlt
  rcases Nat.lt_succ_iff_lt_or_eq.mp hlt with hlt | heq
  · exact h b hb hlt
  · rw [heq]
    exact hnext

end GapFree

end OrderedTable
