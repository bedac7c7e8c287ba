import ZgChoir.TreeReplication

/-!
# Changes taken back

The callbacks record for every change the change that takes it back.  Carried
out afterwards, it restores the tree, if the indices of the tree name children
of their nodes and nothing else.  No change breaks that rule.
-/

namespace ZgChoir

variable {P : Type} {t : MessageTree P} {c : TreeChange P}
  {cs : List (TreeChange P)} {path : NodePath} {index : ℕ} {key : String}

/-- Every name in an index is the name of a child. -/
def MessageTree.Indexed (t : MessageTree P) : Prop :=
  ∀ p, ∀ name ∈ t.indexOf p, p ++ [name] ∈ t.nodes

namespace TreeChange

/-! ### Indices -/

theorem indexOf_applyTo_of_ne (h : c.AppliesTo t) {p : NodePath}
    (hp : p ≠ c.path) : (c.applyTo t).indexOf p = t.indexOf p := by
  unfold MessageTree.indexOf
  rw [lookup_applyTo_of_ne h hp]

theorem indexOf_payloadSet {payload : P}
    (h : AppliesTo t (.payloadSet path payload)) (p : NodePath) :
    ((payloadSet path payload).applyTo t).indexOf p = t.indexOf p := by
  by_cases hp : p = path
  · subst hp
    rw [MessageTree.indexOf, lookup_payloadSet h, if_pos rfl]
  · exact indexOf_applyTo_of_ne h hp

theorem indexOf_removed (h : AppliesTo t (.removed path)) (p : NodePath) :
    ((removed path).applyTo t).indexOf p = t.indexOf p := by
  by_cases hp : p = path
  · subst hp
    rw [MessageTree.indexOf, lookup_removed h, if_pos rfl]
    exact h.2.1.symm
  · exact indexOf_applyTo_of_ne h hp

theorem indexOf_indexInserted
    (h : AppliesTo t (.indexInserted path index key)) :
    ((indexInserted path index key).applyTo t).indexOf path =
      (t.indexOf path).insertIdx index key := by
  obtain ⟨node, hnode⟩ := MessageTree.mem_nodes_iff.mp
    (t.mem_of_isPrefix h.1 (List.prefix_append path [key]))
  rw [MessageTree.indexOf, lookup_indexInserted h, if_pos rfl, hnode,
    MessageTree.indexOf, hnode]
  rfl

/-- Where an entry is, there is a node. -/
theorem mem_of_indexRemoved (h : AppliesTo t (.indexRemoved path index key)) :
    path ∈ t.nodes := by
  by_contra habsent
  have hkey : (t.indexOf path)[index]? = some key := h
  have hnone : t.lookup path = none := Finmap.lookup_eq_none.mpr habsent
  rw [MessageTree.indexOf, hnone] at hkey
  simp at hkey

theorem indexOf_indexRemoved
    (h : AppliesTo t (.indexRemoved path index key)) :
    ((indexRemoved path index key).applyTo t).indexOf path =
      (t.indexOf path).eraseIdx index := by
  obtain ⟨node, hnode⟩ :=
    MessageTree.mem_nodes_iff.mp (mem_of_indexRemoved h)
  rw [MessageTree.indexOf, lookup_indexRemoved h, if_pos rfl, hnode,
    MessageTree.indexOf, hnode]
  rfl

/-- A node is there after a change if it was there, unless it is removed. -/
theorem mem_applyTo (h : c.AppliesTo t) {p : NodePath} (hp : p ∈ t.nodes)
    (hc : c ≠ .removed p) : p ∈ (c.applyTo t).nodes := by
  obtain ⟨node, hnode⟩ := MessageTree.mem_nodes_iff.mp hp
  rw [MessageTree.mem_nodes_iff, lookup_applyTo h, hnode]
  by_cases hpath : p = c.path
  · subst hpath
    cases c with
    | removed path => exact absurd rfl hc
    | payloadSet path payload => exact ⟨_, if_pos rfl⟩
    | indexInserted path index key => exact ⟨_, if_pos rfl⟩
    | indexRemoved path index key => exact ⟨_, if_pos rfl⟩
  · exact ⟨node, if_neg hpath⟩

/-- **No change** leaves a name in an index that is not a child's. -/
theorem indexed_applyTo (ht : t.Indexed) (h : c.AppliesTo t) :
    (c.applyTo t).Indexed := by
  intro p name hname
  cases c with
  | payloadSet path payload =>
      rw [indexOf_payloadSet h] at hname
      exact mem_applyTo h (ht p name hname) (by simp)
  | removed path =>
      rw [indexOf_removed h] at hname
      refine mem_applyTo h (ht p name hname) fun heq => ?_
      obtain rfl : path = p ++ [name] := removed.inj heq
      refine h.2.2.2 name (by simp) ?_
      rwa [List.dropLast_concat]
  | indexInserted path index key =>
      refine mem_applyTo h ?_ (by simp)
      by_cases hp : p = path
      · subst hp
        rw [indexOf_indexInserted h, List.mem_insertIdx h.2] at hname
        rcases hname with rfl | hname
        · exact h.1
        · exact ht p name hname
      · rw [indexOf_applyTo_of_ne h hp] at hname
        exact ht p name hname
  | indexRemoved path index key =>
      refine mem_applyTo h ?_ (by simp)
      by_cases hp : p = path
      · subst hp
        rw [indexOf_indexRemoved h] at hname
        exact ht p name (List.mem_of_mem_eraseIdx hname)
      · rw [indexOf_applyTo_of_ne h hp] at hname
        exact ht p name hname

theorem indexed_applyAll (ht : t.Indexed) (h : Valid t cs) :
    (applyAll t cs).Indexed := by
  induction cs generalizing t with
  | nil => exact ht
  | cons c cs ih => exact ih (indexed_applyTo ht h.1) h.2

/-! ### One change -/

theorem inverse_path (c : TreeChange P) (t : MessageTree P) :
    (c.inverse t).path = c.path := by
  cases c with
  | payloadSet path payload =>
      cases hnode : t.lookup path <;> simp [inverse, hnode, TreeChange.path]
  | removed path =>
      cases hnode : t.lookup path <;> simp [inverse, hnode, TreeChange.path]
  | indexInserted path index key => rfl
  | indexRemoved path index key => rfl

/-- What takes a change back applies after it. -/
theorem inverse_appliesTo (ht : t.Indexed) (h : c.AppliesTo t) :
    (c.inverse t).AppliesTo (c.applyTo t) := by
  cases c with
  | payloadSet path payload =>
      have hthere : path ∈ ((payloadSet path payload).applyTo t).nodes := by
        rw [MessageTree.mem_nodes_iff, lookup_payloadSet h, if_pos rfl]
        exact ⟨_, rfl⟩
      cases hnode : t.lookup path with
      | some node =>
          simp only [inverse, hnode]
          exact .inl hthere
      | none =>
          have habsent : path ∉ t.nodes := Finmap.lookup_eq_none.mp hnode
          simp only [inverse, hnode]
          refine ⟨hthere, ?_, fun q hq hne hparent => ?_, ?_⟩
          · rw [indexOf_payloadSet h, MessageTree.indexOf, hnode]
          · have hq : q ∈ ((payloadSet path payload).applyTo t).nodes :=
              Finmap.mem_keys.mp hq
            rw [MessageTree.mem_nodes_iff, lookup_payloadSet h] at hq
            obtain ⟨node, hq⟩ := hq
            by_cases hpath : q = path
            · have hlength := congrArg List.length (hparent.trans hpath.symm)
              rw [List.length_dropLast] at hlength
              have := List.length_pos_iff.mpr hne
              omega
            · rw [if_neg hpath] at hq
              have hmem : q ∈ t.nodes := MessageTree.mem_nodes_iff.mpr ⟨_, hq⟩
              exact habsent (hparent ▸ t.closed q hmem hne)
          · intro name hname hlisted
            rw [indexOf_payloadSet h] at hlisted
            have hchild := ht path.dropLast name hlisted
            obtain ⟨parent, rfl⟩ := List.getLast?_eq_some_iff.mp hname
            rw [List.dropLast_concat] at hchild
            exact habsent hchild
  | removed path =>
      obtain ⟨node, hnode⟩ := MessageTree.mem_nodes_iff.mp h.1
      simp only [inverse, hnode]
      by_cases hempty : path = []
      · exact .inr (.inl hempty)
      · refine .inr (.inr (mem_applyTo h (t.closed path h.1 hempty) ?_))
        intro heq
        have hlength := congrArg List.length (removed.inj heq)
        rw [List.length_dropLast] at hlength
        have := List.length_pos_iff.mpr hempty
        omega
  | indexInserted path index key =>
      change (((indexInserted path index key).applyTo t).indexOf path)[index]?
        = some key
      rw [indexOf_indexInserted h, List.getElem?_insertIdx_self]
      exact if_pos h.2
  | indexRemoved path index key =>
      have hkey : (t.indexOf path)[index]? = some key := h
      refine ⟨mem_applyTo h (ht path key (List.mem_of_getElem? hkey)) (by simp),
        ?_⟩
      obtain ⟨hlt, -⟩ := List.getElem?_eq_some_iff.mp hkey
      rw [indexOf_indexRemoved h, List.length_eraseIdx_of_lt hlt]
      omega

/-- **One change taken back.** -/
theorem inverse_applyTo (ht : t.Indexed) (h : c.AppliesTo t) :
    (c.inverse t).applyTo (c.applyTo t) = t := by
  have hback := inverse_appliesTo ht h
  refine MessageTree.ext_lookup fun q => ?_
  by_cases hq : q = c.path
  · subst hq
    rw [lookup_applyTo hback, if_pos (inverse_path c t).symm, lookup_applyTo h,
      if_pos rfl]
    cases c with
    | payloadSet path payload =>
        cases hnode : t.lookup path <;>
          simp [inverse, hnode, nodeAfter, TreeChange.path]
    | removed path =>
        obtain ⟨node, hnode⟩ := MessageTree.mem_nodes_iff.mp h.1
        have hempty : node.index = [] := by
          have hindex := h.2.1
          rwa [MessageTree.indexOf, hnode] at hindex
        simp [inverse, hnode, nodeAfter, TreeChange.path, ← hempty]
    | indexInserted path index key =>
        cases hnode : t.lookup path <;>
          simp [inverse, hnode, nodeAfter, TreeChange.path,
            List.eraseIdx_insertIdx_self]
    | indexRemoved path index key =>
        have hkey : (t.indexOf path)[index]? = some key := h
        obtain ⟨node, hnode⟩ :=
          MessageTree.mem_nodes_iff.mp (mem_of_indexRemoved h)
        have hkey : node.index[index]? = some key := by
          rwa [MessageTree.indexOf, hnode] at hkey
        obtain ⟨hlt, rfl⟩ := List.getElem?_eq_some_iff.mp hkey
        simp [inverse, hnode, nodeAfter, TreeChange.path,
          List.insertIdx_eraseIdx_self (Nat.ne_of_lt hlt)]
  · rw [lookup_applyTo_of_ne hback (by rwa [inverse_path]),
      lookup_applyTo_of_ne h hq]

end TreeChange

end ZgChoir
