import ZgChoir.DatabaseIsolation
import ZgChoir.UndoStack

/-!
# The nodes of the undo stacks

A client's stack is a node, its index, and the payloads of the nodes in the
index.  `StackAt` says what is on a stack; the lemmas below it say what becomes
of that when MUSCLE sets a payload, adds a node at the end of an index or
removes one, and that whatever happens elsewhere leaves the stack alone.
-/

namespace ZgChoir

variable {P : Type} {t t' t'' : MessageTree P} {node path : NodePath}
  {name : String} {payload : P}

/-! ## Ways in which a tree changes -/

/-- A node has got a payload. -/
structure SetAt (t t' : MessageTree P) (path : NodePath) (payload : P) :
    Prop where
  here : t'.lookup path = some { payload, index := t.indexOf path }
  elsewhere : ∀ q, q ≠ path → t'.lookup q = t.lookup q

/-- A node has got a new child, at the end of its index. -/
structure AddedAt (t t' : MessageTree P) (node : NodePath) (name : String)
    (payload : P) : Prop where
  absent : node ++ [name] ∉ t.nodes
  child : t'.lookup (node ++ [name]) = some { payload, index := [] }
  here : t'.lookup node =
    (t.lookup node).map fun dn => { dn with index := dn.index ++ [name] }
  elsewhere : ∀ q, q ≠ node → q ≠ node ++ [name] → t'.lookup q = t.lookup q

/-- A child of a node is gone, with everything below it and its entry in the
node's index. -/
structure RemovedAt (t t' : MessageTree P) (node : NodePath)
    (name : String) : Prop where
  below : ∀ q, node ++ [name] <+: q → t'.lookup q = none
  here : t'.lookup node = (t.lookup node).map fun dn =>
    { dn with index := dn.index.filter (· ≠ name) }
  elsewhere : ∀ q, q ≠ node → ¬ node ++ [name] <+: q →
    t'.lookup q = t.lookup q

theorem MessageTree.indexOf_eq_of_lookup_eq {p p' : NodePath}
    (h : t'.lookup p' = t.lookup p) : t'.indexOf p' = t.indexOf p := by
  unfold MessageTree.indexOf
  rw [h]

theorem MessageTree.mem_nodes_of_lookup_eq {p : NodePath}
    (h : t'.lookup p = t.lookup p) : p ∈ t'.nodes ↔ p ∈ t.nodes := by
  rw [mem_nodes_iff, mem_nodes_iff, h]

theorem MessageTree.lookup_eq_none {p : NodePath} :
    t.lookup p = none ↔ p ∉ t.nodes :=
  Finmap.lookup_eq_none

theorem SetAt.indexOf_eq (h : SetAt t t' path payload) (q : NodePath) :
    t'.indexOf q = t.indexOf q := by
  by_cases hq : q = path
  · subst hq
    rw [MessageTree.indexOf, h.here]
  · exact MessageTree.indexOf_eq_of_lookup_eq (h.elsewhere q hq)

theorem AddedAt.indexOf_here (h : AddedAt t t' node name payload)
    (hmem : node ∈ t.nodes) : t'.indexOf node = t.indexOf node ++ [name] := by
  obtain ⟨dn, hdn⟩ := MessageTree.mem_nodes_iff.mp hmem
  unfold MessageTree.indexOf
  rw [h.here, hdn]
  rfl

theorem RemovedAt.indexOf_here (h : RemovedAt t t' node name) :
    t'.indexOf node = (t.indexOf node).filter (· ≠ name) := by
  unfold MessageTree.indexOf
  rw [h.here]
  cases t.lookup node with
  | none => rfl
  | some dn => rfl

/-! ## Stacks -/

/-- What is on the stack at a node: the names of the sequences and their
payloads, from the bottom to the top. -/
structure StackAt (t : MessageTree P) (node : NodePath)
    (entries : List (String × P)) : Prop where
  index : t.indexOf node = entries.map (·.1)
  nodup : (entries.map (·.1)).Nodup
  payload : ∀ e ∈ entries, ∃ dn, t.lookup (node ++ [e.1]) = some dn ∧
    dn.payload = e.2

section StackAt

variable {entries : List (String × P)} {entry : String × P}

theorem StackAt.congr (h : StackAt t node entries)
    (hnode : t'.lookup node = t.lookup node)
    (hbelow : ∀ name, t'.lookup (node ++ [name]) =
      t.lookup (node ++ [name])) : StackAt t' node entries where
  index := (MessageTree.indexOf_eq_of_lookup_eq hnode).trans h.index
  nodup := h.nodup
  payload e he := by
    rw [hbelow e.1]
    exact h.payload e he

/-- Where there is no node there is nothing on the stack. -/
theorem stackAt_nil (h : t.lookup node = none) : StackAt t node [] where
  index := by
    rw [MessageTree.indexOf, h]
    rfl
  nodup := List.nodup_nil
  payload _ he := absurd he List.not_mem_nil

/-- A stack tells what is on it. -/
theorem StackAt.unique (h : StackAt t node entries)
    {entries' : List (String × P)} (h' : StackAt t node entries') :
    entries = entries' := by
  have hnames : entries.map (·.1) = entries'.map (·.1) :=
    h.index.symm.trans h'.index
  refine List.ext_getElem (by simpa using congrArg List.length hnames)
    fun i hi hi' => ?_
  have hname : entries[i].1 = entries'[i].1 := by
    have hget := congrArg (·[i]?) hnames
    simpa [hi, hi'] using hget
  obtain ⟨dn, hdn, hpayload⟩ := h.payload _ (List.getElem_mem hi)
  obtain ⟨dn', hdn', hpayload'⟩ := h'.payload _ (List.getElem_mem hi')
  rw [hname, hdn'] at hdn
  obtain rfl := Option.some.inj hdn
  exact Prod.ext hname (hpayload.symm.trans hpayload')

/-- The node of a sequence is there. -/
theorem StackAt.mem_child (h : StackAt t node entries)
    (he : entry ∈ entries) : node ++ [entry.1] ∈ t.nodes := by
  obtain ⟨dn, hdn, -⟩ := h.payload entry he
  exact MessageTree.mem_nodes_iff.mpr ⟨dn, hdn⟩

theorem StackAt.mem_node (h : StackAt t node entries)
    (he : entry ∈ entries) : node ∈ t.nodes :=
  MessageTree.mem_of_isPrefix (h.mem_child he) (List.prefix_append _ _)

/-- The payload of the client's node is set. -/
theorem StackAt.setNode (h : StackAt t node entries)
    (hset : SetAt t t' node payload) : StackAt t' node entries where
  index := (hset.indexOf_eq node).trans h.index
  nodup := h.nodup
  payload e he := by
    rw [hset.elsewhere _ (by simp)]
    exact h.payload e he

/-- The payload of the sequence on top is set. -/
theorem StackAt.setTop (h : StackAt t node (entries ++ [entry]))
    (hset : SetAt t t' (node ++ [entry.1]) payload) :
    StackAt t' node (entries ++ [(entry.1, payload)]) where
  index := by
    rw [hset.indexOf_eq node, h.index]
    simp
  nodup := by simpa using h.nodup
  payload e he := by
    rcases List.mem_append.mp he with he | he
    · have hne : e.1 ≠ entry.1 := by
        have hnodup := h.nodup
        rw [List.map_append, List.nodup_append] at hnodup
        exact hnodup.2.2 e.1 (List.mem_map_of_mem he) entry.1 (by simp)
      rw [hset.elsewhere _ (by simpa using hne)]
      exact h.payload e (List.mem_append_left _ he)
    · obtain rfl := List.mem_singleton.mp he
      exact ⟨_, hset.here, rfl⟩

/-- A sequence goes to the top. -/
theorem StackAt.push (h : StackAt t node entries) (hmem : node ∈ t.nodes)
    (hadd : AddedAt t t' node name payload) :
    StackAt t' node (entries ++ [(name, payload)]) where
  index := by
    rw [hadd.indexOf_here hmem, h.index]
    simp
  nodup := by
    rw [List.map_append, List.nodup_append]
    refine ⟨h.nodup, List.nodup_singleton _, fun x hx y hy => ?_⟩
    obtain rfl := List.mem_singleton.mp hy
    obtain ⟨e, he, rfl⟩ := List.mem_map.mp hx
    rintro hsame
    exact hadd.absent (hsame ▸ h.mem_child he)
  payload e he := by
    rcases List.mem_append.mp he with he | he
    · have hne : node ++ [e.1] ≠ node ++ [name] := fun hsame =>
        hadd.absent (hsame ▸ h.mem_child he)
      rw [hadd.elsewhere _ (by simp) hne]
      exact h.payload e he
    · obtain rfl := List.mem_singleton.mp he
      exact ⟨_, hadd.child, rfl⟩

/-- A sequence goes, wherever it was on the stack. -/
theorem StackAt.remove {entries' : List (String × P)}
    (h : StackAt t node (entries ++ entry :: entries'))
    (hremove : RemovedAt t t' node entry.1) :
    StackAt t' node (entries ++ entries') := by
  have hnodup := h.nodup
  rw [List.map_append, List.map_cons, List.nodup_middle,
    List.nodup_cons] at hnodup
  have hne : ∀ e ∈ entries ++ entries', e.1 ≠ entry.1 := by
    intro e he hsame
    refine hnodup.1 (hsame ▸ ?_)
    rw [← List.map_append]
    exact List.mem_map_of_mem he
  refine ⟨?_, ?_, fun e he => ?_⟩
  · rw [hremove.indexOf_here, h.index, List.map_append, List.map_cons,
      List.filter_append, List.filter_cons_of_neg (by simp),
      ← List.filter_append, ← List.map_append, List.filter_eq_self]
    intro x hx
    obtain ⟨e, he, rfl⟩ := List.mem_map.mp hx
    simpa using hne e he
  · rw [List.map_append]
    exact hnodup.2
  · have hapart : ¬ node ++ [entry.1] <+: node ++ [e.1] := by
      simpa using Ne.symm (hne e he)
    rw [hremove.elsewhere _ (by simp) hapart]
    refine h.payload e ?_
    rcases List.mem_append.mp he with he | he
    · exact List.mem_append_left _ he
    · exact List.mem_append_right _ (List.mem_cons_of_mem _ he)

end StackAt

end ZgChoir
