import ZgChoir.DatabaseUpdate
import ZgChoir.MapTotals

/-!
# The tree of nodes, and how it changes

MUSCLE keeps a tree of `DataNode`s in memory.  A node has a payload (a
message), children, and an index: a list of some of its children's names, in
an order of their own.  A path is the list of its clauses, from the node of
the session down; a path that is written with a slash at its end has an
empty last clause.

The tree is a finite map from paths to nodes.  Every node but the top one has
a parent, and that is a field of the structure.  Whatever happens to a tree
is a sequence of `TreeChange`s, each of which applies in its turn: a node is
created below its parent, it is removed when nothing is below it and nothing
names it in an index, and so on.
-/

namespace ZgChoir

/-- A path, relative to the node of the session. -/
abbrev NodePath := List String

/-- What a node holds besides its children. -/
structure DataNode (P : Type) where
  payload : P
  index : List String
  deriving DecidableEq

/-- A tree of nodes: every node but the top one has a parent. -/
structure MessageTree (P : Type) where
  nodes : Finmap fun _ : NodePath => DataNode P
  closed : ∀ p ∈ nodes, p ≠ [] → p.dropLast ∈ nodes

/-- One change of a tree. -/
inductive TreeChange (P : Type) where
  /-- the node gets this payload; it is created if it is not there -/
  | payloadSet (path : NodePath) (payload : P)
  | removed (path : NodePath)
  | indexInserted (path : NodePath) (index : ℕ) (key : String)
  | indexRemoved (path : NodePath) (index : ℕ) (key : String)

variable {P : Type} {t : MessageTree P} {p q : NodePath}

/-- The node that a change is about. -/
def TreeChange.path : TreeChange P → NodePath
  | .payloadSet path _ => path
  | .removed path => path
  | .indexInserted path _ _ => path
  | .indexRemoved path _ _ => path

namespace MessageTree

/-- The node at `p`. -/
def lookup (t : MessageTree P) (p : NodePath) : Option (DataNode P) :=
  t.nodes.lookup p

/-- The names in the index of the node at `p`. -/
def indexOf (t : MessageTree P) (p : NodePath) : List String :=
  match t.lookup p with
  | some node => node.index
  | none => []

/-- The nodes above `p` that are not there, top down. -/
def missingParents (t : MessageTree P) (p : NodePath) : List NodePath :=
  ((List.range p.length).map (p.take ·)).filter
    fun q => decide (q ∉ t.nodes)

@[ext] theorem ext_lookup {u : MessageTree P}
    (h : ∀ p, t.lookup p = u.lookup p) : t = u := by
  obtain ⟨nodes, hclosed⟩ := t
  obtain ⟨nodes', hclosed'⟩ := u
  obtain rfl : nodes = nodes' := Finmap.ext_lookup h
  rfl

theorem mem_nodes_iff : p ∈ t.nodes ↔ ∃ node, t.lookup p = some node :=
  Finmap.mem_iff

/-- Whatever leads to a node is in the tree. -/
theorem mem_of_isPrefix (h : p ∈ t.nodes) (hq : q <+: p) : q ∈ t.nodes := by
  obtain ⟨below, rfl⟩ := hq
  induction below using List.reverseRecOn with
  | nil => simpa using h
  | append_singleton below name ih =>
      refine ih ?_
      have hparent := t.closed _ h (by simp)
      simpa [← List.append_assoc] using hparent

end MessageTree

/-- When a change can happen to a tree. -/
def TreeChange.AppliesTo (t : MessageTree P) : TreeChange P → Prop
  | .payloadSet path _ => path ∈ t.nodes ∨ path = [] ∨ path.dropLast ∈ t.nodes
  | .removed path => path ∈ t.nodes ∧ t.indexOf path = [] ∧
      (∀ q ∈ t.nodes.keys, q ≠ [] → q.dropLast ≠ path) ∧
      ∀ name ∈ path.getLast?, name ∉ t.indexOf path.dropLast
  | .indexInserted path index key => path ++ [key] ∈ t.nodes ∧
      index ≤ (t.indexOf path).length
  | .indexRemoved path index key => (t.indexOf path)[index]? = some key

instance (t : MessageTree P) : DecidablePred (TreeChange.AppliesTo t)
  | .payloadSet path _ => inferInstanceAs
      (Decidable (path ∈ t.nodes ∨ path = [] ∨ path.dropLast ∈ t.nodes))
  | .removed path => inferInstanceAs
      (Decidable (path ∈ t.nodes ∧ t.indexOf path = [] ∧
        (∀ q ∈ t.nodes.keys, q ≠ [] → q.dropLast ≠ path) ∧
        ∀ name ∈ path.getLast?, name ∉ t.indexOf path.dropLast))
  | .indexInserted path index key => inferInstanceAs
      (Decidable (path ++ [key] ∈ t.nodes ∧
        index ≤ (t.indexOf path).length))
  | .indexRemoved path index key => inferInstanceAs
      (Decidable ((t.indexOf path)[index]? = some key))

namespace MessageTree

/-- `t` with `node` at `p`, where there is a node already or may be one. -/
def put (t : MessageTree P) (p : NodePath) (node : DataNode P)
    (h : p ∈ t.nodes ∨ p = [] ∨ p.dropLast ∈ t.nodes) : MessageTree P where
  nodes := t.nodes.insert p node
  closed := by
    intro q hq hne
    rw [Finmap.mem_insert] at hq ⊢
    by_cases hqp : q = p
    · subst hqp
      rcases h with hmem | rfl | hparent
      · exact Or.inr (t.closed _ hmem hne)
      · exact absurd rfl hne
      · exact Or.inr hparent
    · exact Or.inr (t.closed _ (hq.resolve_left hqp) hne)

theorem lookup_put {node : DataNode P}
    {h : p ∈ t.nodes ∨ p = [] ∨ p.dropLast ∈ t.nodes} :
    (t.put p node h).lookup q = if q = p then some node else t.lookup q := by
  by_cases hq : q = p
  · subst hq
    simp [put, lookup]
  · simp [put, lookup, hq]

/-- `t` without the node at `p`, which has no children. -/
def cut (t : MessageTree P) (p : NodePath)
    (h : ∀ q ∈ t.nodes.keys, q ≠ [] → q.dropLast ≠ p) : MessageTree P where
  nodes := t.nodes.erase p
  closed := by
    intro q hq hne
    rw [Finmap.mem_erase] at hq ⊢
    exact ⟨h q (Finmap.mem_keys.mpr hq.2) hne, t.closed q hq.2 hne⟩

/-- `t` with another index at `p`, if there is a node. -/
def withIndex (t : MessageTree P) (p : NodePath)
    (change : List String → List String) : MessageTree P :=
  match h : t.lookup p with
  | some node => t.put p { node with index := change node.index }
      (Or.inl (mem_nodes_iff.mpr ⟨node, h⟩))
  | none => t

end MessageTree

/-- The tree after a change.  A change that does not apply changes nothing. -/
def TreeChange.applyTo (t : MessageTree P) (c : TreeChange P) :
    MessageTree P :=
  match c with
  | .payloadSet path payload =>
      if h : TreeChange.AppliesTo t (.payloadSet path payload) then
        t.put path { payload, index := t.indexOf path } h
      else t
  | .removed path =>
      if h : TreeChange.AppliesTo t (.removed path) then t.cut path h.2.2.1
      else t
  | .indexInserted path index key =>
      if TreeChange.AppliesTo t (.indexInserted path index key) then
        t.withIndex path (·.insertIdx index key)
      else t
  | .indexRemoved path index key =>
      if TreeChange.AppliesTo t (.indexRemoved path index key) then
        t.withIndex path (·.eraseIdx index)
      else t

/-- The tree after a sequence of changes. -/
def TreeChange.applyAll (t : MessageTree P) (cs : List (TreeChange P)) :
    MessageTree P :=
  cs.foldl TreeChange.applyTo t

/-- Each change of a sequence applies in its turn. -/
def TreeChange.Valid (t : MessageTree P) : List (TreeChange P) → Prop
  | [] => True
  | c :: cs => c.AppliesTo t ∧ Valid (c.applyTo t) cs

instance TreeChange.decidableValid (t : MessageTree P) :
    DecidablePred (TreeChange.Valid t)
  | [] => inferInstanceAs (Decidable True)
  | c :: cs =>
      have := TreeChange.decidableValid (c.applyTo t) cs
      inferInstanceAs (Decidable (_ ∧ _))

namespace TreeChange

variable {cs cs' : List (TreeChange P)}

@[simp] theorem applyAll_nil : applyAll t [] = t := rfl

@[simp] theorem applyAll_cons {c : TreeChange P} :
    applyAll t (c :: cs) = applyAll (c.applyTo t) cs := rfl

theorem applyAll_append :
    applyAll t (cs ++ cs') = applyAll (applyAll t cs) cs' :=
  List.foldl_append

theorem valid_append :
    Valid t (cs ++ cs') ↔ Valid t cs ∧ Valid (applyAll t cs) cs' := by
  induction cs generalizing t with
  | nil => simp [Valid]
  | cons c cs ih => simp [Valid, ih, and_assoc]

/-! ### What a change does, node by node -/

theorem lookup_payloadSet {payload : P}
    (h : AppliesTo t (.payloadSet p payload)) :
    ((payloadSet p payload).applyTo t).lookup q =
      if q = p then some { payload, index := t.indexOf p } else t.lookup q := by
  rw [applyTo, dif_pos h]
  exact MessageTree.lookup_put

theorem lookup_removed (h : AppliesTo t (.removed p)) :
    ((removed p).applyTo t).lookup q =
      if q = p then none else t.lookup q := by
  rw [applyTo, dif_pos h]
  by_cases hq : q = p
  · subst hq
    simp [MessageTree.cut, MessageTree.lookup]
  · simp [MessageTree.cut, MessageTree.lookup, hq]

theorem lookup_withIndex {change : List String → List String} :
    (t.withIndex p change).lookup q =
      if q = p then
        (t.lookup p).map fun node => { node with index := change node.index }
      else t.lookup q := by
  unfold MessageTree.withIndex
  split
  · rename_i node hnode
    simp [MessageTree.lookup_put, hnode]
  · rename_i hnone
    by_cases hq : q = p
    · subst hq
      simp [hnone]
    · simp [hq]

theorem lookup_indexInserted {index : ℕ} {key : String}
    (h : AppliesTo t (.indexInserted p index key)) :
    ((indexInserted p index key).applyTo t).lookup q =
      if q = p then (t.lookup p).map fun node =>
        { node with index := node.index.insertIdx index key }
      else t.lookup q := by
  rw [applyTo, if_pos h, lookup_withIndex]

theorem lookup_indexRemoved {index : ℕ} {key : String}
    (h : AppliesTo t (.indexRemoved p index key)) :
    ((indexRemoved p index key).applyTo t).lookup q =
      if q = p then (t.lookup p).map fun node =>
        { node with index := node.index.eraseIdx index }
      else t.lookup q := by
  rw [applyTo, if_pos h, lookup_withIndex]

/-- A change changes one node only. -/
theorem lookup_applyTo_of_ne {c : TreeChange P} (h : c.AppliesTo t)
    (hq : q ≠ c.path) : (c.applyTo t).lookup q = t.lookup q := by
  cases c with
  | payloadSet path payload => exact (lookup_payloadSet h).trans (if_neg hq)
  | removed path => exact (lookup_removed h).trans (if_neg hq)
  | indexInserted path index key => exact (lookup_indexInserted h).trans (if_neg hq)
  | indexRemoved path index key => exact (lookup_indexRemoved h).trans (if_neg hq)

/-- What a change makes of the node that it is about. -/
def nodeAfter : TreeChange P → Option (DataNode P) → Option (DataNode P)
  | .payloadSet _ payload, node =>
      some { payload, index := (node.map (·.index)).getD [] }
  | .removed _, _ => none
  | .indexInserted _ index key, node => node.map fun node =>
      { node with index := node.index.insertIdx index key }
  | .indexRemoved _ index _, node => node.map fun node =>
      { node with index := node.index.eraseIdx index }

theorem lookup_applyTo {c : TreeChange P} (h : c.AppliesTo t) :
    (c.applyTo t).lookup q =
      if q = c.path then c.nodeAfter (t.lookup q) else t.lookup q := by
  by_cases hq : q = c.path
  · subst hq
    rw [if_pos rfl]
    cases c with
    | payloadSet path payload =>
        have hindex : t.indexOf path =
            ((t.lookup path).map (·.index)).getD [] := by
          unfold MessageTree.indexOf
          cases t.lookup path <;> rfl
        rw [lookup_payloadSet h]
        exact (if_pos rfl).trans (by rw [hindex]; rfl)
    | removed path => exact (lookup_removed h).trans (if_pos rfl)
    | indexInserted path index key =>
        exact (lookup_indexInserted h).trans (if_pos rfl)
    | indexRemoved path index key =>
        exact (lookup_indexRemoved h).trans (if_pos rfl)
  · rw [if_neg hq, lookup_applyTo_of_ne h hq]

/-- **A node after many changes.**  Only the changes that are about the node
itself count. -/
theorem lookup_applyAll (h : Valid t cs) :
    (applyAll t cs).lookup q =
      (cs.filter (·.path = q)).foldl (fun node c => c.nodeAfter node)
        (t.lookup q) := by
  induction cs generalizing t with
  | nil => rfl
  | cons c cs ih =>
      rw [applyAll_cons, ih h.2, lookup_applyTo h.1, List.filter_cons]
      by_cases hq : q = c.path
      · simp [hq]
      · simp [hq, Ne.symm hq]

end TreeChange

end ZgChoir
