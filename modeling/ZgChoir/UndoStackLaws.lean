import ZgChoir.UndoStackNodes

/-!
# What the undo stacks ask of MUSCLE

The laws are about messages and their fields, and about nodes that are named by
a plain path.  From them it follows what becomes of the tree when a client's
node is created on demand, and when a sequence is pushed on a stack or popped
off it.
-/

namespace ZgChoir

variable {P : Type}

/-- **The laws of MUSCLE** that concern undo stacks. -/
structure UndoStackMuscle.Lawful (um : UndoStackMuscle P) : Prop where
  /-- what the base class asks for -/
  lawful : um.toMuscle.Lawful
  local_ : um.toMuscle.Local
  what_emptyMessage : um.what um.emptyMessage = 0
  what_setWhat : ∀ p what, um.what (um.setWhat p what) = what
  what_addInt64 : ∀ p field n, um.what (um.addInt64 p field n) = um.what p
  what_addString : ∀ p field s, um.what (um.addString p field s) = um.what p
  findInt64_emptyMessage : ∀ field, um.findInt64 um.emptyMessage field = none
  findInt64_setWhat : ∀ p what field,
    um.findInt64 (um.setWhat p what) field = um.findInt64 p field
  findInt64_addInt64 : ∀ p field n, um.findInt64 p field = none →
    um.findInt64 (um.addInt64 p field n) field = some n
  findInt64_addInt64_of_ne : ∀ p field n field', field' ≠ field →
    um.findInt64 (um.addInt64 p field n) field' = um.findInt64 p field'
  findInt64_addString : ∀ p field s field', field' ≠ field →
    um.findInt64 (um.addString p field s) field' = um.findInt64 p field'
  findInt64_removeName : ∀ p field field', field' ≠ field →
    um.findInt64 (um.removeName p field) field' = um.findInt64 p field'
  /-- The names of sequences make no patterns. -/
  single_sequence : ∀ path n, um.canMatchMultipleValues path = false →
    um.canMatchMultipleValues (path ++ ["I" ++ toString (n : ℕ)]) = false
  /-- A new indexed node goes to the end of its parent's index. -/
  setDataNode_indexed : ∀ (t : MessageTree P) {path name} (payload),
    Literal um.toMuscle (path ++ [name]) → path ∈ t.nodes →
    path ++ [name] ∉ t.nodes →
    let o := um.setDataNode t (path ++ [name]) payload
      { addToIndex := true } none
    o.status = .noError ∧ o.changes = [.payloadSet (path ++ [name]) payload,
      .indexInserted path (t.indexOf path).length name]
  /-- A plain path removes the node that it names, if that passes the filter,
  and nothing where there is none. -/
  removeDataNodes_plain : ∀ (t : MessageTree P) {path name} (filter),
    Literal um.toMuscle (path ++ [name]) →
    (∀ dn, filter (path ++ [name]) dn = true) →
    let o := um.removeDataNodes t (path ++ [name]) filter
    (path ++ [name] ∈ t.nodes →
      RemovedAt t (TreeChange.applyAll t o.changes) path name) ∧
    (path ++ [name] ∉ t.nodes → o.changes = [])
  removeChild : ∀ (t : MessageTree P) {path name}, path ++ [name] ∈ t.nodes →
    (um.removeChild t path name).status = .noError ∧
      RemovedAt t (TreeChange.applyAll t (um.removeChild t path name).changes)
        path name
  removeChild_absent : ∀ (t : MessageTree P) {path name},
    path ++ [name] ∉ t.nodes → (um.removeChild t path name).changes = []
  setData : ∀ (t : MessageTree P) {path} (payload), path ∈ t.nodes →
    (um.setData t path payload).changes = [.payloadSet path payload]
  mem_getChildIterator : ∀ (t : MessageTree P) path name,
    name ∈ um.getChildIterator t path ↔ path ++ [name] ∈ t.nodes

/-! ## The tree after an execution -/

namespace Execution

variable {t : MessageTree P}

@[simp] theorem nothing_tree {status : Status} :
    (nothing t status).tree = t := rfl

@[simp] theorem withStatus_tree {e : Execution t} {status : Status} :
    (e.withStatus status).tree = e.tree := rfl

@[simp] theorem withStatus_status {e : Execution t} {status : Status} :
    (e.withStatus status).status = status := rfl

@[simp] theorem ofOutcome_tree {o : Outcome t} {quiet interim : Bool}
    {opTag : String} : (ofOutcome o quiet interim opTag).tree =
      TreeChange.applyAll t o.changes := by
  simp [tree, ofOutcome, Function.comp_def]

/-- What holds of the tree whether there has been an error or not. -/
theorem andThen_tree_of {e : Execution t}
    {next : (t' : MessageTree P) → Execution t'} {I : MessageTree P → Prop}
    (h : I e.tree) (hnext : I (next e.tree).tree) :
    I (e.andThen next).tree := by
  unfold andThen
  split
  · rw [followedBy_tree]
    exact hnext
  · exact h

theorem andThen_tree_of_step {e : Execution t}
    {next : (t' : MessageTree P) → Execution t'} {I : MessageTree P → Prop}
    (h : I e.tree) (hnext : ∀ t', I t' → I (next t').tree) :
    I (e.andThen next).tree :=
  andThen_tree_of h (hnext _ h)

theorem andThen_tree_of_isOK {e : Execution t}
    {next : (t' : MessageTree P) → Execution t'} (h : e.status.isOK = true) :
    (e.andThen next).tree = (next e.tree).tree := by
  rw [andThen, if_pos h, followedBy_tree]

theorem andThen_status_of_isOK {e : Execution t}
    {next : (t' : MessageTree P) → Execution t'} (h : e.status.isOK = true) :
    (e.andThen next).status = (next e.tree).status := by
  rw [andThen, if_pos h]
  rfl

theorem andThen_of_not_isOK {e : Execution t}
    {next : (t' : MessageTree P) → Execution t'}
    (h : e.status.isOK = false) : e.andThen next = e := by
  rw [andThen, if_neg (by simp [h])]

end Execution

@[simp] theorem Status.noError_isOK : Status.noError.isOK = true := rfl

/-! ## What the methods do -/

section Methods

variable {um : UndoStackMuscle P} {t t' : MessageTree P}
  {node path : NodePath} {name : String} {payload : P} {opTag : String}

namespace UndoStackMuscle.Lawful

theorem setAt (hum : um.Lawful) (hmem : path ∈ t.nodes) (payload : P) :
    SetAt t (TreeChange.applyAll t (um.setData t path payload).changes) path
      payload := by
  have happlies : TreeChange.AppliesTo t (.payloadSet path payload) :=
    .inl hmem
  rw [hum.setData t payload hmem, TreeChange.applyAll_cons,
    TreeChange.applyAll_nil]
  refine ⟨?_, fun q hq => ?_⟩
  · rw [TreeChange.lookup_payloadSet happlies, if_pos rfl]
  · rw [TreeChange.lookup_payloadSet happlies, if_neg hq]

theorem missingParents_eq_nil {path : NodePath} (h : path ∈ t.nodes) :
    t.missingParents (path ++ [name]) = [] := by
  refine List.filter_eq_nil_iff.mpr fun q hq => ?_
  obtain ⟨k, hk, rfl⟩ := List.mem_map.mp hq
  have hk : k < (path ++ [name]).length := List.mem_range.mp hk
  have hprefix : (path ++ [name]).take k <+: path := by
    rw [List.length_append, List.length_singleton] at hk
    rw [List.take_append_of_le_length (by omega)]
    exact List.take_prefix k path
  simpa using t.mem_of_isPrefix h hprefix

/-- A node is created below one that is there. -/
theorem created (hum : um.Lawful) (hmem : path ∈ t.nodes)
    (hclauses : "" ∉ path ++ [name]) (payload : P) :
    (um.setDataNode t (path ++ [name]) payload {} none).status = .noError ∧
      SetAt t (TreeChange.applyAll t
        (um.setDataNode t (path ++ [name]) payload {} none).changes)
          (path ++ [name]) payload := by
  have hne : path ++ [name] ≠ [] := by simp
  obtain ⟨hstatus, hchanges⟩ := hum.lawful.setDataNode t payload hne hclauses
  have happlies : TreeChange.AppliesTo t
      (.payloadSet (path ++ [name]) payload) := by
    refine .inr (.inr ?_)
    rwa [List.dropLast_concat]
  refine ⟨hstatus, ?_⟩
  rw [hchanges, missingParents_eq_nil hmem, List.map_nil, List.nil_append,
    TreeChange.applyAll_cons, TreeChange.applyAll_nil]
  refine ⟨?_, fun q hq => ?_⟩
  · rw [TreeChange.lookup_payloadSet happlies, if_pos rfl]
  · rw [TreeChange.lookup_payloadSet happlies, if_neg hq]

/-- A node is added at the end of an index. -/
theorem addedAt (hum : um.Lawful)
    (hliteral : Literal um.toMuscle (path ++ [name])) (hmem : path ∈ t.nodes)
    (habsent : path ++ [name] ∉ t.nodes) (payload : P) :
    let o := um.setDataNode t (path ++ [name]) payload
      { addToIndex := true } none
    o.status = .noError ∧
      AddedAt t (TreeChange.applyAll t o.changes) path name payload := by
  obtain ⟨hstatus, hchanges⟩ :=
    hum.setDataNode_indexed t payload hliteral hmem habsent
  have happlies : TreeChange.AppliesTo t
      (.payloadSet (path ++ [name]) payload) := by
    refine .inr (.inr ?_)
    rwa [List.dropLast_concat]
  have hindex : t.indexOf (path ++ [name]) = [] := by
    rw [MessageTree.indexOf, MessageTree.lookup_eq_none.mpr habsent]
  have hset : ∀ q, ((TreeChange.payloadSet (path ++ [name])
      payload).applyTo t).lookup q = if q = path ++ [name]
        then some { payload, index := [] } else t.lookup q := by
    intro q
    rw [TreeChange.lookup_payloadSet happlies, hindex]
  have hother : ((TreeChange.payloadSet (path ++ [name])
      payload).applyTo t).lookup path = t.lookup path := by
    rw [hset, if_neg (by simp)]
  have happlies' : TreeChange.AppliesTo
      ((TreeChange.payloadSet (path ++ [name]) payload).applyTo t)
      (.indexInserted path (t.indexOf path).length name) := by
    refine ⟨MessageTree.mem_nodes_iff.mpr ⟨_, (hset _).trans (if_pos rfl)⟩,
      ?_⟩
    rw [MessageTree.indexOf_eq_of_lookup_eq hother]
  refine ⟨hstatus, ?_⟩
  rw [hchanges, TreeChange.applyAll_cons, TreeChange.applyAll_cons,
    TreeChange.applyAll_nil]
  refine ⟨habsent, ?_, ?_, fun q hnode hchild => ?_⟩
  · rw [TreeChange.lookup_indexInserted happlies', if_neg (by simp), hset,
      if_pos rfl]
  · rw [TreeChange.lookup_indexInserted happlies', if_pos rfl, hother]
    obtain ⟨dn, hdn⟩ := MessageTree.mem_nodes_iff.mp hmem
    have hlength : (t.indexOf path).length = dn.index.length := by
      rw [MessageTree.indexOf, hdn]
    rw [hdn, hlength, Option.map_some, Option.map_some,
      List.insertIdx_length_self]
  · rw [TreeChange.lookup_indexInserted happlies', if_neg hnode, hset,
      if_neg hchild]

end UndoStackMuscle.Lawful

/-- A node has been found, or created without payload. -/
structure Demanded (um : UndoStackMuscle P) (t t' : MessageTree P)
    (path : NodePath) : Prop where
  mem : path ∈ t'.nodes
  here : path ∈ t.nodes → t'.lookup path = t.lookup path
  new : path ∉ t.nodes →
    t'.lookup path = some { payload := um.emptyMessage, index := [] }
  elsewhere : ∀ q, q ≠ path → t'.lookup q = t.lookup q

/-- **A node on demand.**  What follows goes on from a tree that has it. -/
theorem withDemandedNode_of (hum : um.Lawful) (hmem : path ∈ t.nodes)
    (hliteral : Literal um.toMuscle (path ++ [name])) {ifMissing : Status}
    {use : (t' : MessageTree P) → NodePath → Execution t'}
    {I : Status → MessageTree P → Prop}
    (huse : ∀ t', Demanded um t t' (path ++ [name]) →
      I (use t' (path ++ [name])).status (use t' (path ++ [name])).tree) :
    I (withDemandedNode um opTag t (path ++ [name]) ifMissing use).status
      (withDemandedNode um opTag t (path ++ [name]) ifMissing use).tree := by
  unfold withDemandedNode
  by_cases hthere : path ++ [name] ∈ t.nodes
  · rw [hum.lawful.getDataNode t hliteral, if_pos hthere]
    exact huse t ⟨hthere, fun _ => rfl, fun hnot => absurd hthere hnot,
      fun _ _ => rfl⟩
  · rw [hum.lawful.getDataNode t hliteral, if_neg hthere]
    obtain ⟨hstatus, hset⟩ :=
      hum.created hmem hliteral.clauses um.emptyMessage
    generalize um.setDataNode t (path ++ [name]) um.emptyMessage {} none = o
      at hstatus hset
    have hok : (Execution.ofOutcome o false false opTag).status.isOK =
        true := by
      rw [Execution.ofOutcome, hstatus]
      rfl
    have hindex : t.indexOf (path ++ [name]) = [] := by
      rw [MessageTree.indexOf, MessageTree.lookup_eq_none.mpr hthere]
    have hnew := hset.here
    rw [hindex] at hnew
    have hthere' : path ++ [name] ∈ (TreeChange.applyAll t o.changes).nodes :=
      MessageTree.mem_nodes_iff.mpr ⟨_, hnew⟩
    have hdemanded : Demanded um t (TreeChange.applyAll t o.changes)
        (path ++ [name]) := ⟨hthere', fun hmem => absurd hmem hthere,
      fun _ => hnew, hset.elsewhere⟩
    rw [Execution.andThen_tree_of_isOK hok,
      Execution.andThen_status_of_isOK hok, Execution.ofOutcome_tree,
      hum.lawful.getDataNode _ hliteral, if_pos hthere']
    exact huse _ hdemanded

/-- A stack has got a new sequence on top, and the client's node shows it. -/
def Pushed (t t' : MessageTree P) (node : NodePath) (payload : P) : Prop :=
  ∃ name u, AddedAt t u node name payload ∧ SetAt u t' node payload

theorem Pushed.stackAt {entries : List (String × P)}
    (h : Pushed t t' node payload) (hmem : node ∈ t.nodes)
    (hstack : StackAt t node entries) :
    ∃ name, StackAt t' node (entries ++ [(name, payload)]) := by
  obtain ⟨name, u, hadded, hset⟩ := h
  exact ⟨name, (hstack.push hmem hadded).setNode hset⟩

theorem Pushed.here (h : Pushed t t' node payload) :
    ∃ index, t'.lookup node = some { payload, index } := by
  obtain ⟨name, u, -, hset⟩ := h
  exact ⟨_, hset.here⟩

theorem Pushed.elsewhere (h : Pushed t t' node payload) {q : NodePath}
    (hq : ¬ node <+: q) : t'.lookup q = t.lookup q := by
  obtain ⟨name, u, hadded, hset⟩ := h
  have hne : q ≠ node := fun heq => hq (heq ▸ List.prefix_refl q)
  have hchild : q ≠ node ++ [name] := fun heq =>
    hq (heq ▸ List.prefix_append node [name])
  exact (hset.elsewhere q hne).trans (hadded.elsewhere q hne hchild)

/-- **A sequence is pushed**, unless there is no name left for it. -/
theorem pushSequence_cases (hum : um.Lawful) (hmem : node ∈ t.nodes)
    (hliteral : Literal um.toMuscle node) (opTag : String) (payload : P) :
    ((pushSequence um opTag node node payload t).status.isOK = false ∧
      (pushSequence um opTag node node payload t).tree = t) ∨
    ((pushSequence um opTag node node payload t).status = .noError ∧
      Pushed t (pushSequence um opTag node node payload t).tree node
        payload) := by
  have hfound : um.getDataNode t node = some node := by
    rw [hum.lawful.getDataNode t hliteral, if_pos hmem]
  unfold pushSequence withUnusedNodeID withUnusedChildID
  rw [hfound]
  simp only
  split
  · next newNodeID hunused =>
    right
    have habsent := (findUnusedNodeID_unused hunused).2
    have hchild : Literal um.toMuscle
        (node ++ ["I" ++ toString newNodeID]) := by
      refine ⟨hum.single_sequence node newNodeID hliteral.single, fun hin => ?_⟩
      rcases List.mem_append.mp hin with hin | hin
      · exact hliteral.clauses hin
      · have hempty := congrArg String.toList (List.mem_singleton.mp hin)
        simp at hempty
    obtain ⟨hstatus, hadded⟩ := hum.addedAt hchild hmem habsent payload
    generalize hset : um.setDataNode t (node ++ ["I" ++ toString newNodeID])
      payload { addToIndex := true } none = o at hstatus hadded
    have hok : (Execution.ofOutcome o false false opTag).status.isOK =
        true := by
      rw [Execution.ofOutcome, hstatus]
      rfl
    have hthere : node ∈ (TreeChange.applyAll t o.changes).nodes := by
      obtain ⟨dn, hdn⟩ := MessageTree.mem_nodes_iff.mp hmem
      have hhere := hadded.here
      rw [hdn] at hhere
      exact MessageTree.mem_nodes_iff.mpr ⟨_, hhere⟩
    rw [Execution.andThen_status_of_isOK hok, Execution.ofOutcome_tree,
      Execution.andThen_tree_of_isOK hok, Execution.ofOutcome_tree,
      Execution.withStatus_tree, Execution.ofOutcome_tree]
    exact ⟨rfl, _, _, hadded, hum.setAt hthere payload⟩
  · exact .inl ⟨rfl, rfl⟩

/-- The client's node is empty, or shows the sequence on top. -/
structure Popped (um : UndoStackMuscle P) (t t' : MessageTree P)
    (path : NodePath) (clientName : String)
    (entries : List (String × P)) : Prop where
  stack : StackAt t' (path ++ [clientName]) entries
  shown : um.getData t' (path ++ [clientName]) =
    ((entries.getLast?.map (·.2)).getD um.emptyMessage)
  parent : path ∈ t'.nodes
  elsewhere : ∀ q, q ≠ path → ¬ path ++ [clientName] <+: q →
    t'.lookup q = t.lookup q

/-- **A sequence is popped.** -/
theorem popSequence_spec (hum : um.Lawful) (opTag : String)
    {entries : List (String × P)} {top : String × P}
    (hstack : StackAt t (path ++ [name]) (entries ++ [top])) :
    (popSequence um opTag (path ++ [name]) t).status = .noError ∧
      Popped um t (popSequence um opTag (path ++ [name]) t).tree path name
        entries := by
  have htop : top ∈ entries ++ [top] := by simp
  have hlast : (t.indexOf (path ++ [name])).getLast? = some top.1 := by
    rw [hstack.index]
    simp
  obtain ⟨hstatus, hgone⟩ := hum.removeChild t (hstack.mem_child htop)
  have hremoved : RemovedAt t (Execution.ofOutcome
      (um.removeChild t (path ++ [name]) top.1) false false opTag).tree
        (path ++ [name]) top.1 := by
    rw [Execution.ofOutcome_tree]
    exact hgone
  unfold popSequence
  rw [hlast]
  simp only
  have hok : (Execution.ofOutcome (um.removeChild t (path ++ [name]) top.1)
      false false opTag).status.isOK = true := by
    rw [Execution.ofOutcome, hstatus]
    rfl
  generalize Execution.ofOutcome (um.removeChild t (path ++ [name]) top.1)
    false false opTag = e at hok hremoved
  rw [Execution.andThen_status_of_isOK hok, Execution.andThen_tree_of_isOK hok]
  simp only [Execution.withStatus_status, Execution.withStatus_tree, true_and]
  have hstack' : StackAt e.tree (path ++ [name]) entries := by
    have hrest : StackAt e.tree (path ++ [name]) (entries ++ []) :=
      StackAt.remove hstack hremoved
    rwa [List.append_nil] at hrest
  have hparent : path ∈ t.nodes :=
    MessageTree.mem_of_isPrefix (hstack.mem_node htop)
      (List.prefix_append path [name])
  have helsewhere : ∀ q, ¬ path ++ [name] <+: q →
      e.tree.lookup q = t.lookup q := by
    intro q hq
    refine hremoved.elsewhere q ?_ fun hbelow =>
      hq ((List.prefix_append _ _).trans hbelow)
    rintro rfl
    exact hq (List.prefix_refl _)
  have hparent' : path ∈ e.tree.nodes :=
    (MessageTree.mem_nodes_of_lookup_eq (helsewhere path fun hbelow => by
      simpa using hbelow.length_le)).mpr hparent
  cases hcase : entries.getLast? with
  | some next =>
      have hnext : next ∈ entries := List.mem_of_getLast? hcase
      have hlast' : (e.tree.indexOf
          (path ++ [name])).getLast? = some next.1 := by
        rw [hstack'.index, List.getLast?_map, hcase]
        rfl
      rw [hlast']
      obtain ⟨dn, hdn, hpayload⟩ := hstack'.payload next hnext
      have hset := hum.setAt (hstack'.mem_node hnext) next.2
      have hshown : um.getData e.tree
          (path ++ [name] ++ [next.1]) = next.2 := by
        rw [UndoStackMuscle.getData, hdn]
        exact hpayload
      simp only [hshown, Execution.ofOutcome_tree]
      refine ⟨hstack'.setNode hset, ?_, ?_, fun q _ hq => ?_⟩
      · rw [UndoStackMuscle.getData, hset.here, hcase]
        rfl
      · exact (MessageTree.mem_nodes_of_lookup_eq
          (hset.elsewhere path (by simp))).mpr hparent'
      · rw [hset.elsewhere q fun heq => hq (heq ▸ List.prefix_refl q)]
        exact helsewhere q hq
  | none =>
      obtain rfl := List.getLast?_eq_none_iff.mp hcase
      have hlast' : (e.tree.indexOf
          (path ++ [name])).getLast? = none := by
        rw [hstack'.index]
        rfl
      rw [hlast']
      have hthere : path ++ [name] ∈ e.tree.nodes := by
        obtain ⟨dn, hdn⟩ :=
          MessageTree.mem_nodes_iff.mp (hstack.mem_node htop)
        have hhere := hremoved.here
        rw [hdn] at hhere
        exact MessageTree.mem_nodes_iff.mpr ⟨_, hhere⟩
      obtain ⟨-, hgone⟩ := hum.removeChild _ hthere
      simp only [Execution.ofOutcome_tree, List.dropLast_concat,
        List.getLast?_concat, Option.getD_some]
      have hnone := hgone.below _ (List.prefix_refl _)
      refine ⟨stackAt_nil hnone, ?_, ?_, fun q hpath hq => ?_⟩
      · rw [UndoStackMuscle.getData, hnone]
        rfl
      · obtain ⟨dn, hdn⟩ := MessageTree.mem_nodes_iff.mp hparent'
        have hhere := hgone.here
        rw [hdn] at hhere
        exact MessageTree.mem_nodes_iff.mpr ⟨_, hhere⟩
      · rw [hgone.elsewhere q hpath hq]
        exact helsewhere q hq

end Methods

end ZgChoir
