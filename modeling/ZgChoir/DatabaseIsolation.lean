import ZgChoir.TreeArchive

/-!
# Commands that work apart from a database

The databases of a session share its tree.  A command of one of them works on
the paths that it is directed at; MUSCLE makes changes there, above them and
below them, and nowhere else (`Muscle.Local`).  So a command is none of the
business of a database whose root is neither above nor below these paths
(`foreign_seniorCommand`, `foreign_juniorCommand`): the nodes of that database
and its checksum stay what they are.
-/

namespace ZgChoir

variable {P : Type}

/-! ## What a command is directed at -/

section Model

variable (m : Muscle P) (mount : Mount)

/-- A path names a node, or is a pattern that the node matches. -/
def Muscle.Names (path q : NodePath) : Prop :=
  q = path ∨ m.canMatchMultipleValues path = true ∧
    q.length = path.length ∧ m.segmentsMatch path q = true

/-- A node is neither at a root, nor above it nor below it, not even if it is
taken for a pattern. -/
def Apart (q root : NodePath) : Prop :=
  q.take (min q.length root.length) ≠ root.take (min q.length root.length) ∧
    m.segmentsMatch (q.take (min q.length root.length))
      (root.take (min q.length root.length)) = false

/-- A path within the session leads to nodes only that are apart from a root. -/
def LeadsApart (path root : NodePath) : Prop :=
  path.head? ≠ some "" ∧ ∀ q, m.Names path q → Apart m q root

/-- One of two nodes is at or above the other. -/
def OnOnePath (p q : NodePath) : Prop := p <+: q ∨ q <+: p

/-- A path without its empty last clause: an indexed node that is set there gets
its name from MUSCLE. -/
def namedPart (path : NodePath) : NodePath :=
  if path.getLast? = some "" then path.dropLast else path

/-- What MUSCLE says of where its methods make changes: at the nodes that the
path names, and above and below them. -/
structure Muscle.Local (m : Muscle P) : Prop where
  segmentsMatch_take {pattern path} (k : ℕ) :
    m.segmentsMatch pattern path = true →
      m.segmentsMatch (pattern.take k) (path.take k) = true
  getDataNode {t path q} : m.getDataNode t path = some q →
    path.head? ≠ some "" → m.Names path q
  setDataNode t path payload flags optInsertBefore :
    ∀ c ∈ (m.setDataNode t path payload flags optInsertBefore).changes,
      OnOnePath c.path path ∨
        flags.addToIndex = true ∧ namedPart path <+: c.path
  removeDataNodes t path filter :
    ∀ c ∈ (m.removeDataNodes t path filter).changes,
      ∃ q, m.Names path q ∧ OnOnePath c.path q
  moveIndexEntries t path optBefore filter :
    ∀ c ∈ (m.moveIndexEntries t path optBefore filter).changes,
      ∃ q, m.Names path q ∧ OnOnePath c.path q
  restoreNodeTreeFromMessage t msg path :
    ∀ c ∈ (m.restoreNodeTreeFromMessage t msg path).changes,
      OnOnePath c.path path
  insertIndexEntryAt t path index key :
    ∀ c ∈ (m.insertIndexEntryAt t path index key).changes, c.path = path
  removeIndexEntryAt t path index :
    ∀ c ∈ (m.removeIndexEntryAt t path index).changes, c.path = path

/-- The path and the flags of a command. -/
def TreeMessage.target : TreeMessage P → Option (NodePath × TreeGatewayFlags)
  | .updateNodeValue path _ flags _ _ => some (path, flags)
  | .updateSubtree path _ flags _ => some (path, flags)
  | .insertIndexEntry path _ _ flags _ => some (path, flags)
  | .removeIndexEntry path _ _ flags _ => some (path, flags)
  | .requestDeleteNodes path _ flags _ => some (path, flags)
  | .moveIndexEntry path _ _ flags _ => some (path, flags)
  | .batch _ => none
  | .noop => none
  | .unknown _ => none

/-- Where a command works.  A node that gets a name from the senior peer is
made below the path without its empty last clause. -/
def TreeMessage.workPath (t : MessageTree P) : TreeMessage P → Option NodePath
  | .updateNodeValue path (some _) flags _ _ =>
      some (namedPart
        (databaseSubpathToSessionRelativePath m mount t path flags))
  | msg => msg.target.map fun target =>
      databaseSubpathToSessionRelativePath m mount t target.1 target.2

end Model

/-! ## Paths -/

section Paths

variable {m : Muscle P} {mount other : Mount} {p q r root : NodePath}

/-- What is apart from a root stays so above and below itself. -/
theorem Muscle.Local.take_ne (hm : m.Local) (h : Apart m q root)
    (hpath : OnOnePath p q) (hlength : root.length ≤ p.length) :
    p.take root.length ≠ root ∧
      m.segmentsMatch (p.take root.length) root = false := by
  have hle : min q.length root.length ≤ root.length := min_le_right _ _
  have hsame : p.take (min q.length root.length) =
      q.take (min q.length root.length) := by
    rcases hpath with ⟨below, rfl⟩ | ⟨below, rfl⟩
    · have hk : min (p ++ below).length root.length ≤ p.length := by
        omega
      rw [List.take_append_of_le_length hk]
    · rw [List.take_append_of_le_length (min_le_left _ _)]
  have htake : (p.take root.length).take (min q.length root.length) =
      q.take (min q.length root.length) := by
    rw [List.take_take, min_eq_left hle, hsame]
  refine ⟨fun heq => ?_, ?_⟩
  · rw [heq] at htake
    exact h.1 htake.symm
  · by_contra hmatch
    have hmatch := hm.segmentsMatch_take (min q.length root.length)
      (Bool.of_not_eq_false hmatch)
    rw [htake, h.2] at hmatch
    cases hmatch

/-- **A database does not hear** of changes around a node that is apart from
its root. -/
theorem Muscle.Local.relativePathOf_eq_none (hm : m.Local)
    (h : Apart m q other.root) (hpath : OnOnePath p q) :
    relativePathOf m other p = none := by
  cases hfound : relativePathOf m other p with
  | none => rfl
  | some relativePath =>
      have hsub := relativePathOf_eq_some hfound
      unfold getDatabaseSubpath at hsub
      split at hsub
      · split at hsub
        · cases hsub
        · next hlength =>
          have hne := hm.take_ne h hpath (not_lt.mp hlength)
          rw [hne.2] at hsub
          simp at hsub
      · split at hsub
        · next hbelow =>
          have hne := hm.take_ne h hpath hbelow.length_le
          exact absurd (List.prefix_iff_eq_take.mp hbelow).symm hne.1
        · cases hsub

/-- What is below a node is apart from whatever the node is apart from. -/
theorem Apart.below (hm : m.Local) (h : Apart m p root) (hbelow : p <+: q) :
    Apart m q root := by
  obtain ⟨below, rfl⟩ := hbelow
  have hle : min p.length root.length ≤
      min (p ++ below).length root.length := by
    rw [List.length_append]
    omega
  have htake : ∀ path : NodePath, (path.take
      (min (p ++ below).length root.length)).take (min p.length root.length) =
        path.take (min p.length root.length) := by
    intro path
    rw [List.take_take, min_eq_left hle]
  have hp : (p ++ below).take (min p.length root.length) =
      p.take (min p.length root.length) :=
    List.take_append_of_le_length (min_le_left _ _)
  refine ⟨fun heq => ?_, ?_⟩
  · have heq := congrArg (List.take (min p.length root.length)) heq
    rw [htake, htake, hp] at heq
    exact h.1 heq
  · by_contra hmatch
    have hmatch := hm.segmentsMatch_take (min p.length root.length)
      (Bool.of_not_eq_false hmatch)
    rw [htake, htake, hp, h.2] at hmatch
    cases hmatch

end Paths

/-! ## Effects that a database does not hear of -/

section Effects

variable {m : Muscle P} {mount other : Mount} {t : MessageTree P}
  {q path : NodePath} {quiet interim : Bool} {opTag : String}

/-- All effects of an execution are none of a database's business. -/
def Foreign (m : Muscle P) (other : Mount) (e : Execution t) : Prop :=
  ∀ effect ∈ e.effects, relativePathOf m other effect.change.path = none

theorem foreign_nothing {status : Status} :
    Foreign m other (.nothing t status) := by
  simp [Foreign, Execution.nothing]

theorem Foreign.followedBy {e : Execution t}
    {next : (t' : MessageTree P) → Execution t'} (h : Foreign m other e)
    (hnext : Foreign m other (next e.tree)) :
    Foreign m other (e.followedBy next) := by
  intro effect hmem
  rcases List.mem_append.mp hmem with hmem | hmem
  · exact h effect hmem
  · exact hnext effect hmem

theorem Foreign.andThen {e : Execution t}
    {next : (t' : MessageTree P) → Execution t'} (h : Foreign m other e)
    (hnext : e.status.isOK = true → Foreign m other (next e.tree)) :
    Foreign m other (e.andThen next) := by
  unfold Execution.andThen
  split
  · next hok => exact h.followedBy (hnext hok)
  · exact h

/-- What MUSCLE does around nodes that are apart from a database's root. -/
theorem foreign_ofOutcome (hm : m.Local) {o : Outcome t}
    (h : ∀ c ∈ o.changes, ∃ q, Apart m q other.root ∧ OnOnePath c.path q) :
    Foreign m other (.ofOutcome o quiet interim opTag) := by
  intro effect hmem
  obtain ⟨c, hc, rfl⟩ := List.mem_map.mp hmem
  obtain ⟨q, hapart, hpath⟩ := h c hc
  exact hm.relativePathOf_eq_none hapart hpath

theorem LeadsApart.apart {root : NodePath} (h : LeadsApart m path root) :
    Apart m path root :=
  h.2 path (.inl rfl)

theorem foreign_setDataNode (hm : m.Local) (hapart : Apart m path other.root)
    {payload : P} {flags : SetDataNodeFlags} {optInsertBefore : Option String}
    (hnamed : flags.addToIndex = true → Apart m (namedPart path) other.root) :
    Foreign m other (.ofOutcome
      (m.setDataNode t path payload flags optInsertBefore) quiet interim
      opTag) := by
  refine foreign_ofOutcome hm fun c hc => ?_
  rcases hm.setDataNode t path payload flags optInsertBefore c hc with
    hpath | ⟨hindexed, hbelow⟩
  · exact ⟨path, hapart, hpath⟩
  · exact ⟨namedPart path, hnamed hindexed, .inr hbelow⟩

theorem isPrefix_namedPart (path : NodePath) : namedPart path <+: path := by
  unfold namedPart
  split
  · exact List.dropLast_prefix path
  · exact List.prefix_rfl

/-- A node below a path that gets a name. -/
theorem Apart.child (hm : m.Local) {root : NodePath} (h : Apart m path root)
    (name : String) : Apart m (namedPart (path ++ [name])) root := by
  unfold namedPart
  split
  · rw [List.dropLast_concat]
    exact h
  · exact h.below hm (List.prefix_append path [name])

theorem foreign_setNodeValue (hm : m.Local)
    (hapart : Apart m (namedPart path) other.root)
    {payload : P} {flags : TreeGatewayFlags} {optBefore : String} :
    Foreign m other (setNodeValue m flags optBefore opTag t path payload) := by
  have hset : ∀ optInsertBefore, Foreign m other (.ofOutcome
      (m.setDataNode t path payload
        (convertTreeGatewayFlagsToSetDataNodeFlags flags) optInsertBefore)
      false flags.interim opTag) := fun _ =>
    foreign_setDataNode hm (hapart.below hm (isPrefix_namedPart path))
      fun _ => hapart
  unfold setNodeValue
  generalize (if optBefore = "" then none else some optBefore) =
    optInsertBefore
  simp only
  split
  · exact hset optInsertBefore
  · exact hset optInsertBefore

theorem foreign_removeDataNodes (hm : m.Local)
    (hleads : LeadsApart m path other.root) {filter : Option (P → Bool)} :
    Foreign m other
      (removeDataNodes m mount interim opTag t path filter quiet) := by
  refine foreign_ofOutcome hm fun c hc => ?_
  obtain ⟨q, hnames, hpath⟩ := hm.removeDataNodes t path _ c hc
  exact ⟨q, hleads.2 q hnames, hpath⟩

/-- An ID that names no child, however often the loop tries. -/
theorem findUnusedNodeID_unused {node : NodePath}
    {tries nextID newNodeID : ℕ}
    (h : findUnusedNodeID t node tries nextID = some newNodeID) :
    node ++ [toString newNodeID] ∉ t.nodes ∧
      node ++ ["I" ++ toString newNodeID] ∉ t.nodes := by
  induction tries generalizing nextID with
  | zero => cases h
  | succ tries ih =>
      unfold findUnusedNodeID at h
      split at h
      · exact ih h
      · next hunused =>
        obtain rfl := Option.some.inj h
        exact not_or.mp hunused

theorem foreign_withUnusedNodeID (hm : m.Local)
    (hapart : Apart m path other.root)
    {use : (t' : MessageTree P) → ℕ → Execution t'}
    (huse : ∀ t' newNodeID, Foreign m other (use t' newNodeID)) :
    Foreign m other (withUnusedNodeID m interim opTag t path use) := by
  have hchild : ∀ t', Foreign m other (withUnusedChildID m t' path use) := by
    intro t'
    unfold withUnusedChildID
    split
    · split
      · exact huse _ _
      · exact foreign_nothing
    · exact foreign_nothing
  unfold withUnusedNodeID
  split
  · exact hchild t
  · refine Foreign.andThen ?_ fun _ => hchild _
    exact foreign_setDataNode hm hapart fun hindexed => by cases hindexed

end Effects

/-! ## Commands -/

section Commands

variable {m : Muscle P} {mount other : Mount} {t : MessageTree P}
  {ctx : CommandContext} {msg : TreeMessage P}

theorem foreign_handleNodeUpdateMessage (hm : m.Local) {path : NodePath}
    {optPayload : Option P} {flags : TreeGatewayFlags}
    {optBefore optOpTag : String}
    (hleads : ∀ workPath ∈ (TreeMessage.updateNodeValue path optPayload flags
      optBefore optOpTag).workPath m mount t,
        LeadsApart m workPath other.root) :
    Foreign m other (handleNodeUpdateMessage m mount ctx t path optPayload flags
      optBefore optOpTag) := by
  unfold handleNodeUpdateMessage
  split
  · simp only
    cases optPayload with
    | none => exact foreign_removeDataNodes hm (hleads _ rfl)
    | some payload =>
        have hwork := hleads _ rfl
        simp only
        split
        · next hchoose =>
          have hlast : (databaseSubpathToSessionRelativePath m mount t path
              flags).getLast? = some "" := by
            simpa using (Bool.and_eq_true_iff.mp hchoose).2
          rw [namedPart, if_pos hlast] at hwork
          refine foreign_withUnusedNodeID hm hwork.apart fun t' newNodeID => ?_
          exact foreign_setNodeValue hm (hwork.apart.child hm _)
        · exact foreign_setNodeValue hm hwork.apart
  · exact foreign_nothing

theorem foreign_handleNodeIndexUpdateMessage (hm : m.Local) {path : NodePath}
    {inserts : Bool} {index : ℕ} {key : String} {flags : TreeGatewayFlags}
    {optOpTag : String}
    (hleads : LeadsApart m
      (databaseSubpathToSessionRelativePath m mount t path flags) other.root) :
    Foreign m other (handleNodeIndexUpdateMessage m mount ctx t path inserts
      index key flags optOpTag) := by
  unfold handleNodeIndexUpdateMessage
  split
  · split
    · next node hnode =>
      have hapart : Apart m node other.root :=
        hleads.2 node (hm.getDataNode hnode hleads.1)
      refine foreign_ofOutcome hm fun c hc => ⟨node, hapart, .inl ?_⟩
      split at hc
      · exact hm.insertIndexEntryAt t node index key c hc ▸ List.prefix_rfl
      · exact hm.removeIndexEntryAt t node index c hc ▸ List.prefix_rfl
    · exact foreign_nothing
  · exact foreign_nothing

theorem foreign_handleSubtreeUpdateMessage (hm : m.Local) {path : NodePath}
    {optPayload : Option P} {flags : TreeGatewayFlags} {optOpTag : String}
    (hleads : LeadsApart m
      (databaseSubpathToSessionRelativePath m mount t path flags) other.root) :
    Foreign m other (handleSubtreeUpdateMessage m mount ctx t path optPayload
      flags optOpTag) := by
  cases optPayload with
  | none => exact foreign_nothing
  | some payload =>
      exact foreign_ofOutcome hm fun c hc => ⟨_, hleads.apart,
        hm.restoreNodeTreeFromMessage t payload _ c hc⟩

/-- **A command of the senior peer** that works apart from a database's root. -/
theorem foreign_seniorCommand (hm : m.Local)
    (hleads : ∀ path ∈ msg.workPath m mount t, LeadsApart m path other.root) :
    Foreign m other (seniorCommand m mount ctx t msg) := by
  cases msg with
  | batch subMsgs => exact foreign_nothing
  | noop => exact foreign_nothing
  | unknown what => exact foreign_nothing
  | updateNodeValue path optPayload flags optBefore optOpTag =>
      exact foreign_handleNodeUpdateMessage hm hleads
  | updateSubtree path optPayload flags optOpTag =>
      exact foreign_handleSubtreeUpdateMessage hm (hleads _ rfl)
  | insertIndexEntry path index key flags optOpTag =>
      exact foreign_handleNodeIndexUpdateMessage hm (hleads _ rfl)
  | removeIndexEntry path index key flags optOpTag =>
      exact foreign_handleNodeIndexUpdateMessage hm (hleads _ rfl)
  | requestDeleteNodes path filter flags optOpTag =>
      exact foreign_removeDataNodes hm (hleads _ rfl)
  | moveIndexEntry path optBefore filter flags optOpTag =>
      have hwork := hleads _ rfl
      refine foreign_ofOutcome hm fun c hc => ?_
      obtain ⟨q, hnames, hpath⟩ := hm.moveIndexEntries t _ _ _ c hc
      exact ⟨q, hwork.2 q hnames, hpath⟩

end Commands

/-! ## The database that hears of nothing -/

section Silence

variable {m : Muscle P} {other : Mount} {t : MessageTree P}

open MessageTreeDatabaseObject

/-- The nodes of a database that hears of nothing stay what they are. -/
theorem Foreign.lookup {e : Execution t} (h : Foreign m other e) {q : NodePath}
    (hq : isNodeInThisDatabase m other q = true) :
    e.tree.lookup q = t.lookup q := by
  refine TreeChange.lookup_applyAll_of_ne e.valid fun c hc hpath => ?_
  obtain ⟨effect, heffect, rfl⟩ := List.mem_map.mp hc
  have hnone := h effect heffect
  rw [hpath] at hnone
  rw [isNodeInThisDatabase, hnone] at hq
  cases hq

/-- So does its checksum. -/
theorem Foreign.notifyAll_checksum {effects : List (Effect P)}
    (h : ∀ effect ∈ effects, relativePathOf m other effect.change.path = none)
    {otherDb : MessageTreeDatabaseObject P} {inSeniorUpdate : Bool} :
    (otherDb.notifyAll m other inSeniorUpdate effects).checksum =
      otherDb.checksum := by
  induction effects generalizing otherDb with
  | nil => rfl
  | cons effect effects ih =>
      have hnone := h effect List.mem_cons_self
      have hstep : (otherDb.notify m other inSeniorUpdate effect).checksum =
          otherDb.checksum := by
        simp [notify, hnone]
      exact (ih fun other hmem => h other (List.mem_cons_of_mem effect hmem)
        ).trans hstep

end Silence

/-! ## Sheets -/

section Sheets

open LiteralTree SheetTree

variable {t : MessageTree Sheet} {path : NodePath} {c : TreeChange Sheet}

theorem Outcome.mem_ofValid {P : Type} {t : MessageTree P}
    {changes : List (TreeChange P)} {c : TreeChange P}
    (h : c ∈ (Outcome.ofValid t changes).changes) : c ∈ changes := by
  unfold Outcome.ofValid at h
  split at h
  · exact h
  · simp at h

theorem onOnePath_missingParents {empty : Sheet}
    (h : c ∈ (t.missingParents path).map (.payloadSet · empty)) :
    OnOnePath c.path path := by
  obtain ⟨above, habove, rfl⟩ := List.mem_map.mp h
  obtain ⟨k, -, rfl⟩ := List.mem_map.mp (List.mem_of_mem_filter habove)
  exact .inl (List.take_prefix k path)

theorem onOnePath_setChanges {empty payload : Sheet} {addToIndex : Bool}
    {optInsertBefore : Option String}
    (h : c ∈ setChanges t empty path payload addToIndex optInsertBefore) :
    OnOnePath c.path path := by
  rcases List.mem_append.mp h with h | h
  · exact onOnePath_missingParents h
  · rcases List.mem_cons.mp h with rfl | h
    · exact .inl List.prefix_rfl
    · split at h
      · split at h
        · obtain rfl := List.mem_singleton.mp h
          exact .inl (List.dropLast_prefix path)
        · simp at h
      · simp at h

theorem onOnePath_removeChanges (h : c ∈ removeChanges t path) :
    OnOnePath c.path path := by
  rcases List.mem_append.mp h with h | h
  · rcases List.mem_append.mp h with h | h
    · split at h
      · obtain ⟨index, rfl⟩ := mem_unlist h
        exact .inl (List.dropLast_prefix path)
      · simp at h
    · obtain ⟨q, hq, h⟩ := List.mem_flatMap.mp h
      obtain ⟨key, -, rfl⟩ := List.mem_map.mp h
      exact .inr (mem_pathsBelow.mp hq).1
  · obtain ⟨q, hq, rfl⟩ := List.mem_map.mp h
    exact .inr (mem_pathsBelow.mp hq).1

theorem onOnePath_moveChanges {name : String} {optBefore : Option String}
    (h : c ∈ moveChanges t path.dropLast name optBefore) :
    OnOnePath c.path path := by
  unfold moveChanges at h
  simp only at h
  split at h
  · simp only [List.mem_cons, List.not_mem_nil, or_false] at h
    rcases h with rfl | rfl
    · exact .inl (List.dropLast_prefix path)
    · exact .inl (List.dropLast_prefix path)
  · simp at h

theorem onOnePath_restoreChanges
    {nodes : List (NodePath × Page × List String)}
    (h : c ∈ restoreChanges t path nodes) : OnOnePath c.path path := by
  rcases List.mem_append.mp h with h | h
  · rcases List.mem_append.mp h with h | h
    · exact onOnePath_missingParents h
    · obtain ⟨node, -, rfl⟩ := List.mem_map.mp h
      exact .inr (List.prefix_append path node.1)
  · obtain ⟨node, -, h⟩ := List.mem_flatMap.mp h
    obtain ⟨entry, -, rfl⟩ := List.mem_map.mp h
    exact .inr (List.prefix_append path node.1)

/-- **The MUSCLE for sheets** makes its changes where it should. -/
theorem sheetMuscle_local : sheetMuscle.toMuscle.Local where
  segmentsMatch_take {pattern path} k hmatch := by
    simp only [sheetMuscle, Bool.and_eq_true, beq_iff_eq, List.all_eq_true] at *
    refine ⟨by simp [hmatch.1], fun clauses hmem => hmatch.2 clauses ?_⟩
    rw [List.zip, ← List.take_zipWith] at hmem
    exact List.mem_of_mem_take hmem
  getDataNode {t path q} hnode _ := by
    simp only [sheetMuscle] at hnode
    split at hnode
    · exact .inl (Option.some.inj hnode).symm
    · cases hnode
  setDataNode t path payload flags optInsertBefore c hc := by
    simp only [sheetMuscle] at hc
    split at hc
    · split at hc
      · simp [Outcome.unchanged] at hc
      · exact .inl (onOnePath_setChanges (Outcome.mem_ofValid hc))
    · split at hc
      · simp [Outcome.unchanged] at hc
      · exact .inl (onOnePath_setChanges (Outcome.mem_ofValid hc))
  removeDataNodes t path filter c hc := by
    simp only [sheetMuscle] at hc
    refine ⟨path, .inl rfl, ?_⟩
    split at hc
    · split at hc
      · exact onOnePath_removeChanges (Outcome.mem_ofValid hc)
      · simp [Outcome.unchanged] at hc
    · simp [Outcome.unchanged] at hc
  moveIndexEntries t path optBefore filter c hc := by
    simp only [sheetMuscle] at hc
    refine ⟨path, .inl rfl, ?_⟩
    split at hc
    · split at hc
      · exact onOnePath_moveChanges (Outcome.mem_ofValid hc)
      · simp [Outcome.unchanged] at hc
    · simp [Outcome.unchanged] at hc
  restoreNodeTreeFromMessage t msg path c hc := by
    simp only [sheetMuscle] at hc
    split at hc
    · exact onOnePath_restoreChanges (Outcome.mem_ofValid hc)
    · simp [Outcome.unchanged] at hc
  insertIndexEntryAt t path index key c hc := by
    obtain rfl := List.mem_singleton.mp (Outcome.mem_ofValid hc)
    rfl
  removeIndexEntryAt t path index c hc := by
    simp only [sheetMuscle] at hc
    split at hc
    · obtain rfl := List.mem_singleton.mp (Outcome.mem_ofValid hc)
      rfl
    · simp [Outcome.unchanged] at hc

end Sheets

end ZgChoir
