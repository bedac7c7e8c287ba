import ZgChoir.DatabaseIsolation

/-!
# What a transaction can do to other databases

A node belongs to the database whose root is the closest above it.
`RemoveDataNodes` and `MoveIndexEntries` are "careful" with nodes "that aren't
part of our own database", but look only at the nodes that they are asked for,
not at what is below these or at the index that they stand in; the other
commands do not look at all.

The footprint of a command has the nodes that it may change, as the command, the
tree and the links in it tell.  A transaction with no node of another database
in the footprints of its commands does nothing to that one
(`otherDatabase_unchanged`).  From below its own root a database cannot do
anything to one that it is mounted in, nor to one that stands beside it
(`allStayOff_of_below`).  But a link leads wherever it says, and what is done to
a node is done to everything below it.
-/

namespace ZgChoir

variable {P : Type}

/-! ## Footprints -/

section Model

variable (m : Muscle P) (mount : Mount)

/-- A path that starts with a slash leaves the session, and may lead
anywhere. -/
def Absolute (path : NodePath) : Prop := path.head? = some ""

/-- The parent of a node, if its index has an entry for the node. -/
def ListedIn (t : MessageTree P) (q parent : NodePath) : Prop :=
  parent = q.dropLast ∧ ∃ name ∈ q.getLast?, name ∈ t.indexOf parent

/-- A method is asked for a node, and its filter lets it pass. -/
def Muscle.Asked (t : MessageTree P) (path : NodePath)
    (filter : NodePath → DataNode P → Bool) (q : NodePath) : Prop :=
  m.Names path q ∧ ∃ node, t.lookup q = some node ∧ filter q node = true

/-- The nodes that change where a payload is set, unless the flags forbid it:
the node, those above it that are not there yet, and its parent if it gets an
entry in the index.  An entry without a name gets a name that is free. -/
def setFootprint (t : MessageTree P) (path : NodePath)
    (flags : SetDataNodeFlags) : Set NodePath :=
  {p | Absolute path ∨
    (if path ∈ t.nodes then flags.dontOverwriteData
      else flags.dontCreateNode) = false ∧
    (p = path ∨ p ∈ t.missingParents path ∨
      flags.addToIndex = true ∧ path ∉ t.nodes ∧
        (p = path.dropLast ∨ path.getLast? = some "" ∧ p ∉ t.nodes ∧
          ∃ name, p = path.dropLast ++ [name]))}

/-- The nodes that a removal changes: everything at the nodes it is asked for
and below them, and the indices that these are listed in. -/
def removeFootprint (t : MessageTree P) (path : NodePath)
    (filter : NodePath → DataNode P → Bool) : Set NodePath :=
  {p | Absolute path ∨ ∃ q, m.Asked t path filter q ∧
    (q <+: p ∧ p ∈ t.nodes ∨ ListedIn t q p)}

/-- The nodes whose indices have entries to be moved. -/
def moveFootprint (t : MessageTree P) (path : NodePath)
    (filter : NodePath → DataNode P → Bool) : Set NodePath :=
  {p | Absolute path ∨ ∃ q, m.Asked t path filter q ∧ ListedIn t q p}

/-- The nodes that an archive has, and those above them that are not there
yet. -/
def restoreFootprint (t : MessageTree P) (path : NodePath)
    (archived : Set NodePath) : Set NodePath :=
  {p | Absolute path ∨ p ∈ t.missingParents path ∨
    ∃ below ∈ archived, p = path ++ below}

/-- What MUSCLE says of its changes, node by node.  An archive has the nodes
`archived`, by their paths within it. -/
structure Muscle.Confined (archived : P → Set NodePath) : Prop where
  setDataNode t path payload flags optInsertBefore :
    ∀ c ∈ (m.setDataNode t path payload flags optInsertBefore).changes,
      c.path ∈ setFootprint t path flags
  removeDataNodes t path filter :
    ∀ c ∈ (m.removeDataNodes t path filter).changes,
      c.path ∈ removeFootprint m t path filter
  moveIndexEntries t path optBefore filter :
    ∀ c ∈ (m.moveIndexEntries t path optBefore filter).changes,
      c.path ∈ moveFootprint m t path filter
  restoreNodeTreeFromMessage t msg path :
    ∀ c ∈ (m.restoreNodeTreeFromMessage t msg path).changes,
      c.path ∈ restoreFootprint t path (archived msg)
  insertIndexEntryAt t path index key :
    ∀ c ∈ (m.insertIndexEntryAt t path index key).changes, c.path = path
  removeIndexEntryAt t path index :
    ∀ c ∈ (m.removeIndexEntryAt t path index).changes, c.path = path

/-- The filter that a removal or a move gets: nodes of other databases do not
pass. -/
def ownNodes (filter : Option (P → Bool)) (p : NodePath) (node : DataNode P) :
    Bool :=
  isNodeInThisDatabase m mount p &&
    (match filter with
      | some matchesFilter => matchesFilter node.payload
      | none => true)

/-- The path of a node with a chosen ID. -/
def chosenPath (path : NodePath) (flags : TreeGatewayFlags) (newNodeID : ℕ) :
    NodePath :=
  path ++ [(if flags.indexed then "I" else "") ++ toString newNodeID]

/-- The nodes that change where the senior peer chooses an ID: the parent, if it
is not there, and a child with an ID that is free. -/
def chosenFootprint (t : MessageTree P) (path : NodePath)
    (flags : TreeGatewayFlags) : Set NodePath :=
  {p | m.getDataNode t path = none ∧ p ∈ setFootprint t path {} ∨
    ∃ newNodeID,
      (∀ node ∈ m.getDataNode t path, node ++ [toString newNodeID] ∉ t.nodes ∧
        node ++ ["I" ++ toString newNodeID] ∉ t.nodes) ∧
      p ∈ setFootprint t (chosenPath path flags newNodeID)
        (convertTreeGatewayFlagsToSetDataNodeFlags flags)}

/-- The footprint of a command of the senior peer, or of a junior peer, which
has no handlers for some of them. -/
def TreeMessage.footprint (archived : P → Set NodePath) (inSeniorUpdate : Bool)
    (t : MessageTree P) : TreeMessage P → Set NodePath
  | .updateNodeValue path (some _) flags _ _ =>
      let path := databaseSubpathToSessionRelativePath m mount t path flags
      if inSeniorUpdate && path.getLast? == some "" then
        chosenFootprint m t path.dropLast flags
      else setFootprint t path (convertTreeGatewayFlagsToSetDataNodeFlags flags)
  | .updateNodeValue path none flags _ _ =>
      removeFootprint m t
        (databaseSubpathToSessionRelativePath m mount t path flags)
        (ownNodes m mount none)
  | .updateSubtree path (some payload) flags _ =>
      if inSeniorUpdate then
        restoreFootprint t
          (databaseSubpathToSessionRelativePath m mount t path flags)
          (archived payload)
      else ∅
  | .insertIndexEntry path _ _ flags _ | .removeIndexEntry path _ _ flags _ =>
      {p | m.getDataNode t
        (databaseSubpathToSessionRelativePath m mount t path flags) = some p}
  | .requestDeleteNodes path filter flags _ =>
      if inSeniorUpdate then
        removeFootprint m t
          (databaseSubpathToSessionRelativePath m mount t path flags)
          (ownNodes m mount filter)
      else ∅
  | .moveIndexEntry path _ filter flags _ =>
      if inSeniorUpdate then
        moveFootprint m t
          (databaseSubpathToSessionRelativePath m mount t path flags)
          (ownNodes m mount filter)
      else ∅
  | .updateSubtree _ none _ _ | .batch _ | .noop | .unknown _ => ∅

/-- No node of another database is among these. -/
def StaysOff (other : Mount) (footprint : Set NodePath) : Prop :=
  ∀ p ∈ footprint, isNodeInThisDatabase m other p = false

/-- Commands one after another, up to the first error, none of which has a node
of another database in its footprint. -/
def AllStayOff (other : Mount) (archived : P → Set NodePath)
    (inSeniorUpdate : Bool)
    (command : (t : MessageTree P) → TreeMessage P → Execution t) :
    List (TreeMessage P) → MessageTree P → Prop
  | [], _ => True
  | msg :: msgs, t =>
      StaysOff m other (msg.footprint m mount archived inSeniorUpdate t) ∧
        ((command t msg).status.isOK = true →
          AllStayOff other archived inSeniorUpdate command msgs
            (command t msg).tree)

/-- An operation with no node of another database in its footprints. -/
def TreeOperation.StaysOff (other : Mount) (archived : P → Set NodePath)
    (t : MessageTree P) : TreeOperation P → Prop
  | .seniorUpdate seniorDoMsg =>
      AllStayOff m mount other archived true
        (seniorCommand m mount (.plain true)) seniorDoMsg.flatten t
  | .juniorUpdate juniorDoMsg =>
      AllStayOff m mount other archived false
        (juniorCommand m mount (.plain false)) juniorDoMsg.flatten t
  | .setToDefaultState _ =>
      ZgChoir.StaysOff m other
        (removeFootprint m t mount.root (ownNodes m mount none))
  | .setFromArchive _ archive =>
      ZgChoir.StaysOff m other
        (restoreFootprint t mount.root (archived archive))

end Model

/-! ## Commands keep to their footprints -/

section Commands

variable {m : Muscle P} {mount other : Mount} {t : MessageTree P}
  {archived : P → Set NodePath} {footprint : Set NodePath} {path p : NodePath}
  {ctx : CommandContext} {quiet interim : Bool} {opTag : String}

theorem StaysOff.foreign (hoff : StaysOff m other footprint) {o : Outcome t}
    (hchanges : ∀ c ∈ o.changes, c.path ∈ footprint) :
    Foreign m other (.ofOutcome o quiet interim opTag) := by
  intro effect hmem
  obtain ⟨c, hc, rfl⟩ := List.mem_map.mp hmem
  have hnot := hoff c.path (hchanges c hc)
  rw [isNodeInThisDatabase, Option.isSome_eq_false_iff,
    Option.isNone_iff_eq_none] at hnot
  exact hnot

theorem StaysOff.foreign_setNodeValue (hm : m.Confined archived)
    {payload : P} {flags : TreeGatewayFlags} {optBefore : String}
    (hoff : StaysOff m other (setFootprint t path
      (convertTreeGatewayFlagsToSetDataNodeFlags flags))) :
    Foreign m other (setNodeValue m flags optBefore opTag t path payload) := by
  have hset : ∀ optInsertBefore, Foreign m other (.ofOutcome
      (m.setDataNode t path payload
        (convertTreeGatewayFlagsToSetDataNodeFlags flags) optInsertBefore)
      false flags.interim opTag) := fun optInsertBefore =>
    hoff.foreign (hm.setDataNode t path payload _ optInsertBefore)
  unfold setNodeValue
  generalize (if optBefore = "" then none else some optBefore) =
    optInsertBefore
  simp only
  split
  · exact hset optInsertBefore
  · exact hset optInsertBefore

/-- **A node below one that has been created** on demand: what it takes to set
it has not become more, but for the nodes that the creation was about. -/
theorem mem_setFootprint_of_created (hm : m.Confined archived) {name : String}
    {flags : SetDataNodeFlags} {e : Execution t}
    (he : e = .ofOutcome (m.setDataNode t path m.emptyMessage {} none)
      quiet interim opTag)
    (hp : p ∈ setFootprint e.tree (path ++ [name]) flags) :
    p ∈ setFootprint t path {} ∨ p ∈ setFootprint t (path ++ [name]) flags := by
  by_cases hcreated : p ∈ setFootprint t path {}
  · exact .inl hcreated
  refine .inr ?_
  have hrelative : ¬ Absolute path := fun habsolute => hcreated (.inl habsolute)
  have hne : p ≠ path := fun heq => hcreated (.inr ⟨by simp, .inl heq⟩)
  -- nodes outside the footprint of the creation are where they were
  have hsame : ∀ q, q ∉ setFootprint t path {} →
      (q ∈ e.tree.nodes ↔ q ∈ t.nodes) := by
    intro q hq
    have hlookup : e.tree.lookup q = t.lookup q := by
      refine TreeChange.lookup_applyAll_of_ne e.valid fun c hc hpath => ?_
      have hmade :
          c ∈ (m.setDataNode t path m.emptyMessage {} none).changes := by
        simpa [he, Execution.ofOutcome, Function.comp_def] using hc
      exact hq (hpath ▸ hm.setDataNode t path m.emptyMessage {} none c hmade)
    rw [MessageTree.mem_nodes_iff, hlookup, ← MessageTree.mem_nodes_iff]
  have hchild : path ++ [name] ∉ setFootprint t path {} := by
    intro hmem
    rcases hmem with habsolute | ⟨-, heq | hmissing | hindexed⟩
    · exact hrelative habsolute
    · simp at heq
    · obtain ⟨k, -, htake⟩ := List.mem_map.mp (List.mem_of_mem_filter hmissing)
      have hlength := congrArg List.length htake
      simp only [List.length_take, List.length_append,
        List.length_singleton] at hlength
      omega
    · cases hindexed.1
  rcases hp with habsolute | ⟨hflags, hp⟩
  · exact .inl habsolute
  simp only [hsame _ hchild] at hflags hp
  refine .inr ⟨hflags, ?_⟩
  rcases hp with heq | hmissing |
    ⟨hindexed, hnew, hparent | ⟨hlast, habsent, hname⟩⟩
  · exact .inl heq
  · refine .inr (.inl ?_)
    obtain ⟨htake, habsent⟩ := List.mem_filter.mp hmissing
    rw [decide_eq_true_eq, hsame p hcreated] at habsent
    exact List.mem_filter.mpr ⟨htake, decide_eq_true habsent⟩
  · rw [List.dropLast_concat] at hparent
    exact absurd hparent hne
  · rw [hsame p hcreated] at habsent
    exact .inr (.inr ⟨hindexed, hnew, .inr ⟨hlast, habsent, hname⟩⟩)

theorem StaysOff.foreign_withUnusedNodeID (hm : m.Confined archived)
    {payload : P} {flags : TreeGatewayFlags} {optBefore : String}
    (hoff : StaysOff m other (chosenFootprint m t path flags)) :
    Foreign m other (withUnusedNodeID m interim opTag t path
      fun t' newNodeID => setNodeValue m flags optBefore opTag t'
        (chosenPath path flags newNodeID) payload) := by
  unfold withUnusedNodeID
  cases hfound : m.getDataNode t path with
  | some node =>
      simp only [withUnusedChildID, hfound]
      split
      · next newNodeID hchosen =>
        refine StaysOff.foreign_setNodeValue hm fun p hp => hoff p (.inr ?_)
        refine ⟨newNodeID, fun node' hnode => ?_, hp⟩
        obtain rfl := Option.some.inj (hfound.symm.trans hnode)
        exact findUnusedNodeID_unused hchosen
      · exact foreign_nothing
  | none =>
      have hcreate : StaysOff m other (setFootprint t path {}) := fun p hp =>
        hoff p (.inl ⟨hfound, hp⟩)
      simp only
      refine Foreign.andThen (hcreate.foreign
        (hm.setDataNode t path m.emptyMessage {} none)) fun _ => ?_
      unfold withUnusedChildID
      split
      · split
        · next newNodeID _ =>
          refine StaysOff.foreign_setNodeValue hm fun p hp => ?_
          rcases mem_setFootprint_of_created hm rfl hp with hfirst | hchild
          · exact hcreate p hfirst
          · refine hoff p (.inr ⟨newNodeID, fun node hnode => ?_, hchild⟩)
            rw [hfound] at hnode
            cases hnode
        · exact foreign_nothing
      · exact foreign_nothing

theorem StaysOff.foreign_handleNodeIndexUpdateMessage (hm : m.Confined archived)
    {inserts : Bool} {index : ℕ} {key optOpTag : String}
    {flags : TreeGatewayFlags}
    (hoff : StaysOff m other {p | m.getDataNode t
      (databaseSubpathToSessionRelativePath m mount t path flags) = some p}) :
    Foreign m other (handleNodeIndexUpdateMessage m mount ctx t path inserts
      index key flags optOpTag) := by
  unfold handleNodeIndexUpdateMessage
  split
  · split
    · next node hnode =>
      refine hoff.foreign fun c hc => ?_
      split at hc
      · rw [hm.insertIndexEntryAt t node index key c hc]
        exact hnode
      · rw [hm.removeIndexEntryAt t node index c hc]
        exact hnode
    · exact foreign_nothing
  · exact foreign_nothing

theorem StaysOff.foreign_handleNodeUpdateMessage (hm : m.Confined archived)
    (ctx : CommandContext) {optPayload : Option P} {flags : TreeGatewayFlags}
    {optBefore optOpTag : String}
    (hoff : StaysOff m other ((TreeMessage.updateNodeValue path optPayload flags
      optBefore optOpTag).footprint m mount archived ctx.inSeniorUpdate t)) :
    Foreign m other (handleNodeUpdateMessage m mount ctx t path optPayload flags
      optBefore optOpTag) := by
  unfold handleNodeUpdateMessage
  split
  · cases optPayload with
    | none =>
        exact hoff.foreign (hm.removeDataNodes t _ (ownNodes m mount none))
    | some payload =>
        simp only [TreeMessage.footprint] at hoff
        simp only
        split
        · next hchosen =>
          rw [if_pos hchosen] at hoff
          exact hoff.foreign_withUnusedNodeID hm
        · next hgiven =>
          rw [if_neg hgiven] at hoff
          exact hoff.foreign_setNodeValue hm
  · exact foreign_nothing

/-- **A command of the senior peer.** -/
theorem StaysOff.foreign_seniorCommand (hm : m.Confined archived)
    {msg : TreeMessage P}
    (hoff : StaysOff m other (msg.footprint m mount archived true t)) :
    Foreign m other (seniorCommand m mount (.plain true) t msg) := by
  cases msg with
  | updateNodeValue path optPayload flags optBefore optOpTag =>
      exact hoff.foreign_handleNodeUpdateMessage hm (.plain true)
  | updateSubtree path optPayload flags optOpTag =>
      cases optPayload with
      | none => exact foreign_nothing
      | some payload =>
          exact hoff.foreign (hm.restoreNodeTreeFromMessage t payload _)
  | insertIndexEntry path index key flags optOpTag =>
      exact hoff.foreign_handleNodeIndexUpdateMessage hm
  | removeIndexEntry path index key flags optOpTag =>
      exact hoff.foreign_handleNodeIndexUpdateMessage hm
  | requestDeleteNodes path filter flags optOpTag =>
      exact hoff.foreign (hm.removeDataNodes t _ (ownNodes m mount filter))
  | moveIndexEntry path optBefore filter flags optOpTag =>
      exact hoff.foreign (hm.moveIndexEntries t _ _ (ownNodes m mount filter))
  | batch subMsgs => exact foreign_nothing
  | noop => exact foreign_nothing
  | unknown what => exact foreign_nothing

/-- **A command of a junior peer.** -/
theorem StaysOff.foreign_juniorCommand (hm : m.Confined archived)
    {msg : TreeMessage P}
    (hoff : StaysOff m other (msg.footprint m mount archived false t)) :
    Foreign m other (juniorCommand m mount (.plain false) t msg) := by
  cases msg with
  | updateNodeValue path optPayload flags optBefore optOpTag =>
      exact hoff.foreign_handleNodeUpdateMessage hm (.plain false)
  | insertIndexEntry path index key flags optOpTag =>
      exact hoff.foreign_handleNodeIndexUpdateMessage hm
  | removeIndexEntry path index key flags optOpTag =>
      exact hoff.foreign_handleNodeIndexUpdateMessage hm
  | updateSubtree path optPayload flags optOpTag => exact foreign_nothing
  | requestDeleteNodes path filter flags optOpTag => exact foreign_nothing
  | moveIndexEntry path optBefore filter flags optOpTag =>
      exact foreign_nothing
  | batch subMsgs => exact foreign_nothing
  | noop => exact foreign_nothing
  | unknown what => exact foreign_nothing

/-- Commands one after another. -/
theorem foreign_runFlat {inSeniorUpdate : Bool}
    {command : (t : MessageTree P) → TreeMessage P → Execution t}
    (hcommand : ∀ {t msg}, StaysOff m other
      (TreeMessage.footprint m mount archived inSeniorUpdate t msg) →
        Foreign m other (command t msg))
    {msgs : List (TreeMessage P)}
    (hoff : AllStayOff m mount other archived inSeniorUpdate command msgs t) :
    Foreign m other (runFlat command msgs t) := by
  induction msgs generalizing t with
  | nil => exact foreign_nothing
  | cons msg msgs ih =>
      exact (hcommand hoff.1).andThen fun hok => ih (hoff.2 hok)

end Commands

section Operations

variable {m : Muscle P} {mount other : Mount} {archived : P → Set NodePath}
  {db : MessageTreeDatabaseObject P} {op : TreeOperation P}

open MessageTreeDatabaseObject

theorem TreeOperation.StaysOff.foreign (hm : m.Confined archived)
    (hoff : op.StaysOff m mount other archived db.tree) :
    Foreign m other (db.operation m mount op) := by
  cases op with
  | seniorUpdate seniorDoMsg =>
      simp only [operation, MessageTreeDatabaseObject.seniorMessageTreeUpdate,
        runMessage_eq_runFlat]
      exact foreign_runFlat (fun h => h.foreign_seniorCommand hm) hoff
  | juniorUpdate juniorDoMsg =>
      simp only [operation, MessageTreeDatabaseObject.juniorMessageTreeUpdate,
        runMessage_eq_runFlat]
      exact foreign_runFlat (fun h => h.foreign_juniorCommand hm) hoff
  | setToDefaultState inSeniorUpdate =>
      exact ZgChoir.StaysOff.foreign hoff
        (hm.removeDataNodes db.tree mount.root (ownNodes m mount none))
  | setFromArchive inSeniorUpdate archive =>
      exact ZgChoir.StaysOff.foreign hoff
        (hm.restoreNodeTreeFromMessage db.tree archive mount.root)

end Operations

section Below

variable {m : Muscle P} {mount other : Mount} {archived : P → Set NodePath}
  {t : MessageTree P} {p root relativePath subPath : NodePath}

/-- The database that is found for a node is as close above it as any. -/
theorem length_le_of_relativePathOf
    (h : relativePathOf m mount p = some relativePath)
    (hroot : root ∈ mount.roots)
    (hsub : getDatabaseSubpath m root p = some subPath) :
    relativePath.length ≤ subPath.length := by
  have hclosest : ∃ found ∈ getDatabaseForNodePath m mount p,
      found.2.length ≤ subPath.length := by
    obtain ⟨i, hi⟩ := List.mem_iff_getElem?.mp hroot
    have hmem : (root, i) ∈ mount.roots.zipIdx :=
      List.mem_zipIdx_iff_getElem?.mpr hi
    unfold getDatabaseForNodePath
    revert hmem
    induction mount.roots.zipIdx using List.reverseRecOn with
    | nil => exact fun hmem => absurd hmem List.not_mem_nil
    | append_singleton seen next ih =>
        intro hmem
        rw [List.foldl_append, List.foldl_cons, List.foldl_nil]
        generalize hfound : seen.foldl _ none = closest at ih ⊢
        rcases List.mem_append.mp hmem with hseen | hnext
        · obtain ⟨found, hclosest, hle⟩ := ih hseen
          obtain rfl := hclosest
          cases hnext : getDatabaseSubpath m next.1 p with
          | none => exact ⟨found, rfl, hle⟩
          | some nextSubpath =>
              dsimp only
              split
              · next hcloser => exact ⟨_, rfl, hcloser.le.trans hle⟩
              · exact ⟨found, rfl, hle⟩
        · obtain rfl := List.mem_singleton.mp hnext
          rw [hsub]
          cases closest with
          | none => exact ⟨_, rfl, le_rfl⟩
          | some found =>
              dsimp only
              split
              · exact ⟨_, rfl, le_rfl⟩
              · next hfarther => exact ⟨found, rfl, not_lt.mp hfarther⟩
  obtain ⟨found, hfound, hle⟩ := hclosest
  unfold relativePathOf at h
  rw [hfound] at h
  dsimp only at h
  split at h
  · obtain rfl := Option.some.inj h
    exact hle
  · cases h

theorem length_of_getDatabaseSubpath
    (h : getDatabaseSubpath m root p = some subPath) :
    subPath.length = p.length - root.length := by
  unfold getDatabaseSubpath at h
  split at h
  · split at h
    · cases h
    · split at h
      · rw [← Option.some.inj h, List.length_drop]
      · cases h
  · split at h
    · rw [← Option.some.inj h, List.length_drop]
    · cases h

/-- **A root within another database's** is the closer one to everything below
it. -/
theorem isNodeInThisDatabase_of_below (hroots : other.roots = mount.roots)
    (hself : m.segmentsMatch mount.root mount.root = true)
    (hlonger : other.root.length < mount.root.length)
    (hbelow : mount.root <+: p) : isNodeInThisDatabase m other p = false := by
  cases hfound : relativePathOf m other p with
  | none => simp [isNodeInThisDatabase, hfound]
  | some relativePath =>
      have hlength : relativePath.length = p.length - other.root.length :=
        length_of_getDatabaseSubpath (relativePathOf_eq_some hfound)
      have hsub : getDatabaseSubpath m mount.root p =
          some (p.drop mount.root.length) := by
        have hle := hbelow.length_le
        have hlength : ¬ p.length < mount.root.length := by omega
        simp [getDatabaseSubpath, hlength, hbelow, hself,
          ← List.prefix_iff_eq_take.mp hbelow]
      have hroot : mount.root ∈ other.roots :=
        hroots ▸ List.mem_of_getElem? mount.mounted
      have hle := length_le_of_relativePathOf hfound hroot hsub
      rw [List.length_drop, hlength] at hle
      have hlength := hbelow.length_le
      omega

/-- A database's root is a plain path, and nothing at it or below it is another
database's. -/
structure BelowRoot (m : Muscle P) (mount other : Mount) : Prop where
  plain : ∀ q, m.segmentsMatch mount.root q = true → q = mount.root
  nonempty : mount.root ≠ []
  clauses : "" ∉ mount.root
  own : ∀ p, mount.root <+: p → isNodeInThisDatabase m other p = false

/-- Whether the nodes of another database that are above a root are there. -/
def Rooted (m : Muscle P) (root : NodePath) (other : Mount)
    (t : MessageTree P) : Prop :=
  ∀ p, p <+: root → isNodeInThisDatabase m other p = true → p ∈ t.nodes

/-- A node at or below a root, or a missing one above it. -/
def NearRoot (root : NodePath) (t : MessageTree P) (p : NodePath) : Prop :=
  root <+: p ∨ p <+: root ∧ p ∉ t.nodes

theorem BelowRoot.staysOff (h : BelowRoot m mount other)
    (hrooted : Rooted m mount.root other t) {footprint : Set NodePath}
    (hnear : ∀ p ∈ footprint, NearRoot mount.root t p) :
    StaysOff m other footprint := by
  intro p hp
  rcases hnear p hp with hbelow | ⟨habove, hmissing⟩
  · exact h.own p hbelow
  · exact Bool.eq_false_iff.mpr fun hother => hmissing (hrooted p habove hother)

theorem BelowRoot.not_absolute (h : BelowRoot m mount other)
    (subPath : NodePath) : ¬ Absolute (mount.root ++ subPath) := by
  intro habsolute
  obtain ⟨clause, clauses, hroot⟩ := List.exists_cons_of_ne_nil h.nonempty
  rw [Absolute, hroot, List.cons_append, List.head?_cons,
    Option.some.injEq] at habsolute
  exact h.clauses (hroot ▸ habsolute ▸ List.mem_cons_self)

theorem nearRoot_missingParents
    (h : p ∈ t.missingParents (root ++ subPath)) : NearRoot root t p := by
  obtain ⟨htake, hmissing⟩ := List.mem_filter.mp h
  obtain ⟨k, -, rfl⟩ := List.mem_map.mp htake
  rcases List.prefix_or_prefix_of_prefix (List.take_prefix k _)
    (List.prefix_append root subPath) with habove | hbelow
  · exact .inr ⟨habove, of_decide_eq_true hmissing⟩
  · exact .inl hbelow

theorem BelowRoot.nearRoot_set (h : BelowRoot m mount other)
    {flags : SetDataNodeFlags}
    (hsub : flags.addToIndex = true → subPath ≠ [])
    (hp : p ∈ setFootprint t (mount.root ++ subPath) flags) :
    NearRoot mount.root t p := by
  rcases hp with habsolute |
    ⟨-, rfl | hmissing | ⟨hindexed, -, rfl | ⟨-, -, name, rfl⟩⟩⟩
  · exact absurd habsolute (h.not_absolute subPath)
  · exact .inl (List.prefix_append _ _)
  · exact nearRoot_missingParents hmissing
  · rw [List.dropLast_append_of_ne_nil (hsub hindexed)]
    exact .inl (List.prefix_append _ _)
  · rw [List.dropLast_append_of_ne_nil (hsub hindexed), List.append_assoc]
    exact .inl (List.prefix_append _ _)

theorem BelowRoot.prefix_of_names (h : BelowRoot m mount other) (hm : m.Local)
    {q : NodePath} (hq : m.Names (mount.root ++ subPath) q) :
    mount.root <+: q ∧ q.length = (mount.root ++ subPath).length := by
  rcases hq with rfl | ⟨-, hlength, hmatch⟩
  · exact ⟨List.prefix_append _ _, rfl⟩
  · have hmatch := hm.segmentsMatch_take mount.root.length hmatch
    rw [List.take_left] at hmatch
    rw [List.prefix_iff_eq_take]
    exact ⟨(h.plain _ hmatch).symm, hlength⟩

theorem BelowRoot.nearRoot_listedIn (h : BelowRoot m mount other)
    (hm : m.Local) (hsub : subPath ≠ []) {q : NodePath}
    (hq : m.Names (mount.root ++ subPath) q) (hp : ListedIn t q p) :
    NearRoot mount.root t p := by
  obtain ⟨hbelow, hlength⟩ := h.prefix_of_names hm hq
  have hpositive := List.length_pos_of_ne_nil hsub
  rw [List.length_append] at hlength
  rw [hp.1]
  refine .inl (List.prefix_of_prefix_length_le hbelow
    (List.dropLast_prefix q) ?_)
  rw [List.length_dropLast]
  omega

theorem BelowRoot.nearRoot_remove (h : BelowRoot m mount other)
    (hm : m.Local) (hsub : subPath ≠ [])
    {filter : NodePath → DataNode P → Bool}
    (hp : p ∈ removeFootprint m t (mount.root ++ subPath) filter) :
    NearRoot mount.root t p := by
  rcases hp with habsolute | ⟨q, hasked, ⟨hbelow, -⟩ | hlisted⟩
  · exact absurd habsolute (h.not_absolute subPath)
  · exact .inl ((h.prefix_of_names hm hasked.1).1.trans hbelow)
  · exact h.nearRoot_listedIn hm hsub hasked.1 hlisted

theorem BelowRoot.nearRoot_move (h : BelowRoot m mount other)
    (hm : m.Local) (hsub : subPath ≠ [])
    {filter : NodePath → DataNode P → Bool}
    (hp : p ∈ moveFootprint m t (mount.root ++ subPath) filter) :
    NearRoot mount.root t p := by
  rcases hp with habsolute | ⟨q, hasked, hlisted⟩
  · exact absurd habsolute (h.not_absolute subPath)
  · exact h.nearRoot_listedIn hm hsub hasked.1 hlisted

theorem BelowRoot.nearRoot_restore (h : BelowRoot m mount other)
    {nodes : Set NodePath}
    (hp : p ∈ restoreFootprint t (mount.root ++ subPath) nodes) :
    NearRoot mount.root t p := by
  rcases hp with habsolute | hmissing | ⟨below, -, rfl⟩
  · exact absurd habsolute (h.not_absolute subPath)
  · exact nearRoot_missingParents hmissing
  · rw [List.append_assoc]
    exact .inl (List.prefix_append _ _)

theorem BelowRoot.nearRoot_chosen (h : BelowRoot m mount other)
    {flags : TreeGatewayFlags}
    (hp : p ∈ chosenFootprint m t (mount.root ++ subPath) flags) :
    NearRoot mount.root t p := by
  rcases hp with ⟨-, hp⟩ | ⟨newNodeID, -, hp⟩
  · exact h.nearRoot_set (fun hindexed => by cases hindexed) hp
  · rw [chosenPath, List.append_assoc] at hp
    exact h.nearRoot_set (fun _ => by simp) hp

/-- **A command that follows no link** and is directed below the root. -/
theorem BelowRoot.nearRoot_footprint (h : BelowRoot m mount other)
    (hm : m.Local) {msg : TreeMessage P} {inSeniorUpdate : Bool}
    (hmsg : ∀ target ∈ msg.target,
      target.1 ≠ [] ∧ target.2.traverseSymlink = false)
    (hp : p ∈ msg.footprint m mount archived inSeniorUpdate t) :
    NearRoot mount.root t p := by
  have hplain : ∀ target ∈ msg.target,
      databaseSubpathToSessionRelativePath m mount t target.1 target.2 =
        mount.root ++ target.1 := by
    intro target htarget
    simp [databaseSubpathToSessionRelativePath, (hmsg target htarget).2]
  cases msg with
  | updateNodeValue path optPayload flags optBefore optOpTag =>
      have hwork := hplain (path, flags) rfl
      have hsub := (hmsg (path, flags) rfl).1
      cases optPayload with
      | none =>
          simp only [TreeMessage.footprint, hwork] at hp
          exact h.nearRoot_remove hm hsub hp
      | some payload =>
          simp only [TreeMessage.footprint, hwork] at hp
          split at hp
          · rw [List.dropLast_append_of_ne_nil hsub] at hp
            exact h.nearRoot_chosen hp
          · exact h.nearRoot_set (fun _ => hsub) hp
  | updateSubtree path optPayload flags optOpTag =>
      have hwork := hplain (path, flags) rfl
      cases optPayload with
      | none => cases hp
      | some payload =>
          simp only [TreeMessage.footprint, hwork] at hp
          split at hp
          · exact h.nearRoot_restore hp
          · cases hp
  | insertIndexEntry path index key flags optOpTag =>
      have hnode : m.getDataNode t (mount.root ++ path) = some p :=
        hplain (path, flags) rfl ▸ hp
      exact .inl (h.prefix_of_names hm
        (hm.getDataNode hnode (h.not_absolute path))).1
  | removeIndexEntry path index key flags optOpTag =>
      have hnode : m.getDataNode t (mount.root ++ path) = some p :=
        hplain (path, flags) rfl ▸ hp
      exact .inl (h.prefix_of_names hm
        (hm.getDataNode hnode (h.not_absolute path))).1
  | requestDeleteNodes path filter flags optOpTag =>
      have hwork := hplain (path, flags) rfl
      simp only [TreeMessage.footprint, hwork] at hp
      split at hp
      · exact h.nearRoot_remove hm (hmsg (path, flags) rfl).1 hp
      · cases hp
  | moveIndexEntry path optBefore filter flags optOpTag =>
      have hwork := hplain (path, flags) rfl
      simp only [TreeMessage.footprint, hwork] at hp
      split at hp
      · exact h.nearRoot_move hm (hmsg (path, flags) rfl).1 hp
      · cases hp
  | batch subMsgs => cases hp
  | noop => cases hp
  | unknown what => cases hp

/-- **From below its root** a database reaches no other one that has nothing
there, by whatever commands, as long as they follow no link. -/
theorem allStayOff_of_below (h : BelowRoot m mount other) (hm : m.Local)
    {inSeniorUpdate : Bool}
    {command : (t : MessageTree P) → TreeMessage P → Execution t}
    (hcommand : ∀ {t msg}, StaysOff m other
      (TreeMessage.footprint m mount archived inSeniorUpdate t msg) →
        Foreign m other (command t msg))
    (hrooted : Rooted m mount.root other t) {msgs : List (TreeMessage P)}
    (hmsgs : ∀ msg ∈ msgs, ∀ target ∈ msg.target,
      target.1 ≠ [] ∧ target.2.traverseSymlink = false) :
    AllStayOff m mount other archived inSeniorUpdate command msgs t := by
  induction msgs generalizing t with
  | nil => trivial
  | cons msg msgs ih =>
      have hoff : StaysOff m other
          (msg.footprint m mount archived inSeniorUpdate t) :=
        h.staysOff hrooted fun p hp => h.nearRoot_footprint hm
          (hmsgs msg List.mem_cons_self) hp
      refine ⟨hoff, fun _ => ih (fun p habove hother => ?_)
        fun next hmem => hmsgs next (List.mem_cons_of_mem msg hmem)⟩
      rw [MessageTree.mem_nodes_iff, (hcommand hoff).lookup hother,
        ← MessageTree.mem_nodes_iff]
      exact hrooted p habove hother

/-- **A database within another one** has nothing of it below its root. -/
theorem belowRoot_of_within (hroots : other.roots = mount.roots)
    (hplain : ∀ q, m.segmentsMatch mount.root q = true → q = mount.root)
    (hclauses : "" ∉ mount.root)
    (hself : m.segmentsMatch mount.root mount.root = true)
    (hlonger : other.root.length < mount.root.length) :
    BelowRoot m mount other where
  plain := hplain
  nonempty := List.ne_nil_of_length_pos (Nat.zero_lt_of_lt hlonger)
  clauses := hclauses
  own _ hbelow := isNodeInThisDatabase_of_below hroots hself hlonger hbelow

/-- **A database beside another one** has nothing of it there either. -/
theorem belowRoot_of_apart (hm : m.Local)
    (hplain : ∀ q, m.segmentsMatch mount.root q = true → q = mount.root)
    (hclauses : "" ∉ mount.root) (hapart : Apart m mount.root other.root) :
    BelowRoot m mount other where
  plain := hplain
  nonempty := by
    intro hnil
    have hne := hapart.1
    rw [hnil] at hne
    simp at hne
  clauses := hclauses
  own p hbelow := by
    rw [isNodeInThisDatabase,
      hm.relativePathOf_eq_none hapart (.inr hbelow)]
    rfl

end Below

/-! ## Sheets -/

section Sheets

open LiteralTree SheetTree

variable {t : MessageTree Sheet} {path : NodePath} {c : TreeChange Sheet}

/-- The nodes that an archive has. -/
def archivedNodes : Sheet → Set NodePath
  | .archive nodes => {p | ∃ node ∈ nodes, node.1 = p}
  | .page _ => ∅

theorem path_of_missingParents {empty : Sheet}
    (h : c ∈ (t.missingParents path).map (.payloadSet · empty)) :
    c.path ∈ t.missingParents path := by
  obtain ⟨above, habove, rfl⟩ := List.mem_map.mp h
  exact habove

theorem path_of_setChanges {empty payload : Sheet} {flags : SetDataNodeFlags}
    {optInsertBefore : Option String}
    (hflags : (if path ∈ t.nodes then flags.dontOverwriteData
      else flags.dontCreateNode) = false)
    (h : c ∈ setChanges t empty path payload flags.addToIndex
      optInsertBefore) :
    c.path ∈ setFootprint t path flags := by
  refine .inr ⟨hflags, ?_⟩
  rcases List.mem_append.mp h with h | h
  · exact .inr (.inl (path_of_missingParents h))
  · rcases List.mem_cons.mp h with rfl | h
    · exact .inl rfl
    · split at h
      · split at h
        · next hindexed =>
          simp only [Bool.and_eq_true, decide_eq_true_eq] at hindexed
          obtain rfl := List.mem_singleton.mp h
          exact .inr (.inr ⟨hindexed.1, hindexed.2, .inl rfl⟩)
        · cases h
      · cases h

theorem listedIn_of_unlist {name : String} {before : ℕ}
    {index : List String} {parent : NodePath}
    (h : c ∈ unlist (P := Sheet) parent name before index) :
    c.path = parent ∧ name ∈ index := by
  induction index generalizing before with
  | nil => cases h
  | cons key keys ih =>
      unfold unlist at h
      split at h
      · next hkey =>
        rcases List.mem_cons.mp h with rfl | h
        · exact ⟨rfl, hkey ▸ List.mem_cons_self⟩
        · exact ⟨(ih h).1, List.mem_cons_of_mem key (ih h).2⟩
      · exact ⟨(ih h).1, List.mem_cons_of_mem key (ih h).2⟩

theorem path_of_removeChanges (h : c ∈ removeChanges t path) :
    path <+: c.path ∧ c.path ∈ t.nodes ∨ ListedIn t path c.path := by
  rcases List.mem_append.mp h with h | h
  · rcases List.mem_append.mp h with h | h
    · split at h
      · next name hname =>
        obtain ⟨hparent, hmem⟩ := listedIn_of_unlist h
        exact .inr ⟨hparent, name, hname, hparent ▸ hmem⟩
      · cases h
    · obtain ⟨q, hq, h⟩ := List.mem_flatMap.mp h
      obtain ⟨key, -, rfl⟩ := List.mem_map.mp h
      exact .inl (mem_pathsBelow.mp hq)
  · obtain ⟨q, hq, rfl⟩ := List.mem_map.mp h
    exact .inl (mem_pathsBelow.mp hq)

theorem path_of_moveChanges {name : String} {optBefore : Option String}
    (hname : path.getLast? = some name)
    (h : c ∈ moveChanges t path.dropLast name optBefore) :
    ListedIn t path c.path := by
  unfold moveChanges at h
  simp only at h
  split at h
  · next hmem =>
    simp only [List.mem_cons, List.not_mem_nil, or_false] at h
    rcases h with rfl | rfl
    · exact ⟨rfl, name, hname, hmem⟩
    · exact ⟨rfl, name, hname, hmem⟩
  · cases h

theorem path_of_restoreChanges {nodes : List (NodePath × Page × List String)}
    (h : c ∈ restoreChanges t path nodes) :
    c.path ∈ restoreFootprint t path (archivedNodes (.archive nodes)) := by
  rcases List.mem_append.mp h with h | h
  · rcases List.mem_append.mp h with h | h
    · exact .inr (.inl (path_of_missingParents h))
    · obtain ⟨node, hnode, rfl⟩ := List.mem_map.mp h
      exact .inr (.inr ⟨node.1, ⟨node, hnode, rfl⟩, rfl⟩)
  · obtain ⟨node, hnode, h⟩ := List.mem_flatMap.mp h
    obtain ⟨entry, -, rfl⟩ := List.mem_map.mp h
    exact .inr (.inr ⟨node.1, ⟨node, hnode, rfl⟩, rfl⟩)

/-- **The MUSCLE for sheets** changes what it should. -/
theorem sheetMuscle_confined :
    sheetMuscle.toMuscle.Confined archivedNodes where
  setDataNode t path payload flags optInsertBefore c hc := by
    simp only [sheetMuscle] at hc
    split at hc
    · next hmem =>
      split at hc
      · cases hc
      · next hflag =>
        refine path_of_setChanges ?_ (Outcome.mem_ofValid hc)
        rw [if_pos hmem]
        exact Bool.eq_false_iff.mpr hflag
    · next hnew =>
      split at hc
      · cases hc
      · next hflag =>
        refine path_of_setChanges ?_ (Outcome.mem_ofValid hc)
        rw [if_neg hnew]
        exact Bool.eq_false_iff.mpr hflag
  removeDataNodes t path filter c hc := by
    simp only [sheetMuscle] at hc
    split at hc
    · next node hnode =>
      split at hc
      · next hpass => exact .inr ⟨path, ⟨.inl rfl, node, hnode, hpass⟩,
          path_of_removeChanges (Outcome.mem_ofValid hc)⟩
      · cases hc
    · cases hc
  moveIndexEntries t path optBefore filter c hc := by
    simp only [sheetMuscle] at hc
    split at hc
    · next node name hnode hname =>
      split at hc
      · next hpass => exact .inr ⟨path, ⟨.inl rfl, node, hnode, hpass⟩,
          path_of_moveChanges hname (Outcome.mem_ofValid hc)⟩
      · cases hc
    · cases hc
  restoreNodeTreeFromMessage t msg path c hc := by
    cases msg with
    | archive nodes => exact path_of_restoreChanges (Outcome.mem_ofValid hc)
    | page page => cases hc
  insertIndexEntryAt t path index key c hc := by
    obtain rfl := List.mem_singleton.mp (Outcome.mem_ofValid hc)
    rfl
  removeIndexEntryAt t path index c hc := by
    simp only [sheetMuscle] at hc
    split at hc
    · obtain rfl := List.mem_singleton.mp (Outcome.mem_ofValid hc)
      rfl
    · cases hc

/-- One of two databases that stand side by side. -/
def leftMount : Mount :=
  { roots := [["a"], ["b"]], dbIndex := 0, root := ["a"]
    mounted := List.getElem?_cons_zero }

/-- The other one. -/
def rightMount : Mount :=
  { roots := [["a"], ["b"]], dbIndex := 1, root := ["b"], mounted := rfl }

/-- A database that is mounted inside the first one. -/
def innerMount : Mount :=
  { roots := [["a"], ["a", "b"]], dbIndex := 1, root := ["a", "b"]
    mounted := rfl }

/-- The first one, of those two. -/
def outerMount : Mount :=
  { roots := [["a"], ["a", "b"]], dbIndex := 0, root := ["a"]
    mounted := List.getElem?_cons_zero }

/-- A page that is a link to a node of the session. -/
def linkTo (name : String) : Sheet :=
  .page { strings := [("__symlink", name)] }

/-- A database in a session that has the roots of all of these, and in the first
one a link to "b". -/
def sharedDatabase : MessageTreeDatabaseObject Sheet :=
  { tree := TreeChange.applyAll blankSession
      [.payloadSet ["a"] (.number 1), .payloadSet ["b"] (.number 2),
        .payloadSet ["a", "b"] (.number 3), .payloadSet ["a", "l"] (linkTo "b")]
    checksum := 0
    assembledJuniorMessage := none
    recordsUndo := false
    assembledJuniorUndoMessage := none }

/-- A batch that sets a node and deletes it again, and fails then. -/
def failingBatch : TreeMessage Sheet :=
  .batch [.updateNodeValue ["x"] (some (.number 7)) { indexed := true } "" "",
    .requestDeleteNodes ["x"] none {} "", .unknown 7,
    .updateNodeValue ["y"] (some (.number 8)) {} "" ""]

/-- The second clause of an inner root is plain. -/
theorem belowRoot_innerMount :
    BelowRoot sheetMuscle.toMuscle innerMount outerMount := by
  refine belowRoot_of_within rfl (fun q hmatch => ?_) (by decide) (by decide)
    (by decide)
  match q with
  | [] => simp [sheetMuscle, innerMount] at hmatch
  | [_] => simp [sheetMuscle, innerMount] at hmatch
  | [first, second] =>
      obtain ⟨hfirst, hsecond⟩ : "a" = first ∧ "b" = second := by
        simpa [sheetMuscle, innerMount] using hmatch
      rw [← hfirst, ← hsecond]
      rfl
  | _ :: _ :: _ :: _ => simp [sheetMuscle, innerMount] at hmatch

/-- A MUSCLE for sheets that knows links to nodes right below the session's. -/
def linkMuscle : Muscle Sheet :=
  { sheetMuscle.toMuscle with
    symlinkTarget := fun s =>
      (s.front.strings.lookup "__symlink").map fun name => [name] }

end Sheets

end ZgChoir
