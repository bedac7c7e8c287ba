import ZgChoir.Runs
import ZgChoir.SheetMuscle

/-!
# The running checksum

The object never adds up its database again; it patches `checksum` in the
callbacks.  That works as long as it hears of exactly the changes below its
root (`Accounted`).  It is wrong after a removal that was asked to be quiet,
and after a change in a database that is mounted inside this one, of which
the other database hears.
-/

namespace ZgChoir

variable {P : Type} {m : Muscle P} {mount : Mount} {t : MessageTree P}
variable {root p : NodePath}

/-! ### What one change does to the sum -/

section

variable (m)

/-- What the node at `p` adds to the checksums above it. -/
def checksumAt (t : MessageTree P) (p : NodePath) : UInt32 :=
  match t.lookup p with
  | some node => nodeChecksum m node
  | none => 0

end

private theorem weightAt_of_below (h : root <+: p) :
    t.nodes.weightAt (fun q node => if root <+: q then nodeChecksum m node
      else 0) p = checksumAt m t p := by
  unfold Finmap.weightAt checksumAt MessageTree.lookup
  cases t.nodes.lookup p with
  | none => rfl
  | some node => simp [h]

private theorem weightAt_of_not_below (h : ¬ root <+: p) :
    t.nodes.weightAt (fun q node => if root <+: q then nodeChecksum m node
      else 0) p = 0 := by
  unfold Finmap.weightAt
  cases t.nodes.lookup p with
  | none => rfl
  | some node => simp [h]

private theorem subtreeChecksum_applyTo_eq {c : TreeChange P}
    (happlies : c.AppliesTo t) :
    subtreeChecksum m (c.applyTo t) root = subtreeChecksum m t root -
      t.nodes.weightAt (fun q node => if root <+: q then nodeChecksum m node
        else 0) c.path +
      (c.applyTo t).nodes.weightAt (fun q node => if root <+: q then
        nodeChecksum m node else 0) c.path :=
  Finmap.total_of_agree_off fun _ hq =>
    TreeChange.lookup_applyTo_of_ne happlies hq

/-- A change elsewhere does not touch the sum. -/
theorem subtreeChecksum_applyTo_of_not_below {c : TreeChange P}
    (happlies : c.AppliesTo t) (h : ¬ root <+: c.path) :
    subtreeChecksum m (c.applyTo t) root = subtreeChecksum m t root := by
  rw [subtreeChecksum_applyTo_eq happlies, weightAt_of_not_below h,
    weightAt_of_not_below h]
  simp

/-- A change below the root gives the node's old checksum for its new one. -/
theorem subtreeChecksum_applyTo_of_below {c : TreeChange P}
    (happlies : c.AppliesTo t) (h : root <+: c.path) :
    subtreeChecksum m (c.applyTo t) root = subtreeChecksum m t root -
      checksumAt m t c.path + checksumAt m (c.applyTo t) c.path := by
  rw [subtreeChecksum_applyTo_eq happlies, weightAt_of_below h,
    weightAt_of_below h]

/-- The checksum of a node with nothing below it. -/
theorem subtreeChecksum_of_leaf
    (hleaf : ∀ q ∈ t.nodes, p <+: q → q = p) :
    subtreeChecksum m t p = checksumAt m t p := by
  rw [← weightAt_of_below (List.prefix_refl p)]
  refine Finmap.total_eq_weightAt fun q node hq hne => ?_
  have hmem : q ∈ t.nodes := Finmap.mem_of_lookup_eq_some hq
  exact if_neg fun hbelow => hne (hleaf q hmem hbelow)

/-- Where there is no node there is nothing below, either. -/
theorem subtreeChecksum_of_notMem (h : p ∉ t.nodes) :
    subtreeChecksum m t p = 0 := by
  have hleaf : ∀ q ∈ t.nodes, p <+: q → q = p := fun q hq hbelow =>
    absurd (t.mem_of_isPrefix hq hbelow) h
  rw [subtreeChecksum_of_leaf hleaf, checksumAt, MessageTree.lookup,
    Finmap.lookup_eq_none.mpr h]

/-- `CalculateChecksum` is the sum over everything below the root. -/
theorem calculateChecksum_eq {db : MessageTreeDatabaseObject P} :
    db.calculateChecksum m mount = subtreeChecksum m db.tree mount.root := by
  unfold MessageTreeDatabaseObject.calculateChecksum
  split
  · rfl
  · rename_i h
    exact (subtreeChecksum_of_notMem h).symm

/-- A node that can be removed has nothing below it. -/
theorem TreeChange.leaf_of_removed (h : AppliesTo t (.removed p)) :
    ∀ q ∈ t.nodes, p <+: q → q = p := by
  rintro q hq ⟨below, rfl⟩
  cases below with
  | nil => simp
  | cons name below =>
      have hchild : p ++ [name] ∈ t.nodes :=
        t.mem_of_isPrefix hq ⟨below, by simp⟩
      exact absurd (by simp)
        (h.2.2.1 (p ++ [name]) (Finmap.mem_keys.mpr hchild) (by simp))

/-- A node that is created has nothing below it. -/
theorem TreeChange.leaf_of_created {payload : P}
    (h : AppliesTo t (.payloadSet p payload)) (hnew : t.lookup p = none) :
    ∀ q ∈ ((payloadSet p payload).applyTo t).nodes, p <+: q → q = p := by
  intro q hq hbelow
  by_contra hne
  obtain ⟨node, hnode⟩ := MessageTree.mem_nodes_iff.mp hq
  rw [TreeChange.lookup_payloadSet h, if_neg hne] at hnode
  have hmem : p ∈ t.nodes :=
    t.mem_of_isPrefix (MessageTree.mem_nodes_iff.mpr ⟨node, hnode⟩) hbelow
  exact Finmap.lookup_eq_none.mp hnew hmem

/-! ### What the callback makes of it -/

section

variable {db : MessageTreeDatabaseObject P} {inSeniorUpdate : Bool}
variable {relativePath : NodePath}

@[simp] theorem record_checksum {doMsg undoMsg : TreeMessage P} :
    (db.record m doMsg undoMsg).checksum = db.checksum := rfl

theorem checksumAt_of_lookup {node : DataNode P} (h : t.lookup p = some node) :
    checksumAt m t p = m.messageChecksum node.payload +
      (node.index.map m.stringChecksum).sum := by
  rw [checksumAt, h]
  rfl

private theorem hear_payloadSet {e : Effect P} {payload : P}
    (hc : e.change = .payloadSet p payload)
    (happlies : e.change.AppliesTo db.tree) :
    (db.hear m inSeniorUpdate relativePath e).checksum =
      db.checksum - checksumAt m db.tree p +
        checksumAt m (e.change.applyTo db.tree) p := by
  obtain ⟨quiet, interim, opTag, c⟩ := e
  obtain rfl : c = .payloadSet p payload := hc
  have hafter : ((TreeChange.payloadSet p payload).applyTo db.tree).lookup p =
      some { payload, index := db.tree.indexOf p } := by
    rw [TreeChange.lookup_payloadSet happlies, if_pos rfl]
  cases hbefore : db.tree.lookup p with
  | some node =>
      have hindex : db.tree.indexOf p = node.index := by
        rw [MessageTree.indexOf, hbefore]
      rw [checksumAt_of_lookup hbefore, checksumAt_of_lookup hafter, hindex]
      simp only [MessageTreeDatabaseObject.hear,
        MessageTreeDatabaseObject.messageTreeNodeUpdated, hbefore]
      simp only [Option.map_some, Bool.false_eq_true, if_false]
      abel
  | none =>
      have hleaf := TreeChange.leaf_of_created happlies hbefore
      have hnone : checksumAt m db.tree p = 0 := by rw [checksumAt, hbefore]
      simp only [MessageTreeDatabaseObject.hear,
        MessageTreeDatabaseObject.messageTreeNodeUpdated, hbefore]
      simp only [Option.map_none, Bool.false_eq_true, if_false]
      rw [subtreeChecksum_of_leaf hleaf, hnone, sub_zero]

private theorem hear_removed {e : Effect P} (hc : e.change = .removed p)
    (happlies : e.change.AppliesTo db.tree) :
    (db.hear m inSeniorUpdate relativePath e).checksum =
      db.checksum - checksumAt m db.tree p +
        checksumAt m (e.change.applyTo db.tree) p := by
  obtain ⟨quiet, interim, opTag, c⟩ := e
  obtain rfl : c = .removed p := hc
  have hleaf := TreeChange.leaf_of_removed happlies
  obtain ⟨node, hnode⟩ := MessageTree.mem_nodes_iff.mp happlies.1
  have hafter : ((TreeChange.removed p).applyTo db.tree).lookup p = none := by
    rw [TreeChange.lookup_removed happlies, if_pos rfl]
  have hgone : checksumAt m ((TreeChange.removed p).applyTo db.tree) p = 0 := by
    rw [checksumAt, hafter]
  simp only [MessageTreeDatabaseObject.hear, hnode,
    MessageTreeDatabaseObject.messageTreeNodeUpdated, if_true]
  rw [subtreeChecksum_of_leaf hleaf, hgone, add_zero]

private theorem hear_indexInserted {e : Effect P} {index : ℕ} {key : String}
    (hc : e.change = .indexInserted p index key)
    (happlies : e.change.AppliesTo db.tree) :
    (db.hear m inSeniorUpdate relativePath e).checksum =
      db.checksum - checksumAt m db.tree p +
        checksumAt m (e.change.applyTo db.tree) p := by
  obtain ⟨quiet, interim, opTag, c⟩ := e
  obtain rfl : c = .indexInserted p index key := hc
  have hmem : p ∈ db.tree.nodes :=
    db.tree.mem_of_isPrefix happlies.1 ⟨[key], rfl⟩
  obtain ⟨node, hnode⟩ := MessageTree.mem_nodes_iff.mp hmem
  have hle : index ≤ node.index.length := by
    have := happlies.2
    rwa [MessageTree.indexOf, hnode] at this
  have hafter : ((TreeChange.indexInserted p index key).applyTo
      db.tree).lookup p =
      some { node with index := node.index.insertIdx index key } := by
    rw [TreeChange.lookup_indexInserted happlies, if_pos rfl, hnode]
    rfl
  have hsum : ((node.index.insertIdx index key).map m.stringChecksum).sum =
      m.stringChecksum key + (node.index.map m.stringChecksum).sum := by
    rw [((List.perm_insertIdx key node.index hle).map _).sum_eq]
    simp
  rw [checksumAt_of_lookup hnode, checksumAt_of_lookup hafter, hsum]
  simp only [MessageTreeDatabaseObject.hear,
    MessageTreeDatabaseObject.messageTreeNodeIndexChanged, if_true]
  abel

private theorem hear_indexRemoved {e : Effect P} {index : ℕ} {key : String}
    (hc : e.change = .indexRemoved p index key)
    (happlies : e.change.AppliesTo db.tree) :
    (db.hear m inSeniorUpdate relativePath e).checksum =
      db.checksum - checksumAt m db.tree p +
        checksumAt m (e.change.applyTo db.tree) p := by
  obtain ⟨quiet, interim, opTag, c⟩ := e
  obtain rfl : c = .indexRemoved p index key := hc
  have hkey : (db.tree.indexOf p)[index]? = some key := happlies
  cases hnode : db.tree.lookup p with
  | none =>
      rw [MessageTree.indexOf, hnode] at hkey
      simp at hkey
  | some node =>
      rw [MessageTree.indexOf, hnode] at hkey
      obtain ⟨hlt, hget⟩ := List.getElem?_eq_some_iff.mp hkey
      have hafter : ((TreeChange.indexRemoved p index key).applyTo
          db.tree).lookup p =
          some { node with index := node.index.eraseIdx index } := by
        rw [TreeChange.lookup_indexRemoved happlies, if_pos rfl, hnode]
        rfl
      have hsum : (node.index.map m.stringChecksum).sum =
          m.stringChecksum key +
            ((node.index.eraseIdx index).map m.stringChecksum).sum := by
        rw [← ((List.getElem_cons_eraseIdx_perm hlt).map _).sum_eq, hget]
        simp
      rw [checksumAt_of_lookup hnode, checksumAt_of_lookup hafter, hsum]
      simp only [MessageTreeDatabaseObject.hear,
        MessageTreeDatabaseObject.messageTreeNodeIndexChanged,
        Bool.false_eq_true, if_false]
      abel

/-- The callback gives the node's old checksum for its new one. -/
theorem hear_checksum {e : Effect P} (happlies : e.change.AppliesTo db.tree) :
    (db.hear m inSeniorUpdate relativePath e).checksum =
      db.checksum - checksumAt m db.tree e.change.path +
        checksumAt m (e.change.applyTo db.tree) e.change.path := by
  obtain ⟨quiet, interim, opTag, c⟩ := e
  cases c with
  | payloadSet path payload => exact hear_payloadSet rfl happlies
  | removed path => exact hear_removed rfl happlies
  | indexInserted path index key => exact hear_indexInserted rfl happlies
  | indexRemoved path index key => exact hear_indexRemoved rfl happlies

/-- The database hears of a change if and only if it is below its root. -/
def Accounted (m : Muscle P) (mount : Mount) (e : Effect P) : Prop :=
  (e.quiet = false ∧ isNodeInThisDatabase m mount e.change.path = true) ↔
    mount.root <+: e.change.path

instance : DecidablePred (Accounted m mount) := fun _ =>
  inferInstanceAs (Decidable (_ ↔ _))

@[simp] theorem notify_tree {e : Effect P} :
    (db.notify m mount inSeniorUpdate e).tree = e.change.applyTo db.tree := rfl

/-- **One change.**  Of a change that is accounted for, the checksum stays
the sum. -/
theorem notify_checksum {e : Effect P} (happlies : e.change.AppliesTo db.tree)
    (haccounted : Accounted m mount e)
    (hsum : db.checksum = subtreeChecksum m db.tree mount.root) :
    (db.notify m mount inSeniorUpdate e).checksum =
      subtreeChecksum m (e.change.applyTo db.tree) mount.root := by
  by_cases hbelow : mount.root <+: e.change.path
  · obtain ⟨hloud, hours⟩ := haccounted.mpr hbelow
    obtain ⟨relativePath, hrelative⟩ := Option.isSome_iff_exists.mp hours
    have hheard : (db.notify m mount inSeniorUpdate e).checksum =
        (db.hear m inSeniorUpdate relativePath e).checksum := by
      simp [MessageTreeDatabaseObject.notify, hloud, hrelative]
    rw [hheard, hear_checksum happlies, hsum,
      subtreeChecksum_applyTo_of_below happlies hbelow]
  · have hunheard : (db.notify m mount inSeniorUpdate e).checksum =
        db.checksum := by
      have hnot := fun h => hbelow (haccounted.mp h)
      cases hquiet : e.quiet with
      | true => simp [MessageTreeDatabaseObject.notify, hquiet]
      | false =>
          have hothers : relativePathOf m mount e.change.path = none := by
            by_contra hne
            exact hnot ⟨hquiet, Option.isSome_iff_ne_none.mpr hne⟩
          simp [MessageTreeDatabaseObject.notify, hquiet, hothers]
    rw [subtreeChecksum_applyTo_of_not_below happlies hbelow, ← hsum, hunheard]

theorem notifyAll_tree {effects : List (Effect P)} :
    (db.notifyAll m mount inSeniorUpdate effects).tree =
      TreeChange.applyAll db.tree (effects.map (·.change)) := by
  induction effects generalizing db with
  | nil => rfl
  | cons e effects ih => exact ih

/-- **One execution.** -/
theorem notifyAll_checksum {effects : List (Effect P)}
    (hvalid : TreeChange.Valid db.tree (effects.map (·.change)))
    (haccounted : ∀ e ∈ effects, Accounted m mount e)
    (hsum : db.checksum = subtreeChecksum m db.tree mount.root) :
    (db.notifyAll m mount inSeniorUpdate effects).checksum =
      subtreeChecksum m (db.notifyAll m mount inSeniorUpdate effects).tree
        mount.root := by
  induction effects generalizing db with
  | nil => exact hsum
  | cons e effects ih =>
      have hstep : (db.notify m mount inSeniorUpdate e).checksum =
          subtreeChecksum m (db.notify m mount inSeniorUpdate e).tree
            mount.root :=
        notify_checksum hvalid.1 (haccounted e List.mem_cons_self) hsum
      exact ih hvalid.2
        (fun e' he' => haccounted e' (List.mem_cons_of_mem _ he')) hstep

end

/-! ### Runs -/

/-- What can be done to a database. -/
inductive TreeOperation (P : Type) where
  | seniorUpdate (seniorDoMsg : TreeMessage P)
  | juniorUpdate (juniorDoMsg : TreeMessage P)
  | setToDefaultState (inSeniorUpdate : Bool)
  | setFromArchive (inSeniorUpdate : Bool) (archive : P)

namespace MessageTreeDatabaseObject

variable (m mount)

/-- What an operation does to the tree. -/
def operation (db : MessageTreeDatabaseObject P) :
    TreeOperation P → Execution db.tree
  | .seniorUpdate seniorDoMsg => db.seniorMessageTreeUpdate m mount seniorDoMsg
  | .juniorUpdate juniorDoMsg => db.juniorMessageTreeUpdate m mount juniorDoMsg
  | .setToDefaultState _ => db.removeRoot m mount
  | .setFromArchive _ archive => db.restore m mount archive

/-- The database after an operation. -/
def operate (db : MessageTreeDatabaseObject P) :
    TreeOperation P → MessageTreeDatabaseObject P
  | .seniorUpdate seniorDoMsg => (db.seniorUpdate m mount seniorDoMsg).1
  | .juniorUpdate juniorDoMsg => (db.juniorUpdate m mount juniorDoMsg).1
  | .setToDefaultState inSeniorUpdate =>
      db.setToDefaultState m mount inSeniorUpdate
  | .setFromArchive inSeniorUpdate archive =>
      (db.setFromArchive m mount inSeniorUpdate archive).1

variable {m mount}

/-- An operation makes the callbacks for what it does to the tree; the
message for the junior peers is beside the point here. -/
theorem operate_eq {db : MessageTreeDatabaseObject P} (op : TreeOperation P) :
    ∃ inSeniorUpdate assembled, db.operate m mount op =
      { db.notifyAll m mount inSeniorUpdate (db.operation m mount op).effects
        with assembledJuniorMessage := assembled } := by
  cases op with
  | seniorUpdate seniorDoMsg =>
      refine ⟨true, none, ?_⟩
      simp only [operate, seniorUpdate, operation]
      split <;> rfl
  | juniorUpdate juniorDoMsg => exact ⟨false, _, rfl⟩
  | setToDefaultState inSeniorUpdate => exact ⟨inSeniorUpdate, _, rfl⟩
  | setFromArchive inSeniorUpdate archive => exact ⟨inSeniorUpdate, _, rfl⟩

/-- **One operation.** -/
theorem operate_checksum {db : MessageTreeDatabaseObject P}
    (op : TreeOperation P)
    (haccounted : ∀ e ∈ (db.operation m mount op).effects,
      Accounted m mount e)
    (hsum : db.checksum = db.calculateChecksum m mount) :
    (db.operate m mount op).checksum =
      (db.operate m mount op).calculateChecksum m mount := by
  rw [calculateChecksum_eq] at hsum ⊢
  obtain ⟨inSeniorUpdate, assembled, heq⟩ := @operate_eq _ m mount db op
  rw [heq]
  exact notifyAll_checksum (db.operation m mount op).valid haccounted hsum

/-- **Runs.**  From a database whose running checksum is right, it is right
after every run of operations that change nothing the database should, and
does not, hear of. -/
theorem runningChecksum_of_accounted {db : MessageTreeDatabaseObject P}
    {ops : List (TreeOperation P)}
    (hsum : db.checksum = db.calculateChecksum m mount)
    (haccounted : Runs.StepsMeet (operate m mount)
      (fun db op => ∀ e ∈ (db.operation m mount op).effects,
        Accounted m mount e) db ops) :
    (Runs.run (operate m mount) db ops).checksum =
      (Runs.run (operate m mount) db ops).calculateChecksum m mount :=
  Runs.run_invariant_of_stepsMeet
    (I := fun db => db.checksum = db.calculateChecksum m mount) hsum haccounted
    fun _ op hright hop => operate_checksum op hop hright

/-- A database that has just been constructed, without undo stacks. -/
def plainDatabase : MessageTreeDatabaseObject Sheet :=
  { blankDatabase with recordsUndo := false }

/-- A sheet is put down, written over, joined by another and taken away. -/
def fourSheets : List (TreeOperation Sheet) :=
  [.seniorUpdate (.updateNodeValue ["x"] (some (.number 7))
    { indexed := true } "" ""),
  .juniorUpdate (.updateNodeValue ["x"] (some (.number 9)) {} "" ""),
  .seniorUpdate (.updateNodeValue ["y"] (some (.number 4)) {} "" ""),
  .seniorUpdate (.requestDeleteNodes ["x"] none {} "")]

theorem runningChecksum_of_accounted_fourSheets :
    (Runs.run (operate sheetMuscle.toMuscle sheetMount) plainDatabase
      fourSheets).checksum =
    (Runs.run (operate sheetMuscle.toMuscle sheetMount) plainDatabase
      fourSheets).calculateChecksum sheetMuscle.toMuscle sheetMount :=
  runningChecksum_of_accounted (by decide) (by decide)

/-- A removal that was asked to be quiet succeeds, and leaves the checksum
of the node behind. -/
theorem quietRemoval_runningChecksum :
    ((Runs.run (operate sheetMuscle.toMuscle sheetMount) plainDatabase
      [.seniorUpdate (.updateNodeValue ["x"] (some (.number 7)) {} "" "")]
      ).seniorUpdate sheetMuscle.toMuscle sheetMount
        (.requestDeleteNodes ["x"] none { noReply := true } "")).2.isSome ∧
    (Runs.run (operate sheetMuscle.toMuscle sheetMount) plainDatabase
      [.seniorUpdate (.updateNodeValue ["x"] (some (.number 7)) {} "" ""),
      .seniorUpdate (.requestDeleteNodes ["x"] none { noReply := true }
        "")]).checksum = 7 ∧
    (Runs.run (operate sheetMuscle.toMuscle sheetMount) plainDatabase
      [.seniorUpdate (.updateNodeValue ["x"] (some (.number 7)) {} "" ""),
      .seniorUpdate (.requestDeleteNodes ["x"] none { noReply := true }
        "")]).calculateChecksum sheetMuscle.toMuscle sheetMount = 0 := by
  decide

end MessageTreeDatabaseObject

end ZgChoir
