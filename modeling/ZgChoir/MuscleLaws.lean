import ZgChoir.MessageTreeDatabase

/-!
# What MUSCLE does at a path that names one node

The laws below are about the simplest uses of MUSCLE's methods, the ones that
recorded messages are replayed with: every path names one node, and every
change applies.  What the methods do with patterns, or where a change does not
apply, is left open.

A batch is run like the list of the messages in it and in the batches in it
(`runMessage_eq_runFlat`).
-/

namespace ZgChoir

variable {P : Type} {t : MessageTree P}

/-- The messages in a message, batches taken apart. -/
def TreeMessage.flatten : TreeMessage P → List (TreeMessage P)
  | .batch subMsgs => flattenAll subMsgs
  | msg => [msg]
where
  flattenAll : List (TreeMessage P) → List (TreeMessage P)
  | [] => []
  | subMsg :: subMsgs => flatten subMsg ++ flattenAll subMsgs

theorem flattenAll_append {msgs msgs' : List (TreeMessage P)} :
    TreeMessage.flatten.flattenAll (msgs ++ msgs') =
      TreeMessage.flatten.flattenAll msgs ++
        TreeMessage.flatten.flattenAll msgs' := by
  induction msgs with
  | nil => rfl
  | cons msg msgs ih =>
      simp only [List.cons_append, TreeMessage.flatten.flattenAll, ih,
        List.append_assoc]

/-- A path that is no pattern, and has no empty clause. -/
structure Literal (m : Muscle P) (path : NodePath) : Prop where
  single : m.canMatchMultipleValues path = false
  clauses : "" ∉ path

/-- **The laws of MUSCLE.** -/
structure Muscle.Lawful (m : Muscle P) : Prop where
  getDataNode : ∀ (t : MessageTree P) {path}, Literal m path →
    m.getDataNode t path = if path ∈ t.nodes then some path else none
  /-- A node is written, and what is missing above it is created. -/
  setDataNode : ∀ (t : MessageTree P) {path} (payload), path ≠ [] →
    "" ∉ path →
    (m.setDataNode t path payload {} none).status = .noError ∧
      (m.setDataNode t path payload {} none).changes =
        (t.missingParents path).map (.payloadSet · m.emptyMessage) ++
          [.payloadSet path payload]
  /-- A node without children and without an index goes, after what names it
  in its parent's index. -/
  removeDataNodes : ∀ (t : MessageTree P) {path node filter}, path ≠ [] →
    Literal m path → t.lookup path = some node → node.index = [] →
    (∀ q ∈ t.nodes, q ≠ [] → q.dropLast ≠ path) →
    filter path node = true →
    (m.removeDataNodes t path filter).status = .noError ∧
      ∃ entries, (m.removeDataNodes t path filter).changes =
          entries ++ [.removed path] ∧
        (∀ c ∈ entries, c.path = path.dropLast) ∧
        ((∀ name ∈ path.getLast?, name ∉ t.indexOf path.dropLast) →
          entries = [])
  insertIndexEntryAt : ∀ (t : MessageTree P) {path index key},
    TreeChange.AppliesTo t (.indexInserted path index key) →
    (m.insertIndexEntryAt t path index key).changes =
      [.indexInserted path index key]
  removeIndexEntryAt : ∀ (t : MessageTree P) {path index key},
    TreeChange.AppliesTo t (.indexRemoved path index key) →
    (m.removeIndexEntryAt t path index).changes =
      [.indexRemoved path index key]
  assembleNone : ∀ (msg : TreeMessage P) prepend,
    (m.assembleBatchMessage none msg prepend).flatten = msg.flatten
  assembleAtEnd : ∀ batch msg : TreeMessage P,
    (m.assembleBatchMessage (some batch) msg false).flatten =
      batch.flatten ++ msg.flatten
  assembleInFront : ∀ batch msg : TreeMessage P,
    (m.assembleBatchMessage (some batch) msg true).flatten =
      msg.flatten ++ batch.flatten

namespace Execution

theorem eq_of_status_of_effects {e e' : Execution t}
    (hstatus : e.status = e'.status) (heffects : e.effects = e'.effects) :
    e = e' := by
  cases e
  cases e'
  simp_all

@[simp] theorem nothing_effects {status : Status} :
    (nothing t status).effects = [] := rfl

@[simp] theorem nothing_status {status : Status} :
    (nothing t status).status = status := rfl

theorem status_of_isOK {e : Execution t} (h : e.status.isOK = true) :
    e.status = .noError := by
  cases hstatus : e.status <;> simp_all [Status.isOK]

/-- Nothing more to do. -/
theorem andThen_nothing {e : Execution t} :
    (e.andThen fun t' => nothing t' .noError) = e := by
  unfold andThen
  split
  · rename_i hok
    exact eq_of_status_of_effects (status_of_isOK hok).symm
      (List.append_nil _)
  · rfl

/-- The tree after two executions is the tree after the second. -/
theorem followedBy_tree {e : Execution t}
    {next : (t' : MessageTree P) → Execution t'} :
    (e.followedBy next).tree = (next e.tree).tree := by
  simp [tree, followedBy, TreeChange.applyAll_append]

theorem andThen_of_noError {e : Execution t}
    {next : (t' : MessageTree P) → Execution t'} (h : e.status = .noError) :
    e.andThen next = e.followedBy next := by
  simp [andThen, h]

theorem followedBy_assoc {e : Execution t}
    {next last : (t' : MessageTree P) → Execution t'} :
    (e.followedBy next).followedBy last =
      e.followedBy fun t' => (next t').followedBy last := by
  have htree : (e.followedBy next).tree = (next e.tree).tree := followedBy_tree
  refine eq_of_status_of_effects
    (congrArg (fun t' => (last t').status) htree) ?_
  calc e.effects ++ (next e.tree).effects ++
        (last (e.followedBy next).tree).effects
      = e.effects ++ ((next e.tree).effects ++
          (last (e.followedBy next).tree).effects) := List.append_assoc ..
    _ = e.effects ++ ((next e.tree).effects ++
          (last (next e.tree).tree).effects) := by rw [htree]

theorem andThen_assoc {e : Execution t}
    {next last : (t' : MessageTree P) → Execution t'} :
    (e.andThen next).andThen last =
      e.andThen fun t' => (next t').andThen last := by
  by_cases hok : e.status.isOK
  · by_cases hnext : (next e.tree).status.isOK
    · have hboth : (e.followedBy next).status.isOK = true := hnext
      have hright : (e.andThen fun t' => (next t').andThen last) =
          e.followedBy fun t' => (next t').followedBy last := by
        rw [andThen, if_pos hok]
        refine eq_of_status_of_effects ?_ ?_
        · simp [followedBy, andThen, hnext]
        · simp [followedBy, andThen, hnext]
      rw [hright, ← followedBy_assoc]
      simp only [andThen, if_pos hok, if_pos hboth]
    · have hboth : ¬ (e.followedBy next).status.isOK = true := hnext
      simp only [andThen, if_pos hok, if_neg hboth]
      refine eq_of_status_of_effects ?_ ?_
      · simp [followedBy, hnext]
      · simp [followedBy, hnext]
  · simp [andThen, hok]

end Execution

/-- One message after another, up to the first error. -/
def runFlat (command : (t : MessageTree P) → TreeMessage P → Execution t) :
    List (TreeMessage P) → (t : MessageTree P) → Execution t
  | [], t => .nothing t .noError
  | msg :: msgs, t => (command t msg).andThen (runFlat command msgs)

theorem runFlat_append
    {command : (t : MessageTree P) → TreeMessage P → Execution t}
    {msgs msgs' : List (TreeMessage P)} :
    runFlat command (msgs ++ msgs') t =
      (runFlat command msgs t).andThen (runFlat command msgs') := by
  induction msgs generalizing t with
  | nil => rfl
  | cons msg msgs ih =>
      simp only [List.cons_append, runFlat, Execution.andThen_assoc]
      congr 1
      funext t'
      exact ih

theorem runFlat_singleton
    {command : (t : MessageTree P) → TreeMessage P → Execution t}
    {msg : TreeMessage P} : runFlat command [msg] t = command t msg :=
  Execution.andThen_nothing

mutual

/-- **Batches.** -/
theorem runMessage_eq_runFlat
    (command : (t : MessageTree P) → TreeMessage P → Execution t) :
    ∀ (msg : TreeMessage P) (t : MessageTree P),
      runMessage command msg t = runFlat command msg.flatten t
  | .batch subMsgs, t => runAll_eq_runFlat command subMsgs t
  | .noop, _ => runFlat_singleton.symm
  | .updateNodeValue .., _ => runFlat_singleton.symm
  | .updateSubtree .., _ => runFlat_singleton.symm
  | .insertIndexEntry .., _ => runFlat_singleton.symm
  | .removeIndexEntry .., _ => runFlat_singleton.symm
  | .requestDeleteNodes .., _ => runFlat_singleton.symm
  | .moveIndexEntry .., _ => runFlat_singleton.symm
  | .unknown _, _ => runFlat_singleton.symm

theorem runAll_eq_runFlat
    (command : (t : MessageTree P) → TreeMessage P → Execution t) :
    ∀ (msgs : List (TreeMessage P)) (t : MessageTree P),
      runMessage.runAll command msgs t =
        runFlat command (TreeMessage.flatten.flattenAll msgs) t
  | [], _ => rfl
  | msg :: msgs, t => by
      rw [TreeMessage.flatten.flattenAll, runFlat_append,
        ← runMessage_eq_runFlat command msg t]
      have hrest : runMessage.runAll command msgs =
          runFlat command (TreeMessage.flatten.flattenAll msgs) :=
        funext fun t' => runAll_eq_runFlat command msgs t'
      rw [← hrest]
      rfl

end

end ZgChoir
