import ZgChoir.MessageTreeDatabase

/-!
# What a senior update records

The callbacks of a senior update turn every change that the database hears of
into a pair of messages: one that repeats it, for the junior peers, and one
that takes it back, for the undo stack.  `recordsOf` lists these pairs for the
effects of an execution.  The assembled messages are these lists put into
batches, the second one back to front (`notifyAll_assembledJuniorMessage`,
`notifyAll_assembledJuniorUndoMessage`).
-/

namespace ZgChoir

variable {P : Type} {m : Muscle P} {mount : Mount} {t : MessageTree P}

open MessageTreeDatabaseObject in
/-- What the callback for `e` records: the action, and its opposite.  The
node has this path below the root of the database. -/
def Effect.record (t : MessageTree P) (relativePath : NodePath)
    (e : Effect P) : Option (TreeMessage P × TreeMessage P) :=
  match e.change with
  | .payloadSet path payload => some
      (createNodeUpdateMessage relativePath (some payload) e.interim e.opTag,
        createNodeUpdateMessage relativePath
          ((t.lookup path).map (·.payload)) e.interim e.opTag)
  | .removed path => (t.lookup path).map fun node =>
      (createNodeUpdateMessage relativePath none e.interim e.opTag,
        createNodeUpdateMessage relativePath (some node.payload) e.interim
          e.opTag)
  | .indexInserted _ index key => some
      (createNodeIndexUpdateMessage relativePath true index key e.opTag,
        createNodeIndexUpdateMessage relativePath false index key e.opTag)
  | .indexRemoved _ index key => some
      (createNodeIndexUpdateMessage relativePath false index key e.opTag,
        createNodeIndexUpdateMessage relativePath true index key e.opTag)

section

variable (m mount)

/-- What the database records of `e`, if it hears of it. -/
def recordOf (t : MessageTree P) (e : Effect P) :
    Option (TreeMessage P × TreeMessage P) :=
  if e.quiet then none
  else (relativePathOf m mount e.change.path).bind (e.record t)

/-- What the database records of one effect after another. -/
def recordsOf : MessageTree P → List (Effect P) →
    List (TreeMessage P × TreeMessage P)
  | _, [] => []
  | t, e :: effects =>
      (recordOf m mount t e).toList ++ recordsOf (e.change.applyTo t) effects

/-- One message after another at the end of a batch, or at its front. -/
def assembleAll (assembled : Option (TreeMessage P))
    (msgs : List (TreeMessage P)) (prepend : Bool) : Option (TreeMessage P) :=
  msgs.foldl (fun batch msg => some (m.assembleBatchMessage batch msg prepend))
    assembled

end

@[simp] theorem assembleAll_nil {assembled : Option (TreeMessage P)}
    {prepend : Bool} : assembleAll m assembled [] prepend = assembled := rfl

theorem assembleAll_append {assembled : Option (TreeMessage P)}
    {msgs msgs' : List (TreeMessage P)} {prepend : Bool} :
    assembleAll m assembled (msgs ++ msgs') prepend =
      assembleAll m (assembleAll m assembled msgs prepend) msgs' prepend :=
  List.foldl_append

/-- A batch is empty only as long as nothing has been put into it. -/
theorem assembleAll_eq_none {assembled : Option (TreeMessage P)}
    {msgs : List (TreeMessage P)} {prepend : Bool} :
    assembleAll m assembled msgs prepend = none ↔
      assembled = none ∧ msgs = [] := by
  induction msgs generalizing assembled with
  | nil => simp
  | cons msg msgs ih =>
      have hcons : assembleAll m assembled (msg :: msgs) prepend =
          assembleAll m (some (m.assembleBatchMessage assembled msg prepend))
            msgs prepend := rfl
      rw [hcons, ih]
      simp

/-- Something is recorded of every change that the database hears of. -/
theorem recordOf_isSome (mount : Mount) {e : Effect P}
    (happlies : e.change.AppliesTo t) :
    (recordOf m mount t e).isSome =
      (!e.quiet && isNodeInThisDatabase m mount e.change.path) := by
  obtain ⟨quiet, interim, opTag, c⟩ := e
  cases quiet with
  | true => rfl
  | false =>
      cases hpath : relativePathOf m mount c.path with
      | none => simp [recordOf, isNodeInThisDatabase, hpath]
      | some relativePath =>
          cases c with
          | payloadSet path payload =>
              simp [recordOf, isNodeInThisDatabase, hpath, Effect.record]
          | removed path =>
              obtain ⟨node, hnode⟩ :=
                MessageTree.mem_nodes_iff.mp happlies.1
              simp [recordOf, isNodeInThisDatabase, hpath, Effect.record,
                hnode]
          | indexInserted path index key =>
              simp [recordOf, isNodeInThisDatabase, hpath, Effect.record]
          | indexRemoved path index key =>
              simp [recordOf, isNodeInThisDatabase, hpath, Effect.record]

/-- The database does not hear of this change. -/
def Unheard (m : Muscle P) (mount : Mount) (e : Effect P) : Prop :=
  e.quiet = true ∨ isNodeInThisDatabase m mount e.change.path = false

instance : DecidablePred (Unheard m mount) := fun _ =>
  inferInstanceAs (Decidable (_ ∨ _))

/-- Nothing is recorded of changes of which the database does not hear, and
something of any other. -/
theorem recordsOf_eq_nil {effects : List (Effect P)}
    (hvalid : TreeChange.Valid t (effects.map (·.change))) :
    recordsOf m mount t effects = [] ↔ ∀ e ∈ effects, Unheard m mount e := by
  induction effects generalizing t with
  | nil => simp [recordsOf]
  | cons e effects ih =>
      have hhead : (recordOf m mount t e).toList = [] ↔ Unheard m mount e := by
        have hsome := recordOf_isSome (m := m) mount hvalid.1
        cases hrecord : recordOf m mount t e with
        | none =>
            rw [hrecord] at hsome
            have := hsome.symm
            cases hquiet : e.quiet with
            | true => simp [Unheard, hquiet]
            | false => simpa [Unheard, hquiet] using this
        | some pair =>
            rw [hrecord] at hsome
            have := hsome.symm
            cases hquiet : e.quiet with
            | true => simp [hquiet] at this
            | false => simpa [Unheard, hquiet] using this
      rw [recordsOf, List.append_eq_nil_iff, hhead, ih hvalid.2,
        List.forall_mem_cons]

namespace MessageTreeDatabaseObject

variable {db : MessageTreeDatabaseObject P}

/-- A callback in a senior update records the pair of messages. -/
private theorem hear_record (relativePath : NodePath) (e : Effect P) :
    (db.hear m true relativePath e).assembledJuniorMessage =
        assembleAll m db.assembledJuniorMessage
          ((e.record db.tree relativePath).toList.map (·.1)) false ∧
      (db.hear m true relativePath e).recordsUndo = db.recordsUndo ∧
      (db.hear m true relativePath e).assembledJuniorUndoMessage =
        if db.recordsUndo then
          assembleAll m db.assembledJuniorUndoMessage
            ((e.record db.tree relativePath).toList.map (·.2)) true
        else db.assembledJuniorUndoMessage := by
  obtain ⟨quiet, interim, opTag, c⟩ := e
  cases c with
  | payloadSet path payload => exact ⟨rfl, rfl, rfl⟩
  | removed path =>
      cases hnode : db.tree.lookup path with
      | none => simp [hear, hnode, Effect.record]
      | some node =>
          simp only [hear, hnode, Effect.record, Option.map_some,
            Option.toList_some]
          exact ⟨rfl, rfl, rfl⟩
  | indexInserted path index key => exact ⟨rfl, rfl, rfl⟩
  | indexRemoved path index key => exact ⟨rfl, rfl, rfl⟩

/-- **One change**, in a senior update. -/
theorem notify_record (m : Muscle P) (mount : Mount)
    (db : MessageTreeDatabaseObject P) (e : Effect P) :
    (db.notify m mount true e).assembledJuniorMessage =
        assembleAll m db.assembledJuniorMessage
          ((recordOf m mount db.tree e).toList.map (·.1)) false ∧
      (db.notify m mount true e).recordsUndo = db.recordsUndo ∧
      (db.notify m mount true e).assembledJuniorUndoMessage =
        if db.recordsUndo then
          assembleAll m db.assembledJuniorUndoMessage
            ((recordOf m mount db.tree e).toList.map (·.2)) true
        else db.assembledJuniorUndoMessage := by
  cases hquiet : e.quiet with
  | true => simp [notify, recordOf, hquiet]
  | false =>
      cases hpath : relativePathOf m mount e.change.path with
      | none => simp [notify, recordOf, hquiet, hpath]
      | some relativePath =>
          simpa [notify, recordOf, hquiet, hpath] using
            hear_record relativePath e

@[simp] theorem notifyAll_recordsUndo {effects : List (Effect P)} :
    (db.notifyAll m mount true effects).recordsUndo = db.recordsUndo := by
  induction effects generalizing db with
  | nil => rfl
  | cons e effects ih => exact ih.trans (notify_record m mount db e).2.1

/-- The message for the junior peers grows by what is recorded. -/
theorem notifyAll_assembledJuniorMessage (m : Muscle P) (mount : Mount)
    (db : MessageTreeDatabaseObject P) (effects : List (Effect P)) :
    (db.notifyAll m mount true effects).assembledJuniorMessage =
      assembleAll m db.assembledJuniorMessage
        ((recordsOf m mount db.tree effects).map (·.1)) false := by
  induction effects generalizing db with
  | nil => rfl
  | cons e effects ih =>
      rw [recordsOf, List.map_append, assembleAll_append,
        ← (notify_record m mount db e).1]
      exact ih (db.notify m mount true e)

/-- The undo message of an undo-stack database grows by the opposites, at its
front. -/
theorem notifyAll_assembledJuniorUndoMessage (m : Muscle P) (mount : Mount)
    (effects : List (Effect P)) (hundo : db.recordsUndo = true) :
    (db.notifyAll m mount true effects).assembledJuniorUndoMessage =
      assembleAll m db.assembledJuniorUndoMessage
        ((recordsOf m mount db.tree effects).map (·.2)) true := by
  induction effects generalizing db with
  | nil => rfl
  | cons e effects ih =>
      have hstep := (notify_record m mount db e).2
      rw [recordsOf, List.map_append, assembleAll_append]
      have hfront : (db.notify m mount true e).assembledJuniorUndoMessage =
          assembleAll m db.assembledJuniorUndoMessage
            ((recordOf m mount db.tree e).toList.map (·.2)) true := by
        rw [hstep.2, if_pos hundo]
      rw [← hfront]
      exact ih (hstep.1.trans hundo)

/-- Outside a senior update a callback changes the checksum only. -/
private theorem hear_outside (m : Muscle P)
    (db : MessageTreeDatabaseObject P) (relativePath : NodePath)
    (e : Effect P) :
    ∃ checksum, db.hear m false relativePath e = { db with checksum } := by
  obtain ⟨quiet, interim, opTag, c⟩ := e
  cases c with
  | payloadSet path payload => exact ⟨_, rfl⟩
  | removed path =>
      cases hnode : db.tree.lookup path with
      | none => exact ⟨db.checksum, by simp [hear, hnode]⟩
      | some node =>
          simp only [hear, hnode]
          exact ⟨_, rfl⟩
  | indexInserted path index key => exact ⟨_, rfl⟩
  | indexRemoved path index key => exact ⟨_, rfl⟩

private theorem notify_outside (m : Muscle P) (mount : Mount)
    (db : MessageTreeDatabaseObject P) (e : Effect P) :
    ∃ checksum, db.notify m mount false e =
      { db with checksum, tree := e.change.applyTo db.tree } := by
  cases hquiet : e.quiet with
  | true => exact ⟨db.checksum, by simp [notify, hquiet]⟩
  | false =>
      cases hpath : relativePathOf m mount e.change.path with
      | none => exact ⟨db.checksum, by simp [notify, hquiet, hpath]⟩
      | some relativePath =>
          obtain ⟨checksum, hheard⟩ := hear_outside m db relativePath e
          exact ⟨checksum, by simp [notify, hquiet, hpath, hheard]⟩

/-- Outside a senior update nothing is recorded. -/
theorem notifyAll_outside (m : Muscle P) (mount : Mount)
    (db : MessageTreeDatabaseObject P) (effects : List (Effect P)) :
    ∃ checksum, db.notifyAll m mount false effects =
      { db with
        checksum
        tree := TreeChange.applyAll db.tree (effects.map (·.change)) } := by
  induction effects generalizing db with
  | nil => exact ⟨db.checksum, rfl⟩
  | cons e effects ih =>
      obtain ⟨first, hfirst⟩ := notify_outside m mount db e
      obtain ⟨checksum, hrest⟩ := ih (db.notify m mount false e)
      refine ⟨checksum, ?_⟩
      have hcons : db.notifyAll m mount false (e :: effects) =
          (db.notify m mount false e).notifyAll m mount false effects := rfl
      rw [hcons, hrest, hfirst]
      rfl

end MessageTreeDatabaseObject

end ZgChoir
