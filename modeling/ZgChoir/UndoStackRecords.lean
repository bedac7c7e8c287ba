import ZgChoir.TreeInverses
import ZgChoir.UndoStackReplays

/-!
# What an undo-stack database records, replayed

An update leaves two messages in the log, one for what it has changed and one
that takes its changes back.  Both are replayed around the stacks: whatever
they say of the stacks themselves is skipped.  So the outcome depends on the
rest of the database alone, and there they do what they should: the one brings
the database from what it was before the update to what it was after it, the
other brings it back (`describes_update`).
-/

namespace ZgChoir

variable {P : Type} {um : UndoStackMuscle P} {mount : Mount}
  {t t' t'' x : MessageTree P} {c : TreeChange P} {q : NodePath}

/-! ## Around the stacks -/

/-- A node of the database that is not on the stacks. -/
def Mount.Outside (mount : Mount) (q : NodePath) : Prop :=
  mount.root <+: q ∧ ∀ stack ∈ ["undo", "redo"], ¬ mount.stackRoot stack <+: q

/-- Two trees hold the same database, but for the stacks. -/
def SameOutside (mount : Mount) (t t' : MessageTree P) : Prop :=
  ∀ q, mount.Outside q → t.lookup q = t'.lookup q

theorem SameOutside.refl (t : MessageTree P) : SameOutside mount t t :=
  fun _ _ => rfl

theorem SameOutside.symm (h : SameOutside mount t t') :
    SameOutside mount t' t :=
  fun q hq => (h q hq).symm

theorem SameOutside.trans (h : SameOutside mount t t')
    (h' : SameOutside mount t' t'') : SameOutside mount t t'' :=
  fun q hq => (h q hq).trans (h' q hq)

theorem SameOutside.mem_iff (h : SameOutside mount t t')
    (hq : mount.Outside q) : q ∈ t.nodes ↔ q ∈ t'.nodes := by
  rw [MessageTree.mem_nodes_iff, MessageTree.mem_nodes_iff, h q hq]

theorem SameOutside.indexOf_eq (h : SameOutside mount t t')
    (hq : mount.Outside q) : t.indexOf q = t'.indexOf q := by
  rw [MessageTree.indexOf, MessageTree.indexOf, h q hq]

/-- A change on the stacks, or outside the database, does not matter. -/
theorem sameOutside_applyTo (happlies : c.AppliesTo t)
    (hc : ¬ mount.Outside c.path) : SameOutside mount t (c.applyTo t) := by
  intro q hq
  have hne : q ≠ c.path := by
    rintro rfl
    exact hc hq
  exact (TreeChange.lookup_applyTo_of_ne happlies hne).symm

/-- What leads to such a node within the database is no node of the stacks
either. -/
theorem Mount.Outside.of_prefix {p : NodePath} (hq : mount.Outside q)
    (hp : p <+: q) (hroot : mount.root <+: p) : mount.Outside p :=
  ⟨hroot, fun stack hstack hpre => hq.2 stack hstack (hpre.trans hp)⟩

theorem Mount.Outside.dropLast (hq : mount.Outside q)
    (hne : q ≠ mount.root) : mount.Outside q.dropLast := by
  refine hq.of_prefix (List.dropLast_prefix q) ?_
  refine List.prefix_of_prefix_length_le hq.1 (List.dropLast_prefix q) ?_
  have hlt : mount.root.length < q.length :=
    lt_of_le_of_ne hq.1.length_le fun heq => hne (hq.1.eq_of_length heq).symm
  rw [List.length_dropLast]
  omega

/-- What is right below such a node is another one, unless it is one of the
nodes "undo" and "redo". -/
theorem Mount.Outside.child (hq : mount.Outside q) (name : String) :
    mount.Outside (q ++ [name]) ∨
      ∃ stack ∈ ["undo", "redo"], q ++ [name] = mount.stackRoot stack := by
  by_cases hout : mount.Outside (q ++ [name])
  · exact .inl hout
  · right
    have hroot : mount.root <+: q ++ [name] :=
      hq.1.trans (List.prefix_append q [name])
    obtain ⟨stack, hstack, hpre⟩ : ∃ stack ∈ ["undo", "redo"],
        mount.stackRoot stack <+: q ++ [name] := by
      by_contra hnone
      exact hout ⟨hroot, fun stack hstack hpre => hnone ⟨stack, hstack, hpre⟩⟩
    refine ⟨stack, hstack, ?_⟩
    rcases List.prefix_concat_iff.mp hpre with heq | hpre
    · exact heq.symm
    · exact absurd hpre (hq.2 stack hstack)

/-- **A change applies around the stacks** wherever the rest of the database is
the same. -/
theorem SameOutside.appliesTo (h : SameOutside mount t x)
    (hroots : ∀ stack ∈ ["undo", "redo"], mount.stackRoot stack ∈ x.nodes)
    (hc : mount.Outside c.path) (hkept : c ≠ .removed mount.root)
    (happlies : c.AppliesTo t) : c.AppliesTo x := by
  have hchild : ∀ name, c.path ++ [name] ∈ t.nodes →
      c.path ++ [name] ∈ x.nodes := by
    intro name hmem
    rcases hc.child name with hout | ⟨stack, hstack, heq⟩
    · exact (h.mem_iff hout).mp hmem
    · rw [heq]
      exact hroots stack hstack
  have hrootThere : mount.root ∈ x.nodes :=
    x.mem_of_isPrefix (hroots "undo" (by simp)) (List.prefix_append _ _)
  cases c with
  | payloadSet path payload =>
      by_cases hroot : path = mount.root
      · exact .inl (hroot ▸ hrootThere)
      · rcases happlies with hmem | hempty | hparent
        · exact .inl ((h.mem_iff hc).mp hmem)
        · exact .inr (.inl hempty)
        · exact .inr (.inr ((h.mem_iff (hc.dropLast hroot)).mp hparent))
  | removed path =>
      have hroot : path ≠ mount.root := fun heq => hkept (heq ▸ rfl)
      obtain ⟨hmem, hindex, hchildless, hunlisted⟩ := happlies
      refine ⟨(h.mem_iff hc).mp hmem, (h.indexOf_eq hc).symm.trans hindex,
        fun q hq hne hparent => ?_, fun name hname => ?_⟩
      · obtain ⟨name, rfl⟩ : ∃ name, q = path ++ [name] :=
          ⟨_, (hparent ▸ List.dropLast_concat_getLast hne).symm⟩
        rcases hc.child name with hout | ⟨stack, -, heq⟩
        · exact hchildless _ (Finmap.mem_keys.mpr
            ((h.mem_iff hout).mpr (Finmap.mem_keys.mp hq))) hne hparent
        · refine hroot ?_
          have hsame := congrArg List.dropLast heq
          rwa [List.dropLast_concat, Mount.stackRoot,
            List.dropLast_concat] at hsame
      · have hparent : mount.Outside path.dropLast := hc.dropLast hroot
        rw [← h.indexOf_eq hparent]
        exact hunlisted name hname
  | indexInserted path index key =>
      have hc : mount.Outside path := hc
      refine ⟨hchild key happlies.1, ?_⟩
      rw [← h.indexOf_eq hc]
      exact happlies.2
  | indexRemoved path index key =>
      have hc : mount.Outside path := hc
      have hkey : (t.indexOf path)[index]? = some key := happlies
      rwa [h.indexOf_eq hc] at hkey

/-! ## One message -/

/-- **One message.** -/
theorem replay_outside {ctx : CommandContext} (hm : um.toMuscle.Lawful)
    (hmount : mount.ForStacks um.toMuscle) {relativePath : NodePath}
    (interim : Bool) (opTag : String)
    (hpath : c.path = mount.root ++ relativePath)
    (hc : mount.Outside c.path) (hreplayable : Replayable um.toMuscle c)
    (hkept : c ≠ .removed mount.root)
    (hokay : ctx.isOkayToHandleUpdateMessage relativePath (c.flags interim) =
      true)
    (hroots : ∀ stack ∈ ["undo", "redo"], mount.stackRoot stack ∈ x.nodes)
    (happlies : c.AppliesTo t) (hsame : SameOutside mount t x) :
    let e := seniorCommand um.toMuscle mount ctx x
      (c.message relativePath interim opTag)
    e.status = .noError ∧ SameOutside mount (c.applyTo t) e.tree ∧
      SameStacks mount x e.tree := by
  have happlies' := hsame.appliesTo hroots hc hkept happlies
  have hours := hmount.owns c.path hc.1
  obtain ⟨hstatus, -, -⟩ := replay_step hm interim opTag hpath hours hreplayable
    hokay happlies' fun _ _ => rfl
  obtain ⟨hafter, -⟩ := replay_same hm interim opTag hpath hours hreplayable
    hokay happlies' fun _ _ => rfl
  refine ⟨hstatus, fun q hq => ?_, fun stack hstack q hq => ?_⟩
  · rw [← hafter q hq.1, TreeChange.lookup_applyTo happlies,
      TreeChange.lookup_applyTo happlies', hsame q hq]
  · rw [← hafter q ((List.prefix_append _ _).trans hq)]
    refine TreeChange.lookup_applyTo_of_ne happlies' ?_
    rintro rfl
    exact hc.2 stack hstack hq

/-- A message that is skipped does nothing. -/
theorem seniorCommand_skipped {ctx : CommandContext} {msg : TreeMessage P}
    (h : msg.Skipped ctx.isOkayToHandleUpdateMessage) :
    seniorCommand um.toMuscle mount ctx x msg = .nothing x .noError := by
  cases msg with
  | updateNodeValue path optPayload flags optBefore optOpTag =>
      simp only [TreeMessage.Skipped] at h
      simp [seniorCommand, handleNodeUpdateMessage, h]
  | insertIndexEntry path index key flags optOpTag =>
      simp only [TreeMessage.Skipped] at h
      simp [seniorCommand, handleNodeIndexUpdateMessage, h]
  | removeIndexEntry path index key flags optOpTag =>
      simp only [TreeMessage.Skipped] at h
      simp [seniorCommand, handleNodeIndexUpdateMessage, h]
  | _ => exact h.elim

/-! ## Many messages -/

/-- Single messages that bring a database from what it is in one tree to what
it is in another, if messages for the stacks are skipped. -/
inductive Replays (m : Muscle P) (mount : Mount) :
    List (TreeMessage P) → MessageTree P → MessageTree P → Prop
  | nil (t : MessageTree P) : Replays m mount [] t t
  | same {msgs} {t t' goal : MessageTree P} (h : SameOutside mount t t')
      (hrest : Replays m mount msgs t' goal) : Replays m mount msgs t goal
  | idle {msgs} {t goal : MessageTree P}
      (hrest : Replays m mount msgs t goal) :
      Replays m mount (.noop :: msgs) t goal
  | skip {msg msgs} {t goal : MessageTree P}
      (hskipped : msg.Skipped isOkayDuringUndoRedo)
      (hrest : Replays m mount msgs t goal) :
      Replays m mount (msg :: msgs) t goal
  | change {msgs} {t goal : MessageTree P} {c : TreeChange P}
      {relativePath : NodePath} {opTag : String}
      (hpath : c.path = mount.root ++ relativePath)
      (hc : mount.Outside c.path) (hreplayable : Replayable m c)
      (hkept : c ≠ .removed mount.root) (happlies : c.AppliesTo t)
      (hrest : Replays m mount msgs (c.applyTo t) goal) :
      Replays m mount (c.message relativePath false opTag :: msgs) t goal

theorem Replays.append {m : Muscle P} {msgs msgs' : List (TreeMessage P)}
    (h : Replays m mount msgs t t') (h' : Replays m mount msgs' t' t'') :
    Replays m mount (msgs ++ msgs') t t'' := by
  induction h with
  | nil t => exact h'
  | same hsame hrest ih => exact .same hsame (ih h')
  | idle hrest ih => exact .idle (ih h')
  | skip hskipped hrest ih => exact .skip hskipped (ih h')
  | change hpath hc hreplayable hkept happlies hrest ih =>
      exact .change hpath hc hreplayable hkept happlies (ih h')

/-- A node of the database that is not on the stacks, by its relative path. -/
theorem okay_of_outside {relativePath : NodePath}
    (hc : mount.Outside (mount.root ++ relativePath)) :
    isOkayDuringUndoRedo relativePath {} = true := by
  unfold isOkayDuringUndoRedo
  simp only [Bool.false_eq_true, if_false]
  split
  · next stack name below =>
    have hnot : ∀ stack', stack' ∈ ["undo", "redo"] → stack ≠ stack' := by
      rintro stack' hstack' rfl
      refine hc.2 stack hstack' ?_
      rw [Mount.stackRoot, List.prefix_append_right_inj]
      exact ⟨name :: below, rfl⟩
    simp [hnot "undo" (by simp), hnot "redo" (by simp)]
  · rfl

section Running

variable {ctx : CommandContext} {view : LogView P}
  {I : MessageTree P → Prop}

/-- The messages that are left do what they should. -/
def ReplaysFrom (um : UndoStackMuscle P) (mount : Mount)
    (I : MessageTree P → Prop) (goal : MessageTree P)
    (msgs : List (TreeMessage P)) (x : MessageTree P) : Prop :=
  I x ∧ ∃ t, SameOutside mount t x ∧ Replays um.toMuscle mount msgs t goal

/-- What is asked of a property that is to be kept during an undo or a
redo. -/
structure KeptInReplays (um : UndoStackMuscle P) (mount : Mount)
    (view : LogView P) (opTag : String) (I : MessageTree P → Prop) : Prop where
  roots : ∀ x, I x →
    ∀ stack ∈ ["undo", "redo"], mount.stackRoot stack ∈ x.nodes
  same : ∀ x x', SameStacks mount x x' → I x → I x'
  tidied : ∀ x, I x → I (tidyUndoStack um mount view opTag x).tree

/-- **The first of the messages.** -/
theorem ReplaysFrom.command (hm : um.toMuscle.Lawful)
    (hmount : mount.ForStacks um.toMuscle)
    (hctx : ctx.isOkayToHandleUpdateMessage = isOkayDuringUndoRedo)
    (hI : KeptInReplays um mount view ctx.opTag I) {goal : MessageTree P}
    {msg : TreeMessage P} {msgs : List (TreeMessage P)}
    (h : ReplaysFrom um mount I goal (msg :: msgs) x) :
    (seniorCommand um.toMuscle mount ctx x msg).status.isOK = true ∧
      ReplaysFrom um mount I goal msgs
        (seniorCommand um.toMuscle mount ctx x msg).tree := by
  obtain ⟨hx, t, hsame, hreplays⟩ := h
  generalize hall : msg :: msgs = all at hreplays
  induction hreplays generalizing x with
  | nil t => cases hall
  | same hsame' hrest ih =>
      exact ih hx (hsame'.symm.trans hsame) hall
  | idle hrest ih =>
      obtain ⟨rfl, rfl⟩ := List.cons.inj hall
      exact ⟨rfl, hx, _, hsame, hrest⟩
  | skip hskipped hrest ih =>
      obtain ⟨rfl, rfl⟩ := List.cons.inj hall
      rw [seniorCommand_skipped (hctx ▸ hskipped)]
      exact ⟨rfl, hx, _, hsame, hrest⟩
  | @change msgs t goal c relativePath opTag hpath hc hreplayable hkept
      happlies hrest ih =>
      obtain ⟨rfl, rfl⟩ := List.cons.inj hall
      have hokay : ctx.isOkayToHandleUpdateMessage relativePath
          (c.flags false) = true := by
        have hflags : c.flags false = {} := by cases c <;> rfl
        rw [hctx, hflags]
        exact okay_of_outside (hpath ▸ hc)
      obtain ⟨hstatus, hafter, hstacks⟩ := replay_outside hm hmount false opTag
        hpath hc hreplayable hkept hokay (hI.roots x hx) happlies hsame
      exact ⟨by rw [hstatus]; rfl, hI.same _ _ hstacks hx, _, hafter, hrest⟩

/-! ### The clean-up in between -/

theorem removeChild_elsewhere (hum : um.Lawful) {path : NodePath}
    {name : String} (hq : ¬ path <+: q) :
    (TreeChange.applyAll x (um.removeChild x path name).changes).lookup q =
      x.lookup q := by
  by_cases hmem : path ++ [name] ∈ x.nodes
  · refine (hum.removeChild x hmem).2.elsewhere q ?_ fun hpre => ?_
    · rintro rfl
      exact hq (List.prefix_refl _)
    · exact hq ((List.prefix_append _ _).trans hpre)
  · rw [hum.removeChild_absent x hmem, TreeChange.applyAll_nil]

theorem removeObsoleteSequences_elsewhere (hum : um.Lawful) (opTag : String)
    {node : NodePath} (hq : ¬ node <+: q) (fuel : ℕ) (x : MessageTree P) :
    (removeObsoleteSequences um view opTag node fuel x).tree.lookup q =
      x.lookup q := by
  induction fuel generalizing x with
  | zero => rfl
  | succ fuel ih =>
      unfold removeObsoleteSequences
      split
      · rfl
      · dsimp only
        split
        · rw [Execution.followedBy_tree, ih, Execution.ofOutcome_tree]
          exact removeChild_elsewhere hum hq
        · rfl

theorem tidyClients_elsewhere (hum : um.Lawful) (opTag : String)
    {node : NodePath} (hq : ¬ node <+: q) (clients : List String)
    (x : MessageTree P) :
    (tidyClients um view opTag node clients x).tree.lookup q = x.lookup q := by
  induction clients generalizing x with
  | nil => rfl
  | cons client clients ih =>
      have hq' : ¬ node ++ [client] <+: q := fun hpre =>
        hq ((List.prefix_append _ _).trans hpre)
      unfold tidyClients
      rw [Execution.followedBy_tree, ih]
      unfold tidyClient
      simp only
      rw [Execution.followedBy_tree,
        ← removeObsoleteSequences_elsewhere hum opTag hq' _ x]
      generalize removeObsoleteSequences um view opTag (node ++ [client]) _ x =
        e
      split
      · rw [Execution.ofOutcome_tree]
        exact removeChild_elsewhere hum hq
      · rfl

/-- The clean-up has no business around the stacks. -/
theorem tidyUndoStack_outside (hum : um.Lawful)
    (hmount : mount.ForStacks um.toMuscle) (opTag : String)
    (x : MessageTree P) :
    SameOutside mount x (tidyUndoStack um mount view opTag x).tree := by
  intro q hq
  have hroot : mount.rootPathWithSlash ++ ["undo"] =
      mount.stackRoot "undo" := by
    rw [Mount.rootPathWithSlash, if_neg hmount.root_ne]
    rfl
  unfold tidyUndoStack
  rw [hroot, hum.lawful.getDataNode x (hmount.literal "undo" (by simp))]
  split
  · next node hnode =>
    split at hnode
    · obtain rfl := Option.some.inj hnode
      rw [Execution.withStatus_tree]
      exact (tidyClients_elsewhere hum opTag (hq.2 "undo" (by simp)) _ x).symm
    · cases hnode
  · rfl

theorem tidyUndoStack_status (opTag : String) (x : MessageTree P) :
    (tidyUndoStack um mount view opTag x).status = .noError := by
  unfold tidyUndoStack
  split <;> rfl

theorem ReplaysFrom.tidied (hum : um.Lawful)
    (hmount : mount.ForStacks um.toMuscle) {opTag : String}
    (hI : KeptInReplays um mount view opTag I) {goal : MessageTree P}
    {msgs : List (TreeMessage P)} (h : ReplaysFrom um mount I goal msgs x) :
    ReplaysFrom um mount I goal msgs
      (tidyUndoStack um mount view opTag x).tree := by
  obtain ⟨hx, t, hsame, hreplays⟩ := h
  exact ⟨hI.tidied x hx, t,
    hsame.trans (tidyUndoStack_outside hum hmount opTag x), hreplays⟩

/-! ### Messages in messages -/

mutual

/-- **A whole message**, with messages left for later. -/
theorem treeUpdateAux_replays (hum : um.Lawful)
    (hmount : mount.ForStacks um.toMuscle)
    (hctx : ctx.isOkayToHandleUpdateMessage = isOkayDuringUndoRedo)
    (hI : KeptInReplays um mount view ctx.opTag I) {goal : MessageTree P} :
    ∀ (msg : TreeMessage P) (rest : List (TreeMessage P)) (x : MessageTree P),
      ReplaysFrom um mount I goal (msg.flatten ++ rest) x →
      (treeUpdateAux um mount ctx view msg x).status.isOK = true ∧
        ReplaysFrom um mount I goal rest
          (treeUpdateAux um mount ctx view msg x).tree
  | .batch subMsgs, rest, x, h =>
      treeUpdateAll_replays hum hmount hctx hI subMsgs rest x h
  | .noop, _, _, h => h.command hum.lawful hmount hctx hI
  | .updateNodeValue .., _, _, h => h.command hum.lawful hmount hctx hI
  | .updateSubtree .., _, _, h => h.command hum.lawful hmount hctx hI
  | .insertIndexEntry .., _, _, h => h.command hum.lawful hmount hctx hI
  | .removeIndexEntry .., _, _, h => h.command hum.lawful hmount hctx hI
  | .requestDeleteNodes .., _, _, h => h.command hum.lawful hmount hctx hI
  | .moveIndexEntry .., _, _, h => h.command hum.lawful hmount hctx hI
  | .unknown _, _, _, h => h.command hum.lawful hmount hctx hI

theorem treeUpdateAll_replays (hum : um.Lawful)
    (hmount : mount.ForStacks um.toMuscle)
    (hctx : ctx.isOkayToHandleUpdateMessage = isOkayDuringUndoRedo)
    (hI : KeptInReplays um mount view ctx.opTag I) {goal : MessageTree P} :
    ∀ (msgs : List (TreeMessage P)) (rest : List (TreeMessage P))
      (x : MessageTree P),
      ReplaysFrom um mount I goal
        (TreeMessage.flatten.flattenAll msgs ++ rest) x →
      (treeUpdateAux.treeUpdateAll um mount ctx view msgs x).status.isOK =
          true ∧
        ReplaysFrom um mount I goal rest
          (treeUpdateAux.treeUpdateAll um mount ctx view msgs x).tree
  | [], _, _, h => ⟨rfl, h⟩
  | msg :: msgs, rest, x, h => by
      rw [TreeMessage.flatten.flattenAll, List.append_assoc] at h
      obtain ⟨hok, hmsg⟩ := treeUpdateAux_replays hum hmount hctx hI msg _ x h
      have htidied := hmsg.tidied hum hmount hI
      have hboth : ((treeUpdateAux um mount ctx view msg x).andThen
          (tidyUndoStack um mount view ctx.opTag)).status.isOK = true := by
        rw [Execution.andThen_status_of_isOK hok, tidyUndoStack_status]
        rfl
      rw [← Execution.andThen_tree_of_isOK hok] at htidied
      obtain ⟨hrest, hafter⟩ :=
        treeUpdateAll_replays hum hmount hctx hI msgs rest _ htidied
      unfold treeUpdateAux.treeUpdateAll
      rw [Execution.andThen_status_of_isOK hboth,
        Execution.andThen_tree_of_isOK hboth]
      exact ⟨hrest, hafter⟩

end

end Running

/-! ## What is recorded -/

/-- The node that a change removes. -/
def TreeChange.removedPath : TreeChange P → Option NodePath
  | .removed path => some path
  | _ => none

/-- A change that can be undone: the database hears of it exactly if it is
below the root, and then it is no interim update and its path is no pattern; it
is not about the nodes "undo" and "redo" themselves, and does not remove the
root. -/
structure Undoable (m : Muscle P) (mount : Mount) (e : Effect P) : Prop where
  accounted : Accounted m mount e
  nonInterim : mount.root <+: e.change.path → e.interim = false
  literal : mount.root <+: e.change.path → Literal m e.change.path
  placed : ∀ stack ∈ ["undo", "redo"], e.change.path ≠ mount.stackRoot stack
  kept : e.change.removedPath ≠ some mount.root

instance (m : Muscle P) (mount : Mount) : DecidablePred (Undoable m mount) :=
  fun e => decidable_of_iff
    (Accounted m mount e ∧
      (mount.root <+: e.change.path → e.interim = false) ∧
      (mount.root <+: e.change.path → Literal m e.change.path) ∧
      (∀ stack ∈ ["undo", "redo"], e.change.path ≠ mount.stackRoot stack) ∧
      e.change.removedPath ≠ some mount.root)
    ⟨fun h => ⟨h.1, h.2.1, h.2.2.1, h.2.2.2.1, h.2.2.2.2⟩,
      fun h => ⟨h.accounted, h.nonInterim, h.literal, h.placed, h.kept⟩⟩

section Recording

variable {m : Muscle P} {relativePath : NodePath} {opTag : String}

theorem replayable_of_literal (hne : c.path ≠ [])
    (hliteral : Literal m c.path) : Replayable m c := by
  cases c with
  | payloadSet path payload => exact ⟨hne, hliteral.clauses⟩
  | removed path => exact ⟨hne, hliteral⟩
  | indexInserted path index key => exact hliteral
  | indexRemoved path index key => exact hliteral

/-- What is said of a client's node, or of what is below it, is skipped. -/
theorem skipped_message {stack name : String} {below : NodePath}
    (hstack : stack ∈ ["undo", "redo"]) (interim : Bool) :
    (c.message (stack :: name :: below) interim opTag).Skipped
      isOkayDuringUndoRedo := by
  have hnot : ∀ flags, isOkayDuringUndoRedo (stack :: name :: below) flags =
      false := by
    intro flags
    unfold isOkayDuringUndoRedo
    rcases List.mem_pair.mp hstack with rfl | rfl <;>
      cases flags.interim <;> rfl
  cases c <;> exact hnot _

/-- A node of the database that is not around the stacks is a client's, or
below one. -/
theorem path_of_not_outside (hpath : q = mount.root ++ relativePath)
    (hnot : ¬ mount.Outside q)
    (hplaced : ∀ stack ∈ ["undo", "redo"], q ≠ mount.stackRoot stack) :
    ∃ stack ∈ ["undo", "redo"], ∃ name below,
      relativePath = stack :: name :: below := by
  obtain ⟨stack, hstack, hpre⟩ : ∃ stack ∈ ["undo", "redo"],
      mount.stackRoot stack <+: q := by
    by_contra hnone
    exact hnot ⟨⟨relativePath, hpath.symm⟩, fun stack hstack hpre =>
      hnone ⟨stack, hstack, hpre⟩⟩
  obtain ⟨rest, hrest⟩ := hpre
  have heq : relativePath = stack :: rest := by
    rw [hpath, Mount.stackRoot, List.append_assoc,
      List.append_cancel_left_eq] at hrest
    exact hrest.symm
  cases rest with
  | nil => exact absurd (by simpa using hrest.symm) (hplaced stack hstack)
  | cons name below => exact ⟨stack, hstack, name, below, heq⟩

theorem inverse_kept (hroot : mount.root ∈ t.nodes)
    (hkept : c.removedPath ≠ some mount.root) (happlies : c.AppliesTo t) :
    c.inverse t ≠ .removed mount.root := by
  intro heq
  cases c with
  | payloadSet path payload =>
      cases hnode : t.lookup path with
      | none =>
          simp only [TreeChange.inverse, hnode] at heq
          obtain rfl := TreeChange.removed.inj heq
          exact MessageTree.lookup_eq_none.mp hnode hroot
      | some node => simp [TreeChange.inverse, hnode] at heq
  | removed path =>
      obtain ⟨node, hnode⟩ := MessageTree.mem_nodes_iff.mp happlies.1
      simp [TreeChange.inverse, hnode] at heq
  | indexInserted path index key => cases heq
  | indexRemoved path index key => cases heq

/-- **What is recorded** brings the database forth and back again. -/
theorem replays_records (hmount : mount.root ≠ []) {effects : List (Effect P)}
    (ht : t.Indexed) (hroot : mount.root ∈ t.nodes)
    (hvalid : TreeChange.Valid t (effects.map (·.change)))
    (hundoable : ∀ e ∈ effects, Undoable m mount e) :
    Replays m mount ((recordsOf m mount t effects).map (·.1)) t
        (TreeChange.applyAll t (effects.map (·.change))) ∧
      Replays m mount ((recordsOf m mount t effects).map (·.2)).reverse
        (TreeChange.applyAll t (effects.map (·.change))) t := by
  induction effects generalizing t with
  | nil => exact ⟨.nil t, .nil t⟩
  | cons e effects ih =>
      obtain ⟨happlies, hrest⟩ := hvalid
      have he := hundoable e List.mem_cons_self
      have hroot' : mount.root ∈ (e.change.applyTo t).nodes :=
        TreeChange.mem_applyTo happlies hroot fun heq =>
          he.kept (congrArg TreeChange.removedPath heq)
      obtain ⟨hforth, hback⟩ := ih (TreeChange.indexed_applyTo ht happlies)
        hroot' hrest fun e' he' => hundoable e' (List.mem_cons_of_mem e he')
      by_cases hbelow : mount.root <+: e.change.path
      · obtain ⟨hloud, hours⟩ := he.accounted.mpr hbelow
        obtain ⟨relativePath, hrelative⟩ := Option.isSome_iff_exists.mp hours
        have hpath := path_eq_of_relativePathOf hbelow hrelative
        have hrecord : recordOf m mount t e =
            some (e.change.message relativePath false e.opTag,
              (e.change.inverse t).message relativePath false e.opTag) := by
          simp only [recordOf, hloud, Bool.false_eq_true, if_false, hrelative,
            Option.bind_some]
          rw [Effect.record_eq happlies, he.nonInterim hbelow]
        simp only [recordsOf, hrecord, Option.toList_some, List.singleton_append,
          List.map_cons, List.reverse_cons, TreeChange.applyAll_cons]
        by_cases hout : mount.Outside e.change.path
        · have hne : e.change.path ≠ [] := fun heq =>
            hmount (List.prefix_nil.mp (heq ▸ hbelow))
          have hliteral := he.literal hbelow
          have hinverse := TreeChange.inverse_path e.change t
          refine ⟨.change hpath hout (replayable_of_literal hne hliteral)
            (fun heq => he.kept (congrArg TreeChange.removedPath heq))
            happlies hforth,
            hback.append (.change (hinverse.trans hpath) (hinverse ▸ hout)
              (replayable_of_literal (hinverse ▸ hne) (hinverse ▸ hliteral))
              (inverse_kept hroot he.kept happlies)
              (TreeChange.inverse_appliesTo ht happlies) ?_)⟩
          rw [TreeChange.inverse_applyTo ht happlies]
          exact .nil t
        · obtain ⟨stack, hstack, name, below, rfl⟩ :=
            path_of_not_outside hpath hout he.placed
          have hsame := sameOutside_applyTo happlies hout
          exact ⟨.skip (skipped_message hstack false) (.same hsame hforth),
            hback.append (.skip (skipped_message hstack false)
              (.same hsame.symm (.nil t)))⟩
      · have hrecord : recordOf m mount t e = none := by
          cases hrecord : recordOf m mount t e with
          | none => rfl
          | some pair =>
              have hsome := recordOf_isSome (m := m) mount happlies
              rw [hrecord] at hsome
              have hheard : e.quiet = false ∧
                  isNodeInThisDatabase m mount e.change.path = true := by
                simpa using hsome.symm
              exact absurd (he.accounted.mp hheard) hbelow
        have hsame : SameOutside mount t (e.change.applyTo t) :=
          sameOutside_applyTo happlies fun hout => hbelow hout.1
        simp only [recordsOf, hrecord, Option.toList_none, List.nil_append]
        refine ⟨.same hsame hforth, ?_⟩
        rw [← List.append_nil (List.reverse _)]
        exact hback.append (.same hsame.symm (.nil t))

/-! ### Batches of records -/

theorem flatten_assembleAll_some (hm : m.Lawful) (prepend : Bool)
    {msgs : List (TreeMessage P)} (hflat : ∀ msg ∈ msgs, msg.flatten = [msg])
    (batch : TreeMessage P) :
    ∃ assembled, assembleAll m (some batch) msgs prepend = some assembled ∧
      assembled.flatten = if prepend then msgs.reverse ++ batch.flatten
        else batch.flatten ++ msgs := by
  induction msgs generalizing batch with
  | nil => exact ⟨batch, rfl, by simp⟩
  | cons msg msgs ih =>
      obtain ⟨assembled, hassembled, hflatten⟩ :=
        ih (fun msg' h' => hflat msg' (List.mem_cons_of_mem msg h'))
          (m.assembleBatchMessage (some batch) msg prepend)
      have hmsg := hflat msg List.mem_cons_self
      refine ⟨assembled, hassembled, hflatten.trans ?_⟩
      cases prepend with
      | true => simp [hm.assembleInFront, hmsg]
      | false => simp [hm.assembleAtEnd, hmsg]

/-- A batch of records holds them in order, or back to front. -/
theorem flatten_assembled (hm : m.Lawful) {prepend : Bool}
    {msgs : List (TreeMessage P)} (hflat : ∀ msg ∈ msgs, msg.flatten = [msg])
    {assembled : TreeMessage P}
    (h : assembleAll m none msgs prepend = some assembled) :
    assembled.flatten = if prepend then msgs.reverse else msgs := by
  cases msgs with
  | nil => cases h
  | cons msg msgs =>
      obtain ⟨assembled', hassembled, hflatten⟩ :=
        flatten_assembleAll_some hm prepend
          (fun msg' h' => hflat msg' (List.mem_cons_of_mem msg h'))
          (m.assembleBatchMessage none msg prepend)
      obtain rfl : assembled' = assembled :=
        Option.some.inj (hassembled.symm.trans h)
      rw [hflatten, hm.assembleNone, hflat msg List.mem_cons_self]
      cases prepend <;> simp

/-- Records are single messages. -/
theorem flatten_records (mount : Mount) {effects : List (Effect P)}
    (hvalid : TreeChange.Valid t (effects.map (·.change))) :
    ∀ record ∈ recordsOf m mount t effects,
      record.1.flatten = [record.1] ∧ record.2.flatten = [record.2] := by
  induction effects generalizing t with
  | nil => simp [recordsOf]
  | cons e effects ih =>
      intro record hrecord
      rcases List.mem_append.mp hrecord with hfirst | hlater
      · unfold recordOf at hfirst
        split at hfirst
        · cases hfirst
        · cases hpath : relativePathOf m mount e.change.path with
          | none => simp [hpath] at hfirst
          | some relativePath =>
              rw [hpath, Option.bind_some, Effect.record_eq hvalid.1] at hfirst
              obtain rfl := List.mem_singleton.mp hfirst
              exact ⟨TreeChange.flatten_message, TreeChange.flatten_message⟩
      · exact ih hvalid.2 record hlater

/-! ### The log -/

/-- A message brings the database forth, or none is needed. -/
def Brings (m : Muscle P) (mount : Mount) (msg : Option (TreeMessage P))
    (t t' : MessageTree P) : Prop :=
  match msg with
  | some msg => Replays m mount msg.flatten t t'
  | none => SameOutside mount t t'

/-- What the log says of an update of a client: how to get from one tree to
another, and back again. -/
structure Describes (m : Muscle P) (mount : Mount) (key : UndoKey)
    (payload : UndoStackMessage P) (t t' : MessageTree P) : Prop where
  undoKey : payload.undoKey = key
  redo : Brings m mount (payload.findMessage true) t t'
  undo : Brings m mount (payload.findMessage false) t' t

theorem Replays.sameOutside (h : Replays m mount [] t t') :
    SameOutside mount t t' := by
  generalize hnil : ([] : List (TreeMessage P)) = msgs at h
  induction h with
  | nil t => exact .refl t
  | same hsame hrest ih => exact hsame.trans (ih hnil)
  | idle | skip | change => cases hnil

/-- **What an update leaves in the log** describes it. -/
theorem describes_update (hm : m.Lawful) (hmount : mount.root ≠ [])
    {effects : List (Effect P)} (ht : t.Indexed) (hroot : mount.root ∈ t.nodes)
    (hvalid : TreeChange.Valid t (effects.map (·.change)))
    (hundoable : ∀ e ∈ effects, Undoable m mount e) (key : UndoKey) :
    Describes m mount key (.messagePair key
      ((assembleAll m none ((recordsOf m mount t effects).map (·.1))
        false).getD .noop)
      (assembleAll m none ((recordsOf m mount t effects).map (·.2)) true))
      t (TreeChange.applyAll t (effects.map (·.change))) := by
  obtain ⟨hforth, hback⟩ := replays_records hmount ht hroot hvalid hundoable
  have hflat := flatten_records (m := m) mount hvalid
  generalize recordsOf m mount t effects = records at hforth hback hflat
  have hflat₁ : ∀ msg ∈ records.map (·.1), msg.flatten = [msg] := by
    intro msg hmsg
    obtain ⟨record, hrecord, rfl⟩ := List.mem_map.mp hmsg
    exact (hflat record hrecord).1
  have hflat₂ : ∀ msg ∈ records.map (·.2), msg.flatten = [msg] := by
    intro msg hmsg
    obtain ⟨record, hrecord, rfl⟩ := List.mem_map.mp hmsg
    exact (hflat record hrecord).2
  refine ⟨rfl, ?_, ?_⟩
  · unfold UndoStackMessage.findMessage Brings
    simp only [if_true]
    cases hassembled : assembleAll m none (records.map (·.1)) false with
    | none =>
        rw [(assembleAll_eq_none.mp hassembled).2] at hforth
        exact .idle hforth
    | some assembled =>
        rw [Option.getD_some, flatten_assembled hm hflat₁ hassembled]
        exact hforth
  · unfold UndoStackMessage.findMessage Brings
    simp only [Bool.false_eq_true, if_false]
    cases hassembled : assembleAll m none (records.map (·.2)) true with
    | none =>
        rw [(assembleAll_eq_none.mp hassembled).2] at hback
        exact hback.sameOutside
    | some assembled =>
        simp only
        rw [flatten_assembled hm hflat₂ hassembled]
        exact hback

/-- Transactions of a client, as a log has them, that bring the database from
one tree to another if they are replayed one after another. -/
inductive Chain (m : Muscle P) (mount : Mount) (view : LogView P)
    (isRedo : Bool) (key : UndoKey) :
    List ℕ → MessageTree P → MessageTree P → Prop
  | nil {t goal : MessageTree P} (h : SameOutside mount t goal) :
      Chain m mount view isRedo key [] t goal
  | cons {transID transIDs payload} {t t' goal : MessageTree P}
      (hpayload : view.getUpdatePayload transID = some payload)
      (hkey : payload.undoKey = key)
      (hbrings : Brings m mount (payload.findMessage isRedo) t t')
      (hrest : Chain m mount view isRedo key transIDs t' goal) :
      Chain m mount view isRedo key (transID :: transIDs) t goal

/-- **Replaying transactions.** -/
theorem replayTransactions_chain {view : LogView P}
    {I : MessageTree P → Prop} (ctx : CommandContext) (hum : um.Lawful)
    (hmount : mount.ForStacks um.toMuscle)
    (hctx : ctx.isOkayToHandleUpdateMessage = isOkayDuringUndoRedo)
    (hI : KeptInReplays um mount view ctx.opTag I) {isRedo : Bool}
    {key : UndoKey} {transIDs : List ℕ} {goal : MessageTree P}
    (h : Chain um.toMuscle mount view isRedo key transIDs t goal)
    (hx : I x) (hsame : SameOutside mount t x) :
    let e := replayTransactions um mount ctx view isRedo key transIDs x
    e.status.isOK = true ∧ I e.tree ∧ SameOutside mount goal e.tree := by
  induction h generalizing x with
  | nil h => exact ⟨rfl, hx, h.symm.trans hsame⟩
  | @cons transID transIDs payload t t' goal hpayload hkey hbrings hrest ih =>
      unfold replayTransactions
      rw [hpayload]
      simp only
      have hfirst : ∀ e : Execution x, e.status.isOK = true ∧ I e.tree ∧
          SameOutside mount t' e.tree →
        (e.andThen (replayTransactions um mount ctx view isRedo key
            transIDs)).status.isOK = true ∧
          I (e.andThen (replayTransactions um mount ctx view isRedo key
            transIDs)).tree ∧
          SameOutside mount goal (e.andThen (replayTransactions um mount ctx
            view isRedo key transIDs)).tree := by
        rintro e ⟨hok, hkept, hafter⟩
        rw [Execution.andThen_status_of_isOK hok,
          Execution.andThen_tree_of_isOK hok]
        exact ih hkept hafter
      refine hfirst _ ?_
      unfold Brings at hbrings
      cases hmsg : payload.findMessage isRedo with
      | none =>
          rw [hmsg] at hbrings
          exact ⟨rfl, hx, hbrings.symm.trans hsame⟩
      | some msg =>
          rw [hmsg] at hbrings
          simp only
          rw [if_pos hkey]
          have hfrom : ReplaysFrom um mount I t' (msg.flatten ++ []) x := by
            rw [List.append_nil]
            exact ⟨hx, t, hsame, hbrings⟩
          obtain ⟨hok, hkept, t'', hsame', hdone⟩ :=
            treeUpdateAux_replays hum hmount hctx hI msg [] x hfrom
          exact ⟨hok, hkept, hdone.sameOutside.symm.trans hsame'⟩

end Recording

end ZgChoir
