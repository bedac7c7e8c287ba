import ZgChoir.UndoStackClients

/-!
# The commands of an undo-stack database, and its stacks

Each command does to the stacks of its client what its name says, or a first
part of that if it fails on the way; either keeps the invariant.  The count of
the sequences that a client has begun and not ended goes along: a command that
fails does not count.

What else an update does has no business with the stacks.  A command of an
update says so by where it works, and a message of the log that is replayed by
the paths that the filter for undoing and redoing lets through.
-/

namespace ZgChoir

open UndoRedo

variable {P : Type}

/-! ## What a command does and may do -/

/-- The name of a client's node, or the clauses of it. -/
def clientNode (key : UndoKey) : UndoKey :=
  if key = [] then ["default"] else key

section Model

variable (um : UndoStackMuscle P) (mount : Mount)

/-- How many sequences each client has begun and not ended after a message. -/
def unmatchedAfter (ctx : CommandContext) (view : LogView P) :
    UndoStackMessage P → MessageTree P → (UndoKey → ℕ) → UndoKey → ℕ
  | .batch _ subMsgs => unmatchedAfterAll subMsgs
  | .beginSequence key label => fun t unmatched =>
      if (beginSequence um mount ctx view key label t).status.isOK then
        Function.update unmatched (clientNode key)
          (unmatched (clientNode key) + 1)
      else unmatched
  | .endSequence key label => fun t unmatched =>
      if (endSequence um mount ctx view key label t).status.isOK then
        Function.update unmatched (clientNode key)
          (unmatched (clientNode key) - 1)
      else unmatched
  | _ => fun _ unmatched => unmatched
where
  unmatchedAfterAll : List (UndoStackMessage P) → MessageTree P →
      (UndoKey → ℕ) → UndoKey → ℕ
  | [] => fun _ unmatched => unmatched
  | subMsg :: subMsgs => fun t unmatched =>
      let e := seniorMessageTreeUpdate um mount ctx view subMsg t
      let unmatched' := unmatchedAfter ctx view subMsg t unmatched
      if e.status.isOK then unmatchedAfterAll subMsgs e.tree unmatched'
      else unmatched'

/-- A command that has no business with the stacks, wherever links may lead
it.  A command for an index works at one node and nowhere else. -/
def TreeMessage.SparesStacks (m : Muscle P) : TreeMessage P → Prop
  | .insertIndexEntry path _ _ flags _ => SparesNode path flags
  | .removeIndexEntry path _ _ flags _ => SparesNode path flags
  | msg => ∀ t, ∀ path ∈ msg.workPath m mount t,
      ∀ stack ∈ ["undo", "redo"], LeadsApart m path (mount.stackRoot stack)
where
  SparesNode (path : NodePath) (flags : TreeGatewayFlags) : Prop :=
    ∀ t, ∀ q ∈ m.getDataNode t
      (databaseSubpathToSessionRelativePath m mount t path flags),
        ∀ stack ∈ ["undo", "redo"], ¬ mount.stackRoot stack <+: q

/-- A command that is skipped. -/
def TreeMessage.Skipped
    (isOkayToHandleUpdateMessage : NodePath → TreeGatewayFlags → Bool) :
    TreeMessage P → Prop
  | .updateNodeValue path _ flags _ _ =>
      isOkayToHandleUpdateMessage path flags = false
  | .insertIndexEntry path .. => isOkayToHandleUpdateMessage path {} = false
  | .removeIndexEntry path .. => isOkayToHandleUpdateMessage path {} = false
  | _ => False

/-- What the log has to replay has no business with the stacks either. -/
def LogView.SparesStacks (m : Muscle P) (view : LogView P) : Prop :=
  ∀ transID payload, view.getUpdatePayload transID = some payload →
    ∀ isRedo msg, payload.findMessage isRedo = some msg →
      ∀ subMsg ∈ msg.flatten, subMsg.Skipped isOkayDuringUndoRedo ∨
        subMsg.SparesStacks mount m

/-- A client whose node is named by one clause, which is no pattern. -/
def PlainKey (m : Muscle P) (key : UndoKey) : Prop :=
  ∃ client, clientNode key = [client] ∧
    ∀ stack ∈ ["undo", "redo"], Literal m (mount.stackRoot stack ++ [client])

/-- **The condition** on a message: the clients that it comes from have plain
keys, the what-code has room for another sequence, and whatever is not for the
stacks leaves them alone. -/
def Allowed (ctx : CommandContext) (view : LogView P) :
    UndoStackMessage P → MessageTree P → (UndoKey → ℕ) → Prop
  | .batch _ subMsgs => AllowedAll subMsgs
  | .beginSequence key _ => fun _ unmatched =>
      PlainKey mount um.toMuscle key ∧ unmatched (clientNode key) + 1 < 2 ^ 32
  | .endSequence key _ => fun _ _ => PlainKey mount um.toMuscle key
  | .undo key _ => fun _ _ =>
      PlainKey mount um.toMuscle key ∧ view.SparesStacks mount um.toMuscle
  | .redo key _ => fun _ _ =>
      PlainKey mount um.toMuscle key ∧ view.SparesStacks mount um.toMuscle
  | .tree _ msg => fun _ _ =>
      ∀ subMsg ∈ msg.flatten, subMsg.SparesStacks mount um.toMuscle
  | .messagePair .. => fun _ _ => True
  | .archive .. => fun _ _ => True
where
  AllowedAll : List (UndoStackMessage P) → MessageTree P → (UndoKey → ℕ) →
      Prop
  | [] => fun _ _ => True
  | subMsg :: subMsgs => fun t unmatched =>
      let e := seniorMessageTreeUpdate um mount ctx view subMsg t
      Allowed ctx view subMsg t unmatched ∧ (e.status.isOK = true →
        AllowedAll subMsgs e.tree
          (unmatchedAfter um mount ctx view subMsg t unmatched))

end Model

/-! ## Commands that leave the stacks alone -/

section Spares

variable {m : Muscle P} {mount : Mount} {t : MessageTree P}
  {ctx : CommandContext} {msg : TreeMessage P}

/-- A database by itself. -/
def Mount.alone (root : NodePath) : Mount :=
  { roots := [root], dbIndex := 0, root, mounted := rfl }

theorem isNodeInThisDatabase_alone {root q : NodePath}
    (hmatch : m.segmentsMatch root root = true) (hq : root <+: q) :
    isNodeInThisDatabase m (.alone root) q = true := by
  have hsub : getDatabaseSubpath m root q = some (q.drop root.length) := by
    unfold getDatabaseSubpath
    split
    · rw [if_neg (by have := hq.length_le; omega),
        ← List.prefix_iff_eq_take.mp hq, if_pos hmatch]
    · simp
  simp [isNodeInThisDatabase, relativePathOf, getDatabaseForNodePath,
    Mount.alone, hsub]

theorem sameStacks_of_foreign (hmount : mount.ForStacks m) {e : Execution t}
    (h : ∀ stack ∈ ["undo", "redo"],
      Foreign m (.alone (mount.stackRoot stack)) e) :
    SameStacks mount t e.tree := by
  intro stack hstack q hq
  exact (h stack hstack).lookup
    (isNodeInThisDatabase_alone (hmount.matchesItself stack hstack) hq)

theorem handleNodeIndexUpdateMessage_sameStacks (hm : m.Local)
    {path : NodePath} {inserts : Bool} {index : ℕ} {key : String}
    {flags : TreeGatewayFlags} {optOpTag : String}
    (h : ctx.isOkayToHandleUpdateMessage path {} = false ∨
      TreeMessage.SparesStacks.SparesNode mount m path flags) :
    SameStacks mount t (handleNodeIndexUpdateMessage m mount ctx t path inserts
      index key flags optOpTag).tree := by
  unfold handleNodeIndexUpdateMessage
  split
  · next hokay =>
    have hspares := h.resolve_left (by simp [hokay])
    split
    · next node hnode =>
      intro stack hstack q hq
      simp only [Execution.withStatus_tree, Execution.ofOutcome_tree]
      refine TreeChange.lookup_applyAll_of_ne (Outcome.valid _)
        fun c hc hpath => ?_
      have hat : c.path = node := by
        split at hc
        · exact hm.insertIndexEntryAt t node index key c hc
        · exact hm.removeIndexEntryAt t node index c hc
      refine hspares t node hnode stack hstack ?_
      rwa [← hat, hpath]
    · exact fun _ _ _ _ => rfl
  · exact fun _ _ _ _ => rfl

/-- **A command that leaves the stacks alone**, or is skipped. -/
theorem seniorCommand_sameStacks (hm : m.Local) (hmount : mount.ForStacks m)
    (h : msg.Skipped ctx.isOkayToHandleUpdateMessage ∨
      msg.SparesStacks mount m) :
    SameStacks mount t (seniorCommand m mount ctx t msg).tree := by
  have hworks : (∀ path ∈ msg.workPath m mount t, ∀ stack ∈ ["undo", "redo"],
      LeadsApart m path (mount.stackRoot stack)) →
        SameStacks mount t (seniorCommand m mount ctx t msg).tree :=
    fun hleads => sameStacks_of_foreign hmount fun stack hstack =>
      foreign_seniorCommand hm fun path hpath => hleads path hpath stack hstack
  cases msg with
  | updateNodeValue path optPayload flags optBefore optOpTag =>
      rcases h with hskipped | hspares
      · simp only [TreeMessage.Skipped] at hskipped
        simp only [seniorCommand, handleNodeUpdateMessage, hskipped]
        exact fun _ _ _ _ => rfl
      · exact hworks (hspares t)
  | insertIndexEntry path index key flags optOpTag =>
      exact handleNodeIndexUpdateMessage_sameStacks hm h
  | removeIndexEntry path index key flags optOpTag =>
      exact handleNodeIndexUpdateMessage_sameStacks hm h
  | updateSubtree path optPayload flags optOpTag =>
      exact hworks ((h.resolve_left id) t)
  | requestDeleteNodes path filter flags optOpTag =>
      exact hworks ((h.resolve_left id) t)
  | moveIndexEntry path optBefore filter flags optOpTag =>
      exact hworks ((h.resolve_left id) t)
  | batch subMsgs => exact fun _ _ _ _ => rfl
  | noop => exact fun _ _ _ _ => rfl
  | unknown what => exact fun _ _ _ _ => rfl

end Spares

/-! ## Beginning and ending -/

section Commands

variable {um : UndoStackMuscle P} {mount : Mount} {view : LogView P}
  {ctx : CommandContext} {t t' : MessageTree P} {unmatched : UndoKey → ℕ}
  {stack client : String} {n : ℕ} {undo redo entries : List (String × P)}
  {node : NodePath} {key : UndoKey} {label : Option String} {payload : P}

theorem Mount.ForStacks.clientNodePath_eq
    (hmount : mount.ForStacks um.toMuscle)
    (hkey : clientNode key = [client]) (stack : String) :
    mount.clientNodePath stack key = mount.stackRoot stack ++ [client] := by
  unfold clientNode at hkey
  rw [Mount.clientNodePath, Mount.rootPathWithSlash, if_neg hmount.root_ne,
    hkey, Mount.stackRoot, List.append_assoc]
  rfl

/-- The payload of a sequence that begins. -/
theorem UndoStackMuscle.Lawful.newSequence (hum : um.Lawful)
    (label : Option String) (startDBID : ℕ) :
    um.what (um.newSequence label startDBID) = 1 ∧
      um.startDBID (um.newSequence label startDBID) = startDBID ∧
      um.findInt64 (um.newSequence label startDBID) "eid" = none := by
  have hfields : ∀ p : P, um.what p = 1 →
      (∀ field, field ≠ "lab" → um.findInt64 p field = none) →
        um.what (um.addInt64 p "sid" startDBID) = 1 ∧
          um.startDBID (um.addInt64 p "sid" startDBID) = startDBID ∧
          um.findInt64 (um.addInt64 p "sid" startDBID) "eid" = none := by
    intro p hwhat hnone
    refine ⟨(hum.what_addInt64 _ _ _).trans hwhat, ?_, ?_⟩
    · rw [UndoStackMuscle.startDBID, UndoStackMuscle.getInt64,
        hum.findInt64_addInt64 _ _ _ (hnone "sid" (by decide))]
      rfl
    · rw [hum.findInt64_addInt64_of_ne _ _ _ _ (by decide)]
      exact hnone "eid" (by decide)
  unfold UndoStackMuscle.newSequence
  cases label with
  | none =>
      refine hfields _ (hum.what_setWhat _ _) fun field _ => ?_
      rw [hum.findInt64_setWhat, hum.findInt64_emptyMessage]
  | some label =>
      refine hfields _ ?_ fun field hne => ?_
      · rw [hum.what_addString, hum.what_setWhat]
      · rw [hum.findInt64_addString _ _ _ _ hne, hum.findInt64_setWhat,
          hum.findInt64_emptyMessage]

/-- The payload of a sequence that ends. -/
theorem UndoStackMuscle.Lawful.closedSequence (hum : um.Lawful)
    (hopen : um.findInt64 payload "eid" = none) (label : Option String)
    (afterLastDBID : ℕ) :
    let closed := um.closedSequence payload label afterLastDBID
    um.what closed = 0 ∧ um.startDBID closed = um.startDBID payload ∧
      um.endDBID closed = afterLastDBID := by
  have hfields : ∀ p : P, (∀ field, field ≠ "lab" → um.findInt64 p field =
      um.findInt64 (um.addInt64 payload "eid" afterLastDBID) field) →
        um.what (um.setWhat p 0) = 0 ∧
          um.startDBID (um.setWhat p 0) = um.startDBID payload ∧
          um.endDBID (um.setWhat p 0) = afterLastDBID := by
    intro p hsame
    refine ⟨hum.what_setWhat _ _, ?_, ?_⟩
    · rw [UndoStackMuscle.startDBID, UndoStackMuscle.getInt64,
        hum.findInt64_setWhat, hsame "sid" (by decide),
        hum.findInt64_addInt64_of_ne _ _ _ _ (by decide)]
      rfl
    · rw [UndoStackMuscle.endDBID, UndoStackMuscle.getInt64,
        hum.findInt64_setWhat, hsame "eid" (by decide),
        hum.findInt64_addInt64 _ _ _ hopen]
      rfl
  unfold UndoStackMuscle.closedSequence
  cases label with
  | none => exact hfields _ fun _ _ => rfl
  | some label =>
      refine hfields _ fun field hne => ?_
      change um.findInt64 (if label = "" then _ else _) field = _
      split
      · rfl
      · rw [hum.findInt64_addString _ _ _ _ hne,
          hum.findInt64_removeName _ _ _ hne]

theorem StackAt.demanded (h : StackAt t node entries)
    (hd : Demanded um t t' node) : StackAt t' node entries := by
  by_cases hmem : node ∈ t.nodes
  · exact h.congr (hd.here hmem) fun name => hd.elsewhere _ (by simp)
  · have hnone : entries = [] := by
      refine List.eq_nil_iff_forall_not_mem.mpr fun e he => ?_
      exact hmem (h.mem_node he)
    subst hnone
    refine ⟨?_, List.nodup_nil, fun _ he => absurd he List.not_mem_nil⟩
    rw [MessageTree.indexOf, hd.new hmem]
    rfl

theorem Demanded.getData_eq (hd : Demanded um t t' node) (q : NodePath) :
    um.getData t' q = um.getData t q := by
  unfold UndoStackMuscle.getData
  by_cases hq : q = node
  · subst hq
    by_cases hmem : q ∈ t.nodes
    · rw [hd.here hmem]
    · rw [hd.new hmem, MessageTree.lookup_eq_none.mpr hmem]
  · rw [hd.elsewhere q hq]

/-- Creating the node of a client changes nothing on the stacks. -/
theorem StacksKept.demanded (h : StacksKept um mount view t unmatched)
    (hd : Demanded um t t' (mount.stackRoot stack ++ [client])) :
    StacksKept um mount view t' unmatched := by
  refine h.of_changed_same hd.clientChanged ?_
  obtain ⟨undo, redo, hc⟩ := h.client client
  have hat : ∀ stack' entries,
      StackAt t (mount.stackRoot stack' ++ [client]) entries →
        StackAt t' (mount.stackRoot stack' ++ [client]) entries := by
    intro stack' entries hat
    by_cases hsame : stack' = stack
    · subst hsame
      exact hat.demanded hd
    · exact hd.clientChanged.stackAt (.inl hsame) hat
  refine ⟨undo, redo, hat _ _ hc.undoAt, hat _ _ hc.redoAt, hc.sound, hc.holds,
    hc.wellFormed, ?_⟩
  rw [hd.getData_eq]
  exact hc.counted

/-- A node of the database is removed, if it is there. -/
theorem removeDataNodes_cases (hum : um.Lawful)
    (hmount : mount.ForStacks um.toMuscle) {path : NodePath} {name : String}
    (hliteral : Literal um.toMuscle (path ++ [name]))
    (hroot : mount.root <+: path ++ [name]) (t : MessageTree P)
    (opTag : String) :
    let e := removeDataNodes um.toMuscle mount false opTag t (path ++ [name])
      none false
    path ++ [name] ∈ t.nodes ∧ RemovedAt t e.tree path name ∨
      path ++ [name] ∉ t.nodes ∧ e.tree = t := by
  unfold removeDataNodes
  simp only [Execution.ofOutcome_tree]
  have hfilter : ∀ dn : DataNode P, (isNodeInThisDatabase um.toMuscle mount
      (path ++ [name]) && true) = true := by
    intro dn
    rw [hmount.owns _ hroot]
    rfl
  obtain ⟨hthere, hnot⟩ := hum.removeDataNodes_plain t
    (fun p _ => isNodeInThisDatabase um.toMuscle mount p && true) hliteral
    hfilter
  by_cases hmem : path ++ [name] ∈ t.nodes
  · exact .inl ⟨hmem, hthere hmem⟩
  · rw [hnot hmem]
    exact .inr ⟨hmem, rfl⟩

/-- A client's redo stack is removed. -/
theorem removeRedo_kept (hum : um.Lawful) (hmount : mount.ForStacks um.toMuscle)
    (hliteral : Literal um.toMuscle (mount.stackRoot "redo" ++ [client]))
    (h : StacksKept um mount view t unmatched) (opTag : String) :
    let e := removeDataNodes um.toMuscle mount false opTag t
      (mount.stackRoot "redo" ++ [client]) none false
    ClientChanged mount "redo" client t e.tree ∧
      StackAt e.tree (mount.stackRoot "redo" ++ [client]) [] ∧
      StacksKept um mount view e.tree unmatched := by
  have hroot : mount.root <+: mount.stackRoot "redo" ++ [client] := by
    rw [Mount.stackRoot, List.append_assoc]
    exact List.prefix_append _ _
  have hgone : ClientChanged mount "redo" client t
        (removeDataNodes um.toMuscle mount false opTag t
          (mount.stackRoot "redo" ++ [client]) none false).tree ∧
      StackAt (removeDataNodes um.toMuscle mount false opTag t
        (mount.stackRoot "redo" ++ [client]) none false).tree
          (mount.stackRoot "redo" ++ [client]) [] := by
    rcases removeDataNodes_cases hum hmount hliteral hroot t opTag with
      ⟨-, hremoved⟩ | ⟨hmem, hsame⟩
    · exact ⟨hremoved.clientChanged_node,
        stackAt_nil (hremoved.below _ (List.prefix_refl _))⟩
    · rw [hsame]
      exact ⟨.refl t, stackAt_nil (MessageTree.lookup_eq_none.mpr hmem)⟩
  obtain ⟨hchanged, hnil⟩ := hgone
  refine ⟨hchanged, hnil, h.of_changed_same hchanged ?_⟩
  obtain ⟨undo, redo, hc⟩ := h.client client
  have hne : "undo" ≠ "redo" ∨ client ≠ client := .inl (by decide)
  refine ⟨undo, [], hchanged.stackAt hne hc.undoAt, hnil, hc.sound, hc.holds,
    hc.wellFormed.clearRedo, ?_⟩
  rw [hchanged.getData hne]
  exact hc.counted

theorem StackAt.getData_entry (h : StackAt t node entries)
    {e : String × P} (he : e ∈ entries) :
    um.getData t (node ++ [e.1]) = e.2 := by
  obtain ⟨dn, hdn, hpayload⟩ := h.payload e he
  rw [UndoStackMuscle.getData, hdn]
  exact hpayload

/-- A client that has something begun has an open sequence on top of its undo
stack, and nothing to redo. -/
theorem ClientStacks.openTop
    (h : ClientStacks um mount view t n client undo redo) (hne : n ≠ 0) :
    redo = [] ∧ ∃ older top, undo = older ++ [top] ∧ um.what top.2 = 1 ∧
      um.findInt64 top.2 "eid" = none ∧ 0 < um.startDBID top.2 := by
  obtain ⟨hredo, older, current, heq, -, hopen⟩ := h.wellFormed.busy hne
  refine ⟨List.map_eq_nil_iff.mp hredo, ?_⟩
  cases hlast : undo.getLast? with
  | none =>
      obtain rfl := List.getLast?_eq_none_iff.mp hlast
      simp at heq
  | some top =>
      obtain ⟨rest, rfl⟩ := List.getLast?_eq_some_iff.mp hlast
      rw [List.map_append] at heq
      obtain ⟨-, htop⟩ := List.append_inj' heq rfl
      obtain rfl : um.sequenceOf top.2 = current := by simpa using htop
      have hwhat : um.what top.2 ≠ 0 := by
        intro hzero
        simp [UndoStackMuscle.sequenceOf, hzero] at hopen
      exact ⟨rest, top, rfl, (h.sound top (by simp)).resolve_left hwhat⟩

/-- `UNDOSTACK_COMMAND_BEGINSEQUENCE`. -/
theorem beginSequence_kept (hum : um.Lawful) (hgap : view.Gapless)
    (hmount : mount.ForStacks um.toMuscle) (hkey : clientNode key = [client])
    (hliteral : ∀ stack ∈ ["undo", "redo"],
      Literal um.toMuscle (mount.stackRoot stack ++ [client]))
    (h : StacksKept um mount view t unmatched)
    (hcount : unmatched [client] + 1 < 2 ^ 32) :
    let e := beginSequence um mount ctx view key label t
    StacksKept um mount view e.tree
      (if e.status.isOK then
        Function.update unmatched [client] (unmatched [client] + 1)
      else unmatched) := by
  unfold beginSequence
  simp only [hmount.clientNodePath_eq hkey]
  refine withDemandedNode_of (I := fun status tree => StacksKept um mount view
    tree (if status.isOK then Function.update unmatched [client]
      (unmatched [client] + 1) else unmatched)) hum
        (h.roots "undo" (by simp)) (hliteral "undo" (by simp)) ?_
  intro t₁ hdemanded
  have h₁ : StacksKept um mount view t₁ unmatched := h.demanded hdemanded
  obtain ⟨undo, redo, hc⟩ := h₁.client client
  have hne : "undo" ≠ "redo" ∨ client ≠ client := .inl (by decide)
  split
  · next hwhat =>
    have hzero : unmatched [client] = 0 := by
      rw [← hc.counted, hwhat]
      rfl
    obtain ⟨hchanged, hnil, hkept⟩ :=
      removeRedo_kept hum hmount (hliteral "redo" (by simp)) h₁ ctx.opTag
    have hmem : mount.stackRoot "undo" ++ [client] ∈
        (removeDataNodes um.toMuscle mount false ctx.opTag t₁
          (mount.stackRoot "redo" ++ [client]) none false).tree.nodes :=
      (MessageTree.mem_nodes_of_lookup_eq
        (hchanged.lookup hne (List.prefix_refl _))).mpr hdemanded.mem
    generalize removeDataNodes um.toMuscle mount false ctx.opTag t₁
      (mount.stackRoot "redo" ++ [client]) none false = e at *
    cases hok : e.status.isOK with
    | false =>
        rw [Execution.andThen_of_not_isOK hok, hok]
        exact hkept
    | true =>
        rw [Execution.andThen_status_of_isOK hok,
          Execution.andThen_tree_of_isOK hok]
        rcases pushSequence_cases hum hmem (hliteral "undo" (by simp))
          ctx.opTag (um.newSequence label (view.currentDatabaseStateID + 1))
          with ⟨hfail, hsame⟩ | ⟨hpush, hpushed⟩
        · rw [hfail, hsame]
          exact hkept
        · rw [hpush]
          refine hkept.of_changed hpushed.clientChanged ?_
          obtain ⟨undo', redo', hc'⟩ := hkept.client client
          obtain rfl := hc'.redoAt.unique hnil
          obtain ⟨name, hat⟩ := hpushed.stackAt hmem hc'.undoAt
          obtain ⟨index, hhere⟩ := hpushed.here
          obtain ⟨hnew, hstart, hend⟩ :=
            hum.newSequence label (view.currentDatabaseStateID + 1)
          have hwf := hc'.wellFormed
          rw [hzero] at hwf
          refine ⟨_, [], hat, hpushed.clientChanged.stackAt (.inl (by decide))
            hnil, fun e he => ?_, fun e he hopen => ?_, ?_, ?_⟩
          · rcases List.mem_append.mp he with he | he
            · exact hc'.sound e he
            · obtain rfl := List.mem_singleton.mp he
              exact .inr ⟨hnew, hend, by rw [hstart]; omega⟩
          · rcases List.mem_append.mp he with he | he
            · exact hc'.holds e he hopen
            · obtain rfl := List.mem_singleton.mp he
              rw [LogView.Holds, hstart]
              exact hgap.current
          · rw [hzero, List.map_append]
            have hseq : um.sequenceOf (um.newSequence label
                (view.currentDatabaseStateID + 1)) =
                  ⟨view.currentDatabaseStateID + 1, none⟩ := by
              simp [UndoStackMuscle.sequenceOf, hnew, hstart]
            simp only [List.map_cons, List.map_nil, hseq]
            exact hwf.begin
          · rw [UndoStackMuscle.getData, hhere, hzero]
            simp [hnew]
  · next hwhat =>
    have hpos : unmatched [client] ≠ 0 := by
      intro hzero
      rw [← hc.counted] at hzero
      exact hwhat (UInt32.toNat_inj.mp hzero)
    simp only [Execution.withStatus_status, Execution.withStatus_tree,
      Status.noError_isOK, if_true, Execution.ofOutcome_tree]
    have hset := hum.setAt hdemanded.mem
      (um.setWhat (um.getData t₁ (mount.stackRoot "undo" ++ [client]))
        (um.what (um.getData t₁ (mount.stackRoot "undo" ++ [client])) + 1))
    have hchanged := hset.clientChanged (List.prefix_refl _)
    refine h₁.of_changed hchanged ⟨undo, redo, hc.undoAt.setNode hset,
      hchanged.stackAt (.inl (by decide)) hc.redoAt, hc.sound, hc.holds,
      hc.wellFormed.nest hpos (by omega), ?_⟩
    rw [UndoStackMuscle.getData, hset.here]
    simp only
    rw [hum.what_setWhat, UInt32.toNat_add, hc.counted]
    exact Nat.mod_eq_of_lt hcount

/-- `UNDOSTACK_COMMAND_ENDSEQUENCE`. -/
theorem endSequence_kept (hum : um.Lawful)
    (hmount : mount.ForStacks um.toMuscle) (hkey : clientNode key = [client])
    (hliteral : ∀ stack ∈ ["undo", "redo"],
      Literal um.toMuscle (mount.stackRoot stack ++ [client]))
    (h : StacksKept um mount view t unmatched) :
    let e := endSequence um mount ctx view key label t
    StacksKept um mount view e.tree
      (if e.status.isOK then
        Function.update unmatched [client] (unmatched [client] - 1)
      else unmatched) := by
  unfold endSequence
  simp only [hmount.clientNodePath_eq hkey]
  rw [hum.lawful.getDataNode t (hliteral "undo" (by simp))]
  by_cases hmem : mount.stackRoot "undo" ++ [client] ∈ t.nodes
  · rw [if_pos hmem]
    obtain ⟨undo, redo, hc⟩ := h.client client
    simp only
    split
    · next hnested =>
      have hlt : 1 < unmatched [client] := by
        rw [← hc.counted]
        exact hnested
      simp only [Execution.withStatus_status, Execution.withStatus_tree,
        Status.noError_isOK, if_true, Execution.ofOutcome_tree]
      have hset := hum.setAt hmem
        (um.setWhat (um.getData t (mount.stackRoot "undo" ++ [client]))
          (um.what (um.getData t (mount.stackRoot "undo" ++ [client])) - 1))
      have hchanged := hset.clientChanged (List.prefix_refl _)
      refine h.of_changed hchanged ⟨undo, redo, hc.undoAt.setNode hset,
        hchanged.stackAt (.inl (by decide)) hc.redoAt, hc.sound, hc.holds,
        hc.wellFormed.nest (by omega) (by omega), ?_⟩
      rw [UndoStackMuscle.getData, hset.here]
      simp only
      rw [hum.what_setWhat,
        UInt32.toNat_sub_of_le _ _ (UInt32.le_of_lt hnested), hc.counted]
      rfl
    · next hnested =>
      split
      · exact h
      · next hwhat =>
        have hone : unmatched [client] = 1 := by
          have hpos : unmatched [client] ≠ 0 := by
            intro hzero
            rw [← hc.counted] at hzero
            exact hwhat (UInt32.toNat_inj.mp hzero)
          have hle : unmatched [client] ≤ 1 := by
            rw [← hc.counted]
            exact not_lt.mp hnested
          omega
        obtain ⟨rfl, older, top, rfl, hopen, hend, hstart⟩ :=
          hc.openTop (by omega)
        have htop : top ∈ older ++ [top] := by simp
        have hlast : (t.indexOf (mount.stackRoot "undo" ++
            [client])).getLast? = some top.1 := by
          rw [hc.undoAt.index]
          simp
        rw [hlast]
        simp only [hc.undoAt.getData_entry htop]
        obtain ⟨hclosed, hfirst, hended⟩ := hum.closedSequence hend label
          (view.currentDatabaseStateID + 1)
        generalize um.closedSequence top.2 label
          (view.currentDatabaseStateID + 1) = closed at *
        have hset : SetAt t (Execution.ofOutcome (um.setData t
            (mount.stackRoot "undo" ++ [client] ++ [top.1]) closed) false false
              ctx.opTag).tree (mount.stackRoot "undo" ++ [client] ++ [top.1])
                closed := by
          rw [Execution.ofOutcome_tree]
          exact hum.setAt (hc.undoAt.mem_child htop) closed
        generalize Execution.ofOutcome (um.setData t
          (mount.stackRoot "undo" ++ [client] ++ [top.1]) closed) false false
            ctx.opTag = e at hset
        have hmem' : mount.stackRoot "undo" ++ [client] ∈ e.tree.nodes :=
          (MessageTree.mem_nodes_of_lookup_eq
            (hset.elsewhere _ (by simp))).mpr hmem
        have hshown := hum.setAt hmem' closed
        have hok : (e.followedBy fun t' => (Execution.ofOutcome (um.setData t'
            (mount.stackRoot "undo" ++ [client]) closed) false false
              ctx.opTag).withStatus .noError).status.isOK = true := rfl
        rw [if_pos hok, Execution.followedBy_tree, Execution.withStatus_tree,
          Execution.ofOutcome_tree, hone]
        have hchanged := (hset.clientChanged (List.prefix_append _ _)).trans
          (hshown.clientChanged (List.prefix_refl _))
        refine h.of_changed hchanged ⟨older ++ [(top.1, closed)], [],
          (hc.undoAt.setTop hset).setNode hshown,
          hchanged.stackAt (.inl (by decide)) hc.redoAt, fun e he => ?_,
          fun e he hwhat => ?_, ?_, ?_⟩
        · rcases List.mem_append.mp he with he | he
          · exact hc.sound e (by simp [he])
          · obtain rfl := List.mem_singleton.mp he
            exact .inl hclosed
        · rcases List.mem_append.mp he with he | he
          · exact hc.holds e (by simp [he]) hwhat
          · obtain rfl := List.mem_singleton.mp he
            exact absurd hclosed hwhat
        · have hwf := hc.wellFormed
          rw [List.map_append] at hwf
          have hseq : um.sequenceOf closed = ⟨(um.sequenceOf top.2).first,
              some (view.currentDatabaseStateID + 1)⟩ := by
            simp [UndoStackMuscle.sequenceOf, hclosed, hfirst, hended]
          rw [List.map_append, List.map_cons, List.map_nil, hseq]
          exact hwf.close (by omega)
        · rw [UndoStackMuscle.getData, hshown.here]
          simp [hclosed]
  · rw [if_neg hmem]
    exact h

end Commands

end ZgChoir
