import ZgChoir.FailureAtomicity
import ZgChoir.SheetLaws

/-!
# A junior peer repeats what the senior peer has done

What a senior update sends to the junior peers are its own changes, one by
one, each as a path and what is to be there (`Effect.record_eq`).  A junior
peer whose database is the same takes them in the same order, and each does
again what it did (`replay_step`, `replay_run`).

The messages say nothing of changes that the database did not hear of, and a
path in a message is read as a pattern again where it looks like one.
-/

namespace ZgChoir

variable {P : Type} {m : Muscle P} {mount : Mount} {t t' u : MessageTree P}
variable {root p q relativePath : NodePath} {c : TreeChange P}

/-! ### Paths below the root -/

/-- The database that hears of a node has the node below its root. -/
theorem relativePathOf_eq_some
    (h : relativePathOf m mount p = some relativePath) :
    getDatabaseSubpath m mount.root p = some relativePath := by
  have hclosest : ∀ found ∈ getDatabaseForNodePath m mount p,
      ∃ r, mount.roots[found.1]? = some r ∧
        getDatabaseSubpath m r p = some found.2 := by
    unfold getDatabaseForNodePath
    have hmem : ∀ next ∈ mount.roots.zipIdx,
        mount.roots[next.2]? = some next.1 := fun next hnext =>
      List.mem_zipIdx_iff_getElem?.mp hnext
    revert hmem
    generalize mount.roots.zipIdx = candidates
    intro hmem
    refine List.foldlRecOn
      (motive := fun closest : Option (ℕ × NodePath) => ∀ found ∈ closest,
        ∃ r, mount.roots[found.1]? = some r ∧
          getDatabaseSubpath m r p = some found.2)
      candidates _ (fun found hfound => by cases hfound) ?_
    intro closest hprev next hnext
    cases hsub : getDatabaseSubpath m next.1 p with
    | none => simpa [hsub] using hprev
    | some subPath =>
        have hfound : ∀ found ∈ some (next.2, subPath),
            ∃ r, mount.roots[found.1]? = some r ∧
              getDatabaseSubpath m r p = some found.2 := by
          rintro found hfound
          obtain rfl := Option.mem_some_iff.mp hfound
          exact ⟨next.1, hmem next hnext, hsub⟩
        cases closest with
        | none => exact hfound
        | some found =>
            dsimp only
            split
            · exact hfound
            · exact hprev
  unfold relativePathOf at h
  cases hdb : getDatabaseForNodePath m mount p with
  | none => simp [hdb] at h
  | some found =>
      obtain ⟨i, subPath⟩ := found
      rw [hdb] at h
      dsimp only at h
      split at h
      · rename_i hindex
        obtain rfl : subPath = relativePath := Option.some.inj h
        obtain ⟨r, hroot, hsub⟩ := hclosest (i, subPath) hdb
        rw [hindex, mount.mounted] at hroot
        obtain rfl : mount.root = r := Option.some.inj hroot
        exact hsub
      · cases h

theorem path_eq_of_relativePathOf (hbelow : mount.root <+: p)
    (h : relativePathOf m mount p = some relativePath) :
    p = mount.root ++ relativePath := by
  have hsub := relativePathOf_eq_some h
  obtain ⟨below, rfl⟩ := hbelow
  unfold getDatabaseSubpath at hsub
  split at hsub
  · split at hsub
    · cases hsub
    · split at hsub
      · simpa using hsub
      · cases hsub
  · simpa using hsub

/-- No database hears of what is above its root. -/
theorem isNodeInThisDatabase_of_length_lt
    (h : p.length < mount.root.length) :
    isNodeInThisDatabase m mount p = false := by
  cases hpath : relativePathOf m mount p with
  | none => simp [isNodeInThisDatabase, hpath]
  | some relativePath =>
      have hsub := relativePathOf_eq_some hpath
      unfold getDatabaseSubpath at hsub
      split at hsub
      · cases hsub
      · split at hsub
        · rename_i hbelow
          exact absurd hbelow.length_le (by omega)
        · cases hsub

/-! ### Trees that are the same below the root -/

/-- Two trees hold the same database. -/
def SameDatabase (root : NodePath) (t t' : MessageTree P) : Prop :=
  ∀ p, root <+: p → t.lookup p = t'.lookup p

namespace SameDatabase

theorem mem_iff (h : SameDatabase root t t') (hp : root <+: p) :
    p ∈ t.nodes ↔ p ∈ t'.nodes := by
  rw [MessageTree.mem_nodes_iff, MessageTree.mem_nodes_iff, h p hp]

theorem indexOf_eq (h : SameDatabase root t t') (hp : root <+: p) :
    t.indexOf p = t'.indexOf p := by
  rw [MessageTree.indexOf, MessageTree.indexOf, h p hp]

/-- The same change keeps them the same. -/
theorem applyTo (h : SameDatabase root t t') (happlies : c.AppliesTo t)
    (happlies' : c.AppliesTo t') :
    SameDatabase root (c.applyTo t) (c.applyTo t') := by
  intro p hp
  rw [TreeChange.lookup_applyTo happlies, TreeChange.lookup_applyTo happlies',
    h p hp]

/-- A change elsewhere does not matter. -/
theorem applyTo_outside (h : SameDatabase root t t')
    (happlies : c.AppliesTo t') (hc : ¬ root <+: c.path) :
    SameDatabase root t (c.applyTo t') := by
  intro p hp
  have hne : p ≠ c.path := by
    rintro rfl
    exact hc hp
  rw [TreeChange.lookup_applyTo_of_ne happlies hne, h p hp]

theorem applyAll_outside {cs : List (TreeChange P)}
    (h : SameDatabase root t t') (hvalid : TreeChange.Valid t' cs)
    (hcs : ∀ c ∈ cs, ¬ root <+: c.path) :
    SameDatabase root t (TreeChange.applyAll t' cs) := by
  induction cs generalizing t' with
  | nil => exact h
  | cons c cs ih =>
      exact ih (h.applyTo_outside hvalid.1 (hcs c List.mem_cons_self))
        hvalid.2 fun c' hc' => hcs c' (List.mem_cons_of_mem c hc')

theorem symm (h : SameDatabase root t t') : SameDatabase root t' t :=
  fun p hp => (h p hp).symm

end SameDatabase

/-! ### Messages for changes -/

open MessageTreeDatabaseObject in
/-- The message that asks for a change. -/
def TreeChange.message (relativePath : NodePath) (interim : Bool)
    (opTag : String) : TreeChange P → TreeMessage P
  | .payloadSet _ payload =>
      createNodeUpdateMessage relativePath (some payload) interim opTag
  | .removed _ => createNodeUpdateMessage relativePath none interim opTag
  | .indexInserted _ index key =>
      createNodeIndexUpdateMessage relativePath true index key opTag
  | .indexRemoved _ index key =>
      createNodeIndexUpdateMessage relativePath false index key opTag

/-- The change that takes a change of `t` back. -/
def TreeChange.inverse (t : MessageTree P) : TreeChange P → TreeChange P
  | .payloadSet path _ =>
      match t.lookup path with
      | some node => .payloadSet path node.payload
      | none => .removed path
  | .removed path =>
      match t.lookup path with
      | some node => .payloadSet path node.payload
      | none => .removed path
  | .indexInserted path index key => .indexRemoved path index key
  | .indexRemoved path index key => .indexInserted path index key

/-- What is recorded of a change are the messages for it and for its
inverse. -/
theorem Effect.record_eq {e : Effect P} (happlies : e.change.AppliesTo t) :
    e.record t relativePath =
      some (e.change.message relativePath e.interim e.opTag,
        (e.change.inverse t).message relativePath e.interim e.opTag) := by
  obtain ⟨quiet, interim, opTag, c⟩ := e
  cases c with
  | payloadSet path payload =>
      cases hnode : t.lookup path with
      | none => simp [record, TreeChange.message, TreeChange.inverse, hnode]
      | some node =>
          simp [record, TreeChange.message, TreeChange.inverse, hnode]
  | removed path =>
      obtain ⟨node, hnode⟩ := MessageTree.mem_nodes_iff.mp happlies.1
      simp [record, TreeChange.message, TreeChange.inverse, hnode]
  | indexInserted path index key => rfl
  | indexRemoved path index key => rfl

theorem TreeChange.flatten_message {interim : Bool} {opTag : String} :
    (c.message relativePath interim opTag).flatten =
      [c.message relativePath interim opTag] := by
  cases c <;> rfl

/-- A change whose message names the node and no other. -/
def Replayable (m : Muscle P) : TreeChange P → Prop
  | .payloadSet path _ => path ≠ [] ∧ "" ∉ path
  | .removed path => path ≠ [] ∧ Literal m path
  | .indexInserted path _ _ => Literal m path
  | .indexRemoved path _ _ => Literal m path

instance (m : Muscle P) (path : NodePath) : Decidable (Literal m path) :=
  decidable_of_iff
    (m.canMatchMultipleValues path = false ∧ "" ∉ path)
    ⟨fun h => ⟨h.1, h.2⟩, fun h => ⟨h.single, h.clauses⟩⟩

instance (m : Muscle P) : DecidablePred (Replayable m)
  | .payloadSet path _ => inferInstanceAs (Decidable (path ≠ [] ∧ "" ∉ path))
  | .removed path => inferInstanceAs (Decidable (path ≠ [] ∧ Literal m path))
  | .indexInserted path _ _ => inferInstanceAs (Decidable (Literal m path))
  | .indexRemoved path _ _ => inferInstanceAs (Decidable (Literal m path))

/-- The flags by which a handler decides whether to skip the message. -/
def TreeChange.flags (interim : Bool) : TreeChange P → TreeGatewayFlags
  | .payloadSet .. => { interim }
  | .removed _ => { interim }
  | .indexInserted .. => {}
  | .indexRemoved .. => {}

/-! ### One message replayed -/

@[simp] theorem Execution.ofOutcome_status {o : Outcome t}
    {quiet interim : Bool} {opTag : String} :
    (ofOutcome o quiet interim opTag).status = o.status := rfl

@[simp] theorem Execution.ofOutcome_changes {o : Outcome t}
    {quiet interim : Bool} {opTag : String} :
    (ofOutcome o quiet interim opTag).effects.map (·.change) = o.changes := by
  simp [ofOutcome, Function.comp_def]

theorem Execution.quiet_of_mem_ofOutcome {o : Outcome t}
    {quiet interim : Bool} {opTag : String} {e : Effect P}
    (h : e ∈ (ofOutcome o quiet interim opTag).effects) : e.quiet = quiet := by
  obtain ⟨c, -, rfl⟩ := List.mem_map.mp h
  rfl

variable {ctx : CommandContext} {interim : Bool} {opTag : String}

/-- What is missing above a node of the database is above the database. -/
private theorem missingParents_above {payload : P}
    (hpath : p = root ++ relativePath)
    (happlies : TreeChange.AppliesTo t (.payloadSet p payload))
    (hsame : SameDatabase root t t') (hq : q ∈ t'.missingParents p) :
    q.length < root.length := by
  obtain ⟨htake, hmissing⟩ := List.mem_filter.mp hq
  obtain ⟨k, hk, rfl⟩ := List.mem_map.mp htake
  have hk : k < p.length := List.mem_range.mp hk
  have hmissing : p.take k ∉ t'.nodes := of_decide_eq_true hmissing
  by_contra hlong
  have hbelow : root <+: p.take k :=
    List.prefix_of_prefix_length_le ⟨relativePath, hpath.symm⟩
      (List.take_prefix k p) (by omega)
  refine hmissing ((hsame.mem_iff hbelow).mp ?_)
  rcases happlies with hmem | rfl | hparent
  · exact t.mem_of_isPrefix hmem (List.take_prefix k p)
  · simp at hk
  · refine t.mem_of_isPrefix hparent ?_
    rw [List.dropLast_eq_take]
    exact List.take_prefix_take_left (by omega)

private theorem replay_payloadSet (hm : m.Lawful) (interim : Bool)
    (opTag : String) {payload : P}
    (hpath : p = mount.root ++ relativePath)
    (hreplayable : Replayable m (.payloadSet p payload))
    (hokay : ctx.isOkayToHandleUpdateMessage relativePath { interim } = true)
    (happlies : TreeChange.AppliesTo t (.payloadSet p payload))
    (hsame : SameDatabase mount.root t t') :
    ∃ entries, ∃ o : Outcome t', o.status = .noError ∧
      o.changes = entries ++ [.payloadSet p payload] ∧
      (∀ c ∈ entries, c.path.length < mount.root.length) ∧
      seniorCommand m mount ctx t' ((TreeChange.payloadSet p payload).message
        relativePath interim opTag) =
          .ofOutcome o false interim (ctx.guardTag opTag) := by
  obtain ⟨hne, hclauses⟩ := hreplayable
  obtain ⟨hstatus, hchanges⟩ := hm.setDataNode t' payload hne hclauses
  refine ⟨_, m.setDataNode t' p payload {} none, hstatus, hchanges, ?_, ?_⟩
  · intro c hc
    obtain ⟨q, hq, rfl⟩ := List.mem_map.mp hc
    exact missingParents_above hpath happlies hsame hq
  · have hlast : ¬ p.getLast? = some "" := fun hlast =>
      hclauses (List.mem_of_getLast? hlast)
    simp [seniorCommand, TreeChange.message,
      MessageTreeDatabaseObject.createNodeUpdateMessage,
      handleNodeUpdateMessage, hokay, databaseSubpathToSessionRelativePath,
      hlast, setNodeValue, ← hpath, convertTreeGatewayFlagsToSetDataNodeFlags]

private theorem replay_removed (hm : m.Lawful) (interim : Bool)
    (opTag : String)
    (hpath : p = mount.root ++ relativePath)
    (hours : isNodeInThisDatabase m mount p = true)
    (hreplayable : Replayable m (.removed p))
    (hokay : ctx.isOkayToHandleUpdateMessage relativePath { interim } = true)
    (happlies : TreeChange.AppliesTo t (.removed p))
    (hsame : SameDatabase mount.root t t') :
    ∃ entries, ∃ o : Outcome t', o.status = .noError ∧
      o.changes = entries ++ [.removed p] ∧
      (∀ c ∈ entries, c.path.length < mount.root.length) ∧
      seniorCommand m mount ctx t' ((TreeChange.removed p).message
        relativePath interim opTag) =
          .ofOutcome o false interim (ctx.guardTag opTag) := by
  obtain ⟨hne, hliteral⟩ := hreplayable
  obtain ⟨hmem, hindex, hchildless, hunlisted⟩ := happlies
  have hbelow : mount.root <+: p := ⟨relativePath, hpath.symm⟩
  obtain ⟨node, hnode⟩ := MessageTree.mem_nodes_iff.mp hmem
  have hnode' : t'.lookup p = some node := (hsame p hbelow).symm.trans hnode
  have hempty : node.index = [] := by
    rwa [MessageTree.indexOf, hnode] at hindex
  have hchildless' : ∀ q ∈ t'.nodes, q ≠ [] → q.dropLast ≠ p := by
    rintro q hq hq0 rfl
    have hqbelow : mount.root <+: q :=
      hbelow.trans (List.dropLast_prefix q)
    exact hchildless q
      (Finmap.mem_keys.mpr ((hsame.mem_iff hqbelow).mpr hq)) hq0 rfl
  let filter : NodePath → DataNode P → Bool := fun q node =>
    isNodeInThisDatabase m mount q && true
  have hfilter : filter p node = true := by simp [filter, hours]
  obtain ⟨hstatus, entries, hchanges, hparent, hnone⟩ :=
    hm.removeDataNodes t' hne hliteral hnode' hempty hchildless' hfilter
  refine ⟨entries, _, hstatus, hchanges, ?_, ?_⟩
  · intro c hc
    rw [hparent c hc]
    by_contra hlong
    -- the parent is in the database, so nothing names the node there
    have hup : mount.root <+: p.dropLast :=
      List.prefix_of_prefix_length_le hbelow (List.dropLast_prefix p)
        (by omega)
    have hentries : entries = [] := hnone fun name hname => by
      rw [← hsame.indexOf_eq hup]
      exact hunlisted name hname
    rw [hentries] at hc
    cases hc
  · simp [seniorCommand, TreeChange.message, filter,
      MessageTreeDatabaseObject.createNodeUpdateMessage,
      handleNodeUpdateMessage, hokay, databaseSubpathToSessionRelativePath,
      removeDataNodes, hpath]

private theorem replay_index (hm : m.Lawful) (interim : Bool)
    (opTag : String) (hpath : p = mount.root ++ relativePath)
    (hindex : (∃ index key, c = .indexInserted p index key) ∨
      ∃ index key, c = .indexRemoved p index key)
    (hreplayable : Replayable m c)
    (hokay : ctx.isOkayToHandleUpdateMessage relativePath {} = true)
    (happlies : c.AppliesTo t) (hsame : SameDatabase mount.root t t') :
    ∃ o : Outcome t', o.changes = [c] ∧
      seniorCommand m mount ctx t' (c.message relativePath interim opTag) =
        (Execution.ofOutcome o false false
          (ctx.guardTag opTag)).withStatus .noError := by
  have hbelow : mount.root <+: p := ⟨relativePath, hpath.symm⟩
  rcases hindex with ⟨index, key, rfl⟩ | ⟨index, key, rfl⟩
  · have hchild : p ++ [key] ∈ t'.nodes :=
      (hsame.mem_iff (hbelow.trans ⟨[key], rfl⟩)).mp happlies.1
    have happlies' : TreeChange.AppliesTo t' (.indexInserted p index key) :=
      ⟨hchild, by rw [← hsame.indexOf_eq hbelow]; exact happlies.2⟩
    have hnode : m.getDataNode t' p = some p :=
      (hm.getDataNode t' hreplayable).trans
        (if_pos (t'.mem_of_isPrefix hchild ⟨[key], rfl⟩))
    refine ⟨_, hm.insertIndexEntryAt t' happlies', ?_⟩
    simp [seniorCommand, TreeChange.message,
      MessageTreeDatabaseObject.createNodeIndexUpdateMessage,
      handleNodeIndexUpdateMessage, hokay,
      databaseSubpathToSessionRelativePath, ← hpath, hnode]
  · have happlies' : TreeChange.AppliesTo t' (.indexRemoved p index key) := by
      have hkey : (t.indexOf p)[index]? = some key := happlies
      rwa [hsame.indexOf_eq hbelow] at hkey
    have hmem : p ∈ t'.nodes := by
      by_contra hmissing
      have hkey : (t'.indexOf p)[index]? = some key := happlies'
      have hnone : t'.lookup p = none := Finmap.lookup_eq_none.mpr hmissing
      rw [MessageTree.indexOf, hnone] at hkey
      simp at hkey
    have hnode : m.getDataNode t' p = some p :=
      (hm.getDataNode t' hreplayable).trans (if_pos hmem)
    refine ⟨_, hm.removeIndexEntryAt t' happlies', ?_⟩
    simp [seniorCommand, TreeChange.message,
      MessageTreeDatabaseObject.createNodeIndexUpdateMessage,
      handleNodeIndexUpdateMessage, hokay,
      databaseSubpathToSessionRelativePath, ← hpath, hnode]

/-- **One message.**  The message for a change of a node of the database makes
that change again, wherever the database is the same.  Besides, it may create
what is missing above the database, or take the database's root off an
index. -/
theorem replay_step (hm : m.Lawful) (interim : Bool) (opTag : String)
    (hpath : c.path = mount.root ++ relativePath)
    (hours : isNodeInThisDatabase m mount c.path = true)
    (hreplayable : Replayable m c)
    (hokay : ctx.isOkayToHandleUpdateMessage relativePath (c.flags interim) =
      true)
    (happlies : c.AppliesTo t) (hsame : SameDatabase mount.root t t') :
    (seniorCommand m mount ctx t'
      (c.message relativePath interim opTag)).status = .noError ∧
    (∃ entries, (seniorCommand m mount ctx t'
        (c.message relativePath interim opTag)).effects.map (·.change) =
          entries ++ [c] ∧
      ∀ c' ∈ entries, c'.path.length < mount.root.length) ∧
    ∀ e ∈ (seniorCommand m mount ctx t'
      (c.message relativePath interim opTag)).effects, e.quiet = false := by
  cases c with
  | payloadSet path payload =>
      obtain ⟨entries, o, hstatus, hchanges, habove, heq⟩ :=
        replay_payloadSet hm interim opTag (p := path) hpath hreplayable hokay
          happlies hsame
      rw [heq]
      exact ⟨hstatus, ⟨entries, by rw [Execution.ofOutcome_changes, hchanges],
        habove⟩, fun e he => Execution.quiet_of_mem_ofOutcome he⟩
  | removed path =>
      obtain ⟨entries, o, hstatus, hchanges, habove, heq⟩ :=
        replay_removed hm interim opTag (p := path) hpath hours hreplayable
          hokay happlies hsame
      rw [heq]
      exact ⟨hstatus, ⟨entries, by rw [Execution.ofOutcome_changes, hchanges],
        habove⟩, fun e he => Execution.quiet_of_mem_ofOutcome he⟩
  | indexInserted path index key =>
      obtain ⟨o, hchanges, heq⟩ := replay_index hm interim opTag (p := path)
        hpath (.inl ⟨index, key, rfl⟩) hreplayable hokay happlies hsame
      rw [heq]
      refine ⟨rfl, ⟨[], ?_, by simp⟩,
        fun e he => Execution.quiet_of_mem_ofOutcome he⟩
      exact Execution.ofOutcome_changes.trans hchanges
  | indexRemoved path index key =>
      obtain ⟨o, hchanges, heq⟩ := replay_index hm interim opTag (p := path)
        hpath (.inr ⟨index, key, rfl⟩) hreplayable hokay happlies hsame
      rw [heq]
      refine ⟨rfl, ⟨[], ?_, by simp⟩,
        fun e he => Execution.quiet_of_mem_ofOutcome he⟩
      exact Execution.ofOutcome_changes.trans hchanges

/-! ### The messages of an update replayed -/

/-- What is above the root is neither below it nor heard of. -/
private theorem accounted_above {e : Effect P}
    (h : e.change.path.length < mount.root.length) : Accounted m mount e := by
  constructor
  · rintro ⟨-, hours⟩
    rw [isNodeInThisDatabase_of_length_lt h] at hours
    cases hours
  · intro hbelow
    exact absurd hbelow.length_le (by omega)

/-- After a message the database is the same as after its change, and the
junior peer's own checksum is kept right on the way. -/
theorem replay_same (hm : m.Lawful) (interim : Bool) (opTag : String)
    (hpath : c.path = mount.root ++ relativePath)
    (hours : isNodeInThisDatabase m mount c.path = true)
    (hreplayable : Replayable m c)
    (hokay : ctx.isOkayToHandleUpdateMessage relativePath (c.flags interim) =
      true)
    (happlies : c.AppliesTo t) (hsame : SameDatabase mount.root t t') :
    SameDatabase mount.root (c.applyTo t) (seniorCommand m mount ctx t'
      (c.message relativePath interim opTag)).tree ∧
    ∀ e ∈ (seniorCommand m mount ctx t'
      (c.message relativePath interim opTag)).effects,
      Accounted m mount e := by
  obtain ⟨-, ⟨entries, hchanges, habove⟩, hloud⟩ :=
    replay_step hm interim opTag hpath hours hreplayable hokay happlies hsame
  have hvalid := (seniorCommand m mount ctx t'
    (c.message relativePath interim opTag)).valid
  rw [hchanges, TreeChange.valid_append] at hvalid
  constructor
  · have houtside : ∀ c' ∈ entries, ¬ mount.root <+: c'.path := by
      intro c' hc' hbelow
      exact absurd hbelow.length_le (by have := habove c' hc'; omega)
    have hbefore : SameDatabase mount.root t
        (TreeChange.applyAll t' entries) :=
      hsame.applyAll_outside hvalid.1 houtside
    rw [Execution.tree, hchanges, TreeChange.applyAll_append]
    exact hbefore.applyTo happlies hvalid.2.1
  · intro e he
    have hmem : e.change ∈ entries ++ [c] := by
      rw [← hchanges]
      exact List.mem_map_of_mem he
    rcases List.mem_append.mp hmem with hentry | hc
    · exact accounted_above (habove _ hentry)
    · rw [List.mem_singleton] at hc
      rw [Accounted, hc]
      exact iff_of_true ⟨hloud e he, hours⟩ ⟨relativePath, hpath.symm⟩

/-- A handler that does with recorded messages what the senior's does. -/
def Obeys (m : Muscle P) (mount : Mount) (ctx : CommandContext)
    (command : (t : MessageTree P) → TreeMessage P → Execution t) : Prop :=
  ∀ t (c : TreeChange P) relativePath interim opTag,
    command t (c.message relativePath interim opTag) =
      seniorCommand m mount ctx t (c.message relativePath interim opTag)

theorem obeys_juniorCommand (ctx : CommandContext) :
    Obeys m mount ctx (juniorCommand m mount ctx) :=
  fun _ c _ _ _ => by cases c <;> rfl

/-- **One update.**  The recorded messages, one after another. -/
theorem replay_run (hm : m.Lawful)
    {command : (t : MessageTree P) → TreeMessage P → Execution t}
    (hobeys : Obeys m mount ctx command)
    (hokay : ∀ path flags, ctx.isOkayToHandleUpdateMessage path flags = true)
    {effects : List (Effect P)}
    (hvalid : TreeChange.Valid t (effects.map (·.change)))
    (haccounted : ∀ e ∈ effects, Accounted m mount e)
    (hreplayable : ∀ e ∈ effects, Replayable m e.change)
    (hsame : SameDatabase mount.root t t') :
    (runFlat command ((recordsOf m mount t effects).map (·.1)) t').status =
      .noError ∧
    SameDatabase mount.root
      (TreeChange.applyAll t (effects.map (·.change)))
      (runFlat command ((recordsOf m mount t effects).map (·.1)) t').tree ∧
    ∀ e ∈ (runFlat command ((recordsOf m mount t effects).map (·.1))
      t').effects, Accounted m mount e := by
  induction effects generalizing t t' with
  | nil => exact ⟨rfl, hsame, by simp [recordsOf, runFlat]⟩
  | cons e effects ih =>
      have haccounted' := fun e' he' =>
        haccounted e' (List.mem_cons_of_mem e he')
      have hreplayable' := fun e' he' =>
        hreplayable e' (List.mem_cons_of_mem e he')
      have hhere := haccounted e List.mem_cons_self
      by_cases hbelow : mount.root <+: e.change.path
      · obtain ⟨hloud, hours⟩ := hhere.mpr hbelow
        obtain ⟨relativePath, hrelative⟩ := Option.isSome_iff_exists.mp hours
        have hpath := path_eq_of_relativePathOf hbelow hrelative
        have hrecord : recordOf m mount t e =
            some (e.change.message relativePath e.interim e.opTag,
              (e.change.inverse t).message relativePath e.interim
                e.opTag) := by
          simp only [recordOf, hloud, Bool.false_eq_true, if_false, hrelative,
            Option.bind_some]
          exact Effect.record_eq hvalid.1
        have hmsgs : (recordsOf m mount t (e :: effects)).map (·.1) =
            e.change.message relativePath e.interim e.opTag ::
              (recordsOf m mount (e.change.applyTo t) effects).map (·.1) := by
          simp [recordsOf, hrecord]
        obtain ⟨hstatus, -, -⟩ := replay_step hm e.interim e.opTag
          hpath hours (hreplayable e List.mem_cons_self)
          (hokay _ _) hvalid.1 hsame
        obtain ⟨hafter, hgood⟩ := replay_same hm e.interim e.opTag
          hpath hours (hreplayable e List.mem_cons_self)
          (hokay _ _) hvalid.1 hsame
        obtain ⟨hrest, htree, hrestGood⟩ :=
          ih hvalid.2 haccounted' hreplayable' hafter
        rw [hmsgs, runFlat, hobeys, Execution.andThen_of_noError hstatus]
        refine ⟨hrest, ?_, ?_⟩
        · rw [Execution.followedBy_tree]
          exact htree
        · intro e' he'
          rcases List.mem_append.mp he' with hfirst | hlater
          · exact hgood e' hfirst
          · exact hrestGood e' hlater
      · have hunheard : recordOf m mount t e = none := by
          cases hrecord : recordOf m mount t e with
          | none => rfl
          | some pair =>
              have hsome := recordOf_isSome (m := m) mount hvalid.1
              rw [hrecord] at hsome
              have hheard : e.quiet = false ∧
                  isNodeInThisDatabase m mount e.change.path = true := by
                simpa using hsome.symm
              exact absurd (hhere.mp hheard) hbelow
        have hmsgs : recordsOf m mount t (e :: effects) =
            recordsOf m mount (e.change.applyTo t) effects := by
          simp [recordsOf, hunheard]
        rw [hmsgs]
        exact ih hvalid.2 haccounted' hreplayable'
          (hsame.symm.applyTo_outside hvalid.1 hbelow).symm

/-! ### Checksums -/

/-- The checksum of a database is about nothing else. -/
theorem SameDatabase.subtreeChecksum_eq (h : SameDatabase root t t') :
    subtreeChecksum m t root = subtreeChecksum m t' root := by
  refine Finmap.total_congr fun p => ?_
  unfold Finmap.weightAt
  by_cases hp : root <+: p
  · have hlookup : t.nodes.lookup p = t'.nodes.lookup p := h p hp
    rw [hlookup]
  · simp only [hp, if_false]
    cases t.nodes.lookup p <;> cases t'.nodes.lookup p <;> rfl

/-- What the callbacks add up to, when the database hears of exactly what is
below its root. -/
theorem checksumMoved_of_accounted {effects : List (Effect P)}
    (hvalid : TreeChange.Valid t (effects.map (·.change)))
    (haccounted : ∀ e ∈ effects, Accounted m mount e) :
    checksumMoved m mount t effects =
      subtreeChecksum m (TreeChange.applyAll t (effects.map (·.change)))
        mount.root - subtreeChecksum m t mount.root := by
  induction effects generalizing t with
  | nil => exact (sub_self _).symm
  | cons e effects ih =>
      have hrest := ih hvalid.2 fun e' he' =>
        haccounted e' (List.mem_cons_of_mem e he')
      have hhere := haccounted e List.mem_cons_self
      rw [checksumMoved, hrest, List.map_cons, TreeChange.applyAll_cons]
      by_cases hbelow : mount.root <+: e.change.path
      · have hheard : ¬ Unheard m mount e := by
          obtain ⟨hloud, hours⟩ := hhere.mpr hbelow
          simp [Unheard, hloud, hours]
        rw [if_neg hheard, subtreeChecksum_applyTo_of_below hvalid.1 hbelow]
        abel
      · have hunheard : Unheard m mount e := by
          by_contra hnot
          refine hbelow (hhere.mp ?_)
          simpa [Unheard] using hnot
        rw [if_pos hunheard,
          subtreeChecksum_applyTo_of_not_below hvalid.1 hbelow, zero_add]

/-! ### Replication -/

/-- A batch holds what has been put into it, in order. -/
theorem flatten_assembleAll (hm : m.Lawful) (msgs : List (TreeMessage P))
    (batch : TreeMessage P) :
    ∃ assembled, assembleAll m (some batch) msgs false = some assembled ∧
      assembled.flatten = batch.flatten ++ msgs.flatMap (·.flatten) := by
  induction msgs generalizing batch with
  | nil => exact ⟨batch, rfl, by simp⟩
  | cons msg msgs ih =>
      obtain ⟨assembled, hassembled, hflat⟩ :=
        ih (m.assembleBatchMessage (some batch) msg false)
      exact ⟨assembled, hassembled, by simp [hflat, hm.assembleAtEnd]⟩

/-- A message is run like the list of messages it was put together from. -/
theorem runMessage_assembleAll (hm : m.Lawful)
    {command : (t : MessageTree P) → TreeMessage P → Execution t}
    (hnoop : ∀ t, command t .noop = .nothing t .noError)
    {msgs : List (TreeMessage P)} (hflat : ∀ msg ∈ msgs, msg.flatten = [msg]) :
    runMessage command ((assembleAll m none msgs false).getD .noop) t =
      runFlat command msgs t := by
  have hsame : ∀ l : List (TreeMessage P), (∀ msg ∈ l, msg.flatten = [msg]) →
      l.flatMap (·.flatten) = l := by
    intro l hl
    induction l with
    | nil => rfl
    | cons msg l ih =>
        rw [List.flatMap_cons, hl msg List.mem_cons_self,
          ih fun msg' h' => hl msg' (List.mem_cons_of_mem msg h')]
        rfl
  cases msgs with
  | nil => exact hnoop t
  | cons msg msgs =>
      obtain ⟨assembled, hassembled, hflatten⟩ := flatten_assembleAll hm
        msgs (m.assembleBatchMessage none msg false)
      have hcons : assembleAll m none (msg :: msgs) false =
          some assembled := hassembled
      rw [hcons, Option.getD_some, runMessage_eq_runFlat, hflatten,
        hm.assembleNone, ← List.flatMap_cons, hsame _ hflat]

/-- What is recorded are single messages. -/
theorem flatten_of_mem_recordsOf {effects : List (Effect P)}
    (hvalid : TreeChange.Valid t (effects.map (·.change))) :
    ∀ msg ∈ (recordsOf m mount t effects).map (·.1), msg.flatten = [msg] := by
  induction effects generalizing t with
  | nil => simp [recordsOf]
  | cons e effects ih =>
      intro msg hmsg
      rw [recordsOf, List.map_append, List.mem_append] at hmsg
      rcases hmsg with hfirst | hlater
      · unfold recordOf at hfirst
        cases hquiet : e.quiet with
        | true => simp [hquiet] at hfirst
        | false =>
            cases hpath : relativePathOf m mount e.change.path with
            | none => simp [hquiet, hpath] at hfirst
            | some relativePath =>
                simp only [hquiet, hpath, Bool.false_eq_true, if_false,
                  Option.bind_some, Effect.record_eq hvalid.1,
                  Option.toList_some, List.map_cons, List.map_nil,
                  List.mem_singleton] at hfirst
                rw [hfirst]
                exact TreeChange.flatten_message
      · exact ih hvalid.2 msg hlater

/-- The condition on an update: the database hears of exactly the changes
below its root, their paths are no patterns, and nothing has been left in the
message for the junior peers. -/
structure Faithful (m : Muscle P) (mount : Mount)
    (db : MessageTreeDatabaseObject P) (seniorDoMsg : TreeMessage P) :
    Prop where
  clean : db.assembledJuniorMessage = none
  accounted : ∀ e ∈ (db.seniorMessageTreeUpdate m mount seniorDoMsg).effects,
    Accounted m mount e
  replayable : ∀ e ∈ (db.seniorMessageTreeUpdate m mount seniorDoMsg).effects,
    Replayable m e.change

/-- **Replication.**  What the senior peer sends to a junior peer with the
same database makes it the same database again, with the same checksum. -/
theorem juniorUpdate_replicates {db db' : MessageTreeDatabaseObject P}
    {seniorDoMsg juniorMsg : TreeMessage P} (hm : m.Lawful)
    (hsame : SameDatabase mount.root db.tree db'.tree)
    (hsum : db'.checksum = db.checksum)
    (hok : (db.seniorUpdate m mount seniorDoMsg).2 = some juniorMsg)
    (hfaithful : Faithful m mount db seniorDoMsg) :
    (db'.juniorUpdate m mount juniorMsg).2 = .noError ∧
    SameDatabase mount.root (db.seniorUpdate m mount seniorDoMsg).1.tree
      (db'.juniorUpdate m mount juniorMsg).1.tree ∧
    (db'.juniorUpdate m mount juniorMsg).1.checksum =
      (db.seniorUpdate m mount seniorDoMsg).1.checksum := by
  let ret := db.seniorMessageTreeUpdate m mount seniorDoMsg
  have hafter : (db.seniorUpdate m mount seniorDoMsg).1.tree =
        TreeChange.applyAll db.tree (ret.effects.map (·.change)) ∧
      (db.seniorUpdate m mount seniorDoMsg).1.checksum =
        db.checksum + checksumMoved m mount db.tree ret.effects := by
    unfold MessageTreeDatabaseObject.seniorUpdate
    dsimp only
    split <;> exact ⟨notifyAll_tree, notifyAll_checksum_eq db ret.valid⟩
  have hmsg : juniorMsg = (assembleAll m none
      ((recordsOf m mount db.tree ret.effects).map (·.1)) false).getD
        .noop := by
    unfold MessageTreeDatabaseObject.seniorUpdate at hok
    dsimp only at hok
    split at hok
    · dsimp only at hok
      rw [MessageTreeDatabaseObject.notifyAll_assembledJuniorMessage,
        hfaithful.clean] at hok
      exact (Option.some.inj hok).symm
    · cases hok
  obtain ⟨hstatus, htree, haccounted⟩ := replay_run hm
    (obeys_juniorCommand (.plain false)) (fun _ _ => rfl) ret.valid
    hfaithful.accounted hfaithful.replayable hsame
  have hrun : db'.juniorMessageTreeUpdate m mount juniorMsg =
      runFlat (juniorCommand m mount (.plain false))
        ((recordsOf m mount db.tree ret.effects).map (·.1)) db'.tree := by
    rw [MessageTreeDatabaseObject.juniorMessageTreeUpdate, hmsg]
    exact runMessage_assembleAll hm (fun _ => rfl)
      (flatten_of_mem_recordsOf ret.valid)
  have hjunior : (db'.juniorUpdate m mount juniorMsg).1.tree =
        (db'.juniorMessageTreeUpdate m mount juniorMsg).tree ∧
      (db'.juniorUpdate m mount juniorMsg).1.checksum = db'.checksum +
        checksumMoved m mount db'.tree
          (db'.juniorMessageTreeUpdate m mount juniorMsg).effects :=
    ⟨notifyAll_tree, notifyAll_checksum_eq db' (Execution.valid _)⟩
  refine ⟨?_, ?_, ?_⟩
  · exact (congrArg Execution.status hrun).trans hstatus
  · rw [hafter.1, hjunior.1, hrun]
    exact htree
  · rw [hjunior.2, hafter.2, hrun, hsum,
      checksumMoved_of_accounted ret.valid hfaithful.accounted,
      checksumMoved_of_accounted (Execution.valid _) haccounted,
      hsame.subtreeChecksum_eq, ← Execution.tree, htree.subtreeChecksum_eq]

/-- A batch that puts a sheet at the end of an index and another in front of
it, and then removes the first. -/
theorem indexedBatch_replicates :
    let db := attachedPlainState.database
    let seniorDoMsg : TreeMessage Sheet := .batch
      [.updateNodeValue ["x", "b"] (some (.number 1)) { indexed := true } "" "",
        .batch [.updateNodeValue ["x", "a"] (some (.number 2))
          { indexed := true } "b" ""],
        .requestDeleteNodes ["x", "b"] none {} ""]
    ∃ juniorMsg,
      (db.seniorUpdate sheetMuscle.toMuscle sheetMount seniorDoMsg).2 =
        some juniorMsg ∧
      (db.juniorUpdate sheetMuscle.toMuscle sheetMount juniorMsg).2 =
        .noError ∧
      SameDatabase ["db"]
        (db.seniorUpdate sheetMuscle.toMuscle sheetMount seniorDoMsg).1.tree
        (db.juniorUpdate sheetMuscle.toMuscle sheetMount juniorMsg).1.tree ∧
      (db.juniorUpdate sheetMuscle.toMuscle sheetMount juniorMsg).1.checksum =
        (db.seniorUpdate sheetMuscle.toMuscle sheetMount
          seniorDoMsg).1.checksum := by
  intro db seniorDoMsg
  have hok : (db.seniorUpdate sheetMuscle.toMuscle sheetMount
      seniorDoMsg).2.isSome = true := by decide
  obtain ⟨juniorMsg, hjunior⟩ := Option.isSome_iff_exists.mp hok
  exact ⟨juniorMsg, hjunior, juniorUpdate_replicates sheetMuscle_lawful
    (fun _ _ => rfl) rfl hjunior
    ⟨Option.isNone_iff_eq_none.mp (by decide), by decide, by decide⟩⟩

/-- A removal that was asked to be quiet is not told to the junior peers. -/
theorem quietRemoval_not_replicated :
    ¬ ∀ (db db' : MessageTreeDatabaseObject Sheet)
      (seniorDoMsg juniorMsg : TreeMessage Sheet),
      SameDatabase sheetMount.root db.tree db'.tree →
      db'.checksum = db.checksum →
      (db.seniorUpdate sheetMuscle.toMuscle sheetMount seniorDoMsg).2 =
        some juniorMsg →
      (db'.juniorUpdate sheetMuscle.toMuscle sheetMount juniorMsg).2 =
        .noError ∧
      SameDatabase sheetMount.root
        (db.seniorUpdate sheetMuscle.toMuscle sheetMount seniorDoMsg).1.tree
        (db'.juniorUpdate sheetMuscle.toMuscle sheetMount juniorMsg).1.tree ∧
      (db'.juniorUpdate sheetMuscle.toMuscle sheetMount juniorMsg).1.checksum =
        (db.seniorUpdate sheetMuscle.toMuscle sheetMount
          seniorDoMsg).1.checksum := by
  intro h
  let db := (attachedPlainState.database.seniorUpdate sheetMuscle.toMuscle
    sheetMount (.updateNodeValue ["x"] (some (.number 1)) {} "" "")).1
  let seniorDoMsg : TreeMessage Sheet :=
    .requestDeleteNodes ["x"] none { noReply := true } ""
  have hok : (db.seniorUpdate sheetMuscle.toMuscle sheetMount
      seniorDoMsg).2.isSome = true := by decide
  have hmissing : ((db.seniorUpdate sheetMuscle.toMuscle sheetMount
      seniorDoMsg).1.tree.lookup ["db", "x"]).isSome = false := by decide
  -- nothing has been recorded, so the message is a no-op
  have hkept : ((db.juniorUpdate sheetMuscle.toMuscle sheetMount
      ((db.seniorUpdate sheetMuscle.toMuscle sheetMount
        seniorDoMsg).2.getD .noop)).1.tree.lookup ["db", "x"]).isSome =
      true := by decide
  obtain ⟨juniorMsg, hjunior⟩ := Option.isSome_iff_exists.mp hok
  have hsame := (h db db seniorDoMsg juniorMsg (fun _ _ => rfl) rfl
    hjunior).2.1 ["db", "x"] ⟨["x"], rfl⟩
  rw [hjunior, Option.getD_some, ← hsame, hmissing] at hkept
  cases hkept

end ZgChoir
