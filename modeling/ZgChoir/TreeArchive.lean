import ZgChoir.TreeReplication

/-!
# Archives of a tree

`SetFromArchive` hands the archive to MUSCLE, which creates or overwrites the
nodes that the archive names and removes none.  So the database becomes the
one that was saved if it had no other nodes before, and if its indices can be
made right by adding new entries at their ends (`setFromArchive_replaces_iff`).
An empty database has no root node, and its archive cannot be restored at all.
-/

namespace ZgChoir

variable {P : Type} {m : Muscle P} {mount : Mount}
variable {s t u : MessageTree P} {p q root : NodePath}

/-! ### Saving and restoring -/

namespace MessageTree

/-- The names that the index of the node at `p` gains when `s` is restored
over `t`: those of children that are new, each once. -/
def newEntries (s t : MessageTree P) (p : NodePath) : List String :=
  (s.indexOf p).eraseDups.filter fun name =>
    decide (p ++ [name] ∈ s.nodes) && decide (p ++ [name] ∉ t.nodes)

/-- The node at `p` after `s` has been restored over `t`. -/
def restoredOver (s t : MessageTree P) (p : NodePath) :
    Option (DataNode P) :=
  match s.lookup p with
  | some node =>
      some { payload := node.payload
             index := t.indexOf p ++ s.newEntries t p }
  | none => t.lookup p

end MessageTree

/-- What MUSCLE does with archives.  Nodes that are there keep their places in
indices; a new node goes to the end of its parent's index, as with
`SETDATANODE_FLAG_ADDTOINDEX`. -/
structure Muscle.RestoresTrees (m : Muscle P) : Prop where
  restoreTree : ∀ (s t : MessageTree P) {root archive}, root ∈ s.nodes →
    m.saveNodeTreeToMessage s root = (.noError, archive) →
    (m.restoreNodeTreeFromMessage t archive root).status = .noError ∧
      (∀ p, root <+: p → (TreeChange.applyAll t
        (m.restoreNodeTreeFromMessage t archive root).changes).lookup p =
          s.restoredOver t p) ∧
      ∀ c ∈ (m.restoreNodeTreeFromMessage t archive root).changes,
        root <+: c.path ∨ c.path.length < root.length
  /-- An empty message has no payload for the root. -/
  restoreNothing : ∀ (t : MessageTree P) root,
    (m.restoreNodeTreeFromMessage t m.emptyMessage root).status.isOK = false

/-! ### The checksum of a database's own nodes -/

section

variable (m mount)

/-- What a node adds to the checksum of the database, if it is below the root
and the database hears of it. -/
def ownWeight (p : NodePath) (node : DataNode P) : UInt32 :=
  if mount.root <+: p ∧ isNodeInThisDatabase m mount p = true then
    nodeChecksum m node
  else 0

/-- The checksum of the nodes that the database hears of. -/
def ownChecksum (t : MessageTree P) : UInt32 :=
  t.nodes.total (ownWeight m mount)

end

private theorem weightAt_own (t : MessageTree P) :
    t.nodes.weightAt (ownWeight m mount) p =
      if mount.root <+: p ∧ isNodeInThisDatabase m mount p = true then
        checksumAt m t p
      else 0 := by
  unfold Finmap.weightAt checksumAt MessageTree.lookup
  cases t.nodes.lookup p with
  | none => simp
  | some node => rfl

theorem ownChecksum_applyTo {c : TreeChange P} (happlies : c.AppliesTo t) :
    ownChecksum m mount (c.applyTo t) = ownChecksum m mount t +
      if mount.root <+: c.path ∧ isNodeInThisDatabase m mount c.path = true
      then checksumAt m (c.applyTo t) c.path - checksumAt m t c.path
      else 0 := by
  have htotal : ownChecksum m mount (c.applyTo t) = ownChecksum m mount t -
      t.nodes.weightAt (ownWeight m mount) c.path +
      (c.applyTo t).nodes.weightAt (ownWeight m mount) c.path :=
    Finmap.total_of_agree_off fun _ hq =>
      TreeChange.lookup_applyTo_of_ne happlies hq
  rw [htotal, weightAt_own, weightAt_own]
  split
  · abel
  · abel

theorem SameDatabase.ownChecksum_eq (h : SameDatabase mount.root t u) :
    ownChecksum m mount t = ownChecksum m mount u := by
  refine Finmap.total_congr fun p => ?_
  rw [weightAt_own, weightAt_own]
  split
  · rename_i hp
    rw [checksumAt, checksumAt, h p hp.1]
  · rfl

/-- The callbacks for changes none of which is quiet. -/
theorem checksumMoved_of_loud {effects : List (Effect P)}
    (hvalid : TreeChange.Valid t (effects.map (·.change)))
    (hloud : ∀ e ∈ effects, e.quiet = false)
    (hbelow : ∀ e ∈ effects, mount.root <+: e.change.path ∨
      e.change.path.length < mount.root.length) :
    checksumMoved m mount t effects =
      ownChecksum m mount
        (TreeChange.applyAll t (effects.map (·.change))) -
      ownChecksum m mount t := by
  induction effects generalizing t with
  | nil => exact (sub_self _).symm
  | cons e effects ih =>
      have hrest := ih hvalid.2
        (fun e' he' => hloud e' (List.mem_cons_of_mem e he'))
        (fun e' he' => hbelow e' (List.mem_cons_of_mem e he'))
      have hhere : Unheard m mount e ↔ ¬ (mount.root <+: e.change.path ∧
          isNodeInThisDatabase m mount e.change.path = true) := by
        have hquiet := hloud e List.mem_cons_self
        rcases hbelow e List.mem_cons_self with hpath | hshort
        · simp [Unheard, hquiet, hpath]
        · simp [Unheard, isNodeInThisDatabase_of_length_lt hshort]
      rw [checksumMoved, hrest, List.map_cons, TreeChange.applyAll_cons,
        ownChecksum_applyTo hvalid.1]
      by_cases hheard : mount.root <+: e.change.path ∧
          isNodeInThisDatabase m mount e.change.path = true
      · rw [if_neg (fun h => (hhere.mp h) hheard), if_pos hheard]
        abel
      · rw [if_pos (hhere.mpr hheard), if_neg hheard]
        abel

/-! ### Archives of sheets -/

/-- Changes elsewhere leave a node alone. -/
theorem TreeChange.lookup_applyAll_of_ne {cs : List (TreeChange P)}
    (hvalid : Valid t cs) (hq : ∀ c ∈ cs, c.path ≠ q) :
    (applyAll t cs).lookup q = t.lookup q := by
  have hnone : cs.filter (·.path = q) = [] :=
    List.filter_eq_nil_iff.mpr fun c hc => by simpa using hq c hc
  rw [lookup_applyAll hvalid, hnone]
  rfl

/-- Payloads can be set top down. -/
private theorem valid_payloads {l : List (NodePath × P)}
    (hnodup : (l.map (·.1)).Nodup)
    (hparents : ∀ before e after, l = before ++ e :: after →
      TreeChange.AppliesTo t (.payloadSet e.1 e.2) ∨
        e.1.dropLast ∈ before.map (·.1)) :
    TreeChange.Valid t (l.map fun e => .payloadSet e.1 e.2) ∧
    (∀ e ∈ l, (TreeChange.applyAll t
      (l.map fun e => .payloadSet e.1 e.2)).lookup e.1 =
        some { payload := e.2, index := t.indexOf e.1 }) ∧
    ∀ q ∉ l.map (·.1), (TreeChange.applyAll t
      (l.map fun e => .payloadSet e.1 e.2)).lookup q = t.lookup q := by
  induction l generalizing t with
  | nil => exact ⟨trivial, by simp, fun _ _ => rfl⟩
  | cons e l ih =>
      obtain ⟨hnot, hnodup'⟩ := List.nodup_cons.mp hnodup
      have happlies : TreeChange.AppliesTo t (.payloadSet e.1 e.2) :=
        (hparents [] e l rfl).resolve_right List.not_mem_nil
      have hlookup : ∀ q, ((TreeChange.payloadSet e.1 e.2).applyTo t).lookup q =
          if q = e.1 then some { payload := e.2, index := t.indexOf e.1 }
          else t.lookup q := fun q => TreeChange.lookup_payloadSet happlies
      have hparents' : ∀ before e' after, l = before ++ e' :: after →
          TreeChange.AppliesTo ((TreeChange.payloadSet e.1 e.2).applyTo t)
            (.payloadSet e'.1 e'.2) ∨ e'.1.dropLast ∈ before.map (·.1) := by
        intro before e' after hl
        have hmem := fun q => LiteralTree.mem_payloadSet (q := q) happlies
        rcases hparents (e :: before) e' after (by rw [hl]; rfl) with
          happlies' | hup
        · rcases happlies' with hthere | hroot | hup
          · exact .inl (.inl ((hmem _).mpr (.inr hthere)))
          · exact .inl (.inr (.inl hroot))
          · exact .inl (.inr (.inr ((hmem _).mpr (.inr hup))))
        · rcases List.mem_cons.mp hup with heq | hup
          · exact .inl (.inr (.inr ((hmem _).mpr (.inl heq))))
          · exact .inr hup
      obtain ⟨hvalid, hset, hkept⟩ := ih hnodup' hparents'
      refine ⟨⟨happlies, hvalid⟩, ?_, ?_⟩
      · intro e' he'
        rcases List.mem_cons.mp he' with rfl | he'
        · exact (hkept e'.1 hnot).trans
            ((hlookup e'.1).trans (if_pos rfl))
        · have hmem : e'.1 ∈ l.map (·.1) := List.mem_map_of_mem he'
          have hne : e'.1 ≠ e.1 := by
            intro heq
            rw [heq] at hmem
            exact hnot hmem
          refine (hset e' he').trans ?_
          rw [MessageTree.indexOf, hlookup, if_neg hne, ← MessageTree.indexOf]
      · intro q hq
        rw [List.map_cons, List.mem_cons, not_or] at hq
        exact (hkept q hq.2).trans ((hlookup q).trans (if_neg hq.1))

/-- Entries can be put at the end of an index one by one. -/
private theorem valid_entries {names : List String} {n : ℕ}
    {node : DataNode P} (hnode : t.lookup p = some node)
    (hn : n = node.index.length)
    (hchildren : ∀ name ∈ names, p ++ [name] ∈ t.nodes) :
    TreeChange.Valid t
      ((names.zipIdx n).map fun e => .indexInserted p e.2 e.1) ∧
    (TreeChange.applyAll t
      ((names.zipIdx n).map fun e => .indexInserted p e.2 e.1)).lookup p =
        some { node with index := node.index ++ names } := by
  induction names generalizing t n node with
  | nil => exact ⟨trivial, by simpa using hnode⟩
  | cons name names ih =>
      have hindex : t.indexOf p = node.index := by
        rw [MessageTree.indexOf, hnode]
      have happlies : TreeChange.AppliesTo t (.indexInserted p n name) :=
        ⟨hchildren name List.mem_cons_self, by rw [hindex, hn]⟩
      have hlookup := fun q => TreeChange.lookup_indexInserted (q := q) happlies
      have hnode' : ((TreeChange.indexInserted p n name).applyTo t).lookup p =
          some { node with index := node.index ++ [name] } := by
        rw [hlookup, if_pos rfl, hnode, hn]
        simp
      have hchildren' : ∀ name' ∈ names, p ++ [name'] ∈
          ((TreeChange.indexInserted p n name).applyTo t).nodes := by
        intro name' hname'
        have hmem := hchildren name' (List.mem_cons_of_mem name hname')
        have hne : p ++ [name'] ≠ p := by simp
        rw [MessageTree.mem_nodes_iff] at hmem ⊢
        rwa [hlookup, if_neg hne]
      have hn' : n + 1 = (node.index ++ [name]).length := by
        rw [List.length_append, hn]
        rfl
      obtain ⟨hvalid, hafter⟩ := ih hnode' hn' hchildren'
      rw [List.zipIdx_cons, List.map_cons]
      exact ⟨⟨happlies, hvalid⟩, by simpa using hafter⟩

/-- Entries can be put at the ends of many indices. -/
private theorem valid_allEntries {α : Type} {l : List α}
    (path : α → NodePath) (names : α → List String)
    (t : MessageTree P) (hnodup : (l.map path).Nodup)
    (hthere : ∀ a ∈ l, path a ∈ u.nodes)
    (hindex : ∀ a ∈ l, u.indexOf (path a) = t.indexOf (path a))
    (hchildren : ∀ a ∈ l, ∀ name ∈ names a, path a ++ [name] ∈ u.nodes) :
    TreeChange.Valid u (l.flatMap fun a =>
      ((names a).zipIdx (t.indexOf (path a)).length).map fun e =>
        .indexInserted (path a) e.2 e.1) ∧
    (∀ a ∈ l, (TreeChange.applyAll u (l.flatMap fun a =>
      ((names a).zipIdx (t.indexOf (path a)).length).map fun e =>
        .indexInserted (path a) e.2 e.1)).lookup (path a) =
          (u.lookup (path a)).map fun node =>
            { node with index := node.index ++ names a }) ∧
    ∀ q ∉ l.map path, (TreeChange.applyAll u (l.flatMap fun a =>
      ((names a).zipIdx (t.indexOf (path a)).length).map fun e =>
        .indexInserted (path a) e.2 e.1)).lookup q = u.lookup q := by
  induction l generalizing u with
  | nil => exact ⟨trivial, by simp, fun _ _ => rfl⟩
  | cons a l ih =>
      obtain ⟨hnot, hnodup'⟩ := List.nodup_cons.mp hnodup
      obtain ⟨node, hnode⟩ :=
        MessageTree.mem_nodes_iff.mp (hthere a List.mem_cons_self)
      have hlength : (t.indexOf (path a)).length = node.index.length := by
        rw [← hindex a List.mem_cons_self, MessageTree.indexOf, hnode]
      obtain ⟨hvalid, hafter⟩ := valid_entries hnode hlength
        (hchildren a List.mem_cons_self)
      let cs : List (TreeChange P) :=
        ((names a).zipIdx (t.indexOf (path a)).length).map fun e =>
          .indexInserted (path a) e.2 e.1
      have hothers : ∀ q, q ≠ path a →
          (TreeChange.applyAll u cs).lookup q = u.lookup q := by
        intro q hq
        refine TreeChange.lookup_applyAll_of_ne hvalid fun c hc => ?_
        obtain ⟨e, -, rfl⟩ := List.mem_map.mp hc
        exact hq.symm
      have hmem : ∀ q ∈ u.nodes, q ∈ (TreeChange.applyAll u cs).nodes := by
        intro q hq
        rw [MessageTree.mem_nodes_iff] at hq ⊢
        by_cases hqa : q = path a
        · subst hqa
          exact ⟨_, hafter⟩
        · rwa [hothers q hqa]
      have hne : ∀ b ∈ l, path b ≠ path a := by
        intro b hb heq
        have hmem : path b ∈ l.map path := List.mem_map_of_mem hb
        exact hnot (heq ▸ hmem)
      obtain ⟨hvalid', hset, hkept⟩ := ih (u := TreeChange.applyAll u cs)
        hnodup'
        (fun b hb => hmem _ (hthere b (List.mem_cons_of_mem a hb)))
        (fun b hb => by
          rw [MessageTree.indexOf, hothers _ (hne b hb), ← MessageTree.indexOf]
          exact hindex b (List.mem_cons_of_mem a hb))
        (fun b hb name hname => hmem _
          (hchildren b (List.mem_cons_of_mem a hb) name hname))
      rw [List.flatMap_cons, TreeChange.valid_append,
        TreeChange.applyAll_append]
      refine ⟨⟨hvalid, hvalid'⟩, ?_, ?_⟩
      · intro b hb
        rcases List.mem_cons.mp hb with rfl | hb
        · rw [hkept _ hnot, hnode]
          exact hafter
        · rw [hset b hb, hothers _ (hne b hb)]
      · intro q hq
        rw [List.map_cons, List.mem_cons, not_or] at hq
        rw [hkept q hq.2, hothers q hq.1]

open LiteralTree SheetTree

/-- The nodes above the root can be created, and then the root itself. -/
private theorem valid_above (t : MessageTree P) (root : NodePath)
    (payload : P) :
    let parents := (t.missingParents root).map
      (TreeChange.payloadSet · payload)
    TreeChange.Valid t parents ∧
    TreeChange.AppliesTo (TreeChange.applyAll t parents)
      (.payloadSet root payload) ∧
    (∀ c ∈ parents, c.path.length < root.length) ∧
    ∀ q, root <+: q →
      (TreeChange.applyAll t parents).lookup q = t.lookup q := by
  intro parents
  have habove : ∀ c ∈ parents, c.path.length < root.length := by
    intro c hc
    obtain ⟨q, hq, rfl⟩ := List.mem_map.mp hc
    obtain ⟨k, hk, rfl⟩ := List.mem_map.mp (List.mem_filter.mp hq).1
    have := List.mem_range.mp hk
    simpa [TreeChange.path] using this
  obtain ⟨hvalid, hroom⟩ : TreeChange.Valid t parents ∧
      TreeChange.AppliesTo (TreeChange.applyAll t parents)
        (.payloadSet root payload) := by
    by_cases hne : root = []
    · have hnone : parents = [] := by
        simp [parents, MessageTree.missingParents, hne]
      rw [hnone]
      exact ⟨trivial, .inr (.inl hne)⟩
    · obtain ⟨hparents, happlies, -⟩ := TreeChange.valid_append.mp
        (valid_setChanges t payload payload hne)
      exact ⟨hparents, happlies⟩
  refine ⟨hvalid, hroom, habove, fun q hq => ?_⟩
  refine TreeChange.lookup_applyAll_of_ne hvalid fun c hc heq => ?_
  have hlong := hq.length_le
  have hshort := habove c hc
  rw [heq] at hshort
  omega

/-- In a list of all paths of a tree from `root` down, none of them after what
is below it, parents come first. -/
private theorem parent_before {s : MessageTree P} {before after : List NodePath}
    (hmem : ∀ r, r ∈ before ++ q :: after ↔ root <+: r ∧ r ∈ s.nodes)
    (hpairwise : (before ++ q :: after).Pairwise fun a b => ¬ b <+: a)
    (hq : q ≠ root) : q.dropLast ∈ before := by
  obtain ⟨hbelow, hin⟩ := (hmem q).mp (by simp)
  have hne : q ≠ [] := by
    rintro rfl
    exact hq (List.prefix_nil.mp hbelow).symm
  have hup : root <+: q.dropLast := by
    obtain ⟨below, rfl⟩ := hbelow
    rcases List.eq_nil_or_concat below with rfl | ⟨below, name, rfl⟩
    · exact absurd (List.append_nil root) hq
    · exact ⟨below, by simp [← List.append_assoc]⟩
  have hlisted := (hmem q.dropLast).mpr ⟨hup, s.closed _ hin hne⟩
  rcases List.mem_append.mp hlisted with hbefore | hafter
  · exact hbefore
  · rcases List.mem_cons.mp hafter with hself | hafter
    · have hlength := congrArg List.length hself
      rw [List.length_dropLast] at hlength
      have := List.length_pos_iff.mpr hne
      omega
    · have hlater := (List.pairwise_append.mp hpairwise).2.1
      exact absurd (List.dropLast_prefix q)
        ((List.pairwise_cons.mp hlater).1 _ hafter)

/-- An archive lists what it was saved from. -/
private theorem mapM_saveNode {s : MessageTree Sheet} {paths : List NodePath}
    {nodes : List (NodePath × Page × List String)}
    (hbelow : ∀ q ∈ paths, root <+: q)
    (h : paths.mapM (saveNode s root) = some nodes) :
    nodes.map (root ++ ·.1) = paths ∧
    ∀ node ∈ nodes, s.lookup (root ++ node.1) =
      some { payload := .page node.2.1, index := node.2.2 } := by
  induction paths generalizing nodes with
  | nil =>
      obtain rfl : [] = nodes := by simpa using h
      exact ⟨rfl, by simp⟩
  | cons q paths ih =>
      rw [List.mapM_cons] at h
      obtain ⟨node, hnode, h⟩ := Option.bind_eq_some_iff.mp h
      obtain ⟨nodes', hnodes', h⟩ := Option.bind_eq_some_iff.mp h
      obtain rfl : node :: nodes' = nodes := Option.some.inj h
      obtain ⟨hpaths, hlookup⟩ :=
        ih (fun r hr => hbelow r (List.mem_cons_of_mem q hr)) hnodes'
      obtain ⟨below, rfl⟩ := hbelow q List.mem_cons_self
      unfold saveNode at hnode
      split at hnode
      · rename_i page index hq
        obtain rfl := Option.some.inj hnode
        rw [List.drop_left] at *
        refine ⟨by simp [hpaths], fun node hmem => ?_⟩
        rcases List.mem_cons.mp hmem with rfl | hmem
        · simpa using hq
        · exact hlookup node hmem
      · cases hnode

/-- The archive has the new entries of the tree that it was saved from. -/
private theorem newEntries_eq {s t : MessageTree Sheet}
    {nodes : List (NodePath × Page × List String)}
    (hmem : ∀ q, q ∈ nodes.map (root ++ ·.1) ↔ root <+: q ∧ q ∈ s.nodes)
    {node : NodePath × Page × List String}
    (hindex : s.indexOf (root ++ node.1) = node.2.2) :
    newEntries t (root ++ node.1) nodes node =
      s.newEntries t (root ++ node.1) := by
  rw [newEntries, MessageTree.newEntries, hindex]
  refine List.filter_congr fun name _ => ?_
  congr 1
  rw [Bool.eq_iff_iff, List.any_eq_true, decide_eq_true_iff,
    List.append_assoc]
  constructor
  · intro ⟨child, hchild, heq⟩
    rw [← beq_iff_eq.mp heq]
    exact ((hmem _).mp (List.mem_map_of_mem hchild)).2
  · intro hchild
    obtain ⟨child, hchild, heq⟩ := List.mem_map.mp
      ((hmem (root ++ (node.1 ++ [name]))).mpr ⟨⟨_, rfl⟩, hchild⟩)
    exact ⟨child, hchild, beq_iff_eq.mpr (List.append_cancel_left heq)⟩

theorem sheetMuscle_restoresTrees :
    sheetMuscle.toMuscle.RestoresTrees where
  restoreNothing _ _ := rfl
  restoreTree s t root archive hroot hsaved := by
    have hsave : save s root = (.noError, archive) := hsaved
    unfold save at hsave
    split at hsave
    swap
    · cases hsave
    rename_i nodes hnodes
    obtain ⟨-, rfl⟩ := Prod.mk.inj hsave
    obtain ⟨hpaths, hlookup⟩ := mapM_saveNode
      (fun q hq => (mem_pathsBelow.mp (List.mem_reverse.mp hq)).1) hnodes
    have hmem : ∀ q, q ∈ nodes.map (root ++ ·.1) ↔ root <+: q ∧ q ∈ s.nodes := by
      intro q
      rw [hpaths, List.mem_reverse]
      exact mem_pathsBelow
    have hpairwise : (nodes.map (root ++ ·.1)).Pairwise
        fun a b => ¬ b <+: a := by
      rw [hpaths]
      exact List.pairwise_reverse.mpr (pathsBelow_pairwise s root)
    have hnodup : (nodes.map (root ++ ·.1)).Nodup :=
      hpairwise.imp (S := (· ≠ ·)) fun hab heq =>
        hab (heq ▸ List.prefix_refl _)
    -- what is missing above the root
    let parents : List (TreeChange Sheet) :=
      (t.missingParents root).map (.payloadSet · (.number 0))
    obtain ⟨hvalid, hroom, habove, hfirst⟩ := valid_above t root (.number 0)
    -- the payloads
    let l : List (NodePath × Sheet) :=
      nodes.map fun node => (root ++ node.1, .page node.2.1)
    have hl : l.map (·.1) = nodes.map (root ++ ·.1) := by
      simp [l, Function.comp_def]
    have hparents : ∀ before e after, l = before ++ e :: after →
        TreeChange.AppliesTo (TreeChange.applyAll t parents)
            (.payloadSet e.1 e.2) ∨ e.1.dropLast ∈ before.map (·.1) := by
      intro before e after hsplit
      have hpaths' : nodes.map (root ++ ·.1) =
          before.map (·.1) ++ e.1 :: after.map (·.1) := by
        rw [← hl, hsplit, List.map_append, List.map_cons]
      by_cases heq : e.1 = root
      · rw [heq]
        exact .inl hroom
      · exact .inr (parent_before (hpaths' ▸ hmem) (hpaths' ▸ hpairwise) heq)
    obtain ⟨hvalid', hset, hkept⟩ :=
      valid_payloads (hl ▸ hnodup) hparents
    let payloads : List (TreeChange Sheet) :=
      nodes.map fun node => .payloadSet (root ++ node.1) (.page node.2.1)
    have hpayloads : l.map (fun e => TreeChange.payloadSet e.1 e.2) =
        payloads := by
      simp [l, payloads, Function.comp_def]
    rw [hpayloads] at hvalid' hset hkept
    rw [hl] at hkept
    let u := TreeChange.applyAll (TreeChange.applyAll t parents) payloads
    have hu : ∀ node ∈ nodes, u.lookup (root ++ node.1) =
        some { payload := .page node.2.1
               index := t.indexOf (root ++ node.1) } := by
      intro node hnode
      have hthere := hset (root ++ node.1, .page node.2.1)
        (List.mem_map_of_mem hnode)
      rw [MessageTree.indexOf, hfirst _ ⟨node.1, rfl⟩] at hthere
      exact hthere
    -- the indices
    let names : NodePath × Page × List String → List String :=
      fun node => newEntries t (root ++ node.1) nodes node
    have hnames : ∀ node ∈ nodes,
        names node = s.newEntries t (root ++ node.1) := by
      intro node hnode
      refine newEntries_eq hmem ?_
      rw [MessageTree.indexOf, hlookup node hnode]
    have hmemU : ∀ q ∈ nodes.map (root ++ ·.1), q ∈ u.nodes := by
      intro q hq
      obtain ⟨node, hnode, rfl⟩ := List.mem_map.mp hq
      exact MessageTree.mem_nodes_iff.mpr ⟨_, hu node hnode⟩
    obtain ⟨hvalid'', hset', hkept'⟩ := valid_allEntries (u := u)
      (fun node : NodePath × Page × List String => root ++ node.1) names t
      hnodup
      (fun node hnode => hmemU _ (List.mem_map_of_mem hnode))
      (fun node hnode => by rw [MessageTree.indexOf, hu node hnode])
      (fun node hnode name hname => by
        rw [hnames node hnode] at hname
        have hchild := (List.mem_filter.mp hname).2
        rw [Bool.and_eq_true, decide_eq_true_iff] at hchild
        exact hmemU _ ((hmem _).mpr
          ⟨⟨node.1 ++ [name], by simp⟩, hchild.1⟩))
    let entries : List (TreeChange Sheet) := nodes.flatMap fun node =>
      ((names node).zipIdx (t.indexOf (root ++ node.1)).length).map fun e =>
        .indexInserted (root ++ node.1) e.2 e.1
    have hvalidAll : TreeChange.Valid t (restoreChanges t root nodes) := by
      refine TreeChange.valid_append.mpr
        ⟨TreeChange.valid_append.mpr ⟨hvalid, hvalid'⟩, ?_⟩
      rw [TreeChange.applyAll_append]
      exact hvalid''
    have hrestore : sheetMuscle.restoreNodeTreeFromMessage t
        (.archive nodes) root = .ofValid t (restoreChanges t root nodes) := rfl
    obtain ⟨hstatus, hchanges⟩ := Outcome.ofValid_of_valid hvalidAll
    rw [hrestore]
    refine ⟨hstatus, ?_, ?_⟩
    · intro p hp
      rw [hchanges]
      have hall : TreeChange.applyAll t (restoreChanges t root nodes) =
          TreeChange.applyAll u entries := by
        rw [restoreChanges, TreeChange.applyAll_append,
          TreeChange.applyAll_append]
      rw [hall, MessageTree.restoredOver]
      by_cases hin : p ∈ s.nodes
      · obtain ⟨node, hnode, rfl⟩ := List.mem_map.mp ((hmem p).mpr ⟨hp, hin⟩)
        rw [hset' node hnode, hu node hnode, hlookup node hnode,
          hnames node hnode]
        rfl
      · have hnot : p ∉ nodes.map (root ++ ·.1) := fun h =>
          hin ((hmem p).mp h).2
        have hnone : s.lookup p = none := Finmap.lookup_eq_none.mpr hin
        rw [hkept' p hnot, hnone, hkept p hnot, hfirst p hp]
    · intro c hc
      rw [hchanges] at hc
      rcases List.mem_append.mp hc with hc | hc
      · rcases List.mem_append.mp hc with hc | hc
        · exact .inr (habove c hc)
        · obtain ⟨node, -, rfl⟩ := List.mem_map.mp hc
          exact .inl ⟨node.1, rfl⟩
      · obtain ⟨node, -, hc⟩ := List.mem_flatMap.mp hc
        obtain ⟨e, -, rfl⟩ := List.mem_map.mp hc
        exact .inl ⟨node.1, rfl⟩

/-! ### Replacing a database -/

/-- `SetFromArchive` succeeds, and makes the database what was saved. -/
structure FullyReplaced (m : Muscle P) (mount : Mount) (inSeniorUpdate : Bool)
    (db saved : MessageTreeDatabaseObject P) (archive : P) : Prop where
  succeeds : (db.setFromArchive m mount inSeniorUpdate archive).2.isOK = true
  same : SameDatabase mount.root
    (db.setFromArchive m mount inSeniorUpdate archive).1.tree saved.tree
  checksum : (db.setFromArchive m mount inSeniorUpdate archive).1.checksum =
    saved.checksum

/-- The condition: the saved database has a root node, and all the nodes of
the one that it replaces; where an index is not what was saved, only new
nodes are missing at its end; and the running checksums are right or wrong
alike. -/
structure Replaceable (m : Muscle P) (mount : Mount)
    (db saved : MessageTreeDatabaseObject P) : Prop where
  root : mount.root ∈ saved.tree.nodes
  nodes : ∀ p ∈ db.tree.nodes.keys, mount.root <+: p → p ∈ saved.tree.nodes
  indices : ∀ p ∈ saved.tree.nodes.keys, mount.root <+: p →
    db.tree.indexOf p ++ saved.tree.newEntries db.tree p =
      saved.tree.indexOf p
  checksum : db.checksum - ownChecksum m mount db.tree =
    saved.checksum - ownChecksum m mount saved.tree

/-- The nodes after the restore are those that were saved. -/
private theorem restoredOver_eq_iff :
    (∀ p, root <+: p → s.restoredOver t p = s.lookup p) ↔
      (∀ p ∈ t.nodes.keys, root <+: p → p ∈ s.nodes) ∧
      ∀ p ∈ s.nodes.keys, root <+: p →
        t.indexOf p ++ s.newEntries t p = s.indexOf p := by
  constructor
  · intro h
    constructor
    · intro p hp hbelow
      by_contra hmissing
      have hnone : s.lookup p = none := Finmap.lookup_eq_none.mpr hmissing
      have hrestored := h p hbelow
      rw [MessageTree.restoredOver, hnone] at hrestored
      exact Finmap.lookup_eq_none.mp hrestored (Finmap.mem_keys.mp hp)
    · intro p hp hbelow
      obtain ⟨node, hnode⟩ :=
        MessageTree.mem_nodes_iff.mp (Finmap.mem_keys.mp hp)
      have hrestored := h p hbelow
      rw [MessageTree.restoredOver, hnode] at hrestored
      rw [MessageTree.indexOf.eq_def s p, hnode]
      exact congrArg DataNode.index (Option.some.inj hrestored)
  · intro ⟨hnodes, hindices⟩ p hbelow
    unfold MessageTree.restoredOver
    cases hnode : s.lookup p with
    | none =>
        dsimp only
        by_contra hthere
        obtain ⟨node, hnode'⟩ := Option.ne_none_iff_exists'.mp hthere
        have hmem : p ∈ t.nodes := MessageTree.mem_nodes_iff.mpr ⟨node, hnode'⟩
        exact Finmap.lookup_eq_none.mp hnode
          (hnodes p (Finmap.mem_keys.mpr hmem) hbelow)
    | some node =>
        have hmem : p ∈ s.nodes := MessageTree.mem_nodes_iff.mpr ⟨node, hnode⟩
        have hindex := hindices p (Finmap.mem_keys.mpr hmem) hbelow
        rw [MessageTree.indexOf.eq_def s p, hnode] at hindex
        rw [hindex]

/-- **Replacing.**  `SetFromArchive` replaces a database by the one that was
saved if and only if the condition holds. -/
theorem setFromArchive_replaces_iff {db saved : MessageTreeDatabaseObject P}
    {inSeniorUpdate : Bool} {archive : P} (hm : m.RestoresTrees)
    (hsaved : saved.saveToArchive m mount = (.noError, archive)) :
    FullyReplaced m mount inSeniorUpdate db saved archive ↔
      Replaceable m mount db saved := by
  unfold MessageTreeDatabaseObject.saveToArchive at hsaved
  split at hsaved
  · rename_i hroot
    obtain ⟨hstatus, hlookup, hpaths⟩ :=
      hm.restoreTree saved.tree db.tree hroot hsaved
    let ret := db.restore m mount archive
    have hchanges : ret.effects.map (·.change) =
        (m.restoreNodeTreeFromMessage db.tree archive mount.root).changes :=
      Execution.ofOutcome_changes
    have htree : (db.setFromArchive m mount inSeniorUpdate archive).1.tree =
        TreeChange.applyAll db.tree (ret.effects.map (·.change)) :=
      notifyAll_tree
    have hsame : SameDatabase mount.root
          (db.setFromArchive m mount inSeniorUpdate archive).1.tree
          saved.tree ↔
        ∀ p, mount.root <+: p →
          saved.tree.restoredOver db.tree p = saved.tree.lookup p := by
      rw [htree, hchanges]
      exact forall₂_congr fun p hbelow => by rw [hlookup p hbelow]
    have hmoved : (db.setFromArchive m mount inSeniorUpdate
        archive).1.checksum = db.checksum +
          (ownChecksum m mount (db.setFromArchive m mount inSeniorUpdate
            archive).1.tree - ownChecksum m mount db.tree) := by
      rw [htree]
      refine (notifyAll_checksum_eq db ret.valid).trans
        (congrArg (db.checksum + ·) (checksumMoved_of_loud ret.valid
          (fun e he => Execution.quiet_of_mem_ofOutcome he) ?_))
      intro e he
      refine hpaths e.change ?_
      rw [← hchanges]
      exact List.mem_map_of_mem he
    constructor
    · intro h
      obtain ⟨hnodes, hindices⟩ :=
        restoredOver_eq_iff.mp (hsame.mp h.same)
      refine ⟨hroot, hnodes, hindices, ?_⟩
      have hchecksum := h.checksum
      rw [hmoved, h.same.ownChecksum_eq] at hchecksum
      rw [← hchecksum]
      abel
    · intro h
      have hafter := hsame.mpr
        (restoredOver_eq_iff.mpr ⟨h.nodes, h.indices⟩)
      refine ⟨?_, hafter, ?_⟩
      · exact (congrArg Status.isOK hstatus).trans rfl
      · rw [hmoved, hafter.ownChecksum_eq]
        calc db.checksum + (ownChecksum m mount saved.tree -
              ownChecksum m mount db.tree)
            = (db.checksum - ownChecksum m mount db.tree) +
              ownChecksum m mount saved.tree := by abel
          _ = saved.checksum := by rw [h.checksum]; abel
  · rename_i hroot
    obtain ⟨-, rfl⟩ := Prod.mk.inj hsaved
    refine iff_of_false (fun h => ?_) fun h => hroot h.root
    have hok : (m.restoreNodeTreeFromMessage db.tree m.emptyMessage
        mount.root).status.isOK = true := h.succeeds
    rw [hm.restoreNothing] at hok
    cases hok

/-- A database with one sheet in an index. -/
def oneSheetDatabase : MessageTreeDatabaseObject Sheet :=
  (attachedPlainState.database.seniorUpdate sheetMuscle.toMuscle sheetMount
    (.updateNodeValue ["x", "a"] (some (.number 1)) { indexed := true }
      "" "")).1

/-- The same database, when a second sheet has been added. -/
def twoSheetDatabase : MessageTreeDatabaseObject Sheet :=
  (oneSheetDatabase.seniorUpdate sheetMuscle.toMuscle sheetMount
    (.updateNodeValue ["x", "b"] (some (.number 2)) { indexed := true }
      "" "")).1

/-- The second database replaces the first. -/
theorem twoSheetDatabase_replaces :
    FullyReplaced sheetMuscle.toMuscle sheetMount false oneSheetDatabase
      twoSheetDatabase
      (twoSheetDatabase.saveToArchive sheetMuscle.toMuscle sheetMount).2 := by
  have hstatus : (twoSheetDatabase.saveToArchive sheetMuscle.toMuscle
      sheetMount).1 = .noError := by decide
  exact (setFromArchive_replaces_iff sheetMuscle_restoresTrees
    (Prod.ext hstatus rfl)).mpr ⟨by decide, by decide, by decide, by decide⟩

/-- The first does not replace the second, whose second sheet stays. -/
theorem oneSheetDatabase_not_replaces :
    ¬ ∀ (db saved : MessageTreeDatabaseObject Sheet) (inSeniorUpdate : Bool)
      (archive : Sheet),
      saved.saveToArchive sheetMuscle.toMuscle sheetMount =
        (.noError, archive) →
      FullyReplaced sheetMuscle.toMuscle sheetMount inSeniorUpdate db saved
        archive := by
  intro h
  have hstatus : (oneSheetDatabase.saveToArchive sheetMuscle.toMuscle
      sheetMount).1 = .noError := by decide
  have hsame := (h twoSheetDatabase oneSheetDatabase false _
    (Prod.ext hstatus rfl)).same ["db", "x", "b"] ⟨["x", "b"], rfl⟩
  exact absurd (congrArg Option.isSome hsame) (by decide)

end ZgChoir
