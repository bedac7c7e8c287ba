import ZgChoir.UndoStackRecords
import ZgChoir.UndoStackRuns

/-!
# What becomes of the sequences on the stacks

Each command moves the sequences of its client as its name says: a beginning
puts a new one on the undo stack and clears the redo stack, an end closes the
one on top, and an undo or a redo that succeeds moves the one on top from one
stack to the other.  Whatever else a client's sequence is made of leaves both
stacks as they are.  The clean-up takes from the bottom of the undo stack what
the log does not hold, and nothing else.

What an undo or a redo does to the database is what the log says of the
transactions of the sequence (`undoOrRedo_moves`).
-/

namespace ZgChoir

open UndoRedo

variable {P : Type} {um : UndoStackMuscle P} {mount : Mount}
  {view : LogView P} {ctx : CommandContext} {t t' x : MessageTree P}
  {unmatched : UndoKey → ℕ} {stack client : String} {key : UndoKey}
  {label : Option String} {undo redo : List P} {p : P}

/-- The sequences on a client's stacks, from the bottom to the top, but for
what has been at the bottom of the undo stack and the log does not hold. -/
structure Stacked (um : UndoStackMuscle P) (mount : Mount) (view : LogView P)
    (client : String) (undo redo : List P) (t : MessageTree P) : Prop where
  undo : ∃ gone, undo =
      gone ++ um.sequencesAt t (mount.stackRoot "undo" ++ [client]) ∧
    ∀ p ∈ gone, ¬ view.Holds um p
  redo : um.sequencesAt t (mount.stackRoot "redo" ++ [client]) = redo

theorem Stacked.of_eq
    (hundo : um.sequencesAt t (mount.stackRoot "undo" ++ [client]) = undo)
    (hredo : um.sequencesAt t (mount.stackRoot "redo" ++ [client]) = redo) :
    Stacked um mount view client undo redo t :=
  ⟨⟨[], hundo.symm, by simp⟩, hredo⟩

theorem Stacked.congr (h : Stacked um mount view client undo redo t)
    (hsame : ∀ stack ∈ ["undo", "redo"],
      um.sequencesAt t' (mount.stackRoot stack ++ [client]) =
        um.sequencesAt t (mount.stackRoot stack ++ [client])) :
    Stacked um mount view client undo redo t' := by
  obtain ⟨hundo, hredo⟩ := h
  rw [← hsame "undo" (by simp)] at hundo
  rw [← hsame "redo" (by simp)] at hredo
  exact ⟨hundo, hredo⟩

theorem StacksKept.stackAt (h : StacksKept um mount view t unmatched)
    (stack : String) (hstack : stack ∈ ["undo", "redo"]) (client : String) :
    ∃ entries, StackAt t (mount.stackRoot stack ++ [client]) entries := by
  obtain ⟨undo, redo, hc⟩ := h.client client
  rcases List.mem_pair.mp hstack with rfl | rfl
  · exact ⟨undo, hc.undoAt⟩
  · exact ⟨redo, hc.redoAt⟩

theorem StackAt.sequencesAt_congr {node : NodePath}
    {entries : List (String × P)} (h : StackAt t node entries)
    (h' : StackAt t' node entries) :
    um.sequencesAt t' node = um.sequencesAt t node := by
  rw [h.sequencesAt_eq, h'.sequencesAt_eq]

/-- Commands that leave the stacks alone. -/
theorem Stacked.of_same (h : Stacked um mount view client undo redo t)
    (hkept : StacksKept um mount view t unmatched)
    (hsame : SameStacks mount t t') :
    Stacked um mount view client undo redo t' := by
  refine h.congr fun stack hstack => ?_
  obtain ⟨entries, hat⟩ := hkept.stackAt stack hstack client
  exact hat.sequencesAt_congr (hsame.stackAt hstack hat)

/-- **The clean-up.** -/
theorem Stacked.tidied (h : Stacked um mount view client undo redo t)
    (hum : um.Lawful) (hgap : view.Gapless)
    (hmount : mount.ForStacks um.toMuscle)
    (hkept : StacksKept um mount view t unmatched) (opTag : String) :
    Stacked um mount view client undo redo
      (tidyUndoStack um mount view opTag t).tree := by
  obtain ⟨-, htidied, -⟩ := tidyUndoStack_spec hum hgap opTag hmount hkept
  obtain ⟨⟨gone, hundo, hnot⟩, hredo⟩ := h
  obtain ⟨undos, hundoAt⟩ := hkept.stackAt "undo" (by simp) client
  obtain ⟨redos, hredoAt⟩ := hkept.stackAt "redo" (by simp) client
  obtain ⟨kept, ⟨dropped, rfl, hnot'⟩, hkeptAt⟩ := htidied.undo _ _ hundoAt
  rw [hundoAt.sequencesAt_eq, List.map_append] at hundo
  refine ⟨⟨gone ++ dropped.map (·.2), ?_, fun p hp => ?_⟩, ?_⟩
  · rw [hkeptAt.sequencesAt_eq, hundo, List.append_assoc]
  · rcases List.mem_append.mp hp with hp | hp
    · exact hnot p hp
    · obtain ⟨e, he, rfl⟩ := List.mem_map.mp hp
      exact hnot' e he
  · rw [← hredo]
    exact hredoAt.sequencesAt_congr (htidied.redo _ _ hredoAt)

/-- A sequence on top that the log holds is there. -/
theorem Stacked.top (h : Stacked um mount view client (undo ++ [p]) redo t)
    (hheld : view.Holds um p) : ∃ older, older <:+ undo ∧
      um.sequencesAt t (mount.stackRoot "undo" ++ [client]) =
        older ++ [p] := by
  obtain ⟨⟨gone, hundo, hnot⟩, -⟩ := h
  generalize um.sequencesAt t (mount.stackRoot "undo" ++ [client]) = rest at *
  rcases List.eq_nil_or_concat rest with rfl | ⟨older, top, rfl⟩
  · rw [List.append_nil] at hundo
    exact absurd hheld (hnot p (hundo ▸ by simp))
  · rw [List.concat_eq_append, ← List.append_assoc] at hundo
    obtain ⟨rfl, htop⟩ := List.append_inj' hundo rfl
    obtain rfl : p = top := by simpa using htop
    exact ⟨older, List.suffix_append gone older, List.concat_eq_append⟩

/-- The sequence on top of a stack, in the tree. -/
theorem StacksKept.topAt (h : StacksKept um mount view t unmatched)
    (hstack : stack ∈ ["undo", "redo"]) {older : List P}
    (heq : um.sequencesAt t (mount.stackRoot stack ++ [client]) =
      older ++ [p]) :
    ∃ entries name, older = entries.map (·.2) ∧
      StackAt t (mount.stackRoot stack ++ [client])
        (entries ++ [(name, p)]) := by
  obtain ⟨entries, hat⟩ := h.stackAt stack hstack client
  rw [hat.sequencesAt_eq] at heq
  obtain ⟨entries, last, rfl, holder, hlast⟩ := List.map_eq_append_iff.mp heq
  obtain ⟨⟨name, p⟩, rfl, rfl⟩ := List.map_eq_singleton_iff.mp hlast
  exact ⟨entries, name, holder.symm, hat⟩

/-! ## Beginning and ending -/

/-- A sequence begins where none is open. -/
theorem beginSequence_stacked (hum : um.Lawful)
    (hmount : mount.ForStacks um.toMuscle) (hkey : clientNode key = [client])
    (hliteral : ∀ stack ∈ ["undo", "redo"],
      Literal um.toMuscle (mount.stackRoot stack ++ [client]))
    (h : StacksKept um mount view t unmatched)
    (hzero : unmatched [client] = 0)
    (hstacked : Stacked um mount view client undo redo t)
    (hok : (beginSequence um mount ctx view key label t).status.isOK = true) :
    Stacked um mount view client
      (undo ++ [um.newSequence label (view.currentDatabaseStateID + 1)]) []
      (beginSequence um mount ctx view key label t).tree := by
  revert hok
  unfold beginSequence
  simp only [hmount.clientNodePath_eq hkey]
  refine withDemandedNode_of (I := fun status tree => status.isOK = true →
    Stacked um mount view client
      (undo ++ [um.newSequence label (view.currentDatabaseStateID + 1)]) []
      tree) hum (h.roots "undo" (by simp)) (hliteral "undo" (by simp)) ?_
  intro t₁ hdemanded
  obtain ⟨entries, hundoAt⟩ := h.stackAt "undo" (by simp) client
  have h₁ : StacksKept um mount view t₁ unmatched := h.demanded hdemanded
  obtain ⟨_, _, hc⟩ := h₁.client client
  have hwhat : um.what (um.getData t₁ (mount.stackRoot "undo" ++ [client])) =
      0 := UInt32.toNat_inj.mp (hc.counted.trans hzero)
  rw [if_pos hwhat]
  obtain ⟨hchanged, hnil, -⟩ :=
    removeRedo_kept hum hmount (hliteral "redo" (by simp)) h₁ ctx.opTag
  have hundoAt₂ : StackAt _ (mount.stackRoot "undo" ++ [client]) entries :=
    hchanged.stackAt (.inl (by decide)) (hundoAt.demanded hdemanded)
  have hmem : mount.stackRoot "undo" ++ [client] ∈
      (removeDataNodes um.toMuscle mount false ctx.opTag t₁
        (mount.stackRoot "redo" ++ [client]) none false).tree.nodes :=
    (MessageTree.mem_nodes_of_lookup_eq (hchanged.lookup
      (.inl (by decide)) (List.prefix_refl _))).mpr hdemanded.mem
  generalize removeDataNodes um.toMuscle mount false ctx.opTag t₁
    (mount.stackRoot "redo" ++ [client]) none false = e at *
  intro hok
  have hisOK : e.status.isOK = true := by
    by_contra hfail
    rw [Execution.andThen_of_not_isOK (Bool.of_not_eq_true hfail)] at hok
    exact hfail hok
  rw [Execution.andThen_status_of_isOK hisOK] at hok
  rw [Execution.andThen_tree_of_isOK hisOK]
  rcases pushSequence_cases hum hmem (hliteral "undo" (by simp)) ctx.opTag
    (um.newSequence label (view.currentDatabaseStateID + 1)) with
    ⟨hfail, -⟩ | ⟨-, hpushed⟩
  · rw [hfail] at hok
    cases hok
  · obtain ⟨name, hat⟩ := hpushed.stackAt hmem hundoAt₂
    obtain ⟨gone, hundo, hnot⟩ := hstacked.undo
    refine ⟨⟨gone, ?_, hnot⟩, (hpushed.clientChanged.stackAt
      (.inl (by decide)) hnil).sequencesAt_eq⟩
    rw [hat.sequencesAt_eq, hundo, hundoAt.sequencesAt_eq, List.map_append,
      List.append_assoc]
    rfl

/-- Setting the payload of the client's node does not change its stacks. -/
theorem Stacked.setNode (h : Stacked um mount view client undo redo t)
    (hkept : StacksKept um mount view t unmatched) {payload : P}
    (hset : SetAt t t' (mount.stackRoot "undo" ++ [client]) payload) :
    Stacked um mount view client undo redo t' := by
  refine h.congr fun stack hstack => ?_
  obtain ⟨entries, hat⟩ := hkept.stackAt stack hstack client
  refine hat.sequencesAt_congr ?_
  rcases List.mem_pair.mp hstack with rfl | rfl
  · exact hat.setNode hset
  · exact (hset.clientChanged (List.prefix_refl _)).stackAt
      (.inl (by decide)) hat

/-- A sequence begins within another. -/
theorem beginSequence_nested (hum : um.Lawful)
    (hmount : mount.ForStacks um.toMuscle) (hkey : clientNode key = [client])
    (hliteral : ∀ stack ∈ ["undo", "redo"],
      Literal um.toMuscle (mount.stackRoot stack ++ [client]))
    (h : StacksKept um mount view t unmatched)
    (hpos : unmatched [client] ≠ 0)
    (hstacked : Stacked um mount view client undo redo t) :
    Stacked um mount view client undo redo
      (beginSequence um mount ctx view key label t).tree := by
  unfold beginSequence
  simp only [hmount.clientNodePath_eq hkey]
  refine withDemandedNode_of (I := fun _ tree =>
    Stacked um mount view client undo redo tree) hum (h.roots "undo" (by simp))
      (hliteral "undo" (by simp)) ?_
  intro t₁ hdemanded
  have h₁ : StacksKept um mount view t₁ unmatched := h.demanded hdemanded
  have hstacked₁ : Stacked um mount view client undo redo t₁ := by
    refine hstacked.congr fun stack hstack => ?_
    obtain ⟨entries, hat⟩ := h.stackAt stack hstack client
    refine hat.sequencesAt_congr ?_
    rcases List.mem_pair.mp hstack with rfl | rfl
    · exact hat.demanded hdemanded
    · exact hdemanded.clientChanged.stackAt (.inl (by decide)) hat
  obtain ⟨_, _, hc⟩ := h₁.client client
  have hwhat : um.what (um.getData t₁ (mount.stackRoot "undo" ++ [client])) ≠
      0 := by
    intro hwhat
    rw [← hc.counted, hwhat] at hpos
    exact hpos rfl
  rw [if_neg hwhat, Execution.withStatus_tree, Execution.ofOutcome_tree]
  exact hstacked₁.setNode h₁ (hum.setAt hdemanded.mem _)

/-- The end of a sequence within another. -/
theorem endSequence_nested (hum : um.Lawful)
    (hmount : mount.ForStacks um.toMuscle) (hkey : clientNode key = [client])
    (hliteral : ∀ stack ∈ ["undo", "redo"],
      Literal um.toMuscle (mount.stackRoot stack ++ [client]))
    (h : StacksKept um mount view t unmatched)
    (hnested : 1 < unmatched [client])
    (hstacked : Stacked um mount view client undo redo t) :
    Stacked um mount view client undo redo
      (endSequence um mount ctx view key label t).tree := by
  unfold endSequence
  simp only [hmount.clientNodePath_eq hkey]
  rw [hum.lawful.getDataNode t (hliteral "undo" (by simp))]
  obtain ⟨_, _, hc⟩ := h.client client
  have hwhat : 1 < um.what (um.getData t
      (mount.stackRoot "undo" ++ [client])) := by
    rw [UInt32.lt_iff_toNat_lt, hc.counted]
    exact hnested
  by_cases hmem : mount.stackRoot "undo" ++ [client] ∈ t.nodes
  · rw [if_pos hmem]
    simp only
    rw [if_pos hwhat, Execution.withStatus_tree, Execution.ofOutcome_tree]
    exact hstacked.setNode h (hum.setAt hmem _)
  · rw [if_neg hmem]
    exact hstacked

/-- The end of the outermost sequence, which the log holds. -/
theorem endSequence_stacked (hum : um.Lawful)
    (hmount : mount.ForStacks um.toMuscle) (hkey : clientNode key = [client])
    (hliteral : ∀ stack ∈ ["undo", "redo"],
      Literal um.toMuscle (mount.stackRoot stack ++ [client]))
    (h : StacksKept um mount view t unmatched)
    (hone : unmatched [client] = 1) {older : List P}
    (hundo : um.sequencesAt t (mount.stackRoot "undo" ++ [client]) =
      older ++ [p])
    (hredo : um.sequencesAt t (mount.stackRoot "redo" ++ [client]) = redo) :
    let e := endSequence um mount ctx view key label t
    ∃ closed, um.what closed = 0 ∧ um.startDBID closed = um.startDBID p ∧
      um.endDBID closed = view.currentDatabaseStateID + 1 ∧
      Stacked um mount view client (older ++ [closed]) redo e.tree := by
  unfold endSequence
  simp only [hmount.clientNodePath_eq hkey]
  rw [hum.lawful.getDataNode t (hliteral "undo" (by simp))]
  obtain ⟨entries, name, rfl, hat⟩ := h.topAt (by simp) hundo
  have htop : (name, p) ∈ entries ++ [(name, p)] := by simp
  have hmem := hat.mem_node htop
  obtain ⟨undos, redos, hc⟩ := h.client client
  obtain rfl := hc.undoAt.unique hat
  obtain ⟨rfl, older', top, heq, hopen, hend, -⟩ :=
    hc.openTop (by rw [hone]; decide)
  obtain ⟨-, hsame⟩ := List.append_inj' heq rfl
  obtain rfl : (name, p) = top := by simpa using hsame
  have hwhat : um.what (um.getData t (mount.stackRoot "undo" ++ [client])) =
      1 := UInt32.toNat_inj.mp (hc.counted.trans hone)
  have hlast : (t.indexOf (mount.stackRoot "undo" ++ [client])).getLast? =
      some name := by
    rw [hat.index]
    simp
  have hdata : um.getData t (mount.stackRoot "undo" ++ [client] ++ [name]) =
      p := hat.getData_entry htop
  rw [if_pos hmem]
  simp only [hwhat, hlast, hdata]
  rw [if_neg (by decide), if_neg (by decide)]
  obtain ⟨hclosed, hfirst, hended⟩ :=
    hum.closedSequence hend label (view.currentDatabaseStateID + 1)
  generalize um.closedSequence p label (view.currentDatabaseStateID + 1) =
    closed at *
  rw [Execution.followedBy_tree, Execution.withStatus_tree,
    Execution.ofOutcome_tree]
  have hset : SetAt t (Execution.ofOutcome (um.setData t
      (mount.stackRoot "undo" ++ [client] ++ [name]) closed) false false
        ctx.opTag).tree (mount.stackRoot "undo" ++ [client] ++ [name])
          closed := by
    rw [Execution.ofOutcome_tree]
    exact hum.setAt (hat.mem_child htop) closed
  have hmem' := (MessageTree.mem_nodes_of_lookup_eq
    (hset.elsewhere (mount.stackRoot "undo" ++ [client]) (by simp))).mpr hmem
  have hnode := hum.setAt hmem' closed
  have hundoAt := (StackAt.setTop hat hset).setNode hnode
  have hchanged := (hset.clientChanged (List.prefix_append _ _)).trans
    (hnode.clientChanged (List.prefix_refl _))
  refine ⟨closed, hclosed, hfirst, hended, .of_eq ?_ ?_⟩
  · rw [hundoAt.sequencesAt_eq, List.map_append]
    rfl
  · rw [← hredo]
    exact hc.redoAt.sequencesAt_congr
      (hchanged.stackAt (.inl (by decide)) hc.redoAt)

/-! ## Within a sequence -/

section Nesting

variable (um : UndoStackMuscle P) (mount : Mount)

/-- A message of a client within a sequence: whatever it begins is nested, and
nothing is undone or redone. -/
def Nested (key : UndoKey) (ctx : CommandContext) (view : LogView P) :
    UndoStackMessage P → MessageTree P → (UndoKey → ℕ) → Prop
  | .batch _ subMsgs => NestedAll subMsgs
  | .beginSequence key' _ => fun _ _ => key' = key
  | .endSequence key' _ => fun _ unmatched =>
      key' = key ∧ 1 < unmatched (clientNode key)
  | .undo .. => fun _ _ => False
  | .redo .. => fun _ _ => False
  | _ => fun _ _ => True
where
  NestedAll : List (UndoStackMessage P) → MessageTree P → (UndoKey → ℕ) →
      Prop
  | [] => fun _ _ => True
  | subMsg :: subMsgs => fun t unmatched =>
      let e := seniorMessageTreeUpdate um mount ctx view subMsg t
      Nested key ctx view subMsg t unmatched ∧ (e.status.isOK = true →
        NestedAll subMsgs e.tree
          (unmatchedAfter um mount ctx view subMsg t unmatched))

end Nesting

mutual

/-- **A message within a sequence** leaves the stacks as they are, and the
sequence open. -/
theorem seniorMessageTreeUpdateAux_nested (hum : um.Lawful)
    (hgap : view.Gapless) (hmount : mount.ForStacks um.toMuscle)
    (hkey : clientNode key = [client]) :
    ∀ (msg : UndoStackMessage P) (t : MessageTree P)
      (unmatched : UndoKey → ℕ), StacksKept um mount view t unmatched →
      Allowed um mount ctx view msg t unmatched →
      Nested um mount key ctx view msg t unmatched →
      unmatched [client] ≠ 0 → Stacked um mount view client undo redo t →
      Stacked um mount view client undo redo
          (seniorMessageTreeUpdateAux um mount ctx view msg t).tree ∧
        unmatchedAfter um mount ctx view msg t unmatched [client] ≠ 0
  | .batch _ subMsgs, t, unmatched, h, hallowed, hnested, hpos, hstacked =>
      updateAll_nested hum hgap hmount hkey subMsgs t unmatched h hallowed
        hnested hpos hstacked
  | .beginSequence key' label, t, unmatched, h, hallowed, hnested, hpos,
      hstacked => by
      obtain rfl := hnested
      obtain ⟨⟨client', hkey', hliteral⟩, -⟩ := hallowed
      obtain rfl : client = client' := by simpa using hkey.symm.trans hkey'
      refine ⟨beginSequence_nested hum hmount hkey hliteral h hpos hstacked, ?_⟩
      simp only [unmatchedAfter, hkey]
      split
      · simp
      · exact hpos
  | .endSequence key' label, t, unmatched, h, hallowed, hnested, hpos,
      hstacked => by
      obtain ⟨rfl, hdeep⟩ := hnested
      obtain ⟨client', hkey', hliteral⟩ := hallowed
      obtain rfl : client = client' := by simpa using hkey.symm.trans hkey'
      rw [hkey] at hdeep
      refine ⟨endSequence_nested hum hmount hkey hliteral h hdeep hstacked, ?_⟩
      simp only [unmatchedAfter, hkey]
      split
      · rw [Function.update_self]
        omega
      · exact hpos
  | .tree _ msg, t, unmatched, h, hallowed, _, hpos, hstacked => by
      refine ⟨?_, hpos⟩
      have hboth : StacksKept um mount view
          (treeUpdateAux um mount ctx view msg t).tree unmatched ∧
            Stacked um mount view client undo redo
              (treeUpdateAux um mount ctx view msg t).tree := by
        refine treeUpdateAux_preserves (I := fun tree =>
          StacksKept um mount view tree unmatched ∧
            Stacked um mount view client undo redo tree)
          (fun t' subMsg hspares h' => ?_) (fun t' h' => ?_) msg t hallowed
            ⟨h, hstacked⟩
        · have hsame : SameStacks mount t'
              (seniorCommand um.toMuscle mount ctx t' subMsg).tree :=
            seniorCommand_sameStacks hum.local_ hmount (.inr hspares)
          exact ⟨h'.1.of_same hsame, h'.2.of_same h'.1 hsame⟩
        · exact ⟨(tidyUndoStack_spec hum hgap ctx.opTag hmount h'.1).1,
            h'.2.tidied hum hgap hmount h'.1 ctx.opTag⟩
      exact hboth.2
  | .messagePair .., _, _, _, _, _, hpos, hstacked => ⟨hstacked, hpos⟩
  | .archive .., _, _, _, _, _, hpos, hstacked => ⟨hstacked, hpos⟩
  | .undo .., _, _, _, _, hnested, _, _ => hnested.elim
  | .redo .., _, _, _, _, hnested, _, _ => hnested.elim

theorem updateAll_nested (hum : um.Lawful) (hgap : view.Gapless)
    (hmount : mount.ForStacks um.toMuscle)
    (hkey : clientNode key = [client]) :
    ∀ (subMsgs : List (UndoStackMessage P)) (t : MessageTree P)
      (unmatched : UndoKey → ℕ), StacksKept um mount view t unmatched →
      Allowed.AllowedAll um mount ctx view subMsgs t unmatched →
      Nested.NestedAll um mount key ctx view subMsgs t unmatched →
      unmatched [client] ≠ 0 → Stacked um mount view client undo redo t →
      Stacked um mount view client undo redo
          (seniorMessageTreeUpdateAux.updateAll um mount ctx view subMsgs
            t).tree ∧
        unmatchedAfter.unmatchedAfterAll um mount ctx view subMsgs t unmatched
          [client] ≠ 0
  | [], _, _, _, _, _, hpos, hstacked => ⟨hstacked, hpos⟩
  | subMsg :: subMsgs, t, unmatched, h, hallowed, hnested, hpos, hstacked => by
      have haux := seniorMessageTreeUpdateAux_kept hum hgap hmount subMsg t
        unmatched h hallowed.1
      obtain ⟨hstacked', hpos'⟩ := seniorMessageTreeUpdateAux_nested hum hgap
        hmount hkey subMsg t unmatched h hallowed.1 hnested.1 hpos hstacked
      have hmsg := tidied_kept hum hgap hmount ctx.opTag haux
      have htidied : Stacked um mount view client undo redo
          (seniorMessageTreeUpdate um mount ctx view subMsg t).tree :=
        Execution.andThen_tree_of hstacked'
          (hstacked'.tidied hum hgap hmount haux ctx.opTag)
      have heq : seniorMessageTreeUpdateAux.updateAll um mount ctx view
          (subMsg :: subMsgs) t =
            (seniorMessageTreeUpdate um mount ctx view subMsg t).andThen
              (seniorMessageTreeUpdateAux.updateAll um mount ctx view subMsgs)
          := rfl
      rw [heq]
      simp only [unmatchedAfter.unmatchedAfterAll]
      cases hok : (seniorMessageTreeUpdate um mount ctx view subMsg
          t).status.isOK with
      | false =>
          rw [Execution.andThen_of_not_isOK hok]
          exact ⟨htidied, hpos'⟩
      | true =>
          rw [Execution.andThen_tree_of_isOK hok]
          exact updateAll_nested hum hgap hmount hkey subMsgs _ _ hmsg
            (hallowed.2 hok) (hnested.2 hok) hpos' htidied

end

/-! ## Undoing and redoing -/

theorem ClientChanged.sameOutside (h : ClientChanged mount stack client t t')
    (hstack : stack ∈ ["undo", "redo"]) : SameOutside mount t t' := by
  intro q hq
  have hnot := hq.2 stack hstack
  refine (h.elsewhere q ?_ fun hpre =>
    hnot ((List.prefix_append _ _).trans hpre)).symm
  rintro rfl
  exact hnot (List.prefix_refl _)

/-- **A sequence moves** from the top of one stack to the top of the other,
around the database. -/
theorem moveSequence_moves (hum : um.Lawful) {src dest : String}
    (hne : src ≠ dest) (hsrc : src ∈ ["undo", "redo"])
    (hdest : dest ∈ ["undo", "redo"])
    (hliteral : Literal um.toMuscle (mount.stackRoot dest ++ [client]))
    (h : StacksKept um mount view t unmatched) (opTag : String)
    {older : List P}
    (htop : um.sequencesAt t (mount.stackRoot src ++ [client]) =
      older ++ [p]) :
    let e := (popSequence um opTag (mount.stackRoot src ++ [client]) t).andThen
      fun t₂ => withDemandedNode um opTag t₂
        (mount.stackRoot dest ++ [client]) .badObject fun t₃ destClientNode =>
          pushSequence um opTag (mount.stackRoot dest ++ [client])
            destClientNode p t₃
    SameOutside mount t e.tree ∧ (e.status.isOK = true →
      um.sequencesAt e.tree (mount.stackRoot src ++ [client]) = older ∧
      um.sequencesAt e.tree (mount.stackRoot dest ++ [client]) =
        um.sequencesAt t (mount.stackRoot dest ++ [client]) ++ [p]) := by
  obtain ⟨entries, name, rfl, hat⟩ := h.topAt hsrc htop
  obtain ⟨others, hother⟩ := h.stackAt dest hdest client
  rw [hother.sequencesAt_eq]
  obtain ⟨hok, hpopped⟩ := popSequence_spec hum opTag hat
  have hisOK : (popSequence um opTag (mount.stackRoot src ++ [client])
      t).status.isOK = true := by rw [hok]; rfl
  intro e
  have htree : e.tree = (withDemandedNode um opTag
      (popSequence um opTag (mount.stackRoot src ++ [client]) t).tree
      (mount.stackRoot dest ++ [client]) .badObject fun t₃ destClientNode =>
        pushSequence um opTag (mount.stackRoot dest ++ [client])
          destClientNode p t₃).tree := Execution.andThen_tree_of_isOK hisOK
  have hstatus : e.status = (withDemandedNode um opTag
      (popSequence um opTag (mount.stackRoot src ++ [client]) t).tree
      (mount.stackRoot dest ++ [client]) .badObject fun t₃ destClientNode =>
        pushSequence um opTag (mount.stackRoot dest ++ [client])
          destClientNode p t₃).status := Execution.andThen_status_of_isOK hisOK
  rw [htree, hstatus]
  have houtside := hpopped.clientChanged.sameOutside hsrc
  have hother₂ := hpopped.clientChanged.stackAt (.inl hne.symm) hother
  have hroots := hpopped.clientChanged.roots h.roots
  generalize (popSequence um opTag (mount.stackRoot src ++ [client]) t).tree =
    t₂ at hpopped houtside hother₂ hroots
  refine withDemandedNode_of (I := fun status tree =>
    SameOutside mount t tree ∧ (status.isOK = true →
      um.sequencesAt tree (mount.stackRoot src ++ [client]) =
        entries.map (·.2) ∧
      um.sequencesAt tree (mount.stackRoot dest ++ [client]) =
        others.map (·.2) ++ [p])) hum (hroots dest hdest) hliteral
      fun t₃ hdemanded => ?_
  have houtside₃ := houtside.trans
    (hdemanded.clientChanged.sameOutside hdest)
  rcases pushSequence_cases hum hdemanded.mem hliteral opTag p with
    ⟨hfail, hsame⟩ | ⟨-, hpushed⟩
  · rw [hsame, hfail]
    exact ⟨houtside₃, fun hok => by cases hok⟩
  · refine ⟨houtside₃.trans (hpushed.clientChanged.sameOutside hdest),
      fun _ => ⟨?_, ?_⟩⟩
    · exact (hpushed.clientChanged.stackAt (.inl hne)
        (hdemanded.clientChanged.stackAt (.inl hne)
          hpopped.stack)).sequencesAt_eq
    · obtain ⟨name', hat'⟩ :=
        hpushed.stackAt hdemanded.mem (hother₂.demanded hdemanded)
      rw [hat'.sequencesAt_eq, List.map_append]
      rfl

/-- What is kept while the sequence on top of a stack is replayed. -/
theorem keptInReplays_stacked (hum : um.Lawful) (hgap : view.Gapless)
    (hmount : mount.ForStacks um.toMuscle) (opTag : String)
    (hstack : stack ∈ ["undo", "redo"]) {top : String × P}
    (hheld : view.Holds um top.2) :
    KeptInReplays um mount view opTag fun tree =>
      OnTop um mount view unmatched stack client top tree ∧
        Stacked um mount view client undo redo tree where
  roots _ h := h.1.1.roots
  same _ _ hsame h := ⟨h.1.of_same hstack hsame, h.2.of_same h.1.1 hsame⟩
  tidied _ h := ⟨h.1.tidied hum hgap hmount hstack hheld opTag,
    h.2.tidied hum hgap hmount h.1.1 opTag⟩

/-- What is undone or redone is on top of a stack. -/
theorem undoOrRedo_top (hum : um.Lawful) (hmount : mount.ForStacks um.toMuscle)
    (hkey : clientNode key = [client])
    (hliteral : ∀ stack ∈ ["undo", "redo"],
      Literal um.toMuscle (mount.stackRoot stack ++ [client]))
    (h : StacksKept um mount view t unmatched) {isRedo : Bool}
    {optOpTag : String} (src : String)
    (hsrc : (if isRedo then "redo" else "undo") = src)
    (hok : (undoOrRedo um mount ctx view isRedo key optOpTag t).status.isOK =
      true) : ∃ older p,
      um.sequencesAt t (mount.stackRoot src ++ [client]) = older ++ [p] := by
  have hsrcMem : src ∈ ["undo", "redo"] := by
    cases isRedo <;> simp [← hsrc]
  obtain ⟨entries, hat⟩ := h.stackAt src hsrcMem client
  rw [hat.sequencesAt_eq]
  rcases List.eq_nil_or_concat entries with rfl | ⟨older, top, rfl⟩
  · unfold undoOrRedo at hok
    simp only [hmount.clientNodePath_eq hkey, hsrc] at hok
    rw [hum.lawful.getDataNode t (hliteral src hsrcMem)] at hok
    have hindex : t.indexOf (mount.stackRoot src ++ [client]) = [] := hat.index
    by_cases hmem : mount.stackRoot src ++ [client] ∈ t.nodes
    · rw [if_pos hmem] at hok
      simp only [hindex, List.getLast?_nil] at hok
      cases hok
    · rw [if_neg hmem] at hok
      cases hok
  · exact ⟨older.map (·.2), top.2, by simp⟩

/-- **Undoing and redoing.**  If the log can take the database from what it is
to `goal`, an undo or a redo that succeeds does so, and the sequence moves to
the other stack. -/
theorem undoOrRedo_moves (hum : um.Lawful) (hgap : view.Gapless)
    (hmount : mount.ForStacks um.toMuscle) (hkey : clientNode key = [client])
    (hliteral : ∀ stack ∈ ["undo", "redo"],
      Literal um.toMuscle (mount.stackRoot stack ++ [client]))
    (h : StacksKept um mount view t unmatched) {isRedo : Bool}
    {optOpTag : String} {source goal : MessageTree P} {older : List P}
    (src dest : String)
    (hsrc : (if isRedo then "redo" else "undo") = src)
    (hdest : (if isRedo then "undo" else "redo") = dest)
    (htop : um.sequencesAt t (mount.stackRoot src ++ [client]) =
      older ++ [p])
    (hstacked : Stacked um mount view client undo redo t)
    (hsame : SameOutside mount source t)
    (hchain : um.startDBID p ≤ um.endDBID p →
      (transactionsOf (um.startDBID p) (um.endDBID p)).all
        view.updateLogContainsUpdate = true →
      Chain um.toMuscle mount view isRedo key
        (if isRedo then
          (transactionsOf (um.startDBID p) (um.endDBID p)).reverse
        else transactionsOf (um.startDBID p) (um.endDBID p)) source goal) :
    let e := undoOrRedo um mount ctx view isRedo key optOpTag t
    e.status.isOK = true → SameOutside mount goal e.tree ∧
      view.Holds um p ∧ ∃ t₁ older₁,
        Stacked um mount view client undo redo t₁ ∧
        um.sequencesAt t₁ (mount.stackRoot src ++ [client]) = older₁ ++ [p] ∧
        um.sequencesAt e.tree (mount.stackRoot src ++ [client]) = older₁ ∧
        um.sequencesAt e.tree (mount.stackRoot dest ++ [client]) =
          um.sequencesAt t₁ (mount.stackRoot dest ++ [client]) ++ [p] := by
  have hsrcMem : src ∈ ["undo", "redo"] := by
    cases isRedo <;> simp [← hsrc]
  have hdestMem : dest ∈ ["undo", "redo"] := by
    cases isRedo <;> simp [← hdest]
  have hne : src ≠ dest := by
    cases isRedo <;> simp [← hsrc, ← hdest]
  obtain ⟨entries, name, rfl, hat⟩ := h.topAt hsrcMem htop
  have hentry : (name, p) ∈ entries ++ [(name, p)] := by simp
  have hlast : (t.indexOf (mount.stackRoot src ++ [client])).getLast? =
      some name := by
    rw [hat.index]
    simp
  have hdata : um.getData t (mount.stackRoot src ++ [client] ++ [name]) = p :=
    hat.getData_entry hentry
  unfold undoOrRedo
  simp only [hmount.clientNodePath_eq hkey, hsrc, hdest]
  rw [hum.lawful.getDataNode t (hliteral src hsrcMem),
    if_pos (hat.mem_node hentry)]
  simp only [hlast, hdata]
  split
  · next hreplay =>
    obtain ⟨hle, hall⟩ := hreplay
    have hheld := holds_of_transactions hle hall
    have hstart : OnTop um mount view unmatched src client (name, p) t ∧
        Stacked um mount view client undo redo t :=
      ⟨⟨h, entries, hat⟩, hstacked⟩
    obtain ⟨hok₁, ⟨⟨hkept₁, entries₁, hat₁⟩, hstacked₁⟩, hgoal⟩ :=
      replayTransactions_chain { ctx with
          opTag := ctx.guardTag optOpTag
          isOkayToHandleUpdateMessage := isOkayDuringUndoRedo }
        hum hmount rfl (keptInReplays_stacked hum hgap hmount _ hsrcMem hheld)
        (hchain hle hall) hstart hsame
    generalize replayTransactions um mount { ctx with
        opTag := ctx.guardTag optOpTag
        isOkayToHandleUpdateMessage := isOkayDuringUndoRedo } view isRedo key
      _ t = e₁ at *
    have htop₁ : um.sequencesAt e₁.tree (mount.stackRoot src ++ [client]) =
        entries₁.map (·.2) ++ [p] := by
      rw [hat₁.sequencesAt_eq, List.map_append]
      rfl
    rw [Execution.andThen_status_of_isOK hok₁,
      Execution.andThen_tree_of_isOK hok₁]
    obtain ⟨houtside, hmoved⟩ := moveSequence_moves hum hne hsrcMem hdestMem
      (hliteral dest hdestMem) hkept₁ (ctx.guardTag optOpTag) htop₁
    intro hok
    obtain ⟨hsrc', hdest'⟩ := hmoved hok
    exact ⟨hgoal.trans houtside, hheld, e₁.tree, _, hstacked₁, htop₁, hsrc',
      hdest'⟩
  · intro hok
    cases hok

end ZgChoir
