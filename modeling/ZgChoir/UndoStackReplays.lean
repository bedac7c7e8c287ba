import ZgChoir.UndoStackCommands

/-!
# Undoing and redoing, and whole messages

While the transactions of a sequence are replayed, the clean-up may take
sequences off the bottoms of the undo stacks, but the sequence that is being
undone or redone stays on top of its stack: the log holds it.  Then it moves
from one stack to the other.

A message keeps the invariant because each of its commands does
(`seniorMessageTreeUpdate_kept`).
-/

namespace ZgChoir

open UndoRedo

variable {P : Type} {um : UndoStackMuscle P} {mount : Mount}
  {view : LogView P} {t t' : MessageTree P} {unmatched : UndoKey → ℕ}

/-! ## Messages of the base class -/

mutual

/-- What commands and the clean-up preserve, messages of the base class
preserve. -/
theorem treeUpdateAux_preserves {ctx : CommandContext}
    {I : MessageTree P → Prop} {A : TreeMessage P → Prop}
    (hcommand : ∀ t subMsg, A subMsg → I t →
      I (seniorCommand um.toMuscle mount ctx t subMsg).tree)
    (htidy : ∀ t, I t → I (tidyUndoStack um mount view ctx.opTag t).tree) :
    ∀ (msg : TreeMessage P) (t : MessageTree P),
      (∀ subMsg ∈ msg.flatten, A subMsg) → I t →
        I (treeUpdateAux um mount ctx view msg t).tree
  | .batch subMsgs, t, hall, h =>
      treeUpdateAll_preserves hcommand htidy subMsgs t hall h
  | .noop, t, hall, h => hcommand t .noop (hall _ (List.mem_singleton_self _)) h
  | .updateNodeValue .., t, hall, h =>
      hcommand t _ (hall _ (List.mem_singleton_self _)) h
  | .updateSubtree .., t, hall, h =>
      hcommand t _ (hall _ (List.mem_singleton_self _)) h
  | .insertIndexEntry .., t, hall, h =>
      hcommand t _ (hall _ (List.mem_singleton_self _)) h
  | .removeIndexEntry .., t, hall, h =>
      hcommand t _ (hall _ (List.mem_singleton_self _)) h
  | .requestDeleteNodes .., t, hall, h =>
      hcommand t _ (hall _ (List.mem_singleton_self _)) h
  | .moveIndexEntry .., t, hall, h =>
      hcommand t _ (hall _ (List.mem_singleton_self _)) h
  | .unknown _, t, hall, h =>
      hcommand t _ (hall _ (List.mem_singleton_self _)) h

theorem treeUpdateAll_preserves {ctx : CommandContext}
    {I : MessageTree P → Prop} {A : TreeMessage P → Prop}
    (hcommand : ∀ t subMsg, A subMsg → I t →
      I (seniorCommand um.toMuscle mount ctx t subMsg).tree)
    (htidy : ∀ t, I t → I (tidyUndoStack um mount view ctx.opTag t).tree) :
    ∀ (msgs : List (TreeMessage P)) (t : MessageTree P),
      (∀ subMsg ∈ TreeMessage.flatten.flattenAll msgs, A subMsg) → I t →
        I (treeUpdateAux.treeUpdateAll um mount ctx view msgs t).tree
  | [], _, _, h => h
  | msg :: msgs, t, hall, h => by
      have hmsg := treeUpdateAux_preserves hcommand htidy msg t
        (fun subMsg hmem => hall subMsg (List.mem_append_left _ hmem)) h
      have htidied : I ((treeUpdateAux um mount ctx view msg t).andThen
          (tidyUndoStack um mount view ctx.opTag)).tree :=
        Execution.andThen_tree_of hmsg (htidy _ hmsg)
      exact Execution.andThen_tree_of htidied
        (treeUpdateAll_preserves hcommand htidy msgs _
          (fun subMsg hmem => hall subMsg (List.mem_append_right _ hmem))
          htidied)

end

/-! ## Replaying transactions -/

section Replay

variable {stack client : String} {top : String × P}

/-- The invariant, with one sequence on top of one stack. -/
def OnTop (um : UndoStackMuscle P) (mount : Mount) (view : LogView P)
    (unmatched : UndoKey → ℕ) (stack client : String) (top : String × P)
    (t : MessageTree P) : Prop :=
  StacksKept um mount view t unmatched ∧ ∃ older,
    StackAt t (mount.stackRoot stack ++ [client]) (older ++ [top])

theorem OnTop.of_same (hstack : stack ∈ ["undo", "redo"])
    (h : OnTop um mount view unmatched stack client top t)
    (hsame : SameStacks mount t t') :
    OnTop um mount view unmatched stack client top t' := by
  obtain ⟨hkept, older, hat⟩ := h
  exact ⟨hkept.of_same hsame, older, hsame.stackAt hstack hat⟩

/-- The clean-up leaves a sequence where it is that the log holds. -/
theorem OnTop.tidied (hum : um.Lawful) (hgap : view.Gapless)
    (hmount : mount.ForStacks um.toMuscle)
    (hstack : stack ∈ ["undo", "redo"]) (hheld : view.Holds um top.2)
    (h : OnTop um mount view unmatched stack client top t) (opTag : String) :
    OnTop um mount view unmatched stack client top
      (tidyUndoStack um mount view opTag t).tree := by
  obtain ⟨hkept, older, hat⟩ := h
  obtain ⟨hkept', htidied, -⟩ :=
    tidyUndoStack_spec hum hgap opTag hmount hkept
  refine ⟨hkept', ?_⟩
  rcases List.mem_cons.mp hstack with rfl | hstack
  · obtain ⟨kept, hdropped, hat'⟩ := htidied.undo client _ hat
    obtain ⟨rest, rfl⟩ := hdropped.top hheld
    exact ⟨rest, hat'⟩
  · obtain rfl := List.mem_singleton.mp hstack
    exact ⟨older, htidied.redo client _ hat⟩

/-- The loop of an undo or a redo. -/
theorem replayTransactions_onTop (hum : um.Lawful) (hgap : view.Gapless)
    (hmount : mount.ForStacks um.toMuscle) (ctx : CommandContext)
    (hctx : ctx.isOkayToHandleUpdateMessage = isOkayDuringUndoRedo)
    (hspares : view.SparesStacks mount um.toMuscle)
    (hstack : stack ∈ ["undo", "redo"]) (hheld : view.Holds um top.2)
    (isRedo : Bool) (transIDs : List ℕ) (key : UndoKey)
    (h : OnTop um mount view unmatched stack client top t) :
    OnTop um mount view unmatched stack client top
      (replayTransactions um mount ctx view isRedo key transIDs t).tree := by
  induction transIDs generalizing t with
  | nil => exact h
  | cons transID transIDs ih =>
      unfold replayTransactions
      cases hpayload : view.getUpdatePayload transID with
      | none => exact h
      | some updatePayload =>
          refine Execution.andThen_tree_of_step ?_ fun t' h' => ih h'
          cases hfound : updatePayload.findMessage isRedo with
          | none => exact h
          | some subMsg =>
              simp only
              split
              · refine treeUpdateAux_preserves (fun t' msg hmsg h' => ?_)
                  (fun t' h' => h'.tidied hum hgap hmount hstack hheld _)
                  subMsg t (hspares transID updatePayload hpayload isRedo
                    subMsg hfound) h
                refine h'.of_same hstack
                  (seniorCommand_sameStacks hum.local_ hmount ?_)
                rwa [hctx]
              · exact h

end Replay

/-! ## Undo and redo -/

section UndoRedo

variable {ctx : CommandContext} {client optOpTag : String} {key : UndoKey}
  {n : ℕ} {undo redo : List (String × P)}

/-- A sequence that is replayed is one that the log holds. -/
theorem holds_of_transactions {payload : P}
    (hle : um.startDBID payload ≤ um.endDBID payload)
    (hall : (transactionsOf (um.startDBID payload) (um.endDBID payload)).all
      view.updateLogContainsUpdate = true) : view.Holds um payload := by
  refine List.all_eq_true.mp hall _ ?_
  rw [transactionsOf, List.mem_reverse, List.mem_range'_1]
  omega

theorem ClientStacks.what_redo
    (h : ClientStacks um mount view t n client undo redo) {e : String × P}
    (he : e ∈ redo) : um.what e.2 = 0 := by
  obtain ⟨last, hlast, -⟩ :=
    h.wellFormed.undone _ (List.mem_map_of_mem he)
  by_contra hwhat
  simp [UndoStackMuscle.sequenceOf, hwhat] at hlast

theorem ClientStacks.what_undo
    (h : ClientStacks um mount view t 0 client undo redo) {e : String × P}
    (he : e ∈ undo) : um.what e.2 = 0 := by
  obtain ⟨last, hlast, -⟩ :=
    h.wellFormed.idle rfl _ (List.mem_map_of_mem he)
  by_contra hwhat
  simp [UndoStackMuscle.sequenceOf, hwhat] at hlast

/-- **A sequence moves** from the top of one stack to the top of another, or
only off the first.  The what-code of the client's node shows that nothing is
begun. -/
theorem moveSequence_kept (hum : um.Lawful) {src dest : String}
    (hne : src ≠ dest) (hdest : dest ∈ ["undo", "redo"])
    (hliteral : Literal um.toMuscle (mount.stackRoot dest ++ [client]))
    (h : StacksKept um mount view t unmatched) (opTag : String)
    {older others : List (String × P)} {top : String × P}
    (hsrc : StackAt t (mount.stackRoot src ++ [client]) (older ++ [top]))
    (hother : StackAt t (mount.stackRoot dest ++ [client]) others)
    (hclosed : ∀ e ∈ older ++ [top], um.what e.2 = 0)
    (hidle : um.what (um.getData t (mount.stackRoot "undo" ++ [client])) = 0)
    (hbuild : ∀ t' others', StackAt t' (mount.stackRoot src ++ [client]) older →
      StackAt t' (mount.stackRoot dest ++ [client]) others' →
      um.what (um.getData t' (mount.stackRoot "undo" ++ [client])) = 0 →
      (others' = others ∨ ∃ name, others' = others ++ [(name, top.2)]) →
      ∃ undo redo,
        ClientStacks um mount view t' (unmatched [client]) client undo redo) :
    StacksKept um mount view
      ((popSequence um opTag (mount.stackRoot src ++ [client]) t).andThen
        fun t₂ => withDemandedNode um opTag t₂
          (mount.stackRoot dest ++ [client]) .badObject fun t₃ destClientNode =>
            pushSequence um opTag (mount.stackRoot dest ++ [client])
              destClientNode top.2 t₃).tree unmatched := by
  obtain ⟨hok, hpopped⟩ := popSequence_spec hum opTag hsrc
  have hisOK : (popSequence um opTag (mount.stackRoot src ++ [client])
      t).status.isOK = true := by rw [hok]; rfl
  rw [Execution.andThen_tree_of_isOK hisOK]
  generalize (popSequence um opTag (mount.stackRoot src ++ [client]) t).tree =
    t₂ at hpopped
  have hother₂ := hpopped.clientChanged.stackAt (.inl hne.symm) hother
  have hidle₂ : um.what (um.getData t₂
      (mount.stackRoot "undo" ++ [client])) = 0 := by
    by_cases hundo : "undo" = src
    · subst hundo
      rw [hpopped.shown]
      cases hlast : older.getLast? with
      | none => exact hum.what_emptyMessage
      | some next =>
          exact hclosed next (by simp [List.mem_of_getLast? hlast])
    · rw [hpopped.clientChanged.getData (.inl hundo)]
      exact hidle
  have h₂ : StacksKept um mount view t₂ unmatched :=
    h.of_changed_same hpopped.clientChanged
      (hbuild t₂ others hpopped.stack hother₂ hidle₂ (.inl rfl))
  refine withDemandedNode_of (I := fun _ tree =>
    StacksKept um mount view tree unmatched) hum (h₂.roots dest hdest) hliteral
      fun t₃ hdemanded => ?_
  have h₃ := h₂.demanded hdemanded
  rcases pushSequence_cases hum hdemanded.mem hliteral opTag top.2 with
    ⟨-, hsame⟩ | ⟨-, hpushed⟩
  · rw [hsame]
    exact h₃
  · generalize (pushSequence um opTag (mount.stackRoot dest ++ [client])
      (mount.stackRoot dest ++ [client]) top.2 t₃).tree = t₄ at hpushed
    obtain ⟨name, hat⟩ :=
      hpushed.stackAt hdemanded.mem (hother₂.demanded hdemanded)
    have hsrc₄ := hpushed.clientChanged.stackAt (.inl hne)
      (hdemanded.clientChanged.stackAt (.inl hne) hpopped.stack)
    refine h₃.of_changed_same hpushed.clientChanged
      (hbuild t₄ _ hsrc₄ hat ?_ (.inr ⟨name, rfl⟩))
    by_cases hundo : "undo" = dest
    · subst hundo
      obtain ⟨index, hhere⟩ := hpushed.here
      rw [UndoStackMuscle.getData, hhere]
      exact hclosed top (by simp)
    · rw [hpushed.clientChanged.getData (.inl hundo), hdemanded.getData_eq]
      exact hidle₂

/-- `UNDOSTACK_COMMAND_UNDO`. -/
theorem undo_kept (hum : um.Lawful) (hgap : view.Gapless)
    (hmount : mount.ForStacks um.toMuscle) (hkey : clientNode key = [client])
    (hliteral : ∀ stack ∈ ["undo", "redo"],
      Literal um.toMuscle (mount.stackRoot stack ++ [client]))
    (hspares : view.SparesStacks mount um.toMuscle)
    (h : StacksKept um mount view t unmatched) :
    StacksKept um mount view
      (undoOrRedo um mount ctx view false key optOpTag t).tree unmatched := by
  unfold undoOrRedo
  simp only [Bool.false_eq_true, if_false, hmount.clientNodePath_eq hkey]
  rw [hum.lawful.getDataNode t (hliteral "undo" (by simp))]
  by_cases hmem : mount.stackRoot "undo" ++ [client] ∈ t.nodes
  · rw [if_pos hmem]
    simp only
    obtain ⟨undo, redo, hc⟩ := h.client client
    cases hlast : undo.getLast? with
    | none =>
        rw [hc.undoAt.index, List.getLast?_map, hlast]
        exact h
    | some top =>
        obtain ⟨older, rfl⟩ := List.getLast?_eq_some_iff.mp hlast
        have htop : top ∈ older ++ [top] := by simp
        rw [hc.undoAt.index, List.getLast?_map, hlast]
        simp only [Option.map_some, hc.undoAt.getData_entry htop]
        split
        · next hreplay =>
          obtain ⟨hle, hall⟩ := hreplay
          have hheld := holds_of_transactions hle hall
          -- an open sequence has no end yet, so nothing is begun
          have hzero : unmatched [client] = 0 := by
            by_contra hne
            obtain ⟨-, older', top', heq, -, hend, hstart⟩ := hc.openTop hne
            obtain ⟨-, hsame⟩ := List.append_inj' heq rfl
            obtain rfl : top = top' := by simpa using hsame
            rw [UndoStackMuscle.endDBID, UndoStackMuscle.getInt64, hend] at hle
            exact absurd hle (Nat.not_le.mpr hstart)
          have htopped : OnTop um mount view unmatched "undo" client top t :=
            ⟨h, older, hc.undoAt⟩
          obtain ⟨h₁, older₁, hat₁⟩ := replayTransactions_onTop hum hgap
            hmount { ctx with
              opTag := ctx.guardTag optOpTag
              isOkayToHandleUpdateMessage := isOkayDuringUndoRedo } rfl hspares
              (by simp) hheld false (transactionsOf (um.startDBID top.2)
                (um.endDBID top.2)) key htopped
          refine Execution.andThen_tree_of (I := fun tree =>
            StacksKept um mount view tree unmatched) h₁ ?_
          obtain ⟨undo₁, redo₁, hc₁⟩ := h₁.client client
          obtain rfl := hc₁.undoAt.unique hat₁
          rw [hzero] at hc₁
          refine moveSequence_kept hum (by decide) (by simp)
            (hliteral "redo" (by simp)) h₁ _ hat₁ hc₁.redoAt
            (fun e he => hc₁.what_undo he)
            (UInt32.toNat_inj.mp hc₁.counted) ?_
          intro t' others' hundo hredo hidle hothers
          rw [hzero]
          refine ⟨older₁, others', hundo, hredo,
            fun e he => hc₁.sound e (by simp [he]),
            fun e he => hc₁.holds e (by simp [he]), ?_, by rw [hidle]; rfl⟩
          have hwf := hc₁.wellFormed
          rw [List.map_append] at hwf
          rcases hothers with rfl | ⟨name, rfl⟩
          · exact hwf.moveToRedo.dropRedo
          · rw [List.map_append]
            exact hwf.moveToRedo
        · exact h
  · rw [if_neg hmem]
    exact h

/-- `UNDOSTACK_COMMAND_REDO`. -/
theorem redo_kept (hum : um.Lawful) (hgap : view.Gapless)
    (hmount : mount.ForStacks um.toMuscle) (hkey : clientNode key = [client])
    (hliteral : ∀ stack ∈ ["undo", "redo"],
      Literal um.toMuscle (mount.stackRoot stack ++ [client]))
    (hspares : view.SparesStacks mount um.toMuscle)
    (h : StacksKept um mount view t unmatched) :
    StacksKept um mount view
      (undoOrRedo um mount ctx view true key optOpTag t).tree unmatched := by
  unfold undoOrRedo
  simp only [if_true, hmount.clientNodePath_eq hkey]
  rw [hum.lawful.getDataNode t (hliteral "redo" (by simp))]
  by_cases hmem : mount.stackRoot "redo" ++ [client] ∈ t.nodes
  · rw [if_pos hmem]
    simp only
    obtain ⟨undo, redo, hc⟩ := h.client client
    cases hlast : redo.getLast? with
    | none =>
        rw [hc.redoAt.index, List.getLast?_map, hlast]
        exact h
    | some top =>
        obtain ⟨older, rfl⟩ := List.getLast?_eq_some_iff.mp hlast
        have htop : top ∈ older ++ [top] := by simp
        rw [hc.redoAt.index, List.getLast?_map, hlast]
        simp only [Option.map_some, hc.redoAt.getData_entry htop]
        split
        · next hreplay =>
          obtain ⟨hle, hall⟩ := hreplay
          have hheld := holds_of_transactions hle hall
          -- beginning a sequence leaves nothing to redo
          have hzero : unmatched [client] = 0 := by
            by_contra hne
            obtain ⟨hredo, -⟩ := hc.openTop hne
            simp at hredo
          have htopped : OnTop um mount view unmatched "redo" client top t :=
            ⟨h, older, hc.redoAt⟩
          obtain ⟨h₁, older₁, hat₁⟩ := replayTransactions_onTop hum hgap
            hmount { ctx with
              opTag := ctx.guardTag optOpTag
              isOkayToHandleUpdateMessage := isOkayDuringUndoRedo } rfl hspares
              (by simp) hheld true (transactionsOf (um.startDBID top.2)
                (um.endDBID top.2)).reverse key htopped
          refine Execution.andThen_tree_of (I := fun tree =>
            StacksKept um mount view tree unmatched) h₁ ?_
          obtain ⟨undo₁, redo₁, hc₁⟩ := h₁.client client
          obtain rfl := hc₁.redoAt.unique hat₁
          rw [hzero] at hc₁
          refine moveSequence_kept hum (by decide) (by simp)
            (hliteral "undo" (by simp)) h₁ _ hat₁ hc₁.undoAt
            (fun e he => hc₁.what_redo he)
            (UInt32.toNat_inj.mp hc₁.counted) ?_
          intro t' others' hredo hundo hidle hothers
          rw [hzero]
          have hwf := hc₁.wellFormed
          rw [List.map_append] at hwf
          rcases hothers with rfl | ⟨name, rfl⟩
          · exact ⟨others', older₁, hundo, hredo, hc₁.sound, hc₁.holds,
              hwf.dropRedo, by rw [hidle]; rfl⟩
          · have hwhat : um.what top.2 = 0 := hc₁.what_redo (by simp)
            refine ⟨_, older₁, hundo, hredo, fun e he => ?_,
              fun e he hopen => ?_, ?_, by rw [hidle]; rfl⟩
            · rcases List.mem_append.mp he with he | he
              · exact hc₁.sound e he
              · obtain rfl := List.mem_singleton.mp he
                exact .inl hwhat
            · rcases List.mem_append.mp he with he | he
              · exact hc₁.holds e he hopen
              · obtain rfl := List.mem_singleton.mp he
                exact absurd hwhat hopen
            · rw [List.map_append]
              exact hwf.moveToUndo
        · exact h
  · rw [if_neg hmem]
    exact h

end UndoRedo

/-! ## Whole messages -/

section Messages

variable {ctx : CommandContext}

theorem tidied_kept (hum : um.Lawful) (hgap : view.Gapless)
    (hmount : mount.ForStacks um.toMuscle) (opTag : String) {e : Execution t}
    (h : StacksKept um mount view e.tree unmatched) :
    StacksKept um mount view
      (e.andThen (tidyUndoStack um mount view opTag)).tree unmatched :=
  Execution.andThen_tree_of (I := fun tree =>
    StacksKept um mount view tree unmatched) h
      (tidyUndoStack_spec hum hgap opTag hmount h).1

mutual

/-- **One message**, with the messages in it. -/
theorem seniorMessageTreeUpdateAux_kept (hum : um.Lawful)
    (hgap : view.Gapless) (hmount : mount.ForStacks um.toMuscle) :
    ∀ (msg : UndoStackMessage P) (t : MessageTree P)
      (unmatched : UndoKey → ℕ), StacksKept um mount view t unmatched →
      Allowed um mount ctx view msg t unmatched →
      StacksKept um mount view
        (seniorMessageTreeUpdateAux um mount ctx view msg t).tree
        (unmatchedAfter um mount ctx view msg t unmatched)
  | .batch _ subMsgs, t, unmatched, h, hallowed =>
      updateAll_kept hum hgap hmount subMsgs t unmatched h hallowed
  | .beginSequence key label, t, unmatched, h, hallowed => by
      obtain ⟨⟨client, hkey, hliteral⟩, hcount⟩ := hallowed
      rw [hkey] at hcount
      simp only [unmatchedAfter, hkey]
      exact beginSequence_kept hum hgap hmount hkey hliteral h hcount
  | .endSequence key label, t, unmatched, h, hallowed => by
      obtain ⟨client, hkey, hliteral⟩ := hallowed
      simp only [unmatchedAfter, hkey]
      exact endSequence_kept hum hmount hkey hliteral h
  | .undo key optOpTag, t, unmatched, h, hallowed => by
      obtain ⟨⟨client, hkey, hliteral⟩, hspares⟩ := hallowed
      exact undo_kept hum hgap hmount hkey hliteral hspares h
  | .redo key optOpTag, t, unmatched, h, hallowed => by
      obtain ⟨⟨client, hkey, hliteral⟩, hspares⟩ := hallowed
      exact redo_kept hum hgap hmount hkey hliteral hspares h
  | .tree _ msg, t, unmatched, h, hallowed =>
      treeUpdateAux_preserves (I := fun tree =>
        StacksKept um mount view tree unmatched)
        (fun t' subMsg hspares h' => h'.of_same
          (seniorCommand_sameStacks hum.local_ hmount (.inr hspares)))
        (fun t' h' => (tidyUndoStack_spec hum hgap ctx.opTag hmount h').1)
        msg t hallowed h
  | .messagePair .., _, _, h, _ => h
  | .archive .., _, _, h, _ => h

theorem updateAll_kept (hum : um.Lawful) (hgap : view.Gapless)
    (hmount : mount.ForStacks um.toMuscle) :
    ∀ (subMsgs : List (UndoStackMessage P)) (t : MessageTree P)
      (unmatched : UndoKey → ℕ), StacksKept um mount view t unmatched →
      Allowed.AllowedAll um mount ctx view subMsgs t unmatched →
      StacksKept um mount view
        (seniorMessageTreeUpdateAux.updateAll um mount ctx view subMsgs t).tree
        (unmatchedAfter.unmatchedAfterAll um mount ctx view subMsgs t unmatched)
  | [], _, _, h, _ => h
  | subMsg :: subMsgs, t, unmatched, h, hallowed => by
      obtain ⟨hfirst, hrest⟩ := hallowed
      have hmsg := tidied_kept hum hgap hmount ctx.opTag
        (seniorMessageTreeUpdateAux_kept hum hgap hmount subMsg t unmatched h
          hfirst)
      have heq : seniorMessageTreeUpdateAux.updateAll um mount ctx view
          (subMsg :: subMsgs) t =
            (seniorMessageTreeUpdate um mount ctx view subMsg t).andThen
              (seniorMessageTreeUpdateAux.updateAll um mount ctx view subMsgs)
          := rfl
      rw [heq]
      simp only [unmatchedAfter.unmatchedAfterAll]
      cases hok : (seniorMessageTreeUpdate um mount ctx view subMsg
          t).status.isOK with
      | false =>
          rw [Execution.andThen_of_not_isOK hok]
          exact hmsg
      | true =>
          rw [Execution.andThen_tree_of_isOK hok]
          exact updateAll_kept hum hgap hmount subMsgs _ _ hmsg (hrest hok)

end

/-- **An update** keeps the stacks, and leaves only what the log holds on them
if it succeeds. -/
theorem seniorMessageTreeUpdate_kept (hum : um.Lawful) (hgap : view.Gapless)
    (hmount : mount.ForStacks um.toMuscle) {msg : UndoStackMessage P}
    (h : StacksKept um mount view t unmatched)
    (hallowed : Allowed um mount ctx view msg t unmatched) :
    let e := seniorMessageTreeUpdate um mount ctx view msg t
    StacksKept um mount view e.tree
        (unmatchedAfter um mount ctx view msg t unmatched) ∧
      (e.status.isOK = true → ∀ client,
        AllHeld um mount view e.tree client) := by
  have haux :=
    seniorMessageTreeUpdateAux_kept hum hgap hmount msg t unmatched h hallowed
  refine ⟨tidied_kept hum hgap hmount ctx.opTag haux, fun hok => ?_⟩
  unfold seniorMessageTreeUpdate at hok ⊢
  cases hfirst : (seniorMessageTreeUpdateAux um mount ctx view msg
      t).status.isOK with
  | false =>
      rw [Execution.andThen_of_not_isOK hfirst, hfirst] at hok
      cases hok
  | true =>
      rw [Execution.andThen_tree_of_isOK hfirst]
      exact (tidyUndoStack_spec hum hgap ctx.opTag hmount haux).2.2

end Messages

end ZgChoir
