import ZgChoir.UndoHistories
import ZgChoir.UndoStackLaws

/-!
# The stacks of the clients

`StacksKept` is the invariant of an undo-stack database: below "undo" and
"redo", the nodes of each client make a well-formed history.  A change of one
client's node has no bearing on the other nodes, so it is enough to look at
that client (`StacksKept.of_changed`).

The clean-up after an update takes sequences off the bottom of the undo stacks.
What it leaves are sequences whose transactions are in the log
(`tidyUndoStack_spec`).
-/

namespace ZgChoir

open UndoRedo

variable {P : Type}

/-- The node "undo" or "redo". -/
def Mount.stackRoot (mount : Mount) (stack : String) : NodePath :=
  mount.root ++ [stack]

section Model

variable (um : UndoStackMuscle P) (mount : Mount) (view : LogView P)

/-- What a payload says of its sequence. -/
def UndoStackMuscle.sequenceOf (payload : P) : Sequence where
  first := um.startDBID payload
  last := if um.what payload = 0 then some (um.endDBID payload) else none

/-- A sequence that has ended, or one that has none of the fields that only an
end brings. -/
def UndoStackMuscle.Sound (payload : P) : Prop :=
  um.what payload = 0 ∨ um.what payload = 1 ∧
    um.findInt64 payload "eid" = none ∧ 0 < um.startDBID payload

/-- The log has the transaction that a sequence begins with. -/
def LogView.Holds (payload : P) : Prop :=
  view.updateLogContainsUpdate (um.startDBID payload) = true

/-- The log has the current transaction, and no gaps. -/
structure LogView.Gapless (view : LogView P) : Prop where
  current : view.updateLogContainsUpdate (view.currentDatabaseStateID + 1) =
    true
  gapless : ∀ {k n}, view.updateLogContainsUpdate k = true → k ≤ n →
    n ≤ view.currentDatabaseStateID + 1 →
      view.updateLogContainsUpdate n = true

/-- What a database asks of the place where it is mounted. -/
structure Mount.ForStacks (mount : Mount) (m : Muscle P) : Prop where
  root_ne : mount.root ≠ []
  plain : Literal m mount.root
  literal : ∀ stack ∈ ["undo", "redo"], Literal m (mount.stackRoot stack)
  matchesItself : ∀ stack ∈ ["undo", "redo"],
    m.segmentsMatch (mount.stackRoot stack) (mount.stackRoot stack) = true
  owns : ∀ q, mount.root <+: q → isNodeInThisDatabase m mount q = true

/-- The stacks of one client, who has begun `n` sequences that have not
ended. -/
structure ClientStacks (t : MessageTree P) (n : ℕ) (client : String)
    (undo redo : List (String × P)) : Prop where
  undoAt : StackAt t (mount.stackRoot "undo" ++ [client]) undo
  redoAt : StackAt t (mount.stackRoot "redo" ++ [client]) redo
  sound : ∀ e ∈ undo, um.Sound e.2
  holds : ∀ e ∈ undo, um.what e.2 ≠ 0 → view.Holds um e.2
  wellFormed : History.WellFormed (view.currentDatabaseStateID + 1)
    ⟨undo.map fun e => um.sequenceOf e.2,
      redo.map fun e => um.sequenceOf e.2, n⟩
  counted : (um.what (um.getData t
    (mount.stackRoot "undo" ++ [client]))).toNat = n

/-- **The invariant**: the stacks of every client. -/
structure StacksKept (t : MessageTree P) (unmatched : UndoKey → ℕ) :
    Prop where
  roots : ∀ stack ∈ ["undo", "redo"], mount.stackRoot stack ∈ t.nodes
  client : ∀ client, ∃ undo redo,
    ClientStacks um mount view t (unmatched [client]) client undo redo

end Model

/-! ## Changes of one client's node -/

section Frames

variable {um : UndoStackMuscle P} {mount : Mount} {view : LogView P}
  {t t' t'' : MessageTree P} {unmatched : UndoKey → ℕ}
  {stack stack' client client' name : String} {n : ℕ}
  {undo redo : List (String × P)} {q : NodePath} {payload : P}

/-- Nothing has changed but around the node of one client. -/
structure ClientChanged (mount : Mount) (stack client : String)
    (t t' : MessageTree P) : Prop where
  root : mount.stackRoot stack ∈ t.nodes → mount.stackRoot stack ∈ t'.nodes
  elsewhere : ∀ q, q ≠ mount.stackRoot stack →
    ¬ mount.stackRoot stack ++ [client] <+: q → t'.lookup q = t.lookup q

theorem ClientChanged.refl (t : MessageTree P) :
    ClientChanged mount stack client t t :=
  ⟨id, fun _ _ _ => rfl⟩

theorem ClientChanged.trans (h : ClientChanged mount stack client t t')
    (h' : ClientChanged mount stack client t' t'') :
    ClientChanged mount stack client t t'' :=
  ⟨fun hroot => h'.root (h.root hroot), fun q hne hq =>
    (h'.elsewhere q hne hq).trans (h.elsewhere q hne hq)⟩

/-- The nodes of different clients, and of the different stacks, are apart. -/
theorem stackRoot_apart (hne : stack' ≠ stack ∨ client' ≠ client)
    (hq : mount.stackRoot stack' ++ [client'] <+: q) :
    q ≠ mount.stackRoot stack ∧ ¬ mount.stackRoot stack ++ [client] <+: q := by
  constructor
  · rintro rfl
    have hlength := hq.length_le
    simp [Mount.stackRoot] at hlength
  · intro hq'
    have hlength : (mount.stackRoot stack ++ [client]).length =
        (mount.stackRoot stack' ++ [client']).length := by
      simp [Mount.stackRoot]
    have hpre := List.prefix_of_prefix_length_le hq' hq hlength.le
    have heq := hpre.eq_of_length hlength
    simp only [Mount.stackRoot, List.append_assoc, List.append_cancel_left_eq,
      List.cons_append, List.nil_append, List.cons.injEq, and_true] at heq
    rcases hne with hne | hne
    · exact hne heq.1.symm
    · exact hne heq.2.symm

theorem ClientChanged.lookup (h : ClientChanged mount stack client t t')
    (hne : stack' ≠ stack ∨ client' ≠ client)
    (hq : mount.stackRoot stack' ++ [client'] <+: q) :
    t'.lookup q = t.lookup q := by
  obtain ⟨hroot, hbelow⟩ := stackRoot_apart hne hq
  exact h.elsewhere q hroot hbelow

theorem ClientChanged.stackAt (h : ClientChanged mount stack client t t')
    (hne : stack' ≠ stack ∨ client' ≠ client) {entries : List (String × P)}
    (hstack : StackAt t (mount.stackRoot stack' ++ [client']) entries) :
    StackAt t' (mount.stackRoot stack' ++ [client']) entries :=
  hstack.congr (h.lookup hne (List.prefix_refl _))
    fun _ => h.lookup hne (List.prefix_append _ _)

theorem ClientChanged.getData (h : ClientChanged mount stack client t t')
    (hne : stack' ≠ stack ∨ client' ≠ client) :
    um.getData t' (mount.stackRoot stack' ++ [client']) =
      um.getData t (mount.stackRoot stack' ++ [client']) := by
  unfold UndoStackMuscle.getData
  rw [h.lookup hne (List.prefix_refl _)]

/-- Both "undo" and "redo" stay where they are. -/
theorem ClientChanged.roots (h : ClientChanged mount stack client t t')
    (hroots : ∀ stack ∈ ["undo", "redo"], mount.stackRoot stack ∈ t.nodes) :
    ∀ stack ∈ ["undo", "redo"], mount.stackRoot stack ∈ t'.nodes := by
  intro stack' hstack'
  by_cases hsame : stack' = stack
  · subst hsame
    exact h.root (hroots stack' hstack')
  · refine (MessageTree.mem_nodes_of_lookup_eq (h.elsewhere _ ?_ ?_)).mpr
      (hroots stack' hstack')
    · simpa [Mount.stackRoot] using hsame
    · intro hbelow
      simpa [Mount.stackRoot] using hbelow.length_le

/-- **One client at a time.** -/
theorem StacksKept.of_changed (h : StacksKept um mount view t unmatched)
    (hchanged : ClientChanged mount stack client t t')
    (hclient : ∃ undo redo, ClientStacks um mount view t' n client undo redo) :
    StacksKept um mount view t' (Function.update unmatched [client] n) where
  roots := hchanged.roots h.roots
  client client' := by
    by_cases hsame : client' = client
    · subst hsame
      rwa [Function.update_self]
    · rw [Function.update_of_ne (by simpa using hsame)]
      obtain ⟨undo, redo, hc⟩ := h.client client'
      have hne : ∀ stack' : String, stack' ≠ stack ∨ client' ≠ client :=
        fun _ => .inr hsame
      refine ⟨undo, redo, hchanged.stackAt (hne "undo") hc.undoAt,
        hchanged.stackAt (hne "redo") hc.redoAt, hc.sound, hc.holds,
        hc.wellFormed, ?_⟩
      rw [hchanged.getData (hne "undo")]
      exact hc.counted

/-- The same, where the count stays what it is. -/
theorem StacksKept.of_changed_same (h : StacksKept um mount view t unmatched)
    (hchanged : ClientChanged mount stack client t t')
    (hclient : ∃ undo redo,
      ClientStacks um mount view t' (unmatched [client]) client undo redo) :
    StacksKept um mount view t' unmatched := by
  have hkept := h.of_changed hchanged hclient
  rwa [Function.update_eq_self] at hkept

/-- Nothing has changed at "undo" and "redo" and below. -/
def SameStacks (mount : Mount) (t t' : MessageTree P) : Prop :=
  ∀ stack ∈ ["undo", "redo"], ∀ q, mount.stackRoot stack <+: q →
    t'.lookup q = t.lookup q

theorem SameStacks.stackAt (h : SameStacks mount t t')
    (hstack : stack ∈ ["undo", "redo"]) {entries : List (String × P)}
    (hat : StackAt t (mount.stackRoot stack ++ [client]) entries) :
    StackAt t' (mount.stackRoot stack ++ [client]) entries :=
  hat.congr (h stack hstack _ (List.prefix_append _ _)) fun name => by
    rw [List.append_assoc]
    exact h stack hstack _ (List.prefix_append _ _)

theorem StacksKept.of_same (h : StacksKept um mount view t unmatched)
    (hsame : SameStacks mount t t') :
    StacksKept um mount view t' unmatched where
  roots stack hstack := (MessageTree.mem_nodes_of_lookup_eq
    (hsame stack hstack _ (List.prefix_refl _))).mpr (h.roots stack hstack)
  client client := by
    obtain ⟨undo, redo, hc⟩ := h.client client
    refine ⟨undo, redo, hsame.stackAt (by simp) hc.undoAt,
      hsame.stackAt (by simp) hc.redoAt, hc.sound, hc.holds, hc.wellFormed, ?_⟩
    have hdata : um.getData t' (mount.stackRoot "undo" ++ [client]) =
        um.getData t (mount.stackRoot "undo" ++ [client]) := by
      unfold UndoStackMuscle.getData
      rw [hsame "undo" (by simp) _ (List.prefix_append _ _)]
    rw [hdata]
    exact hc.counted

/-! ### What MUSCLE's methods change -/

variable {path : NodePath}

theorem SetAt.clientChanged (h : SetAt t t' path payload)
    (hpath : mount.stackRoot stack ++ [client] <+: path) :
    ClientChanged mount stack client t t' where
  root := (MessageTree.mem_nodes_of_lookup_eq (h.elsewhere _ fun heq => by
    rw [← heq] at hpath
    simpa using hpath.length_le)).mpr
  elsewhere q _ hq := h.elsewhere q fun heq => hq (heq ▸ hpath)

theorem RemovedAt.clientChanged
    (h : RemovedAt t t' (mount.stackRoot stack ++ [client]) name) :
    ClientChanged mount stack client t t' where
  root := (MessageTree.mem_nodes_of_lookup_eq (h.elsewhere _ (by simp)
    fun hbelow => by simpa using hbelow.length_le)).mpr
  elsewhere q _ hq := h.elsewhere q
    (fun heq => hq (heq ▸ List.prefix_refl q))
    fun hbelow => hq ((List.prefix_append _ _).trans hbelow)

theorem RemovedAt.clientChanged_node
    (h : RemovedAt t t' (mount.stackRoot stack) client) :
    ClientChanged mount stack client t t' where
  root hmem := by
    obtain ⟨dn, hdn⟩ := MessageTree.mem_nodes_iff.mp hmem
    have hhere := h.here
    rw [hdn] at hhere
    exact MessageTree.mem_nodes_iff.mpr ⟨_, hhere⟩
  elsewhere := h.elsewhere

theorem Demanded.clientChanged
    (h : Demanded um t t' (mount.stackRoot stack ++ [client])) :
    ClientChanged mount stack client t t' where
  root := (MessageTree.mem_nodes_of_lookup_eq (h.elsewhere _ (by simp))).mpr
  elsewhere q _ hq := h.elsewhere q fun heq => hq (heq ▸ List.prefix_refl q)

theorem Pushed.clientChanged
    (h : Pushed t t' (mount.stackRoot stack ++ [client]) payload) :
    ClientChanged mount stack client t t' where
  root := (MessageTree.mem_nodes_of_lookup_eq
    (h.elsewhere fun hbelow => by simpa using hbelow.length_le)).mpr
  elsewhere _ _ hq := h.elsewhere hq

theorem Popped.clientChanged {entries : List (String × P)}
    (h : Popped um t t' (mount.stackRoot stack) client entries) :
    ClientChanged mount stack client t t' where
  root _ := h.parent
  elsewhere := h.elsewhere

end Frames

/-! ## The clean-up -/

section Tidy

variable {um : UndoStackMuscle P} {mount : Mount} {view : LogView P}
  {t t' t'' : MessageTree P} {unmatched : UndoKey → ℕ}
  {client : String} {n : ℕ} {undo redo entries : List (String × P)}

/-- **The oldest sequences go**, up to one that the log still holds. -/
theorem removeObsoleteSequences_spec (hum : um.Lawful) (hgap : view.Gapless)
    (mount : Mount) (opTag : String) {fuel : ℕ} (hfuel : entries.length ≤ fuel)
    (hstack : StackAt t (mount.stackRoot "undo" ++ [client]) entries) :
    let e := removeObsoleteSequences um view opTag
      (mount.stackRoot "undo" ++ [client]) fuel t
    (∃ dropped kept, entries = dropped ++ kept ∧
      StackAt e.tree (mount.stackRoot "undo" ++ [client]) kept ∧
      (∀ d ∈ dropped, ¬ view.Holds um d.2) ∧
      ∀ k ∈ kept.head?, view.Holds um k.2) ∧
    ClientChanged mount "undo" client t e.tree ∧
    um.getData e.tree (mount.stackRoot "undo" ++ [client]) =
      um.getData t (mount.stackRoot "undo" ++ [client]) := by
  induction fuel generalizing t entries with
  | zero =>
      obtain rfl := List.length_eq_zero_iff.mp (Nat.le_zero.mp hfuel)
      exact ⟨⟨[], [], rfl, hstack, by simp, by simp⟩, .refl t, rfl⟩
  | succ fuel ih =>
      cases entries with
      | nil =>
          have hnothing : removeObsoleteSequences um view opTag
              (mount.stackRoot "undo" ++ [client]) (fuel + 1) t =
                .nothing t .noError := by
            unfold removeObsoleteSequences
            rw [hstack.index]
            rfl
          rw [hnothing]
          exact ⟨⟨[], [], rfl, hstack, by simp, by simp⟩, .refl t, rfl⟩
      | cons oldest entries =>
          have holdest : oldest ∈ oldest :: entries := List.mem_cons_self
          obtain ⟨dn, hdn, hpayload⟩ := hstack.payload oldest holdest
          have hdata : um.getData t (mount.stackRoot "undo" ++ [client] ++
              [oldest.1]) = oldest.2 := by
            rw [UndoStackMuscle.getData, hdn]
            exact hpayload
          unfold removeObsoleteSequences
          rw [hstack.index]
          simp only [List.map_cons, hdata]
          split
          · next hobsolete =>
            obtain ⟨-, hgone⟩ :=
              hum.removeChild t (hstack.mem_child holdest)
            have hremoved : RemovedAt t (Execution.ofOutcome (um.removeChild t
                (mount.stackRoot "undo" ++ [client]) oldest.1) false false
                  opTag).tree (mount.stackRoot "undo" ++ [client])
                    oldest.1 := by
              rw [Execution.ofOutcome_tree]
              exact hgone
            have hrest : StackAt _ _ ([] ++ entries) :=
              StackAt.remove hstack hremoved
            obtain ⟨⟨dropped, kept, rfl, hkept, hnot, hheld⟩, hchanged,
              hsame⟩ := ih (by simpa using hfuel) hrest
            rw [Execution.followedBy_tree]
            refine ⟨⟨oldest :: dropped, kept, rfl, hkept, ?_, hheld⟩,
              hremoved.clientChanged.trans hchanged, hsame.trans ?_⟩
            · intro d hd
              rcases List.mem_cons.mp hd with rfl | hd
              · simp [LogView.Holds, hobsolete.2]
              · exact hnot d hd
            · unfold UndoStackMuscle.getData
              rw [hremoved.here]
              cases t.lookup (mount.stackRoot "undo" ++ [client]) <;> rfl
          · next hrecent =>
            refine ⟨⟨[], oldest :: entries, rfl, hstack, by simp, ?_⟩, .refl t,
              rfl⟩
            intro k hk
            obtain rfl : oldest = k := by simpa using hk
            by_contra hnot
            refine hrecent ⟨fun heq => hnot ?_, Bool.of_not_eq_true hnot⟩
            rw [LogView.Holds, heq]
            exact hgap.current

/-- Some of the oldest sequences are gone, none of which the log holds. -/
def Dropped (um : UndoStackMuscle P) (view : LogView P)
    (entries kept : List (String × P)) : Prop :=
  ∃ dropped, entries = dropped ++ kept ∧ ∀ d ∈ dropped, ¬ view.Holds um d.2

theorem Dropped.refl : Dropped um view entries entries :=
  ⟨[], rfl, by simp⟩

theorem Dropped.trans {kept kept' : List (String × P)}
    (h : Dropped um view entries kept) (h' : Dropped um view kept kept') :
    Dropped um view entries kept' := by
  obtain ⟨dropped, rfl, hnot⟩ := h
  obtain ⟨dropped', rfl, hnot'⟩ := h'
  refine ⟨dropped ++ dropped', by simp, fun d hd => ?_⟩
  rcases List.mem_append.mp hd with hd | hd
  · exact hnot d hd
  · exact hnot' d hd

/-- A sequence on top that the log holds stays there. -/
theorem Dropped.top {top : String × P} {kept : List (String × P)}
    (h : Dropped um view (entries ++ [top]) kept)
    (hheld : view.Holds um top.2) : ∃ rest, kept = rest ++ [top] := by
  obtain ⟨dropped, heq, hnot⟩ := h
  cases hkept : kept.getLast? with
  | some last =>
      obtain ⟨rest, rfl⟩ := List.getLast?_eq_some_iff.mp hkept
      rw [← List.append_assoc] at heq
      obtain ⟨-, hlast⟩ := List.append_inj' heq rfl
      obtain rfl : top = last := by simpa using hlast
      exact ⟨rest, rfl⟩
  | none =>
      obtain rfl := List.getLast?_eq_none_iff.mp hkept
      rw [List.append_nil] at heq
      exact absurd hheld (hnot top (heq ▸ by simp))

/-- The clean-up of one client. -/
theorem tidyClient_spec (hum : um.Lawful) (hgap : view.Gapless)
    (opTag : String) (h : ClientStacks um mount view t n client undo redo) :
    let e := tidyClient um view opTag (mount.stackRoot "undo") client t
    ∃ kept, Dropped um view undo kept ∧
      ClientStacks um mount view e.tree n client kept redo ∧
      (∀ k ∈ kept, view.Holds um k.2) ∧
      ClientChanged mount "undo" client t e.tree := by
  have hfuel : undo.length ≤
      (t.indexOf (mount.stackRoot "undo" ++ [client])).length := by
    rw [h.undoAt.index, List.length_map]
  obtain ⟨⟨dropped, kept, rfl, hkept, hnot, hhead⟩, hchanged, hsame⟩ :=
    removeObsoleteSequences_spec hum hgap mount opTag hfuel h.undoAt
  -- what goes has ended, since the log holds every open sequence
  have hended : ∀ q ∈ dropped.map fun e => um.sequenceOf e.2,
      q.last ≠ none := by
    intro q hq
    obtain ⟨d, hd, rfl⟩ := List.mem_map.mp hq
    by_contra hopen
    refine hnot d hd (h.holds d (by simp [hd]) fun hwhat => ?_)
    simp [UndoStackMuscle.sequenceOf, hwhat] at hopen
  have hwf : History.WellFormed (view.currentDatabaseStateID + 1)
      ⟨kept.map fun e => um.sequenceOf e.2,
        redo.map fun e => um.sequenceOf e.2, n⟩ := by
    have hwf := h.wellFormed
    rw [List.map_append] at hwf
    exact hwf.forgetAll hended
  have hheld : ∀ k ∈ kept, view.Holds um k.2 := by
    have hall := hwf.onRecord hgap.gapless (by
      intro q hq
      rw [List.head?_map] at hq
      obtain ⟨k, hk, rfl⟩ := Option.mem_map.mp hq
      exact hhead k hk)
    exact fun k hk => hall _ (List.mem_map_of_mem hk)
  refine ⟨kept, ⟨dropped, rfl, hnot⟩, ?_⟩
  unfold tidyClient
  simp only [Execution.followedBy_tree]
  generalize removeObsoleteSequences um view opTag
    (mount.stackRoot "undo" ++ [client]) _ t = e at hkept hchanged hsame
  have hstacks : ClientStacks um mount view e.tree n client kept redo := by
    refine ⟨hkept, hchanged.stackAt (.inl (by decide)) h.redoAt,
      fun k hk => h.sound k (by simp [hk]),
      fun k hk _ => hheld k hk, hwf, ?_⟩
    rw [hsame]
    exact h.counted
  split
  · next hempty =>
    rw [hkept.index] at hempty
    obtain rfl := List.map_eq_nil_iff.mp hempty
    have hzero : n = 0 := by
      by_contra hne
      obtain ⟨-, older, current, heq, -⟩ := hwf.busy hne
      simp at heq
    subst hzero
    simp only [Execution.ofOutcome_tree]
    by_cases hmem : mount.stackRoot "undo" ++ [client] ∈ e.tree.nodes
    · obtain ⟨-, hgone⟩ := hum.removeChild e.tree hmem
      have hnone := hgone.below _ (List.prefix_refl _)
      refine ⟨⟨stackAt_nil hnone, hgone.clientChanged_node.stackAt
        (.inl (by decide)) hstacks.redoAt, hstacks.sound, hstacks.holds, hwf,
        ?_⟩, hheld, hchanged.trans hgone.clientChanged_node⟩
      rw [UndoStackMuscle.getData, hnone]
      simp [hum.what_emptyMessage]
    · rw [hum.removeChild_absent e.tree hmem]
      exact ⟨hstacks, hheld, hchanged⟩
  · exact ⟨hstacks, hheld, hchanged⟩

/-- What the clean-up does to the stacks. -/
structure Tidied (um : UndoStackMuscle P) (mount : Mount) (view : LogView P)
    (t t' : MessageTree P) : Prop where
  undo : ∀ client entries,
    StackAt t (mount.stackRoot "undo" ++ [client]) entries →
      ∃ kept, Dropped um view entries kept ∧
        StackAt t' (mount.stackRoot "undo" ++ [client]) kept
  redo : ∀ client entries,
    StackAt t (mount.stackRoot "redo" ++ [client]) entries →
      StackAt t' (mount.stackRoot "redo" ++ [client]) entries

/-- The log holds what is on a client's undo stack. -/
def AllHeld (um : UndoStackMuscle P) (mount : Mount) (view : LogView P)
    (t : MessageTree P) (client : String) : Prop :=
  ∀ entries, StackAt t (mount.stackRoot "undo" ++ [client]) entries →
    ∀ e ∈ entries, view.Holds um e.2

/-- The clean-up of one client after another. -/
theorem tidyClients_spec (hum : um.Lawful) (hgap : view.Gapless)
    (opTag : String) (clients : List String)
    (h : StacksKept um mount view t unmatched) :
    let e := tidyClients um view opTag (mount.stackRoot "undo") clients t
    StacksKept um mount view e.tree unmatched ∧
      Tidied um mount view t e.tree ∧
      ∀ client, client ∈ clients ∨ AllHeld um mount view t client →
        AllHeld um mount view e.tree client := by
  induction clients generalizing t with
  | nil =>
      refine ⟨h, ⟨fun _ entries hat => ⟨entries, .refl, hat⟩,
        fun _ _ hat => hat⟩, fun client hclient => ?_⟩
      exact hclient.resolve_left List.not_mem_nil
  | cons client clients ih =>
      obtain ⟨undo, redo, hclient⟩ := h.client client
      obtain ⟨kept, hdropped, hstacks, hheld, hchanged⟩ :=
        tidyClient_spec hum hgap opTag hclient
      unfold tidyClients
      simp only [Execution.followedBy_tree]
      generalize tidyClient um view opTag (mount.stackRoot "undo") client t = e
        at hstacks hchanged
      have hkept := h.of_changed_same hchanged ⟨kept, redo, hstacks⟩
      obtain ⟨hfinal, htidied, hall⟩ := ih hkept
      refine ⟨hfinal, ⟨fun client' entries hat => ?_,
        fun client' entries hat => ?_⟩, fun client' hor => hall client' ?_⟩
      · by_cases hsame : client' = client
        · subst hsame
          obtain rfl := hat.unique hclient.undoAt
          obtain ⟨kept', hdropped', hat'⟩ := htidied.undo _ _ hstacks.undoAt
          exact ⟨kept', hdropped.trans hdropped', hat'⟩
        · exact htidied.undo _ _ (hchanged.stackAt (.inr hsame) hat)
      · exact htidied.redo _ _ (hchanged.stackAt (.inl (by decide)) hat)
      · by_cases hsame : client' = client
        · subst hsame
          right
          intro entries hat
          obtain rfl := hat.unique hstacks.undoAt
          exact hheld
        · rcases hor with hmem | hheld'
          · exact .inl ((List.mem_cons.mp hmem).resolve_left hsame)
          · right
            intro entries hat
            obtain ⟨undo', redo', hclient'⟩ := h.client client'
            obtain rfl := hat.unique
              (hchanged.stackAt (.inr hsame) hclient'.undoAt)
            exact hheld' entries hclient'.undoAt

/-- **The clean-up after an update.** -/
theorem tidyUndoStack_spec (hum : um.Lawful) (hgap : view.Gapless)
    (opTag : String) (hmount : mount.ForStacks um.toMuscle)
    (h : StacksKept um mount view t unmatched) :
    let e := tidyUndoStack um mount view opTag t
    StacksKept um mount view e.tree unmatched ∧
      Tidied um mount view t e.tree ∧
      ∀ client, AllHeld um mount view e.tree client := by
  have hroot : mount.rootPathWithSlash ++ ["undo"] =
      mount.stackRoot "undo" := by
    rw [Mount.rootPathWithSlash, if_neg hmount.root_ne]
    rfl
  have hfound : um.getDataNode t (mount.stackRoot "undo") =
      some (mount.stackRoot "undo") := by
    rw [hum.lawful.getDataNode t (hmount.literal "undo" (by simp)),
      if_pos (h.roots "undo" (by simp))]
  unfold tidyUndoStack
  rw [hroot, hfound]
  simp only [Execution.withStatus_tree]
  obtain ⟨hkept, htidied, hall⟩ := tidyClients_spec hum hgap opTag
    (um.getChildIterator t (mount.stackRoot "undo")) h
  refine ⟨hkept, htidied, fun client => hall client ?_⟩
  by_cases hmem : mount.stackRoot "undo" ++ [client] ∈ t.nodes
  · exact .inl ((hum.mem_getChildIterator t _ client).mpr hmem)
  · right
    intro entries hat e he
    exact absurd (hat.mem_node he) hmem

end Tidy

end ZgChoir
