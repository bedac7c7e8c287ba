import ZgChoir.CallbackBalance

/-!
# Calls that return, and subscribers that move

What goes on when a subscriber's code returns keeps the balance, and so does a
subscriber that changes gateways: on its way there it owes nothing to anyone
any more, and where it arrives nothing is owed to it.
-/

namespace ZgChoir.CallbackBatches

variable {γ σ : Type} [DecidableEq γ] [DecidableEq σ]

section Parts

variable {kind : γ → GatewayKind} {phase phase' : γ → Side → Phase σ}
  {needs needs' : γ → List σ} {gatewayOf gatewayOf' : σ → Option γ}
  {stack : List (Frame γ σ)} {frame : Frame γ σ} {g : γ} {side : Side} {s : σ}

omit [DecidableEq γ] [DecidableEq σ] in
theorem mem_endings (hframe : frame ∈ stack) (hs : endingOf frame = some s) :
    s ∈ endings stack :=
  List.mem_filterMap.mpr ⟨frame, hframe, hs⟩

omit [DecidableEq γ] in
/-- What is owed depends on where the subscriber is and stands there. -/
theorem endsOwed_congr (hgateway : gatewayOf' s = gatewayOf s)
    (hphase : ∀ g side, (phase' g side).owed s = (phase g side).owed s)
    (hneeds : ∀ g, s ∈ needs' g ↔ s ∈ needs g) :
    endsOwed kind gatewayOf' phase' needs' s =
      endsOwed kind gatewayOf phase needs s := by
  unfold endsOwed
  rw [hgateway]
  cases gatewayOf s with
  | none => rfl
  | some g =>
      cases hkind : kind g with
      | proxy => simp only [hkind, hphase]
      | mux => simp only [hkind, hneeds]

omit [DecidableEq γ] in
theorem owed_without {s' : σ} (h : s' ≠ s) (p : Phase σ) :
    (p.without s).owed s' = p.owed s' := by
  cases p with
  | ending current rest =>
      by_cases hcurrent : current = some s
      · subst hcurrent
        simp [Phase.without, Phase.owed, h, Ne.symm h]
      · simp [Phase.without, Phase.owed, h, hcurrent]
  | _ => simp [Phase.without, Phase.owed, h]

omit [DecidableEq γ] in
theorem owed_with {s' : σ} (h : s' ≠ s) (p : Phase σ) :
    (p.with s).owed s' = p.owed s' := by
  cases p <;> simp [Phase.with, Phase.owed, h]

omit [DecidableEq γ] in
theorem within_without {subs : List σ} {p : Phase σ} (h : p.Within subs) :
    (p.without s).Within (subs.filter fun a => decide (a ≠ s)) := by
  have hfilter : ∀ rest : List σ, rest ⊆ subs →
      (rest.filter fun a => decide (a ≠ s)) ⊆
        subs.filter fun a => decide (a ≠ s) := by
    intro rest hsub a ha
    rw [List.mem_filter] at ha ⊢
    exact ⟨hsub ha.1, ha.2⟩
  cases p with
  | beginning rest => exact ⟨h.1.filter _, hfilter rest h.2⟩
  | ending current rest =>
      refine ⟨h.1.filter _, hfilter rest h.2.1, ?_⟩
      intro s' hcurrent hs'
      refine h.2.2 s' ?_ (List.mem_of_mem_filter hs')
      grind
  | _ => trivial

omit [DecidableEq γ] [DecidableEq σ] in
/-- A loop of begins reaches a new subscriber. -/
theorem within_beginning_append {subs rest : List σ}
    (h : (Phase.beginning rest).Within subs) (hnew : s ∉ subs) :
    (Phase.beginning (rest ++ [s])).Within (subs ++ [s]) := by
  obtain ⟨hnodup, hsub⟩ := h
  constructor
  · rw [List.nodup_append]
    refine ⟨hnodup, List.nodup_singleton s, ?_⟩
    intro a ha b hb hab
    obtain rfl := List.mem_singleton.mp hb
    exact hnew (hsub (hab ▸ ha))
  · intro a ha
    rcases List.mem_append.mp ha with ha | ha
    · exact List.mem_append_left [s] (hsub ha)
    · exact List.mem_append_right subs ha

omit [DecidableEq γ] in
theorem without_eq_idle_iff {p : Phase σ} :
    p.without s = .idle ↔ p = .idle := by
  cases p <;> simp [Phase.without]

omit [DecidableEq γ] [DecidableEq σ] in
theorem with_eq_idle_iff {p : Phase σ} : p.with s = .idle ↔ p = .idle := by
  cases p <;> simp [Phase.with]

omit [DecidableEq γ] [DecidableEq σ] in
/-- A loop that is at a call is under way. -/
theorem Stacked.not_mem_loops (h : Stacked kind phase needs gatewayOf stack)
    (hphase : phase g side = .idle ∨ phase g side = .underWay) :
    (g, side) ∉ loops stack := by
  intro hmem
  obtain ⟨frame, hframe, hloop⟩ := List.mem_filterMap.mp hmem
  have hmatches := h.frames frame hframe
  cases frame with
  | begins g' side' s =>
      obtain ⟨rfl, rfl⟩ := Prod.mk.inj (Option.some.inj hloop)
      obtain ⟨-, rest, hbeginning⟩ := hmatches
      simp [hbeginning] at hphase
  | ends g' side' s =>
      obtain ⟨rfl, rfl⟩ := Prod.mk.inj (Option.some.inj hloop)
      obtain ⟨-, -, rest, hends⟩ := hmatches
      simp [hends] at hphase
  | drains g' side' s =>
      obtain ⟨rfl, rfl⟩ := Prod.mk.inj (Option.some.inj hloop)
      simp [hmatches.2.1] at hphase
  | _ => simp [loopOf] at hloop

omit [DecidableEq σ] in
/-- The subscriber that a mux is at stays the first of those to come. -/
theorem Stacked.setNeeds {subs : List σ}
    (h : Stacked kind phase needs gatewayOf stack)
    (hhead : ∀ s rest, needs g = s :: rest → s ∈ endings stack →
      ∃ rest', subs = s :: rest') :
    Stacked kind phase (Function.update needs g subs) gatewayOf stack := by
  refine ⟨?_, h.loops_nodup, h.endings_nodup, h.settled⟩
  intro frame hframe
  have hmatches := h.frames frame hframe
  cases frame with
  | drains g' side' s' =>
      obtain ⟨hkind, hphase, rest, hneeds⟩ := hmatches
      refine ⟨hkind, hphase, ?_⟩
      by_cases hg : g' = g
      · subst hg
        rw [Function.update_self]
        exact hhead s' rest hneeds (mem_endings hframe rfl)
      · rw [Function.update_of_ne hg]
        exact ⟨rest, hneeds⟩
  | _ => exact hmatches

omit [DecidableEq σ] in
theorem Tables.setNeeds {counter : γ → Side → ℕ} {registered : γ → List σ}
    {subs : List σ} (h : Tables kind counter phase registered needs gatewayOf)
    (hnodup : subs.Nodup) (hsub : subs ⊆ registered g)
    (hidle : kind g = .mux → counter g .subscriber = 0 → subs = []) :
    Tables kind counter phase registered (Function.update needs g subs)
      gatewayOf := by
  refine ⟨h.registered_iff, h.registered_nodup, h.within, h.counter_iff, ?_, ?_,
    ?_⟩
  · intro g'
    by_cases hg : g' = g
    · subst hg
      rwa [Function.update_self]
    · rw [Function.update_of_ne hg]
      exact h.needs_nodup g'
  · intro g'
    by_cases hg : g' = g
    · subst hg
      rwa [Function.update_self]
    · rw [Function.update_of_ne hg]
      exact h.needs_registered g'
  · intro g' hmux hzero
    by_cases hg : g' = g
    · subst hg
      rw [Function.update_self]
      exact hidle hmux hzero
    · rw [Function.update_of_ne hg]
      exact h.needs_idle g' hmux hzero

omit [DecidableEq γ] in
theorem Settled.update {optGateway : Option γ} (h : Settled gatewayOf stack)
    (hending : s ∉ endings stack) :
    Settled (Function.update gatewayOf s optGateway) stack := by
  induction stack with
  | nil => trivial
  | cons frame stack ih =>
      have hrest : s ∉ endings stack := fun hmem => hending
        (((List.sublist_cons_self frame stack).filterMap endingOf).subset hmem)
      refine ⟨?_, ih h.2 hrest⟩
      intro loop hloop s' hs'
      by_cases hs : s' = s
      · exact hs ▸ hrest
      · rw [Function.update_of_ne hs] at hs'
        exact h.1 loop hloop s' hs'

end Parts

section Returns

variable {kind : γ → GatewayKind} {st : BatchState γ σ} {g : γ} {side : Side}
  {s : σ} {rest : List σ} {stack : List (Frame γ σ)} {frame : Frame γ σ}

omit [DecidableEq γ] in
/-- A call that is no `CallbackBatchEnds` returns. -/
theorem Balancing.pop (h : Balancing kind st)
    (hstack : st.stack = frame :: stack) (hframe : endingOf frame = none) :
    Balancing kind { st with stack := stack } := by
  obtain ⟨hcounted, howed, htables, hstacked⟩ := h
  rw [hstack] at hstacked
  refine ⟨?_, ?_, htables, hstacked.pop.1⟩
  · intro s
    have := hcounted s
    simp only [hstack, endings_cons hframe] at this
    exact this
  · intro s hleaving
    apply howed s
    rw [hstack, leavings_cons (leavingOf_of_endingOf hframe)]
    exact hleaving

omit [DecidableEq γ] in
/-- The calls and the counts when a `CallbackBatchEnds` has returned. -/
theorem Balancing.counted_returned (h : Balancing kind st)
    (hstack : st.stack = frame :: stack) (hframe : endingOf frame = some s)
    (s' : σ) :
    Counted (st.received s')
      (Function.update st.callbackBatchCounter s
        (st.callbackBatchCounter s - 1) s') (s' ∈ endings stack) := by
  have hcounted := h.counted s'
  have hstacked := h.stacked
  rw [hstack] at hstacked
  have hendings : endings st.stack = s :: endings stack := by
    rw [hstack]
    exact List.filterMap_cons_some hframe
  by_cases hs : s' = s
  · subst hs
    rw [Function.update_self]
    refine hcounted.returned ?_ (hstacked.pop.2.2.2 s' hframe)
    rw [hendings]
    exact List.mem_cons_self
  · rw [Function.update_of_ne hs]
    simpa [hendings, hs] using hcounted

/-- A proxy goes on after a subscriber's `CallbackBatchEnds`. -/
theorem Balancing.endsReturned (h : Balancing kind st)
    (hstack : st.stack = .ends g side s :: stack)
    (hphase : st.phase g side = .ending (some s) rest) :
    Balancing kind ((({ st with stack := stack } : BatchState γ σ).decrement
      s).setPhase g side (.ending none rest)) := by
  have hstacked := h.stacked
  rw [hstack] at hstacked
  obtain ⟨hpopped, ⟨hkind, hgateway, -⟩, hloop, -⟩ := hstacked.pop
  have hwithin := h.tables.within g side hkind
  rw [hphase] at hwithin
  obtain ⟨hnodup, hsub, hnew⟩ := hwithin
  refine ⟨h.counted_returned hstack rfl, ?_, ?_, ?_⟩
  · intro s' hleaving
    have howed : st.callbackBatchCounter s' = _ := h.owed s' (by
      rw [hstack, leavings_cons rfl]
      exact hleaving)
    by_cases hs : s' = s
    · subst hs
      have hless := owed_setAt st.phase st.needsCallbackBatchEndsCall side
        (.ending none rest) hgateway hkind
      simp only [hphase, Phase.owed, true_or, if_true, hnew s' rfl,
        reduceCtorEq, or_self, if_false] at hless
      simp only [BatchState.setPhase, BatchState.decrement,
        Function.update_self]
      omega
    · simp only [BatchState.setPhase, BatchState.decrement,
        Function.update_of_ne hs]
      rw [howed, owed_setAt_of_eq]
      intro _ _
      simp [hphase, Phase.owed, Ne.symm hs]
  · apply h.tables.setAt
    · exact fun _ => ⟨hnodup, hsub, by simp⟩
    · have hcounter := h.tables.counter_iff g side
      simpa [hphase] using hcounter
  · exact hpopped.setAt (hloop (g, side) rfl).1

/-- A mux goes on after a subscriber's `CallbackBatchEnds`. -/
theorem Balancing.drainsReturned (h : Balancing kind st)
    (hstack : st.stack = .drains g side s :: stack)
    (hneeds : st.needsCallbackBatchEndsCall g = s :: rest) :
    Balancing kind ((({ st with stack := stack } : BatchState γ σ).decrement
      s).setNeeds g rest) := by
  have hstacked := h.stacked
  rw [hstack] at hstacked
  obtain ⟨hpopped, ⟨hkind, -, -⟩, -, hending⟩ := hstacked.pop
  have hcons := h.tables.needs_nodup g
  have hsub := h.tables.needs_registered g
  rw [hneeds] at hcons hsub
  rw [List.nodup_cons] at hcons
  have hgateway : st.gatewayOf s = some g :=
    (h.tables.registered_iff g s).mp (hsub List.mem_cons_self)
  refine ⟨h.counted_returned hstack rfl, ?_, ?_, ?_⟩
  · intro s' hleaving
    have howed : st.callbackBatchCounter s' = _ := h.owed s' (by
      rw [hstack, leavings_cons rfl]
      exact hleaving)
    by_cases hs : s' = s
    · subst hs
      simp only [BatchState.setNeeds, BatchState.decrement,
        Function.update_self, endsOwed, hgateway, hkind, hcons.1, if_false]
      simp only [endsOwed, hgateway, hkind, hneeds, List.mem_cons_self,
        if_true] at howed
      omega
    · simp only [BatchState.setNeeds, BatchState.decrement,
        Function.update_of_ne hs]
      rw [howed]
      refine (endsOwed_congr rfl (fun _ _ => rfl) fun g' => ?_).symm
      by_cases hg : g' = g
      · subst hg
        simp [hneeds, hs]
      · rw [Function.update_of_ne hg]
  · apply h.tables.setNeeds hcons.2
    · exact fun a ha => hsub (List.mem_cons_of_mem s ha)
    · intro hmux hzero
      have := h.tables.needs_idle g hmux hzero
      simp [hneeds] at this
  · apply hpopped.setNeeds
    intro s' rest' hhead hmem
    rw [hneeds] at hhead
    exact absurd ((List.cons.inj hhead).1 ▸ hmem) (hending s rfl)

/-- The loop in which a mux tells of the end. -/
theorem Balancing.callbackBatchEndsMux {subs : List σ} (h : Balancing kind st)
    (hkind : kind g = .mux) (hphase : st.phase g side = .draining)
    (hneeds : st.needsCallbackBatchEndsCall g = subs)
    (hcounter : st.counter g side = 1) (hfree : (g, side) ∉ loops st.stack)
    (hquiet : ∀ s, st.gatewayOf s = some g → s ∉ endings st.stack) :
    Balancing kind (callbackBatchEndsMux g side subs st) := by
  cases subs with
  | nil =>
      apply h.batchEnded hfree hcounter
      · simp [hkind]
      · exact fun _ => hneeds
  | cons s rest =>
      have hmem : s ∈ st.needsCallbackBatchEndsCall g := by
        rw [hneeds]
        exact List.mem_cons_self
      have hgateway : st.gatewayOf s = some g :=
        (h.tables.registered_iff g s).mp (h.tables.needs_registered g hmem)
      -- whoever waits for the end has been told of one begin
      have hcount : st.callbackBatchCounter s = 1 := by
        rw [h.owed s (by simp [hgateway, hkind])]
        simp [endsOwed, hgateway, hkind, hmem]
      rw [CallbackBatches.callbackBatchEndsMux]
      simp only [hcount, if_true]
      refine h.pushEnding ⟨hkind, hphase, rest, hneeds⟩ ?_ rfl
        (hquiet s hgateway) hcount
      intro loop hloop
      obtain rfl := Option.some.inj hloop
      exact ⟨hfree, hquiet⟩

end Returns

section Moves

variable {kind : γ → GatewayKind} {phase phase' : γ → Side → Phase σ}
  {needs needs' : γ → List σ} {gatewayOf gatewayOf' : σ → Option γ}
  {stack : List (Frame γ σ)} {frame : Frame γ σ} {g : γ} {side : Side}
  {s : σ} {reached : Bool} {st : BatchState γ σ}

/-- What changes when a subscriber comes or goes. -/
structure Moved (s : σ) (phase phase' : γ → Side → Phase σ)
    (needs needs' : γ → List σ) (gatewayOf gatewayOf' : σ → Option γ) :
    Prop where
  phase (g : γ) (side : Side) : phase' g side = phase g side ∨
    phase' g side = (phase g side).without s ∨
    phase' g side = (phase g side).with s
  needs (g : γ) : needs' g = needs g ∨
    needs' g = (needs g).filter fun a => decide (a ≠ s)
  gatewayOf (s' : σ) : s' ≠ s → gatewayOf' s' = gatewayOf s'

omit [DecidableEq γ] in
/-- As much is owed to the others. -/
theorem Moved.endsOwed
    (h : Moved s phase phase' needs needs' gatewayOf gatewayOf') {s' : σ}
    (hs : s' ≠ s) : endsOwed kind gatewayOf' phase' needs' s' =
      endsOwed kind gatewayOf phase needs s' := by
  apply endsOwed_congr (h.gatewayOf s' hs)
  · intro g side
    rcases h.phase g side with hphase | hphase | hphase
    · rw [hphase]
    · rw [hphase, owed_without hs]
    · rw [hphase, owed_with hs]
  · intro g
    rcases h.needs g with hneeds | hneeds
    · rw [hneeds]
    · simp [hneeds, hs]

omit [DecidableEq γ] in
/-- The frames of the others stay where their loops are. -/
theorem Moved.matches
    (h : Moved s phase phase' needs needs' gatewayOf gatewayOf')
    (hmatches : Matches kind phase needs gatewayOf frame)
    (hending : endingOf frame ≠ some s) :
    Matches kind phase' needs' gatewayOf' frame := by
  cases frame with
  | begins g side s' =>
      obtain ⟨hkind, rest, hrest⟩ := hmatches
      refine ⟨hkind, ?_⟩
      rcases h.phase g side with hphase | hphase | hphase
      · exact ⟨rest, hphase.trans hrest⟩
      · exact ⟨_, by rw [hphase, hrest, Phase.without]⟩
      · exact ⟨_, by rw [hphase, hrest, Phase.with]⟩
  | ends g side s' =>
      have hs : s' ≠ s := fun hs => hending (congrArg some hs)
      obtain ⟨hkind, hgateway, rest, hrest⟩ := hmatches
      refine ⟨hkind, (h.gatewayOf s' hs).trans hgateway, ?_⟩
      rcases h.phase g side with hphase | hphase | hphase
      · exact ⟨rest, hphase.trans hrest⟩
      · refine ⟨rest.filter fun a => decide (a ≠ s), ?_⟩
        simp [hphase, hrest, Phase.without, hs]
      · exact ⟨_, by rw [hphase, hrest, Phase.with]⟩
  | drains g side s' =>
      have hs : s' ≠ s := fun hs => hending (congrArg some hs)
      obtain ⟨hkind, hdraining, rest, hrest⟩ := hmatches
      refine ⟨hkind, ?_, ?_⟩
      · rcases h.phase g side with hphase | hphase | hphase
        · exact hphase.trans hdraining
        · rw [hphase, hdraining, Phase.without]
          all_goals simp
        · rw [hphase, hdraining, Phase.with]
          all_goals simp
      · rcases h.needs g with hneeds | hneeds
        · exact ⟨rest, hneeds.trans hrest⟩
        · refine ⟨rest.filter fun a => decide (a ≠ s), ?_⟩
          simp [hneeds, hrest, hs]
  | leaves s' optGateway reached =>
      have hs : s' ≠ s := fun hs => hending (congrArg some hs)
      have hgateway := h.gatewayOf s' hs
      exact ⟨hgateway ▸ hmatches.1, hgateway ▸ hmatches.2⟩
  | ensures s' => trivial
  | callback s' => trivial

omit [DecidableEq γ] in
/-- A subscriber that is in no `CallbackBatchEnds` may move. -/
theorem Stacked.move {optGateway : Option γ}
    (h : Stacked kind phase needs gatewayOf stack)
    (hmoved : Moved s phase phase' needs needs' gatewayOf
      (Function.update gatewayOf s optGateway))
    (hending : s ∉ endings stack) :
    Stacked kind phase' needs' (Function.update gatewayOf s optGateway)
      stack := by
  refine ⟨?_, h.loops_nodup, h.endings_nodup, h.settled.update hending⟩
  intro frame hframe
  apply hmoved.matches (h.frames frame hframe)
  exact fun hs => hending (mem_endings hframe hs)

/-- A subscriber that has left its gateway. -/
def left (g : γ) (s : σ) (st : BatchState γ σ) : BatchState γ σ :=
  { unregisterSubscriber g s st with
    gatewayOf := Function.update st.gatewayOf s none }

/-- A subscriber that has come to a gateway. -/
def entered (g : γ) (s : σ) (reached : Bool) (st : BatchState γ σ) :
    BatchState γ σ :=
  { registerSubscriber g s reached st with
    gatewayOf := Function.update st.gatewayOf s (some g) }

theorem moved_left : Moved s st.phase (left g s st).phase
    st.needsCallbackBatchEndsCall (left g s st).needsCallbackBatchEndsCall
    st.gatewayOf (left g s st).gatewayOf := by
  constructor
  · intro g' side
    by_cases hg : g' = g
    · subst hg
      simp [left, unregisterSubscriber]
    · simp [left, unregisterSubscriber, hg]
  · intro g'
    by_cases hg : g' = g
    · subst hg
      simp [left, unregisterSubscriber]
    · simp [left, unregisterSubscriber, hg]
  · intro s' hs
    simp [left, hs]

theorem moved_entered : Moved s st.phase (entered g s reached st).phase
    st.needsCallbackBatchEndsCall
    (entered g s reached st).needsCallbackBatchEndsCall
    st.gatewayOf (entered g s reached st).gatewayOf := by
  refine ⟨?_, fun _ => .inl rfl, ?_⟩
  · intro g' side
    by_cases hg : g' = g
    · subst hg
      cases reached <;> simp [entered, registerSubscriber]
    · simp [entered, registerSubscriber, hg]
  · intro s' hs
    simp [entered, hs]

theorem tables_left (h : Tables kind st.counter st.phase
      st.registeredSubscribers st.needsCallbackBatchEndsCall st.gatewayOf)
    (hgateway : st.gatewayOf s = some g) :
    Tables kind (left g s st).counter (left g s st).phase
      (left g s st).registeredSubscribers
      (left g s st).needsCallbackBatchEndsCall (left g s st).gatewayOf := by
  constructor
  · intro g' s'
    have hiff := h.registered_iff g' s'
    simp only [left, unregisterSubscriber, Function.update_apply]
    grind
  · intro g'
    have hnodup := h.registered_nodup g'
    simp only [left, unregisterSubscriber, Function.update_apply]
    split
    · subst g'
      exact hnodup.filter _
    · exact hnodup
  · intro g' side hkind
    have hwithin := h.within g' side hkind
    simp only [left, unregisterSubscriber, Function.update_apply]
    split
    · subst g'
      exact within_without hwithin
    · exact hwithin
  · intro g' side
    have hcounter := h.counter_iff g' side
    simp only [left, unregisterSubscriber, Function.update_apply]
    split
    · subst g'
      rw [without_eq_idle_iff, hcounter]
    · exact hcounter
  · intro g'
    have hnodup := h.needs_nodup g'
    simp only [left, unregisterSubscriber, Function.update_apply]
    split
    · subst g'
      exact hnodup.filter _
    · exact hnodup
  · intro g' a ha
    have hsub := h.needs_registered g'
    simp only [left, unregisterSubscriber, Function.update_apply] at ha ⊢
    split at ha
    · subst g'
      rw [if_pos rfl, List.mem_filter]
      rw [List.mem_filter] at ha
      exact ⟨hsub ha.1, ha.2⟩
    · rw [if_neg (by assumption)]
      exact hsub ha
  · intro g' hmux hzero
    have hidle := h.needs_idle g' hmux hzero
    simp only [left, unregisterSubscriber, Function.update_apply]
    split
    · subst g'
      simp [hidle]
    · exact hidle

/-- A subscriber that comes has nothing to be told of, or the loop of begins
will come to it. -/
def Phase.OpenTo (reached : Bool) : Phase σ → Prop
  | .idle => True
  | .beginning _ => reached = true
  | _ => False

/-- Whether a gateway owes nothing to a subscriber that comes. -/
def RoomAt (kind : γ → GatewayKind) (phase : γ → Side → Phase σ)
    (reached : Bool) (g : γ) : Prop :=
  kind g = .proxy →
    (phase g .gateway).OpenTo reached ∧ (phase g .subscriber).OpenTo reached

omit [DecidableEq γ] in
/-- Nothing is owed to it when it has come. -/
theorem owed_openTo {p : Phase σ} (h : p.OpenTo reached) :
    (if reached then p.with s else p).owed s = 0 := by
  cases p with
  | idle => cases reached <;> rfl
  | beginning rest =>
      obtain rfl : reached = true := h
      simp [Phase.with, Phase.owed]
  | _ => exact h.elim

omit [DecidableEq γ] [DecidableEq σ] in
theorem within_openTo {p : Phase σ} {subs : List σ} (h : p.OpenTo reached)
    (hwithin : p.Within subs) (hnew : s ∉ subs) :
    (if reached then p.with s else p).Within (subs ++ [s]) := by
  cases p with
  | idle => cases reached <;> trivial
  | beginning rest =>
      obtain rfl : reached = true := h
      exact within_beginning_append hwithin hnew
  | _ => exact h.elim

omit [DecidableEq γ] [DecidableEq σ] in
theorem RoomAt.openTo {phase : γ → Side → Phase σ}
    (h : RoomAt kind phase reached g) (hkind : kind g = .proxy) (side : Side) :
    (phase g side).OpenTo reached := by
  cases side with
  | gateway => exact (h hkind).1
  | subscriber => exact (h hkind).2

theorem tables_entered (h : Tables kind st.counter st.phase
      st.registeredSubscribers st.needsCallbackBatchEndsCall st.gatewayOf)
    (hgateway : st.gatewayOf s = none)
    (hroom : RoomAt kind st.phase reached g) :
    Tables kind (entered g s reached st).counter (entered g s reached st).phase
      (entered g s reached st).registeredSubscribers
      (entered g s reached st).needsCallbackBatchEndsCall
      (entered g s reached st).gatewayOf := by
  have hnew : ∀ g', s ∉ st.registeredSubscribers g' := by
    intro g' hmem
    have := (h.registered_iff g' s).mp hmem
    simp [hgateway] at this
  constructor
  · intro g' s'
    have hiff := h.registered_iff g' s'
    simp only [entered, registerSubscriber, Function.update_apply]
    grind
  · intro g'
    have hnodup := h.registered_nodup g'
    simp only [entered, registerSubscriber, Function.update_apply]
    split
    · subst g'
      rw [List.nodup_append]
      refine ⟨hnodup, List.nodup_singleton s, ?_⟩
      rintro a ha b hb rfl
      exact hnew g (List.mem_singleton.mp hb ▸ ha)
    · exact hnodup
  · intro g' side hkind
    have hwithin := h.within g' side hkind
    simp only [entered, registerSubscriber, Function.update_apply]
    split
    · subst g'
      exact within_openTo (hroom.openTo hkind side) hwithin (hnew g)
    · exact hwithin
  · intro g' side
    have hcounter := h.counter_iff g' side
    simp only [entered, registerSubscriber, Function.update_apply]
    split
    · subst g'
      rw [hcounter]
      cases reached <;> simp [with_eq_idle_iff]
    · exact hcounter
  · exact h.needs_nodup
  · intro g' a ha
    have hsub := h.needs_registered g' ha
    simp only [entered, registerSubscriber, Function.update_apply]
    split
    · subst g'
      exact List.mem_append_left [s] hsub
    · exact hsub
  · exact h.needs_idle

/-- All is in order but for the count of a subscriber that changes gateways,
which is no longer what its old gateway owes it. -/
structure Unwinding (kind : γ → GatewayKind) (s : σ) (st : BatchState γ σ) :
    Prop where
  counted (s : σ) : Counted (st.received s) (st.callbackBatchCounter s)
    (s ∈ endings st.stack)
  owed (s' : σ) : s' ≠ s → (∀ g, st.gatewayOf s' = some g → kind g = .proxy →
      s' ∉ leavings st.stack) →
    st.callbackBatchCounter s' =
      endsOwed kind st.gatewayOf st.phase st.needsCallbackBatchEndsCall s'
  tables : Tables kind st.counter st.phase st.registeredSubscribers
    st.needsCallbackBatchEndsCall st.gatewayOf
  stacked : Stacked kind st.phase st.needsCallbackBatchEndsCall st.gatewayOf
    st.stack

omit [DecidableEq γ] in
theorem Unwinding.not_mem_endings (h : Unwinding kind s st)
    (hzero : st.callbackBatchCounter s = 0) : s ∉ endings st.stack := by
  intro hmem
  have hone := (h.counted s).ending hmem
  simp [hzero] at hone

/-- Nothing is left to be told to it, and it leaves. -/
theorem Unwinding.left (h : Unwinding kind s st)
    (hzero : st.callbackBatchCounter s = 0)
    (hgateway : st.gatewayOf s = some g) :
    Balancing kind (left g s st) := by
  refine ⟨h.counted, ?_, tables_left h.tables hgateway,
    h.stacked.move moved_left (h.not_mem_endings hzero)⟩
  intro s' hleaving
  by_cases hs : s' = s
  · subst hs
    have hnowhere : (CallbackBatches.left g s' st).gatewayOf s' = none := by
      simp [CallbackBatches.left]
    rw [endsOwed, hnowhere]
    exact hzero
  · have hsame : (CallbackBatches.left g s st).gatewayOf s' = _ :=
      moved_left.gatewayOf s' hs
    rw [moved_left.endsOwed hs]
    apply h.owed s' hs
    rw [hsame] at hleaving
    exact hleaving

/-- It comes. -/
theorem Balancing.entered (h : Balancing kind st)
    (hgateway : st.gatewayOf s = none) (hending : s ∉ endings st.stack)
    (hroom : RoomAt kind st.phase reached g) :
    Balancing kind (entered g s reached st) := by
  refine ⟨h.counted, ?_, tables_entered h.tables hgateway hroom,
    h.stacked.move moved_entered hending⟩
  intro s' hleaving
  by_cases hs : s' = s
  · subst hs
    have hzero : st.callbackBatchCounter s' = 0 := by
      rw [h.owed s' (by simp [hgateway])]
      simp [endsOwed, hgateway]
    have hgoes : (CallbackBatches.entered g s' reached st).gatewayOf s' =
        some g := by
      simp [CallbackBatches.entered, registerSubscriber]
    refine hzero.trans (Eq.symm ?_)
    rw [endsOwed, hgoes]
    cases hkind : kind g with
    | proxy =>
        have hnone : ∀ side, ((CallbackBatches.entered g s' reached st).phase g
            side).owed s' = 0 := by
          intro side
          simp only [CallbackBatches.entered, registerSubscriber,
            Function.update_self]
          exact owed_openTo (hroom.openTo hkind side)
        simp [hkind, hnone]
    | mux =>
        have hnew : s' ∉ st.needsCallbackBatchEndsCall g := by
          intro hmem
          have := (h.tables.registered_iff g s').mp
            (h.tables.needs_registered g hmem)
          simp [hgateway] at this
        simp [CallbackBatches.entered, registerSubscriber, hkind, hnew]
  · have hsame : (CallbackBatches.entered g s reached st).gatewayOf s' = _ :=
      moved_entered.gatewayOf s' hs
    rw [moved_entered.endsOwed hs]
    apply h.owed s'
    rw [hsame] at hleaving
    exact hleaving

/-- It goes from one gateway to another. -/
theorem Unwinding.changeGateway {optGateway : Option γ}
    (h : Unwinding kind s st) (hzero : st.callbackBatchCounter s = 0)
    (hother : st.gatewayOf s ≠ optGateway)
    (hroom : ∀ g, optGateway = some g → RoomAt kind st.phase reached g) :
    Balancing kind (changeGateway s optGateway reached st) := by
  have hending := h.not_mem_endings hzero
  cases hfrom : st.gatewayOf s with
  | none =>
      have hbalancing : Balancing kind st := by
        refine ⟨h.counted, ?_, h.tables, h.stacked⟩
        intro s' hleaving
        by_cases hs : s' = s
        · subst hs
          rw [endsOwed, hfrom]
          exact hzero
        · exact h.owed s' hs hleaving
      cases optGateway with
      | none => exact absurd hfrom hother
      | some g =>
          have := hbalancing.entered hfrom hending (hroom g rfl)
          simpa [CallbackBatches.changeGateway, hfrom, CallbackBatches.entered,
            registerSubscriber] using this
  | some g =>
      have hleft := h.left hzero hfrom
      cases optGateway with
      | none =>
          simpa [CallbackBatches.changeGateway, hfrom, CallbackBatches.left,
            unregisterSubscriber] using hleft
      | some g' =>
          have hg : g' ≠ g := by
            rintro rfl
            exact hother hfrom
          have hroom' : RoomAt kind (CallbackBatches.left g s st).phase reached
              g' := by
            intro hkind
            simpa [CallbackBatches.left, unregisterSubscriber, hg] using
              hroom g' rfl hkind
          have := hleft.entered (by simp [CallbackBatches.left]) hending hroom'
          simpa [CallbackBatches.changeGateway, hfrom, CallbackBatches.entered,
            CallbackBatches.left, registerSubscriber,
            unregisterSubscriber] using this

/-- It is told of the end of its batch before it changes gateways. -/
theorem Unwinding.setGateway {optGateway : Option γ} {n : ℕ}
    (h : Unwinding kind s st) (hcount : st.callbackBatchCounter s = n + 1)
    (hmux : ∀ g, st.gatewayOf s = some g → kind g = .mux →
      st.callbackBatchCounter s =
        endsOwed kind st.gatewayOf st.phase st.needsCallbackBatchEndsCall s)
    (hending : s ∉ endings st.stack) (hother : st.gatewayOf s ≠ optGateway)
    (hsome : st.gatewayOf s ≠ none) :
    Balancing kind (setGateway s optGateway reached (n + 1) st) := by
  induction n generalizing st with
  | zero =>
      refine pushEnding h.counted ?_ h.tables h.stacked ⟨hother, hsome⟩
        (by simp [loopOf]) rfl hending hcount
      intro s' hleaving
      have hleavings : leavings (.leaves s optGateway reached :: st.stack) =
        s :: leavings st.stack := rfl
      rw [hleavings] at hleaving
      by_cases hs : s' = s
      · subst hs
        obtain ⟨g, hg⟩ := Option.ne_none_iff_exists'.mp hsome
        cases hkind : kind g with
        | proxy => exact absurd List.mem_cons_self (hleaving g hg hkind)
        | mux => exact hmux g hg hkind
      · apply h.owed s' hs
        intro g hg hkind hmem
        exact hleaving g hg hkind (List.mem_cons_of_mem s hmem)
  | succ n ih =>
      have hunwinding : Unwinding kind s
          ((st.endCallbackBatch s).decrement s) := by
        refine ⟨?_, ?_, h.tables, h.stacked⟩
        · intro s'
          have hcounted := h.counted s'
          by_cases hs : s' = s
          · subst hs
            simpa [BatchState.endCallbackBatch, BatchState.decrement] using
              hcounted.endNested hending (by omega)
          · simpa [BatchState.endCallbackBatch, BatchState.decrement, hs] using
              hcounted
        · intro s' hs hleaving
          have howed := h.owed s' hs hleaving
          simpa [BatchState.endCallbackBatch, BatchState.decrement, hs] using
            howed
      apply ih hunwinding _ _ hending hother hsome
      · simp [BatchState.endCallbackBatch, BatchState.decrement, hcount]
      · intro g hg hkind
        -- a mux has told a subscriber of one begin only
        have hone := hmux g hg hkind
        have hgateway : st.gatewayOf s = some g := hg
        simp only [endsOwed, hgateway, hkind] at hone
        grind

/-- It has been told. -/
theorem Balancing.leavesReturned {optGateway : Option γ} (h : Balancing kind st)
    (hstack : st.stack = .leaves s optGateway reached :: stack)
    (hroom : ∀ g, optGateway = some g → RoomAt kind st.phase reached g) :
    Balancing kind (changeGateway s optGateway reached
      (({ st with stack := stack } : BatchState γ σ).decrement s)) := by
  have hstacked := h.stacked
  rw [hstack] at hstacked
  obtain ⟨hpopped, ⟨hother, -⟩, -, -⟩ := hstacked.pop
  have hmem : s ∈ endings st.stack := by
    rw [hstack]
    exact List.mem_cons_self
  have hunwinding : Unwinding kind s
      (({ st with stack := stack } : BatchState γ σ).decrement s) := by
    refine ⟨h.counted_returned hstack rfl, ?_, h.tables, hpopped⟩
    intro s' hs hleaving
    have howed : st.callbackBatchCounter s' = _ := h.owed s' (by
      intro g hg hkind hmem
      rw [hstack] at hmem
      rcases List.mem_cons.mp hmem with hmem | hmem
      · exact hs hmem
      · exact hleaving g hg hkind hmem)
    simpa [BatchState.decrement, hs] using howed
  apply hunwinding.changeGateway _ hother hroom
  simp [BatchState.decrement, (h.counted s).ending hmem]

end Moves

end ZgChoir.CallbackBatches
