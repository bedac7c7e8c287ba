import ZgChoir.CallbackBatches

/-!
# Callback batches balance

While a subscriber's `CallbackBatchEnds` runs, its count still says that it is
in a batch: `EndCallbackBatch` decrements after the call.  A subscriber that
changes gateways there unwinds the batch once more, and a gateway whose batch
ends there ends it once more.  A plain proxy, at the end of a batch, tells
whoever is registered then.

Apart from these the calls balance.  What a gateway owes a subscriber follows
from where its loops are (`endsOwed`), and the subscriber's count is that
number.
-/

namespace ZgChoir.CallbackBatches

variable {γ σ : Type} [DecidableEq γ] [DecidableEq σ]

/-- The subscriber that is in its `CallbackBatchEnds`. -/
def endingOf : Frame γ σ → Option σ
  | .ends _ _ s => some s
  | .drains _ _ s => some s
  | .leaves s _ _ => some s
  | _ => none

/-- The subscriber that changes gateways. -/
def leavingOf : Frame γ σ → Option σ
  | .leaves s _ _ => some s
  | _ => none

/-- The loop that goes on when the subscriber returns. -/
def loopOf : Frame γ σ → Option (γ × Side)
  | .begins g side _ => some (g, side)
  | .ends g side _ => some (g, side)
  | .drains g side _ => some (g, side)
  | _ => none

/-- The subscribers that are in their `CallbackBatchEnds`. -/
def endings (stack : List (Frame γ σ)) : List σ := stack.filterMap endingOf

/-- The subscribers that change gateways. -/
def leavings (stack : List (Frame γ σ)) : List σ := stack.filterMap leavingOf

/-- The loops that are at a call. -/
def loops (stack : List (Frame γ σ)) : List (γ × Side) :=
  stack.filterMap loopOf

/-- How many ends a proxy owes for a batch. -/
def Phase.owed (s : σ) : Phase σ → ℕ
  | .idle => 0
  | .beginning rest => if s ∈ rest then 0 else 1
  | .underWay => 1
  | .ending current rest => if current = some s ∨ s ∈ rest then 1 else 0
  | .draining => 0

variable (kind : γ → GatewayKind)

/-- How many ends a subscriber's gateway owes it. -/
def endsOwed (gatewayOf : σ → Option γ) (phase : γ → Side → Phase σ)
    (needs : γ → List σ) (s : σ) : ℕ :=
  match gatewayOf s with
  | none => 0
  | some g =>
      match kind g with
      | .proxy => (phase g .gateway).owed s + (phase g .subscriber).owed s
      | .mux => if s ∈ needs g then 1 else 0

/-- A subscriber's calls so far, its count, and whether it is in its
`CallbackBatchEnds`. -/
structure Counted (received : Received) (count : ℕ) (ending : Prop)
    [Decidable ending] : Prop where
  calls : received.begins + (if ending then 1 else 0) = received.ends + count
  callbacks : received.callbackBatchBegins = received.callbackBatchEnds +
    if 0 < count ∧ ¬ending then 1 else 0
  ending : ending → count = 1

/-- The rest of a loop are subscribers that are registered, each once. -/
def Phase.Within (subs : List σ) : Phase σ → Prop
  | .beginning rest => rest.Nodup ∧ rest ⊆ subs
  | .ending current rest =>
      rest.Nodup ∧ rest ⊆ subs ∧ ∀ s, current = some s → s ∉ rest
  | _ => True

/-- The tables fit together. -/
structure Tables (counter : γ → Side → ℕ) (phase : γ → Side → Phase σ)
    (registered needs : γ → List σ) (gatewayOf : σ → Option γ) : Prop where
  registered_iff (g : γ) (s : σ) : s ∈ registered g ↔ gatewayOf s = some g
  registered_nodup (g : γ) : (registered g).Nodup
  within (g : γ) (side : Side) : kind g = .proxy →
    (phase g side).Within (registered g)
  counter_iff (g : γ) (side : Side) : counter g side = 0 ↔ phase g side = .idle
  needs_nodup (g : γ) : (needs g).Nodup
  needs_registered (g : γ) : needs g ⊆ registered g
  needs_idle (g : γ) : kind g = .mux → counter g .subscriber = 0 →
    needs g = []

/-- A frame is where its loop is. -/
def Matches (phase : γ → Side → Phase σ) (needs : γ → List σ)
    (gatewayOf : σ → Option γ) : Frame γ σ → Prop
  | .begins g side _ => kind g = .proxy ∧ ∃ rest, phase g side = .beginning rest
  | .ends g side s => kind g = .proxy ∧ gatewayOf s = some g ∧
      ∃ rest, phase g side = .ending (some s) rest
  | .drains g side s => kind g = .mux ∧ phase g side = .draining ∧
      ∃ rest, needs g = s :: rest
  | .leaves s optGateway _ => gatewayOf s ≠ optGateway ∧ gatewayOf s ≠ none
  | _ => True

/-- Whoever is registered with the gateway of a loop is in no
`CallbackBatchEnds` that began before the loop's call. -/
def Settled (gatewayOf : σ → Option γ) : List (Frame γ σ) → Prop
  | [] => True
  | frame :: stack =>
      (∀ loop, loopOf frame = some loop → ∀ s, gatewayOf s = some loop.1 →
        s ∉ endings stack) ∧
      Settled gatewayOf stack

/-- The stack fits the tables. -/
structure Stacked (phase : γ → Side → Phase σ) (needs : γ → List σ)
    (gatewayOf : σ → Option γ) (stack : List (Frame γ σ)) : Prop where
  frames : ∀ frame ∈ stack, Matches kind phase needs gatewayOf frame
  loops_nodup : (loops stack).Nodup
  endings_nodup : (endings stack).Nodup
  settled : Settled gatewayOf stack

/-- What holds between the events. -/
structure Balancing (st : BatchState γ σ) : Prop where
  counted (s : σ) : Counted (st.received s) (st.callbackBatchCounter s)
    (s ∈ endings st.stack)
  owed (s : σ) : (∀ g, st.gatewayOf s = some g → kind g = .proxy →
      s ∉ leavings st.stack) →
    st.callbackBatchCounter s =
      endsOwed kind st.gatewayOf st.phase st.needsCallbackBatchEndsCall s
  tables : Tables kind st.counter st.phase st.registeredSubscribers
    st.needsCallbackBatchEndsCall st.gatewayOf
  stacked : Stacked kind st.phase st.needsCallbackBatchEndsCall st.gatewayOf
    st.stack

section Parts

variable {kind} {phase phase' : γ → Side → Phase σ} {needs needs' : γ → List σ}
  {gatewayOf : σ → Option γ} {stack : List (Frame γ σ)} {frame : Frame γ σ}
  {received : Received} {count : ℕ} {g : γ} {side : Side} {s : σ}

omit [DecidableEq γ] [DecidableEq σ] in
theorem mem_endings_of_mem_leavings (h : s ∈ leavings stack) :
    s ∈ endings stack := by
  rw [leavings, List.mem_filterMap] at h
  obtain ⟨frame, hframe, hleaving⟩ := h
  rw [endings, List.mem_filterMap]
  refine ⟨frame, hframe, ?_⟩
  cases frame <;> simp_all [leavingOf, endingOf]

/-- A begin. -/
theorem Counted.begin {ending : Prop} [Decidable ending]
    (h : Counted received count ending) (hending : ¬ending) :
    Counted { received with
      begins := received.begins + 1
      callbackBatchBegins := received.callbackBatchBegins +
        if count = 0 then 1 else 0 } (count + 1) ending := by
  obtain ⟨hcalls, hcallbacks, -⟩ := h
  refine ⟨?_, ?_, fun h => absurd h hending⟩
  · grind
  · grind

/-- An end that is not the last level's. -/
theorem Counted.endNested {ending : Prop} [Decidable ending]
    (h : Counted received count ending) (hending : ¬ending)
    (hcount : 1 < count) :
    Counted { received with
      ends := received.ends + 1
      callbackBatchEnds := received.callbackBatchEnds +
        if count = 1 then 1 else 0 } (count - 1) ending := by
  obtain ⟨hcalls, hcallbacks, -⟩ := h
  refine ⟨?_, ?_, fun h => absurd h hending⟩
  · grind
  · grind

/-- The last level's end: the subscriber is in its `CallbackBatchEnds`. -/
theorem Counted.endLast {ending ending' : Prop} [Decidable ending]
    [Decidable ending'] (h : Counted received count ending)
    (hending : ¬ending) (hcount : count = 1) (hending' : ending') :
    Counted { received with
      ends := received.ends + 1
      callbackBatchEnds := received.callbackBatchEnds +
        if count = 1 then 1 else 0 } count ending' := by
  obtain ⟨hcalls, hcallbacks, -⟩ := h
  refine ⟨?_, ?_, fun _ => hcount⟩
  · grind
  · grind

/-- It has returned. -/
theorem Counted.returned {ending ending' : Prop} [Decidable ending]
    [Decidable ending'] (h : Counted received count ending)
    (hending : ending) (hending' : ¬ending') :
    Counted received (count - 1) ending' := by
  obtain ⟨hcalls, hcallbacks, hone⟩ := h
  have hcount := hone hending
  refine ⟨?_, ?_, fun h => absurd h hending'⟩
  · grind
  · grind

/-- A phase in which the gateway owes as much. -/
theorem owed_setAt_of_eq {p : Phase σ}
    (h : gatewayOf s = some g → kind g = .proxy →
      p.owed s = (phase g side).owed s) :
    endsOwed kind gatewayOf (setAt phase g side p) needs s =
      endsOwed kind gatewayOf phase needs s := by
  unfold endsOwed
  cases hg : gatewayOf s with
  | none => rfl
  | some g' =>
      cases hkind : kind g' with
      | mux => simp only [hkind]
      | proxy => cases side <;> grind [setAt_apply]

/-- A phase in which a proxy owes more or less. -/
theorem owed_setAt (phase : γ → Side → Phase σ) (needs : γ → List σ)
    (side : Side) (p : Phase σ) (hg : gatewayOf s = some g)
    (hkind : kind g = .proxy) :
    endsOwed kind gatewayOf (setAt phase g side p) needs s +
        (phase g side).owed s =
      endsOwed kind gatewayOf phase needs s + p.owed s := by
  unfold endsOwed
  cases side <;> simp [hg, hkind] <;> omega

omit [DecidableEq γ] in
/-- A proxy owes what it owes for one side. -/
theorem le_endsOwed (phase : γ → Side → Phase σ) (needs : γ → List σ)
    (side : Side) (hg : gatewayOf s = some g) (hkind : kind g = .proxy) :
    (phase g side).owed s ≤ endsOwed kind gatewayOf phase needs s := by
  unfold endsOwed
  cases side <;> simp [hg, hkind]

omit [DecidableEq σ] in
theorem Tables.setAt {counter : γ → Side → ℕ} {registered : γ → List σ}
    {p : Phase σ} (h : Tables kind counter phase registered needs gatewayOf)
    (hwithin : kind g = .proxy → p.Within (registered g))
    (hcounter : counter g side = 0 ↔ p = .idle) :
    Tables kind counter (setAt phase g side p) registered needs gatewayOf := by
  refine ⟨h.registered_iff, h.registered_nodup, ?_, ?_, h.needs_nodup,
    h.needs_registered, h.needs_idle⟩
  · intro g' side'
    have := h.within g' side'
    grind [setAt_apply]
  · intro g' side'
    have := h.counter_iff g' side'
    grind [setAt_apply]

omit [DecidableEq γ] [DecidableEq σ] in
theorem mem_loops {loop : γ × Side} (hframe : frame ∈ stack)
    (hloop : loopOf frame = some loop) : loop ∈ loops stack :=
  List.mem_filterMap.mpr ⟨frame, hframe, hloop⟩

omit [DecidableEq σ] in
/-- The phase of a loop that is at no call may change. -/
theorem Stacked.setAt {p : Phase σ}
    (h : Stacked kind phase needs gatewayOf stack)
    (hfree : (g, side) ∉ loops stack) :
    Stacked kind (setAt phase g side p) needs gatewayOf stack := by
  refine ⟨?_, h.loops_nodup, h.endings_nodup, h.settled⟩
  intro frame hframe
  have hmatches := h.frames frame hframe
  have hother : ∀ g' side', loopOf frame = some (g', side') →
      ¬(g' = g ∧ side' = side) := by
    rintro g' side' hloop ⟨rfl, rfl⟩
    exact hfree (mem_loops hframe hloop)
  cases frame with
  | begins g' side' s' =>
      rw [Matches, setAt_apply, if_neg (hother g' side' rfl)]
      exact hmatches
  | ends g' side' s' =>
      rw [Matches, setAt_apply, if_neg (hother g' side' rfl)]
      exact hmatches
  | drains g' side' s' =>
      rw [Matches, setAt_apply, if_neg (hother g' side' rfl)]
      exact hmatches
  | _ => exact hmatches

omit [DecidableEq γ] [DecidableEq σ] in
/-- One more call. -/
theorem Stacked.push (h : Stacked kind phase needs gatewayOf stack)
    (hmatches : Matches kind phase needs gatewayOf frame)
    (hloop : ∀ loop, loopOf frame = some loop → loop ∉ loops stack ∧
      ∀ s, gatewayOf s = some loop.1 → s ∉ endings stack)
    (hending : ∀ s, endingOf frame = some s → s ∉ endings stack) :
    Stacked kind phase needs gatewayOf (frame :: stack) := by
  refine ⟨?_, ?_, ?_, ?_, h.settled⟩
  · intro frame' hframe'
    rcases List.mem_cons.mp hframe' with rfl | hframe'
    · exact hmatches
    · exact h.frames frame' hframe'
  · unfold loops
    cases hl : loopOf frame with
    | none =>
        rw [List.filterMap_cons_none hl]
        exact h.loops_nodup
    | some loop =>
        rw [List.filterMap_cons_some hl, List.nodup_cons]
        exact ⟨(hloop loop hl).1, h.loops_nodup⟩
  · unfold endings
    cases he : endingOf frame with
    | none =>
        rw [List.filterMap_cons_none he]
        exact h.endings_nodup
    | some s =>
        rw [List.filterMap_cons_some he, List.nodup_cons]
        exact ⟨hending s he, h.endings_nodup⟩
  · exact fun loop hl => (hloop loop hl).2

omit [DecidableEq γ] [DecidableEq σ] in
/-- A call returns. -/
theorem Stacked.pop (h : Stacked kind phase needs gatewayOf (frame :: stack)) :
    Stacked kind phase needs gatewayOf stack ∧
      Matches kind phase needs gatewayOf frame ∧
      (∀ loop, loopOf frame = some loop → loop ∉ loops stack ∧
        ∀ s, gatewayOf s = some loop.1 → s ∉ endings stack) ∧
      ∀ s, endingOf frame = some s → s ∉ endings stack := by
  obtain ⟨hframes, hloops, hendings, hsettled⟩ := h
  refine ⟨⟨?_, ?_, ?_, hsettled.2⟩, hframes frame List.mem_cons_self, ?_, ?_⟩
  · exact fun frame' hframe' => hframes frame' (List.mem_cons_of_mem _ hframe')
  · exact hloops.sublist ((List.sublist_cons_self frame stack).filterMap loopOf)
  · exact hendings.sublist
      ((List.sublist_cons_self frame stack).filterMap endingOf)
  · intro loop hl
    refine ⟨?_, hsettled.1 loop hl⟩
    rw [loops, List.filterMap_cons_some hl, List.nodup_cons] at hloops
    exact hloops.1
  · intro s he
    rw [endings, List.filterMap_cons_some he, List.nodup_cons] at hendings
    exact hendings.1

end Parts

section Steps

variable {kind} {st : BatchState γ σ} {g : γ} {side : Side} {s : σ}
  {rest : List σ}

/-- A proxy tells a subscriber that a batch begins. -/
theorem Balancing.visit (h : Balancing kind st) (hkind : kind g = .proxy)
    (hphase : st.phase g side = .beginning (s :: rest))
    (hfree : (g, side) ∉ loops st.stack) (hending : s ∉ endings st.stack) :
    Balancing kind
      ((st.beginCallbackBatch s).setPhase g side (.beginning rest)) := by
  have hwithin := h.tables.within g side hkind
  rw [hphase] at hwithin
  obtain ⟨hnodup, hsub⟩ := hwithin
  obtain ⟨hnew, hnodup⟩ := List.nodup_cons.mp hnodup
  have hgateway : st.gatewayOf s = some g :=
    (h.tables.registered_iff g s).mp (hsub List.mem_cons_self)
  constructor
  · intro s'
    have hcounted := h.counted s'
    by_cases hs : s' = s
    · subst hs
      simpa [BatchState.setPhase, BatchState.beginCallbackBatch] using
        hcounted.begin hending
    · simpa [BatchState.setPhase, BatchState.beginCallbackBatch, hs] using
        hcounted
  · intro s' hleaving
    have howed := h.owed s' hleaving
    by_cases hs : s' = s
    · subst hs
      have hmore := owed_setAt st.phase st.needsCallbackBatchEndsCall side
        (.beginning rest) hgateway hkind
      simp only [hphase, Phase.owed, List.mem_cons_self, if_true, hnew,
        if_false] at hmore
      simp only [BatchState.setPhase, BatchState.beginCallbackBatch,
        Function.update_self]
      omega
    · simp only [BatchState.setPhase, BatchState.beginCallbackBatch,
        Function.update_of_ne hs]
      rw [howed, owed_setAt_of_eq]
      intro _ _
      simp [hphase, Phase.owed, hs]
  · apply h.tables.setAt
    · exact fun _ => ⟨hnodup, fun a ha => hsub (List.mem_cons_of_mem s ha)⟩
    · have hcounter := h.tables.counter_iff g side
      simpa [hphase] using hcounter
  · exact h.stacked.setAt hfree

omit [DecidableEq γ] [DecidableEq σ] in
theorem leavingOf_of_endingOf {frame : Frame γ σ} (h : endingOf frame = none) :
    leavingOf frame = none := by
  cases frame <;> simp_all [endingOf, leavingOf]

omit [DecidableEq γ] [DecidableEq σ] in
theorem endings_cons {frame : Frame γ σ} {stack : List (Frame γ σ)}
    (h : endingOf frame = none) : endings (frame :: stack) = endings stack :=
  List.filterMap_cons_none h

omit [DecidableEq γ] [DecidableEq σ] in
theorem leavings_cons {frame : Frame γ σ} {stack : List (Frame γ σ)}
    (h : leavingOf frame = none) : leavings (frame :: stack) = leavings stack :=
  List.filterMap_cons_none h

/-- A proxy's phase changes, and it owes as much. -/
theorem Balancing.setPhase (h : Balancing kind st) {p : Phase σ}
    (hfree : (g, side) ∉ loops st.stack)
    (howed : ∀ s, st.gatewayOf s = some g → kind g = .proxy →
      p.owed s = (st.phase g side).owed s)
    (hwithin : kind g = .proxy → p.Within (st.registeredSubscribers g))
    (hcounter : st.counter g side = 0 ↔ p = .idle) :
    Balancing kind (st.setPhase g side p) := by
  refine ⟨h.counted, ?_, h.tables.setAt hwithin hcounter, h.stacked.setAt hfree⟩
  intro s hleaving
  have hsame : endsOwed kind st.gatewayOf (setAt st.phase g side p)
      st.needsCallbackBatchEndsCall s = _ := owed_setAt_of_eq (howed s)
  exact (h.owed s hleaving).trans hsame.symm

omit [DecidableEq γ] in
/-- A call that is no `CallbackBatchEnds`. -/
theorem Balancing.push (h : Balancing kind st) {frame : Frame γ σ}
    (hmatches : Matches kind st.phase st.needsCallbackBatchEndsCall
      st.gatewayOf frame)
    (hloop : ∀ loop, loopOf frame = some loop → loop ∉ loops st.stack ∧
      ∀ s, st.gatewayOf s = some loop.1 → s ∉ endings st.stack)
    (hending : endingOf frame = none) : Balancing kind (st.push frame) := by
  constructor
  · intro s
    simp only [BatchState.push, endings_cons hending]
    exact h.counted s
  · intro s hleaving
    simp only [BatchState.push,
      leavings_cons (leavingOf_of_endingOf hending)] at hleaving
    exact h.owed s hleaving
  · exact h.tables
  · exact h.stacked.push hmatches hloop (by simp [hending])

/-- The loop in which a proxy tells of the begin. -/
theorem Balancing.callbackBatchBegins (h : Balancing kind st)
    (hkind : kind g = .proxy) (hphase : st.phase g side = .beginning rest)
    (hfree : (g, side) ∉ loops st.stack)
    (hquiet : ∀ s, st.gatewayOf s = some g → s ∉ endings st.stack) :
    Balancing kind (callbackBatchBegins g side rest st) := by
  induction rest generalizing st with
  | nil =>
      have hcounter := h.tables.counter_iff g side
      change Balancing kind (st.setPhase g side .underWay)
      refine h.setPhase hfree ?_ (fun _ => trivial)
        (by simpa [hphase] using hcounter)
      intro s _ _
      simp [hphase, Phase.owed]
  | cons s rest ih =>
      have hgateway : st.gatewayOf s = some g := by
        have hwithin := h.tables.within g side hkind
        rw [hphase] at hwithin
        exact (h.tables.registered_iff g s).mp (hwithin.2 List.mem_cons_self)
      have hvisit := h.visit hkind hphase hfree (hquiet s hgateway)
      have hnext : ((st.beginCallbackBatch s).setPhase g side
          (.beginning rest)).phase g side = .beginning rest := by
        simp [BatchState.setPhase]
      simp only [CallbackBatches.callbackBatchBegins]
      split
      · have hframe : Matches kind ((st.beginCallbackBatch s).setPhase g side
            (.beginning rest)).phase st.needsCallbackBatchEndsCall st.gatewayOf
            (.begins g side s) := ⟨hkind, rest, hnext⟩
        apply hvisit.push hframe _ rfl
        intro loop hloop
        obtain rfl := Option.some.inj hloop
        exact ⟨hfree, hquiet⟩
      · exact ih hvisit hnext hfree hquiet

omit [DecidableEq γ] in
/-- A call of `CallbackBatchEnds`, of whoever's number of batches is right or
is excused then. -/
theorem pushEnding {frame : Frame γ σ}
    (hcounted : ∀ s, Counted (st.received s) (st.callbackBatchCounter s)
      (s ∈ endings st.stack))
    (howed : ∀ s, (∀ g, st.gatewayOf s = some g → kind g = .proxy →
        s ∉ leavings (frame :: st.stack)) →
      st.callbackBatchCounter s =
        endsOwed kind st.gatewayOf st.phase st.needsCallbackBatchEndsCall s)
    (htables : Tables kind st.counter st.phase st.registeredSubscribers
      st.needsCallbackBatchEndsCall st.gatewayOf)
    (hstacked : Stacked kind st.phase st.needsCallbackBatchEndsCall
      st.gatewayOf st.stack)
    (hmatches : Matches kind st.phase st.needsCallbackBatchEndsCall
      st.gatewayOf frame)
    (hloop : ∀ loop, loopOf frame = some loop → loop ∉ loops st.stack ∧
      ∀ s, st.gatewayOf s = some loop.1 → s ∉ endings st.stack)
    (hframe : endingOf frame = some s) (hending : s ∉ endings st.stack)
    (hcount : st.callbackBatchCounter s = 1) :
    Balancing kind ((st.endCallbackBatch s).push frame) := by
  have hendings : endings (frame :: st.stack) = s :: endings st.stack :=
    List.filterMap_cons_some hframe
  refine ⟨?_, howed, htables, ?_⟩
  · intro s'
    have hbefore := hcounted s'
    by_cases hs : s' = s
    · subst hs
      have hmem : s' ∈ endings (frame :: st.stack) := by
        rw [hendings]
        exact List.mem_cons_self
      simpa [BatchState.push, BatchState.endCallbackBatch] using
        hbefore.endLast hending hcount hmem
    · simpa [BatchState.push, BatchState.endCallbackBatch, hs, hendings] using
        hbefore
  · apply hstacked.push hmatches hloop
    intro s' hs'
    obtain rfl : s = s' := Option.some.inj (hframe.symm.trans hs')
    exact hending

omit [DecidableEq γ] in
/-- A call of `CallbackBatchEnds`. -/
theorem Balancing.pushEnding (h : Balancing kind st) {frame : Frame γ σ}
    (hmatches : Matches kind st.phase st.needsCallbackBatchEndsCall
      st.gatewayOf frame)
    (hloop : ∀ loop, loopOf frame = some loop → loop ∉ loops st.stack ∧
      ∀ s, st.gatewayOf s = some loop.1 → s ∉ endings st.stack)
    (hframe : endingOf frame = some s) (hending : s ∉ endings st.stack)
    (hcount : st.callbackBatchCounter s = 1) :
    Balancing kind ((st.endCallbackBatch s).push frame) := by
  refine CallbackBatches.pushEnding h.counted ?_ h.tables h.stacked hmatches
    hloop hframe hending hcount
  intro s' hleaving
  apply h.owed s'
  intro g hg hkind hmem
  refine hleaving g hg hkind ?_
  exact ((List.sublist_cons_self frame st.stack).filterMap leavingOf).subset
    hmem

/-- A proxy tells a subscriber of the end of a nested batch. -/
theorem Balancing.endNested (h : Balancing kind st) (hkind : kind g = .proxy)
    (hphase : st.phase g side = .ending none (s :: rest))
    (hfree : (g, side) ∉ loops st.stack) (hending : s ∉ endings st.stack)
    (hcount : 1 < st.callbackBatchCounter s) :
    Balancing kind (((st.endCallbackBatch s).decrement s).setPhase g side
      (.ending none rest)) := by
  have hwithin := h.tables.within g side hkind
  rw [hphase] at hwithin
  obtain ⟨hnodup, hsub, -⟩ := hwithin
  obtain ⟨hnew, hnodup⟩ := List.nodup_cons.mp hnodup
  have hgateway : st.gatewayOf s = some g :=
    (h.tables.registered_iff g s).mp (hsub List.mem_cons_self)
  constructor
  · intro s'
    have hcounted := h.counted s'
    by_cases hs : s' = s
    · subst hs
      simpa [BatchState.setPhase, BatchState.endCallbackBatch,
        BatchState.decrement] using hcounted.endNested hending hcount
    · simpa [BatchState.setPhase, BatchState.endCallbackBatch,
        BatchState.decrement, hs] using hcounted
  · intro s' hleaving
    have howed := h.owed s' hleaving
    by_cases hs : s' = s
    · subst hs
      have hless := owed_setAt st.phase st.needsCallbackBatchEndsCall side
        (.ending none rest) hgateway hkind
      simp only [hphase, Phase.owed, List.mem_cons_self, or_true, if_true, hnew,
        reduceCtorEq, or_self, if_false] at hless
      simp only [BatchState.setPhase, BatchState.endCallbackBatch,
        BatchState.decrement, Function.update_self]
      omega
    · simp only [BatchState.setPhase, BatchState.endCallbackBatch,
        BatchState.decrement, Function.update_of_ne hs]
      rw [howed, owed_setAt_of_eq]
      intro _ _
      simp [hphase, Phase.owed, hs]
  · apply h.tables.setAt
    · intro _
      refine ⟨hnodup, fun a ha => hsub (List.mem_cons_of_mem s ha), ?_⟩
      simp
    · have hcounter := h.tables.counter_iff g side
      simpa [hphase] using hcounter
  · exact h.stacked.setAt hfree

/-- A batch is over when nothing is owed for it. -/
theorem Balancing.batchEnded (h : Balancing kind st)
    (hfree : (g, side) ∉ loops st.stack) (hcounter : st.counter g side = 1)
    (howed : ∀ s, kind g = .proxy → (st.phase g side).owed s = 0)
    (hneeds : kind g = .mux → st.needsCallbackBatchEndsCall g = []) :
    Balancing kind (batchEnded g side st) := by
  refine ⟨h.counted, ?_, ?_, h.stacked.setAt hfree⟩
  · intro s hleaving
    have hsame : endsOwed kind st.gatewayOf (setAt st.phase g side .idle)
        st.needsCallbackBatchEndsCall s = _ :=
      owed_setAt_of_eq fun _ hkind => (howed s hkind).symm
    exact (h.owed s hleaving).trans hsame.symm
  · obtain ⟨hiff, hnodup, hwithin, hcount, hneedsNodup, hsub, hidle⟩ := h.tables
    refine ⟨hiff, hnodup, ?_, ?_, hneedsNodup, hsub, ?_⟩
    · intro g' side' hproxy
      have := hwithin g' side' hproxy
      simp only [CallbackBatches.batchEnded, BatchState.setPhase,
        BatchState.setCounter, setAt_apply]
      split
      · trivial
      · exact this
    · intro g' side'
      have := hcount g' side'
      simp only [CallbackBatches.batchEnded, BatchState.setPhase,
        BatchState.setCounter, setAt_apply]
      split
      · simp [hcounter]
      · exact this
    · intro g' hmux hzero
      by_cases hg : g' = g
      · subst hg
        exact hneeds hmux
      · apply hidle g' hmux
        simpa [CallbackBatches.batchEnded, BatchState.setPhase,
          BatchState.setCounter, hg] using hzero

/-- The loop in which a proxy tells of the end. -/
theorem Balancing.callbackBatchEnds (h : Balancing kind st)
    (hkind : kind g = .proxy) (hphase : st.phase g side = .ending none rest)
    (hcounter : st.counter g side = 1) (hfree : (g, side) ∉ loops st.stack)
    (hquiet : ∀ s, st.gatewayOf s = some g → s ∉ endings st.stack) :
    Balancing kind (callbackBatchEnds g side rest st) := by
  induction rest generalizing st with
  | nil =>
      apply h.batchEnded hfree hcounter
      · intro s _
        simp [hphase, Phase.owed]
      · simp [hkind]
  | cons s rest ih =>
      have hwithin := h.tables.within g side hkind
      rw [hphase] at hwithin
      obtain ⟨hnodup, hsub, -⟩ := hwithin
      have hgateway : st.gatewayOf s = some g :=
        (h.tables.registered_iff g s).mp (hsub List.mem_cons_self)
      have hending := hquiet s hgateway
      have hpositive : 1 ≤ st.callbackBatchCounter s := by
        rw [h.owed s fun _ _ _ hmem =>
          hending (mem_endings_of_mem_leavings hmem)]
        have hle := le_endsOwed st.phase st.needsCallbackBatchEndsCall side
          hgateway hkind
        simpa [hphase, Phase.owed] using hle
      simp only [CallbackBatches.callbackBatchEnds]
      split
      · next hone =>
        have hcurrent : Balancing kind (st.setPhase g side
            (.ending (some s) rest)) := by
          refine h.setPhase hfree ?_ ?_ (by simp [hcounter])
          · intro s' _ _
            simp [hphase, Phase.owed, eq_comm]
          · obtain ⟨hnew, hnodup⟩ := List.nodup_cons.mp hnodup
            refine fun _ =>
              ⟨hnodup, fun a ha => hsub (List.mem_cons_of_mem s ha), ?_⟩
            intro s' hs'
            exact Option.some.inj hs' ▸ hnew
        have hframe : Matches kind (st.setPhase g side
            (.ending (some s) rest)).phase st.needsCallbackBatchEndsCall
            st.gatewayOf (.ends g side s) := by
          refine ⟨hkind, hgateway, rest, ?_⟩
          simp [BatchState.setPhase]
        refine hcurrent.pushEnding hframe ?_ rfl hending hone
        intro loop hloop
        obtain rfl := Option.some.inj hloop
        exact ⟨hfree, hquiet⟩
      · next hmore =>
        apply ih (h.endNested hkind hphase hfree hending (by omega)) _ hcounter
          hfree hquiet
        simp [BatchState.setPhase]

end Steps

end ZgChoir.CallbackBatches
