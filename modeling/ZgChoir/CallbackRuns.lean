import ZgChoir.CallbackMoves

/-!
# Callback batches balance in every run that keeps out of ends

The balance is lost in three places.  A gateway's batch begins or ends while a
subscriber of it is in its `CallbackBatchEnds`, a subscriber changes gateways
there, and a subscriber comes to a proxy whose batch is under way.  A run that
keeps out of them (`Allowed`) keeps the balance, whatever the subscribers' code
does otherwise.
-/

namespace ZgChoir.CallbackBatches

variable {γ σ : Type} [DecidableEq γ] [DecidableEq σ]

section Steps

variable {kind : γ → GatewayKind} {st : BatchState γ σ} {g : γ} {side : Side}
  {s : σ} {frame : Frame γ σ} {stack : List (Frame γ σ)}

omit [DecidableEq γ] in
theorem Balancing.initial :
    Balancing kind (.initial : BatchState γ σ) := by
  refine ⟨?_, ?_, ?_, ?_⟩
  · intro s
    exact ⟨rfl, rfl, by simp [BatchState.initial, endings]⟩
  · intro s _
    rfl
  · refine ⟨?_, fun _ => List.nodup_nil, fun _ _ _ => trivial, ?_,
      fun _ => List.nodup_nil, fun _ => List.nil_subset _, fun _ _ _ => rfl⟩
    · intro g s
      simp [BatchState.initial]
    · intro g side
      simp [BatchState.initial]
  · exact ⟨by simp [BatchState.initial], List.nodup_nil, List.nodup_nil,
      trivial⟩

omit [DecidableEq σ] in
/-- A gateway's count and its phase change together. -/
theorem Tables.setCounter (side : Side) {n : ℕ} {p : Phase σ}
    (h : Tables kind st.counter st.phase st.registeredSubscribers
      st.needsCallbackBatchEndsCall st.gatewayOf)
    (hwithin : kind g = .proxy → p.Within (st.registeredSubscribers g))
    (hbatch : p ≠ .idle) (hpositive : 0 < n) :
    Tables kind (CallbackBatches.setAt st.counter g side n)
      (CallbackBatches.setAt st.phase g side p) st.registeredSubscribers
      st.needsCallbackBatchEndsCall st.gatewayOf := by
  refine ⟨h.registered_iff, h.registered_nodup, ?_, ?_, h.needs_nodup,
    h.needs_registered, ?_⟩
  · intro g' side' hproxy
    have := h.within g' side' hproxy
    rw [setAt_apply]
    grind
  · intro g' side'
    have := h.counter_iff g' side'
    rw [setAt_apply, setAt_apply]
    grind
  · intro g' hmux hzero
    apply h.needs_idle g' hmux
    rw [setAt_apply] at hzero
    grind

theorem setAt_self {α : Type} {f : γ → Side → α} :
    setAt f g side (f g side) = f := by
  funext g' side'
  grind [setAt_apply]

/-- A nested batch begins or ends. -/
theorem Balancing.setCounter {n : ℕ} (h : Balancing kind st)
    (hbatch : st.counter g side ≠ 0) (hpositive : 0 < n) :
    Balancing kind (st.setCounter g side n) := by
  refine ⟨h.counted, h.owed, ?_, h.stacked⟩
  have hphase : st.phase g side ≠ .idle := fun hidle =>
    hbatch ((h.tables.counter_iff g side).mpr hidle)
  have := h.tables.setCounter side (h.tables.within g side) hphase hpositive
  rwa [setAt_self] at this

/-- A gateway's first batch begins. -/
theorem Balancing.start {p : Phase σ} (h : Balancing kind st)
    (hzero : st.counter g side = 0) (hbatch : p ≠ .idle)
    (howed : ∀ s, st.gatewayOf s = some g → kind g = .proxy → p.owed s = 0)
    (hwithin : kind g = .proxy → p.Within (st.registeredSubscribers g)) :
    Balancing kind ((st.setCounter g side 1).setPhase g side p) := by
  have hidle := (h.tables.counter_iff g side).mp hzero
  refine ⟨h.counted, ?_, h.tables.setCounter side hwithin hbatch Nat.one_pos,
    h.stacked.setAt (h.stacked.not_mem_loops (.inl hidle))⟩
  intro s hleaving
  have hsame : endsOwed kind st.gatewayOf (setAt st.phase g side p)
      st.needsCallbackBatchEndsCall s = endsOwed kind st.gatewayOf st.phase
      st.needsCallbackBatchEndsCall s := by
    apply owed_setAt_of_eq
    intro hg hkind
    rw [howed s hg hkind, hidle, Phase.owed]
  exact (h.owed s hleaving).trans hsame.symm

/-- `BeginCallbackBatch` -/
theorem Balancing.beginBatch (h : Balancing kind st)
    (hquiet : st.counter g side = 0 → kind g = .proxy →
      ∀ s, st.gatewayOf s = some g → s ∉ endings st.stack) :
    Balancing kind (beginBatch kind g side st) := by
  unfold CallbackBatches.beginBatch
  split
  · next hzero =>
    rw [hzero]
    have hidle := (h.tables.counter_iff g side).mp hzero
    have hfree := h.stacked.not_mem_loops (.inl hidle)
    cases hkind : kind g with
    | proxy =>
        have hstart := h.start (p := .beginning (st.registeredSubscribers g))
          hzero (by simp)
          (by
            intro s hs _
            have hmem := (h.tables.registered_iff g s).mpr hs
            simp [Phase.owed, hmem])
          (fun _ => ⟨h.tables.registered_nodup g, List.Subset.refl _⟩)
        refine hstart.callbackBatchBegins hkind ?_ hfree (hquiet hzero hkind)
        simp [BatchState.setPhase]
    | mux =>
        exact h.start (p := .underWay) hzero (by simp)
          (by simp [hkind])
          (by simp [hkind])
  · next hbatch => exact h.setCounter hbatch (Nat.succ_pos _)

/-- `EndCallbackBatch` -/
theorem Balancing.endBatch (h : Balancing kind st)
    (hquiet : st.counter g side = 1 →
      ∀ s, st.gatewayOf s = some g → s ∉ endings st.stack) :
    Balancing kind (endBatch kind g side st) := by
  unfold CallbackBatches.endBatch
  split
  · exact h.setCounter (by omega) (by omega)
  · split
    · next hnested hunderWay =>
      have hbatch : st.counter g side ≠ 0 := by
        intro hzero
        have := (h.tables.counter_iff g side).mp hzero
        simp [hunderWay] at this
      have hone : st.counter g side = 1 := by omega
      have hfree := h.stacked.not_mem_loops (.inr hunderWay)
      cases hkind : kind g with
      | proxy =>
          have hset := h.setPhase
            (p := .ending none (st.registeredSubscribers g)) hfree
            (by
              intro s hs _
              have hmem := (h.tables.registered_iff g s).mpr hs
              simp [Phase.owed, hmem, hunderWay])
            (fun _ =>
              ⟨h.tables.registered_nodup g, List.Subset.refl _, by simp⟩)
            (by simp [hone])
          refine hset.callbackBatchEnds hkind ?_ hone hfree (hquiet hone)
          simp [BatchState.setPhase]
      | mux =>
          have hset := h.setPhase (p := .draining) hfree (by simp [hkind])
            (by simp [hkind]) (by simp [hone])
          refine hset.callbackBatchEndsMux hkind ?_ rfl hone hfree (hquiet hone)
          simp [BatchState.setPhase]
    · exact h

/-- A callback, and the begin that a mux tells of first. -/
theorem Balancing.callBack (h : Balancing kind st) :
    Balancing kind (callBack kind g s st) := by
  unfold CallbackBatches.callBack
  split
  · next hgateway =>
    split
    · next hensure =>
      obtain ⟨hmux, hbatch, hnew⟩ := hensure
      have hcount : st.callbackBatchCounter s = 0 := by
        rw [h.owed s (by simp [hgateway, hmux])]
        simp [endsOwed, hgateway, hmux, hnew]
      have hending : s ∉ endings st.stack := by
        intro hmem
        have hone := (h.counted s).ending hmem
        simp [hcount] at hone
      rw [if_pos hcount]
      suffices hensured : Balancing kind ((st.setNeeds g
          (st.needsCallbackBatchEndsCall g ++ [s])).beginCallbackBatch s) from
        hensured.push trivial (by simp [loopOf]) rfl
      refine ⟨?_, ?_, ?_, ?_⟩
      · intro s'
        have hcounted := h.counted s'
        by_cases hs : s' = s
        · subst hs
          simp only [BatchState.setNeeds, BatchState.beginCallbackBatch,
            Function.update_self]
          exact hcounted.begin hending
        · simp only [BatchState.setNeeds, BatchState.beginCallbackBatch,
            Function.update_of_ne hs]
          exact hcounted
      · intro s' hleaving
        by_cases hs : s' = s
        · subst hs
          simp [BatchState.setNeeds, BatchState.beginCallbackBatch, endsOwed,
            hgateway, hmux, hcount]
        · have howed := h.owed s' hleaving
          simp only [BatchState.setNeeds, BatchState.beginCallbackBatch,
            Function.update_of_ne hs]
          rw [howed]
          refine (endsOwed_congr rfl (fun _ _ => rfl) fun g' => ?_).symm
          by_cases hg : g' = g
          · subst hg
            simp [hs]
          · rw [Function.update_of_ne hg]
      · apply h.tables.setNeeds
        · rw [List.nodup_append]
          refine ⟨h.tables.needs_nodup g, List.nodup_singleton s, ?_⟩
          rintro a ha b hb rfl
          exact hnew (List.mem_singleton.mp hb ▸ ha)
        · intro a ha
          rcases List.mem_append.mp ha with ha | ha
          · exact h.tables.needs_registered g ha
          · obtain rfl := List.mem_singleton.mp ha
            exact (h.tables.registered_iff g a).mpr hgateway
        · intro _ hzero
          omega
      · apply h.stacked.setNeeds
        intro s' rest hhead _
        exact ⟨rest ++ [s], by rw [hhead, List.cons_append]⟩
    · exact h.push trivial (by simp [loopOf]) rfl
  · exact h

/-- What goes on when a call returns. -/
theorem Balancing.afterCall (h : Balancing kind st)
    (hstack : st.stack = frame :: stack) (hnested : ¬InNestedBatch st frame)
    (hroom : ∀ s g reached, frame = .leaves s (some g) reached →
      RoomAt kind st.phase reached g) :
    Balancing kind (afterCall { st with stack := stack } frame) := by
  have hstacked := h.stacked
  rw [hstack] at hstacked
  obtain ⟨hpopped, hmatches, hloop, -⟩ := hstacked.pop
  cases frame with
  | begins g side s =>
      obtain ⟨hkind, rest, hphase⟩ := hmatches
      obtain ⟨hfree, hquiet⟩ := hloop (g, side) rfl
      have hnext := (h.pop hstack rfl).callbackBatchBegins hkind hphase hfree
        hquiet
      simpa only [CallbackBatches.afterCall, hphase] using hnext
  | ends g side s =>
      obtain ⟨hkind, hgateway, rest, hphase⟩ := hmatches
      obtain ⟨hfree, hquiet⟩ := hloop (g, side) rfl
      have hcounter := h.tables.counter_iff g side
      have hone : st.counter g side = 1 := by
        simp only [InNestedBatch] at hnested
        simp only [hphase, reduceCtorEq, iff_false] at hcounter
        omega
      have hgone : ((({ st with stack := stack } : BatchState γ σ).decrement
          s).setPhase g side (.ending none rest)).phase g side =
          .ending none rest := by
        simp [BatchState.setPhase]
      have hnext := (h.endsReturned hstack hphase).callbackBatchEnds hkind hgone
        hone hfree hquiet
      simpa only [CallbackBatches.afterCall, hphase] using hnext
  | drains g side s =>
      obtain ⟨hkind, hphase, rest, hneeds⟩ := hmatches
      obtain ⟨hfree, hquiet⟩ := hloop (g, side) rfl
      have hcounter := h.tables.counter_iff g side
      have hone : st.counter g side = 1 := by
        simp only [InNestedBatch] at hnested
        simp only [hphase, reduceCtorEq, iff_false] at hcounter
        omega
      have hgone : ((({ st with stack := stack } : BatchState γ σ).decrement
          s).setNeeds g rest).needsCallbackBatchEndsCall g = rest := by
        simp [BatchState.setNeeds]
      have hnext := (h.drainsReturned hstack hneeds).callbackBatchEndsMux hkind
        hphase hgone hone hfree hquiet
      simpa only [CallbackBatches.afterCall, hneeds, List.tail_cons] using hnext
  | ensures s => exact (h.pop hstack rfl).push trivial (by simp [loopOf]) rfl
  | callback s => exact h.pop hstack rfl
  | leaves s optGateway reached =>
      have hmem : s ∈ endings st.stack := by
        rw [hstack]
        exact List.mem_cons_self
      have hone := (h.counted s).ending hmem
      have hnext := h.leavesReturned hstack fun g hg =>
        hroom s g reached (by rw [hg])
      simpa [CallbackBatches.afterCall, CallbackBatches.setGateway, hone] using
        hnext

variable (kind st)

/-- No subscriber of the gateway is in its `CallbackBatchEnds`. -/
def Quiet (g : γ) : Prop :=
  ∀ s ∈ st.registeredSubscribers g, s ∉ endings st.stack

/-- Where a subscriber goes owes nothing to it. -/
def Welcome (reached : Bool) : Option γ → Prop
  | none => True
  | some g => RoomAt kind st.phase reached g

/-- The events that keep the balance. -/
def Allowed : Event γ σ → Prop
  | .beginCallbackBatch g side =>
      st.counter g side = 0 → kind g = .proxy → Quiet st g
  | .endCallbackBatch g side => st.counter g side = 1 → Quiet st g
  | .setGateway s optGateway reached =>
      st.gatewayOf s ≠ optGateway → s ∉ endings st.stack ∧
        (st.callbackBatchCounter s = 0 → Welcome kind st reached optGateway)
  | .callBack _ _ => True
  | .returned =>
      match st.stack with
      | .leaves _ optGateway reached :: _ => Welcome kind st reached optGateway
      | _ => True

variable {kind st}

/-- An event that is allowed keeps the balance. -/
theorem Balancing.step {e : Event γ σ} (h : Balancing kind st)
    (hallowed : Allowed kind st e) : Balancing kind (step kind st e) := by
  have hquiet : ∀ g, Quiet st g →
      ∀ s, st.gatewayOf s = some g → s ∉ endings st.stack :=
    fun g hg s hs => hg s ((h.tables.registered_iff g s).mpr hs)
  cases e with
  | beginCallbackBatch g side =>
      exact h.beginBatch fun hzero hkind => hquiet g (hallowed hzero hkind)
  | endCallbackBatch g side =>
      exact h.endBatch fun hone => hquiet g (hallowed hone)
  | setGateway s optGateway reached =>
      simp only [CallbackBatches.step]
      split
      · exact h
      · next hother =>
        obtain ⟨hending, hwelcome⟩ := hallowed hother
        have hunwinding : Unwinding kind s st :=
          ⟨h.counted, fun s' _ => h.owed s', h.tables, h.stacked⟩
        have howed : st.callbackBatchCounter s = _ := h.owed s
          fun _ _ _ hmem => hending (mem_endings_of_mem_leavings hmem)
        cases hcount : st.callbackBatchCounter s with
        | zero =>
            apply hunwinding.changeGateway hcount hother
            rintro g rfl
            exact hwelcome hcount
        | succ n =>
            refine hunwinding.setGateway hcount (fun _ _ _ => howed) hending
              hother ?_
            intro hnone
            rw [endsOwed, hnone, hcount] at howed
            simp at howed
  | callBack g s => exact h.callBack
  | returned =>
      simp only [CallbackBatches.step]
      split
      · exact h
      · next frame stack hstack =>
        split
        · exact h
        · next hnested =>
          refine h.afterCall hstack hnested ?_
          rintro s g reached rfl
          simpa only [Allowed, hstack, Welcome] using hallowed

end Steps

section Run

variable {kind : γ → GatewayKind}

/-- No subscriber has received an end too many, and whoever's gateway is in no
batch has received as many ends as begins. -/
def Balanced (st : BatchState γ σ) : Prop :=
  ∀ s, (st.received s).ends ≤ (st.received s).begins ∧
    (st.received s).callbackBatchEnds ≤ (st.received s).callbackBatchBegins ∧
    (st.received s).callbackBatchBegins ≤
      (st.received s).callbackBatchEnds + 1 ∧
    ((∀ g, st.gatewayOf s = some g → ∀ side, st.counter g side = 0) →
      (st.received s).begins = (st.received s).ends ∧
        (st.received s).callbackBatchBegins =
          (st.received s).callbackBatchEnds)

omit [DecidableEq γ] in
theorem Balancing.balanced {st : BatchState γ σ} (h : Balancing kind st) :
    Balanced st := by
  intro s
  obtain ⟨hcalls, hcallbacks, hending⟩ := h.counted s
  refine ⟨by grind, by grind, by grind, ?_⟩
  intro hidle
  by_cases hmem : s ∈ endings st.stack
  · have hone := hending hmem
    simp only [hmem, not_true_eq_false, and_false, if_true, if_false]
      at hcalls hcallbacks
    omega
  · -- a gateway that is in no batch owes nothing
    have hzero : st.callbackBatchCounter s = 0 := by
      rw [h.owed s fun _ _ _ hleaving =>
        hmem (mem_endings_of_mem_leavings hleaving)]
      unfold endsOwed
      cases hg : st.gatewayOf s with
      | none => rfl
      | some g =>
          have hphase := fun side =>
            (h.tables.counter_iff g side).mp (hidle g hg side)
          cases hkind : kind g with
          | proxy => simp [hkind, hphase, Phase.owed]
          | mux =>
              have hneeds := h.tables.needs_idle g hkind
                (hidle g hg .subscriber)
              simp [hkind, hneeds]
    grind

/-- **Callback batches balance** in every run in which no batch of a gateway
begins or ends while a subscriber of it is in its `CallbackBatchEnds`, no
subscriber changes gateways there, and none comes to a proxy that is past the
begin of a batch. -/
theorem balanced_of_allowed {es : List (Event γ σ)}
    (h : Runs.StepsMeet (step kind) (Allowed kind) .initial es) :
    Balanced (Runs.run (step kind) .initial es) :=
  (Runs.run_invariant_of_stepsMeet Balancing.initial h fun _ _ hst hallowed =>
    hst.step hallowed).balanced

end Run

section Checks

variable {kind : γ → GatewayKind} {st : BatchState γ σ}

instance decidableOpenTo (reached : Bool) :
    ∀ p : Phase σ, Decidable (p.OpenTo reached)
  | .idle => .isTrue trivial
  | .beginning _ => inferInstanceAs (Decidable (_ = true))
  | .underWay => .isFalse id
  | .ending _ _ => .isFalse id
  | .draining => .isFalse id

instance decidableWelcome (reached : Bool) :
    ∀ optGateway, Decidable (Welcome kind st reached optGateway)
  | none => .isTrue trivial
  | some _ => inferInstanceAs (Decidable (_ → _ ∧ _))

instance decidableQuiet (g : γ) : Decidable (Quiet st g) :=
  inferInstanceAs (Decidable (∀ s ∈ _, _))

instance decidableAllowed : ∀ e, Decidable (Allowed kind st e)
  | .beginCallbackBatch _ _ => inferInstanceAs (Decidable (_ → _ → _))
  | .endCallbackBatch _ _ => inferInstanceAs (Decidable (_ → _))
  | .setGateway _ _ _ => inferInstanceAs (Decidable (_ → _ ∧ (_ → _)))
  | .callBack _ _ => .isTrue trivial
  | .returned =>
      match h : st.stack with
      | .leaves _ optGateway reached :: _ =>
          decidable_of_iff (Welcome kind st reached optGateway) (by
            simp [Allowed, h])
      | [] => .isTrue (by simp [Allowed, h])
      | .begins _ _ _ :: _ => .isTrue (by simp [Allowed, h])
      | .ends _ _ _ :: _ => .isTrue (by simp [Allowed, h])
      | .drains _ _ _ :: _ => .isTrue (by simp [Allowed, h])
      | .ensures _ :: _ => .isTrue (by simp [Allowed, h])
      | .callback _ :: _ => .isTrue (by simp [Allowed, h])

end Checks

/-- A proxy and a mux. -/
def proxyAndMux (g : ℕ) : GatewayKind := if g = 0 then .proxy else .mux

/-- A subscriber of each.  In the proxy's batch another one begins and ends;
in the mux's batch, its subscriber goes over to the proxy. -/
def nestedAndLeaving : List (Event ℕ ℕ) :=
  [.setGateway 7 (some 0) false, .setGateway 8 (some 1) false,
    .beginCallbackBatch 0 .gateway, .beginCallbackBatch 0 .subscriber,
    .endCallbackBatch 0 .subscriber, .returned, .endCallbackBatch 0 .gateway,
    .returned, .beginCallbackBatch 1 .subscriber, .callBack 1 8, .returned,
    .setGateway 8 (some 0) false, .returned, .returned,
    .endCallbackBatch 1 .subscriber]

theorem balanced_of_allowed_nestedAndLeaving :
    Runs.StepsMeet (step proxyAndMux) (Allowed proxyAndMux) .initial
        nestedAndLeaving ∧
      Balanced (Runs.run (step proxyAndMux) .initial nestedAndLeaving) :=
  ⟨by decide, balanced_of_allowed (by decide)⟩

/-- A subscriber comes to a proxy that is in a batch. -/
def lateSubscriber : List (Event ℕ ℕ) :=
  [.beginCallbackBatch 0 .gateway, .setGateway 7 (some 0) false,
    .endCallbackBatch 0 .gateway]

/-- It is told of the end of a batch of whose begin it was not told. -/
theorem not_balanced_lateSubscriber :
    ¬Balanced (Runs.run (step proxyAndMux) .initial lateSubscriber) := by
  intro h
  have hends : ((Runs.run (step proxyAndMux) .initial lateSubscriber).received
      7).ends = 1 := by decide
  have hbegins : ((Runs.run (step proxyAndMux) .initial lateSubscriber).received
      7).begins = 0 := by decide
  have := (h 7).1
  omega

end ZgChoir.CallbackBatches
