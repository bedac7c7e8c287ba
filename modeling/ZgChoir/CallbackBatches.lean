import Mathlib
import ZgChoir.Runs

/-!
# Callback batches, with callbacks that call back

A gateway tells its subscribers when a batch of callbacks begins and when it
ends.  A `ProxyTreeGateway` tells everyone who is registered, in two loops; a
`MuxTreeGateway` tells a subscriber of the begin just before it first calls it
back, and at the end those it has told.  Every gateway has two counts of
nested batches, its own (`IGateway`) and the one in which it is told of
batches itself (`IGatewaySubscriber`); the first level of either makes it tell
its subscribers.

Whenever a subscriber is called, its code runs and may do anything: begin and
end batches, register and unregister itself or others, make the gateway call
back.  So the loops are taken apart at these calls.  What is to be done when
the subscriber's code returns is a frame on a stack, and how far a loop has
got is part of the gateway's state, where registration and unregistration
change it.

The events are those of a batch's callers and the subscribers' code; ends of
batches that have not begun do not occur among them, and a batch that begins
while another one ends is over before.
-/

namespace ZgChoir.CallbackBatches

/-- The counts of a gateway: as a gateway, and as a subscriber. -/
inductive Side where
  | gateway
  | subscriber
  deriving DecidableEq

/-- What tells the subscribers. -/
inductive GatewayKind where
  | proxy
  | mux
  deriving DecidableEq

/-- Where a gateway is with a batch.  The loops of a proxy have a rest of
subscribers to come to; in the second one, one of them may be in its
`CallbackBatchEnds`. -/
inductive Phase (σ : Type) where
  | idle
  | beginning (rest : List σ)
  | underWay
  | ending (current : Option σ) (rest : List σ)
  | draining
  deriving DecidableEq

/-- What waits for the code of a subscriber `s` to return. -/
inductive Frame (γ σ : Type) where
  /-- `ProxyTreeGateway::CallbackBatchBegins`, in `CallbackBatchBegins`. -/
  | begins (g : γ) (side : Side) (s : σ)
  /-- `ProxyTreeGateway::CallbackBatchEnds`, in `CallbackBatchEnds`. -/
  | ends (g : γ) (side : Side) (s : σ)
  /-- `MuxTreeGateway::CallbackBatchEnds`, in `CallbackBatchEnds`. -/
  | drains (g : γ) (side : Side) (s : σ)
  /-- `EnsureSubscriberInBatchGroup`, in `CallbackBatchBegins`. -/
  | ensures (s : σ)
  /-- Another callback. -/
  | callback (s : σ)
  /-- `SetGateway`, in `CallbackBatchEnds`. -/
  | leaves (s : σ) (optGateway : Option γ) (reached : Bool)

/-- How often a subscriber's `BeginCallbackBatch` and `EndCallbackBatch` have
been called, and its `CallbackBatchBegins` and `CallbackBatchEnds`. -/
structure Received where
  begins : ℕ
  ends : ℕ
  callbackBatchBegins : ℕ
  callbackBatchEnds : ℕ

/-- The gateways, the subscribers, and what is going on. -/
structure BatchState (γ σ : Type) where
  counter : γ → Side → ℕ
  phase : γ → Side → Phase σ
  registeredSubscribers : γ → List σ
  needsCallbackBatchEndsCall : γ → List σ
  gatewayOf : σ → Option γ
  callbackBatchCounter : σ → ℕ
  received : σ → Received
  stack : List (Frame γ σ)

/-- What callers and subscribers do. -/
inductive Event (γ σ : Type) where
  | beginCallbackBatch (g : γ) (side : Side)
  | endCallbackBatch (g : γ) (side : Side)
  /-- `SetGateway`; whether the loops under way there come to a new entry of
  the table that they go through is up to the table. -/
  | setGateway (s : σ) (optGateway : Option γ) (reached : Bool)
  /-- A gateway calls a subscriber back. -/
  | callBack (g : γ) (s : σ)
  /-- The subscriber's code that runs returns. -/
  | returned

section Step

variable {γ σ : Type} [DecidableEq γ] [DecidableEq σ]

/-- A function with one value changed. -/
def setAt {α : Type} (f : γ → Side → α) (g : γ) (side : Side) (a : α) :
    γ → Side → α :=
  Function.update f g (Function.update (f g) side a)

omit [DecidableEq σ] in
@[simp] theorem setAt_apply {α : Type} {f : γ → Side → α} {g g' : γ}
    {side side' : Side} {a : α} : setAt f g side a g' side' =
      if g' = g ∧ side' = side then a else f g' side' := by
  unfold setAt
  by_cases hg : g' = g
  · subst hg
    by_cases hside : side' = side
    · simp [hside]
    · simp [hside]
  · simp [hg]

namespace BatchState

/-- Nobody is registered. -/
def initial : BatchState γ σ where
  counter _ _ := 0
  phase _ _ := .idle
  registeredSubscribers _ := []
  needsCallbackBatchEndsCall _ := []
  gatewayOf _ := none
  callbackBatchCounter _ := 0
  received _ := ⟨0, 0, 0, 0⟩
  stack := []

variable (st : BatchState γ σ)

def setCounter (g : γ) (side : Side) (n : ℕ) : BatchState γ σ :=
  { st with counter := setAt st.counter g side n }

def setPhase (g : γ) (side : Side) (phase : Phase σ) : BatchState γ σ :=
  { st with phase := setAt st.phase g side phase }

def setNeeds (g : γ) (subs : List σ) : BatchState γ σ :=
  { st with
    needsCallbackBatchEndsCall :=
      Function.update st.needsCallbackBatchEndsCall g subs }

def push (frame : Frame γ σ) : BatchState γ σ :=
  { st with stack := frame :: st.stack }

/-- `IGatewaySubscriber::BeginCallbackBatch`, up to the subscriber's code,
which is called at the first level. -/
def beginCallbackBatch (s : σ) : BatchState γ σ :=
  let received := st.received s
  { st with
    callbackBatchCounter :=
      Function.update st.callbackBatchCounter s (st.callbackBatchCounter s + 1)
    received := Function.update st.received s
      { received with
        begins := received.begins + 1
        callbackBatchBegins := received.callbackBatchBegins +
          if st.callbackBatchCounter s = 0 then 1 else 0 } }

/-- `IGatewaySubscriber::EndCallbackBatch`, up to the subscriber's code, which
is called at the last level. -/
def endCallbackBatch (s : σ) : BatchState γ σ :=
  let received := st.received s
  { st with
    received := Function.update st.received s
      { received with
        ends := received.ends + 1
        callbackBatchEnds := received.callbackBatchEnds +
          if st.callbackBatchCounter s = 1 then 1 else 0 } }

/-- `_callbackBatchCounter.Decrement()`; the counter is MUSCLE's, and what it
makes of zero does not matter here. -/
def decrement (s : σ) : BatchState γ σ :=
  { st with
    callbackBatchCounter := Function.update st.callbackBatchCounter s
      (st.callbackBatchCounter s - 1) }

end BatchState

open BatchState

/-- `ProxyTreeGateway::CallbackBatchBegins`, from where it is. -/
def callbackBatchBegins (g : γ) (side : Side) :
    List σ → BatchState γ σ → BatchState γ σ
  | [], st => st.setPhase g side .underWay
  | s :: rest, st =>
      let begun := (st.beginCallbackBatch s).setPhase g side (.beginning rest)
      if st.callbackBatchCounter s = 0 then begun.push (.begins g side s)
      else callbackBatchBegins g side rest begun

/-- A gateway's batch is over. -/
def batchEnded (g : γ) (side : Side) (st : BatchState γ σ) :
    BatchState γ σ :=
  (st.setPhase g side .idle).setCounter g side (st.counter g side - 1)

/-- `ProxyTreeGateway::CallbackBatchEnds`, from where it is, and the decrement
after it. -/
def callbackBatchEnds (g : γ) (side : Side) :
    List σ → BatchState γ σ → BatchState γ σ
  | [], st => batchEnded g side st
  | s :: rest, st =>
      let ended := st.endCallbackBatch s
      if st.callbackBatchCounter s = 1 then
        (ended.setPhase g side (.ending (some s) rest)).push (.ends g side s)
      else callbackBatchEnds g side rest
        ((ended.decrement s).setPhase g side (.ending none rest))

/-- `MuxTreeGateway::CallbackBatchEnds`, from where it is, and the decrement
after it. -/
def callbackBatchEndsMux (g : γ) (side : Side) :
    List σ → BatchState γ σ → BatchState γ σ
  | [], st => batchEnded g side st
  | s :: rest, st =>
      let ended := st.endCallbackBatch s
      if st.callbackBatchCounter s = 1 then ended.push (.drains g side s)
      else callbackBatchEndsMux g side rest
        ((ended.decrement s).setNeeds g rest)

/-- A loop under way when an entry of the table goes. -/
def Phase.without (s : σ) : Phase σ → Phase σ
  | .beginning rest => .beginning (rest.filter fun a => decide (a ≠ s))
  | .ending current rest =>
      .ending (if current = some s then none else current)
        (rest.filter fun a => decide (a ≠ s))
  | phase => phase

/-- A loop under way when an entry comes that it will reach. -/
def Phase.with (s : σ) : Phase σ → Phase σ
  | .beginning rest => .beginning (rest ++ [s])
  | .ending current rest => .ending current (rest ++ [s])
  | phase => phase

/-- `UnregisterSubscriber` -/
def unregisterSubscriber (g : γ) (s : σ) (st : BatchState γ σ) :
    BatchState γ σ :=
  { st with
    registeredSubscribers := Function.update st.registeredSubscribers g
      ((st.registeredSubscribers g).filter fun a => decide (a ≠ s))
    needsCallbackBatchEndsCall :=
      Function.update st.needsCallbackBatchEndsCall g
        ((st.needsCallbackBatchEndsCall g).filter fun a => decide (a ≠ s))
    phase := Function.update st.phase g
      fun side => (st.phase g side).without s }

/-- `RegisterSubscriber` -/
def registerSubscriber (g : γ) (s : σ) (reached : Bool)
    (st : BatchState γ σ) : BatchState γ σ :=
  { st with
    registeredSubscribers := Function.update st.registeredSubscribers g
      (st.registeredSubscribers g ++ [s])
    phase := Function.update st.phase g
      fun side => if reached then (st.phase g side).with s
        else st.phase g side }

/-- The rest of `SetGateway`, when no batch is left to unwind. -/
def changeGateway (s : σ) (optGateway : Option γ) (reached : Bool)
    (st : BatchState γ σ) : BatchState γ σ :=
  let st := match st.gatewayOf s with
    | some g => unregisterSubscriber g s st
    | none => st
  let st := { st with gatewayOf := Function.update st.gatewayOf s optGateway }
  match optGateway with
  | some g => registerSubscriber g s reached st
  | none => st

/-- `SetGateway`, with as many levels to unwind. -/
def setGateway (s : σ) (optGateway : Option γ) (reached : Bool) :
    ℕ → BatchState γ σ → BatchState γ σ
  | 0, st => changeGateway s optGateway reached st
  | 1, st => (st.endCallbackBatch s).push (.leaves s optGateway reached)
  | n + 2, st => setGateway s optGateway reached (n + 1)
      ((st.endCallbackBatch s).decrement s)

variable (kind : γ → GatewayKind)

/-- `BeginCallbackBatch` of a gateway. -/
def beginBatch (g : γ) (side : Side) (st : BatchState γ σ) :
    BatchState γ σ :=
  let begun := st.setCounter g side (st.counter g side + 1)
  if st.counter g side = 0 then
    match kind g with
    | .proxy =>
        let subs := st.registeredSubscribers g
        callbackBatchBegins g side subs
          (begun.setPhase g side (.beginning subs))
    | .mux => begun.setPhase g side .underWay
  else begun

/-- `EndCallbackBatch` of a gateway: the end of a nested batch, or of one that
is under way. -/
def endBatch (g : γ) (side : Side) (st : BatchState γ σ) :
    BatchState γ σ :=
  if 1 < st.counter g side then st.setCounter g side (st.counter g side - 1)
  else if st.phase g side = .underWay then
    match kind g with
    | .proxy =>
        let subs := st.registeredSubscribers g
        callbackBatchEnds g side subs (st.setPhase g side (.ending none subs))
    | .mux => callbackBatchEndsMux g side (st.needsCallbackBatchEndsCall g)
        (st.setPhase g side .draining)
  else st

/-- A callback to a registered subscriber: a mux goes through
`EnsureSubscriberInBatchGroup` first. -/
def callBack (g : γ) (s : σ) (st : BatchState γ σ) : BatchState γ σ :=
  if st.gatewayOf s = some g then
    if kind g = .mux ∧ 0 < st.counter g .subscriber ∧
        s ∉ st.needsCallbackBatchEndsCall g then
      let ensured := (st.setNeeds g
        (st.needsCallbackBatchEndsCall g ++ [s])).beginCallbackBatch s
      if st.callbackBatchCounter s = 0 then ensured.push (.ensures s)
      else ensured.push (.callback s)
    else st.push (.callback s)
  else st

/-- What goes on after a call, where a batch that it began while another one
ends is over. -/
def afterCall (st : BatchState γ σ) : Frame γ σ → BatchState γ σ
  | .begins g side _ =>
      match st.phase g side with
      | .beginning rest => callbackBatchBegins g side rest st
      | _ => st
  | .ends g side s =>
      match st.phase g side with
      | .ending _ rest => callbackBatchEnds g side rest
          ((st.decrement s).setPhase g side (.ending none rest))
      | _ => st
  | .drains g side s =>
      let needs := (st.needsCallbackBatchEndsCall g).tail
      callbackBatchEndsMux g side needs ((st.decrement s).setNeeds g needs)
  | .ensures s => st.push (.callback s)
  | .callback _ => st
  | .leaves s optGateway reached =>
      setGateway s optGateway reached (st.callbackBatchCounter s - 1)
        (st.decrement s)

/-- A batch that began while another one ends is still under way. -/
def InNestedBatch (st : BatchState γ σ) : Frame γ σ → Prop
  | .ends g side _ => 1 < st.counter g side
  | .drains g side _ => 1 < st.counter g side
  | _ => False

instance decidableInNestedBatch (st : BatchState γ σ) :
    ∀ frame, Decidable (InNestedBatch st frame)
  | .ends _ _ _ => inferInstanceAs (Decidable (_ < _))
  | .drains _ _ _ => inferInstanceAs (Decidable (_ < _))
  | .begins _ _ _ => .isFalse id
  | .ensures _ => .isFalse id
  | .callback _ => .isFalse id
  | .leaves _ _ _ => .isFalse id

/-- One event. -/
def step (st : BatchState γ σ) : Event γ σ → BatchState γ σ
  | .beginCallbackBatch g side => beginBatch kind g side st
  | .endCallbackBatch g side => endBatch kind g side st
  | .setGateway s optGateway reached =>
      if st.gatewayOf s = optGateway then st
      else setGateway s optGateway reached (st.callbackBatchCounter s) st
  | .callBack g s => callBack kind g s st
  | .returned =>
      match st.stack with
      | [] => st
      | frame :: stack =>
          if InNestedBatch st frame then st
          else afterCall { st with stack := stack } frame

end Step

end ZgChoir.CallbackBatches
