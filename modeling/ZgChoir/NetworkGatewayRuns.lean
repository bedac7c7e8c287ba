import ZgChoir.NetworkAcceptance
import ZgChoir.Runs

/-!
# The network gateway at work

Inside a command batch the client side does not hand its messages to the
network one by one: it assembles them into one batch message, and that goes
out when the outermost batch ends.  On the server MUSCLE's session takes the
messages of a batch in turn.

So a run of the client side is a sequence of commands between beginnings and
ends of batches, and what it comes to on the server is a sequence of calls:
the same commands with the same arguments, in the same order, whatever the
batches.
-/

namespace ZgChoir.NetworkTreeGateway

variable {M F : Type}

/-- What is handed to the `INetworkMessageSender`. -/
inductive OutgoingMessage (M : Type) where
  | single (msg : NetworkMessage M)
  /-- a `PR_COMMAND_BATCH` message with these messages in it -/
  | batch (msgs : List (NetworkMessage M))

/-- The messages that the server takes in turn. -/
def OutgoingMessage.messages : OutgoingMessage M → List (NetworkMessage M)
  | .single msg => [msg]
  | .batch msgs => msgs

/-- `AssembleBatchMessage` -/
def assembleBatchMessage (batchMsg : Option (OutgoingMessage M))
    (newMsg : NetworkMessage M) : OutgoingMessage M :=
  match batchMsg with
  | none => .single newMsg
  | some (.single msg) => .batch [msg, newMsg]
  | some (.batch msgs) => .batch (msgs ++ [newMsg])

@[simp] theorem messages_assembleBatchMessage
    (batchMsg : Option (OutgoingMessage M)) (newMsg : NetworkMessage M) :
    (assembleBatchMessage batchMsg newMsg).messages =
      batchMsg.toList.flatMap (·.messages) ++ [newMsg] := by
  rcases batchMsg with _ | _ | _ <;>
    simp [assembleBatchMessage, OutgoingMessage.messages]

/-- `ClientSideNetworkTreeGateway`, with what it has handed to the network so
far. -/
structure ClientSide (M : Type) where
  commandBatchCounter : ℕ := 0
  outgoingBatchMsg : Option (OutgoingMessage M) := none
  sent : List (OutgoingMessage M) := []

namespace ClientSide

/-- `SendOutgoingMessageToNetwork` -/
def sendOutgoingMessageToNetwork (g : ClientSide M) (msg : NetworkMessage M) :
    ClientSide M :=
  if 0 < g.commandBatchCounter then
    { g with
      outgoingBatchMsg := some (assembleBatchMessage g.outgoingBatchMsg msg) }
  else { g with sent := g.sent ++ [.single msg] }

/-- `CommandBatchEnds` -/
def commandBatchEnds (g : ClientSide M) : ClientSide M :=
  match g.outgoingBatchMsg with
  | some batchMsg =>
      { g with outgoingBatchMsg := none, sent := g.sent ++ [batchMsg] }
  | none => g

/-- `BeginCommandBatch` -/
def beginCommandBatch (g : ClientSide M) : ClientSide M :=
  { g with commandBatchCounter := g.commandBatchCounter + 1 }

/-- `EndCommandBatch`: the outermost batch ends before it is counted off. -/
def endCommandBatch (g : ClientSide M) : ClientSide M :=
  let g := if g.commandBatchCounter = 1 then g.commandBatchEnds else g
  { g with commandBatchCounter := g.commandBatchCounter - 1 }

/-- What the gateway has made of the commands so far, in the order in which
the server takes it: what has been sent, and the batch it is assembling. -/
def messages (g : ClientSide M) : List (NetworkMessage M) :=
  g.sent.flatMap (·.messages) ++
    g.outgoingBatchMsg.toList.flatMap (·.messages)

end ClientSide

/-- What the gateway is asked to do. -/
inductive ClientEvent (M F : Type) where
  | beginCommandBatch
  | endCommandBatch
  | command (command : TreeCommand M F)

section Run

variable (archive : F → M)

/-- One step of the client side.  A command that its encoder refuses returns
an error to the caller and nothing else happens. -/
def clientStep (g : ClientSide M) : ClientEvent M F → ClientSide M
  | .beginCommandBatch => g.beginCommandBatch
  | .endCommandBatch => g.endCommandBatch
  | .command command =>
      match messageOf archive command with
      | .ok msg => g.sendOutgoingMessageToNetwork msg
      | .error _ => g

/-- The command of an event, if it is one that the encoders accept. -/
def acceptedCommand : ClientEvent M F → Option (TreeCommand M F)
  | .command command => if command.accepted then some command else none
  | _ => none

/-- The calls that the server makes of the messages it takes. -/
def callsOf (createQueryFilter : M → Option F)
    (msgs : List (NetworkMessage M)) : List (Option (TreeCommand M F)) :=
  msgs.map (incomingTreeMessageReceivedFromClient createQueryFilter)

end Run

variable {archive : F → M} {createQueryFilter : M → Option F}
  {g : ClientSide M}

/-- Outside a batch nothing is being assembled. -/
def ClientSide.Settled (g : ClientSide M) : Prop :=
  g.commandBatchCounter = 0 → g.outgoingBatchMsg = none

/-- Whether or not a batch is open, a message is taken after those before
it. -/
theorem messages_sendOutgoingMessageToNetwork (hsettled : g.Settled)
    (msg : NetworkMessage M) :
    (g.sendOutgoingMessageToNetwork msg).messages = g.messages ++ [msg] := by
  unfold ClientSide.sendOutgoingMessageToNetwork
  split
  · simp [ClientSide.messages]
  · have hnone : g.outgoingBatchMsg = none := hsettled (by omega)
    simp [ClientSide.messages, hnone, OutgoingMessage.messages]

theorem settled_sendOutgoingMessageToNetwork (hsettled : g.Settled)
    (msg : NetworkMessage M) :
    (g.sendOutgoingMessageToNetwork msg).Settled := by
  unfold ClientSide.sendOutgoingMessageToNetwork
  split
  · intro hzero
    exact absurd hzero (by simpa using Nat.ne_of_gt ‹_›)
  · exact hsettled

/-- The end of a batch moves its messages, and leaves their order. -/
theorem messages_endCommandBatch (g : ClientSide M) :
    g.endCommandBatch.messages = g.messages := by
  unfold ClientSide.endCommandBatch ClientSide.commandBatchEnds
  split
  · cases hbatch : g.outgoingBatchMsg <;> simp [ClientSide.messages, hbatch]
  · rfl

theorem settled_endCommandBatch (hsettled : g.Settled) :
    g.endCommandBatch.Settled := by
  unfold ClientSide.endCommandBatch ClientSide.commandBatchEnds
  intro hzero
  split at hzero
  · cases hbatch : g.outgoingBatchMsg <;> simp [*]
  · have hcounter : g.commandBatchCounter = 0 := by
      simp only at hzero
      omega
    simpa [*] using hsettled hcounter

/-- One step: the calls on the server grow by the command of the event, if it
is accepted. -/
theorem callsOf_clientStep
    (harchive : ∀ f, createQueryFilter (archive f) = some f)
    {e : ClientEvent M F} (hfits : ∀ c, e = .command c → c.Fits)
    (hsettled : g.Settled) :
    (clientStep archive g e).Settled ∧
      callsOf createQueryFilter (clientStep archive g e).messages =
        callsOf createQueryFilter g.messages ++
          (acceptedCommand e).toList.map some := by
  cases e with
  | beginCommandBatch =>
      refine ⟨fun hzero => absurd hzero (Nat.succ_ne_zero _), ?_⟩
      simp [clientStep, acceptedCommand, ClientSide.beginCommandBatch,
        ClientSide.messages]
  | endCommandBatch =>
      refine ⟨settled_endCommandBatch hsettled, ?_⟩
      simp [clientStep, acceptedCommand, messages_endCommandBatch]
  | command command =>
      cases hmsg : messageOf archive command with
      | error status =>
          have hrefused : ¬command.accepted = true := by
            intro haccepted
            obtain ⟨msg, hok⟩ : ∃ msg, messageOf archive command = .ok msg :=
              messageOf_isOK_iff.mpr haccepted
            rw [hmsg] at hok
            cases hok
          simpa [clientStep, acceptedCommand, hmsg, hrefused] using hsettled
      | ok msg =>
          have haccepted : command.accepted = true :=
            messageOf_isOK_iff.mp ⟨msg, hmsg⟩
          have hcall := messageOf_received harchive (hfits command rfl) hmsg
          simp only [clientStep, acceptedCommand, hmsg, if_pos haccepted]
          refine ⟨settled_sendOutgoingMessageToNetwork hsettled msg, ?_⟩
          rw [messages_sendOutgoingMessageToNetwork hsettled]
          simp [callsOf, hcall]

/-- A whole run, from any settled state. -/
theorem callsOf_run (harchive : ∀ f, createQueryFilter (archive f) = some f)
    {events : List (ClientEvent M F)}
    (hfits : ∀ c, .command c ∈ events → c.Fits) (hsettled : g.Settled) :
    callsOf createQueryFilter
        (Runs.run (clientStep archive) g events).messages =
      callsOf createQueryFilter g.messages ++
        (events.filterMap acceptedCommand).map some := by
  induction events generalizing g with
  | nil => simp
  | cons e events ih =>
      obtain ⟨hsettled', hcalls⟩ := callsOf_clientStep harchive
        (fun c hc => hfits c (hc ▸ List.mem_cons_self)) hsettled
      have hrest := ih (fun c hc => hfits c (List.mem_cons_of_mem e hc))
        hsettled'
      rw [Runs.run_cons, hrest, hcalls, List.filterMap_cons]
      cases acceptedCommand e <;> simp

/-- Filters are numbers here, their archives the odd ones. -/
def numberArchive (f : ℕ) : ℕ := 2 * f + 1

/-- The filter of an odd number. -/
def numberFilter (m : ℕ) : Option ℕ :=
  if m % 2 = 1 then some (m / 2) else none

/-- The what-codes from `'!Pr0'` on, a few of them. -/
def fewResults (what : UInt32) : Bool :=
  decide (558920240 ≤ what ∧ what < 558920256)

/-- A batch of two commands, and a third. -/
def threeCommands : List (ClientEvent ℕ ℕ) :=
  [.beginCommandBatch,
    .command (.addSubscription "dbs/*" (some 3) { noReply := true }),
    .command (.requestNodeSubtrees ["a", "b"] [some 1] "" 0 {}),
    .endCommandBatch,
    .command (.pingSeniorPeer "t" 0 {})]

end ZgChoir.NetworkTreeGateway
