import ZgChoir.Hashtable
import ZgChoir.Runs
import ZgChoir.Windows

/-!
# Packets that wait for the main thread

The I/O thread of a `UDPMulticastTransceiver` puts each packet that it reads
into a table, under its source, and drops the oldest packet of a source that
has too many.  When the table was empty before, it requests a callback.  The
main thread, called back, swaps the table for one that it has emptied, and
tells its targets about the packets in it.

The two threads meet in the critical sections of a mutex only; between these,
either may be anywhere.  Every dispatch delivers the last packets of each
source since the one before, and while a packet waits, a callback is requested,
or about to be, or has begun (`packets_delivered`).

The targets come and go while nothing is dispatched.
-/

namespace ZgChoir.PacketBacklog

/-! ## The code -/

/-- The event types. -/
structure UDPEventBits where
  packetReceived : Bool := false
  sleep : Bool := false
  awake : Bool := false
  deriving DecidableEq

/-- Where the main thread is: with nothing to do, in `DispatchCallbacks` before
the buffers are swapped, between that and the notification of the targets, or
past that. -/
inductive MainThread where
  | idle
  | dispatching (eventTypeBits : UDPEventBits)
  | swapped (eventTypeBits : UDPEventBits)
  | notified (eventTypeBits : UDPEventBits)

/-- What a target is told. -/
inductive TargetCall (Addr P : Type) where
  | udpPacketReceived (sourceIAP : Addr) (packetBytes : P)
  | computerIsAboutToSleep
  | computerJustWokeUp
  deriving DecidableEq

/-- A dispatch of packets: what had been received since the one before, who
the targets were, and what they were told. -/
structure PacketDispatch (τ Addr P : Type) where
  received : List (Addr × P)
  targets : List τ
  calls : List (τ × TargetCall Addr P)

/-- A `UDPMulticastTransceiver` and its implementation.  The I/O thread has
still to request a callback if `sendSignal`.  All that has been received is
kept for the record, and what of it since the buffers were swapped, and before
that since they were swapped the last time. -/
structure Transceiver (τ Addr P : Type) where
  ioThreadPendingUpdates : Hashtable Addr (List P)
  mainThreadPendingUpdates : Hashtable Addr (List P)
  sendSignal : Bool
  requestedBits : UDPEventBits
  mainThread : MainThread
  targets : Hashtable τ Unit
  received : List (Addr × P)
  receivedSince : List (Addr × P)
  receivedBefore : List (Addr × P)
  dispatches : List (PacketDispatch τ Addr P)
  sleepCalls : List (τ × TargetCall Addr P)

namespace Transceiver

variable {τ Addr P : Type}

/-- A transceiver that has just been started. -/
def started : Transceiver τ Addr P where
  ioThreadPendingUpdates := .empty
  mainThreadPendingUpdates := .empty
  sendSignal := false
  requestedBits := {}
  mainThread := .idle
  targets := .empty
  received := []
  receivedSince := []
  receivedBefore := []
  dispatches := []
  sleepCalls := []

variable (t : Transceiver τ Addr P)

section

variable [DecidableEq Addr] (perSenderMaxBacklogDepth : UInt32)

/-- The critical section of `UDPPacketReceived`. -/
def udpPacketReceived (sourceIAP : Addr) (packetData : P) :
    Transceiver τ Addr P :=
  let wasEmpty := t.ioThreadPendingUpdates.entries.isEmpty
  let added :=
    (t.ioThreadPendingUpdates.get? sourceIAP).getD [] ++ [packetData]
  let q := if perSenderMaxBacklogDepth.toNat < added.length then added.tail
    else added
  let pendingUpdates := t.ioThreadPendingUpdates.put sourceIAP q
  let ioThreadPendingUpdates := if q.isEmpty = true then
      pendingUpdates.remove sourceIAP
    else pendingUpdates
  { t with
    ioThreadPendingUpdates
    sendSignal := wasEmpty && !ioThreadPendingUpdates.entries.isEmpty }

/-- `DoInput`: a packet is read; it counts only if the transceiver receives
packets at all. -/
def doInput (sourceLoc : Addr) (packetBytes : P) : Transceiver τ Addr P :=
  let enabled := if 0 < perSenderMaxBacklogDepth then
      t.udpPacketReceived perSenderMaxBacklogDepth sourceLoc packetBytes
    else t
  { enabled with
    received := t.received ++ [(sourceLoc, packetBytes)]
    receivedSince := t.receivedSince ++ [(sourceLoc, packetBytes)] }

end

/-- `RequestCallbackInDispatchThread(1<<UDP_EVENT_TYPE_PACKETRECEIVED)` -/
def requestCallback : Transceiver τ Addr P :=
  if t.sendSignal = true then
    { t with
      sendSignal := false
      requestedBits := { t.requestedBits with packetReceived := true } }
  else t

/-- `ReportSleepNotification`: the two bits are mutually exclusive. -/
def reportSleepNotification (isAboutToSleep : Bool) : Transceiver τ Addr P :=
  { t with
    requestedBits := { t.requestedBits with
      sleep := isAboutToSleep
      awake := !isAboutToSleep } }

/-- `SwapUpdateBuffers` -/
def swapUpdateBuffers : Transceiver τ Addr P :=
  { t with
    ioThreadPendingUpdates := t.mainThreadPendingUpdates
    mainThreadPendingUpdates := t.ioThreadPendingUpdates
    receivedSince := []
    receivedBefore := t.receivedSince }

/-- The loops of `DispatchCallbacks` over the sources, the packets of each, and
the targets. -/
def packetCalls : List (τ × TargetCall Addr P) :=
  t.mainThreadPendingUpdates.entries.flatMap fun e =>
    e.2.flatMap fun b =>
      t.targets.keys.map fun target => (target, .udpPacketReceived e.1 b)

/-- `MainThreadNotifyAllOfSleepChange`, once for each of the two bits. -/
def notifyAllOfSleepChange (eventTypeBits : UDPEventBits) :
    List (τ × TargetCall Addr P) :=
  (if eventTypeBits.sleep = true then
      t.targets.keys.map fun target => (target, .computerIsAboutToSleep)
    else []) ++
  (if eventTypeBits.awake = true then
      t.targets.keys.map fun target => (target, .computerJustWokeUp)
    else [])

/-- The end of `DispatchCallbacks`. -/
def finishDispatch (eventTypeBits : UDPEventBits) : Transceiver τ Addr P :=
  { t with
    mainThread := .idle
    sleepCalls := t.sleepCalls ++ t.notifyAllOfSleepChange eventTypeBits }

/-- The next thing that the main thread does. -/
def mainThreadStep : Transceiver τ Addr P :=
  match t.mainThread with
  | .idle =>
      if t.requestedBits = {} then t
      else
        { t with
          mainThread := .dispatching t.requestedBits
          requestedBits := {} }
  | .dispatching eventTypeBits =>
      if eventTypeBits.packetReceived = true then
        { t.swapUpdateBuffers with mainThread := .swapped eventTypeBits }
      else t.finishDispatch eventTypeBits
  | .swapped eventTypeBits =>
      { t with
        mainThread := .notified eventTypeBits
        dispatches := t.dispatches ++
          [⟨t.receivedBefore, t.targets.keys, t.packetCalls⟩] }
  | .notified eventTypeBits =>
      ({ t with mainThreadPendingUpdates := .empty } : Transceiver τ Addr P)
        |>.finishDispatch eventTypeBits

end Transceiver

/-- What happens: the I/O thread reads a packet, requests the callback that is
due, or hears that the computer is about to sleep or has woken up; a target
comes or goes; the main thread goes on. -/
inductive TransceiverEvent (τ Addr P : Type) where
  | doInput (sourceLoc : Addr) (packetBytes : P)
  | requestCallback
  | reportSleepNotification (isAboutToSleep : Bool)
  | registerTarget (newTarget : τ)
  | unregisterTarget (target : τ)
  | mainThread

variable {τ Addr P : Type} [DecidableEq τ] [DecidableEq Addr]

/-- The I/O thread goes on to other things once it has requested the callback
that is due.  The targets change while the main thread has nothing to do. -/
def transceiverStep (perSenderMaxBacklogDepth : UInt32)
    (t : Transceiver τ Addr P) :
    TransceiverEvent τ Addr P → Transceiver τ Addr P
  | .doInput sourceLoc packetBytes =>
      if t.sendSignal = true then t
      else t.doInput perSenderMaxBacklogDepth sourceLoc packetBytes
  | .requestCallback => t.requestCallback
  | .reportSleepNotification isAboutToSleep =>
      if t.sendSignal = true then t
      else t.reportSleepNotification isAboutToSleep
  | .registerTarget newTarget =>
      match t.mainThread with
      | .idle => { t with targets := t.targets.put newTarget () }
      | _ => t
  | .unregisterTarget target =>
      match t.mainThread with
      | .idle => { t with targets := t.targets.remove target }
      | _ => t
  | .mainThread => t.mainThreadStep

/-! ## What is delivered -/

/-- The packets among the received ones that came from a source. -/
def packetsFrom (sourceIAP : Addr) (received : List (Addr × P)) : List P :=
  (received.filter fun r => r.1 = sourceIAP).map Prod.snd

/-- The packets from a source that a target is told about. -/
def packetsTo (target : τ) (sourceIAP : Addr)
    (calls : List (τ × TargetCall Addr P)) : List P :=
  calls.filterMap fun c =>
    match c with
    | (called, .udpPacketReceived source packetBytes) =>
        if called = target ∧ source = sourceIAP then some packetBytes else none
    | _ => none

/-- The packets of a source in a table. -/
def queued (table : Hashtable Addr (List P)) (sourceIAP : Addr) : List P :=
  (table.get? sourceIAP).getD []

/-- A dispatch told each target about the last packets of each source, and
told no one else anything. -/
def DeliversLast (depth : ℕ) (d : PacketDispatch τ Addr P) : Prop :=
  (∀ target ∈ d.targets, ∀ sourceIAP,
    packetsTo target sourceIAP d.calls =
      (packetsFrom sourceIAP d.received).rtake depth) ∧
  ∀ c ∈ d.calls, c.1 ∈ d.targets

/-- What has been received and was in no dispatch so far. -/
def undelivered (t : Transceiver τ Addr P) : List (Addr × P) :=
  (match t.mainThread with
    | .swapped _ => t.receivedBefore
    | _ => []) ++ t.receivedSince

/-- A callback for packets is requested, or about to be, or has begun and has
not swapped the buffers yet. -/
def CallbackDue (t : Transceiver τ Addr P) : Prop :=
  t.sendSignal = true ∨ t.requestedBits.packetReceived = true ∨
    ∃ eventTypeBits, t.mainThread = .dispatching eventTypeBits ∧
      eventTypeBits.packetReceived = true

/-! ## The queues of the sources -/

section

variable {sourceIAP source : Addr} {packetBytes : P} {depth : ℕ}
  {table : Hashtable Addr (List P)}

omit [DecidableEq τ]

@[simp] theorem queued_empty : queued (P := P) .empty sourceIAP = [] := rfl

/-- The queue of a source is exchanged for another one, which is not kept if it
is empty. -/
theorem queued_exchange {q : List P} :
    queued (if q.isEmpty = true then (table.put source q).remove source
        else table.put source q) sourceIAP =
      if sourceIAP = source then q else queued table sourceIAP := by
  simp only [List.isEmpty_iff, Hashtable.remove_put]
  exact Hashtable.getD_exchange

theorem packetsFrom_concat {received : List (Addr × P)} :
    packetsFrom sourceIAP (received ++ [(source, packetBytes)]) =
      packetsFrom sourceIAP received ++
        if source = sourceIAP then [packetBytes] else [] := by
  rw [packetsFrom, List.filter_append, List.map_append]
  congr 1
  split
  · next h => simp [h]
  · next h => simp [h]

omit [DecidableEq Addr] in
/-- A queue that has grown by one packet is trimmed by dropping its head. -/
theorem trimmed_eq_rtake {added : List P} (h : added.length ≤ depth + 1) :
    (if depth < added.length then added.tail else added) =
      added.rtake depth := by
  split
  · next hlong =>
      have hdrop : added.length - depth = 1 := by omega
      rw [List.rtake, hdrop, List.drop_one]
  · next hshort => exact (Windows.rtake_of_length_le (by omega)).symm

variable {t : Transceiver τ Addr P} {perSenderMaxBacklogDepth : UInt32}

/-- **Reception.**  The queue of the source gets the packet, and is trimmed. -/
theorem queued_udpPacketReceived
    (hshort : (queued t.ioThreadPendingUpdates source).length ≤
      perSenderMaxBacklogDepth.toNat) :
    queued (t.udpPacketReceived perSenderMaxBacklogDepth source
        packetBytes).ioThreadPendingUpdates sourceIAP =
      if sourceIAP = source then
        (queued t.ioThreadPendingUpdates source ++ [packetBytes]).rtake
          perSenderMaxBacklogDepth.toNat
      else queued t.ioThreadPendingUpdates sourceIAP := by
  have hlen : (queued t.ioThreadPendingUpdates source ++
      [packetBytes]).length ≤ perSenderMaxBacklogDepth.toNat + 1 := by
    rw [List.length_append, List.length_singleton]
    omega
  rw [← trimmed_eq_rtake hlen]
  exact queued_exchange

end

/-! ## The calls of a dispatch -/

section

variable {target : τ} {sourceIAP : Addr}

/-- The entries of a key hold what the table answers. -/
theorem flatMap_entries_eq_queued (table : Hashtable Addr (List P)) :
    (table.entries.flatMap fun e => if e.1 = sourceIAP then e.2 else []) =
      queued table sourceIAP := by
  obtain ⟨entries, distinct⟩ := table
  rw [queued, Hashtable.get?]
  dsimp only
  induction entries with
  | nil => rfl
  | cons first rest ih =>
      obtain ⟨hfirst, hrest⟩ := List.nodup_cons.mp distinct
      rw [List.flatMap_cons, List.lookup_cons]
      by_cases h : first.1 = sourceIAP
      · have hnone : (rest.flatMap fun e =>
            if e.1 = sourceIAP then e.2 else []) = [] := by
          refine List.flatMap_eq_nil_iff.mpr ?_
          intro e he
          have hkey : e.1 ∈ rest.map Prod.fst := List.mem_map_of_mem he
          refine if_neg ?_
          intro heq
          exact hfirst (h.trans heq.symm ▸ hkey)
        simp [h, hnone]
      · have hkey : (sourceIAP == first.1) = false :=
          beq_eq_false_iff_ne.mpr (Ne.symm h)
        rw [if_neg h, List.nil_append, hkey]
        exact ih hrest

theorem packetsTo_flatMap {α : Type} {f : α → List (τ × TargetCall Addr P)}
    {l : List α} : packetsTo target sourceIAP (l.flatMap f) =
      l.flatMap fun a => packetsTo target sourceIAP (f a) :=
  List.filterMap_flatMap

variable {t : Transceiver τ Addr P}

/-- **Dispatch.**  Each target is told about the packets of a source in the
order of its queue. -/
theorem packetsTo_packetCalls (htarget : target ∈ t.targets.keys) :
    packetsTo target sourceIAP t.packetCalls =
      queued t.mainThreadPendingUpdates sourceIAP := by
  have hpacket : ∀ (e : Addr × List P) (b : P),
      packetsTo target sourceIAP (t.targets.keys.map fun called =>
        (called, TargetCall.udpPacketReceived e.1 b)) =
      if e.1 = sourceIAP then [b] else [] := by
    intro e b
    rw [packetsTo, List.filterMap_map]
    by_cases h : e.1 = sourceIAP
    · have honce : t.targets.keys.filter (fun called => decide (called = target))
          = [target] := by
        rw [List.filter_eq,
          List.count_eq_one_of_mem t.targets.nodup_keys htarget,
          List.replicate_one]
      have htold := List.filterMap_filter
        (p := fun called => decide (called = target))
        (f := fun _ => some b) (l := t.targets.keys)
      rw [if_pos h]
      simpa [h, honce] using htold.symm
    · rw [if_neg h]
      simp [h]
  have hqueue : ∀ e : Addr × List P,
      packetsTo target sourceIAP (e.2.flatMap fun b =>
        t.targets.keys.map fun called =>
          (called, TargetCall.udpPacketReceived e.1 b)) =
      if e.1 = sourceIAP then e.2 else [] := by
    intro e
    simp only [packetsTo_flatMap, hpacket]
    split
    · exact List.flatMap_singleton' _
    · exact List.flatMap_eq_nil_iff.mpr fun _ _ => rfl
  simp only [Transceiver.packetCalls, packetsTo_flatMap, hqueue]
  exact flatMap_entries_eq_queued _

omit [DecidableEq τ] [DecidableEq Addr] in
theorem mem_targets_of_mem_packetCalls {c : τ × TargetCall Addr P}
    (hc : c ∈ t.packetCalls) : c.1 ∈ t.targets.keys := by
  obtain ⟨e, -, he⟩ := List.mem_flatMap.mp hc
  obtain ⟨b, -, hb⟩ := List.mem_flatMap.mp he
  obtain ⟨target, htarget, rfl⟩ := List.mem_map.mp hb
  exact htarget

end

/-! ## The two threads -/

/-- What the main thread finds in its table, wherever it is. -/
def MainTableCorrect (depth : ℕ) (t : Transceiver τ Addr P) : Prop :=
  match t.mainThread with
  | .idle => t.mainThreadPendingUpdates = .empty
  | .dispatching _ => t.mainThreadPendingUpdates = .empty
  | .swapped _ => ∀ sourceIAP, queued t.mainThreadPendingUpdates sourceIAP =
      (packetsFrom sourceIAP t.receivedBefore).rtake depth
  | .notified _ => True

/-- What holds at every moment. -/
structure BacklogCorrect (depth : ℕ) (t : Transceiver τ Addr P) : Prop where
  ioTable : ∀ sourceIAP, queued t.ioThreadPendingUpdates sourceIAP =
    (packetsFrom sourceIAP t.receivedSince).rtake depth
  mainTable : MainTableCorrect depth t
  due : t.ioThreadPendingUpdates ≠ .empty → CallbackDue t
  split : t.received =
    t.dispatches.flatMap PacketDispatch.received ++ undelivered t
  delivered : ∀ d ∈ t.dispatches, DeliversLast depth d

section

variable {t : Transceiver τ Addr P} {depth : ℕ}

theorem backlogCorrect_started :
    BacklogCorrect depth (.started : Transceiver τ Addr P) where
  ioTable _ := by simp [Transceiver.started, packetsFrom, List.rtake]
  mainTable := rfl
  due hne := absurd rfl hne
  split := rfl
  delivered _ hd := absurd hd List.not_mem_nil

omit [DecidableEq Addr] in
theorem ne_empty_iff {table : Hashtable Addr (List P)} :
    table ≠ .empty ↔ table.entries.isEmpty = false := by
  rw [List.isEmpty_eq_false_iff, not_iff_not]
  constructor
  · rintro rfl
    rfl
  · exact fun h => Hashtable.ext h

omit [DecidableEq τ] in
/-- The signal is sent if the table was empty and is not any more. -/
theorem callbackDue_udpPacketReceived {perSenderMaxBacklogDepth : UInt32}
    {sourceIAP : Addr} {packetData : P}
    (hdue : t.ioThreadPendingUpdates ≠ .empty → CallbackDue t)
    (hidle : t.sendSignal ≠ true)
    (hne : (t.udpPacketReceived perSenderMaxBacklogDepth sourceIAP
      packetData).ioThreadPendingUpdates ≠ .empty) :
    CallbackDue (t.udpPacketReceived perSenderMaxBacklogDepth sourceIAP
      packetData) := by
  by_cases hwas : t.ioThreadPendingUpdates = .empty
  · have hnow := ne_empty_iff.mp hne
    have hempty : t.ioThreadPendingUpdates.entries.isEmpty = true := by
      rw [hwas]
      rfl
    have hsignal : (t.udpPacketReceived perSenderMaxBacklogDepth sourceIAP
        packetData).sendSignal =
      (t.ioThreadPendingUpdates.entries.isEmpty &&
        !(t.udpPacketReceived perSenderMaxBacklogDepth sourceIAP
          packetData).ioThreadPendingUpdates.entries.isEmpty) := rfl
    refine .inl ?_
    rw [hsignal, hempty, hnow]
    rfl
  · exact .inr ((hdue hwas).resolve_left hidle)

omit [DecidableEq τ] [DecidableEq Addr] in
theorem split_concat {past since : List (Addr × P)} {r : Addr × P}
    {all : List (Addr × P)} {delivered : List (Addr × P)}
    (h : all = delivered ++ (past ++ since)) :
    all ++ [r] = delivered ++ (past ++ (since ++ [r])) := by
  rw [h, List.append_assoc, List.append_assoc]

theorem backlogCorrect_doInput {perSenderMaxBacklogDepth : UInt32}
    {sourceLoc : Addr} {packetBytes : P}
    (h : BacklogCorrect perSenderMaxBacklogDepth.toNat t)
    (hidle : t.sendSignal ≠ true) :
    BacklogCorrect perSenderMaxBacklogDepth.toNat
      (t.doInput perSenderMaxBacklogDepth sourceLoc packetBytes) := by
  by_cases hdepth : 0 < perSenderMaxBacklogDepth
  · simp only [Transceiver.doInput, if_pos hdepth]
    refine ⟨?_, h.mainTable, ?_, split_concat h.split, h.delivered⟩
    · intro sourceIAP
      have hshort : (queued t.ioThreadPendingUpdates sourceLoc).length ≤
          perSenderMaxBacklogDepth.toNat := by
        rw [h.ioTable]
        exact Windows.length_rtake_le
      refine (queued_udpPacketReceived hshort).trans ?_
      rw [packetsFrom_concat]
      split
      · next hsource =>
          rw [h.ioTable, hsource, if_pos rfl, Windows.rtake_rtake_append]
      · next hsource =>
          rw [h.ioTable, if_neg (Ne.symm hsource), List.append_nil]
    · exact callbackDue_udpPacketReceived h.due hidle
  -- a transceiver that only sends
  · have hzero : perSenderMaxBacklogDepth.toNat = 0 := by
      rw [UInt32.lt_iff_toNat_lt] at hdepth
      exact Nat.eq_zero_of_not_pos hdepth
    simp only [Transceiver.doInput, if_neg hdepth]
    refine ⟨?_, h.mainTable, h.due, split_concat h.split, h.delivered⟩
    intro sourceIAP
    have hnone := h.ioTable sourceIAP
    rw [hzero, List.rtake_zero] at hnone ⊢
    exact hnone

theorem backlogCorrect_requestCallback (h : BacklogCorrect depth t) :
    BacklogCorrect depth t.requestCallback := by
  unfold Transceiver.requestCallback
  split
  · exact ⟨h.ioTable, h.mainTable, fun _ => .inr (.inl rfl), h.split,
      h.delivered⟩
  · exact h

theorem backlogCorrect_reportSleepNotification {isAboutToSleep : Bool}
    (h : BacklogCorrect depth t) :
    BacklogCorrect depth (t.reportSleepNotification isAboutToSleep) :=
  ⟨h.ioTable, h.mainTable, h.due, h.split, h.delivered⟩

/-- The targets do not matter to what waits. -/
theorem backlogCorrect_targets {targets : Hashtable τ Unit}
    (h : BacklogCorrect depth t) :
    BacklogCorrect depth { t with targets } :=
  ⟨h.ioTable, h.mainTable, h.due, h.split, h.delivered⟩

theorem backlogCorrect_finishDispatch {eventTypeBits : UDPEventBits}
    (h : BacklogCorrect depth t)
    (hcleared : t.mainThreadPendingUpdates = .empty)
    (hbegun : ∀ bits, t.mainThread = .dispatching bits →
      bits.packetReceived ≠ true)
    (hswapped : ∀ bits, t.mainThread ≠ .swapped bits) :
    BacklogCorrect depth (t.finishDispatch eventTypeBits) := by
  have hsplit : (t.finishDispatch eventTypeBits).received =
      t.dispatches.flatMap PacketDispatch.received ++
        undelivered (t.finishDispatch eventTypeBits) := by
    refine h.split.trans ?_
    congr 1
    unfold undelivered
    split
    · next bits hbits => exact absurd hbits (hswapped bits)
    · rfl
  refine ⟨h.ioTable, hcleared, ?_, hsplit, h.delivered⟩
  intro hne
  obtain hsignal | hrequested | ⟨bits, hbits, hpacket⟩ := h.due hne
  · exact .inl hsignal
  · exact .inr (.inl hrequested)
  · exact absurd hpacket (hbegun bits hbits)

/-- **The main thread** goes on. -/
theorem backlogCorrect_mainThreadStep (h : BacklogCorrect depth t) :
    BacklogCorrect depth t.mainThreadStep := by
  have hmain := h.mainTable
  have hsplit := h.split
  unfold Transceiver.mainThreadStep
  unfold MainTableCorrect at hmain
  unfold undelivered at hsplit
  split
  -- the callback begins, if one is requested
  · next hphase =>
      rw [hphase] at hmain hsplit
      split
      · exact h
      · refine ⟨h.ioTable, hmain, ?_, hsplit, h.delivered⟩
        intro hne
        obtain hsignal | hrequested | ⟨bits, hbits, -⟩ := h.due hne
        · exact .inl hsignal
        · exact .inr (.inr ⟨_, rfl, hrequested⟩)
        · exact nomatch hphase.symm.trans hbits
  -- the buffers are swapped, if there are packets
  · next eventTypeBits hphase =>
      rw [hphase] at hmain hsplit
      split
      · have hqueued : ∀ sourceIAP,
            queued t.mainThreadPendingUpdates sourceIAP =
              (packetsFrom sourceIAP ([] : List (Addr × P))).rtake depth := by
          intro sourceIAP
          rw [hmain, queued_empty]
          exact (List.rtake_nil depth).symm
        refine ⟨hqueued, h.ioTable, fun hne => absurd hmain hne, ?_,
          h.delivered⟩
        exact hsplit.trans (congrArg _ (List.append_nil _).symm)
      · next hnone =>
          refine backlogCorrect_finishDispatch h hmain ?_ ?_
          · intro bits hbits
            obtain rfl := MainThread.dispatching.inj (hphase.symm.trans hbits)
            exact hnone
          · intro bits hbits
            exact nomatch hphase.symm.trans hbits
  -- the targets are told
  · next eventTypeBits hphase =>
      rw [hphase] at hmain hsplit
      refine ⟨h.ioTable, trivial, ?_, ?_, ?_⟩
      · intro hne
        obtain hsignal | hrequested | ⟨bits, hbits, -⟩ := h.due hne
        · exact .inl hsignal
        · exact .inr (.inl hrequested)
        · exact nomatch hphase.symm.trans hbits
      · change t.received = (t.dispatches ++ _).flatMap _ ++
          ([] ++ t.receivedSince)
        rw [List.flatMap_append, List.flatMap_singleton, List.nil_append,
          List.append_assoc]
        exact hsplit
      · intro d hd
        obtain hold | hnew := List.mem_append.mp hd
        · exact h.delivered d hold
        · obtain rfl := List.mem_singleton.mp hnew
          refine ⟨?_, fun _ hc => mem_targets_of_mem_packetCalls hc⟩
          intro target htarget sourceIAP
          exact (packetsTo_packetCalls htarget).trans (hmain sourceIAP)
  -- the table is cleared
  · next eventTypeBits hphase =>
      have hcleared : BacklogCorrect depth { t with
          mainThreadPendingUpdates := .empty } := by
        refine ⟨h.ioTable, ?_, h.due, h.split, h.delivered⟩
        unfold MainTableCorrect
        rw [hphase]
        trivial
      refine backlogCorrect_finishDispatch hcleared rfl ?_ ?_
      · intro bits hbits
        exact nomatch hphase.symm.trans hbits
      · intro bits hbits
        exact nomatch hphase.symm.trans hbits

/-- **Step lemma.** -/
theorem backlogCorrect_step {perSenderMaxBacklogDepth : UInt32}
    {e : TransceiverEvent τ Addr P}
    (h : BacklogCorrect perSenderMaxBacklogDepth.toNat t) :
    BacklogCorrect perSenderMaxBacklogDepth.toNat
      (transceiverStep perSenderMaxBacklogDepth t e) := by
  cases e with
  | doInput sourceLoc packetBytes =>
      simp only [transceiverStep]
      split
      · exact h
      · next hidle => exact backlogCorrect_doInput h hidle
  | requestCallback => exact backlogCorrect_requestCallback h
  | reportSleepNotification isAboutToSleep =>
      simp only [transceiverStep]
      split
      · exact h
      · exact backlogCorrect_reportSleepNotification h
  | registerTarget newTarget =>
      simp only [transceiverStep]
      split
      · exact backlogCorrect_targets h
      · exact h
  | unregisterTarget target =>
      simp only [transceiverStep]
      split
      · exact backlogCorrect_targets h
      · exact h
  | mainThread => exact backlogCorrect_mainThreadStep h

end

/-- **The backlog.**  After every run, each dispatch has told each of its
targets about the last packets of each source since the dispatch before, in
their order and once each; nothing that was received is outside the dispatches
but what is still undelivered; and while a packet waits, a callback is due. -/
theorem packets_delivered (perSenderMaxBacklogDepth : UInt32)
    (es : List (TransceiverEvent τ Addr P)) :
    let t := Runs.run (transceiverStep perSenderMaxBacklogDepth) .started es
    (∀ d ∈ t.dispatches, DeliversLast perSenderMaxBacklogDepth.toNat d) ∧
      t.received =
        t.dispatches.flatMap PacketDispatch.received ++ undelivered t ∧
      (t.ioThreadPendingUpdates ≠ .empty → CallbackDue t) := by
  have h : BacklogCorrect perSenderMaxBacklogDepth.toNat
      (Runs.run (transceiverStep perSenderMaxBacklogDepth)
        (.started : Transceiver τ Addr P) es) :=
    Runs.run_invariant backlogCorrect_started
      fun _ _ hs => backlogCorrect_step hs
  exact ⟨h.delivered, h.split, h.due⟩

/-- Three packets of one source, where two are kept. -/
example :
    (Runs.run (transceiverStep 2) (.started : Transceiver ℕ ℕ ℕ)
      [.registerTarget 7, .doInput 0 10, .requestCallback, .doInput 0 11,
        .doInput 0 12, .mainThread, .mainThread, .mainThread]).dispatches.map
        PacketDispatch.calls =
      [[(7, .udpPacketReceived 0 11), (7, .udpPacketReceived 0 12)]] := by
  decide

end ZgChoir.PacketBacklog
