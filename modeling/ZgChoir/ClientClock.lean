import ZgChoir.ClockAccuracy

/-!
# The clock of a client

A client is no peer and hears no heartbeats.  Once in a while it pings the
heartbeat thread of the peer that it is connected to, and says in the ping
what its clock says; the thread adds what the network clock is by its own and
sends the ping back.  The thread reads its clock once, when it comes to the
pings that have come in, and answers all of them with that.

`ClientSystem` has a client beside the peers of a `ClockSystem`; it may ping
any of them, one after another.  A ping may be lost, and so may its answer, or
it may come in late or twice.  When the connection is lost the client forgets
what it knows.
-/

namespace ZgChoir

/-- `ClientConnector`, as far as it tells the time. -/
structure ClientConnector where
  timeAverager : ZGTimeAverager.Cached
  mainThreadToNetworkTimeOffset : Int64
  mainThreadLastTimeSyncPongTime : UInt64

namespace ClientConnector

/-- A connector that has not been started. -/
def new : ClientConnector := ⟨.new, invalidTimeOffset, muscleTimeNever⟩

/-- `ClientConnector::TimeSyncReceived`. -/
def timeSyncReceived (roundTripTime serverNetworkTime : UInt64)
    (localReceiveTime : ℕ) (c : ClientConnector) : ClientConnector :=
  if serverNetworkTime = muscleTimeNever then
    { timeAverager := ZGTimeAverager.averagerStep 20 c.timeAverager .clear
      mainThreadToNetworkTimeOffset := invalidTimeOffset
      mainThreadLastTimeSyncPongTime := muscleTimeNever }
  else
    let (average, timeAverager) :=
      (ZGTimeAverager.averagerStep 20 c.timeAverager (.addMeasurement
        roundTripTime localReceiveTime)).getAverageValueIgnoringOutliers
    { timeAverager
      mainThreadToNetworkTimeOffset := (serverNetworkTime -
        (.ofNat localReceiveTime - average / 2)).toInt64
      mainThreadLastTimeSyncPongTime := .ofNat localReceiveTime }

end ClientConnector

/-- The peers' clocks, and the client's. -/
structure ClientEnvironment (Addr : Type) extends ClockEnvironment Addr where
  clientAhead : ℕ
  clientAhead_lt : clientAhead < 2 ^ 61

/-- What the client's clock says. -/
def ClientEnvironment.clientClock {Addr : Type} (env : ClientEnvironment Addr)
    (time : ℕ) : ℕ :=
  time + env.clientAhead

/-- A ping: when it was sent, and its `ctm`. -/
structure TimeSyncPing where
  sentAt : ℕ
  ctm : UInt64

/-- What a peer took for the network time. -/
structure ClockReading where
  readAt : ℕ
  networkTime : UInt64

/-- A ping that has been answered; the reading's time is its `stm`. -/
structure TimeSyncPong where
  ping : TimeSyncPing
  reading : ClockReading

/-- The peers and a client, with all the pings, readings and answers. -/
structure ClientSystem (Addr : Type) where
  network : ClockSystem Addr
  client : ClientConnector
  pings : List TimeSyncPing
  readings : List ClockReading
  pongs : List TimeSyncPong

namespace ClientSystem

variable {Addr : Type} [DecidableEq Addr] [IPAddressAndPort Addr]
  (env : ClientEnvironment Addr)

/-- No peer is running, and the client knows nothing. -/
def initial : ClientSystem Addr := ⟨.initial, .new, [], [], []⟩

/-- Something happens among the peers; the client sends a ping; the thread of
a peer reads its clock; a ping is answered with a reading; an answer comes in;
the connection is lost. -/
inductive Event (Addr : Type) where
  | network (e : ClockSystem.Event Addr)
  | pings
  | reads (p : ZGPeerID)
  | answers (j k : ℕ)
  | receives (k : ℕ)
  | disconnects

/-- The system after an event. -/
def step (s : ClientSystem Addr) : Event Addr → ClientSystem Addr
  | .network e => { s with network := s.network.step env.toClockEnvironment e }
  | .pings =>
      { s with
        pings := s.pings ++ [{
          sentAt := s.network.time
          ctm := .ofNat (env.clientClock s.network.time) }] }
  | .reads p =>
      match s.network.peers p with
      | some st =>
          { s with
            readings := s.readings ++ [{
              readAt := s.network.time
              networkTime := getNetworkTime64ForRunTime64
                st.toNetworkTimeOffset
                (.ofNat (env.clock p s.network.time)) }] }
      | none => s
  | .answers j k =>
      match s.readings[j]?, s.pings[k]? with
      | some reading, some ping =>
          { s with pongs := s.pongs ++ [⟨ping, reading⟩] }
      | _, _ => s
  | .receives k =>
      match s.pongs[k]? with
      | some pong =>
          let localReceiveTime := env.clientClock s.network.time
          { s with
            client := s.client.timeSyncReceived
              (.ofNat localReceiveTime - pong.ping.ctm)
              pong.reading.networkTime localReceiveTime }
      | none => s
  | .disconnects =>
      { s with
        client := s.client.timeSyncReceived 0 muscleTimeNever
          (env.clientClock s.network.time) }

/-! ### What is promised of the network -/

/-- An answer may come in at this time: it has been under way for at least
`lo` and at most `hi` since the clock was read, and twice as long since the
ping was sent. -/
def PongArrivesAt (lo hi : ℕ) (pong : TimeSyncPong) (time : ℕ) : Prop :=
  (pong.reading.readAt + lo ≤ time ∧ time ≤ pong.reading.readAt + hi) ∧
    pong.ping.sentAt + 2 * lo ≤ time ∧ time ≤ pong.ping.sentAt + 2 * hi

instance (lo hi : ℕ) (pong : TimeSyncPong) (time : ℕ) :
    Decidable (PongArrivesAt lo hi pong time) :=
  inferInstanceAs (Decidable ((_ ∧ _) ∧ _ ∧ _))

/-- The peers are under the senior `q`, and heartbeats and answers come in on
time. -/
def Regular (lo hi lo' hi' : ℕ) (q : ZGPeerID) (s : ClientSystem Addr) :
    Event Addr → Prop
  | .network e => ClockSystem.Timely lo hi s.network e ∧
      ClockSystem.UnderSenior env.toClockEnvironment q s.network e
  | .receives k => ∀ pong ∈ s.pongs[k]?,
      PongArrivesAt lo' hi' pong s.network.time
  | _ => True

instance (lo hi lo' hi' : ℕ) (q : ZGPeerID) (s : ClientSystem Addr) :
    ∀ e : Event Addr, Decidable (Regular env lo hi lo' hi' q s e)
  | .network _ => inferInstanceAs (Decidable (_ ∧ _))
  | .receives _ => inferInstanceAs (Decidable (∀ pong ∈ s.pongs[_]?, _))
  | .pings => inferInstanceAs (Decidable True)
  | .reads _ => inferInstanceAs (Decidable True)
  | .answers _ _ => inferInstanceAs (Decidable True)
  | .disconnects => inferInstanceAs (Decidable True)

/-! ### The invariant -/

/-- From `time` on, what the client takes for the network time is at most
`behind` before what the clock of `q` says, and at most `ahead` after it. -/
def InTime (behind ahead : ℕ) (q : ZGPeerID) (time : ℕ)
    (toNetworkTimeOffset : Int64) : Prop :=
  ∀ t, time ≤ t → t < 2 ^ 61 →
    env.clock q t ≤ (getNetworkTime64ForRunTime64 toNetworkTimeOffset
      (.ofNat (env.clientClock t))).toNat + behind ∧
    (getNetworkTime64ForRunTime64 toNetworkTimeOffset
      (.ofNat (env.clientClock t))).toNat ≤ env.clock q t + ahead

/-- The reading is not one, or it is in time with `q`. -/
structure TrueReading (lo hi : ℕ) (q : ZGPeerID) (time : ℕ)
    (reading : ClockReading) : Prop where
  readAt : reading.readAt ≤ time
  networkTime : reading.networkTime = muscleTimeNever ∨
    (env.clock q reading.readAt ≤ reading.networkTime.toNat + hi ∧
      reading.networkTime.toNat ≤ env.clock q reading.readAt + (hi - lo))

/-- The ping says when it was sent. -/
structure TruePing (time : ℕ) (ping : TimeSyncPing) : Prop where
  sentAt : ping.sentAt ≤ time
  ctm : ping.ctm = .ofNat (env.clientClock ping.sentAt)

/-- What the client knows. -/
structure Attuned (lo hi lo' hi' : ℕ) (q : ZGPeerID) (time : ℕ)
    (c : ClientConnector) : Prop where
  averager : c.timeAverager.averager = .new ∨
    ZGTimeAverager.Within (2 * lo') (2 * hi') c.timeAverager.averager
  offset : c.mainThreadToNetworkTimeOffset = invalidTimeOffset ∨
    InTime env (hi + (hi' - lo')) (hi - lo + (hi' - lo')) q time
      c.mainThreadToNetworkTimeOffset

/-- **The invariant.** -/
structure KeepsTime (lo hi lo' hi' : ℕ) (q : ZGPeerID)
    (s : ClientSystem Addr) : Prop where
  keeps : ClockSystem.Keeps env.toClockEnvironment lo hi s.network
  synced : ClockSystem.Synced env.toClockEnvironment lo hi q s.network
  pings : ∀ ping ∈ s.pings, TruePing env s.network.time ping
  readings : ∀ reading ∈ s.readings,
    TrueReading env lo hi q s.network.time reading
  pongs : ∀ pong ∈ s.pongs, TruePing env s.network.time pong.ping ∧
    TrueReading env lo hi q s.network.time pong.reading
  client : Attuned env lo hi lo' hi' q s.network.time s.client

variable {env : ClientEnvironment Addr} {lo hi lo' hi' : ℕ} {q : ZGPeerID}
  {s : ClientSystem Addr} {time time' : ℕ}

section

omit [DecidableEq Addr] [IPAddressAndPort Addr]

theorem TrueReading.later {reading : ClockReading}
    (h : TrueReading env lo hi q time reading) (hle : time ≤ time') :
    TrueReading env lo hi q time' reading :=
  ⟨h.readAt.trans hle, h.networkTime⟩

theorem TruePing.later {ping : TimeSyncPing} (h : TruePing env time ping)
    (hle : time ≤ time') : TruePing env time' ping :=
  ⟨h.sentAt.trans hle, h.ctm⟩

theorem Attuned.later {c : ClientConnector}
    (h : Attuned env lo hi lo' hi' q time c) (hle : time ≤ time') :
    Attuned env lo hi lo' hi' q time' c :=
  ⟨h.averager, h.offset.imp_right fun hknown t ht hlt =>
    hknown t (hle.trans ht) hlt⟩

theorem toNat_clientClock (env : ClientEnvironment Addr) {time : ℕ}
    (h : time < 2 ^ 61) :
    (UInt64.ofNat (env.clientClock time)).toNat = env.clientClock time := by
  have hlt := env.clientAhead_lt
  apply toNat_ofNat_runTime
  unfold ClientEnvironment.clientClock
  omega

/-- **An answer that comes in at `r`** puts the offset right, with any half
round trip that is as long as messages take. -/
theorem inTime_of_pong {reading : ClockReading} {r : ℕ} {half : UInt64}
    (hhi : hi < 2 ^ 28) (hhi' : hi' < 2 ^ 28)
    (hread : TrueReading env lo hi q r reading)
    (hknown : reading.networkTime ≠ muscleTimeNever)
    (hlow : reading.readAt + lo' ≤ r) (hhigh : r ≤ reading.readAt + hi')
    (hr : r < 2 ^ 61) (hhalf : lo' ≤ half.toNat ∧ half.toNat ≤ hi') :
    InTime env (hi + (hi' - lo')) (hi - lo + (hi' - lo')) q r
      (reading.networkTime -
        (UInt64.ofNat (env.clientClock r) - half)).toInt64 := by
  intro t hle ht
  obtain ⟨hbehind, hahead⟩ := hread.networkTime.resolve_left hknown
  have hreadAt := ClockSystem.clock_lt env.toClockEnvironment q
    (show reading.readAt < 2 ^ 61 by omega)
  have hnetwork : (getNetworkTime64ForRunTime64 (reading.networkTime -
      (UInt64.ofNat (env.clientClock r) - half)).toInt64
      (.ofNat (env.clientClock t))).toNat =
      t + reading.networkTime.toNat + half.toNat - r :=
    toNat_networkTime_of_sample (by omega) env.clientAhead_lt hle ht
  rw [hnetwork]
  unfold ClockEnvironment.clock at hbehind hahead ⊢
  omega

/-! ### Steps -/

/-- A measurement is added and the average taken: nothing is cached then. -/
theorem spec_averageAfter (c : ZGTimeAverager.Cached) (m : UInt64) (now : ℕ) :
    (ZGTimeAverager.averagerStep 20 c (.addMeasurement m
        now)).getAverageValueIgnoringOutliers.1 =
      (c.averager.addMeasurement 20 m now).getAverageValueIgnoringOutliersAux ∧
    (ZGTimeAverager.averagerStep 20 c (.addMeasurement m
        now)).getAverageValueIgnoringOutliers.2.averager =
      c.averager.addMeasurement 20 m now := by
  constructor
  · unfold ZGTimeAverager.Cached.getAverageValueIgnoringOutliers
    dsimp only [ZGTimeAverager.averagerStep]
    exact if_pos rfl
  · rfl

/-- The connection is lost. -/
theorem Attuned.forgets {c : ClientConnector} (roundTripTime : UInt64)
    (localReceiveTime : ℕ) : Attuned env lo hi lo' hi' q time
      (c.timeSyncReceived roundTripTime muscleTimeNever localReceiveTime) := by
  rw [ClientConnector.timeSyncReceived, if_pos rfl]
  exact ⟨.inl rfl, .inl rfl⟩

/-- An answer comes in. -/
theorem Attuned.receives {c : ClientConnector} {pong : TimeSyncPong}
    (h : Attuned env lo hi lo' hi' q time c) (hhi : hi < 2 ^ 28)
    (hhi' : hi' < 2 ^ 28) (hping : TruePing env time pong.ping)
    (hread : TrueReading env lo hi q time pong.reading)
    (htime : time < 2 ^ 61) (harrives : PongArrivesAt lo' hi' pong time) :
    Attuned env lo hi lo' hi' q time (c.timeSyncReceived
      (.ofNat (env.clientClock time) - pong.ping.ctm)
      pong.reading.networkTime (env.clientClock time)) := by
  obtain ⟨⟨hlow, hhigh⟩, hping_low, hping_high⟩ := harrives
  by_cases hknown : pong.reading.networkTime = muscleTimeNever
  · rw [hknown]
    exact .forgets _ _
  have hsentAt := hping.sentAt
  have hclient := env.clientAhead_lt
  have hrtt : (UInt64.ofNat (env.clientClock time) - pong.ping.ctm).toNat =
      time - pong.ping.sentAt := by
    rw [hping.ctm, UInt64.toNat_sub, toNat_clientClock env htime,
      toNat_clientClock env (by omega)]
    unfold ClientEnvironment.clientClock
    omega
  have hwithin : ZGTimeAverager.Within (2 * lo') (2 * hi')
      (c.timeAverager.averager.addMeasurement 20
        (.ofNat (env.clientClock time) - pong.ping.ctm)
        (env.clientClock time)) := by
    apply ZGTimeAverager.within_addMeasurement (by omega) h.averager
    · omega
    · omega
  obtain ⟨haverage, haverager⟩ := spec_averageAfter c.timeAverager
    (.ofNat (env.clientClock time) - pong.ping.ctm) (env.clientClock time)
  rw [ClientConnector.timeSyncReceived, if_neg hknown]
  refine ⟨.inr ?_, .inr ?_⟩
  · exact haverager ▸ hwithin
  · obtain ⟨hlo, hle⟩ := hwithin.average (by omega)
    rw [← haverage] at hlo hle
    apply inTime_of_pong hhi hhi' hread hknown hlow hhigh htime
    have htwo : (2 : UInt64).toNat = 2 := rfl
    rw [UInt64.toNat_div, htwo]
    omega

end

omit [IPAddressAndPort Addr] in
theorem KeepsTime.withClient (h : KeepsTime env lo hi lo' hi' q s)
    {client : ClientConnector}
    (hclient : Attuned env lo hi lo' hi' q s.network.time client) :
    KeepsTime env lo hi lo' hi' q { s with client } :=
  ⟨h.keeps, h.synced, h.pings, h.readings, h.pongs, hclient⟩

omit [IPAddressAndPort Addr] in
/-- The network clock of a peer. -/
theorem trueReading_of_peer {p : ZGPeerID}
    {st : SyncedThread Addr} (h : KeepsTime env lo hi lo' hi' q s)
    (hp : s.network.peers p = some st) :
    TrueReading env lo hi q s.network.time
      { readAt := s.network.time
        networkTime := getNetworkTime64ForRunTime64 st.toNetworkTimeOffset
          (.ofNat (env.clock p s.network.time)) } := by
  refine ⟨le_rfl, ?_⟩
  apply (h.synced.offsets p st hp).imp
  · intro hinvalid
    exact if_pos (.inl hinvalid)
  · intro hknown
    exact hknown.2 s.network.time le_rfl h.keeps.time

theorem time_le_step
    (env : ClockEnvironment Addr) (s : ClockSystem Addr)
    (e : ClockSystem.Event Addr) : s.time ≤ (s.step env e).time := by
  have hsteps := ClockSystem.steps_step env s e
  generalize s.step env e = s' at *
  cases hsteps with
  | ignored => exact le_rfl
  | timePasses micros => exact Nat.le_add_right _ _
  | starts p => exact le_rfl
  | awakes p dests st hp => exact le_rfl
  | receives p sourceIAP k st hb hp hk => exact le_rfl

/-- **One event.** -/
theorem KeepsTime.step (hhi : hi < 2 ^ 28) (hhi' : hi' < 2 ^ 28)
    (h : KeepsTime env lo hi lo' hi' q s) {e : Event Addr}
    (hregular : Regular env lo hi lo' hi' q s e) :
    KeepsTime env lo hi lo' hi' q (s.step env e) := by
  cases e with
  | network e =>
      obtain ⟨htimely, hsenior⟩ := hregular
      have hle := time_le_step env.toClockEnvironment s.network e
      exact ⟨h.keeps.step hhi htimely, h.synced.step hhi h.keeps hsenior,
        fun ping hping => (h.pings ping hping).later hle,
        fun reading hread => (h.readings reading hread).later hle,
        fun pong hpong => ⟨(h.pongs pong hpong).1.later hle,
          (h.pongs pong hpong).2.later hle⟩, h.client.later hle⟩
  | pings =>
      refine ⟨h.keeps, h.synced, fun ping hping => ?_, h.readings, h.pongs,
        h.client⟩
      rcases List.mem_append.mp hping with hold | hnew
      · exact h.pings ping hold
      · rw [List.mem_singleton.mp hnew]
        exact ⟨le_rfl, rfl⟩
  | reads p =>
      cases hp : s.network.peers p with
      | none =>
          simp only [ClientSystem.step, hp]
          exact h
      | some st =>
          have htrue := trueReading_of_peer h hp
          simp only [ClientSystem.step, hp]
          refine ⟨h.keeps, h.synced, h.pings, fun reading hread => ?_,
            h.pongs, h.client⟩
          rcases List.mem_append.mp hread with hold | hnew
          · exact h.readings reading hold
          · rw [List.mem_singleton.mp hnew]
            exact htrue
  | answers j k =>
      cases hj : s.readings[j]? with
      | none =>
          simp only [ClientSystem.step, hj]
          exact h
      | some reading =>
          cases hk : s.pings[k]? with
          | none =>
              simp only [ClientSystem.step, hj, hk]
              exact h
          | some ping =>
              simp only [ClientSystem.step, hj, hk]
              refine ⟨h.keeps, h.synced, h.pings, h.readings,
                fun pong hpong => ?_, h.client⟩
              rcases List.mem_append.mp hpong with hold | hnew
              · exact h.pongs pong hold
              · rw [List.mem_singleton.mp hnew]
                exact ⟨h.pings ping (List.mem_of_getElem? hk),
                  h.readings reading (List.mem_of_getElem? hj)⟩
  | receives k =>
      cases hk : s.pongs[k]? with
      | none =>
          simp only [ClientSystem.step, hk]
          exact h
      | some pong =>
          simp only [ClientSystem.step, hk]
          obtain ⟨hping, hread⟩ := h.pongs pong (List.mem_of_getElem? hk)
          exact h.withClient (h.client.receives hhi hhi' hping hread
            h.keeps.time (hregular pong hk))
  | disconnects => exact h.withClient (.forgets _ _)

/-! ### Runs -/

/-- A client that knows the network time is in time with `q`. -/
def ClientInTime (env : ClientEnvironment Addr) (lo hi lo' hi' : ℕ)
    (q : ZGPeerID) (s : ClientSystem Addr) : Prop :=
  s.client.mainThreadToNetworkTimeOffset = invalidTimeOffset ∨
    InTime env (hi + (hi' - lo')) (hi - lo + (hi' - lo')) q s.network.time
      s.client.mainThreadToNetworkTimeOffset

/-- **The clocks of the clients agree with the network's.**  A client that
knows the network time is at most as far behind the senior's clock as the peer
that has told it may be, or as far ahead, and by what the ways of an answer
differ in length. -/
theorem clientClock_inTime (env : ClientEnvironment Addr)
    (lo hi lo' hi' : ℕ) (hhi : hi < 2 ^ 28) (hhi' : hi' < 2 ^ 28)
    (q : ZGPeerID) (es : List (Event Addr))
    (hregular : Runs.StepsMeet (step env) (Regular env lo hi lo' hi' q)
      initial es) :
    ClientInTime env lo hi lo' hi' q (Runs.run (step env) initial es) := by
  have hnetwork : ClockSystem.Keeps env.toClockEnvironment lo hi
      (initial : ClientSystem Addr).network := ClockSystem.keeps_initial
  have hstart : KeepsTime env lo hi lo' hi' q initial :=
    ⟨hnetwork, ⟨fun _ _ h => (nomatch h), fun _ h => (nomatch h)⟩,
      fun _ h => (nomatch h), fun _ h => (nomatch h), fun _ h => (nomatch h),
      ⟨.inl rfl, .inl rfl⟩⟩
  have hend := Runs.run_invariant_of_stepsMeet hstart hregular
    fun s e h he => h.step hhi hhi' he
  exact hend.client.offset

/-! ### A client of two peers -/

/-- The clock of the client is 5 milliseconds ahead. -/
def clientOfTwo : ClientEnvironment ClockSystem.InterfaceAddress where
  toClockEnvironment := ClockSystem.twoClocks
  clientAhead := 5000
  clientAhead_lt := by decide

/-- The client pings peer 1 twice: when that does not know the network time
yet, and when it has heard of it from peer 2. -/
def pingsTwice : List (Event ClockSystem.InterfaceAddress) :=
  (ClockSystem.followsTwo.take 3).map .network ++
    [.pings, .network (.timePasses 31), .reads ⟨0, 1⟩, .answers 0 0,
      .network (.timePasses 22), .receives 0] ++
  (ClockSystem.followsTwo.drop 3).map .network ++
    [.pings, .network (.timePasses 31), .reads ⟨0, 1⟩, .answers 1 1,
      .network (.timePasses 22), .receives 1]

/-- What the client has to add to its clock after some of these events. -/
def clientOffsetAfter (n : ℕ) : Int64 :=
  (Runs.run (step clientOfTwo) initial
    (pingsTwice.take n)).client.mainThreadToNetworkTimeOffset

example : clientOffsetAfter 9 = invalidTimeOffset ∧
    clientOffsetAfter 33 = -4085 := by
  decide +kernel

/-- The client's clock, which is 4100 microseconds ahead of the senior's. -/
theorem clientClock_inTime_pingsTwice :
    ClientInTime clientOfTwo 25 60 20 40 ⟨0, 2⟩
      (Runs.run (step clientOfTwo) initial pingsTwice) :=
  clientClock_inTime clientOfTwo 25 60 20 40 (by decide) (by decide) ⟨0, 2⟩
    pingsTwice (by decide +kernel)

end ClientSystem

end ZgChoir
