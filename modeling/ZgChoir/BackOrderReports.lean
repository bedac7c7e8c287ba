import ZgChoir.BackOrderTables

/-!
# Every back-order is reported once

A peer runs its databases and its sessions in any order of events.  The
tables of both sides agree after every run (`AgreeAt` at position 0), and
every order that has been accepted has been reported, or waits in its
database's table.

The hard step is a session that goes away.  `reportFailures_spec` follows its
loop: at every position the orders before it have been reported and the
others are still outstanding, and the loop comes to the end of the table,
though the table grows meanwhile.
-/

namespace ZgChoir

variable {DB Msg : Type}

open PZGUpdateBackOrderKey

instance (k : PZGUpdateBackOrderKey) : Decidable k.IsFull :=
  inferInstanceAs (Decidable (k.databaseUpdateID = databaseUpdateIDFullUpdate))

/-! ### Sessions while one goes away -/

namespace PZGNetworkIOSession

variable {net : Network} {n n' n'' : PZGNetworkIOSession}
variable {k : PZGUpdateBackOrderKey} {s : ℕ}

/-- Only the tables of back-orders are different. -/
structure SameSessions (n n' : PZGNetworkIOSession) : Prop where
  sessionsCreated : n'.sessionsCreated = n.sessionsCreated
  registered : n'.registeredUnicastSessions = n.registeredUnicastSessions
  named : n'.namedUnicastSessions = n.namedUnicastSessions
  remote : ∀ s, (n'.sessions s).remotePeerID = (n.sessions s).remotePeerID

theorem SameSessions.refl : SameSessions n n := ⟨rfl, rfl, rfl, fun _ => rfl⟩

theorem SameSessions.trans (h : SameSessions n n')
    (h' : SameSessions n' n'') : SameSessions n n'' where
  sessionsCreated := h'.sessionsCreated.trans h.sessionsCreated
  registered := h'.registered.trans h.registered
  named := h'.named.trans h.named
  remote s := (h'.remote s).trans (h.remote s)

theorem sameSessions_withBackOrders
    {backorders : List PZGUpdateBackOrderKey} :
    SameSessions n (n.withBackOrders s backorders) where
  sessionsCreated := rfl
  registered := rfl
  named := rfl
  remote s' := by
    unfold withBackOrders
    by_cases hs : s' = s
    · simp [hs]
    · simp [hs]

/-- A peer that has a session is not given another one. -/
theorem sameSessions_request
    (hnamed : n.namedUnicastSessions k.targetPeerID ≠ []) :
    SameSessions n (n.requestBackOrderFromSeniorPeer net k).2 := by
  obtain ⟨n₁, ret, n', hrequest, hn₁, hret⟩ :=
    requestBackOrderFromSeniorPeer_cases net n k
  obtain rfl : n₁ = n := hn₁.resolve_right fun hnew => hnamed hnew.1
  rw [hrequest]
  rcases hret with ⟨-, rfl⟩ | ⟨-, s, -, ⟨-, rfl⟩ | ⟨-, rfl⟩⟩
  · exact .refl
  · exact .refl
  · exact sameSessions_withBackOrders

/-- A request enters one order at most. -/
theorem tableOf_request
    (hnamed : n.namedUnicastSessions k.targetPeerID ≠ []) :
    (n.requestBackOrderFromSeniorPeer net k).2.tableOf s = n.tableOf s ∨
      (n.requestBackOrderFromSeniorPeer net k).2.tableOf s =
        n.tableOf s ++ [k] := by
  obtain ⟨n₁, ret, n', hrequest, hn₁, hret⟩ :=
    requestBackOrderFromSeniorPeer_cases net n k
  obtain rfl : n₁ = n := hn₁.resolve_right fun hnew => hnamed hnew.1
  rw [hrequest]
  rcases hret with ⟨-, rfl⟩ | ⟨-, s', -, ⟨-, rfl⟩ | ⟨-, rfl⟩⟩
  · exact .inl rfl
  · exact .inl rfl
  · rw [tableOf_withBackOrders]
    split
    · rename_i hs
      rw [hs]
      exact .inr rfl
    · exact .inl rfl

end PZGNetworkIOSession

variable {k : PZGUpdateBackOrderKey}

theorem drop_of_getElem? {backorders : List PZGUpdateBackOrderKey}
    {position : ℕ} (hget : backorders[position]? = some k) :
    backorders.drop position = k :: backorders.drop (position + 1) := by
  obtain ⟨hlt, rfl⟩ := List.getElem?_eq_some_iff.mp hget
  exact List.drop_eq_getElem_cons hlt

/-- How many turns it takes to report these orders: one for an order that is
for a whole database, and two for another one, because a new order may come of
its report. -/
def turns (backorders : List PZGUpdateBackOrderKey) : ℕ :=
  (backorders.map fun k => if k.IsFull then 1 else 2).sum

theorem turns_cons {backorders : List PZGUpdateBackOrderKey} :
    turns (k :: backorders) =
      (if k.IsFull then 1 else 2) + turns backorders := by
  rw [turns, List.map_cons, List.sum_cons, turns]

theorem turns_append {xs ys : List PZGUpdateBackOrderKey} :
    turns (xs ++ ys) = turns xs + turns ys := by
  rw [turns, List.map_append, List.sum_append, turns, turns]

theorem turns_le (backorders : List PZGUpdateBackOrderKey) :
    turns backorders ≤ 2 * backorders.length := by
  have hle : ∀ t ∈ backorders.map fun k => if k.IsFull then 1 else 2,
      t ≤ 2 := by
    intro t ht
    obtain ⟨k, -, rfl⟩ := List.mem_map.mp ht
    split <;> omega
  have hsum := List.sum_le_card_nsmul _ 2 hle
  rw [List.length_map, smul_eq_mul] at hsum
  unfold turns
  omega

namespace ConnectedPeer

open PZGNetworkIOSession PZGDatabaseState

variable {cb : Callbacks DB Msg} {p : ConnectedPeer DB Msg}
variable {s leaving position : ℕ}

/-- The tables of the databases. -/
def tables (p : ConnectedPeer DB Msg) : BackOrderTables :=
  fun i => (p.databases i).backorders

/-- The tables agree, and every order is accounted for, while `leaving` goes
away. -/
structure AgreeAt (p : ConnectedPeer DB Msg) (leaving position : ℕ) :
    Prop where
  agree : Agree p.numDatabases p.tables p.ioSession leaving position
  balanced : Balanced p.tables p.ordered p.reported
  whichDatabase : ∀ i, (p.databases i).whichDatabase = i

theorem AgreeAt.at_start (h : p.AgreeAt leaving 0) (leaving' : ℕ) :
    p.AgreeAt leaving' 0 :=
  ⟨h.agree.at_start leaving', h.balanced, h.whichDatabase⟩

theorem AgreeAt.mem_tables (h : p.AgreeAt leaving position) :
    ∀ i, ∀ k ∈ p.tables i, k.whichDatabase = i :=
  fun i k hk => (h.agree.held i k hk).1

theorem tables_update {i : UInt32} {d : PZGDatabaseState DB Msg} :
    (fun j => (Function.update p.databases i d j).backorders) =
      Function.update p.tables i d.backorders := by
  funext j
  by_cases hj : j = i
  · subst hj
    simp
  · simp [hj, tables]

/-! ### One method of one database -/

/-- A database places orders, after its table has become that of `d`. -/
theorem agreeAt_of_places {net : Network} {i : UInt32}
    (d : PZGDatabaseState DB Msg) {d' : PZGDatabaseState DB Msg}
    (hi : i < p.numDatabases)
    (hcalls : requestsOf d.masterCalls = [])
    (hwhich : d.whichDatabase = i)
    (hplaces : Places p.master (p.ioSession.link net) d d')
    (hagree : Agree p.numDatabases
      (Function.update p.tables i d.backorders) p.ioSession leaving position)
    (hbalanced : Balanced (Function.update p.tables i d.backorders)
      p.ordered p.reported)
    (hdatabases : ∀ j, (p.databases j).whichDatabase = j)
    (hlate : position = 0 ∨ ∀ r ∈ requestsOf d'.masterCalls, r.1.IsFull ∧
      r.1 ∉ (p.ioSession.tableOf leaving).take position) :
    AgreeAt { p with
      databases := Function.update p.databases i d'
      ioSession :=
        p.ioSession.place net ((requestsOf d'.masterCalls).map (·.1))
      ordered := p.ordered ++
        ((requestsOf d'.masterCalls).filter (·.2.isOK)).map (·.1) }
      leaving position := by
  obtain ⟨hsame, requests, hrequests, horders⟩ := hplaces
  rw [hcalls, List.nil_append] at hrequests
  rw [hrequests] at hlate ⊢
  rw [hwhich] at horders
  have hanswer : ∀ k, p.ioSession.answer net k =
      (p.ioSession.link net).backOrderStatus k :=
    fun k => requestBackOrderFromSeniorPeer_answer.symm
  have hagree' := hagree.place horders hi (Function.update_self ..) hanswer
    hlate
  have hbalanced' := hbalanced.place horders (Function.update_self ..)
  rw [Function.update_idem] at hagree' hbalanced'
  have htables := tables_update (p := p) (i := i) (d := d')
  constructor
  · rw [← htables] at hagree'
    exact hagree'
  · rw [← htables] at hbalanced'
    exact hbalanced'
  · intro j
    by_cases hj : j = i
    · subst hj
      simpa using hsame.trans hwhich
    · simpa [hj] using hdatabases j

/-- A method of a database, while nobody goes away. -/
theorem AgreeAt.runDatabase (h : p.AgreeAt leaving 0) (net : Network)
    (i : UInt32) {method : Master → Link → PZGDatabaseState DB Msg →
      PZGDatabaseState DB Msg}
    (hmethod : ∀ m link d, Places m link d (method m link d)) :
    (p.runDatabase net i method).AgreeAt leaving 0 := by
  unfold ConnectedPeer.runDatabase
  split
  · rename_i hi
    have hself : Function.update p.tables i (p.databases i).backorders =
        p.tables := Function.update_eq_self i p.tables
    refine agreeAt_of_places { p.databases i with masterCalls := [] } hi rfl
      (h.whichDatabase i) (hmethod _ _ _) ?_ ?_ h.whichDatabase (.inl rfl)
    · exact hself.symm ▸ h.agree
    · exact hself.symm ▸ h.balanced
  · exact h

/-- The result of an order, when the database and the session that it came
over are done with the order. -/
theorem agreeAt_backOrderResultReceived {net : Network}
    {opt : Option (PZGDatabaseUpdate Msg)}
    (hk : k ∈ p.tables k.whichDatabase)
    (hi : k.whichDatabase < p.numDatabases)
    (hagree : Agree p.numDatabases (Agree.without p.tables k) p.ioSession
      leaving position)
    (hbalanced : Balanced p.tables p.ordered p.reported)
    (hmem : ∀ i, ∀ k ∈ p.tables i, k.whichDatabase = i)
    (hdatabases : ∀ j, (p.databases j).whichDatabase = j)
    (hlate : position = 0 ∨ opt = none ∧ (¬ k.IsFull →
      k.full ∉ (p.ioSession.tableOf leaving).take position)) :
    (p.backOrderResultReceived cb net k opt).AgreeAt leaving position := by
  unfold backOrderResultReceived ConnectedPeer.runDatabase
  rw [if_pos hi]
  let d := { p.databases k.whichDatabase with masterCalls := [] }
  refine agreeAt_of_places (p := { p with reported := p.reported ++ [k] })
    (withoutBackOrder d k) hi rfl (hdatabases _)
    backOrderResultReceived_places hagree (hbalanced.report hk hmem)
    hdatabases (hlate.imp id ?_)
  rintro ⟨rfl, hstale⟩ r hr
  have hrequests := backOrderResultReceived_none cb p.master
    (p.ioSession.link net) d (hdatabases _).symm (List.nil_append _).symm
  rcases hrequests with hnone | ⟨hsingle, ret, hfull⟩
  · rw [hnone] at hr
    cases hr
  · rw [hfull, List.mem_singleton] at hr
    subst hr
    exact ⟨rfl, hstale hsingle⟩

/-! ### A session that goes away -/

theorem reported_backOrderResultReceived {net : Network}
    {opt : Option (PZGDatabaseUpdate Msg)} :
    (p.backOrderResultReceived cb net k opt).reported =
      p.reported ++ [k] := by
  unfold backOrderResultReceived ConnectedPeer.runDatabase
  split <;> rfl

/-- What a failure makes a database ask of the sessions. -/
theorem ioSession_backOrderResultReceived (cb : Callbacks DB Msg)
    (k : PZGUpdateBackOrderKey) (net : Network)
    (hdatabases : ∀ j, (p.databases j).whichDatabase = j) :
    (p.backOrderResultReceived cb net k none).ioSession = p.ioSession ∨
      ¬ k.IsFull ∧
        (p.backOrderResultReceived cb net k none).ioSession =
          (p.ioSession.requestBackOrderFromSeniorPeer net k.full).2 := by
  unfold backOrderResultReceived ConnectedPeer.runDatabase
  split
  · let d := { p.databases k.whichDatabase with masterCalls := [] }
    have hrequests := backOrderResultReceived_none cb p.master
      (p.ioSession.link net) d (hdatabases _).symm (List.nil_append _).symm
    dsimp only
    rcases hrequests with hnone | ⟨hsingle, ret, hfull⟩
    · refine .inl ?_
      rw [hnone]
      rfl
    · refine .inr ⟨hsingle, ?_⟩
      rw [hfull]
      rfl
  · exact .inl rfl

/-- One turn of the loop. -/
theorem AgreeAt.reportFailure (cb : Callbacks DB Msg)
    (h : p.AgreeAt s position)
    (hs : s ∈ p.ioSession.registeredUnicastSessions)
    (hget : (p.ioSession.tableOf s)[position]? = some k) (net : Network) :
    (p.backOrderResultReceived cb net k none).AgreeAt s (position + 1) ∧
    SameSessions p.ioSession
      (p.backOrderResultReceived cb net k none).ioSession ∧
    ((p.backOrderResultReceived cb net k none).ioSession.tableOf s =
        p.ioSession.tableOf s ∨
      ¬ k.IsFull ∧
        (p.backOrderResultReceived cb net k none).ioSession.tableOf s =
          p.ioSession.tableOf s ++ [k.full]) := by
  have hdrop := drop_of_getElem? hget
  have hpending : k ∈ p.ioSession.pending s position s := by
    rw [pending, if_pos rfl, hdrop]
    exact List.mem_cons_self
  have hmem := mem_tableOf_of_mem_pending hpending
  have hordered := h.agree.ordered s hs k hpending
  obtain ⟨-, hi, -⟩ := h.agree.held _ k hordered
  refine ⟨?_, ?_⟩
  · refine agreeAt_backOrderResultReceived hordered hi
      (h.agree.report hs hget) h.balanced h.mem_tables h.whichDatabase
      (.inr ⟨rfl, fun hsingle hstale => ?_⟩)
    -- an order for the whole database would come after this one
    have htake : (p.ioSession.tableOf s).take (position + 1) =
        (p.ioSession.tableOf s).take position ++ [k] := by
      rw [List.take_add_one, hget]
      rfl
    rw [htake, List.mem_append, List.mem_singleton] at hstale
    rcases hstale with hbefore | hself
    · have hpairs := h.agree.fullLast s hs
      rw [← List.take_append_drop position (p.ioSession.tableOf s), hdrop]
        at hpairs
      exact hsingle ((List.pairwise_append.mp hpairs).2.2 _ hbefore k
        List.mem_cons_self rfl rfl)
    · exact hsingle (hself ▸ rfl)
  · rcases ioSession_backOrderResultReceived cb k net
      h.whichDatabase with hsame | ⟨hsingle, hrequest⟩
    · rw [hsame]
      exact ⟨.refl, .inl rfl⟩
    · obtain ⟨htarget, hvalid⟩ := h.agree.target s hs k hmem
      have hnamed : p.ioSession.namedUnicastSessions k.full.targetPeerID ≠
          [] := by
        have hthere := h.agree.nameable s hs
          (htarget ▸ hvalid.resolve_left hsingle)
        rw [← htarget] at hthere
        exact List.ne_nil_of_mem hthere
      rw [hrequest]
      exact ⟨sameSessions_request hnamed,
        (tableOf_request hnamed).imp id fun hput => ⟨hsingle, hput⟩⟩

/-- The loop reports every order once: those that were in the table when it
started, and those that have been put there since. -/
theorem AgreeAt.reportFailures_spec (cb : Callbacks DB Msg)
    (nets : ℕ → Network) (fuel : ℕ)
    (h : p.AgreeAt s position)
    (hs : s ∈ p.ioSession.registeredUnicastSessions)
    (hfuel : turns ((p.ioSession.tableOf s).drop position) ≤ fuel) :
    let told := p.reportFailures cb nets s fuel position
    let table := told.ioSession.tableOf s
    told.AgreeAt s table.length ∧
      SameSessions p.ioSession told.ioSession ∧
      p.ioSession.tableOf s <+: table ∧
      told.reported = p.reported ++ table.drop position := by
  have hend : ∀ (p : ConnectedPeer DB Msg) position, p.AgreeAt s position →
      (p.ioSession.tableOf s).length ≤ position →
      p.AgreeAt s (p.ioSession.tableOf s).length ∧
        p.reported = p.reported ++ (p.ioSession.tableOf s).drop position := by
    intro p position h hle
    have heq : (p.ioSession.tableOf s).length = position := by
      rcases h.agree.leaves with hzero | ⟨-, hge⟩
      · omega
      · omega
    rw [heq, List.drop_eq_nil_of_le hle, List.append_nil]
    exact ⟨h, rfl⟩
  induction fuel generalizing p position with
  | zero =>
      have hnil : (p.ioSession.tableOf s).drop position = [] := by
        cases hdrop : (p.ioSession.tableOf s).drop position with
        | nil => rfl
        | cons k rest =>
            rw [hdrop, turns, List.map_cons, List.sum_cons] at hfuel
            split at hfuel <;> omega
      obtain ⟨hagree, hreported⟩ := hend p position h (List.drop_eq_nil_iff.mp hnil)
      exact ⟨hagree, .refl, List.prefix_refl _, hreported⟩
  | succ fuel ih =>
      dsimp only
      unfold ConnectedPeer.reportFailures
      cases hget : (p.ioSession.sessions s).backorders[position]? with
      | none =>
          have hle : (p.ioSession.tableOf s).length ≤ position :=
            List.getElem?_eq_none_iff.mp hget
          obtain ⟨hagree, hreported⟩ := hend p position h hle
          exact ⟨hagree, .refl, List.prefix_refl _, hreported⟩
      | some k =>
          have hget' : (p.ioSession.tableOf s)[position]? = some k := hget
          obtain ⟨hlt, hk⟩ := List.getElem?_eq_some_iff.mp hget'
          have hdrop := drop_of_getElem? hget'
          obtain ⟨hagree, hsame, hput⟩ := h.reportFailure cb hs hget
            (nets position)
          dsimp only
          generalize hp' : p.backOrderResultReceived cb (nets position) k none
            = p' at hagree hsame hput
          have hs' : s ∈ p'.ioSession.registeredUnicastSessions :=
            hsame.registered ▸ hs
          have hgrows : p.ioSession.tableOf s <+: p'.ioSession.tableOf s := by
            rcases hput with hput | ⟨-, hput⟩
            · rw [hput]
            · rw [hput]
              exact List.prefix_append _ _
          have hfuel' : turns ((p'.ioSession.tableOf s).drop (position + 1)) ≤
              fuel := by
            rw [hdrop, turns_cons] at hfuel
            rcases hput with hput | ⟨hsingle, hput⟩
            · rw [hput]
              split at hfuel <;> omega
            · have hle : position + 1 ≤ (p.ioSession.tableOf s).length := hlt
              rw [hput, List.drop_append_of_le_length hle, turns_append]
              rw [if_neg hsingle] at hfuel
              have hone : turns [k.full] = 1 := rfl
              omega
          obtain ⟨htold, hsame', hstarts, hreported⟩ := ih hagree hs' hfuel'
          refine ⟨htold, hsame.trans hsame', hgrows.trans hstarts, ?_⟩
          have hthere := List.prefix_iff_getElem?.mp (hgrows.trans hstarts)
            position hlt
          rw [hk] at hthere
          have hreport : p'.reported = p.reported ++ [k] := by
            rw [← hp']
            exact reported_backOrderResultReceived
          rw [hreported, hreport, drop_of_getElem? hthere, List.append_assoc]
          rfl

/-- A session that goes away reports all its orders, each once. -/
theorem AgreeAt.unregisterMyself_spec (cb : Callbacks DB Msg)
    (h : p.AgreeAt leaving 0)
    (hs : s ∈ p.ioSession.registeredUnicastSessions) (nets : ℕ → Network) :
    let gone := p.unregisterMyself cb nets s
    gone.AgreeAt leaving 0 ∧
      gone.ioSession.sessionsCreated = p.ioSession.sessionsCreated ∧
      gone.ioSession.registeredUnicastSessions =
        p.ioSession.registeredUnicastSessions.filter (· ≠ s) ∧
      (∀ s', (gone.ioSession.sessions s').remotePeerID =
        (p.ioSession.sessions s').remotePeerID) ∧
      ∃ told, gone.reported = p.reported ++ told ∧
        p.ioSession.tableOf s <+: told ∧ told.Nodup := by
  have hfuel := turns_le (p.ioSession.tableOf s)
  obtain ⟨hagree, hsame, hstarts, hreported⟩ :=
    (h.at_start s).reportFailures_spec cb nets _ hs hfuel
  have hs' : s ∈ (p.reportFailures cb nets s
      (2 * (p.ioSession.sessions s).backorders.length)
      0).ioSession.registeredUnicastSessions := hsame.registered ▸ hs
  refine ⟨?_, hsame.sessionsCreated, ?_,
    (hsame.trans sameSessions_withBackOrders).remote, _, hreported, hstarts,
    hagree.agree.nodup s hs'⟩
  · exact ⟨hagree.agree.leave le_rfl leaving, hagree.balanced,
      hagree.whichDatabase⟩
  · exact congrArg (List.filter _) hsame.registered

theorem AgreeAt.endSession_spec (cb : Callbacks DB Msg)
    (h : p.AgreeAt leaving 0)
    (nets : ℕ → Network) (s : ℕ) :
    (p.endSession cb nets s).AgreeAt leaving 0 ∧
      (p.endSession cb nets s).ioSession.registeredUnicastSessions =
        p.ioSession.registeredUnicastSessions.filter (· ≠ s) ∧
      ∀ s', ((p.endSession cb nets s).ioSession.sessions s').remotePeerID =
        (p.ioSession.sessions s').remotePeerID := by
  unfold ConnectedPeer.endSession
  by_cases hs : s ∈ p.ioSession.registeredUnicastSessions
  · rw [if_pos hs]
    obtain ⟨hagree, -, hregistered, hremote, -⟩ :=
      h.unregisterMyself_spec cb hs nets
    exact ⟨hagree, hregistered, hremote⟩
  · rw [if_neg hs]
    refine ⟨h, (List.filter_eq_self.mpr fun s' hs' => ?_).symm, fun _ => rfl⟩
    simpa using fun heq : s' = s => hs (heq ▸ hs')

theorem AgreeAt.endSessions_spec (cb : Callbacks DB Msg)
    (h : p.AgreeAt leaving 0)
    (nets : ℕ → ℕ → Network) (sessions : List ℕ) :
    (p.endSessions cb nets sessions).AgreeAt leaving 0 ∧
      (p.endSessions cb nets sessions).ioSession.registeredUnicastSessions =
        p.ioSession.registeredUnicastSessions.filter (· ∉ sessions) ∧
      ∀ s', ((p.endSessions cb nets sessions).ioSession.sessions
          s').remotePeerID = (p.ioSession.sessions s').remotePeerID := by
  induction sessions generalizing p with
  | nil => exact ⟨h, by simp [ConnectedPeer.endSessions], fun _ => rfl⟩
  | cons s rest ih =>
      obtain ⟨hagree, hregistered, hremote⟩ :=
        h.endSession_spec cb (nets s) s
      obtain ⟨hrest, hleft, hremote'⟩ := ih hagree
      refine ⟨hrest, hleft.trans ?_, fun s' =>
        (hremote' s').trans (hremote s')⟩
      rw [hregistered, List.filter_filter]
      refine List.filter_congr fun s' _ => ?_
      simp [Bool.and_comm]

/-- Once no session is registered, the tables of sessions can be cleared. -/
theorem AgreeAt.clear (h : p.AgreeAt leaving 0)
    (hnone : p.ioSession.registeredUnicastSessions = []) :
    AgreeAt { p with
      ioSession := { p.ioSession with
        registeredUnicastSessions := []
        namedUnicastSessions := fun _ => [] } } leaving 0 := by
  have hempty : ∀ s, s ∉ p.ioSession.registeredUnicastSessions := by
    simp [hnone]
  refine ⟨?_, h.balanced, h.whichDatabase⟩
  constructor
  · intro i k hk
    obtain ⟨-, -, s, hs, -⟩ := h.agree.held i k hk
    exact absurd hs (hempty s)
  · exact fun s hs => absurd hs List.not_mem_nil
  · exact fun s hs => absurd hs List.not_mem_nil
  · exact fun s hs => absurd hs List.not_mem_nil
  · exact fun s hs => absurd hs List.not_mem_nil
  · exact fun s hs => absurd hs List.not_mem_nil
  · exact fun _ s hs => absurd hs List.not_mem_nil
  · exact fun s hs => absurd hs List.not_mem_nil
  · exact fun s hs => absurd hs List.not_mem_nil
  · exact .inl rfl

theorem AgreeAt.clearAllUnicastSessions (h : p.AgreeAt leaving 0)
    (nets : ℕ → ℕ → Network) :
    (p.clearAllUnicastSessions cb nets).AgreeAt leaving 0 := by
  obtain ⟨hagree, hleft, -⟩ := h.endSessions_spec cb nets
    p.ioSession.registeredUnicastSessions
  refine hagree.clear (hleft.trans (List.filter_eq_nil_iff.mpr ?_))
  intro s hs
  simpa using hs

theorem AgreeAt.announceUnicastPeerID (h : p.AgreeAt leaving 0)
    (nets : ℕ → Network) (s : ℕ) (optPeerID : Option ZGPeerID) :
    (p.announceUnicastPeerID cb nets s optPeerID).AgreeAt leaving 0 := by
  unfold ConnectedPeer.announceUnicastPeerID
  split
  · rename_i hs
    obtain ⟨hagree, hcreated, hregistered, -⟩ :=
      h.unregisterMyself_spec cb hs nets
    cases optPeerID with
    | none => exact hagree
    | some remotePeerID =>
        have hgone : s ∉ (p.unregisterMyself cb nets
            s).ioSession.registeredUnicastSessions := by
          rw [hregistered]
          simp
        have hlt : s < (p.unregisterMyself cb nets
            s).ioSession.sessionsCreated :=
          hcreated ▸ h.agree.created s hs
        exact ⟨hagree.agree.register hgone le_rfl hlt remotePeerID,
          hagree.balanced, hagree.whichDatabase⟩
  · exact h

/-! ### The other events -/

theorem AgreeAt.replyBackOrder (h : p.AgreeAt leaving 0) (net : Network)
    (s : ℕ) (k : PZGUpdateBackOrderKey)
    (opt : Option (PZGDatabaseUpdate Msg)) :
    (p.replyBackOrder cb net s k opt).AgreeAt leaving 0 := by
  unfold ConnectedPeer.replyBackOrder
  split
  · rename_i hs
    obtain ⟨hs, hk⟩ := hs
    have hordered := h.agree.ordered s hs k (by rw [pending_zero]; exact hk)
    obtain ⟨-, hi, -⟩ := h.agree.held _ k hordered
    exact agreeAt_backOrderResultReceived hordered hi
      (h.agree.forget hs hk) h.balanced h.mem_tables h.whichDatabase (.inl rfl)
  · exact h

theorem AgreeAt.peerHasComeOnline (h : p.AgreeAt leaving 0) :
    p.peerHasComeOnline.AgreeAt leaving 0 := by
  unfold ConnectedPeer.peerHasComeOnline
  split
  · exact h
  · have hsame : ∀ m (d : PZGDatabaseState DB Msg),
        (scheduleLogContentsRescan m d).backorders = d.backorders ∧
          (scheduleLogContentsRescan m d).whichDatabase =
            d.whichDatabase := by
      intro m d
      unfold scheduleLogContentsRescan
      split <;> exact ⟨rfl, rfl⟩
    have htables : (fun i => (scheduleLogContentsRescan
        { p.master with iAmFullyAttached := true }
        (p.databases i)).backorders) = p.tables :=
      funext fun i => (hsame _ _).1
    have hagree := h.agree
    have hbalanced := h.balanced
    rw [← htables] at hagree hbalanced
    exact ⟨hagree, hbalanced,
      fun i => (hsame _ _).2.trans (h.whichDatabase i)⟩

/-- Every event keeps the tables in agreement. -/
theorem AgreeAt.step (cb : Callbacks DB Msg) (h : p.AgreeAt 0 0)
    (e : ConnectionEvent Msg) :
    (p.step cb e).AgreeAt 0 0 := by
  cases e with
  | peerHasComeOnline => exact h.peerHasComeOnline
  | seniorPeerChanged newSeniorPeerID =>
      exact ⟨h.agree, h.balanced, h.whichDatabase⟩
  | peerHasGoneOffline peerID nets => exact (h.endSessions_spec cb nets _).1
  | databaseUpdateRequest i fromPeerID msg time net =>
      exact h.runDatabase net i fun _ _ _ => handleDatabaseUpdateRequest_places
  | beaconReceived i info net =>
      exact h.runDatabase net i fun _ _ _ =>
        seniorDatabaseStateInfoChanged_places
  | rescan i net =>
      exact h.runDatabase net i fun _ _ _ => rescanUpdateLogIfNecessary_places
  | checksumMismatch i net =>
      exact h.runDatabase net i fun _ _ _ =>
        verifyOrFixLocalDatabaseChecksum_places
  | sessionAccepted =>
      dsimp only [ConnectedPeer.step]
      split
      · exact ⟨h.agree.newUnicastSession _, h.balanced, h.whichDatabase⟩
      · exact h
  | sessionNeeded peerID net =>
      have hagree : Agree p.numDatabases p.tables
          (p.ioSession.getUnicastSessionForPeerID net peerID).2 0 0 := by
        unfold getUnicastSessionForPeerID
        split
        · exact h.agree
        · split
          · exact h.agree.newUnicastSession _
          · exact h.agree
      dsimp only [ConnectedPeer.step]
      split
      · exact ⟨hagree, h.balanced, h.whichDatabase⟩
      · exact h
  | unicastPeerIDAnnounced s optPeerID nets =>
      exact h.announceUnicastPeerID nets s optPeerID
  | backOrderReplied s k opt net => exact h.replyBackOrder net s k opt
  | sessionEnded s nets => exact (h.endSession_spec cb nets s).1
  | allUnicastSessionsCleared nets => exact h.clearAllUnicastSessions nets
  | childSessionsShutDown nets =>
      have hdown : AgreeAt { p with
          ioSession := { p.ioSession with isSetUp := false } } 0 0 :=
        ⟨{ h.agree with }, h.balanced, h.whichDatabase⟩
      exact hdown.clearAllUnicastSessions nets

/-! ### Runs -/

theorem agreeAt_fresh (db : UInt32 → DB) (localPeerID : ZGPeerID)
    (numDatabases : UInt32) (maxPayloadBytesInLog : UInt32 → UInt64) :
    (fresh cb db localPeerID numDatabases maxPayloadBytesInLog).AgreeAt
      0 0 := by
  refine ⟨?_, fun k => rfl, fun i => rfl⟩
  constructor
  · exact fun i k hk => absurd hk List.not_mem_nil
  · exact fun s hs => absurd hs List.not_mem_nil
  · exact fun s hs => absurd hs List.not_mem_nil
  · exact fun s hs => absurd hs List.not_mem_nil
  · exact fun s hs => absurd hs List.not_mem_nil
  · exact fun s hs => absurd hs List.not_mem_nil
  · exact fun _ s hs => absurd hs List.not_mem_nil
  · exact fun s hs => absurd hs List.not_mem_nil
  · exact fun s hs => absurd hs List.not_mem_nil
  · exact .inl rfl

/-- Orders and reports that have been made stay made. -/
structure Recorded (p p' : ConnectedPeer DB Msg) : Prop where
  ordered : p.ordered <+: p'.ordered
  reported : p.reported <+: p'.reported

theorem Recorded.of_eq {p p' : ConnectedPeer DB Msg}
    (hordered : p'.ordered = p.ordered)
    (hreported : p'.reported = p.reported) : Recorded p p' :=
  ⟨by rw [hordered], by rw [hreported]⟩

theorem Recorded.refl {p : ConnectedPeer DB Msg} : Recorded p p :=
  .of_eq rfl rfl

theorem Recorded.trans {p p' p'' : ConnectedPeer DB Msg}
    (h : Recorded p p') (h' : Recorded p' p'') : Recorded p p'' :=
  ⟨h.ordered.trans h'.ordered, h.reported.trans h'.reported⟩

theorem recorded_runDatabase {net : Network} {i : UInt32}
    {method : Master → Link → PZGDatabaseState DB Msg →
      PZGDatabaseState DB Msg} :
    Recorded p (p.runDatabase net i method) := by
  unfold ConnectedPeer.runDatabase
  split
  · exact ⟨List.prefix_append _ _, List.prefix_refl _⟩
  · exact .refl

theorem recorded_backOrderResultReceived {net : Network}
    {opt : Option (PZGDatabaseUpdate Msg)} :
    Recorded p (p.backOrderResultReceived cb net k opt) := by
  have hreport : Recorded p { p with reported := p.reported ++ [k] } :=
    ⟨List.prefix_refl _, List.prefix_append _ _⟩
  exact hreport.trans recorded_runDatabase

theorem recorded_reportFailures {nets : ℕ → Network} (fuel : ℕ) :
    Recorded p (p.reportFailures cb nets s fuel position) := by
  induction fuel generalizing p position with
  | zero => exact .refl
  | succ fuel ih =>
      unfold ConnectedPeer.reportFailures
      split
      · exact recorded_backOrderResultReceived.trans ih
      · exact .refl

theorem recorded_endSession {nets : ℕ → Network} :
    Recorded p (p.endSession cb nets s) := by
  unfold ConnectedPeer.endSession
  split
  · have htold : Recorded p (p.reportFailures cb nets s
        (2 * (p.ioSession.sessions s).backorders.length) 0) :=
      recorded_reportFailures _
    exact ⟨htold.ordered, htold.reported⟩
  · exact .refl

theorem recorded_endSessions {nets : ℕ → ℕ → Network} (sessions : List ℕ) :
    Recorded p (p.endSessions cb nets sessions) := by
  induction sessions generalizing p with
  | nil => exact .refl
  | cons s rest ih => exact recorded_endSession.trans ih

theorem recorded_step (e : ConnectionEvent Msg) :
    Recorded p (p.step cb e) := by
  have hclear : ∀ nets, Recorded p (p.clearAllUnicastSessions cb nets) := by
    intro nets
    have hended : Recorded p (p.endSessions cb nets
        p.ioSession.registeredUnicastSessions) := recorded_endSessions _
    exact ⟨hended.ordered, hended.reported⟩
  cases e with
  | peerHasComeOnline =>
      dsimp only [ConnectedPeer.step, ConnectedPeer.peerHasComeOnline]
      split <;> exact .of_eq rfl rfl
  | seniorPeerChanged => exact .of_eq rfl rfl
  | peerHasGoneOffline peerID nets => exact recorded_endSessions _
  | databaseUpdateRequest | beaconReceived | rescan | checksumMismatch =>
      dsimp only [ConnectedPeer.step]
      exact recorded_runDatabase
  | sessionAccepted | sessionNeeded =>
      dsimp only [ConnectedPeer.step]
      split <;> exact .of_eq rfl rfl
  | unicastPeerIDAnnounced s optPeerID nets =>
      dsimp only [ConnectedPeer.step, ConnectedPeer.announceUnicastPeerID]
      split
      · rename_i hs
        have hended : Recorded p (p.endSession cb nets s) :=
          recorded_endSession
        unfold ConnectedPeer.endSession at hended
        rw [if_pos hs] at hended
        cases optPeerID with
        | none => exact hended
        | some remotePeerID => exact ⟨hended.ordered, hended.reported⟩
      · exact .refl
  | backOrderReplied s k opt net =>
      dsimp only [ConnectedPeer.step, ConnectedPeer.replyBackOrder]
      split
      · let p' := { p with
          ioSession := p.ioSession.withBackOrders s
            ((p.ioSession.sessions s).backorders.filter (· ≠ k)) }
        have hresult : Recorded p'
            (p'.backOrderResultReceived cb net k opt) :=
          recorded_backOrderResultReceived
        exact ⟨hresult.ordered, hresult.reported⟩
      · exact .refl
  | sessionEnded => exact recorded_endSession
  | allUnicastSessionsCleared nets => exact hclear nets
  | childSessionsShutDown nets =>
      let p' := { p with
        ioSession := { p.ioSession with isSetUp := false } }
      have hended : Recorded p' (p'.endSessions cb nets
          p.ioSession.registeredUnicastSessions) := recorded_endSessions _
      exact ⟨hended.ordered, hended.reported⟩

/-- What a peer promises about its back-orders.  A database's order is in the
table of one registered session, which is to the peer that the order is for,
and a session remembers nothing else.  So many reports have been made of an
order as it has been accepted, but one less while it is outstanding.  The
session reports the order when the reply comes, and when it ends, and an order
is no longer outstanding only when it has been reported; nobody waits for a
peer that has gone offline. -/
structure BackOrdersKept (cb : Callbacks DB Msg) (p : ConnectedPeer DB Msg) :
    Prop where
  held : ∀ i, ∀ k ∈ (p.databases i).backorders, ∃! s,
    s ∈ p.ioSession.registeredUnicastSessions ∧
      k ∈ (p.ioSession.sessions s).backorders
  target : ∀ s ∈ p.ioSession.registeredUnicastSessions,
    ∀ k ∈ (p.ioSession.sessions s).backorders,
      (p.ioSession.sessions s).remotePeerID = k.targetPeerID
  wanted : ∀ s ∈ p.ioSession.registeredUnicastSessions,
    ∀ k ∈ (p.ioSession.sessions s).backorders,
      k ∈ (p.databases k.whichDatabase).backorders
  once : ∀ k, p.ordered.count k = p.reported.count k +
    if k ∈ (p.databases k.whichDatabase).backorders then 1 else 0
  replied : ∀ s ∈ p.ioSession.registeredUnicastSessions,
    ∀ k ∈ (p.ioSession.sessions s).backorders, ∀ opt net,
      (p.step cb (.backOrderReplied s k opt net)).reported =
        p.reported ++ [k]
  failed : ∀ s ∈ p.ioSession.registeredUnicastSessions, ∀ nets,
    ∃ told, (p.step cb (.sessionEnded s nets)).reported = p.reported ++ told ∧
      ∀ k ∈ (p.ioSession.sessions s).backorders, told.count k = 1
  settled : ∀ e k, k ∈ (p.databases k.whichDatabase).backorders →
    k ∉ ((p.step cb e).databases k.whichDatabase).backorders →
      p.reported.count k < (p.step cb e).reported.count k
  offline : ∀ peerID nets, peerID.isValid = true → ∀ i,
    ∀ k ∈ ((p.step cb (.peerHasGoneOffline peerID nets)).databases
      i).backorders, k.targetPeerID ≠ peerID

theorem AgreeAt.backOrdersKept (h : p.AgreeAt 0 0) :
    BackOrdersKept cb p := by
  constructor
  · intro i k hk
    obtain ⟨-, -, s, hs, hpending⟩ := h.agree.held i k hk
    refine ⟨s, ⟨hs, mem_tableOf_of_mem_pending hpending⟩, ?_⟩
    rintro s' ⟨hs', hk'⟩
    exact h.agree.unique s' hs' s hs k (by rw [pending_zero]; exact hk')
      hpending
  · exact fun s hs k hk => (h.agree.target s hs k hk).1.symm
  · exact fun s hs k hk =>
      h.agree.ordered s hs k (by rw [pending_zero]; exact hk)
  · exact h.balanced
  · intro s hs k hk opt net
    dsimp only [ConnectedPeer.step, ConnectedPeer.replyBackOrder]
    rw [if_pos ⟨hs, hk⟩]
    exact reported_backOrderResultReceived
  · intro s hs nets
    obtain ⟨-, -, -, -, told, hreported, hstarts, hnodup⟩ :=
      h.unregisterMyself_spec cb hs nets
    refine ⟨told, ?_, fun k hk => ?_⟩
    · dsimp only [ConnectedPeer.step, ConnectedPeer.endSession]
      rw [if_pos hs]
      exact hreported
    · exact List.count_eq_one_of_mem hnodup (hstarts.subset hk)
  · intro e k hk hgone
    have hbefore := h.balanced k
    have hafter := (h.step cb e).balanced k
    have hle : p.ordered.count k ≤ (p.step cb e).ordered.count k :=
      (recorded_step e).ordered.sublist.count_le k
    have hk' : k ∈ p.tables k.whichDatabase := hk
    have hgone' : k ∉ (p.step cb e).tables k.whichDatabase := hgone
    rw [if_pos hk'] at hbefore
    rw [if_neg hgone'] at hafter
    omega
  · intro peerID nets hvalid i k hk hpeer
    obtain ⟨hagree, hregistered, hremote⟩ :=
      h.endSessions_spec cb nets
        (p.ioSession.namedUnicastSessions peerID)
    obtain ⟨-, -, s, hs, hpending⟩ := hagree.agree.held i k hk
    obtain ⟨htarget, -⟩ := hagree.agree.target s hs k
      (mem_tableOf_of_mem_pending hpending)
    rw [hremote, hpeer] at htarget
    rw [hregistered, List.mem_filter, decide_eq_true_eq] at hs
    refine hs.2 ?_
    rw [htarget]
    exact h.agree.nameable s hs.1 (htarget ▸ hvalid)

/-- **Back-order tables stay consistent.**  What a peer promises about its
back-orders holds in every state that it can reach. -/
theorem backOrdersKept_run (cb : Callbacks DB Msg) (db : UInt32 → DB)
    (localPeerID : ZGPeerID) (numDatabases : UInt32)
    (maxPayloadBytesInLog : UInt32 → UInt64)
    (events : List (ConnectionEvent Msg)) :
    BackOrdersKept cb
      (Runs.run (step cb)
        (fresh cb db localPeerID numDatabases maxPayloadBytesInLog)
        events) := by
  have hrun : AgreeAt (Runs.run (step cb)
      (fresh cb db localPeerID numDatabases maxPayloadBytesInLog) events)
      0 0 :=
    Runs.run_invariant (I := fun p => AgreeAt p 0 0)
      (agreeAt_fresh db localPeerID numDatabases maxPayloadBytesInLog)
      fun p e h => h.step cb e
  exact hrun.backOrdersKept

end ConnectedPeer

end ZgChoir
