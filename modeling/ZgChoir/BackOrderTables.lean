import ZgChoir.DatabaseOrders

/-!
# Back-orders are in the tables of both sides

Every back-order in a database's table is in the table of exactly one
registered session, and that session is to the peer that the order is for.
While a session goes away this holds of the orders that it has not reported
yet (`Agree`, with the session and a position in its table).

A report of a single update makes the database order the whole database.  If
the session still had that order among those that it has reported, it would
take the new one for it and never report it.  That does not happen because an
order for a whole database is the last one for its database in the table of a
session (`fullLast`): a database that waits for it orders nothing else.
-/

namespace ZgChoir

variable {DB Msg : Type}

open PZGUpdateBackOrderKey

/-! ### What the sessions hold -/

namespace PZGNetworkIOSession

variable {net : Network} {n : PZGNetworkIOSession}
variable {k k' : PZGUpdateBackOrderKey} {s s' : ℕ}

/-- The back-orders of a session, as it remembers them. -/
def tableOf (n : PZGNetworkIOSession) (s : ℕ) : List PZGUpdateBackOrderKey :=
  (n.sessions s).backorders

/-- The back-orders that a session has still to report, if `leaving` goes away
and has come to `position`. -/
def pending (n : PZGNetworkIOSession) (leaving position s : ℕ) :
    List PZGUpdateBackOrderKey :=
  if s = leaving then (n.tableOf s).drop position else n.tableOf s

theorem mem_tableOf_of_mem_pending {leaving position : ℕ}
    (h : k ∈ n.pending leaving position s) : k ∈ n.tableOf s := by
  unfold pending at h
  split at h
  · exact List.mem_of_mem_drop h
  · exact h

@[simp] theorem pending_zero {leaving : ℕ} :
    n.pending leaving 0 s = n.tableOf s := by
  simp [pending]

/-- What a session answers to a request. -/
theorem requestBackOrder_cases (net : Network) (n : PZGNetworkIOSession)
    (s : ℕ) (k : PZGUpdateBackOrderKey) :
    ((n.requestBackOrder net s k).1.isOK = false ∧
      (n.requestBackOrder net s k).2 = n) ∨
    ((n.requestBackOrder net s k).1 = .noError ∧ k ∈ n.tableOf s ∧
      (n.requestBackOrder net s k).2 = n) ∨
    ((n.requestBackOrder net s k).1 = .noError ∧ k ∉ n.tableOf s ∧
      (n.requestBackOrder net s k).2 =
        n.withBackOrders s (n.tableOf s ++ [k])) := by
  unfold requestBackOrder
  by_cases hmem : k ∈ (n.sessions s).backorders
  · rw [if_pos hmem]
    exact .inr (.inl ⟨rfl, hmem, rfl⟩)
  · rw [if_neg hmem]
    dsimp only
    split
    · exact .inr (.inr ⟨rfl, hmem, rfl⟩)
    · rename_i hfails
      exact .inl ⟨by simpa using hfails, rfl⟩

/-- A request that is refused may leave a new session behind; one that is
accepted is in the table of a session to the peer that it is for. -/
theorem requestBackOrderFromSeniorPeer_cases (net : Network)
    (n : PZGNetworkIOSession) (k : PZGUpdateBackOrderKey) :
    ∃ n₁ ret n', n.requestBackOrderFromSeniorPeer net k = (ret, n') ∧
      (n₁ = n ∨ n.namedUnicastSessions k.targetPeerID = [] ∧
        n₁ = n.newUnicastSession k.targetPeerID) ∧
      (ret.isOK = false ∧ n' = n₁ ∨
        ret = .noError ∧ ∃ s,
          (n₁ = n ∧ s ∈ n.namedUnicastSessions k.targetPeerID ∨
            n₁ = n.newUnicastSession k.targetPeerID ∧
              s = n.sessionsCreated) ∧
          (k ∈ n₁.tableOf s ∧ n' = n₁ ∨
            k ∉ n₁.tableOf s ∧
              n' = n₁.withBackOrders s (n₁.tableOf s ++ [k]))) := by
  unfold requestBackOrderFromSeniorPeer
  split_ifs with hsetUp hlocal
  · exact ⟨n, _, _, rfl, .inl rfl, .inl ⟨rfl, rfl⟩⟩
  · exact ⟨n, _, _, rfl, .inl rfl, .inl ⟨rfl, rfl⟩⟩
  · unfold getUnicastSessionForPeerID
    cases hhead : (n.namedUnicastSessions k.targetPeerID).head? with
    | some s =>
        have hs : s ∈ n.namedUnicastSessions k.targetPeerID :=
          List.mem_of_head? hhead
        refine ⟨n, _, _, rfl, .inl rfl, ?_⟩
        rcases requestBackOrder_cases net n s k
          with ⟨hret, hn⟩ | ⟨hret, hmem, hn⟩ | ⟨hret, hmem, hn⟩
        · exact .inl ⟨hret, hn⟩
        · exact .inr ⟨hret, s, .inl ⟨rfl, hs⟩, .inl ⟨hmem, hn⟩⟩
        · exact .inr ⟨hret, s, .inl ⟨rfl, hs⟩, .inr ⟨hmem, hn⟩⟩
    | none =>
        have hnone : n.namedUnicastSessions k.targetPeerID = [] :=
          List.head?_eq_none_iff.mp hhead
        by_cases hconnects : net.connects k.targetPeerID = true
        · rw [if_pos hconnects]
          refine ⟨n.newUnicastSession k.targetPeerID, _, _, rfl,
            .inr ⟨hnone, rfl⟩, ?_⟩
          rcases requestBackOrder_cases net
            (n.newUnicastSession k.targetPeerID) n.sessionsCreated k
            with ⟨hret, hn⟩ | ⟨hret, hmem, hn⟩ | ⟨hret, hmem, hn⟩
          · exact .inl ⟨hret, hn⟩
          · exact .inr ⟨hret, _, .inr ⟨rfl, rfl⟩, .inl ⟨hmem, hn⟩⟩
          · exact .inr ⟨hret, _, .inr ⟨rfl, rfl⟩, .inr ⟨hmem, hn⟩⟩
        · rw [if_neg hconnects]
          exact ⟨n, _, _, rfl, .inl rfl, .inl ⟨rfl, rfl⟩⟩

/-- What is answered to a request when this session, or none, is at the head
of the queue for the peer. -/
def answerFrom (net : Network) (n : PZGNetworkIOSession)
    (k : PZGUpdateBackOrderKey) : Option ℕ → Status
  | some s => if k ∈ n.tableOf s then .noError else net.addOutgoingMessage k
  | none =>
      if net.connects k.targetPeerID then net.addOutgoingMessage k
      else .dataNotFound

/-- What is answered to a request. -/
def answer (net : Network) (n : PZGNetworkIOSession)
    (k : PZGUpdateBackOrderKey) : Status :=
  if n.isSetUp = false then .badObject
  else if k.targetPeerID = n.localPeerID then .unimplemented
  else n.answerFrom net k (n.namedUnicastSessions k.targetPeerID).head?

theorem requestBackOrder_answer :
    (n.requestBackOrder net s k).1 =
      if k ∈ n.tableOf s then .noError else net.addOutgoingMessage k := by
  unfold requestBackOrder tableOf
  split
  · rfl
  · dsimp only
    split
    · rename_i hok
      cases hret : net.addOutgoingMessage k with
      | noError => rfl
      | _ => rw [hret] at hok; cases hok
    · rfl

theorem tableOf_newUnicastSession {peerID : ZGPeerID} :
    (n.newUnicastSession peerID).tableOf s =
      if s = n.sessionsCreated then [] else n.tableOf s := by
  unfold newUnicastSession registerUnicastSession tableOf
  by_cases hs : s = n.sessionsCreated
  · simp [hs]
  · simp [hs]

theorem requestBackOrderFromSeniorPeer_answer :
    (n.requestBackOrderFromSeniorPeer net k).1 = n.answer net k := by
  unfold requestBackOrderFromSeniorPeer answer
  refine (apply_ite Prod.fst _ _ _).trans (ite_congr rfl (fun _ => rfl) ?_)
  intro _
  refine (apply_ite Prod.fst _ _ _).trans (ite_congr rfl (fun _ => rfl) ?_)
  intro _
  unfold getUnicastSessionForPeerID
  cases (n.namedUnicastSessions k.targetPeerID).head? with
  | some s => exact requestBackOrder_answer
  | none =>
      by_cases hconnects : net.connects k.targetPeerID = true
      · rw [if_pos hconnects, answerFrom, if_pos hconnects]
        refine requestBackOrder_answer.trans ?_
        rw [tableOf_newUnicastSession, if_pos rfl]
        exact if_neg List.not_mem_nil
      · rw [if_neg hconnects, answerFrom, if_neg hconnects]

@[simp] theorem namedUnicastSessions_withBackOrders
    {backorders : List PZGUpdateBackOrderKey} :
    (n.withBackOrders s backorders).namedUnicastSessions =
      n.namedUnicastSessions := rfl

theorem tableOf_withBackOrders {backorders : List PZGUpdateBackOrderKey} :
    (n.withBackOrders s backorders).tableOf s' =
      if s' = s then backorders else n.tableOf s' := by
  unfold withBackOrders tableOf
  by_cases hs : s' = s
  · simp [hs]
  · simp [hs]

theorem named_newUnicastSession {peerID : ZGPeerID} :
    (n.newUnicastSession peerID).namedUnicastSessions =
      if peerID.isValid then
        Function.update n.namedUnicastSessions peerID
          (n.namedUnicastSessions peerID ++ [n.sessionsCreated])
      else n.namedUnicastSessions := by
  simp [newUnicastSession, registerUnicastSession]

/-- Entering an order that has been sent does not change any answer. -/
theorem answer_withBackOrders
    (hok : (net.addOutgoingMessage k').isOK = true) :
    (n.withBackOrders s (n.tableOf s ++ [k'])).answer net k =
      n.answer net k := by
  have hsent : net.addOutgoingMessage k' = .noError := by
    cases hret : net.addOutgoingMessage k' with
    | noError => rfl
    | _ => rw [hret] at hok; cases hok
  have hfrom : ∀ head, (n.withBackOrders s (n.tableOf s ++ [k'])).answerFrom
      net k head = n.answerFrom net k head := by
    intro head
    cases head with
    | none => rfl
    | some s' =>
        rw [answerFrom, answerFrom, tableOf_withBackOrders]
        by_cases hs : s' = s
        · subst hs
          by_cases hk : k = k'
          · subst hk
            simp [hsent]
          · simp [hk]
        · simp [hs]
  exact ite_congr rfl (fun _ => rfl) fun _ =>
    ite_congr rfl (fun _ => rfl) fun _ => hfrom _

/-- Neither does a new session. -/
theorem answer_newUnicastSession {peerID : ZGPeerID}
    (hnew : ∀ peerID, n.sessionsCreated ∉ n.namedUnicastSessions peerID)
    (hnone : n.namedUnicastSessions peerID = [])
    (hconnects : net.connects peerID = true) :
    (n.newUnicastSession peerID).answer net k = n.answer net k := by
  have hold : (n.newUnicastSession peerID).answerFrom net k
        (n.namedUnicastSessions k.targetPeerID).head? =
      n.answerFrom net k (n.namedUnicastSessions k.targetPeerID).head? := by
    cases hhead : (n.namedUnicastSessions k.targetPeerID).head? with
    | none => rfl
    | some s =>
        have hs : s ≠ n.sessionsCreated := by
          rintro rfl
          exact hnew _ (List.mem_of_head? hhead)
        rw [answerFrom, answerFrom, tableOf_newUnicastSession, if_neg hs]
  refine ite_congr rfl (fun _ => rfl) fun _ =>
    ite_congr rfl (fun _ => rfl) fun _ => ?_
  rw [named_newUnicastSession]
  split
  · by_cases htarget : k.targetPeerID = peerID
    · rw [htarget, Function.update_self, hnone]
      simp [answerFrom, tableOf_newUnicastSession, htarget, hconnects]
    · rw [Function.update_of_ne htarget]
      exact hold
  · exact hold

/-- What a request is answered does not depend on the requests before. -/
theorem answer_request
    (hnew : ∀ peerID, n.sessionsCreated ∉ n.namedUnicastSessions peerID) :
    (n.requestBackOrderFromSeniorPeer net k').2.answer net k =
      n.answer net k := by
  have hput : ∀ (n : PZGNetworkIOSession) s,
      (n.requestBackOrder net s k').2.answer net k = n.answer net k := by
    intro n s
    unfold requestBackOrder
    by_cases hmem : k' ∈ (n.sessions s).backorders
    · rw [if_pos hmem]
    · rw [if_neg hmem]
      by_cases hok : (net.addOutgoingMessage k').isOK = true
      · rw [if_pos hok]
        exact answer_withBackOrders hok
      · rw [if_neg hok]
  unfold requestBackOrderFromSeniorPeer
  by_cases hsetUp : n.isSetUp = false
  · rw [if_pos hsetUp]
  by_cases hlocal : k'.targetPeerID = n.localPeerID
  · rw [if_neg hsetUp, if_pos hlocal]
  rw [if_neg hsetUp, if_neg hlocal]
  unfold getUnicastSessionForPeerID
  cases hhead : (n.namedUnicastSessions k'.targetPeerID).head? with
  | some s => exact hput n s
  | none =>
      by_cases hconnects : net.connects k'.targetPeerID = true
      · rw [if_pos hconnects]
        exact (hput _ _).trans (answer_newUnicastSession hnew
          (List.head?_eq_none_iff.mp hhead) hconnects)
      · rw [if_neg hconnects]

end PZGNetworkIOSession

/-! ### The agreement -/

/-- The table of one database, for each. -/
abbrev BackOrderTables := UInt32 → List PZGUpdateBackOrderKey

/-- The tables of the databases and of the sessions agree, while `leaving`
goes away and has come to `position`, or with `position = 0` at other
times. -/
structure Agree (numDatabases : UInt32) (tables : BackOrderTables)
    (n : PZGNetworkIOSession) (leaving position : ℕ) : Prop where
  held : ∀ i, ∀ k ∈ tables i, k.whichDatabase = i ∧ i < numDatabases ∧
    ∃ s ∈ n.registeredUnicastSessions, k ∈ n.pending leaving position s
  ordered : ∀ s ∈ n.registeredUnicastSessions,
    ∀ k ∈ n.pending leaving position s, k ∈ tables k.whichDatabase
  unique : ∀ s ∈ n.registeredUnicastSessions,
    ∀ s' ∈ n.registeredUnicastSessions, ∀ k ∈ n.pending leaving position s,
      k ∈ n.pending leaving position s' → s = s'
  target : ∀ s ∈ n.registeredUnicastSessions, ∀ k ∈ n.tableOf s,
    k.targetPeerID = (n.sessions s).remotePeerID ∧
      (k.IsFull ∨ k.targetPeerID.isValid = true)
  nodup : ∀ s ∈ n.registeredUnicastSessions, (n.tableOf s).Nodup
  fullLast : ∀ s ∈ n.registeredUnicastSessions, (n.tableOf s).Pairwise
    fun a b => a.IsFull → a.whichDatabase = b.whichDatabase → b.IsFull
  named : ∀ peerID, ∀ s ∈ n.namedUnicastSessions peerID,
    s ∈ n.registeredUnicastSessions ∧
      (n.sessions s).remotePeerID = peerID ∧ peerID.isValid = true
  nameable : ∀ s ∈ n.registeredUnicastSessions,
    (n.sessions s).remotePeerID.isValid = true →
      s ∈ n.namedUnicastSessions (n.sessions s).remotePeerID
  created : ∀ s ∈ n.registeredUnicastSessions, s < n.sessionsCreated
  leaves : position = 0 ∨ leaving ∈ n.registeredUnicastSessions ∧
    position ≤ (n.tableOf leaving).length

namespace Agree

open PZGNetworkIOSession

variable {numDatabases : UInt32} {tables : BackOrderTables}
variable {n : PZGNetworkIOSession} {leaving position : ℕ}
variable {k : PZGUpdateBackOrderKey} {s : ℕ}

theorem notMem_named (h : Agree numDatabases tables n leaving position)
    (peerID : ZGPeerID) :
    n.sessionsCreated ∉ n.namedUnicastSessions peerID := by
  intro hmem
  exact absurd (h.created _ (h.named peerID _ hmem).1) (by omega)

/-- A session that is registered with an empty table has nothing to
report. -/
theorem register (h : Agree numDatabases tables n leaving position)
    (hfresh : s ∉ n.registeredUnicastSessions) {c : ℕ}
    (hc : n.sessionsCreated ≤ c) (hs : s < c) (peerID : ZGPeerID) :
    Agree numDatabases tables
      ({ n with
        sessionsCreated := c
        sessions := Function.update n.sessions s
          { remotePeerID := peerID, backorders := [] }
        }.registerUnicastSession s) leaving position := by
  let n' := { n with
    sessionsCreated := c
    sessions := Function.update n.sessions s
      { remotePeerID := peerID, backorders := [] }
    }.registerUnicastSession s
  have hmem : ∀ s', s' ∈ n'.registeredUnicastSessions ↔
      s' ∈ n.registeredUnicastSessions ∨ s' = s := by
    simp [n', registerUnicastSession, hfresh]
  have hnamed : n'.namedUnicastSessions =
      if peerID.isValid then
        Function.update n.namedUnicastSessions peerID
          (n.namedUnicastSessions peerID ++ [s])
      else n.namedUnicastSessions := by
    simp [n', registerUnicastSession]
  have hold : ∀ s' ∈ n.registeredUnicastSessions,
      n'.sessions s' = n.sessions s' := by
    intro s' hs'
    have hne : s' ≠ s := by
      rintro rfl
      exact hfresh hs'
    simp [n', registerUnicastSession, hne]
  have hnew : n'.sessions s = { remotePeerID := peerID, backorders := [] } := by
    simp [n', registerUnicastSession]
  have hpending : ∀ s' ∈ n.registeredUnicastSessions,
      n'.pending leaving position s' = n.pending leaving position s' := by
    intro s' hs'
    rw [pending, pending, tableOf, tableOf, hold s' hs']
  have hnothing : n'.pending leaving position s = [] := by
    rw [pending, tableOf, hnew]
    split <;> simp
  constructor
  · intro i k hk
    obtain ⟨hwhich, hi, s', hs', hpend⟩ := h.held i k hk
    exact ⟨hwhich, hi, s', (hmem s').mpr (.inl hs'), by rwa [hpending s' hs']⟩
  · intro s' hs' k hk
    rcases (hmem s').mp hs' with hs' | rfl
    · rw [hpending s' hs'] at hk
      exact h.ordered s' hs' k hk
    · rw [hnothing] at hk
      cases hk
  · intro s₁ hs₁ s₂ hs₂ k hk₁ hk₂
    rcases (hmem s₁).mp hs₁ with hs₁ | rfl
    · rcases (hmem s₂).mp hs₂ with hs₂ | rfl
      · rw [hpending s₁ hs₁] at hk₁
        rw [hpending s₂ hs₂] at hk₂
        exact h.unique s₁ hs₁ s₂ hs₂ k hk₁ hk₂
      · rw [hnothing] at hk₂
        cases hk₂
    · rw [hnothing] at hk₁
      cases hk₁
  · intro s' hs' k hk
    rcases (hmem s').mp hs' with hs' | rfl
    · rw [tableOf, hold s' hs'] at hk
      rw [hold s' hs']
      exact h.target s' hs' k hk
    · rw [tableOf, hnew] at hk
      cases hk
  · intro s' hs'
    rcases (hmem s').mp hs' with hs' | rfl
    · rw [tableOf, hold s' hs']
      exact h.nodup s' hs'
    · rw [tableOf, hnew]
      exact List.nodup_nil
  · intro s' hs'
    rcases (hmem s').mp hs' with hs' | rfl
    · rw [tableOf, hold s' hs']
      exact h.fullLast s' hs'
    · rw [tableOf, hnew]
      exact .nil
  · intro peerID' s' hs'
    rw [hnamed] at hs'
    have hcases : s' ∈ n.namedUnicastSessions peerID' ∨
        peerID' = peerID ∧ s' = s ∧ peerID.isValid = true := by
      split at hs'
      · rename_i hvalid
        by_cases hpeer : peerID' = peerID
        · subst hpeer
          rw [Function.update_self, List.mem_append, List.mem_singleton] at hs'
          exact hs'.imp id fun heq => ⟨rfl, heq, hvalid⟩
        · rw [Function.update_of_ne hpeer] at hs'
          exact .inl hs'
      · exact .inl hs'
    rcases hcases with hs' | ⟨rfl, rfl, hvalid⟩
    · obtain ⟨hreg, hpeer, hvalid⟩ := h.named peerID' s' hs'
      refine ⟨(hmem s').mpr (.inl hreg), ?_, hvalid⟩
      rw [hold s' hreg, hpeer]
    · exact ⟨(hmem _).mpr (.inr rfl), by rw [hnew], hvalid⟩
  · intro s' hs' hvalid
    rw [hnamed]
    rcases (hmem s').mp hs' with hs' | rfl
    · rw [hold s' hs'] at hvalid ⊢
      have hthere := h.nameable s' hs' hvalid
      split
      · by_cases hpeer : (n.sessions s').remotePeerID = peerID
        · rw [hpeer] at hthere ⊢
          rw [Function.update_self]
          exact List.mem_append_left _ hthere
        · rwa [Function.update_of_ne hpeer]
      · exact hthere
    · rw [hnew] at hvalid ⊢
      simp [hvalid]
  · intro s' hs'
    have hcount : n'.sessionsCreated = c := rfl
    rw [hcount]
    rcases (hmem s').mp hs' with hs' | rfl
    · exact (h.created s' hs').trans_le hc
    · exact hs
  · rcases h.leaves with hzero | ⟨hleaving, hle⟩
    · exact .inl hzero
    · refine .inr ⟨(hmem _).mpr (.inl hleaving), ?_⟩
      rwa [tableOf, hold _ hleaving]

theorem newUnicastSession (h : Agree numDatabases tables n leaving position)
    (peerID : ZGPeerID) :
    Agree numDatabases tables (n.newUnicastSession peerID) leaving
      position := by
  refine h.register (fun hmem => ?_) (Nat.le_succ _) (Nat.lt_succ_self _)
    peerID
  exact absurd (h.created _ hmem) (by omega)

/-- A database and a session enter a new order. -/
theorem enter (h : Agree numDatabases tables n leaving position)
    (hs : s ∈ n.registeredUnicastSessions)
    (htarget : k.targetPeerID = (n.sessions s).remotePeerID)
    (hi : k.whichDatabase < numDatabases) (hnew : k ∉ tables k.whichDatabase)
    (htable : k ∉ n.tableOf s)
    (hkind : k.IsFull ∨ k.targetPeerID.isValid = true ∧ position = 0 ∧
      k.full ∉ tables k.whichDatabase) :
    Agree numDatabases
      (Function.update tables k.whichDatabase
        (tables k.whichDatabase ++ [k]))
      (n.withBackOrders s (n.tableOf s ++ [k])) leaving position := by
  have hmemTables : ∀ i k', k' ∈ Function.update tables k.whichDatabase
      (tables k.whichDatabase ++ [k]) i ↔
        k' ∈ tables i ∨ i = k.whichDatabase ∧ k' = k := by
    intro i k'
    by_cases hik : i = k.whichDatabase
    · subst hik
      simp
    · simp [hik]
  have hmemTable : ∀ s' k',
      k' ∈ (n.withBackOrders s (n.tableOf s ++ [k])).tableOf s' ↔
        k' ∈ n.tableOf s' ∨ s' = s ∧ k' = k := by
    intro s' k'
    rw [tableOf_withBackOrders]
    by_cases hss : s' = s
    · subst hss
      simp
    · simp [hss]
  have hle : s = leaving → position ≤ (n.tableOf s).length := by
    rintro rfl
    rcases h.leaves with rfl | ⟨-, hle⟩
    · exact Nat.zero_le _
    · exact hle
  have hmemPending : ∀ s' k',
      k' ∈ (n.withBackOrders s (n.tableOf s ++ [k])).pending leaving
          position s' ↔
        k' ∈ n.pending leaving position s' ∨ s' = s ∧ k' = k := by
    intro s' k'
    rw [pending, pending, tableOf_withBackOrders]
    by_cases hss : s' = s
    · subst hss
      by_cases hleaving : s' = leaving
      · subst hleaving
        simp [List.drop_append_of_le_length (hle rfl)]
      · simp [hleaving]
    · simp [hss]
  have hremote : ∀ s', ((n.withBackOrders s (n.tableOf s ++ [k])).sessions
      s').remotePeerID = (n.sessions s').remotePeerID := by
    intro s'
    unfold withBackOrders
    by_cases hss : s' = s
    · simp [hss]
    · simp [hss]
  have hnotPending : ∀ s' ∈ n.registeredUnicastSessions,
      k ∉ n.pending leaving position s' :=
    fun s' hs' hk => hnew (h.ordered s' hs' k hk)
  constructor
  · intro i k' hk'
    rcases (hmemTables i k').mp hk' with hold | ⟨rfl, rfl⟩
    · obtain ⟨hwhich, hlt, s', hs', hpend⟩ := h.held i k' hold
      exact ⟨hwhich, hlt, s', hs', (hmemPending s' k').mpr (.inl hpend)⟩
    · exact ⟨rfl, hi, s, hs, (hmemPending s k').mpr (.inr ⟨rfl, rfl⟩)⟩
  · intro s' hs' k' hk'
    refine (hmemTables _ k').mpr ?_
    rcases (hmemPending s' k').mp hk' with hold | ⟨-, rfl⟩
    · exact .inl (h.ordered s' hs' k' hold)
    · exact .inr ⟨rfl, rfl⟩
  · intro s₁ hs₁ s₂ hs₂ k' hk₁ hk₂
    rcases (hmemPending s₁ k').mp hk₁ with hold₁ | ⟨rfl, rfl⟩
    · rcases (hmemPending s₂ k').mp hk₂ with hold₂ | ⟨rfl, rfl⟩
      · exact h.unique s₁ hs₁ s₂ hs₂ k' hold₁ hold₂
      · exact absurd hold₁ (hnotPending s₁ hs₁)
    · rcases (hmemPending s₂ k').mp hk₂ with hold₂ | ⟨rfl, -⟩
      · exact absurd hold₂ (hnotPending s₂ hs₂)
      · rfl
  · intro s' hs' k' hk'
    rw [hremote]
    rcases (hmemTable s' k').mp hk' with hold | ⟨rfl, rfl⟩
    · exact h.target s' hs' k' hold
    · exact ⟨htarget, hkind.imp id fun hsingle => hsingle.1⟩
  · intro s' hs'
    rw [tableOf_withBackOrders]
    split
    · exact List.nodup_append.mpr ⟨h.nodup s hs, by simp, by grind⟩
    · exact h.nodup s' hs'
  · intro s' hs'
    rw [tableOf_withBackOrders]
    split
    · refine List.pairwise_append.mpr ⟨h.fullLast s hs, by simp, ?_⟩
      intro a ha b hb hfull hwhich
      obtain rfl := List.mem_singleton.mp hb
      rcases hkind with hkind | ⟨-, hzero, hfree⟩
      · exact hkind
      · -- the database would not have asked for it
        have hpeer := (h.target s hs a ha).1.trans htarget.symm
        have heq := hfull.eq_full hpeer hwhich
        have hpend : a ∈ n.pending leaving position s := by
          rw [hzero, pending_zero]
          exact ha
        have hordered := h.ordered s hs a hpend
        rw [hwhich, heq] at hordered
        exact absurd hordered hfree
    · exact h.fullLast s' hs'
  · intro peerID s' hs'
    rw [hremote]
    exact h.named peerID s' hs'
  · intro s' hs'
    rw [hremote]
    exact h.nameable s' hs'
  · exact h.created
  · rcases h.leaves with hzero | ⟨hleaving, hlen⟩
    · exact .inl hzero
    · refine .inr ⟨hleaving, ?_⟩
      rw [tableOf_withBackOrders]
      split
      · rename_i hss
        rw [← hss, List.length_append]
        omega
      · exact hlen

/-- While nobody goes away it does not matter who would. -/
theorem at_start (h : Agree numDatabases tables n leaving 0) (leaving' : ℕ) :
    Agree numDatabases tables n leaving' 0 where
  held i k hk := by simpa using h.held i k hk
  ordered s hs k hk := h.ordered s hs k (by simpa using hk)
  unique s hs s' hs' k hk hk' :=
    h.unique s hs s' hs' k (by simpa using hk) (by simpa using hk')
  target := h.target
  nodup := h.nodup
  fullLast := h.fullLast
  named := h.named
  nameable := h.nameable
  created := h.created
  leaves := .inl rfl

/-- The tables of the databases without an order. -/
def without (tables : BackOrderTables) (k : PZGUpdateBackOrderKey) :
    BackOrderTables :=
  Function.update tables k.whichDatabase
    ((tables k.whichDatabase).filter (· ≠ k))

theorem mem_without {i : UInt32} {k' : PZGUpdateBackOrderKey}
    (hwhich : ∀ i, ∀ k ∈ tables i, k.whichDatabase = i) :
    k' ∈ without tables k i ↔ k' ∈ tables i ∧ k' ≠ k := by
  unfold without
  by_cases hi : i = k.whichDatabase
  · subst hi
    simp
  · rw [Function.update_of_ne hi]
    refine (and_iff_left_of_imp fun hk' heq => ?_).symm
    exact hi ((hwhich i k' hk').symm.trans (congrArg _ heq))

/-- A session that goes away reports an order. -/
theorem report (h : Agree numDatabases tables n leaving position)
    (hleaving : leaving ∈ n.registeredUnicastSessions)
    (hget : (n.tableOf leaving)[position]? = some k) :
    Agree numDatabases (without tables k) n leaving (position + 1) := by
  obtain ⟨hlt, hk⟩ := List.getElem?_eq_some_iff.mp hget
  have hdrop : (n.tableOf leaving).drop position =
      k :: (n.tableOf leaving).drop (position + 1) := by
    rw [← hk]
    exact List.drop_eq_getElem_cons hlt
  have hnodup : ((n.tableOf leaving).drop position).Nodup :=
    (List.drop_sublist _ _).nodup (h.nodup leaving hleaving)
  rw [hdrop, List.nodup_cons] at hnodup
  have hhere : k ∈ n.pending leaving position leaving := by
    simp [pending, hdrop]
  have hpending : ∀ s ∈ n.registeredUnicastSessions, ∀ k',
      k' ∈ n.pending leaving (position + 1) s ↔
        k' ∈ n.pending leaving position s ∧ k' ≠ k := by
    intro s hs k'
    by_cases hsl : s = leaving
    · subst hsl
      rw [pending, pending, if_pos rfl, if_pos rfl, hdrop, List.mem_cons]
      constructor
      · intro hk'
        refine ⟨.inr hk', ?_⟩
        rintro rfl
        exact hnodup.1 hk'
      · rintro ⟨hk' | hk', hne⟩
        · exact absurd hk' hne
        · exact hk'
    · rw [pending, pending, if_neg hsl, if_neg hsl]
      refine (and_iff_left_of_imp fun hk' heq => hsl ?_).symm
      refine h.unique s hs leaving hleaving k ?_ hhere
      rw [pending, if_neg hsl, ← heq]
      exact hk'
  have hwhich : ∀ i, ∀ k ∈ tables i, k.whichDatabase = i :=
    fun i k hk => (h.held i k hk).1
  constructor
  · intro i k' hk'
    obtain ⟨hk', hne⟩ := (mem_without hwhich).mp hk'
    obtain ⟨hwhich, hi, s, hs, hpend⟩ := h.held i k' hk'
    exact ⟨hwhich, hi, s, hs, (hpending s hs k').mpr ⟨hpend, hne⟩⟩
  · intro s hs k' hk'
    obtain ⟨hk', hne⟩ := (hpending s hs k').mp hk'
    exact (mem_without hwhich).mpr ⟨h.ordered s hs k' hk', hne⟩
  · intro s hs s' hs' k' hk hk'
    exact h.unique s hs s' hs' k' ((hpending s hs k').mp hk).1
      ((hpending s' hs' k').mp hk').1
  · exact h.target
  · exact h.nodup
  · exact h.fullLast
  · exact h.named
  · exact h.nameable
  · exact h.created
  · exact .inr ⟨hleaving, hlt⟩

/-- A session forgets an order, and so does the database. -/
theorem forget (h : Agree numDatabases tables n leaving 0)
    (hs : s ∈ n.registeredUnicastSessions) (hk : k ∈ n.tableOf s) :
    Agree numDatabases (without tables k)
      (n.withBackOrders s ((n.tableOf s).filter (· ≠ k))) leaving 0 := by
  have hwhich : ∀ i, ∀ k ∈ tables i, k.whichDatabase = i :=
    fun i k hk => (h.held i k hk).1
  have htable : ∀ s' ∈ n.registeredUnicastSessions, ∀ k',
      k' ∈ (n.withBackOrders s ((n.tableOf s).filter (· ≠ k))).tableOf s' ↔
        k' ∈ n.tableOf s' ∧ k' ≠ k := by
    intro s' hs' k'
    rw [tableOf_withBackOrders]
    split
    · rename_i hss
      subst hss
      simp
    · rename_i hss
      refine (and_iff_left_of_imp fun hk' heq => hss ?_).symm
      exact h.unique s' hs' s hs k (by simpa [← heq] using hk')
        (by simpa using hk)
  have hremote : ∀ s', ((n.withBackOrders s
      ((n.tableOf s).filter (· ≠ k))).sessions s').remotePeerID =
        (n.sessions s').remotePeerID := by
    intro s'
    unfold withBackOrders
    by_cases hss : s' = s <;> simp [hss]
  have hsub : ∀ s', ((n.withBackOrders s
      ((n.tableOf s).filter (· ≠ k))).tableOf s').Sublist (n.tableOf s') := by
    intro s'
    rw [tableOf_withBackOrders]
    split
    · rename_i hss
      rw [hss]
      exact List.filter_sublist
    · exact List.Sublist.refl _
  constructor
  · intro i k' hk'
    obtain ⟨hk', hne⟩ := (mem_without hwhich).mp hk'
    obtain ⟨hwhich, hi, s', hs', hpend⟩ := h.held i k' hk'
    rw [pending_zero] at hpend
    refine ⟨hwhich, hi, s', hs', ?_⟩
    rw [pending_zero]
    exact (htable s' hs' k').mpr ⟨hpend, hne⟩
  · intro s' hs' k' hk'
    rw [pending_zero] at hk'
    obtain ⟨hk', hne⟩ := (htable s' hs' k').mp hk'
    exact (mem_without hwhich).mpr
      ⟨h.ordered s' hs' k' (by simpa using hk'), hne⟩
  · intro s₁ hs₁ s₂ hs₂ k' hk₁ hk₂
    rw [pending_zero] at hk₁ hk₂
    exact h.unique s₁ hs₁ s₂ hs₂ k'
      (by simpa using ((htable s₁ hs₁ k').mp hk₁).1)
      (by simpa using ((htable s₂ hs₂ k').mp hk₂).1)
  · intro s' hs' k' hk'
    rw [hremote]
    exact h.target s' hs' k' ((hsub s').mem hk')
  · exact fun s' hs' => (hsub s').nodup (h.nodup s' hs')
  · exact fun s' hs' => (h.fullLast s' hs').sublist (hsub s')
  · intro peerID s' hs'
    rw [hremote]
    exact h.named peerID s' hs'
  · intro s' hs'
    rw [hremote]
    exact h.nameable s' hs'
  · exact h.created
  · exact .inl rfl

/-- A session that has reported all its orders can go. -/
theorem leave (h : Agree numDatabases tables n leaving position)
    (hdone : (n.tableOf leaving).length ≤ position) (leaving' : ℕ) :
    Agree numDatabases tables
      ((n.withBackOrders leaving []).unregisterUnicastSession leaving)
      leaving' 0 := by
  let n' := (n.withBackOrders leaving []).unregisterUnicastSession leaving
  have hmem : ∀ s, s ∈ n'.registeredUnicastSessions ↔
      s ∈ n.registeredUnicastSessions ∧ s ≠ leaving := by
    simp [n', unregisterUnicastSession, withBackOrders]
  have hnothing : n.pending leaving position leaving = [] := by
    rw [pending, if_pos rfl]
    exact List.drop_eq_nil_of_le hdone
  have hothers : ∀ s, s ≠ leaving → n'.sessions s = n.sessions s := by
    intro s hs
    simp [n', unregisterUnicastSession, withBackOrders, hs]
  have htable : ∀ s, s ≠ leaving → ∀ position',
      n'.pending leaving' 0 s = n.pending leaving position' s := by
    intro s hs position'
    rw [pending_zero, pending, if_neg hs, tableOf, tableOf, hothers s hs]
  have hnamed : ∀ peerID s, s ∈ n'.namedUnicastSessions peerID ↔
      s ∈ n.namedUnicastSessions peerID ∧ (s ≠ leaving ∨
        ¬ (peerID = (n.sessions leaving).remotePeerID ∧
          peerID.isValid = true)) := by
    intro peerID s
    have hremote : ((n.withBackOrders leaving []).sessions
        leaving).remotePeerID = (n.sessions leaving).remotePeerID := by
      simp [withBackOrders]
    simp only [n', unregisterUnicastSession, hremote]
    split
    · rename_i hvalid
      by_cases hpeer : peerID = (n.sessions leaving).remotePeerID
      · subst hpeer
        simp [withBackOrders, hvalid]
      · simp [withBackOrders, hpeer]
    · rename_i hinvalid
      refine (and_iff_left_of_imp fun _ => .inr ?_).symm
      rintro ⟨rfl, hvalid⟩
      exact hinvalid hvalid
  constructor
  · intro i k hk
    obtain ⟨hwhich, hi, s, hs, hpend⟩ := h.held i k hk
    have hne : s ≠ leaving := by
      rintro rfl
      rw [hnothing] at hpend
      cases hpend
    refine ⟨hwhich, hi, s, (hmem s).mpr ⟨hs, hne⟩, ?_⟩
    rwa [htable s hne position]
  · intro s hs k hk
    obtain ⟨hs, hne⟩ := (hmem s).mp hs
    rw [htable s hne position] at hk
    exact h.ordered s hs k hk
  · intro s hs s' hs' k hk hk'
    obtain ⟨hs, hne⟩ := (hmem s).mp hs
    obtain ⟨hs', hne'⟩ := (hmem s').mp hs'
    rw [htable s hne position] at hk
    rw [htable s' hne' position] at hk'
    exact h.unique s hs s' hs' k hk hk'
  · intro s hs k hk
    obtain ⟨hs, hne⟩ := (hmem s).mp hs
    rw [tableOf, hothers s hne] at hk
    rw [hothers s hne]
    exact h.target s hs k hk
  · intro s hs
    obtain ⟨hs, hne⟩ := (hmem s).mp hs
    rw [tableOf, hothers s hne]
    exact h.nodup s hs
  · intro s hs
    obtain ⟨hs, hne⟩ := (hmem s).mp hs
    rw [tableOf, hothers s hne]
    exact h.fullLast s hs
  · intro peerID s hs
    obtain ⟨hs, hcase⟩ := (hnamed peerID s).mp hs
    obtain ⟨hreg, hpeer, hvalid⟩ := h.named peerID s hs
    have hne : s ≠ leaving := by
      rintro rfl
      exact hcase.elim (fun hne => hne rfl) fun hnot =>
        hnot ⟨hpeer.symm, hvalid⟩
    exact ⟨(hmem s).mpr ⟨hreg, hne⟩, by rw [hothers s hne, hpeer], hvalid⟩
  · intro s hs hvalid
    obtain ⟨hs, hne⟩ := (hmem s).mp hs
    rw [hothers s hne] at hvalid ⊢
    exact (hnamed _ s).mpr ⟨h.nameable s hs hvalid, .inl hne⟩
  · intro s hs
    exact h.created s ((hmem s).mp hs).1
  · exact .inl rfl

/-- A request of a database, whatever the sessions answer. -/
theorem request (h : Agree numDatabases tables n leaving position)
    (net : Network) (hi : k.whichDatabase < numDatabases)
    (hnew : k ∉ tables k.whichDatabase)
    (hstale : k ∉ (n.tableOf leaving).take position)
    (hkind : k.IsFull ∨ k.targetPeerID.isValid = true ∧ position = 0 ∧
      k.full ∉ tables k.whichDatabase) :
    Agree numDatabases
      (Function.update tables k.whichDatabase
        (if (n.answer net k).isOK then tables k.whichDatabase ++ [k]
          else tables k.whichDatabase))
      (n.requestBackOrderFromSeniorPeer net k).2 leaving position := by
  obtain ⟨n₁, ret, n', hrequest, hn₁, hret⟩ :=
    requestBackOrderFromSeniorPeer_cases net n k
  have hanswer : n.answer net k = ret := by
    rw [← requestBackOrderFromSeniorPeer_answer, hrequest]
  have hagree : Agree numDatabases tables n₁ leaving position := by
    rcases hn₁ with rfl | ⟨-, rfl⟩
    · exact h
    · exact h.newUnicastSession _
  rw [hanswer, hrequest]
  rcases hret with ⟨hfails, rfl⟩ | ⟨rfl, s, hs, hput⟩
  · rw [hfails]
    simpa using hagree
  · have hs : s ∈ n₁.registeredUnicastSessions ∧
        k.targetPeerID = (n₁.sessions s).remotePeerID := by
      rcases hs with ⟨rfl, hs⟩ | ⟨rfl, rfl⟩
      · obtain ⟨hreg, hpeer, -⟩ := h.named _ _ hs
        exact ⟨hreg, hpeer.symm⟩
      · constructor
        · simp only [PZGNetworkIOSession.newUnicastSession,
            registerUnicastSession]
          split
          · assumption
          · simp
        · simp [PZGNetworkIOSession.newUnicastSession, registerUnicastSession]
    have hstale₁ : k ∉ (n₁.tableOf leaving).take position := by
      rcases hn₁ with rfl | ⟨-, rfl⟩
      · exact hstale
      · rw [tableOf_newUnicastSession]
        split
        · simp
        · exact hstale
    have htable : k ∉ n₁.tableOf s := by
      intro hk
      refine hnew (hagree.ordered s hs.1 k ?_)
      unfold pending
      split
      · rename_i hsl
        subst hsl
        rw [← List.take_append_drop position (n₁.tableOf s)] at hk
        exact (List.mem_append.mp hk).resolve_left hstale₁
      · exact hk
    rcases hput with ⟨hmem, -⟩ | ⟨-, rfl⟩
    · exact absurd hmem htable
    · exact hagree.enter hs.1 hs.2 hi hnew htable hkind

/-- The orders that have been reported stay where they are in the table. -/
theorem take_request (h : Agree numDatabases tables n leaving position)
    (net : Network) (k : PZGUpdateBackOrderKey) :
    ((n.requestBackOrderFromSeniorPeer net k).2.tableOf leaving).take
      position = (n.tableOf leaving).take position := by
  rcases h.leaves with rfl | ⟨hleaving, hle⟩
  · rfl
  · obtain ⟨n₁, ret, n', hrequest, hn₁, hret⟩ :=
      requestBackOrderFromSeniorPeer_cases net n k
    have hsame : n₁.tableOf leaving = n.tableOf leaving := by
      rcases hn₁ with rfl | ⟨-, rfl⟩
      · rfl
      · have hne : leaving ≠ n.sessionsCreated := by
          have := h.created leaving hleaving
          omega
        rw [tableOf_newUnicastSession, if_neg hne]
    rw [hrequest]
    rcases hret with ⟨-, rfl⟩ | ⟨-, s, -, ⟨-, rfl⟩ | ⟨-, rfl⟩⟩
    · rw [hsame]
    · rw [hsame]
    · rw [tableOf_withBackOrders]
      split
      · rename_i hsl
        rw [← hsl, hsame, List.take_append_of_le_length hle]
      · rw [hsame]

/-- The requests of a database, one after another. -/
theorem place {m : Master} {net : Network} {i : UInt32}
    {status : PZGUpdateBackOrderKey → Status}
    {b b' : List PZGUpdateBackOrderKey}
    {requests : List (PZGUpdateBackOrderKey × Status)}
    (horders : Orders m i status b requests b')
    (h : Agree numDatabases tables n leaving position)
    (hi : i < numDatabases) (hb : tables i = b)
    (hstatus : ∀ k, n.answer net k = status k)
    (hlate : position = 0 ∨ ∀ r ∈ requests, r.1.IsFull ∧
      r.1 ∉ (n.tableOf leaving).take position) :
    Agree numDatabases (Function.update tables i b')
      (n.place net (requests.map (·.1))) leaving position := by
  induction horders generalizing tables n with
  | done b =>
      rw [← hb, Function.update_eq_self]
      exact h
  | @order b rest b' k hnew htarget hwhich hkind hrest ih =>
      subst hwhich
      have hstale : k ∉ (n.tableOf leaving).take position := by
        rcases hlate with rfl | hlate
        · simp
        · exact (hlate _ List.mem_cons_self).2
      have hkind' : k.IsFull ∨ k.targetPeerID.isValid = true ∧
          position = 0 ∧ k.full ∉ tables k.whichDatabase := by
        rcases hlate with hzero | hlate
        · rw [hb]
          exact hkind.imp id fun hsingle => ⟨hsingle.1, hzero, hsingle.2⟩
        · exact .inl (hlate _ List.mem_cons_self).1
      have hnext := h.request net hi (hb ▸ hnew) hstale hkind'
      rw [hstatus k, hb] at hnext
      have hthen := ih hnext (by simp)
        (fun k' => (answer_request h.notMem_named).trans (hstatus k'))
        (hlate.imp id fun hlate r hr => by
          rw [h.take_request net k]
          exact hlate r (List.mem_cons_of_mem _ hr))
      rwa [Function.update_idem] at hthen

end Agree

/-! ### Nothing is reported twice -/

/-- Every order that has been accepted has been reported, or it is still in
the table of its database. -/
def Balanced (tables : BackOrderTables)
    (ordered reported : List PZGUpdateBackOrderKey) : Prop :=
  ∀ k, ordered.count k =
    reported.count k + if k ∈ tables k.whichDatabase then 1 else 0

namespace Balanced

variable {tables : BackOrderTables}
variable {ordered reported : List PZGUpdateBackOrderKey}
variable {k : PZGUpdateBackOrderKey}

theorem report (h : Balanced tables ordered reported)
    (hk : k ∈ tables k.whichDatabase)
    (hwhich : ∀ i, ∀ k ∈ tables i, k.whichDatabase = i) :
    Balanced (Agree.without tables k) ordered (reported ++ [k]) := by
  intro k'
  rw [h k', List.count_append, List.count_singleton]
  simp only [Agree.mem_without hwhich]
  by_cases hkk : k' = k
  · subst hkk
    simp [hk]
  · simp [hkk, Ne.symm hkk]

theorem place {m : Master} {i : UInt32}
    {status : PZGUpdateBackOrderKey → Status}
    {b b' : List PZGUpdateBackOrderKey}
    {requests : List (PZGUpdateBackOrderKey × Status)}
    (horders : Orders m i status b requests b')
    (h : Balanced tables ordered reported) (hb : tables i = b)  :
    Balanced (Function.update tables i b')
      (ordered ++ (requests.filter (·.2.isOK)).map (·.1)) reported := by
  induction horders generalizing tables ordered with
  | done b =>
      rw [← hb, Function.update_eq_self]
      simpa using h
  | @order b rest b' k hnew htarget hwhich hkind hrest ih =>
      subst hwhich
      cases hok : (status k).isOK with
      | false =>
          rw [hok] at ih
          simpa [hok] using ih h hb
      | true =>
          rw [hok, if_pos rfl] at ih
          have hnext : Balanced (Function.update tables k.whichDatabase
              (b ++ [k])) (ordered ++ [k]) reported := by
            intro k'
            rw [List.count_append, h k', List.count_singleton]
            by_cases hkk : k' = k
            · subst hkk
              simp [hb, hnew]
            · by_cases hi : k'.whichDatabase = k.whichDatabase
              · simp [hkk, Ne.symm hkk, hi, hb]
              · simp [Ne.symm hkk, Function.update_of_ne hi]
          have hthen := ih hnext (by simp)
          rw [Function.update_idem] at hthen
          simpa [hok] using hthen

end Balanced

end ZgChoir
