import ZgChoir.PeerSystem
import ZgChoir.Replicas
import ZgChoir.Runs

/-!
# Replica agreement under one senior

With one senior for the whole run, every junior's database is the one that
the senior had at the same state ID.

The senior's states form a history: a list of databases with their
checksums, one for each state ID, that only ever grows.  A run is followed
by that list as a ghost value.  `Replicates` says what the list has to do
with the system: every peer's database is an entry of it; every update in a
log, on the wire or in a reply *links* one entry to the next; every full
database under way *restores* an entry.  It is kept by every event, and an
event makes the history longer exactly when it makes the senior complete an
update.

Two facts make it go through.  An update that links two entries can always be
executed on the first of them, so no execution fails and no checksum is ever
recomputed.  And a junior does not move while a full database is on order, so
a full database under way never takes it back.
-/

namespace ZgChoir

variable {DB Msg : Type} {cb : Callbacks DB Msg}

open PZGDatabaseState

/-! ## Histories -/

/-- The states that a senior has been through, by state ID. -/
abbrev History (DB : Type) : Type := List (DB × UInt32)

/-- The update links the state below its ID to the state of its ID. -/
def Linked (cb : Callbacks DB Msg) (H : History DB)
    (dbUp : PZGDatabaseUpdate Msg) : Prop :=
  ∃ k before after, dbUp.updateID = k + 1 ∧ H[k]? = some before ∧
    H[k + 1]? = some after ∧ dbUp.preUpdateDBChecksum = before.2 ∧
    dbUp.postUpdateDBChecksum = after.2 ∧
    updateEffect cb dbUp before.1 before.2 = (after.1, after.2, .noError)

/-- The full database restores the state of its ID, on any database. -/
def Snapshot (cb : Callbacks DB Msg) (H : History DB)
    (dbUp : PZGDatabaseUpdate Msg) : Prop :=
  ∃ state, H[dbUp.updateID]? = some state ∧
    dbUp.postUpdateDBChecksum = state.2 ∧
    ∀ db₀ chk₀, updateEffect cb dbUp db₀ chk₀ = (state.1, state.2, .noError)

section History

variable {H H' : History DB} {dbUp : PZGDatabaseUpdate Msg}

theorem getElem?_mono (h : H <+: H') {n : ℕ} {x : DB × UInt32}
    (hx : H[n]? = some x) : H'[n]? = some x := by
  obtain ⟨rest, rfl⟩ := h
  obtain ⟨hlt, -⟩ := List.getElem?_eq_some_iff.mp hx
  rw [List.getElem?_append_left hlt]
  exact hx

theorem Linked.mono (h : Linked cb H dbUp) (hle : H <+: H') :
    Linked cb H' dbUp := by
  obtain ⟨k, before, after, hid, hbefore, hafter, hrest⟩ := h
  exact ⟨k, before, after, hid, getElem?_mono hle hbefore,
    getElem?_mono hle hafter, hrest⟩

theorem Snapshot.mono (h : Snapshot cb H dbUp) (hle : H <+: H') :
    Snapshot cb H' dbUp := by
  obtain ⟨state, hstate, hrest⟩ := h
  exact ⟨state, getElem?_mono hle hstate, hrest⟩

/-- An update that links the state of the database to the next one can be
executed, and leads to the next one. -/
theorem Linked.canExecute {d : PZGDatabaseState DB Msg}
    (h : Linked cb H dbUp)
    (hstate : H[d.localDatabaseStateID]? = some (d.database, d.dbChecksum))
    (hid : dbUp.updateID = d.localDatabaseStateID + 1) :
    CanExecute cb d dbUp ∧ H[dbUp.updateID]? =
      some ((applyEffect cb d dbUp).database,
        (applyEffect cb d dbUp).dbChecksum) := by
  obtain ⟨k, before, after, hk, hbefore, hafter, hpre, hpost, heffect⟩ := h
  obtain rfl : d.localDatabaseStateID = k := by omega
  have hsame : (d.database, d.dbChecksum) = before :=
    Option.some.inj (hstate.symm.trans hbefore)
  subst hsame
  refine ⟨⟨hid.symm, hpre.symm, ?_, ?_⟩, ?_⟩
  · rw [heffect]
    rfl
  · rw [heffect, hpost]
  · simp only [applyEffect, heffect]
    rw [hid]
    exact hafter

/-- The good states are those of the history, and the good updates those
that link them.  With these, no execution fails. -/
def historyRules (cb : Callbacks DB Msg) (H : History DB) :
    ReplicaRules cb where
  GoodState n db chk := H[n]? = some (db, chk)
  GoodUpdate := Linked cb H
  MayFail := False
  execute hstate hgood hcan :=
    (hgood.canExecute hstate hcan.1.symm).2
  executeFails hstate hgood hid hcan :=
    absurd (hgood.canExecute hstate hid).1 hcan

/-- A snapshot of the history is a good reply to an order for the full
database. -/
theorem Snapshot.goodReply {d : PZGDatabaseState DB Msg}
    (h : Snapshot cb H dbUp) {ubok : PZGUpdateBackOrderKey}
    (hfull : ubok.databaseUpdateID = databaseUpdateIDFullUpdate) :
    GoodReply (historyRules cb H) d ubok dbUp := by
  obtain ⟨state, hstate, hpost, heffect⟩ := h
  unfold GoodReply
  rw [if_pos hfull]
  refine ⟨⟨?_, ?_⟩, ?_⟩
  · rw [heffect]
    rfl
  · rw [heffect, hpost]
  · change H[dbUp.updateID]? = _
    simp only [applyEffect, heffect]
    exact hstate

theorem sound_mono {d : PZGDatabaseState DB Msg}
    (h : Sound (historyRules cb H) d) (hle : H <+: H')
    (hcalls : d.masterCalls = []) : Sound (historyRules cb H') d := by
  refine ⟨getElem?_mono hle h.state, fun u hu => (h.log u hu).mono hle,
    fun call hcall => ?_⟩
  rw [hcalls] at hcall
  cases hcall

end History

namespace PeerSystem

variable {w : PeerSystem DB Msg} {H : History DB}
  {seniorPeerID peerID : ZGPeerID}

/-! ## The ghost history of a run -/

/-- What the history of the senior has to do with the system. -/
structure Replicates (cb : Callbacks DB Msg) (seniorPeerID : ZGPeerID)
    (w : PeerSystem DB Msg) (H : History DB) : Prop where
  peerIDs : ∀ p, (w.peers p).localPeerID = p ∧
    (w.peers p).seniorPeerID = seniorPeerID
  held : ∀ x ∈ H, Held cb x.1 x.2
  length : H.length =
    (w.peers seniorPeerID).database.localDatabaseStateID + 1
  sound : ∀ p, Sound (historyRules cb H) (w.peers p).forgetCalls.database
  multicasts : ∀ u, (seniorPeerID, u) ∈ w.multicasts → Linked cb H u
  ordered : ∀ p order, order ∈ w.orders p →
    order.1 ∈ (w.peers p).database.backorders ∧
      order.1.whichDatabase = (w.peers p).database.whichDatabase
  requested : ∀ p ubok due, (ubok, .requested due) ∈ w.orders p → due = false
  abandoned : ∀ ubok due, (ubok, due) ∈ w.abandoned → due = false
  replied : ∀ p ubok u, (ubok, .replied (some u)) ∈ w.orders p →
    p ≠ seniorPeerID → ubok.targetPeerID = seniorPeerID →
    if ubok.databaseUpdateID = databaseUpdateIDFullUpdate then
      Snapshot cb H u ∧
        (w.peers p).database.localDatabaseStateID ≤ u.updateID
    else Linked cb H u

theorem Replicates.iAmTheSeniorPeer_iff (h : Replicates cb seniorPeerID w H) :
    (w.peers peerID).iAmTheSeniorPeer = true ↔ peerID = seniorPeerID := by
  obtain ⟨hlocal, hsenior⟩ := h.peerIDs peerID
  simp [ZGPeerSession.iAmTheSeniorPeer, Master.iAmTheSeniorPeer,
    ZGPeerSession.master, hlocal, hsenior, eq_comm]

/-- The state of every peer is an entry of the history. -/
theorem Replicates.state (h : Replicates cb seniorPeerID w H)
    (p : ZGPeerID) :
    H[(w.peers p).database.localDatabaseStateID]? =
      some ((w.peers p).database.database, (w.peers p).database.dbChecksum) :=
  (h.sound p).state

/-- No peer is ahead of the senior. -/
theorem Replicates.local_le (h : Replicates cb seniorPeerID w H)
    (p : ZGPeerID) :
    (w.peers p).database.localDatabaseStateID ≤
      (w.peers seniorPeerID).database.localDatabaseStateID := by
  obtain ⟨hlt, -⟩ := List.getElem?_eq_some_iff.mp (h.state p)
  have := h.length
  omega

/-- The databases of the system are the user's own. -/
theorem Replicates.heldState (h : Replicates cb seniorPeerID w H)
    (p : ZGPeerID) :
    Held cb (w.peers p).database.database (w.peers p).database.dbChecksum :=
  h.held _ (List.mem_of_getElem? (h.state p))

/-- A reply that is under way to a junior is good for it. -/
theorem Replicates.goodReply (h : Replicates cb seniorPeerID w H)
    {ubok : PZGUpdateBackOrderKey} {u : PZGDatabaseUpdate Msg}
    (hmem : (ubok, .replied (some u)) ∈ w.orders peerID)
    (hjunior : (w.peers peerID).iAmTheSeniorPeer = false)
    (htarget : ubok.targetPeerID = (w.peers peerID).seniorPeerID) :
    GoodReply (historyRules cb H) (w.peers peerID).database ubok u := by
  have hne : peerID ≠ seniorPeerID := fun heq => by
    simp [h.iAmTheSeniorPeer_iff.mpr heq] at hjunior
  have hreply := h.replied peerID ubok u hmem hne
    (htarget.trans (h.peerIDs peerID).2)
  split at hreply
  · rename_i hfull
    exact hreply.1.goodReply hfull
  · rename_i hsingle
    unfold GoodReply
    rw [if_neg hsingle]
    exact hreply

/-- **One peer acts.**  An event other than a request to the senior keeps the
history, when what it brings is good and the order it answers is closed. -/
theorem Replicates.act (h : Replicates cb seniorPeerID w H)
    {e : PeerEvent Msg} (hkeeps : ZGPeerSession.KeepsSenior e)
    (hnot : ¬ (w.peers peerID).SeniorRequest e)
    (hgood : (w.peers peerID).GoodEvent (historyRules cb H) e)
    (hverify : ∀ ubok, e ≠ .backOrderRequested ubok true)
    (hclosed : ∀ ubok opt link, e = .backOrderResult ubok opt link →
      ubok.whichDatabase = (w.peers peerID).database.whichDatabase ∧
        ∀ order ∈ w.orders peerID, order.1 ≠ ubok) :
    Replicates cb seniorPeerID (act cb w peerID e) H := by
  have hsound := ZGPeerSession.step_sound (h.sound peerID) hgood hnot
  obtain ⟨hwhich, hkept⟩ :=
    ZGPeerSession.step_backorders cb (w.peers peerID) e
  refine ⟨fun p => ?_, h.held, ?_, fun p => ?_, fun u hu => ?_,
    fun p order hmem => ?_, fun p ubok due hmem => ?_, h.abandoned,
    fun p ubok u hmem hne htarget => ?_⟩
  · by_cases hp : p = peerID
    · subst hp
      obtain ⟨hlocal, hsenior⟩ := ZGPeerSession.step_peerIDs cb (w.peers p) e
      rw [peers_act_self]
      refine ⟨hlocal.trans (h.peerIDs p).1, ?_⟩
      rcases hsenior with heq | ⟨_, rfl, _⟩
      · exact heq.trans (h.peerIDs p).2
      · exact hkeeps.elim
    · rw [peers_act_of_ne hp]
      exact h.peerIDs p
  · by_cases hp : seniorPeerID = peerID
    · subst hp
      rw [peers_act_self, (ZGPeerSession.step_database_of_senior cb
        (h.iAmTheSeniorPeer_iff.mpr rfl) hnot
        fun ubok _ heq => absurd heq (hverify ubok)).1]
      exact h.length
    · rw [peers_act_of_ne hp]
      exact h.length
  · by_cases hp : p = peerID
    · subst hp
      rw [peers_act_self]
      exact ⟨hsound.state, hsound.log, fun call hcall => by cases hcall⟩
    · rw [peers_act_of_ne hp]
      exact h.sound p
  · rcases List.mem_append.mp hu with hu | hu
    · exact h.multicasts u hu
    · obtain ⟨v, hv, heq⟩ := List.mem_map.mp hu
      obtain ⟨ret, hcall⟩ := mem_multicastsOf.mp hv
      cases heq
      exact hsound.calls _ hcall
  · by_cases hp : p = peerID
    · subst hp
      rw [orders_act_self] at hmem
      rw [peers_act_self]
      rcases List.mem_append.mp hmem with hmem | hmem
      · obtain ⟨hback, hdb⟩ := h.ordered p order hmem
        refine ⟨hkept _ hback fun opt link heq => ?_, hdb.trans hwhich.symm⟩
        exact (hclosed _ opt link heq).2 order hmem rfl
      · obtain ⟨due, ret, hcall, hret, -⟩ := mem_ordersOf hmem
        obtain ⟨hback, hdb, -⟩ := hsound.calls _ hcall hret
        exact ⟨hback, hdb⟩
    · rw [orders_act_of_ne hp] at hmem
      rw [peers_act_of_ne hp]
      exact h.ordered p order hmem
  · by_cases hp : p = peerID
    · subst hp
      rw [orders_act_self] at hmem
      rcases List.mem_append.mp hmem with hmem | hmem
      · exact h.requested p ubok due hmem
      · obtain ⟨due', ret, hcall, hret, heq⟩ := mem_ordersOf hmem
        cases heq
        obtain ⟨-, -, hmay⟩ := hsound.calls _ hcall hret
        exact Bool.eq_false_iff.mpr hmay
    · rw [orders_act_of_ne hp] at hmem
      exact h.requested p ubok due hmem
  · by_cases hp : p = peerID
    · subst hp
      rw [orders_act_self] at hmem
      rw [peers_act_self]
      rcases List.mem_append.mp hmem with hmem | hmem
      · have hreply := h.replied p ubok u hmem hne htarget
        split at hreply
        · rename_i hfull
          rw [if_pos hfull]
          refine ⟨hreply.1, ?_⟩
          -- the order is open, so the peer is waiting for this database
          obtain ⟨hback, hdb⟩ := h.ordered p _ hmem
          have hkey : fullDatabaseKey (w.peers p).master
              (w.peers p).database = ubok := by
            obtain ⟨_, _, _⟩ := ubok
            have hsenior := (h.peerIDs p).2
            simp_all [fullDatabaseKey, ZGPeerSession.master]
          rcases ZGPeerSession.step_local cb hnot with hsame |
            ⟨_, hfree, _⟩ | ⟨ubok', u', link, heq, _, htarget', _, hfull', _⟩
          · rw [hsame]
            exact hreply.2
          · exact absurd (hkey ▸ hback) hfree
          · obtain ⟨hdb', hother⟩ := hclosed ubok' _ link heq
            refine absurd ?_ (hother _ hmem)
            obtain ⟨_, _, _⟩ := ubok
            obtain ⟨_, _, _⟩ := ubok'
            have hsenior := (h.peerIDs p).2
            simp_all
        · rename_i hsingle
          rw [if_neg hsingle]
          exact hreply
      · obtain ⟨_, _, _, _, heq⟩ := mem_ordersOf hmem
        cases heq
    · rw [orders_act_of_ne hp] at hmem
      rw [peers_act_of_ne hp]
      exact h.replied p ubok u hmem hne htarget

/-- Closing an order keeps the history. -/
theorem Replicates.closeOrder (h : Replicates cb seniorPeerID w H)
    (ubok : PZGUpdateBackOrderKey) :
    Replicates cb seniorPeerID (closeOrder w peerID ubok) H :=
  ⟨h.peerIDs, h.held, h.length, h.sound, h.multicasts,
    fun p order hmem => h.ordered p order (mem_orders_closeOrder hmem).1,
    fun p k due hmem => h.requested p k due (mem_orders_closeOrder hmem).1,
    h.abandoned,
    fun p k u hmem => h.replied p k u (mem_orders_closeOrder hmem).1⟩

/-- **A reply arrives**, or the order has failed. -/
theorem Replicates.backOrderResult (h : Replicates cb seniorPeerID w H)
    {ubok : PZGUpdateBackOrderKey} {state : OrderState Msg}
    {opt : Option (PZGDatabaseUpdate Msg)} (link : Link)
    (hmem : (ubok, state) ∈ w.orders peerID)
    (hopt : ∀ u ∈ opt, state = .replied (some u)) :
    Replicates cb seniorPeerID (PeerSystem.act cb
      (PeerSystem.closeOrder w peerID ubok) peerID
      (.backOrderResult ubok opt link)) H := by
  refine (h.closeOrder ubok).act trivial id ?_ (fun _ heq => by cases heq) ?_
  · intro u hu _ htarget hjunior
    have hstate := hopt u hu
    subst hstate
    exact h.goodReply hmem hjunior htarget
  · intro ubok' opt' link' heq
    cases heq
    exact ⟨(h.ordered peerID _ hmem).2, fun order horder =>
      (mem_orders_closeOrder horder).2 rfl⟩

/-- **The senior answers an order.** -/
theorem Replicates.answerOrder (hcontract : CallbackContract cb)
    (h : Replicates cb seniorPeerID w H) {ubok : PZGUpdateBackOrderKey}
    {due : Bool} (hmem : (ubok, .requested due) ∈ w.orders peerID)
    (index : ℕ) (time : Timing) :
    Replicates cb seniorPeerID
      (answerOrder cb w peerID index ubok due time) H := by
  obtain rfl : due = false := h.requested peerID ubok due hmem
  have hact : Replicates cb seniorPeerID (PeerSystem.act cb w
      ubok.targetPeerID (.backOrderRequested ubok false)) H := by
    refine h.act trivial id (fun _ hdue => by cases hdue)
      (fun _ heq => by cases heq) fun _ _ _ heq => by cases heq
  have hmem' := mem_orders_act cb ubok.targetPeerID
    (.backOrderRequested ubok false) hmem
  refine ⟨hact.peerIDs, hact.held, hact.length, hact.sound, hact.multicasts,
    fun p order horder => ?_, fun p k due horder => ?_, hact.abandoned,
    fun p k u horder hne htarget => ?_⟩
  · rcases mem_orders_answerOrder horder with horder | ⟨rfl, rfl⟩
    · exact hact.ordered p order horder
    · exact hact.ordered p (ubok, .requested false) hmem'
  · rcases mem_orders_answerOrder horder with horder | ⟨rfl, heq⟩
    · exact hact.requested p k due horder
    · cases heq
  · rcases mem_orders_answerOrder horder with horder | ⟨rfl, heq⟩
    · exact hact.replied p k u horder hne htarget
    · injection heq with hkey hreply
      subst hkey
      injection hreply with hget
      have hself : (PeerSystem.act cb w k.targetPeerID
          (.backOrderRequested k false)).peers k.targetPeerID =
          (w.peers k.targetPeerID).step cb (.backOrderRequested k false) :=
        peers_act_self
      rw [← hself] at hget
      have hheld := hact.heldState k.targetPeerID
      have hstate := hact.state k.targetPeerID
      have hlog := (hact.sound k.targetPeerID).log
      have hle := hact.local_le p
      rw [← htarget] at hle
      split
      · rename_i hfull
        rw [hfull] at hget
        obtain ⟨hid, hpost, heffect⟩ :=
          getDatabaseUpdateByID_full hcontract hheld hget.symm
        rw [← hid] at hstate hle
        exact ⟨⟨_, hstate, hpost, heffect⟩, hle⟩
      · rename_i hsingle
        obtain ⟨id, hid⟩ := WithTop.ne_top_iff_exists.mp hsingle
        rw [← hid] at hget
        exact hlog u (OrderedTable.get?_eq_some.mp hget.symm).1

/-- The senior's state moves on, and the history with it. -/
theorem Replicates.seniorMoves {H' : History DB} {e : PeerEvent Msg}
    (h : Replicates cb seniorPeerID w H) (hle : H <+: H')
    (hheld : ∀ x ∈ H', Held cb x.1 x.2)
    (hids : ((w.peers seniorPeerID).step cb e).localPeerID = seniorPeerID ∧
      ((w.peers seniorPeerID).step cb e).seniorPeerID = seniorPeerID)
    (hlength : H'.length = ((w.peers seniorPeerID).step cb
      e).database.localDatabaseStateID + 1)
    (hsound : Sound (historyRules cb H')
      ((w.peers seniorPeerID).step cb e).database)
    (hback : ((w.peers seniorPeerID).step cb e).database.backorders =
      (w.peers seniorPeerID).database.backorders)
    (hwhich : ((w.peers seniorPeerID).step cb e).database.whichDatabase =
      (w.peers seniorPeerID).database.whichDatabase) :
    Replicates cb seniorPeerID (PeerSystem.act cb w seniorPeerID e) H' := by
  refine ⟨fun p => ?_, hheld, ?_, fun p => ?_, fun u hu => ?_,
    fun p order hmem => ?_, fun p ubok due hmem => ?_, h.abandoned,
    fun p ubok u hmem hne htarget => ?_⟩
  · by_cases hp : p = seniorPeerID
    · subst hp
      rw [peers_act_self]
      exact hids
    · rw [peers_act_of_ne hp]
      exact h.peerIDs p
  · rw [peers_act_self]
    exact hlength
  · by_cases hp : p = seniorPeerID
    · subst hp
      rw [peers_act_self]
      exact ⟨hsound.state, hsound.log, fun call hcall => by cases hcall⟩
    · rw [peers_act_of_ne hp]
      exact sound_mono (h.sound p) hle rfl
  · rcases List.mem_append.mp hu with hu | hu
    · exact (h.multicasts u hu).mono hle
    · obtain ⟨v, hv, heq⟩ := List.mem_map.mp hu
      obtain ⟨ret, hcall⟩ := mem_multicastsOf.mp hv
      cases heq
      exact hsound.calls _ hcall
  · by_cases hp : p = seniorPeerID
    · subst hp
      rw [orders_act_self] at hmem
      rw [peers_act_self]
      rcases List.mem_append.mp hmem with hmem | hmem
      · rw [hback, hwhich]
        exact h.ordered p order hmem
      · obtain ⟨due, ret, hcall, hret, -⟩ := mem_ordersOf hmem
        obtain ⟨hmem, hdb, -⟩ := hsound.calls _ hcall hret
        exact ⟨hmem, hdb⟩
    · rw [orders_act_of_ne hp] at hmem
      rw [peers_act_of_ne hp]
      exact h.ordered p order hmem
  · by_cases hp : p = seniorPeerID
    · subst hp
      rw [orders_act_self] at hmem
      rcases List.mem_append.mp hmem with hmem | hmem
      · exact h.requested p ubok due hmem
      · obtain ⟨due', ret, hcall, hret, heq⟩ := mem_ordersOf hmem
        cases heq
        obtain ⟨-, -, hmay⟩ := hsound.calls _ hcall hret
        exact Bool.eq_false_iff.mpr hmay
    · rw [orders_act_of_ne hp] at hmem
      exact h.requested p ubok due hmem
  · rw [orders_act_of_ne hne] at hmem
    rw [peers_act_of_ne hne]
    have hreply := h.replied p ubok u hmem hne htarget
    split at hreply
    · rename_i hfull
      rw [if_pos hfull]
      exact ⟨hreply.1.mono hle, hreply.2⟩
    · rename_i hsingle
      rw [if_neg hsingle]
      exact hreply.mono hle

/-- **A request to the senior** is refused, fails, or makes the history
longer by one state. -/
theorem Replicates.seniorRequest (hcontract : CallbackContract cb)
    (h : Replicates cb seniorPeerID w H)
    (hsenior : (w.peers peerID).iAmTheSeniorPeer = true)
    (fromPeerID : ZGPeerID) (msg : DatabaseUpdateRequest Msg)
    (time : Timing) :
    ∃ H', (H' = H ∨ ∃ x, H' = H ++ [x]) ∧
      Replicates cb seniorPeerID (PeerSystem.act cb w peerID
        (.databaseUpdateRequest fromPeerID msg time)) H' := by
  obtain rfl := h.iAmTheSeniorPeer_iff.mp hsenior
  obtain ⟨hlocal, hkeeps⟩ := ZGPeerSession.step_peerIDs cb (w.peers peerID)
    (.databaseUpdateRequest fromPeerID msg time)
  have hids : ((w.peers peerID).step cb
        (.databaseUpdateRequest fromPeerID msg time)).localPeerID = peerID ∧
      ((w.peers peerID).step cb
        (.databaseUpdateRequest fromPeerID msg time)).seniorPeerID =
          peerID := by
    refine ⟨hlocal.trans (h.peerIDs peerID).1, ?_⟩
    rcases hkeeps with heq | ⟨_, heq, _⟩
    · exact heq.trans (h.peerIDs peerID).2
    · cases heq
  have hheld : Held cb (w.peers peerID).forgetCalls.database.database
      (w.peers peerID).forgetCalls.database.dbChecksum := h.heldState peerID
  have hsound := h.sound peerID
  obtain ⟨r, hrequest, hdatabase⟩ := ZGPeerSession.step_request_of_senior cb
    hsenior fromPeerID msg time
  obtain ⟨hback, hwhich, hcase⟩ := hrequest.replays hcontract hheld
  rcases hcase with ⟨hid, hdb, hchk, hlog, hcalls⟩ |
    ⟨done, hid, hdone, hpre, hpost, heffect, hlog, hcalls⟩
  · refine ⟨H, .inl rfl, h.seniorMoves List.prefix_rfl h.held hids ?_ ?_ ?_ ?_⟩
    · rw [hdatabase, hid]
      exact h.length
    · rw [hdatabase]
      refine ⟨?_, fun u hu => hsound.log u (hlog u hu), fun call hcall => ?_⟩
      · rw [hid, hdb, hchk]
        exact hsound.state
      · rw [hcalls] at hcall
        cases hcall
    · rw [hdatabase, hback]
      rfl
    · rw [hdatabase, hwhich]
      rfl
  · -- the request has completed the update `done`
    have hlast := h.state peerID
    have hlength := h.length
    let next : DB × UInt32 := (r.2.database, r.2.dbChecksum)
    have hnext : (H ++ [next])[(w.peers
        peerID).database.localDatabaseStateID + 1]? = some next := by
      rw [← hlength]
      exact List.getElem?_concat_length
    have hle : H <+: H ++ [next] := List.prefix_append H [next]
    refine ⟨H ++ [next], .inr ⟨next, rfl⟩,
      h.seniorMoves hle ?_ hids ?_ ?_ ?_ ?_⟩
    · intro x hx
      rcases List.mem_append.mp hx with hx | hx
      · exact h.held x hx
      · obtain rfl := List.mem_singleton.mp hx
        have hheld' := hheld.updateEffect done
        rw [heffect] at hheld'
        exact hheld'
    · rw [hdatabase, hid, List.length_append, hlength]
      rfl
    · rw [hdatabase]
      refine ⟨?_, fun u hu => ?_, fun call hcall => ?_⟩
      · rw [hid]
        exact hnext
      · rcases hlog u hu with rfl | hu
        · exact ⟨_, _, next, hdone, getElem?_mono hle hlast, hnext, hpre,
            hpost, heffect⟩
        · exact (hsound.log u hu).mono hle
      · rw [hcalls] at hcall
        obtain rfl := List.mem_singleton.mp hcall
        trivial
    · rw [hdatabase, hback]
      rfl
    · rw [hdatabase, hwhich]
      rfl

/-- **One event of the system** keeps the history, or makes it longer by one
state. -/
theorem Replicates.step (hcontract : CallbackContract cb)
    (h : Replicates cb seniorPeerID w H) {e : SystemEvent Msg}
    (hkeeps : KeepsSenior e) :
    ∃ H', (H' = H ∨ ∃ x, H' = H ++ [x]) ∧
      Replicates cb seniorPeerID (PeerSystem.step cb w e) H' := by
  have hsame : ∀ {w'}, Replicates cb seniorPeerID w' H →
      ∃ H', (H' = H ∨ ∃ x, H' = H ++ [x]) ∧
        Replicates cb seniorPeerID w' H' := fun hw' => ⟨H, .inl rfl, hw'⟩
  cases e with
  | peerHasComeOnline p =>
      exact hsame (h.act trivial id trivial (fun _ heq => by cases heq)
        fun _ _ _ heq => by cases heq)
  | seniorPeerChanged p newSeniorPeerID => exact hkeeps.elim
  | databaseUpdateRequest p fromPeerID msg time =>
      simp only [PeerSystem.step]
      split
      · rename_i hmeant
        cases hrole : (w.peers p).iAmTheSeniorPeer with
        | true => exact h.seniorRequest hcontract hrole fromPeerID msg time
        | false =>
            refine hsame (h.act trivial ?_ ?_ (fun _ heq => by cases heq)
              fun _ _ _ heq => by cases heq)
            · exact fun hsenior => by simp [ZGPeerSession.SeniorRequest, hrole] at hsenior
            · cases msg with
              | updateJuniorDatabase dbUp => cases hmeant
              | _ => exact trivial
      · exact hsame h
  | rescan p link =>
      exact hsame (h.act trivial id trivial (fun _ heq => by cases heq)
        fun _ _ _ heq => by cases heq)
  | pulse p link =>
      exact hsame (h.act trivial id trivial (fun _ heq => by cases heq)
        fun _ _ _ heq => by cases heq)
  | sendBeacon p =>
      simp only [PeerSystem.step]
      split
      · exact hsame ⟨h.peerIDs, h.held, h.length, h.sound, h.multicasts,
          h.ordered, h.requested, h.abandoned, h.replied⟩
      · exact hsame h
  | multicastReceived p index =>
      simp only [PeerSystem.step]
      split
      · rename_i fromPeerID dbUp hget
        split
        · cases hrole : (w.peers p).iAmTheSeniorPeer with
          | true => exact h.seniorRequest hcontract hrole _ _ _
          | false =>
              refine hsame (h.act trivial ?_ ?_ (fun _ heq => by cases heq)
                fun _ _ _ heq => by cases heq)
              · exact fun hsenior => by simp [ZGPeerSession.SeniorRequest, hrole] at hsenior
              · intro hfrom _
                have hfrom := hfrom.trans (h.peerIDs p).2
                subst hfrom
                exact h.multicasts dbUp (List.mem_of_getElem? hget)
        · exact hsame h
      · exact hsame h
  | beaconReceived p index =>
      simp only [PeerSystem.step]
      split
      · exact hsame (h.act trivial id trivial (fun _ heq => by cases heq)
          fun _ _ _ heq => by cases heq)
      · exact hsame h
  | backOrderRequested p index time =>
      simp only [PeerSystem.step]
      split
      · rename_i ubok due hget
        exact hsame (h.answerOrder hcontract (List.mem_of_getElem? hget) index
          time)
      · exact hsame h
  | backOrderReplied p index link =>
      simp only [PeerSystem.step]
      split
      · rename_i ubok opt hget
        refine hsame (h.backOrderResult link (List.mem_of_getElem? hget) ?_)
        exact fun u hu => congrArg OrderState.replied hu
      · exact hsame h
  | backOrderFailed p index link =>
      simp only [PeerSystem.step]
      split
      · rename_i ubok state hget
        have hmem := List.mem_of_getElem? hget
        have habandoned : Replicates cb seniorPeerID
            { w with abandoned := w.abandoned ++ underWay ubok state } H := by
          refine ⟨h.peerIDs, h.held, h.length, h.sound, h.multicasts,
            h.ordered, h.requested, fun k due hk => ?_, h.replied⟩
          rcases List.mem_append.mp hk with hk | hk
          · exact h.abandoned k due hk
          · cases state with
            | requested due' =>
                cases List.mem_singleton.mp hk
                exact h.requested p _ _ hmem
            | replied _ => cases hk
        refine hsame (habandoned.backOrderResult link hmem ?_)
        exact fun u hu => by cases hu
      · exact hsame h
  | abandonedRequestReceived index =>
      simp only [PeerSystem.step]
      split
      · rename_i ubok due hget
        obtain rfl := h.abandoned ubok due (List.mem_of_getElem? hget)
        exact hsame (h.act trivial id (fun _ hdue => by cases hdue)
          (fun _ heq => by cases heq) fun _ _ _ heq => by cases heq)
      · exact hsame h

/-- The history of a fresh system is the default state. -/
theorem replicates_freshUnder (cb : Callbacks DB Msg) (db : DB)
    (seniorPeerID : ZGPeerID) (whichDatabase : UInt32)
    (maxPayloadBytesInLog : ZGPeerID → UInt64) :
    Replicates cb seniorPeerID
      (freshUnder cb db seniorPeerID whichDatabase maxPayloadBytesInLog)
      [cb.resetLocalDatabaseToDefault db 0] where
  peerIDs _ := ⟨rfl, rfl⟩
  held x hx := by
    obtain rfl := List.mem_singleton.mp hx
    exact .reset db 0
  length := rfl
  sound p := by
    refine ⟨rfl, fun u hu => ?_, fun call hcall => ?_⟩
    · cases hu
    · cases hcall
  multicasts u hu := by cases hu
  ordered p order hmem := by cases hmem
  requested p ubok due hmem := by cases hmem
  abandoned ubok due hmem := by cases hmem
  replied p ubok u hmem := by cases hmem

/-- No event takes a peer back. -/
theorem Replicates.local_le_step (h : Replicates cb seniorPeerID w H)
    (e : SystemEvent Msg) (p : ZGPeerID) :
    (w.peers p).database.localDatabaseStateID ≤
      ((PeerSystem.step cb w e).peers p).database.localDatabaseStateID := by
  rw [peers_step]
  cases hevent : peerEvent w e with
  | none => exact le_rfl
  | some event =>
      obtain ⟨q, e'⟩ := event
      dsimp only
      by_cases hp : p = q
      · subst hp
        rw [Function.update_self]
        by_cases hrequest : (w.peers p).SeniorRequest e'
        · exact (ZGPeerSession.step_local_of_request cb hrequest).1
        · rcases ZGPeerSession.step_local cb hrequest with hsame |
            ⟨hle, _, _⟩ |
            ⟨ubok, u, link, rfl, _, htarget, hjunior, hfull, hlocal⟩
          · exact hsame.ge
          · exact hle
          · have hne : p ≠ seniorPeerID := fun heq => by
              simp [h.iAmTheSeniorPeer_iff.mpr heq] at hjunior
            have hreply := h.replied p ubok u (mem_orders_of_peerEvent hevent)
              hne (htarget.trans (h.peerIDs p).2)
            rw [if_pos hfull] at hreply
            rw [hlocal]
            exact hreply.2
      · rw [Function.update_of_ne hp]

/-! ## Agreement -/

/-- **What is asked of a junior** after the events `es`: the senior has
been at the junior's state; whenever it was, it had the junior's database
and checksum; and the junior is not ahead of it, nor taken back by any
further event. -/
structure AgreesWithSenior (cb : Callbacks DB Msg)
    (start : PeerSystem DB Msg) (seniorPeerID peerID : ZGPeerID)
    (es : List (SystemEvent Msg)) : Prop where
  reached : ∃ past, past <+: es ∧
    ((Runs.run (step cb) start past).peers
        seniorPeerID).database.localDatabaseStateID =
      ((Runs.run (step cb) start es).peers
        peerID).database.localDatabaseStateID
  agrees : ∀ past, past <+: es →
    ((Runs.run (step cb) start past).peers
        seniorPeerID).database.localDatabaseStateID =
      ((Runs.run (step cb) start es).peers
        peerID).database.localDatabaseStateID →
    ((Runs.run (step cb) start es).peers peerID).database.database =
        ((Runs.run (step cb) start past).peers
          seniorPeerID).database.database ∧
      ((Runs.run (step cb) start es).peers peerID).database.dbChecksum =
        ((Runs.run (step cb) start past).peers
          seniorPeerID).database.dbChecksum
  notAhead : ((Runs.run (step cb) start es).peers
        peerID).database.localDatabaseStateID ≤
      ((Runs.run (step cb) start es).peers
        seniorPeerID).database.localDatabaseStateID
  neverBack : ∀ e, ((Runs.run (step cb) start es).peers
        peerID).database.localDatabaseStateID ≤
      ((Runs.run (step cb) start (es ++ [e])).peers
        peerID).database.localDatabaseStateID

/-- The history follows every run. -/
theorem Replicates.run (hcontract : CallbackContract cb)
    (h : Replicates cb seniorPeerID w H) {es : List (SystemEvent Msg)}
    (hes : ∀ e ∈ es, KeepsSenior e) :
    ∃ H', H <+: H' ∧
      Replicates cb seniorPeerID (Runs.run (PeerSystem.step cb) w es) H' := by
  refine Runs.run_simulation h (Runs.stepsMeet_of_forall hes)
    (fun _ => List.prefix_rfl) (fun _ _ _ => List.IsPrefix.trans) ?_
  intro w e H h hkeeps
  obtain ⟨H', hcase, hstep⟩ := h.step hcontract hkeeps
  refine ⟨H', ?_, hstep⟩
  rcases hcase with rfl | ⟨x, rfl⟩
  · exact List.prefix_rfl
  · exact List.prefix_append H [x]

/-- The senior passes through every state up to its own. -/
theorem Replicates.exists_past (hcontract : CallbackContract cb)
    (h : Replicates cb seniorPeerID w H) {es : List (SystemEvent Msg)}
    (hes : ∀ e ∈ es, KeepsSenior e) {n : ℕ}
    (hfrom : (w.peers seniorPeerID).database.localDatabaseStateID ≤ n)
    (hto : n ≤ ((Runs.run (PeerSystem.step cb) w es).peers
      seniorPeerID).database.localDatabaseStateID) :
    ∃ past, past <+: es ∧ ((Runs.run (PeerSystem.step cb) w past).peers
      seniorPeerID).database.localDatabaseStateID = n := by
  refine Runs.exists_prefix_run_eq
    (f := fun w : PeerSystem DB Msg =>
      (w.peers seniorPeerID).database.localDatabaseStateID)
    (I := fun w => ∃ H, Replicates cb seniorPeerID w H) ⟨H, h⟩
    (Runs.stepsMeet_of_forall hes) ?_ hfrom hto
  rintro w e ⟨H, h⟩ hkeeps
  obtain ⟨H', hcase, hstep⟩ := h.step hcontract hkeeps
  refine ⟨⟨H', hstep⟩, ?_⟩
  have hbefore := h.length
  have hafter := hstep.length
  rcases hcase with rfl | ⟨x, rfl⟩
  · omega
  · rw [List.length_append] at hafter
    simp only [List.length_singleton] at hafter
    omega

/-- **Replica agreement.**  With one senior for the whole run, after every
run of a fresh system every peer agrees with the senior. -/
theorem agreesWithSenior_of_keepsSenior (hcontract : CallbackContract cb)
    (db : DB) (seniorPeerID peerID : ZGPeerID) (whichDatabase : UInt32)
    (maxPayloadBytesInLog : ZGPeerID → UInt64)
    (es : List (SystemEvent Msg)) (hes : ∀ e ∈ es, KeepsSenior e) :
    AgreesWithSenior cb
      (freshUnder cb db seniorPeerID whichDatabase maxPayloadBytesInLog)
      seniorPeerID peerID es := by
  have hstart := replicates_freshUnder cb db seniorPeerID whichDatabase
    maxPayloadBytesInLog
  obtain ⟨H, -, hend⟩ := hstart.run hcontract hes
  refine ⟨?_, fun past hpast hlocal => ?_, hend.local_le peerID, fun e => ?_⟩
  · exact hstart.exists_past hcontract hes (Nat.zero_le _)
      (hend.local_le peerID)
  · obtain ⟨rest, rfl⟩ := hpast
    have hsplit := List.forall_mem_append.mp hes
    obtain ⟨H₁, -, hpast⟩ := hstart.run hcontract hsplit.1
    obtain ⟨H₂, hle, hend⟩ := hpast.run hcontract hsplit.2
    rw [← Runs.run_append] at hend
    have hold := getElem?_mono hle (hpast.state seniorPeerID)
    rw [hlocal, hend.state peerID] at hold
    have hsame := Option.some.inj hold
    exact ⟨congrArg Prod.fst hsame, congrArg Prod.snd hsame⟩
  · rw [Runs.run_append]
    exact hend.local_le_step e peerID

/-! ## A run with a lost update

Peer 2 is the senior and counts to 2.  Its first update is lost; peer 1
hears of the second, orders the whole database, and catches up. -/

/-- The events of the run. -/
def countsToTwo : List (SystemEvent ℕ) :=
  [.peerHasComeOnline ⟨0, 2⟩, .peerHasComeOnline ⟨0, 1⟩,
    .databaseUpdateRequest ⟨0, 2⟩ ⟨0, 1⟩ (.updateSeniorDatabase (some 1))
      ⟨0, 0⟩,
    .databaseUpdateRequest ⟨0, 2⟩ ⟨0, 1⟩ (.updateSeniorDatabase (some 1))
      ⟨0, 0⟩,
    .pulse ⟨0, 2⟩ .up, .sendBeacon ⟨0, 2⟩, .multicastReceived ⟨0, 1⟩ 1,
    .beaconReceived ⟨0, 1⟩ 0, .rescan ⟨0, 1⟩ .up,
    .backOrderRequested ⟨0, 1⟩ 0 ⟨0, 0⟩, .backOrderReplied ⟨0, 1⟩ 0 .up]

/-- Peer 1 ends at state 2, in agreement with the senior. -/
theorem countsToTwo_agrees :
    let start := freshUnder counterCallbacks 0 ⟨0, 2⟩ 0 fun _ => 100
    ((Runs.run (step counterCallbacks) start countsToTwo).peers
        ⟨0, 1⟩).database.localDatabaseStateID = 2 ∧
      AgreesWithSenior counterCallbacks start ⟨0, 2⟩ ⟨0, 1⟩ countsToTwo :=
  ⟨by decide, agreesWithSenior_of_keepsSenior counter_contract 0 _ _ 0 _
    countsToTwo (by decide)⟩

end PeerSystem

end ZgChoir
