import ZgChoir.Runs
import ZgChoir.WithinSenior

/-!
# Convergence across senior changes

When everything has come to rest, a junior should be where its senior is.
The code does not see to that on its own: the checksum that would tell two
histories apart is carried in every beacon and looked at by nobody, and a
change of the senior is told to no database.

`StaysConvergent` is the condition under which it comes out right.  Its part
`HistoriesAgree` is about the moment when somebody becomes the senior or
begins to follow one: everything that the senior and its followers hold, and
everything under way to them, must be within the senior's state.  From then
on the senior makes the only new updates.  Its part `KeepsUp` is about each
single peer.  Under both, a junior at rest is neither behind (`WillCatchUp`)
nor ahead or astray (`Agrees`).
-/

namespace ZgChoir

variable {DB Msg : Type} {cb : Callbacks DB Msg}

open PZGDatabaseState

namespace PeerSystem

variable {w : PeerSystem DB Msg} {p f s : ZGPeerID} {e : PeerEvent Msg}

/-! ## Seniors and followers -/

/-- The peer takes itself for the senior. -/
def Reigns (w : PeerSystem DB Msg) (s : ZGPeerID) : Prop :=
  s.isValid = true ∧ (w.peers s).iAmTheSeniorPeer = true

instance : Decidable (Reigns w s) := inferInstanceAs (Decidable (_ ∧ _))

/-- The peer takes another one for the senior. -/
def Follows (w : PeerSystem DB Msg) (f s : ZGPeerID) : Prop :=
  (w.peers f).seniorPeerID = s ∧ f ≠ s

/-- The state of a peer. -/
abbrev tipOf (w : PeerSystem DB Msg) (s : ZGPeerID) : ℕ × UInt32 :=
  (w.peers s).database.tip

/-- What a peer holds, and what it has sent, is within its state. -/
structure Agrees (w : PeerSystem DB Msg) (s : ZGPeerID) : Prop where
  own : HoldsWithin (w.tipOf s) (w.peers s).database
  multicasts : ∀ u, (s, u) ∈ w.multicasts → UpdateWithin (w.tipOf s) u
  beacons : ∀ info, (s, info) ∈ w.beacons →
    Within (w.tipOf s) info.currentDatabaseStateID info.dbChecksum
  beaconData : ∀ info ∈ (w.peers s).beaconData,
    Within (w.tipOf s) info.currentDatabaseStateID info.dbChecksum

/-- What a follower holds, and what is under way to it from the senior, is
within the senior's state. -/
structure AgreesWith (w : PeerSystem DB Msg) (f s : ZGPeerID) : Prop where
  own : HoldsWithin (w.tipOf s) (w.peers f).database
  replied : ∀ ubok u, (ubok, .replied (some u)) ∈ w.orders f →
    ubok.targetPeerID = s → UpdateWithin (w.tipOf s) u

/-- **The histories agree** where a peer becomes the senior, or begins to
follow one. -/
def HistoriesAgree (w : PeerSystem DB Msg) : SystemEvent Msg → Prop
  | .seniorPeerChanged p newSeniorPeerID =>
      (newSeniorPeerID = p → Agrees w p ∧ ∀ f, Follows w f p →
        AgreesWith w f p) ∧
      (newSeniorPeerID ≠ p → Reigns w newSeniorPeerID →
        AgreesWith w p newSeniorPeerID)
  | _ => True

/-- **The system stays convergent**, event by event: the histories agree
where the senior changes, and every peer keeps up. -/
def StaysConvergent (cb : Callbacks DB Msg) (w : PeerSystem DB Msg)
    (e : SystemEvent Msg) : Prop :=
  HistoriesAgree w e ∧
    ∀ own ∈ peerEvent w e, (w.peers own.1).KeepsUp cb own.2

/-! ## The invariant -/

/-- What keeps a system convergent: what the peers and their messages have
to do with each other, peer by peer and senior by senior. -/
structure Convergent (cb : Callbacks DB Msg) (w : PeerSystem DB Msg) :
    Prop where
  peerIDs : ∀ p, (w.peers p).localPeerID = p
  held : ∀ p, Held cb (w.peers p).database.database
    (w.peers p).database.dbChecksum
  catchUp : ∀ p, (w.peers p).WillCatchUp
  processed : ∀ p, ∀ info ∈ (w.peers p).processedBeacon,
    ((w.peers p).seniorPeerID, info) ∈ w.beacons
  restores : ∀ p ubok u, (ubok, .replied (some u)) ∈ w.orders p →
    ubok.databaseUpdateID = databaseUpdateIDFullUpdate → RestoresAll cb u
  agrees : ∀ s, Reigns w s → Agrees w s
  agreesWith : ∀ f s, Reigns w s → Follows w f s → AgreesWith w f s

theorem Convergent.iAmTheSeniorPeer_iff (h : Convergent cb w) :
    (w.peers p).iAmTheSeniorPeer = true ↔ (w.peers p).seniorPeerID = p := by
  simp [ZGPeerSession.iAmTheSeniorPeer, Master.iAmTheSeniorPeer,
    ZGPeerSession.master, h.peerIDs p]

/-- A peer that follows another is a junior. -/
theorem Convergent.junior_of_follows (h : Convergent cb w)
    (hfollows : Follows w f s) : (w.peers f).iAmTheSeniorPeer = false := by
  rw [Bool.eq_false_iff]
  intro hsenior
  exact hfollows.2 ((h.iAmTheSeniorPeer_iff.mp hsenior).symm.trans
    hfollows.1)

/-- No peer's event changes who another peer is or follows, and only
`SeniorPeerChanged` changes whom the peer itself follows. -/
theorem peerIDs_act (cb : Callbacks DB Msg) (w : PeerSystem DB Msg)
    (p : ZGPeerID) (hstays : ∀ q, e ≠ .seniorPeerChanged q) (q : ZGPeerID) :
    ((act cb w p e).peers q).localPeerID = (w.peers q).localPeerID ∧
      ((act cb w p e).peers q).seniorPeerID = (w.peers q).seniorPeerID := by
  by_cases hq : q = p
  · subst hq
    rw [peers_act_self]
    obtain ⟨hlocal, hsenior⟩ := ZGPeerSession.step_peerIDs cb (w.peers q) e
    refine ⟨hlocal, ?_⟩
    rcases hsenior with heq | ⟨r, heq, -⟩
    · exact heq
    · exact absurd heq (hstays r)
  · rw [peers_act_of_ne hq]
    exact ⟨rfl, rfl⟩

theorem reigns_act (hstays : ∀ q, e ≠ .seniorPeerChanged q) :
    Reigns (act cb w p e) s ↔ Reigns w s := by
  obtain ⟨hlocal, hsenior⟩ := peerIDs_act cb w p hstays s
  have hrole : ((act cb w p e).peers s).iAmTheSeniorPeer =
      (w.peers s).iAmTheSeniorPeer := by
    unfold ZGPeerSession.iAmTheSeniorPeer Master.iAmTheSeniorPeer
      ZGPeerSession.master
    dsimp only
    rw [hlocal, hsenior]
  rw [Reigns, Reigns, hrole]

theorem follows_act (hstays : ∀ q, e ≠ .seniorPeerChanged q) :
    Follows (act cb w p e) f s ↔ Follows w f s := by
  simp [Follows, (peerIDs_act cb w p hstays f).2]

theorem tipOf_act_of_ne (h : s ≠ p) :
    (act cb w p e).tipOf s = w.tipOf s := by
  rw [tipOf, peers_act_of_ne h]

/-- A reply that is open after an event was open before it. -/
theorem replied_of_act {ubok : PZGUpdateBackOrderKey}
    {u : PZGDatabaseUpdate Msg}
    (h : (ubok, .replied (some u)) ∈ (act cb w p e).orders f) :
    (ubok, .replied (some u)) ∈ w.orders f := by
  by_cases hf : f = p
  · subst hf
    rw [orders_act_self] at h
    rcases List.mem_append.mp h with h | h
    · exact h
    · obtain ⟨_, _, _, _, heq⟩ := mem_ordersOf h
      cases heq
  · rw [orders_act_of_ne hf] at h
    exact h

/-- What the event tells the peer has been sent. -/
structure Delivers (cb : Callbacks DB Msg) (w : PeerSystem DB Msg)
    (p : ZGPeerID) (e : PeerEvent Msg) : Prop where
  beacon : ∀ fromPeerID info, e = .beaconReceived fromPeerID info →
    (fromPeerID, info) ∈ w.beacons
  restore : ZGPeerSession.RepliesRestore cb e
  hears : ∀ s, Reigns w s → Follows w p s →
    ZGPeerSession.HearsWithin (w.tipOf s) (w.peers p) e

/-- **One peer acts.** -/
theorem Convergent.act (hcontract : CallbackContract cb)
    (h : Convergent cb w) (hstays : ∀ q, e ≠ .seniorPeerChanged q)
    (hkeeps : (w.peers p).KeepsUp cb e) (hdelivers : Delivers cb w p e) :
    Convergent cb (act cb w p e) := by
  refine ⟨fun q => ?_, fun q => ?_, fun q => ?_, fun q info hinfo => ?_,
    fun q ubok u hmem => h.restores q ubok u (replied_of_act hmem),
    fun s hreigns => ?_, fun f s hreigns hfollows => ?_⟩
  · rw [(peerIDs_act cb w p hstays q).1]
    exact h.peerIDs q
  · by_cases hq : q = p
    · subst hq
      rw [peers_act_self]
      exact ZGPeerSession.step_held hcontract (h.held q) hkeeps
        hdelivers.restore
    · rw [peers_act_of_ne hq]
      exact h.held q
  · by_cases hq : q = p
    · subst hq
      rw [peers_act_self]
      exact ZGPeerSession.step_willCatchUp (h.catchUp q) hkeeps
    · rw [peers_act_of_ne hq]
      exact h.catchUp q
  · rw [(peerIDs_act cb w p hstays q).2]
    by_cases hq : q = p
    · subst hq
      rw [peers_act_self] at hinfo
      by_cases hbeacon : ∃ fromPeerID i, e = .beaconReceived fromPeerID i
      · obtain ⟨fromPeerID, i, rfl⟩ := hbeacon
        simp only [ZGPeerSession.step, ZGPeerSession.beaconDataChanged] at hinfo
        split at hinfo
        · rename_i hmine
          obtain rfl : i = info := Option.some.inj hinfo
          have hfrom : fromPeerID = (w.peers q).seniorPeerID := hmine.1
          rw [← hfrom]
          exact hdelivers.beacon fromPeerID i rfl
        · exact h.processed q info hinfo
      · rw [ZGPeerSession.step_processedBeacon cb _ hstays
          fun fromPeerID i heq => hbeacon ⟨fromPeerID, i, heq⟩] at hinfo
        exact h.processed q info hinfo
    · rw [peers_act_of_ne hq] at hinfo
      exact h.processed q info hinfo
  · have hs := (reigns_act hstays).mp hreigns
    clear hreigns
    obtain ⟨hown, hmulticasts, hbeacons, hbeaconData⟩ := h.agrees s hs
    by_cases hsp : s = p
    · subst hsp
      obtain ⟨hle, hown', hsends⟩ := ZGPeerSession.step_within_of_senior
        hcontract (h.held s) hs.2 hown hkeeps
      have htip : (PeerSystem.act cb w s e).tipOf s =
          ((w.peers s).step cb e).database.tip := by rw [tipOf, peers_act_self]
      refine ⟨?_, fun u hu => ?_, fun info hinfo => ?_, fun info hinfo => ?_⟩
      · rw [htip, peers_act_self]
        exact hown'
      · rw [htip]
        rcases List.mem_append.mp hu with hu | hu
        · exact hle (hmulticasts u hu)
        · obtain ⟨v, hv, heq⟩ := List.mem_map.mp hu
          cases heq
          exact hsends u hv
      · rw [htip]
        exact hle (hbeacons info hinfo)
      · rw [htip]
        rw [peers_act_self] at hinfo
        rcases ZGPeerSession.step_beaconData cb (w.peers s) e info hinfo with
          hold | rfl
        · exact hle (hbeaconData info hold)
        · exact .inr ⟨rfl, rfl⟩
    · refine ⟨?_, fun u hu => ?_, fun info hinfo => ?_, fun info hinfo => ?_⟩
      · rw [tipOf_act_of_ne hsp, peers_act_of_ne hsp]
        exact hown
      · rw [tipOf_act_of_ne hsp]
        rcases List.mem_append.mp hu with hu | hu
        · exact hmulticasts u hu
        · obtain ⟨v, _, heq⟩ := List.mem_map.mp hu
          cases heq
          exact absurd rfl hsp
      · rw [tipOf_act_of_ne hsp]
        exact hbeacons info hinfo
      · rw [tipOf_act_of_ne hsp]
        rw [peers_act_of_ne hsp] at hinfo
        exact hbeaconData info hinfo
  · have hs := (reigns_act hstays).mp hreigns
    clear hreigns
    have hf := (follows_act hstays).mp hfollows
    clear hfollows
    obtain ⟨hown, hreplied⟩ := h.agreesWith f s hs hf
    by_cases hsp : s = p
    · subst hsp
      obtain ⟨hle, -, -⟩ := ZGPeerSession.step_within_of_senior hcontract
        (h.held s) hs.2 (h.agrees s hs).own hkeeps
      have htip : (PeerSystem.act cb w s e).tipOf s =
          ((w.peers s).step cb e).database.tip := by rw [tipOf, peers_act_self]
      refine ⟨?_, fun ubok u hmem htarget => ?_⟩
      · rw [htip, peers_act_of_ne hf.2]
        exact hown.mono hle
      · rw [htip]
        exact hle (hreplied ubok u (replied_of_act hmem) htarget)
    · refine ⟨?_, fun ubok u hmem htarget => ?_⟩
      · rw [tipOf_act_of_ne hsp]
        by_cases hfp : f = p
        · subst hfp
          rw [peers_act_self]
          exact ZGPeerSession.step_within_of_junior (h.junior_of_follows hf)
            hown hkeeps hdelivers.restore (hdelivers.hears s hs hf)
        · rw [peers_act_of_ne hfp]
          exact hown
      · rw [tipOf_act_of_ne hsp]
        exact hreplied ubok u (replied_of_act hmem) htarget

/-- **A peer is told who the senior is.**  What the peers hold and have sent
stays what it was, so the histories agree afterwards if they did before. -/
theorem Convergent.seniorPeerChanged (h : Convergent cb w)
    (q : ZGPeerID) (hhistories : HistoriesAgree w (.seniorPeerChanged p q)) :
    Convergent cb (PeerSystem.act cb w p (.seniorPeerChanged q)) := by
  let w' := PeerSystem.act cb w p (.seniorPeerChanged q)
  have hself : w'.peers p = (w.peers p).step cb (.seniorPeerChanged q) :=
    peers_act_self
  have hother : ∀ {r}, r ≠ p → w'.peers r = w.peers r := peers_act_of_ne
  have hp : (w'.peers p).database = (w.peers p).forgetCalls.database ∧
      (w'.peers p).seniorPeerID = q ∧
      (w'.peers p).localPeerID = (w.peers p).localPeerID ∧
      (w'.peers p).processedBeacon = none ∧
      (w'.peers p).beaconData = (w.peers p).beaconData := by
    rw [hself]
    simp only [ZGPeerSession.step, ZGPeerSession.seniorPeerChanged]
    split <;> exact ⟨rfl, rfl, rfl, rfl, rfl⟩
  obtain ⟨hdb, hsenior, hlocal, hforgot, hbeaconData⟩ := hp
  have htip : ∀ r, w'.tipOf r = w.tipOf r := by
    intro r
    by_cases hr : r = p
    · subst hr
      rw [tipOf, hdb]
      rfl
    · exact tipOf_act_of_ne hr
  have hholds : ∀ {r t}, HoldsWithin t (w.peers r).database →
      HoldsWithin t (w'.peers r).database := by
    intro r t hr
    by_cases hrp : r = p
    · subst hrp
      rw [hdb]
      exact ⟨hr.state, hr.log⟩
    · rw [hother hrp]
      exact hr
  have hmulticasts : w'.multicasts = w.multicasts := by
    change w.multicasts ++ (multicastsOf ((w.peers p).step cb
      (.seniorPeerChanged q)).database.masterCalls).map (Prod.mk p) = _
    rw [← hself, hdb]
    exact List.append_nil _
  have hagrees : ∀ {r}, Agrees w r → Agrees w' r := by
    intro r hr
    refine ⟨?_, fun u hu => ?_, fun info hinfo => ?_, fun info hinfo => ?_⟩
    · rw [htip]
      exact hholds hr.own
    · rw [htip]
      exact hr.multicasts u (hmulticasts ▸ hu)
    · rw [htip]
      exact hr.beacons info hinfo
    · rw [htip]
      by_cases hrp : r = p
      · subst hrp
        rw [hbeaconData] at hinfo
        exact hr.beaconData info hinfo
      · rw [hother hrp] at hinfo
        exact hr.beaconData info hinfo
  have hagreesWith : ∀ {r t}, AgreesWith w r t → AgreesWith w' r t := by
    intro r t hr
    refine ⟨?_, fun ubok u hmem htarget => ?_⟩
    · rw [htip]
      exact hholds hr.own
    · rw [htip]
      exact hr.replied ubok u (replied_of_act hmem) htarget
  have hreigns : ∀ {r}, r ≠ p → Reigns w' r → Reigns w r := by
    intro r hr hreigns
    unfold Reigns at hreigns
    rw [hother hr] at hreigns
    exact hreigns
  have hpromoted : Reigns w' p → q = p := by
    intro hreigns
    have hself : (w'.peers p).seniorPeerID = (w'.peers p).localPeerID :=
      of_decide_eq_true hreigns.2
    rw [hsenior, hlocal, h.peerIDs p] at hself
    exact hself
  refine ⟨fun r => ?_, fun r => ?_, fun r => ?_, fun r info hinfo => ?_,
    fun r ubok u hmem => h.restores r ubok u (replied_of_act hmem),
    fun s hs => ?_, fun f s hs hf => ?_⟩
  · by_cases hr : r = p
    · subst hr
      exact hlocal.trans (h.peerIDs r)
    · exact (congrArg _ (hother hr)).trans (h.peerIDs r)
  · by_cases hr : r = p
    · subst hr
      change Held cb (w'.peers r).database.database
        (w'.peers r).database.dbChecksum
      rw [hdb]
      exact h.held r
    · change Held cb (w'.peers r).database.database
        (w'.peers r).database.dbChecksum
      rw [hother hr]
      exact h.held r
  · by_cases hr : r = p
    · subst hr
      exact hself ▸ ZGPeerSession.step_willCatchUp (h.catchUp r)
        fun _ => trivial
    · exact (hother hr).symm ▸ h.catchUp r
  · by_cases hr : r = p
    · subst hr
      have hinfo : (w'.peers r).processedBeacon = some info := hinfo
      rw [hforgot] at hinfo
      cases hinfo
    · have hinfo : (w'.peers r).processedBeacon = some info := hinfo
      rw [hother hr] at hinfo
      have hsent := h.processed r info hinfo
      rw [← hother hr] at hsent
      exact hsent
  · by_cases hsp : s = p
    · subst hsp
      exact hagrees (hhistories.1 (hpromoted hs)).1
    · exact hagrees (h.agrees s (hreigns hsp hs))
  · obtain ⟨hfollows, hne⟩ := hf
    have hfollows : (w'.peers f).seniorPeerID = s := hfollows
    by_cases hfp : f = p
    · subst hfp
      obtain rfl : q = s := hsenior.symm.trans hfollows
      exact hagreesWith (hhistories.2 hne.symm (hreigns hne.symm hs))
    · have hbefore : (w.peers f).seniorPeerID = s := hother hfp ▸ hfollows
      by_cases hsp : s = p
      · subst hsp
        exact hagreesWith ((hhistories.1 (hpromoted hs)).2 f ⟨hbefore, hne⟩)
      · exact hagreesWith (h.agreesWith f s (hreigns hsp hs) ⟨hbefore, hne⟩)

/-- Closing an order keeps a system convergent. -/
theorem Convergent.closeOrder (h : Convergent cb w)
    (ubok : PZGUpdateBackOrderKey) :
    Convergent cb (PeerSystem.closeOrder w p ubok) :=
  ⟨h.peerIDs, h.held, h.catchUp, h.processed,
    fun q k u hmem => h.restores q k u (mem_orders_closeOrder hmem).1,
    fun s hs => ⟨(h.agrees s hs).own, (h.agrees s hs).multicasts,
      (h.agrees s hs).beacons, (h.agrees s hs).beaconData⟩,
    fun f s hs hf => ⟨(h.agreesWith f s hs hf).own, fun k u hmem =>
      (h.agreesWith f s hs hf).replied k u (mem_orders_closeOrder hmem).1⟩⟩

/-- **A reply arrives**, or the order has failed. -/
theorem Convergent.backOrderResult (hcontract : CallbackContract cb)
    (h : Convergent cb w) {ubok : PZGUpdateBackOrderKey}
    {state : OrderState Msg} {opt : Option (PZGDatabaseUpdate Msg)}
    {link : Link} (hmem : (ubok, state) ∈ w.orders p)
    (hopt : ∀ u ∈ opt, state = .replied (some u))
    (hkeeps : (w.peers p).KeepsUp cb (.backOrderResult ubok opt link)) :
    Convergent cb (PeerSystem.act cb (PeerSystem.closeOrder w p ubok) p
      (.backOrderResult ubok opt link)) := by
  refine (h.closeOrder ubok).act hcontract (fun _ heq => by cases heq) hkeeps
    ⟨(fun _ _ heq => by cases heq), fun k u link' heq hfull => ?_,
      fun s hs hf => ?_⟩
  · cases heq
    have hstate := hopt u rfl
    subst hstate
    exact h.restores p _ u hmem hfull
  · intro u hu htarget
    have hstate := hopt u hu
    subst hstate
    exact (h.agreesWith p s hs hf).replied ubok u hmem (htarget.trans hf.1)

/-- **An order is answered.** -/
theorem Convergent.answerOrder (hcontract : CallbackContract cb)
    (h : Convergent cb w) {ubok : PZGUpdateBackOrderKey} {due : Bool}
    (hkeeps : (w.peers ubok.targetPeerID).KeepsUp cb
      (.backOrderRequested ubok due)) (index : ℕ) (time : Timing) :
    Convergent cb (PeerSystem.answerOrder cb w p index ubok due time) := by
  have hact : Convergent cb (PeerSystem.act cb w ubok.targetPeerID
      (.backOrderRequested ubok due)) :=
    h.act hcontract (fun _ heq => by cases heq) hkeeps
      ⟨(fun _ _ heq => by cases heq), (fun _ _ _ heq => by cases heq),
        fun _ _ _ => trivial⟩
  have hself : (PeerSystem.act cb w ubok.targetPeerID
      (.backOrderRequested ubok due)).peers ubok.targetPeerID =
      (w.peers ubok.targetPeerID).step cb (.backOrderRequested ubok due) :=
    peers_act_self
  refine ⟨hact.peerIDs, hact.held, hact.catchUp, hact.processed,
    fun q k u hmem hfull => ?_, fun s hs => ?_, fun f s hs hf => ?_⟩
  · rcases mem_orders_answerOrder hmem with hmem | ⟨rfl, heq⟩
    · exact hact.restores q k u hmem hfull
    · injection heq with hkey hreply
      subst hkey
      injection hreply with hget
      rw [← hself, hfull] at hget
      obtain ⟨-, hpost, heffect⟩ := getDatabaseUpdateByID_full hcontract
        (hact.held k.targetPeerID) hget.symm
      intro db₀ chk₀
      rw [heffect, hpost]
      exact ⟨rfl, rfl⟩
  · obtain ⟨hown, hmulticasts, hbeacons, hbeaconData⟩ := hact.agrees s hs
    exact ⟨hown, hmulticasts, hbeacons, hbeaconData⟩
  · obtain ⟨hown, hreplied⟩ := hact.agreesWith f s hs hf
    refine ⟨hown, fun k u hmem htarget => ?_⟩
    rcases mem_orders_answerOrder hmem with hmem | ⟨rfl, heq⟩
    · exact hreplied k u hmem htarget
    · injection heq with hkey hreply
      subst hkey
      injection hreply with hget
      subst htarget
      rw [← hself] at hget
      by_cases hfull : k.databaseUpdateID = databaseUpdateIDFullUpdate
      · rw [hfull] at hget
        obtain ⟨hid, hpost, -⟩ := getDatabaseUpdateByID_full hcontract
          (hact.held k.targetPeerID) hget.symm
        exact .inr ⟨hid, hpost⟩
      · obtain ⟨id, hid⟩ := WithTop.ne_top_iff_exists.mp hfull
        rw [← hid] at hget
        exact (hact.agrees k.targetPeerID hs).own.log u
          (OrderedTable.get?_eq_some.mp hget.symm).1

/-- **One event of the system** that stays convergent. -/
theorem Convergent.step (hcontract : CallbackContract cb)
    (h : Convergent cb w) {e : SystemEvent Msg}
    (hstays : StaysConvergent cb w e) :
    Convergent cb (PeerSystem.step cb w e) := by
  obtain ⟨hhistories, hkeeps⟩ := hstays
  cases e with
  | peerHasComeOnline p =>
      refine h.act hcontract (fun _ heq => by cases heq) (hkeeps _ rfl) ?_
      exact ⟨(fun _ _ heq => by cases heq), (fun _ _ _ heq => by cases heq),
        fun _ _ _ => trivial⟩
  | seniorPeerChanged p q => exact h.seniorPeerChanged q hhistories
  | databaseUpdateRequest p fromPeerID msg time =>
      simp only [PeerSystem.step, peerEvent] at hkeeps ⊢
      split
      · rename_i hmeant
        rw [if_pos hmeant] at hkeeps
        refine h.act hcontract (fun _ heq => by cases heq) (hkeeps _ rfl)
          ⟨(fun _ _ heq => by cases heq), (fun _ _ _ heq => by cases heq),
            fun _ _ _ => ?_⟩
        cases msg with
        | updateJuniorDatabase dbUp => cases hmeant
        | _ => trivial
      · exact h
  | rescan p link =>
      refine h.act hcontract (fun _ heq => by cases heq) (hkeeps _ rfl) ?_
      exact ⟨(fun _ _ heq => by cases heq), (fun _ _ _ heq => by cases heq),
        fun _ _ _ => trivial⟩
  | pulse p link =>
      refine h.act hcontract (fun _ heq => by cases heq) (hkeeps _ rfl) ?_
      exact ⟨(fun _ _ heq => by cases heq), (fun _ _ _ heq => by cases heq),
        fun _ _ _ => trivial⟩
  | sendBeacon p =>
      simp only [PeerSystem.step]
      split
      · refine ⟨h.peerIDs, h.held, h.catchUp, fun q info hinfo => ?_,
          h.restores, fun s hs => ?_, fun f s hs hf => ?_⟩
        · exact List.mem_append_left _ (h.processed q info hinfo)
        · obtain ⟨hown, hmulticasts, hbeacons, hbeaconData⟩ := h.agrees s hs
          refine ⟨hown, hmulticasts, fun info hinfo => ?_, hbeaconData⟩
          rcases List.mem_append.mp hinfo with hinfo | hinfo
          · exact hbeacons info hinfo
          · obtain ⟨i, hi, heq⟩ := List.mem_map.mp hinfo
            cases heq
            exact hbeaconData info (Option.mem_toList.mp hi)
        · obtain ⟨hown, hreplied⟩ := h.agreesWith f s hs hf
          exact ⟨hown, hreplied⟩
      · exact h
  | multicastReceived p index =>
      simp only [PeerSystem.step, peerEvent] at hkeeps ⊢
      split
      · rename_i fromPeerID dbUp hget
        rw [hget, Option.bind_some] at hkeeps
        split
        · rename_i hother
          rw [if_pos hother] at hkeeps
          refine h.act hcontract (fun _ heq => by cases heq) (hkeeps _ rfl)
            ⟨(fun _ _ heq => by cases heq), (fun _ _ _ heq => by cases heq),
              fun s hs hf hfrom => ?_⟩
          obtain rfl : fromPeerID = s := hfrom.trans hf.1
          exact (h.agrees fromPeerID hs).multicasts dbUp
            (List.mem_of_getElem? hget)
        · exact h
      · exact h
  | beaconReceived p index =>
      simp only [PeerSystem.step, peerEvent] at hkeeps ⊢
      split
      · rename_i fromPeerID info hget
        rw [hget, Option.map_some] at hkeeps
        refine h.act hcontract (fun _ heq => by cases heq) (hkeeps _ rfl)
          ⟨fun q i heq => ?_, (fun _ _ _ heq => by cases heq),
            fun _ _ _ => trivial⟩
        cases heq
        exact List.mem_of_getElem? hget
      · exact h
  | backOrderRequested p index time =>
      simp only [PeerSystem.step, peerEvent] at hkeeps ⊢
      split
      · rename_i ubok due hget
        rw [hget, Option.bind_some] at hkeeps
        exact h.answerOrder hcontract (hkeeps _ rfl) index time
      · exact h
  | backOrderReplied p index link =>
      simp only [PeerSystem.step, peerEvent] at hkeeps ⊢
      split
      · rename_i ubok opt hget
        rw [hget, Option.bind_some] at hkeeps
        exact h.backOrderResult hcontract (List.mem_of_getElem? hget)
          (fun u hu => congrArg OrderState.replied hu) (hkeeps _ rfl)
      · exact h
  | backOrderFailed p index link =>
      simp only [PeerSystem.step, peerEvent] at hkeeps ⊢
      split
      · rename_i ubok state hget
        rw [hget, Option.map_some] at hkeeps
        have habandoned : Convergent cb
            { w with abandoned := w.abandoned ++ underWay ubok state } := by
          refine ⟨h.peerIDs, h.held, h.catchUp, h.processed, h.restores,
            fun s hs => ?_, fun f s hs hf => ?_⟩
          · obtain ⟨hown, hmulticasts, hbeacons, hbeaconData⟩ := h.agrees s hs
            exact ⟨hown, hmulticasts, hbeacons, hbeaconData⟩
          · obtain ⟨hown, hreplied⟩ := h.agreesWith f s hs hf
            exact ⟨hown, hreplied⟩
        exact habandoned.backOrderResult hcontract (List.mem_of_getElem? hget)
          (fun u hu => by cases hu) (hkeeps _ rfl)
      · exact h
  | abandonedRequestReceived index =>
      simp only [PeerSystem.step, peerEvent] at hkeeps ⊢
      split
      · rename_i ubok due hget
        rw [hget, Option.map_some] at hkeeps
        refine h.act hcontract (fun _ heq => by cases heq) (hkeeps _ rfl) ?_
        exact ⟨(fun _ _ heq => by cases heq), (fun _ _ _ heq => by cases heq),
          fun _ _ _ => trivial⟩
      · exact h

/-- A fresh system has no senior, and nothing under way. -/
theorem convergent_fresh (cb : Callbacks DB Msg) (db : DB)
    (whichDatabase : UInt32) (maxPayloadBytesInLog : ZGPeerID → UInt64) :
    Convergent cb (fresh cb db whichDatabase maxPayloadBytesInLog) := by
  have hnone : ∀ s, ¬ Reigns (fresh cb db whichDatabase
      maxPayloadBytesInLog) s := by
    rintro s ⟨hvalid, hsenior⟩
    obtain rfl : ZGPeerID.invalid = s := of_decide_eq_true hsenior
    cases hvalid
  refine ⟨fun _ => rfl, fun _ => .reset db 0, fun p => ⟨fun k hk => ?_,
    fun info hinfo => ?_, fun hsome => ?_⟩, fun p info hinfo => ?_,
    fun p ubok u hmem => ?_, fun s hs => absurd hs (hnone s),
    fun f s hs => absurd hs (hnone s)⟩
  · cases hk
  · cases hinfo
  · cases hsome
  · cases hinfo
  · cases hmem

/-! ## Convergence -/

/-- **The system is at rest**, as far as the junior `f`, its senior `s` and
the senior's latest beacon entry `info` are concerned. -/
structure AtRest (w : PeerSystem DB Msg) (f s : ZGPeerID)
    (info : PZGDatabaseStateInfo) : Prop where
  attached : (w.peers f).iAmFullyAttached = true
  follows : Follows w f s
  reigns : Reigns w s
  latest : (w.peers s).beaconData = some info
  processed : (w.peers f).processedBeacon = some info
  noRescan : (w.peers f).database.rescanLogPending = false
  noOrder : ¬ HasOrder (w.peers f).master (w.peers f).database
  noLaterUpdate : (w.peers s).database.localDatabaseStateID =
    info.currentDatabaseStateID

/-- The junior is where the beacon entry says. -/
def HasConverged (w : PeerSystem DB Msg) (f : ZGPeerID)
    (info : PZGDatabaseStateInfo) : Prop :=
  (w.peers f).database.localDatabaseStateID = info.currentDatabaseStateID ∧
    (w.peers f).database.dbChecksum = info.dbChecksum

/-- In a convergent system, a junior at rest has converged. -/
theorem Convergent.hasConverged (h : Convergent cb w)
    {info : PZGDatabaseStateInfo} (hrest : AtRest w f s info) :
    HasConverged w f info := by
  obtain ⟨hsenior, hne⟩ := hrest.follows
  have hagrees := h.agrees s hrest.reigns
  have hwithin := (h.agreesWith f s hrest.reigns hrest.follows).own.state
  have hstate := ((h.catchUp f).following info hrest.processed).2
  -- something would wake the junior up if it were behind
  have hcaught : info.currentDatabaseStateID ≤
      (w.peers f).database.localDatabaseStateID := by
    by_contra hbehind
    have hwakes := (h.catchUp f).wakesUp (by rw [hrest.processed]; rfl)
      (hsenior ▸ hrest.reigns.1) (by omega)
    rcases hwakes.2 with horder | hpending
    · exact hrest.noOrder horder
    · have := hpending hrest.attached
      simp [hrest.noRescan] at this
  have hbeacon : Within (w.tipOf s) info.currentDatabaseStateID
      info.dbChecksum :=
    hagrees.beacons info (hsenior ▸ h.processed f info hrest.processed)
  have htip : (w.tipOf s).1 = info.currentDatabaseStateID :=
    hrest.noLaterUpdate
  have hsame : info.dbChecksum = (w.tipOf s).2 := by
    rcases hbeacon with hlt | ⟨_, hchk⟩
    · omega
    · exact hchk
  rcases hwithin with hlt | ⟨hid, hchk⟩
  · omega
  · exact ⟨hid.trans htip, hchk.trans hsame.symm⟩

/-- **Convergence at quiescence.**  In every run of a fresh system whose
events all stay convergent, through any changes of the senior, a junior at
rest has the state and the checksum of its senior's latest beacon entry. -/
theorem hasConverged_of_staysConvergent (hcontract : CallbackContract cb)
    (db : DB) (whichDatabase : UInt32)
    (maxPayloadBytesInLog : ZGPeerID → UInt64)
    (es : List (SystemEvent Msg))
    (hmeet : Runs.StepsMeet (PeerSystem.step cb) (StaysConvergent cb)
      (fresh cb db whichDatabase maxPayloadBytesInLog) es)
    (f s : ZGPeerID) (info : PZGDatabaseStateInfo)
    (hrest : AtRest (Runs.run (PeerSystem.step cb)
      (fresh cb db whichDatabase maxPayloadBytesInLog) es) f s info) :
    HasConverged (Runs.run (PeerSystem.step cb)
      (fresh cb db whichDatabase maxPayloadBytesInLog) es) f info := by
  have hend := Runs.run_invariant_of_stepsMeet
    (convergent_fresh cb db whichDatabase maxPayloadBytesInLog) hmeet
    fun _ _ h hstays => h.step hcontract hstays
  exact hend.hasConverged hrest

/-! ## A handover, and a merge

Peers 1 and 2 count together.  In `handover` peer 2 is the senior first and
peer 1 after it.  In `merge` each of them is the senior on its own at first,
and then peer 1 begins to follow peer 2. -/

/-- Peer `senior` adds `msg`, and the other one hears of it: its multicast
has the number `multicast`, its beacon the number `beacon`. -/
def counts (senior junior : ZGPeerID) (msg multicast beacon : ℕ) :
    List (SystemEvent ℕ) :=
  [.peerHasComeOnline senior, .peerHasComeOnline junior,
    .databaseUpdateRequest senior junior (.updateSeniorDatabase (some msg))
      ⟨0, 0⟩,
    .pulse senior .up, .sendBeacon senior, .multicastReceived junior multicast,
    .beaconReceived junior beacon, .rescan junior .up]

/-- The first half of the handover. -/
def firstTenure : List (SystemEvent ℕ) :=
  [.seniorPeerChanged ⟨0, 2⟩ ⟨0, 2⟩, .seniorPeerChanged ⟨0, 1⟩ ⟨0, 2⟩] ++
    counts ⟨0, 2⟩ ⟨0, 1⟩ 1 0 0

/-- The whole handover. -/
def handover : List (SystemEvent ℕ) :=
  firstTenure ++
    ([.seniorPeerChanged ⟨0, 1⟩ ⟨0, 1⟩, .seniorPeerChanged ⟨0, 2⟩ ⟨0, 1⟩] ++
      counts ⟨0, 1⟩ ⟨0, 2⟩ 1 2 1)

/-- Two counting peers, and any number of others. -/
abbrev counters : PeerSystem ℕ ℕ :=
  fresh counterCallbacks 0 0 fun _ => 100

/-- A peer that no event is about stays as it was. -/
theorem peers_run_of_untouched {es : List (SystemEvent Msg)}
    (h : Runs.StepsMeet (PeerSystem.step cb)
      (fun w e => ∀ own ∈ peerEvent w e, own.1 ≠ f) w es) :
    (Runs.run (PeerSystem.step cb) w es).peers f = w.peers f := by
  refine Runs.run_invariant_of_stepsMeet
    (I := fun w' : PeerSystem DB Msg => w'.peers f = w.peers f) rfl h ?_
  intro w' e hsame hother
  rw [peers_step]
  cases hevent : peerEvent w' e with
  | none => exact hsame
  | some own =>
      obtain ⟨q, e'⟩ := own
      dsimp only
      have hne : q ≠ f := hother (q, e') hevent
      rw [Function.update_of_ne hne.symm]
      exact hsame

/-- The peers that take no part in the first tenure follow nobody. -/
theorem firstTenure_untouched (hf₁ : f ≠ ⟨0, 1⟩) (hf₂ : f ≠ ⟨0, 2⟩) :
    ((Runs.run (PeerSystem.step counterCallbacks) counters firstTenure).peers
      f).seniorPeerID = .invalid := by
  have htouched : Runs.StepsMeet (PeerSystem.step counterCallbacks)
      (fun w e => ∀ own ∈ peerEvent w e, own.1 = ⟨0, 1⟩ ∨ own.1 = ⟨0, 2⟩)
      counters firstTenure := by decide
  rw [peers_run_of_untouched (htouched.mono fun w e h own hown heq => ?_)]
  · rfl
  · rcases h own hown with h | h
    · exact hf₁ (heq.symm.trans h)
    · exact hf₂ (heq.symm.trans h)

/-- An event that keeps the senior asks nothing of the histories. -/
theorem staysConvergent_of_keepsSenior {e : SystemEvent Msg}
    (h : KeepsSenior e ∧
      ∀ own ∈ peerEvent w e, (w.peers own.1).KeepsUp cb own.2) :
    StaysConvergent cb w e := by
  refine ⟨?_, h.2⟩
  cases e with
  | seniorPeerChanged p q => exact h.1.elim
  | _ => trivial

/-- A peer agrees with itself if everything in the system that is its own is
within its state. -/
theorem agrees_of_forall
    (hstate : Within (w.tipOf s) (w.peers s).database.localDatabaseStateID
      (w.peers s).database.dbChecksum)
    (hlog : ∀ u ∈ (w.peers s).database.updateLog.entries,
      UpdateWithin (w.tipOf s) u)
    (hmulticasts : ∀ sent ∈ w.multicasts, sent.1 = s →
      UpdateWithin (w.tipOf s) sent.2)
    (hbeacons : ∀ sent ∈ w.beacons, sent.1 = s →
      Within (w.tipOf s) sent.2.currentDatabaseStateID sent.2.dbChecksum)
    (hbeaconData : ∀ info ∈ (w.peers s).beaconData,
      Within (w.tipOf s) info.currentDatabaseStateID info.dbChecksum) :
    Agrees w s :=
  ⟨⟨hstate, hlog⟩, fun u hu => hmulticasts (s, u) hu rfl,
    fun info hinfo => hbeacons (s, info) hinfo rfl, hbeaconData⟩

/-- A follower with nothing on order agrees with the senior if what it holds
is within the senior's state. -/
theorem agreesWith_of_forall
    (hstate : Within (w.tipOf s) (w.peers f).database.localDatabaseStateID
      (w.peers f).database.dbChecksum)
    (hlog : ∀ u ∈ (w.peers f).database.updateLog.entries,
      UpdateWithin (w.tipOf s) u)
    (horders : w.orders f = []) : AgreesWith w f s := by
  refine ⟨⟨hstate, hlog⟩, fun ubok u hmem => ?_⟩
  rw [horders] at hmem
  cases hmem

/-- The handover stays convergent. -/
theorem handover_staysConvergent :
    Runs.StepsMeet (PeerSystem.step counterCallbacks)
      (StaysConvergent counterCallbacks) counters handover := by
  have hquiet : ∀ {w : PeerSystem ℕ ℕ} {es : List (SystemEvent ℕ)},
      Runs.StepsMeet (PeerSystem.step counterCallbacks) (fun w e =>
        KeepsSenior e ∧ ∀ own ∈ peerEvent w e,
          (w.peers own.1).KeepsUp counterCallbacks own.2) w es →
      Runs.StepsMeet (PeerSystem.step counterCallbacks)
        (StaysConvergent counterCallbacks) w es := fun h =>
    h.mono fun _ _ => staysConvergent_of_keepsSenior
  have hpromote : ∀ {w : PeerSystem ℕ ℕ} {p : ZGPeerID}, Agrees w p →
      (∀ f, Follows w f p → AgreesWith w f p) →
      StaysConvergent counterCallbacks w (.seniorPeerChanged p p) :=
    fun hagrees hfollowers => ⟨⟨fun _ => ⟨hagrees, hfollowers⟩,
      fun hne => absurd rfl hne⟩, fun own hown => by
        cases hown
        exact fun _ => trivial⟩
  have hfollow : ∀ {w : PeerSystem ℕ ℕ} {p q : ZGPeerID}, q ≠ p →
      AgreesWith w p q →
      StaysConvergent counterCallbacks w (.seniorPeerChanged p q) :=
    fun hne hagrees => ⟨⟨fun heq => absurd heq hne, fun _ _ => hagrees⟩,
      fun own hown => by
        cases hown
        exact fun _ => trivial⟩
  have hfirst : Runs.StepsMeet (PeerSystem.step counterCallbacks)
      (StaysConvergent counterCallbacks) counters firstTenure := by
    refine Runs.stepsMeet_append.mpr ⟨⟨hpromote ?_ fun f hf => ?_,
      hfollow (by decide) ?_, trivial⟩, hquiet (by decide)⟩
    · exact agrees_of_forall (by decide) (by decide) (by decide) (by decide)
        (by decide)
    · have hnobody : ZGPeerID.invalid = ⟨0, 2⟩ := hf.1
      exact absurd hnobody (by decide)
    · exact agreesWith_of_forall (by decide) (by decide) (by decide)
  refine Runs.stepsMeet_append.mpr ⟨hfirst, Runs.stepsMeet_append.mpr
    ⟨⟨hpromote ?_ fun f hf => ?_, hfollow (by decide) ?_, trivial⟩,
      hquiet (by decide)⟩⟩
  · exact agrees_of_forall (by decide) (by decide) (by decide) (by decide)
      (by decide)
  · -- peer 2 still takes itself for the senior, and the others take nobody
    by_cases hf₂ : f = ⟨0, 2⟩
    · subst hf₂
      exact absurd hf.1 (by decide)
    · exact absurd ((firstTenure_untouched hf.2 hf₂).symm.trans hf.1)
        (by decide)
  · exact agreesWith_of_forall (by decide) (by decide) (by decide)

/-- After the handover peer 2 is where peer 1's beacon says. -/
theorem handover_hasConverged :
    let w := Runs.run (PeerSystem.step counterCallbacks) counters handover
    AtRest w ⟨0, 2⟩ ⟨0, 1⟩ ⟨2, (1 : ℕ), 2⟩ ∧
      HasConverged w ⟨0, 2⟩ ⟨2, (1 : ℕ), 2⟩ := by
  have hrest : AtRest (Runs.run (PeerSystem.step counterCallbacks) counters
      handover) ⟨0, 2⟩ ⟨0, 1⟩ ⟨2, (1 : ℕ), 2⟩ :=
    ⟨by decide, ⟨by decide, by decide⟩, by decide, by decide, by decide,
      by decide, by decide, by decide⟩
  exact ⟨hrest, hasConverged_of_staysConvergent counter_contract 0 0 _
    handover handover_staysConvergent _ _ _ hrest⟩

/-- Each peer counts to state 1 on its own, by 1 and by 2; then peer 1 begins
to follow peer 2. -/
def merge : List (SystemEvent ℕ) :=
  [.seniorPeerChanged ⟨0, 1⟩ ⟨0, 1⟩, .seniorPeerChanged ⟨0, 2⟩ ⟨0, 2⟩,
    .peerHasComeOnline ⟨0, 1⟩, .peerHasComeOnline ⟨0, 2⟩,
    .databaseUpdateRequest ⟨0, 1⟩ ⟨0, 1⟩ (.updateSeniorDatabase (some 1))
      ⟨0, 0⟩,
    .databaseUpdateRequest ⟨0, 2⟩ ⟨0, 2⟩ (.updateSeniorDatabase (some 2))
      ⟨0, 0⟩,
    .pulse ⟨0, 1⟩ .up, .seniorPeerChanged ⟨0, 1⟩ ⟨0, 2⟩, .pulse ⟨0, 2⟩ .up,
    .sendBeacon ⟨0, 2⟩, .beaconReceived ⟨0, 1⟩ 0, .rescan ⟨0, 1⟩ .up]

/-- After the merge peer 1 is at rest in state 1 with the checksum 1, and
peer 2's beacon says state 1 with the checksum 2. -/
theorem merge_not_hasConverged :
    let w := Runs.run (PeerSystem.step counterCallbacks) counters merge
    AtRest w ⟨0, 1⟩ ⟨0, 2⟩ ⟨1, (1 : ℕ), 2⟩ ∧
      (w.peers ⟨0, 1⟩).database.localDatabaseStateID = 1 ∧
      (w.peers ⟨0, 1⟩).database.dbChecksum = 1 ∧
      ¬ HasConverged w ⟨0, 1⟩ ⟨1, (1 : ℕ), 2⟩ := by
  have hchk : ((Runs.run (PeerSystem.step counterCallbacks) counters
      merge).peers ⟨0, 1⟩).database.dbChecksum = 1 := by decide
  refine ⟨⟨by decide, ⟨by decide, by decide⟩, by decide, by decide,
    by decide, by decide, by decide, by decide⟩, by decide, hchk, fun h => ?_⟩
  have hbeacon := h.2
  rw [hchk] at hbeacon
  exact absurd hbeacon (by decide)

end PeerSystem

end ZgChoir
