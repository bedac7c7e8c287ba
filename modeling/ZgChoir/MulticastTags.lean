import ZgChoir.DatabaseUpdate
import ZgChoir.Hashtable
import ZgChoir.Runs
import ZgChoir.Windows

/-!
# Multicast messages that arrive more than once

A peer sends a multicast message through each of its network interfaces, so
that it may arrive any number of times.  The I/O thread of the sender tags the
message with its peer ID and with a counter; the I/O thread of a receiver
forwards it to the main thread unless the tag is among the last 1000 that it
has forwarded (`forwards_iff_notAmongLast`).

A message is thus forwarded exactly once, if fewer than 1000 others are
forwarded between its first copy and its last (`forwarded_exactlyOnce`).  The
tags of different messages are different as long as no counter wraps around.

Beacons are told apart by their contents, and leave the tags alone.
-/

namespace ZgChoir.MulticastTags

/-! ## The code -/

structure PZGMulticastMessageTag where
  peerID : ZGPeerID
  versionCode : UInt32
  messageID : UInt32
  deriving DecidableEq

/-- The what-codes of the messages that are multicast. -/
inductive MulticastWhat where
  | updateJuniorDatabase
  | userMessage
  | setBeaconData
  deriving DecidableEq

/-- A message in the network, with what `FindFlat` finds under
`PZG_NETWORK_NAME_MULTICAST_TAG`. -/
structure MulticastMessage (M : Type) where
  what : MulticastWhat
  tag : Option PZGMulticastMessageTag
  body : M

/-- What `InternalThreadEntry` keeps. -/
structure MulticastThread (B : Type) where
  recentlyReceived : Hashtable PZGMulticastMessageTag Unit
  seniorPeerID : ZGPeerID
  lastReceivedBeaconData : Option B

/-- What the thread sends to its owner. -/
inductive ToOwner (M B : Type) where
  | message (msg : MulticastMessage M)
  | beaconData (data : B) (tag : PZGMulticastMessageTag)

section

variable {κ ν : Type} [DecidableEq κ]

omit [DecidableEq κ] in
/-- `RemoveFirst` -/
def removeFirst (t : Hashtable κ ν) : Hashtable κ ν where
  entries := t.entries.tail
  distinct := t.distinct.sublist ((List.tail_sublist _).map Prod.fst)

/-- `MoveToBack` -/
def moveToBack (t : Hashtable κ ν) (k : κ) : Hashtable κ ν :=
  match t.get? k with
  | some v => (t.remove k).put k v
  | none => t

omit [DecidableEq κ] in
/-- `RemoveFirst`, as long as there are more than `maxItems`. -/
def removeOldest (maxItems : ℕ) (t : Hashtable κ ν) : Hashtable κ ν :=
  removeFirst^[t.entries.length - maxItems] t

end

variable {M B : Type} [DecidableEq B]

/-- A beacon is handed on if it comes from the senior peer and is news. -/
def beaconReceived (getBeaconDataFromMessage : M → Option B)
    (thread : MulticastThread B) (tag : PZGMulticastMessageTag) (body : M) :
    MulticastThread B × Option (ToOwner M B) :=
  if thread.seniorPeerID.isValid = true ∧ tag.peerID = thread.seniorPeerID then
    match getBeaconDataFromMessage body with
    | some incomingBeaconData =>
        if thread.lastReceivedBeaconData = some incomingBeaconData then
          (thread, none)
        else
          ({ thread with lastReceivedBeaconData := some incomingBeaconData },
            some (.beaconData incomingBeaconData tag))
    | none => (thread, none)
  else (thread, none)

/-- A message comes out of a gateway, whichever interface it is for. -/
def messageReceived (localPeerID : ZGPeerID) (versionCode : UInt32)
    (getBeaconDataFromMessage : M → Option B) (thread : MulticastThread B)
    (msg : MulticastMessage M) : MulticastThread B × Option (ToOwner M B) :=
  match msg.tag with
  | none => (thread, none)
  | some tag =>
      if tag.versionCode = versionCode ∧ tag.peerID ≠ localPeerID then
        if msg.what = .setBeaconData then
          beaconReceived getBeaconDataFromMessage thread tag msg.body
        else if tag ∈ thread.recentlyReceived.keys then (thread, none)
        else
          let recentlyReceived :=
            moveToBack (thread.recentlyReceived.put tag ()) tag
          ({ thread with
              recentlyReceived := removeOldest 1000 recentlyReceived },
            some (.message msg))
      else (thread, none)

/-! ## The network -/

/-- The peers of a network: the counters of those that send, all that has been
sent, and the thread of one peer that receives, with what it has forwarded:
which of the messages, and under which tag. -/
structure MulticastNetwork (M B : Type) where
  outgoingMulticastMessageTagCounter : ZGPeerID → UInt32
  sent : List (MulticastMessage M)
  thread : MulticastThread B
  forwarded : List (ℕ × PZGMulticastMessageTag)

/-- Nothing has been sent. -/
def MulticastNetwork.initial : MulticastNetwork M B where
  outgoingMulticastMessageTagCounter _ := 0
  sent := []
  thread := ⟨.empty, .invalid, none⟩
  forwarded := []

/-- What happens in the network.  A message that has been sent may be received
any number of times. -/
inductive NetworkEvent (M : Type) where
  | sendMulticastMessage (p : ZGPeerID) (what : MulticastWhat) (body : M)
  | sendBeacon (p : ZGPeerID) (body : M)
  | received (index : ℕ)
  | setSeniorPeerID (seniorPeerID : ZGPeerID)
  | invalidateLastReceivedBeaconData

variable (localPeerID : ZGPeerID) (versionCodeOf : ZGPeerID → UInt32)
  (getBeaconDataFromMessage : M → Option B)

/-- The thread of the receiving peer gets a message. -/
def MulticastNetwork.receive (t : MulticastNetwork M B) (index : ℕ)
    (msg : MulticastMessage M) : MulticastNetwork M B :=
  let received := messageReceived localPeerID (versionCodeOf localPeerID)
    getBeaconDataFromMessage t.thread msg
  { t with
    thread := received.1
    forwarded := match received.2, msg.tag with
      | some (.message _), some tag => t.forwarded ++ [(index, tag)]
      | _, _ => t.forwarded }

/-- One event. -/
def networkStep (t : MulticastNetwork M B) :
    NetworkEvent M → MulticastNetwork M B
  | .sendMulticastMessage p what body =>
      -- the owner's beacon data are not sent as they are
      if what = .setBeaconData then t
      else
        let counter := t.outgoingMulticastMessageTagCounter p + 1
        { t with
          outgoingMulticastMessageTagCounter :=
            Function.update t.outgoingMulticastMessageTagCounter p counter
          sent := t.sent ++
            [⟨what, some ⟨p, versionCodeOf p, counter⟩, body⟩] }
  | .sendBeacon p body =>
      { t with
        sent := t.sent ++
          [⟨.setBeaconData, some ⟨p, versionCodeOf p, 0⟩, body⟩] }
  | .received index =>
      match t.sent[index]? with
      | some msg =>
          t.receive localPeerID versionCodeOf getBeaconDataFromMessage index msg
      | none => t
  | .setSeniorPeerID seniorPeerID =>
      { t with thread := { t.thread with seniorPeerID } }
  | .invalidateLastReceivedBeaconData =>
      { t with thread := { t.thread with lastReceivedBeaconData := none } }

/-- The network after some events. -/
def networkRun (es : List (NetworkEvent M)) : MulticastNetwork M B :=
  Runs.run (networkStep localPeerID versionCodeOf getBeaconDataFromMessage)
    .initial es

/-! ## What a message does to the tags -/

section Tables

variable {κ ν : Type} {r : Hashtable κ ν} {k : κ} {v : ν}

theorem keys_removeFirst : (removeFirst r).keys = r.keys.tail :=
  List.map_tail

theorem keys_removeOldest {maxItems : ℕ} :
    (removeOldest maxItems r).keys = r.keys.rtake maxItems := by
  have hiterate : ∀ count,
      (removeFirst^[count] r).keys = r.keys.drop count := by
    intro count
    induction count with
    | zero => rfl
    | succ count ih =>
        rw [Function.iterate_succ_apply', keys_removeFirst, ih, List.tail_drop]
  have hlen : r.entries.length = r.keys.length := (List.length_map _).symm
  rw [removeOldest, hiterate, List.rtake, hlen]

/-- A key that has just been put is at the back already. -/
theorem keys_moveToBack [DecidableEq κ] (h : k ∉ r.keys) :
    (moveToBack (r.put k v) k).keys = r.keys ++ [k] := by
  have hput : (r.put k v).get? k = some v := Hashtable.get?_put_self
  simp only [moveToBack, hput]
  rw [Hashtable.remove_put_of_notMem h, Hashtable.keys_put_of_notMem h]

end Tables

variable {localPeerID versionCodeOf getBeaconDataFromMessage}
  {t : MulticastNetwork M B} {index : ℕ} {msg : MulticastMessage M}
  {tag : PZGMulticastMessageTag}

/-- The message is one that is forwarded. -/
structure Forwards (localPeerID : ZGPeerID) (versionCode : UInt32)
    (thread : MulticastThread B) (msg : MulticastMessage M)
    (tag : PZGMulticastMessageTag) : Prop where
  tagged : msg.tag = some tag
  compatible : tag.versionCode = versionCode
  other : tag.peerID ≠ localPeerID
  what : msg.what ≠ .setBeaconData
  isNew : tag ∉ thread.recentlyReceived.keys

/-- A beacon has nothing to do with the tags. -/
theorem beaconReceived_spec {thread : MulticastThread B} {body : M} :
    (beaconReceived getBeaconDataFromMessage thread tag
        body).1.recentlyReceived = thread.recentlyReceived ∧
      ∀ msg, (beaconReceived getBeaconDataFromMessage thread tag body).2 ≠
        some (.message msg) := by
  unfold beaconReceived
  split
  · split
    · split
      · exact ⟨rfl, fun _ => by simp⟩
      · exact ⟨rfl, fun _ => by simp⟩
    · exact ⟨rfl, fun _ => by simp⟩
  · exact ⟨rfl, fun _ => by simp⟩

/-- **What becomes of a message**: it is forwarded and its tag is remembered,
or nothing happens to the tags. -/
theorem messageReceived_cases (localPeerID : ZGPeerID) (versionCode : UInt32)
    (getBeaconDataFromMessage : M → Option B) (thread : MulticastThread B)
    (msg : MulticastMessage M) :
    (∃ tag, Forwards localPeerID versionCode thread msg tag ∧
      (messageReceived localPeerID versionCode getBeaconDataFromMessage thread
        msg).2 = some (.message msg) ∧
      (messageReceived localPeerID versionCode getBeaconDataFromMessage thread
        msg).1.recentlyReceived.keys =
          (thread.recentlyReceived.keys ++ [tag]).rtake 1000) ∨
    (∀ tag, ¬Forwards localPeerID versionCode thread msg tag) ∧
      (∀ msg', (messageReceived localPeerID versionCode
        getBeaconDataFromMessage thread msg).2 ≠ some (.message msg')) ∧
      (messageReceived localPeerID versionCode getBeaconDataFromMessage thread
        msg).1.recentlyReceived = thread.recentlyReceived := by
  unfold messageReceived
  split
  · next hnone =>
    refine .inr ⟨fun tag h => ?_, fun _ => by simp, rfl⟩
    have htagged := h.tagged
    simp [hnone] at htagged
  · next tag htag =>
    have hsame : ∀ {tag'}, msg.tag = some tag' → tag = tag' :=
      fun htag' => Option.some.inj (htag.symm.trans htag')
    split
    · next hpeer =>
      split
      · next hbeacon =>
        exact .inr ⟨fun _ h => h.what hbeacon, beaconReceived_spec.2,
          beaconReceived_spec.1⟩
      · next hwhat =>
        split
        · next hold =>
          refine .inr ⟨fun tag' h => ?_, fun _ => by simp, rfl⟩
          exact h.isNew (hsame h.tagged ▸ hold)
        · next hnew =>
          refine .inl ⟨tag, ⟨htag, hpeer.1, hpeer.2, hwhat, hnew⟩, rfl, ?_⟩
          rw [keys_removeOldest, keys_moveToBack hnew]
    · next hpeer =>
      refine .inr ⟨fun tag' h => ?_, fun _ => by simp, rfl⟩
      obtain rfl := hsame h.tagged
      exact hpeer ⟨h.compatible, h.other⟩

variable (localPeerID versionCodeOf getBeaconDataFromMessage) in
/-- **One message received.** -/
theorem receive_cases (t : MulticastNetwork M B) (index : ℕ)
    (msg : MulticastMessage M) :
    let t' := t.receive localPeerID versionCodeOf getBeaconDataFromMessage index
      msg
    (∃ tag, Forwards localPeerID (versionCodeOf localPeerID) t.thread msg tag ∧
      t'.forwarded = t.forwarded ++ [(index, tag)] ∧
      t'.thread.recentlyReceived.keys =
        (t.thread.recentlyReceived.keys ++ [tag]).rtake 1000) ∨
    (∀ tag, ¬Forwards localPeerID (versionCodeOf localPeerID) t.thread msg
        tag) ∧
      t'.forwarded = t.forwarded ∧
      t'.thread.recentlyReceived = t.thread.recentlyReceived := by
  intro t'
  obtain ⟨tag, hforwards, hout, hkeys⟩ | ⟨hnot, hout, hsame⟩ :=
    messageReceived_cases localPeerID (versionCodeOf localPeerID)
      getBeaconDataFromMessage t.thread msg
  · refine .inl ⟨tag, hforwards, ?_, hkeys⟩
    simp only [t', MulticastNetwork.receive, hout, hforwards.tagged]
  · refine .inr ⟨hnot, ?_, hsame⟩
    simp only [t', MulticastNetwork.receive]
    split
    · next msg' _ hmsg _ => exact absurd hmsg (hout msg')
    · rfl

/-! ## The tags that are remembered -/

/-- The tags that have been forwarded. -/
def MulticastNetwork.tags (t : MulticastNetwork M B) :
    List PZGMulticastMessageTag :=
  t.forwarded.map Prod.snd

/-- What the receiving thread remembers and has forwarded. -/
structure Kept (t : MulticastNetwork M B) : Prop where
  recentlyReceived : t.thread.recentlyReceived.keys = t.tags.rtake 1000
  sent : ∀ e ∈ t.forwarded, ∃ msg, t.sent[e.1]? = some msg ∧
    msg.tag = some e.2 ∧ msg.what ≠ .setBeaconData

omit [DecidableEq B] in
theorem kept_initial : Kept (.initial : MulticastNetwork M B) :=
  ⟨List.drop_nil.symm, fun _ he => absurd he List.not_mem_nil⟩

omit [DecidableEq B] in
/-- More is sent. -/
theorem Kept.send {counter : ZGPeerID → UInt32} {more : MulticastMessage M}
    (h : Kept t) :
    Kept { t with
      outgoingMulticastMessageTagCounter := counter
      sent := t.sent ++ [more] } := by
  refine ⟨h.recentlyReceived, fun e he => ?_⟩
  obtain ⟨msg, hmsg, htag, hwhat⟩ := h.sent e he
  refine ⟨msg, ?_, htag, hwhat⟩
  have hlt : e.1 < t.sent.length := (List.getElem?_eq_some_iff.mp hmsg).1
  rw [List.getElem?_append_left hlt, hmsg]

theorem Kept.receive (h : Kept t) (hmsg : t.sent[index]? = some msg) :
    Kept (t.receive localPeerID versionCodeOf getBeaconDataFromMessage index
      msg) := by
  obtain ⟨tag, hforwards, hforwarded, hkeys⟩ | ⟨-, hforwarded, hsame⟩ :=
    receive_cases localPeerID versionCodeOf getBeaconDataFromMessage t index msg
  · refine ⟨?_, fun e he => ?_⟩
    · have htags : (t.receive localPeerID versionCodeOf
          getBeaconDataFromMessage index msg).tags = t.tags ++ [tag] := by
        rw [MulticastNetwork.tags, hforwarded, List.map_append]
        rfl
      rw [hkeys, h.recentlyReceived, htags]
      exact Windows.rtake_rtake_append
    · rw [hforwarded] at he
      obtain he | he := List.mem_append.mp he
      · exact h.sent e he
      · obtain rfl := List.mem_singleton.mp he
        exact ⟨msg, hmsg, hforwards.tagged, hforwards.what⟩
  · refine ⟨?_, fun e he => h.sent e (hforwarded ▸ he)⟩
    rw [hsame, h.recentlyReceived, MulticastNetwork.tags,
      MulticastNetwork.tags, hforwarded]

theorem Kept.step {e : NetworkEvent M} (h : Kept t) :
    Kept (networkStep localPeerID versionCodeOf getBeaconDataFromMessage t
      e) := by
  cases e with
  | sendMulticastMessage p what body =>
      simp only [networkStep]
      split
      · exact h
      · exact h.send
  | sendBeacon p body => exact h.send
  | received index =>
      simp only [networkStep]
      split
      · next msg hmsg => exact h.receive hmsg
      · exact h
  | setSeniorPeerID seniorPeerID => exact ⟨h.recentlyReceived, h.sent⟩
  | invalidateLastReceivedBeaconData => exact ⟨h.recentlyReceived, h.sent⟩

variable (localPeerID versionCodeOf getBeaconDataFromMessage) in
theorem kept_run (es : List (NetworkEvent M)) :
    Kept (networkRun localPeerID versionCodeOf getBeaconDataFromMessage es) :=
  Runs.run_invariant kept_initial fun _ _ h => h.step

omit [DecidableEq B] in
/-- **What is remembered** are the last 1000 different tags. -/
theorem Kept.lastTags (h : Kept t) :
    t.tags.dedup.rtake 1000 = t.thread.recentlyReceived.keys := by
  have hnodup : (t.tags.rtake 1000).Nodup :=
    h.recentlyReceived ▸ t.thread.recentlyReceived.nodup_keys
  rw [h.recentlyReceived]
  exact Windows.rtake_dedup hnodup

/-- A message of another peer is forwarded exactly if its tag is not among the
last ones. -/
theorem Kept.forwards_iff (h : Kept t) (htag : msg.tag = some tag)
    (hcompatible : tag.versionCode = versionCodeOf localPeerID)
    (hother : tag.peerID ≠ localPeerID) (hwhat : msg.what ≠ .setBeaconData) :
    (messageReceived localPeerID (versionCodeOf localPeerID)
      getBeaconDataFromMessage t.thread msg).2 = some (.message msg) ↔
    tag ∉ t.tags.dedup.rtake 1000 := by
  rw [h.lastTags]
  obtain ⟨tag', hforwards, hout, -⟩ | ⟨hnot, hout, -⟩ :=
    messageReceived_cases localPeerID (versionCodeOf localPeerID)
      getBeaconDataFromMessage t.thread msg
  · obtain rfl : tag = tag' :=
      Option.some.inj (htag.symm.trans hforwards.tagged)
    exact iff_of_true hout hforwards.isNew
  · refine iff_of_false (hout msg) fun hnew => ?_
    exact hnot tag ⟨htag, hcompatible, hother, hwhat, hnew⟩

/-! ## The tags that are sent -/

/-- The message is a peer's, and no beacon. -/
def SentBy (p : ZGPeerID) (msg : MulticastMessage M) : Prop :=
  msg.what ≠ .setBeaconData ∧ msg.tag.map PZGMulticastMessageTag.peerID = some p

instance decidableSentBy (p : ZGPeerID) (msg : MulticastMessage M) :
    Decidable (SentBy p msg) := inferInstanceAs (Decidable (_ ∧ _))

/-- How many messages a peer has sent. -/
def MulticastNetwork.numSentBy (t : MulticastNetwork M B) (p : ZGPeerID) : ℕ :=
  t.sent.countP fun msg => decide (SentBy p msg)

/-- The tags of different messages are different. -/
structure DistinctTags (t : MulticastNetwork M B) : Prop where
  counters : ∀ p,
    (t.outgoingMulticastMessageTagCounter p).toNat = t.numSentBy p
  below : ∀ msg ∈ t.sent, msg.what ≠ .setBeaconData → ∀ tag,
    msg.tag = some tag → tag.messageID.toNat ≤ t.numSentBy tag.peerID
  distinct : t.sent.Pairwise fun msg msg' => msg.what ≠ .setBeaconData →
    msg'.what ≠ .setBeaconData → msg.tag ≠ msg'.tag

omit [DecidableEq B] in
theorem distinctTags_initial :
    DistinctTags (.initial : MulticastNetwork M B) :=
  ⟨fun _ => rfl, fun _ hmsg => absurd hmsg List.not_mem_nil, .nil⟩

omit [DecidableEq B] in
/-- Whoever sends a message has sent one more. -/
theorem numSentBy_send {counter : ZGPeerID → UInt32}
    {more : MulticastMessage M} (p : ZGPeerID) :
    MulticastNetwork.numSentBy { t with
      outgoingMulticastMessageTagCounter := counter
      sent := t.sent ++ [more] } p =
    t.numSentBy p + if SentBy p more then 1 else 0 := by
  rw [MulticastNetwork.numSentBy, List.countP_append, List.countP_singleton]
  simp [MulticastNetwork.numSentBy]

/-- **A message that is sent** gets a tag of its own, as long as the counter
does not wrap around. -/
theorem DistinctTags.sendMulticastMessage {p : ZGPeerID} {what : MulticastWhat}
    {body : M} (h : DistinctTags t) (hwhat : what ≠ .setBeaconData)
    (hfits : t.numSentBy p + 1 < 2 ^ 32) :
    DistinctTags (networkStep localPeerID versionCodeOf
      getBeaconDataFromMessage t (.sendMulticastMessage p what body)) := by
  have hcounter : (t.outgoingMulticastMessageTagCounter p + 1).toNat =
      t.numSentBy p + 1 := by
    rw [UInt32.toNat_add, h.counters]
    exact Nat.mod_eq_of_lt hfits
  have hsentBy : ∀ q, SentBy q (⟨what, some ⟨p, versionCodeOf p,
      t.outgoingMulticastMessageTagCounter p + 1⟩, body⟩ :
        MulticastMessage M) ↔ p = q := by
    intro q
    simp [SentBy, hwhat]
  simp only [networkStep, if_neg hwhat]
  refine ⟨fun q => ?_, fun msg hmsg hno tag htag => ?_, ?_⟩
  · rw [numSentBy_send]
    simp only [hsentBy]
    by_cases hq : q = p
    · rw [hq, Function.update_self, hcounter, if_pos rfl]
    · rw [Function.update_of_ne hq, h.counters, if_neg (Ne.symm hq)]
      rfl
  · rw [numSentBy_send]
    obtain hmsg | hmsg := List.mem_append.mp hmsg
    · exact Nat.le_add_right_of_le (h.below msg hmsg hno tag htag)
    · obtain rfl := List.mem_singleton.mp hmsg
      obtain rfl := Option.some.inj htag
      rw [if_pos ((hsentBy p).mpr rfl), hcounter]
  · refine List.pairwise_append.mpr ⟨h.distinct, List.pairwise_singleton _ _,
      fun msg hmsg msg' hmsg' hno _ hsame => ?_⟩
    obtain rfl := List.mem_singleton.mp hmsg'
    have hbelow : (t.outgoingMulticastMessageTagCounter p + 1).toNat ≤
        t.numSentBy p := h.below msg hmsg hno _ hsame
    omega

omit [DecidableEq B] in
theorem DistinctTags.sendBeacon {beacon : MulticastMessage M}
    (h : DistinctTags t) (hbeacon : beacon.what = .setBeaconData) :
    DistinctTags { t with sent := t.sent ++ [beacon] } := by
  have hcount : ∀ p, MulticastNetwork.numSentBy { t with
      sent := t.sent ++ [beacon] } p = t.numSentBy p := by
    intro p
    rw [numSentBy_send, if_neg fun hsent => hsent.1 hbeacon]
    rfl
  refine ⟨fun p => (hcount p).symm ▸ h.counters p,
    fun msg hmsg hno tag htag => ?_, ?_⟩
  · rw [hcount]
    obtain hmsg | hmsg := List.mem_append.mp hmsg
    · exact h.below msg hmsg hno tag htag
    · obtain rfl := List.mem_singleton.mp hmsg
      exact absurd hbeacon hno
  · refine List.pairwise_append.mpr ⟨h.distinct, List.pairwise_singleton _ _,
      fun msg _ msg' hmsg' _ hno _ => ?_⟩
    obtain rfl := List.mem_singleton.mp hmsg'
    exact hno hbeacon

/-- What has been sent stays sent. -/
theorem sent_step (e : NetworkEvent M) :
    t.sent <+: (networkStep localPeerID versionCodeOf getBeaconDataFromMessage
      t e).sent := by
  cases e with
  | sendMulticastMessage p what body =>
      simp only [networkStep]
      split
      · exact List.prefix_rfl
      · exact List.prefix_append _ _
  | sendBeacon p body => exact List.prefix_append _ _
  | received index =>
      simp only [networkStep]
      split
      · exact List.prefix_rfl
      · exact List.prefix_rfl
  | setSeniorPeerID seniorPeerID => exact List.prefix_rfl
  | invalidateLastReceivedBeaconData => exact List.prefix_rfl

theorem DistinctTags.step {e : NetworkEvent M} (h : DistinctTags t)
    (hfits : ∀ p, (networkStep localPeerID versionCodeOf
      getBeaconDataFromMessage t e).numSentBy p < 2 ^ 32) :
    DistinctTags (networkStep localPeerID versionCodeOf
      getBeaconDataFromMessage t e) := by
  cases e with
  | sendMulticastMessage p what body =>
      by_cases hwhat : what = .setBeaconData
      · simp only [networkStep, if_pos hwhat]
        exact h
      · refine h.sendMulticastMessage hwhat ?_
        have hlast := hfits p
        simp only [networkStep, if_neg hwhat] at hlast
        rw [numSentBy_send, if_pos ⟨hwhat, rfl⟩] at hlast
        exact hlast
  | sendBeacon p body => exact h.sendBeacon rfl
  | received index =>
      simp only [networkStep]
      split
      · exact ⟨h.counters, h.below, h.distinct⟩
      · exact h
  | setSeniorPeerID seniorPeerID => exact ⟨h.counters, h.below, h.distinct⟩
  | invalidateLastReceivedBeaconData =>
      exact ⟨h.counters, h.below, h.distinct⟩

variable (localPeerID versionCodeOf getBeaconDataFromMessage) in
theorem networkRun_append_singleton (es : List (NetworkEvent M))
    (e : NetworkEvent M) :
    networkRun localPeerID versionCodeOf getBeaconDataFromMessage
        (es ++ [e]) =
      networkStep localPeerID versionCodeOf getBeaconDataFromMessage
        (networkRun localPeerID versionCodeOf getBeaconDataFromMessage es) e :=
  Runs.run_append

theorem numSentBy_le_step (p : ZGPeerID) (e : NetworkEvent M) :
    t.numSentBy p ≤ (networkStep localPeerID versionCodeOf
      getBeaconDataFromMessage t e).numSentBy p :=
  (sent_step e).sublist.countP_le

/-- **The tags of different messages are different** where no peer has sent as
many as there are numbers. -/
theorem distinctTags_run (es : List (NetworkEvent M))
    (hfits : ∀ p, (networkRun localPeerID versionCodeOf
      getBeaconDataFromMessage es).numSentBy p < 2 ^ 32) :
    DistinctTags (networkRun localPeerID versionCodeOf
      getBeaconDataFromMessage es) := by
  induction es using List.reverseRecOn with
  | nil => exact distinctTags_initial
  | append_singleton es e ih =>
      rw [networkRun_append_singleton] at hfits ⊢
      exact (ih fun p => (numSentBy_le_step p e).trans_lt (hfits p)).step hfits

/-! ## Exactly once -/

variable (localPeerID versionCodeOf getBeaconDataFromMessage) in
/-- What is forwarded has been received. -/
theorem forwarded_step (t : MulticastNetwork M B) (e : NetworkEvent M) :
    ∃ more, (networkStep localPeerID versionCodeOf getBeaconDataFromMessage t
        e).forwarded = t.forwarded ++ more ∧
      ∀ x ∈ more, e = .received x.1 := by
  have hnothing : ∀ x ∈ ([] : List (ℕ × PZGMulticastMessageTag)),
      e = .received x.1 := fun _ hx => absurd hx List.not_mem_nil
  cases e with
  | sendMulticastMessage p what body =>
      refine ⟨[], ?_, hnothing⟩
      simp only [networkStep]
      split
      · exact (List.append_nil _).symm
      · exact (List.append_nil _).symm
  | received index =>
      simp only [networkStep]
      split
      · next msg hmsg =>
        obtain ⟨tag, -, hforwarded, -⟩ | ⟨-, hforwarded, -⟩ :=
          receive_cases localPeerID versionCodeOf getBeaconDataFromMessage t
            index msg
        · refine ⟨[(index, tag)], hforwarded, fun x hx => ?_⟩
          rw [List.mem_singleton.mp hx]
        · exact ⟨[], hforwarded.trans (List.append_nil _).symm, hnothing⟩
      · exact ⟨[], (List.append_nil _).symm, hnothing⟩
  | sendBeacon p body => exact ⟨[], (List.append_nil _).symm, hnothing⟩
  | setSeniorPeerID seniorPeerID =>
      exact ⟨[], (List.append_nil _).symm, hnothing⟩
  | invalidateLastReceivedBeaconData =>
      exact ⟨[], (List.append_nil _).symm, hnothing⟩

variable (localPeerID versionCodeOf getBeaconDataFromMessage) in
theorem forwarded_run (es fs : List (NetworkEvent M)) :
    ∃ more, (networkRun localPeerID versionCodeOf getBeaconDataFromMessage
        (es ++ fs)).forwarded =
      (networkRun localPeerID versionCodeOf getBeaconDataFromMessage
        es).forwarded ++ more ∧ ∀ x ∈ more, .received x.1 ∈ fs := by
  induction fs using List.reverseRecOn with
  | nil =>
      refine ⟨[], ?_, fun _ hx => absurd hx List.not_mem_nil⟩
      rw [List.append_nil, List.append_nil]
  | append_singleton fs e ih =>
      obtain ⟨past, hpast, hearlier⟩ := ih
      obtain ⟨more, hmore, hreceived⟩ := forwarded_step localPeerID
        versionCodeOf getBeaconDataFromMessage (networkRun localPeerID
          versionCodeOf getBeaconDataFromMessage (es ++ fs)) e
      refine ⟨past ++ more, ?_, fun x hx => ?_⟩
      · rw [← List.append_assoc, networkRun_append_singleton, hmore, hpast,
          List.append_assoc]
      · obtain hx | hx := List.mem_append.mp hx
        · exact List.mem_append_left _ (hearlier x hx)
        · exact List.mem_append_right _
            (hreceived x hx ▸ List.mem_cons_self)

variable (localPeerID versionCodeOf getBeaconDataFromMessage) in
theorem sent_run (es fs : List (NetworkEvent M)) :
    (networkRun localPeerID versionCodeOf getBeaconDataFromMessage es).sent <+:
      (networkRun localPeerID versionCodeOf getBeaconDataFromMessage
        (es ++ fs)).sent := by
  induction fs using List.reverseRecOn with
  | nil => rw [List.append_nil]
  | append_singleton fs e ih =>
      rw [← List.append_assoc, networkRun_append_singleton]
      exact ih.trans (sent_step e)

omit [DecidableEq B] in
/-- **A message that has just been forwarded** is still remembered. -/
theorem Kept.mem_recentlyReceived {earlier later :
    List (ℕ × PZGMulticastMessageTag)} (h : Kept t)
    (hforwarded : t.forwarded = earlier ++ later)
    (hmsg : t.sent[index]? = some msg) (htag : msg.tag = some tag)
    (hone : later.countP (fun x => decide (x.1 = index)) = 1)
    (hfew : later.countP (fun x => decide (x.1 ≠ index)) < 1000) :
    tag ∈ t.thread.recentlyReceived.keys := by
  obtain ⟨x, hx, hindex⟩ := List.countP_pos_iff.mp (hone ▸ Nat.one_pos)
  have hindex := of_decide_eq_true hindex
  obtain ⟨before, after, rfl⟩ := List.append_of_mem hx
  have hxtag : x.2 = tag := by
    obtain ⟨msg', hmsg', htag', -⟩ := h.sent x (by simp [hforwarded])
    rw [hindex, hmsg] at hmsg'
    obtain rfl := Option.some.inj hmsg'
    exact Option.some.inj (htag'.symm.trans htag)
  have hnone : after.countP (fun x => decide (x.1 = index)) = 0 := by
    rw [List.countP_append, List.countP_cons_of_pos (by simp [hindex])] at hone
    omega
  have hlength : after.length < 1000 := by
    have hall := after.length_eq_countP_add_countP
      fun x => decide (x.1 = index)
    have hothers : after.countP (fun x => decide ¬decide (x.1 = index) = true) =
        after.countP fun x => decide (x.1 ≠ index) := by
      simp
    rw [List.countP_append, List.countP_cons] at hfew
    omega
  rw [h.recentlyReceived, MulticastNetwork.tags, hforwarded, List.map_append,
    List.map_append, List.map_cons, ← List.append_assoc, hxtag]
  exact Windows.mem_rtake_append (by rwa [List.length_map])

omit [DecidableEq B] in
/-- **A message that has not been forwarded** is not remembered. -/
theorem Kept.notMem_recentlyReceived (h : Kept t) (hdistinct : DistinctTags t)
    (hnone : ∀ x ∈ t.forwarded, x.1 ≠ index)
    (hmsg : t.sent[index]? = some msg) (htag : msg.tag = some tag)
    (hwhat : msg.what ≠ .setBeaconData) :
    tag ∉ t.thread.recentlyReceived.keys := by
  intro hmem
  rw [h.recentlyReceived] at hmem
  obtain ⟨x, hx, rfl⟩ := List.mem_map.mp (Windows.rtake_suffix.subset hmem)
  obtain ⟨msg', hmsg', htag', hwhat'⟩ := h.sent x hx
  obtain ⟨hlt, hget⟩ := List.getElem?_eq_some_iff.mp hmsg
  obtain ⟨hlt', hget'⟩ := List.getElem?_eq_some_iff.mp hmsg'
  have hpairwise := List.pairwise_iff_getElem.mp hdistinct.distinct
  obtain hbefore | hafter := Nat.lt_or_gt_of_ne (hnone x hx)
  · refine hpairwise x.1 index hlt' hlt hbefore ?_ ?_ ?_
    · rwa [hget']
    · rwa [hget]
    · rw [hget, hget', htag, htag']
  · refine hpairwise index x.1 hlt hlt' hafter ?_ ?_ ?_
    · rwa [hget]
    · rwa [hget']
    · rw [hget, hget', htag, htag']

/-- What is counted of the messages that have been forwarded. -/
def countOf (index : ℕ) (forwarded : List (ℕ × PZGMulticastMessageTag)) : ℕ :=
  forwarded.countP fun x => decide (x.1 = index)

def countOfOthers (index : ℕ)
    (forwarded : List (ℕ × PZGMulticastMessageTag)) : ℕ :=
  forwarded.countP fun x => decide (x.1 ≠ index)

theorem countOf_append {earlier later : List (ℕ × PZGMulticastMessageTag)} :
    countOf index (earlier ++ later) =
      countOf index earlier + countOf index later := List.countP_append

theorem countOf_eq_zero_iff {forwarded : List (ℕ × PZGMulticastMessageTag)} :
    countOf index forwarded = 0 ↔ ∀ x ∈ forwarded, x.1 ≠ index := by
  simp [countOf, List.countP_eq_zero]

/-- **A copy that is received** leaves the message forwarded once, whether it
had been forwarded before or not. -/
theorem Kept.countOf_received {earlier past :
    List (ℕ × PZGMulticastMessageTag)} (h : Kept t)
    (hdistinct : DistinctTags t) (hforwarded : t.forwarded = earlier ++ past)
    (hmsg : t.sent[index]? = some msg) (htag : msg.tag = some tag)
    (hcompatible : tag.versionCode = versionCodeOf localPeerID)
    (hother : tag.peerID ≠ localPeerID) (hwhat : msg.what ≠ .setBeaconData)
    (hnone : countOf index earlier = 0) (hone : countOf index past ≤ 1)
    (hfew : countOfOthers index past < 1000) :
    ∃ more, (t.receive localPeerID versionCodeOf getBeaconDataFromMessage index
        msg).forwarded = t.forwarded ++ more ∧
      countOf index (past ++ more) = 1 := by
  obtain ⟨tag', hforwards, hafter, -⟩ | ⟨hnot, hafter, -⟩ :=
    receive_cases localPeerID versionCodeOf getBeaconDataFromMessage t index msg
  · refine ⟨[(index, tag')], hafter, ?_⟩
    have hnew : countOf index past = 0 := by
      by_contra hold
      exact hforwards.isNew (h.mem_recentlyReceived hforwarded hmsg
        hforwards.tagged (by unfold countOf at *; omega) hfew)
    have hthis : countOf index [(index, tag')] = 1 := by simp [countOf]
    rw [countOf_append, hnew, hthis]
  · refine ⟨[], hafter.trans (List.append_nil _).symm, ?_⟩
    rw [List.append_nil]
    by_contra hnever
    have hzero : countOf index t.forwarded = 0 := by
      rw [hforwarded, countOf_append]
      omega
    have hnew := h.notMem_recentlyReceived hdistinct
      (countOf_eq_zero_iff.mp hzero) hmsg htag hwhat
    exact hnot tag ⟨htag, hcompatible, hother, hwhat, hnew⟩

/-- **Between the first copy and the last** the message is forwarded once. -/
theorem countOf_forwarded_between {es₁ : List (NetworkEvent M)}
    (hmsg : (networkRun localPeerID versionCodeOf getBeaconDataFromMessage
      es₁).sent[index]? = some msg)
    (htag : msg.tag = some tag)
    (hcompatible : tag.versionCode = versionCodeOf localPeerID)
    (hother : tag.peerID ≠ localPeerID) (hwhat : msg.what ≠ .setBeaconData)
    (hnone : countOf index (networkRun localPeerID versionCodeOf
      getBeaconDataFromMessage es₁).forwarded = 0)
    (es₂ : List (NetworkEvent M)) :
    ∀ later, (networkRun localPeerID versionCodeOf getBeaconDataFromMessage
        (es₁ ++ es₂)).forwarded =
      (networkRun localPeerID versionCodeOf getBeaconDataFromMessage
        es₁).forwarded ++ later →
    (∀ p, (networkRun localPeerID versionCodeOf getBeaconDataFromMessage
      (es₁ ++ es₂)).numSentBy p < 2 ^ 32) →
    countOfOthers index later < 1000 →
    (.received index ∉ es₂ → countOf index later = 0) ∧
      (.received index ∈ es₂ → countOf index later = 1) := by
  induction es₂ using List.reverseRecOn with
  | nil =>
      intro later hforwarded _ _
      rw [List.append_nil, List.self_eq_append_right] at hforwarded
      subst hforwarded
      exact ⟨fun _ => rfl, fun hin => absurd hin List.not_mem_nil⟩
  | append_singleton es₂ e ih =>
      intro later hforwarded hfits hfew
      obtain ⟨past, hpast, -⟩ := forwarded_run localPeerID versionCodeOf
        getBeaconDataFromMessage es₁ es₂
      have hkept := kept_run localPeerID versionCodeOf
        getBeaconDataFromMessage (es₁ ++ es₂)
      have hsent := sent_run localPeerID versionCodeOf
        getBeaconDataFromMessage es₁ es₂
      rw [← List.append_assoc, networkRun_append_singleton] at hforwarded hfits
      have hfits' : ∀ p, (networkRun localPeerID versionCodeOf
          getBeaconDataFromMessage (es₁ ++ es₂)).numSentBy p < 2 ^ 32 :=
        fun p => (numSentBy_le_step p e).trans_lt (hfits p)
      have hdistinct := distinctTags_run _ hfits'
      have hmsg' : (networkRun localPeerID versionCodeOf
          getBeaconDataFromMessage (es₁ ++ es₂)).sent[index]? = some msg := by
        obtain ⟨hlt, hget⟩ := List.getElem?_eq_some_iff.mp hmsg
        rw [List.prefix_iff_getElem?.mp hsent index hlt, hget]
      obtain ⟨more, hmore, hreceived⟩ := forwarded_step localPeerID
        versionCodeOf getBeaconDataFromMessage (networkRun localPeerID
          versionCodeOf getBeaconDataFromMessage (es₁ ++ es₂)) e
      obtain rfl : later = past ++ more := by
        rw [hmore, hpast, List.append_assoc] at hforwarded
        exact (List.append_cancel_left hforwarded).symm
      have hothers : countOfOthers index past < 1000 := by
        rw [countOfOthers, List.countP_append] at hfew
        exact (Nat.le_add_right _ _).trans_lt hfew
      obtain ⟨hnever, honce⟩ := ih past hpast hfits' hothers
      by_cases he : e = .received index
      · subst he
        refine ⟨fun hnot => absurd (List.mem_append_right _
          List.mem_cons_self) hnot, fun _ => ?_⟩
        have hatMostOnce : countOf index past ≤ 1 := by
          by_cases hin : .received index ∈ es₂
          · exact (honce hin).le
          · exact (hnever hin).le.trans zero_le_one
        obtain ⟨more', hmore', hcount⟩ := hkept.countOf_received hdistinct hpast
          hmsg' htag hcompatible hother hwhat hnone hatMostOnce hothers
        have hsame : more = more' := by
          have hstep : networkStep localPeerID versionCodeOf
              getBeaconDataFromMessage (networkRun localPeerID versionCodeOf
                getBeaconDataFromMessage (es₁ ++ es₂)) (.received index) =
              (networkRun localPeerID versionCodeOf getBeaconDataFromMessage
                (es₁ ++ es₂)).receive localPeerID versionCodeOf
                  getBeaconDataFromMessage index msg := by
            simp only [networkStep, hmsg']
          rw [hstep, hmore'] at hmore
          exact (List.append_cancel_left hmore).symm
        rw [hsame]
        exact hcount
      · have hzero : countOf index more = 0 := by
          refine countOf_eq_zero_iff.mpr fun x hx hindex => he ?_
          rw [hreceived x hx, hindex]
        have hin : NetworkEvent.received index ∈ es₂ ++ [e] ↔
            .received index ∈ es₂ := by
          simp [Ne.symm he]
        rw [hin, countOf_append, hzero, Nat.add_zero]
        exact ⟨hnever, honce⟩

/-- **Multicasts are de-duplicated.**  In every run of the network, a message of
another peer that is compatible is forwarded exactly if its tag is not among
the last 1000 different tags that have been forwarded.  And a message is
forwarded exactly once if all its copies are received in a part of the run in
which fewer than 1000 others are forwarded, where no peer sends 2^32 messages
or more. -/
theorem multicasts_deduplicated (localPeerID : ZGPeerID)
    (versionCodeOf : ZGPeerID → UInt32)
    (getBeaconDataFromMessage : M → Option B) :
    (∀ (es : List (NetworkEvent M)) (msg : MulticastMessage M) tag,
      msg.tag = some tag → tag.versionCode = versionCodeOf localPeerID →
      tag.peerID ≠ localPeerID → msg.what ≠ .setBeaconData →
      let t := networkRun localPeerID versionCodeOf getBeaconDataFromMessage es
      ((messageReceived localPeerID (versionCodeOf localPeerID)
        getBeaconDataFromMessage t.thread msg).2 = some (.message msg) ↔
          tag ∉ t.tags.dedup.rtake 1000)) ∧
    ∀ (es₁ es₂ es₃ : List (NetworkEvent M)) (index : ℕ)
        (msg : MulticastMessage M) tag later,
      let run : List (NetworkEvent M) → MulticastNetwork M B :=
        networkRun localPeerID versionCodeOf getBeaconDataFromMessage
      (run es₁).sent[index]? = some msg → msg.tag = some tag →
      tag.versionCode = versionCodeOf localPeerID →
      tag.peerID ≠ localPeerID → msg.what ≠ .setBeaconData →
      .received index ∉ es₁ → .received index ∈ es₂ → .received index ∉ es₃ →
      (run (es₁ ++ es₂)).forwarded = (run es₁).forwarded ++ later →
      countOfOthers index later < 1000 →
      (∀ p, (run (es₁ ++ es₂)).numSentBy p < 2 ^ 32) →
      countOf index (run (es₁ ++ es₂ ++ es₃)).forwarded = 1 := by
  refine ⟨fun es msg tag htag hcompatible hother hwhat =>
    (kept_run _ _ _ es).forwards_iff htag hcompatible hother hwhat, ?_⟩
  intro es₁ es₂ es₃ index msg tag later run hmsg htag hcompatible hother
    hwhat hbefore hbetween hafter hlater hfew hfits
  obtain ⟨first, hfirst, hreceived⟩ := forwarded_run localPeerID versionCodeOf
    getBeaconDataFromMessage [] es₁
  obtain ⟨last, hlast, hreceivedLast⟩ := forwarded_run localPeerID
    versionCodeOf getBeaconDataFromMessage (es₁ ++ es₂) es₃
  have hzero : countOf index (run es₁).forwarded = 0 := by
    refine countOf_eq_zero_iff.mpr fun x hx hindex => hbefore ?_
    have hall : (run es₁).forwarded = first := hfirst
    exact hindex ▸ hreceived x (hall ▸ hx)
  have hzeroLast : countOf index last = 0 := by
    refine countOf_eq_zero_iff.mpr fun x hx hindex => hafter ?_
    exact hindex ▸ hreceivedLast x hx
  have hone := (countOf_forwarded_between hmsg htag hcompatible hother hwhat
    hzero es₂ later hlater hfits hfew).2 hbetween
  have hall : (run (es₁ ++ es₂ ++ es₃)).forwarded =
      (run es₁).forwarded ++ later ++ last := by
    rw [← hlater]
    exact hlast
  rw [hall, countOf_append, countOf_append, hzero, hone, hzeroLast]

/-- Peer 2 sends a message. -/
def oneMessage : List (NetworkEvent ℕ) :=
  [.sendMulticastMessage ⟨0, 2⟩ .userMessage 7]

/-- Peer 1 receives it through two interfaces. -/
def twoCopies : List (NetworkEvent ℕ) := [.received 0, .received 0]

/-- A message of which two copies arrive. -/
theorem multicasts_deduplicated_twoCopies :
    countOf 0 (networkRun ⟨0, 1⟩ (fun _ => 5) (fun _ : ℕ => (none : Option ℕ))
      (oneMessage ++ twoCopies ++ [])).forwarded = 1 :=
  (multicasts_deduplicated ⟨0, 1⟩ (fun _ => 5)
      fun _ : ℕ => (none : Option ℕ)).2 oneMessage twoCopies [] 0
    ⟨.userMessage, some ⟨⟨0, 2⟩, 5, 1⟩, 7⟩ ⟨⟨0, 2⟩, 5, 1⟩
    [(0, ⟨⟨0, 2⟩, 5, 1⟩)] rfl rfl rfl (by decide) (by decide)
    (by simp [oneMessage]) (by simp [twoCopies]) (by simp) (by decide)
    (by decide) (fun _ => List.countP_le_length.trans_lt (by decide))

end ZgChoir.MulticastTags
