import ZgChoir.DeletionReports

/-!
# Who is given an update

A subscriber is to be given the updates that its live subscriptions match, and
once an absence when they no longer do.  What decides is its own table, which
has one filter for each pattern, while the same subscriber may subscribe to a
pattern with several filters and take them back one by one.  As long as it
has one filter for each pattern, and takes back the last subscription to a
pattern only (`OneFilterPerPattern`), the table says what the live
subscriptions say.

An absence is told of a path of which a value was given, but not after the
subscriber has been without any subscription that could match the path: then
the path is dropped.
-/

namespace ZgChoir.MuxSubscriptions

open MuxNotifications (tableOf learn mem_learn mem_keepReceived
  mem_receivedPaths_updateInfo)
open MuxNotifications.MuxGateway (updateInfo_given)

/-- What happens to a gateway. -/
inductive DeliveryEvent (σ φ M : Type) where
  | registerSubscriber (s : σ)
  | addSubscription (answer : Answer) (calledBy : σ) (path : String)
      (filter : Option φ) (flags : TreeGatewayFlags)
  | removeSubscription (answer : Answer) (calledBy : σ) (path : String)
      (filter : Option φ) (flags : TreeGatewayFlags)
  | treeNodeUpdated (path : String) (msgRef : Option M)
  | connected (answers : String → Answer)
  | disconnected (answer : Answer)

/-- A gateway and its live subscriptions.  A subscriber has been given a value
of the paths that are `valued`, and not yet an absence; of those that are
`kept` it has had a subscription that could match them ever since. -/
structure Deliveries (σ φ : Type) where
  tables : MuxState σ φ
  live : List (String × SubscriptionInfo σ φ)
  valued : σ → List String
  kept : σ → List String

section Model

variable {σ φ M : Type} [DecidableEq σ] [DecidableEq φ]
  (rules : PathMatching φ M)

/-- A subscription matches an update; an absence has nothing to filter. -/
def Matches (path : String) (payload : Option M)
    (l : String × SubscriptionInfo σ φ) : Prop :=
  rules.matchesPath (rules.withoutPrefix l.1) path = true ∧
    ∀ f ∈ l.2.qfRef, ∀ msg ∈ payload, rules.filterMatches f path msg = true

omit [DecidableEq σ] [DecidableEq φ] in
instance decidableMatches (path : String) (payload : Option M)
    (l : String × SubscriptionInfo σ φ) :
    Decidable (Matches rules path payload l) :=
  inferInstanceAs (Decidable (_ ∧ _))

/-- The paths after what has been given. -/
def afterGiven (paths : List String) (path : String)
    (given : Option (Option M)) : List String :=
  match given with
  | some msgRef => learn paths path msgRef.isSome
  | none => paths

/-- One event.  A call that fails is no part of the history. -/
def deliveryStep (t : Deliveries σ φ) :
    DeliveryEvent σ φ M → Deliveries σ φ
  | .registerSubscriber s =>
      if s ∈ t.tables.subscriberInfos.keys then t
      else { t with tables := registerSubscriber s t.tables }
  | .addSubscription answer calledBy path filter flags =>
      let added :=
        addSubscription rules true answer calledBy path filter flags t.tables
      if added.1 = .noError then
        { t with
          tables := added.2
          live := t.live ++ [(path, ⟨calledBy, filter, flags⟩)] }
      else t
  | .removeSubscription answer calledBy path filter flags =>
      let removed :=
        removeSubscription rules answer calledBy path filter flags t.tables
      if (path, ⟨calledBy, filter, flags⟩) ∈ t.live then
        let live := t.live.erase (path, ⟨calledBy, filter, flags⟩)
        { t with
          tables := removed.2.1
          live
          kept := Function.update t.kept calledBy
            ((t.kept calledBy).filter fun p => decide (∃ l ∈ live,
              l.2.sub = calledBy ∧ Matches rules p (none : Option M) l)) }
      else { t with tables := removed.2.1 }
  | .treeNodeUpdated path msgRef =>
      { t with
        tables := treeNodeUpdated rules path msgRef t.tables
        valued := fun s => afterGiven (t.valued s) path
          (given rules path msgRef s t.tables)
        kept := fun s => afterGiven (t.kept s) path
          (given rules path msgRef s t.tables) }
  | .connected answers =>
      { t with tables := gatewayConnected answers t.tables }
  | .disconnected answer =>
      { t with tables := gatewayDisconnected answer t.tables }

omit [DecidableEq σ] [DecidableEq φ] in
/-- A gateway without subscribers. -/
def Deliveries.initial (isConnected : Bool) : Deliveries σ φ where
  tables := .initial isConnected
  live := []
  valued _ := []
  kept _ := []

omit [DecidableEq φ] in
/-- A subscriber is given an update if a live subscription of its matches, else
an absence if it has been given a value, else nothing. -/
def Delivers (t : Deliveries σ φ) (valued : σ → List String) (path : String)
    (msgRef : Option M) (s : σ) : Prop :=
  given rules path msgRef s t.tables =
    if msgRef ≠ none ∧
        ∃ l ∈ t.live, l.2.sub = s ∧ Matches rules path msgRef l then
      some msgRef
    else if path ∈ valued s then some none
    else none

/-- A subscriber has one filter for each pattern, and takes back the last of
its subscriptions to a pattern only. -/
def OneFilterPerPattern (t : Deliveries σ φ) : DeliveryEvent σ φ M → Prop
  | .addSubscription _ calledBy path filter _ =>
      ∀ l ∈ t.live, l.2.sub = calledBy →
        rules.withoutPrefix l.1 = rules.withoutPrefix path →
          l.2.qfRef = filter
  | .removeSubscription _ calledBy path filter flags =>
      (path, ⟨calledBy, filter, flags⟩) ∈ t.live →
        ∀ l ∈ t.live.erase (path, ⟨calledBy, filter, flags⟩),
          l.2.sub = calledBy →
            rules.withoutPrefix l.1 ≠ rules.withoutPrefix path
  | _ => True

omit [DecidableEq φ] in
instance decidableDelivers [DecidableEq M] (t : Deliveries σ φ)
    (valued : σ → List String) (path : String) (msgRef : Option M) (s : σ) :
    Decidable (Delivers rules t valued path msgRef s) :=
  inferInstanceAs (Decidable (_ = _))

instance decidableOneFilterPerPattern (t : Deliveries σ φ)
    (e : DeliveryEvent σ φ M) : Decidable (OneFilterPerPattern rules t e) :=
  match e with
  | .addSubscription _ _ _ _ _ => inferInstanceAs (Decidable (∀ _ ∈ _, _))
  | .removeSubscription _ _ _ _ _ =>
      inferInstanceAs (Decidable (_ ∈ _ → ∀ _ ∈ _, _))
  | .registerSubscriber _ | .treeNodeUpdated _ _ | .connected _
  | .disconnected _ => .isTrue trivial

end Model

/-! ## What the calls do to a subscriber's table -/

section Tables

variable {σ φ M : Type} [DecidableEq σ] {rules : PathMatching φ M}
  {st : MuxState σ φ} {s s' : σ} {path : String} {msgRef : Option M}
  {filter : Option φ} {flags : TreeGatewayFlags} {answer : Answer}

/-- A subscriber's table; who has none has an empty one. -/
def subsOf (st : MuxState σ φ) (s : σ) : TreeSubscriberInfo φ :=
  (tableOf st s).getD .new

theorem subsOf_congr {st' : MuxState σ φ}
    (h : st'.subscriberInfos = st.subscriberInfos) :
    subsOf st' s = subsOf st s := by
  rw [subsOf, subsOf, tableOf, tableOf, h]

omit [DecidableEq σ] in
/-- A table without entries matches nothing, and gives nothing. -/
theorem updateInfo_new :
    updateInfo rules path msgRef (.new : TreeSubscriberInfo φ) =
      (.new, none) := by
  have hmatch : ¬(TreeSubscriberInfo.new : TreeSubscriberInfo φ).MatchesPath
      rules path msgRef := by
    intro h
    obtain ⟨entry, hentry, -⟩ := h
    simp [TreeSubscriberInfo.new, Hashtable.empty] at hentry
  rw [updateInfo, if_neg hmatch]
  simp [updateSubscriber, TreeSubscriberInfo.new]

/-- What a subscriber is given depends on its table. -/
theorem given_eq : given rules path msgRef s st =
    (updateInfo rules path msgRef (subsOf st s)).2 := by
  unfold given subsOf tableOf
  rcases hget : st.subscriberInfos.get? s with _ | _ | info
  · simp [updateInfo_new]
  · simp [updateInfo_new]
  · simp

theorem subsOf_treeNodeUpdated :
    subsOf (treeNodeUpdated rules path msgRef st) s =
      (updateInfo rules path msgRef (subsOf st s)).1 := by
  unfold subsOf tableOf treeNodeUpdated
  rw [Hashtable.get?_mapValues]
  rcases hget : st.subscriberInfos.get? s with _ | _ | info
  · simp [updateInfo_new]
  · simp [updateInfo_new]
  · simp

theorem subsOf_registerSubscriber (hnew : s' ∉ st.subscriberInfos.keys) :
    subsOf (registerSubscriber s' st) s = subsOf st s := by
  unfold subsOf tableOf registerSubscriber
  rw [Hashtable.get?_put]
  split
  · next hs =>
    rw [hs, Hashtable.get?_eq_none_iff.mpr hnew]
    rfl
  · rfl

/-- A table without entries and without given values is no table. -/
theorem subsOf_setInfoOrNone {info : TreeSubscriberInfo φ}
    (hreceived : info.entries.entries = [] → info.receivedPaths = []) :
    subsOf (st.setInfoOrNone s info) s' =
      if s' = s then info else subsOf st s' := by
  unfold subsOf tableOf MuxState.setInfoOrNone MuxState.setInfo
  rw [Hashtable.get?_put]
  by_cases hs : s' = s
  · rw [if_pos hs, if_pos hs]
    split
    · next hnone =>
      obtain ⟨entries, receivedPaths⟩ := info
      obtain rfl : receivedPaths = [] := hreceived hnone
      obtain rfl : entries = .empty := Hashtable.ext hnone
      rfl
    · rfl
  · rw [if_neg hs, if_neg hs]

/-- **A subscription that succeeds** puts its filter under its pattern, and
stands at the end of its queue. -/
theorem subsOf_addSubscription
    (hok : (addSubscription rules true answer s path filter flags st).1 =
      .noError) :
    let added := addSubscription rules true answer s path filter flags st
    (∀ s', subsOf added.2 s' = if s' = s then
      (subsOf st s).putPathString (rules.withoutPrefix path) filter
      else subsOf st s') ∧
    ∀ p, added.2.queue p = if p = path then
      st.queue path ++ [⟨s, filter, flags⟩] else st.queue p := by
  intro added
  have hok' : added.1 = .noError := hok
  cases hinfo : st.subscriberInfos.get? s with
  | none => simp [added, addSubscription, hinfo] at hok'
  | some hisSubs =>
      have hanswer : st.isConnected = true → answer = .ok := by
        intro hconnected
        by_contra hno
        simp [added, addSubscription, hinfo, hconnected, hno] at hok'
      obtain ⟨-, hinfos, hstrings⟩ := addSubscription_of_succeeds path rules
        filter flags hinfo rfl hanswer
      have hhis : subsOf st s = hisSubs.getD .new := by
        rw [subsOf, tableOf, hinfo, Option.join_some]
      refine ⟨fun s' => ?_, fun p => ?_⟩
      · rw [subsOf, tableOf, hinfos, Hashtable.get?_put, hhis]
        split
        · rfl
        · rfl
      · have hqueue : added.2.queue p = (st.setQueue path (st.queue path ++
            [⟨s, filter, flags⟩])).queue p := by
          rw [MuxState.queue, MuxState.queue, hstrings]
        rw [hqueue, queue_setQueue]

variable [DecidableEq φ]

omit [DecidableEq σ] [DecidableEq φ] in
/-- Without entries nothing is kept. -/
theorem keepReceived_of_empty {info : TreeSubscriberInfo φ}
    (h : (keepReceived rules info).1.entries.entries = []) :
    (keepReceived rules info).1.receivedPaths = [] := by
  have hnone : info.entries.entries = [] := h
  refine List.filter_eq_nil_iff.mpr fun p _ hkept => ?_
  obtain ⟨entry, hentry, -⟩ := of_decide_eq_true hkept
  simp [hnone] at hentry

omit [DecidableEq σ] [DecidableEq φ] in
theorem keepReceived_new {key : String} : (keepReceived rules
    ((.new : TreeSubscriberInfo φ).removePathString key)).1 = .new := rfl

variable (rules answer) in
/-- **A subscription that is taken back** takes its pattern out, and what was
received by it alone, and leaves its queue. -/
theorem subsOf_removeSubscription
    (hmem : (⟨s, filter, flags⟩ : SubscriptionInfo σ φ) ∈ st.queue path) :
    let removed := (removeSubscription rules answer s path filter flags st).2.1
    (∀ s', subsOf removed s' = if s' = s then
      (keepReceived rules ((subsOf st s).removePathString
        (rules.withoutPrefix path))).1 else subsOf st s') ∧
    ∀ p, removed.queue p = if p = path then
      (st.queue path).erase ⟨s, filter, flags⟩ else st.queue p := by
  let left := (st.setQueue path ((st.queue path).erase
    ⟨s, filter, flags⟩)).updateSubscription answer path
  have hleftInfos : left.subscriberInfos = st.subscriberInfos := by
    simp [left]
  have hleftQueue : ∀ p, left.queue p = if p = path then
      (st.queue path).erase ⟨s, filter, flags⟩ else st.queue p := by
    intro p
    rw [MuxState.queue, updateSubscription_subscribedStrings]
    exact queue_setQueue
  have hget : st.subscribedStrings.get? path = some (st.queue path) := by
    unfold MuxState.queue at hmem ⊢
    cases hq : st.subscribedStrings.get? path with
    | none => simp [hq] at hmem
    | some q => rfl
  cases htable : tableOf st s with
  | none =>
      have hnone : ∀ info, st.subscriberInfos.get? s ≠ some (some info) := by
        intro info hinfo
        simp [tableOf, hinfo] at htable
      have hremoved : (removeSubscription rules answer s path filter flags
          st).2.1 = left := by
        unfold removeSubscription
        rw [hget]
        rcases hinfo : st.subscriberInfos.get? s with _ | _ | info
        · simp only [if_pos hmem, left]
        · simp only [if_pos hmem, left]
        · exact absurd hinfo (hnone info)
      rw [hremoved]
      refine ⟨fun s' => ?_, hleftQueue⟩
      rw [subsOf_congr hleftInfos]
      split
      · next hs => rw [hs, subsOf, htable, Option.getD_none, keepReceived_new]
      · rfl
  | some info =>
      have hinfo : st.subscriberInfos.get? s = some (some info) :=
        Option.join_eq_some_iff.mp htable
      have hremoved : (removeSubscription rules answer s path filter flags
          st).2.1 = left.setInfoOrNone s (keepReceived rules
            (info.removePathString (rules.withoutPrefix path))).1 := by
        unfold removeSubscription
        rw [hget]
        simp only [if_pos hmem, hinfo, left]
      rw [hremoved]
      refine ⟨fun s' => ?_, hleftQueue⟩
      have hsubs : subsOf st s = info := by
        rw [subsOf, htable, Option.getD_some]
      rw [subsOf_setInfoOrNone keepReceived_of_empty, subsOf_congr hleftInfos,
        hsubs]

/-- A subscription that is not there cannot be taken back. -/
theorem removeSubscription_of_notMem
    (hmem : (⟨s, filter, flags⟩ : SubscriptionInfo σ φ) ∉ st.queue path) :
    (removeSubscription rules answer s path filter flags st).2.1 = st := by
  unfold removeSubscription
  split
  · rfl
  · next q hq =>
    rw [MuxState.queue, hq, Option.getD_some] at hmem
    rw [if_neg hmem]

end Tables

/-! ## The live subscriptions -/

section Live

variable {σ φ M : Type} [DecidableEq σ] [DecidableEq φ]
  {rules : PathMatching φ M} {t : Deliveries σ φ} {s s' : σ} {path : String}
  {msgRef : Option M} {filter : Option φ} {flags : TreeGatewayFlags}
  {answer : Answer}

/-- The tables say what the live subscriptions say. -/
structure Agrees (rules : PathMatching φ M) (t : Deliveries σ φ) : Prop where
  queues path info : (t.tables.queue path).count info =
    t.live.count (path, info)
  entries s key f : (subsOf t.tables s).entries.get? key = some f ↔
    ∃ l ∈ t.live, l.2.sub = s ∧ rules.withoutPrefix l.1 = key ∧ l.2.qfRef = f
  received s path : path ∈ t.kept s ↔ path ∈ (subsOf t.tables s).receivedPaths

theorem Agrees.mem_queue (h : Agrees rules t) {info : SubscriptionInfo σ φ} :
    info ∈ t.tables.queue path ↔ (path, info) ∈ t.live := by
  rw [← List.count_pos_iff, h.queues, List.count_pos_iff]

omit [DecidableEq σ] [DecidableEq φ] in
/-- A table matches what a live subscription matches. -/
theorem matchesPath_iff {info : TreeSubscriberInfo φ}
    {live : List (String × SubscriptionInfo σ φ)}
    (hentries : ∀ key f, info.entries.get? key = some f ↔ ∃ l ∈ live,
      l.2.sub = s ∧ rules.withoutPrefix l.1 = key ∧ l.2.qfRef = f) :
    info.MatchesPath rules path msgRef ↔
      ∃ l ∈ live, l.2.sub = s ∧ Matches rules path msgRef l := by
  constructor
  · intro h
    obtain ⟨⟨key, f⟩, hentry, hpath, hfilter⟩ := h
    obtain ⟨l, hl, hsub, rfl, rfl⟩ :=
      (hentries key f).mp (Hashtable.get?_eq_some_iff.mpr hentry)
    exact ⟨l, hl, hsub, hpath, hfilter⟩
  · intro h
    obtain ⟨l, hl, hsub, hpath, hfilter⟩ := h
    have hget := (hentries _ _).mpr ⟨l, hl, hsub, rfl, rfl⟩
    exact ⟨_, Hashtable.get?_eq_some_iff.mp hget, hpath, hfilter⟩

/-- **The law** follows from what the tables say. -/
theorem Agrees.delivers (h : Agrees rules t) :
    Delivers rules t t.kept path msgRef s := by
  unfold Delivers
  simp only [given_eq, updateInfo_given, matchesPath_iff (h.entries s),
    h.received]

theorem agrees_initial {isConnected : Bool} :
    Agrees rules (.initial isConnected : Deliveries σ φ) := by
  refine ⟨fun path info => rfl, fun s key f => ?_, fun s path => ?_⟩
  · simp [Deliveries.initial, subsOf, tableOf, MuxState.initial,
      TreeSubscriberInfo.new]
  · simp [Deliveries.initial, subsOf, tableOf, MuxState.initial,
      TreeSubscriberInfo.new]

/-- What leaves the tables and the queues alone is no concern of anybody's. -/
theorem Agrees.congr (h : Agrees rules t) {tables : MuxState σ φ}
    (hsubs : ∀ s, subsOf tables s = subsOf t.tables s)
    (hqueues : tables.subscribedStrings = t.tables.subscribedStrings) :
    Agrees rules { t with tables } := by
  refine ⟨fun path info => ?_, fun s key f => ?_, fun s path => ?_⟩
  · rw [MuxState.queue, hqueues]
    exact h.queues path info
  · rw [hsubs]
    exact h.entries s key f
  · rw [hsubs]
    exact h.received s path

/-- A subscription is made, with the filter that its pattern has. -/
theorem Agrees.addSubscription (h : Agrees rules t)
    (hfilter : ∀ l ∈ t.live, l.2.sub = s →
      rules.withoutPrefix l.1 = rules.withoutPrefix path → l.2.qfRef = filter)
    (hok : (addSubscription rules true answer s path filter flags
      t.tables).1 = .noError) :
    Agrees rules { t with
      tables :=
        (MuxSubscriptions.addSubscription rules true answer s path filter flags
          t.tables).2
      live := t.live ++ [(path, ⟨s, filter, flags⟩)] } := by
  obtain ⟨hsubs, hqueues⟩ := subsOf_addSubscription hok
  refine ⟨fun p info => ?_, fun s' key f => ?_, fun s' p => ?_⟩
  · rw [hqueues, List.count_append]
    by_cases hp : p = path
    · subst hp
      rw [if_pos rfl, List.count_append, h.queues]
      simp [List.count_singleton]
    · rw [if_neg hp, h.queues]
      simp [Ne.symm hp]
  · rw [hsubs]
    simp only [List.mem_append, List.mem_singleton]
    by_cases hs : s' = s
    · subst hs
      rw [if_pos rfl, TreeSubscriberInfo.putPathString, Hashtable.get?_put]
      by_cases hkey : key = rules.withoutPrefix path
      · rw [if_pos hkey, Option.some.injEq]
        constructor
        · intro hf
          exact ⟨_, .inr rfl, rfl, hkey.symm, hf⟩
        · intro hlive
          obtain ⟨l, hl | rfl, hsub, hpattern, hf⟩ := hlive
          · exact (hfilter l hl hsub (hpattern.trans hkey)).symm.trans hf
          · exact hf
      · rw [if_neg hkey, h.entries]
        constructor
        · intro hlive
          obtain ⟨l, hl, hrest⟩ := hlive
          exact ⟨l, .inl hl, hrest⟩
        · intro hlive
          obtain ⟨l, hl | rfl, hsub, hpattern, hf⟩ := hlive
          · exact ⟨l, hl, hsub, hpattern, hf⟩
          · exact absurd hpattern.symm hkey
    · rw [if_neg hs, h.entries]
      constructor
      · intro hlive
        obtain ⟨l, hl, hrest⟩ := hlive
        exact ⟨l, .inl hl, hrest⟩
      · intro hlive
        obtain ⟨l, hl | rfl, hsub, hrest⟩ := hlive
        · exact ⟨l, hl, hsub, hrest⟩
        · exact absurd hsub.symm hs
  · rw [hsubs, h.received]
    split
    · next hs =>
      rw [hs]
      rfl
    · rfl

/-- The last subscription to a pattern is taken back. -/
theorem Agrees.removeSubscription (h : Agrees rules t)
    (hmem : (path, (⟨s, filter, flags⟩ : SubscriptionInfo σ φ)) ∈ t.live)
    (hlast : ∀ l ∈ t.live.erase (path, ⟨s, filter, flags⟩), l.2.sub = s →
      rules.withoutPrefix l.1 ≠ rules.withoutPrefix path) :
    let live := t.live.erase (path, ⟨s, filter, flags⟩)
    Agrees rules { t with
      tables :=
        (MuxSubscriptions.removeSubscription rules answer s path filter flags
          t.tables).2.1
      live
      kept := Function.update t.kept s ((t.kept s).filter fun p =>
        decide (∃ l ∈ live,
          l.2.sub = s ∧ Matches rules p (none : Option M) l)) } := by
  intro live
  obtain ⟨hsubs, hqueues⟩ := subsOf_removeSubscription rules answer
    (h.mem_queue.mpr hmem)
  have hkeep : ∀ l, ¬(l.2.sub = s ∧
      rules.withoutPrefix l.1 = rules.withoutPrefix path) →
        (l ∈ live ↔ l ∈ t.live) := by
    intro l hl
    refine List.mem_erase_of_ne ?_
    intro hsame
    rw [hsame] at hl
    exact hl ⟨rfl, rfl⟩
  have hentries : ∀ s' key f, (subsOf (MuxSubscriptions.removeSubscription rules
      answer s path filter flags t.tables).2.1 s').entries.get? key = some f ↔
        ∃ l ∈ live, l.2.sub = s' ∧ rules.withoutPrefix l.1 = key ∧
          l.2.qfRef = f := by
    intro s' key f
    rw [hsubs]
    by_cases hlost : s' = s ∧ key = rules.withoutPrefix path
    · obtain ⟨rfl, rfl⟩ := hlost
      rw [if_pos rfl]
      refine iff_of_false ?_ ?_
      · simp [keepReceived, TreeSubscriberInfo.removePathString]
      · intro hlive
        obtain ⟨l, hl, hsub, hpattern, -⟩ := hlive
        exact hlast l hl hsub hpattern
    · have hsame : (if s' = s then (keepReceived rules ((subsOf t.tables
          s).removePathString (rules.withoutPrefix path))).1
          else subsOf t.tables s').entries.get? key =
            (subsOf t.tables s').entries.get? key := by
        split
        · next hs =>
          have hkey : key ≠ rules.withoutPrefix path := fun hkey =>
            hlost ⟨hs, hkey⟩
          simp [keepReceived, TreeSubscriberInfo.removePathString, hkey, hs]
        · rfl
      rw [hsame, h.entries]
      refine exists_congr fun l => ?_
      constructor
      · intro hl
        obtain ⟨hl, hsub, hpattern, hf⟩ := hl
        refine ⟨(hkeep l ?_).mpr hl, hsub, hpattern, hf⟩
        rwa [hsub, hpattern]
      · intro hl
        obtain ⟨hl, hsub, hpattern, hf⟩ := hl
        exact ⟨List.mem_of_mem_erase hl, hsub, hpattern, hf⟩
  refine ⟨fun p info => ?_, hentries, fun s' p => ?_⟩
  · rw [hqueues]
    by_cases hp : p = path
    · subst hp
      rw [if_pos rfl, List.count_erase, List.count_erase, h.queues]
      simp
    · rw [if_neg hp, h.queues, List.count_erase]
      simp [Ne.symm hp]
  · have hmatches : _ ↔ ∃ l ∈ live, l.2.sub = s ∧
        Matches rules p (none : Option M) l := matchesPath_iff (hentries s)
    rw [hsubs, if_pos rfl] at hmatches
    change p ∈ Function.update t.kept s _ s' ↔ _
    rw [hsubs]
    by_cases hs : s' = s
    · subst hs
      rw [Function.update_self, if_pos rfl, mem_keepReceived, hmatches,
        List.mem_filter, h.received, decide_eq_true_eq]
      rfl
    · rw [Function.update_of_ne hs, if_neg hs, h.received]

/-- An update is given. -/
theorem Agrees.treeNodeUpdated (h : Agrees rules t) :
    Agrees rules { t with
      tables := treeNodeUpdated rules path msgRef t.tables
      valued := fun s => afterGiven (t.valued s) path
        (given rules path msgRef s t.tables)
      kept := fun s => afterGiven (t.kept s) path
        (given rules path msgRef s t.tables) } := by
  refine ⟨h.queues, fun s key f => ?_, fun s p => ?_⟩
  · rw [subsOf_treeNodeUpdated, updateInfo_entries]
    exact h.entries s key f
  · change p ∈ afterGiven (t.kept s) path
      (given rules path msgRef s t.tables) ↔ _
    rw [subsOf_treeNodeUpdated, mem_receivedPaths_updateInfo, given_eq,
      updateInfo_given]
    by_cases hmatch : msgRef ≠ none ∧
        (subsOf t.tables s).MatchesPath rules path msgRef
    · obtain ⟨msg, rfl⟩ := Option.ne_none_iff_exists'.mp hmatch.1
      rw [if_pos hmatch, if_pos hmatch, afterGiven, mem_learn, h.received]
      simp
    · rw [if_neg hmatch, if_neg hmatch]
      by_cases hpath : path ∈ (subsOf t.tables s).receivedPaths
      · rw [if_pos hpath, afterGiven, mem_learn, h.received]
        simp
      · rw [if_neg hpath, afterGiven, h.received]
        exact ⟨fun hp => ⟨hp, fun heq => hpath (heq ▸ hp)⟩, And.left⟩

omit [DecidableEq σ] [DecidableEq φ] in
theorem gatewayConnected_tables (answers : String → Answer)
    (st : MuxState σ φ) :
    (gatewayConnected answers st).subscriberInfos = st.subscriberInfos ∧
      (gatewayConnected answers st).subscribedStrings =
        st.subscribedStrings := by
  unfold gatewayConnected
  split
  · exact ⟨rfl, rfl⟩
  · refine List.foldlRecOn (motive := fun st' : MuxState σ φ =>
      st'.subscriberInfos = st.subscriberInfos ∧
        st'.subscribedStrings = st.subscribedStrings) _ _ ⟨rfl, rfl⟩ ?_
    intro st' hst' path _
    exact ⟨updateSubscription_subscriberInfos.trans hst'.1,
      updateSubscription_subscribedStrings.trans hst'.2⟩

omit [DecidableEq σ] [DecidableEq φ] in
theorem gatewayDisconnected_tables (answer : Answer) (st : MuxState σ φ) :
    (gatewayDisconnected answer st).subscriberInfos = st.subscriberInfos ∧
      (gatewayDisconnected answer st).subscribedStrings =
        st.subscribedStrings := by
  unfold gatewayDisconnected
  split
  · exact ⟨rfl, rfl⟩
  · exact ⟨rfl, rfl⟩

theorem Agrees.step {e : DeliveryEvent σ φ M} (h : Agrees rules t)
    (hone : OneFilterPerPattern rules t e) :
    Agrees rules (deliveryStep rules t e) := by
  cases e with
  | registerSubscriber s =>
      simp only [deliveryStep]
      split
      · exact h
      · next hnew =>
        exact h.congr (fun s' => subsOf_registerSubscriber hnew) rfl
  | addSubscription answer calledBy path filter flags =>
      simp only [deliveryStep]
      split
      · next hok => exact h.addSubscription hone hok
      · exact h
  | removeSubscription answer calledBy path filter flags =>
      simp only [deliveryStep]
      split
      · next hmem => exact h.removeSubscription hmem (hone hmem)
      · next hmem =>
        rw [removeSubscription_of_notMem fun hq => hmem (h.mem_queue.mp hq)]
        exact h
  | treeNodeUpdated path msgRef => exact h.treeNodeUpdated
  | connected answers =>
      have hstrings := gatewayConnected_tables answers t.tables
      exact h.congr (fun s => subsOf_congr hstrings.1) hstrings.2
  | disconnected answer =>
      have hstrings := gatewayDisconnected_tables answer t.tables
      exact h.congr (fun s => subsOf_congr hstrings.1) hstrings.2

/-- **Updates are delivered** to the subscribers whose live subscriptions match,
in every history in which they have one filter for each pattern. -/
theorem delivers_of_oneFilterPerPattern (rules : PathMatching φ M)
    (isConnected : Bool) (es : List (DeliveryEvent σ φ M))
    (hone : Runs.StepsMeet (deliveryStep rules) (OneFilterPerPattern rules)
      (.initial isConnected) es) (path : String) (msgRef : Option M) (s : σ) :
    let t := Runs.run (deliveryStep rules) (.initial isConnected) es
    Delivers rules t t.kept path msgRef s := by
  have h : Agrees rules
      (Runs.run (deliveryStep rules) (.initial isConnected) es) :=
    Runs.run_invariant_of_stepsMeet agrees_initial hone fun _ _ hagrees hstep =>
      hagrees.step hstep
  exact h.delivers

end Live

/-- Two subscribers share a path, one with a filter, and one of them takes its
subscription back when both have been given a value. -/
def sharedNode : List (DeliveryEvent ℕ ℕ ℕ) :=
  [.registerSubscriber 1, .registerSubscriber 2,
    .addSubscription .ok 1 "a" (some 3) {},
    .addSubscription .ok 2 "/a" none {}, .addSubscription .ok 2 "b" none {},
    .treeNodeUpdated "a" (some 5), .removeSubscription .ok 2 "/a" none {}]

/-- The other one is told when the node no longer passes its filter. -/
theorem delivers_of_oneFilterPerPattern_sharedNode :
    let t := Runs.run (deliveryStep plainRules) (.initial true) sharedNode
    Delivers plainRules t t.kept "a" (some 2) 1 :=
  delivers_of_oneFilterPerPattern plainRules true sharedNode (by decide) "a"
    (some 2) 1

/-- A value has been given of a path, and the subscription taken back. -/
def droppedPath : List (DeliveryEvent ℕ ℕ ℕ) :=
  [.registerSubscriber 1, .addSubscription .ok 1 "a" none {},
    .treeNodeUpdated "a" (some 5), .removeSubscription .ok 1 "a" none {}]

/-- One path with two filters. -/
def twoFilters : List (DeliveryEvent ℕ ℕ ℕ) :=
  [.registerSubscriber 1, .addSubscription .ok 1 "a" (some 3) {},
    .addSubscription .ok 1 "a" (some 7) {}]

/-- Nothing is told of a path that has been dropped, and of two filters for one
path the first is forgotten. -/
theorem not_delivers_asStated :
    let dropped :=
      Runs.run (deliveryStep plainRules) (.initial true) droppedPath
    let forgotten :=
      Runs.run (deliveryStep plainRules) (.initial true) twoFilters
    ¬Delivers plainRules dropped dropped.valued "a" (some 6) 1 ∧
      ¬Delivers plainRules forgotten forgotten.valued "a" (some 5) 1 := by
  decide

end ZgChoir.MuxSubscriptions
