import ZgChoir.MuxSubscriptions
import ZgChoir.Runs

/-!
# What upstream has is the union of what is asked for

The queues of `_subscribedStrings` are the live subscriptions, path by path,
and each call that touches a queue brings upstream in line with it.  Adding
and removing one subscription keep this up.

`TreeGateway_RemoveAllSubscriptions` goes through the subscriber's own table
instead, in which a path has no slash in front, one filter and no flags.  What
the subscriber has asked for in other words (`InOwnTable` says which it is)
stays in the queues, and stays there when the subscriber is gone.
-/

namespace ZgChoir.MuxSubscriptions

variable {σ φ M : Type}

section Filters

variable (rules : PathMatching φ M)

/-- Whether a filter, or none, lets a node pass. -/
def Passes (filter : Option φ) (path : String) (msg : M) : Prop :=
  ∀ f ∈ filter, rules.filterMatches f path msg = true

/-- Whether what is sent lets a node pass; an `OrQueryFilter` asks its
children. -/
def SentFilter.Passes (path : String) (msg : M) : SentFilter φ → Prop
  | .all => True
  | .one f => rules.filterMatches f path msg = true
  | .any children => ∃ f ∈ children, rules.filterMatches f path msg = true

/-- The filters that a loop of `addFilter` has come by, if all of them count. -/
def SentFilter.children : SentFilter φ → List φ
  | .all => []
  | .one f => [f]
  | .any children => children

variable {rules}

/-- The loop has come by filters only, and has them all, or by none, and lets
everything pass. -/
theorem foldl_addFilter (q : List (SubscriptionInfo σ φ)) :
    let sent := q.foldl addFilter (.all, true)
    (sent.2 = true → q.map (·.qfRef) = sent.1.children.map some ∧
        (q ≠ [] → sent.1 ≠ .all)) ∧
      (sent.2 = false → sent.1 = .all ∧ ∃ info ∈ q, info.qfRef = none) := by
  induction q using List.reverseRecOn with
  | nil => simp [SentFilter.children]
  | append_singleton q info ih =>
      simp only [List.foldl_append, List.foldl_cons, List.foldl_nil]
      generalize q.foldl addFilter (.all, true) = sent at ih ⊢
      obtain ⟨sent, use⟩ := sent
      obtain ⟨hfilters, hall⟩ := ih
      cases use with
      | false =>
          obtain ⟨hsent, other, hother, hnone⟩ := hall rfl
          refine ⟨by simp [addFilter], fun _ => ⟨hsent, other, ?_, hnone⟩⟩
          exact List.mem_append_left _ hother
      | true =>
          obtain ⟨hmap, hsome⟩ := hfilters rfl
          cases hinfo : info.qfRef with
          | none =>
              refine ⟨by simp [addFilter, hinfo], fun _ => ?_⟩
              exact ⟨by simp [addFilter, hinfo], info, by simp, hinfo⟩
          | some f =>
              cases sent with
              | all => simp_all [addFilter, SentFilter.children]
              | one g =>
                  have hpair : (q ++ [info]).map (·.qfRef) =
                      [some g, some f] := by
                    rw [List.map_append, hmap]
                    simp [SentFilter.children, hinfo]
                  simpa [addFilter, hinfo, SentFilter.children] using hpair
              | any children => simp_all [addFilter, SentFilter.children]

/-- What is sent for a queue lets pass what one of the subscriptions does. -/
theorem passes_sendFilter {q : List (SubscriptionInfo σ φ)} (hq : q ≠ [])
    (path : String) (msg : M) : (sendFilter q).Passes rules path msg ↔
      ∃ info ∈ q, Passes rules info.qfRef path msg := by
  have hloop := foldl_addFilter q.reverse
  unfold sendFilter
  generalize q.reverse.foldl addFilter (.all, true) = sent at hloop ⊢
  obtain ⟨sent, use⟩ := sent
  obtain ⟨hfilters, hall⟩ := hloop
  cases use with
  | false =>
      obtain ⟨rfl, info, hinfo, hnone⟩ := hall rfl
      have hmem : info ∈ q := List.mem_reverse.mp hinfo
      simp only [SentFilter.Passes, true_iff]
      exact ⟨info, hmem, by simp [Passes, hnone]⟩
  | true =>
      obtain ⟨hmap, hsome⟩ := hfilters rfl
      have hnotAll : sent ≠ .all := hsome (by simpa using hq)
      have hchildren : sent.Passes rules path msg ↔
          ∃ f ∈ sent.children, rules.filterMatches f path msg = true := by
        cases sent with
        | all => exact absurd rfl hnotAll
        | one f => simp [SentFilter.Passes, SentFilter.children]
        | any children => rfl
      have hmem : ∀ filter : Option φ, (∃ info ∈ q, info.qfRef = filter) ↔
          ∃ f ∈ sent.children, some f = filter := by
        intro filter
        have := congrArg (filter ∈ ·) hmap
        simpa [List.mem_map] using this
      rw [hchildren]
      constructor
      · rintro ⟨f, hf, hpasses⟩
        obtain ⟨info, hinfo, hfilter⟩ := (hmem (some f)).mpr ⟨f, hf, rfl⟩
        exact ⟨info, hinfo, by simpa [Passes, hfilter] using hpasses⟩
      · rintro ⟨info, hinfo, hpasses⟩
        obtain ⟨f, hf, hfilter⟩ := (hmem info.qfRef).mp ⟨info, hinfo, rfl⟩
        exact ⟨f, hf, hpasses f hfilter.symm⟩

end Filters

section Queues

variable {rules : PathMatching φ M} {st : MuxState σ φ} {path p : String}
  {q : List (SubscriptionInfo σ φ)} {s : σ}

theorem queue_setQueue :
    (st.setQueue path q).queue p = if p = path then q else st.queue p :=
  Hashtable.getD_exchange

theorem nonempty_setQueue (h : ∀ p, st.subscribedStrings.get? p ≠ some [])
    (p : String) : (st.setQueue path q).subscribedStrings.get? p ≠ some [] :=
  Hashtable.exchange_ne_nil (h p)

/-- No queue is kept empty, and upstream has what follows from the queues. -/
structure Sound (st : MuxState σ φ) : Prop where
  nonempty (path : String) : st.subscribedStrings.get? path ≠ some []
  upstream (path : String) : st.upstream path =
    if st.queue path = [] then none else some (sendFilter (st.queue path))

/-- A queue changes, and upstream follows. -/
theorem Sound.setQueue (h : Sound st) :
    Sound ((st.setQueue path q).updateSubscription .ok path) := by
  refine ⟨nonempty_setQueue h.nonempty, ?_⟩
  intro p
  change Function.update st.upstream path _ p =
    if (st.setQueue path q).queue p = [] then none
    else some (sendFilter ((st.setQueue path q).queue p))
  by_cases hp : p = path
  · subst hp
    exact Function.update_self p _ st.upstream
  · rw [Function.update_of_ne hp, h.upstream p, queue_setQueue, if_neg hp]

variable [DecidableEq σ]

/-- What of a state is of no concern to the queues. -/
structure SameQueues (st st' : MuxState σ φ) : Prop where
  registered : st'.registeredSubscribers = st.registeredSubscribers
  connected : st'.isConnected = st.isConnected
  infos (s : σ) :
    s ∈ st'.subscriberInfos.keys ↔ s ∈ st.subscriberInfos.keys

theorem Sound.setInfo (h : Sound st) {info : Option (TreeSubscriberInfo φ)} :
    Sound (st.setInfo s info) := ⟨h.nonempty, h.upstream⟩

theorem SameQueues.setInfo {st' : MuxState σ φ} (h : SameQueues st st')
    (hs : s ∈ st.subscriberInfos.keys)
    {info : Option (TreeSubscriberInfo φ)} :
    SameQueues st (st'.setInfo s info) := by
  refine ⟨h.registered, h.connected, ?_⟩
  intro s'
  rw [MuxState.setInfo, Hashtable.mem_keys_put, h.infos]
  grind

omit [DecidableEq σ] in
theorem SameQueues.setQueue {st' : MuxState σ φ} (h : SameQueues st st') :
    SameQueues st (st'.setQueue path q) :=
  ⟨h.registered, h.connected, h.infos⟩

omit [DecidableEq σ] in
theorem SameQueues.updateSubscription {st' : MuxState σ φ}
    (h : SameQueues st st') {answer : Answer} :
    SameQueues st (st'.updateSubscription answer path) := by
  unfold MuxState.updateSubscription
  split
  · exact h
  · exact ⟨h.registered, h.connected, h.infos⟩

omit [DecidableEq σ] in
theorem SameQueues.refl : SameQueues st st := ⟨rfl, rfl, fun _ => Iff.rfl⟩

/-- What `TreeGateway_RemoveSubscription` does to the queues and the tables. -/
theorem removeSubscription_spec [DecidableEq φ] (rules : PathMatching φ M)
    (s : σ) (path : String) (filter : Option φ) (flags : TreeGatewayFlags)
    (h : Sound st) :
    let removed := removeSubscription rules .ok s path filter flags st
    Sound removed.2.1 ∧ SameQueues st removed.2.1 ∧
      (∀ p, removed.2.1.queue p =
        if p = path then (st.queue path).erase ⟨s, filter, flags⟩
        else st.queue p) ∧
      (removed.1 ≠ .noError → ⟨s, filter, flags⟩ ∉ st.queue path) := by
  have hsame : ∀ p, st.queue p = if p = path then st.queue path
      else st.queue p := by
    intro p
    split <;> simp_all
  unfold removeSubscription
  cases hq : st.subscribedStrings.get? path with
  | none =>
      have hempty : st.queue path = [] := by simp [MuxState.queue, hq]
      refine ⟨h, .refl, ?_, by simp⟩
      intro p
      rw [hempty, List.erase_nil, ← hempty]
      exact hsame p
  | some q =>
      have hqueue : st.queue path = q := by simp [MuxState.queue, hq]
      simp only
      split
      · next hmem =>
        have hset : Sound ((st.setQueue path (q.erase ⟨s, filter,
          flags⟩)).updateSubscription .ok path) := h.setQueue
        have hframe : SameQueues st ((st.setQueue path (q.erase ⟨s, filter,
            flags⟩)).updateSubscription .ok path) :=
          SameQueues.refl.setQueue.updateSubscription
        rw [hqueue]
        split
        · next info hinfo =>
          exact ⟨hset.setInfo, hframe.setInfo (Hashtable.mem_keys_of_get? hinfo),
            fun p => queue_setQueue, by simp⟩
        · exact ⟨hset, hframe, fun p => queue_setQueue, by simp⟩
      · next hmem =>
        refine ⟨h, SameQueues.refl, ?_, fun _ => hqueue ▸ hmem⟩
        intro p
        rw [hqueue, List.erase_of_not_mem hmem, ← hqueue]
        exact hsame p

/-- What a `TreeGateway_AddSubscription` does to the queues and the tables, if
the calls upstream succeed. -/
theorem addSubscription_spec (rules : PathMatching φ M) (pathPut : Bool)
    (s : σ) (path : String) (filter : Option φ) (flags : TreeGatewayFlags)
    (h : Sound st) (hconnected : st.isConnected = true) :
    let added := addSubscription rules pathPut .ok s path filter flags st
    Sound added.2 ∧ SameQueues st added.2 ∧
      (added.1 = .noError → s ∈ st.subscriberInfos.keys) ∧
      ∀ p, added.2.queue p =
        if p = path ∧ added.1 = .noError
        then st.queue path ++ [⟨s, filter, flags⟩] else st.queue p := by
  unfold addSubscription
  cases hinfo : st.subscriberInfos.get? s with
  | none => exact ⟨h, .refl, by simp, by simp⟩
  | some hisSubs =>
      have hs := Hashtable.mem_keys_of_get? hinfo
      cases pathPut with
      | true =>
          simp only [hconnected, and_true, or_true, if_true]
          exact ⟨h.setInfo.setQueue,
            (SameQueues.refl.setInfo hs).setQueue.updateSubscription,
            fun _ => hs, fun p => queue_setQueue⟩
      | false =>
          -- the queue is as before, and upstream has not been asked
          simp only [Bool.false_eq_true, false_and, if_false, reduceCtorEq,
            and_false, false_implies, true_and]
          have hqueue : ∀ p, (((((st.setInfo s (some (hisSubs.getD
              .new))).setQueue path (st.queue path ++ [⟨s, filter,
              flags⟩])).setInfoOrNone s ((hisSubs.getD .new).removePathString
              (rules.withoutPrefix path))).setQueue path (st.queue path)).queue
              p = st.queue p) := by
            intro p
            rw [queue_setQueue]
            split
            · next hp => rw [hp]
            · next hp => exact queue_setQueue.trans (if_neg hp)
          refine ⟨⟨?_, ?_⟩, ?_, hqueue⟩
          · exact nonempty_setQueue (nonempty_setQueue h.nonempty)
          · intro p
            rw [hqueue p]
            exact h.upstream p
          · exact ((SameQueues.refl.setInfo hs).setQueue.setInfo hs).setQueue

omit [DecidableEq σ] in
theorem SameQueues.trans {st' st'' : MuxState σ φ} (h : SameQueues st st')
    (h' : SameQueues st' st'') : SameQueues st st'' :=
  ⟨h'.registered.trans h.registered, h'.connected.trans h.connected,
    fun s => (h'.infos s).trans (h.infos s)⟩

variable [DecidableEq φ]

/-- What the loop of `TreeGateway_RemoveAllSubscriptions` does, path by
path. -/
theorem removeEntries_spec (rules : PathMatching φ M) (s : σ)
    {entries : List (String × Option φ)} (hnodup : (entries.map Prod.fst).Nodup) (h : Sound st) :
    let removed := (removeEntries rules (fun _ => .ok) s entries st).1
    Sound removed ∧ SameQueues st removed ∧
      ∀ p, removed.queue p = match entries.lookup p with
        | some filter => (st.queue p).erase ⟨s, filter, {}⟩
        | none => st.queue p := by
  induction entries generalizing st with
  | nil => exact ⟨h, .refl, fun p => rfl⟩
  | cons entry rest ih =>
      obtain ⟨path, filter⟩ := entry
      obtain ⟨hnew, hnodup⟩ := List.nodup_cons.mp hnodup
      obtain ⟨hsound, hsame, hqueue, -⟩ :=
        removeSubscription_spec rules s path filter {} h
      obtain ⟨hrest, hsames, hqueues⟩ := ih hnodup hsound
      refine ⟨hrest, hsame.trans hsames, ?_⟩
      intro p
      rw [removeEntries, hqueues p, hqueue p, List.lookup_cons]
      by_cases hp : p = path
      · subst hp
        have hgone : rest.lookup p = none := by
          rw [List.lookup_eq_none_iff]
          intro e he
          have hne : e.1 ≠ p := fun hep =>
            hnew (List.mem_map.mpr ⟨e, he, hep⟩)
          simpa using hne.symm
        simp [hgone]
      · have hbeq : (p == path) = false := by simpa using hp
        simp only [hbeq, if_neg hp]

/-- A subscriber has said the same in the queues as in its own table: for each
path at most once, with the filter that stands there, and without flags. -/
def InOwnTable (s : σ) (st : MuxState σ φ) : Prop :=
  ∀ entry ∈ st.subscribedStrings.entries,
    (entry.2.filter fun info => decide (info.sub = s)).length ≤ 1 ∧
      ∀ info ∈ entry.2, info.sub = s → info.flags = {} ∧
        ∃ own ∈ st.subscriberInfos.get? s, ∃ table ∈ own,
          table.entries.get? entry.1 = some info.qfRef

omit [DecidableEq φ] in
theorem InOwnTable.queue (h : InOwnTable s st) (p : String) :
    ((st.queue p).filter fun info => decide (info.sub = s)).length ≤ 1 ∧
      ∀ info ∈ st.queue p, info.sub = s → info.flags = {} ∧
        ∃ own ∈ st.subscriberInfos.get? s, ∃ table ∈ own,
          table.entries.get? p = some info.qfRef := by
  unfold MuxState.queue
  cases hq : st.subscribedStrings.get? p with
  | none => simp
  | some q => exact h (p, q) (Hashtable.get?_eq_some_iff.mp hq)

/-- The only one of its kind is taken out. -/
theorem erase_eq_filter {q : List (SubscriptionInfo σ φ)}
    {info : SubscriptionInfo σ φ} (hs : info.sub = s)
    (hone : (q.filter fun i => decide (i.sub = s)).length ≤ 1)
    (hall : ∀ i ∈ q, i.sub = s → i = info) :
    q.erase info = q.filter fun i => decide (i.sub ≠ s) := by
  induction q with
  | nil => rfl
  | cons i q ih =>
      by_cases hi : i.sub = s
      · obtain rfl := hall i List.mem_cons_self hi
        have hnone : ∀ j ∈ q, j.sub ≠ s := by
          intro j hj hjs
          have hmem : j ∈ q.filter fun i => decide (i.sub = s) :=
            List.mem_filter.mpr ⟨hj, by simpa using hjs⟩
          have := List.length_pos_of_mem hmem
          rw [List.filter_cons_of_pos (by simpa using hi), List.length_cons]
            at hone
          omega
        rw [List.erase_cons_head, List.filter_cons_of_neg (by simpa using hi)]
        symm
        exact List.filter_eq_self.mpr fun j hj => by simpa using hnone j hj
      · have hne : i ≠ info := fun h => hi (h ▸ hs)
        rw [List.filter_cons_of_neg (by simpa using hi)] at hone
        rw [List.erase_cons_tail (by simpa using hne),
          List.filter_cons_of_pos (by simpa using hi),
          ih hone fun j hj => hall j (List.mem_cons_of_mem i hj)]

/-- `TreeGateway_RemoveAllSubscriptions` takes a subscriber out of the queues
that has said the same there as in its own table. -/
theorem removeAllSubscriptions_spec (rules : PathMatching φ M) (h : Sound st)
    (hown : InOwnTable s st) :
    let removed := (removeAllSubscriptions rules (fun _ => .ok) s st).1
    Sound removed ∧ SameQueues st removed ∧ ∀ p, removed.queue p =
      (st.queue p).filter fun info => decide (info.sub ≠ s) := by
  have hnone : ∀ p, (∀ table, st.subscriberInfos.get? s = some (some table) →
        table.entries.get? p = none) →
      (st.queue p).filter (fun info => decide (info.sub ≠ s)) = st.queue p := by
    intro p hp
    rw [List.filter_eq_self]
    intro info hinfo
    have hne : info.sub ≠ s := by
      intro hs
      obtain ⟨-, own, hown', table, htable, hget⟩ :=
        (hown.queue p).2 info hinfo hs
      obtain rfl := Option.mem_def.mp htable
      rw [hp table hown'] at hget
      simp at hget
    simpa using hne
  unfold removeAllSubscriptions
  split
  · next table htable =>
    obtain ⟨hsound, hsame, hqueue⟩ :=
      removeEntries_spec rules s table.entries.distinct h
    refine ⟨hsound, hsame, ?_⟩
    intro p
    rw [hqueue p]
    split
    · next filter hfilter =>
      apply erase_eq_filter rfl (hown.queue p).1
      intro info hinfo hs
      obtain ⟨hflags, own, hown', table', htable', hget⟩ :=
        (hown.queue p).2 info hinfo hs
      obtain rfl := Option.mem_def.mp htable'
      obtain rfl : table = table' := by
        have := htable.symm.trans hown'
        simpa using this
      obtain rfl : filter = info.qfRef := by
        have := hfilter.symm.trans hget
        simpa using this
      cases info
      simp_all
    · next hlookup =>
      symm
      apply hnone
      intro table' htable'
      obtain rfl : table = table' := by
        have := htable.symm.trans htable'
        simpa using this
      exact hlookup
  · next hother =>
    refine ⟨h, .refl, fun p => (hnone p ?_).symm⟩
    intro table htable
    exact absurd htable (hother table)

end Queues

/-- The calls on a gateway that is connected. -/
inductive Event (σ φ : Type) where
  | addSubscription (calledBy : σ) (path : String) (filter : Option φ)
      (flags : TreeGatewayFlags) (pathPut : Bool)
  | removeSubscription (calledBy : σ) (path : String) (filter : Option φ)
      (flags : TreeGatewayFlags)
  | removeAllSubscriptions (calledBy : σ)
  | registerSubscriber (s : σ)
  | unregisterSubscriber (s : σ)

/-- A gateway, and what its subscribers have asked for and not taken back. -/
structure Asked (σ φ : Type) where
  tables : MuxState σ φ
  live : List (String × SubscriptionInfo σ φ)

section Runs

variable [DecidableEq σ] [DecidableEq φ] (rules : PathMatching φ M)

/-- A call, and what the caller takes it for. -/
def step (t : Asked σ φ) : Event σ φ → Asked σ φ
  | .addSubscription s path filter flags pathPut =>
      let added :=
        addSubscription rules pathPut .ok s path filter flags t.tables
      { tables := added.2
        live :=
          if added.1 = .noError then t.live ++ [(path, ⟨s, filter, flags⟩)]
          else t.live }
  | .removeSubscription s path filter flags =>
      let removed := removeSubscription rules .ok s path filter flags t.tables
      { tables := removed.2.1
        live :=
          if removed.1 = .noError then t.live.erase (path, ⟨s, filter, flags⟩)
          else t.live }
  | .removeAllSubscriptions s =>
      { tables := (removeAllSubscriptions rules (fun _ => .ok) s t.tables).1
        live := t.live.filter fun l => decide (l.2.sub ≠ s) }
  | .registerSubscriber s =>
      if s ∈ t.tables.registeredSubscribers then t
      else { t with tables := registerSubscriber s t.tables }
  | .unregisterSubscriber s =>
      if s ∈ t.tables.registeredSubscribers then
        { tables := (unregisterSubscriber rules (fun _ => .ok) s t.tables).1
          live := t.live.filter fun l => decide (l.2.sub ≠ s) }
      else t

/-- A connected gateway of which nobody has asked anything. -/
def Asked.initial : Asked σ φ := ⟨.initial true, []⟩

/-- Upstream has for each path the union of what is live, and the tables know
the registered only. -/
def UnionOfLive (t : Asked σ φ) : Prop :=
  (∀ path, t.tables.upstream path ≠ none ↔ ∃ l ∈ t.live, l.1 = path) ∧
    (∀ path sent, t.tables.upstream path = some sent → ∀ node msg,
      sent.Passes rules node msg ↔
        ∃ l ∈ t.live, l.1 = path ∧ Passes rules l.2.qfRef node msg) ∧
    (∀ path q, t.tables.subscribedStrings.get? path = some q →
      ∀ info ∈ q, info.sub ∈ t.tables.registeredSubscribers) ∧
    ∀ s ∈ t.tables.subscriberInfos.keys, s ∈ t.tables.registeredSubscribers

/-- Who takes everything back has said the same twice. -/
def Allowed (t : Asked σ φ) : Event σ φ → Prop
  | .removeAllSubscriptions s => InOwnTable s t.tables
  | .unregisterSubscriber s =>
      s ∈ t.tables.registeredSubscribers → InOwnTable s t.tables
  | _ => True

/-- The queues are the live subscriptions, path by path. -/
structure Follows (t : Asked σ φ) : Prop where
  connected : t.tables.isConnected = true
  sound : Sound t.tables
  infos (s : σ) : s ∈ t.tables.subscriberInfos.keys ↔
    s ∈ t.tables.registeredSubscribers
  queues (path : String) : t.tables.queue path =
    (t.live.filter fun l => decide (l.1 = path)).map Prod.snd
  registered : ∀ l ∈ t.live, l.2.sub ∈ t.tables.registeredSubscribers

variable {rules} {t : Asked σ φ}

omit [DecidableEq σ] [DecidableEq φ] in
theorem mem_live_iff (h : Follows t) {path : String}
    {info : SubscriptionInfo σ φ} :
    info ∈ t.tables.queue path ↔ (path, info) ∈ t.live := by
  rw [h.queues path, List.mem_map]
  constructor
  · rintro ⟨l, hl, rfl⟩
    obtain ⟨hmem, hpath⟩ := List.mem_filter.mp hl
    obtain rfl : l.1 = path := by simpa using hpath
    exact hmem
  · intro hmem
    exact ⟨(path, info), List.mem_filter.mpr ⟨hmem, by simp⟩, rfl⟩

omit [DecidableEq σ] [DecidableEq φ] in
/-- Queues that are the live subscriptions are what is asked. -/
theorem Follows.unionOfLive (h : Follows t) : UnionOfLive rules t := by
  have hempty : ∀ path,
      t.tables.queue path ≠ [] ↔ ∃ l ∈ t.live, l.1 = path := by
    intro path
    constructor
    · intro hq
      obtain ⟨info, hinfo⟩ := List.exists_mem_of_ne_nil _ hq
      exact ⟨(path, info), (mem_live_iff h).mp hinfo, rfl⟩
    · rintro ⟨l, hl, rfl⟩
      exact List.ne_nil_of_mem ((mem_live_iff h).mpr hl)
  refine ⟨?_, ?_, ?_, fun s => (h.infos s).mp⟩
  · intro path
    rw [h.sound.upstream path, ← hempty path]
    split <;> simp_all
  · intro path sent hsent node msg
    rw [h.sound.upstream path] at hsent
    split at hsent
    · simp at hsent
    · next hq =>
      obtain rfl := Option.some.inj hsent
      rw [passes_sendFilter hq]
      constructor
      · rintro ⟨info, hinfo, hpasses⟩
        exact ⟨(path, info), (mem_live_iff h).mp hinfo, rfl, hpasses⟩
      · rintro ⟨l, hl, rfl, hpasses⟩
        exact ⟨l.2, (mem_live_iff h).mpr hl, hpasses⟩
  · intro path q hq info hinfo
    have hqueue : t.tables.queue path = q := by simp [MuxState.queue, hq]
    exact h.registered (path, info) ((mem_live_iff h).mp (hqueue ▸ hinfo))

omit [DecidableEq σ] [DecidableEq φ] in
/-- The live subscriptions on a path, as a queue. -/
theorem filter_append_live {live : List (String × SubscriptionInfo σ φ)}
    {path p : String} {info : SubscriptionInfo σ φ} :
    ((live ++ [(path, info)]).filter fun l => decide (l.1 = p)).map Prod.snd =
      (live.filter fun l => decide (l.1 = p)).map Prod.snd ++
        if p = path then [info] else [] := by
  by_cases hp : p = path
  · simp [hp]
  · simp [hp, Ne.symm hp]

theorem filter_erase_live {live : List (String × SubscriptionInfo σ φ)}
    {path p : String} {info : SubscriptionInfo σ φ} :
    ((live.erase (path, info)).filter fun l => decide (l.1 = p)).map Prod.snd =
      if p = path
      then ((live.filter fun l => decide (l.1 = path)).map Prod.snd).erase info
      else (live.filter fun l => decide (l.1 = p)).map Prod.snd := by
  induction live with
  | nil => simp
  | cons l live ih =>
      obtain ⟨path', info'⟩ := l
      by_cases hl : (path', info') = (path, info)
      · obtain ⟨rfl, rfl⟩ := Prod.mk.inj hl
        rw [List.erase_cons_head]
        by_cases hp : p = path'
        · simp [hp]
        · simp [hp, Ne.symm hp]
      · rw [List.erase_cons_tail (by simpa using hl)]
        by_cases hpath : path' = p
        · subst hpath
          by_cases hp : path' = path
          · subst hp
            have hinfo : info' ≠ info := by simpa using hl
            simp_all
          · simp_all
        · by_cases hp : p = path
          · simp_all
          · simp_all

omit [DecidableEq φ] in
theorem filter_sub_live {live : List (String × SubscriptionInfo σ φ)}
    {p : String} {s : σ} :
    ((live.filter fun l => decide (l.2.sub ≠ s)).filter fun l =>
        decide (l.1 = p)).map Prod.snd =
      ((live.filter fun l => decide (l.1 = p)).map Prod.snd).filter
        fun info => decide (info.sub ≠ s) := by
  rw [List.filter_map, List.filter_filter, List.filter_filter]
  congr 1
  apply List.filter_congr
  intro l _
  simp [Bool.and_comm]

/-- The tables of a gateway from which a subscriber has taken everything
back. -/
theorem Follows.withoutSubscriber (rules : PathMatching φ M) (h : Follows t)
    {s : σ}
    (hown : InOwnTable s t.tables) :
    Follows ⟨(removeAllSubscriptions rules (fun _ => .ok) s t.tables).1,
      t.live.filter fun l => decide (l.2.sub ≠ s)⟩ := by
  obtain ⟨hsound, hsame, hqueue⟩ :=
    removeAllSubscriptions_spec rules h.sound hown
  refine ⟨hsame.connected.trans h.connected, hsound, ?_, ?_, ?_⟩
  · intro s'
    rw [hsame.infos, hsame.registered]
    exact h.infos s'
  · intro p
    rw [hqueue p, h.queues p, filter_sub_live]
  · intro l hl
    rw [hsame.registered]
    exact h.registered l (List.mem_of_mem_filter hl)

/-- A call that is allowed keeps the queues in step with what is live. -/
theorem Follows.step {e : Event σ φ} (h : Follows t) (hallowed : Allowed t e) :
    Follows (step rules t e) := by
  cases e with
  | addSubscription s path filter flags pathPut =>
      obtain ⟨hsound, hsame, hknown, hqueue⟩ := addSubscription_spec rules
        pathPut s path filter flags h.sound h.connected
      refine ⟨hsame.connected.trans h.connected, hsound, ?_, ?_, ?_⟩
      · intro s'
        simp only [MuxSubscriptions.step, hsame.infos, hsame.registered]
        exact h.infos s'
      · intro p
        simp only [MuxSubscriptions.step, hqueue p, h.queues]
        split
        · next hp => rw [if_pos hp.2, filter_append_live, if_pos hp.1, hp.1]
        · next hp =>
          split
          · next hok =>
            rw [filter_append_live, if_neg fun hpath => hp ⟨hpath, hok⟩,
              List.append_nil]
          · rfl
      · intro l hl
        simp only [MuxSubscriptions.step, hsame.registered] at hl ⊢
        split at hl
        · next hok =>
          rcases List.mem_append.mp hl with hl | hl
          · exact h.registered l hl
          · obtain rfl := List.mem_singleton.mp hl
            exact (h.infos s).mp (hknown hok)
        · exact h.registered l hl
  | removeSubscription s path filter flags =>
      obtain ⟨hsound, hsame, hqueue, hfailed⟩ := removeSubscription_spec rules
        s path filter flags h.sound
      refine ⟨hsame.connected.trans h.connected, hsound, ?_, ?_, ?_⟩
      · intro s'
        simp only [MuxSubscriptions.step, hsame.infos, hsame.registered]
        exact h.infos s'
      · intro p
        simp only [MuxSubscriptions.step, hqueue p]
        split
        · next hp =>
          split
          · rw [filter_erase_live, if_pos hp, h.queues path]
          · next hstatus =>
            rw [List.erase_of_not_mem (hfailed hstatus), h.queues path, hp]
        · next hp =>
          split
          · rw [filter_erase_live, if_neg hp, h.queues p]
          · exact h.queues p
      · intro l hl
        simp only [MuxSubscriptions.step, hsame.registered] at hl ⊢
        split at hl
        · exact h.registered l (List.mem_of_mem_erase hl)
        · exact h.registered l hl
  | removeAllSubscriptions s => exact h.withoutSubscriber rules hallowed
  | registerSubscriber s =>
      simp only [MuxSubscriptions.step]
      split
      · exact h
      · refine ⟨h.connected, ⟨h.sound.nonempty, h.sound.upstream⟩, ?_, h.queues,
          fun l hl => List.mem_append_left [s] (h.registered l hl)⟩
        intro s'
        have hinfos := h.infos s'
        simp only [registerSubscriber, Hashtable.mem_keys_put, List.mem_append,
          List.mem_singleton, hinfos]
        exact or_comm
  | unregisterSubscriber s =>
      simp only [MuxSubscriptions.step]
      split
      · next hs =>
        have hwithout := h.withoutSubscriber rules (hallowed hs)
        refine ⟨hwithout.connected,
          ⟨hwithout.sound.nonempty, hwithout.sound.upstream⟩, ?_,
          hwithout.queues, ?_⟩
        · intro s'
          have hinfos := hwithout.infos s'
          simp only [unregisterSubscriber, Hashtable.keys_remove,
            List.mem_filter] at hinfos ⊢
          rw [hinfos]
        · intro l hl
          have hkeep := hwithout.registered l hl
          obtain ⟨-, hne⟩ := List.mem_filter.mp hl
          exact List.mem_filter.mpr ⟨hkeep, hne⟩
      · exact h

omit [DecidableEq σ] [DecidableEq φ] in
theorem follows_initial : Follows (.initial : Asked σ φ) := by
  refine ⟨rfl, ⟨?_, ?_⟩, ?_, fun path => rfl, ?_⟩
  · intro path
    simp [Asked.initial, MuxState.initial]
  · intro path
    rfl
  · intro s
    simp [Asked.initial, MuxState.initial]
  · simp [Asked.initial]

/-- **What upstream has is the union of what is live**, after every run in
which whoever takes everything back, or leaves, has said the same in the queues
as in its own table. -/
theorem unionOfLive_of_allowed {es : List (Event σ φ)}
    (h : Runs.StepsMeet (step rules) Allowed .initial es) :
    UnionOfLive rules (Runs.run (step rules) .initial es) :=
  (Runs.run_invariant_of_stepsMeet follows_initial h fun _ _ ht hallowed =>
    ht.step hallowed).unionOfLive

instance decidableInOwnTable (s : σ) (st : MuxState σ φ) :
    Decidable (InOwnTable s st) :=
  inferInstanceAs (Decidable (∀ entry ∈ _, _ ≤ 1 ∧ _))

instance decidableAllowed (t : Asked σ φ) : ∀ e, Decidable (Allowed t e)
  | .removeAllSubscriptions _ => decidableInOwnTable _ _
  | .unregisterSubscriber _ => inferInstanceAs (Decidable (_ → _))
  | .addSubscription _ _ _ _ _ => .isTrue trivial
  | .removeSubscription _ _ _ _ => .isTrue trivial
  | .registerSubscriber _ => .isTrue trivial

end Runs

/-- Paths without wildcards, and filters that ask for a least value. -/
def plainRules : PathMatching ℕ ℕ where
  withoutPrefix s :=
    String.ofList (s.toList.dropWhile fun c => decide (c = '/'))
  matchesPath pattern path := pattern == path
  filterMatches least _ msg := decide (least ≤ msg)

/-- Two subscribers with several subscriptions on one path; one takes back
the one with a filter, the other leaves. -/
def sharedPath : List (Event ℕ ℕ) :=
  [.registerSubscriber 1, .registerSubscriber 2,
    .addSubscription 1 "a" none {} true,
    .addSubscription 2 "a" (some 5) { noReply := true } true,
    .addSubscription 2 "a" (some 3) {} true,
    .addSubscription 1 "b" (some 3) {} true,
    .removeSubscription 2 "a" (some 5) { noReply := true },
    .unregisterSubscriber 1]

theorem unionOfLive_of_allowed_sharedPath :
    Runs.StepsMeet (step plainRules) Allowed .initial sharedPath ∧
      UnionOfLive plainRules (Runs.run (step plainRules) .initial sharedPath) :=
  ⟨by decide, unionOfLive_of_allowed (by decide)⟩

/-- A subscriber asks for a path with a slash in front, and leaves. -/
def leadingSlash : List (Event ℕ ℕ) :=
  [.registerSubscriber 1, .addSubscription 1 "/a" none {} true,
    .unregisterSubscriber 1]

/-- Its subscription stays upstream, and the queue still names it. -/
theorem not_unionOfLive_leadingSlash :
    ¬UnionOfLive plainRules
      (Runs.run (step plainRules) .initial leadingSlash) := by
  intro h
  have hupstream : (Runs.run (step plainRules) .initial
      leadingSlash).tables.upstream "/a" = some .all := by decide
  have hlive : (Runs.run (step plainRules) .initial leadingSlash).live =
      [] := by decide
  obtain ⟨l, hl, -⟩ := (h.1 "/a").mp (by rw [hupstream]; simp)
  simp [hlive] at hl

end ZgChoir.MuxSubscriptions
