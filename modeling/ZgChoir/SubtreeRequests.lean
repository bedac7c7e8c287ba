import ZgChoir.Registrations
import ZgChoir.Muscle
import ZgChoir.Runs

/-!
# Requests for subtrees and for values

A subscriber asks its gateway for subtrees, or for the values of nodes, which
is a request for subtrees one level deep.  The gateway puts the tag into the
subscriber's queue and sends the request on with the registration ID before
the tag, between underscores for the one kind and equals signs for the other.
When a reply is back, its tag says whose it is and which kind, and what is
left of it has to be in the queue.

`_requestedSubtrees` has a queue for each subscriber with unanswered requests,
and the queue has their tags (`QueuesExact`).  Nothing that a user writes into
a tag can change that.  What could is the registration ID: it is a number of
32 bits, and a reply that is very late may find that its ID has been given to
somebody else.
-/

namespace ZgChoir.SubtreeRequests

/-- Which call a request comes from. -/
inductive RequestKind where
  | subtrees
  | values
  deriving DecidableEq

/-- `markerChar` -/
def RequestKind.markerChar : RequestKind → Char
  | .subtrees => '_'
  | .values => '='

/-- What is asked for. -/
structure SubtreesQuery (φ : Type) where
  queryStrings : List String
  queryFilters : List (Option φ)
  maxDepth : UInt32
  flags : TreeGatewayFlags
  deriving DecidableEq

/-- A gateway, as far as requests go. -/
structure MuxRequests (σ : Type) where
  registrations : Registrations σ
  isConnected : Bool
  requestedSubtrees : Hashtable σ (List String)

/-- A subscriber is told. -/
inductive ReplyCallback (σ D M : Type) where
  | subtreesRequestResultReturned (sub : σ) (tag : String)
      (subtreeData : Option D)
  | treeNodeUpdated (sub : σ) (path : String) (payload : M) (optOpTag : String)
  deriving DecidableEq

namespace MuxRequests

variable {σ φ D M : Type} [DecidableEq σ] (g : MuxRequests σ)

/-- The queue of a subscriber; one without a queue has an empty one. -/
def queue (sub : σ) : List String := (g.requestedSubtrees.get? sub).getD []

/-- A queue that is empty is not kept. -/
def setQueue (sub : σ) (q : List String) : MuxRequests σ :=
  { g with
    requestedSubtrees :=
      if q = [] then g.requestedSubtrees.remove sub
      else g.requestedSubtrees.put sub q }

/-- `TreeGateway_RequestNodeSubtreesAux`, and what has gone upstream; `upstream`
is how that call ends. -/
def requestNodeSubtreesAux (upstream : Status) (calledBy : Option σ)
    (query : SubtreesQuery φ) (tag : String) (markerChar : Char) :
    Status × MuxRequests σ × Option (SubtreesQuery φ × String) :=
  match calledBy with
  | none => (.badArgument, g, none)
  | some sub =>
      if g.isConnected = false then (.badObject, g, none)
      else if upstream.isOK = true then
        (upstream, g.setQueue sub (g.queue sub ++ [tag]),
          some (query,
            g.registrations.prependRegistrationIDPrefix sub tag markerChar))
      else (upstream, g.setQueue sub (g.queue sub), none)

/-- `TreeGateway_RequestNodeSubtrees` -/
def requestNodeSubtrees (upstream : Status) (calledBy : Option σ)
    (query : SubtreesQuery φ) (tag : String) :
    Status × MuxRequests σ × Option (SubtreesQuery φ × String) :=
  g.requestNodeSubtreesAux upstream calledBy query tag '_'

/-- `TreeGateway_RequestNodeValues` -/
def requestNodeValues (upstream : Status) (calledBy : Option σ)
    (queryString : String) (optFilter : Option φ) (flags : TreeGatewayFlags)
    (tag : String) :
    Status × MuxRequests σ × Option (SubtreesQuery φ × String) :=
  g.requestNodeSubtreesAux upstream calledBy
    ⟨[queryString], optFilter.toList.map some, 1, flags⟩ tag '='

/-- What a subscriber is told of a reply; `nodeValues` are the fields of a
reply that have the payload of a node. -/
def replyCallbacks (nodeValues : D → List (String × M)) (kind : RequestKind)
    (sub : σ) (tag : String) (subtreeData : Option D) :
    List (ReplyCallback σ D M) :=
  match kind with
  | .subtrees => [.subtreesRequestResultReturned sub tag subtreeData]
  | .values =>
      (subtreeData.toList.flatMap nodeValues).map fun node =>
        .treeNodeUpdated sub node.1 node.2 tag

/-- The part of `SubtreesRequestResultReturned` that has found a queue. -/
def answer (nodeValues : D → List (String × M)) (kind : RequestKind) (sub : σ)
    (q : List String) (suffix : String) (subtreeData : Option D) :
    List (ReplyCallback σ D M) × MuxRequests σ :=
  if suffix ∈ q then
    (replyCallbacks nodeValues kind sub suffix subtreeData,
      g.setQueue sub (q.erase suffix))
  else ([], g)

/-- The queue that a tag of a kind leads to, if there is one. -/
def findQueue (tag : String) (kind : RequestKind) : Option (σ × List String) :=
  (g.registrations.parseRegistrationIDPrefix tag kind.markerChar).1.bind
    fun sub => (g.requestedSubtrees.get? sub).map fun q => (sub, q)

/-- `SubtreesRequestResultReturned` -/
def subtreesRequestResultReturned (nodeValues : D → List (String × M))
    (tag : String) (subtreeData : Option D) :
    List (ReplyCallback σ D M) × MuxRequests σ :=
  let suffix := (g.registrations.parseRegistrationIDPrefix tag '_').2
  match g.findQueue tag .subtrees with
  | some (sub, q) => g.answer nodeValues .subtrees sub q suffix subtreeData
  | none =>
      match g.findQueue tag .values with
      | some (sub, q) => g.answer nodeValues .values sub q suffix subtreeData
      | none => ([], g)

/-- `RegisterSubscriber` -/
def registerSubscriber (s : σ) : MuxRequests σ :=
  { g with registrations := g.registrations.register s }

/-- `UnregisterSubscriber` -/
def unregisterSubscriber (s : σ) : MuxRequests σ :=
  { g with
    registrations := g.registrations.unregister s
    requestedSubtrees := g.requestedSubtrees.remove s }

/-- `TreeGatewayConnectionStateChanged` -/
def connectionStateChanged (isConnected : Bool) : MuxRequests σ :=
  if isConnected = g.isConnected then g
  else
    { g with
      isConnected
      requestedSubtrees :=
        if isConnected = true then g.requestedSubtrees else .empty }

end MuxRequests

/-- A request that has gone upstream, and the registration it was made
under. -/
structure Request (σ φ : Type) where
  sub : σ
  registrationID : UInt32
  kind : RequestKind
  query : SubtreesQuery φ
  tag : String
  deriving DecidableEq

/-- The tag that goes upstream, and comes back. -/
def Request.sentTag {σ φ : Type} (r : Request σ φ) : String :=
  MuxTreeGateway.prependRegistrationIDPrefix r.registrationID r.tag
    r.kind.markerChar

/-- A gateway, and the requests that upstream has not answered. -/
structure Requests (σ φ : Type) where
  gateway : MuxRequests σ
  unanswered : List (Request σ φ)

/-- What happens to a gateway. -/
inductive RequestEvent (σ φ D : Type) where
  | registerSubscriber (s : σ)
  | unregisterSubscriber (s : σ)
  | requestNodeSubtrees (upstream : Status) (calledBy : σ)
      (query : SubtreesQuery φ) (tag : String)
  | requestNodeValues (upstream : Status) (calledBy : σ) (queryString : String)
      (optFilter : Option φ) (flags : TreeGatewayFlags) (tag : String)
  | replied (r : Request σ φ) (subtreeData : Option D)
  | connectionStateChanged (isConnected : Bool)

section Runs

variable {σ φ D M : Type} [DecidableEq σ] [DecidableEq φ]
  (nodeValues : D → List (String × M))

/-- A subscriber has made a request; what has gone upstream is not answered
yet. -/
def Requests.requested (t : Requests σ φ) (sub : σ) (kind : RequestKind)
    (tag : String)
    (made : Status × MuxRequests σ × Option (SubtreesQuery φ × String)) :
    Requests σ φ where
  gateway := made.2.1
  unanswered := t.unanswered ++ made.2.2.toList.map fun sent =>
    ⟨sub, t.gateway.registrations.idOf sub, kind, sent.1, tag⟩

/-- Whether a subscriber is registered. -/
def Requests.IsRegistered (t : Requests σ φ) (s : σ) : Prop :=
  s ∈ t.gateway.registrations.registeredSubscribers.keys

instance decidableIsRegistered (t : Requests σ φ) (s : σ) :
    Decidable (t.IsRegistered s) :=
  inferInstanceAs (Decidable (_ ∈ _))

/-- The callbacks of an event. -/
def callbacks (t : Requests σ φ) :
    RequestEvent σ φ D → List (ReplyCallback σ D M)
  | .replied r subtreeData =>
      if r ∈ t.unanswered then
        (t.gateway.subtreesRequestResultReturned nodeValues r.sentTag
          subtreeData).1
      else []
  | _ => []

/-- One event.  Only who is registered has a gateway to call, and upstream
answers a request once. -/
def requestStep (t : Requests σ φ) : RequestEvent σ φ D → Requests σ φ
  | .registerSubscriber s =>
      if t.IsRegistered s then t
      else { t with gateway := t.gateway.registerSubscriber s }
  | .unregisterSubscriber s =>
      if t.IsRegistered s then
        { t with gateway := t.gateway.unregisterSubscriber s }
      else t
  | .requestNodeSubtrees upstream calledBy query tag =>
      if t.IsRegistered calledBy then
        t.requested calledBy .subtrees tag (t.gateway.requestNodeSubtrees
          upstream (some calledBy) query tag)
      else t
  | .requestNodeValues upstream calledBy queryString optFilter flags tag =>
      if t.IsRegistered calledBy then
        t.requested calledBy .values tag (t.gateway.requestNodeValues upstream
          (some calledBy) queryString optFilter flags tag)
      else t
  | .replied r subtreeData =>
      if r ∈ t.unanswered then
        { gateway := (t.gateway.subtreesRequestResultReturned nodeValues
            r.sentTag subtreeData).2
          unanswered := t.unanswered.erase r }
      else t
  | .connectionStateChanged isConnected =>
      -- what was asked over a connection is not answered over the next one
      if isConnected = t.gateway.isConnected then t
      else
        { gateway := t.gateway.connectionStateChanged isConnected
          unanswered := if isConnected = true then t.unanswered else [] }

omit [DecidableEq φ] in
/-- A gateway of which nobody has asked anything. -/
def Requests.initial : Requests σ φ where
  gateway := ⟨.nobody, false, .empty⟩
  unanswered := []

/-- The tags of a subscriber's unanswered requests, made since it has
registered. -/
def Requests.pending (t : Requests σ φ) (s : σ) : List String :=
  (t.unanswered.filter fun r => decide (r.sub = s ∧
    t.gateway.registrations.registeredSubscribers.get? s =
      some r.registrationID)).map (·.tag)

/-- The queues are the unanswered requests, and none is empty. -/
def QueuesExact (t : Requests σ φ) : Prop :=
  ∀ s, (t.gateway.queue s).Perm (t.pending s) ∧
    t.gateway.requestedSubtrees.get? s ≠ some []

/-- A reply is told to the subscriber that has made the request, if it is still
registered, with its tag and by the callback for the kind; and nothing else
is told to anybody. -/
def RepliesGoBack (t : Requests σ φ) (e : RequestEvent σ φ D) : Prop :=
  callbacks nodeValues t e = match e with
    | .replied r subtreeData =>
        if r ∈ t.unanswered ∧
            t.gateway.registrations.registeredSubscribers.get? r.sub =
              some r.registrationID then
          MuxRequests.replyCallbacks nodeValues r.kind r.sub r.tag subtreeData
        else []
    | _ => []

instance decidableRepliesGoBack [DecidableEq D] [DecidableEq M]
    (t : Requests σ φ) (e : RequestEvent σ φ D) :
    Decidable (RepliesGoBack nodeValues t e) :=
  inferInstanceAs (Decidable (callbacks nodeValues t e = _))

/-- A new registration ID is nobody's, and no unanswered request's. -/
def IDIsFresh (t : Requests σ φ) : RequestEvent σ φ D → Prop
  | .registerSubscriber s =>
      ¬t.IsRegistered s → t.gateway.registrations.NextIsFree ∧
        ∀ r ∈ t.unanswered, r.registrationID ≠
          t.gateway.registrations.registrationIDCounter + 1
  | _ => True

end Runs

/-! ## The way of a reply -/

section Replies

variable {σ φ D M : Type} [DecidableEq σ] {g : MuxRequests σ} {sub s : σ}
  {q : List String} {r : Request σ φ} {kind : RequestKind}
  {nodeValues : D → List (String × M)}

theorem queue_setQueue :
    (g.setQueue sub q).queue s = if s = sub then q else g.queue s :=
  Hashtable.getD_exchange

theorem nonempty_setQueue (h : g.requestedSubtrees.get? s ≠ some []) :
    (g.setQueue sub q).requestedSubtrees.get? s ≠ some [] :=
  Hashtable.exchange_ne_nil h

omit [DecidableEq σ] in
/-- What is left of a tag is what the user has made of it. -/
theorem parse_sentTag_suffix {registrations : Registrations σ} :
    (registrations.parseRegistrationIDPrefix r.sentTag '_').2 = r.tag := by
  unfold Request.sentTag
  cases r.kind with
  | subtrees =>
      rw [RequestKind.markerChar,
        Registrations.parseRegistrationIDPrefix_prepend (by decide) (by decide)]
  | values =>
      rw [RequestKind.markerChar,
        Registrations.parseRegistrationIDPrefix_prepend_of_ne (by decide)
          (by decide)]

/-- A tag leads to the queue of the subscriber that has the ID, and is of the
kind that it was sent for. -/
theorem findQueue_sentTag : g.findQueue r.sentTag kind =
    if kind = r.kind then
      (g.registrations.registrationIDs.get? r.registrationID).bind fun sub =>
        (g.requestedSubtrees.get? sub).map fun q => (sub, q)
    else none := by
  unfold MuxRequests.findQueue Request.sentTag
  have hcolon : ∀ k : RequestKind, k.markerChar ≠ ':' := by
    rintro (_ | _) <;> decide
  have hdigit : ∀ k : RequestKind, k.markerChar.isDigit = false := by
    rintro (_ | _) <;> decide
  by_cases hkind : kind = r.kind
  · subst hkind
    rw [Registrations.parseRegistrationIDPrefix_prepend (hcolon _) (hdigit _),
      if_pos rfl]
  · have hmarker : r.kind.markerChar ≠ kind.markerChar := by
      cases kind <;> cases hr : r.kind <;> simp_all [RequestKind.markerChar]
    rw [Registrations.parseRegistrationIDPrefix_prepend_of_ne (hcolon _)
      hmarker, if_neg hkind]
    rfl

/-- **A reply to a request** is told to whoever has the ID, if the tag is in
its queue, by the callback for the kind. -/
theorem subtreesRequestResultReturned_sentTag {data : Option D} :
    g.subtreesRequestResultReturned nodeValues r.sentTag data =
      match g.registrations.registrationIDs.get? r.registrationID with
      | some sub =>
          if r.tag ∈ g.queue sub then
            (MuxRequests.replyCallbacks nodeValues r.kind sub r.tag data,
              g.setQueue sub ((g.queue sub).erase r.tag))
          else ([], g)
      | none => ([], g) := by
  unfold MuxRequests.subtreesRequestResultReturned
  simp only [parse_sentTag_suffix, findQueue_sentTag]
  cases hid : g.registrations.registrationIDs.get? r.registrationID with
  | none => simp
  | some sub =>
      cases hq : g.requestedSubtrees.get? sub with
      | none => cases r.kind <;> simp [MuxRequests.queue, hq]
      | some q =>
          have hqueue : g.queue sub = q := by simp [MuxRequests.queue, hq]
          cases r.kind <;> simp [hq, hqueue, MuxRequests.answer]

end Replies

/-! ## The queues in a run -/

section Invariant

variable {σ φ D M : Type} [DecidableEq σ] {t : Requests σ φ} {s : σ}
  {r : Request σ φ} {nodeValues : D → List (String × M)}

/-- The tables of registrations say the same, an ID of an unanswered request
is its subscriber's or nobody's, and the queues are exact. -/
structure Sound (t : Requests σ φ) : Prop where
  inverse : t.gateway.registrations.Inverse
  owner : ∀ r ∈ t.unanswered, ∀ s,
    t.gateway.registrations.registeredSubscribers.get? s =
      some r.registrationID → s = r.sub
  queues : QueuesExact t

theorem isRegistered_iff : t.IsRegistered s ↔ ∃ registrationID,
    t.gateway.registrations.registeredSubscribers.get? s =
      some registrationID := by
  rw [Requests.IsRegistered, ← Hashtable.isSome_get?, Option.isSome_iff_exists]

/-- Who is not registered has nothing pending. -/
theorem pending_of_not_registered
    (h : t.gateway.registrations.registeredSubscribers.get? s = none) :
    t.pending s = [] := by
  simp [Requests.pending, h]

theorem sound_initial : Sound (.initial : Requests σ φ) := by
  refine ⟨Registrations.inverse_nobody, by simp [Requests.initial], ?_⟩
  intro s
  simp [Requests.initial, Requests.pending, MuxRequests.queue]

theorem Sound.register (h : Sound t) (hnew : ¬t.IsRegistered s)
    (hfree : t.gateway.registrations.NextIsFree)
    (hfresh : ∀ r ∈ t.unanswered, r.registrationID ≠
      t.gateway.registrations.registrationIDCounter + 1) :
    Sound { t with gateway := t.gateway.registerSubscriber s } := by
  have hnone : t.gateway.registrations.registeredSubscribers.get? s = none := by
    cases hget : t.gateway.registrations.registeredSubscribers.get? s with
    | none => rfl
    | some id => exact absurd (isRegistered_iff.mpr ⟨id, hget⟩) hnew
  have hget : ∀ s', (t.gateway.registerSubscriber
      s).registrations.registeredSubscribers.get? s' = if s' = s then some
        (t.gateway.registrations.registrationIDCounter + 1)
      else t.gateway.registrations.registeredSubscribers.get? s' :=
    fun s' => Registrations.get?_register
  refine ⟨h.inverse.register hfree hnone, ?_, fun s' => ?_⟩
  · intro r hr s' hs'
    rw [hget] at hs'
    split at hs'
    · exact absurd (Option.some.inj hs').symm (hfresh r hr)
    · exact h.owner r hr s' hs'
  · obtain ⟨hperm, hnonempty⟩ := h.queues s'
    refine ⟨?_, hnonempty⟩
    have hpending : ({ t with gateway := t.gateway.registerSubscriber s } :
        Requests σ φ).pending s' = t.pending s' := by
      unfold Requests.pending
      congr 1
      apply List.filter_congr
      intro r hr
      rw [hget]
      split
      · next hs' =>
        have hid := Ne.symm (hfresh r hr)
        rw [hs', hnone]
        simp [hid]
      · rfl
    rw [hpending]
    exact hperm

theorem Sound.unregister (h : Sound t) :
    Sound { t with gateway := t.gateway.unregisterSubscriber s } := by
  have hget : ∀ s', (t.gateway.unregisterSubscriber
      s).registrations.registeredSubscribers.get? s' = if s' = s then none
      else t.gateway.registrations.registeredSubscribers.get? s' :=
    fun s' => Registrations.get?_unregister
  refine ⟨h.inverse.unregister, ?_, fun s' => ?_⟩
  · intro r hr s' hs'
    rw [hget] at hs'
    split at hs'
    · simp at hs'
    · exact h.owner r hr s' hs'
  · by_cases hs' : s' = s
    · subst hs'
      have hpending := pending_of_not_registered (t := { t with
        gateway := t.gateway.unregisterSubscriber s' }) (s := s')
        ((hget s').trans (if_pos rfl))
      rw [hpending]
      simp [MuxRequests.queue, MuxRequests.unregisterSubscriber]
    · obtain ⟨hperm, hnonempty⟩ := h.queues s'
      have hpending : ({ t with gateway := t.gateway.unregisterSubscriber s } :
          Requests σ φ).pending s' = t.pending s' := by
        simp only [Requests.pending, hget, if_neg hs']
      rw [hpending]
      simpa [MuxRequests.queue, MuxRequests.unregisterSubscriber, hs'] using
        And.intro hperm hnonempty

/-- A request has been made by a subscriber that is registered. -/
theorem Sound.made (h : Sound t)
    (hid : t.gateway.registrations.registeredSubscribers.get? r.sub =
      some r.registrationID) :
    Sound ⟨t.gateway.setQueue r.sub (t.gateway.queue r.sub ++ [r.tag]),
      t.unanswered ++ [r]⟩ := by
  refine ⟨h.inverse, ?_, fun s' => ?_⟩
  · intro other hother s' hs'
    rcases List.mem_append.mp hother with hother | hother
    · exact h.owner other hother s' hs'
    · obtain rfl := List.mem_singleton.mp hother
      have hown := (h.inverse _ _).mpr hs'
      rw [(h.inverse _ _).mpr hid] at hown
      exact (Option.some.inj hown).symm
  · obtain ⟨hperm, hnonempty⟩ := h.queues s'
    refine ⟨?_, nonempty_setQueue hnonempty⟩
    have hpending : (⟨t.gateway.setQueue r.sub (t.gateway.queue r.sub ++
        [r.tag]), t.unanswered ++ [r]⟩ : Requests σ φ).pending s' =
          t.pending s' ++ if s' = r.sub then [r.tag] else [] := by
      simp only [Requests.pending, List.filter_append, List.map_append]
      by_cases hs' : s' = r.sub
      · subst hs'
        simp [MuxRequests.setQueue, hid]
      · simp [MuxRequests.setQueue, hs', Ne.symm hs']
    rw [hpending, queue_setQueue]
    split
    · next hs' =>
      subst hs'
      exact hperm.append_right [r.tag]
    · simpa using hperm

/-- A request has been rolled back. -/
theorem Sound.rolledBack (h : Sound t) :
    Sound ⟨t.gateway.setQueue s (t.gateway.queue s), t.unanswered⟩ := by
  refine ⟨h.inverse, h.owner, fun s' => ?_⟩
  obtain ⟨hperm, hnonempty⟩ := h.queues s'
  refine ⟨?_, nonempty_setQueue hnonempty⟩
  rw [queue_setQueue]
  split
  · next hs' =>
    subst hs'
    exact hperm
  · exact hperm

/-- What a request by a subscriber that is registered does. -/
theorem Sound.requested (h : Sound t) {kind : RequestKind} {tag : String}
    {upstream : Status} {query : SubtreesQuery φ} {markerChar : Char}
    (hregistered : t.IsRegistered s) :
    Sound (t.requested s kind tag (t.gateway.requestNodeSubtreesAux upstream
      (some s) query tag markerChar)) := by
  obtain ⟨id, hid⟩ := isRegistered_iff.mp hregistered
  have hidOf : t.gateway.registrations.idOf s = id := by
    simp [Registrations.idOf, hid]
  simp only [MuxRequests.requestNodeSubtreesAux]
  split
  · simpa [Requests.requested] using h
  · split
    · simpa [Requests.requested, hidOf] using
        h.made (r := ⟨s, id, kind, query, tag⟩) hid
    · simpa [Requests.requested] using h.rolledBack (s := s)

variable [DecidableEq φ] {data : Option D}

/-- One of the pending ones is answered. -/
theorem pending_erase_perm (hr : r ∈ t.unanswered)
    (hid : t.gateway.registrations.registeredSubscribers.get? r.sub =
      some r.registrationID) {g : MuxRequests σ}
    (hsame : g.registrations = t.gateway.registrations) :
    ((⟨g, t.unanswered.erase r⟩ : Requests σ φ).pending r.sub).Perm
      ((t.pending r.sub).erase r.tag) := by
  have hperm : (t.pending r.sub).Perm
      (r.tag :: (⟨g, t.unanswered.erase r⟩ : Requests σ φ).pending r.sub) := by
    have hfilter := ((List.perm_cons_erase hr).filter fun r' =>
      decide (r'.sub = r.sub ∧
        t.gateway.registrations.registeredSubscribers.get? r.sub =
          some r'.registrationID)).map (·.tag)
    simpa [Requests.pending, hsame, hid] using hfilter
  have herase := hperm.erase r.tag
  rw [List.erase_cons_head] at herase
  exact herase.symm

/-- What is answered is pending with nobody else. -/
theorem pending_erase_of_not (hnot : ¬(r.sub = s ∧
      t.gateway.registrations.registeredSubscribers.get? s =
        some r.registrationID)) {g : MuxRequests σ}
    (hsame : g.registrations = t.gateway.registrations) :
    (⟨g, t.unanswered.erase r⟩ : Requests σ φ).pending s = t.pending s := by
  simp only [Requests.pending, hsame]
  rw [← List.erase_filter, List.erase_of_not_mem]
  simp [hnot]

variable (nodeValues data) in
/-- **A reply is told to who has asked**, and the queues stay exact. -/
theorem Sound.replied (h : Sound t) (hr : r ∈ t.unanswered) :
    let answered := t.gateway.subtreesRequestResultReturned nodeValues
      r.sentTag data
    Sound ⟨answered.2, t.unanswered.erase r⟩ ∧ answered.1 =
      if t.gateway.registrations.registeredSubscribers.get? r.sub =
          some r.registrationID then
        MuxRequests.replyCallbacks nodeValues r.kind r.sub r.tag data
      else [] := by
  intro answered
  have howner : ∀ r' ∈ t.unanswered.erase r, ∀ s',
      t.gateway.registrations.registeredSubscribers.get? s' =
        some r'.registrationID → s' = r'.sub := fun r' hr' =>
    h.owner r' (List.mem_of_mem_erase hr')
  by_cases hid : t.gateway.registrations.registeredSubscribers.get? r.sub =
      some r.registrationID
  · have hpending : r.tag ∈ t.pending r.sub :=
      List.mem_map.mpr ⟨r, List.mem_filter.mpr ⟨hr, by simp [hid]⟩, rfl⟩
    have hqueue : r.tag ∈ t.gateway.queue r.sub :=
      (h.queues r.sub).1.mem_iff.mpr hpending
    have hanswered : answered =
        (MuxRequests.replyCallbacks nodeValues r.kind r.sub r.tag data,
          t.gateway.setQueue r.sub ((t.gateway.queue r.sub).erase r.tag)) := by
      simp only [answered, subtreesRequestResultReturned_sentTag,
        (h.inverse _ _).mpr hid, if_pos hqueue]
    rw [hanswered, if_pos hid]
    refine ⟨⟨h.inverse, howner, fun s' => ?_⟩, rfl⟩
    obtain ⟨hperm, hnonempty⟩ := h.queues s'
    refine ⟨?_, nonempty_setQueue hnonempty⟩
    rw [queue_setQueue]
    split
    · next hs' =>
      subst hs'
      exact (hperm.erase r.tag).trans (pending_erase_perm hr hid rfl).symm
    · next hs' =>
      have hsame := pending_erase_of_not (t := t) (s := s') (r := r)
        (fun hsub => hs' hsub.1.symm) (g := t.gateway.setQueue r.sub
          ((t.gateway.queue r.sub).erase r.tag)) rfl
      exact hsame.symm ▸ hperm
  · have hnone : t.gateway.registrations.registrationIDs.get?
        r.registrationID = none := by
      refine Option.eq_none_iff_forall_ne_some.mpr ?_
      intro s' hs'
      have hget := (h.inverse _ _).mp hs'
      exact hid (h.owner r hr s' hget ▸ hget)
    have hanswered : answered = ([], t.gateway) := by
      simp only [answered, subtreesRequestResultReturned_sentTag, hnone]
    rw [hanswered, if_neg hid]
    refine ⟨⟨h.inverse, howner, fun s' => ?_⟩, rfl⟩
    have hsame := pending_erase_of_not (t := t) (s := s') (r := r)
      (fun hsub => hid (hsub.1 ▸ hsub.2)) (g := t.gateway) rfl
    exact hsame.symm ▸ h.queues s'

variable (nodeValues) in
/-- **The queues stay exact** with every event that gives out no ID twice, and
its replies go back. -/
theorem Sound.step {e : RequestEvent σ φ D} (h : Sound t)
    (hfresh : IDIsFresh t e) :
    Sound (requestStep nodeValues t e) ∧ RepliesGoBack nodeValues t e := by
  cases e with
  | registerSubscriber s =>
      refine ⟨?_, rfl⟩
      simp only [requestStep]
      split
      · exact h
      · next hnew =>
        obtain ⟨hfree, hids⟩ := hfresh hnew
        exact h.register hnew hfree hids
  | unregisterSubscriber s =>
      refine ⟨?_, rfl⟩
      simp only [requestStep]
      split
      · exact h.unregister
      · exact h
  | requestNodeSubtrees upstream calledBy query tag =>
      refine ⟨?_, rfl⟩
      simp only [requestStep]
      split
      · next hregistered => exact h.requested hregistered
      · exact h
  | requestNodeValues upstream calledBy queryString optFilter flags tag =>
      refine ⟨?_, rfl⟩
      simp only [requestStep]
      split
      · next hregistered => exact h.requested hregistered
      · exact h
  | replied r data =>
      simp only [requestStep, RepliesGoBack, callbacks]
      by_cases hr : r ∈ t.unanswered
      · obtain ⟨hsound, hcallbacks⟩ := h.replied nodeValues data hr
        simp only [hr, if_true, true_and]
        exact ⟨hsound, hcallbacks⟩
      · simpa [hr] using h
  | connectionStateChanged isConnected =>
      refine ⟨?_, rfl⟩
      simp only [requestStep, MuxRequests.connectionStateChanged]
      split
      · exact h
      · cases isConnected with
        | true => exact ⟨h.inverse, h.owner, h.queues⟩
        | false =>
            refine ⟨h.inverse, by simp, fun s => ?_⟩
            simp [MuxRequests.queue, Requests.pending]

theorem Sound.run {es : List (RequestEvent σ φ D)} (h : Sound t)
    (hfresh : Runs.StepsMeet (requestStep nodeValues) IDIsFresh t es) :
    Sound (Runs.run (requestStep nodeValues) t es) ∧
      Runs.StepsMeet (requestStep nodeValues) (RepliesGoBack nodeValues) t
        es := by
  induction es generalizing t with
  | nil => exact ⟨h, trivial⟩
  | cons e es ih =>
      obtain ⟨hsound, hback⟩ := h.step nodeValues hfresh.1
      obtain ⟨hend, hrest⟩ := ih hsound hfresh.2
      exact ⟨hend, hback, hrest⟩

/-- **Query replies go back to their requester**, and the queues are the tags
of the unanswered requests, in every run that gives out no ID twice. -/
theorem replies_go_back_of_fresh (nodeValues : D → List (String × M))
    (es : List (RequestEvent σ φ D))
    (hfresh : Runs.StepsMeet (requestStep nodeValues) IDIsFresh .initial es) :
    QueuesExact (Runs.run (requestStep nodeValues) .initial es) ∧
      Runs.StepsMeet (requestStep nodeValues) (RepliesGoBack nodeValues)
        .initial es := by
  obtain ⟨hsound, hback⟩ := sound_initial.run hfresh
  exact ⟨hsound.queues, hback⟩

end Invariant

/-! ## When an ID is given out twice -/

section Wrapping

variable {σ φ D M : Type} [DecidableEq σ] [DecidableEq φ]
  {t : Requests σ φ} {nodeValues : D → List (String × M)}

omit [DecidableEq σ] [DecidableEq φ] in
def RequestEvent.isRegistration : RequestEvent σ φ D → Bool
  | .registerSubscriber _ => true
  | _ => false

/-- No ID is above the counter. -/
structure IDsBelow (t : Requests σ φ) : Prop where
  subscribers (s : σ) (id : UInt32) :
    t.gateway.registrations.registeredSubscribers.get? s = some id →
      id ≤ t.gateway.registrations.registrationIDCounter
  ids (id : UInt32) (s : σ) :
    t.gateway.registrations.registrationIDs.get? id = some s →
      id ≤ t.gateway.registrations.registrationIDCounter
  unanswered : ∀ r ∈ t.unanswered,
    r.registrationID ≤ t.gateway.registrations.registrationIDCounter

omit [DecidableEq φ] in
theorem subtreesRequestResultReturned_registrations {g : MuxRequests σ}
    {tag : String} {data : Option D} :
    (g.subtreesRequestResultReturned nodeValues tag data).2.registrations =
      g.registrations := by
  have hanswer : ∀ kind sub q suffix, (g.answer nodeValues kind sub q suffix
      data).2.registrations = g.registrations := by
    intro kind sub q suffix
    unfold MuxRequests.answer
    split <;> rfl
  unfold MuxRequests.subtreesRequestResultReturned
  split
  · exact hanswer _ _ _ _
  · split
    · exact hanswer _ _ _ _
    · rfl

omit [DecidableEq φ] in
/-- A request is made under an ID that is not above the counter. -/
theorem IDsBelow.requested (h : IDsBelow t) {kind : RequestKind} {s : σ}
    {tag : String} {upstream : Status} {query : SubtreesQuery φ}
    {markerChar : Char} :
    let t' := t.requested s kind tag (t.gateway.requestNodeSubtreesAux
      upstream (some s) query tag markerChar)
    IDsBelow t' ∧ t'.gateway.registrations = t.gateway.registrations := by
  intro t'
  have hsame : t'.gateway.registrations = t.gateway.registrations := by
    simp only [t', Requests.requested, MuxRequests.requestNodeSubtreesAux]
    split
    · rfl
    · split <;> rfl
  have hidOf : t.gateway.registrations.idOf s ≤
      t.gateway.registrations.registrationIDCounter := by
    unfold Registrations.idOf
    cases hget : t.gateway.registrations.registeredSubscribers.get? s with
    | none => exact UInt32.le_iff_toNat_le.mpr (Nat.zero_le _)
    | some id => exact h.subscribers s id hget
  refine ⟨⟨?_, ?_, fun r hr => ?_⟩, hsame⟩
  · rw [hsame]
    exact h.subscribers
  · rw [hsame]
    exact h.ids
  · rw [hsame]
    rcases List.mem_append.mp hr with hr | hr
    · exact h.unanswered r hr
    · obtain ⟨sent, -, rfl⟩ := List.mem_map.mp hr
      exact hidOf

omit [DecidableEq φ] in
theorem IDsBelow.unregister {s : σ} (h : IDsBelow t) :
    IDsBelow { t with gateway := t.gateway.unregisterSubscriber s } := by
  have hcounter : (t.gateway.registrations.unregister
      s).registrationIDCounter =
        t.gateway.registrations.registrationIDCounter :=
    Registrations.counter_unregister
  refine ⟨fun s' id hs' => ?_, fun id s' hs' => ?_, fun r hr => ?_⟩
  · simp only [MuxRequests.unregisterSubscriber, hcounter,
      Registrations.get?_unregister] at hs' ⊢
    split at hs'
    · simp at hs'
    · exact h.subscribers s' id hs'
  · simp only [MuxRequests.unregisterSubscriber, hcounter] at hs' ⊢
    exact h.ids id s' (Registrations.get?_of_get?_unregister hs')
  · simp only [MuxRequests.unregisterSubscriber, hcounter]
    exact h.unanswered r hr

variable (nodeValues) in
/-- One more registration keeps below the counter, if that does not wrap. -/
theorem IDsBelow.step (e : RequestEvent σ φ D) (h : IDsBelow t)
    (hroom : t.gateway.registrations.registrationIDCounter.toNat +
      e.isRegistration.toNat < 4294967296) :
    let t' := requestStep nodeValues t e
    IDIsFresh t e ∧ IDsBelow t' ∧
      t'.gateway.registrations.registrationIDCounter.toNat ≤
        t.gateway.registrations.registrationIDCounter.toNat +
          e.isRegistration.toNat := by
  have hkeep : ∀ t' : Requests σ φ, IDsBelow t' → t'.gateway.registrations =
      t.gateway.registrations → IDsBelow t' ∧
        t'.gateway.registrations.registrationIDCounter.toNat ≤
          t.gateway.registrations.registrationIDCounter.toNat +
            e.isRegistration.toNat := by
    intro t' hbelow hsame
    rw [hsame]
    exact ⟨hbelow, Nat.le_add_right _ _⟩
  cases e with
  | registerSubscriber s =>
      have hnext : (t.gateway.registrations.registrationIDCounter + 1).toNat =
          t.gateway.registrations.registrationIDCounter.toNat + 1 := by
        rw [UInt32.toNat_add, UInt32.toNat_one]
        exact Nat.mod_eq_of_lt hroom
      have hne : ∀ id : UInt32,
          id ≤ t.gateway.registrations.registrationIDCounter →
            id ≤ t.gateway.registrations.registrationIDCounter + 1 ∧
              id ≠ t.gateway.registrations.registrationIDCounter + 1 := by
        intro id hid
        have hle := UInt32.le_iff_toNat_le.mp hid
        refine ⟨UInt32.le_iff_toNat_le.mpr (by omega), ?_⟩
        rintro rfl
        omega
      refine ⟨fun _ => ⟨?_, fun r hr => (hne _ (h.unanswered r hr)).2⟩, ?_⟩
      · refine Option.eq_none_iff_forall_ne_some.mpr ?_
        intro s' hs'
        exact (hne _ (h.ids _ s' hs')).2 rfl
      · simp only [requestStep]
        split
        · exact hkeep t h rfl
        · refine ⟨⟨fun s' id hs' => ?_, fun id s' hs' => ?_, fun r hr => ?_⟩,
            Nat.le_of_eq hnext⟩
          · simp only [MuxRequests.registerSubscriber,
              Registrations.get?_register] at hs'
            split at hs'
            · obtain rfl := Option.some.inj hs'
              exact UInt32.le_refl _
            · exact (hne id (h.subscribers s' id hs')).1
          · simp only [MuxRequests.registerSubscriber, Registrations.register,
              Hashtable.get?_put] at hs'
            split at hs'
            · next hid =>
              subst hid
              exact UInt32.le_refl _
            · exact (hne id (h.ids id s' hs')).1
          · exact (hne _ (h.unanswered r hr)).1
  | unregisterSubscriber s =>
      refine ⟨trivial, ?_⟩
      simp only [requestStep]
      split
      · refine ⟨h.unregister, Nat.le_of_eq ?_⟩
        exact congrArg UInt32.toNat Registrations.counter_unregister
      · exact hkeep t h rfl
  | requestNodeSubtrees upstream calledBy query tag =>
      refine ⟨trivial, ?_⟩
      simp only [requestStep]
      split
      · exact hkeep _ h.requested.1 h.requested.2
      · exact hkeep t h rfl
  | requestNodeValues upstream calledBy queryString optFilter flags tag =>
      refine ⟨trivial, ?_⟩
      simp only [requestStep]
      split
      · exact hkeep _ h.requested.1 h.requested.2
      · exact hkeep t h rfl
  | replied r data =>
      refine ⟨trivial, ?_⟩
      simp only [requestStep]
      split
      · have hsame : (t.gateway.subtreesRequestResultReturned nodeValues
            r.sentTag data).2.registrations = t.gateway.registrations :=
          subtreesRequestResultReturned_registrations
        refine hkeep _ ⟨?_, ?_, ?_⟩ hsame
        · rw [hsame]
          exact h.subscribers
        · rw [hsame]
          exact h.ids
        · rw [hsame]
          exact fun r' hr' => h.unanswered r' (List.mem_of_mem_erase hr')
      · exact hkeep t h rfl
  | connectionStateChanged isConnected =>
      refine ⟨trivial, ?_⟩
      simp only [requestStep, MuxRequests.connectionStateChanged]
      split
      · exact hkeep t h rfl
      · refine hkeep _ ⟨h.subscribers, h.ids, ?_⟩ rfl
        cases isConnected with
        | true => exact h.unanswered
        | false => simp

omit [DecidableEq φ] in
theorem idsBelow_initial : IDsBelow (.initial : Requests σ φ) :=
  ⟨by simp [Requests.initial, Registrations.nobody],
    by simp [Requests.initial, Registrations.nobody],
    by simp [Requests.initial]⟩

/-- Fewer than 2³² registrations give out no ID twice. -/
theorem IDsBelow.idIsFresh {es : List (RequestEvent σ φ D)} (h : IDsBelow t)
    (hroom : t.gateway.registrations.registrationIDCounter.toNat +
      es.countP RequestEvent.isRegistration < 4294967296) :
    Runs.StepsMeet (requestStep nodeValues) IDIsFresh t es := by
  induction es generalizing t with
  | nil => trivial
  | cons e es ih =>
      have hone : (if e.isRegistration = true then 1 else 0) =
          e.isRegistration.toNat := by
        cases e.isRegistration <;> rfl
      rw [List.countP_cons, hone] at hroom
      obtain ⟨hfresh, hbelow, hcounter⟩ := h.step nodeValues e (by omega)
      exact ⟨hfresh, ih hbelow (by omega)⟩

end Wrapping

/-- Any subtree. -/
def anySubtree : SubtreesQuery Unit := ⟨["*"], [], 10, {}⟩

/-- Two subscribers ask with the same tags, and one leaves before it is
answered. -/
def sameTags : List (RequestEvent ℕ Unit (List (String × ℕ))) :=
  [.connectionStateChanged true, .registerSubscriber 1, .registerSubscriber 2,
    .requestNodeSubtrees .noError 1 anySubtree "t",
    .requestNodeSubtrees .noError 1 anySubtree "t",
    .requestNodeValues .noError 2 "a" none {} "t",
    .requestNodeValues .badArgument 2 "b" none {} "_1_:t",
    .replied ⟨2, 2, .values, ⟨["a"], [], 1, {}⟩, "t"⟩ (some [("a", 5)]),
    .replied ⟨1, 1, .subtrees, anySubtree, "t"⟩ none,
    .unregisterSubscriber 1,
    .replied ⟨1, 1, .subtrees, anySubtree, "t"⟩ none]

theorem replies_go_back_of_fresh_sameTags :
    QueuesExact (Runs.run (requestStep id) .initial sameTags) ∧
      Runs.StepsMeet (requestStep id) (RepliesGoBack id) .initial sameTags :=
  replies_go_back_of_fresh id sameTags
    (idsBelow_initial.idIsFresh (by decide))

/-- The request of a subscriber that has left. -/
def leftRequest : Request ℕ Unit := ⟨1, 1, .subtrees, anySubtree, "t"⟩

/-- Nobody is registered, but a request is unanswered and `n` registration IDs
have been given out. -/
def afterRegistrations (n : ℕ) : Requests ℕ Unit where
  gateway := ⟨⟨.ofNat n, .empty, .empty⟩, true, .empty⟩
  unanswered := [leftRequest]

/-- A subscriber comes and goes. -/
def comingAndGoing : List (RequestEvent ℕ Unit (List (String × ℕ))) :=
  [.registerSubscriber 2, .unregisterSubscriber 2]

/-- Coming and going only counts. -/
theorem run_comingAndGoing (n k : ℕ) :
    Runs.run (requestStep id) (afterRegistrations k)
      (List.replicate n comingAndGoing).flatten =
        afterRegistrations (k + n) := by
  induction n generalizing k with
  | zero => rfl
  | succ n ih =>
      have hnext : UInt32.ofNat k + 1 = UInt32.ofNat (k + 1) := by simp
      have hback : ((⟨.ofNat k, .empty, .empty⟩ : Registrations ℕ).register
          2).unregister 2 = ⟨.ofNat k + 1, .empty, .empty⟩ :=
        Registrations.unregister_register rfl rfl
      have hround : Runs.run (requestStep id) (afterRegistrations k)
          comingAndGoing = afterRegistrations (k + 1) := by
        calc Runs.run (requestStep id) (afterRegistrations k) comingAndGoing
            = { afterRegistrations k with
                gateway := ((afterRegistrations k).gateway.registerSubscriber
                  2).unregisterSubscriber 2 } := rfl
          _ = afterRegistrations (k + 1) := by
              simp only [MuxRequests.unregisterSubscriber,
                MuxRequests.registerSubscriber, afterRegistrations, hback, hnext]
              rfl
      rw [List.replicate_succ, List.flatten_cons, Runs.run_append, hround, ih,
        Nat.add_right_comm]
      rfl

/-- A subscriber asks and leaves, and 2³² registrations later another one asks
with the same tag. -/
def sameID (n : ℕ) : List (RequestEvent ℕ Unit (List (String × ℕ))) :=
  [.connectionStateChanged true, .registerSubscriber 1,
    .requestNodeSubtrees .noError 1 anySubtree "t", .unregisterSubscriber 1] ++
  ((List.replicate n comingAndGoing).flatten ++
    [.registerSubscriber 2, .requestNodeSubtrees .noError 2 anySubtree "t",
      .replied leftRequest none])

/-- The reply to the one is told to the other. -/
theorem not_replies_go_back_sameID :
    ¬∀ es : List (RequestEvent ℕ Unit (List (String × ℕ))),
      QueuesExact (Runs.run (requestStep id) .initial es) ∧
        Runs.StepsMeet (requestStep id) (RepliesGoBack id) .initial es := by
  intro h
  obtain ⟨-, hback⟩ := h (sameID 4294967295)
  rw [sameID, Runs.stepsMeet_append] at hback
  obtain ⟨-, hback⟩ := hback
  have hleft : Runs.run (requestStep id) .initial
      [.connectionStateChanged true, .registerSubscriber 1,
        .requestNodeSubtrees .noError 1 anySubtree "t",
        (.unregisterSubscriber 1 : RequestEvent ℕ Unit
          (List (String × ℕ)))] = afterRegistrations 1 :=
    rfl
  rw [hleft, Runs.stepsMeet_append, run_comingAndGoing] at hback
  obtain ⟨-, -, -, hreply, -⟩ := hback
  exact absurd hreply (by decide)

end ZgChoir.SubtreeRequests
