import ZgChoir.SymlinkResolver

/-!
# The tables of links over a whole run

The resolver's two tables are each other's inverse in every state that a
gateway can reach.  They agree with the resolver's subscriptions upstream as
long as upstream lets go of everything when the connection is lost, and no
shutdown takes a subscription away that the tables still need
(`tablesAgree_iff_letsGo`).

A `MuxTreeGateway` upstream lets go of the subscriptions that stand in its
subscriber's own table as they stand in its queues
(`letsGo_of_inOwnTable`); a target with a slash in front does not.
-/

namespace ZgChoir.Symlinks

open MuxSubscriptions MuxNotifications

/-- **The tables of the links agree** with each other and with upstream: a
path is a link to a target exactly if it is among the target's links, every
target has some, and the resolver is subscribed to the targets and to nothing
else. -/
def TablesAgree {M : Type} (r : SymlinkResolver M) : Prop :=
  (∀ p t, r.symlinks.get? p = some t ↔ ∃ sstate,
    r.reverseSymlinks.get? t = some sstate ∧ p ∈ sstate.sourcePaths.keys) ∧
  (∀ t sstate, r.reverseSymlinks.get? t = some sstate →
    sstate.sourcePaths.entries ≠ []) ∧
  ∀ t, t ∈ r.treeSubscriptions ↔ t ∈ r.reverseSymlinks.keys

section Runs

variable {σ φ M : Type} [DecidableEq σ] {rules : PathMatching φ M}
  {symlinkField : M → String} {t : SymlinkGateway σ φ M}
  {I : SymlinkResolver M → Prop}

/-- The condition on a step: when the connection is lost, upstream lets go of
all targets; and the resolver is given another gateway only while there is
none. -/
def LetsGo (t : SymlinkGateway σ φ M) : SymlinkEvent σ φ M → Prop
  | .connectionStateChanged isConnected left => isConnected = false →
      ∀ target ∈ t.symlinkResolver.reverseSymlinks.keys, left target = false
  | .resolverSetGateway => t.symlinkResolver.reverseSymlinks.keys = []
  | _ => True

omit [DecidableEq σ] in
theorem kept_flushDroppedSymlinkPaths {r : SymlinkResolver M}
    {st : MuxState σ φ} {inInitialMode : Bool} {dropped : List String}
    (hkept : SymlinkResolver.Kept I) (h : I r) :
    I (flushDroppedSymlinkPaths rules symlinkField st inInitialMode dropped
      r) := by
  unfold flushDroppedSymlinkPaths
  refine List.foldlRecOn (motive := I) _ _ h ?_
  intro r hr droppedPath _
  split
  · exact hr
  · exact hkept.filterTreeNodeUpdate hr

variable [DecidableEq φ]

/-- Most steps are made of changes of single links and targets. -/
theorem kept_symlinkStep {e : SymlinkEvent σ φ M}
    (hkept : SymlinkResolver.Kept I) (h : I t.symlinkResolver)
    (hconnection : ∀ isConnected left,
      e = .connectionStateChanged isConnected left →
        I (t.symlinkResolver.connectionStateChanged isConnected left))
    (hgateway : e = .resolverSetGateway → I t.symlinkResolver.setGateway) :
    I (symlinkStep rules symlinkField t e).symlinkResolver := by
  cases e with
  | treeNodeUpdated added nodePath payloadMsg optOpTag =>
      exact hkept.filterTreeNodeUpdate h
  | targetUpdated nodePath optPayloadMsg optOpTag =>
      exact hkept.treeNodeUpdated nodePath optPayloadMsg optOpTag h
  | unregisterSubscriber answers s =>
      exact kept_flushDroppedSymlinkPaths hkept h
  | removeSubscription answer calledBy path filter flags =>
      exact kept_flushDroppedSymlinkPaths hkept h
  | removeAllSubscriptions answers calledBy =>
      exact kept_flushDroppedSymlinkPaths hkept h
  | connectionStateChanged isConnected left =>
      exact hconnection isConnected left rfl
  | resolverSetGateway => exact hgateway rfl
  | registerSubscriber s => exact h
  | addSubscription pathPut answer calledBy path filter flags => exact h
  | localPeerPonged allowed => exact h
  | muxConnected answers => exact h
  | muxDisconnected answer => exact h
  | muxSetGateway => exact h
  | tablesCleared => exact h

theorem tablesInverse_symlinkStep {e : SymlinkEvent σ φ M}
    (h : t.symlinkResolver.TablesInverse) :
    (symlinkStep rules symlinkField t e).symlinkResolver.TablesInverse :=
  kept_symlinkStep SymlinkResolver.kept_tablesInverse h
    (fun _ _ _ => h.connectionStateChanged) fun _ => h.setGateway

theorem inverse_symlinkStep {e : SymlinkEvent σ φ M}
    (h : t.symlinkResolver.Inverse) (hletsGo : LetsGo t e) :
    (symlinkStep rules symlinkField t e).symlinkResolver.Inverse := by
  apply kept_symlinkStep SymlinkResolver.kept_inverse h
  · intro isConnected left he
    subst he
    refine ⟨h.toTablesInverse.connectionStateChanged, ?_⟩
    cases isConnected with
    | true => exact h.toSubscribedToTargets
    | false => exact h.subscribed_connectionLost (hletsGo rfl)
  · intro he
    subst he
    exact ⟨h.toTablesInverse.setGateway,
      SymlinkResolver.subscribed_setGateway hletsGo⟩

/-- A step that does not let go leaves the tables at odds with upstream. -/
theorem letsGo_of_tablesAgree {e : SymlinkEvent σ φ M}
    (h : t.symlinkResolver.Inverse)
    (hagree : TablesAgree
      (symlinkStep rules symlinkField t e).symlinkResolver) :
    LetsGo t e := by
  obtain ⟨-, -, hsubscribed⟩ := hagree
  cases e with
  | connectionStateChanged isConnected left =>
      intro hlost target htarget
      subst hlost
      have hgone : target ∉ t.symlinkResolver.treeSubscriptions.filter left :=
        fun hmem => List.not_mem_nil ((hsubscribed target).mp hmem)
      simpa [(h.subscribed target).mpr htarget] using hgone
  | resolverSetGateway =>
      apply List.eq_nil_iff_forall_not_mem.mpr
      intro target htarget
      exact List.not_mem_nil ((hsubscribed target).mpr htarget)
  | _ => trivial

variable (rules symlinkField) in
/-- **The tables of the links**, over a whole run: they agree with each other
and with upstream in every state exactly if at each step upstream lets go of
what the step is to let go of. -/
theorem tablesAgree_iff_letsGo (mux : MuxGateway σ φ)
    (es : List (SymlinkEvent σ φ M)) :
    (∀ past, past <+: es → TablesAgree (Runs.run
      (symlinkStep rules symlinkField) ⟨mux, .empty⟩ past).symlinkResolver) ↔
      Runs.StepsMeet (symlinkStep rules symlinkField) LetsGo ⟨mux, .empty⟩
        es := by
  apply Runs.always_iff_stepsMeet_of
    (I := fun t : SymlinkGateway σ φ M => t.symlinkResolver.Inverse)
    (P := fun t : SymlinkGateway σ φ M => TablesAgree t.symlinkResolver)
  · exact SymlinkResolver.inverse_empty
  · intro t h
    exact ⟨h.inverse, h.nonempty, h.subscribed⟩
  · intro t e h hletsGo
    exact inverse_symlinkStep h hletsGo
  · intro t e h hagree
    exact letsGo_of_tablesAgree h hagree

variable (rules symlinkField) in
/-- The two tables are each other's inverse whatever happens. -/
theorem tablesInverse_run (mux : MuxGateway σ φ)
    (es : List (SymlinkEvent σ φ M)) :
    (Runs.run (symlinkStep rules symlinkField) ⟨mux, .empty⟩
      es).symlinkResolver.TablesInverse :=
  Runs.run_invariant
    (I := fun t : SymlinkGateway σ φ M => t.symlinkResolver.TablesInverse)
    SymlinkResolver.inverse_empty.toTablesInverse fun _ _ h =>
      tablesInverse_symlinkStep h

end Runs

/-! ## A gateway upstream that may not let go -/

section Upstream

variable {ρ ψ N : Type} [DecidableEq ρ] [DecidableEq ψ]

/-- The paths that a `MuxTreeGateway` upstream leaves its subscriber `s`
subscribed to, asked to remove all. -/
def leftSubscribed (rules : PathMatching ψ N) (s : ρ) (st : MuxState ρ ψ)
    (path : String) : Bool :=
  ((removeAllSubscriptions rules (fun _ => .ok) s st).1.queue path).any
    fun info => decide (info.sub = s)

/-- It leaves none where the subscriptions stand in the subscriber's own table
as they do in the queues. -/
theorem leftSubscribed_eq_false {rules : PathMatching ψ N} {s : ρ}
    {st : MuxState ρ ψ} (h : Sound st) (hown : InOwnTable s st)
    (path : String) : leftSubscribed rules s st path = false := by
  obtain ⟨-, -, hqueue⟩ := removeAllSubscriptions_spec rules h hown
  simp only [leftSubscribed, hqueue, List.any_eq_false]
  intro info hinfo
  simpa using (List.mem_filter.mp hinfo).2

theorem letsGo_of_inOwnTable {σ φ M : Type} {rules : PathMatching ψ N}
    {s : ρ} {st : MuxState ρ ψ} (h : Sound st) (hown : InOwnTable s st)
    (t : SymlinkGateway σ φ M) (isConnected : Bool) :
    LetsGo t (.connectionStateChanged isConnected
      (leftSubscribed rules s st)) :=
  fun _ target _ => leftSubscribed_eq_false h hown target

end Upstream

/-- A gateway that nobody has registered with. -/
def freshGateway : SymlinkGateway ℕ ℕ ℕ where
  mux :=
    { uniqueID := 42
      registrations := Registrations.nobody
      tables := .initial true
      allowedCallbacks := .empty }
  symlinkResolver := .empty

/-- Payloads that name a node, with a slash in front or without. -/
def slashTarget (msg : ℕ) : String :=
  if msg = 0 then "b" else if msg = 1 then "/a" else ""

/-- A subscriber of "p" hears of the link there. -/
def oneLink (msg : ℕ) : List (SymlinkEvent ℕ ℕ ℕ) :=
  [.registerSubscriber 1, .addSubscription true .ok 1 "p" none {},
    .treeNodeUpdated .noError "p" (some msg) ""]

/-- Upstream shuts down; of the target, which is missing, the subscriber has
never been told. -/
def shutdown : List (SymlinkEvent ℕ ℕ ℕ) :=
  oneLink 0 ++
    [.unregisterSubscriber (fun _ => .ok) 1, .muxSetGateway,
      .resolverSetGateway]

/-- The resolver as a subscriber of another gateway, to the target "/a". -/
def slashUpstream : MuxState ℕ ℕ :=
  (addSubscription plainRules true .ok 0 "/a" none {}
    (registerSubscriber 0 (.initial true))).2

/-- The connection is lost. -/
def lostConnection : List (SymlinkEvent ℕ ℕ ℕ) :=
  oneLink 1 ++
    [.connectionStateChanged false (leftSubscribed plainRules 0 slashUpstream)]

/-- After the shutdown the tables still have a target; and after the
connection was lost there is still a subscription to one that they do not
have. -/
theorem not_tablesAgree_shutdown_lostConnection :
    (¬ ∀ es, TablesAgree (Runs.run (symlinkStep plainRules slashTarget)
      freshGateway es).symlinkResolver) ∧
      ¬TablesAgree (Runs.run (symlinkStep plainRules slashTarget) freshGateway
        shutdown).symlinkResolver ∧
      ¬TablesAgree (Runs.run (symlinkStep plainRules slashTarget) freshGateway
        lostConnection).symlinkResolver := by
  have hshutdown : ¬TablesAgree (Runs.run (symlinkStep plainRules slashTarget)
      freshGateway shutdown).symlinkResolver := by
    intro h
    obtain ⟨-, -, hsubscribed⟩ := h
    have hheld := (hsubscribed "b").mpr (by decide)
    exact absurd hheld (by decide)
  refine ⟨fun h => hshutdown (h shutdown), hshutdown, fun h => ?_⟩
  obtain ⟨-, -, hsubscribed⟩ := h
  have htarget := (hsubscribed "/a").mp (by decide)
  exact absurd htarget (by decide)

end ZgChoir.Symlinks
