import ZgChoir.DeletionReports

/-!
# Symbolic links in the message tree

A node whose payload names another node is a symbolic link.  A
`SymlinkLogicMuxTreeGateway` hides such payloads from its subscribers: its
resolver subscribes to the target of a link and hands the target's payload on
under the path of the link.

The resolver keeps two tables.  `_symlinks` has the target of each link;
`_reverseSymlinks` has for each target the links that point at it, and the
payload that came last.  Both change with every update of a link, and when
nobody is subscribed to a link any more.  In every state they are each other's
inverse.

The targets are what the resolver is subscribed to as long as its gateway
upstream stays what it is.  When that shuts down, the resolver's subscriptions
are gone, and its tables stay; when the connection is lost the tables are
cleared, and upstream is asked to remove all subscriptions, of which it may
leave some.  While neither happens to a target, the tables and the
subscriptions agree.
-/

namespace ZgChoir.Symlinks

open MuxSubscriptions MuxNotifications

structure SymlinkState (M : Type) where
  sourcePaths : Hashtable String Unit
  payload : Option M

/-- A `SymlinkResolver`, and the subscriptions that it holds upstream: one for
each time that it has made one with success, until it is taken back. -/
structure SymlinkResolver (M : Type) where
  symlinks : Hashtable String String
  reverseSymlinks : Hashtable String (SymlinkState M)
  treeSubscriptions : List String

/-- What the resolver asks of upstream, and hands on to its gateway. -/
inductive ResolverCall (M : Type) where
  | addTreeSubscription (path : String)
  | removeTreeSubscription (path : String)
  | treeNodeUpdated (path : String) (payload : Option M) (optOpTag : String)

namespace SymlinkResolver

variable {M : Type} (r : SymlinkResolver M)

/-- Nothing is known of any links. -/
def empty : SymlinkResolver M := ⟨.empty, .empty, []⟩

/-- `HasSymlink` -/
def HasSymlink (nodePath : String) : Prop := nodePath ∈ r.symlinks.keys

instance decidableHasSymlink (nodePath : String) :
    Decidable (r.HasSymlink nodePath) :=
  inferInstanceAs (Decidable (_ ∈ _))

/-- `RemoveSymlink` -/
def removeSymlink (nodePath : String) :
    Status × SymlinkResolver M × List (ResolverCall M) :=
  match r.symlinks.get? nodePath with
  | none => (.dataNotFound, r, [])
  | some symDest =>
      let symlinks := r.symlinks.remove nodePath
      match r.reverseSymlinks.get? symDest with
      | none => (.noError, { r with symlinks }, [])
      | some sstate =>
          let sourcePaths := sstate.sourcePaths.remove nodePath
          if nodePath ∈ sstate.sourcePaths.keys ∧ sourcePaths.entries = [] then
            (.noError,
              { symlinks
                reverseSymlinks := r.reverseSymlinks.remove symDest
                treeSubscriptions := r.treeSubscriptions.erase symDest },
              [.removeTreeSubscription symDest])
          else
            (.noError,
              { r with
                symlinks
                reverseSymlinks :=
                  r.reverseSymlinks.put symDest { sstate with sourcePaths } },
              [])

/-- `PutSymlink`; `added` is what `AddTreeSubscription` says, if it is
called. -/
def putSymlink (added : Status) (nodePath symDest : String) :
    Status × SymlinkResolver M × List (ResolverCall M) :=
  let sstate := (r.reverseSymlinks.get? symDest).getD ⟨.empty, none⟩
  let sourcePaths := sstate.sourcePaths.put nodePath ()
  if sstate.sourcePaths.entries ≠ [] then
    (.noError,
      { r with
        symlinks := r.symlinks.put nodePath symDest
        reverseSymlinks :=
          r.reverseSymlinks.put symDest { sstate with sourcePaths } },
      if sstate.payload.isSome = true then
        [.treeNodeUpdated nodePath sstate.payload ""]
      else [])
  else if added.isOK = true then
    (.noError,
      { symlinks := r.symlinks.put nodePath symDest
        reverseSymlinks :=
          r.reverseSymlinks.put symDest { sstate with sourcePaths }
        treeSubscriptions := r.treeSubscriptions ++ [symDest] },
      [.addTreeSubscription symDest])
  else
    -- something went wrong: whatever has been done is rolled back
    (added,
      { r with
        symlinks := (r.symlinks.put nodePath symDest).remove nodePath
        reverseSymlinks :=
          if symDest ∈ r.reverseSymlinks.keys then
            r.reverseSymlinks.put symDest
              { sstate with sourcePaths := sourcePaths.remove nodePath }
          else (r.reverseSymlinks.put symDest
            { sstate with sourcePaths }).remove symDest },
      [.addTreeSubscription symDest])

/-- `SymlinkResolver::TreeNodeUpdated`: news of a target are news of the links
that point at it. -/
def treeNodeUpdated (nodePath : String) (optPayloadMsg : Option M)
    (optOpTag : String) : SymlinkResolver M × List (ResolverCall M) :=
  match r.reverseSymlinks.get? nodePath with
  | none => (r, [])
  | some sstate =>
      ({ r with
          reverseSymlinks := r.reverseSymlinks.put nodePath
            { sstate with payload := optPayloadMsg } },
        sstate.sourcePaths.keys.map fun sourcePath =>
          .treeNodeUpdated sourcePath optPayloadMsg optOpTag)

/-- What a payload says in `SYMLINK_FIELD_NAME`. -/
def symlinkPath (symlinkField : M → String) (payloadMsg : Option M) : String :=
  payloadMsg.elim "" symlinkField

/-- The tables follow a link. -/
def updateSymlink (added : Status) (nodePath newSymLinkPath : String) :
    SymlinkResolver M × List (ResolverCall M) :=
  let oldSymLinkPath := (r.symlinks.get? nodePath).getD ""
  if newSymLinkPath ≠ oldSymLinkPath then
    let removed := if oldSymLinkPath ≠ "" then (r.removeSymlink nodePath).2
      else (r, [])
    let put := if newSymLinkPath ≠ "" then
        (removed.1.putSymlink added nodePath newSymLinkPath).2
      else (removed.1, [])
    (put.1, removed.2 ++ put.2)
  else (r, [])

/-- `FilterTreeNodeUpdate`: whether the update is kept from the subscribers, who
are not to see the payload of a link. -/
def filterTreeNodeUpdate (symlinkField : M → String) (added : Status)
    (nodePath : String) (payloadMsg : Option M) (optOpTag : String)
    (inInitialMode : Bool) :
    Bool × SymlinkResolver M × List (ResolverCall M) :=
  let newSymLinkPath := symlinkPath symlinkField payloadMsg
  let updated := r.updateSymlink added nodePath newSymLinkPath
  if newSymLinkPath ≠ "" then
    match inInitialMode, updated.1.reverseSymlinks.get? newSymLinkPath with
    | true, some ⟨_, some payload⟩ =>
        let told :=
          updated.1.treeNodeUpdated newSymLinkPath (some payload) optOpTag
        (true, told.1, updated.2 ++ told.2)
    | _, _ => (true, updated)
  else (false, updated)

/-- `TreeGatewayConnectionStateChanged`; upstream is asked to remove all
subscriptions, and `left` are the paths whose subscriptions it leaves. -/
def connectionStateChanged (isConnected : Bool) (left : String → Bool) :
    SymlinkResolver M :=
  if isConnected = false then
    { SymlinkResolver.empty with
      treeSubscriptions := r.treeSubscriptions.filter left }
  else r

/-- `SetGateway`, to the dummy gateway or to another one: the gateway that the
resolver leaves forgets its subscriptions, and the tables stay. -/
def setGateway : SymlinkResolver M := { r with treeSubscriptions := [] }

end SymlinkResolver

/-! ## The gateway -/

/-- A `SymlinkLogicMuxTreeGateway`.  The dropped paths of links are flushed in
the call that has dropped them. -/
structure SymlinkGateway (σ φ M : Type) where
  mux : MuxGateway σ φ
  symlinkResolver : SymlinkResolver M

/-- What happens to a gateway; `added` is what upstream says to
`AddTreeSubscription`. -/
inductive SymlinkEvent (σ φ M : Type) where
  | treeNodeUpdated (added : Status) (nodePath : String)
      (payloadMsg : Option M) (optOpTag : String)
  | targetUpdated (nodePath : String) (optPayloadMsg : Option M)
      (optOpTag : String)
  | registerSubscriber (s : σ)
  | unregisterSubscriber (answers : String → Answer) (s : σ)
  | addSubscription (pathPut : Bool) (answer : Answer) (calledBy : σ)
      (path : String) (filter : Option φ) (flags : TreeGatewayFlags)
  | removeSubscription (answer : Answer) (calledBy : σ) (path : String)
      (filter : Option φ) (flags : TreeGatewayFlags)
  | removeAllSubscriptions (answers : String → Answer) (calledBy : σ)
  | localPeerPonged (allowed : Hashtable (Option σ) Unit)
  | muxConnected (answers : String → Answer)
  | muxDisconnected (answer : Answer)
  | connectionStateChanged (isConnected : Bool) (left : String → Bool)
  /-- upstream shuts down, and sets the resolver's gateway to the dummy -/
  | resolverSetGateway
  /-- the same for the gateway itself; its user may do it as well -/
  | muxSetGateway
  /-- the end of `MuxTreeGateway::ShutdownGateway`, with nobody registered any
  more -/
  | tablesCleared

section Gateway

variable {σ φ M : Type} [DecidableEq σ] (rules : PathMatching φ M)
  (symlinkField : M → String)

/-- `IsAnyoneSubscribedToPath` -/
def IsAnyoneSubscribedToPath (st : MuxState σ φ) (path : String) : Prop :=
  ∃ e ∈ st.subscriberInfos.entries, ∃ info ∈ e.2,
    info.MatchesPath rules path (none : Option M)

instance decidableIsAnyoneSubscribedToPath (st : MuxState σ φ)
    (path : String) : Decidable (IsAnyoneSubscribedToPath rules st path) :=
  inferInstanceAs (Decidable (∃ _ ∈ _, ∃ _ ∈ _, _))

/-- What the resolver hands on goes to the subscribers. -/
def handOn (mux : MuxGateway σ φ) (calls : List (ResolverCall M)) :
    MuxGateway σ φ :=
  calls.foldl (fun mux call =>
    match call with
    | .treeNodeUpdated path payload optOpTag =>
        (mux.notify rules (.nodeUpdated path payload) optOpTag).2
    | _ => mux) mux

/-- `FlushDroppedSymlinkPaths`, with the paths that `ReceivedPathDropped` has
put down. -/
def flushDroppedSymlinkPaths (st : MuxState σ φ) (inInitialMode : Bool)
    (dropped : List String) (r : SymlinkResolver M) : SymlinkResolver M :=
  let droppedSymlinkPaths := dropped.foldl
    (fun t path => if r.HasSymlink path then t.put path () else t)
    (.empty : Hashtable String Unit)
  droppedSymlinkPaths.keys.foldl (fun r droppedPath =>
    if IsAnyoneSubscribedToPath rules st droppedPath then r
    else (r.filterTreeNodeUpdate symlinkField .noError droppedPath none ""
      inInitialMode).2.1) r

variable [DecidableEq φ]

/-- One event. -/
def symlinkStep (t : SymlinkGateway σ φ M) :
    SymlinkEvent σ φ M → SymlinkGateway σ φ M
  | .treeNodeUpdated added nodePath payloadMsg optOpTag =>
      let filtered := t.symlinkResolver.filterTreeNodeUpdate symlinkField added
        nodePath payloadMsg optOpTag (!t.mux.allowedCallbacks.entries.isEmpty)
      let mux := handOn rules t.mux filtered.2.2
      { mux := if filtered.1 = true then mux
          else (mux.notify rules (.nodeUpdated nodePath payloadMsg) optOpTag).2
        symlinkResolver := filtered.2.1 }
  | .targetUpdated nodePath optPayloadMsg optOpTag =>
      let updated :=
        t.symlinkResolver.treeNodeUpdated nodePath optPayloadMsg optOpTag
      { mux := handOn rules t.mux updated.2
        symlinkResolver := updated.1 }
  | .registerSubscriber s =>
      { t with mux := { t.mux with
          registrations := t.mux.registrations.register s
          tables := registerSubscriber s t.mux.tables } }
  | .unregisterSubscriber answers s =>
      let removed := removeAllSubscriptions rules answers s t.mux.tables
      { mux := { t.mux with
          registrations := t.mux.registrations.unregister s
          tables := (unregisterSubscriber rules answers s t.mux.tables).1
          allowedCallbacks :=
            if (t.mux.allowedCallbacks.get? (some s)).isSome = true then
              (t.mux.allowedCallbacks.remove (some s)).put none ()
            else t.mux.allowedCallbacks }
        symlinkResolver := flushDroppedSymlinkPaths rules symlinkField removed.1
          (!t.mux.allowedCallbacks.entries.isEmpty) removed.2
          t.symlinkResolver }
  | .addSubscription pathPut answer calledBy path filter flags =>
      { t with mux := { t.mux with
          tables := (addSubscription rules pathPut answer calledBy path filter
            flags t.mux.tables).2 } }
  | .removeSubscription answer calledBy path filter flags =>
      let removed := removeSubscription rules answer calledBy path filter flags
        t.mux.tables
      { mux := { t.mux with tables := removed.2.1 }
        symlinkResolver := flushDroppedSymlinkPaths rules symlinkField
          removed.2.1 (!t.mux.allowedCallbacks.entries.isEmpty) removed.2.2
          t.symlinkResolver }
  | .removeAllSubscriptions answers calledBy =>
      let removed := removeAllSubscriptions rules answers calledBy t.mux.tables
      { mux := { t.mux with tables := removed.1 }
        symlinkResolver := flushDroppedSymlinkPaths rules symlinkField removed.1
          (!t.mux.allowedCallbacks.entries.isEmpty) removed.2
          t.symlinkResolver }
  | .localPeerPonged allowed =>
      { t with mux := { t.mux with allowedCallbacks := allowed } }
  | .muxConnected answers =>
      { t with mux := { t.mux with
          tables := gatewayConnected answers t.mux.tables } }
  | .muxDisconnected answer =>
      { t with mux := { t.mux with
          tables := gatewayDisconnected answer t.mux.tables } }
  | .connectionStateChanged isConnected left =>
      { t with
        symlinkResolver :=
          t.symlinkResolver.connectionStateChanged isConnected left }
  | .resolverSetGateway =>
      { t with symlinkResolver := t.symlinkResolver.setGateway }
  | .muxSetGateway =>
      { t with mux := { t.mux with
          tables := { t.mux.tables with upstream := fun _ => none } } }
  | .tablesCleared =>
      { t with mux := { t.mux with
          tables := { t.mux.tables with
            subscriberInfos := .empty
            subscribedStrings := .empty } } }

end Gateway

/-! ## The tables -/

namespace SymlinkResolver

variable {M : Type} {r r' : SymlinkResolver M} {p q t nodePath : String}
  {sstate : SymlinkState M}

/-- A link points at a target, by the target's entry. -/
def PointsAt (r : SymlinkResolver M) (p t : String) : Prop :=
  ∃ sstate, r.reverseSymlinks.get? t = some sstate ∧
    p ∈ sstate.sourcePaths.keys

/-- The two tables say the same, and no target is without links. -/
structure TablesInverse (r : SymlinkResolver M) : Prop where
  inverse p t : r.symlinks.get? p = some t ↔ r.PointsAt p t
  nonempty t sstate : r.reverseSymlinks.get? t = some sstate →
    sstate.sourcePaths.entries ≠ []
  named p : r.symlinks.get? p ≠ some ""

/-- The targets are what the resolver is subscribed to, once each. -/
structure SubscribedToTargets (r : SymlinkResolver M) : Prop where
  nodup : r.treeSubscriptions.Nodup
  subscribed t : t ∈ r.treeSubscriptions ↔ t ∈ r.reverseSymlinks.keys

/-- The tables are in order, and upstream knows. -/
structure Inverse (r : SymlinkResolver M) : Prop extends
  TablesInverse r, SubscribedToTargets r

/-- Without links there is nothing to say. -/
theorem tablesInverse_of_empty (hsymlinks : r.symlinks = .empty)
    (hreverse : r.reverseSymlinks = .empty) : r.TablesInverse := by
  refine ⟨fun p t => ?_, fun t sstate h => ?_, fun p => ?_⟩
  · simp [PointsAt, hsymlinks, hreverse]
  · simp [hreverse] at h
  · simp [hsymlinks]

theorem inverse_empty : (empty : SymlinkResolver M).Inverse :=
  ⟨tablesInverse_of_empty rfl rfl, List.nodup_nil, fun _ => Iff.rfl⟩

/-- The same subscriptions for the same targets. -/
theorem SubscribedToTargets.put {symlinks : Hashtable String String}
    (h : r.SubscribedToTargets) (hold : t ∈ r.reverseSymlinks.keys) :
    (⟨symlinks, r.reverseSymlinks.put t sstate, r.treeSubscriptions⟩ :
      SymlinkResolver M).SubscribedToTargets := by
  refine ⟨h.nodup, fun q => ?_⟩
  rw [h.subscribed, Hashtable.mem_keys_put]
  constructor
  · exact .inr
  · intro hq
    exact hq.elim (fun hsame => hsame ▸ hold) id

/-- An entry that is put has the links that it says, and no other entry
changes. -/
theorem pointsAt_put {symlinks : Hashtable String String}
    {treeSubscriptions : List String} :
    (⟨symlinks, r.reverseSymlinks.put t sstate, treeSubscriptions⟩ :
      SymlinkResolver M).PointsAt p q ↔
        if q = t then p ∈ sstate.sourcePaths.keys else r.PointsAt p q := by
  unfold PointsAt
  simp only [Hashtable.get?_put]
  split
  · simp
  · rfl

theorem pointsAt_iff (hget : r.reverseSymlinks.get? t = some sstate) :
    r.PointsAt p t ↔ p ∈ sstate.sourcePaths.keys := by
  simp [PointsAt, hget]

/-- A link points at one target. -/
theorem TablesInverse.unique (h : r.TablesInverse) (ht : r.PointsAt p t)
    (hq : r.PointsAt p q) : q = t := by
  have htarget := (h.inverse p t).mpr ht
  rw [(h.inverse p q).mpr hq] at htarget
  exact Option.some.inj htarget

/-- The table of the links when one goes. -/
theorem TablesInverse.get?_remove (h : r.TablesInverse) :
    (r.symlinks.remove nodePath).get? p = some t ↔
      p ≠ nodePath ∧ r.PointsAt p t := by
  rw [Hashtable.get?_remove]
  split
  · next hp => simp [hp]
  · next hp => simp [hp, h.inverse p t]

theorem TablesInverse.named_remove (h : r.TablesInverse) (p : String) :
    (r.symlinks.remove nodePath).get? p ≠ some "" := by
  rw [Hashtable.get?_remove]
  split
  · simp
  · exact h.named p

/-- An entry that is put with links leaves no target without. -/
theorem TablesInverse.nonempty_put (h : r.TablesInverse)
    (hlinks : sstate.sourcePaths.entries ≠ []) {other : SymlinkState M}
    (hq : (r.reverseSymlinks.put t sstate).get? q = some other) :
    other.sourcePaths.entries ≠ [] := by
  rw [Hashtable.get?_put] at hq
  split at hq
  · obtain rfl := Option.some.inj hq
    exact hlinks
  · exact h.nonempty q other hq

/-- The last link of a target takes the target's entry with it. -/
theorem TablesInverse.removeLast {treeSubscriptions : List String}
    (h : r.TablesInverse) (hlink : r.PointsAt nodePath t)
    (hget : r.reverseSymlinks.get? t = some sstate)
    (hlast : (sstate.sourcePaths.remove nodePath).entries = []) :
    (⟨r.symlinks.remove nodePath, r.reverseSymlinks.remove t,
      treeSubscriptions⟩ : SymlinkResolver M).TablesInverse := by
  have honly : ∀ p ∈ sstate.sourcePaths.keys, p = nodePath := by
    intro p hp
    by_contra hne
    have hleft : p ∈ (sstate.sourcePaths.remove nodePath).keys := by
      simp [hp, hne]
    simp [Hashtable.keys, hlast] at hleft
  refine ⟨fun p q => ?_, fun q other hq => ?_, h.named_remove⟩
  · rw [h.get?_remove]
    constructor
    · intro hp
      obtain ⟨hne, other, hother, hp⟩ := hp
      refine ⟨other, ?_, hp⟩
      rw [Hashtable.get?_remove, if_neg, hother]
      intro hq
      rw [hq, hget] at hother
      obtain rfl := Option.some.inj hother
      exact hne (honly p hp)
    · intro hp
      obtain ⟨other, hother, hp⟩ := hp
      rw [Hashtable.get?_remove] at hother
      split at hother
      · simp at hother
      · next hq =>
        refine ⟨?_, other, hother, hp⟩
        intro hsame
        rw [hsame] at hp
        exact hq (h.unique hlink ⟨other, hother, hp⟩)
  · rw [Hashtable.get?_remove] at hq
    split at hq
    · simp at hq
    · exact h.nonempty q other hq

/-- Any other link leaves the entry to the rest. -/
theorem TablesInverse.removeOther {treeSubscriptions : List String}
    (h : r.TablesInverse) (hlink : r.PointsAt nodePath t)
    (hget : r.reverseSymlinks.get? t = some sstate)
    (hothers : (sstate.sourcePaths.remove nodePath).entries ≠ []) :
    (⟨r.symlinks.remove nodePath, r.reverseSymlinks.put t
      { sstate with sourcePaths := sstate.sourcePaths.remove nodePath },
        treeSubscriptions⟩ : SymlinkResolver M).TablesInverse := by
  refine ⟨fun p q => ?_, fun q other => h.nonempty_put hothers,
    h.named_remove⟩
  rw [h.get?_remove, pointsAt_put]
  split
  · next hq =>
    rw [hq, pointsAt_iff hget]
    simp [and_comm]
  · next hq =>
    refine and_iff_right_of_imp fun hp hsame => ?_
    rw [hsame] at hp
    exact hq (h.unique hlink hp)

/-- **A link that is removed** is out of both tables. -/
theorem TablesInverse.removeSymlink (h : r.TablesInverse) :
    (r.removeSymlink nodePath).2.1.TablesInverse ∧
      (r.removeSymlink nodePath).2.1.symlinks.get? nodePath = none := by
  unfold SymlinkResolver.removeSymlink
  cases hlink : r.symlinks.get? nodePath with
  | none => exact ⟨h, hlink⟩
  | some symDest =>
      have hpoints : r.PointsAt nodePath symDest :=
        (h.inverse nodePath symDest).mp hlink
      obtain ⟨sstate, hsstate, hmem⟩ := hpoints
      simp only [hsstate]
      split
      · next hlast =>
        refine ⟨h.removeLast ?_ hsstate hlast.2, by simp⟩
        exact ⟨sstate, hsstate, hmem⟩
      · next hothers =>
        refine ⟨h.removeOther ?_ hsstate fun hnone => hothers ⟨hmem, hnone⟩,
          by simp⟩
        exact ⟨sstate, hsstate, hmem⟩

/-- A target goes with its subscription, and no other. -/
theorem Inverse.removeSymlink (h : r.Inverse) :
    (r.removeSymlink nodePath).2.1.Inverse ∧
      (r.removeSymlink nodePath).2.1.symlinks.get? nodePath = none := by
  obtain ⟨htables, hnone⟩ :
      (r.removeSymlink nodePath).2.1.TablesInverse ∧
        (r.removeSymlink nodePath).2.1.symlinks.get? nodePath = none :=
    h.toTablesInverse.removeSymlink
  refine ⟨⟨htables, ?_⟩, hnone⟩
  unfold SymlinkResolver.removeSymlink
  cases hlink : r.symlinks.get? nodePath with
  | none => exact h.toSubscribedToTargets
  | some symDest =>
      obtain ⟨sstate, hsstate, -⟩ := (h.inverse nodePath symDest).mp hlink
      simp only [hsstate]
      split
      · refine ⟨h.nodup.erase symDest, fun t => ?_⟩
        rw [h.nodup.mem_erase_iff, h.subscribed]
        simp [and_comm]
      · exact h.toSubscribedToTargets.put (Hashtable.mem_keys_of_get? hsstate)

variable (sstate) in
/-- A link gets into the entry of its target, which may be new. -/
theorem TablesInverse.put {treeSubscriptions : List String}
    (h : r.TablesInverse) (hnew : r.symlinks.get? nodePath = none)
    (hnamed : t ≠ "")
    (hsources : ∀ p, p ∈ sstate.sourcePaths.keys ↔ r.PointsAt p t) :
    (⟨r.symlinks.put nodePath t, r.reverseSymlinks.put t
      { sstate with sourcePaths := sstate.sourcePaths.put nodePath () },
        treeSubscriptions⟩ : SymlinkResolver M).TablesInverse := by
  have hnowhere : ∀ q, ¬r.PointsAt nodePath q := by
    intro q hq
    have hlink := (h.inverse nodePath q).mpr hq
    simp [hnew] at hlink
  have hlinks : (sstate.sourcePaths.put nodePath ()).entries ≠ [] := by
    intro hnone
    have hmem : nodePath ∈ (sstate.sourcePaths.put nodePath ()).keys := by
      simp
    rw [Hashtable.keys, hnone] at hmem
    simp at hmem
  refine ⟨fun p q => ?_, fun q other => h.nonempty_put hlinks, fun p => ?_⟩
  · rw [pointsAt_put, Hashtable.get?_put]
    by_cases hp : p = nodePath
    · subst hp
      rw [if_pos rfl, Option.some.injEq]
      split
      · next hq => simp [hq]
      · next hq => exact iff_of_false (Ne.symm hq) (hnowhere q)
    · rw [if_neg hp, h.inverse]
      split
      · next hq =>
        rw [hq, Hashtable.mem_keys_put, hsources]
        exact ⟨.inr, fun hsame => hsame.resolve_left hp⟩
      · rfl
  · rw [Hashtable.get?_put]
    split
    · simpa using hnamed
    · exact h.named p

/-- **A link that is put** is in both tables, or in neither if upstream does
not take the subscription. -/
theorem TablesInverse.putSymlink {added : Status} (h : r.TablesInverse)
    (hnew : r.symlinks.get? nodePath = none) (hnamed : t ≠ "") :
    (r.putSymlink added nodePath t).2.1.TablesInverse := by
  unfold SymlinkResolver.putSymlink
  cases hget : r.reverseSymlinks.get? t with
  | some sstate =>
      simp only [Option.getD_some]
      rw [if_pos (h.nonempty t sstate hget)]
      exact h.put sstate hnew hnamed fun p => (pointsAt_iff hget).symm
  | none =>
      have hnone : t ∉ r.reverseSymlinks.keys :=
        Hashtable.get?_eq_none_iff.mp hget
      have hnothing :
          ¬(Hashtable.empty : Hashtable String Unit).entries ≠ [] :=
        not_not_intro rfl
      simp only [Option.getD_none]
      rw [if_neg hnothing]
      split
      · refine h.put ⟨.empty, none⟩ hnew hnamed fun p => ?_
        simp [PointsAt, hget]
      · rw [Hashtable.remove_put_of_notMem hnone,
          Hashtable.remove_put_of_notMem (Hashtable.get?_eq_none_iff.mp hnew)]
        exact h

/-- A target comes with its subscription. -/
theorem Inverse.putSymlink {added : Status} (h : r.Inverse)
    (hnew : r.symlinks.get? nodePath = none) (hnamed : t ≠ "") :
    (r.putSymlink added nodePath t).2.1.Inverse := by
  refine ⟨h.toTablesInverse.putSymlink hnew hnamed, ?_⟩
  unfold SymlinkResolver.putSymlink
  cases hget : r.reverseSymlinks.get? t with
  | some sstate =>
      simp only [Option.getD_some]
      rw [if_pos (h.nonempty t sstate hget)]
      exact h.toSubscribedToTargets.put (Hashtable.mem_keys_of_get? hget)
  | none =>
      have hnone : t ∉ r.reverseSymlinks.keys :=
        Hashtable.get?_eq_none_iff.mp hget
      have hnothing :
          ¬(Hashtable.empty : Hashtable String Unit).entries ≠ [] :=
        not_not_intro rfl
      simp only [Option.getD_none]
      rw [if_neg hnothing]
      split
      · constructor
        · have hfresh : t ∉ r.treeSubscriptions := by rwa [h.subscribed]
          rw [List.nodup_append]
          refine ⟨h.nodup, List.nodup_singleton t, fun a ha b hb hsame => ?_⟩
          rw [List.mem_singleton.mp hb] at hsame
          exact hfresh (hsame ▸ ha)
        · intro q
          rw [Hashtable.mem_keys_put, List.mem_append, List.mem_singleton,
            h.subscribed, or_comm]
      · rw [Hashtable.remove_put_of_notMem hnone]
        exact ⟨h.nodup, h.subscribed⟩

/-- News of a target are no concern of the links. -/
theorem TablesInverse.treeNodeUpdated {payload : Option M} {optOpTag : String}
    (h : r.TablesInverse) :
    (r.treeNodeUpdated nodePath payload optOpTag).1.TablesInverse := by
  unfold SymlinkResolver.treeNodeUpdated
  cases hget : r.reverseSymlinks.get? nodePath with
  | none => exact h
  | some sstate =>
      have hlinks : ({ sstate with payload } :
          SymlinkState M).sourcePaths.entries ≠ [] :=
        h.nonempty nodePath sstate hget
      refine ⟨fun p q => ?_, fun q other => ?_, h.named⟩
      · rw [pointsAt_put, h.inverse]
        split
        · next hq => rw [hq, pointsAt_iff hget]
        · rfl
      · exact h.nonempty_put hlinks

theorem Inverse.treeNodeUpdated {payload : Option M} {optOpTag : String}
    (h : r.Inverse) :
    (r.treeNodeUpdated nodePath payload optOpTag).1.Inverse := by
  refine ⟨h.toTablesInverse.treeNodeUpdated, ?_⟩
  unfold SymlinkResolver.treeNodeUpdated
  cases hget : r.reverseSymlinks.get? nodePath with
  | none => exact h.toSubscribedToTargets
  | some sstate =>
      exact h.toSubscribedToTargets.put (Hashtable.mem_keys_of_get? hget)

/-- What the changes of single links and targets keep. -/
structure Kept (I : SymlinkResolver M → Prop) : Prop where
  tables : ∀ {r}, I r → r.TablesInverse
  removeSymlink : ∀ {r} nodePath, I r → I (r.removeSymlink nodePath).2.1
  putSymlink : ∀ {r} added {nodePath t}, I r →
    r.symlinks.get? nodePath = none → t ≠ "" →
      I (r.putSymlink added nodePath t).2.1
  treeNodeUpdated : ∀ {r} nodePath payload optOpTag, I r →
    I (r.treeNodeUpdated nodePath payload optOpTag).1

theorem kept_tablesInverse : Kept (M := M) TablesInverse where
  tables h := h
  removeSymlink _ h := h.removeSymlink.1
  putSymlink _ _ _ h := h.putSymlink
  treeNodeUpdated _ _ _ h := h.treeNodeUpdated

theorem kept_inverse : Kept (M := M) Inverse where
  tables h := h.toTablesInverse
  removeSymlink _ h := h.removeSymlink.1
  putSymlink _ _ _ h := h.putSymlink
  treeNodeUpdated _ _ _ h := h.treeNodeUpdated

variable {I : SymlinkResolver M → Prop}

theorem Kept.updateSymlink {added : Status} (hkept : Kept I) (h : I r) :
    I (r.updateSymlink added nodePath t).1 := by
  unfold SymlinkResolver.updateSymlink
  simp only
  split
  · have hremoved : ∀ old, old = (r.symlinks.get? nodePath).getD "" →
        let removed := if old ≠ "" then (r.removeSymlink nodePath).2
          else (r, [])
        I removed.1 ∧ removed.1.symlinks.get? nodePath = none := by
      intro old hold
      simp only
      split
      · exact ⟨hkept.removeSymlink nodePath h,
          (hkept.tables h).removeSymlink.2⟩
      · next hnone =>
        refine ⟨h, ?_⟩
        cases hlink : r.symlinks.get? nodePath with
        | none => rfl
        | some symDest =>
            rw [hlink, Option.getD_some] at hold
            rw [hold, not_not] at hnone
            exact absurd (hnone ▸ hlink) ((hkept.tables h).named nodePath)
    obtain ⟨hinverse, hnew⟩ := hremoved _ rfl
    split
    · next hnamed => exact hkept.putSymlink added hinverse hnew hnamed
    · exact hinverse
  · exact h

theorem Kept.filterTreeNodeUpdate {symlinkField : M → String}
    {added : Status} {payloadMsg : Option M} {optOpTag : String}
    {inInitialMode : Bool} (hkept : Kept I) (h : I r) :
    I (r.filterTreeNodeUpdate symlinkField added nodePath payloadMsg optOpTag
      inInitialMode).2.1 := by
  unfold SymlinkResolver.filterTreeNodeUpdate
  simp only
  split
  · split
    · exact hkept.treeNodeUpdated _ _ _ (hkept.updateSymlink h)
    · exact hkept.updateSymlink h
  · exact hkept.updateSymlink h

theorem Inverse.updateSymlink {added : Status} (h : r.Inverse) :
    (r.updateSymlink added nodePath t).1.Inverse :=
  kept_inverse.updateSymlink h

/-- The tables are in order after any change of connection. -/
theorem TablesInverse.connectionStateChanged {isConnected : Bool}
    {left : String → Bool} (h : r.TablesInverse) :
    (r.connectionStateChanged isConnected left).TablesInverse := by
  unfold SymlinkResolver.connectionStateChanged
  split
  · exact tablesInverse_of_empty rfl rfl
  · exact h

theorem TablesInverse.setGateway (h : r.TablesInverse) :
    r.setGateway.TablesInverse :=
  ⟨h.inverse, h.nonempty, h.named⟩

/-- A connection that is lost leaves nothing behind if upstream lets go of the
targets. -/
theorem Inverse.subscribed_connectionLost {left : String → Bool}
    (h : r.Inverse) (hleft : ∀ t ∈ r.reverseSymlinks.keys, left t = false) :
    (r.connectionStateChanged false left).SubscribedToTargets := by
  refine ⟨h.nodup.filter left, fun t => iff_of_false ?_ List.not_mem_nil⟩
  intro hmem
  obtain ⟨hheld, hkept⟩ := List.mem_filter.mp hmem
  rw [hleft t ((h.subscribed t).mp hheld)] at hkept
  exact Bool.false_ne_true hkept

/-- A gateway that is exchanged takes no target away if there is none. -/
theorem subscribed_setGateway (hnone : r.reverseSymlinks.keys = []) :
    r.setGateway.SubscribedToTargets := by
  refine ⟨List.nodup_nil, fun t => iff_of_false List.not_mem_nil ?_⟩
  rw [show r.setGateway.reverseSymlinks.keys = [] from hnone]
  exact List.not_mem_nil

end SymlinkResolver

end ZgChoir.Symlinks
