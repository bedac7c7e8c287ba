import ZgChoir.SymlinkResolver

/-!
# Symbolic links and what is upstream

What a gateway of symbolic links hears from upstream: of the nodes that its
subscribers have asked for, and its resolver of the targets, each of the two in
order, but one sooner and the other later.

`viewStep` has the nodes of upstream and the notifications on their way beside
the gateway.  Here is what one event means for each of those that it concerns:
for who waits for notifications (`payloadAfter_update`), for a subscriber
(`Holds.handOn`), and for the resolver (`linked_updateSymlink` and
`treeNodeUpdated_spec`).
-/

namespace ZgChoir.Symlinks

open MuxSubscriptions MuxNotifications

/-! ## The gateway and upstream -/

/-- A notification of upstream that is on its way. -/
structure NodeNotice (M : Type) where
  nodePath : String
  payloadMsg : Option M
  optOpTag : String

/-- The nodes of upstream, the notifications that are on their way to a gateway
and to its resolver, the gateway, and what its subscribers have been told. -/
structure SymlinkView (σ φ M : Type) where
  nodes : Hashtable String M
  gatewayNotices : List (NodeNotice M)
  resolverNotices : List (NodeNotice M)
  gateway : SymlinkGateway σ φ M
  callbacks : List (Callback σ M)

/-- Upstream changes a node, or the next notification comes in. -/
inductive UpstreamEvent (M : Type) where
  | nodeUpdated (nodePath : String) (payload : Option M) (optOpTag : String)
  | gatewayTold
  | resolverTold

section Model

variable {σ φ M : Type}

/-- The payload of a node for one who knows of `held`, when all of these have
come in. -/
def payloadAfter (notices : List (NodeNotice M)) (path : String)
    (held : Option M) : Option M :=
  notices.foldl (fun held notice =>
    if notice.nodePath = path then notice.payloadMsg else held) held

/-- What a subscriber holds of a path when these calls of the resolver have been
handed on. -/
def shownBy (calls : List (ResolverCall M)) (path : String)
    (held : Option M) : Option M :=
  calls.foldl (fun held call =>
    match call with
    | .treeNodeUpdated p payload _ => if p = path then payload else held
    | _ => held) held

/-- What upstream has to say to the resolver's new subscriptions; a target is
the plain path of one node. -/
def initialResults (nodes : Hashtable String M)
    (calls : List (ResolverCall M)) : List (NodeNotice M) :=
  calls.filterMap fun call =>
    match call with
    | .addTreeSubscription path =>
        (nodes.get? path).map fun msg => ⟨path, some msg, ""⟩
    | _ => none

variable [DecidableEq σ]

/-- What a subscriber holds of a path after these callbacks. -/
def givenAfter (callbacks : List (Callback σ M)) (s : σ) (path : String)
    (held : Option M) : Option M :=
  callbacks.foldl (fun held cb =>
    match cb.notification with
    | .nodeUpdated p msg => if cb.sub = s ∧ p = path then msg else held
    | .indexChanged _ _ => held) held

/-- The last payload that a subscriber has been given. -/
def lastGiven (callbacks : List (Callback σ M)) (s : σ) (path : String) :
    Option M :=
  givenAfter callbacks s path none

variable (rules : PathMatching φ M) (symlinkField : M → String)

/-- The callbacks of what the resolver hands on. -/
def handOnCallbacks (mux : MuxGateway σ φ) :
    List (ResolverCall M) → List (Callback σ M)
  | [] => []
  | .treeNodeUpdated path payload optOpTag :: calls =>
      let told := mux.notify rules (.nodeUpdated path payload) optOpTag
      told.1 ++ handOnCallbacks told.2 calls
  | _ :: calls => handOnCallbacks mux calls

variable [DecidableEq φ]

/-- One event. -/
def viewStep (v : SymlinkView σ φ M) : UpstreamEvent M → SymlinkView σ φ M
  | .nodeUpdated nodePath payload optOpTag =>
      if payload.isSome = true ∨ nodePath ∈ v.nodes.keys then
        let notice := [⟨nodePath, payload, optOpTag⟩]
        { v with
          nodes := payload.elim (v.nodes.remove nodePath)
            (v.nodes.put nodePath)
          gatewayNotices := v.gatewayNotices ++
            if IsAnyoneSubscribedToPath rules v.gateway.mux.tables nodePath then
              notice
            else []
          resolverNotices := v.resolverNotices ++
            if nodePath ∈ v.gateway.symlinkResolver.treeSubscriptions then notice
            else [] }
      -- there is no such node to delete
      else v
  | .gatewayTold =>
      match v.gatewayNotices with
      | [] => v
      | ⟨nodePath, payloadMsg, optOpTag⟩ :: gatewayNotices =>
          let filtered :=
            v.gateway.symlinkResolver.filterTreeNodeUpdate symlinkField .noError
              nodePath payloadMsg optOpTag
              (!v.gateway.mux.allowedCallbacks.entries.isEmpty)
          { v with
            gatewayNotices
            resolverNotices :=
              v.resolverNotices ++ initialResults v.nodes filtered.2.2
            gateway := symlinkStep rules symlinkField v.gateway
              (.treeNodeUpdated .noError nodePath payloadMsg optOpTag)
            callbacks := v.callbacks ++
              handOnCallbacks rules v.gateway.mux filtered.2.2 ++
              if filtered.1 = true then []
              else ((handOn rules v.gateway.mux filtered.2.2).notify rules
                (.nodeUpdated nodePath payloadMsg) optOpTag).1 }
  | .resolverTold =>
      match v.resolverNotices with
      | [] => v
      | ⟨nodePath, optPayloadMsg, optOpTag⟩ :: resolverNotices =>
          { v with
            resolverNotices
            gateway := symlinkStep rules symlinkField v.gateway
              (.targetUpdated nodePath optPayloadMsg optOpTag)
            callbacks := v.callbacks ++
              handOnCallbacks rules v.gateway.mux
                (v.gateway.symlinkResolver.treeNodeUpdated nodePath
                  optPayloadMsg optOpTag).2 }

omit [DecidableEq σ] [DecidableEq φ] in
/-- A gateway whose subscribers have made their subscriptions and have been
given nothing yet; upstream has no nodes yet. -/
def SymlinkView.start (mux : MuxGateway σ φ) : SymlinkView σ φ M where
  nodes := .empty
  gatewayNotices := []
  resolverNotices := []
  gateway :=
    { mux := { mux with
        tables := { mux.tables with
          subscriberInfos := mux.tables.subscriberInfos.mapValues
            fun _ subInfo => subInfo.map fun info =>
              { info with receivedPaths := [] } }
        allowedCallbacks := .empty }
      symlinkResolver := .empty }
  callbacks := []

end Model

/-! ## What is on its way -/

section Notices

variable {M : Type} {notices more : List (NodeNotice M)}
  {notice : NodeNotice M} {path : String} {held held' : Option M}

theorem payloadAfter_append : payloadAfter (notices ++ more) path held =
    payloadAfter more path (payloadAfter notices path held) :=
  List.foldl_append

theorem payloadAfter_cons : payloadAfter (notice :: notices) path held =
    payloadAfter notices path
      (if notice.nodePath = path then notice.payloadMsg else held) :=
  rfl

/-- Who is not told of a node keeps what it knows. -/
theorem payloadAfter_of_none
    (h : ∀ notice ∈ notices, notice.nodePath ≠ path) :
    payloadAfter notices path held = held := by
  induction notices with
  | nil => rfl
  | cons notice notices ih =>
      have hother : notice.nodePath ≠ path := h notice List.mem_cons_self
      rw [payloadAfter_cons, if_neg hother]
      exact ih fun other hmem => h other (List.mem_cons_of_mem notice hmem)

/-- To who is told of a node it makes no difference what it has known. -/
theorem payloadAfter_of_some
    (h : ∃ notice ∈ notices, notice.nodePath = path) :
    payloadAfter notices path held = payloadAfter notices path held' := by
  induction notices generalizing held held' with
  | nil => simp at h
  | cons notice notices ih =>
      rw [payloadAfter_cons, payloadAfter_cons]
      by_cases hhere : notice.nodePath = path
      · rw [if_pos hhere, if_pos hhere]
      · obtain ⟨other, hmem, hpath⟩ := h
        rw [if_neg hhere, if_neg hhere]
        refine ih ⟨other, ?_, hpath⟩
        exact (List.mem_cons.mp hmem).resolve_left
          fun hsame => hhere (hsame ▸ hpath)

/-- **An update that is told** to everyone whom it concerns comes in last. -/
theorem payloadAfter_update {nodes : Hashtable String M} {nodePath : String}
    {payload : Option M} {optOpTag : String} {concerns : Prop}
    [Decidable concerns] (hconcerns : nodePath = path → concerns)
    (h : payloadAfter notices path held = nodes.get? path) :
    payloadAfter (notices ++
        if concerns then [⟨nodePath, payload, optOpTag⟩] else []) path held =
      (payload.elim (nodes.remove nodePath) (nodes.put nodePath)).get?
        path := by
  have hnodes : (payload.elim (nodes.remove nodePath)
      (nodes.put nodePath)).get? path =
        if path = nodePath then payload else nodes.get? path := by
    cases payload with
    | none => exact Hashtable.get?_remove
    | some msg => exact Hashtable.get?_put
  rw [payloadAfter_append, h, hnodes]
  by_cases hpath : nodePath = path
  · rw [if_pos (hconcerns hpath), if_pos hpath.symm, payloadAfter_cons,
      if_pos hpath]
    rfl
  · rw [if_neg (Ne.symm hpath)]
    split
    · rw [payloadAfter_cons, if_neg hpath]
      rfl
    · rfl

end Notices

/-! ## What a subscriber holds -/

section Subscribers

variable {σ φ M : Type} [DecidableEq σ] {rules : PathMatching φ M}
  {mux : MuxGateway σ φ} {s : σ} {path nodePath optOpTag : String}
  {payload held : Option M} {calls : List (ResolverCall M)}

/-- A subscriber of a path holds this payload of it, and the gateway knows
whether it holds any. -/
structure Holds (rules : PathMatching φ M) (mux : MuxGateway σ φ) (s : σ)
    (path : String) (held : Option M) : Prop where
  allowed : mux.allowedCallbacks.entries = []
  received : ∃ info ∈ mux.infoOf s,
    (∀ payload, info.MatchesPath rules path payload) ∧
      (path ∈ info.receivedPaths ↔ held ≠ none)

theorem givenAfter_append {callbacks more : List (Callback σ M)} :
    givenAfter (callbacks ++ more) s path held =
      givenAfter more s path (givenAfter callbacks s path held) :=
  List.foldl_append

theorem lastGiven_append {callbacks more : List (Callback σ M)} :
    lastGiven (callbacks ++ more) s path =
      givenAfter more s path (lastGiven callbacks s path) :=
  List.foldl_append

/-- What a subscriber holds depends on its own callbacks. -/
theorem givenAfter_eq {callbacks : List (Callback σ M)} :
    givenAfter callbacks s path held =
      ((callbacks.filter fun cb => decide (cb.sub = s)).map
        (·.notification)).foldl (fun held n =>
          match n with
          | .nodeUpdated p msg => if p = path then msg else held
          | .indexChanged _ _ => held) held := by
  induction callbacks generalizing held with
  | nil => rfl
  | cons cb callbacks ih =>
      obtain ⟨sub, notification, tag⟩ := cb
      rw [givenAfter, List.foldl_cons, ← givenAfter, ih]
      by_cases hsub : sub = s
      · cases notification <;> simp [hsub]
      · cases notification <;> simp [hsub]

omit [DecidableEq σ] in
/-- A tag that is empty leaves nobody out. -/
theorem effectiveTag_empty : (mux.effectiveTag "").2 = none := by
  have hown : mux.muxTreeGatewayIDPrefix.toList.isPrefixOf
      ("" : String).toList = false := by
    simp [MuxGateway.muxTreeGatewayIDPrefix]
  rw [MuxGateway.effectiveTag, hown]
  rfl

variable (nodePath payload) in
/-- **An update is given** to the subscribers of its path. -/
theorem Holds.notify (h : Holds rules mux s path held)
    (htag : (mux.effectiveTag optOpTag).2 = none) :
    let told := mux.notify rules (.nodeUpdated nodePath payload) optOpTag
    let held' := if nodePath = path then payload else held
    givenAfter told.1 s path held = held' ∧
      Holds rules told.2 s path held' := by
  obtain ⟨info, hinfo, hmatches, hreceived⟩ := h.received
  have hreached : ¬PassedOver mux (.other optOpTag) s := by
    refine not_not_intro ⟨.inl h.allowed, ?_⟩
    rw [Origin.tag, htag]
    simp
  refine ⟨?_, h.allowed, (updateInfo rules nodePath payload info).1, ?_,
    fun payload => matchesPath_updateInfo.mpr (hmatches payload), ?_⟩
  · have htold : told rules mux (.other optOpTag) nodePath payload s = _ :=
      told_eq hinfo
    rw [told, Origin.tag, if_neg hreached] at htold
    rw [givenAfter_eq, htold]
    by_cases hpath : nodePath = path
    · subst hpath
      cases payload with
      | some msg => simp [hmatches]
      | none =>
          cases held with
          | none => simp [hreceived]
          | some old => simp [hreceived]
    · split
      · simp [hpath]
      · split <;> simp [hpath]
  · have hafter : (mux.notify rules (.nodeUpdated nodePath payload)
        ((Origin.other optOpTag).tag mux)).2.infoOf s = _ :=
      infoOf_notify
    rw [Option.mem_def.mp hinfo, Option.map_some, if_neg hreached] at hafter
    exact hafter
  · rw [mem_receivedPaths_updateInfo]
    by_cases hpath : nodePath = path
    · subst hpath
      cases payload with
      | some msg => simp [hmatches]
      | none => simp
    · split
      · simp [Ne.symm hpath, hreceived]
      · simp [Ne.symm hpath, hreceived]

/-- A call does not leave out anyone. -/
def LeavesOutNobody (mux : MuxGateway σ φ) : ResolverCall M → Prop
  | .treeNodeUpdated _ _ optOpTag => (mux.effectiveTag optOpTag).2 = none
  | _ => True

/-- **What the resolver hands on is given** to the subscribers of the links. -/
theorem Holds.handOn (h : Holds rules mux s path held)
    (hcalls : ∀ call ∈ calls, LeavesOutNobody mux call) :
    givenAfter (handOnCallbacks rules mux calls) s path held =
        shownBy calls path held ∧
      Holds rules (handOn rules mux calls) s path (shownBy calls path held) ∧
      ∀ optOpTag, (Symlinks.handOn rules mux calls).effectiveTag optOpTag =
        mux.effectiveTag optOpTag := by
  induction calls generalizing mux held with
  | nil => exact ⟨rfl, h, fun _ => rfl⟩
  | cons call calls ih =>
      have hrest : ∀ call ∈ calls, LeavesOutNobody mux call := fun call hmem =>
        hcalls call (List.mem_cons_of_mem _ hmem)
      cases call with
      | addTreeSubscription target => exact ih h hrest
      | removeTreeSubscription target => exact ih h hrest
      | treeNodeUpdated nodePath payload optOpTag =>
          have htag : (mux.effectiveTag optOpTag).2 = none :=
            hcalls _ List.mem_cons_self
          obtain ⟨hgiven, hholds⟩ :=
            h.notify nodePath payload htag
          obtain ⟨hgivenRest, hholdsRest, htags⟩ := ih hholds hrest
          refine ⟨?_, hholdsRest, htags⟩
          rw [handOnCallbacks, givenAfter_append, hgiven]
          exact hgivenRest

omit [DecidableEq σ] in
/-- The links of a target are shown what the target is. -/
theorem shownBy_sources {sourcePaths : List String} :
    shownBy (sourcePaths.map fun sourcePath =>
      .treeNodeUpdated sourcePath payload optOpTag) path held =
        if path ∈ sourcePaths then payload else held := by
  induction sourcePaths generalizing held with
  | nil => rfl
  | cons sourcePath sourcePaths ih =>
      have hnext : shownBy ((sourcePath :: sourcePaths).map fun sourcePath =>
          .treeNodeUpdated sourcePath payload optOpTag) path held =
            shownBy (sourcePaths.map fun sourcePath =>
              .treeNodeUpdated sourcePath payload optOpTag) path
                (if sourcePath = path then payload else held) :=
        rfl
      rw [hnext, ih]
      by_cases hhere : sourcePath = path
      · simp [hhere]
      · simp [hhere, Ne.symm hhere]

end Subscribers

/-! ## What a change of a link does -/

namespace SymlinkResolver

variable {M : Type} {r : SymlinkResolver M} {nodePath target : String}

/-- The payload that the resolver has of a target. -/
def cached (r : SymlinkResolver M) (target : String) : Option M :=
  (r.reverseSymlinks.get? target).bind (·.payload)

/-- A link that points nowhere now; what it has pointed at may be without links
now, and nothing else is different. -/
structure Unlinked (r r' : SymlinkResolver M) (nodePath : String) : Prop where
  symlinks p : r'.symlinks.get? p =
    if p = nodePath then none else r.symlinks.get? p
  keys t : t ∈ r'.reverseSymlinks.keys → t ∈ r.reverseSymlinks.keys
  cached t : t ∈ r'.reverseSymlinks.keys → r'.cached t = r.cached t
  others t : r.symlinks.get? nodePath ≠ some t →
    r'.reverseSymlinks.get? t = r.reverseSymlinks.get? t

theorem unlinked_removeSymlink : r.Unlinked (r.removeSymlink nodePath).2.1
    nodePath := by
  unfold removeSymlink
  cases hlink : r.symlinks.get? nodePath with
  | none =>
      have hsymlinks : ∀ p, r.symlinks.get? p =
          if p = nodePath then none else r.symlinks.get? p := by
        intro p
        split
        · next hp => rw [hp, hlink]
        · rfl
      exact ⟨hsymlinks, fun t => id, fun t _ => rfl, fun t _ => rfl⟩
  | some symDest =>
      have hsymlinks : ∀ p, (r.symlinks.remove nodePath).get? p =
          if p = nodePath then none else r.symlinks.get? p :=
        fun p => Hashtable.get?_remove
      simp only
      cases hentry : r.reverseSymlinks.get? symDest with
      | none => exact ⟨hsymlinks, fun t => id, fun t _ => rfl, fun t _ => rfl⟩
      | some sstate =>
          simp only
          split
          · refine ⟨hsymlinks, fun t ht => ?_, fun t ht => ?_, fun t ht => ?_⟩
            · simpa using (List.mem_filter.mp
                (Hashtable.keys_remove (t := r.reverseSymlinks) ▸ ht)).1
            · have hother : t ≠ symDest := by
                intro hsame
                simp [hsame] at ht
              rw [SymlinkResolver.cached, Hashtable.get?_remove, if_neg hother,
                SymlinkResolver.cached]
            · rw [Hashtable.get?_remove, if_neg]
              exact fun hsame => ht (hsame ▸ hlink)
          · refine ⟨hsymlinks, fun t ht => ?_, fun t ht => ?_, fun t ht => ?_⟩
            · rcases Hashtable.mem_keys_put.mp ht with rfl | ht
              · exact Hashtable.mem_keys_of_get? hentry
              · exact ht
            · rw [SymlinkResolver.cached, Hashtable.get?_put,
                SymlinkResolver.cached]
              split
              · next hsame => rw [hsame, hentry]; rfl
              · rfl
            · rw [Hashtable.get?_put, if_neg]
              exact fun hsame => ht (hsame ▸ hlink)

variable (r nodePath) in
/-- A link that is removed is no news to anyone. -/
theorem removeSymlink_calls : (r.removeSymlink nodePath).2.2 = [] ∨
    ∃ symDest, (r.removeSymlink nodePath).2.2 =
      [.removeTreeSubscription symDest] := by
  unfold removeSymlink
  cases r.symlinks.get? nodePath with
  | none => exact .inl rfl
  | some symDest =>
      simp only
      cases r.reverseSymlinks.get? symDest with
      | none => exact .inl rfl
      | some sstate =>
          simp only
          split
          · exact .inr ⟨symDest, rfl⟩
          · exact .inl rfl

/-- A link's target is a target. -/
theorem Inverse.mem_keys (h : r.Inverse)
    (hlink : r.symlinks.get? nodePath = some target) :
    target ∈ r.reverseSymlinks.keys := by
  obtain ⟨sstate, hentry, -⟩ := (h.inverse nodePath target).mp hlink
  exact Hashtable.mem_keys_of_get? hentry

/-- A link that points at a target now, or at none.  The resolver subscribes to
the target if it has not done so yet, and nothing is told under other paths. -/
structure Linked (r r' : SymlinkResolver M) (calls : List (ResolverCall M))
    (nodePath target : String) : Prop where
  symlinks p : r'.symlinks.get? p =
    if p = nodePath then (if target = "" then none else some target)
    else r.symlinks.get? p
  keys t : t ∈ r'.reverseSymlinks.keys →
    t = target ∧ target ≠ "" ∨ t ∈ r.reverseSymlinks.keys
  cached t : t ∈ r'.reverseSymlinks.keys → r'.cached t = r.cached t
  initial nodes : initialResults nodes calls =
    if target = "" ∨ target ∈ r.reverseSymlinks.keys then []
    else (nodes.get? target).toList.map fun msg => ⟨target, some msg, ""⟩
  tags path payload optOpTag :
    .treeNodeUpdated path payload optOpTag ∈ calls → optOpTag = ""
  others path held : path ≠ nodePath → shownBy calls path held = held

/-- A link that has got a new target; the payload that the resolver has of it
already is told. -/
structure Retargeted (r r' : SymlinkResolver M) (calls : List (ResolverCall M))
    (nodePath target : String) : Prop extends
    Linked r r' calls nodePath target where
  shown held : target ≠ "" → shownBy calls nodePath held =
    if r.cached target = none then held else r.cached target

/-- A link that has been removed is put. -/
theorem Unlinked.putSymlink {r' : SymlinkResolver M}
    (hunlinked : r.Unlinked r' nodePath) (h : r'.Inverse)
    (hchanged : r.symlinks.get? nodePath ≠ some target) (hnamed : target ≠ "") :
    r.Retargeted (r'.putSymlink .noError nodePath target).2.1
      (r'.putSymlink .noError nodePath target).2.2 nodePath target := by
  have hsymlinks : ∀ p, (r'.symlinks.put nodePath target).get? p =
      if p = nodePath then (if target = "" then none else some target)
      else r.symlinks.get? p := by
    intro p
    rw [Hashtable.get?_put, if_neg hnamed, hunlinked.symlinks]
    split <;> rfl
  have hsame : r'.reverseSymlinks.get? target = r.reverseSymlinks.get? target :=
    hunlinked.others target hchanged
  unfold SymlinkResolver.putSymlink
  cases hentry : r'.reverseSymlinks.get? target with
  | some sstate =>
      have hold : r.reverseSymlinks.get? target = some sstate :=
        hsame.symm.trans hentry
      have hcached : r.cached target = sstate.payload := by
        rw [SymlinkResolver.cached, hold]
        rfl
      have hmem : target ∈ r.reverseSymlinks.keys :=
        Hashtable.mem_keys_of_get? hold
      simp only [Option.getD_some]
      rw [if_pos (h.nonempty target sstate hentry)]
      refine ⟨⟨hsymlinks, fun t ht => ?_, fun t ht => ?_, fun nodes => ?_,
        fun path payload optOpTag hcall => ?_, fun path held hpath => ?_⟩,
        fun held _ => ?_⟩
      · rcases Hashtable.mem_keys_put.mp ht with hsame | ht
        · exact .inl ⟨hsame, hnamed⟩
        · exact .inr (hunlinked.keys t ht)
      · rw [SymlinkResolver.cached, Hashtable.get?_put]
        split
        · next hhere => rw [hhere, hcached]; rfl
        · next hother =>
          refine hunlinked.cached t ?_
          exact (Hashtable.mem_keys_put.mp ht).resolve_left hother
      · have hknown : target = "" ∨ target ∈ r.reverseSymlinks.keys := .inr hmem
        rw [if_pos hknown]
        cases sstate.payload with
        | none => rfl
        | some msg => rfl
      · split at hcall
        · simp only [List.mem_singleton, ResolverCall.treeNodeUpdated.injEq]
            at hcall
          exact hcall.2.2
        · simp at hcall
      · cases sstate.payload <;> simp [shownBy, Ne.symm hpath]
      · rw [hcached]
        cases sstate.payload <;> simp [shownBy]
  | none =>
      have hnone : r.reverseSymlinks.get? target = none :=
        hsame.symm.trans hentry
      have hcached : r.cached target = none := by
        rw [SymlinkResolver.cached, hnone]
        rfl
      have hnothing :
          ¬(Hashtable.empty : Hashtable String Unit).entries ≠ [] :=
        not_not_intro rfl
      have hadded : Status.noError.isOK = true := rfl
      simp only [Option.getD_none]
      rw [if_neg hnothing, if_pos hadded]
      refine ⟨⟨hsymlinks, fun t ht => ?_, fun t ht => ?_, fun nodes => ?_,
        fun path payload optOpTag hcall => ?_, fun path held _ => rfl⟩,
        fun held _ => ?_⟩
      · rcases Hashtable.mem_keys_put.mp ht with hsame | ht
        · exact .inl ⟨hsame, hnamed⟩
        · exact .inr (hunlinked.keys t ht)
      · rw [SymlinkResolver.cached, Hashtable.get?_put]
        split
        · next hhere => rw [hhere, hcached]; rfl
        · next hother =>
          refine hunlinked.cached t ?_
          exact (Hashtable.mem_keys_put.mp ht).resolve_left hother
      · have hnew : ¬(target = "" ∨ target ∈ r.reverseSymlinks.keys) :=
          not_or.mpr ⟨hnamed, Hashtable.get?_eq_none_iff.mp hnone⟩
        rw [if_neg hnew]
        cases hnode : nodes.get? target <;> simp [initialResults, hnode]
      · simp at hcall
      · rw [if_pos hcached]
        rfl

/-- **A link that changes** is removed, and put if it has a target. -/
theorem retargeted_updateSymlink (h : r.Inverse)
    (hchanged : target ≠ (r.symlinks.get? nodePath).getD "") :
    r.Retargeted (r.updateSymlink .noError nodePath target).1
      (r.updateSymlink .noError nodePath target).2 nodePath target := by
  have hremoved : (if (r.symlinks.get? nodePath).getD "" ≠ "" then
      (r.removeSymlink nodePath).2 else (r, [])) =
        (r.removeSymlink nodePath).2 := by
    split
    · rfl
    · next hnone =>
      have hlink : r.symlinks.get? nodePath = none := by
        cases hlink : r.symlinks.get? nodePath with
        | none => rfl
        | some symDest =>
            rw [hlink, Option.getD_some, not_not] at hnone
            exact absurd (hnone ▸ hlink) (h.named nodePath)
      rw [removeSymlink, hlink]
  have hunlinked : r.Unlinked (r.removeSymlink nodePath).2.1 nodePath :=
    unlinked_removeSymlink
  have hcalls : ∀ more, (∀ path held,
      shownBy ((r.removeSymlink nodePath).2.2 ++ more) path held =
        shownBy more path held) ∧
      (∀ nodes, initialResults nodes ((r.removeSymlink nodePath).2.2 ++ more) =
        initialResults nodes more) ∧
      ∀ path payload optOpTag, .treeNodeUpdated path payload optOpTag ∈
        (r.removeSymlink nodePath).2.2 ++ more →
          .treeNodeUpdated path payload optOpTag ∈ more := by
    intro more
    rcases removeSymlink_calls r nodePath
      with hnone | ⟨symDest, hone⟩
    · simp [hnone]
    · rw [hone]
      refine ⟨fun path held => rfl, fun nodes => rfl, ?_⟩
      intro path payload optOpTag hmem
      simpa using hmem
  have hother : r.symlinks.get? nodePath ≠ some target := by
    intro hlink
    rw [hlink] at hchanged
    exact hchanged rfl
  rw [updateSymlink]
  simp only
  rw [if_pos hchanged, hremoved]
  split
  · next hnamed =>
    have hput := hunlinked.putSymlink h.removeSymlink.1 hother hnamed
    obtain ⟨hshown, hinitial, htags⟩ := hcalls ((r.removeSymlink
      nodePath).2.1.putSymlink .noError nodePath target).2.2
    exact ⟨⟨hput.symlinks, hput.keys, hput.cached,
      fun nodes => (hinitial nodes).trans (hput.initial nodes),
      fun path payload optOpTag hmem =>
        hput.tags path payload optOpTag (htags path payload optOpTag hmem),
      fun path held hpath =>
        (hshown path held).trans (hput.others path held hpath)⟩,
      fun held _ => (hshown nodePath held).trans (hput.shown held hnamed)⟩
  · next hnamed =>
    rw [not_not] at hnamed
    obtain ⟨hshown, hinitial, htags⟩ := hcalls []
    refine ⟨⟨fun p => ?_, fun t ht => .inr (hunlinked.keys t ht),
      hunlinked.cached, fun nodes => ?_, fun path payload optOpTag hmem => ?_,
      fun path held _ => hshown path held⟩,
      fun held hother => absurd hnamed hother⟩
    · rw [if_pos hnamed, hunlinked.symlinks]
    · rw [if_pos (.inl hnamed)]
      exact hinitial nodes
    · simpa using htags path payload optOpTag hmem

/-- A link that points where it has pointed before. -/
theorem linked_self (h : r.Inverse)
    (hsame : target = (r.symlinks.get? nodePath).getD "") :
    r.Linked r [] nodePath target := by
  refine ⟨fun p => ?_, fun t => .inr, fun t _ => rfl, fun nodes => ?_,
    fun path payload optOpTag hmem => ?_, fun path held _ => rfl⟩
  · split
    · next hp =>
      rw [hp, hsame]
      cases hlink : r.symlinks.get? nodePath with
      | none => rfl
      | some symDest =>
          have hnamed : symDest ≠ "" := by
            intro hnone
            exact h.named nodePath (hnone ▸ hlink)
          simp [hnamed]
    · rfl
  · have hknown : target = "" ∨ target ∈ r.reverseSymlinks.keys := by
      cases hlink : r.symlinks.get? nodePath with
      | none => exact .inl (by rw [hsame, hlink]; rfl)
      | some symDest =>
          rw [hlink, Option.getD_some] at hsame
          exact .inr (hsame ▸ h.mem_keys hlink)
    rw [if_pos hknown]
    rfl
  · simp at hmem

variable (nodePath target) in
/-- **An update of a link**, whether it changes the link or not. -/
theorem linked_updateSymlink (h : r.Inverse) :
    r.Linked (r.updateSymlink .noError nodePath target).1
      (r.updateSymlink .noError nodePath target).2 nodePath target := by
  by_cases hsame : target = (r.symlinks.get? nodePath).getD ""
  · rw [updateSymlink, if_neg (not_not_intro hsame)]
    exact linked_self h hsame
  · exact (retargeted_updateSymlink h hsame).toLinked

/-- Outside of first results a link is changed and nothing else. -/
theorem filterTreeNodeUpdate_eq {symlinkField : M → String} {added : Status}
    {payloadMsg : Option M} {optOpTag : String} :
    r.filterTreeNodeUpdate symlinkField added nodePath payloadMsg optOpTag
        false =
      (decide (symlinkPath symlinkField payloadMsg ≠ ""),
        r.updateSymlink added nodePath
          (symlinkPath symlinkField payloadMsg)) := by
  unfold filterTreeNodeUpdate
  simp only
  split
  · next hnamed => simp [hnamed]
  · next hnone => simp [hnone]

variable (nodePath) in
/-- **News of a target** are what the resolver has of it, and are told under the
paths of its links. -/
theorem treeNodeUpdated_spec (payload : Option M) (optOpTag : String)
    (h : r.Inverse) :
    let told := r.treeNodeUpdated nodePath payload optOpTag
    told.1.symlinks = r.symlinks ∧
      (∀ t, t ∈ told.1.reverseSymlinks.keys → t ∈ r.reverseSymlinks.keys ∧
        told.1.cached t = if t = nodePath then payload else r.cached t) ∧
      (∀ path held, shownBy told.2 path held =
        if r.symlinks.get? path = some nodePath then payload else held) ∧
      ∀ path payload tag, .treeNodeUpdated path payload tag ∈ told.2 →
        tag = optOpTag := by
  have hlinks : ∀ path, r.symlinks.get? path = some nodePath ↔
      r.PointsAt path nodePath := fun path => h.inverse path nodePath
  unfold treeNodeUpdated
  cases hentry : r.reverseSymlinks.get? nodePath with
  | none =>
      have hnone : nodePath ∉ r.reverseSymlinks.keys :=
        Hashtable.get?_eq_none_iff.mp hentry
      refine ⟨rfl, fun t ht => ⟨ht, ?_⟩, fun path held => ?_, by simp⟩
      · rw [if_neg]
        exact fun hsame => hnone (hsame ▸ ht)
      · rw [if_neg]
        · rfl
        · intro hlink
          obtain ⟨sstate, hsstate, -⟩ := (hlinks path).mp hlink
          simp [hentry] at hsstate
  | some sstate =>
      refine ⟨rfl, fun t ht => ⟨?_, ?_⟩, fun path held => ?_, ?_⟩
      · rcases Hashtable.mem_keys_put.mp ht with rfl | ht
        · exact Hashtable.mem_keys_of_get? hentry
        · exact ht
      · rw [SymlinkResolver.cached, Hashtable.get?_put]
        split
        · rfl
        · rfl
      · simp only
        rw [shownBy_sources]
        simp only [hlinks, pointsAt_iff hentry]
      · intro path payload' tag hmem
        simp only [List.mem_map, ResolverCall.treeNodeUpdated.injEq] at hmem
        obtain ⟨sourcePath, -, -, -, htag⟩ := hmem
        exact htag.symm

end SymlinkResolver

end ZgChoir.Symlinks
