import ZgChoir.SymlinkUpstream

/-!
# What subscribers see of symbolic links

Who subscribes to a link is to see the payload of the link's target.  When
nothing is on its way any more, a subscriber should have been given last what
the path resolves to (`resolvedPayload`).

It has, as long as a link that is set, or set to another target, finds that
target among the nodes.  Upstream says nothing of a node that is missing and
the resolver does not either: the subscribers keep what they have.  That is
harmless only if they have nothing, or if the news that the target is gone are
on their way (`FollowsTarget`).
-/

namespace ZgChoir.Symlinks

open MuxSubscriptions MuxNotifications

section Model

variable {σ φ M : Type} (rules : PathMatching φ M) (symlinkField : M → String)

/-- A subscriber is subscribed to a path, whatever its payload. -/
def Subscribed [DecidableEq σ] (mux : MuxGateway σ φ) (s : σ)
    (path : String) : Prop :=
  ∃ info ∈ mux.infoOf s, ∀ payload, info.MatchesPath rules path payload

/-- What a path stands for: its own payload, or that of the node that it names
as its target. -/
def resolvedPayload (nodes : Hashtable String M) (path : String) : Option M :=
  let target := SymlinkResolver.symlinkPath symlinkField (nodes.get? path)
  if target = "" then nodes.get? path else nodes.get? target

/-- A link that gets a new target finds it among the nodes.  If not, its
deletion is the last that is on its way of it; or there is nothing on its way,
and nobody has been given anything under the link's path. -/
def FollowsTarget (v : SymlinkView σ φ M) (nodePath target : String) : Prop :=
  target ∈ v.nodes.keys ∨
    payloadAfter v.resolverNotices target none = none ∧
      ((∃ notice ∈ v.resolverNotices, notice.nodePath = target) ∨
        ∀ e ∈ v.gateway.mux.tables.subscriberInfos.entries, ∀ info ∈ e.2,
          nodePath ∉ info.receivedPaths)

/-- A link points at a target already, or finds it. -/
def Finds (v : SymlinkView σ φ M) (nodePath target : String) : Prop :=
  v.gateway.symlinkResolver.symlinks.get? nodePath = some target ∨
    FollowsTarget v nodePath target

/-- An update leaves out no subscriber, and a link that changes finds its
target. -/
def LinksFollowed (v : SymlinkView σ φ M) : UpstreamEvent M → Prop
  | .nodeUpdated _ _ optOpTag => (v.gateway.mux.effectiveTag optOpTag).2 = none
  | .gatewayTold =>
      ∀ notice ∈ v.gatewayNotices.head?,
        let target :=
          SymlinkResolver.symlinkPath symlinkField notice.payloadMsg
        target = "" ∨ Finds v notice.nodePath target
  | .resolverTold => True

instance decidableFinds (v : SymlinkView σ φ M) (nodePath target : String) :
    Decidable (Finds v nodePath target) :=
  inferInstanceAs (Decidable (_ ∨ _ ∨ _ ∧ ((∃ _ ∈ _, _) ∨ ∀ _ ∈ _, ∀ _ ∈ _, _)))

instance decidableLinksFollowed (v : SymlinkView σ φ M) :
    ∀ e : UpstreamEvent M, Decidable (LinksFollowed symlinkField v e)
  | .nodeUpdated _ _ _ => inferInstanceAs (Decidable (_ = _))
  | .gatewayTold => inferInstanceAs (Decidable (∀ _ ∈ _, _ ∨ _))
  | .resolverTold => .isTrue trivial

end Model

/-! ## What holds on the way -/

section Runs

variable {σ φ M : Type} [DecidableEq σ] {rules : PathMatching φ M}
  {symlinkField : M → String} {v : SymlinkView σ φ M} {s : σ} {path : String}

/-- What holds for a subscriber of a path, with what is on its way: the
resolver will have of each target what the target is; the gateway will have
seen what is there under the path; and if that is a link, the subscriber will
hold the payload of its target, else it holds what the gateway has seen. -/
structure Coherent (rules : PathMatching φ M) (symlinkField : M → String)
    (s : σ) (path : String) (v : SymlinkView σ φ M) : Prop where
  inverse : v.gateway.symlinkResolver.Inverse
  holds : Holds rules v.gateway.mux s path (lastGiven v.callbacks s path)
  tags : ∀ notice ∈ v.gatewayNotices ++ v.resolverNotices,
    (v.gateway.mux.effectiveTag notice.optOpTag).2 = none
  targets : ∀ t ∈ v.gateway.symlinkResolver.reverseSymlinks.keys,
    payloadAfter v.resolverNotices t (v.gateway.symlinkResolver.cached t) =
      v.nodes.get? t
  seen : ∃ seen, payloadAfter v.gatewayNotices path seen = v.nodes.get? path ∧
    v.gateway.symlinkResolver.symlinks.get? path =
      (if SymlinkResolver.symlinkPath symlinkField seen = "" then none
      else some (SymlinkResolver.symlinkPath symlinkField seen)) ∧
    (SymlinkResolver.symlinkPath symlinkField seen = "" →
      lastGiven v.callbacks s path = seen)
  followed : ∀ t, v.gateway.symlinkResolver.symlinks.get? path = some t →
    payloadAfter v.resolverNotices t (lastGiven v.callbacks s path) =
      v.nodes.get? t

theorem Coherent.start {mux : MuxGateway σ φ}
    (h : Subscribed rules mux s path) :
    Coherent rules symlinkField s path (.start mux : SymlinkView σ φ M) := by
  obtain ⟨info, hinfo, hmatches⟩ := h
  have hstart : (SymlinkView.start mux : SymlinkView σ φ M).gateway.mux.infoOf
      s = some { info with receivedPaths := [] } := by
    rw [MuxGateway.infoOf, Option.mem_def, Option.join_eq_some_iff] at hinfo
    simp [SymlinkView.start, MuxGateway.infoOf, hinfo]
  refine ⟨SymlinkResolver.inverse_empty, ⟨rfl, _, hstart, hmatches, ?_⟩, ?_, ?_,
    ⟨none, rfl, ?_, fun _ => rfl⟩, ?_⟩
  · simp [SymlinkView.start, lastGiven, givenAfter]
  · simp [SymlinkView.start]
  · simp [SymlinkView.start, SymlinkResolver.empty]
  · simp [SymlinkView.start, SymlinkResolver.empty,
      SymlinkResolver.symlinkPath]
  · simp [SymlinkView.start, SymlinkResolver.empty]

/-- **When nothing is on its way** the subscriber holds what the path resolves
to. -/
theorem Coherent.resolved (h : Coherent rules symlinkField s path v)
    (hgateway : v.gatewayNotices = []) (hresolver : v.resolverNotices = []) :
    lastGiven v.callbacks s path =
      resolvedPayload symlinkField v.nodes path := by
  obtain ⟨seen, hseen, hlink, hplain⟩ := h.seen
  have hnode : seen = v.nodes.get? path := by
    rw [hgateway] at hseen
    exact hseen
  have hfollowed := h.followed
  rw [hresolver] at hfollowed
  rw [resolvedPayload, ← hnode]
  split
  · next hnone => exact hplain hnone
  · next hnamed =>
    rw [if_neg hnamed] at hlink
    exact hfollowed _ hlink

variable {nodePath optOpTag : String} {payload held : Option M}

/-- Who is given a payload of a path has asked for it. -/
theorem Holds.isAnyoneSubscribedToPath {mux : MuxGateway σ φ}
    (h : Holds rules mux s path held) :
    IsAnyoneSubscribedToPath rules mux.tables path := by
  obtain ⟨info, hinfo, hmatches, -⟩ := h.received
  exact ⟨(s, some info), infoOf_eq_some_iff.mp hinfo, info, rfl, hmatches none⟩

variable [DecidableEq φ]

theorem Coherent.nodeUpdated (h : Coherent rules symlinkField s path v)
    (htag : (v.gateway.mux.effectiveTag optOpTag).2 = none) :
    Coherent rules symlinkField s path (viewStep rules symlinkField v
      (.nodeUpdated nodePath payload optOpTag)) := by
  unfold viewStep
  simp only
  split
  · refine ⟨h.inverse, h.holds, fun notice hmem => ?_, fun t ht => ?_, ?_,
      fun t hlink => ?_⟩
    · simp only [List.mem_append, List.mem_ite_nil_right,
        List.mem_singleton] at hmem
      rcases hmem with (hmem | ⟨-, rfl⟩) | hmem | ⟨-, rfl⟩
      · exact h.tags notice (List.mem_append_left _ hmem)
      · exact htag
      · exact h.tags notice (List.mem_append_right _ hmem)
      · exact htag
    · refine payloadAfter_update (fun hpath => ?_) (h.targets t ht)
      exact (h.inverse.subscribed nodePath).mpr (hpath ▸ ht)
    · obtain ⟨seen, hseen, hlink⟩ := h.seen
      refine ⟨seen, payloadAfter_update (fun hpath => ?_) hseen, hlink⟩
      exact hpath ▸ h.holds.isAnyoneSubscribedToPath
    · refine payloadAfter_update (fun hpath => ?_) (h.followed t hlink)
      have hkey := h.inverse.mem_keys hlink
      exact (h.inverse.subscribed nodePath).mpr (hpath ▸ hkey)
  · exact h

theorem Coherent.resolverTold (h : Coherent rules symlinkField s path v) :
    Coherent rules symlinkField s path
      (viewStep rules symlinkField v .resolverTold) := by
  unfold viewStep
  cases hnotices : v.resolverNotices with
  | nil => exact h
  | cons notice resolverNotices =>
      obtain ⟨nodePath, payload, optOpTag⟩ := notice
      have htag : (v.gateway.mux.effectiveTag optOpTag).2 = none :=
        h.tags ⟨nodePath, payload, optOpTag⟩ (by simp [hnotices])
      obtain ⟨hsymlinks, htold, hshown, htags⟩ :=
        SymlinkResolver.treeNodeUpdated_spec nodePath payload optOpTag
          h.inverse
      have hcalls : ∀ call ∈ (v.gateway.symlinkResolver.treeNodeUpdated nodePath
          payload optOpTag).2, LeavesOutNobody v.gateway.mux call := by
        intro call hmem
        cases call with
        | addTreeSubscription target => trivial
        | removeTreeSubscription target => trivial
        | treeNodeUpdated path payload' tag =>
            obtain rfl : tag = optOpTag := htags path payload' tag hmem
            exact htag
      obtain ⟨hgiven, hholds, heffective⟩ := h.holds.handOn hcalls
      rw [hshown] at hgiven hholds
      refine ⟨h.inverse.treeNodeUpdated, ?_, fun notice hmem => ?_,
        fun t ht => ?_, ?_, fun t hlink => ?_⟩
      · simp only [lastGiven_append, hgiven]
        exact hholds
      · refine (congrArg Prod.snd (heffective notice.optOpTag)).trans
          (h.tags notice ?_)
        rw [hnotices]
        rcases List.mem_append.mp hmem with hmem | hmem
        · exact List.mem_append_left _ hmem
        · exact List.mem_append_right _ (List.mem_cons_of_mem _ hmem)
      · obtain ⟨hkey, hcached⟩ := htold t ht
        have htarget := h.targets t hkey
        rw [hnotices, payloadAfter_cons] at htarget
        refine Eq.trans ?_ htarget
        simp only [symlinkStep, hcached, eq_comm]
      · obtain ⟨seen, hseen, hlink, hplain⟩ := h.seen
        refine ⟨seen, hseen, ?_, fun hnone => ?_⟩
        · simp only [symlinkStep, hsymlinks]
          exact hlink
        · rw [if_pos hnone] at hlink
          simp only [lastGiven_append, hgiven]
          rw [hlink, if_neg (by simp)]
          exact hplain hnone
      · simp only [symlinkStep, hsymlinks] at hlink
        have hfollowed := h.followed t hlink
        rw [hnotices, payloadAfter_cons] at hfollowed
        refine Eq.trans ?_ hfollowed
        simp only [lastGiven_append, hgiven, hlink, Option.some.injEq, eq_comm]

omit [DecidableEq φ] in
/-- **A subscriber holds nothing that nobody takes back**: what is on its way of
a target that is followed does not depend on what the subscriber holds. -/
theorem FollowsTarget.payloadAfter_eq {target : String}
    (h : FollowsTarget v path target)
    (hholds : Holds rules v.gateway.mux s path held)
    (hnode : payloadAfter v.resolverNotices target none =
      v.nodes.get? target) :
    payloadAfter v.resolverNotices target held = v.nodes.get? target := by
  rw [← hnode]
  by_cases hcoming : ∃ notice ∈ v.resolverNotices, notice.nodePath = target
  · exact payloadAfter_of_some hcoming
  · have hquiet : ∀ notice ∈ v.resolverNotices, notice.nodePath ≠ target :=
      fun notice hmem hpath => hcoming ⟨notice, hmem, hpath⟩
    rw [payloadAfter_of_none hquiet] at hnode
    have hmissing : target ∉ v.nodes.keys :=
      Hashtable.get?_eq_none_iff.mp hnode.symm
    have hnobody := (h.resolve_left hmissing).2.resolve_left hcoming
    obtain ⟨info, hinfo, -, hreceived⟩ := hholds.received
    have hnothing : held = none := by
      by_contra hsome
      exact hnobody (s, some info) (infoOf_eq_some_iff.mp hinfo) info rfl
        (hreceived.mpr hsome)
    rw [hnothing]

omit [DecidableEq σ] [DecidableEq φ] in
/-- Nothing comes in of a target that the resolver is subscribed to already. -/
theorem payloadAfter_initial {r r' : SymlinkResolver M}
    {calls : List (ResolverCall M)} {target t : String}
    (h : r.Linked r' calls nodePath target)
    (ht : t ∈ r.reverseSymlinks.keys) :
    payloadAfter (v.resolverNotices ++ initialResults v.nodes calls) t held =
      payloadAfter v.resolverNotices t held := by
  rw [payloadAfter_append, h.initial]
  split
  · rfl
  · next hnew =>
    refine payloadAfter_of_none fun notice hmem hpath => ?_
    obtain ⟨msg, -, rfl⟩ := List.mem_map.mp hmem
    have hsame : target = t := hpath
    exact hnew (.inr (hsame ▸ ht))

omit [DecidableEq σ] [DecidableEq φ] in
/-- What comes in of a new target is what it is, if it is anything; else what
is on its way already. -/
theorem payloadAfter_initial_of_new {r r' : SymlinkResolver M}
    {calls : List (ResolverCall M)} {target : String}
    (h : r.Linked r' calls nodePath target) (hnamed : target ≠ "")
    (hnew : target ∉ r.reverseSymlinks.keys)
    (hmissing : target ∉ v.nodes.keys →
      payloadAfter v.resolverNotices target held = none) :
    payloadAfter (v.resolverNotices ++ initialResults v.nodes calls) target
      held = v.nodes.get? target := by
  rw [payloadAfter_append, h.initial, if_neg (not_or.mpr ⟨hnamed, hnew⟩)]
  cases hnode : v.nodes.get? target with
  | none => exact hmissing (Hashtable.get?_eq_none_iff.mp hnode)
  | some msg => simp [payloadAfter]

omit [DecidableEq φ] in
/-- The resolver will have of each target what the target is, when a link has
got a new one. -/
theorem Coherent.targets_updateSymlink {target : String}
    (h : Coherent rules symlinkField s path v)
    (hfinds : target = "" ∨ Finds v nodePath target) :
    let updated :=
      v.gateway.symlinkResolver.updateSymlink .noError nodePath target
    ∀ t ∈ updated.1.reverseSymlinks.keys,
      payloadAfter (v.resolverNotices ++ initialResults v.nodes updated.2) t
        (updated.1.cached t) = v.nodes.get? t := by
  intro updated t ht
  have hlinked :=
    SymlinkResolver.linked_updateSymlink nodePath target h.inverse
  rw [hlinked.cached t ht]
  by_cases hkey : t ∈ v.gateway.symlinkResolver.reverseSymlinks.keys
  · rw [payloadAfter_initial hlinked hkey]
    exact h.targets t hkey
  · obtain ⟨rfl, hnamed⟩ := (hlinked.keys t ht).resolve_right hkey
    have hcached : v.gateway.symlinkResolver.cached t = none := by
      rw [SymlinkResolver.cached, Hashtable.get?_eq_none_iff.mpr hkey]
      rfl
    rw [hcached]
    refine payloadAfter_initial_of_new hlinked hnamed hkey fun hmissing => ?_
    rcases hfinds.resolve_left hnamed with hlink | hfollows
    · exact absurd (h.inverse.mem_keys hlink) hkey
    · exact (hfollows.resolve_left hmissing).1

omit [DecidableEq φ] in
/-- **The subscriber of a link** will hold what the link's new target is. -/
theorem Coherent.followed_updateSymlink {target : String}
    (h : Coherent rules symlinkField s path v) (hnamed : target ≠ "")
    (hfinds : Finds v path target) :
    let updated := v.gateway.symlinkResolver.updateSymlink .noError path target
    payloadAfter (v.resolverNotices ++ initialResults v.nodes updated.2) target
      (shownBy updated.2 path (lastGiven v.callbacks s path)) =
        v.nodes.get? target := by
  intro updated
  have hlinked := SymlinkResolver.linked_updateSymlink path target h.inverse
  by_cases hsame : v.gateway.symlinkResolver.symlinks.get? path = some target
  · have hcalls : updated.2 = [] := by
      have hold : ¬target ≠
          (v.gateway.symlinkResolver.symlinks.get? path).getD "" :=
        not_not_intro (by rw [hsame]; rfl)
      simp only [updated, SymlinkResolver.updateSymlink, if_neg hold]
    rw [payloadAfter_initial hlinked (h.inverse.mem_keys hsame), hcalls]
    exact h.followed target hsame
  · have hfollows : FollowsTarget v path target := hfinds.resolve_left hsame
    have hchanged : target ≠
        (v.gateway.symlinkResolver.symlinks.get? path).getD "" := by
      intro heq
      cases hlink : v.gateway.symlinkResolver.symlinks.get? path with
      | none =>
          rw [hlink] at heq
          exact hnamed heq
      | some symDest =>
          rw [hlink] at heq
          exact hsame (hlink.trans (congrArg some heq.symm))
    have hretargeted :=
      SymlinkResolver.retargeted_updateSymlink h.inverse hchanged
    rw [hretargeted.shown _ hnamed]
    by_cases hkey : target ∈ v.gateway.symlinkResolver.reverseSymlinks.keys
    · rw [payloadAfter_initial hlinked hkey]
      have htarget := h.targets target hkey
      split
      · next hcached =>
        rw [hcached] at htarget
        exact hfollows.payloadAfter_eq h.holds htarget
      · exact htarget
    · have hcached : v.gateway.symlinkResolver.cached target = none := by
        rw [SymlinkResolver.cached, Hashtable.get?_eq_none_iff.mpr hkey]
        rfl
      rw [if_pos hcached]
      refine payloadAfter_initial_of_new hlinked hnamed hkey fun hmissing => ?_
      have hnode : v.nodes.get? target = none :=
        Hashtable.get?_eq_none_iff.mpr hmissing
      rw [← hnode]
      refine hfollows.payloadAfter_eq h.holds ?_
      rw [hnode]
      exact (hfollows.resolve_left hmissing).1

omit [DecidableEq φ] in
/-- What holds stays true when a link has been updated, if the subscriber has
been given what it is to be given. -/
theorem Coherent.updateSymlink {mux : MuxGateway σ φ}
    {callbacks : List (Callback σ M)} {gatewayNotices : List (NodeNotice M)}
    {target : String} (h : Coherent rules symlinkField s path v)
    (hnotices : v.gatewayNotices =
      ⟨nodePath, payload, optOpTag⟩ :: gatewayNotices)
    (htarget : SymlinkResolver.symlinkPath symlinkField payload = target)
    (hfinds : target = "" ∨ Finds v nodePath target)
    (htags : ∀ tag, mux.effectiveTag tag = v.gateway.mux.effectiveTag tag)
    (hholds : Holds rules mux s path (lastGiven callbacks s path)) :
    let updated :=
      v.gateway.symlinkResolver.updateSymlink .noError nodePath target
    (path ≠ nodePath →
      lastGiven callbacks s path = lastGiven v.callbacks s path) →
    (path = nodePath → target = "" → lastGiven callbacks s path = payload) →
    (path = nodePath → target ≠ "" → lastGiven callbacks s path =
      shownBy updated.2 path (lastGiven v.callbacks s path)) →
    Coherent rules symlinkField s path
      { v with
        gatewayNotices
        resolverNotices :=
          v.resolverNotices ++ initialResults v.nodes updated.2
        gateway := ⟨mux, updated.1⟩
        callbacks } := by
  intro updated hothers hplain hshown
  have hlinked :=
    SymlinkResolver.linked_updateSymlink nodePath target h.inverse
  refine ⟨h.inverse.updateSymlink, hholds, fun notice hmem => ?_,
    h.targets_updateSymlink hfinds, ?_, fun t hlink => ?_⟩
  · rw [htags]
    simp only [List.mem_append] at hmem
    rcases hmem with hmem | hmem | hmem
    · refine h.tags notice (List.mem_append_left _ ?_)
      rw [hnotices]
      exact List.mem_cons_of_mem _ hmem
    · exact h.tags notice (List.mem_append_right _ hmem)
    · rw [hlinked.initial] at hmem
      split at hmem
      · simp at hmem
      · obtain ⟨msg, -, rfl⟩ := List.mem_map.mp hmem
        exact effectiveTag_empty
  · obtain ⟨seen, hseen, hlink, hheld⟩ := h.seen
    rw [hnotices, payloadAfter_cons] at hseen
    by_cases hpath : path = nodePath
    · subst hpath
      rw [if_pos rfl] at hseen
      refine ⟨payload, hseen, ?_, fun hnone => ?_⟩
      · rw [htarget]
        exact (hlinked.symlinks path).trans (if_pos rfl)
      · exact hplain rfl (htarget ▸ hnone)
    · rw [if_neg (Ne.symm hpath)] at hseen
      refine ⟨seen, hseen, ?_, fun hnone => ?_⟩
      · rw [← hlink]
        exact (hlinked.symlinks path).trans (if_neg hpath)
      · exact (hothers hpath).trans (hheld hnone)
  · have hlinks := hlinked.symlinks path
    simp only at hlink
    rw [hlink] at hlinks
    by_cases hpath : path = nodePath
    · subst hpath
      rw [if_pos rfl] at hlinks
      by_cases hnamed : target = ""
      · simp [hnamed] at hlinks
      · rw [if_neg hnamed, Option.some.injEq] at hlinks
        subst hlinks
        simp only
        rw [hshown rfl hnamed]
        exact h.followed_updateSymlink hnamed (hfinds.resolve_left hnamed)
    · rw [if_neg hpath] at hlinks
      simp only
      rw [hothers hpath,
        payloadAfter_initial hlinked (h.inverse.mem_keys hlinks.symm)]
      exact h.followed t hlinks.symm

theorem Coherent.gatewayTold (h : Coherent rules symlinkField s path v)
    (hfollowed : LinksFollowed symlinkField v .gatewayTold) :
    Coherent rules symlinkField s path
      (viewStep rules symlinkField v .gatewayTold) := by
  unfold viewStep
  cases hnotices : v.gatewayNotices with
  | nil => exact h
  | cons notice gatewayNotices =>
      obtain ⟨nodePath, payload, optOpTag⟩ := notice
      have htag : (v.gateway.mux.effectiveTag optOpTag).2 = none :=
        h.tags ⟨nodePath, payload, optOpTag⟩ (by simp [hnotices])
      have hfinds := hfollowed ⟨nodePath, payload, optOpTag⟩
        (by simp [hnotices])
      have hallowed : (!v.gateway.mux.allowedCallbacks.entries.isEmpty) =
          false := by
        simp [h.holds.allowed]
      simp only at hfinds
      simp only [symlinkStep, hallowed,
        SymlinkResolver.filterTreeNodeUpdate_eq]
      generalize htarget : SymlinkResolver.symlinkPath symlinkField payload =
        target at hfinds ⊢
      have hlinked :=
        SymlinkResolver.linked_updateSymlink nodePath target h.inverse
      have hcalls : ∀ call ∈ (v.gateway.symlinkResolver.updateSymlink .noError
          nodePath target).2, LeavesOutNobody v.gateway.mux call := by
        intro call hmem
        cases call with
        | addTreeSubscription target => trivial
        | removeTreeSubscription target => trivial
        | treeNodeUpdated path payload' tag =>
            obtain rfl : tag = "" := hlinked.tags path payload' tag hmem
            exact effectiveTag_empty
      obtain ⟨hgiven, hholds, heffective⟩ := h.holds.handOn hcalls
      by_cases hnamed : target = ""
      · -- the subscribers see the payload of the node itself
        have hseen : decide (target ≠ "") = false := by simp [hnamed]
        obtain ⟨hgiven', hholds'⟩ := hholds.notify nodePath payload
          ((congrArg Prod.snd (heffective optOpTag)).trans htag)
        rw [hseen]
        simp only [Bool.false_eq_true, if_false]
        refine h.updateSymlink hnotices htarget hfinds heffective ?_
          (fun hpath => ?_) (fun hpath _ => ?_) fun _ hother => ?_
        · rw [lastGiven_append, lastGiven_append, hgiven, hgiven']
          exact hholds'
        · rw [lastGiven_append, lastGiven_append, hgiven, hgiven',
            if_neg (Ne.symm hpath)]
          exact hlinked.others path _ hpath
        · rw [lastGiven_append, lastGiven_append, hgiven, hgiven',
            if_pos hpath.symm]
        · exact absurd hnamed hother
      · have hhidden : decide (target ≠ "") = true := by simp [hnamed]
        rw [hhidden]
        simp only [if_true, List.append_nil]
        refine h.updateSymlink hnotices htarget hfinds heffective ?_
          (fun hpath => ?_) (fun _ hnone => ?_) fun _ _ => ?_
        · rw [lastGiven_append, hgiven]
          exact hholds
        · rw [lastGiven_append, hgiven]
          exact hlinked.others path _ hpath
        · exact absurd hnone hnamed
        · rw [lastGiven_append, hgiven]

/-- **What holds on the way is kept** by every step that follows the links. -/
theorem Coherent.step {e : UpstreamEvent M}
    (h : Coherent rules symlinkField s path v)
    (hfollowed : LinksFollowed symlinkField v e) :
    Coherent rules symlinkField s path (viewStep rules symlinkField v e) := by
  cases e with
  | nodeUpdated nodePath payload optOpTag => exact h.nodeUpdated hfollowed
  | gatewayTold => exact h.gatewayTold hfollowed
  | resolverTold => exact h.resolverTold

/-- **Subscribers see what links resolve to**, in every run in which a link
that gets a new target finds it: when nothing is on its way, what a subscriber
of a path has been given last is what the path resolves to. -/
theorem symlinkViews_coherent (rules : PathMatching φ M)
    (symlinkField : M → String) (mux : MuxGateway σ φ)
    (es : List (UpstreamEvent M))
    (hfollowed : Runs.StepsMeet (viewStep rules symlinkField)
      (LinksFollowed symlinkField) (.start mux) es) :
    let v := Runs.run (viewStep rules symlinkField) (.start mux) es
    v.gatewayNotices = [] → v.resolverNotices = [] →
      ∀ s path, Subscribed rules mux s path →
        lastGiven v.callbacks s path =
          resolvedPayload symlinkField v.nodes path := by
  intro v hgateway hresolver s path hsubscribed
  have h : Coherent rules symlinkField s path v :=
    Runs.run_invariant_of_stepsMeet (I := Coherent rules symlinkField s path)
      (.start hsubscribed) hfollowed fun _ _ hcoherent hstep =>
        hcoherent.step hstep
  exact h.resolved hgateway hresolver

end Runs

/-- A subscriber of a path. -/
def oneSubscriber : MuxGateway ℕ ℕ where
  uniqueID := 42
  registrations := Registrations.nobody.register 1
  tables := (addSubscription plainRules true .ok 1 "p" none {}
    (registerSubscriber 1 (.initial true))).2
  allowedCallbacks := .empty

/-- Payloads that name one of two nodes. -/
def twoTargets (msg : ℕ) : String :=
  if msg = 0 then "a" else if msg = 1 then "b" else ""

theorem subscribed_oneSubscriber : Subscribed plainRules oneSubscriber 1 "p" :=
  ⟨_, rfl, fun _ => ⟨("p", none), by decide, by decide, by simp⟩⟩

/-- A node, a link to it, and its subscriber sees the node. -/
def linkedNode : List (UpstreamEvent ℕ) :=
  [.nodeUpdated "a" (some 5) "x", .nodeUpdated "p" (some 0) "x", .gatewayTold,
    .resolverTold]

/-- The link is set to another node, which changes and is deleted. -/
def retargetedLink : List (UpstreamEvent ℕ) :=
  linkedNode ++
    [.nodeUpdated "b" (some 6) "x", .nodeUpdated "p" (some 1) "x", .gatewayTold,
      .nodeUpdated "b" (some 7) "y", .resolverTold, .nodeUpdated "b" none "z",
      .resolverTold, .resolverTold]

theorem symlinkViews_coherent_retargetedLink :
    let v := Runs.run (viewStep plainRules twoTargets) (.start oneSubscriber)
      retargetedLink
    Runs.StepsMeet (viewStep plainRules twoTargets) (LinksFollowed twoTargets)
        (.start oneSubscriber) retargetedLink ∧
      lastGiven v.callbacks 1 "p" = resolvedPayload twoTargets v.nodes "p" := by
  have hfollowed : Runs.StepsMeet (viewStep plainRules twoTargets)
      (LinksFollowed twoTargets) (.start oneSubscriber) retargetedLink := by
    decide
  exact ⟨hfollowed, symlinkViews_coherent plainRules twoTargets oneSubscriber
    retargetedLink hfollowed rfl rfl 1 "p" subscribed_oneSubscriber⟩

/-- The link is set to a node that is not there. -/
def missingTarget : List (UpstreamEvent ℕ) :=
  linkedNode ++ [.nodeUpdated "p" (some 1) "x", .gatewayTold]

/-- **Of a target that is missing nobody hears**: the subscriber is left with
the payload of the link's old target. -/
theorem not_symlinkViews_coherent_missingTarget :
    let v := Runs.run (viewStep plainRules twoTargets) (.start oneSubscriber)
      missingTarget
    v.gatewayNotices = [] ∧ v.resolverNotices = [] ∧
      Subscribed plainRules oneSubscriber 1 "p" ∧
      lastGiven v.callbacks 1 "p" = some 5 ∧
      resolvedPayload twoTargets v.nodes "p" = none :=
  ⟨rfl, rfl, subscribed_oneSubscriber, by decide, by decide⟩

end ZgChoir.Symlinks
