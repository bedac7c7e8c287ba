import ZgChoir.Discovery

/-!
# The targets' views of the systems

Whoever sets what a target is told to set, and removes what it is told to
remove, has a view of the systems.  After a dispatch all the targets have the
same view, no matter when they were registered: that of who has followed the
grabbed reports from the beginning.  Once no report is pending, it is what the
raw results say.

What carries this through a run (`Sound`) is that the grabbed reports, the
waiting ones and those that the thread has still to make lead, one after
another, to the results that the thread has adopted.

The view of a target that unregisters and comes back begins again.
-/

namespace ZgChoir.Discovery

open Hashtable (applyUpdates)

section

variable {τ Addr M : Type}

/-- The updates among what a target has been told. -/
def updatesOf (told : List (TargetCallback M)) :
    List (String × Option (SystemInfo M)) :=
  told.filterMap fun
    | .discoveryUpdate systemName optSystemInfo =>
        some (systemName, optSystemInfo)
    | .computerIsAboutToSleep | .computerJustWokeUp => none

theorem updatesOf_append {told later : List (TargetCallback M)} :
    updatesOf (told ++ later) = updatesOf told ++ updatesOf later :=
  List.filterMap_append

/-- The systems, as a target has been told. -/
def DiscoveryHistory.viewOf (t : DiscoveryHistory τ Addr M) (target : τ) :
    String → Option (SystemInfo M) :=
  applyUpdates (fun _ => none) (updatesOf (t.received target))

/-- The systems, as the grabbed reports have it. -/
def DiscoveryHistory.grabbedView (t : DiscoveryHistory τ Addr M) :
    String → Option (SystemInfo M) :=
  applyUpdates (fun _ => none) t.grabbed

/-- The raw results have not changed since they were looked at, and what there
was to report has been grabbed. -/
def DiscoveryClient.NoReportPending (c : DiscoveryClient τ Addr M) : Prop :=
  c.manager.updateResultSetPending = false ∧ c.reports = [] ∧
    c.pendingUpdates = .empty

end

/-! ## The thread -/

theorem RawDiscoveryResult.update_data {M : Type} [DecidableEq M]
    {r : RawDiscoveryResult M} {newData : M} {newExpirationTime : UInt64}
    (h : (r.update newData newExpirationTime).1 = false) :
    (r.update newData newExpirationTime).2.data = r.data := by
  by_cases hsame : r.data = newData
  · rw [update, if_pos hsame]
  · rw [update, if_neg hsame] at h
    simp at h

namespace DiscoveryManager

variable {Addr M : Type} [DiscoveryMessage M] {m : DiscoveryManager Addr M}
  {raw raw' : RawResults Addr M} {now : UInt64}

/-- What has been adopted is what the raw results say, unless they have
changed. -/
def UpToDate (m : DiscoveryManager Addr M) : Prop :=
  m.updateResultSetPending = false →
    m.reportedCookedResults.get? =
      (calculateCookedResults m.rawDiscoveryResults).get?

/-- Only the data count. -/
theorem calculateCookedResults_congr
    (h : raw'.entries.map (fun e => e.2.data) =
      raw.entries.map fun e => e.2.data) :
    calculateCookedResults raw' = calculateCookedResults raw := by
  have hfold : ∀ r : RawResults Addr M,
      r.entries.foldl (fun t e => addPeerInfo t e.2.data) .empty =
        (r.entries.map fun e => e.2.data).foldl addPeerInfo .empty := by
    intro r
    rw [List.foldl_map]
  rw [calculateCookedResults, calculateCookedResults, hfold, hfold, h]

variable [DecidableEq M] [LinearOrder Addr]

omit [LinearOrder Addr] in
theorem UpToDate.refreshExpirationTimes (h : m.UpToDate) :
    (m.refreshExpirationTimes now).UpToDate := by
  intro hpending
  have hdata : (m.refreshExpirationTimes now).rawDiscoveryResults.entries.map
      (fun e => e.2.data) =
        m.rawDiscoveryResults.entries.map fun e => e.2.data := by
    simp [DiscoveryManager.refreshExpirationTimes, Hashtable.mapValues,
      RawDiscoveryResult.update, Function.comp_def]
  rw [calculateCookedResults_congr hdata]
  exact h hpending

omit [DecidableEq M] in
theorem UpToDate.expireSources (h : m.UpToDate) :
    (m.expireSources now).UpToDate := by
  intro hpending
  obtain ⟨hsame, hnone⟩ : m.updateResultSetPending = false ∧
      m.rawDiscoveryResults.entries.filter
        (fun e => decide (e.2.expirationTime ≤ now)) = [] := by
    simpa [DiscoveryManager.expireSources] using hpending
  have hraw : (m.expireSources now).rawDiscoveryResults =
      m.rawDiscoveryResults := by
    rw [DiscoveryManager.expireSources, hnone]
    rfl
  rw [hraw]
  exact h hsame

/-- A raw result with other data leaves an update of the result set
pending. -/
theorem UpToDate.rawDiscoveryResultReceived {localIAP sourceIAP : Addr}
    {peerID : ZGPeerID} {dataMsg : M} (h : m.UpToDate) :
    let m' := m.rawDiscoveryResultReceived localIAP sourceIAP peerID dataMsg now
    m'.UpToDate ∧ m'.reportedCookedResults = m.reportedCookedResults := by
  simp only [DiscoveryManager.rawDiscoveryResultReceived]
  split
  · exact ⟨h, rfl⟩
  · split
    · next r hr =>
      refine ⟨fun hpending => ?_, rfl⟩
      obtain ⟨hsame, hunchanged⟩ := Bool.or_eq_false_iff.mp hpending
      rw [calculateCookedResults_congr (Hashtable.map_entries_put hr
        (RawDiscoveryResult.update_data hunchanged))]
      exact h hsame
    · exact ⟨fun hpending => by simp at hpending, rfl⟩

theorem UpToDate.messageReceived [ToString Addr] (h : m.UpToDate)
    (multicastIAP sourceLoc : Addr) (newDataMsg : M) (now : UInt64) :
    let m' := m.messageReceived multicastIAP sourceLoc newDataMsg now
    m'.UpToDate ∧ m'.reportedCookedResults = m.reportedCookedResults := by
  simp only [DiscoveryManager.messageReceived]
  split
  · split
    · exact h.rawDiscoveryResultReceived
    · exact ⟨h, rfl⟩
  · exact ⟨h, rfl⟩

/-- **A pulse reports** what leads from the old results to those it adopts. -/
theorem UpToDate.pulse (h : m.UpToDate) (scheduledTime now : UInt64) :
    let pulsed := m.pulse scheduledTime now
    pulsed.1.UpToDate ∧
      applyUpdates m.reportedCookedResults.get? pulsed.2 =
        pulsed.1.reportedCookedResults.get? := by
  intro pulsed
  let lateBy := now - scheduledTime
  let m₁ := if 0 ≤ lateBy.toInt64 ∧ m.pingInterval ≤ lateBy then
    m.refreshExpirationTimes now else m
  have hrefreshed : m₁.UpToDate ∧
      m₁.reportedCookedResults = m.reportedCookedResults := by
    simp only [m₁]
    split
    · exact ⟨h.refreshExpirationTimes, rfl⟩
    · exact ⟨h, rfl⟩
  let m₂ := if m₁.nextPingTime ≤ now then m₁.expireSources now else m₁
  have hexpired : m₂.UpToDate ∧
      m₂.reportedCookedResults = m₁.reportedCookedResults := by
    simp only [m₂]
    split
    · exact ⟨hrefreshed.1.expireSources, rfl⟩
    · exact ⟨hrefreshed.1, rfl⟩
  have hpulsed : pulsed = if m₂.updateResultSetPending = true then
      m₂.updateResultSet else (m₂, []) := rfl
  rw [hpulsed, ← hrefreshed.2, ← hexpired.2]
  split
  · exact ⟨fun _ => rfl, Hashtable.applyUpdates_changes⟩
  · exact ⟨hexpired.1, rfl⟩

end DiscoveryManager

/-! ## The targets -/

section Targets

variable {τ Addr M : Type} [DiscoveryMessage M]
  {t : DiscoveryHistory τ Addr M}

/-- What the grabbed reports, the waiting ones and those to come lead to. -/
def DiscoveryHistory.reportedView (t : DiscoveryHistory τ Addr M) :
    String → Option (SystemInfo M) :=
  applyUpdates (applyUpdates t.grabbedView t.client.pendingUpdates.entries)
    t.client.reports

variable [DecidableEq τ]

/-- What holds in every state of a client. -/
structure Sound (t : DiscoveryHistory τ Addr M) : Prop where
  upToDate : t.client.manager.UpToDate
  reported : t.reportedView = t.client.manager.reportedCookedResults.get?
  known : t.client.knownInfos.get? = t.grabbedView
  told target : t.client.targets.get? target = some false →
    t.viewOf target = t.grabbedView
  untold target : t.client.targets.get? target = some true →
    updatesOf (t.received target) = [] ∧
      (t.client.dispatching.getD t.client.requestedBits).update = true

theorem sound_started {pingInterval now : UInt64}
    {queryFilter : Option (M → Bool)} :
    Sound (.started pingInterval now queryFilter :
      DiscoveryHistory τ Addr M) := by
  constructor
  · intro _
    rfl
  · rfl
  · rfl
  · intro target _
    rfl
  · intro target htarget
    simp [DiscoveryHistory.started] at htarget

/-- A report that is put into the table is no longer to come. -/
theorem Sound.reportNext (h : Sound t) :
    Sound { t with client := t.client.reportNext } := by
  unfold DiscoveryClient.reportNext
  split
  · refine ⟨h.upToDate, h.reported, h.known, h.told, fun target hnew => ?_⟩
    obtain ⟨hnothing, hscheduled⟩ := h.untold target hnew
    refine ⟨hnothing, ?_⟩
    cases hdispatching : t.client.dispatching with
    | none => simp [DiscoveryClient.scheduleDiscoveryUpdate, hdispatching]
    | some eventTypeBits =>
        rw [hdispatching] at hscheduled
        simpa [DiscoveryClient.scheduleDiscoveryUpdate, hdispatching] using
          hscheduled
  · split
    · exact h
    · next systemName msg reports hreports =>
      refine ⟨h.upToDate, ?_, h.known, h.told, h.untold⟩
      have hreported := h.reported
      rw [DiscoveryHistory.reportedView, hreports, Hashtable.applyUpdates_cons,
        ← Hashtable.applyUpdates_put] at hreported
      exact hreported

/-- A new target has been told nothing, and will be. -/
theorem Sound.registerTarget {newTarget : τ} (h : Sound t)
    (hdispatching : t.client.dispatching = none) :
    Sound { t with
      client := t.client.registerTarget newTarget
      received := Function.update t.received newTarget [] } := by
  refine ⟨h.upToDate, h.reported, h.known, fun target hold => ?_,
    fun target hnew => ?_⟩
  · simp only [DiscoveryClient.registerTarget, Hashtable.get?_put] at hold
    split at hold
    · simp at hold
    · next hother =>
      have hview := h.told target hold
      simpa [DiscoveryHistory.viewOf, DiscoveryHistory.grabbedView, hother] using
        hview
  · simp only [DiscoveryClient.registerTarget, Hashtable.get?_put,
      DiscoveryClient.scheduleDiscoveryUpdate, hdispatching] at hnew ⊢
    refine ⟨?_, rfl⟩
    split at hnew
    · next hsame =>
      rw [hsame, Function.update_self]
      rfl
    · next hother =>
      rw [Function.update_of_ne hother]
      exact (h.untold target hnew).1

theorem Sound.unregisterTarget {target : τ} (h : Sound t) :
    Sound { t with client := t.client.unregisterTarget target } := by
  have hstill : ∀ {other isNewTarget},
      (t.client.unregisterTarget target).targets.get? other =
        some isNewTarget →
      t.client.targets.get? other = some isNewTarget := by
    intro other isNewTarget hother
    rw [DiscoveryClient.unregisterTarget, Hashtable.get?_remove] at hother
    split at hother
    · simp at hother
    · exact hother
  exact ⟨h.upToDate, h.reported, h.known,
    fun other hother => h.told other (hstill hother),
    fun other hother => h.untold other (hstill hother)⟩

omit [DiscoveryMessage M] in
/-- The updates of a dispatch are those for the target. -/
theorem updatesOf_callbacks {c : DiscoveryClient τ Addr M}
    {eventTypeBits : EventBits} {target : τ} :
    updatesOf (((c.callbacks eventTypeBits).get? target).getD []) =
      match c.targets.get? target with
      | some isNewTarget =>
          if eventTypeBits.update = true then
            updatesFor isNewTarget c.knownInfos c.pendingUpdates
          else []
      | none => [] := by
  have hupdates : ∀ us : List (String × Option (SystemInfo M)),
      updatesOf (us.map fun u => .discoveryUpdate u.1 u.2) = us := by
    intro us
    simp [updatesOf, List.filterMap_map]
  have hsleep : ∀ b : Bool, updatesOf (M := M)
      (if b = true then [.computerIsAboutToSleep] else []) = [] := by
    rintro (_ | _) <;> rfl
  have hawake : ∀ b : Bool, updatesOf (M := M)
      (if b = true then [.computerJustWokeUp] else []) = [] := by
    rintro (_ | _) <;> rfl
  rw [DiscoveryClient.callbacks, Hashtable.get?_mapValues]
  cases c.targets.get? target with
  | none => rfl
  | some isNewTarget =>
      simp only [Option.map_some, Option.getD_some, updatesOf_append, hsleep,
        hawake, List.append_nil]
      split
      · exact hupdates _
      · rfl

/-- **A dispatch tells all the targets the same.** -/
theorem Sound.dispatchCallbacks (h : Sound t) {eventTypeBits : EventBits}
    (hdispatching : t.client.dispatching = some eventTypeBits) :
    Sound
      { client :=
          { t.client.dispatchCallbacks eventTypeBits with dispatching := none }
        received := fun target => t.received target ++
          ((t.client.callbacks eventTypeBits).get? target).getD []
        grabbed := t.grabbed ++
          if eventTypeBits.update = true then t.client.pendingUpdates.entries
          else [] } := by
  by_cases hupdate : eventTypeBits.update = true
  · simp only [DiscoveryClient.dispatchCallbacks, if_pos hupdate]
    refine ⟨h.upToDate, ?_, ?_, fun target hold => ?_, fun target hnew => ?_⟩
    · rw [← h.reported, DiscoveryHistory.reportedView,
        DiscoveryHistory.grabbedView, Hashtable.applyUpdates_append]
      rfl
    · rw [Hashtable.get?_foldl_putOrRemove, h.known,
        DiscoveryHistory.grabbedView, DiscoveryHistory.grabbedView,
        Hashtable.applyUpdates_append]
    · rw [Hashtable.get?_mapValues, Option.map_eq_some_iff] at hold
      obtain ⟨isNewTarget, htarget, -⟩ := hold
      simp only [DiscoveryHistory.viewOf, DiscoveryHistory.grabbedView,
        updatesOf_append, updatesOf_callbacks, htarget, if_pos hupdate,
        Hashtable.applyUpdates_append]
      cases isNewTarget with
      | true =>
          rw [(h.untold target htarget).1, updatesFor, if_pos rfl,
            Hashtable.applyUpdates_nil, Hashtable.applyUpdates_snapshot,
            h.known]
          rfl
      | false =>
          have hview := h.told target htarget
          rw [DiscoveryHistory.viewOf, DiscoveryHistory.grabbedView] at hview
          rw [hview, updatesFor, if_neg Bool.false_ne_true]
    · simp at hnew
  · simp only [DiscoveryClient.dispatchCallbacks, if_neg hupdate,
      List.append_nil]
    refine ⟨h.upToDate, h.reported, h.known, fun target hold => ?_,
      fun target hnew => ?_⟩
    · rw [DiscoveryHistory.viewOf, updatesOf_append, updatesOf_callbacks, hold]
      simp only [if_neg hupdate, List.append_nil]
      exact h.told target hold
    · have hscheduled := (h.untold target hnew).2
      rw [hdispatching] at hscheduled
      exact absurd hscheduled hupdate

variable [LinearOrder Addr] [ToString Addr] [DecidableEq M]
  {e : DiscoveryEvent τ Addr M}

theorem Sound.step (h : Sound t) : Sound (discoveryStep t e) := by
  cases e with
  | messageReceived multicastIAP sourceLoc newDataMsg now =>
      simp only [discoveryStep]
      split
      · obtain ⟨hupToDate, hsame⟩ := h.upToDate.messageReceived multicastIAP
          sourceLoc newDataMsg now
        exact ⟨hupToDate, h.reported.trans (congrArg Hashtable.get? hsame.symm),
          h.known, h.told, h.untold⟩
      · exact h
  | pulse scheduledTime now =>
      simp only [discoveryStep]
      split
      · next hidle =>
        have hnothing : t.client.reports = [] := by
          simpa using (Bool.and_eq_true_iff.mp hidle).1
        obtain ⟨hupToDate, hreports⟩ := h.upToDate.pulse scheduledTime now
        refine ⟨hupToDate, ?_, h.known, h.told, h.untold⟩
        have hreported := h.reported
        rw [DiscoveryHistory.reportedView, hnothing,
          Hashtable.applyUpdates_nil] at hreported
        rw [← hreports, ← hreported]
        rfl
      · exact h
  | reportNext => exact h.reportNext
  | reportSleepNotification isAboutToSleep =>
      simp only [discoveryStep]
      split
      · refine ⟨h.upToDate, h.reported, h.known, h.told, fun target hnew => ?_⟩
        have hscheduled := h.untold target hnew
        refine ⟨hscheduled.1, ?_⟩
        cases hdispatching : t.client.dispatching with
        | none =>
            simpa [DiscoveryClient.reportSleepNotification, hdispatching] using
              hscheduled.2
        | some eventTypeBits =>
            simpa [DiscoveryClient.reportSleepNotification, hdispatching] using
              hscheduled.2
      · exact h
  | registerTarget newTarget =>
      simp only [discoveryStep]
      split
      · next hfree => exact h.registerTarget hfree.1
      · exact h
  | unregisterTarget target =>
      simp only [discoveryStep]
      split
      · exact h.unregisterTarget
      · exact h
  | takeEventTypeBits =>
      simp only [discoveryStep]
      split
      · next hrequested =>
        refine ⟨h.upToDate, h.reported, h.known, h.told, fun target hnew => ?_⟩
        have hscheduled := h.untold target hnew
        rw [hrequested.1] at hscheduled
        exact hscheduled
      · exact h
  | dispatchCallbacks =>
      simp only [discoveryStep]
      cases hdispatching : t.client.dispatching with
      | none => exact h
      | some eventTypeBits => exact h.dispatchCallbacks hdispatching

/-- After a dispatch there is no new target. -/
theorem Sound.told_of_dispatch (h : Sound t) {target : τ}
    (hdispatching : t.client.dispatching ≠ none) :
    (discoveryStep t .dispatchCallbacks).client.targets.get? target ≠
      some true := by
  obtain ⟨eventTypeBits, hbits⟩ := Option.ne_none_iff_exists'.mp hdispatching
  simp only [discoveryStep, hbits, DiscoveryClient.dispatchCallbacks]
  intro hnew
  split at hnew
  · simp at hnew
  · next hupdate =>
    have hscheduled := (h.untold target hnew).2
    rw [hbits] at hscheduled
    exact hupdate hscheduled

/-- **The targets' views converge.**  In every run of a started client, a
target that a dispatch has told has the view of who has followed the grabbed
reports from the beginning, and it is what the raw results say once no report
is pending; and a dispatch leaves no target untold. -/
theorem views_converge (pingInterval now : UInt64)
    (queryFilter : Option (M → Bool)) (es : List (DiscoveryEvent τ Addr M)) :
    let t := Runs.run discoveryStep (.started pingInterval now queryFilter) es
    (∀ target, t.client.targets.get? target = some false →
      t.viewOf target = t.grabbedView ∧
        (t.client.NoReportPending → t.viewOf target =
          (calculateCookedResults t.client.manager.rawDiscoveryResults).get?)) ∧
    (t.client.dispatching ≠ none → ∀ target,
      (discoveryStep t .dispatchCallbacks).client.targets.get? target ≠
        some true) := by
  intro t
  have h : Sound t :=
    Runs.run_invariant sound_started fun _ _ hsound => hsound.step
  refine ⟨fun target htold => ⟨h.told target htold, ?_⟩,
    fun hdispatching target => h.told_of_dispatch hdispatching⟩
  rintro ⟨hunchanged, hreports, hpending⟩
  have hreported := h.reported
  rw [DiscoveryHistory.reportedView, hreports, hpending] at hreported
  rw [h.told target htold, ← h.upToDate hunchanged, ← hreported]
  rfl

end Targets

/-- A message that says nothing but whose it is. -/
structure Pong where
  peerID : ZGPeerID
  systemName : String
  deriving DecidableEq

instance : DiscoveryMessage Pong where
  isPong _ := true
  findPeerID pong := some pong.peerID
  findSystemName pong := some pong.systemName
  addSource pong _ := some pong

/-- A system answers and is reported to a target; another target comes late. -/
def lateTarget : List (DiscoveryEvent ℕ ℕ Pong) :=
  [.registerTarget 1, .messageReceived 7 8 ⟨⟨0, 5⟩, "choir"⟩ 1, .pulse 2 2,
    .reportNext, .reportNext, .takeEventTypeBits, .dispatchCallbacks,
    .registerTarget 2, .takeEventTypeBits, .dispatchCallbacks]

/-- The late target knows the system that was reported before. -/
theorem views_converge_lateTarget :
    let t := Runs.run discoveryStep (.started 10 0 none) lateTarget
    t.viewOf 2 = t.grabbedView ∧
      t.viewOf 2 = (calculateCookedResults
        t.client.manager.rawDiscoveryResults).get? ∧
      t.viewOf 2 "choir" = some ⟨[⟨⟨0, 5⟩, "choir"⟩]⟩ := by
  intro t
  obtain ⟨hgrabbed, hcooked⟩ :=
    (views_converge 10 0 none lateTarget).1 2 (by decide)
  exact ⟨hgrabbed, hcooked ⟨by decide, by decide, rfl⟩, by decide⟩

end ZgChoir.Discovery
