import ZgChoir.MuxNotifications
import ZgChoir.SubscriptionRollback

/-!
# Deletions reach who knows the node

A gateway remembers for each subscriber the paths of which it has given it a
value, and passes a deletion on to those only that it has given one.  Who
uploads a node and wants no reply is passed over on the way, and so is the
gateway's memory of what it knows: it knows of a node that it has uploaded,
and hears nothing when another party deletes it; it has deleted a node, and
hears of it once more.

`known` is what a subscriber knows, by its callbacks and by its own uploads.
The memory agrees with it as long as it agrees with every upload that is
passed over (`Noticed`).
-/

namespace ZgChoir.MuxNotifications

open MuxSubscriptions

variable {σ φ M : Type}

/-- Where an update comes from: from an upload through the gateway, made under
the registration of that time, or from another party. -/
inductive Origin (σ : Type) where
  | upload (calledBy : σ) (sentBy : Registrations σ) (flags : TreeGatewayFlags)
      (optOpTag : String)
  | other (optOpTag : String)

/-- What happens to a gateway; the subscriptions are made and taken back
without failures. -/
inductive UpdateEvent (σ φ M : Type) where
  | nodeUpdated (origin : Origin σ) (path : String) (nodeMsg : Option M)
  | registerSubscriber (s : σ)
  | unregisterSubscriber (answers : String → Answer) (s : σ)
  | addSubscription (calledBy : σ) (path : String) (filter : Option φ)
      (flags : TreeGatewayFlags)
  | removeSubscription (answer : Answer) (calledBy : σ) (path : String)
      (filter : Option φ) (flags : TreeGatewayFlags)
  | localPeerPonged (allowed : Hashtable (Option σ) Unit)

/-- A gateway, and of which nodes its subscribers know. -/
structure Known (σ φ : Type) where
  gateway : MuxGateway σ φ
  known : σ → List String

section Model

variable [DecidableEq σ] (rules : PathMatching φ M)

/-- The tag with which an update comes back. -/
def Origin.tag (g : MuxGateway σ φ) : Origin σ → String
  | .upload calledBy sentBy flags optOpTag =>
      if flags.noReply then
        { g with registrations := sentBy }.tagToExcludeClientFromReplies
          calledBy optOpTag
      else optOpTag
  | .other optOpTag => optOpTag

/-- Who has made an update and wants no reply. -/
def Origin.quietUploader : Origin σ → Option σ
  | .upload calledBy _ flags _ => if flags.noReply then some calledBy else none
  | .other _ => none

/-- What a subscriber is told of an update. -/
def told (g : MuxGateway σ φ) (origin : Origin σ) (path : String)
    (nodeMsg : Option M) (s : σ) : List (Notification M) :=
  ((g.notify rules (.nodeUpdated path nodeMsg) (origin.tag g)).1.filter
    fun cb => decide (cb.sub = s)).map (·.notification)

/-- A node that is known from now on, or not any more. -/
def learn (known : List String) (path : String) (isThere : Bool) :
    List String :=
  if isThere then path :: known
  else known.filter fun p => decide (p ≠ path)

/-- What a subscriber knows after an update: by what it is told, or by what it
has uploaded itself, if its subscription matches that. -/
def knownAfter (t : Known σ φ) (origin : Origin σ) (path : String)
    (nodeMsg : Option M) (s : σ) : List String :=
  match told rules t.gateway origin path nodeMsg s with
  | .nodeUpdated _ msg :: _ => learn (t.known s) path msg.isSome
  | _ =>
      if origin.quietUploader = some s ∧ (nodeMsg = none ∨
          ∃ info ∈ t.gateway.infoOf s, info.MatchesPath rules path nodeMsg) then
        learn (t.known s) path nodeMsg.isSome
      else t.known s

/-- What a subscriber keeps of its knowledge when its subscriptions change. -/
def stillKnown (g : MuxGateway σ φ) (known : σ → List String) (s : σ) :
    List String :=
  (known s).filter fun p =>
    decide (∃ info ∈ g.infoOf s, info.MatchesPath rules p none)

/-- The tables have changed. -/
def Known.setTables (t : Known σ φ) (tables : MuxState σ φ) : Known σ φ :=
  { gateway := { t.gateway with tables }
    known := stillKnown rules { t.gateway with tables } t.known }

variable [DecidableEq φ]

/-- One event. -/
def knownStep (t : Known σ φ) : UpdateEvent σ φ M → Known σ φ
  | .nodeUpdated origin path nodeMsg =>
      { gateway := (t.gateway.notify rules (.nodeUpdated path nodeMsg)
          (origin.tag t.gateway)).2
        known := knownAfter rules t origin path nodeMsg }
  | .registerSubscriber s =>
      let t' := t.setTables rules (registerSubscriber s t.gateway.tables)
      { t' with gateway := { t'.gateway with
          registrations := t'.gateway.registrations.register s } }
  | .unregisterSubscriber answers s =>
      let t' := t.setTables rules
        (unregisterSubscriber rules answers s t.gateway.tables).1
      { t' with gateway := { t'.gateway with
          registrations := t'.gateway.registrations.unregister s
          allowedCallbacks :=
            if some s ∈ t'.gateway.allowedCallbacks.keys then
              (t'.gateway.allowedCallbacks.remove (some s)).put none ()
            else t'.gateway.allowedCallbacks } }
  | .addSubscription calledBy path filter flags =>
      t.setTables rules (addSubscription rules true .ok calledBy path filter
        flags t.gateway.tables).2
  | .removeSubscription answer calledBy path filter flags =>
      t.setTables rules (removeSubscription rules answer calledBy path filter
        flags t.gateway.tables).2.1
  | .localPeerPonged allowed =>
      { t with gateway := { t.gateway with allowedCallbacks := allowed } }

omit [DecidableEq φ] in
/-- A gateway that is new. -/
def Known.initial (uniqueID : UInt64) (isConnected : Bool) : Known σ φ where
  gateway := ⟨uniqueID, .nobody, .initial isConnected, .empty⟩
  known _ := []

omit [DecidableEq φ] in
/-- A deletion by another party is told once to each that knows the node and
has a subscription that matches it, and nobody is told of a deletion of a node
that it does not know. -/
def DeletionReaches (t : Known σ φ) : UpdateEvent σ φ M → Prop
  | .nodeUpdated origin path nodeMsg =>
      ∀ s,
        (nodeMsg = none → origin.quietUploader ≠ some s →
          path ∈ t.known s →
          (∃ info ∈ t.gateway.infoOf s, info.MatchesPath rules path nodeMsg) →
            told rules t.gateway origin path nodeMsg s =
              [.nodeUpdated path none]) ∧
        (.nodeUpdated path none ∈ told rules t.gateway origin path nodeMsg s →
          path ∈ t.known s)
  | _ => True

omit [DecidableEq φ] in
/-- Whether an update passes a subscriber over. -/
def PassedOver (g : MuxGateway σ φ) (origin : Origin σ) (s : σ) : Prop :=
  ¬(g.Allows s ∧ (g.effectiveTag (origin.tag g)).2 ≠ some s)

omit [DecidableEq φ] in
/-- Of whom an update passes over, it does not concern the memory: a deletion
is of a node that the subscriber has not been given, and an own upload of one
that it has. -/
def Noticed (t : Known σ φ) : UpdateEvent σ φ M → Prop
  | .nodeUpdated origin path nodeMsg =>
      ∀ e ∈ t.gateway.tables.subscriberInfos.entries, ∀ info ∈ e.2,
        PassedOver t.gateway origin e.1 →
          (nodeMsg = none → path ∉ info.receivedPaths) ∧
          (nodeMsg ≠ none → origin.quietUploader = some e.1 →
            info.MatchesPath rules path nodeMsg → path ∈ info.receivedPaths)
  | _ => True

omit [DecidableEq φ] in
instance decidablePassedOver (g : MuxGateway σ φ) (origin : Origin σ) (s : σ) :
    Decidable (PassedOver g origin s) :=
  inferInstanceAs (Decidable ¬(_ ∧ _))

omit [DecidableEq φ] in
instance decidableNoticed (t : Known σ φ) :
    ∀ e : UpdateEvent σ φ M, Decidable (Noticed rules t e)
  | .nodeUpdated _ _ _ => inferInstanceAs (Decidable (∀ _ ∈ _, ∀ _ ∈ _, _))
  | .registerSubscriber _ => .isTrue trivial
  | .unregisterSubscriber _ _ => .isTrue trivial
  | .addSubscription _ _ _ _ => .isTrue trivial
  | .removeSubscription _ _ _ _ _ => .isTrue trivial
  | .localPeerPonged _ => .isTrue trivial

end Model

/-! ## Updates -/

section Updates

variable [DecidableEq σ] {rules : PathMatching φ M} {t : Known σ φ}
  {g : MuxGateway σ φ} {origin : Origin σ} {path p : String}
  {nodeMsg : Option M} {s : σ} {info : TreeSubscriberInfo φ}

/-- What a subscriber knows is what the gateway remembers, and of that its
subscriptions match everything. -/
structure Remembers (rules : PathMatching φ M) (t : Known σ φ) : Prop where
  known (s : σ) (p : String) : p ∈ t.known s ↔
    ∃ info ∈ t.gateway.infoOf s, p ∈ info.receivedPaths
  matching (s : σ) : ∀ info ∈ t.gateway.infoOf s, ∀ p ∈ info.receivedPaths,
    info.MatchesPath rules p none

theorem infoOf_eq_some_iff : g.infoOf s = some info ↔
    (s, some info) ∈ g.tables.subscriberInfos.entries := by
  rw [← Hashtable.get?_eq_some_iff, MuxGateway.infoOf, Option.join_eq_some_iff]

/-- What is told of an update: nothing, or one thing. -/
theorem told_eq (hinfo : g.infoOf s = some info) :
    told rules g origin path nodeMsg s =
      if PassedOver g origin s then []
      else if nodeMsg ≠ none ∧ info.MatchesPath rules path nodeMsg then
        [.nodeUpdated path nodeMsg]
      else if path ∈ info.receivedPaths then [.nodeUpdated path none]
      else [] := by
  rw [told, MuxGateway.notify_callbacks]
  by_cases hpassed : PassedOver g origin s
  · rw [if_pos hpassed, if_neg fun h => hpassed ⟨h.1.1, h.2⟩]
    rfl
  · obtain ⟨hallows, hleft⟩ := not_not.mp hpassed
    have hconcerns : g.Concerns rules (.nodeUpdated path nodeMsg) s ↔
        nodeMsg ≠ none ∧ info.MatchesPath rules path nodeMsg ∨
          path ∈ info.receivedPaths := by
      simp [MuxGateway.Concerns, hallows, hinfo]
    have htold : g.toldAs rules (.nodeUpdated path nodeMsg) s =
        .nodeUpdated path
          (if info.MatchesPath rules path nodeMsg then nodeMsg else none) := by
      simp [MuxGateway.toldAs, hinfo]
    rw [if_neg hpassed, htold]
    by_cases hvalue : nodeMsg ≠ none ∧ info.MatchesPath rules path nodeMsg
    · rw [if_pos ⟨hconcerns.mpr (.inl hvalue), hleft⟩, if_pos hvalue,
        if_pos hvalue.2]
      rfl
    · have hnone : (if info.MatchesPath rules path nodeMsg then nodeMsg
          else none) = none := by
        split
        · next hmatch =>
          by_contra hsome
          exact hvalue ⟨hsome, hmatch⟩
        · rfl
      rw [if_neg hvalue, hnone]
      by_cases hpath : path ∈ info.receivedPaths
      · rw [if_pos ⟨hconcerns.mpr (.inr hpath), hleft⟩, if_pos hpath]
        rfl
      · have hnot : ¬g.Concerns rules (.nodeUpdated path nodeMsg) s := by
          rw [hconcerns]
          exact not_or.mpr ⟨hvalue, hpath⟩
        rw [if_neg fun h => hnot h.1, if_neg hpath]
        rfl

theorem told_eq_nil (hinfo : g.infoOf s = none) :
    told rules g origin path nodeMsg s = [] := by
  rw [told, MuxGateway.notify_callbacks, if_neg]
  · rfl
  · rintro ⟨⟨-, info, hmem, -⟩, -⟩
    simp [hinfo] at hmem

/-- What an update does to a table. -/
theorem infoOf_notify : (g.notify rules (.nodeUpdated path nodeMsg)
    (origin.tag g)).2.infoOf s = (g.infoOf s).map fun info =>
      if PassedOver g origin s then info
      else (updateInfo rules path nodeMsg info).1 := by
  cases hget : g.tables.subscriberInfos.get? s with
  | none => simp [MuxGateway.notify, MuxGateway.infoOf,
      MuxGateway.afterNodeCallbacks, hget]
  | some own =>
      cases own with
      | none =>
          simp only [MuxGateway.notify, MuxGateway.infoOf,
            MuxGateway.afterNodeCallbacks, Hashtable.get?_mapValues, hget]
          simp
      | some info =>
          have hinfo : g.infoOf s = some info := by simp [MuxGateway.infoOf, hget]
          have hmem := MuxGateway.mem_iterated hinfo
          rw [hinfo]
          simp only [MuxGateway.notify, MuxGateway.infoOf,
            MuxGateway.afterNodeCallbacks, Hashtable.get?_mapValues, hget]
          by_cases hpassed : PassedOver g origin s
          · have hskip : ¬(s ∈ g.iterated ∧
                (g.effectiveTag (origin.tag g)).2 ≠ some s) := by
              rw [hmem]
              exact hpassed
            simp [hpassed, hskip]
          · have hvisit : s ∈ g.iterated ∧
                (g.effectiveTag (origin.tag g)).2 ≠ some s := by
              rw [hmem]
              exact not_not.mp hpassed
            simp [hpassed, hvisit]

theorem mem_receivedPaths_updateInfo :
    p ∈ (updateInfo rules path nodeMsg info).1.receivedPaths ↔
      if nodeMsg ≠ none ∧ info.MatchesPath rules path nodeMsg then
        p = path ∨ p ∈ info.receivedPaths
      else p ∈ info.receivedPaths ∧ p ≠ path := by
  have hremove : p ∈ (updateSubscriber info path (none :
      Option M)).1.receivedPaths ↔ p ∈ info.receivedPaths ∧ p ≠ path := by
    simp only [updateSubscriber]
    split
    · simp
    · next hpath =>
      have hne : p ∈ info.receivedPaths → p ≠ path := fun hp heq =>
        hpath (heq ▸ hp)
      exact ⟨fun hp => ⟨hp, hne hp⟩, And.left⟩
  unfold updateInfo
  cases nodeMsg with
  | none => simpa using hremove
  | some msg =>
      by_cases hmatch : info.MatchesPath rules path (some msg)
      · simp only [ne_eq, reduceCtorEq, not_false_eq_true,
          hmatch, and_self, if_true, updateSubscriber]
        split
        · next hpath =>
          exact ⟨.inr, fun h => h.elim (fun heq => heq ▸ hpath) id⟩
        · simp [or_comm]
      · simpa [hmatch] using hremove

theorem mem_learn {known : List String} {isThere : Bool} :
    p ∈ learn known path isThere ↔
      if isThere = true then p = path ∨ p ∈ known
      else p ∈ known ∧ p ≠ path := by
  unfold learn
  split <;> simp

/-- Who a payload matches, the path matches. -/
theorem matchesPath_none (h : info.MatchesPath rules path nodeMsg) :
    info.MatchesPath rules path (none : Option M) := by
  obtain ⟨entry, hentry, hpath, -⟩ := h
  exact ⟨entry, hentry, hpath, by simp⟩

theorem matchesPath_updateInfo {payload : Option M} :
    (updateInfo rules path nodeMsg info).1.MatchesPath rules p payload ↔
      info.MatchesPath rules p payload := by
  unfold TreeSubscriberInfo.MatchesPath
  rw [updateInfo_entries]

/-- **Knowledge and memory change alike** with an update that is noticed. -/
theorem mem_knownAfter_iff (h : Remembers rules t)
    (hnoticed : Noticed rules t (.nodeUpdated origin path nodeMsg))
    (hinfo : t.gateway.infoOf s = some info) :
    p ∈ knownAfter rules t origin path nodeMsg s ↔
      p ∈ (if PassedOver t.gateway origin s then info
        else (updateInfo rules path nodeMsg info).1).receivedPaths := by
  have hknown : ∀ p, p ∈ t.known s ↔ p ∈ info.receivedPaths := by
    intro p
    rw [h.known s p]
    simp [hinfo]
  have hown : (nodeMsg = none ∨ ∃ info ∈ t.gateway.infoOf s,
      info.MatchesPath rules path nodeMsg) ↔
        (nodeMsg = none ∨ info.MatchesPath rules path nodeMsg) := by
    simp [hinfo]
  simp only [knownAfter, told_eq hinfo, hown]
  by_cases hpassed : PassedOver t.gateway origin s
  · obtain ⟨hdeleted, huploaded⟩ := hnoticed (s, some info)
      (infoOf_eq_some_iff.mp hinfo) info rfl hpassed
    simp only [if_pos hpassed]
    split
    · next hquiet =>
      rw [mem_learn]
      cases nodeMsg with
      | none =>
          have hnew := hdeleted rfl
          simp only [Option.isSome_none, Bool.false_eq_true, if_false, hknown]
          exact ⟨And.left, fun hp => ⟨hp, fun heq => hnew (heq ▸ hp)⟩⟩
      | some msg =>
          have hmatch : info.MatchesPath rules path (some msg) := by
            simpa using hquiet.2
          have hold := huploaded (by simp) hquiet.1 hmatch
          simp only [Option.isSome_some, if_true, hknown]
          exact ⟨fun hp => hp.elim (fun heq => heq ▸ hold) id, .inr⟩
    · exact hknown p
  · simp only [if_neg hpassed, mem_receivedPaths_updateInfo]
    by_cases hvalue : nodeMsg ≠ none ∧ info.MatchesPath rules path nodeMsg
    · simp only [if_pos hvalue, mem_learn, hknown]
      obtain ⟨msg, rfl⟩ := Option.ne_none_iff_exists'.mp hvalue.1
      simp
    · simp only [if_neg hvalue]
      by_cases hpath : path ∈ info.receivedPaths
      · simp [if_pos hpath, mem_learn, hknown]
      · simp only [if_neg hpath]
        have hsame : p ∈ info.receivedPaths → p ≠ path := fun hp heq =>
          hpath (heq ▸ hp)
        split
        · next hquiet =>
          obtain rfl : nodeMsg = none := by
            by_contra hsome
            exact hvalue ⟨hsome, hquiet.2.resolve_left hsome⟩
          simp [mem_learn, hknown]
        · rw [hknown]
          exact ⟨fun hp => ⟨hp, hsame hp⟩, And.left⟩

/-- Without a table there is nothing to know. -/
theorem knownAfter_of_infoOf (h : Remembers rules t)
    (hinfo : t.gateway.infoOf s = none) :
    knownAfter rules t origin path nodeMsg s = [] := by
  have hknown : t.known s = [] := by
    refine List.eq_nil_iff_forall_not_mem.mpr ?_
    intro p hp
    obtain ⟨info, hmem, -⟩ := (h.known s p).mp hp
    simp [hinfo] at hmem
  simp only [knownAfter, told_eq_nil hinfo, hknown]
  split
  · next hquiet =>
    obtain rfl : nodeMsg = none := by simpa [hinfo] using hquiet.2
    simp [learn]
  · rfl

theorem Remembers.nodeUpdated (h : Remembers rules t)
    (hnoticed : Noticed rules t (.nodeUpdated origin path nodeMsg)) :
    Remembers rules
      { gateway := (t.gateway.notify rules (.nodeUpdated path nodeMsg)
          (origin.tag t.gateway)).2
        known := knownAfter rules t origin path nodeMsg } := by
  refine ⟨fun s p => ?_, fun s info' hinfo' p hp => ?_⟩
  · simp only [infoOf_notify]
    cases hinfo : t.gateway.infoOf s with
    | none => simp [knownAfter_of_infoOf h hinfo]
    | some info =>
        rw [mem_knownAfter_iff h hnoticed hinfo]
        simp
  · simp only [infoOf_notify, Option.mem_def, Option.map_eq_some_iff] at hinfo'
    obtain ⟨info, hinfo, rfl⟩ := hinfo'
    have hmatching := h.matching s info hinfo
    split at hp
    · next hpassed =>
      rw [if_pos hpassed]
      exact hmatching p hp
    · next hpassed =>
      rw [if_neg hpassed, matchesPath_updateInfo]
      rw [mem_receivedPaths_updateInfo] at hp
      split at hp
      · next hvalue =>
        rcases hp with rfl | hp
        · exact matchesPath_none hvalue.2
        · exact hmatching p hp
      · exact hmatching p hp.1

end Updates

/-! ## Subscriptions -/

section Subscriptions

variable [DecidableEq σ] {rules : PathMatching φ M} {t : Known σ φ}
  {st st' : MuxState σ φ} {s other : σ} {path : String} {filter : Option φ}
  {flags : TreeGatewayFlags}

/-- A subscriber's table, if it has one. -/
def tableOf (st : MuxState σ φ) (s : σ) : Option (TreeSubscriberInfo φ) :=
  (st.subscriberInfos.get? s).join

/-- After a change of its subscriptions a subscriber has been given what it had
been given before, as far as they still match it. -/
def KeepsReceived (rules : PathMatching φ M) (st st' : MuxState σ φ) : Prop :=
  ∀ s, ∀ info' ∈ tableOf st' s, ∀ p, p ∈ info'.receivedPaths ↔
    (∃ info ∈ tableOf st s, p ∈ info.receivedPaths) ∧
      info'.MatchesPath rules p none

/-- **Knowledge and memory change alike** with the subscriptions. -/
theorem Remembers.setTables (h : Remembers rules t)
    (hkeeps : KeepsReceived rules t.gateway.tables st') :
    Remembers rules (t.setTables rules st') := by
  refine ⟨fun s p => ?_, fun s info' hinfo' p hp => ?_⟩
  · simp only [Known.setTables, stillKnown, List.mem_filter,
      decide_eq_true_eq]
    rw [h.known s p]
    constructor
    · rintro ⟨hold, info', hinfo', hmatch⟩
      exact ⟨info', hinfo', (hkeeps s info' hinfo' p).mpr ⟨hold, hmatch⟩⟩
    · rintro ⟨info', hinfo', hp⟩
      obtain ⟨hold, hmatch⟩ := (hkeeps s info' hinfo' p).mp hp
      exact ⟨hold, info', hinfo', hmatch⟩
  · exact ((hkeeps s info' hinfo' p).mp hp).2

/-- Who is left alone keeps everything. -/
theorem keepsReceived_of_same (h : Remembers rules t)
    (hsame : tableOf st' s = tableOf t.gateway.tables s) :
    ∀ info' ∈ tableOf st' s, ∀ p, p ∈ info'.receivedPaths ↔
      (∃ info ∈ tableOf t.gateway.tables s, p ∈ info.receivedPaths) ∧
        info'.MatchesPath rules p (none : Option M) := by
  intro info' hinfo' p
  rw [hsame] at hinfo'
  constructor
  · intro hp
    exact ⟨⟨info', hinfo', hp⟩, h.matching s info' hinfo' p hp⟩
  · rintro ⟨⟨info, hinfo, hp⟩, -⟩
    obtain rfl : info = info' :=
      Option.some.inj ((Option.mem_def.mp hinfo).symm.trans hinfo')
    exact hp

/-- A pattern that is put does not take away a match of another one. -/
theorem matchesPath_putPathString {info : TreeSubscriberInfo φ} {p : String}
    (h : info.MatchesPath rules p (none : Option M)) :
    (info.putPathString path filter).MatchesPath rules p
      (none : Option M) := by
  obtain ⟨entry, hentry, hpath, -⟩ := h
  by_cases hkey : entry.1 = path
  · refine ⟨(path, filter), Hashtable.mem_entries_put.mpr (.inl rfl), ?_,
      by simp⟩
    exact hkey ▸ hpath
  · exact ⟨entry, Hashtable.mem_entries_put.mpr (.inr ⟨hentry, hkey⟩), hpath,
      by simp⟩

theorem keepsReceived_addSubscription (h : Remembers rules t) :
    KeepsReceived rules t.gateway.tables
      (addSubscription rules true .ok s path filter flags
        t.gateway.tables).2 := by
  cases hinfo : t.gateway.tables.subscriberInfos.get? s with
  | none =>
      have hsame : (addSubscription rules true .ok s path filter flags
          t.gateway.tables).2 = t.gateway.tables := by
        simp [addSubscription, hinfo]
      rw [hsame]
      exact fun s => keepsReceived_of_same h rfl
  | some hisSubs =>
      obtain ⟨-, hinfos, -⟩ := addSubscription_of_succeeds path rules
        filter flags hinfo rfl fun _ => rfl
      intro s'
      by_cases hs : s' = s
      · subst hs
        intro info' hinfo' p
        have htable : tableOf t.gateway.tables s' = hisSubs := by
          rw [tableOf, hinfo, Option.join_some]
        rw [tableOf, hinfos, Hashtable.get?_put, if_pos rfl,
          Option.join_some, Option.mem_some] at hinfo'
        subst hinfo'
        rw [htable]
        cases hisSubs with
        | none =>
            simp [TreeSubscriberInfo.new, TreeSubscriberInfo.putPathString]
        | some info =>
            have hmatching := h.matching s' info htable
            simp only [Option.getD_some, Option.mem_some, exists_eq_left']
            exact ⟨fun hp => ⟨hp, matchesPath_putPathString (hmatching p hp)⟩,
              And.left⟩
      · refine keepsReceived_of_same h ?_
        rw [tableOf, hinfos, Hashtable.get?_put, if_neg hs, tableOf]

variable [DecidableEq φ] {answer : Answer} {answers : String → Answer}

variable (rules st s path filter flags answer) in
/-- What `TreeGateway_RemoveSubscription` does to the subscribers' tables. -/
theorem subscriberInfos_removeSubscription :
    let removed := (removeSubscription rules answer s path filter flags st).2.1
    removed.subscriberInfos = st.subscriberInfos ∨
      ∃ info, tableOf st s = some info ∧ removed.subscriberInfos =
        (st.setInfoOrNone s (keepReceived rules (info.removePathString
          (rules.withoutPrefix path))).1).subscriberInfos := by
  unfold removeSubscription
  split
  · exact .inl rfl
  · split
    · split
      · next info hinfo =>
        refine .inr ⟨info, by rw [tableOf, hinfo, Option.join_some], ?_⟩
        simp [MuxState.setInfoOrNone, MuxState.setInfo]
      · exact .inl updateSubscription_subscriberInfos
    · exact .inl rfl

/-- The tables of the others are left alone. -/
theorem tableOf_removeSubscription (hother : other ≠ s) :
    tableOf (removeSubscription rules answer s path filter flags st).2.1 other =
      tableOf st other := by
  rcases subscriberInfos_removeSubscription rules st s path filter flags
    answer with hsame | ⟨info, -, hset⟩
  · rw [tableOf, hsame, tableOf]
  · rw [tableOf, hset, MuxState.setInfoOrNone, MuxState.setInfo,
      Hashtable.get?_put, if_neg hother, tableOf]

theorem tableOf_removeEntries {entries : List (String × Option φ)}
    (hother : other ≠ s) :
    tableOf (removeEntries rules answers s entries st).1 other =
      tableOf st other := by
  induction entries generalizing st with
  | nil => rfl
  | cons entry rest ih => exact ih.trans (tableOf_removeSubscription hother)

omit [DecidableEq σ] [DecidableEq φ] in
theorem mem_keepReceived {info : TreeSubscriberInfo φ} {p : String} :
    p ∈ (keepReceived rules info).1.receivedPaths ↔
      p ∈ info.receivedPaths ∧
        (keepReceived rules info).1.MatchesPath rules p (none : Option M) := by
  simp only [keepReceived, List.mem_filter, decide_eq_true_eq]
  rfl

theorem keepsReceived_removeSubscription (h : Remembers rules t) :
    KeepsReceived rules t.gateway.tables
      (removeSubscription rules answer s path filter flags
        t.gateway.tables).2.1 := by
  intro s'
  by_cases hs : s' = s
  · subst hs
    rcases subscriberInfos_removeSubscription rules t.gateway.tables s' path
      filter flags answer with hsame | ⟨info, hinfo, hset⟩
    · exact keepsReceived_of_same h (by rw [tableOf, hsame, tableOf])
    · intro info' hinfo' p
      rw [tableOf, hset, MuxState.setInfoOrNone, MuxState.setInfo,
        Hashtable.get?_put, if_pos rfl, Option.join_some] at hinfo'
      split at hinfo'
      · simp at hinfo'
      · obtain rfl := Option.mem_some.mp hinfo'
        rw [hinfo, mem_keepReceived]
        simp [TreeSubscriberInfo.removePathString]
  · exact keepsReceived_of_same h (tableOf_removeSubscription hs)

omit [DecidableEq φ] in
theorem keepsReceived_registerSubscriber (h : Remembers rules t) :
    KeepsReceived rules t.gateway.tables
      (registerSubscriber s t.gateway.tables) := by
  intro s'
  by_cases hs : s' = s
  · subst hs
    intro info' hinfo'
    simp [tableOf, registerSubscriber] at hinfo'
  · refine keepsReceived_of_same h ?_
    simp [tableOf, registerSubscriber, hs]

theorem keepsReceived_unregisterSubscriber (h : Remembers rules t) :
    KeepsReceived rules t.gateway.tables
      (unregisterSubscriber rules answers s t.gateway.tables).1 := by
  intro s'
  by_cases hs : s' = s
  · subst hs
    intro info' hinfo'
    simp [tableOf, unregisterSubscriber] at hinfo'
  · refine keepsReceived_of_same h ?_
    have hremoved : tableOf (removeAllSubscriptions rules answers s
        t.gateway.tables).1 s' = tableOf t.gateway.tables s' := by
      unfold removeAllSubscriptions
      split
      · exact tableOf_removeEntries hs
      · rfl
    rw [← hremoved]
    simp [tableOf, unregisterSubscriber, hs]

/-- **Memory is knowledge** after every step that is noticed. -/
theorem Remembers.step {e : UpdateEvent σ φ M} (h : Remembers rules t)
    (hnoticed : Noticed rules t e) : Remembers rules (knownStep rules t e) := by
  cases e with
  | nodeUpdated origin path nodeMsg => exact h.nodeUpdated hnoticed
  | registerSubscriber s =>
      have hset := h.setTables (keepsReceived_registerSubscriber h (s := s))
      exact ⟨hset.known, hset.matching⟩
  | unregisterSubscriber answers s =>
      have hkeeps : KeepsReceived rules t.gateway.tables
          (unregisterSubscriber rules answers s t.gateway.tables).1 :=
        keepsReceived_unregisterSubscriber h
      have hset := h.setTables hkeeps
      exact ⟨hset.known, hset.matching⟩
  | addSubscription calledBy path filter flags =>
      exact h.setTables (keepsReceived_addSubscription h)
  | removeSubscription answer calledBy path filter flags =>
      exact h.setTables (keepsReceived_removeSubscription h)
  | localPeerPonged allowed => exact ⟨h.known, h.matching⟩

omit [DecidableEq φ] in
/-- A deletion reaches who knows the node, if it is noticed. -/
theorem Remembers.deletionReaches {e : UpdateEvent σ φ M}
    (h : Remembers rules t) (hnoticed : Noticed rules t e) :
    DeletionReaches rules t e := by
  cases e with
  | nodeUpdated origin path nodeMsg =>
      intro s
      cases hinfo : t.gateway.infoOf s with
      | none =>
          rw [told_eq_nil hinfo]
          simp
      | some info =>
          have hknown : path ∈ t.known s ↔ path ∈ info.receivedPaths := by
            rw [h.known s path]
            simp [hinfo]
          rw [told_eq hinfo, hknown]
          refine ⟨?_, ?_⟩
          · rintro rfl - hpath -
            have hreached : ¬PassedOver t.gateway origin s := fun hpassed =>
              (hnoticed (s, some info) (infoOf_eq_some_iff.mp hinfo) info rfl
                hpassed).1 rfl hpath
            simp [hreached, hpath]
          · intro htold
            split at htold
            · simp at htold
            · split at htold
              · next hvalue =>
                have hnone : nodeMsg = none := by simpa [eq_comm] using htold
                exact absurd hnone hvalue.1
              · split at htold
                · next hpath => exact hpath
                · simp at htold
  | registerSubscriber s => trivial
  | unregisterSubscriber answers s => trivial
  | addSubscription calledBy path filter flags => trivial
  | removeSubscription answer calledBy path filter flags => trivial
  | localPeerPonged allowed => trivial

omit [DecidableEq φ] in
theorem remembers_initial {uniqueID : UInt64} {isConnected : Bool} :
    Remembers rules (.initial uniqueID isConnected : Known σ φ) :=
  ⟨by simp [Known.initial, MuxGateway.infoOf, MuxState.initial],
    by simp [Known.initial, MuxGateway.infoOf, MuxState.initial]⟩

theorem stepsMeet_deletionReaches {es : List (UpdateEvent σ φ M)}
    (h : Remembers rules t)
    (hnoticed : Runs.StepsMeet (knownStep rules) (Noticed rules) t es) :
    Runs.StepsMeet (knownStep rules) (DeletionReaches rules) t es := by
  induction es generalizing t with
  | nil => trivial
  | cons e es ih =>
      exact ⟨h.deletionReaches hnoticed.1, ih (h.step hnoticed.1) hnoticed.2⟩

end Subscriptions

/-- **Deletions reach everyone who knows the node**, and nobody else, in every
run in which what is passed over is noticed. -/
theorem deletions_reach_of_noticed [DecidableEq σ] [DecidableEq φ]
    (rules : PathMatching φ M) (uniqueID : UInt64) (isConnected : Bool)
    (es : List (UpdateEvent σ φ M))
    (h : Runs.StepsMeet (knownStep rules) (Noticed rules)
      (.initial uniqueID isConnected) es) :
    Runs.StepsMeet (knownStep rules) (DeletionReaches rules)
      (.initial uniqueID isConnected) es :=
  stepsMeet_deletionReaches remembers_initial h

/-- The registrations of two subscribers. -/
def twoRegistrations : Registrations ℕ :=
  (Registrations.nobody.register 1).register 2

/-- Two subscribers that have asked for a node. -/
def twoSubscribers : List (UpdateEvent ℕ ℕ ℕ) :=
  [.registerSubscriber 1, .registerSubscriber 2,
    .addSubscription 1 "a" none {}, .addSubscription 2 "a" (some 3) {}]

/-- A node comes, one of them uploads it once more without a reply, another
party deletes it, and the other one deletes it again without a reply. -/
def noticedUploads : List (UpdateEvent ℕ ℕ ℕ) :=
  twoSubscribers ++
    [.nodeUpdated (.other "x") "a" (some 5),
      .nodeUpdated (.upload 1 twoRegistrations { noReply := true } "y") "a"
        (some 2),
      .nodeUpdated (.other "z") "a" none,
      .nodeUpdated (.upload 2 twoRegistrations { noReply := true } "y") "a"
        none]

theorem deletions_reach_of_noticed_noticedUploads :
    Runs.StepsMeet (knownStep plainRules) (Noticed plainRules)
        (.initial 42 true) noticedUploads ∧
      Runs.StepsMeet (knownStep plainRules) (DeletionReaches plainRules)
        (.initial 42 true) noticedUploads := by
  have hnoticed : Runs.StepsMeet (knownStep plainRules) (Noticed plainRules)
      (.initial 42 true) noticedUploads := by
    decide
  exact ⟨hnoticed, deletions_reach_of_noticed plainRules 42 true _ hnoticed⟩

/-- One of them uploads the node without a reply. -/
def passedOverUpload : List (UpdateEvent ℕ ℕ ℕ) :=
  twoSubscribers ++
    [.nodeUpdated (.upload 1 twoRegistrations { noReply := true } "y") "a"
      (some 5)]

/-- Another party deletes it. -/
def foreignDeletion : UpdateEvent ℕ ℕ ℕ := .nodeUpdated (.other "z") "a" none

/-- The one that has uploaded it knows it and is not told. -/
theorem not_deletionReaches_passedOverUpload :
    ¬Runs.StepsMeet (knownStep plainRules) (DeletionReaches plainRules)
      (.initial 42 true) (passedOverUpload ++ [foreignDeletion]) := by
  intro h
  have hlast := (Runs.stepsMeet_append.mp h).2.1 1
  have hknown : "a" ∈ (Runs.run (knownStep plainRules) (.initial 42 true)
      passedOverUpload).known 1 := by
    decide
  have hmatch : ∃ info ∈ (Runs.run (knownStep plainRules) (.initial 42 true)
      passedOverUpload).gateway.infoOf 1,
        info.MatchesPath plainRules "a" (none : Option ℕ) := by
    decide
  have htold : told plainRules (Runs.run (knownStep plainRules)
      (.initial 42 true) passedOverUpload).gateway (.other "z") "a" none 1 =
        [] := by
    decide
  have hreached := hlast.1 rfl (by decide) hknown hmatch
  rw [htold] at hreached
  simp at hreached

end ZgChoir.MuxNotifications
