import ZgChoir.MuxSubscriptions
import ZgChoir.Registrations

/-!
# What a gateway tells its subscribers

A change of the database comes to every gateway with the operation tag of the
upload that made it.  A gateway hands it to those of its subscribers that it
concerns, one after the other, or, while first results come in for some of
them, only to those.

A subscriber that does not want to hear of its own upload says so with a
flag.  The gateway takes the flag out and writes into the tag instead which
gateway and which subscriber the upload comes from, `[MUX42]!3!:tag`.  When the
node update is back it leaves out the subscriber, and hands the rest of the
tag to the others; so does any other gateway, which knows by `[MUX` that there
is something to take off.  Index changes go by without any of that.
-/

namespace ZgChoir.MuxNotifications

open MuxSubscriptions

/-- What has happened to an index. -/
inductive IndexOp where
  | cleared
  | entryInserted (index : UInt32) (nodeName : String)
  | entryRemoved (index : UInt32) (nodeName : String)
  deriving DecidableEq

/-- A change, as gateways and subscribers are told of it. -/
inductive Notification (M : Type) where
  | nodeUpdated (path : String) (nodeMsg : Option M)
  | indexChanged (path : String) (op : IndexOp)
  deriving DecidableEq

/-- A subscriber is told. -/
structure Callback (σ M : Type) where
  sub : σ
  notification : Notification M
  optOpTag : String
  deriving DecidableEq

/-- The arguments of an upload. -/
structure Upload (M : Type) where
  path : String
  optPayload : Option M
  flags : TreeGatewayFlags
  optBefore : String
  optOpTag : String

/-- A `MuxTreeGateway`; in `_allowedCallbacks`, `none` is the dummy
subscriber. -/
structure MuxGateway (σ φ : Type) where
  uniqueID : UInt64
  registrations : Registrations σ
  tables : MuxState σ φ
  allowedCallbacks : Hashtable (Option σ) Unit

namespace MuxGateway

variable {σ φ M : Type} [DecidableEq σ] (rules : PathMatching φ M)
  (g : MuxGateway σ φ)

/-- `_muxTreeGatewayIDPrefix` -/
def muxTreeGatewayIDPrefix : String :=
  .ofList ("[MUX".toList ++ Nat.toDigits 10 g.uniqueID.toNat ++ [']'])

/-- `TagToExcludeClientFromReplies` -/
def tagToExcludeClientFromReplies (excludeMe : σ) (optOpTag : String) :
    String :=
  g.muxTreeGatewayIDPrefix ++
    g.registrations.prependRegistrationIDPrefix excludeMe optOpTag '!'

/-- `TreeGateway_UploadNodeValue`: what goes upstream. -/
def uploadNodeValue (calledBy : σ) (u : Upload M) : Upload M :=
  { u with
    flags := { u.flags with noReply := false }
    optOpTag :=
      if u.flags.noReply then
        g.tagToExcludeClientFromReplies calledBy u.optOpTag
      else u.optOpTag }

/-- The tag that subscribers see of a node update, and who is left out: the
cases of `TreeNodeUpdated`. -/
def effectiveTag (optOpTag : String) : String × Option σ :=
  if g.muxTreeGatewayIDPrefix.toList.isPrefixOf optOpTag.toList then
    let parsed := g.registrations.parseRegistrationIDPrefix
      (.ofList (optOpTag.toList.drop g.muxTreeGatewayIDPrefix.length)) '!'
    (parsed.2, parsed.1)
  else if "[MUX".toList.isPrefixOf optOpTag.toList then
    match MuxTreeGateway.splitAtColon optOpTag.toList with
    | some (_, userTag) => (.ofList userTag, none)
    | none => (optOpTag, none)
  else (optOpTag, none)

/-- Whether callbacks to a subscriber are allowed at this time. -/
def Allows (sub : σ) : Prop :=
  g.allowedCallbacks.entries = [] ∨ some sub ∈ g.allowedCallbacks.keys

/-- The subscribers that a loop over them comes by. -/
def iterated : List σ :=
  match g.allowedCallbacks.entries with
  | [] => g.tables.subscriberInfos.keys
  | _ :: _ => g.allowedCallbacks.keys.filterMap id

/-- A subscriber's table, if it has one. -/
def infoOf (sub : σ) : Option (TreeSubscriberInfo φ) :=
  (g.tables.subscriberInfos.get? sub).join

/-- One round of the loop of `TreeNodeUpdatedAux`. -/
def nodeCallback (path : String) (msgRef : Option M) (optOpTag : String)
    (optDontNotify : Option σ) (sub : σ) : Option (Callback σ M) :=
  if optDontNotify = some sub then none
  else
    (g.infoOf sub).bind fun info =>
      (updateInfo rules path msgRef info).2.map fun msg =>
        ⟨sub, .nodeUpdated path msg, optOpTag⟩

/-- The paths of which the subscribers have been given a value, after
`TreeNodeUpdatedAux`. -/
def afterNodeCallbacks (path : String) (msgRef : Option M)
    (optDontNotify : Option σ) : MuxGateway σ φ :=
  { g with
    tables := { g.tables with
      subscriberInfos := g.tables.subscriberInfos.mapValues fun sub subInfo =>
        if sub ∈ g.iterated ∧ optDontNotify ≠ some sub then
          subInfo.map fun info => (updateInfo rules path msgRef info).1
        else subInfo } }

/-- One round of the loop of `DoIndexNotifications`. -/
def indexCallback (path : String) (op : IndexOp) (optOpTag : String)
    (sub : σ) : Option (Callback σ M) :=
  (g.infoOf sub).bind fun info =>
    if info.MatchesPath rules path none then
      some ⟨sub, .indexChanged path op, optOpTag⟩
    else none

/-- `TreeNodeUpdated`, `TreeNodeIndexCleared` and the like. -/
def notify (n : Notification M) (optOpTag : String) :
    List (Callback σ M) × MuxGateway σ φ :=
  match n with
  | .nodeUpdated path nodeMsg =>
      let seen := g.effectiveTag optOpTag
      (g.iterated.filterMap
          (g.nodeCallback rules path nodeMsg seen.1 seen.2),
        g.afterNodeCallbacks rules path nodeMsg seen.2)
  | .indexChanged path op =>
      (g.iterated.filterMap (g.indexCallback rules path op optOpTag), g)

/-! ## Who is told, and what of the tag -/

/-- A change concerns a subscriber: it has to be told of a value that matches,
and of the absence of one that it has been given. -/
def Concerns (n : Notification M) (sub : σ) : Prop :=
  g.Allows sub ∧ ∃ info ∈ g.infoOf sub,
    match n with
    | .nodeUpdated path nodeMsg =>
        nodeMsg ≠ none ∧ info.MatchesPath rules path nodeMsg ∨
          path ∈ info.receivedPaths
    | .indexChanged path _ => info.MatchesPath rules path none

/-- The tag that subscribers see, and who is left out. -/
def seenTag (n : Notification M) (optOpTag : String) : String × Option σ :=
  match n with
  | .nodeUpdated _ _ => g.effectiveTag optOpTag
  | .indexChanged _ _ => (optOpTag, none)

/-- As what a subscriber is told of a change: a value that does not match is
none. -/
def toldAs (n : Notification M) (sub : σ) : Notification M :=
  match n with
  | .nodeUpdated path nodeMsg =>
      .nodeUpdated path
        (if ∃ info ∈ g.infoOf sub, info.MatchesPath rules path nodeMsg then
          nodeMsg
        else none)
  | .indexChanged path op => .indexChanged path op

instance decidableAllows (sub : σ) : Decidable (g.Allows sub) :=
  inferInstanceAs (Decidable (_ ∨ _))

instance decidableConcerns (n : Notification M) (sub : σ) :
    Decidable (g.Concerns rules n sub) :=
  match n with
  | .nodeUpdated _ _ => inferInstanceAs (Decidable ((_ ∨ _) ∧ ∃ _ ∈ _, _))
  | .indexChanged _ _ => inferInstanceAs (Decidable ((_ ∨ _) ∧ ∃ _ ∈ _, _))

variable {rules} {g} {sub : σ} {info : TreeSubscriberInfo φ} {path : String}
  {msgRef : Option M}

/-- A loop over the subscribers comes by those that have a table and are
allowed. -/
theorem mem_iterated (hinfo : g.infoOf sub = some info) :
    sub ∈ g.iterated ↔ g.Allows sub := by
  have hkey : sub ∈ g.tables.subscriberInfos.keys := by
    rw [← Hashtable.isSome_get?]
    cases hget : g.tables.subscriberInfos.get? sub with
    | none => simp [infoOf, hget] at hinfo
    | some own => rfl
  unfold iterated Allows
  split
  · next h => simp [h, hkey]
  · next h => simp [h]

omit [DecidableEq σ] in
theorem nodup_iterated : g.iterated.Nodup := by
  unfold iterated
  split
  · exact g.tables.subscriberInfos.nodup_keys
  · refine g.allowedCallbacks.nodup_keys.filterMap ?_
    intro a b c ha hb
    simp_all

omit [DecidableEq σ] in
/-- What a subscriber is given of an update. -/
theorem updateInfo_given :
    (updateInfo rules path msgRef info).2 =
      if msgRef ≠ none ∧ info.MatchesPath rules path msgRef then some msgRef
      else if path ∈ info.receivedPaths then some none else none := by
  unfold updateInfo updateSubscriber
  cases msgRef with
  | none => by_cases hpath : path ∈ info.receivedPaths <;> simp [hpath]
  | some msg =>
      by_cases hmatch : info.MatchesPath rules path (some msg)
      · simp [hmatch]
      · by_cases hpath : path ∈ info.receivedPaths <;> simp [hmatch, hpath]

/-- A round of a loop makes a callback to the subscriber it is for. -/
theorem sub_of_mem_nodeCallback {tag : String} {dontNotify : Option σ}
    {cb : Callback σ M}
    (h : cb ∈ g.nodeCallback rules path msgRef tag dontNotify sub) :
    cb.sub = sub := by
  unfold nodeCallback at h
  split at h
  · simp at h
  · simp only [Option.mem_def, Option.bind_eq_some_iff,
      Option.map_eq_some_iff] at h
    obtain ⟨info, -, msg, -, rfl⟩ := h
    rfl

theorem sub_of_mem_indexCallback {tag : String} {op : IndexOp}
    {cb : Callback σ M}
    (h : cb ∈ g.indexCallback rules path op tag sub) : cb.sub = sub := by
  simp only [indexCallback, Option.mem_def, Option.bind_eq_some_iff] at h
  obtain ⟨info, -, h⟩ := h
  split at h
  · obtain rfl := Option.some.inj h
    rfl
  · simp at h

/-- A loop over the subscribers makes for each what its round makes. -/
theorem filter_iterated {f : σ → Option (Callback σ M)}
    (hkey : ∀ x, ∀ cb ∈ f x, cb.sub = x)
    (hnone : g.infoOf sub = none → f sub = none) :
    (g.iterated.filterMap f).filter (fun cb => decide (cb.sub = sub)) =
      if g.Allows sub then (f sub).toList else [] := by
  have hround : ∀ x, (f x).filter (fun cb => decide (cb.sub = sub)) =
      if decide (x = sub) then f x else none := by
    intro x
    cases hf : f x with
    | none => simp
    | some cb => simp [Option.filter, hkey x cb hf]
  rw [List.filter_filterMap, funext hround, ← List.filterMap_filter,
    List.filter_eq, g.nodup_iterated.count]
  cases hinfo : g.infoOf sub with
  | none => simp [hnone hinfo]
  | some info =>
      have hmem := mem_iterated hinfo
      by_cases hallows : g.Allows sub
      · rw [if_pos hallows, if_pos (hmem.mpr hallows), List.replicate_one]
        cases hf : f sub <;> simp [hf]
      · rw [if_neg hallows, if_neg fun h => hallows (hmem.mp h)]
        rfl

/-- What one round makes, of an update and of an index change. -/
theorem nodeCallback_of_allows (hallows : g.Allows sub) {tag : String}
    {dontNotify : Option σ} :
    g.nodeCallback rules path msgRef tag dontNotify sub =
      if g.Concerns rules (.nodeUpdated path msgRef) sub ∧
          dontNotify ≠ some sub then
        some ⟨sub, g.toldAs rules (.nodeUpdated path msgRef) sub, tag⟩
      else none := by
  have hconcerns : g.Concerns rules (.nodeUpdated path msgRef) sub ↔
      ∃ info ∈ g.infoOf sub, msgRef ≠ none ∧
        info.MatchesPath rules path msgRef ∨ path ∈ info.receivedPaths :=
    and_iff_right hallows
  unfold nodeCallback toldAs
  split
  · next hleft => simp [hleft]
  · next hleft =>
    cases hinfo : g.infoOf sub with
    | none => simp [hconcerns, hinfo]
    | some info =>
        have hconcerns : g.Concerns rules (.nodeUpdated path msgRef) sub ↔
            msgRef ≠ none ∧ info.MatchesPath rules path msgRef ∨
              path ∈ info.receivedPaths := by
          simp [hconcerns, hinfo]
        by_cases hnone : msgRef = none
        · subst hnone
          by_cases hpath : path ∈ info.receivedPaths <;>
            simp [hconcerns, updateInfo_given, hleft, hpath]
        · by_cases hmatch : info.MatchesPath rules path msgRef
          · simp [hconcerns, updateInfo_given, hleft, hnone, hmatch]
          · by_cases hpath : path ∈ info.receivedPaths <;>
              simp [hconcerns, updateInfo_given, hleft, hmatch, hpath]

theorem indexCallback_of_allows (hallows : g.Allows sub) {tag : String}
    {op : IndexOp} : g.indexCallback (M := M) rules path op tag sub =
      if g.Concerns rules (.indexChanged path op : Notification M) sub then
        some ⟨sub, .indexChanged path op, tag⟩
      else none := by
  have hconcerns :
      g.Concerns rules (.indexChanged path op : Notification M) sub ↔
        ∃ info ∈ g.infoOf sub,
          info.MatchesPath rules path (none : Option M) :=
    and_iff_right hallows
  unfold indexCallback
  cases hinfo : g.infoOf sub with
  | none => simp [hconcerns, hinfo]
  | some info =>
      by_cases hmatch : info.MatchesPath rules path (none : Option M) <;>
        simp [hconcerns, hinfo, hmatch]

/-- **The callbacks of a notification**: whom it concerns and who is not left
out is told once, and sees the tag that is seen. -/
theorem notify_callbacks (n : Notification M) (optOpTag : String) (sub : σ) :
    (g.notify rules n optOpTag).1.filter (fun cb => decide (cb.sub = sub)) =
      if g.Concerns rules n sub ∧ (g.seenTag n optOpTag).2 ≠ some sub then
        [⟨sub, g.toldAs rules n sub, (g.seenTag n optOpTag).1⟩]
      else [] := by
  cases n with
  | nodeUpdated path nodeMsg =>
      refine (filter_iterated (fun _ _ => sub_of_mem_nodeCallback)
        fun hinfo => by simp [nodeCallback, hinfo]).trans ?_
      by_cases hallows : g.Allows sub
      · rw [if_pos hallows, nodeCallback_of_allows hallows]
        split
        · next h => exact (if_pos h).symm
        · next h => exact (if_neg h).symm
      · rw [if_neg hallows, if_neg fun h => hallows h.1.1]
  | indexChanged path op =>
      refine (filter_iterated (fun _ _ => sub_of_mem_indexCallback)
        fun hinfo => by simp [indexCallback, hinfo]).trans ?_
      by_cases hallows : g.Allows sub
      · rw [if_pos hallows, indexCallback_of_allows hallows]
        by_cases hconcerns : g.Concerns rules (.indexChanged path op) sub <;>
          simp [hconcerns, seenTag, toldAs]
      · rw [if_neg hallows, if_neg fun h => hallows h.1.1]

theorem mem_notify_iff {n : Notification M} {optOpTag : String}
    {cb : Callback σ M} : cb ∈ (g.notify rules n optOpTag).1 ↔
      g.Concerns rules n cb.sub ∧ (g.seenTag n optOpTag).2 ≠ some cb.sub ∧
        cb = ⟨cb.sub, g.toldAs rules n cb.sub, (g.seenTag n optOpTag).1⟩ := by
  have hfilter : cb ∈ (g.notify rules n optOpTag).1 ↔
      cb ∈ (g.notify rules n optOpTag).1.filter
        fun other => decide (other.sub = cb.sub) := by
    simp
  rw [hfilter, notify_callbacks]
  split
  · next h => simp [h]
  · next h =>
    simp only [List.not_mem_nil, false_iff]
    rintro ⟨hconcerns, hleft, -⟩
    exact h ⟨hconcerns, hleft⟩

end MuxGateway

end ZgChoir.MuxNotifications
