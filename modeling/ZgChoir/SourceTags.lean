import ZgChoir.HeartbeatTiming
import ZgChoir.Runs

/-!
# The tags of the multicast addresses

The heartbeats that go out through different network interfaces are told apart
by a tag of 16 bits.  Whenever the interfaces have changed, the addresses that
are no longer sent to lose their tags, and the new ones get the next tags of a
counter that wraps around, past 0.

An address may keep its tag for as long as there is its interface, while the
others come and go.  After 65535 tags the counter is back where it was, and
nobody asks whether a tag is still in use.  The tables are each other's inverse
after every update exactly if no address is given a tag that another one still
has (`uniqueTags_iff_tagsFree`).
-/

namespace ZgChoir.SourceTags

open TimedHeartbeatThread

/-! ## The code -/

/-- A `PacketDataIO`: which object it is, and where it sends to. -/
structure PacketDataIO (Addr : Type) where
  object : ℕ
  packetSendDestination : Addr
  deriving DecidableEq

/-- The heartbeat thread, with the objects that it sends through, and those
that the tags have last been given out for. -/
structure TaggingThread (Addr : Type) where
  state : TimedHeartbeatThread Addr
  multicastDataIOs : List ( PacketDataIO Addr)
  mdioKeys : List ( PacketDataIO Addr)

variable {Addr : Type}

/-- `Initialize` -/
def TaggingThread.initialized (hbSettings : PZGHeartbeatSettings)
    (startTime : ℕ) (outgoingHeartbeatPacketIDCounter : UInt32) :
    TaggingThread Addr where
  state := .initialized hbSettings startTime outgoingHeartbeatPacketIDCounter
  multicastDataIOs := []
  mdioKeys := []

variable [IPAddressAndPort Addr]

/-- The addresses that are sent to. -/
def destinations (dios : List ( PacketDataIO Addr)) : List Addr :=
  (dios.map PacketDataIO.packetSendDestination).filter IPAddressAndPort.isValid

variable [DecidableEq Addr]

/-- `EnsureHeartbeatSourceTagsTableUpdated`.  Without any objects there are no
addresses, and so none that get a tag. -/
def TaggingThread.ensureHeartbeatSourceTagsTableUpdated
    (t : TaggingThread Addr) : TaggingThread Addr :=
  if t.multicastDataIOs = t.mdioKeys then t
  else
    { t with
      state := t.state.ensureHeartbeatSourceTagsTableUpdated
        (destinations t.multicastDataIOs)
      mdioKeys := t.multicastDataIOs }

/-- The interfaces change, or the tags are looked after. -/
inductive InterfaceEvent (Addr : Type) where
  | networkInterfacesChanged (dios : List ( PacketDataIO Addr))
  | ensureHeartbeatSourceTagsTableUpdated

/-- One event. -/
def interfaceStep (t : TaggingThread Addr) :
    InterfaceEvent Addr → TaggingThread Addr
  | .networkInterfacesChanged dios => { t with multicastDataIOs := dios }
  | .ensureHeartbeatSourceTagsTableUpdated =>
      t.ensureHeartbeatSourceTagsTableUpdated

/-! ## The tags that are given out -/

/-- The tag that the counter gives next. -/
def nextTag (tagCounter : UInt16) : UInt16 :=
  if tagCounter + 1 = 0 then 1 else tagCounter + 1

/-- The next tags. -/
def nextTags (tagCounter : UInt16) : ℕ → List UInt16
  | 0 => []
  | count + 1 => nextTag tagCounter :: nextTags (nextTag tagCounter) count

/-- The addresses that are not known, each once. -/
def newDestinations (known : List Addr) : List Addr → List Addr
  | [] => []
  | iap :: dests =>
      if iap ∈ known then newDestinations known dests
      else iap :: newDestinations (known ++ [iap]) dests

/-- The addresses with tags that are still sent to. -/
def keptEntries (dests : List Addr) (st : TimedHeartbeatThread Addr) :
    List (Addr × UInt16) :=
  st.heartbeatSourceDestToTag.entries.filter fun e => decide (e.1 ∈ dests)

/-- The addresses that are sent to and have no tag. -/
def addedDestinations (dests : List Addr) (st : TimedHeartbeatThread Addr) :
    List Addr :=
  newDestinations ((keptEntries dests st).map Prod.fst) dests

/-- The tags that are in use after an update for `dests`. -/
def tagsInUse (dests : List Addr) (st : TimedHeartbeatThread Addr) :
    List UInt16 :=
  (keptEntries dests st).map Prod.snd ++
    nextTags st.heartbeatSourceTagCounter (addedDestinations dests st).length

/-- No address is given a tag that another one has. -/
def TagsFree (t : TaggingThread Addr) : InterfaceEvent Addr → Prop
  | .networkInterfacesChanged _ => True
  | .ensureHeartbeatSourceTagsTableUpdated =>
      t.multicastDataIOs ≠ t.mdioKeys →
        (tagsInUse (destinations t.multicastDataIOs) t.state).Nodup

theorem nextTag_ne_zero (tagCounter : UInt16) : nextTag tagCounter ≠ 0 := by
  unfold nextTag
  split
  · decide
  · assumption

theorem length_nextTags (count : ℕ) (tagCounter : UInt16) :
    (nextTags tagCounter count).length = count := by
  induction count generalizing tagCounter with
  | zero => rfl
  | succ count ih => exact congrArg Nat.succ (ih _)

variable {st : TimedHeartbeatThread Addr} {iap : Addr} {tag : UInt16}

omit [IPAddressAndPort Addr] in
theorem addTag_of_mem (h : iap ∈ st.heartbeatSourceDestToTag.keys) :
    st.addTag iap = st := if_pos h

omit [IPAddressAndPort Addr] in
theorem addTag_of_notMem (h : iap ∉ st.heartbeatSourceDestToTag.keys) :
    st.addTag iap =
      { st with
        heartbeatSourceTagCounter := nextTag st.heartbeatSourceTagCounter
        heartbeatSourceTagToDest := st.heartbeatSourceTagToDest.put
          (nextTag st.heartbeatSourceTagCounter) iap
        heartbeatSourceDestToTag := st.heartbeatSourceDestToTag.put iap
          (nextTag st.heartbeatSourceTagCounter) } := if_neg h

omit [IPAddressAndPort Addr] in
/-- **The new addresses get the next tags**, after the ones that have tags. -/
theorem entries_addTags (dests : List Addr) :
    (dests.foldl addTag st).heartbeatSourceDestToTag.entries =
      st.heartbeatSourceDestToTag.entries ++
        (newDestinations st.heartbeatSourceDestToTag.keys dests).zip
          (nextTags st.heartbeatSourceTagCounter (newDestinations
            st.heartbeatSourceDestToTag.keys dests).length) := by
  induction dests generalizing st with
  | nil => simp [newDestinations]
  | cons iap dests ih =>
      rw [List.foldl_cons, ih, newDestinations]
      split
      · next hknown => rw [addTag_of_mem hknown]
      · next hnew =>
        rw [addTag_of_notMem hnew]
        simp only [Hashtable.keys_put_of_notMem hnew,
          Hashtable.entries_put_of_notMem hnew, List.length_cons, nextTags,
          List.zip_cons_cons, List.append_assoc, List.singleton_append]

omit [IPAddressAndPort Addr] in
theorem mem_newDestinations {known dests : List Addr} :
    iap ∈ newDestinations known dests ↔ iap ∈ dests ∧ iap ∉ known := by
  induction dests generalizing known with
  | nil => simp [newDestinations]
  | cons other dests ih =>
      rw [newDestinations]
      split
      · next hknown =>
        rw [ih, List.mem_cons]
        refine and_congr_left fun hnew => ?_
        refine ⟨.inr, fun h => h.resolve_left fun hsame => ?_⟩
        exact hnew (hsame ▸ hknown)
      · next hnew =>
        rw [List.mem_cons, ih, List.mem_cons, List.mem_append,
          List.mem_singleton]
        by_cases hsame : iap = other
        · simp [hsame, hnew]
        · simp [hsame]

/-- The first loop of the update, for some of the entries. -/
def removeTags (dests : List Addr) (es : List (Addr × UInt16))
    (st : TimedHeartbeatThread Addr) : TimedHeartbeatThread Addr :=
  es.foldl (fun st (iap, tag) =>
    if iap ∈ dests then st else st.removeTag iap tag) st

omit [IPAddressAndPort Addr] in
theorem tagCounter_removeTags {dests : List Addr}
    (es : List (Addr × UInt16)) :
    (removeTags dests es st).heartbeatSourceTagCounter =
      st.heartbeatSourceTagCounter := by
  refine List.foldlRecOn (motive := fun st' : TimedHeartbeatThread Addr =>
    st'.heartbeatSourceTagCounter = st.heartbeatSourceTagCounter) es _ rfl ?_
  intro st' h e _
  obtain ⟨iap, tag⟩ := e
  dsimp only
  split
  · exact h
  · exact h

omit [IPAddressAndPort Addr] in
/-- What is left after the first loop. -/
theorem entries_removeTags {dests : List Addr} (es : List (Addr × UInt16)) :
    (removeTags dests es st).heartbeatSourceDestToTag.entries =
      st.heartbeatSourceDestToTag.entries.filter fun e =>
        decide (e.1 ∈ dests ∨ e.1 ∉ es.map Prod.fst) := by
  induction es generalizing st with
  | nil => simp [removeTags]
  | cons e es ih =>
      obtain ⟨iap, tag⟩ := e
      rw [removeTags, List.foldl_cons]
      change (removeTags dests es _).heartbeatSourceDestToTag.entries = _
      rw [ih]
      dsimp only
      split
      · next hstays =>
        refine List.filter_congr fun e _ => ?_
        by_cases hsame : e.1 = iap
        · simp [hsame, hstays]
        · simp [hsame]
      · next hgone =>
        have hremove : (st.removeTag iap tag).heartbeatSourceDestToTag.entries =
            st.heartbeatSourceDestToTag.entries.filter
              fun e => decide (e.1 ≠ iap) := rfl
        rw [hremove, List.filter_filter]
        refine List.filter_congr fun e _ => ?_
        by_cases hsame : e.1 = iap
        · simp [hsame, hgone]
        · simp [hsame]

omit [IPAddressAndPort Addr] in
theorem entries_removeAllTags {dests : List Addr} :
    (removeTags dests st.heartbeatSourceDestToTag.entries
      st).heartbeatSourceDestToTag.entries = keptEntries dests st := by
  rw [entries_removeTags, keptEntries]
  refine List.filter_congr fun e he => ?_
  have hkey : e.1 ∈ st.heartbeatSourceDestToTag.entries.map Prod.fst :=
    List.mem_map_of_mem he
  simp [hkey]

omit [IPAddressAndPort Addr] in
/-- **The update** of the tags: the entries that are kept, and the new ones. -/
theorem entries_ensure (dests : List Addr) (st : TimedHeartbeatThread Addr) :
    (st.ensureHeartbeatSourceTagsTableUpdated
        dests).heartbeatSourceDestToTag.entries =
      keptEntries dests st ++ (addedDestinations dests st).zip
        (nextTags st.heartbeatSourceTagCounter
          (addedDestinations dests st).length) := by
  change (dests.foldl addTag (removeTags dests _
    st)).heartbeatSourceDestToTag.entries = _
  rw [entries_addTags, tagCounter_removeTags, Hashtable.keys,
    entries_removeAllTags, addedDestinations]

omit [IPAddressAndPort Addr] in
/-- Afterwards the addresses with tags are those that are sent to. -/
theorem mem_keys_ensure {dests : List Addr} :
    iap ∈ (st.ensureHeartbeatSourceTagsTableUpdated
      dests).heartbeatSourceDestToTag.keys ↔ iap ∈ dests := by
  have hlength : (addedDestinations dests st).length ≤
      (nextTags st.heartbeatSourceTagCounter
        (addedDestinations dests st).length).length :=
    (length_nextTags _ _).ge
  rw [Hashtable.keys, entries_ensure, List.map_append,
    List.map_fst_zip hlength, List.mem_append, addedDestinations,
    mem_newDestinations]
  have hkept : iap ∈ (keptEntries dests st).map Prod.fst → iap ∈ dests := by
    intro hiap
    obtain ⟨e, he, rfl⟩ := List.mem_map.mp hiap
    exact of_decide_eq_true (List.mem_filter.mp he).2
  by_cases hold : iap ∈ (keptEntries dests st).map Prod.fst
  · exact iff_of_true (.inl hold) (hkept hold)
  · simp [hold]

omit [IPAddressAndPort Addr] in
theorem tags_ensure {dests : List Addr} :
    (st.ensureHeartbeatSourceTagsTableUpdated
      dests).heartbeatSourceDestToTag.entries.map Prod.snd =
        tagsInUse dests st := by
  have hlength : (nextTags st.heartbeatSourceTagCounter
      (addedDestinations dests st).length).length ≤
        (addedDestinations dests st).length := (length_nextTags _ _).le
  rw [entries_ensure, List.map_append, List.map_snd_zip hlength, tagsInUse]

/-! ## The tables -/

/-- The two tables are each other's inverse. -/
def Inverse (st : TimedHeartbeatThread Addr) : Prop :=
  ∀ iap tag, st.heartbeatSourceDestToTag.get? iap = some tag ↔
    st.heartbeatSourceTagToDest.get? tag = some iap

omit [IPAddressAndPort Addr] in
/-- Then the tags that are in use are all different. -/
theorem Inverse.nodup_tags (h : Inverse st) :
    (st.heartbeatSourceDestToTag.entries.map Prod.snd).Nodup := by
  refine List.Nodup.map_on ?_ (List.Nodup.of_map _
    st.heartbeatSourceDestToTag.distinct)
  intro e he e' he' htag
  have hget := (h e.1 e.2).mp (Hashtable.get?_eq_some_iff.mpr he)
  have hget' := (h e'.1 e'.2).mp (Hashtable.get?_eq_some_iff.mpr he')
  rw [htag, hget'] at hget
  exact Prod.ext (Option.some.inj hget).symm htag

omit [IPAddressAndPort Addr] in
theorem Inverse.removeTag (h : Inverse st)
    (hget : st.heartbeatSourceDestToTag.get? iap = some tag) :
    Inverse (st.removeTag iap tag) := by
  intro other otherTag
  have hget' := (h iap tag).mp hget
  simp only [TimedHeartbeatThread.removeTag, Hashtable.get?_remove]
  by_cases hsame : other = iap
  · subst hsame
    rw [if_pos rfl]
    refine iff_of_false (by simp) ?_
    split
    · simp
    · next htag =>
      rw [← h, hget]
      exact fun heq => htag (Option.some.inj heq).symm
  · rw [if_neg hsame, h]
    split
    · next htag =>
      rw [htag, hget']
      exact iff_of_false (fun heq => hsame (Option.some.inj heq).symm)
        (by simp)
    · rfl

omit [IPAddressAndPort Addr] in
theorem Inverse.removeTags {dests : List Addr} (es : List (Addr × UInt16)) :
    ∀ {st : TimedHeartbeatThread Addr}, Inverse st →
      (∀ e ∈ es, st.heartbeatSourceDestToTag.get? e.1 = some e.2) →
      (es.map Prod.fst).Nodup → Inverse (removeTags dests es st) := by
  induction es with
  | nil => exact fun h _ _ => h
  | cons e es ih =>
      intro st h hget hnodup
      obtain ⟨iap, tag⟩ := e
      rw [SourceTags.removeTags, List.foldl_cons]
      change Inverse (SourceTags.removeTags dests es _)
      obtain ⟨hfirst, hrest⟩ := List.nodup_cons.mp hnodup
      dsimp only
      split
      · exact ih h (fun e he => hget e (List.mem_cons_of_mem _ he)) hrest
      · refine ih (h.removeTag (hget _ List.mem_cons_self)) ?_ hrest
        intro e he
        have hother : e.1 ≠ iap := by
          intro hsame
          exact hfirst (List.mem_map.mpr ⟨e, he, hsame⟩)
        have hold := hget e (List.mem_cons_of_mem _ he)
        simpa [TimedHeartbeatThread.removeTag, hother] using hold

omit [IPAddressAndPort Addr] in
/-- **New addresses** keep the tables inverse if their tags are new. -/
theorem Inverse.addTags (dests : List Addr) :
    ∀ {st : TimedHeartbeatThread Addr}, Inverse st →
      (st.heartbeatSourceDestToTag.entries.map Prod.snd ++
        nextTags st.heartbeatSourceTagCounter (newDestinations
          st.heartbeatSourceDestToTag.keys dests).length).Nodup →
      Inverse (dests.foldl addTag st) := by
  induction dests with
  | nil => exact fun h _ => h
  | cons iap dests ih =>
      intro st h hnodup
      rw [List.foldl_cons]
      rw [newDestinations] at hnodup
      split at hnodup
      · next hknown =>
        rw [addTag_of_mem hknown]
        exact ih h hnodup
      · next hnew =>
        rw [List.length_cons, nextTags] at hnodup
        have hfree : ∀ other, st.heartbeatSourceTagToDest.get?
            (nextTag st.heartbeatSourceTagCounter) ≠ some other := by
          intro other hother
          have hmem := Hashtable.get?_eq_some_iff.mp ((h _ _).mpr hother)
          exact (List.nodup_append.mp hnodup).2.2 _
            (List.mem_map_of_mem hmem) _ List.mem_cons_self rfl
        have hnone : st.heartbeatSourceDestToTag.get? iap = none :=
          Hashtable.get?_eq_none_iff.mpr hnew
        refine ih ?_ ?_
        · rw [addTag_of_notMem hnew]
          intro other tag
          simp only [Hashtable.get?_put]
          by_cases hsame : other = iap
          · subst hsame
            rw [if_pos rfl, Option.some.injEq]
            split
            · next htag => simp [htag]
            · next htag =>
              refine iff_of_false (Ne.symm htag) ?_
              rw [← h, hnone]
              simp
          · rw [if_neg hsame, h]
            split
            · next htag =>
              rw [htag]
              refine iff_of_false (hfree other) ?_
              exact fun heq => hsame (Option.some.inj heq).symm
            · rfl
        · rw [addTag_of_notMem hnew]
          simp only [Hashtable.entries_put_of_notMem hnew,
            Hashtable.keys_put_of_notMem hnew, List.map_append, List.map_cons,
            List.map_nil, List.append_assoc, List.singleton_append]
          exact hnodup

omit [IPAddressAndPort Addr] in
/-- **One update.** -/
theorem Inverse.ensure_iff {dests : List Addr} (h : Inverse st) :
    Inverse (st.ensureHeartbeatSourceTagsTableUpdated dests) ↔
      (tagsInUse dests st).Nodup := by
  constructor
  · intro hafter
    have htags := hafter.nodup_tags
    rwa [tags_ensure] at htags
  · intro hfree
    have hremoved : Inverse (SourceTags.removeTags dests
        st.heartbeatSourceDestToTag.entries st) :=
      Inverse.removeTags _ h
        (fun e he => Hashtable.get?_eq_some_iff.mpr he)
        st.heartbeatSourceDestToTag.distinct
    have hnodup : ((SourceTags.removeTags dests
        st.heartbeatSourceDestToTag.entries
          st).heartbeatSourceDestToTag.entries.map Prod.snd ++
        nextTags (SourceTags.removeTags dests
          st.heartbeatSourceDestToTag.entries st).heartbeatSourceTagCounter
          (newDestinations (SourceTags.removeTags dests
            st.heartbeatSourceDestToTag.entries
              st).heartbeatSourceDestToTag.keys dests).length).Nodup := by
      rw [tagCounter_removeTags, Hashtable.keys, entries_removeAllTags]
      exact hfree
    exact Inverse.addTags dests hremoved hnodup

/-- The tables are each other's inverse, their addresses are those that are
sent to, and no tag is 0. -/
structure UniqueTags (dests : List Addr) (st : TimedHeartbeatThread Addr) :
    Prop where
  inverse : Inverse st
  destinations : ∀ iap, iap ∈ st.heartbeatSourceDestToTag.keys ↔ iap ∈ dests
  nonzero : 0 ∉ st.heartbeatSourceTagToDest.keys

omit [IPAddressAndPort Addr] in
theorem Inverse.nonzero_iff (h : Inverse st) :
    0 ∉ st.heartbeatSourceTagToDest.keys ↔
      0 ∉ st.heartbeatSourceDestToTag.entries.map Prod.snd := by
  rw [not_iff_not]
  constructor
  · intro hzero
    obtain ⟨iap, hiap⟩ := Option.isSome_iff_exists.mp
      (Hashtable.isSome_get?.mpr hzero)
    exact List.mem_map_of_mem
      (Hashtable.get?_eq_some_iff.mp ((h iap 0).mpr hiap))
  · intro hzero
    obtain ⟨e, he, htag⟩ := List.mem_map.mp hzero
    have hget := Hashtable.get?_eq_some_iff.mpr he
    exact Hashtable.mem_keys_of_get? (htag ▸ (h e.1 e.2).mp hget)

theorem zero_notMem_nextTags (count : ℕ) (tagCounter : UInt16) :
    0 ∉ nextTags tagCounter count := by
  induction count generalizing tagCounter with
  | zero => exact List.not_mem_nil
  | succ count ih =>
      rw [nextTags, List.mem_cons, not_or]
      exact ⟨(nextTag_ne_zero _).symm, ih _⟩

omit [IPAddressAndPort Addr] in
/-- **One update** keeps the tags unique exactly if no address is given a tag
that another one has. -/
theorem UniqueTags.ensure_iff {dests dests' : List Addr}
    (h : UniqueTags dests st) :
    UniqueTags dests' (st.ensureHeartbeatSourceTagsTableUpdated dests') ↔
      (tagsInUse dests' st).Nodup := by
  constructor
  · intro hafter
    exact h.inverse.ensure_iff.mp hafter.inverse
  · intro hfree
    have hafter := h.inverse.ensure_iff.mpr hfree
    refine ⟨hafter, fun iap => mem_keys_ensure, ?_⟩
    rw [hafter.nonzero_iff, tags_ensure, tagsInUse, List.mem_append, not_or]
    refine ⟨?_, zero_notMem_nextTags _ _⟩
    have hold := h.inverse.nonzero_iff.mp h.nonzero
    exact fun hzero => hold ((List.filter_sublist.map Prod.snd).subset hzero)

/-! ## Runs -/

variable {t : TaggingThread Addr}

/-- The tags are unique for what they have last been given out for. -/
def TaggingThread.Tagged (t : TaggingThread Addr) : Prop :=
  UniqueTags (destinations t.mdioKeys) t.state

theorem tagged_initialized {hbSettings : PZGHeartbeatSettings}
    {startTime : ℕ} {outgoingHeartbeatPacketIDCounter : UInt32} :
    (TaggingThread.initialized hbSettings startTime
      outgoingHeartbeatPacketIDCounter : TaggingThread Addr).Tagged :=
  ⟨fun _ _ => iff_of_false (by simp [TaggingThread.initialized,
      TimedHeartbeatThread.initialized]) (by simp [TaggingThread.initialized,
      TimedHeartbeatThread.initialized]), fun _ => Iff.rfl, List.not_mem_nil⟩

theorem mdioKeys_ensure :
    t.ensureHeartbeatSourceTagsTableUpdated.mdioKeys =
      t.ensureHeartbeatSourceTagsTableUpdated.multicastDataIOs := by
  unfold TaggingThread.ensureHeartbeatSourceTagsTableUpdated
  split
  · next hsame => exact hsame.symm
  · rfl

/-- After an update, that is for what is sent through now. -/
theorem tagged_ensure_iff :
    t.ensureHeartbeatSourceTagsTableUpdated.Tagged ↔
      UniqueTags (destinations
        t.ensureHeartbeatSourceTagsTableUpdated.multicastDataIOs)
        t.ensureHeartbeatSourceTagsTableUpdated.state := by
  rw [TaggingThread.Tagged, mdioKeys_ensure]

/-- **One event.** -/
theorem TaggingThread.Tagged.step_iff {e : InterfaceEvent Addr}
    (h : t.Tagged) : (interfaceStep t e).Tagged ↔ TagsFree t e := by
  cases e with
  | networkInterfacesChanged dios => exact iff_of_true h trivial
  | ensureHeartbeatSourceTagsTableUpdated =>
      simp only [interfaceStep, TagsFree,
        TaggingThread.ensureHeartbeatSourceTagsTableUpdated]
      split
      · next hsame => exact iff_of_true h fun hchanged => absurd hsame hchanged
      · next hchanged =>
        have hupdate : UniqueTags (destinations t.multicastDataIOs)
            (t.state.ensureHeartbeatSourceTagsTableUpdated
              (destinations t.multicastDataIOs)) ↔
            (tagsInUse (destinations t.multicastDataIOs) t.state).Nodup :=
          UniqueTags.ensure_iff h
        exact hupdate.trans ⟨fun hfree _ => hfree, fun hfree => hfree hchanged⟩

/-- **The tags stay unique** after every update of a run exactly if no update
gives an address a tag that another one has. -/
theorem uniqueTags_iff_tagsFree (hbSettings : PZGHeartbeatSettings)
    (startTime : ℕ) (outgoingHeartbeatPacketIDCounter : UInt32)
    (es : List (InterfaceEvent Addr)) :
    (∀ past, past ++ [.ensureHeartbeatSourceTagsTableUpdated] <+: es →
      let t := Runs.run interfaceStep (.initialized hbSettings startTime
        outgoingHeartbeatPacketIDCounter)
          (past ++ [.ensureHeartbeatSourceTagsTableUpdated])
      UniqueTags (destinations t.multicastDataIOs) t.state) ↔
    Runs.StepsMeet interfaceStep TagsFree (.initialized hbSettings startTime
      outgoingHeartbeatPacketIDCounter) es := by
  rw [← Runs.always_iff_stepsMeet tagged_initialized
    fun _ _ htagged => TaggingThread.Tagged.step_iff htagged]
  constructor
  · intro h past
    induction past using List.reverseRecOn with
    | nil => exact fun _ => tagged_initialized
    | append_singleton past e ih =>
        intro hpast
        cases e with
        | networkInterfacesChanged dios =>
            rw [Runs.run_append]
            exact ih ((List.prefix_append _ _).trans hpast)
        | ensureHeartbeatSourceTagsTableUpdated =>
            have hunique := h past hpast
            rw [Runs.run_append] at hunique ⊢
            exact tagged_ensure_iff.mpr hunique
  · intro h past hpast
    have htagged := h _ hpast
    dsimp only
    rw [Runs.run_append] at htagged ⊢
    exact tagged_ensure_iff.mp htagged

/-! ## An interface that stays while others come and go -/

omit [IPAddressAndPort Addr] in
theorem tagCounter_addTags (dests : List Addr) :
    (dests.foldl addTag st).heartbeatSourceTagCounter =
      nextTag^[(newDestinations st.heartbeatSourceDestToTag.keys
        dests).length] st.heartbeatSourceTagCounter := by
  induction dests generalizing st with
  | nil => rfl
  | cons iap dests ih =>
      rw [List.foldl_cons, ih, newDestinations]
      split
      · next hknown => rw [addTag_of_mem hknown]
      · next hnew =>
        rw [addTag_of_notMem hnew]
        simp only [Hashtable.keys_put_of_notMem hnew, List.length_cons,
          Function.iterate_succ_apply]

omit [IPAddressAndPort Addr] in
theorem tagCounter_ensure (dests : List Addr)
    (st : TimedHeartbeatThread Addr) :
    (st.ensureHeartbeatSourceTagsTableUpdated
      dests).heartbeatSourceTagCounter =
        nextTag^[(addedDestinations dests st).length]
          st.heartbeatSourceTagCounter := by
  change (dests.foldl addTag (removeTags dests _
    st)).heartbeatSourceTagCounter = _
  rw [tagCounter_addTags, tagCounter_removeTags, Hashtable.keys,
    entries_removeAllTags, addedDestinations]

/-- The multicast address of an interface. -/
structure GroupAddress where
  interfaceIndex : ℕ
  deriving DecidableEq

instance instIPAddressAndPortGroupAddress : IPAddressAndPort GroupAddress :=
  ⟨fun _ => true⟩

/-- The interface 0, which stays, and the one that is there besides. -/
def visitorDataIOs (n : ℕ) : List ( PacketDataIO GroupAddress) :=
  [⟨2 * n, ⟨0⟩⟩, ⟨2 * n + 1, ⟨n⟩⟩]

/-- The interface `n` comes, and the one before it is gone. -/
def visit (n : ℕ) : List (InterfaceEvent GroupAddress) :=
  [.networkInterfacesChanged (visitorDataIOs n),
    .ensureHeartbeatSourceTagsTableUpdated]

/-- The interfaces from 1 on come one after another, `n` of them. -/
def visits : ℕ → List (InterfaceEvent GroupAddress)
  | 0 => []
  | n + 1 => visits n ++ visit (n + 1)

/-- The tables when the interface `n` has got the tag `tag`. -/
structure Visited (n : ℕ) (tag : UInt16) (t : TaggingThread GroupAddress) :
    Prop where
  mdioKeys : t.mdioKeys = visitorDataIOs n
  entries : t.state.heartbeatSourceDestToTag.entries = [(⟨0⟩, 1), (⟨n⟩, tag)]
  counter : t.state.heartbeatSourceTagCounter = tag

theorem Visited.visit {n : ℕ} {tag : UInt16} {t : TaggingThread GroupAddress}
    (h : Visited n tag t) (hn : n ≠ 0) :
    Visited (n + 1) (nextTag tag)
      (Runs.run interfaceStep t (visit (n + 1))) := by
  have hchanged : visitorDataIOs (n + 1) ≠ t.mdioKeys := by
    rw [h.mdioKeys]
    simp [visitorDataIOs]
  have hdests : destinations (visitorDataIOs (n + 1)) =
      [⟨0⟩, ⟨n + 1⟩] := rfl
  have hkept : keptEntries [⟨0⟩, ⟨n + 1⟩] t.state = [(⟨0⟩, 1)] := by
    simp [keptEntries, h.entries, hn]
  have hadded : addedDestinations [⟨0⟩, ⟨n + 1⟩] t.state = [⟨n + 1⟩] := by
    simp [addedDestinations, hkept, newDestinations]
  have hrun : Runs.run interfaceStep t (SourceTags.visit (n + 1)) =
      { state := t.state.ensureHeartbeatSourceTagsTableUpdated
          [⟨0⟩, ⟨n + 1⟩]
        multicastDataIOs := visitorDataIOs (n + 1)
        mdioKeys := visitorDataIOs (n + 1) } := by
    simp only [SourceTags.visit, Runs.run_cons, Runs.run_nil, interfaceStep,
      TaggingThread.ensureHeartbeatSourceTagsTableUpdated, if_neg hchanged,
      hdests]
  rw [hrun]
  refine ⟨rfl, ?_, ?_⟩
  · rw [entries_ensure, hkept, hadded, h.counter]
    rfl
  · rw [tagCounter_ensure, hadded, h.counter]
    rfl

theorem nextTag_ofNat {n : ℕ} (h : n + 1 < 2 ^ 16) :
    nextTag (.ofNat n) = .ofNat (n + 1) := by
  have hsum : UInt16.ofNat n + 1 = .ofNat (n + 1) := by
    rw [UInt16.ofNat_add]
    rfl
  have hne : UInt16.ofNat (n + 1) ≠ 0 := by
    intro hzero
    have hnat := congrArg UInt16.toNat hzero
    rw [UInt16.toNat_ofNat_of_lt' h] at hnat
    simp at hnat
  rw [nextTag, hsum, if_neg hne]

/-- Every visitor gets the tag after its number, up to the last tag. -/
theorem visited_visits (hbSettings : PZGHeartbeatSettings) (n : ℕ)
    (hn : n + 2 < 2 ^ 16) :
    Visited (n + 1) (.ofNat (n + 2)) (Runs.run interfaceStep
      (.initialized hbSettings 0 0) (visits (n + 1))) := by
  induction n with
  | zero => exact ⟨rfl, rfl, rfl⟩
  | succ n ih =>
      have hbefore := ih (by omega)
      have hnext := hbefore.visit (Nat.succ_ne_zero n)
      rw [nextTag_ofNat (by omega)] at hnext
      rw [visits, Runs.run_append]
      exact hnext

/-- A peer that sends a heartbeat every second. -/
def everySecond : PZGHeartbeatSettings where
  localPeerID := ⟨1, 1⟩
  systemKey := 1
  versionCode := 1
  peerType := 1
  heartbeatsPerSecond := 1
  maxNumMissingHeartbeats := 5
  heartbeatsBeforeFullyAttached := 5

/-- The tag after the last one is the first. -/
theorem entries_visits (hbSettings : PZGHeartbeatSettings) {n : ℕ}
    (hn : n + 2 = 65535) :
    (Runs.run interfaceStep (.initialized hbSettings 0 0)
        (visits (n + 2))).state.heartbeatSourceDestToTag.entries =
      [(⟨0⟩, 1), (⟨n + 2⟩, 1)] := by
  have hbefore := visited_visits hbSettings n (by omega)
  have hvisited := hbefore.visit (Nat.succ_ne_zero n)
  have hnext : nextTag (.ofNat (n + 2)) = 1 := by
    rw [hn]
    decide
  rw [← Runs.run_append, hnext] at hvisited
  exact hvisited.entries

theorem not_uniqueTags_of_comesRound (hbSettings : PZGHeartbeatSettings)
    {n : ℕ} (hn : n + 2 = 65535) :
    ¬∀ past, past ++ [.ensureHeartbeatSourceTagsTableUpdated] <+:
        visits (n + 2) →
      let t := Runs.run interfaceStep (.initialized hbSettings 0 0)
        (past ++ [.ensureHeartbeatSourceTagsTableUpdated])
      UniqueTags (destinations t.multicastDataIOs) t.state := by
  intro h
  have hlast : visits (n + 2) = (visits (n + 1) ++
      [.networkInterfacesChanged (visitorDataIOs (n + 2))]) ++
        [.ensureHeartbeatSourceTagsTableUpdated] := by
    rw [visits, List.append_assoc]
    rfl
  have hunique := h _ ⟨[], (List.append_nil _).trans hlast.symm⟩
  rw [← hlast] at hunique
  have htags := hunique.inverse.nodup_tags
  rw [entries_visits hbSettings hn] at htags
  simp at htags

/-- **The counter comes round** to the tag of the interface that has stayed:
after 65535 visitors its address and that of the last one have the same
tag. -/
theorem not_uniqueTags_visits :
    ¬∀ past, past ++ [.ensureHeartbeatSourceTagsTableUpdated] <+:
        visits 65535 →
      let t := Runs.run interfaceStep (.initialized everySecond 0 0)
        (past ++ [.ensureHeartbeatSourceTagsTableUpdated])
      UniqueTags (destinations t.multicastDataIOs) t.state :=
  not_uniqueTags_of_comesRound everySecond rfl

end ZgChoir.SourceTags
