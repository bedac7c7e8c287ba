import ZgChoir.OpTagTracking
import ZgChoir.Runs

/-!
# Every item comes out under its own tag

A session has two messages that it puts together, one for payloads and
removals and one for changes of indices.  Items are appended under one tag or
another, and a later value may supersede the ones that a path has.  As long
as the entries of the put maps fit, the client side makes a callback for every
item that remains, with its tag.

The bit fields are the limit: from the 257th tag on, an update comes out under
another one's.  The remove map holds whole numbers.
-/

namespace ZgChoir.OpTagMap

open DecimalText NetworkTreeGateway

/-- A change of an index. -/
structure IndexChange where
  op : IndexOp
  index : UInt32
  key : String

variable {P : Type}

/-- How a change is written. -/
def IndexChange.value (change : IndexChange) : FieldValue P :=
  .string (indexCommand change.op change.index change.key)

/-- The callback for a change. -/
def IndexChange.callback (nodePath : String) (change : IndexChange)
    (optOpTag : String) : TreeCallback P :=
  match change.op with
  | .cleared => .treeNodeIndexCleared nodePath optOpTag
  | .entryInserted =>
      .treeNodeIndexEntryInserted nodePath change.index change.key optOpTag
  | .entryRemoved =>
      .treeNodeIndexEntryRemoved nodePath change.index change.key optOpTag

/-- The callback for a payload. -/
def payloadCallback (nodePath : String) (messageData : P) (optOpTag : String) :
    TreeCallback P :=
  .treeNodeUpdated nodePath (some messageData) optOpTag

/-- An index that was written is read, also one above 2^31. -/
theorem toUInt32_atoi_toDigits {index : UInt32} {key : List Char} :
    (atoi (Nat.toDigits 10 index.toNat ++ ':' :: key)).toUInt32 = index := by
  have hend : ∀ c, (':' :: key).head? = some c → c.isDigit = false := by
    intro c hc
    obtain rfl := Option.some.inj hc
    rfl
  have hread := toInt_atoi_toDigits index.toNat_lt hend
  have hsame : atoi (Nat.toDigits 10 index.toNat ++ ':' :: key) =
      index.toInt32 := by
    have hint : index.toInt32.toInt = index.toBitVec.toInt := rfl
    have hnat : index.toBitVec.toNat = index.toNat := rfl
    rw [← Int32.toInt_inj, hread, hint, BitVec.toInt_eq_toNat_cond, hnat]
    split <;> split <;> omega
  rw [hsame, UInt32.toUInt32_toInt32]

/-- What is written of a change is read back. -/
theorem indexCallback_indexCommand {nodePath optOpTag : String}
    {change : IndexChange} :
    indexCallback nodePath
        (indexCommand change.op change.index change.key) optOpTag =
      some (change.callback nodePath optOpTag : TreeCallback P) := by
  obtain ⟨op, index, key⟩ := change
  have hkey : (Nat.toDigits 10 index.toNat ++ ':' :: key.toList).dropWhile
      (fun c => !decide (c = ':')) = ':' :: key.toList := by
    rw [List.dropWhile_append_of_pos, List.dropWhile_cons]
    · simp
    · intro c hc
      have hdigit : c.isDigit = true :=
        Nat.isDigit_of_mem_toDigits (by decide) (by decide) hc
      have hne : c ≠ ':' := by
        rintro rfl
        cases hdigit
      simpa using hne
  cases op <;>
    simp [indexCallback, indexCommand, IndexOp.letter, IndexChange.callback,
      toUInt32_atoi_toDigits, hkey]

/-- The messages of a session. -/
structure Outgoing (P : Type) where
  dataItems : Tracked P P
  indexUpdates : Tracked P IndexChange

/-- The messages when nothing has been appended. -/
def Outgoing.new (dataItems indexUpdates : UInt32) : Outgoing P :=
  ⟨Tracked.new dataItems, Tracked.new indexUpdates⟩

/-- What is appended, each time under the current operation tag, and the
pruning of a path whose values are superseded. -/
inductive Append (P : Type) where
  | nodeUpdated (nodePath : String) (messageData : P) (optOpTag : String)
  | nodeRemoved (nodePath optOpTag : String)
  | indexUpdated (nodePath : String) (change : IndexChange) (optOpTag : String)
  | pruned (nodePath : String)

/-- The message that a call leaves. -/
def afterCall (msg : SubscriptionMessage P) :
    Except Status (SubscriptionMessage P) → SubscriptionMessage P
  | .ok msg' => msg'
  | .error _ => msg

/-- One more append, and a note of it. -/
def step (s : Outgoing P) : Append P → Outgoing P
  | .nodeUpdated nodePath messageData optOpTag =>
      let t := s.dataItems
      { s with
        dataItems :=
          { message := afterCall t.message (updateSubscriptionMessage t.message
              nodePath (some messageData) optOpTag)
            removals := t.removals
            items := t.items.put nodePath
              (t.items.at nodePath ++ [(messageData, optOpTag)]) } }
  | .nodeRemoved nodePath optOpTag =>
      let t := s.dataItems
      { s with
        dataItems :=
          { message := afterCall t.message
              (updateSubscriptionMessage t.message nodePath none optOpTag)
            removals := t.removals ++ [(nodePath, optOpTag)]
            items := t.items } }
  | .indexUpdated nodePath change optOpTag =>
      let t := s.indexUpdates
      { s with
        indexUpdates :=
          { message := afterCall t.message
              (updateSubscriptionIndexMessage t.message nodePath change.op
                change.index change.key optOpTag)
            removals := t.removals
            items := t.items.put nodePath
              (t.items.at nodePath ++ [(change, optOpTag)]) } }
  | .pruned nodePath =>
      let t := s.dataItems
      { s with
        dataItems :=
          { message := pruneSubscriptionMessage t.message nodePath
            removals := t.removals
            items := t.items.remove nodePath } }

/-- The index of a tag in a message, also if it comes only now. -/
def opTagIndexAfter (msg : SubscriptionMessage P) (optOpTag : String) : ℕ :=
  (msg.findStrings .opTagFieldName).idxOf optOpTag

/-- The entry for one more value of a path fits: 8 bits for the tag, 12 for
the field, 12 for the value. -/
def EntryFits (msg : SubscriptionMessage P) (nodePath optOpTag : String) :
    Prop :=
  optOpTag = "" ∨
    (opTagIndexAfter msg optOpTag < 256 ∧ fieldIndexAfter msg nodePath < 4096 ∧
      msg.numValues (.node nodePath) < 4096)

instance decidableEntryFits (msg : SubscriptionMessage P)
    (nodePath optOpTag : String) : Decidable (EntryFits msg nodePath optOpTag) :=
  inferInstanceAs (Decidable (_ ∨ _))

/-- What is appended can be told to be of its tag. -/
def Fits (s : Outgoing P) : Append P → Prop
  | .nodeUpdated nodePath _ optOpTag =>
      EntryFits s.dataItems.message nodePath optOpTag
  | .nodeRemoved _ optOpTag =>
      optOpTag = "" ∨ opTagIndexAfter s.dataItems.message optOpTag < 2147483648
  | .indexUpdated nodePath _ optOpTag =>
      EntryFits s.indexUpdates.message nodePath optOpTag
  | .pruned _ => True

instance decidableFits (s : Outgoing P) : ∀ e, Decidable (Fits s e)
  | .nodeUpdated _ _ _ => inferInstanceAs (Decidable (EntryFits _ _ _))
  | .nodeRemoved _ _ => inferInstanceAs (Decidable (_ ∨ _))
  | .indexUpdated _ _ _ => inferInstanceAs (Decidable (EntryFits _ _ _))
  | .pruned _ => inferInstanceAs (Decidable True)

/-- The client side makes a callback for each removal and each item that
remains, with its own tag, and no others. -/
def Delivered (convertPathToSessionRelative : String → Option String)
    (s : Outgoing P) : Prop :=
  dataItemsReceived convertPathToSessionRelative s.dataItems.message =
      removalCallbacks convertPathToSessionRelative s.dataItems.removals ++
        itemCallbacks convertPathToSessionRelative payloadCallback
          s.dataItems.items ∧
    indexUpdatesReceived convertPathToSessionRelative s.indexUpdates.message =
      itemCallbacks convertPathToSessionRelative IndexChange.callback
        s.indexUpdates.items

section Invariant

variable {ι : Type} {encode : ι → FieldValue P} {t : Tracked P ι}
  {tags : List String} {removeMap : List Int32} {putMap : List UInt32}
  (convertPathToSessionRelative : String → Option String)

theorem Layout.dataItemsReceived_eq {t : Tracked P P}
    (h : Layout .message t tags removeMap putMap) :
    dataItemsReceived convertPathToSessionRelative t.message =
      removalCallbacks convertPathToSessionRelative t.removals ++
        itemCallbacks convertPathToSessionRelative payloadCallback t.items := by
  have hvalues : ∀ nodePath (lookup : ℕ → String) (items : List (P × String)),
      (∀ i item, items[i]? = some item → lookup i = item.2) →
      (Message.messagesIn (items.map fun item => .message item.1)).zipIdx.map
          (fun item => payloadCallback nodePath item.1 (lookup item.2)) =
        items.map fun item => payloadCallback nodePath item.1 item.2 := by
    intro nodePath lookup items hlookup
    have hmap : items.map (fun item => (.message item.1 : FieldValue P)) =
        (items.map Prod.fst).map .message := by simp
    rw [hmap, Message.messagesIn_map, List.zipIdx_map, List.map_map]
    apply Occurrences.map_zipIdx_congr
    intro i item hitem
    simp only [Function.comp_apply, Prod.map_fst, Prod.map_snd, id_eq,
      hlookup i item hitem]
  have hitems := h.items_received convertPathToSessionRelative payloadCallback
    (fun lookup nodePath values =>
      (Message.messagesIn values).zipIdx.map fun item =>
        payloadCallback nodePath item.1 (lookup item.2)) hvalues
  rw [dataItemsReceived, h.removals_received]
  exact congrArg _ hitems

theorem Layout.indexUpdatesReceived_eq {t : Tracked P IndexChange}
    (h : Layout IndexChange.value t tags removeMap putMap) :
    indexUpdatesReceived convertPathToSessionRelative t.message =
      itemCallbacks convertPathToSessionRelative IndexChange.callback
        t.items := by
  have hvalues : ∀ nodePath (lookup : ℕ → String) (items : List (IndexChange × String)),
      (∀ i item, items[i]? = some item → lookup i = item.2) →
      (Message.stringsIn (items.map fun item =>
          (item.1.value : FieldValue P))).zipIdx.filterMap
          (fun item => indexCallback nodePath item.1 (lookup item.2)) =
        items.map fun item =>
          (item.1.callback nodePath item.2 : TreeCallback P) := by
    intro nodePath lookup items hlookup
    have hmap : items.map (fun item => (item.1.value : FieldValue P)) =
        (items.map fun item => indexCommand item.1.op item.1.index
          item.1.key).map .string := by
      rw [List.map_map]
      rfl
    rw [hmap, Message.stringsIn_map, List.zipIdx_map, List.filterMap_map,
      ← List.filterMap_eq_map]
    apply Occurrences.filterMap_zipIdx_congr
    intro i item hitem
    simp only [Function.comp_apply, Prod.map_fst, Prod.map_snd, id_eq,
      hlookup i item hitem, indexCallback_indexCommand]
  have hitems := h.items_received convertPathToSessionRelative
    IndexChange.callback (fun lookup nodePath values =>
      (Message.stringsIn values).zipIdx.filterMap fun item =>
        indexCallback nodePath item.1 (lookup item.2))
  exact hitems hvalues

/-- A message is laid out for what has been appended to it. -/
def Coherent (encode : ι → FieldValue P) (t : Tracked P ι) : Prop :=
  ∃ tags removeMap putMap, Layout encode t tags removeMap putMap

/-- One step for one more item. -/
theorem Coherent.append (h : Coherent encode t)
    (htype : ∀ x y, (encode x).type = (encode y).type) {nodePath tag : String}
    {x : ι} (hfits : EntryFits t.message nodePath tag) :
    Coherent encode ⟨afterCall t.message
        (appendValue t.message nodePath (encode x) tag), t.removals,
      t.items.put nodePath (t.items.at nodePath ++ [(x, tag)])⟩ := by
  obtain ⟨tags, removeMap, putMap, hlayout⟩ := h
  by_cases htag : tag = ""
  · subst htag
    obtain ⟨msg, hcall, hnext⟩ := hlayout.appendUntagged htype
    rw [hcall]
    exact ⟨_, _, _, hnext⟩
  obtain ⟨hindex, hfield, hvalue⟩ := hfits.resolve_left htag
  rw [opTagIndexAfter, Message.findStrings_of_values hlayout.tagField.values]
    at hindex
  rw [Message.numValues, hlayout.itemFields.values, List.length_map] at hvalue
  obtain ⟨msg, putMap', hcall, hnext⟩ :=
    hlayout.append nodePath x htype htag (by omega) hfield hvalue
  have hread : (Message.withName tags tag).getD (tags.idxOf tag % 256) "" =
      tag := by
    rw [Nat.mod_eq_of_lt hindex, List.getD_eq_getElem?_getD,
      getElem?_idxOf_withName]
    rfl
  rw [hread] at hnext
  rw [hcall]
  exact ⟨_, _, _, hnext⟩

/-- One step for one more removal. -/
theorem Coherent.appendRemoval (h : Coherent encode t) {nodePath tag : String}
    (hfits : tag = "" ∨ opTagIndexAfter t.message tag < 2147483648) :
    Coherent encode ⟨afterCall t.message
        (updateSubscriptionMessage t.message nodePath none tag),
      t.removals ++ [(nodePath, tag)], t.items⟩ := by
  obtain ⟨tags, removeMap, putMap, hlayout⟩ := h
  by_cases htag : tag = ""
  · subst htag
    obtain ⟨msg, hcall, hnext⟩ := hlayout.appendUntaggedRemoval nodePath
    rw [hcall]
    exact ⟨_, _, _, hnext⟩
  have hindex := hfits.resolve_left htag
  rw [opTagIndexAfter, Message.findStrings_of_values hlayout.tagField.values]
    at hindex
  obtain ⟨msg, removeMap', hcall, hnext⟩ :=
    hlayout.appendRemoval nodePath htag hindex
  rw [hcall]
  exact ⟨_, _, _, hnext⟩

/-- Both messages of a session are. -/
def BothCoherent (s : Outgoing P) : Prop :=
  Coherent .message s.dataItems ∧ Coherent IndexChange.value s.indexUpdates

theorem bothCoherent_new {dataItems indexUpdates : UInt32} :
    BothCoherent (Outgoing.new dataItems indexUpdates : Outgoing P) :=
  ⟨⟨[], [], [], Layout.new⟩, ⟨[], [], [], Layout.new⟩⟩

/-- One step of the session. -/
theorem BothCoherent.step {s : Outgoing P} {e : Append P} (h : BothCoherent s)
    (hfits : Fits s e) : BothCoherent (step s e) := by
  obtain ⟨hdata, hindex⟩ := h
  cases e with
  | nodeUpdated nodePath messageData optOpTag =>
      exact ⟨hdata.append (fun _ _ => rfl) hfits, hindex⟩
  | nodeRemoved nodePath optOpTag => exact ⟨hdata.appendRemoval hfits, hindex⟩
  | indexUpdated nodePath change optOpTag =>
      exact ⟨hdata, hindex.append (fun _ _ => rfl) hfits⟩
  | pruned nodePath =>
      obtain ⟨tags, removeMap, putMap, hlayout⟩ := hdata
      exact ⟨⟨_, _, _, hlayout.prune nodePath⟩, hindex⟩

end Invariant

/-- **Every item under its own tag.**  In a run in which every entry fits,
what remains is delivered as it was appended, whenever the messages are
sent. -/
theorem delivered_of_fits
    (convertPathToSessionRelative : String → Option String)
    (dataItems indexUpdates : UInt32) (es : List (Append P))
    (hfits : Runs.StepsMeet step Fits (Outgoing.new dataItems indexUpdates) es) :
    Delivered convertPathToSessionRelative
      (Runs.run step (Outgoing.new dataItems indexUpdates) es) := by
  obtain ⟨⟨_, _, _, hdata⟩, ⟨_, _, _, hindex⟩⟩ :=
    Runs.run_invariant_of_stepsMeet bothCoherent_new hfits fun s e h hfits =>
      h.step hfits
  exact ⟨hdata.dataItemsReceived_eq convertPathToSessionRelative,
    hindex.indexUpdatesReceived_eq convertPathToSessionRelative⟩

/-- Two tags, an untagged index change, and a pruning. -/
def twoTags : List (Append ℕ) :=
  [.nodeUpdated "/h/1/a" 1 "s", .nodeUpdated "/h/1/b" 2 "t",
    .nodeRemoved "/h/1/c" "t", .pruned "/h/1/a",
    .indexUpdated "/h/1/b" ⟨.entryInserted, 0, "I0"⟩ ""]

theorem delivered_of_fits_twoTags :
    Delivered some (Runs.run step (Outgoing.new 0 1) twoTags) :=
  delivered_of_fits some 0 1 twoTags (by decide)

section Overflow

/-- The tags `t`, `tt`, ... -/
def tagOf (i : ℕ) : String := .ofList (List.replicate (i + 1) 't')

theorem tagOf_ne_empty {i : ℕ} : tagOf i ≠ "" := by
  intro h
  have hlist := congrArg String.toList h
  simp [tagOf, List.replicate_succ] at hlist

theorem tagOf_injective : Function.Injective tagOf := by
  intro i j h
  have hlist := congrArg (fun tag => tag.toList.length) h
  simpa [tagOf] using hlist

theorem notMem_tags {n i : ℕ} (hi : n ≤ i) :
    tagOf i ∉ (List.range n).map tagOf := by
  intro hmem
  obtain ⟨j, hj, heq⟩ := List.mem_map.mp hmem
  have hsame : j = i := tagOf_injective heq
  rw [List.mem_range] at hj
  omega

/-- A removal under each of the first `n` tags. -/
def removalUnderEach (n : ℕ) : List (Append P) :=
  (List.range n).map fun i => .nodeRemoved "/h/1/n" (tagOf i)

/-- Removals bring in as many tags as there are. -/
theorem layout_removalUnderEach (dataItems indexUpdates : UInt32) (n : ℕ)
    (hn : n < 2147483648) :
    ∃ removeMap, Layout FieldValue.message
        (Runs.run step (Outgoing.new dataItems indexUpdates : Outgoing P)
          (removalUnderEach n)).dataItems
        ((List.range n).map tagOf) removeMap [] ∧
      (Runs.run step (Outgoing.new dataItems indexUpdates : Outgoing P)
        (removalUnderEach n)).dataItems.items = Hashtable.empty := by
  induction n with
  | zero => exact ⟨[], Layout.new, rfl⟩
  | succ n ih =>
      obtain ⟨removeMap, hlayout, hitems⟩ := ih (by omega)
      have hrun : (removalUnderEach (n + 1) : List (Append P)) =
          removalUnderEach n ++ [.nodeRemoved "/h/1/n" (tagOf n)] := by
        rw [removalUnderEach, List.range_succ, List.map_append]
        rfl
      have hnew := notMem_tags (Nat.le_refl n)
      have hindex : ((List.range n).map tagOf).idxOf (tagOf n) = n := by
        rw [List.idxOf_eq_length hnew]
        simp
      obtain ⟨msg, removeMap', hcall, hnext⟩ :=
        hlayout.appendRemoval "/h/1/n" tagOf_ne_empty (by rw [hindex]; omega)
      rw [Message.withName_of_notMem hnew] at hnext
      refine ⟨removeMap', ?_, ?_⟩
      · rw [hrun, Runs.run_append, List.range_succ, List.map_append]
        change Layout _ ⟨afterCall _ (updateSubscriptionMessage _ _ none _), _,
          _⟩ _ _ _
        rw [hcall]
        exact hnext
      · rw [hrun, Runs.run_append]
        exact hitems

/-- A message without items has the fields of the tags and removals only. -/
theorem fieldIndexAfter_le {msg : SubscriptionMessage P} {nodePath : String}
    (h : msg.fields.keys.filterMap nodePathOf = []) :
    fieldIndexAfter msg nodePath ≤ 6 := by
  have hwith : ∀ (names : List SubscriptionField) name,
      (Message.withName names name).length ≤ names.length + 1 := by
    intro names name
    unfold Message.withName
    split
    · omega
    · simp
  have hnames : ∀ name ∈ msg.fields.keys, name ∈
      [.removedDataItems, .opTagFieldName, .opTagPutMap, .opTagRemoveMap] := by
    intro name hname
    cases name with
    | node path =>
        rw [← mem_filterMap_nodePathOf, h] at hname
        cases hname
    | _ => simp
  have hlength : msg.fields.keys.length ≤ 4 :=
    (msg.fields.distinct.subperm hnames).length_le
  unfold fieldIndexAfter
  have hidx := List.idxOf_le_length (a := SubscriptionField.node nodePath)
    (l := Message.withName (Message.withName msg.fields.keys .opTagFieldName)
      (.node nodePath))
  have hone := hwith (Message.withName msg.fields.keys .opTagFieldName)
    (.node nodePath)
  have htwo := hwith msg.fields.keys .opTagFieldName
  omega

/-- With 256 tags in the message, an update under another one comes out under
the first. -/
theorem not_delivered_nodeUpdated {s : Outgoing P} {removeMap : List Int32}
    (hlayout : Layout .message s.dataItems ((List.range 256).map tagOf)
      removeMap []) (hitems : s.dataItems.items = Hashtable.empty)
    (messageData : P) :
    ¬Delivered some
      (step s (.nodeUpdated "/h/1/n" messageData (tagOf 256))) := by
  intro hdelivered
  have hnew := notMem_tags (Nat.le_refl 256)
  have hindex : ((List.range 256).map tagOf).idxOf (tagOf 256) = 256 := by
    rw [List.idxOf_eq_length hnew]
    simp
  have hnone : s.dataItems.items.at "/h/1/n" = [] := by
    rw [hitems]
    rfl
  have hfield : fieldIndexAfter s.dataItems.message "/h/1/n" ≤ 6 := by
    apply fieldIndexAfter_le
    rw [hlayout.itemFields.names, hitems]
    rfl
  obtain ⟨msg, putMap, hcall, hnext⟩ := hlayout.append "/h/1/n" messageData
    (fun _ _ => rfl) tagOf_ne_empty (by rw [hindex]; omega) (by omega)
    (by rw [hnone, List.length_nil]; omega)
  have hread : (Message.withName ((List.range 256).map tagOf)
      (tagOf 256)).getD (256 % 256) "" = tagOf 0 := by
    rw [Message.withName_of_notMem hnew]
    rfl
  rw [hindex, hread, hnone, hitems] at hnext
  have hwrong := hnext.dataItemsReceived_eq some
  have hright := hdelivered.1
  simp only [step, hitems, updateSubscriptionMessage_some, hcall, afterCall]
    at hright
  rw [hwrong, List.append_right_inj] at hright
  have htag : tagOf 0 = tagOf 256 := by
    simpa [itemCallbacks, payloadCallback, Hashtable.entries_put_of_notMem,
      TaggedItems.at] using hright
  exact absurd (tagOf_injective htag) (by decide)

/-- After 256 removals, an update under one tag more. -/
def tagTooMany : List (Append ℕ) :=
  removalUnderEach 256 ++ [.nodeUpdated "/h/1/n" 7 (tagOf 256)]

theorem not_delivered_tagTooMany :
    ¬Delivered some (Runs.run step (Outgoing.new 0 1) tagTooMany) := by
  obtain ⟨removeMap, hlayout, hitems⟩ :=
    layout_removalUnderEach (P := ℕ) 0 1 256 (by decide)
  rw [tagTooMany, Runs.run_append]
  exact not_delivered_nodeUpdated hlayout hitems 7

end Overflow

end ZgChoir.OpTagMap
