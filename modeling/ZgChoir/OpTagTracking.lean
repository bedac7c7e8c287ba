import ZgChoir.OpTagLayout

/-!
# Appending to a message, and decoding it

A message is kept together with what has been appended to it (`Tracked`).
Each append succeeds and keeps the two in step (`Layout`), as long as the
entry of the put map fits; of a tag, what comes out is the one at the index
that fits into eight bits.  The client side's loops give back what has been
kept.

Key facts:
* `Layout.append`, `Layout.appendUntagged` — one more item.
* `Layout.appendRemoval`, `Layout.appendUntaggedRemoval` — one more removal.
* `Layout.prune` — the items of a path go.
* `Layout.removals_received`, `Layout.items_received` — the way back.
-/

namespace ZgChoir.OpTagMap

open DecimalText NetworkTreeGateway

/-- A message, the removals appended to it, and the items that it holds, each
with the operation tag of its time. -/
structure Tracked (P ι : Type) where
  message : SubscriptionMessage P
  removals : List (String × String)
  items : TaggedItems ι

/-- Nothing yet. -/
def Tracked.new {P ι : Type} (what : UInt32) : Tracked P ι :=
  ⟨.ofWhat what, [], Hashtable.empty⟩

/-- The message and what has been appended to it belong together. -/
structure Layout {P ι : Type} (encode : ι → FieldValue P) (t : Tracked P ι)
    (tags : List String) (removeMap : List Int32) (putMap : List UInt32) :
    Prop where
  tagField : TagsLaidOut t.message tags
  removalFields : RemovalsLaidOut t.message t.removals tags removeMap
  itemFields : ItemsLaidOut encode t.message t.items tags putMap

variable {P ι : Type}

/-- The branch for payloads, which is the one for index changes, too. -/
def appendValue (msg : SubscriptionMessage P) (nodePath : String)
    (value : FieldValue P) (optOpTag : String) :
    Except Status (SubscriptionMessage P) := do
  let (opTagIndex, msg) ← currentOpTagIndex msg optOpTag
  let msg ← msg.add (.node nodePath) value
  if 0 ≤ opTagIndex then addPutMapEntry msg nodePath opTagIndex
  else return msg

theorem updateSubscriptionMessage_some {msg : SubscriptionMessage P}
    {nodePath optOpTag : String} {messageData : P} :
    updateSubscriptionMessage msg nodePath (some messageData) optOpTag =
      appendValue msg nodePath (.message messageData) optOpTag := rfl

/-- The position of a path's field when a tagged item has been added. -/
def fieldIndexAfter (msg : SubscriptionMessage P) (nodePath : String) : ℕ :=
  (Message.withName (Message.withName msg.fields.keys .opTagFieldName)
    (.node nodePath)).idxOf (.node nodePath)

/-- An index of 31 bits is one for the code. -/
theorem zero_le_ofNat {n : ℕ} (h : n < 2147483648) :
    (0 : Int32) ≤ Int32.ofNat n := by
  have hint : Int32.ofNat n = (UInt32.ofNat n).toInt32 := rfl
  rw [hint, zero_le_toInt32_iff, UInt32.lt_iff_toNat_lt, UInt32.toNat_ofNat']
  change _ < 2147483648
  omega

/-- A name is where its index says, also when it has just come. -/
theorem getElem?_idxOf_withName {tags : List String} {tag : String} :
    (Message.withName tags tag)[tags.idxOf tag]? = some tag := by
  by_cases hold : tag ∈ tags
  · rw [Message.withName_of_mem hold]
    have hlt := List.idxOf_lt_length_of_mem hold
    rw [List.getElem?_eq_getElem hlt, List.getElem_idxOf hlt]
  · rw [Message.withName_of_notMem hold, List.idxOf_eq_length hold,
      List.getElem?_concat_length]

/-- The entry that `addPutMapEntry` adds. -/
theorem addPutMapEntry_eq {msg : SubscriptionMessage P} {nodePath : String}
    (opTagIndex : Int32) {n : ℕ}
    (hmem : SubscriptionField.node nodePath ∈ msg.fields.keys)
    (hvalues : msg.numValues (.node nodePath) = n + 1)
    (hlast : n = 0 → fieldOf msg nodePath = msg.numNames - 1) :
    addPutMapEntry msg nodePath opTagIndex = msg.addInt32 .opTagPutMap
      (putMapEntry opTagIndex.toUInt32 (.ofNat (fieldOf msg nodePath))
        (.ofNat n)).toInt32 := by
  have hname : msg.indexOfName (.node nodePath) =
      some (fieldOf msg nodePath) := if_pos hmem
  simp only [addPutMapEntry, hvalues, hname, Nat.add_sub_cancel,
    Option.getD_some]
  cases n with
  | zero => rw [if_neg (by omega), hlast rfl]
  | succ n => rw [if_pos (by omega)]

namespace Layout

variable {encode : ι → FieldValue P} {t : Tracked P ι} {tags : List String}
  {removeMap : List Int32} {putMap : List UInt32} {nodePath tag : String}
  {x : ι}

theorem new {what : UInt32} :
    Layout encode (Tracked.new what) [] [] [] where
  tagField := ⟨rfl, List.nodup_nil, Nat.zero_le _⟩
  removalFields := ⟨rfl, rfl, Nat.le_refl _, nofun, nofun⟩
  itemFields := ⟨rfl, fun _ => rfl, rfl, nofun, nofun⟩

/-- The tag is in the list, where `GetOrPutOpTagIndex` says. -/
theorem getOrPutOpTagIndex (h : Layout encode t tags removeMap putMap)
    (hroom : tags.idxOf tag < 2147483648) :
    ∃ msg, getOrPutOpTagIndex t.message tag = .ok (tags.idxOf tag, msg) ∧
      Layout encode { t with message := msg } (Message.withName tags tag)
        removeMap putMap ∧
      msg.fields.keys =
        Message.withName t.message.fields.keys .opTagFieldName := by
  unfold OpTagMap.getOrPutOpTagIndex
  rw [Message.findStrings_of_values h.tagField.values]
  by_cases hold : tag ∈ tags
  · have hname : SubscriptionField.opTagFieldName ∈ t.message.fields.keys := by
      rw [Message.mem_keys_iff, h.tagField.values, ne_eq, List.map_eq_nil_iff]
      exact List.ne_nil_of_mem hold
    refine ⟨t.message, by rw [if_pos hold], ?_, ?_⟩
    · rw [Message.withName_of_mem hold]
      exact h
    · rw [Message.withName_of_mem hname]
  · have hend : tags.idxOf tag = tags.length := List.idxOf_eq_length hold
    obtain ⟨msg, hadd⟩ :
        ∃ msg, t.message.addString .opTagFieldName tag = .ok msg :=
      Message.exists_add_of_map h.tagField.values fun _ => rfl
    have hvalues := (Message.add_eq_ok hadd).2
    refine ⟨msg, ?_, ?_, Message.keys_of_add hadd⟩
    · rw [if_neg hold, hend, hadd]
      rfl
    rw [Message.withName_of_notMem hold]
    constructor
    · constructor
      · simp [hvalues, h.tagField.values]
      · rw [List.nodup_append]
        refine ⟨h.tagField.nodup, List.nodup_singleton tag, ?_⟩
        grind
      · rw [List.length_append]
        exact hend ▸ hroom
    · apply RemovalsLaidOut.concatTag _ (hend ▸ hroom)
      exact h.removalFields.frame (by simp [hvalues]) (by simp [hvalues])
    · apply ItemsLaidOut.concatTag
      exact h.itemFields.frame rfl (Message.keys_of_add hadd)
        (by simp [hvalues]) (by simp [hvalues])

/-- One more item under a tag.  What comes out is the tag at the index that
fits into eight bits. -/
theorem append (h : Layout encode t tags removeMap putMap)
    (nodePath : String) (x : ι)
    (htype : ∀ x y, (encode x).type = (encode y).type) (htag : tag ≠ "")
    (ha : tags.idxOf tag < 2147483648)
    (hf : fieldIndexAfter t.message nodePath < 4096)
    (hv : (t.items.at nodePath).length < 4096) :
    ∃ msg putMap', appendValue t.message nodePath (encode x) tag = .ok msg ∧
      Layout encode ⟨msg, t.removals, t.items.put nodePath
          (t.items.at nodePath ++ [(x, (Message.withName tags tag).getD
            (tags.idxOf tag % 256) "")])⟩
        (Message.withName tags tag) removeMap putMap' := by
  obtain ⟨msg₁, hindex, h₁, hkeys₁⟩ := h.getOrPutOpTagIndex ha
  obtain ⟨msg₂, hadd₂⟩ :
      ∃ msg₂, msg₁.add (.node nodePath) (encode x) = .ok msg₂ :=
    Message.exists_add_of_map (h₁.itemFields.values nodePath) fun item =>
      htype item.1 x
  have hkeys₂ := Message.keys_of_add hadd₂
  have hvalues₂ := (Message.add_eq_ok hadd₂).2
  have hitems₂ := h₁.itemFields.add hadd₂
  have hfree := h₁.itemFields.not_pointsAt hkeys₂
  have hmem₂ : SubscriptionField.node nodePath ∈ msg₂.fields.keys := by
    rw [Message.mem_keys_iff, hvalues₂]
    simp
  have hfield : fieldOf msg₂ nodePath = fieldIndexAfter t.message nodePath := by
    rw [fieldOf, hkeys₂, hkeys₁, fieldIndexAfter]
  have hcount : msg₂.numValues (.node nodePath) =
      (t.items.at nodePath).length + 1 := by
    simp [Message.numValues, hvalues₂, h₁.itemFields.values]
  have hlast : (t.items.at nodePath).length = 0 →
      fieldOf msg₂ nodePath = msg₂.numNames - 1 := by
    intro hnone
    have hnew : SubscriptionField.node nodePath ∉ msg₁.fields.keys := by
      rw [Message.mem_keys_iff, h₁.itemFields.values, not_not,
        List.map_eq_nil_iff]
      exact List.length_eq_zero_iff.mp hnone
    rw [fieldOf, Message.numNames, hkeys₂, Message.withName_of_notMem hnew,
      List.idxOf_append_of_notMem hnew]
    simp
  have hnonneg := zero_le_ofNat ha
  have hentry := addPutMapEntry_eq (.ofNat (tags.idxOf tag)) hmem₂ hcount hlast
  rw [hfield] at hfree hentry
  let e := putMapEntry (.ofNat (tags.idxOf tag))
    (.ofNat (fieldIndexAfter t.message nodePath))
    (.ofNat (t.items.at nodePath).length)
  obtain ⟨msg₃, hadd₃⟩ :
      ∃ msg₃, msg₂.addInt32 .opTagPutMap e.toInt32 = .ok msg₃ :=
    Message.exists_add_of_map hitems₂.map_values fun _ => rfl
  have hvalues₃ := (Message.add_eq_ok hadd₃).2
  have hpoints : PointsAt e (fieldOf msg₂ nodePath)
      (t.items.at nodePath).length :=
    hfield ▸ pointsAt_putMapEntry (by omega) hf hv
  have hlength : tags.idxOf tag < (Message.withName tags tag).length :=
    (List.getElem?_eq_some_iff.mp getElem?_idxOf_withName).choose
  have hread : (Message.withName tags tag)[(opTagIndexOf e).toNat]? =
      some ((Message.withName tags tag).getD (tags.idxOf tag % 256) "") := by
    have hlt : tags.idxOf tag % 256 < (Message.withName tags tag).length :=
      Nat.lt_of_le_of_lt (Nat.mod_le _ _) hlength
    rw [opTagIndexOf_putMapEntry (by omega) hf hv,
      List.getD_eq_getElem _ _ hlt]
    exact List.getElem?_eq_getElem hlt
  have hitems₃ := hitems₂.addEntry (TaggedItems.at_put.trans (if_pos rfl))
    (hfield ▸ hfree) hpoints hread hadd₃
  rw [Hashtable.put_put] at hitems₃
  refine ⟨msg₃, putMap ++ [e], ?_, ?_, ?_, hitems₃⟩
  · rw [appendValue, currentOpTagIndex, if_neg htag, hindex]
    change (msg₁.add _ _ >>= _) = _
    rw [hadd₂]
    change (if 0 ≤ Int32.ofNat _ then _ else _) = _
    rw [if_pos hnonneg, hentry]
    exact hadd₃
  · exact h₁.tagField.frame (by simp [hvalues₃, hvalues₂])
  · exact h₁.removalFields.frame (by simp [hvalues₃, hvalues₂])
      (by simp [hvalues₃, hvalues₂])

/-- One more item without a tag. -/
theorem appendUntagged (h : Layout encode t tags removeMap putMap)
    (htype : ∀ x y, (encode x).type = (encode y).type) :
    ∃ msg, appendValue t.message nodePath (encode x) "" = .ok msg ∧
      Layout encode ⟨msg, t.removals, t.items.put nodePath
        (t.items.at nodePath ++ [(x, "")])⟩ tags removeMap putMap := by
  obtain ⟨msg, hadd⟩ :
      ∃ msg, t.message.add (.node nodePath) (encode x) = .ok msg :=
    Message.exists_add_of_map (h.itemFields.values nodePath) fun item =>
      htype item.1 x
  have hvalues := (Message.add_eq_ok hadd).2
  refine ⟨msg, ?_, ?_, ?_, h.itemFields.add hadd⟩
  · rw [appendValue, currentOpTagIndex, if_pos rfl]
    change (t.message.add _ _ >>= _) = _
    rw [hadd]
    rfl
  · exact h.tagField.frame (by simp [hvalues])
  · exact h.removalFields.frame (by simp [hvalues]) (by simp [hvalues])

/-- The removals that no entry has been made for yet get -1. -/
theorem padRemoveMap (n : ℕ) (h : Layout encode t tags removeMap putMap)
    (hroom : removeMap.length + n ≤ t.removals.length) :
    ∃ msg, padRemoveMap t.message n = .ok msg ∧
      Layout encode { t with message := msg } tags
        (removeMap ++ List.replicate n (-1)) putMap := by
  induction n generalizing t removeMap with
  | zero =>
      refine ⟨t.message, rfl, ?_⟩
      rw [List.replicate_zero, List.append_nil]
      exact h
  | succ n ih =>
      obtain ⟨msg, hadd⟩ :
          ∃ msg, t.message.addInt32 .opTagRemoveMap (-1) = .ok msg :=
        Message.exists_add_of_map h.removalFields.map_values fun _ => rfl
      have hvalues := (Message.add_eq_ok hadd).2
      have hnext : Layout encode { t with message := msg } tags
          (removeMap ++ [-1]) putMap := by
        refine ⟨?_, h.removalFields.pad (by omega) hadd, ?_⟩
        · exact h.tagField.frame (by simp [hvalues])
        · exact h.itemFields.frame rfl (Message.keys_of_add hadd)
            (by simp [hvalues]) (by simp [hvalues])
      obtain ⟨msg', hpad, hlayout⟩ := ih hnext (by
        rw [List.length_append, List.length_singleton]
        change _ ≤ t.removals.length
        omega)
      refine ⟨msg', ?_, ?_⟩
      · change (t.message.addInt32 _ _ >>= _) = _
        rw [hadd]
        exact hpad
      · rw [List.replicate_succ, ← List.append_cons] at *
        exact hlayout

/-- One more removal, not tagged yet. -/
theorem addRemoval (h : Layout encode t tags removeMap putMap)
    (nodePath : String) :
    ∃ msg, t.message.addString .removedDataItems nodePath = .ok msg ∧
      Layout encode ⟨msg, t.removals ++ [(nodePath, "")], t.items⟩ tags
        removeMap putMap := by
  obtain ⟨msg, hadd⟩ :
      ∃ msg, t.message.addString .removedDataItems nodePath = .ok msg :=
    Message.exists_add_of_map h.removalFields.values fun _ => rfl
  have hvalues := (Message.add_eq_ok hadd).2
  refine ⟨msg, hadd, ?_, h.removalFields.add h.tagField.length hadd, ?_⟩
  · exact h.tagField.frame (by simp [hvalues])
  · exact h.itemFields.frame rfl (Message.keys_of_add hadd) (by simp [hvalues])
      (by simp [hvalues])

/-- One more removal, under a tag. -/
theorem appendRemoval (h : Layout encode t tags removeMap putMap)
    (nodePath : String) (htag : tag ≠ "") (ha : tags.idxOf tag < 2147483648) :
    ∃ msg removeMap',
      updateSubscriptionMessage t.message nodePath none tag = .ok msg ∧
      Layout encode ⟨msg, t.removals ++ [(nodePath, tag)], t.items⟩
        (Message.withName tags tag) removeMap' putMap := by
  obtain ⟨msg₁, hindex, h₁, -⟩ := h.getOrPutOpTagIndex ha
  obtain ⟨msg₂, hadd₂, h₂⟩ := h₁.addRemoval nodePath
  have hlength := h.removalFields.map_length
  obtain ⟨msg₃, hpad, h₃⟩ := h₂.padRemoveMap
    (t.removals.length - removeMap.length) (by simp; omega)
  have hpadded : (removeMap ++ List.replicate
      (t.removals.length - removeMap.length) (-1)).length =
      t.removals.length := by
    rw [List.length_append, List.length_replicate]
    omega
  obtain ⟨msg₄, hadd₄⟩ : ∃ msg₄, msg₃.addInt32 .opTagRemoveMap
      (.ofNat (tags.idxOf tag)) = .ok msg₄ :=
    Message.exists_add_of_map h₃.removalFields.map_values fun _ => rfl
  have hvalues₄ := (Message.add_eq_ok hadd₄).2
  have hread : (Message.withName tags tag)[
      (Int32.ofNat (tags.idxOf tag)).toUInt32.toNat]? = some tag := by
    have hnat : (Int32.ofNat (tags.idxOf tag)).toUInt32.toNat =
        tags.idxOf tag := by
      change (UInt32.ofNat (tags.idxOf tag)).toNat = _
      rw [UInt32.toNat_ofNat']
      omega
    rw [hnat]
    exact getElem?_idxOf_withName
  have hremovals₄ := h₃.removalFields.addEntry hpadded hread hadd₄
  refine ⟨msg₄, _, ?_, ?_, hremovals₄, ?_⟩
  · have hmapLength : msg₂.numValues .opTagRemoveMap = removeMap.length := by
      rw [Message.numValues, h₂.removalFields.map_values, List.length_map]
    have hitemsLength : msg₂.numValues .removedDataItems =
        t.removals.length + 1 := by
      rw [Message.numValues, h₂.removalFields.values]
      simp
    have hend : msg₃.numValues .opTagRemoveMap ≤ t.removals.length := by
      rw [Message.numValues, h₃.removalFields.map_values, List.length_map,
        hpadded]
    rw [updateSubscriptionMessage, currentOpTagIndex, if_neg htag, hindex]
    change (msg₁.addString _ _ >>= _) = _
    rw [hadd₂]
    change (if 0 ≤ Int32.ofNat _ then _ else _) = _
    rw [if_pos (zero_le_ofNat ha)]
    simp only [hmapLength, hitemsLength, Nat.add_sub_cancel, hpad]
    change msg₃.replaceInt32 _ _ _ = _
    rw [Message.replaceInt32_of_le hend]
    exact hadd₄
  · exact h₃.tagField.frame (by simp [hvalues₄])
  · exact h₃.itemFields.frame rfl (Message.keys_of_add hadd₄)
      (by simp [hvalues₄]) (by simp [hvalues₄])

/-- One more removal without a tag. -/
theorem appendUntaggedRemoval (h : Layout encode t tags removeMap putMap)
    (nodePath : String) :
    ∃ msg, updateSubscriptionMessage t.message nodePath none "" = .ok msg ∧
      Layout encode ⟨msg, t.removals ++ [(nodePath, "")], t.items⟩ tags
        removeMap putMap := by
  obtain ⟨msg, hadd, hlayout⟩ := h.addRemoval nodePath
  refine ⟨msg, ?_, hlayout⟩
  rw [updateSubscriptionMessage, currentOpTagIndex, if_pos rfl]
  change (t.message.addString _ _ >>= _) = _
  rw [hadd]
  rfl

/-- The items of a path go. -/
theorem prune (h : Layout encode t tags removeMap putMap) (nodePath : String) :
    Layout encode ⟨pruneSubscriptionMessage t.message nodePath, t.removals,
        t.items.remove nodePath⟩ tags removeMap
      (prunedMap t.message putMap nodePath) := by
  have hvalues : (pruneSubscriptionMessage t.message nodePath).valuesOf =
      Function.update (renumbered t.message putMap nodePath).valuesOf
        (.node nodePath) [] := by
    rw [h.itemFields.pruneSubscriptionMessage_eq, Message.valuesOf_removeName]
  have hrenumbered := (h.itemFields.renumbered_eq nodePath).1
  refine ⟨?_, ?_, h.itemFields.prune⟩
  · exact h.tagField.frame (by simp [hvalues, hrenumbered])
  · exact h.removalFields.frame (by simp [hvalues, hrenumbered])
      (by simp [hvalues, hrenumbered])

end Layout

section Decoding

variable (convertPathToSessionRelative : String → Option String)

/-- The callbacks that removals should make. -/
def removalCallbacks (removals : List (String × String)) :
    List (TreeCallback P) :=
  removals.filterMap fun removal =>
    (convertPathToSessionRelative removal.1).map fun nodePath =>
      .treeNodeUpdated nodePath none removal.2

/-- The callbacks that items should make, each under its own tag. -/
def itemCallbacks (callback : String → ι → String → TreeCallback P)
    (items : TaggedItems ι) : List (TreeCallback P) :=
  items.entries.flatMap fun entry =>
    match convertPathToSessionRelative entry.1 with
    | some nodePath => entry.2.map fun item => callback nodePath item.1 item.2
    | none => []

variable {convertPathToSessionRelative}
  {encode : ι → FieldValue P} {t : Tracked P ι} {tags : List String}
  {removeMap : List Int32} {putMap : List UInt32}

/-- The loop over the fields goes through the items. -/
theorem Layout.overFields_eq (h : Layout encode t tags removeMap putMap)
    (ofValues : ℕ → String → List (FieldValue P) → List (TreeCallback P)) :
    overFields convertPathToSessionRelative t.message
        (fun field nodePath values => ofValues field nodePath values.values) =
      t.items.entries.flatMap fun entry =>
        match convertPathToSessionRelative entry.1 with
        | some nodePath => ofValues (fieldOf t.message entry.1) nodePath
            (entry.2.map fun item => encode item.1)
        | none => [] := by
  let ofPath : String → List (TreeCallback P) := fun path =>
    match convertPathToSessionRelative path with
    | some nodePath => ofValues (fieldOf t.message path) nodePath
        (t.message.valuesOf (.node path))
    | none => []
  have hloop : overFields convertPathToSessionRelative t.message
      (fun field nodePath values => ofValues field nodePath values.values) =
      (t.message.fields.keys.filterMap nodePathOf).flatMap ofPath := by
    rw [Hashtable.keys, List.filterMap_map, List.filterMap_eq_flatMap_toList,
      List.flatMap_assoc, overFields, List.flatMap_def, List.flatMap_def]
    congr 1
    apply Occurrences.map_zipIdx_congr
    rintro i ⟨name, field⟩ hentry
    cases name with
    | node path =>
        have hplace : fieldOf t.message path = i := by
          have hkey : t.message.fields.keys[i]? = some (.node path) := by
            rw [Hashtable.keys, List.getElem?_map, hentry]
            rfl
          obtain ⟨hlt, hget⟩ := List.getElem?_eq_some_iff.mp hkey
          rw [fieldOf, ← hget]
          exact t.message.fields.distinct.idxOf_getElem i hlt
        have hvalues : t.message.valuesOf (.node path) = field.values :=
          Message.valuesOf_of_mem (List.mem_of_getElem? hentry)
        cases hpath : convertPathToSessionRelative path with
        | none => simp only [relativePathOf, Function.comp_apply, nodePathOf,
            Option.toList_some, List.flatMap_singleton, ofPath, hpath]
        | some nodePath => simp only [relativePathOf, Function.comp_apply,
            nodePathOf, Option.toList_some, List.flatMap_singleton, ofPath,
            hplace, hvalues, hpath]
    | _ => rfl
  rw [hloop, h.itemFields.names, Hashtable.keys, List.flatMap_map]
  apply List.flatMap_congr
  intro entry hentry
  have hitems : t.items.at entry.1 = entry.2 := by
    rw [TaggedItems.at, Hashtable.get?_eq_some_iff.mpr hentry]
    rfl
  simp only [ofPath, h.itemFields.values, hitems]

/-- What the client side takes for the tag of a removal. -/
theorem Layout.lookupOpTagInRemoveMap_eq
    (h : Layout encode t tags removeMap putMap) {i : ℕ}
    {removal : String × String} (hremoval : t.removals[i]? = some removal) :
    lookupOpTagInRemoveMap t.message i = removal.2 := by
  have htag := h.removalFields.tag i removal hremoval
  rw [lookupOpTagInRemoveMap]
  split
  · rw [Message.getString_of_strings h.tagField.values,
      Message.getInt32_of_int32s h.removalFields.map_values]
    exact htag
  · next hno =>
    rw [hasOpTags_iff h.tagField.values, not_not] at hno
    subst hno
    exact htag

/-- The client side's callbacks for removals. -/
theorem Layout.removals_received (h : Layout encode t tags removeMap putMap) :
    ((t.message.findStrings .removedDataItems).zipIdx.filterMap fun item =>
      (convertPathToSessionRelative item.1).map fun nodePath =>
        (.treeNodeUpdated nodePath none
          (lookupOpTagInRemoveMap t.message item.2) : TreeCallback P)) =
      removalCallbacks convertPathToSessionRelative t.removals := by
  have hstrings : t.message.valuesOf .removedDataItems =
      (t.removals.map Prod.fst).map .string := by
    rw [h.removalFields.values, List.map_map]
    rfl
  rw [Message.findStrings_of_values hstrings, List.zipIdx_map,
    List.filterMap_map]
  apply Occurrences.filterMap_zipIdx_congr
  intro i removal hremoval
  simp only [Function.comp_apply, Prod.map_fst, Prod.map_snd, id_eq,
    h.lookupOpTagInRemoveMap_eq hremoval]

variable (convertPathToSessionRelative)

/-- The client side's callbacks for items. -/
theorem Layout.items_received (h : Layout encode t tags removeMap putMap)
    (callback : String → ι → String → TreeCallback P)
    (ofValues : (ℕ → String) → String → List (FieldValue P) →
      List (TreeCallback P))
    (hvalues : ∀ nodePath lookup (items : List (ι × String)),
      (∀ i item, items[i]? = some item → lookup i = item.2) →
      ofValues lookup nodePath (items.map fun item => encode item.1) =
        items.map fun item => callback nodePath item.1 item.2) :
    overFields convertPathToSessionRelative t.message
        (fun field nodePath values => ofValues (lookupOpTagInPutMap t.message
          (usedPutMap t.message) field) nodePath values.values) =
      itemCallbacks convertPathToSessionRelative callback t.items := by
  rw [h.overFields_eq fun field nodePath values =>
    ofValues (lookupOpTagInPutMap t.message (usedPutMap t.message) field)
      nodePath values, itemCallbacks]
  apply List.flatMap_congr
  intro entry hentry
  have hitems : t.items.at entry.1 = entry.2 := by
    rw [TaggedItems.at, Hashtable.get?_eq_some_iff.mpr hentry]
    rfl
  cases convertPathToSessionRelative entry.1 with
  | none => rfl
  | some nodePath =>
      apply hvalues
      intro i item hitem
      rw [lookupOpTagInPutMap_eq h.tagField.values h.itemFields.map_values
        fun e he => (h.itemFields.entry e he).1]
      apply h.itemFields.tag entry.1 i item
      rw [hitems]
      exact hitem

end Decoding

end ZgChoir.OpTagMap
