import ZgChoir.Occurrences
import ZgChoir.OpTagEntries

/-!
# How a subscription message is laid out

What has been appended to a message, with the tags, is kept beside the
message.  The two belong together: the names of the node fields are the paths
of the items in order, the put map has its entries at the fields' positions
(`ItemsLaidOut`), the remove map is the list of removals with -1 for no tag
(`RemovalsLaidOut`).

Each addition to a field that the server side makes keeps this up, and so
does the pruning of a path.
-/

namespace ZgChoir.OpTagMap

open DecimalText NetworkTreeGateway

variable {P ι : Type}

/-- The path that a field belongs to. -/
def nodePathOf : SubscriptionField → Option String
  | .node nodePath => some nodePath
  | _ => none

/-- The position of a path's field. -/
def fieldOf (msg : SubscriptionMessage P) (nodePath : String) : ℕ :=
  msg.fields.keys.idxOf (.node nodePath)

/-- Items with their tags, for each path in turn. -/
abbrev TaggedItems (ι : Type) := Hashtable String (List (ι × String))

/-- The items for a path. -/
def TaggedItems.at (items : TaggedItems ι) (nodePath : String) :
    List (ι × String) :=
  (items.get? nodePath).getD []

/-- The field of the tags. -/
structure TagsLaidOut (msg : SubscriptionMessage P) (tags : List String) :
    Prop where
  values : msg.valuesOf .opTagFieldName = tags.map .string
  nodup : tags.Nodup
  length : tags.length ≤ 2147483648

/-- The fields of the removals, which are paths with their tags. -/
structure RemovalsLaidOut (msg : SubscriptionMessage P)
    (removals : List (String × String)) (tags : List String)
    (removeMap : List Int32) : Prop where
  values : msg.valuesOf .removedDataItems =
    removals.map fun removal => .string removal.1
  map_values : msg.valuesOf .opTagRemoveMap = removeMap.map .int32
  map_length : removeMap.length ≤ removals.length
  entry : ∀ n ∈ removeMap, n = -1 ∨ n.toUInt32.toNat < tags.length
  tag (i : ℕ) (removal : String × String) : removals[i]? = some removal →
    tags.getD (removeMap.getD i (-1)).toUInt32.toNat "" = removal.2

/-- The fields of the items, which `encode` makes values of. -/
structure ItemsLaidOut (encode : ι → FieldValue P)
    (msg : SubscriptionMessage P) (items : TaggedItems ι) (tags : List String)
    (putMap : List UInt32) : Prop where
  names : msg.fields.keys.filterMap nodePathOf = items.keys
  values (nodePath : String) : msg.valuesOf (.node nodePath) =
    (items.at nodePath).map fun item => encode item.1
  map_values : msg.valuesOf .opTagPutMap =
    putMap.map fun e => .int32 e.toInt32
  entry : ∀ e ∈ putMap, (opTagIndexOf e).toNat < tags.length ∧
    ∃ nodePath v, v < (items.at nodePath).length ∧
      PointsAt e (fieldOf msg nodePath) v
  tag (nodePath : String) (v : ℕ) (item : ι × String) :
    (items.at nodePath)[v]? = some item →
      tagIn tags putMap (fieldOf msg nodePath) v = item.2

section Fields

variable {msg msg' : SubscriptionMessage P} {name : SubscriptionField}
  {nodePath : String} {k : SubscriptionField} {names : List SubscriptionField}

theorem idxOf_withName (h : k ∈ names) :
    (Message.withName names name).idxOf k = names.idxOf k := by
  unfold Message.withName
  split
  · rfl
  · exact List.idxOf_append_of_mem h

/-- A field that is not a node's leaves the node fields alone. -/
theorem filterMap_withName (hname : nodePathOf name = none) :
    (Message.withName names name).filterMap nodePathOf =
      names.filterMap nodePathOf := by
  unfold Message.withName
  split
  · rfl
  · rw [List.filterMap_append, List.filterMap_cons_none hname,
      List.filterMap_nil, List.append_nil]

theorem mem_filterMap_nodePathOf :
    nodePath ∈ names.filterMap nodePathOf ↔ .node nodePath ∈ names := by
  rw [List.mem_filterMap]
  constructor
  · rintro ⟨k, hk, hpath⟩
    cases k <;> simp_all [nodePathOf]
  · exact fun h => ⟨.node nodePath, h, rfl⟩

end Fields

section Frames

variable {encode : ι → FieldValue P} {msg msg' : SubscriptionMessage P}
  {items : TaggedItems ι} {removals : List (String × String)}
  {tags : List String} {removeMap : List Int32} {putMap : List UInt32}
  {name : SubscriptionField} {tag : String}

theorem TagsLaidOut.frame (h : TagsLaidOut msg tags)
    (hsame : msg'.valuesOf .opTagFieldName = msg.valuesOf .opTagFieldName) :
    TagsLaidOut msg' tags :=
  ⟨hsame.trans h.values, h.nodup, h.length⟩

theorem RemovalsLaidOut.frame (h : RemovalsLaidOut msg removals tags removeMap)
    (hsame : msg'.valuesOf .removedDataItems = msg.valuesOf .removedDataItems)
    (hmap : msg'.valuesOf .opTagRemoveMap = msg.valuesOf .opTagRemoveMap) :
    RemovalsLaidOut msg' removals tags removeMap :=
  ⟨hsame.trans h.values, hmap.trans h.map_values, h.map_length, h.entry, h.tag⟩

/-- A path with an item has a field. -/
theorem ItemsLaidOut.mem_keys (h : ItemsLaidOut encode msg items tags putMap)
    {nodePath : String} {v : ℕ} (hv : v < (items.at nodePath).length) :
    .node nodePath ∈ msg.fields.keys := by
  rw [Message.mem_keys_iff, h.values]
  intro hnil
  rw [List.map_eq_nil_iff] at hnil
  simp [hnil] at hv

/-- One more value in a field that is none of the items'. -/
theorem ItemsLaidOut.frame (h : ItemsLaidOut encode msg items tags putMap)
    (hname : nodePathOf name = none)
    (hkeys : msg'.fields.keys = Message.withName msg.fields.keys name)
    (hmap : msg'.valuesOf .opTagPutMap = msg.valuesOf .opTagPutMap)
    (hvalues : ∀ nodePath,
      msg'.valuesOf (.node nodePath) = msg.valuesOf (.node nodePath)) :
    ItemsLaidOut encode msg' items tags putMap := by
  have hfield : ∀ nodePath v, v < (items.at nodePath).length →
      fieldOf msg' nodePath = fieldOf msg nodePath := by
    intro nodePath v hv
    rw [fieldOf, hkeys]
    exact idxOf_withName (h.mem_keys hv)
  constructor
  · rw [hkeys, filterMap_withName hname, h.names]
  · exact fun nodePath => (hvalues nodePath).trans (h.values nodePath)
  · exact hmap.trans h.map_values
  · intro e he
    obtain ⟨htag, nodePath, v, hv, hpoints⟩ := h.entry e he
    exact ⟨htag, nodePath, v, hv, (hfield nodePath v hv) ▸ hpoints⟩
  · intro nodePath v item hitem
    have hv : v < (items.at nodePath).length :=
      (List.getElem?_eq_some_iff.mp hitem).choose
    rw [hfield nodePath v hv]
    exact h.tag nodePath v item hitem

/-- A tag more at the end changes nothing for the removals. -/
theorem RemovalsLaidOut.concatTag
    (h : RemovalsLaidOut msg removals tags removeMap)
    (hroom : tags.length < 2147483648) :
    RemovalsLaidOut msg removals (tags ++ [tag]) removeMap := by
  have hnone : (-1 : Int32).toUInt32.toNat = 4294967295 := rfl
  have hsame : ∀ i, (tags ++ [tag]).getD
      (removeMap.getD i (-1)).toUInt32.toNat "" =
      tags.getD (removeMap.getD i (-1)).toUInt32.toNat "" := by
    intro i
    have hcases : removeMap.getD i (-1) = -1 ∨
        (removeMap.getD i (-1)).toUInt32.toNat < tags.length := by
      by_cases hi : i < removeMap.length
      · rw [List.getD_eq_getElem _ _ hi]
        exact h.entry _ (List.getElem_mem hi)
      · rw [List.getD_eq_default _ _ (by omega)]
        exact .inl rfl
    rcases hcases with heq | hlt
    · rw [heq, hnone, List.getD_eq_default _ _ (by simp; omega),
        List.getD_eq_default _ _ (by omega)]
    · exact List.getD_append _ _ _ _ hlt
  constructor
  · exact h.values
  · exact h.map_values
  · exact h.map_length
  · intro n hn
    rw [List.length_append]
    exact (h.entry n hn).imp_right (by omega)
  · intro i removal hi
    rw [hsame i]
    exact h.tag i removal hi

/-- Nor for the items. -/
theorem ItemsLaidOut.concatTag (h : ItemsLaidOut encode msg items tags putMap) :
    ItemsLaidOut encode msg items (tags ++ [tag]) putMap := by
  constructor
  · exact h.names
  · exact h.values
  · exact h.map_values
  · intro e he
    rw [List.length_append]
    exact (h.entry e he).imp_left (by omega)
  · intro nodePath v item hitem
    rw [tagIn_concat_tags fun e he => (h.entry e he).1]
    exact h.tag nodePath v item hitem

end Frames

section Items

variable {encode : ι → FieldValue P} {msg msg' : SubscriptionMessage P}
  {items : TaggedItems ι} {tags : List String} {putMap : List UInt32}
  {nodePath other tag : String} {x : ι} {before : List (ι × String)}

theorem TaggedItems.at_put {xs : List (ι × String)} :
    TaggedItems.at (items.put nodePath xs) other =
      if other = nodePath then xs else items.at other := by
  unfold TaggedItems.at
  rw [Hashtable.get?_put]
  split <;> rfl

/-- Nothing points behind the last item of a path. -/
theorem ItemsLaidOut.not_pointsAt
    (h : ItemsLaidOut encode msg items tags putMap)
    (hkeys : msg'.fields.keys =
      Message.withName msg.fields.keys (.node nodePath)) :
    ∀ e ∈ putMap,
      ¬PointsAt e (fieldOf msg' nodePath) (items.at nodePath).length := by
  rintro e he ⟨hfield, hvalue⟩
  obtain ⟨-, other, v, hv, hfield', hvalue'⟩ := h.entry e he
  have hother : SubscriptionField.node other ∈ msg'.fields.keys := by
    rw [hkeys, Message.withName]
    have hmem := h.mem_keys hv
    split
    · exact hmem
    · exact List.mem_append_left _ hmem
  have hsame : fieldOf msg' other = fieldOf msg' nodePath := by
    rw [← hfield, hfield', fieldOf, fieldOf, hkeys]
    exact idxOf_withName (h.mem_keys hv)
  have hpath : SubscriptionField.node other = .node nodePath :=
    (List.idxOf_inj hother).mp hsame
  obtain rfl : other = nodePath := SubscriptionField.node.inj hpath
  omega

/-- One more item, not tagged yet. -/
theorem ItemsLaidOut.add (h : ItemsLaidOut encode msg items tags putMap)
    (hadd : msg.add (.node nodePath) (encode x) = .ok msg') :
    ItemsLaidOut encode msg'
      (items.put nodePath (items.at nodePath ++ [(x, "")])) tags putMap := by
  have hkeys := Message.keys_of_add hadd
  have hvalues := (Message.add_eq_ok hadd).2
  have hfield : ∀ other v, v < (items.at other).length →
      fieldOf msg' other = fieldOf msg other := by
    intro other v hv
    rw [fieldOf, hkeys]
    exact idxOf_withName (h.mem_keys hv)
  constructor
  · have hmem : nodePath ∈ items.keys ↔
        SubscriptionField.node nodePath ∈ msg.fields.keys := by
      rw [← h.names, mem_filterMap_nodePathOf]
    rw [hkeys, Message.withName]
    by_cases hold : SubscriptionField.node nodePath ∈ msg.fields.keys
    · rw [if_pos hold, h.names, Hashtable.keys_put_of_mem (hmem.mpr hold)]
    · rw [if_neg hold, Hashtable.keys_put_of_notMem (mt hmem.mp hold),
        List.filterMap_append, h.names]
      rfl
  · intro other
    rw [hvalues, TaggedItems.at_put]
    by_cases hother : other = nodePath
    · subst hother
      simp [h.values]
    · rw [Function.update_of_ne (by simpa using hother), if_neg hother,
        h.values]
  · simpa [hvalues] using h.map_values
  · intro e he
    obtain ⟨htag, other, v, hv, hpoints⟩ := h.entry e he
    refine ⟨htag, other, v, ?_, (hfield other v hv) ▸ hpoints⟩
    rw [TaggedItems.at_put]
    split
    · next heq =>
      rw [heq] at hv
      rw [List.length_append]
      omega
    · exact hv
  · intro other v item hitem
    rw [TaggedItems.at_put] at hitem
    have hold : (items.at other)[v]? = some item →
        tagIn tags putMap (fieldOf msg' other) v = item.2 := by
      intro hitem
      rw [hfield other v (List.getElem?_eq_some_iff.mp hitem).choose]
      exact h.tag other v item hitem
    split at hitem
    · next heq =>
      subst heq
      rcases Occurrences.getElem?_concat hitem with hitem | ⟨hv, hitem⟩
      · exact hold hitem
      · rw [hv, hitem]
        exact tagIn_eq_empty (h.not_pointsAt hkeys)
    · exact hold hitem

/-- The entry for the item that was added last. -/
theorem ItemsLaidOut.addEntry {e : UInt32}
    (h : ItemsLaidOut encode msg items tags putMap)
    (hat : items.at nodePath = before ++ [(x, "")])
    (hfree : ∀ e ∈ putMap, ¬PointsAt e (fieldOf msg nodePath) before.length)
    (hpoints : PointsAt e (fieldOf msg nodePath) before.length)
    (htag : tags[(opTagIndexOf e).toNat]? = some tag)
    (hadd : msg.addInt32 .opTagPutMap e.toInt32 = .ok msg') :
    ItemsLaidOut encode msg' (items.put nodePath (before ++ [(x, tag)])) tags
      (putMap ++ [e]) := by
  have hkeys := Message.keys_of_add hadd
  have hvalues := (Message.add_eq_ok hadd).2
  have hlast : before.length < (items.at nodePath).length := by
    rw [hat, List.length_append]
    exact Nat.lt_succ_self _
  have hmem := h.mem_keys hlast
  have hold : nodePath ∈ items.keys := by
    rw [← h.names, mem_filterMap_nodePathOf]
    exact hmem
  have hfield : ∀ other v, v < (items.at other).length →
      fieldOf msg' other = fieldOf msg other := by
    intro other v hv
    rw [fieldOf, hkeys]
    exact idxOf_withName (h.mem_keys hv)
  have hlength : ∀ other, (TaggedItems.at
      (items.put nodePath (before ++ [(x, tag)])) other).length =
      (items.at other).length := by
    intro other
    rw [TaggedItems.at_put]
    split
    · next heq => simp [heq, hat]
    · rfl
  constructor
  · rw [hkeys, filterMap_withName rfl, h.names, Hashtable.keys_put_of_mem hold]
  · intro other
    have hother := h.values other
    rw [hvalues, Function.update_of_ne (by simp), hother, TaggedItems.at_put]
    split
    · next heq => simp [heq, hat]
    · rfl
  · simp [hvalues, h.map_values]
  · intro e' he'
    rcases List.mem_append.mp he' with he' | he'
    · obtain ⟨htag, other, v, hv, hpoints⟩ := h.entry e' he'
      exact ⟨htag, other, v, (hlength other).symm ▸ hv,
        (hfield other v hv) ▸ hpoints⟩
    · obtain rfl := List.mem_singleton.mp he'
      refine ⟨(List.getElem?_eq_some_iff.mp htag).choose, nodePath,
        before.length, (hlength nodePath).symm ▸ hlast, ?_⟩
      rw [hfield nodePath before.length hlast]
      exact hpoints
  · intro other v item hitem
    have hv : v < (items.at other).length := by
      rw [← hlength other]
      exact (List.getElem?_eq_some_iff.mp hitem).choose
    rw [hfield other v hv]
    by_cases hself : other = nodePath ∧ v = before.length
    · obtain ⟨rfl, rfl⟩ := hself
      rw [TaggedItems.at_put, if_pos rfl, List.getElem?_concat_length] at hitem
      rw [tagIn_concat_self hfree hpoints, List.getD_eq_getElem?_getD, htag,
        ← Option.some.inj hitem]
      rfl
    · have hnot : ¬PointsAt e (fieldOf msg other) v := by
        rintro ⟨hsame, hvalue⟩
        rw [hpoints.1] at hsame
        have hpath : SubscriptionField.node nodePath = .node other :=
          (List.idxOf_inj hmem).mp hsame
        exact hself ⟨(SubscriptionField.node.inj hpath).symm,
          hvalue.symm.trans hpoints.2⟩
      rw [tagIn_concat_of_not hnot]
      apply h.tag other v item
      rw [TaggedItems.at_put] at hitem
      split at hitem
      · next heq =>
        subst heq
        rcases Occurrences.getElem?_concat hitem with hitem | ⟨hlast, -⟩
        · rw [hat, List.getElem?_append_left
            (List.getElem?_eq_some_iff.mp hitem).choose]
          exact hitem
        · exact absurd ⟨rfl, hlast⟩ hself
      · exact hitem

end Items

section Removals

variable {msg msg' : SubscriptionMessage P} {tags : List String}
  {removals : List (String × String)} {removeMap : List Int32}
  {nodePath tag : String}

/-- One more removal, not tagged yet. -/
theorem RemovalsLaidOut.add (h : RemovalsLaidOut msg removals tags removeMap)
    (htags : tags.length ≤ 2147483648)
    (hadd : msg.addString .removedDataItems nodePath = .ok msg') :
    RemovalsLaidOut msg' (removals ++ [(nodePath, "")]) tags removeMap := by
  have hvalues := (Message.add_eq_ok hadd).2
  constructor
  · simp [hvalues, h.values]
  · simpa [hvalues] using h.map_values
  · rw [List.length_append]
    exact Nat.le_add_right_of_le h.map_length
  · exact h.entry
  · intro i removal hi
    rcases Occurrences.getElem?_concat hi with hi | ⟨rfl, rfl⟩
    · exact h.tag i removal hi
    · have hnone : (-1 : Int32).toUInt32.toNat = 4294967295 := rfl
      rw [List.getD_eq_default _ _ h.map_length, hnone,
        List.getD_eq_default _ _ (by omega)]

/-- A removal without a tag is made explicit. -/
theorem RemovalsLaidOut.pad (h : RemovalsLaidOut msg removals tags removeMap)
    (hroom : removeMap.length < removals.length)
    (hadd : msg.addInt32 .opTagRemoveMap (-1) = .ok msg') :
    RemovalsLaidOut msg' removals tags (removeMap ++ [-1]) := by
  have hvalues := (Message.add_eq_ok hadd).2
  constructor
  · simpa [hvalues] using h.values
  · simp [hvalues, h.map_values]
  · rw [List.length_append]
    exact hroom
  · intro n hn
    rcases List.mem_append.mp hn with hn | hn
    · exact h.entry n hn
    · exact .inl (List.mem_singleton.mp hn)
  · intro i removal hi
    rw [← h.tag i removal hi]
    by_cases hlt : i < removeMap.length
    · rw [List.getD_append _ _ _ _ hlt]
    · rw [List.getD_append_right _ _ _ _ (by omega),
        List.getD_eq_default removeMap _ (by omega)]
      congr 3
      cases i - removeMap.length <;> rfl

/-- The tag of the removal that was added last. -/
theorem RemovalsLaidOut.addEntry {n : Int32}
    (h : RemovalsLaidOut msg (removals ++ [(nodePath, "")]) tags removeMap)
    (hlength : removeMap.length = removals.length)
    (htag : tags[n.toUInt32.toNat]? = some tag)
    (hadd : msg.addInt32 .opTagRemoveMap n = .ok msg') :
    RemovalsLaidOut msg' (removals ++ [(nodePath, tag)]) tags
      (removeMap ++ [n]) := by
  have hvalues := (Message.add_eq_ok hadd).2
  constructor
  · simp [hvalues, h.values]
  · simp [hvalues, h.map_values]
  · simp [hlength]
  · intro m hm
    rcases List.mem_append.mp hm with hm | hm
    · exact h.entry m hm
    · rw [List.mem_singleton.mp hm]
      exact .inr (List.getElem?_eq_some_iff.mp htag).choose
  · intro i removal hi
    rcases Occurrences.getElem?_concat hi with hi | ⟨rfl, rfl⟩
    · have hlt : i < removals.length :=
        (List.getElem?_eq_some_iff.mp hi).choose
      rw [List.getD_append _ _ _ _ (by omega)]
      apply h.tag i removal
      rw [List.getElem?_append_left hlt]
      exact hi
    · rw [← hlength, List.getD_append_right _ _ _ _ (Nat.le_refl _),
        Nat.sub_self, List.getD_cons_zero, List.getD_eq_getElem?_getD, htag]
      rfl

end Removals

section Prune

variable {encode : ι → FieldValue P} {msg : SubscriptionMessage P}
  {items : TaggedItems ι} {tags : List String} {putMap : List UInt32}
  {nodePath other : String}

/-- The put map without the entries of a field. -/
def prunedMap (msg : SubscriptionMessage P) (putMap : List UInt32)
    (nodePath : String) : List UInt32 :=
  if SubscriptionField.node nodePath ∈ msg.fields.keys then
    putMap.filterMap (prunedEntry (fieldOf msg nodePath))
  else putMap

theorem TaggedItems.at_remove :
    TaggedItems.at (items.remove nodePath) other =
      if other = nodePath then [] else items.at other := by
  unfold TaggedItems.at
  rw [Hashtable.get?_remove]
  split <;> rfl

/-- The message before the field goes. -/
def renumbered (msg : SubscriptionMessage P) (putMap : List UInt32)
    (nodePath : String) : SubscriptionMessage P :=
  if putMap ≠ [] ∧ SubscriptionField.node nodePath ∈ msg.fields.keys then
    msg.setInt32s .opTagPutMap
      ((prunedMap msg putMap nodePath).map UInt32.toInt32)
  else msg

theorem ItemsLaidOut.pruneSubscriptionMessage_eq
    (h : ItemsLaidOut encode msg items tags putMap) (nodePath : String) :
    pruneSubscriptionMessage msg nodePath =
      (renumbered msg putMap nodePath).removeName (.node nodePath) := by
  have htyped : ∀ w ∈ msg.valuesOf .opTagPutMap, w.type = .int32 := by
    rw [h.map_values]
    simp [FieldValue.type]
  have hname : msg.hasName .opTagPutMap .int32 = true ↔ putMap ≠ [] := by
    rw [Message.hasName_of_typed htyped, h.map_values, ne_eq, List.map_eq_nil_iff]
  unfold pruneSubscriptionMessage renumbered prunedMap
  simp only [hname, putMapOf_eq h.map_values, Message.indexOfName]
  by_cases hmap : putMap = []
  · simp [hmap]
  · by_cases hmem : SubscriptionField.node nodePath ∈ msg.fields.keys
    · simp [hmap, hmem, fieldOf]
    · simp [hmap, hmem]

/-- What the renumbering leaves: the put map without the field's entries, and
its field only if there are others. -/
theorem ItemsLaidOut.renumbered_eq
    (h : ItemsLaidOut encode msg items tags putMap) (nodePath : String) :
    (renumbered msg putMap nodePath).valuesOf = Function.update msg.valuesOf
        .opTagPutMap ((prunedMap msg putMap nodePath).map fun e =>
          .int32 e.toInt32) ∧
      ((renumbered msg putMap nodePath).fields.keys = msg.fields.keys ∨
        prunedMap msg putMap nodePath = [] ∧
          (renumbered msg putMap nodePath).fields.keys =
            msg.fields.keys.filter fun name => name ≠ .opTagPutMap) := by
  unfold renumbered
  split
  · next hboth =>
    refine ⟨by rw [Message.valuesOf_setInt32s, List.map_map]; rfl, ?_⟩
    unfold Message.setInt32s
    split
    · next hnil =>
      refine .inr ⟨List.map_eq_nil_iff.mp hnil, ?_⟩
      exact Hashtable.keys_remove
    · have hmem : SubscriptionField.opTagPutMap ∈ msg.fields.keys := by
        rw [Message.mem_keys_iff, h.map_values]
        simpa using hboth.1
      exact .inl (Hashtable.keys_put_of_mem hmem)
  · next hnot =>
    have hsame : prunedMap msg putMap nodePath = putMap := by
      unfold prunedMap
      split
      · have hnil : putMap = [] := by
          by_contra hne
          exact hnot ⟨hne, ‹_›⟩
        rw [hnil]
        rfl
      · rfl
    refine ⟨?_, .inl rfl⟩
    rw [hsame, ← h.map_values, Function.update_eq_self]

/-- The paths of the fields that stay. -/
theorem filterMap_filter_node {names : List SubscriptionField} :
    (names.filter fun name => name ≠ .node nodePath).filterMap nodePathOf =
      (names.filterMap nodePathOf).filter fun path => path ≠ nodePath := by
  rw [List.filterMap_filter, List.filter_filterMap]
  congr 1
  funext name
  cases name with
  | node path => by_cases hpath : path = nodePath <;> simp [nodePathOf, hpath, Option.filter]
  | _ => rfl

theorem filterMap_filter_opTagPutMap {names : List SubscriptionField} :
    (names.filter fun name => name ≠ .opTagPutMap).filterMap nodePathOf =
      names.filterMap nodePathOf := by
  rw [List.filterMap_filter]
  congr 1
  funext name
  cases name <;> rfl

/-- Where the fields are that stay, when there are entries. -/
theorem ItemsLaidOut.fieldOf_prune
    (h : ItemsLaidOut encode msg items tags putMap)
    (hmem : SubscriptionField.node nodePath ∈ msg.fields.keys)
    (hother : other ≠ nodePath) :
    prunedMap msg putMap nodePath = [] ∨
      fieldOf (pruneSubscriptionMessage msg nodePath) other =
        shifted (fieldOf msg nodePath) (fieldOf msg other) := by
  rcases (h.renumbered_eq nodePath).2 with hkeys | ⟨hnil, -⟩
  · refine .inr ?_
    rw [fieldOf, h.pruneSubscriptionMessage_eq]
    change ((renumbered msg putMap nodePath).fields.remove _).keys.idxOf _ = _
    rw [Hashtable.keys_remove, hkeys]
    exact Occurrences.idxOf_filter_ne msg.fields.distinct hmem
      (by simpa using hother)
  · exact .inl hnil

/-- Pruning without a field to prune. -/
theorem prunedMap_of_notMem
    (hmem : SubscriptionField.node nodePath ∉ msg.fields.keys) :
    prunedMap msg putMap nodePath = putMap := if_neg hmem

theorem ItemsLaidOut.fieldOf_prune_of_notMem
    (h : ItemsLaidOut encode msg items tags putMap)
    (hmem : SubscriptionField.node nodePath ∉ msg.fields.keys) :
    fieldOf (pruneSubscriptionMessage msg nodePath) other =
      fieldOf msg other := by
  have hsame : renumbered msg putMap nodePath = msg :=
    if_neg fun hboth => hmem hboth.2
  have hall : msg.fields.keys.filter
      (fun name => decide (name ≠ .node nodePath)) = msg.fields.keys := by
    rw [List.filter_eq_self]
    intro name hname
    simpa using ne_of_mem_of_not_mem hname hmem
  rw [fieldOf, h.pruneSubscriptionMessage_eq, hsame]
  change (msg.fields.remove _).keys.idxOf _ = _
  rw [Hashtable.keys_remove, hall, fieldOf]

/-- The field of a path goes, and with it its entries. -/
theorem ItemsLaidOut.prune (h : ItemsLaidOut encode msg items tags putMap) :
    ItemsLaidOut encode (pruneSubscriptionMessage msg nodePath)
      (items.remove nodePath) tags (prunedMap msg putMap nodePath) := by
  have heq := h.pruneSubscriptionMessage_eq nodePath
  obtain ⟨hvalues, hkeys⟩ := h.renumbered_eq nodePath
  have hafter : (pruneSubscriptionMessage msg nodePath).valuesOf =
      Function.update (renumbered msg putMap nodePath).valuesOf
        (.node nodePath) [] := by
    rw [heq, Message.valuesOf_removeName]
  -- An item that stays is looked up as before, at the new place of its field.
  have hlookup : ∀ other v, other ≠ nodePath → v < (items.at other).length →
      tagIn tags (prunedMap msg putMap nodePath)
          (fieldOf (pruneSubscriptionMessage msg nodePath) other) v =
        tagIn tags putMap (fieldOf msg other) v := by
    intro other v hother hv
    by_cases hmem : SubscriptionField.node nodePath ∈ msg.fields.keys
    · have hne : fieldOf msg other ≠ fieldOf msg nodePath := fun hsame =>
        hother (SubscriptionField.node.inj
          ((List.idxOf_inj (h.mem_keys hv)).mp hsame))
      rw [← tagIn_filterMap_prunedEntry hne]
      rcases h.fieldOf_prune hmem hother with hnil | hfield
      · rw [prunedMap, if_pos hmem] at hnil
        rw [prunedMap, if_pos hmem, hnil]
        rfl
      · rw [hfield, prunedMap, if_pos hmem]
    · rw [prunedMap_of_notMem hmem, h.fieldOf_prune_of_notMem hmem]
  constructor
  · rw [heq]
    change ((renumbered msg putMap nodePath).fields.remove _).keys.filterMap _ =
      _
    rw [Hashtable.keys_remove, Hashtable.keys_remove, filterMap_filter_node,
      ← h.names]
    rcases hkeys with hkeys | ⟨-, hkeys⟩
    · rw [hkeys]
    · rw [hkeys, filterMap_filter_opTagPutMap]
  · intro other
    rw [hafter, hvalues, TaggedItems.at_remove]
    split
    · next heq => simp [heq]
    · next hne =>
      rw [Function.update_of_ne (by simpa using hne),
        Function.update_of_ne (by simp), h.values]
  · rw [hafter, hvalues]
    simp
  · intro e he
    by_cases hmem : SubscriptionField.node nodePath ∈ msg.fields.keys
    · have hentry := he
      rw [prunedMap, if_pos hmem, List.mem_filterMap] at hentry
      obtain ⟨old, hold, hpruned⟩ := hentry
      obtain ⟨hgone, htag, hpoints⟩ := prunedEntry_eq_some hpruned
      obtain ⟨hlt, other, v, hv, hfield, hvalue⟩ := h.entry old hold
      have hother : other ≠ nodePath := by
        rintro rfl
        exact hgone hfield
      refine ⟨htag ▸ hlt, other, v, ?_, ?_⟩
      · rw [TaggedItems.at_remove, if_neg hother]
        exact hv
      · rcases h.fieldOf_prune hmem hother with hnil | hplace
        · rw [hnil] at he
          cases he
        · rw [hplace, ← hfield, ← hvalue]
          exact hpoints
    · rw [prunedMap_of_notMem hmem] at he
      obtain ⟨hlt, other, v, hv, hpoints⟩ := h.entry e he
      have hother : other ≠ nodePath := by
        rintro rfl
        exact hmem (h.mem_keys hv)
      refine ⟨hlt, other, v, ?_, ?_⟩
      · rw [TaggedItems.at_remove, if_neg hother]
        exact hv
      · rw [h.fieldOf_prune_of_notMem hmem]
        exact hpoints
  · intro other v item hitem
    rw [TaggedItems.at_remove] at hitem
    split at hitem
    · cases hitem
    · next hne =>
      rw [hlookup other v hne (List.getElem?_eq_some_iff.mp hitem).choose]
      exact h.tag other v item hitem

end Prune

end ZgChoir.OpTagMap
