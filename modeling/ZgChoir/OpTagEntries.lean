import ZgChoir.OpTagMap

/-!
# The entries of a put map

An entry has 8 bits for its tag and 12 each for the field and the value.
What fits is read back; a tag that does not loses its high bits.  A lookup
takes the first entry that points at the value, and the renumbering of the
fields behind one that goes keeps what every other lookup finds.

Key facts:
* `pointsAt_putMapEntry`, `opTagIndexOf_putMapEntry` — reading an entry back.
* `tagIn_concat_self`, `tagIn_concat_of_not` — one more entry.
* `tagIn_filterMap_prunedEntry` — the renumbering.
-/

namespace ZgChoir.OpTagMap

open DecimalText NetworkTreeGateway

section Packing

variable {a f v : ℕ}

/-- An entry as a number, whatever its tag: the tag loses its high bits. -/
theorem toNat_putMapEntry (ha : a < 4294967296) (hf : f < 4096)
    (hv : v < 4096) :
    (putMapEntry (.ofNat a) (.ofNat f) (.ofNat v)).toNat =
      a % 256 * 16777216 + f * 4096 + v := by
  have hfield : f * 4096 + v = f <<< 12 ||| v := by
    rw [← Nat.shiftLeft_add_eq_or_of_lt (by omega), Nat.shiftLeft_eq]
  have htag : (a % 256) <<< 24 + (f * 4096 + v) =
      (a % 256) <<< 24 ||| (f * 4096 + v) :=
    Nat.shiftLeft_add_eq_or_of_lt (by omega) _
  have hshift : a <<< 24 % 4294967296 = (a % 256) <<< 24 := by
    rw [Nat.shiftLeft_eq, Nat.shiftLeft_eq]
    omega
  have hshift' : f <<< 12 % 4294967296 = f <<< 12 := by
    rw [Nat.shiftLeft_eq]
    omega
  simp only [putMapEntry, UInt32.toNat_or, UInt32.toNat_shiftLeft,
    UInt32.toNat_ofNat']
  rw [Nat.mod_eq_of_lt ha, Nat.mod_eq_of_lt (by omega : f < 2 ^ 32),
    Nat.mod_eq_of_lt (by omega : v < 2 ^ 32)]
  norm_num only [UInt32.toNat_ofNat]
  rw [hshift, hshift', Nat.or_assoc, ← hfield, ← htag, Nat.shiftLeft_eq,
    Nat.add_assoc]

variable {e : UInt32}

theorem toNat_valueIndexOf : (valueIndexOf e).toNat = e.toNat % 4096 := by
  rw [valueIndexOf, UInt32.toNat_and]
  exact Nat.and_two_pow_sub_one_eq_mod e.toNat 12

theorem toNat_fieldNameIndexOf :
    (fieldNameIndexOf e).toNat = e.toNat / 4096 % 4096 := by
  have hmask := Nat.and_two_pow_sub_one_eq_mod (e.toNat / 4096) 12
  rw [fieldNameIndexOf, UInt32.toNat_and, UInt32.toNat_shiftRight,
    Nat.shiftRight_eq_div_pow]
  exact hmask

theorem toNat_opTagIndexOf : (opTagIndexOf e).toNat = e.toNat / 16777216 := by
  have hmask := Nat.and_two_pow_sub_one_eq_mod (e.toNat / 16777216) 12
  have hlt := e.toNat_lt
  rw [opTagIndexOf, UInt32.toNat_and, UInt32.toNat_shiftRight,
    Nat.shiftRight_eq_div_pow]
  refine Eq.trans hmask (Nat.mod_eq_of_lt ?_)
  omega

/-- An entry points at a field and a value in it. -/
def PointsAt (e : UInt32) (f v : ℕ) : Prop :=
  (fieldNameIndexOf e).toNat = f ∧ (valueIndexOf e).toNat = v

instance decidablePointsAt (e : UInt32) (f v : ℕ) : Decidable (PointsAt e f v) :=
  inferInstanceAs (Decidable (_ ∧ _))

/-- What fits is read back. -/
theorem pointsAt_putMapEntry (ha : a < 4294967296) (hf : f < 4096)
    (hv : v < 4096) :
    PointsAt (putMapEntry (.ofNat a) (.ofNat f) (.ofNat v)) f v := by
  have hentry := toNat_putMapEntry ha hf hv
  unfold PointsAt
  rw [toNat_fieldNameIndexOf, toNat_valueIndexOf, hentry]
  omega

/-- Of the tag, what is left when its high bits are lost. -/
theorem opTagIndexOf_putMapEntry (ha : a < 4294967296) (hf : f < 4096)
    (hv : v < 4096) :
    (opTagIndexOf (putMapEntry (.ofNat a) (.ofNat f) (.ofNat v))).toNat =
      a % 256 := by
  rw [toNat_opTagIndexOf, toNat_putMapEntry ha hf hv]
  omega

/-- The position of a field when the one at `k` is gone. -/
def shifted (k f : ℕ) : ℕ := if k < f then f - 1 else f

/-- An entry that stays has its tag still, and points where it should. -/
theorem prunedEntry_eq_some {k : ℕ} {e' : UInt32}
    (h : prunedEntry k e = some e') :
    (fieldNameIndexOf e).toNat ≠ k ∧
      opTagIndexOf e' = opTagIndexOf e ∧
      PointsAt e' (shifted k (fieldNameIndexOf e).toNat)
        (valueIndexOf e).toNat := by
  unfold prunedEntry at h
  split at h
  · cases h
  next hne =>
  split at h
  · next hlt =>
    obtain rfl := Option.some.inj h
    have hfield : (fieldNameIndexOf e - 1) =
        .ofNat ((fieldNameIndexOf e).toNat - 1) := by
      apply UInt32.toNat_inj.mp
      have hbound := (fieldNameIndexOf e).toNat_lt
      rw [UInt32.toNat_sub_of_le, UInt32.toNat_ofNat']
      · exact (Nat.mod_eq_of_lt (by omega)).symm
      · rw [UInt32.le_iff_toNat_le]
        change 1 ≤ _
        omega
    have htag : opTagIndexOf e = .ofNat (opTagIndexOf e).toNat := by simp
    have hvalue : valueIndexOf e = .ofNat (valueIndexOf e).toNat := by simp
    have ha : (opTagIndexOf e).toNat < 256 := by
      rw [toNat_opTagIndexOf]
      have := e.toNat_lt
      omega
    have hf : (fieldNameIndexOf e).toNat - 1 < 4096 := by
      rw [toNat_fieldNameIndexOf]
      omega
    have hv : (valueIndexOf e).toNat < 4096 := by
      rw [toNat_valueIndexOf]
      omega
    have hread := pointsAt_putMapEntry (by omega) hf hv
      (a := (opTagIndexOf e).toNat)
    have hreadTag := opTagIndexOf_putMapEntry (by omega) hf hv
      (a := (opTagIndexOf e).toNat)
    rw [← htag, ← hvalue, ← hfield] at hread hreadTag
    refine ⟨hne, ?_, ?_⟩
    · apply UInt32.toNat_inj.mp
      rw [hreadTag]
      omega
    · rw [shifted, if_pos hlt]
      exact hread
  · next hle =>
    obtain rfl := Option.some.inj h
    refine ⟨hne, rfl, ?_, rfl⟩
    rw [shifted, if_neg hle]

end Packing

section Lookup

variable {tags : List String} {putMap : List UInt32} {f v : ℕ}

/-- The tag of the first entry that points at a value. -/
def tagIn (tags : List String) (putMap : List UInt32) (f v : ℕ) : String :=
  match putMap.find? fun e => PointsAt e f v with
  | some e => tags.getD (opTagIndexOf e).toNat ""
  | none => ""

@[simp] theorem tagIn_nil : tagIn tags [] f v = "" := rfl

theorem tagIn_cons {e : UInt32} : tagIn tags (e :: putMap) f v =
    if PointsAt e f v then tags.getD (opTagIndexOf e).toNat ""
    else tagIn tags putMap f v := by
  by_cases h : PointsAt e f v
  · simp [tagIn, h]
  · simp [tagIn, h]

/-- No entry, no tag. -/
theorem tagIn_eq_empty (h : ∀ e ∈ putMap, ¬PointsAt e f v) :
    tagIn tags putMap f v = "" := by
  induction putMap with
  | nil => rfl
  | cons e putMap ih =>
      rw [tagIn_cons, if_neg (h e List.mem_cons_self)]
      exact ih fun e' he' => h e' (List.mem_cons_of_mem e he')

/-- One more entry changes what it points at, if nothing else did. -/
theorem tagIn_concat_self {e : UInt32} (hnew : ∀ e ∈ putMap, ¬PointsAt e f v)
    (he : PointsAt e f v) : tagIn tags (putMap ++ [e]) f v =
      tags.getD (opTagIndexOf e).toNat "" := by
  induction putMap with
  | nil => rw [List.nil_append, tagIn_cons, if_pos he]
  | cons e' putMap ih =>
      rw [List.cons_append, tagIn_cons, if_neg (hnew e' List.mem_cons_self)]
      exact ih fun e he => hnew e (List.mem_cons_of_mem e' he)

theorem tagIn_concat_of_not {e : UInt32} (he : ¬PointsAt e f v) :
    tagIn tags (putMap ++ [e]) f v = tagIn tags putMap f v := by
  induction putMap with
  | nil => rw [List.nil_append, tagIn_cons, if_neg he]
  | cons e' putMap ih => rw [List.cons_append, tagIn_cons, tagIn_cons, ih]

/-- A tag more at the end changes no lookup. -/
theorem tagIn_concat_tags {tag : String}
    (h : ∀ e ∈ putMap, (opTagIndexOf e).toNat < tags.length) :
    tagIn (tags ++ [tag]) putMap f v = tagIn tags putMap f v := by
  induction putMap with
  | nil => rfl
  | cons e putMap ih =>
      have he := h e List.mem_cons_self
      rw [tagIn_cons, tagIn_cons, List.getD_append _ _ _ _ he,
        ih fun e' he' => h e' (List.mem_cons_of_mem e he')]

/-- A lookup after the renumbering finds what one at the old position did. -/
theorem tagIn_filterMap_prunedEntry {k : ℕ} (hf : f ≠ k) :
    tagIn tags (putMap.filterMap (prunedEntry k)) (shifted k f) v =
      tagIn tags putMap f v := by
  induction putMap with
  | nil => rfl
  | cons e putMap ih =>
      rw [tagIn_cons]
      cases hpruned : prunedEntry k e with
      | none =>
          have hgone : (fieldNameIndexOf e).toNat = k := by
            by_contra hne
            rw [prunedEntry, if_neg hne] at hpruned
            split at hpruned <;> cases hpruned
          rw [List.filterMap_cons_none hpruned, ih, if_neg]
          exact fun hpoints => hf (hpoints.1.symm.trans hgone)
      | some e' =>
          obtain ⟨hne, htag, hfield, hvalue⟩ := prunedEntry_eq_some hpruned
          have hsame : PointsAt e' (shifted k f) v ↔ PointsAt e f v := by
            unfold PointsAt
            rw [hfield, hvalue]
            unfold shifted
            split <;> split <;> omega
          rw [List.filterMap_cons_some hpruned, tagIn_cons, ih, htag]
          simp only [hsame]

section Fields

variable {P : Type} {msg : SubscriptionMessage P}

theorem hasOpTags_iff (htags : msg.valuesOf .opTagFieldName = tags.map .string) :
    hasOpTags msg = true ↔ tags ≠ [] := by
  have htyped : ∀ w ∈ msg.valuesOf .opTagFieldName, w.type = .string := by
    rw [htags]
    simp [FieldValue.type]
  rw [hasOpTags, Message.hasName_of_typed htyped, htags, ne_eq,
    List.map_eq_nil_iff]

theorem putMapOf_eq (hputMap : msg.valuesOf .opTagPutMap =
    putMap.map fun e => .int32 e.toInt32) : putMapOf msg = putMap := by
  have hnumbers : putMap.map (fun e => (.int32 e.toInt32 : FieldValue P)) =
      (putMap.map UInt32.toInt32).map .int32 := by simp
  rw [putMapOf, hputMap, hnumbers, Message.int32sIn_map, List.map_map]
  exact List.map_id'' UInt32.toUInt32_toInt32 putMap

/-- The client side's lookup, with or without `hasOpTags`. -/
theorem lookupOpTagInPutMap_eq
    (htags : msg.valuesOf .opTagFieldName = tags.map .string)
    (hputMap : msg.valuesOf .opTagPutMap = putMap.map fun e => .int32 e.toInt32)
    (hentry : ∀ e ∈ putMap, (opTagIndexOf e).toNat < tags.length) :
    lookupOpTagInPutMap msg (usedPutMap msg) f v = tagIn tags putMap f v := by
  have hused : usedPutMap msg = putMap := by
    unfold usedPutMap
    split
    · exact putMapOf_eq hputMap
    · next hno =>
      rw [hasOpTags_iff htags, not_not] at hno
      subst hno
      cases putMap with
      | nil => rfl
      | cons e putMap => exact absurd (hentry e List.mem_cons_self) nofun
  have hpoints : (fun e => decide (PointsAt e f v)) = fun e =>
      decide ((fieldNameIndexOf e).toNat = f) &&
        decide ((valueIndexOf e).toNat = v) :=
    funext fun e => Bool.decide_and _ _
  rw [lookupOpTagInPutMap, hused, tagIn, hpoints]
  generalize putMap.find? (fun e => decide ((fieldNameIndexOf e).toNat = f) &&
    decide ((valueIndexOf e).toNat = v)) = found
  cases found with
  | none => rfl
  | some e => exact Message.getString_of_strings htags

end Fields

end Lookup

end ZgChoir.OpTagMap
