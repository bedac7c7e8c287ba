import ZgChoir.MuxNotifications
import ZgChoir.MuxUpstream

/-!
# Operation tags, there and back

The tag of an upload that asks for no reply goes out with the gateway's mark
in front, and every gateway takes the mark off a node update again: its own,
up to the colon after the registration ID, and that of another one, up to the
first colon, which is the same one.

An index change carries the mark to everybody, the uploader included.  And a
tag that a user has made to look like a marked one loses what looks like a
mark, though nobody has written it there.
-/

namespace ZgChoir.MuxNotifications

open MuxSubscriptions

namespace MuxGateway

variable {σ φ M : Type} {g other : MuxGateway σ φ} {s : σ} {tag : String}

/-- The digits of a gateway's mark end at its bracket. -/
theorem notMem_digits {c : Char} (hc : c.isAlphanum = false) :
    c ∉ Nat.toDigits 10 g.uniqueID.toNat := by
  intro h
  have halnum := isAlphanum_of_mem_toDigits (by decide) (by decide) h
  simp [hc] at halnum

theorem toList_muxTreeGatewayIDPrefix : g.muxTreeGatewayIDPrefix.toList =
    "[MUX".toList ++ Nat.toDigits 10 g.uniqueID.toNat ++ [']'] :=
  String.toList_ofList

theorem muxTreeGatewayIDPrefix_length :
    g.muxTreeGatewayIDPrefix.length = g.muxTreeGatewayIDPrefix.toList.length :=
  String.length_toList.symm

/-- Where one mark begins a text that another one begins, the marks are the
same. -/
theorem muxTreeGatewayIDPrefix_unique {rest : List Char}
    (h : g.muxTreeGatewayIDPrefix.toList <+:
      other.muxTreeGatewayIDPrefix.toList ++ rest) :
    g.muxTreeGatewayIDPrefix = other.muxTreeGatewayIDPrefix := by
  obtain ⟨t, ht⟩ := h
  rw [toList_muxTreeGatewayIDPrefix, toList_muxTreeGatewayIDPrefix] at ht
  have hdigits : Nat.toDigits 10 g.uniqueID.toNat ++ ']' :: t =
      Nat.toDigits 10 other.uniqueID.toNat ++ ']' :: rest := by
    simpa using ht
  have htake : ∀ (k : MuxGateway σ φ) (t : List Char),
      (Nat.toDigits 10 k.uniqueID.toNat ++ ']' :: t).takeWhile
        (fun c => decide (c ≠ ']')) = Nat.toDigits 10 k.uniqueID.toNat := by
    intro k t
    have hne : ∀ c ∈ Nat.toDigits 10 k.uniqueID.toNat,
        decide (c ≠ ']') = true := by
      intro c hc
      refine decide_eq_true ?_
      rintro rfl
      exact notMem_digits (by decide) hc
    rw [List.takeWhile_append_of_pos hne]
    simp
  have heq := congrArg (List.takeWhile fun c => decide (c ≠ ']')) hdigits
  rw [htake, htake] at heq
  apply String.toList_inj.mp
  rw [toList_muxTreeGatewayIDPrefix, toList_muxTreeGatewayIDPrefix, heq]

variable [DecidableEq σ]

variable (g s tag) in
/-- The text of a marked tag. -/
theorem toList_tagToExcludeClientFromReplies :
    (g.tagToExcludeClientFromReplies s tag).toList =
      g.muxTreeGatewayIDPrefix.toList ++
        (g.registrations.prependRegistrationIDPrefix s tag '!').toList := by
  simp [tagToExcludeClientFromReplies]

variable (s tag) in
/-- **A marked tag is taken for what it is**, by the gateway that has marked
it and by every other one. -/
theorem effectiveTag_tagToExclude (g other : MuxGateway σ φ) :
    (other.effectiveTag (g.tagToExcludeClientFromReplies s tag)).1 = tag ∧
      (other.muxTreeGatewayIDPrefix = g.muxTreeGatewayIDPrefix →
        (other.effectiveTag (g.tagToExcludeClientFromReplies s tag)).2 =
          other.registrations.registrationIDs.get?
            (g.registrations.idOf s)) := by
  have htext := toList_tagToExcludeClientFromReplies g s tag
  by_cases hown : other.muxTreeGatewayIDPrefix = g.muxTreeGatewayIDPrefix
  · have hstarts : other.muxTreeGatewayIDPrefix.toList.isPrefixOf
        (g.tagToExcludeClientFromReplies s tag).toList = true := by
      rw [htext, hown, List.isPrefixOf_iff_prefix]
      exact List.prefix_append _ _
    have hrest : String.ofList ((g.tagToExcludeClientFromReplies s
        tag).toList.drop other.muxTreeGatewayIDPrefix.length) =
          g.registrations.prependRegistrationIDPrefix s tag '!' := by
      rw [htext, muxTreeGatewayIDPrefix_length, hown, List.drop_left,
        String.ofList_toList]
    rw [effectiveTag, if_pos hstarts, hrest,
      Registrations.prependRegistrationIDPrefix,
      Registrations.parseRegistrationIDPrefix_prepend (by decide) (by decide)]
    exact ⟨rfl, fun _ => rfl⟩
  · refine ⟨?_, fun h => absurd h hown⟩
    have hother : ¬other.muxTreeGatewayIDPrefix.toList.isPrefixOf
        (g.tagToExcludeClientFromReplies s tag).toList = true := by
      rw [htext, List.isPrefixOf_iff_prefix]
      exact fun h => hown (muxTreeGatewayIDPrefix_unique h)
    have hmux : "[MUX".toList.isPrefixOf
        (g.tagToExcludeClientFromReplies s tag).toList = true := by
      rw [htext, toList_muxTreeGatewayIDPrefix, List.isPrefixOf_iff_prefix]
      simp only [List.append_assoc]
      exact List.prefix_append _ _
    have hcolon : ':' ∉ g.muxTreeGatewayIDPrefix.toList := by
      rw [toList_muxTreeGatewayIDPrefix]
      simpa using notMem_digits (by decide)
    have hsplit :=
      MuxTreeGateway.splitAtColon_append_prependRegistrationIDPrefix
        (g.registrations.idOf s) tag hcolon (by decide : '!' ≠ ':')
    have htext' : (g.tagToExcludeClientFromReplies s tag).toList =
        g.muxTreeGatewayIDPrefix.toList ++
          (MuxTreeGateway.prependRegistrationIDPrefix (g.registrations.idOf s)
            tag '!').toList := htext
    rw [effectiveTag, if_neg hother, if_pos hmux, htext', hsplit]
    exact String.ofList_toList

/-- A tag is marked, or looks so: something is taken off. -/
def LooksMarked (g : MuxGateway σ φ) (tag : String) : Prop :=
  g.muxTreeGatewayIDPrefix.toList <+: tag.toList ∨
    "[MUX".toList <+: tag.toList ∧ ':' ∈ tag.toList

/-- What is taken off a tag is not nothing. -/
theorem length_splitAtColon_lt {text before after : List Char}
    (h : MuxTreeGateway.splitAtColon text = some (before, after)) :
    after.length < text.length := by
  rw [MuxTreeGateway.eq_of_splitAtColon h]
  simp
  omega

omit [DecidableEq σ] in
/-- **A tag that is not marked arrives as it is, unless it looks marked.** -/
theorem effectiveTag_eq_iff :
    (g.effectiveTag tag).1 = tag ↔ ¬g.LooksMarked tag := by
  unfold LooksMarked
  rw [← List.isPrefixOf_iff_prefix, ← List.isPrefixOf_iff_prefix]
  unfold effectiveTag
  split
  · next hown =>
    simp only [hown, true_or, not_true_eq_false, iff_false]
    intro heq
    have hlength := congrArg (fun s => s.toList.length) heq
    have hpos : 0 < tag.toList.length := by
      have hle := (List.isPrefixOf_iff_prefix.mp hown).length_le
      rw [toList_muxTreeGatewayIDPrefix] at hle
      simp at hle
      omega
    simp only [Registrations.parseRegistrationIDPrefix] at hlength
    split at hlength
    · next ascii suffix hsplit =>
      have hlt := length_splitAtColon_lt hsplit
      simp only [String.toList_ofList, List.length_drop] at hlt hlength
      omega
    · simp at hlength
      omega
  · next hown =>
    split
    · next hmux =>
      cases hsplit : MuxTreeGateway.splitAtColon tag.toList with
      | none =>
          have hcolon := MuxTreeGateway.splitAtColon_eq_none_iff.mp hsplit
          exact iff_of_true rfl (by simp [hown, hcolon])
      | some parts =>
          obtain ⟨before, after⟩ := parts
          have hlt := length_splitAtColon_lt hsplit
          have hcolon : ':' ∈ tag.toList := by
            rw [MuxTreeGateway.eq_of_splitAtColon hsplit]
            simp
          refine iff_of_false ?_ fun h => h (.inr ⟨hmux, hcolon⟩)
          intro heq
          have hlength := congrArg (fun s => s.toList.length) heq
          simp only [String.toList_ofList] at hlength
          omega
    · next hmux =>
      refine iff_of_true rfl ?_
      rintro (h | h)
      · exact hown h
      · exact hmux h.1

end MuxGateway

section Uploads

variable {ι σ φ M : Type} [DecidableEq σ] (rules : PathMatching φ M)
  (muxes : ι → MuxGateway σ φ)

/-- The tag with which an upload goes out; the registrations may have changed
until the change that it makes is back. -/
def tagOfUpload (gateway : ι) (registrations : Registrations σ)
    (calledBy : σ) (u : Upload M) : String :=
  ({ muxes gateway with registrations }.uploadNodeValue calledBy u).optOpTag

/-- Everybody who is told of a change sees the uploader's tag, and an uploader
that has asked for no reply is not told. -/
structure TagArrives (gateway : ι) (registrations : Registrations σ)
    (calledBy : σ) (u : Upload M) (n : Notification M) : Prop where
  verbatim (i : ι) : ∀ cb ∈ ((muxes i).notify rules n
    (tagOfUpload muxes gateway registrations calledBy u)).1,
      cb.optOpTag = u.optOpTag
  noReply : u.flags.noReply = true → ∀ cb ∈ ((muxes gateway).notify rules n
    (tagOfUpload muxes gateway registrations calledBy u)).1,
      cb.sub ≠ calledBy

/-- With a mark: the change is a node update, and the uploader, if it concerns
it, has the registration ID with which it made the upload.  Without one: of a
node update, nobody that it concerns and that the tag does not name sees a tag
that looks marked. -/
def TagSurvives (gateway : ι) (registrations : Registrations σ) (calledBy : σ)
    (u : Upload M) (n : Notification M) : Prop :=
  match n with
  | .nodeUpdated _ _ =>
      if u.flags.noReply = true then
        (muxes gateway).Concerns rules n calledBy →
          (muxes gateway).registrations.registrationIDs.get?
            (registrations.idOf calledBy) = some calledBy
      else
        ∀ i sub, (muxes i).Concerns rules n sub →
          ((muxes i).effectiveTag u.optOpTag).2 ≠ some sub →
            ¬(muxes i).LooksMarked u.optOpTag
  | .indexChanged _ _ =>
      u.flags.noReply = true → ∀ i sub, ¬(muxes i).Concerns rules n sub

variable {rules} {muxes} {gateway : ι} {registrations : Registrations σ}
  {calledBy : σ} {u : Upload M} {n : Notification M} {tag : String}

/-- All that are told see the tag, if there is anybody. -/
theorem verbatim_iff {g : MuxGateway σ φ} :
    (∀ cb ∈ (g.notify rules n tag).1, cb.optOpTag = u.optOpTag) ↔
      ∀ sub, g.Concerns rules n sub → (g.seenTag n tag).2 ≠ some sub →
        (g.seenTag n tag).1 = u.optOpTag := by
  constructor
  · intro h sub hconcerns hleft
    exact h ⟨sub, g.toldAs rules n sub, (g.seenTag n tag).1⟩
      (MuxGateway.mem_notify_iff.mpr ⟨hconcerns, hleft, rfl⟩)
  · intro h cb hcb
    obtain ⟨hconcerns, hleft, heq⟩ := MuxGateway.mem_notify_iff.mp hcb
    rw [heq]
    exact h cb.sub hconcerns hleft

/-- A subscriber is not told if it does not concern it or it is left out. -/
theorem not_told_iff {g : MuxGateway σ φ} {sub : σ} :
    (∀ cb ∈ (g.notify rules n tag).1, cb.sub ≠ sub) ↔
      (g.Concerns rules n sub → (g.seenTag n tag).2 = some sub) := by
  constructor
  · intro h hconcerns
    by_contra hleft
    exact h ⟨sub, g.toldAs rules n sub, (g.seenTag n tag).1⟩
      (MuxGateway.mem_notify_iff.mpr ⟨hconcerns, hleft, rfl⟩) rfl
  · rintro h cb hcb rfl
    obtain ⟨hconcerns, hleft, -⟩ := MuxGateway.mem_notify_iff.mp hcb
    exact hleft (h hconcerns)

theorem tagArrives_iff_told :
    TagArrives rules muxes gateway registrations calledBy u n ↔
      (∀ i, ∀ cb ∈ ((muxes i).notify rules n (tagOfUpload muxes gateway
        registrations calledBy u)).1, cb.optOpTag = u.optOpTag) ∧
      (u.flags.noReply = true → ∀ cb ∈ ((muxes gateway).notify rules n
        (tagOfUpload muxes gateway registrations calledBy u)).1,
          cb.sub ≠ calledBy) :=
  ⟨fun h => ⟨h.verbatim, h.noReply⟩, fun h => ⟨h.1, h.2⟩⟩

/-- The mark makes a difference to every text. -/
theorem tagToExclude_ne {g : MuxGateway σ φ} :
    g.tagToExcludeClientFromReplies calledBy tag ≠ tag := by
  intro h
  have hlength := congrArg (fun s => s.toList.length) h
  rw [MuxGateway.toList_tagToExcludeClientFromReplies,
    Registrations.prependRegistrationIDPrefix,
    MuxTreeGateway.toList_prependRegistrationIDPrefix] at hlength
  simp at hlength
  omega

/-- **Operation tags arrive verbatim, and who asked for no reply gets none**, if
and only if the tag survives. -/
theorem tagArrives_iff_tagSurvives (rules : PathMatching φ M)
    (muxes : ι → MuxGateway σ φ) (gateway : ι)
    (registrations : Registrations σ) (calledBy : σ) (u : Upload M)
    (n : Notification M) :
    TagArrives rules muxes gateway registrations calledBy u n ↔
      TagSurvives rules muxes gateway registrations calledBy u n := by
  rw [tagArrives_iff_told, forall_congr' fun i => verbatim_iff, not_told_iff]
  cases hreply : u.flags.noReply with
  | false =>
      have htag : tagOfUpload muxes gateway registrations calledBy u =
          u.optOpTag := by
        simp [tagOfUpload, MuxGateway.uploadNodeValue, hreply]
      rw [htag]
      cases n with
      | nodeUpdated path nodeMsg =>
          simp [TagSurvives, MuxGateway.seenTag, hreply,
            MuxGateway.effectiveTag_eq_iff]
      | indexChanged path op =>
          simp [TagSurvives, MuxGateway.seenTag, hreply]
  | true =>
      have htag : tagOfUpload muxes gateway registrations calledBy u =
          { muxes gateway with registrations
            }.tagToExcludeClientFromReplies calledBy u.optOpTag := by
        simp [tagOfUpload, MuxGateway.uploadNodeValue, hreply]
      rw [htag]
      cases n with
      | nodeUpdated path nodeMsg =>
          have hseen := MuxGateway.effectiveTag_tagToExclude calledBy
            u.optOpTag { muxes gateway with registrations }
          simp [TagSurvives, MuxGateway.seenTag, hreply, (hseen _).1,
            (hseen (muxes gateway)).2 rfl]
      | indexChanged path op =>
          simp only [TagSurvives, MuxGateway.seenTag, hreply, tagToExclude_ne]
          simp only [ne_eq, reduceCtorEq, not_false_eq_true, forall_const,
            imp_false, and_iff_left_iff_imp]
          exact fun h => h gateway calledBy

end Uploads

/-- One subscriber that has asked for a node, with a table of its own. -/
def oneSubscriber : MuxGateway ℕ ℕ where
  uniqueID := 42
  registrations := Registrations.nobody.register 1
  tables := { MuxState.initial true with
    subscriberInfos := Hashtable.empty.put 1
      (some ⟨Hashtable.empty.put "a" none, []⟩) }
  allowedCallbacks := .empty

/-- It uploads a child of the node, to be put into its index, and wants no
reply. -/
def quietUpload : Upload ℕ where
  path := "a/I0"
  optPayload := some 5
  flags := { noReply := true }
  optBefore := ""
  optOpTag := "t"

/-- An upload with a tag that looks marked. -/
def markedUpload : Upload ℕ where
  path := "a"
  optPayload := some 5
  flags := {}
  optBefore := ""
  optOpTag := "[MUX]:t"

/-- It is told of the index change; and of the node update of the other upload
with half of the tag. -/
theorem not_tagArrives_oneSubscriber :
    ¬TagArrives plainRules (fun _ : Unit => oneSubscriber) ()
        oneSubscriber.registrations 1 quietUpload
        (.indexChanged "a" (.entryInserted 0 "I0")) ∧
      ¬TagArrives plainRules (fun _ : Unit => oneSubscriber) ()
        oneSubscriber.registrations 1 markedUpload
        (.nodeUpdated "a" (some 5)) := by
  refine ⟨fun h => ?_, fun h => ?_⟩
  · have htold : ∃ cb ∈ (oneSubscriber.notify plainRules
        (.indexChanged "a" (.entryInserted 0 "I0"))
          (tagOfUpload (fun _ : Unit => oneSubscriber) ()
            oneSubscriber.registrations 1 quietUpload)).1, cb.sub = 1 := by
      decide
    obtain ⟨cb, hcb, hsub⟩ := htold
    exact h.noReply rfl cb hcb hsub
  · have htold : ∃ cb ∈ (oneSubscriber.notify plainRules
        (.nodeUpdated "a" (some 5)) (tagOfUpload (fun _ : Unit => oneSubscriber)
          () oneSubscriber.registrations 1 markedUpload)).1,
            cb.optOpTag = "t" := by
      decide
    obtain ⟨cb, hcb, htag⟩ := htold
    have hverbatim := h.verbatim () cb hcb
    rw [htag] at hverbatim
    exact absurd hverbatim (by decide)

end ZgChoir.MuxNotifications
