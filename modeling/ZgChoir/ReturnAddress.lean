import ZgChoir.DatabaseUpdate
import ZgChoir.DecimalText

/-!
# Return addresses

A message from one subscriber to others carries a tag of the sender's.  On its
way out every `MuxTreeGateway` writes the registration ID of the subscriber
it comes from before the tag, `_3_:`, and the peer writes its own ID,
`{4f:2a}:`.  What comes of it is the return address.  On the way back the
peer and each of the gateways take off what they have written and go by it.

The tag is the user's, so it may look like a return address itself; what
makes the address unambiguous is that each writer's part ends at the first
colon after it, and that none of them has a colon, or a closing brace, in it.
-/

namespace ZgChoir

open DecimalText

namespace MuxTreeGateway

/-- `GetRegistrationIDPrefix` -/
def getRegistrationIDPrefix (registrationID : UInt32) (markerChar : Char) :
    String :=
  .ofList (markerChar :: Nat.toDigits 10 registrationID.toNat ++ [markerChar])

/-- `PrependRegistrationIDPrefix` -/
def prependRegistrationIDPrefix (registrationID : UInt32) (s : String)
    (markerChar : Char) : String :=
  getRegistrationIDPrefix registrationID markerChar ++ ":" ++ s

/-- What `ParseRegistrationID` looks up. -/
def parseRegistrationID (ascii : String) (markerChar : Char) :
    Option UInt32 :=
  if ascii.toList.head? = some markerChar ∧
      ascii.toList.getLast? = some markerChar then
    some (UInt32.ofInt (strtol ascii.toList.tail))
  else none

/-- `IndexOf(':')`, and what is before and after the first colon. -/
def splitAtColon : List Char → Option (List Char × List Char)
  | [] => none
  | c :: rest =>
      if c = ':' then some ([], rest)
      else (splitAtColon rest).map fun parts => (c :: parts.1, parts.2)

/-- `ParseRegistrationIDPrefix`: what is looked up, and the suffix. -/
def parseRegistrationIDPrefix (s : String) (markerChar : Char) :
    Option (UInt32 × String) := do
  let (ascii, suffix) ← splitAtColon s.toList
  let registrationID ← parseRegistrationID (.ofList ascii) markerChar
  return (registrationID, .ofList suffix)

/-- `IsReturnAddress` -/
def isReturnAddress (path : String) : Bool :=
  match path.toList with
  | '_' :: d :: rest =>
      d.isDigit &&
        ('_' :: printInt (atoi (d :: rest)).toInt ++ ['_', ':']).isPrefixOf
          path.toList
  | _ => false

end MuxTreeGateway

/-- `ZGPeerID::ToString` -/
def ZGPeerID.toText (p : ZGPeerID) : String :=
  .ofList (Nat.toDigits 16 p.highBits.toNat ++
    ':' :: Nat.toDigits 16 p.lowBits.toNat)

/-- `ZGPeerID::FromString`, with MUSCLE's `Atoxll`. -/
def ZGPeerID.fromString (atoxll : List Char → UInt64) (s : String) : ZGPeerID :=
  match MuxTreeGateway.splitAtColon s.toList with
  | some (_, afterColon) => ⟨atoxll s.toList, atoxll afterColon⟩
  | none => .invalid

/-- `IndexOf("}:")`, and what is before and after it. -/
def splitAtBrace : List Char → Option (List Char × List Char)
  | [] => none
  | [_] => none
  | c :: d :: rest =>
      if c = '}' ∧ d = ':' then some ([], rest)
      else (splitAtBrace (d :: rest)).map fun parts => (c :: parts.1, parts.2)

/-- The tag that `TreeGateway_SendMessageToSubscriber` sends along. -/
def returnAddress (localPeerID : ZGPeerID) (tag : String) : String :=
  "\x7b" ++ localPeerID.toText ++ "\x7d:" ++ tag

/-- `GetPeerIDFromReturnAddress`: the ID, and the suffix. -/
def getPeerIDFromReturnAddress (atoxll : List Char → UInt64) (path : String) :
    ZGPeerID × String :=
  match path.toList with
  | '{' :: rest =>
      match splitAtBrace rest with
      | some (text, suffix) => (.fromString atoxll (.ofList text), .ofList suffix)
      | none => (.invalid, "")
  | _ => (.invalid, "")

/-! ## Each part is read as it was written -/

/-- The digits of a number, in any base up to sixteen, are letters and
digits. -/
theorem isAlphanum_of_mem_toDigits {b n : ℕ} {c : Char} (hb : 1 < b)
    (hb' : b ≤ 16) (hc : c ∈ Nat.toDigits b n) : c.isAlphanum = true := by
  induction n using Nat.strongRecOn with
  | ind n ih =>
      have hdigit : ∀ d, d < b → (Nat.digitChar d).isAlphanum = true := by
        intro d hd
        have hd' : d < 16 := by omega
        interval_cases d <;> decide
      by_cases hn : n < b
      · rw [Nat.toDigits_of_lt_base hn] at hc
        rw [List.mem_singleton.mp hc]
        exact hdigit n hn
      · rw [Nat.toDigits_of_base_le hb (by omega)] at hc
        rcases List.mem_append.mp hc with hc | hc
        · exact ih (n / b) (Nat.div_lt_self (by omega) hb) hc
        · rw [List.mem_singleton.mp hc]
          exact hdigit _ (Nat.mod_lt n (by omega))

namespace MuxTreeGateway

theorem splitAtColon_append {before after : List Char} (h : ':' ∉ before) :
    splitAtColon (before ++ ':' :: after) = some (before, after) := by
  induction before with
  | nil => simp [splitAtColon]
  | cons c before ih =>
      have hc : c ≠ ':' := fun hc => h (by simp [hc])
      have hbefore : ':' ∉ before := fun hmem => h (by simp [hmem])
      simp [splitAtColon, hc, ih hbefore]

/-- What is split is what is before the first colon, it, and what is after. -/
theorem eq_of_splitAtColon {text before after : List Char}
    (h : splitAtColon text = some (before, after)) :
    text = before ++ ':' :: after := by
  induction text generalizing before with
  | nil => simp [splitAtColon] at h
  | cons c text ih =>
      rw [splitAtColon] at h
      split at h
      · next hc =>
        obtain ⟨rfl, rfl⟩ := Prod.mk.inj (Option.some.inj h)
        simp [hc]
      · obtain ⟨⟨before', after'⟩, hparts, heq⟩ := Option.map_eq_some_iff.mp h
        obtain ⟨rfl, rfl⟩ := Prod.mk.inj heq
        rw [ih hparts, List.cons_append]

theorem splitAtColon_eq_none_iff {text : List Char} :
    splitAtColon text = none ↔ ':' ∉ text := by
  induction text with
  | nil => simp [splitAtColon]
  | cons c text ih =>
      rw [splitAtColon]
      split
      · next hc => simp [hc]
      · next hc => simp [ih, Ne.symm hc]

variable {registrationID : UInt32} {s : String}

/-- The text of a prefixed string. -/
theorem toList_prependRegistrationIDPrefix {markerChar : Char} :
    (prependRegistrationIDPrefix registrationID s markerChar).toList =
      (markerChar :: Nat.toDigits 10 registrationID.toNat ++ [markerChar]) ++
        ':' :: s.toList := by
  simp [prependRegistrationIDPrefix, getRegistrationIDPrefix]

theorem colon_notMem_getRegistrationIDPrefix {markerChar : Char}
    (hmarker : markerChar ≠ ':') :
    ':' ∉ (getRegistrationIDPrefix registrationID markerChar).toList := by
  intro h
  have hdigits : ':' ∈ Nat.toDigits 10 registrationID.toNat := by
    simpa [getRegistrationIDPrefix, hmarker.symm] using h
  have halnum := isAlphanum_of_mem_toDigits (by decide) (by decide) hdigits
  exact absurd halnum (by decide)

/-- The first colon of a prefixed string is the one after the prefix. -/
theorem splitAtColon_append_prependRegistrationIDPrefix
    (registrationID : UInt32) (s : String) {markerChar : Char}
    {before : List Char} (hbefore : ':' ∉ before) (hmarker : markerChar ≠ ':') :
    splitAtColon (before ++
      (prependRegistrationIDPrefix registrationID s markerChar).toList) =
        some (before ++
          (getRegistrationIDPrefix registrationID markerChar).toList,
          s.toList) := by
  have hcolon : ':' ∉ before ++
      (getRegistrationIDPrefix registrationID markerChar).toList := by
    rw [List.mem_append]
    rintro (h | h)
    · exact hbefore h
    · exact colon_notMem_getRegistrationIDPrefix hmarker h
  have htext : before ++
      (prependRegistrationIDPrefix registrationID s markerChar).toList =
        (before ++ (getRegistrationIDPrefix registrationID markerChar).toList) ++
          ':' :: s.toList := by
    simp [toList_prependRegistrationIDPrefix, getRegistrationIDPrefix]
  rw [htext, splitAtColon_append hcolon]

theorem splitAtColon_prependRegistrationIDPrefix {markerChar : Char}
    (hmarker : markerChar ≠ ':') :
    splitAtColon
      (prependRegistrationIDPrefix registrationID s markerChar).toList =
        some ((getRegistrationIDPrefix registrationID markerChar).toList,
          s.toList) := by
  have hsplit := splitAtColon_append_prependRegistrationIDPrefix registrationID
    s (List.not_mem_nil : ':' ∉ []) hmarker
  rwa [List.nil_append, List.nil_append] at hsplit

/-- The ID in a prefix is the one that was written, whichever the marker. -/
theorem parseRegistrationID_getRegistrationIDPrefix {markerChar : Char}
    (hmarker : markerChar.isDigit = false) :
    parseRegistrationID (getRegistrationIDPrefix registrationID markerChar)
      markerChar = some registrationID := by
  have hlt := registrationID.toNat_lt
  have hnumber : strtol (Nat.toDigits 10 registrationID.toNat ++
      [markerChar]) = registrationID.toNat :=
    strtol_toDigits (by omega) (by simp [hmarker])
  have hlast : (markerChar :: Nat.toDigits 10 registrationID.toNat ++
      [markerChar]).getLast? = some markerChar := List.getLast?_concat
  have hcast : UInt32.ofInt registrationID.toNat = registrationID := by
    have hmod : (registrationID.toNat : ℤ) % 4294967296 = registrationID.toNat :=
      Int.emod_eq_of_lt (by omega) (by omega)
    simp [UInt32.ofInt, hmod]
  rw [getRegistrationIDPrefix, parseRegistrationID, String.toList_ofList, hlast]
  simp [hnumber, hcast]

/-- **A registration ID is read as it was written**, whatever follows. -/
theorem parseRegistrationIDPrefix_prepend :
    parseRegistrationIDPrefix
      (prependRegistrationIDPrefix registrationID s '_') '_' =
        some (registrationID, s) := by
  rw [parseRegistrationIDPrefix,
    splitAtColon_prependRegistrationIDPrefix (by decide)]
  simp only [Option.bind_eq_bind, Option.bind_some, String.ofList_toList,
    parseRegistrationID_getRegistrationIDPrefix (by decide : '_'.isDigit = false)]
  rfl

/-- **A gateway takes its own writing for a return address exactly as long
as the registration ID is below 2³¹**: from there on `atoi` reads it as a
negative number. -/
theorem isReturnAddress_prepend :
    isReturnAddress (prependRegistrationIDPrefix registrationID s '_') =
      decide (registrationID.toNat < 2147483648) := by
  have hlt := registrationID.toNat_lt
  have hnumber : (atoi (Nat.toDigits 10 registrationID.toNat ++
      '_' :: ':' :: s.toList)).toInt =
        if registrationID.toNat < 2147483648 then (registrationID.toNat : ℤ)
        else registrationID.toNat - 4294967296 :=
    toInt_atoi_toDigits (by omega) (by simp)
  cases hdigits : Nat.toDigits 10 registrationID.toNat with
  | nil => exact absurd hdigits Nat.toDigits_ne_nil
  | cons d digits =>
      have hd : d.isDigit = true := Nat.isDigit_of_mem_toDigits (b := 10)
        (by decide) (by decide) (hdigits ▸ List.mem_cons_self)
      have htext : (prependRegistrationIDPrefix registrationID s '_').toList =
          '_' :: d :: (digits ++ '_' :: ':' :: s.toList) := by
        rw [toList_prependRegistrationIDPrefix, hdigits]
        simp
      rw [hdigits, List.cons_append] at hnumber
      rw [isReturnAddress, htext]
      simp only [hd, hnumber, Bool.true_and]
      by_cases hsmall : registrationID.toNat < 2147483648
      · have hprint : printInt (registrationID.toNat : ℤ) = d :: digits := hdigits
        simp [hsmall, hprint]
      · have hneg : (registrationID.toNat : ℤ) - 4294967296 =
            .negSucc (4294967295 - registrationID.toNat) := by
          omega
        have hminus : ('-' == d) = false := by
          rw [beq_eq_false_iff_ne]
          rintro rfl
          cases hd
        simp [hsmall, hneg, printInt, List.isPrefixOf, hminus]

end MuxTreeGateway

theorem splitAtBrace_append {before after : List Char} (h : '}' ∉ before) :
    splitAtBrace (before ++ '}' :: ':' :: after) = some (before, after) := by
  induction before with
  | nil => simp [splitAtBrace]
  | cons c before ih =>
      have hc : c ≠ '}' := fun hc => h (by simp [hc])
      have hbefore : '}' ∉ before := fun hmem => h (by simp [hmem])
      have ih := ih hbefore
      cases hrest : before ++ '}' :: ':' :: after with
      | nil => simp at hrest
      | cons d rest =>
          rw [hrest] at ih
          rw [List.cons_append, hrest, splitAtBrace, if_neg (by simp [hc]), ih]
          rfl

/-- **A peer's ID is read as it was written**, whatever follows. -/
theorem getPeerIDFromReturnAddress_returnAddress
    {atoxll : List Char → UInt64} {p : ZGPeerID} {tag : String}
    (hparse : ZGPeerID.fromString atoxll p.toText = p) :
    getPeerIDFromReturnAddress atoxll (returnAddress p tag) = (p, tag) := by
  have hbrace : '}' ∉ p.toText.toList := by
    intro h
    have hdigits : '}' ∈ Nat.toDigits 16 p.highBits.toNat ∨
        '}' ∈ Nat.toDigits 16 p.lowBits.toNat := by
      simpa [ZGPeerID.toText] using h
    rcases hdigits with hdigits | hdigits
    · exact absurd (isAlphanum_of_mem_toDigits (by decide) (by decide) hdigits)
        (by decide)
    · exact absurd (isAlphanum_of_mem_toDigits (by decide) (by decide) hdigits)
        (by decide)
  have htext : (returnAddress p tag).toList =
      '{' :: (p.toText.toList ++ '}' :: ':' :: tag.toList) := by
    simp [returnAddress]
  rw [getPeerIDFromReturnAddress, htext]
  simp only [splitAtBrace_append hbrace, String.ofList_toList, hparse]

end ZgChoir
