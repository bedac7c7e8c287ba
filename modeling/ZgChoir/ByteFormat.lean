import Mathlib

/-!
# Formats of bytes

Words are written with their lowest byte first, and read back by a reader
that goes through a buffer.  The reader never stops at the end: a word that
is not there any more is read as zero, and the reader remembers that it has
failed.  What reads a value may also give up by itself.

`Parses r P` says all there is to say about such a reading: it succeeds on a
buffer exactly when the buffer starts with bytes that stand for a value
according to `P`, and takes those away.  There is one rule for each way of
building a reading, so a format is proved along the program that reads it.
-/

namespace ByteFormat

/-! ### Words -/

/-- The lowest `width` bytes of a number, lowest first. -/
def leBytes : ℕ → ℕ → List UInt8
  | 0, _ => []
  | width + 1, value => UInt8.ofNat value :: leBytes width (value / 256)

/-- The number that bytes stand for, lowest first. -/
def ofLE : List UInt8 → ℕ
  | [] => 0
  | byte :: bytes => byte.toNat + 256 * ofLE bytes

@[simp] theorem length_leBytes (width value : ℕ) :
    (leBytes width value).length = width := by
  induction width generalizing value with
  | zero => rfl
  | succ width ih => simp [leBytes, ih]

theorem ofLE_leBytes {width value : ℕ} (h : value < 256 ^ width) :
    ofLE (leBytes width value) = value := by
  induction width generalizing value with
  | zero =>
      have : value = 0 := by simpa using h
      simp [leBytes, ofLE, this]
  | succ width ih =>
      have hrest : value / 256 < 256 ^ width :=
        Nat.div_lt_of_lt_mul (by rwa [pow_succ'] at h)
      simp only [leBytes, ofLE, ih hrest, UInt8.toNat_ofNat']
      omega

theorem ofLE_lt (bytes : List UInt8) : ofLE bytes < 256 ^ bytes.length := by
  induction bytes with
  | nil => simp [ofLE]
  | cons byte bytes ih =>
      have hbyte := byte.toNat_lt
      rw [ofLE, List.length_cons, pow_succ']
      omega

theorem leBytes_ofLE (bytes : List UInt8) :
    leBytes bytes.length (ofLE bytes) = bytes := by
  induction bytes with
  | nil => rfl
  | cons byte bytes ih =>
      have hbyte := byte.toNat_lt
      have hrest : (byte.toNat + 256 * ofLE bytes) / 256 = ofLE bytes := by
        omega
      have hhead : UInt8.ofNat (byte.toNat + 256 * ofLE bytes) = byte := by
        apply UInt8.toNat_inj.mp
        rw [UInt8.toNat_ofNat']
        omega
      rw [List.length_cons, ofLE, leBytes, hrest, hhead, ih]

/-- A type of words: what fits into some number of bytes. -/
class Word (α : Type) where
  size : ℕ
  toNat : α → ℕ
  ofNat : ℕ → α
  toNat_lt : ∀ w, toNat w < 256 ^ size
  ofNat_toNat : ∀ w, ofNat (toNat w) = w
  toNat_ofNat : ∀ {n}, n < 256 ^ size → toNat (ofNat n) = n

instance : Word UInt8 where
  size := 1
  toNat := UInt8.toNat
  ofNat := UInt8.ofNat
  toNat_lt w := by simpa using w.toNat_lt
  ofNat_toNat w := UInt8.ofNat_toNat
  toNat_ofNat h := UInt8.toNat_ofNat_of_lt' (by simpa using h)

instance : Word UInt16 where
  size := 2
  toNat := UInt16.toNat
  ofNat := UInt16.ofNat
  toNat_lt w := by simpa using w.toNat_lt
  ofNat_toNat w := UInt16.ofNat_toNat
  toNat_ofNat h := UInt16.toNat_ofNat_of_lt' (by simpa using h)

instance : Word UInt32 where
  size := 4
  toNat := UInt32.toNat
  ofNat := UInt32.ofNat
  toNat_lt w := by simpa using w.toNat_lt
  ofNat_toNat w := UInt32.ofNat_toNat
  toNat_ofNat h := UInt32.toNat_ofNat_of_lt' (by simpa using h)

instance : Word UInt64 where
  size := 8
  toNat := UInt64.toNat
  ofNat := UInt64.ofNat
  toNat_lt w := by simpa using w.toNat_lt
  ofNat_toNat w := UInt64.ofNat_toNat
  toNat_ofNat h := UInt64.toNat_ofNat_of_lt' (by simpa using h)

section

variable {α : Type} [Word α]

/-- The bytes of a word. -/
def wordBytes (w : α) : List UInt8 := leBytes (Word.size α) (Word.toNat w)

/-- The word that bytes stand for. -/
def wordOf (bytes : List UInt8) : α := Word.ofNat (ofLE bytes)

@[simp] theorem length_wordBytes (w : α) :
    (wordBytes w).length = Word.size α := length_leBytes _ _

theorem wordOf_wordBytes (w : α) : wordOf (wordBytes w) = w := by
  rw [wordOf, wordBytes, ofLE_leBytes (Word.toNat_lt w), Word.ofNat_toNat]

theorem wordBytes_wordOf {bytes : List UInt8}
    (h : bytes.length = Word.size α) : wordBytes (wordOf bytes : α) = bytes := by
  have hlt : ofLE bytes < 256 ^ Word.size α := h ▸ ofLE_lt bytes
  rw [wordBytes, wordOf, Word.toNat_ofNat hlt, ← h, leBytes_ofLE]

end

@[simp] theorem size_uint8 : Word.size UInt8 = 1 := rfl
@[simp] theorem size_uint16 : Word.size UInt16 = 2 := rfl
@[simp] theorem size_uint32 : Word.size UInt32 = 4 := rfl
@[simp] theorem size_uint64 : Word.size UInt64 = 8 := rfl

/-! ### Fields by their offsets -/

section

variable {α : Type} [Word α]

/-- Write a word to an offset in a buffer. -/
def exportAt (buf : List UInt8) (offset : ℕ) (w : α) :
    List UInt8 :=
  buf.take offset ++ wordBytes w ++ buf.drop (offset + Word.size α)

/-- Read a word from an offset in a buffer. -/
def importAt (α : Type) [Word α] (buf : List UInt8) (offset : ℕ) : α :=
  wordOf ((buf.drop offset).take (Word.size α))

theorem exportAt_append (xs : List UInt8) {ys : List UInt8}
    (zs : List UInt8) {offset : ℕ}
    (hx : xs.length = offset) (hy : ys.length = Word.size α) (w : α) :
    exportAt (xs ++ (ys ++ zs)) offset w = xs ++ (wordBytes w ++ zs) := by
  unfold exportAt
  rw [← hx, List.take_left, ← hy, ← List.length_append, ← List.append_assoc,
    List.drop_left, List.append_assoc]

theorem importAt_append (xs zs : List UInt8) {offset : ℕ}
    (hx : xs.length = offset) (w : α) :
    importAt α (xs ++ (wordBytes w ++ zs)) offset = w := by
  unfold importAt
  rw [← hx, List.drop_left, ← length_wordBytes w, List.take_left,
    wordOf_wordBytes]

theorem exists_append {bytes : List UInt8} {m n : ℕ}
    (h : bytes.length = m + n) :
    ∃ xs ys, bytes = xs ++ ys ∧ xs.length = m ∧ ys.length = n :=
  ⟨bytes.take m, bytes.drop m, (List.take_append_drop m bytes).symm,
    by simp [h], by simp [h]⟩

end

/-! ### The reader -/

/-- A reader: the bytes it has not read yet, and whether it has run over the
end of the buffer. -/
structure Unflattener where
  bytes : List UInt8
  failed : Bool
  deriving DecidableEq

/-- A reader at the start of a buffer. -/
def Unflattener.start (bytes : List UInt8) : Unflattener := ⟨bytes, false⟩

/-- What reads an `α`, or gives up. -/
abbrev Unflattening (α : Type) := StateT Unflattener Option α

/-- Read `n` bytes. -/
def readBytes (n : ℕ) : Unflattening (List UInt8) := fun u =>
  if n ≤ u.bytes.length then
    some (u.bytes.take n, { u with bytes := u.bytes.drop n })
  else some (List.replicate n 0, { u with failed := true })

/-- Read a word. -/
def readWord (α : Type) [Word α] : Unflattening α := do
  return wordOf (← readBytes (Word.size α))

/-- How many bytes are left. -/
def numBytesAvailable : Unflattening ℕ := fun u => some (u.bytes.length, u)

/-- Give up. -/
def giveUp {α : Type} : Unflattening α := fun _ => none

/-- Give up if the reader has failed. -/
def checkStatus : Unflattening Unit := fun u =>
  if u.failed then none else some ((), u)

/-- Read `n` values in a row. -/
def readMany {α : Type} (r : Unflattening α) : ℕ → Unflattening (List α)
  | 0 => return []
  | n + 1 => do
      let a ← r
      let as ← readMany r n
      return a :: as

/-! ### What a reading accepts -/

variable {α β : Type} {P P' : α → List UInt8 → Prop}
variable {Q : α → β → List UInt8 → Prop}
variable {r : Unflattening α} {f : α → Unflattening β}

theorem bind_eq_some {u u' : Unflattener} {b : β} :
    (r >>= f) u = some (b, u') ↔
      ∃ a v, r u = some (a, v) ∧ f a v = some (b, u') := by
  refine Option.bind_eq_some_iff.trans ⟨?_, ?_⟩
  · rintro ⟨⟨a, v⟩, hr, hf⟩
    exact ⟨a, v, hr, hf⟩
  · rintro ⟨a, v, hr, hf⟩
    exact ⟨(a, v), hr, hf⟩

/-- A reading accepts the bytes that stand for a value according to `P`, and
no others; a failure is never forgotten. -/
structure Parses (r : Unflattening α) (P : α → List UInt8 → Prop) : Prop where
  latched : ∀ {u a v}, r u = some (a, v) → u.failed = true → v.failed = true
  accepts : ∀ {bytes a rest},
    r ⟨bytes, false⟩ = some (a, ⟨rest, false⟩) ↔
      ∃ used, bytes = used ++ rest ∧ P a used

theorem Parses.congr (h : Parses r P) (hP : ∀ a used, P a used ↔ P' a used) :
    Parses r P' where
  latched := h.latched
  accepts := by
    simp only [h.accepts, hP, implies_true]

theorem Parses.pure {a : α} :
    Parses (pure a) fun b used => b = a ∧ used = [] where
  latched := by
    rintro u b v hr hfailed
    obtain ⟨rfl, rfl⟩ : a = b ∧ u = v := by simpa using Option.some.inj hr
    exact hfailed
  accepts := by
    intro bytes b rest
    constructor
    · intro hr
      obtain ⟨rfl, hv⟩ : a = b ∧ _ = _ := by simpa using Option.some.inj hr
      obtain rfl : bytes = rest := by simpa using hv
      exact ⟨[], rfl, rfl, rfl⟩
    · rintro ⟨used, rfl, rfl, rfl⟩
      rfl

theorem Parses.bind (h : Parses r P) (hf : ∀ a, Parses (f a) (Q a)) :
    Parses (r >>= f) fun b used =>
      ∃ a bs cs, used = bs ++ cs ∧ P a bs ∧ Q a b cs where
  latched := by
    intro u b v hr hfailed
    obtain ⟨a, w, hr, hrest⟩ := bind_eq_some.mp hr
    exact (hf a).latched hrest (h.latched hr hfailed)
  accepts := by
    intro bytes b rest
    rw [bind_eq_some]
    constructor
    · rintro ⟨a, ⟨left, failed⟩, hr, hrest⟩
      cases failed with
      | true => exact absurd ((hf a).latched hrest rfl) (by simp)
      | false =>
          obtain ⟨bs, rfl, hP⟩ := h.accepts.mp hr
          obtain ⟨cs, rfl, hQ⟩ := (hf a).accepts.mp hrest
          exact ⟨bs ++ cs, by simp, a, bs, cs, rfl, hP, hQ⟩
    · rintro ⟨used, rfl, a, bs, cs, rfl, hP, hQ⟩
      exact ⟨a, ⟨cs ++ rest, false⟩, h.accepts.mpr ⟨bs, by simp, hP⟩,
        (hf a).accepts.mpr ⟨cs, rfl, hQ⟩⟩

theorem parses_readBytes (n : ℕ) :
    Parses (readBytes n) fun bytes used => used = bytes ∧ bytes.length = n where
  latched := by
    intro u a v hr hfailed
    unfold readBytes at hr
    split at hr
    all_goals
      obtain ⟨-, rfl⟩ := Prod.mk.injEq .. ▸ Option.some.inj hr
    · exact hfailed
    · rfl
  accepts := by
    intro bytes a rest
    unfold readBytes
    constructor
    · intro hr
      split at hr
      · next hlen =>
        obtain ⟨rfl, hrest⟩ := Prod.mk.injEq .. ▸ Option.some.inj hr
        obtain rfl : bytes.drop n = rest := by simpa using hrest
        exact ⟨bytes.take n, (List.take_append_drop n bytes).symm, rfl,
          List.length_take_of_le hlen⟩
      · obtain ⟨-, hfailed⟩ := Prod.mk.injEq .. ▸ Option.some.inj hr
        simp at hfailed
    · rintro ⟨used, rfl, rfl, rfl⟩
      simp

theorem parses_readWord (α : Type) [Word α] :
    Parses (readWord α) fun w used => used = wordBytes w := by
  refine ((parses_readBytes _).bind fun _ => Parses.pure).congr ?_
  intro w used
  constructor
  · rintro ⟨bytes, bs, cs, rfl, ⟨rfl, hlen⟩, rfl, rfl⟩
    rw [List.append_nil, wordBytes_wordOf hlen]
  · rintro rfl
    exact ⟨_, _, [], (List.append_nil _).symm, ⟨rfl, length_wordBytes w⟩,
      (wordOf_wordBytes w).symm, rfl⟩

/-- A word, and what is read after it. -/
theorem Parses.word_bind {ω : Type} [Word ω] {f : ω → Unflattening β}
    {Q : ω → β → List UInt8 → Prop} (hf : ∀ w, Parses (f w) (Q w)) :
    Parses (readWord ω >>= f) fun b used =>
      ∃ w cs, used = wordBytes w ++ cs ∧ Q w b cs := by
  refine ((parses_readWord ω).bind hf).congr fun b used => ?_
  constructor
  · rintro ⟨w, bs, cs, rfl, rfl, hQ⟩
    exact ⟨w, cs, rfl, hQ⟩
  · rintro ⟨w, cs, rfl, hQ⟩
    exact ⟨w, _, cs, rfl, rfl, hQ⟩

theorem parses_giveUp : Parses (giveUp : Unflattening α) fun _ _ => False where
  latched := by simp [giveUp]
  accepts := by simp [giveUp]

/-- A check that does not look at the buffer. -/
theorem Parses.guarded {c : Prop} [Decidable c] (h : Parses r P) :
    Parses (if c then giveUp else r) fun a used => ¬c ∧ P a used := by
  split
  · next hc => exact parses_giveUp.congr fun _ _ => by simp [hc]
  · next hc => exact h.congr fun _ _ => by simp [hc]

/-- A check that enough bytes are left changes nothing, if what comes next
needs them anyway. -/
theorem Parses.require {n : ℕ} (h : Parses r P)
    (hlen : ∀ {a used}, P a used → n ≤ used.length) :
    Parses (do if (← numBytesAvailable) < n then giveUp else r) P where
  latched := by
    intro u a v hr hfailed
    obtain ⟨available, w, havailable, hr⟩ := bind_eq_some.mp hr
    obtain ⟨rfl, rfl⟩ : u.bytes.length = available ∧ u = w := by
      simpa [numBytesAvailable] using havailable
    split at hr
    · cases hr
    · exact h.latched hr hfailed
  accepts := by
    intro bytes a rest
    rw [bind_eq_some]
    constructor
    · rintro ⟨available, w, havailable, hr⟩
      obtain ⟨rfl, rfl⟩ : bytes.length = available ∧ ⟨bytes, false⟩ = w := by
        simpa [numBytesAvailable] using havailable
      split at hr
      · cases hr
      · exact h.accepts.mp hr
    · rintro ⟨used, rfl, hP⟩
      refine ⟨_, _, rfl, ?_⟩
      have henough : ¬(used ++ rest).length < n := by
        have := hlen hP
        simp only [List.length_append]
        omega
      rw [if_neg henough]
      exact h.accepts.mpr ⟨used, rfl, hP⟩

theorem parses_checkStatus : Parses checkStatus fun _ used => used = [] where
  latched := by
    intro u a v hr hfailed
    simp [checkStatus, hfailed] at hr
  accepts := by
    intro bytes a rest
    simp [checkStatus]

/-- A last look at the status of the reader. -/
theorem Parses.checked {g : α → β} (h : Parses r P) :
    Parses (do let a ← r; checkStatus; return g a) fun b used =>
      ∃ a, b = g a ∧ P a used := by
  refine (h.bind fun _ => parses_checkStatus.bind fun _ =>
    Parses.pure).congr fun b used => ?_
  constructor
  · rintro ⟨a, bs, _, rfl, hP, _, _, _, rfl, rfl, rfl, rfl⟩
    exact ⟨a, rfl, by simpa using hP⟩
  · rintro ⟨a, rfl, hP⟩
    exact ⟨a, used, [], by simp, hP, (), [], [], rfl, rfl, rfl, rfl⟩

/-- The bytes of a list of values, each in its own way. -/
inductive EachParsed (P : α → List UInt8 → Prop) :
    List α → List UInt8 → Prop where
  | nil : EachParsed P [] []
  | cons {a : α} {as : List α} {used rest : List UInt8} (head : P a used)
      (tail : EachParsed P as rest) : EachParsed P (a :: as) (used ++ rest)

theorem eachParsed_and {F : α → Prop} {as : List α} {bytes : List UInt8} :
    EachParsed (fun a used => F a ∧ P a used) as bytes ↔
      (∀ a ∈ as, F a) ∧ EachParsed P as bytes := by
  constructor
  · intro h
    induction h with
    | nil => exact ⟨by simp, .nil⟩
    | cons head _ ih =>
        exact ⟨List.forall_mem_cons.mpr ⟨head.1, ih.1⟩, .cons head.2 ih.2⟩
  · rintro ⟨hF, h⟩
    induction h with
    | nil => exact .nil
    | cons head _ ih =>
        obtain ⟨ha, has⟩ := List.forall_mem_cons.mp hF
        exact .cons ⟨ha, head⟩ (ih has)

theorem eachParsed_flatMap {g : α → List UInt8} (h : ∀ a, P a (g a))
    (as : List α) : EachParsed P as (as.flatMap g) := by
  induction as with
  | nil => exact .nil
  | cons a as ih =>
      rw [List.flatMap_cons]
      exact .cons (h a) ih

/-- Two ways of writing the values that never differ in length. -/
theorem EachParsed.length_eq {g : α → List UInt8} {as : List α}
    {bytes : List UInt8} (h : EachParsed P as bytes)
    (hlen : ∀ {a used}, P a used → used.length = (g a).length) :
    bytes.length = (as.flatMap g).length := by
  induction h with
  | nil => rfl
  | cons head _ ih =>
      rw [List.flatMap_cons, List.length_append, List.length_append, hlen head,
        ih]

theorem Parses.readMany (h : Parses r P) (n : ℕ) :
    Parses (readMany r n) fun as used => as.length = n ∧ EachParsed P as used := by
  induction n with
  | zero =>
      refine Parses.pure.congr fun as used => ?_
      constructor
      · rintro ⟨rfl, rfl⟩
        exact ⟨rfl, .nil⟩
      · rintro ⟨hlen, heach⟩
        cases heach with
        | nil => exact ⟨rfl, rfl⟩
        | cons => cases hlen
  | succ n ih =>
      refine (h.bind fun a => ih.bind fun as => Parses.pure).congr ?_
      intro as used
      constructor
      · rintro ⟨a, bs, cs, rfl, hP, as', ds, es, rfl, ⟨rfl, heach⟩, rfl, rfl⟩
        rw [List.append_nil]
        exact ⟨rfl, .cons hP heach⟩
      · rintro ⟨hlen, heach⟩
        cases heach with
        | nil => cases hlen
        | cons hP heach =>
            exact ⟨_, _, _, rfl, hP, _, _, [], (List.append_nil _).symm,
              ⟨Nat.succ.inj hlen, heach⟩, rfl, rfl⟩

/-! ### Whole buffers -/

/-- What is read from the start of a buffer, with the bytes that are left, if
the reader has not failed. -/
def unflatten (r : Unflattening α) (bytes : List UInt8) :
    Option (α × List UInt8) :=
  match r (.start bytes) with
  | some (a, u) => if u.failed then none else some (a, u.bytes)
  | none => none

theorem Parses.unflatten_iff (h : Parses r P) {bytes rest : List UInt8} {a : α} :
    unflatten r bytes = some (a, rest) ↔
      ∃ used, bytes = used ++ rest ∧ P a used := by
  rw [← h.accepts, unflatten, Unflattener.start]
  cases r ⟨bytes, false⟩ with
  | none => simp
  | some result =>
      obtain ⟨b, left, failed⟩ := result
      cases failed <;> simp

/-- A buffer that is read to its end is read by no proper prefix of it. -/
theorem Parses.unflatten_eq_none (h : Parses r P) {bytes more : List UInt8}
    {a : α} (hall : unflatten r (bytes ++ more) = some (a, []))
    (hmore : more ≠ []) : unflatten r bytes = none := by
  cases hsome : unflatten r bytes with
  | none => rfl
  | some result =>
      obtain ⟨b, rest⟩ := result
      obtain ⟨used, rfl, hP⟩ := h.unflatten_iff.mp hsome
      have hagain : unflatten r (used ++ rest ++ more) =
          some (b, rest ++ more) :=
        h.unflatten_iff.mpr ⟨used, by simp, hP⟩
      rw [hall] at hagain
      have hnil : [] = rest ++ more := by
        simpa using congrArg (Option.map Prod.snd) hagain
      exact absurd (List.append_eq_nil_iff.mp hnil.symm).2 hmore

end ByteFormat
