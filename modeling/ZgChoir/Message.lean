import ZgChoir.Hashtable
import ZgChoir.Muscle

/-!
# MUSCLE messages

A message is a what-code and a table of named fields, in the order in which
the fields came to be; a field is a list of values, all of one type.  Adding
a value appends it to its field, and makes the field if need be; the `cAdd`
methods leave out a value that the reader takes for granted anyway.

Field names are a type of their own, so that each protocol says which names
it uses.  `P` is the type of the messages inside a message.
-/

namespace ZgChoir

/-- A 32-bit number is not negative when its highest bit is not set. -/
theorem zero_le_toInt32_iff {n : UInt32} :
    (0 : Int32) ≤ n.toInt32 ↔ n < 2147483648 := by
  have hint : n.toInt32.toInt = n.toBitVec.toInt := rfl
  have hzero : Int32.toInt 0 = 0 := rfl
  have hbound : UInt32.toNat 2147483648 = 2147483648 := rfl
  have hnat : n.toNat = n.toBitVec.toNat := rfl
  have hlt := n.toBitVec.isLt
  rw [Int32.le_iff_toInt_le, hint, hzero, UInt32.lt_iff_toNat_lt, hbound,
    BitVec.toInt_eq_toNat_cond]
  split <;> omega

/-- The type code of a field. -/
inductive FieldType where
  | string
  | int32
  | message
  | flat
  deriving DecidableEq

/-- One value of a field. -/
inductive FieldValue (P : Type) where
  | string (text : String)
  | int32 (number : Int32)
  | message (msg : P)
  | flat (flags : TreeGatewayFlags)
  deriving DecidableEq

/-- The type of a value. -/
def FieldValue.type {P : Type} : FieldValue P → FieldType
  | .string _ => .string
  | .int32 _ => .int32
  | .message _ => .message
  | .flat _ => .flat

/-- A field: at least one value, and all of one type. -/
structure MessageField (P : Type) where
  type : FieldType
  values : List (FieldValue P)
  nonempty : values ≠ []
  typed : ∀ v ∈ values, v.type = type

namespace MessageField

variable {P : Type}

/-- The field that `v` makes. -/
def singleton (v : FieldValue P) : MessageField P where
  type := v.type
  values := [v]
  nonempty := List.cons_ne_nil v []
  typed := by simp

/-- The field with `v` after its values. -/
def push (f : MessageField P) (v : FieldValue P) (h : v.type = f.type) :
    MessageField P where
  type := f.type
  values := f.values ++ [v]
  nonempty := by simp
  typed := by
    intro w hw
    rcases List.mem_append.mp hw with hw | hw
    · exact f.typed w hw
    · obtain rfl : w = v := by simpa using hw
      exact h

/-- The field with `v` in place of one of its values. -/
def set (f : MessageField P) (i : ℕ) (v : FieldValue P) (h : v.type = f.type) :
    MessageField P where
  type := f.type
  values := f.values.set i v
  nonempty := by
    rw [ne_eq, ← List.length_eq_zero_iff, List.length_set,
      List.length_eq_zero_iff]
    exact f.nonempty
  typed := by
    intro w hw
    rcases List.mem_or_eq_of_mem_set hw with hw | rfl
    · exact f.typed w hw
    · exact h

end MessageField

/-- A MUSCLE message with field names in `κ`. -/
structure Message (κ P : Type) where
  what : UInt32
  fields : Hashtable κ (MessageField P)

namespace Message

variable {κ P : Type} [DecidableEq κ]

/-- `GetMessageFromPool`: a message without fields. -/
def ofWhat (what : UInt32) : Message κ P := ⟨what, Hashtable.empty⟩

/-- The values of a field, none if there is no such field. -/
def valuesOf (m : Message κ P) (name : κ) : List (FieldValue P) :=
  match m.fields.get? name with
  | some field => field.values
  | none => []

/-- Add a value to a field. -/
def add (m : Message κ P) (name : κ) (v : FieldValue P) :
    Except Status (Message κ P) :=
  match m.fields.get? name with
  | none => .ok { m with fields := m.fields.put name (.singleton v) }
  | some field =>
      if h : v.type = field.type then
        .ok { m with fields := m.fields.put name (field.push v h) }
      else .error (.other "Type Mismatch")

/-- `AddString` -/
def addString (m : Message κ P) (name : κ) (text : String) :=
  m.add name (.string text)

/-- `AddInt32` -/
def addInt32 (m : Message κ P) (name : κ) (number : Int32) :=
  m.add name (.int32 number)

/-- `AddMessage`, with a reference that may be null. -/
def addMessage (m : Message κ P) (name : κ) : Option P →
    Except Status (Message κ P)
  | some msg => m.add name (.message msg)
  | none => .error .badArgument

/-- `CAddString` -/
def cAddString (m : Message κ P) (name : κ) (text : String) :
    Except Status (Message κ P) :=
  if text = "" then .ok m else m.addString name text

/-- `CAddInt32` -/
def cAddInt32 (m : Message κ P) (name : κ) (number defaultValue : Int32) :
    Except Status (Message κ P) :=
  if number = defaultValue then .ok m else m.addInt32 name number

/-- `CAddMessage`, and `CAddArchiveMessage` with the archive made. -/
def cAddMessage (m : Message κ P) (name : κ) : Option P →
    Except Status (Message κ P)
  | some msg => m.add name (.message msg)
  | none => .ok m

/-- `CAddFlat`, for flags. -/
def cAddFlat (m : Message κ P) (name : κ) (flags : TreeGatewayFlags) :
    Except Status (Message κ P) :=
  if flags = {} then .ok m else m.add name (.flat flags)

/-- `GetNumNames` -/
def numNames (m : Message κ P) : ℕ := m.fields.keys.length

/-- `IndexOfName`, where -1 is `none`. -/
def indexOfName (m : Message κ P) (name : κ) : Option ℕ :=
  if name ∈ m.fields.keys then some (m.fields.keys.idxOf name) else none

/-- `HasName`, for a type. -/
def hasName (m : Message κ P) (name : κ) (type : FieldType) : Bool :=
  match m.fields.get? name with
  | some field => field.type = type
  | none => false

/-- `GetInfo`: the number of values of a field. -/
def numValues (m : Message κ P) (name : κ) : ℕ := (m.valuesOf name).length

/-- `RemoveName` -/
def removeName (m : Message κ P) (name : κ) : Message κ P :=
  { m with fields := m.fields.remove name }

/-- `ReplaceInt32`, which may add. -/
def replaceInt32 (m : Message κ P) (name : κ) (index : ℕ) (number : Int32) :
    Except Status (Message κ P) :=
  match m.fields.get? name with
  | some field =>
      if index < field.values.length then
        if h : (FieldValue.int32 number : FieldValue P).type = field.type then
          .ok { m with fields := m.fields.put name (field.set index _ h) }
        else .error (.other "Type Mismatch")
      else m.addInt32 name number
  | none => m.addInt32 name number

/-- What a loop of `RemoveData` and `ReplaceInt32` makes of a field: one
without a value left is gone. -/
def setInt32s (m : Message κ P) (name : κ) (numbers : List Int32) :
    Message κ P :=
  if h : numbers = [] then m.removeName name
  else
    { m with
      fields := m.fields.put name
        { type := .int32
          values := numbers.map .int32
          nonempty := by simpa using h
          typed := by simp [FieldValue.type] } }

/-- `FindString`, at an index. -/
def findString (m : Message κ P) (name : κ) (i : ℕ) : Option String :=
  match (m.valuesOf name)[i]? with
  | some (.string text) => some text
  | _ => none

/-- `FindInt32`, at an index. -/
def findInt32 (m : Message κ P) (name : κ) (i : ℕ) : Option Int32 :=
  match (m.valuesOf name)[i]? with
  | some (.int32 number) => some number
  | _ => none

/-- `FindMessage`, at an index. -/
def findMessage (m : Message κ P) (name : κ) (i : ℕ) : Option P :=
  match (m.valuesOf name)[i]? with
  | some (.message msg) => some msg
  | _ => none

/-- The values that a loop over `FindString` visits: it ends at the first
index at which there is no string. -/
def stringsIn : List (FieldValue P) → List String
  | .string text :: values => text :: stringsIn values
  | _ => []

/-- The same for `FindInt32`. -/
def int32sIn : List (FieldValue P) → List Int32
  | .int32 number :: values => number :: int32sIn values
  | _ => []

/-- The same for `FindMessage`. -/
def messagesIn : List (FieldValue P) → List P
  | .message msg :: values => msg :: messagesIn values
  | _ => []

/-- The strings of a field. -/
def findStrings (m : Message κ P) (name : κ) : List String :=
  stringsIn (m.valuesOf name)

/-- `GetStringReference` and `GetString`: the empty string by default. -/
def getString (m : Message κ P) (name : κ) (i : ℕ) : String :=
  (m.findString name i).getD ""

/-- `GetInt32` -/
def getInt32 (m : Message κ P) (name : κ) (defaultValue : Int32) (i : ℕ) :
    Int32 :=
  (m.findInt32 name i).getD defaultValue

/-- `GetMessage`: a null reference by default. -/
def getMessage (m : Message κ P) (name : κ) : Option P :=
  m.findMessage name 0

/-- `GetFlat`, for flags: none of them by default. -/
def getFlat (m : Message κ P) (name : κ) : TreeGatewayFlags :=
  match (m.valuesOf name).head? with
  | some (.flat flags) => flags
  | _ => {}

variable {m m' : Message κ P} {name : κ} {v : FieldValue P}

omit [DecidableEq κ] in
@[simp] theorem what_ofWhat {what : UInt32} :
    (ofWhat what : Message κ P).what = what := rfl

@[simp] theorem valuesOf_ofWhat {what : UInt32} :
    (ofWhat what : Message κ P).valuesOf = fun _ => [] := rfl

/-- `m'` is `m` with some values after those of a field. -/
def Extends (m m' : Message κ P) (name : κ) (values : List (FieldValue P)) :
    Prop :=
  m'.what = m.what ∧
    m'.valuesOf = Function.update m.valuesOf name (m.valuesOf name ++ values)

theorem extends_nil : Extends m m name [] := by
  simp [Extends]

/-- What an addition that succeeds does. -/
theorem add_eq_ok (h : m.add name v = .ok m') : Extends m m' name [v] := by
  have hvalues : ∀ field : MessageField P,
      field.values = m.valuesOf name ++ [v] →
      Message.valuesOf ⟨m.what, m.fields.put name field⟩ =
        Function.update m.valuesOf name (m.valuesOf name ++ [v]) := by
    intro field hfield
    funext other
    by_cases hother : other = name
    · simp [valuesOf, hother, hfield]
    · simp [valuesOf, hother]
  cases hget : m.fields.get? name with
  | none =>
      simp only [add, hget, Except.ok.injEq] at h
      subst h
      exact ⟨rfl, hvalues _ (by simp [valuesOf, hget, MessageField.singleton])⟩
  | some field =>
      simp only [add, hget] at h
      split at h
      · simp only [Except.ok.injEq] at h
        subst h
        exact ⟨rfl, hvalues _ (by simp [valuesOf, hget, MessageField.push])⟩
      · cases h

/-- A field that is there has a value. -/
theorem mem_keys_iff : name ∈ m.fields.keys ↔ m.valuesOf name ≠ [] := by
  rw [← Hashtable.isSome_get?, valuesOf]
  cases m.fields.get? name with
  | none => simp
  | some field => simpa using field.nonempty

/-- What is held under a name are its values. -/
theorem valuesOf_of_mem {e : κ × MessageField P} (h : e ∈ m.fields.entries) :
    m.valuesOf e.1 = e.2.values := by
  simp only [valuesOf, Hashtable.get?_eq_some_iff.mpr h]

/-- The names when one is used once more: a new one comes last. -/
def withName (names : List κ) (name : κ) : List κ :=
  if name ∈ names then names else names ++ [name]

theorem withName_of_mem {names : List κ} (h : name ∈ names) :
    withName names name = names := if_pos h

theorem withName_of_notMem {names : List κ} (h : name ∉ names) :
    withName names name = names ++ [name] := if_neg h

theorem keys_put {field : MessageField P} :
    (m.fields.put name field).keys = withName m.fields.keys name := by
  by_cases h : name ∈ m.fields.keys
  · rw [withName_of_mem h, Hashtable.keys_put_of_mem h]
  · rw [withName_of_notMem h, Hashtable.keys_put_of_notMem h]

theorem keys_of_add (h : m.add name v = .ok m') :
    m'.fields.keys = withName m.fields.keys name := by
  unfold add at h
  split at h
  · obtain rfl := Except.ok.inj h
    exact keys_put
  · split at h
    · obtain rfl := Except.ok.inj h
      exact keys_put
    · cases h

/-- An addition fails for the type of its value only. -/
theorem exists_add_eq_ok (h : ∀ w ∈ m.valuesOf name, w.type = v.type) :
    ∃ m', m.add name v = .ok m' := by
  unfold add
  cases hget : m.fields.get? name with
  | none => exact ⟨_, rfl⟩
  | some field =>
      have htype : v.type = field.type := by
        obtain ⟨w, hw⟩ := List.exists_mem_of_ne_nil _ field.nonempty
        have hvalues : m.valuesOf name = field.values := by
          simp only [valuesOf, hget]
        rw [← h w (hvalues ▸ hw), field.typed w hw]
      simp only [dif_pos htype]
      exact ⟨_, rfl⟩

/-- The values of a field have been made from something, all as one type. -/
theorem exists_add_of_map {α : Type} {xs : List α} {f : α → FieldValue P}
    (h : m.valuesOf name = xs.map f) (htype : ∀ x, (f x).type = v.type) :
    ∃ m', m.add name v = .ok m' := by
  apply exists_add_eq_ok
  rw [h]
  intro w hw
  obtain ⟨x, -, rfl⟩ := List.mem_map.mp hw
  exact htype x

@[simp] theorem valuesOf_removeName :
    (m.removeName name).valuesOf = Function.update m.valuesOf name [] := by
  funext other
  by_cases hother : other = name
  · simp [removeName, valuesOf, hother]
  · simp [removeName, valuesOf, hother]

theorem valuesOf_setInt32s {numbers : List Int32} :
    (m.setInt32s name numbers).valuesOf =
      Function.update m.valuesOf name (numbers.map .int32) := by
  unfold setInt32s
  split
  · next h =>
    rw [valuesOf_removeName, h, List.map_nil]
  · funext other
    by_cases hother : other = name
    · simp [valuesOf, hother]
    · simp [valuesOf, hother]

/-- Behind the last value, a replacement is an addition. -/
theorem replaceInt32_of_le {number : Int32} {index : ℕ}
    (h : m.numValues name ≤ index) :
    m.replaceInt32 name index number = m.addInt32 name number := by
  unfold replaceInt32
  cases hget : m.fields.get? name with
  | none => rfl
  | some field =>
      have hlength : field.values.length ≤ index := by
        simpa only [numValues, valuesOf, hget] using h
      simp only [if_neg (Nat.not_lt.mpr hlength)]

/-! ## What a conditional addition leaves in a field -/

/-- The values that `cAddString` adds. -/
def optString (text : String) : List (FieldValue P) :=
  if text = "" then [] else [.string text]

/-- The values that `cAddInt32` adds. -/
def optInt32 (number defaultValue : Int32) : List (FieldValue P) :=
  if number = defaultValue then [] else [.int32 number]

/-- The values that `cAddMessage` adds. -/
def optMessage (msg : Option P) : List (FieldValue P) :=
  msg.toList.map .message

/-- The values that `cAddFlat` adds. -/
def optFlat (flags : TreeGatewayFlags) : List (FieldValue P) :=
  if flags = {} then [] else [.flat flags]

variable {text : String} {number defaultValue : Int32} {msg : Option P}
  {flags : TreeGatewayFlags}

/-- A conditional addition that succeeds has added its value or nothing. -/
theorem ite_add_eq_ok {c : Prop} [Decidable c]
    (h : (if c then .ok m else m.add name v) = .ok m') :
    Extends m m' name (if c then [] else [v]) := by
  split at h
  · obtain rfl : m = m' := by simpa using h
    rw [if_pos ‹_›]
    exact extends_nil
  · rw [if_neg ‹_›]
    exact add_eq_ok h

theorem cAddString_eq_ok (h : m.cAddString name text = .ok m') :
    Extends m m' name (optString text) := ite_add_eq_ok h

theorem cAddInt32_eq_ok (h : m.cAddInt32 name number defaultValue = .ok m') :
    Extends m m' name (optInt32 number defaultValue) := ite_add_eq_ok h

theorem cAddMessage_eq_ok (h : m.cAddMessage name msg = .ok m') :
    Extends m m' name (optMessage msg) := by
  cases msg with
  | none =>
      obtain rfl : m = m' := by simpa [cAddMessage] using h
      exact extends_nil
  | some msg => exact add_eq_ok h

theorem addMessage_eq_ok (h : m.addMessage name msg = .ok m') :
    Extends m m' name (optMessage msg) := by
  cases msg with
  | none => cases h
  | some msg => exact add_eq_ok h

theorem cAddFlat_eq_ok (h : m.cAddFlat name flags = .ok m') :
    Extends m m' name (optFlat flags) := ite_add_eq_ok h

/-- The message has this what-code, and these values have been added to it,
field by field. -/
structure Built (what : UInt32) (parts : List (κ × List (FieldValue P)))
    (m : Message κ P) : Prop where
  what_eq : m.what = what
  valuesOf_eq (name : κ) : m.valuesOf name =
    parts.flatMap fun part => if part.1 = name then part.2 else []

theorem built_ofWhat {what : UInt32} :
    Built what [] (ofWhat what : Message κ P) :=
  ⟨rfl, fun _ => rfl⟩

/-- One more addition. -/
theorem Built.push {what : UInt32} {parts : List (κ × List (FieldValue P))}
    {values : List (FieldValue P)} (h : Built what parts m)
    (hextends : Extends m m' name values) :
    Built what (parts ++ [(name, values)]) m' := by
  obtain ⟨hwhat, hvalues⟩ := hextends
  refine ⟨hwhat.trans h.what_eq, fun other => ?_⟩
  rw [hvalues, List.flatMap_append, ← h.valuesOf_eq]
  by_cases hother : other = name
  · simp [hother]
  · simp [hother, Ne.symm hother]

/-! An addition to a field that is not there yet cannot fail. -/

section Fresh

variable {what : UInt32} {parts : List (κ × List (FieldValue P))}

/-- Nothing has been added to a field that is not among the parts. -/
theorem Built.valuesOf_of_notMem (h : Built what parts m)
    (hname : name ∉ parts.map Prod.fst) : m.valuesOf name = [] := by
  rw [h.valuesOf_eq, List.flatMap_eq_nil_iff]
  intro part hpart
  have hother : part.1 ≠ name := fun heq =>
    hname (heq ▸ List.mem_map_of_mem hpart)
  simp [hother]

theorem Built.exists_add (h : Built what parts m)
    (hname : name ∉ parts.map Prod.fst) :
    ∃ m', m.add name v = .ok m' ∧ Built what (parts ++ [(name, [v])]) m' := by
  have hfresh : ∀ w ∈ m.valuesOf name, w.type = v.type := by
    simp [h.valuesOf_of_notMem hname]
  obtain ⟨m', hm'⟩ := exists_add_eq_ok hfresh
  exact ⟨m', hm', h.push (add_eq_ok hm')⟩

theorem Built.exists_ite_add {c : Prop} [Decidable c] (h : Built what parts m)
    (hname : name ∉ parts.map Prod.fst) :
    ∃ m', (if c then .ok m else m.add name v) = .ok m' ∧
      Built what (parts ++ [(name, if c then [] else [v])]) m' := by
  split
  · exact ⟨m, rfl, h.push extends_nil⟩
  · exact h.exists_add hname

theorem Built.exists_cAddString (h : Built what parts m)
    (hname : name ∉ parts.map Prod.fst) :
    ∃ m', m.cAddString name text = .ok m' ∧
      Built what (parts ++ [(name, optString text)]) m' :=
  h.exists_ite_add hname

theorem Built.exists_cAddInt32 (h : Built what parts m)
    (hname : name ∉ parts.map Prod.fst) :
    ∃ m', m.cAddInt32 name number defaultValue = .ok m' ∧
      Built what (parts ++ [(name, optInt32 number defaultValue)]) m' :=
  h.exists_ite_add hname

theorem Built.exists_cAddFlat (h : Built what parts m)
    (hname : name ∉ parts.map Prod.fst) :
    ∃ m', m.cAddFlat name flags = .ok m' ∧
      Built what (parts ++ [(name, optFlat flags)]) m' :=
  h.exists_ite_add hname

theorem Built.exists_cAddMessage (h : Built what parts m)
    (hname : name ∉ parts.map Prod.fst) :
    ∃ m', m.cAddMessage name msg = .ok m' ∧
      Built what (parts ++ [(name, optMessage msg)]) m' := by
  cases msg with
  | none => exact ⟨m, rfl, h.push extends_nil⟩
  | some msg => exact h.exists_add hname

/-- A reference that is not null is added. -/
theorem Built.exists_addMessage (h : Built what parts m)
    (hname : name ∉ parts.map Prod.fst) (hmsg : msg.isSome = true) :
    ∃ m', m.addMessage name msg = .ok m' ∧
      Built what (parts ++ [(name, optMessage msg)]) m' := by
  obtain ⟨msg, rfl⟩ := Option.isSome_iff_exists.mp hmsg
  exact h.exists_add hname

/-- A null reference is not. -/
theorem isSome_of_addMessage (h : m.addMessage name msg = .ok m') :
    msg.isSome = true := by
  cases msg with
  | none => cases h
  | some msg => rfl

end Fresh

/-! Whatever has been left out is read as the default. -/

theorem getString_of_values (h : m.valuesOf name = optString text) :
    m.getString name 0 = text := by
  by_cases htext : text = ""
  · simp [getString, findString, h, optString, htext]
  · simp [getString, findString, h, optString, htext]

theorem getInt32_of_values
    (h : m.valuesOf name = optInt32 number defaultValue) :
    m.getInt32 name defaultValue 0 = number := by
  by_cases hnumber : number = defaultValue
  · simp [getInt32, findInt32, h, optInt32, hnumber]
  · simp [getInt32, findInt32, h, optInt32, hnumber]

theorem getMessage_of_values (h : m.valuesOf name = optMessage msg) :
    m.getMessage name = msg := by
  cases msg <;> simp [getMessage, findMessage, h, optMessage]

theorem getFlat_of_values (h : m.valuesOf name = optFlat flags) :
    m.getFlat name = flags := by
  by_cases hflags : flags = {}
  · simp [getFlat, h, optFlat, hflags]
  · simp [getFlat, h, optFlat, hflags]

/-! A field of one type is read as a whole. -/

omit [DecidableEq κ] in
@[simp] theorem stringsIn_map {texts : List String} :
    stringsIn (texts.map (.string : String → FieldValue P)) = texts := by
  induction texts with
  | nil => rfl
  | cons text texts ih => simpa [stringsIn] using ih

omit [DecidableEq κ] in
@[simp] theorem int32sIn_map {numbers : List Int32} :
    int32sIn (numbers.map (.int32 : Int32 → FieldValue P)) = numbers := by
  induction numbers with
  | nil => rfl
  | cons number numbers ih => simpa [int32sIn] using ih

omit [DecidableEq κ] in
@[simp] theorem messagesIn_map {msgs : List P} :
    messagesIn (msgs.map (.message : P → FieldValue P)) = msgs := by
  induction msgs with
  | nil => rfl
  | cons msg msgs ih => simpa [messagesIn] using ih

theorem findStrings_of_values {texts : List String}
    (h : m.valuesOf name = texts.map .string) :
    m.findStrings name = texts := by
  rw [findStrings, h, stringsIn_map]

theorem getString_of_strings {texts : List String} {i : ℕ}
    (h : m.valuesOf name = texts.map .string) :
    m.getString name i = texts.getD i "" := by
  rw [getString, findString, h, List.getElem?_map, List.getD_eq_getElem?_getD]
  cases texts[i]? <;> rfl

theorem getInt32_of_int32s {numbers : List Int32} {i : ℕ}
    (h : m.valuesOf name = numbers.map .int32) :
    m.getInt32 name defaultValue i = numbers.getD i defaultValue := by
  rw [getInt32, findInt32, h, List.getElem?_map, List.getD_eq_getElem?_getD]
  cases numbers[i]? <;> rfl

theorem hasName_of_typed {type : FieldType}
    (h : ∀ w ∈ m.valuesOf name, w.type = type) :
    m.hasName name type = true ↔ m.valuesOf name ≠ [] := by
  unfold hasName
  cases hget : m.fields.get? name with
  | none => simp [valuesOf, hget]
  | some field =>
      have hvalues : m.valuesOf name = field.values := by
        simp only [valuesOf, hget]
      obtain ⟨w, hw⟩ := List.exists_mem_of_ne_nil _ field.nonempty
      have htype : field.type = type := by
        rw [← field.typed w hw, h w (hvalues ▸ hw)]
      simp [hvalues, htype, field.nonempty]

/-- Peel a successful sequence of additions apart. -/
theorem bind_eq_ok {α β : Type} {x : Except Status α} {f : α → Except Status β}
    {b : β} : (x >>= f) = .ok b ↔ ∃ a, x = .ok a ∧ f a = .ok b := by
  cases x with
  | error e => exact ⟨nofun, nofun⟩
  | ok a => exact ⟨fun h => ⟨a, rfl, h⟩, fun ⟨_, ha, h⟩ => by cases ha; exact h⟩

/-- Only the success of the last addition is asked for. -/
theorem exists_eq_ok {α : Type} {x : Except Status α} {p : α → Prop}
    (hx : ∃ a, x = .ok a ∧ p a) : ∃ a, x = .ok a :=
  hx.imp fun _ h => h.1

/-- A sequence of additions succeeds when its first one does, and the others
do after it. -/
theorem exists_bind_eq_ok {α β : Type} {x : Except Status α} {p : α → Prop}
    {f : α → Except Status β} (hx : ∃ a, x = .ok a ∧ p a)
    (hf : ∀ a, p a → ∃ b, f a = .ok b) : ∃ b, (x >>= f) = .ok b := by
  obtain ⟨a, ha, hpa⟩ := hx
  obtain ⟨b, hb⟩ := hf a hpa
  exact ⟨b, bind_eq_ok.mpr ⟨a, ha, hb⟩⟩

end Message

end ZgChoir
