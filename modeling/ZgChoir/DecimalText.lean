import Mathlib

/-!
# Numbers in text

C's `strtol` in base ten, on a platform with 64-bit longs: white space, a
sign, then as many digits as there are; a number out of range is the nearest
one in range.  What the formatted output of a natural number is read as
follows from the lemmas about `Nat.toDigits`.
-/

namespace DecimalText

/-- `isspace`, in the C locale. -/
def isSpace (c : Char) : Bool :=
  c.toNat = 32 || (9 ≤ c.toNat && c.toNat ≤ 13)

/-- The digits are 48 to 57. -/
theorem toNat_of_isDigit {c : Char} (h : c.isDigit = true) :
    48 ≤ c.toNat ∧ c.toNat ≤ 57 := by
  simpa [Char.isDigit, UInt32.le_iff_toNat_le] using h

/-- The number that the digits at the beginning of a text make. -/
def leadingNumber (text : List Char) : ℕ :=
  Nat.ofDigitChars 10 (text.takeWhile Char.isDigit) 0

/-- `strtol`, `atol` -/
def strtol (text : List Char) : ℤ :=
  match text.dropWhile isSpace with
  | '-' :: digits => max (-9223372036854775808) (-leadingNumber digits)
  | '+' :: digits => min 9223372036854775807 (leadingNumber digits)
  | digits => min 9223372036854775807 (leadingNumber digits)

/-- `atoi`: the long, cut to 32 bits. -/
def atoi (text : List Char) : Int32 := Int32.ofInt (strtol text)

/-- `%i`: how a number is written. -/
def printInt : ℤ → List Char
  | .ofNat n => Nat.toDigits 10 n
  | .negSucc n => '-' :: Nat.toDigits 10 (n + 1)

variable {n : ℕ} {rest : List Char}

/-- The digits of a number end where something else begins. -/
theorem leadingNumber_toDigits (hrest : ∀ c, rest.head? = some c → c.isDigit = false) :
    leadingNumber (Nat.toDigits 10 n ++ rest) = n := by
  have hdigits : ∀ c ∈ Nat.toDigits 10 n, c.isDigit = true := fun c hc =>
    Nat.isDigit_of_mem_toDigits (by decide) (by decide) hc
  have hend : rest.takeWhile Char.isDigit = [] := by
    cases rest with
    | nil => rfl
    | cons c rest => simp [hrest c rfl]
  rw [leadingNumber, List.takeWhile_append_of_pos hdigits, hend,
    List.append_nil, Nat.ofDigitChars_ten_toDigits]

/-- A number that was written is read, if it fits. -/
theorem strtol_toDigits (hfits : n ≤ 9223372036854775807)
    (hrest : ∀ c, rest.head? = some c → c.isDigit = false) :
    strtol (Nat.toDigits 10 n ++ rest) = n := by
  have hlead := leadingNumber_toDigits (n := n) hrest
  cases hdigits : Nat.toDigits 10 n with
  | nil => exact absurd hdigits Nat.toDigits_ne_nil
  | cons d digits =>
      have hd : d.isDigit = true := Nat.isDigit_of_mem_toDigits (b := 10)
        (by decide) (by decide) (hdigits ▸ List.mem_cons_self)
      have hspace : isSpace d = false := by
        have hrange := toNat_of_isDigit hd
        simp [isSpace]
        omega
      have hminus : d ≠ '-' := by
        rintro rfl
        cases hd
      have hplus : d ≠ '+' := by
        rintro rfl
        cases hd
      rw [hdigits, List.cons_append] at hlead
      rw [List.cons_append, strtol, List.dropWhile_cons, hspace]
      simp [hminus, hplus, hlead, hfits]

/-- A number of 32 bits that was written is read as it is, up to the sign
that its highest bit becomes. -/
theorem toInt_atoi_toDigits (hfits : n < 4294967296)
    (hrest : ∀ c, rest.head? = some c → c.isDigit = false) :
    (atoi (Nat.toDigits 10 n ++ rest)).toInt =
      if n < 2147483648 then (n : ℤ) else n - 4294967296 := by
  have hsize : Int32.size = 4294967296 := rfl
  have hmod : (n : ℤ) % 4294967296 = n := Int.emod_eq_of_lt (by omega) (by omega)
  rw [atoi, strtol_toDigits (by omega) hrest, Int32.toInt_ofInt, hsize,
    Int.bmod_eq_emod]
  simp only [Nat.cast_ofNat, hmod]
  split <;> split <;> omega

end DecimalText
