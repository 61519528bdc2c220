/-
# Python's `int(text)` and `str(n)`

`int` in base ten reads optional white space, an optional sign, decimal digits of
any script with single underscores between them, and optional white space again;
everything else is a `ValueError`.  The guard newer interpreters put on the number
of digits is a setting of the interpreter and not part of the reading.

The one fact the parsers rely on is the round trip `int?_ofInt`: what `str` or a C
`%d` prints is read back as the same integer.
-/
import WpaCtrl.Text

namespace Text

/-! ## Decimal digits -/

/-- The zero of every run of ten decimal digits (general category `Nd`). -/
def decimalZeros : List ℕ :=
  [0x30, 0x660, 0x6f0, 0x7c0, 0x966, 0x9e6, 0xa66, 0xae6, 0xb66, 0xbe6, 0xc66, 0xce6, 0xd66,
    0xde6, 0xe50, 0xed0, 0xf20, 0x1040, 0x1090, 0x17e0, 0x1810, 0x1946, 0x19d0, 0x1a80, 0x1a90,
    0x1b50, 0x1bb0, 0x1c40, 0x1c50, 0xa620, 0xa8d0, 0xa900, 0xa9d0, 0xa9f0, 0xaa50, 0xabf0,
    0xff10, 0x104a0, 0x10d30, 0x10d40, 0x11066, 0x110f0, 0x11136, 0x111d0, 0x112f0, 0x11450,
    0x114d0, 0x11650, 0x116c0, 0x116d0, 0x116da, 0x11730, 0x118e0, 0x11950, 0x11bf0, 0x11c50,
    0x11d50, 0x11da0, 0x11f50, 0x16130, 0x16a60, 0x16ac0, 0x16b50, 0x16d70, 0x1ccf0, 0x1d7ce,
    0x1d7d8, 0x1d7e2, 0x1d7ec, 0x1d7f6, 0x1e140, 0x1e2f0, 0x1e4f0, 0x1e5f1, 0x1e950, 0x1fbf0]

/-- The value of a decimal digit. -/
def decimalValue? (c : Char) : Option ℕ :=
  (decimalZeros.find? fun z => z ≤ c.toNat && c.toNat < z + 10).map (c.toNat - ·)

/-- The white space `int` skips at both ends: that of `isspace` but for the four
ASCII separators. -/
def isIntSpace (c : Char) : Bool := isSpace c && !(0x1c ≤ c.toNat && c.toNat ≤ 0x1f)

/-- The rest of a numeral, after the digits read so far have made `acc`.  An
underscore has to stand between two digits. -/
def digitsFrom (acc : ℕ) : Text → Option ℕ
  | [] => some acc
  | '_' :: c :: text => (decimalValue? c).bind fun d => digitsFrom (acc * 10 + d) text
  | c :: text => (decimalValue? c).bind fun d => digitsFrom (acc * 10 + d) text

/-- A numeral without its sign. -/
def numeral? : Text → Option ℕ
  | [] => none
  | c :: text => (decimalValue? c).bind fun d => digitsFrom d text

/-- A numeral after its sign has been read off. -/
def signed? : Text → Option ℤ
  | '-' :: text => (numeral? text).map fun n => -(n : ℤ)
  | '+' :: text => (numeral? text).map fun n => (n : ℤ)
  | text => (numeral? text).map fun n => (n : ℤ)

/-- `int(text)`, with `none` for the `ValueError`. -/
def int? (text : Text) : Option ℤ := signed? (stripBy isIntSpace text)

/-- `str(n)` of a natural number. -/
def ofNat (n : ℕ) : Text := Nat.toDigits 10 n

/-- `str(n)`. -/
def ofInt : ℤ → Text
  | .ofNat n => ofNat n
  | .negSucc n => '-' :: ofNat (n + 1)

example : int? " -42\n".toList = some (-42) := by decide

example : int? "4_2".toList = some 42 ∧ int? "4__2".toList = none := by decide

/-! ## What is printed is read back -/

/-- An ASCII digit has its usual value. -/
theorem decimalValue?_of_isDigit {c : Char} (h : c.isDigit = true) :
    decimalValue? c = some (c.toNat - '0'.toNat) := by
  rw [Char.isDigit_iff_toNat] at h
  have hfind : (decimalZeros.find? fun z => z ≤ c.toNat && c.toNat < z + 10)
      = some 0x30 := by
    rw [decimalZeros, List.find?_cons_of_pos]
    simp only [Char.reduceToNat] at h
    simp only [Bool.and_eq_true, decide_eq_true_eq]
    omega
  rw [decimalValue?, hfind]
  rfl

theorem isDigit_of_mem_ofNat {n : ℕ} {c : Char} (h : c ∈ ofNat n) : c.isDigit = true :=
  Nat.isDigit_of_mem_toDigits (by decide) (by decide) h

/-- ASCII digits are accumulated as the standard library accumulates them. -/
theorem digitsFrom_of_isDigit {text : Text} (h : ∀ c ∈ text, c.isDigit = true) (acc : ℕ) :
    digitsFrom acc text = some (Nat.ofDigitChars 10 text acc) := by
  induction text generalizing acc with
  | nil => rfl
  | cons c text ih =>
    have hc : c.isDigit = true := h c (by simp)
    have hne : c ≠ '_' := by rintro rfl; simp at hc
    rw [digitsFrom, decimalValue?_of_isDigit hc, Option.bind_some,
      ih (fun d hd => h d (by simp [hd])), Nat.ofDigitChars_cons, Nat.mul_comm]
    exact fun _ _ h' => absurd h' hne

/-- A numeral is read back as the number it was printed from. -/
theorem numeral?_ofNat (n : ℕ) : numeral? (ofNat n) = some n := by
  have hdigits : ∀ c ∈ ofNat n, c.isDigit = true := fun c hc => isDigit_of_mem_ofNat hc
  have hvalue : Nat.ofDigitChars 10 (ofNat n) 0 = n := Nat.ofDigitChars_ten_toDigits
  rcases hn : ofNat n with _ | ⟨c, text⟩
  · exact absurd hn Nat.toDigits_ne_nil
  · rw [hn] at hdigits hvalue
    rw [numeral?, decimalValue?_of_isDigit (hdigits c (by simp)), Option.bind_some,
      digitsFrom_of_isDigit (fun d hd => hdigits d (by simp [hd]))]
    rw [Nat.ofDigitChars_cons, Nat.mul_zero, Nat.zero_add] at hvalue
    rw [hvalue]

/-- The characters of a printed integer are digits and the minus sign. -/
theorem mem_ofInt {n : ℤ} {c : Char} (h : c ∈ ofInt n) : c = '-' ∨ c.isDigit = true := by
  cases n with
  | ofNat n => exact Or.inr (isDigit_of_mem_ofNat h)
  | negSucc n =>
    rcases List.mem_cons.mp h with h | h
    · exact Or.inl h
    · exact Or.inr (isDigit_of_mem_ofNat h)

/-- Nothing else is printed of it. -/
theorem notMem_ofInt {c : Char} (hminus : c ≠ '-') (hdigit : c.isDigit = false) (n : ℤ) :
    c ∉ ofInt n := by
  intro hc
  rcases mem_ofInt hc with h | h
  · exact hminus h
  · rw [hdigit] at h
    cases h

/-- A printed integer is printable ASCII. -/
theorem isPrintable_of_mem_ofInt {n : ℤ} {c : Char} (h : c ∈ ofInt n) :
    isPrintable c = true ∧ c ≠ ' ' := by
  rcases mem_ofInt h with rfl | hc
  · decide
  · rw [Char.isDigit_iff_toNat] at hc
    simp only [Char.reduceToNat] at hc
    refine ⟨by simp only [isPrintable, Bool.and_eq_true, decide_eq_true_eq]; omega, ?_⟩
    rintro rfl
    simp at hc

theorem ofInt_ne_nil (n : ℤ) : ofInt n ≠ [] := by
  cases n with
  | ofNat n => exact Nat.toDigits_ne_nil
  | negSucc n => exact List.cons_ne_nil _ _

/-- Printable ASCII other than the space is no white space. -/
theorem isSpace_of_isPrintable {c : Char} (h : isPrintable c = true) (hne : c ≠ ' ') :
    isSpace c = false := by
  rw [Bool.eq_false_iff]
  intro hc
  simp only [isSpace, whiteSpace, List.contains_eq_mem, decide_eq_true_eq, List.mem_cons,
    List.not_mem_nil, or_false] at hc
  rcases hc with rfl | rfl | rfl | rfl | rfl | rfl | rfl | rfl | rfl | rfl | rfl | rfl | rfl |
    rfl | rfl | rfl | rfl | rfl | rfl | rfl | rfl | rfl | rfl | rfl | rfl | rfl | rfl | rfl |
    rfl <;> simp [isPrintable] at h hne

/-- **The round trip of integers.**  `int` reads back what `str` prints. -/
theorem int?_ofInt (n : ℤ) : int? (ofInt n) = some n := by
  have hstrip : stripBy isIntSpace (ofInt n) = ofInt n := stripBy_of_forall fun c hc => by
    rw [isIntSpace, isSpace_of_isPrintable (isPrintable_of_mem_ofInt hc).1
      (isPrintable_of_mem_ofInt hc).2, Bool.false_and]
  rw [int?, hstrip]
  cases n with
  | ofNat n =>
    have hdigits : ∀ c ∈ ofNat n, c.isDigit = true := fun c hc => isDigit_of_mem_ofNat hc
    rw [ofInt, signed?, numeral?_ofNat]
    · rfl
    · intro text h
      simp [h] at hdigits
    · intro text h
      simp [h] at hdigits
  | negSucc n =>
    rw [ofInt, signed?, numeral?_ofNat]
    rfl

/-- Different integers are printed differently. -/
theorem ofInt_injective : Function.Injective ofInt := fun m n h => by
  have hread := congrArg int? h
  rw [int?_ofInt, int?_ofInt] at hread
  exact Option.some.inj hread

end Text
