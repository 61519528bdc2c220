/-
# Hexadecimal spellings of octets

`bytes.hex()` writes two lower-case digits for each octet, `bytes.fromhex` reads
pairs of digits in either case and skips ASCII white space between the pairs.

* `fromHex?_of_toLower_eq_hex` : a text that is the hex of some octets up to the
  case of its digits reads back as these octets.
-/
import WpaCtrl.Text

namespace Text

/-! ## Digits -/

/-- The hexadecimal digits, in both cases. -/
def hexDigits : List Char := "0123456789abcdefABCDEF".toList

/-- Membership in the set of hexadecimal digits. -/
def isHexDigit (c : Char) : Bool := hexDigits.contains c

/-- The value of a hexadecimal digit. -/
def hexValue (c : Char) : ℕ :=
  if c.isDigit then c.toNat - 48 else if 'a' ≤ c then c.toNat - 87 else c.toNat - 55

/-- `int(digits, 16)` for a text of hexadecimal digits. -/
def hexNumber (digits : Text) : ℕ := digits.foldl (fun value c => value * 16 + hexValue c) 0

/-- What is known of a printed digit, for all sixteen of them. -/
theorem digitChar_spec : ∀ n < 16, isHexDigit n.digitChar = true ∧ hexValue n.digitChar = n ∧
    isPrintable n.digitChar = true ∧ n.digitChar ≠ '"' ∧ n.digitChar ≠ '\\' ∧
    n.digitChar ≠ 'P' ∧ isSpace n.digitChar = false := by decide

/-- A hexadecimal digit stands for its value in either case. -/
theorem hexDigit_of_toLower {c : Char} {n : ℕ} (hn : n < 16) (h : c.toLower = n.digitChar) :
    isHexDigit c = true ∧ hexValue c = n := by
  by_cases hc : c.isUpper = true
  · have hall : ∀ k < 26, ∀ m < 16, (Char.ofNat (65 + k)).toLower = m.digitChar →
        isHexDigit (Char.ofNat (65 + k)) = true ∧ hexValue (Char.ofNat (65 + k)) = m := by
      decide +kernel
    have hrange : 65 ≤ c.toNat ∧ c.toNat ≤ 90 := by
      simpa [Char.isUpper, UInt32.le_iff_toNat_le] using hc
    have hself : Char.ofNat (65 + (c.toNat - 65)) = c := by
      rw [Nat.add_sub_cancel' hrange.1, Char.ofNat_toNat]
    have := hall (c.toNat - 65) (by omega) n hn
    rw [hself] at this
    exact this h
  · rw [Char.toLower_eq_of_not_isUpper hc] at h
    rw [h]
    exact ⟨(digitChar_spec n hn).1, (digitChar_spec n hn).2.1⟩

/-- A hexadecimal digit is visible. -/
theorem isPrintable_of_isHexDigit {c : Char} (h : isHexDigit c = true) :
    isPrintable c = true ∧ c ≠ ' ' := by
  have hall : hexDigits.all (fun d => isPrintable d && d ≠ ' ') = true := by decide
  rw [isHexDigit, List.contains_eq_mem, decide_eq_true_eq] at h
  simpa using List.all_eq_true.mp hall c h

/-- A number printed in base sixteen is read back. -/
theorem hexNumber_toDigits (n : ℕ) : hexNumber (Nat.toDigits 16 n) = n := by
  induction n using Nat.strong_induction_on with
  | _ n ih =>
    have hdigit : ∀ m < 16, hexValue m.digitChar = m := fun m hm => (digitChar_spec m hm).2.1
    by_cases hsmall : n < 16
    · rw [Nat.toDigits_of_lt_base hsmall, hexNumber, List.foldl_cons, List.foldl_nil, hdigit n hsmall]
      omega
    · rw [Nat.toDigits_of_base_le (by decide) (by omega), hexNumber, List.foldl_append]
      show hexNumber (Nat.toDigits 16 (n / 16)) * 16 + hexValue (n % 16).digitChar = n
      rw [ih (n / 16) (by omega), hdigit _ (Nat.mod_lt _ (by decide))]
      omega

/-- It is printed in hexadecimal digits. -/
theorem isHexDigit_of_mem_toDigits {n : ℕ} {c : Char} (h : c ∈ Nat.toDigits 16 n) :
    isHexDigit c = true := by
  induction n using Nat.strong_induction_on with
  | _ n ih =>
    by_cases hsmall : n < 16
    · rw [Nat.toDigits_of_lt_base hsmall, List.mem_singleton] at h
      rw [h]
      exact (digitChar_spec n hsmall).1
    · rw [Nat.toDigits_of_base_le (by decide) (by omega), List.mem_append, List.mem_singleton] at h
      rcases h with h | rfl
      · exact ih (n / 16) (by omega) h
      · exact (digitChar_spec _ (Nat.mod_lt _ (by decide))).1

/-! ## `bytes.hex` and `bytes.fromhex` -/

/-- The two digits of an octet, as `%02x` prints them. -/
def hexOctet (b : UInt8) : Text := [Nat.digitChar (b.toNat / 16), Nat.digitChar (b.toNat % 16)]

/-- `octets.hex()`. -/
def hex (octets : Bytes) : Text := octets.flatMap hexOctet

/-- ASCII white space, which `bytes.fromhex` skips between octets. -/
def isAsciiSpace (c : Char) : Bool := [' ', '\t', '\n', '\x0b', '\x0c', '\r'].contains c

/-- `bytes.fromhex(text)`, with `none` for the `ValueError`. -/
def fromHex? : Text → Option Bytes
  | [] => some []
  | c :: text =>
    if isAsciiSpace c then fromHex? text
    else match text with
      | [] => none
      | d :: rest =>
        if isHexDigit c && isHexDigit d then
          (fromHex? rest).map (UInt8.ofNat (hexValue c * 16 + hexValue d) :: ·)
        else none

/-- A hexadecimal digit is no white space. -/
theorem isAsciiSpace_of_isHexDigit {c : Char} (h : isHexDigit c = true) :
    isAsciiSpace c = false := by
  rw [Bool.eq_false_iff]
  intro hspace
  simp only [isAsciiSpace, List.contains_eq_mem, decide_eq_true_eq, List.mem_cons,
    List.not_mem_nil, or_false] at hspace
  rcases hspace with rfl | rfl | rfl | rfl | rfl | rfl <;> exact absurd h (by decide)

/-- One pair of digits is one octet. -/
theorem fromHex?_cons_cons {c d : Char} (hc : isHexDigit c = true) (hd : isHexDigit d = true)
    (text : Text) : fromHex? (c :: d :: text) =
      (fromHex? text).map (UInt8.ofNat (hexValue c * 16 + hexValue d) :: ·) := by
  rw [fromHex?, if_neg (by simp [isAsciiSpace_of_isHexDigit hc])]
  simp only [hc, hd, Bool.and_self, if_true]

/-- An octet is its high digit times sixteen plus its low digit. -/
theorem octet_eq_digits (b : UInt8) : UInt8.ofNat (b.toNat / 16 * 16 + b.toNat % 16) = b := by
  rw [Nat.div_add_mod', UInt8.ofNat_toNat]

theorem length_hex (octets : Bytes) : (hex octets).length = 2 * octets.length := by
  induction octets with
  | nil => rfl
  | cons b octets ih =>
    rw [hex, List.flatMap_cons, List.length_append, ← hex, ih, List.length_cons]
    simp only [hexOctet, List.length_cons, List.length_nil]
    omega

/-- **Hex reads back in any mix of digit case.**  A text whose lower-case form is
the hex of `octets` consists of hexadecimal digits and is read as `octets`. -/
theorem fromHex?_of_toLower_eq_hex {octets : Bytes} :
    ∀ {text : Text}, text.map Char.toLower = hex octets →
      (∀ c ∈ text, isHexDigit c = true) ∧ fromHex? text = some octets := by
  induction octets with
  | nil =>
    intro text h
    rw [List.map_eq_nil_iff.mp h]
    exact ⟨by simp, rfl⟩
  | cons b octets ih =>
    intro text h
    rw [hex, List.flatMap_cons, ← hex, hexOctet] at h
    rcases text with _ | ⟨c, _ | ⟨d, text⟩⟩
    · simp at h
    · simp at h
    · simp only [List.map_cons, List.cons_append, List.nil_append, List.cons.injEq] at h
      have hb : b.toNat < 256 := b.toNat_lt
      obtain ⟨hc, hcv⟩ := hexDigit_of_toLower (by omega : b.toNat / 16 < 16) h.1
      obtain ⟨hd, hdv⟩ := hexDigit_of_toLower (by omega : b.toNat % 16 < 16) h.2.1
      obtain ⟨hall, hread⟩ := ih h.2.2
      refine ⟨?_, ?_⟩
      · simp only [List.mem_cons, forall_eq_or_imp]
        exact ⟨hc, hd, hall⟩
      · rw [fromHex?_cons_cons hc hd, hread, hcv, hdv, octet_eq_digits]
        rfl

/-- The digits of `bytes.hex` are in lower case already. -/
theorem map_toLower_hex (octets : Bytes) : (hex octets).map Char.toLower = hex octets := by
  have hall : ∀ n < 16, n.digitChar.toLower = n.digitChar := by decide
  induction octets with
  | nil => rfl
  | cons b octets ih =>
    have hb : b.toNat < 256 := b.toNat_lt
    rw [hex, List.flatMap_cons, List.map_append, ← hex, ih]
    simp only [hexOctet, List.map_cons, List.map_nil, hall (b.toNat / 16) (by omega),
      hall (b.toNat % 16) (by omega)]

end Text
