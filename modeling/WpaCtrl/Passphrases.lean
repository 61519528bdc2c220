/-
# Passphrases (`is_passphrase`, `is_raw_psk`, `psk_value`)

A passphrase is checked by its characters and judged by its octets: the daemon measures
what stands between the quotes of the value it is sent, in UTF-8 and with the backslashes
`quote` put in.

* `betweenQuotes?_pskValue` : what the daemon takes for the passphrase;
* `isPassphrase_iff` : exactly when the check and the daemon agree.
-/
import WpaCtrl.Spellings

open Text

namespace WpaCtrl

/-! ## The secret and its wire form -/

/-- `PASSPHRASE_MIN_LENGTH`. -/
def passphraseMinLength : ℕ := 8

/-- `PASSPHRASE_MAX_LENGTH`. -/
def passphraseMaxLength : ℕ := 63

/-- `is_passphrase`. -/
def isPassphrase (secret : Text) : Bool :=
  passphraseMinLength ≤ secret.length && secret.length ≤ passphraseMaxLength

/-- `is_raw_psk`. -/
def isRawPsk (secret : Text) : Bool := secret.length = 64 && secret.all isHexDigit

/-- `psk_value`. -/
def pskValue (secret : Text) : Text := if isRawPsk secret then secret else quote secret

/-- What the daemon takes of a string variable: the literal octets between the first
quote, which opens the value, and the last one. -/
def betweenQuotes? : Bytes → Option Bytes
  | [] => none
  | octet :: octets =>
    if octet = 0x22 ∧ 0x22 ∈ octets then
      some (octets.reverse.dropWhile (· ≠ 0x22)).tail.reverse
    else none

/-- What is asked of the check: it holds exactly of the secrets whose quoted value has as
many octets as a WPA2 passphrase may have. -/
def PassphraseAgrees (secret : Text) : Prop :=
  isPassphrase secret = true ↔
    ∃ octets, betweenQuotes? (encode (pskValue secret)) = some octets ∧
      passphraseMinLength ≤ octets.length ∧ octets.length ≤ passphraseMaxLength

/-! ## What the daemon measures -/

theorem betweenQuotes?_quoted (body : Bytes) : betweenQuotes? (0x22 :: body ++ [0x22]) = some body := by
  rw [List.cons_append, betweenQuotes?, if_pos (by simp)]
  simp

/-- A raw key has 64 digits. -/
theorem isRawPsk_iff {secret : Text} :
    isRawPsk secret = true ↔ secret.length = 64 ∧ ∀ c ∈ secret, isHexDigit c = true := by
  rw [isRawPsk, Bool.and_eq_true, decide_eq_true_eq, List.all_eq_true]

/-- A raw key is sent without quotes. -/
theorem betweenQuotes?_raw {secret : Text} (h : isRawPsk secret = true) :
    betweenQuotes? (encode (pskValue secret)) = none := by
  rw [pskValue, if_pos h]
  obtain ⟨hlength, hdigits⟩ := isRawPsk_iff.mp h
  rcases secret with _ | ⟨c, secret⟩
  · simp at hlength
  · -- the first octet is a digit
    have hdigit := hdigits c (by simp)
    have hprint := (isPrintable_of_isHexDigit hdigit).1
    simp only [isPrintable, Bool.and_eq_true, decide_eq_true_eq] at hprint
    have hquote : UInt8.ofNat c.toNat ≠ 0x22 := by
      intro hquote
      obtain rfl : c = '"' := eq_of_ofNat_ascii (by omega) (by decide) hquote
      exact absurd hdigit (by decide)
    rw [encode_cons, utf8EncodeChar_of_ascii (by omega), List.singleton_append, betweenQuotes?,
      if_neg (fun hopen => hquote hopen.1)]

/-- How many octets a secret has on the wire: those of its UTF-8, and one backslash for
every quote and backslash. -/
def wireLength (secret : Text) : ℕ := (encode secret).length + secret.countP needsEscape

/-- Anything else is sent in quotes, and measured with its escapes. -/
theorem betweenQuotes?_pskValue {secret : Text} (h : isRawPsk secret = false) :
    ∃ octets, betweenQuotes? (encode (pskValue secret)) = some octets ∧
      octets.length = wireLength secret := by
  refine ⟨encode (secret.flatMap quoteChar), ?_, length_encode_flatMap_quoteChar secret⟩
  have hencode : encode (quote secret) = 0x22 :: encode (secret.flatMap quoteChar) ++ [0x22] := by
    rw [quote_eq, encode_append, encode_cons]
    rfl
  rw [pskValue, if_neg (by simp [h]), hencode, betweenQuotes?_quoted]

/-- No text has fewer octets than characters. -/
theorem length_le_wireLength (secret : Text) : secret.length ≤ wireLength secret := by
  have hencode : secret.length ≤ (encode secret).length := by
    induction secret with
    | nil => exact le_rfl
    | cons c secret ih =>
      have hpos := List.length_pos_of_ne_nil (String.utf8EncodeChar_ne_nil (c := c))
      rw [encode_cons, List.length_append, List.length_cons]
      omega
  unfold wireLength
  omega

/-! ## When they agree -/

/-- **Exactly when the check and the wire agree**: for every secret but those of 8 to 63
characters with more than 63 octets on the wire, and those of fewer than 8 characters
with 8 to 63 octets.  No secret is both a passphrase and a raw key. -/
theorem isPassphrase_iff (secret : Text) :
    (PassphraseAgrees secret ↔
      ¬ (passphraseMinLength ≤ secret.length ∧ secret.length ≤ passphraseMaxLength ∧
          passphraseMaxLength < wireLength secret) ∧
        ¬ (secret.length < passphraseMinLength ∧ passphraseMinLength ≤ wireLength secret ∧
          wireLength secret ≤ passphraseMaxLength)) ∧
      ¬ (isPassphrase secret = true ∧ isRawPsk secret = true) := by
  have hcheck : isPassphrase secret = true ↔
      passphraseMinLength ≤ secret.length ∧ secret.length ≤ passphraseMaxLength := by
    simp [isPassphrase]
  have hle := length_le_wireLength secret
  have hboth : ¬ (isPassphrase secret = true ∧ isRawPsk secret = true) := by
    rintro ⟨hpass, hraw⟩
    have hmax := (hcheck.mp hpass).2
    rw [(isRawPsk_iff.mp hraw).1] at hmax
    exact absurd hmax (by decide)
  refine ⟨?_, hboth⟩
  unfold PassphraseAgrees
  cases hraw : isRawPsk secret with
  | true =>
    have hlength : secret.length = 64 := (isRawPsk_iff.mp hraw).1
    rw [betweenQuotes?_raw hraw, hcheck]
    simp [hlength, passphraseMinLength, passphraseMaxLength]
  | false =>
    obtain ⟨octets, hoctets, hlength⟩ := betweenQuotes?_pskValue hraw
    rw [hoctets, hcheck]
    simp only [Option.some.injEq, exists_eq_left', hlength, passphraseMinLength,
      passphraseMaxLength]
    omega

/-- Thirty-two characters of two octets each. -/
theorem two_octet_characters_disagree : ¬ ∀ secret, PassphraseAgrees secret := by
  intro h
  have hraw : isRawPsk (List.replicate 32 'é') = false := by decide
  have hwire : wireLength (List.replicate 32 'é') = 64 := by decide +kernel
  have hpass : isPassphrase (List.replicate 32 'é') = true := by decide
  obtain ⟨octets, hoctets, -, hmax⟩ := (h _).mp hpass
  obtain ⟨octets', hoctets', hlength⟩ := betweenQuotes?_pskValue hraw
  rw [hoctets, Option.some.injEq] at hoctets'
  rw [hoctets', hlength, hwire] at hmax
  exact absurd hmax (by decide)

end WpaCtrl
