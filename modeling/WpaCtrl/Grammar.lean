/-
# The configuration grammar (`Ssid.from_config`)

A string variable of a configuration is a quoted literal, the same behind a `P`, or
hexadecimal digits.  The code decides by a prefix and by what stands behind the last
quote; the grammar says which values there are, and what each of them stands for.

* `readQuoted_eq_ok` : a quoted form is accepted exactly when its last quote ends it;
* `fromConfig_grammar` : the values of the grammar are accepted, each as what it stands
  for, and all others are refused.
-/
import WpaCtrl.Spellings

open Text

namespace WpaCtrl

/-! ## The grammar -/

/-- The octets that pairs of hexadecimal digits denote. -/
def pairOctets : Text → Bytes
  | high :: low :: digits => UInt8.ofNat (hexValue high * 16 + hexValue low) :: pairOctets digits
  | _ => []

/-- The forms of a string variable. -/
inductive ConfigForm where
  /-- `"..."` -/
  | literal
  /-- `P"..."` -/
  | escaped
  | hex
  deriving DecidableEq

/-- The value is of the form, and stands for the octets. -/
def ConfigForm.Reads (value : Text) (octets : Bytes) : ConfigForm → Prop
  | literal => ∃ body, value = '"' :: body ++ ['"'] ∧ octets = encode body
  | escaped => ∃ body, value = 'P' :: '"' :: body ++ ['"'] ∧ octets = printfDecode body
  | hex => value.length % 2 = 0 ∧ (∀ c ∈ value, isHexDigit c = true) ∧ octets = pairOctets value

/-- A value has one form only. -/
theorem ConfigForm.unique {value : Text} {octets octets' : Bytes} {form form' : ConfigForm}
    (h : form.Reads value octets) (h' : form'.Reads value octets') : form = form' := by
  -- the first character of a quoted form is no hexadecimal digit
  have hquoted : ∀ {first : Char} {rest : Text}, isHexDigit first = false →
      value = first :: rest → ¬ ∀ c ∈ value, isHexDigit c = true := by
    rintro first rest hfirst rfl hall
    rw [hall first (by simp)] at hfirst
    cases hfirst
  cases form with
  | literal =>
    obtain ⟨body, hvalue, -⟩ := h
    cases form' with
    | literal => rfl
    | escaped =>
      obtain ⟨body', hvalue', -⟩ := h'
      simp [hvalue] at hvalue'
    | hex => exact absurd h'.2.1 (hquoted (by decide) hvalue)
  | escaped =>
    obtain ⟨body, hvalue, -⟩ := h
    cases form' with
    | literal =>
      obtain ⟨body', hvalue', -⟩ := h'
      simp [hvalue] at hvalue'
    | escaped => rfl
    | hex => exact absurd h'.2.1 (hquoted (by decide) hvalue)
  | hex =>
    cases form' with
    | literal => exact absurd h.2.1 (hquoted (by decide) h'.choose_spec.1)
    | escaped => exact absurd h.2.1 (hquoted (by decide) h'.choose_spec.1)
    | hex => rfl

/-! ## The quoted forms -/

/-- The last occurrence of a character. -/
theorem exists_last {c : Char} {text : Text} (h : c ∈ text) :
    ∃ front back, text = front ++ c :: back ∧ c ∉ back := by
  obtain ⟨back, front, hrev, hback⟩ :=
    List.eq_append_cons_of_mem (List.mem_reverse.mpr h)
  refine ⟨front.reverse, back.reverse, ?_, by simpa using hback⟩
  rw [← List.reverse_reverse text, hrev]
  simp

/-- **The last quote decides.**  What follows the opening is accepted exactly when its
last quote ends it, and the body may hold any others. -/
theorem readQuoted_eq_ok {decode : Text → Bytes} {value rest : Text} {octets : Bytes} :
    readQuoted decode value rest = .ok octets ↔ ∃ body, rest = body ++ ['"'] ∧ octets = decode body := by
  constructor
  · intro h
    by_cases hquote : '"' ∈ rest
    · obtain ⟨front, back, rfl, hback⟩ := exists_last hquote
      rw [readQuoted, rpartition_append front hback] at h
      rcases back with _ | ⟨c, back⟩
      · exact ⟨front, rfl, by simpa using h.symm⟩
      · simp at h
    · rw [readQuoted, rpartition, if_neg hquote] at h
      simp at h
  · rintro ⟨body, rfl, rfl⟩
    exact readQuoted_append decode value body

/-- What stands behind the last quote is refused. -/
theorem readQuoted_tail (decode : Text → Bytes) (value front : Text) {tail : Text}
    (htail : tail ≠ []) (hquote : '"' ∉ tail) :
    readQuoted decode value (front ++ '"' :: tail) = .error (.unterminated value) := by
  rw [readQuoted, rpartition_append front hquote]
  simp [htail]

/-! ## The hexadecimal form -/

theorem fromHex?_pairs {value : Text} (hlength : value.length % 2 = 0)
    (hdigits : ∀ c ∈ value, isHexDigit c = true) : fromHex? value = some (pairOctets value) := by
  induction value using pairOctets.induct with
  | case1 high low digits ih =>
    simp only [List.length_cons] at hlength
    have hrest : fromHex? digits = some (pairOctets digits) :=
      ih (by omega) fun c hc => hdigits c (by simp [hc])
    rw [fromHex?_cons_cons (hdigits high (by simp)) (hdigits low (by simp)), hrest]
    rfl
  | case2 value hvalue =>
    rcases value with _ | ⟨c, _ | ⟨d, digits⟩⟩
    · rfl
    · simp at hlength
    · exact absurd rfl (hvalue c d digits)

/-! ## What is accepted and what is refused -/

/-- The three forms, as the code tells them apart. -/
theorem fromConfig_eq_ok {value : Text} {octets : Bytes} :
    Ssid.fromConfig value = .ok octets ↔ ∃ form : ConfigForm, form.Reads value octets := by
  constructor
  · intro h
    unfold Ssid.fromConfig at h
    split at h
    · rename_i rest
      obtain ⟨body, rfl, rfl⟩ := readQuoted_eq_ok.mp h
      exact ⟨.literal, body, rfl, rfl⟩
    · rename_i rest
      obtain ⟨body, rfl, rfl⟩ := readQuoted_eq_ok.mp h
      exact ⟨.escaped, body, rfl, rfl⟩
    · split_ifs at h with hhex
      simp only [not_or, not_not, Bool.not_eq_true, Bool.not_eq_false'] at hhex
      obtain ⟨hlength, hdigits⟩ := hhex
      rw [List.all_eq_true] at hdigits
      rw [fromHex?_pairs hlength hdigits] at h
      exact ⟨.hex, hlength, hdigits, (Except.ok.inj h).symm⟩
  · rintro ⟨form, h⟩
    cases form with
    | literal =>
      obtain ⟨body, rfl, rfl⟩ := h
      exact fromConfig_quoted body
    | escaped =>
      obtain ⟨body, rfl, rfl⟩ := h
      exact fromConfig_printf body
    | hex =>
      obtain ⟨hlength, hdigits, rfl⟩ := h
      rw [Ssid.fromConfig]
      · rw [if_neg (by simpa [hlength] using hdigits), fromHex?_pairs hlength hdigits]
      · rintro rest rfl
        exact absurd (hdigits '"' (by simp)) (by decide)
      · rintro rest rfl
        exact absurd (hdigits 'P' (by simp)) (by decide)

/-- **The configuration grammar.**  `from_config` accepts the values of the grammar, each
as the octets it stands for, and raises `ValueError` on all others; no value has two
forms; and an opening quote alone, or something behind the last quote, is refused. -/
theorem fromConfig_grammar (value : Text) :
    (∀ octets, Ssid.fromConfig value = .ok octets ↔ ∃ form : ConfigForm, form.Reads value octets) ∧
      ((∃ error, Ssid.fromConfig value = .error error) ↔
        ∀ (form : ConfigForm) octets, ¬ form.Reads value octets) ∧
      (∀ (form form' : ConfigForm) octets octets', form.Reads value octets →
        form'.Reads value octets' → form = form' ∧ octets = octets') ∧
      ∀ opening : Text, opening = ['"'] ∨ opening = ['P', '"'] →
        (value = opening → ∃ error, Ssid.fromConfig value = .error error) ∧
          ∀ body tail, value = opening ++ body ++ '"' :: tail → '"' ∉ tail → tail ≠ [] →
            ∃ error, Ssid.fromConfig value = .error error := by
  refine ⟨fun octets => fromConfig_eq_ok, ?_, ?_, ?_⟩
  · constructor
    · rintro ⟨error, herror⟩ form octets hform
      rw [fromConfig_eq_ok.mpr ⟨form, hform⟩] at herror
      cases herror
    · intro hnone
      cases hread : Ssid.fromConfig value with
      | error error => exact ⟨error, rfl⟩
      | ok octets =>
        obtain ⟨form, hform⟩ := fromConfig_eq_ok.mp hread
        exact absurd hform (hnone form octets)
  · intro form form' octets octets' h h'
    have hread := fromConfig_eq_ok.mpr ⟨form, h⟩
    rw [fromConfig_eq_ok.mpr ⟨form', h'⟩] at hread
    exact ⟨ConfigForm.unique h h', (Except.ok.inj hread).symm⟩
  · rintro opening (rfl | rfl)
    · refine ⟨?_, ?_⟩
      · rintro rfl
        exact ⟨_, rfl⟩
      · rintro body tail rfl hquote htail
        exact ⟨_, readQuoted_tail encode _ body htail hquote⟩
    · refine ⟨?_, ?_⟩
      · rintro rfl
        exact ⟨_, rfl⟩
      · rintro body tail rfl hquote htail
        exact ⟨_, readQuoted_tail printfDecode _ body htail hquote⟩

end WpaCtrl
