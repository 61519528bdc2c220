/-
# The spelling of octet strings and secrets on the wire (`ssid.py`)

An SSID is an octet string the daemon spells several ways: printf-escaped on its
way out, and quoted, `P"..."` or hex in configuration.  This module embeds the
decoders `printf_decode`, `Ssid.from_printf` and `Ssid.from_config`, the encoders
`Ssid.config_value` and `quote`, and beside them the daemon's own `printf_encode`,
which the decoders have to undo.

* `printfDecode_printfEncode` : decoding undoes the daemon's encoding;
* `fromConfig_quoted`, `fromConfig_printf`, `fromConfig_hex` : what the three
  configuration forms read as.
-/
import WpaCtrl.Hex

open Text

namespace WpaCtrl

/-! ## The printf dialect -/

/-- `_PRINTF_ESCAPES`, the named escapes. -/
def printfEscape? : Char → Option UInt8
  | '\\' => some 0x5c
  | '"' => some 0x22
  | 'n' => some 0x0a
  | 'r' => some 0x0d
  | 't' => some 0x09
  | 'e' => some 0x1b
  | _ => none

/-- `"0" <= c <= "7"`. -/
def isOctalDigit (c : Char) : Bool := '0' ≤ c && c ≤ '7'

/-- The value of a text of octal digits, accumulated as the loop does. -/
def octalNumber (digits : Text) : ℕ :=
  digits.foldl (fun value c => value * 8 + (c.toNat - '0'.toNat)) 0

/-- The digits an inner `while` loop takes: as many as there are, up to a limit. -/
def takeDigits (limit : ℕ) (isDigit : Char → Bool) (text : Text) : Text :=
  (text.take limit).takeWhile isDigit

/-- `printf_decode`. -/
def printfDecode : Text → Bytes
  | [] => []
  | char :: text =>
    if char ≠ '\\' then String.utf8EncodeChar char ++ printfDecode text
    else match text with
      -- a trailing backslash is dropped
      | [] => []
      | escape :: rest =>
        match printfEscape? escape with
        | some octet => octet :: printfDecode rest
        | none =>
          if escape = 'x' then
            let digits := takeDigits 2 isHexDigit rest
            -- a `\x` without digits is dropped as well
            (if digits = [] then [] else [UInt8.ofNat (hexNumber digits)]) ++
              printfDecode (rest.drop digits.length)
          else if isOctalDigit escape then
            let digits := takeDigits 3 isOctalDigit (escape :: rest)
            UInt8.ofNat (octalNumber digits) :: printfDecode ((escape :: rest).drop digits.length)
          else String.utf8EncodeChar escape ++ printfDecode rest
termination_by text => text.length
decreasing_by all_goals simp_wf <;> omega

/-- The daemon's `printf_encode` of one octet. -/
def printfEncodeOctet (b : UInt8) : Text :=
  if b = 0x22 then ['\\', '"']
  else if b = 0x5c then ['\\', '\\']
  else if b = 0x1b then ['\\', 'e']
  else if b = 0x0a then ['\\', 'n']
  else if b = 0x0d then ['\\', 'r']
  else if b = 0x09 then ['\\', 't']
  else if 32 ≤ b ∧ b ≤ 126 then [Char.ofUInt8 b]
  else '\\' :: 'x' :: hexOctet b

/-- The daemon's `printf_encode`: the named escapes, printable ASCII as itself, and
every other octet as `\xNN`. -/
def printfEncode (octets : Bytes) : Text := octets.flatMap printfEncodeOctet

/-! ## Decoding one escape at a time -/

/-- A plain character stands for its UTF-8 octets. -/
theorem printfDecode_plain {c : Char} (h : c ≠ '\\') (text : Text) :
    printfDecode (c :: text) = String.utf8EncodeChar c ++ printfDecode text := by
  rw [printfDecode.eq_def]
  simp only [if_pos h]

/-- A named escape stands for its octet. -/
theorem printfDecode_named {c : Char} {b : UInt8} (h : printfEscape? c = some b) (text : Text) :
    printfDecode ('\\' :: c :: text) = b :: printfDecode text := by
  rw [printfDecode, if_neg (by simp)]
  simp only [h]

/-- Two hexadecimal digits after `\x` are one octet, whatever comes next. -/
theorem printfDecode_hex {c d : Char} (hc : isHexDigit c = true) (hd : isHexDigit d = true)
    (text : Text) : printfDecode ('\\' :: 'x' :: c :: d :: text) =
      UInt8.ofNat (hexValue c * 16 + hexValue d) :: printfDecode text := by
  have hdigits : takeDigits 2 isHexDigit (c :: d :: text) = [c, d] := by
    simp [takeDigits, hc, hd]
  have hnumber : hexNumber [c, d] = hexValue c * 16 + hexValue d := by simp [hexNumber]
  rw [printfDecode, if_neg (by simp)]
  simp only [printfEscape?, if_true, hdigits, hnumber]
  simp

/-- The printable octets are the printable characters. -/
theorem isPrintable_ofUInt8 {b : UInt8} (h : 32 ≤ b ∧ b ≤ 126) :
    isPrintable (Char.ofUInt8 b) = true := by
  have h1 : 32 ≤ b.toNat := UInt8.le_iff_toNat_le.mp h.1
  have h2 : b.toNat ≤ 126 := UInt8.le_iff_toNat_le.mp h.2
  have hval : (Char.ofUInt8 b).toNat = b.toNat := rfl
  simp only [isPrintable, hval, Bool.and_eq_true, decide_eq_true_eq]
  exact ⟨h1, h2⟩

theorem ofUInt8_ne {b : UInt8} {c : Char} (h : b.toNat ≠ c.toNat) : Char.ofUInt8 b ≠ c := by
  rintro rfl
  exact h rfl

/-- A printable octet is the UTF-8 of its character. -/
theorem utf8EncodeChar_ofUInt8 {b : UInt8} (h : 32 ≤ b ∧ b ≤ 126) :
    String.utf8EncodeChar (Char.ofUInt8 b) = [b] := by
  have h2 : b.toNat ≤ 126 := UInt8.le_iff_toNat_le.mp h.2
  have hval : (Char.ofUInt8 b).toNat = b.toNat := rfl
  rw [utf8EncodeChar_of_ascii (by rw [hval]; omega), hval]
  simp

/-- The shapes of an encoded octet: a printable character other than quote and
backslash, or a backslash, the character it escapes, and plain characters. -/
theorem printfEncodeOctet_shape (b : UInt8) :
    (∃ c, printfEncodeOctet b = [c] ∧ c ≠ '"' ∧ c ≠ '\\') ∨
      ∃ c rest, printfEncodeOctet b = '\\' :: c :: rest ∧ ∀ d ∈ rest, d ≠ '"' ∧ d ≠ '\\' := by
  have hb : b.toNat < 256 := b.toNat_lt
  unfold printfEncodeOctet
  split_ifs with h1 h2 h3 h4 h5 h6 h7
  · exact Or.inr ⟨_, _, rfl, by simp⟩
  · exact Or.inr ⟨_, _, rfl, by simp⟩
  · exact Or.inr ⟨_, _, rfl, by simp⟩
  · exact Or.inr ⟨_, _, rfl, by simp⟩
  · exact Or.inr ⟨_, _, rfl, by simp⟩
  · exact Or.inr ⟨_, _, rfl, by simp⟩
  · refine Or.inl ⟨_, rfl, ofUInt8_ne fun h => h1 ?_, ofUInt8_ne fun h => h2 ?_⟩
    · exact UInt8.toNat_inj.mp h
    · exact UInt8.toNat_inj.mp h
  · refine Or.inr ⟨_, _, rfl, ?_⟩
    have hhi := digitChar_spec (b.toNat / 16) (by omega)
    have hlo := digitChar_spec (b.toNat % 16) (by omega)
    simp only [hexOctet, List.mem_cons, List.not_mem_nil, or_false, forall_eq_or_imp, forall_eq]
    exact ⟨⟨hhi.2.2.2.1, hhi.2.2.2.2.1⟩, hlo.2.2.2.1, hlo.2.2.2.2.1⟩

/-- The daemon's encoding is printable ASCII. -/
theorem isPrintable_of_mem_printfEncode {octets : Bytes} {c : Char}
    (h : c ∈ printfEncode octets) : isPrintable c = true := by
  obtain ⟨b, -, hc⟩ := List.mem_flatMap.mp h
  have hb : b.toNat < 256 := b.toNat_lt
  unfold printfEncodeOctet at hc
  split_ifs at hc with h1 h2 h3 h4 h5 h6 h7 <;>
    simp only [List.mem_cons, List.not_mem_nil, or_false, hexOctet] at hc
  · rcases hc with rfl | rfl <;> decide
  · rcases hc with rfl | rfl <;> decide
  · rcases hc with rfl | rfl <;> decide
  · rcases hc with rfl | rfl <;> decide
  · rcases hc with rfl | rfl <;> decide
  · rcases hc with rfl | rfl <;> decide
  · rw [hc]
    exact isPrintable_ofUInt8 h7
  · rcases hc with rfl | rfl | rfl | rfl
    · decide
    · decide
    · exact (digitChar_spec (b.toNat / 16) (by omega)).2.2.1
    · exact (digitChar_spec (b.toNat % 16) (by omega)).2.2.1

/-- **One octet.**  The decoder reads back an encoded octet and stops behind it,
whatever follows. -/
theorem printfDecode_printfEncodeOctet (b : UInt8) (text : Text) :
    printfDecode (printfEncodeOctet b ++ text) = b :: printfDecode text := by
  have hb : b.toNat < 256 := b.toNat_lt
  unfold printfEncodeOctet
  split_ifs with h1 h2 h3 h4 h5 h6 h7
  · rw [h1]
    exact printfDecode_named rfl text
  · rw [h2]
    exact printfDecode_named rfl text
  · rw [h3]
    exact printfDecode_named rfl text
  · rw [h4]
    exact printfDecode_named rfl text
  · rw [h5]
    exact printfDecode_named rfl text
  · rw [h6]
    exact printfDecode_named rfl text
  · rw [List.singleton_append, printfDecode_plain, utf8EncodeChar_ofUInt8 h7]
    · rfl
    · exact ofUInt8_ne fun h => h2 (UInt8.toNat_inj.mp h)
  · have hhi := digitChar_spec (b.toNat / 16) (by omega)
    have hlo := digitChar_spec (b.toNat % 16) (by omega)
    rw [hexOctet, List.cons_append, List.cons_append, List.cons_append, List.cons_append,
      printfDecode_hex hhi.1 hlo.1, hhi.2.1, hlo.2.1, octet_eq_digits]
    rfl

/-- **Decoding undoes the daemon's encoding**, and reads on behind it. -/
theorem printfDecode_printfEncode_append (octets : Bytes) (text : Text) :
    printfDecode (printfEncode octets ++ text) = octets ++ printfDecode text := by
  induction octets with
  | nil => rfl
  | cons b octets ih =>
    rw [printfEncode, List.flatMap_cons, List.append_assoc, printfDecode_printfEncodeOctet,
      ← printfEncode, ih, List.cons_append]

theorem printfDecode_printfEncode (octets : Bytes) :
    printfDecode (printfEncode octets) = octets := by
  have h := printfDecode_printfEncode_append octets []
  rwa [List.append_nil, printfDecode, List.append_nil] at h

/-! ## `Ssid` -/

/-- `Ssid`, a `bytes` subclass: the octets and nothing else. -/
abbrev Ssid : Type := Bytes

/-- The `ValueError`s of the configuration parser, with the value they quote. -/
inductive ConfigError where
  /-- `unterminated quoted string: ...` -/
  | unterminated (value : Text)
  /-- `neither a quoted string nor hex: ...` -/
  | neither (value : Text)
  deriving DecidableEq

/-- `Ssid.from_printf`. -/
def Ssid.fromPrintf (text : Text) : Ssid := printfDecode text

/-- A quoted form, after its prefix: the body runs to the last quote, which has to
end the value. -/
def readQuoted (decode : Text → Bytes) (value rest : Text) : Except ConfigError Ssid :=
  let (body, quote, tail) := rpartition '"' rest
  if quote = [] ∨ tail ≠ [] then .error (.unterminated value) else .ok (decode body)

/-- `Ssid.from_config`. -/
def Ssid.fromConfig (value : Text) : Except ConfigError Ssid :=
  match value with
  | '"' :: rest => readQuoted encode value rest
  | 'P' :: '"' :: rest => readQuoted printfDecode value rest
  | _ =>
    if value.length % 2 ≠ 0 ∨ !value.all isHexDigit then .error (.neither value)
    else match fromHex? value with
      | some octets => .ok octets
      | none => .error (.neither value)

/-- `Ssid.config_value`: the quoted literal when every octet is printable ASCII, hex
for anything else. -/
def Ssid.configValue (ssid : Ssid) : Text :=
  if ∀ b ∈ ssid, 32 ≤ b ∧ b ≤ 126 then '"' :: ssid.map Char.ofUInt8 ++ ['"'] else hex ssid

/-- `quote`. -/
def quote (value : Text) : Text :=
  let escaped := replace '"' ['\\', '"'] (replace '\\' ['\\', '\\'] value)
  '"' :: escaped ++ ['"']

/-! ## What the configuration forms read as -/

/-- A body between the first quote and a closing last one is taken whole. -/
theorem readQuoted_append (decode : Text → Bytes) (value body : Text) :
    readQuoted decode value (body ++ ['"']) = .ok (decode body) := by
  rw [readQuoted, rpartition_append body (List.not_mem_nil)]
  simp

theorem fromConfig_quoted (body : Text) :
    Ssid.fromConfig ('"' :: body ++ ['"']) = .ok (encode body) :=
  readQuoted_append encode _ body

theorem fromConfig_printf (body : Text) :
    Ssid.fromConfig ('P' :: '"' :: body ++ ['"']) = .ok (printfDecode body) :=
  readQuoted_append printfDecode _ body

/-- The hex form, in any mix of digit case, the empty text included. -/
theorem fromConfig_hex {text : Text} {octets : Bytes} (h : text.map Char.toLower = hex octets) :
    Ssid.fromConfig text = .ok octets := by
  obtain ⟨hdigits, hread⟩ := fromHex?_of_toLower_eq_hex h
  have hlen : text.length % 2 = 0 := by
    rw [← List.length_map (f := Char.toLower), h, length_hex]
    omega
  have hfirst : ∀ rest, text ≠ '"' :: rest := by
    rintro rest rfl
    exact absurd (hdigits '"' (by simp)) (by decide)
  have hprefix : ∀ rest, text ≠ 'P' :: '"' :: rest := by
    rintro rest rfl
    exact absurd (hdigits 'P' (by simp)) (by decide)
  rw [Ssid.fromConfig]
  · rw [if_neg, hread]
    simpa [hlen] using hdigits
  · exact hfirst
  · exact hprefix

/-- Printable octets are the UTF-8 of the text they are printed as. -/
theorem encode_map_ofUInt8 {octets : Bytes} (h : ∀ b ∈ octets, 32 ≤ b ∧ b ≤ 126) :
    encode (octets.map Char.ofUInt8) = octets := by
  induction octets with
  | nil => rfl
  | cons b octets ih =>
    rw [List.map_cons, encode_cons, utf8EncodeChar_ofUInt8 (h b (by simp)),
      ih (fun d hd => h d (by simp [hd]))]
    rfl

/-- What `config_value` writes is read back. -/
theorem fromConfig_configValue (ssid : Ssid) :
    Ssid.fromConfig ssid.configValue = .ok ssid := by
  unfold Ssid.configValue
  split_ifs with h
  · rw [fromConfig_quoted, encode_map_ofUInt8 h]
  · exact fromConfig_hex (map_toLower_hex ssid)

end WpaCtrl
