/-
# The spellings of one octet string meet

Two results on the encoders and decoders of `ssid.py`:

* `spellings_meet` : the daemon's printf spelling and every configuration spelling
  of an SSID read back as its octets, so spellings of different SSIDs never
  compare equal;
* `fromConfig_quote_iff` : `quote` escapes quotes and backslashes, which the
  configuration grammar does not undo; it reads back, and agrees with
  `config_value`, exactly on the texts without either character.
-/
import WpaCtrl.Ssid

open Text

namespace WpaCtrl

/-! ## Every spelling of an SSID -/

/-- The two readers a spelling can be meant for. -/
inductive Reader where
  | fromPrintf
  | fromConfig

/-- Reading a spelling. -/
def Reader.read : Reader → Text → Except ConfigError Ssid
  | .fromPrintf, text => .ok (Ssid.fromPrintf text)
  | .fromConfig, text => Ssid.fromConfig text

/-- The spellings of an SSID, each with the reader it is meant for. -/
inductive Spells (s : Ssid) : Reader → Text → Prop
  | wire : Spells s .fromPrintf (printfEncode s)
  | written : Spells s .fromConfig s.configValue
  | escaped : Spells s .fromConfig ('P' :: '"' :: printfEncode s ++ ['"'])
  | hex {h : Text} : h.map Char.toLower = Text.hex s → Spells s .fromConfig h
  | literal {t : Text} : encode t = s → Spells s .fromConfig ('"' :: t ++ ['"'])

/-- A spelling reads back as its SSID. -/
theorem read_of_spells {s : Ssid} {reader : Reader} {text : Text}
    (h : Spells s reader text) : reader.read text = .ok s := by
  cases h with
  | wire => exact congrArg Except.ok (printfDecode_printfEncode s)
  | written => exact fromConfig_configValue s
  | escaped => exact (fromConfig_printf _).trans (congrArg Except.ok (printfDecode_printfEncode s))
  | hex hh => exact fromConfig_hex hh
  | literal ht => exact (fromConfig_quoted _).trans (congrArg Except.ok ht)

/-- **The spellings meet as octets.**  The wire spelling, the value `config_value`
writes, the `P"..."` form, the hex in any mix of digit case and the quoted literal
of a text all read back as `s`; and no spelling of another SSID reads the same. -/
theorem spellings_meet (s : Ssid) :
    Ssid.fromPrintf (printfEncode s) = s ∧
    Ssid.fromConfig s.configValue = .ok s ∧
    Ssid.fromConfig ('P' :: '"' :: printfEncode s ++ ['"']) = .ok s ∧
    (∀ h : Text, h.map Char.toLower = Text.hex s → Ssid.fromConfig h = .ok s) ∧
    (∀ t : Text, encode t = s → Ssid.fromConfig ('"' :: t ++ ['"']) = .ok s) ∧
    ∀ (s' : Ssid) (reader reader' : Reader) (text text' : Text), Spells s reader text →
      Spells s' reader' text' → s ≠ s' → reader.read text ≠ reader'.read text' := by
  refine ⟨printfDecode_printfEncode s, read_of_spells .written, read_of_spells .escaped,
    fun h hh => read_of_spells (.hex hh), fun t ht => read_of_spells (.literal ht), ?_⟩
  intro s' reader reader' text text' h h' hne heq
  rw [read_of_spells h, read_of_spells h'] at heq
  exact hne (Except.ok.inj heq)

example : Ssid.fromConfig "P\"a\\x00\\\"b\"".toList = .ok [0x61, 0x00, 0x22, 0x62] := by
  decide +kernel

/-! ## What `quote` writes -/

/-- The character-wise escaping the two `replace` calls of `quote` amount to. -/
def quoteChar (c : Char) : Text :=
  if c = '\\' then ['\\', '\\'] else if c = '"' then ['\\', '"'] else [c]

theorem quote_eq (v : Text) : quote v = '"' :: v.flatMap quoteChar ++ ['"'] := by
  have hescape : replace '"' ['\\', '"'] (replace '\\' ['\\', '\\'] v) = v.flatMap quoteChar := by
    rw [replace, replace, List.flatMap_assoc]
    congr 1
    funext c
    by_cases h : c = '\\'
    · simp [quoteChar, h]
    · by_cases h' : c = '"' <;> simp [quoteChar, h, h']
  rw [quote, hescape]

/-- The characters `quote` escapes. -/
def needsEscape (c : Char) : Bool := c = '"' || c = '\\'

/-- Every escaped character costs one octet. -/
theorem length_encode_flatMap_quoteChar (v : Text) :
    (encode (v.flatMap quoteChar)).length = (encode v).length + v.countP needsEscape := by
  induction v with
  | nil => rfl
  | cons c v ih =>
    have hc : (encode (quoteChar c)).length =
        (String.utf8EncodeChar c).length + if needsEscape c = true then 1 else 0 := by
      by_cases h : c = '\\'
      · subst h
        decide
      · by_cases h' : c = '"'
        · subst h'
          decide
        · simp [quoteChar, needsEscape, h, h', encode]
    rw [List.flatMap_cons, encode_append, encode_cons, List.length_append, List.length_append,
      List.countP_cons, ih, hc]
    omega

theorem flatMap_quoteChar_of_forall {v : Text} (h : ∀ c ∈ v, needsEscape c = false) :
    v.flatMap quoteChar = v := by
  induction v with
  | nil => rfl
  | cons c v ih =>
    have hc := h c (by simp)
    simp only [needsEscape, Bool.or_eq_false_iff, decide_eq_false_iff_not] at hc
    rw [List.flatMap_cons, ih (fun d hd => h d (by simp [hd])), quoteChar, if_neg hc.2,
      if_neg hc.1]
    rfl

/-- Printable text is printed by the octets it is encoded as. -/
theorem map_ofUInt8_encode {v : Text} (h : ∀ c ∈ v, isPrintable c = true) :
    (encode v).map Char.ofUInt8 = v ∧ ∀ b ∈ encode v, 32 ≤ b ∧ b ≤ 126 := by
  induction v with
  | nil => simp
  | cons c v ih =>
    have hc : 32 ≤ c.toNat ∧ c.toNat ≤ 126 := by simpa [isPrintable] using h c (by simp)
    obtain ⟨hmap, hrange⟩ := ih fun d hd => h d (by simp [hd])
    have hval : (UInt8.ofNat c.toNat).toNat = c.toNat := toNat_ofNat_ascii (by omega)
    have hchar : Char.ofUInt8 (UInt8.ofNat c.toNat) = c := by
      rw [← Char.toNat_inj]
      exact hval
    rw [encode_cons, utf8EncodeChar_of_ascii (by omega), List.singleton_append, List.map_cons,
      hmap, hchar]
    refine ⟨rfl, ?_⟩
    simp only [List.mem_cons, forall_eq_or_imp, UInt8.le_iff_toNat_le, hval]
    refine ⟨hc, fun b hb => ?_⟩
    simpa only [UInt8.le_iff_toNat_le] using hrange b hb

/-- On printable text `config_value` writes the quoted literal. -/
theorem configValue_encode {v : Text} (h : ∀ c ∈ v, isPrintable c = true) :
    Ssid.configValue (encode v) = '"' :: v ++ ['"'] := by
  obtain ⟨hmap, hrange⟩ := map_ofUInt8_encode h
  rw [Ssid.configValue, if_pos hrange, hmap]

/-- What is asked of `quote` at a text: the configuration grammar reads it back to
the text's octets, and on printable ASCII it is what `config_value` writes. -/
def QuoteReadsBack (v : Text) : Prop :=
  Ssid.fromConfig (quote v) = .ok (encode v) ∧
    ((∀ c ∈ v, isPrintable c = true) → quote v = Ssid.configValue (encode v))

/-- **Exactly when `quote` reads back.**  The escapes `quote` writes stay in the
value it is read as, so the octets of `v` come back, and the two encoders agree,
exactly when there is nothing to escape. -/
theorem fromConfig_quote_iff (v : Text) : QuoteReadsBack v ↔ '"' ∉ v ∧ '\\' ∉ v := by
  constructor
  · rintro ⟨hread, -⟩
    rw [quote_eq, fromConfig_quoted] at hread
    have hlen := congrArg List.length (Except.ok.inj hread)
    rw [length_encode_flatMap_quoteChar] at hlen
    have hcount : ∀ c ∈ v, ¬ needsEscape c = true := List.countP_eq_zero.mp (by omega)
    exact ⟨fun h => hcount '"' h (by decide), fun h => hcount '\\' h (by decide)⟩
  · rintro ⟨hquote, hslash⟩
    have hself : v.flatMap quoteChar = v := flatMap_quoteChar_of_forall fun c hc => by
      simp only [needsEscape, Bool.or_eq_false_iff, decide_eq_false_iff_not]
      exact ⟨fun h => hquote (h ▸ hc), fun h => hslash (h ▸ hc)⟩
    rw [QuoteReadsBack, quote_eq, hself]
    exact ⟨fromConfig_quoted v, fun hprint => (configValue_encode hprint).symm⟩

/-- The text `a"b`, typed as a passphrase, is stored with a backslash in it. -/
theorem quote_inner_quote_not_read_back : ¬ QuoteReadsBack ['a', '"', 'b'] := by
  rintro ⟨hread, -⟩
  exact absurd hread (by decide)

end WpaCtrl
