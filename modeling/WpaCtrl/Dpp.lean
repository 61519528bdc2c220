/-
# DPP parameters (`dpp.py`)

`dpp_configurator_params` builds the text that describes the network to hand over.
The daemon accepts any text, so a field that is missing or empty shows nowhere: what
is refused has to be refused here.  The formatter drops a parameter whose value is
`None`, which is how an argument that passes every check can still be lost.

* `parseParams_formatParams` : what `format_params` writes, `parse_params` reads back;
* `dppConfiguratorParams_iff` : exactly when the function refuses what it has to, and
  builds a usable text of the rest.
-/
import WpaCtrl.Events

open Text

namespace WpaCtrl

/-! ## The functions -/

/-- An argument that is text or octets. -/
inductive TextOrOctets where
  | text (value : Text)
  | octets (value : Bytes)

/-- The octets it stands for: UTF-8 for text. -/
def TextOrOctets.encoded : TextOrOctets → Bytes
  | text value => encode value
  | octets value => value

/-- What Python's `not` says of it. -/
def TextOrOctets.isEmpty : TextOrOctets → Bool
  | text value => value.isEmpty
  | octets value => value.isEmpty

/-- The `ValueError`s. -/
inductive DppError where
  /-- `DPP fields cannot be empty; an empty one is accepted and then fails silently` -/
  | emptyField
  /-- `supply exactly one of passphrase or psk` -/
  | secrets
  /-- `psk must be 64 hex characters; pass a passphrase as passphrase=` -/
  | notAKey
  deriving DecidableEq

/-- `dpp_hex`. -/
def dppHex (value : TextOrOctets) : Except DppError Text :=
  if value.isEmpty then .error .emptyField else .ok (hex value.encoded)

/-- One parameter of `format_params`. -/
def formatParam (name value : Text) : Text := rstrip '_' name ++ '=' :: value

/-- `format_params`; `none` stands for `None`. -/
def formatParams (params : List (Text × Option Text)) : Text :=
  [' '].intercalate (params.filterMap fun param => param.2.map (formatParam param.1))

/-- The test for a derived key. -/
def isDerivedKey (psk : Text) : Bool := psk.length = 64 && psk.all isHexDigit

/-- The parameter that carries the secret. -/
def secretParam (passphrase psk : Option Text) : Except DppError (Text × Option Text) :=
  match passphrase with
  -- Python's `if passphrase` holds of a text with something in it
  | some (c :: text) => (dppHex (.text (c :: text))).map fun pass => ("pass".toList, some pass)
  | _ => .ok ("psk".toList, psk)

/-- `dpp_configurator_params`. -/
def dppConfiguratorParams (conf : Text) (ssid : TextOrOctets) (passphrase psk : Option Text)
    (configurator : Option ℤ) (extra : List (Text × Option Text)) : Except DppError Text :=
  if passphrase.isNone = psk.isNone then .error .secrets
  else if psk.any fun key => !isDerivedKey key then .error .notAKey
  else
    match secretParam passphrase psk with
    | .error error => .error error
    | .ok secret =>
      match dppHex ssid with
      | .error error => .error error
      | .ok ssid =>
        .ok (formatParams ([("conf".toList, some conf), ("ssid".toList, some ssid), secret,
          ("configurator".toList, configurator.map ofInt)] ++ extra))

/-! ## Reading parameters back -/

namespace Splitter

/-- Tokens between single spaces are split off one by one. -/
theorem tokens_run_intercalate {pieces : List Text}
    (h : ∀ piece ∈ pieces, piece ≠ [] ∧ ∀ c ∈ piece, c ≠ ' ' ∧ c ≠ '"') (tokens : List Text) :
    ((bare tokens []).run ([' '].intercalate pieces)).flush.tokens = tokens ++ pieces := by
  induction pieces generalizing tokens with
  | nil => simp [flush, bare]
  | cons piece pieces ih =>
    obtain ⟨hne, hclean⟩ := h piece (by simp)
    rcases pieces with _ | ⟨next, pieces⟩
    · rw [List.intercalate_singleton, run_bare tokens [] hclean]
      simp [flush, bare, hne]
    · have hcons : [' '].intercalate (piece :: next :: pieces) =
          piece ++ ' ' :: [' '].intercalate (next :: pieces) := by
        rw [List.intercalate_cons_cons]
        simp
      rw [hcons, run_append, run_bare tokens [] hclean, List.nil_append, run_cons,
        step_space tokens piece hne, ih fun p hp => h p (by simp [hp]), List.append_assoc]
      rfl

end Splitter

theorem splitParams_intercalate {pieces : List Text}
    (h : ∀ piece ∈ pieces, piece ≠ [] ∧ ∀ c ∈ piece, c ≠ ' ' ∧ c ≠ '"') :
    splitParams ([' '].intercalate pieces) = pieces := by
  rw [splitParams, Splitter.tokens_run_intercalate h, List.nil_append]

/-- A parameter whose name and value the tokenizer takes whole. -/
structure CleanParam (name value : Text) : Prop where
  name_ne_nil : rstrip '_' name ≠ []
  name_clean : ∀ c ∈ rstrip '_' name, c ≠ ' ' ∧ c ≠ '=' ∧ c ≠ '"'
  value_clean : ∀ c ∈ value, c ≠ ' ' ∧ c ≠ '"'

theorem CleanParam.piece {name value : Text} (h : CleanParam name value) :
    formatParam name value ≠ [] ∧ ∀ c ∈ formatParam name value, c ≠ ' ' ∧ c ≠ '"' := by
  refine ⟨by simp [formatParam], fun c hc => ?_⟩
  rcases List.mem_append.mp hc with hc | hc
  · exact ⟨(h.name_clean c hc).1, (h.name_clean c hc).2.2⟩
  · rcases List.mem_cons.mp hc with rfl | hc
    · decide
    · exact h.value_clean c hc

theorem CleanParam.readParam {name value : Text} (h : CleanParam name value) :
    readParam (formatParam name value) = some (rstrip '_' name, value) := by
  have hname : '=' ∉ rstrip '_' name := fun hmem => (h.name_clean _ hmem).2.1 rfl
  have hfirst : value.head? ≠ some '"' := fun hhead =>
    (h.value_clean _ (List.mem_of_mem_head? hhead)).2 rfl
  rw [WpaCtrl.readParam, formatParam, partition_append hname]
  simp [h.name_ne_nil, unquote, hfirst]

/-- **`parse_params` undoes `format_params`**: the parameters that are given come back
in order, under their names without trailing underscores. -/
theorem parseParams_formatParams {params : List (Text × Option Text)}
    (hclean : ∀ param ∈ params, ∀ value, param.2 = some value → CleanParam param.1 value)
    (hnodup : ((params.filterMap fun param =>
      param.2.map fun value => (rstrip '_' param.1, value)).map Prod.fst).Nodup) :
    (parseParams (formatParams params)).entries =
      params.filterMap fun param => param.2.map fun value => (rstrip '_' param.1, value) := by
  have hpieces : ∀ piece ∈ params.filterMap fun param => param.2.map (formatParam param.1),
      piece ≠ [] ∧ ∀ c ∈ piece, c ≠ ' ' ∧ c ≠ '"' := by
    intro piece hpiece
    obtain ⟨param, hparam, hmap⟩ := List.mem_filterMap.mp hpiece
    obtain ⟨value, hvalue, rfl⟩ := Option.map_eq_some_iff.mp hmap
    exact (hclean param hparam value hvalue).piece
  have hread : ∀ param ∈ params, (param.2.map (formatParam param.1)).bind readParam =
      param.2.map fun value => (rstrip '_' param.1, value) := by
    intro param hparam
    rcases hvalue : param.2 with _ | value
    · rfl
    · exact (hclean param hparam value hvalue).readParam
  rw [parseParams, formatParams, splitParams_intercalate hpieces, List.filterMap_filterMap,
    List.filterMap_congr hread]
  exact Dict.entries_ofPairs hnodup

/-! ## What is refused and what is built -/

/-- The arguments that have to be refused: both secrets or neither, an empty SSID, an
empty passphrase, a key that is not 64 hexadecimal digits. -/
def DppRefused (ssid : TextOrOctets) (passphrase psk : Option Text) : Prop :=
  passphrase.isSome = psk.isSome ∨ ssid.isEmpty = true ∨ passphrase = some [] ∨
    ∃ key, psk = some key ∧ isDerivedKey key = false

/-- What the parameters of a text have to be: `conf`, the SSID and one secret, each
readable and with something in it, and the configurator if there is one. -/
def DppUsable (conf : Text) (ssid : TextOrOctets) (passphrase psk : Option Text)
    (configurator : Option ℤ) (params : Text) : Prop :=
  ∃ ssidHex secretName secret : Text,
    (parseParams params).entries =
        [("conf".toList, conf), ("ssid".toList, ssidHex), (secretName, secret)] ++
          configurator.toList.map (fun id => ("configurator".toList, ofInt id)) ∧
      ssid.encoded ≠ [] ∧ fromHex? ssidHex = some ssid.encoded ∧
      ((secretName = "pass".toList ∧ ∃ text, passphrase = some text ∧ encode text ≠ [] ∧
          fromHex? secret = some (encode text)) ∨
        (secretName = "psk".toList ∧ psk = some secret))

/-- What is asked of `dpp_configurator_params` without extra parameters: it raises
`ValueError` exactly at the arguments that have to be refused, and otherwise builds a
usable text. -/
def DppMeets (conf : Text) (ssid : TextOrOctets) (passphrase psk : Option Text)
    (configurator : Option ℤ) : Prop :=
  match dppConfiguratorParams conf ssid passphrase psk configurator [] with
  | .error _ => DppRefused ssid passphrase psk
  | .ok params => ¬ DppRefused ssid passphrase psk ∧
      DppUsable conf ssid passphrase psk configurator params

theorem encoded_ne_nil {value : TextOrOctets} (h : value.isEmpty = false) : value.encoded ≠ [] := by
  cases value with
  | octets value => simpa [TextOrOctets.isEmpty, TextOrOctets.encoded] using h
  | text value =>
    rcases value with _ | ⟨c, value⟩
    · simp [TextOrOctets.isEmpty] at h
    · rw [TextOrOctets.encoded, encode_cons]
      simp [String.utf8EncodeChar_ne_nil]

theorem fromHex?_hex (octets : Bytes) : fromHex? (hex octets) = some octets :=
  (fromHex?_of_toLower_eq_hex (map_toLower_hex octets)).2

/-- A hexadecimal digit is neither a space nor a quote. -/
theorem ne_of_isHexDigit {c : Char} (h : isHexDigit c = true) : c ≠ ' ' ∧ c ≠ '"' := by
  refine ⟨(isPrintable_of_isHexDigit h).2, ?_⟩
  rintro rfl
  exact absurd h (by decide)

theorem hex_clean (octets : Bytes) : ∀ c ∈ hex octets, c ≠ ' ' ∧ c ≠ '"' := fun c hc =>
  ne_of_isHexDigit ((fromHex?_of_toLower_eq_hex (map_toLower_hex octets)).1 c hc)

theorem isDerivedKey_clean {key : Text} (h : isDerivedKey key = true) :
    ∀ c ∈ key, c ≠ ' ' ∧ c ≠ '"' := by
  intro c hc
  rw [isDerivedKey, Bool.and_eq_true, List.all_eq_true] at h
  exact ne_of_isHexDigit (h.2 c hc)

theorem ofInt_clean (n : ℤ) : ∀ c ∈ ofInt n, c ≠ ' ' ∧ c ≠ '"' := by
  intro c hc
  refine ⟨(isPrintable_of_mem_ofInt hc).2, ?_⟩
  rintro rfl
  exact notMem_ofInt (by decide) (by decide) n hc

/-- The parameters of a network, with a given secret. -/
theorem parseParams_network {conf ssid name secret : Text} (configurator : Option ℤ)
    (hconf : ∀ c ∈ conf, c ≠ ' ' ∧ c ≠ '"') (hssid : ∀ c ∈ ssid, c ≠ ' ' ∧ c ≠ '"')
    (hname : name = "pass".toList ∨ name = "psk".toList) (hsecret : ∀ c ∈ secret, c ≠ ' ' ∧ c ≠ '"') :
    (parseParams (formatParams [("conf".toList, some conf), ("ssid".toList, some ssid),
        (name, some secret), ("configurator".toList, configurator.map ofInt)])).entries =
      [("conf".toList, conf), ("ssid".toList, ssid), (name, secret)] ++
        configurator.toList.map (fun id => ("configurator".toList, ofInt id)) := by
  have hself : rstrip '_' name = name := by
    rcases hname with rfl | rfl <;> decide
  have hgiven : [("conf".toList, some conf), ("ssid".toList, some ssid), (name, some secret),
      ("configurator".toList, configurator.map ofInt)].filterMap (fun param =>
        param.2.map fun value => (rstrip '_' param.1, value)) =
      [("conf".toList, conf), ("ssid".toList, ssid), (name, secret)] ++
        configurator.toList.map (fun id => ("configurator".toList, ofInt id)) := by
    have hconfName : rstrip '_' "conf".toList = "conf".toList := by decide
    have hssidName : rstrip '_' "ssid".toList = "ssid".toList := by decide
    have hidName : rstrip '_' "configurator".toList = "configurator".toList := by decide
    cases configurator <;> simp only [List.filterMap_cons, List.filterMap_nil, Option.map_some,
      Option.map_none, hself, hconfName, hssidName, hidName] <;> rfl
  rw [← hgiven]
  apply parseParams_formatParams
  · have hcleanName : ∀ param ∈ ["conf".toList, "ssid".toList, "pass".toList, "psk".toList,
        "configurator".toList], rstrip '_' param ≠ [] ∧
          (rstrip '_' param).all (fun c => c ≠ ' ' && c ≠ '=' && c ≠ '"') = true := by decide
    have hparam : ∀ n ∈ ["conf".toList, "ssid".toList, "pass".toList, "psk".toList,
        "configurator".toList], ∀ value : Text, (∀ c ∈ value, c ≠ ' ' ∧ c ≠ '"') →
          CleanParam n value := by
      intro n hn value hvalue
      refine ⟨(hcleanName n hn).1, fun c hc => ?_, hvalue⟩
      simpa [and_assoc] using List.all_eq_true.mp (hcleanName n hn).2 c hc
    intro param hmem value hvalue
    simp only [List.mem_cons, List.not_mem_nil, or_false] at hmem
    rcases hmem with rfl | rfl | rfl | rfl
    · exact hparam _ (by simp) value (Option.some.inj hvalue ▸ hconf)
    · exact hparam _ (by simp) value (Option.some.inj hvalue ▸ hssid)
    · refine hparam _ ?_ value (Option.some.inj hvalue ▸ hsecret)
      rcases hname with rfl | rfl <;> simp
    · obtain ⟨id, -, rfl⟩ := Option.map_eq_some_iff.mp hvalue
      exact hparam _ (by simp) _ (ofInt_clean id)
  · rw [hgiven]
    rcases hname with rfl | rfl <;> cases configurator <;> simp

section
variable {conf : Text} {ssid : TextOrOctets} {configurator : Option ℤ}

/-- An empty SSID is refused whatever the secret is. -/
theorem dppConfiguratorParams_emptySsid {passphrase psk : Option Text}
    (hsecrets : passphrase.isNone ≠ psk.isNone)
    (hkey : psk.any (fun key => !isDerivedKey key) = false) (hempty : ssid.isEmpty = true) :
    dppConfiguratorParams conf ssid passphrase psk configurator [] = .error .emptyField := by
  have hssid : dppHex ssid = .error .emptyField := by rw [dppHex, if_pos hempty]
  rw [dppConfiguratorParams, if_neg hsecrets, if_neg (by simpa using hkey)]
  rcases passphrase with _ | _ | ⟨c, text⟩ <;> simp only [secretParam, hssid]
  rfl

/-- A derived key is passed through. -/
theorem dppMeets_psk (hconf : ∀ c ∈ conf, c ≠ ' ' ∧ c ≠ '"') (key : Text) :
    DppMeets conf ssid none (some key) configurator := by
  unfold DppMeets
  cases hderived : isDerivedKey key with
  | false =>
    have herror : dppConfiguratorParams conf ssid none (some key) configurator [] =
        .error .notAKey := by
      rw [dppConfiguratorParams, if_neg (by simp), if_pos (by simpa using hderived)]
    rw [herror]
    exact Or.inr (Or.inr (Or.inr ⟨key, rfl, hderived⟩))
  | true =>
    cases hempty : ssid.isEmpty with
    | true =>
      rw [dppConfiguratorParams_emptySsid (by simp) (by simpa using hderived) hempty]
      exact Or.inr (Or.inl hempty)
    | false =>
      have hssid : dppHex ssid = .ok (hex ssid.encoded) := by
        rw [dppHex, if_neg (by simp [hempty])]
      rw [dppConfiguratorParams, if_neg (by simp), if_neg (by simpa using hderived)]
      simp only [secretParam, hssid, List.append_nil]
      refine ⟨?_, _, _, _, parseParams_network configurator hconf (hex_clean _) (Or.inr rfl)
        (isDerivedKey_clean hderived), encoded_ne_nil hempty, fromHex?_hex _, Or.inr ⟨rfl, rfl⟩⟩
      rintro (h | h | h | ⟨other, hother, hno⟩)
      · simp at h
      · simp [hempty] at h
      · simp at h
      · obtain rfl := Option.some.inj hother
        simp [hderived] at hno

/-- A passphrase with something in it is encoded. -/
theorem dppMeets_passphrase (hconf : ∀ c ∈ conf, c ≠ ' ' ∧ c ≠ '"') (c : Char) (text : Text) :
    DppMeets conf ssid (some (c :: text)) none configurator := by
  unfold DppMeets
  cases hempty : ssid.isEmpty with
  | true =>
    rw [dppConfiguratorParams_emptySsid (by simp) (by simp) hempty]
    exact Or.inr (Or.inl hempty)
  | false =>
    have hssid : dppHex ssid = .ok (hex ssid.encoded) := by
      rw [dppHex, if_neg (by simp [hempty])]
    have hpass : dppHex (.text (c :: text)) = .ok (hex (encode (c :: text))) := rfl
    rw [dppConfiguratorParams, if_neg (by simp), if_neg (by simp)]
    simp only [secretParam, hssid, hpass, Except.map, List.append_nil]
    refine ⟨?_, _, _, _, parseParams_network configurator hconf (hex_clean _) (Or.inl rfl)
      (hex_clean _), encoded_ne_nil hempty, fromHex?_hex _,
      Or.inl ⟨rfl, c :: text, rfl, ?_, fromHex?_hex _⟩⟩
    · rintro (h | h | h | ⟨key, hkey, -⟩)
      · simp at h
      · simp [hempty] at h
      · simp at h
      · simp at hkey
    · have hencoded : (TextOrOctets.text (c :: text)).encoded ≠ [] := encoded_ne_nil rfl
      exact hencoded

/-- An empty passphrase is dropped, and a text without a secret is built. -/
theorem dppMeets_emptyPassphrase :
    DppMeets conf ssid (some []) none configurator ↔ ssid.isEmpty = true := by
  unfold DppMeets
  cases hempty : ssid.isEmpty with
  | true =>
    rw [dppConfiguratorParams_emptySsid (by simp) (by simp) hempty]
    exact ⟨fun _ => rfl, fun _ => Or.inr (Or.inl hempty)⟩
  | false =>
    have hssid : dppHex ssid = .ok (hex ssid.encoded) := by
      rw [dppHex, if_neg (by simp [hempty])]
    rw [dppConfiguratorParams, if_neg (by simp), if_neg (by simp)]
    simp only [secretParam, hssid]
    constructor
    · rintro ⟨hno, -⟩
      exact absurd (Or.inr (Or.inr (Or.inl rfl))) hno
    · intro h
      simp at h

end

/-- **Exactly when the function does what it has to**: at all arguments but an empty
passphrase that is the only secret of an SSID with something in it. -/
theorem dppConfiguratorParams_iff (conf : Text) (hconf : ∀ c ∈ conf, c ≠ ' ' ∧ c ≠ '"')
    (ssid : TextOrOctets) (passphrase psk : Option Text) (configurator : Option ℤ) :
    DppMeets conf ssid passphrase psk configurator ↔
      ¬ (passphrase = some [] ∧ psk = none ∧ ssid.isEmpty = false) := by
  have hsecrets : ∀ passphrase psk : Option Text, passphrase.isNone = psk.isNone →
      passphrase.isSome = psk.isSome → DppMeets conf ssid passphrase psk configurator := by
    intro passphrase psk hnone hsome
    rw [DppMeets, dppConfiguratorParams, if_pos hnone]
    exact Or.inl hsome
  rcases passphrase with _ | _ | ⟨c, text⟩ <;> rcases psk with _ | key
  · simp [hsecrets none none rfl rfl]
  · simp [dppMeets_psk hconf key]
  · rw [dppMeets_emptyPassphrase]
    simp
  · simp [hsecrets (some []) (some key) rfl rfl]
  · simp [dppMeets_passphrase hconf c text]
  · simp [hsecrets (some (c :: text)) (some key) rfl rfl]

/-- A passphrase, and a configurator to sign with. -/
theorem dppConfiguratorParams_iff_passphrase :
    DppMeets "sta-psk-sae".toList (.text "example".toList) (some "opensesame".toList) none (some 1) :=
  (dppConfiguratorParams_iff "sta-psk-sae".toList (by simp) (.text "example".toList)
    (some "opensesame".toList) none (some 1)).mpr (by simp)

/-- The empty passphrase passes for a key that was not given. -/
theorem dppConfiguratorParams_emptyPassphrase :
    ¬ DppMeets "sta-sae".toList (.text "example".toList) (some []) none none := by
  rw [dppMeets_emptyPassphrase]
  decide

end WpaCtrl
