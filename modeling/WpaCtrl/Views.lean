/-
# Typed views of what the daemon reports (`replies.py`, `events.py`, `dpp.py`)

`Bss`, `SignalPoll`, `Status` and the event views are dictionaries of what arrived, with typed
properties: a property is `None` for a variable that was not reported, and a `ValueError` for
one that is not in the daemon's own format.  Here the daemon holds typed values and prints
them, under a mask where it has one, and the properties are compared with these values.

* `bss_reports` : under any mask, a property of `bss` is the value if the mask asks for it,
  and `None` otherwise;
* `scan_and_bss_agree` : `scan_results` and `bss` report the same under the same names;
* `link_reports` : what is reported of the current association, or `None` where there is none;
* `views_report` : the event views read what was written, each of its own event.
-/
import WpaCtrl.Masks
import WpaCtrl.Offers
import WpaCtrl.Decoding

open Text

namespace WpaCtrl

/-! ## Numbers in base sixteen -/

/-- The value of a digit of `int(text, 16)`: a decimal digit of any script, or a letter. -/
def hexDigitValue? (c : Char) : Option ℕ :=
  (decimalValue? c).or (if isHexDigit c then some (hexValue c) else none)

/-- The rest of a numeral in base sixteen, as `digitsFrom` in base ten. -/
def hexDigitsFrom (acc : ℕ) : Text → Option ℕ
  | [] => some acc
  | '_' :: c :: text => (hexDigitValue? c).bind fun d => hexDigitsFrom (acc * 16 + d) text
  | c :: text => (hexDigitValue? c).bind fun d => hexDigitsFrom (acc * 16 + d) text

/-- A numeral behind its prefix. -/
def hexNumeral? : Text → Option ℕ
  | [] => none
  | c :: text => (hexDigitValue? c).bind fun d => hexDigitsFrom d text

/-- One underscore may stand behind the prefix. -/
def skipUnderscore : Text → Text
  | '_' :: text => text
  | text => text

/-- A numeral that may have the prefix `0x`. -/
def prefixed? : Text → Option ℕ
  | zero :: x :: text =>
    if decimalValue? zero = some 0 ∧ (x = 'x' ∨ x = 'X') then hexNumeral? (skipUnderscore text)
    else hexNumeral? (zero :: x :: text)
  | text => hexNumeral? text

/-- `int(text, 16)`, with `none` for the `ValueError`. -/
def int16? (text : Text) : Option ℤ :=
  match stripBy isIntSpace text with
  | '-' :: text => (prefixed? text).map fun n => -(n : ℤ)
  | '+' :: text => (prefixed? text).map fun n => (n : ℤ)
  | text => (prefixed? text).map fun n => (n : ℤ)

/-- A number as `0x%04x` prints it. -/
def hexPrinted (n : ℕ) : Text := '0' :: 'x' :: (Nat.toDigits 16 n).leftpad 4 '0'

/-- What is known of a hexadecimal digit as one of `int`. -/
theorem hexDigitValue?_of_isHexDigit {c : Char} (h : isHexDigit c = true) :
    hexDigitValue? c = some (hexValue c) ∧ c ≠ '_' := by
  have hall : hexDigits.all (fun d => hexDigitValue? d = some (hexValue d) && d ≠ '_') = true := by
    decide +kernel
  rw [isHexDigit, List.contains_eq_mem, decide_eq_true_eq] at h
  simpa using List.all_eq_true.mp hall c h

theorem hexDigitsFrom_of_isHexDigit {text : Text} (h : ∀ c ∈ text, isHexDigit c = true) (acc : ℕ) :
    hexDigitsFrom acc text = some (text.foldl (fun value c => value * 16 + hexValue c) acc) := by
  induction text generalizing acc with
  | nil => rfl
  | cons c text ih =>
    obtain ⟨hvalue, hne⟩ := hexDigitValue?_of_isHexDigit (h c (by simp))
    rw [hexDigitsFrom, hvalue, Option.bind_some, ih fun d hd => h d (by simp [hd])]
    · rfl
    · rintro d rest rfl
      exact absurd rfl hne

theorem hexNumeral?_of_isHexDigit {text : Text} (h : ∀ c ∈ text, isHexDigit c = true)
    (hne : text ≠ []) : hexNumeral? text = some (hexNumber text) := by
  rcases text with _ | ⟨c, text⟩
  · exact absurd rfl hne
  · rw [hexNumeral?, (hexDigitValue?_of_isHexDigit (h c (by simp))).1, Option.bind_some,
      hexDigitsFrom_of_isHexDigit fun d hd => h d (by simp [hd])]
    simp [hexNumber]

theorem hexNumber_replicate_append (k : ℕ) (digits : Text) :
    hexNumber (List.replicate k '0' ++ digits) = hexNumber digits := by
  induction k with
  | zero => rfl
  | succ k ih =>
    rw [← ih]
    rfl

theorem isHexDigit_of_mem_leftpad {n : ℕ} {c : Char}
    (hc : c ∈ (Nat.toDigits 16 n).leftpad 4 '0') : isHexDigit c = true := by
  rw [List.leftpad] at hc
  rcases List.mem_append.mp hc with hc | hc
  · rw [(List.mem_replicate.mp hc).2]
    decide
  · exact isHexDigit_of_mem_toDigits hc

/-- A number printed in base sixteen is read back. -/
theorem int16?_hexPrinted (n : ℕ) : int16? (hexPrinted n) = some n := by
  have hdigits : ∀ c ∈ (Nat.toDigits 16 n).leftpad 4 '0', isHexDigit c = true := fun c hc =>
    isHexDigit_of_mem_leftpad hc
  have hne : (Nat.toDigits 16 n).leftpad 4 '0' ≠ [] := by
    rw [List.leftpad]
    exact List.append_ne_nil_of_right_ne_nil _ Nat.toDigits_ne_nil
  have hskip : skipUnderscore ((Nat.toDigits 16 n).leftpad 4 '0') =
      (Nat.toDigits 16 n).leftpad 4 '0' := by
    rcases hpad : (Nat.toDigits 16 n).leftpad 4 '0' with _ | ⟨c, rest⟩
    · rfl
    · rw [hpad] at hdigits
      have hc := (hexDigitValue?_of_isHexDigit (hdigits c (by simp))).2
      rw [skipUnderscore]
      intro _ heq
      exact hc (List.cons.inj heq).1
  have hspace : ∀ c ∈ hexPrinted n, isIntSpace c = false := by
    intro c hc
    rw [isIntSpace]
    rcases List.mem_cons.mp hc with rfl | hc
    · decide
    · rcases List.mem_cons.mp hc with rfl | hc
      · decide
      · obtain ⟨hprint, hspace⟩ := isPrintable_of_isHexDigit (hdigits c hc)
        rw [isSpace_of_isPrintable hprint hspace]
        rfl
  have hnumber : hexNumber ((Nat.toDigits 16 n).leftpad 4 '0') = n := by
    rw [List.leftpad, hexNumber_replicate_append, hexNumber_toDigits]
  have hread : prefixed? (hexPrinted n) = some n := by
    rw [hexPrinted, prefixed?, if_pos ⟨by decide, Or.inl rfl⟩, hskip,
      hexNumeral?_of_isHexDigit hdigits hne, hnumber]
  rw [int16?, stripBy_of_forall hspace]
  show (prefixed? (hexPrinted n)).map (fun n => (n : ℤ)) = some ↑n
  rw [hread]
  rfl

/-! ## The properties -/

/-- `_Variables._int` in base sixteen. -/
def hexVariable (view : Dict Text Text) (key : Text) : Except ViewError (Option ℤ) :=
  match view.get? key with
  | none => .ok none
  | some value =>
    match int16? value with
    | some n => .ok (some n)
    | none => .error (.notANumber value)

/-- The `ValueError` of `bytes.fromhex`. -/
structure NotHex where
  text : Text
  deriving DecidableEq

/-- A property that is a hexdump. -/
def octetsVariable (view : Dict Text Text) (key : Text) : Except NotHex (Option Bytes) :=
  match view.get? key with
  | none => .ok none
  | some value =>
    match fromHex? value with
    | some octets => .ok (some octets)
    | none => .error ⟨value⟩

section

variable {view : Dict Text Text} {key : Text}

/-- A number that may be missing is read back under its key. -/
theorem intVariable_map {n : Option ℤ} (h : view.get? key = n.map ofInt) :
    intVariable view key = .ok n := by
  cases n <;> simp [intVariable, h, int?_ofInt]

theorem hexVariable_map {n : Option ℕ} (h : view.get? key = n.map hexPrinted) :
    hexVariable view key = .ok (n.map (Nat.cast : ℕ → ℤ)) := by
  cases n <;> simp [hexVariable, h, int16?_hexPrinted]

theorem octetsVariable_map {octets : Option Bytes} (h : view.get? key = octets.map hex) :
    octetsVariable view key = .ok octets := by
  have hread : ∀ octets, fromHex? (hex octets) = some octets := fun octets =>
    (fromHex?_of_toLower_eq_hex (map_toLower_hex octets)).2
  cases octets <;> simp [octetsVariable, h, hread]

end

namespace Bss

variable (view : Dict Text Text)

/-- `Bss.id` -/
def id : Except ViewError (Option ℤ) := intVariable view "id".toList

/-- `Bss.bssid` -/
def bssid : Option Text := view.get? "bssid".toList

/-- `Bss.frequency` -/
def frequency : Except ViewError (Option ℤ) := intVariable view "freq".toList

/-- `Bss.signal_level` -/
def signalLevel : Except ViewError (Option ℤ) := intVariable view "level".toList

/-- `Bss.noise` -/
def noise : Except ViewError (Option ℤ) := intVariable view "noise".toList

/-- `Bss.snr` -/
def snr : Except ViewError (Option ℤ) := intVariable view "snr".toList

/-- `Bss.qual` -/
def qual : Except ViewError (Option ℤ) := intVariable view "qual".toList

/-- `Bss.age` -/
def age : Except ViewError (Option ℤ) := intVariable view "age".toList

/-- `Bss.beacon_interval` -/
def beaconInterval : Except ViewError (Option ℤ) := intVariable view "beacon_int".toList

/-- `Bss.capabilities` -/
def capabilities : Except ViewError (Option ℤ) := hexVariable view "capabilities".toList

/-- `Bss.tsf` -/
def tsf : Except ViewError (Option ℤ) := intVariable view "tsf".toList

/-- `Bss.est_throughput` -/
def estThroughput : Except ViewError (Option ℤ) := intVariable view "est_throughput".toList

/-- `Bss.update_idx` -/
def updateIdx : Except ViewError (Option ℤ) := intVariable view "update_idx".toList

/-- `Bss.ap_mld_addr` -/
def apMldAddr : Option Text := view.get? "ap_mld_addr".toList

/-- `Bss.ssid` -/
def ssid : Option Text := view.get? "ssid".toList

/-- `Bss.ssid_bytes`, and that of `Status` -/
def ssidBytes : Option Ssid := (view.get? "ssid".toList).map Ssid.fromPrintf

/-- `Bss.ssid_text`, and that of `Status` -/
def ssidText : Option Text := (ssidBytes view).bind Ssid.text

/-- `Bss.flags` -/
def flags : Option Text := view.get? "flags".toList

/-- `Bss.security` -/
def security : Option Security := (view.get? "flags".toList).map parseSecurity

/-- `Bss.ie` -/
def ie : Except NotHex (Option Bytes) := octetsVariable view "ie".toList

/-- `Bss.beacon_ie` -/
def beaconIe : Except NotHex (Option Bytes) := octetsVariable view "beacon_ie".toList

/-- `Bss.wfd_subelems` -/
def wfdSubelems : Except NotHex (Option Bytes) := octetsVariable view "wfd_subelems".toList

end Bss

/-- `ScanResult.security` -/
def ScanResult.security (result : ScanResult) : Security := parseSecurity result.flags

/-- Variables that may be missing are read back, those that are there. -/
theorem parseVariables_present {fields : List (Text × Option Text)}
    (h : ∀ field ∈ fields, ∀ value ∈ field.2, '=' ∉ field.1 ∧ OneLine (field.1, value)) :
    parseVariables (replyText (renderVariables (Dict.present fields))) =
      Dict.ofPairs (Dict.present fields) := by
  have hclean : ∀ pair ∈ Dict.present fields, '=' ∉ pair.1 ∧ OneLine pair := by
    intro pair hpair
    obtain ⟨field, hfield, hmap⟩ := List.mem_filterMap.mp hpair
    obtain ⟨value, hvalue, rfl⟩ := Option.map_eq_some_iff.mp hmap
    exact h field hfield value hvalue
  exact parseVariables_replyText (fun pair hpair => (hclean pair hpair).1)
    fun pair hpair => (hclean pair hpair).2

/-- A printable name without a `=` and a printable value stand on one line. -/
theorem oneLine_of_isPrintable {name value : Text}
    (hname : name.all (fun c => isPrintable c && c ≠ '=') = true)
    (hvalue : ∀ c ∈ value, isPrintable c = true) : '=' ∉ name ∧ OneLine (name, value) := by
  have hchars : ∀ c ∈ name, isPrintable c = true ∧ c ≠ '=' := by
    intro c hc
    simpa using List.all_eq_true.mp hname c hc
  exact ⟨fun hc => (hchars _ hc).2 rfl,
    fun c hc => isLineBoundary_of_isPrintable (hchars c hc).1,
    fun c hc => isLineBoundary_of_isPrintable (hvalue c hc)⟩

theorem isPrintable_of_mem_hex {octets : Bytes} {c : Char} (hc : c ∈ hex octets) :
    isPrintable c = true :=
  (isPrintable_of_isHexDigit ((fromHex?_of_toLower_eq_hex (map_toLower_hex octets)).1 c hc)).1

theorem isPrintable_of_mem_hexPrinted {n : ℕ} {c : Char} (hc : c ∈ hexPrinted n) :
    isPrintable c = true := by
  rcases List.mem_cons.mp hc with rfl | hc
  · decide
  · rcases List.mem_cons.mp hc with rfl | hc
    · decide
    · exact (isPrintable_of_isHexDigit (isHexDigit_of_mem_leftpad hc)).1

/-! ## A BSS under a mask -/

namespace BssMask

/-- `BssMask.BSSID` -/
def bssid : ℕ := 0x00000002

/-- `BssMask.FREQ` -/
def freq : ℕ := 0x00000004

/-- `BssMask.BEACON_INT` -/
def beaconInt : ℕ := 0x00000008

/-- `BssMask.CAPABILITIES` -/
def capabilities : ℕ := 0x00000010

/-- `BssMask.QUAL` -/
def qual : ℕ := 0x00000020

/-- `BssMask.NOISE` -/
def noise : ℕ := 0x00000040

/-- `BssMask.LEVEL` -/
def level : ℕ := 0x00000080

/-- `BssMask.TSF` -/
def tsf : ℕ := 0x00000100

/-- `BssMask.AGE` -/
def age : ℕ := 0x00000200

/-- `BssMask.IE` -/
def ie : ℕ := 0x00000400

/-- `BssMask.FLAGS` -/
def flags : ℕ := 0x00000800

/-- `BssMask.SSID` -/
def ssid : ℕ := 0x00001000

/-- `BssMask.WIFI_DISPLAY` -/
def wifiDisplay : ℕ := 0x00010000

/-- `BssMask.SNR` -/
def snr : ℕ := 0x00080000

/-- `BssMask.EST_THROUGHPUT` -/
def estThroughput : ℕ := 0x00100000

/-- `BssMask.UPDATE_IDX` -/
def updateIdx : ℕ := 0x00400000

/-- `BssMask.BEACON_IE` -/
def beaconIe : ℕ := 0x00800000

/-- `BssMask.AP_MLD_ADDR` -/
def apMldAddr : ℕ := 0x08000000

/-- `BssMask.ALL` -/
def all : ℕ := 0xFFFDFFFF

end BssMask

/-- What is reported of a value under a mask. -/
def asked {α : Type} (mask : Option ℕ) (bits : ℕ) (value : α) : Option α :=
  if selected mask bits then some value else none

/-- A BSS as the daemon holds it, with values for all that the properties read. -/
structure BssReport where
  id : ℕ
  bssid : Text
  isAddress : isAddress bssid = true
  frequency : ℤ
  beaconInterval : ℤ
  capabilities : ℕ
  qual : ℤ
  noise : ℤ
  level : ℤ
  tsf : ℤ
  age : ℤ
  ie : Bytes
  flags : Column
  ssid : Bytes
  wfdSubelems : Bytes
  snr : ℤ
  estThroughput : ℤ
  updateIdx : ℤ
  beaconIe : Bytes
  apMldAddr : Column

namespace BssReport

/-- The variables: the bit that asks for each, its name and its text. -/
def printed (report : BssReport) : List (ℕ × Text × Text) :=
  [(bssMaskId, "id".toList, ofInt report.id), (BssMask.bssid, "bssid".toList, report.bssid),
    (BssMask.freq, "freq".toList, ofInt report.frequency),
    (BssMask.beaconInt, "beacon_int".toList, ofInt report.beaconInterval),
    (BssMask.capabilities, "capabilities".toList, hexPrinted report.capabilities),
    (BssMask.qual, "qual".toList, ofInt report.qual),
    (BssMask.noise, "noise".toList, ofInt report.noise),
    (BssMask.level, "level".toList, ofInt report.level),
    (BssMask.tsf, "tsf".toList, ofInt report.tsf),
    (BssMask.age, "age".toList, ofInt report.age),
    (BssMask.ie, "ie".toList, hex report.ie),
    (BssMask.flags, "flags".toList, report.flags.text),
    (BssMask.ssid, "ssid".toList, printfEncode report.ssid),
    (BssMask.wifiDisplay, "wfd_subelems".toList, hex report.wfdSubelems),
    (BssMask.snr, "snr".toList, ofInt report.snr),
    (BssMask.estThroughput, "est_throughput".toList, ofInt report.estThroughput),
    (BssMask.updateIdx, "update_idx".toList, ofInt report.updateIdx),
    (BssMask.beaconIe, "beacon_ie".toList, hex report.beaconIe),
    (BssMask.apMldAddr, "ap_mld_addr".toList, report.apMldAddr.text)]

/-- Each variable, if the mask asks for it. -/
def under (report : BssReport) (mask : Option ℕ) : List (Text × Option Text) :=
  report.printed.map fun field => (field.2.1, asked mask field.1 field.2.2)

/-- The row of a scan table. -/
def row (report : BssReport) : ScanRow where
  bssid := ⟨report.bssid, fun _ hc => (isPrintable_of_mem_address report.isAddress hc).1⟩
  frequency := report.frequency
  level := report.level
  flags := report.flags
  ssid := report.ssid

/-- The names of the variables. -/
def names : List Text := ["id", "bssid", "freq", "beacon_int", "capabilities", "qual", "noise",
  "level", "tsf", "age", "ie", "flags", "ssid", "wfd_subelems", "snr", "est_throughput",
  "update_idx", "beacon_ie", "ap_mld_addr"].map String.toList

theorem map_printed (report : BssReport) : (report.printed.map fun field => field.2.1) = names :=
  rfl

theorem nodup_under (report : BssReport) (mask : Option ℕ) :
    ((report.under mask).map Prod.fst).Nodup := by
  have hnames : (report.under mask).map Prod.fst = names := rfl
  rw [hnames]
  decide +kernel

/-- Every value is printable. -/
theorem isPrintable_of_mem_printed (report : BssReport) :
    ∀ field ∈ report.printed, ∀ c ∈ field.2.2, isPrintable c = true := by
  have hint : ∀ n : ℤ, ∀ c ∈ ofInt n, isPrintable c = true := fun n c hc =>
    (isPrintable_of_mem_ofInt hc).1
  have hhex : ∀ octets : Bytes, ∀ c ∈ hex octets, isPrintable c = true := fun octets c hc =>
    isPrintable_of_mem_hex hc
  have hcapabilities : ∀ c ∈ hexPrinted report.capabilities, isPrintable c = true := fun c hc =>
    isPrintable_of_mem_hexPrinted hc
  have haddress : ∀ c ∈ report.bssid, isPrintable c = true := fun c hc =>
    (isPrintable_of_mem_address report.isAddress hc).1
  have hssid : ∀ c ∈ printfEncode report.ssid, isPrintable c = true := fun c hc =>
    isPrintable_of_mem_printfEncode hc
  simp only [printed, List.forall_mem_cons]
  exact ⟨hint _, haddress, hint _, hint _, hcapabilities, hint _, hint _, hint _, hint _, hint _,
    hhex _, report.flags.printable, hssid, hhex _, hint _, hint _, hint _, hhex _,
    report.apMldAddr.printable, by simp⟩

/-- Every bit is one of `BssMask.ALL`. -/
theorem selected_all (report : BssReport) :
    ∀ field ∈ report.printed, selected (some BssMask.all) field.1 = true := by
  have hbits : report.printed.map Prod.fst = [bssMaskId, BssMask.bssid, BssMask.freq,
      BssMask.beaconInt, BssMask.capabilities, BssMask.qual, BssMask.noise, BssMask.level,
      BssMask.tsf, BssMask.age, BssMask.ie, BssMask.flags, BssMask.ssid, BssMask.wifiDisplay,
      BssMask.snr, BssMask.estThroughput, BssMask.updateIdx, BssMask.beaconIe,
      BssMask.apMldAddr] := rfl
  intro field hfield
  have hmem := List.mem_map_of_mem (f := Prod.fst) hfield
  rw [hbits] at hmem
  exact List.all_eq_true.mp (by decide) _ hmem

/-- A reply about one BSS is read as the variables the mask asks for. -/
theorem parseVariables_under (report : BssReport) (mask : Option ℕ) :
    parseVariables (replyText (renderVariables (Dict.present (report.under mask)))) =
      Dict.ofPairs (Dict.present (report.under mask)) := by
  have hnames : names.all (fun name => name.all fun c => isPrintable c && c ≠ '=') = true := by
    decide
  refine parseVariables_present fun entry hentry value hvalue => ?_
  obtain ⟨field, hfield, rfl⟩ := List.mem_map.mp hentry
  obtain ⟨-, rfl⟩ : selected mask field.1 = true ∧ field.2.2 = value := by
    simpa [asked] using hvalue
  have hname : field.2.1 ∈ names := by
    rw [← map_printed report]
    exact List.mem_map_of_mem hfield
  exact oneLine_of_isPrintable (List.all_eq_true.mp hnames _ hname)
    (report.isPrintable_of_mem_printed field hfield)

end BssReport

/-- What the properties are under a mask. -/
structure Reported (mask : Option ℕ) (report : BssReport) (view : Dict Text Text) : Prop where
  id : Bss.id view = .ok (asked mask bssMaskId (report.id : ℤ))
  bssid : Bss.bssid view = asked mask BssMask.bssid report.bssid
  frequency : Bss.frequency view = .ok (asked mask BssMask.freq report.frequency)
  beaconInterval : Bss.beaconInterval view = .ok (asked mask BssMask.beaconInt report.beaconInterval)
  capabilities : Bss.capabilities view =
    .ok (asked mask BssMask.capabilities (report.capabilities : ℤ))
  qual : Bss.qual view = .ok (asked mask BssMask.qual report.qual)
  noise : Bss.noise view = .ok (asked mask BssMask.noise report.noise)
  signalLevel : Bss.signalLevel view = .ok (asked mask BssMask.level report.level)
  tsf : Bss.tsf view = .ok (asked mask BssMask.tsf report.tsf)
  age : Bss.age view = .ok (asked mask BssMask.age report.age)
  ie : Bss.ie view = .ok (asked mask BssMask.ie report.ie)
  flags : Bss.flags view = asked mask BssMask.flags report.flags.text
  security : Bss.security view = asked mask BssMask.flags (parseSecurity report.flags.text)
  ssid : Bss.ssid view = asked mask BssMask.ssid (printfEncode report.ssid)
  ssidBytes : Bss.ssidBytes view = asked mask BssMask.ssid report.ssid
  ssidText : Bss.ssidText view = (asked mask BssMask.ssid report.ssid).bind Ssid.text
  wfdSubelems : Bss.wfdSubelems view = .ok (asked mask BssMask.wifiDisplay report.wfdSubelems)
  snr : Bss.snr view = .ok (asked mask BssMask.snr report.snr)
  estThroughput : Bss.estThroughput view =
    .ok (asked mask BssMask.estThroughput report.estThroughput)
  updateIdx : Bss.updateIdx view = .ok (asked mask BssMask.updateIdx report.updateIdx)
  beaconIe : Bss.beaconIe view = .ok (asked mask BssMask.beaconIe report.beaconIe)
  apMldAddr : Bss.apMldAddr view = asked mask BssMask.apMldAddr report.apMldAddr.text

theorem asked_map {α β : Type} (mask : Option ℕ) (bits : ℕ) (f : α → β) (value : α) :
    asked mask bits (f value) = (asked mask bits value).map f := by
  unfold asked
  split_ifs <;> rfl

/-- **A property is the value if the mask asks for it, and `None` otherwise.** -/
theorem BssReport.reported_under (report : BssReport) (mask : Option ℕ) :
    Reported mask report (Dict.ofPairs (Dict.present (report.under mask))) := by
  have hget : ∀ field ∈ report.printed,
      (Dict.ofPairs (Dict.present (report.under mask))).get? field.2.1 =
        asked mask field.1 field.2.2 := fun field hfield =>
    Dict.get?_ofPairs_present (report.nodup_under mask) (List.mem_map_of_mem hfield)
  generalize Dict.ofPairs (Dict.present (report.under mask)) = view at hget
  simp only [printed, List.forall_mem_cons, asked_map mask _ ofInt, asked_map mask _ hexPrinted,
    asked_map mask _ hex, asked_map mask _ printfEncode] at hget
  obtain ⟨hid, hbssid, hfreq, hbeacon, hcapabilities, hqual, hnoise, hlevel, htsf, hage, hie, hflags,
    hssid, hwfd, hsnr, hthroughput, hidx, hbeaconIe, hmld, -⟩ := hget
  have hbytes : Bss.ssidBytes view = asked mask BssMask.ssid report.ssid := by
    rw [Bss.ssidBytes, hssid, Option.map_map]
    have hread : Ssid.fromPrintf ∘ printfEncode = fun octets => octets := by
      funext octets
      exact printfDecode_printfEncode octets
    rw [hread, Option.map_id']
  exact {
    id := intVariable_map hid
    bssid := hbssid
    frequency := intVariable_map hfreq
    beaconInterval := intVariable_map hbeacon
    capabilities := by
      rw [Bss.capabilities, hexVariable_map hcapabilities, ← asked_map]
    qual := intVariable_map hqual
    noise := intVariable_map hnoise
    signalLevel := intVariable_map hlevel
    tsf := intVariable_map htsf
    age := intVariable_map hage
    ie := octetsVariable_map hie
    flags := hflags
    security := by rw [Bss.security, hflags, ← asked_map]
    ssid := by rw [Bss.ssid, hssid, ← asked_map]
    ssidBytes := hbytes
    ssidText := by rw [Bss.ssidText, hbytes]
    wfdSubelems := octetsVariable_map hwfd
    snr := intVariable_map hsnr
    estThroughput := intVariable_map hthroughput
    updateIdx := intVariable_map hidx
    beaconIe := octetsVariable_map hbeaconIe
    apMldAddr := hmld }

/-- What the daemon has found: no address twice. -/
structure Neighbourhood where
  reports : List BssReport
  distinct : (reports.map BssReport.bssid).Nodup

namespace Neighbourhood

variable (found : Neighbourhood)

/-- The daemon's replies about what it has found: the scan table, and one BSS by its
address, under a mask. -/
def answer (failed : Bool) (command : Text) : Text :=
  if command = "SCAN_RESULTS".toList then
    renderTable "bssid / frequency / signal level / flags / ssid".toList
      (found.reports.map fun report => report.row.columns)
  else
    match readBssCommand command with
    | none => refusal failed
    | some (selector, mask) =>
      match found.reports.find? fun report => report.bssid = selector with
      | none => refusal failed
      | some report => renderVariables (Dict.present (report.under mask))

variable {found}

/-- A fetch by address gets the variables of that BSS that the mask asks for. -/
theorem bss_answer (failed : Bool) (mask : Option ℕ) {report : BssReport}
    (hreport : report ∈ found.reports) :
    bss (found.answer failed) report.bssid mask =
      Dict.ofPairs (Dict.present (report.under mask)) := by
  have hspace : ' ' ∉ report.bssid := fun hc =>
    (isPrintable_of_mem_address report.isAddress hc).2 rfl
  have hcommand : bssCommand report.bssid mask ≠ "SCAN_RESULTS".toList := by
    simp [bssCommand]
  have hfind : (found.reports.find? fun other => other.bssid = report.bssid) = some report := by
    cases hfound : found.reports.find? fun other => other.bssid = report.bssid with
    | none => exact absurd (List.find?_eq_none.mp hfound report hreport) (by simp)
    | some other =>
      have hother : other.bssid = report.bssid := by simpa using List.find?_some hfound
      rw [List.inj_on_of_nodup_map found.distinct (List.mem_of_find?_eq_some hfound) hreport hother]
  rw [bss, exchange, answer, if_neg hcommand, readBssCommand_bssCommand hspace]
  simp only [hfind]
  exact report.parseVariables_under mask

/-- A BSS that is not there has no variables. -/
theorem bss_answer_of_notMem (failed : Bool) (mask : Option ℕ) {selector : Text}
    (hspace : ' ' ∉ selector) (h : selector ∉ found.reports.map BssReport.bssid) :
    bss (found.answer failed) selector mask = Dict.empty := by
  have hcommand : bssCommand selector mask ≠ "SCAN_RESULTS".toList := by
    simp [bssCommand]
  have hfind : (found.reports.find? fun other => other.bssid = selector) = none := by
    rw [List.find?_eq_none]
    intro other hother heq
    exact h (of_decide_eq_true heq ▸ List.mem_map_of_mem hother)
  rw [bss, exchange, answer, if_neg hcommand, readBssCommand_bssCommand hspace]
  simp only [hfind]
  cases failed <;> decide

end Neighbourhood

/-- **Under any mask, a property of `bss` is the value if the mask asks for it, and `None`
otherwise**, whatever the values are; it never raises.  What is not there is `None` throughout,
and with `BssMask.ALL` nothing of what is there is. -/
theorem bss_reports (found : Neighbourhood) (failed : Bool) (mask : Option ℕ) :
    (∀ report ∈ found.reports,
      Reported mask report (bss (found.answer failed) report.bssid mask)) ∧
      (∀ selector, ' ' ∉ selector → selector ∉ found.reports.map BssReport.bssid →
        bss (found.answer failed) selector mask = Dict.empty) ∧
      ∀ report ∈ found.reports, bss (found.answer failed) report.bssid (some BssMask.all) =
        bss (found.answer failed) report.bssid none := by
  refine ⟨fun report hreport => ?_, fun selector hspace hselector => ?_, fun report hreport => ?_⟩
  · rw [Neighbourhood.bss_answer failed mask hreport]
    exact report.reported_under mask
  · exact Neighbourhood.bss_answer_of_notMem failed mask hspace hselector
  · have hunder : report.under (some BssMask.all) = report.under none := by
      refine List.map_congr_left fun field hfield => ?_
      rw [asked, asked, report.selected_all field hfield]
      rfl
    rw [Neighbourhood.bss_answer failed _ hreport, Neighbourhood.bss_answer failed _ hreport,
      hunder]

/-- **`scan_results` and `bss` report the same under the same names.**  Against a daemon that
answers both out of what it has found, there is a scan result for every BSS, and what `bss`
makes of its address is what the result says, as far as the mask asks for it. -/
theorem scan_and_bss_agree (found : Neighbourhood) (failed : Bool) (mask : Option ℕ) :
    (scanResults (found.answer failed)).map ScanResult.bssid =
        found.reports.map BssReport.bssid ∧
      ∀ result ∈ scanResults (found.answer failed),
        let view := bss (found.answer failed) result.bssid mask
        Bss.bssid view = asked mask BssMask.bssid result.bssid ∧
          Bss.frequency view = .ok (asked mask BssMask.freq result.frequency) ∧
          Bss.signalLevel view = .ok (asked mask BssMask.level result.signalLevel) ∧
          Bss.flags view = asked mask BssMask.flags result.flags ∧
          Bss.security view = asked mask BssMask.flags result.security ∧
          Bss.ssid view = asked mask BssMask.ssid result.ssid ∧
          Bss.ssidBytes view = asked mask BssMask.ssid result.ssidBytes ∧
          Bss.ssidText view = (asked mask BssMask.ssid result.ssidBytes).bind Ssid.text := by
  have hheader : ∀ c ∈ "bssid / frequency / signal level / flags / ssid".toList,
      isLineBoundary c = false := fun c hc =>
    isLineBoundary_of_isPrintable (List.all_eq_true.mp (by decide) c hc)
  have hresults : scanResults (found.answer failed) = found.reports.map fun report =>
      ⟨report.bssid, report.frequency, report.level, report.flags.text,
        printfEncode report.ssid⟩ := by
    have hrows : (found.reports.map fun report => report.row.columns) =
        (found.reports.map BssReport.row).map ScanRow.columns := by
      rw [List.map_map]
      rfl
    rw [scanResults, exchange, Neighbourhood.answer, if_pos rfl, hrows,
      parseScanResults_rendered hheader, List.map_map]
    rfl
  rw [hresults]
  constructor
  · rw [List.map_map]
    rfl
  · intro result hresult
    obtain ⟨report, hreport, rfl⟩ := List.mem_map.mp hresult
    have hreported := (Neighbourhood.bss_answer failed mask hreport) ▸ report.reported_under mask
    have hbytes : printfDecode (printfEncode report.ssid) = report.ssid :=
      printfDecode_printfEncode report.ssid
    refine ⟨hreported.bssid, hreported.frequency, hreported.signalLevel, hreported.flags,
      hreported.security, hreported.ssid, ?_, ?_⟩
    · rw [ScanResult.ssidBytes, Ssid.fromPrintf, hbytes]
      exact hreported.ssidBytes
    · rw [ScanResult.ssidBytes, Ssid.fromPrintf, hbytes]
      exact hreported.ssidText

/-! ## The current association -/

namespace SignalPoll

/-- `_INVALID_NOISE` -/
def invalidNoise : ℤ := 9999

variable (view : Dict Text Text)

/-- `SignalPoll.rssi` -/
def rssi : Except ViewError (Option ℤ) :=
  (intVariable view "RSSI".toList).map fun value =>
    if value = some (-invalidNoise) then none else value

/-- `SignalPoll.linkspeed` -/
def linkspeed : Except ViewError (Option ℤ) := intVariable view "LINKSPEED".toList

/-- `SignalPoll.noise` -/
def noise : Except ViewError (Option ℤ) :=
  (intVariable view "NOISE".toList).map fun value =>
    if value = some invalidNoise then none else value

/-- `SignalPoll.frequency` -/
def frequency : Except ViewError (Option ℤ) := intVariable view "FREQUENCY".toList

/-- `SignalPoll.width` -/
def width : Option Text := view.get? "WIDTH".toList

/-- `SignalPoll.center_frq1` -/
def centerFrq1 : Except ViewError (Option ℤ) := intVariable view "CENTER_FRQ1".toList

/-- `SignalPoll.center_frq2` -/
def centerFrq2 : Except ViewError (Option ℤ) := intVariable view "CENTER_FRQ2".toList

/-- `SignalPoll.avg_rssi` -/
def avgRssi : Except ViewError (Option ℤ) := intVariable view "AVG_RSSI".toList

/-- `SignalPoll.avg_beacon_rssi` -/
def avgBeaconRssi : Except ViewError (Option ℤ) := intVariable view "AVG_BEACON_RSSI".toList

end SignalPoll

/-- `WpaCtrl.signal_poll` -/
def signalPoll (answer : Text → Text) : Dict Text Text :=
  parseVariables (exchange answer "SIGNAL_POLL".toList)

/-- `WpaCtrl.status` -/
def status (answer : Text → Text) (verbose : Bool) : Dict Text Text :=
  parseVariables (exchange answer (if verbose then "STATUS-VERBOSE" else "STATUS").toList)

/-- What the driver has measured.  A level that is not known has a number no radio reports. -/
structure Signal where
  rssi : Option ℤ
  linkspeed : ℤ
  noise : Option ℤ
  frequency : ℤ
  width : Option Column
  centerFrq1 : Option ℤ
  centerFrq2 : Option ℤ
  avgRssi : Option ℤ
  avgBeaconRssi : Option ℤ
  rssi_ne : rssi ≠ some (-9999)
  noise_ne : noise ≠ some 9999

/-- The first four variables are always sent, the others if there is a value. -/
def Signal.fields (signal : Signal) : List (Text × Option Text) :=
  [("RSSI".toList, some (ofInt (signal.rssi.getD (-9999)))),
    ("LINKSPEED".toList, some (ofInt signal.linkspeed)),
    ("NOISE".toList, some (ofInt (signal.noise.getD 9999))),
    ("FREQUENCY".toList, some (ofInt signal.frequency)),
    ("WIDTH".toList, signal.width.map Column.text),
    ("CENTER_FRQ1".toList, signal.centerFrq1.map ofInt),
    ("CENTER_FRQ2".toList, signal.centerFrq2.map ofInt),
    ("AVG_RSSI".toList, signal.avgRssi.map ofInt),
    ("AVG_BEACON_RSSI".toList, signal.avgBeaconRssi.map ofInt)]

/-- The daemon's side of one interface: what it is associated with, if it is, and the other
variables of its status. -/
structure Link where
  association : Option (Bytes × Signal)
  before : List (Text × Text)
  after : List (Text × Text)
  clean : ∀ pair ∈ before ++ after, '=' ∉ pair.1 ∧ OneLine pair
  other : ∀ pair ∈ before ++ after, pair.1 ≠ "ssid".toList

namespace Link

variable (link : Link)

/-- The variables of the status. -/
def statusVariables : List (Text × Text) :=
  link.before ++ (link.association.map fun found =>
    ("ssid".toList, printfEncode found.1)).toList ++ link.after

/-- The daemon's replies about the association. -/
def answer (command : Text) : Text :=
  if command = "SIGNAL_POLL".toList then
    match link.association with
    | some (_, signal) => renderVariables (Dict.present signal.fields)
    | none => refusal true
  else renderVariables link.statusVariables

end Link

namespace Signal

/-- The names of the variables. -/
def names : List Text := ["RSSI", "LINKSPEED", "NOISE", "FREQUENCY", "WIDTH", "CENTER_FRQ1",
  "CENTER_FRQ2", "AVG_RSSI", "AVG_BEACON_RSSI"].map String.toList

theorem map_fields (signal : Signal) : signal.fields.map Prod.fst = names := rfl

/-- What is measured is read as it was sent. -/
theorem parseVariables_fields (signal : Signal) :
    parseVariables (replyText (renderVariables (Dict.present signal.fields))) =
      Dict.ofPairs (Dict.present signal.fields) := by
  have hnames : names.all (fun name => name.all fun c => isPrintable c && c ≠ '=') = true := by
    decide
  have hint : ∀ n : ℤ, ∀ c ∈ ofInt n, isPrintable c = true := fun n c hc =>
    (isPrintable_of_mem_ofInt hc).1
  have hoption : ∀ n : Option ℤ, ∀ value ∈ n.map ofInt, ∀ c ∈ value, isPrintable c = true := by
    intro n value hvalue
    obtain ⟨n, -, rfl⟩ := Option.map_eq_some_iff.mp hvalue
    exact hint n
  have hwidth : ∀ value ∈ signal.width.map Column.text, ∀ c ∈ value, isPrintable c = true := by
    intro value hvalue
    obtain ⟨width, -, rfl⟩ := Option.map_eq_some_iff.mp hvalue
    exact width.printable
  have hvalues : ∀ field ∈ signal.fields, ∀ value ∈ field.2, ∀ c ∈ value,
      isPrintable c = true := by
    simp only [fields, List.forall_mem_cons, Option.mem_some_iff, forall_eq']
    exact ⟨hint _, hint _, hint _, hint _, hwidth, hoption _, hoption _, hoption _, hoption _,
      by simp⟩
  refine parseVariables_present fun field hfield value hvalue => ?_
  have hname : field.1 ∈ names := by
    rw [← map_fields signal]
    exact List.mem_map_of_mem hfield
  exact oneLine_of_isPrintable (List.all_eq_true.mp hnames _ hname) (hvalues field hfield value hvalue)

end Signal

/-- The status has the SSID that the daemon is associated with, whatever else it has. -/
theorem Link.ssidBytes_status (link : Link) (verbose : Bool) :
    Bss.ssidBytes (status link.answer verbose) = link.association.map Prod.fst := by
  have hcommand : (if verbose then "STATUS-VERBOSE" else "STATUS").toList ≠
      "SIGNAL_POLL".toList := by
    cases verbose <;> decide
  have hssid : '=' ∉ "ssid".toList ∧ ∀ octets, OneLine ("ssid".toList, printfEncode octets) := by
    refine ⟨by decide, fun octets => (oneLine_of_isPrintable (by decide) ?_).2⟩
    exact fun c hc => isPrintable_of_mem_printfEncode hc
  have hclean : ∀ pair ∈ link.statusVariables, '=' ∉ pair.1 ∧ OneLine pair := by
    intro pair hpair
    simp only [statusVariables, List.mem_append, Option.mem_toList,
      Option.map_eq_some_iff] at hpair
    rcases hpair with (hpair | ⟨found, -, rfl⟩) | hpair
    · exact link.clean pair (List.mem_append_left _ hpair)
    · exact ⟨hssid.1, hssid.2 _⟩
    · exact link.clean pair (List.mem_append_right _ hpair)
  have hview : status link.answer verbose = Dict.ofPairs link.statusVariables := by
    rw [status, exchange, answer, if_neg hcommand]
    exact parseVariables_replyText (fun pair hpair => (hclean pair hpair).1)
      fun pair hpair => (hclean pair hpair).2
  have hbefore : "ssid".toList ∉ link.before.map Prod.fst := by
    intro hmem
    obtain ⟨pair, hpair, hname⟩ := List.mem_map.mp hmem
    exact link.other pair (List.mem_append_left _ hpair) hname
  have hafter : "ssid".toList ∉ link.after.map Prod.fst := by
    intro hmem
    obtain ⟨pair, hpair, hname⟩ := List.mem_map.mp hmem
    exact link.other pair (List.mem_append_right _ hpair) hname
  rw [Bss.ssidBytes, hview, statusVariables]
  cases link.association with
  | none =>
    have hnone : (Dict.ofPairs (link.before ++ link.after)).get? "ssid".toList = none := by
      rw [← Option.not_isSome_iff_eq_none, Dict.get?_ofPairs_isSome, List.map_append,
        List.mem_append]
      exact not_or.mpr ⟨hbefore, hafter⟩
    rw [Option.map_none, Option.toList_none, List.append_nil, hnone]
    rfl
  | some found =>
    rw [Option.map_some, Option.toList_some, List.append_assoc, List.singleton_append,
      Dict.get?_ofPairs_append _ hafter]
    exact congrArg some (printfDecode_printfEncode found.1)

/-- A level that is not known is not reported. -/
theorem map_getD_sentinel {value : Option ℤ} {sentinel : ℤ} (h : value ≠ some sentinel) :
    (if some (value.getD sentinel) = some sentinel then none else some (value.getD sentinel)) =
      value := by
  cases value with
  | none => simp
  | some n =>
    have hne : n ≠ sentinel := fun heq => h (congrArg some heq)
    simp [hne]

/-- **What is reported of the current association**, or `None` throughout where there is none:
the nine levels and rates of `SIGNAL_POLL`, with no number for what the driver does not know,
and the SSID of `STATUS`. -/
theorem link_reports (link : Link) :
    let poll := signalPoll link.answer
    let signal := link.association.map Prod.snd
    SignalPoll.rssi poll = .ok (signal.bind Signal.rssi) ∧
      SignalPoll.linkspeed poll = .ok (signal.map Signal.linkspeed) ∧
      SignalPoll.noise poll = .ok (signal.bind Signal.noise) ∧
      SignalPoll.frequency poll = .ok (signal.map Signal.frequency) ∧
      SignalPoll.width poll = (signal.bind Signal.width).map Column.text ∧
      SignalPoll.centerFrq1 poll = .ok (signal.bind Signal.centerFrq1) ∧
      SignalPoll.centerFrq2 poll = .ok (signal.bind Signal.centerFrq2) ∧
      SignalPoll.avgRssi poll = .ok (signal.bind Signal.avgRssi) ∧
      SignalPoll.avgBeaconRssi poll = .ok (signal.bind Signal.avgBeaconRssi) ∧
      ∀ verbose, let view := status link.answer verbose
        Bss.ssidBytes view = link.association.map Prod.fst ∧
          Bss.ssidText view = (link.association.map Prod.fst).bind Ssid.text := by
  intro poll signal
  have hstatus := link.ssidBytes_status
  cases hassociation : link.association with
  | none =>
    have hpoll : poll = Dict.empty := by
      show parseVariables (replyText (link.answer _)) = _
      rw [Link.answer, if_pos rfl, hassociation]
      decide
    have hsignal : signal = none := by
      show link.association.map Prod.snd = none
      rw [hassociation]
      rfl
    rw [hassociation] at hstatus
    rw [hpoll, hsignal]
    exact ⟨rfl, rfl, rfl, rfl, rfl, rfl, rfl, rfl, rfl, fun verbose =>
      ⟨hstatus verbose, congrArg (·.bind Ssid.text) (hstatus verbose)⟩⟩
  | some found =>
    obtain ⟨ssid, measured⟩ := found
    have hpoll : poll = Dict.ofPairs (Dict.present measured.fields) := by
      show parseVariables (replyText (link.answer _)) = _
      rw [Link.answer, if_pos rfl, hassociation]
      exact measured.parseVariables_fields
    have hsignal : signal = some measured := by
      show link.association.map Prod.snd = some measured
      rw [hassociation]
      rfl
    have hget : ∀ field ∈ measured.fields, poll.get? field.1 = field.2 := by
      intro field hfield
      rw [hpoll]
      refine Dict.get?_ofPairs_present ?_ hfield
      rw [measured.map_fields]
      decide
    simp only [Signal.fields, List.forall_mem_cons] at hget
    obtain ⟨hrssi, hlinkspeed, hnoise, hfrequency, hwidth, hfrq1, hfrq2, havg, hbeacon, -⟩ := hget
    have hrssi := intVariable_map (n := some (measured.rssi.getD (-9999))) hrssi
    have hnoise := intVariable_map (n := some (measured.noise.getD 9999)) hnoise
    rw [hassociation] at hstatus
    rw [hsignal]
    refine ⟨?_, intVariable_map (n := some measured.linkspeed) hlinkspeed, ?_,
      intVariable_map (n := some measured.frequency) hfrequency, hwidth, intVariable_map hfrq1,
      intVariable_map hfrq2, intVariable_map havg, intVariable_map hbeacon, fun verbose =>
        ⟨hstatus verbose, congrArg (·.bind Ssid.text) (hstatus verbose)⟩⟩
    · rw [SignalPoll.rssi, hrssi]
      exact congrArg Except.ok (map_getD_sentinel measured.rssi_ne)
    · rw [SignalPoll.noise, hnoise]
      exact congrArg Except.ok (map_getD_sentinel measured.noise_ne)

/-! ## The views of events -/

namespace Disconnected

/-- `Disconnected.NAME` -/
def eventName : Text := "CTRL-EVENT-DISCONNECTED".toList

variable (view : Dict Text Text)

/-- `Disconnected.bssid` -/
def bssid : Option Text := view.get? "bssid".toList

/-- `Disconnected.reason` -/
def reason : Except ViewError (Option ℤ) := intVariable view "reason".toList

/-- `Disconnected.locally_generated` -/
def locallyGenerated : Bool := decide (view.get? "locally_generated".toList = some ['1'])

end Disconnected

namespace DppTx

/-- `DppTx.NAME` -/
def eventName : Text := "DPP-TX".toList

variable (view : Dict Text Text)

/-- `DppTx.dst` -/
def dst : Option Text := view.get? "dst".toList

/-- `DppTx.frequency` -/
def frequency : Except ViewError (Option ℤ) := intVariable view "freq".toList

/-- `DppTx.type` -/
def type : Except ViewError (Option ℤ) := intVariable view "type".toList

end DppTx

namespace DppTxStatus

/-- `DppTxStatus.NAME` -/
def eventName : Text := "DPP-TX-STATUS".toList

variable (view : Dict Text Text)

/-- `DppTxStatus.dst` -/
def dst : Option Text := view.get? "dst".toList

/-- `DppTxStatus.frequency` -/
def frequency : Except ViewError (Option ℤ) := intVariable view "freq".toList

/-- `DppTxStatus.result` -/
def result : Option Text := view.get? "result".toList

/-- `DppTxStatus.acknowledged` -/
def acknowledged : Bool := decide (view.get? "result".toList = some "SUCCESS".toList)

end DppTxStatus

/-- The events that have a view. -/
def viewNames : List Text :=
  [Disconnected.eventName, SsidTempDisabled.eventName, DppTx.eventName, DppTxStatus.eventName]

/-- A text that stands without quotes in an event. -/
structure BareText where
  text : Text
  clean : ∀ c ∈ text, c ≠ ' ' ∧ c ≠ '"' ∧ c ≠ '\n'

/-- What the daemon reports in an event that has a view. -/
inductive Report where
  | disconnected (bssid : BareText) (reason : ℤ) (locallyGenerated : Bool)
  | tempDisabled (report : TempDisabling)
  | dppTx (dst : BareText) (freq type_ : ℤ)
  | dppTxStatus (dst : BareText) (freq : ℤ) (result : BareText)

namespace Report

/-- The name of the event. -/
def name : Report → Text
  | disconnected _ _ _ => Disconnected.eventName
  | tempDisabled _ => SsidTempDisabled.eventName
  | dppTx _ _ _ => DppTx.eventName
  | dppTxStatus _ _ _ => DppTxStatus.eventName

theorem reason_ne_nil : "reason".toList ≠ [] := by decide

theorem reason_clean : ∀ c ∈ "reason".toList, c ≠ ' ' ∧ c ≠ '=' ∧ c ≠ '"' := by simp

/-- The fields of the event.  `locally_generated` is sent only when it is so. -/
def fields : Report → List Field
  | disconnected bssid reason locallyGenerated =>
    [⟨"bssid".toList, .bare bssid.text bssid.clean, by decide, by simp⟩,
      ⟨"reason".toList, .number reason, reason_ne_nil, reason_clean⟩] ++
      if locallyGenerated then
        [⟨"locally_generated".toList, .number 1, by decide, by simp⟩]
      else []
  | tempDisabled report => report.fields
  | dppTx dst freq type_ =>
    [⟨"dst".toList, .bare dst.text dst.clean, by decide, by simp⟩,
      ⟨"freq".toList, .number freq, by decide, by simp⟩,
      ⟨"type".toList, .number type_, by decide, by simp⟩]
  | dppTxStatus dst freq result =>
    [⟨"dst".toList, .bare dst.text dst.clean, by decide, by simp⟩,
      ⟨"freq".toList, .number freq, by decide, by simp⟩,
      ⟨"result".toList, .bare result.text result.clean, by decide, by simp⟩]

/-- What the properties of the view are. -/
def Read (view : Dict Text Text) : Report → Prop
  | disconnected bssid reason locallyGenerated =>
    Disconnected.bssid view = some bssid.text ∧ Disconnected.reason view = .ok (some reason) ∧
      Disconnected.locallyGenerated view = locallyGenerated
  | tempDisabled report =>
    SsidTempDisabled.id view = .ok (some report.id) ∧
      SsidTempDisabled.ssidBytes view = some report.ssid ∧
      SsidTempDisabled.authFailures view = .ok (some report.authFailures) ∧
      SsidTempDisabled.duration view = .ok (some report.duration) ∧
      SsidTempDisabled.reason view = some report.reason
  | dppTx dst freq type_ =>
    DppTx.dst view = some dst.text ∧ DppTx.frequency view = .ok (some freq) ∧
      DppTx.type view = .ok (some type_)
  | dppTxStatus dst freq result =>
    DppTxStatus.dst view = some dst.text ∧ DppTxStatus.frequency view = .ok (some freq) ∧
      DppTxStatus.result view = some result.text ∧
      DppTxStatus.acknowledged view = decide (result.text = "SUCCESS".toList)

theorem name_mem (report : Report) : report.name ∈ viewNames := by
  cases report <;> simp [name, viewNames]

/-- The properties are what was written, if nothing else has the key of a field that was left
out. -/
theorem read_of_get? {view : Dict Text Text} {report : Report}
    (hget : ∀ field ∈ report.fields, view.get? field.key = some field.value.content)
    (hlocal : "locally_generated".toList ∉ report.fields.map Field.key →
      view.get? "locally_generated".toList = none) : report.Read view := by
  cases report with
  | disconnected bssid reason locallyGenerated =>
    simp only [fields, List.forall_mem_append, List.forall_mem_cons] at hget
    obtain ⟨⟨hbssid, hreason, -⟩, hgenerated⟩ := hget
    refine ⟨hbssid, intVariable_number hreason, ?_⟩
    cases locallyGenerated with
    | true =>
      have hone := hgenerated _ (List.mem_singleton.mpr rfl)
      simp only [Disconnected.locallyGenerated]
      rw [hone]
      decide
    | false =>
      have hnone := hlocal (by simp [fields])
      simp only [Disconnected.locallyGenerated]
      rw [hnone]
      decide
  | tempDisabled report =>
    simp only [fields, TempDisabling.fields, List.forall_mem_cons] at hget
    obtain ⟨hid, hssid, hfailures, hduration, hreason, -⟩ := hget
    refine ⟨intVariable_number hid, ?_, intVariable_number hfailures, intVariable_number hduration,
      hreason⟩
    rw [SsidTempDisabled.ssidBytes, hssid, Option.map_some]
    exact congrArg some (printfDecode_printfEncode report.ssid)
  | dppTx dst freq type_ =>
    simp only [fields, List.forall_mem_cons] at hget
    obtain ⟨hdst, hfreq, htype, -⟩ := hget
    exact ⟨hdst, intVariable_number hfreq, intVariable_number htype⟩
  | dppTxStatus dst freq result =>
    simp only [fields, List.forall_mem_cons] at hget
    obtain ⟨hdst, hfreq, hresult, -⟩ := hget
    refine ⟨hdst, intVariable_number hfreq, hresult, ?_⟩
    have hresult : view.get? "result".toList = some result.text := hresult
    rw [DppTxStatus.acknowledged, hresult]
    simp

end Report

/-- **The event views read what was written**, in any order and among whatever other fields, and
each of them reads the events of its own name alone. -/
theorem views_report (report : Report) (priority : ℕ) (more fields : List Field) (newlines : ℕ)
    (hperm : fields.Perm (report.fields ++ more)) (hnodup : (fields.map Field.key).Nodup)
    (hmore : "locally_generated".toList ∉ more.map Field.key) :
    let event := parseEvent (renderEvent priority report.name fields newlines)
    (∃ view, eventView report.name event = .ok view ∧ report.Read view) ∧
      ∀ name ∈ viewNames, name ≠ report.name →
        eventView name event = .error (.otherEvent report.name name) := by
  intro event
  have hclean : ∀ name ∈ viewNames, ∀ c ∈ name, c ≠ ' ' ∧ c ≠ '\n' := by
    have hall : viewNames.all (fun name => name.all fun c => c ≠ ' ' && c ≠ '\n') = true := by
      decide
    intro name hname c hc
    simpa using List.all_eq_true.mp (List.all_eq_true.mp hall name hname) c hc
  have hname := hclean report.name report.name_mem
  have heventName : event.name = report.name := by
    rw [show event = _ from parseEvent_renderEvent priority hname fields newlines]
  constructor
  · have hentries : event.variables.entries =
        fields.map fun field => (field.key, field.value.content) :=
      variables_renderEvent priority hname hnodup newlines
    refine ⟨event.variables, ?_, Report.read_of_get? (fun field hfield => ?_) fun hmissing => ?_⟩
    · rw [eventView, if_neg (not_not_intro heventName)]
    · exact get?_variables hentries (hperm.mem_iff.mpr (List.mem_append_left _ hfield))
    · rw [Option.eq_none_iff_forall_ne_some]
      intro value hvalue
      have hmem := Dict.get?_eq_some_iff.mp hvalue
      rw [hentries] at hmem
      obtain ⟨field, hfield, hpair⟩ := List.mem_map.mp hmem
      have hkey : field.key = "locally_generated".toList := congrArg Prod.fst hpair
      rcases List.mem_append.mp (hperm.mem_iff.mp hfield) with hfield | hfield
      · exact hmissing (hkey ▸ List.mem_map_of_mem hfield)
      · exact hmore (hkey ▸ List.mem_map_of_mem hfield)
  · intro name _ hne
    rw [eventView, heventName, if_pos hne.symm]

/-- A disconnection by the other side, its fields in the other order. -/
theorem views_report_disconnected :
    let bssid : BareText := ⟨"02:00:00:00:01:00".toList, by simp⟩
    let report : Report := .disconnected bssid 3 false
    let event := parseEvent (renderEvent 3 report.name report.fields.reverse 0)
    (∃ view, eventView report.name event = .ok view ∧ report.Read view) ∧
      ∀ name ∈ viewNames, name ≠ report.name →
        eventView name event = .error (.otherEvent report.name name) := by
  intro bssid report
  refine views_report report 3 [] report.fields.reverse 0 ?_ ?_ (by simp)
  · rw [List.append_nil]
    exact List.reverse_perm _
  · simp [report, Report.fields]

end WpaCtrl
