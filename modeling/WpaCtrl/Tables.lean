/-
# The scan and network tables (`scan_results`, `list_networks`)

`SCAN_RESULTS` and `LIST_NETWORKS` are answered with a header line and one line of
tab-separated columns per row.  `ScanRow` and `NetworkRow` are the daemon's side of
such a row, with the octets of the SSID; the client's entries hold the printf
spelling and decode it on demand.

* `tables_read_back` : both commands return one entry per row, in order, with equal
  columns and the original octets, whatever the SSIDs are.
-/
import WpaCtrl.Replies

open Text

namespace WpaCtrl

/-- What `request` returns when the daemon answers each command by `answer`. -/
def exchange (answer : Text → Text) (command : Text) : Text := replyText (answer command)

/-! ## The client's entries -/

/-- `ScanResult`, one row of `SCAN_RESULTS`. -/
structure ScanResult where
  bssid : Text
  frequency : ℤ
  signalLevel : ℤ
  flags : Text
  ssid : Text
  deriving DecidableEq

/-- `ScanResult.ssid_bytes`. -/
def ScanResult.ssidBytes (result : ScanResult) : Ssid := Ssid.fromPrintf result.ssid

/-- `Network`, one row of `LIST_NETWORKS`. -/
structure Network where
  id : ℤ
  ssid : Text
  bssid : Text
  flags : Text
  deriving DecidableEq

/-- `Network.ssid_bytes`. -/
def Network.ssidBytes (network : Network) : Ssid := Ssid.fromPrintf network.ssid

/-- The entry a scan row makes, unless `int` raises for one of its numbers.  A row
of `parse_table` has exactly as many fields as were asked for. -/
def scanResult? : List Text → Option ScanResult
  | [bssid, frequency, level, flags, ssid] => do
    let frequency ← int? frequency
    let level ← int? level
    return ⟨bssid, frequency, level, flags, ssid⟩
  | _ => none

/-- `WpaCtrl.scan_results`. -/
def scanResults (answer : Text → Text) : List ScanResult :=
  (parseTable (exchange answer "SCAN_RESULTS".toList) 5).filterMap scanResult?

/-- The entry a network row makes, unless `int` raises for its id. -/
def network? : List Text → Option Network
  | [id, ssid, bssid, flags] => do
    let id ← int? id
    return ⟨id, ssid, bssid, flags⟩
  | _ => none

/-- `WpaCtrl._parse_networks`. -/
def parseNetworks (reply : Text) : List Network := (parseTable reply 4).filterMap network?

/-- `WpaCtrl.list_networks`. -/
def listNetworks (answer : Text → Text) : List Network :=
  parseNetworks (exchange answer "LIST_NETWORKS".toList)

/-! ## The daemon's rows -/

/-- A text column of printable ASCII. -/
structure Column where
  text : Text
  printable : ∀ c ∈ text, isPrintable c = true
  deriving DecidableEq

/-- A scan result as the daemon holds it. -/
structure ScanRow where
  bssid : Column
  frequency : ℤ
  level : ℤ
  flags : Column
  ssid : Bytes

/-- The columns a scan result is printed in. -/
def ScanRow.columns (row : ScanRow) : List Text :=
  [row.bssid.text, ofInt row.frequency, ofInt row.level, row.flags.text, printfEncode row.ssid]

/-- A configured network as the daemon holds it. -/
structure NetworkRow where
  id : ℤ
  ssid : Bytes
  bssid : Column
  flags : Column
  deriving DecidableEq

/-- The columns a configured network is printed in. -/
def NetworkRow.columns (row : NetworkRow) : List Text :=
  [ofInt row.id, printfEncode row.ssid, row.bssid.text, row.flags.text]

/-- The entry the client holds for a network. -/
def NetworkRow.network (row : NetworkRow) : Network :=
  ⟨row.id, printfEncode row.ssid, row.bssid.text, row.flags.text⟩

/-! ## Reading them back -/

/-- A printable character neither separates columns nor lines. -/
theorem clean_of_isPrintable {c : Char} (h : isPrintable c = true) :
    c ≠ '\t' ∧ isLineBoundary c = false := by
  refine ⟨?_, isLineBoundary_of_isPrintable h⟩
  rintro rfl
  exact absurd h (by decide)

/-- A printed integer has a visible character. -/
theorem exists_visible_mem_ofInt (n : ℤ) : ∃ c ∈ ofInt n, isSpace c = false := by
  obtain ⟨c, hc⟩ := List.exists_mem_of_ne_nil _ (ofInt_ne_nil n)
  obtain ⟨hprint, hspace⟩ := isPrintable_of_mem_ofInt hc
  exact ⟨c, hc, isSpace_of_isPrintable hprint hspace⟩

/-- Columns of printable ASCII, one of them a printed integer, make a table row. -/
theorem tableRow_of_printable {row : List Text} (n : ℤ) (hn : ofInt n ∈ row)
    (h : ∀ field ∈ row, ∀ c ∈ field, isPrintable c = true) : TableRow row.length row where
  length := rfl
  clean := fun field hfield c hc => clean_of_isPrintable (h field hfield c hc)
  visible := ⟨ofInt n, hn, exists_visible_mem_ofInt n⟩

theorem ScanRow.tableRow (row : ScanRow) : TableRow 5 row.columns := by
  have hfrequency : ofInt row.frequency ∈ row.columns := by simp [ScanRow.columns]
  refine tableRow_of_printable row.frequency hfrequency ?_
  intro field hfield c hc
  simp only [ScanRow.columns, List.mem_cons, List.not_mem_nil, or_false] at hfield
  rcases hfield with rfl | rfl | rfl | rfl | rfl
  · exact row.bssid.printable c hc
  · exact (isPrintable_of_mem_ofInt hc).1
  · exact (isPrintable_of_mem_ofInt hc).1
  · exact row.flags.printable c hc
  · exact isPrintable_of_mem_printfEncode hc

theorem NetworkRow.tableRow (row : NetworkRow) : TableRow 4 row.columns := by
  have hid : ofInt row.id ∈ row.columns := by simp [NetworkRow.columns]
  refine tableRow_of_printable row.id hid ?_
  intro field hfield c hc
  simp only [NetworkRow.columns, List.mem_cons, List.not_mem_nil, or_false] at hfield
  rcases hfield with rfl | rfl | rfl | rfl
  · exact (isPrintable_of_mem_ofInt hc).1
  · exact isPrintable_of_mem_printfEncode hc
  · exact row.bssid.printable c hc
  · exact row.flags.printable c hc

/-- A network's columns are read back as its entry. -/
theorem network?_columns (row : NetworkRow) : network? row.columns = some row.network := by
  simp only [NetworkRow.columns, network?, int?_ofInt]
  rfl

/-- A rendered network list is read back as the entries of its rows. -/
theorem parseNetworks_rendered {header : Text} (hheader : ∀ c ∈ header, isLineBoundary c = false)
    (rows : List NetworkRow) :
    parseNetworks (replyText (renderTable header (rows.map NetworkRow.columns))) =
      rows.map NetworkRow.network := by
  have hrows : ∀ row ∈ rows.map NetworkRow.columns, TableRow 4 row := by
    intro row hrow
    obtain ⟨r, -, rfl⟩ := List.mem_map.mp hrow
    exact r.tableRow
  rw [parseNetworks, parseTable_rendered hheader hrows, List.filterMap_map]
  have hread : network? ∘ NetworkRow.columns = some ∘ NetworkRow.network := by
    funext row
    exact network?_columns row
  rw [hread, ← List.filterMap_map, List.filterMap_some]

/-- A rendered scan table is read back as the entries of its rows. -/
theorem parseScanResults_rendered {header : Text}
    (hheader : ∀ c ∈ header, isLineBoundary c = false) (rows : List ScanRow) :
    (parseTable (replyText (renderTable header (rows.map ScanRow.columns))) 5).filterMap
      scanResult? = rows.map fun row => ⟨row.bssid.text, row.frequency, row.level, row.flags.text,
        printfEncode row.ssid⟩ := by
  have hrows : ∀ row ∈ rows.map ScanRow.columns, TableRow 5 row := by
    intro row hrow
    obtain ⟨r, -, rfl⟩ := List.mem_map.mp hrow
    exact r.tableRow
  rw [parseTable_rendered hheader hrows, List.filterMap_map, ← List.filterMap_eq_map]
  congr 1
  funext row
  simp only [Function.comp, ScanRow.columns, scanResult?, int?_ofInt]
  rfl

/-- **The tables are read back.**  Against a daemon that prints its scan table and
its network table under any header of one line, `scan_results` and `list_networks`
return one entry per row, in order, with equal columns and the row's octets. -/
theorem tables_read_back (answer : Text → Text) (header header' : Text)
    (hheader : ∀ c ∈ header, isLineBoundary c = false)
    (hheader' : ∀ c ∈ header', isLineBoundary c = false)
    (rows : List ScanRow) (networks : List NetworkRow)
    (hscan : answer "SCAN_RESULTS".toList = renderTable header (rows.map ScanRow.columns))
    (hlist : answer "LIST_NETWORKS".toList =
      renderTable header' (networks.map NetworkRow.columns)) :
    (scanResults answer).map (fun r => (r.bssid, r.frequency, r.signalLevel, r.flags, r.ssidBytes))
        = rows.map (fun row => (row.bssid.text, row.frequency, row.level, row.flags.text, row.ssid)) ∧
      (listNetworks answer).map (fun n => (n.id, n.ssidBytes, n.bssid, n.flags))
        = networks.map (fun row => (row.id, row.ssid, row.bssid.text, row.flags.text)) := by
  constructor
  · rw [scanResults, exchange, hscan, parseScanResults_rendered hheader, List.map_map]
    apply List.map_congr_left
    intro row _
    simp only [Function.comp, ScanResult.ssidBytes, Ssid.fromPrintf, printfDecode_printfEncode]
  · rw [listNetworks, exchange, hlist, parseNetworks_rendered hheader', List.map_map]
    apply List.map_congr_left
    intro row _
    simp only [Function.comp, NetworkRow.network, Network.ssidBytes, Ssid.fromPrintf,
      printfDecode_printfEncode]

/-- A hidden network and one named with a tabulator, a quote and a newline, both in
the last column of the last row of their table. -/
theorem tables_read_back_hidden_and_binary :
    let bssid : Column := ⟨"02:00:00:00:01:00".toList, List.all_eq_true.mp (by decide)⟩
    let flags : Column := ⟨"[ESS]".toList, List.all_eq_true.mp (by decide)⟩
    let rows : List ScanRow := [⟨bssid, 2412, -50, flags, [9, 34, 10]⟩, ⟨bssid, 5180, -71, flags, []⟩]
    let networks : List NetworkRow := [⟨0, [], bssid, flags⟩, ⟨1, [9, 34, 10], bssid, flags⟩]
    let answer : Text → Text := fun command =>
      if command = "SCAN_RESULTS".toList then
        renderTable "bssid / frequency".toList (rows.map ScanRow.columns)
      else renderTable "network id / ssid".toList (networks.map NetworkRow.columns)
    (scanResults answer).map (fun r => (r.bssid, r.frequency, r.signalLevel, r.flags, r.ssidBytes))
        = rows.map (fun row => (row.bssid.text, row.frequency, row.level, row.flags.text, row.ssid)) ∧
      (listNetworks answer).map (fun n => (n.id, n.ssidBytes, n.bssid, n.flags))
        = networks.map (fun row => (row.id, row.ssid, row.bssid.text, row.flags.text)) := by
  intro bssid flags rows networks answer
  refine tables_read_back answer "bssid / frequency".toList "network id / ssid".toList
    ?_ ?_ rows networks rfl rfl
  · simp [isLineBoundary, lineBoundaries]
  · simp [isLineBoundary, lineBoundaries]

end WpaCtrl
