/-
# What a message that is not UTF-8 costs (`CtrlTransport.receive`, `Ssid.text`)

The socket carries octets, and every parser reads text.  `receive` decodes with
replacement, so that losing an octet of an access point's name does not lose the
message; `Ssid.text` decodes strictly, so that two different names never look alike.

* `scanResults_octets` : whatever octets the names of a scan table hold, every row is
  read, and only the names that are not UTF-8 are changed;
* `messages_survive` : the same for a block of variables and for an event;
* `ssidText_names_octets` : what an `ssid_text` says about the octets of a name.
-/
import WpaCtrl.Utf8
import WpaCtrl.Rows
import WpaCtrl.Events

open Text

namespace WpaCtrl

/-! ## Receiving -/

/-- `RECV_BUFFER`. -/
def recvBuffer : ℕ := 65536

/-- The text `CtrlTransport.receive` makes of a datagram: as much of it as the buffer
holds, decoded with `errors="replace"`. -/
def received (datagram : Bytes) : Text := Utf8.decodeReplace (datagram.take recvBuffer)

/-- What a daemon over the socket answers a command with, as text. -/
def overSocket (answer : Bytes → Bytes) (command : Text) : Text :=
  received (answer (encode command))

/-- A datagram that fits the buffer is decoded whole. -/
theorem received_of_length_le {datagram : Bytes} (h : datagram.length ≤ recvBuffer) :
    received datagram = Utf8.decodeReplace datagram := by
  rw [received, List.take_of_length_le h]

/-- **Whether a datagram is an event is decided by its first octet**, whatever the
others are. -/
theorem isEvent_received (datagram : Bytes) :
    isEvent (received datagram) = true ↔ datagram.head? = some 0x3c := by
  have hhead := Utf8.head?_decodeReplace_iff (by decide : '<'.toNat < 128) (datagram.take recvBuffer)
  have htake : (datagram.take recvBuffer).head? = datagram.head? := by
    cases datagram <;> rfl
  rw [htake] at hhead
  rw [isEvent, decide_eq_true_eq]
  exact hhead

/-! ## Octets in lines and columns -/

/-- Lines of octets, each with its newline. -/
def octetLines (lines : List Bytes) : Bytes := lines.flatMap (· ++ [0x0a])

/-- Decoding keeps the lines apart. -/
theorem decodeReplace_octetLines (lines : List Bytes) :
    Utf8.decodeReplace (octetLines lines) = unlines (lines.map Utf8.decodeReplace) := by
  induction lines with
  | nil => rfl
  | cons line lines ih =>
    have hline := Utf8.decodeReplace_append_ascii line (by decide : '\n'.toNat < 128)
      (octetLines lines)
    rw [List.map_cons, unlines_cons, ← ih, ← hline]
    simp [octetLines]

/-- The lines behind a header are found again, none of them being empty. -/
theorem splitlines_behind_header {header : Text} {lines : List Text}
    (hclean : ∀ line ∈ header :: lines, ∀ c ∈ line, isLineBoundary c = false)
    (hne : ∀ line ∈ lines, line ≠ []) :
    (splitlines (replyText (unlines (header :: lines)))).drop 1 = lines := by
  by_cases hempty : header = [] ∧ lines = []
  · -- an empty header alone is stripped with its newline
    rw [hempty.1, hempty.2]
    rfl
  · rw [replyText, splitlines_rstrip_unlines hclean, List.drop_one, List.tail_cons]
    intro line hline
    rcases List.eq_nil_or_concat lines with rfl | ⟨first, last, rfl⟩
    · obtain rfl : header = line := by simpa using hline
      exact fun h => hempty ⟨h, rfl⟩
    · rw [List.concat_eq_append, ← List.cons_append, List.getLast?_concat] at hline
      exact hne line (by simp [← Option.some.inj hline])

/-! ## A scan table of octets -/

/-- The line a daemon prints for a scan result when it puts the octets of the name on
the wire as they are. -/
def ScanRow.octets (row : ScanRow) : Bytes :=
  [0x09].intercalate [encode row.bssid.text, encode (ofInt row.frequency),
    encode (ofInt row.level), encode row.flags.text, row.ssid]

/-- The entry of such a line: the name alone is read with replacements. -/
def ScanRow.replaced (row : ScanRow) : ScanResult :=
  ⟨row.bssid.text, row.frequency, row.level, row.flags.text, Utf8.decodeReplace row.ssid⟩

/-- The text of a line of octets. -/
theorem decodeReplace_octets (row : ScanRow) :
    Utf8.decodeReplace row.octets = ['\t'].intercalate [row.bssid.text, ofInt row.frequency,
      ofInt row.level, row.flags.text, Utf8.decodeReplace row.ssid] := by
  have hjoin := Utf8.decodeReplace_intercalate (by decide : '\t'.toNat < 128)
    [encode row.bssid.text, encode (ofInt row.frequency), encode (ofInt row.level),
      encode row.flags.text, row.ssid]
  simp only [List.map_cons, List.map_nil, Utf8.decodeReplace_encode] at hjoin
  exact hjoin

/-- Four columns without a tabulator, and whatever stands behind them. -/
theorem scanLine?_columns {bssid flags : Text} (hbssid : '\t' ∉ bssid) (hflags : '\t' ∉ flags)
    (frequency level : ℤ) (ssid : Text) :
    scanLine? (['\t'].intercalate [bssid, ofInt frequency, ofInt level, flags, ssid]) =
      some ⟨bssid, frequency, level, flags, ssid⟩ := by
  have hint : ∀ n : ℤ, '\t' ∉ ofInt n := notMem_ofInt (by decide) (by decide)
  have hcut : (['\t'].intercalate [bssid, ofInt frequency, ofInt level, flags, ssid]).splitOn '\t' =
      bssid :: ofInt frequency :: ofInt level :: flags :: ssid.splitOn '\t' := by
    simp only [List.intercalate_cons_cons, List.intercalate_singleton, List.append_assoc,
      List.singleton_append]
    rw [List.splitOn_append_cons_self_of_not_mem hbssid,
      List.splitOn_append_cons_self_of_not_mem (hint frequency),
      List.splitOn_append_cons_self_of_not_mem (hint level),
      List.splitOn_append_cons_self_of_not_mem hflags]
  rcases hssid : ssid.splitOn '\t' with _ | ⟨first, more⟩
  · exact absurd hssid (List.splitOn_ne_nil '\t' ssid)
  · have hjoin : ['\t'].intercalate (first :: more) = ssid := by
      rw [← hssid]
      exact List.intercalate_splitOn '\t'
    simp only [scanLine?, hcut, hssid, int?_ofInt, hjoin]
    rfl

/-- **An ill-formed name costs nothing but its own column.**  A daemon prints its scan
table with the names as they came off the air, any octets whose text holds no line
boundary, under any header of one line and within one datagram: `scan_results` returns
one entry per row, in order, every other column as the daemon holds it, and the name
with each ill-formed run of octets replaced. -/
theorem scanResults_octets (answer : Bytes → Bytes) {header : Bytes}
    (hheader : ∀ c ∈ Utf8.decodeReplace header, isLineBoundary c = false) (rows : List ScanRow)
    (hrows : ∀ row ∈ rows, ∀ c ∈ Utf8.decodeReplace row.ssid, isLineBoundary c = false)
    (hanswer : answer (encode "SCAN_RESULTS".toList) =
      octetLines (header :: rows.map ScanRow.octets))
    (hfits : (answer (encode "SCAN_RESULTS".toList)).length ≤ recvBuffer) :
    scanResults (overSocket answer) = rows.map ScanRow.replaced := by
  have htext : overSocket answer "SCAN_RESULTS".toList =
      unlines (Utf8.decodeReplace header :: rows.map fun row => Utf8.decodeReplace row.octets) := by
    rw [overSocket, received_of_length_le hfits, hanswer, decodeReplace_octetLines,
      List.map_cons, List.map_map]
    rfl
  have hline : ∀ row ∈ rows, ∀ c ∈ Utf8.decodeReplace row.octets, isLineBoundary c = false := by
    intro row hrow c hc
    rw [decodeReplace_octets] at hc
    rcases mem_intercalate hc with rfl | ⟨column, hcolumn, hc⟩
    · decide
    · simp only [List.mem_cons, List.not_mem_nil, or_false] at hcolumn
      rcases hcolumn with rfl | rfl | rfl | rfl | rfl
      · exact isLineBoundary_of_isPrintable (row.bssid.printable c hc)
      · exact isLineBoundary_of_isPrintable (isPrintable_of_mem_ofInt hc).1
      · exact isLineBoundary_of_isPrintable (isPrintable_of_mem_ofInt hc).1
      · exact isLineBoundary_of_isPrintable (row.flags.printable c hc)
      · exact hrows row hrow c hc
  have hread : ∀ row : ScanRow, scanLine? (Utf8.decodeReplace row.octets) = some row.replaced := by
    intro row
    rw [decodeReplace_octets]
    exact scanLine?_columns (fun h => (clean_of_isPrintable (row.bssid.printable _ h)).1 rfl)
      (fun h => (clean_of_isPrintable (row.flags.printable _ h)).1 rfl) row.frequency row.level _
  have hne : ∀ line ∈ rows.map fun row => Utf8.decodeReplace row.octets, line ≠ [] := by
    intro line hrow
    obtain ⟨row, -, rfl⟩ := List.mem_map.mp hrow
    intro hnil
    have hnone : scanLine? [] = some row.replaced := hnil ▸ hread row
    cases hnone
  have hclean : ∀ line ∈ Utf8.decodeReplace header ::
      rows.map fun row => Utf8.decodeReplace row.octets, ∀ c ∈ line, isLineBoundary c = false := by
    rw [List.forall_mem_cons, List.forall_mem_map]
    exact ⟨hheader, hline⟩
  have hcompose : (scanLine? ∘ fun row : ScanRow => Utf8.decodeReplace row.octets) =
      some ∘ ScanRow.replaced := by
    funext row
    exact hread row
  rw [scanResults_eq, exchange, htext, splitlines_behind_header hclean hne, List.filterMap_map,
    hcompose, List.filterMap_eq_map]

/-- A network whose name is cut off in the middle of a character, before one that is not. -/
theorem scanResults_octets_truncated :
    let column : Column := ⟨"02:00:00:00:01:00".toList, List.all_eq_true.mp (by decide)⟩
    let flags : Column := ⟨"[ESS]".toList, List.all_eq_true.mp (by decide)⟩
    let rows : List ScanRow := [⟨column, 2412, -50, flags, [0x61, 0xe2, 0x82]⟩,
      ⟨column, 5180, -71, flags, [0x62]⟩]
    let answer : Bytes → Bytes := fun _ =>
      octetLines (encode "bssid / frequency".toList :: rows.map ScanRow.octets)
    scanResults (overSocket answer) = rows.map ScanRow.replaced := by
  intro column flags rows answer
  refine scanResults_octets answer ?_ rows ?_ rfl ?_
  · rw [Utf8.decodeReplace_encode]
    simp [isLineBoundary, lineBoundaries]
  · simp [rows, Utf8.decodeReplace, Utf8.scan, Utf8.scanFrom, Utf8.piece, Utf8.follow, Utf8.taken,
      Utf8.within, Utf8.continuation, Utf8.codePoint, Utf8.mark, isLineBoundary, lineBoundaries]
  · decide

/-! ## A block of octets -/

/-- The line of a variable whose value is put on the wire as it is. -/
def octetVariable (pair : Text × Bytes) : Bytes := encode pair.1 ++ 0x3d :: pair.2

theorem decodeReplace_octetVariable (pair : Text × Bytes) :
    Utf8.decodeReplace (octetVariable pair) =
      variableLine (pair.1, Utf8.decodeReplace pair.2) := by
  have := Utf8.decodeReplace_append_ascii (encode pair.1) (by decide : '='.toNat < 128) pair.2
  rw [Utf8.decodeReplace_encode] at this
  exact this

/-- An ill-formed value costs nothing but itself. -/
theorem parseVariables_octets {pairs : List (Text × Bytes)} (hkey : ∀ pair ∈ pairs, '=' ∉ pair.1)
    (hline : ∀ pair ∈ pairs, OneLine (pair.1, Utf8.decodeReplace pair.2))
    (hfits : (octetLines (pairs.map octetVariable)).length ≤ recvBuffer) :
    parseVariables (replyText (received (octetLines (pairs.map octetVariable)))) =
      Dict.ofPairs (pairs.map fun pair => (pair.1, Utf8.decodeReplace pair.2)) := by
  have htext : received (octetLines (pairs.map octetVariable)) =
      renderVariables (pairs.map fun pair => (pair.1, Utf8.decodeReplace pair.2)) := by
    rw [received_of_length_le hfits, decodeReplace_octetLines, renderVariables, List.map_map,
      List.map_map]
    congr 1
    apply List.map_congr_left
    intro pair _
    exact decodeReplace_octetVariable pair
  rw [htext]
  apply parseVariables_replyText
  · exact List.forall_mem_map.mpr hkey
  · exact List.forall_mem_map.mpr hline

/-! ## An event of octets -/

/-- An event as a daemon puts it on the wire: the priority, the name, and a payload of
any octets. -/
def octetEvent (priority : ℕ) (name : Text) (payload : Bytes) : Bytes :=
  encode ('<' :: ofInt priority ++ '>' :: name) ++ 0x20 :: payload

/-- An ill-formed payload costs neither the priority nor the name of its event. -/
theorem parseEvent_octets (priority : ℕ) {name : Text} (hname : ∀ c ∈ name, c ≠ ' ' ∧ c ≠ '\n')
    {payload : Bytes} (hfits : (octetEvent priority name payload).length ≤ recvBuffer) :
    parseEvent (received (octetEvent priority name payload)) =
      ⟨priority, name, rstrip '\n' (Utf8.decodeReplace payload),
        received (octetEvent priority name payload)⟩ := by
  have hspace : ' ' ∉ name := fun h => (hname _ h).1 rfl
  have htext : received (octetEvent priority name payload) =
      '<' :: ofInt priority ++ '>' :: (name ++ ' ' :: Utf8.decodeReplace payload) := by
    have := Utf8.decodeReplace_append_ascii (encode ('<' :: ofInt priority ++ '>' :: name))
      (by decide : ' '.toNat < 128) payload
    rw [Utf8.decodeReplace_encode] at this
    rw [received_of_length_le hfits, octetEvent]
    exact this.trans (by simp)
  have hstrip : rstrip '\n' (name ++ ' ' :: Utf8.decodeReplace payload) =
      name ++ ' ' :: rstrip '\n' (Utf8.decodeReplace payload) := by
    rw [rstrip_append ⟨' ', by simp, by decide⟩, rstrip_cons (by decide)]
  unfold parseEvent
  rw [htext, readPriority_renderEvent]
  simp only [hstrip, partition_append hspace]

/-- `Ssid.text`. -/
def Ssid.text (ssid : Ssid) : Option Text := Utf8.decode? ssid

/-- `ScanResult.ssid_text`. -/
def ScanResult.ssidText (result : ScanResult) : Option Text := Ssid.text result.ssidBytes

/-- `Network.ssid_text`. -/
def Network.ssidText (network : Network) : Option Text := Ssid.text network.ssidBytes

theorem ssidText_eq_some_iff {ssid : Ssid} {text : Text} :
    ssid.text = some text ↔ ssid = encode text :=
  Utf8.decode?_eq_some_iff

/-- Names with one reading are one name. -/
theorem eq_of_ssidText_eq {ssid ssid' : Ssid} (h : ssid.text = ssid'.text) (hne : ssid.text ≠ none) :
    ssid = ssid' := by
  obtain ⟨text, htext⟩ := Option.ne_none_iff_exists'.mp hne
  exact (ssidText_eq_some_iff.mp htext).trans (ssidText_eq_some_iff.mp (h ▸ htext)).symm

/-- The octets a scan entry carries are the row's. -/
theorem scanResults_ssidBytes {answer : Text → Text} {header : Text}
    (hheader : ∀ c ∈ header, isLineBoundary c = false) {rows : List ScanRow}
    (hscan : answer "SCAN_RESULTS".toList = renderTable header (rows.map ScanRow.columns)) :
    List.Forall₂ (fun result row => result.ssidBytes = row.ssid) (scanResults answer) rows := by
  rw [scanResults, exchange, hscan, parseScanResults_rendered hheader, List.forall₂_map_left_iff,
    List.forall₂_same]
  intro row _
  exact printfDecode_printfEncode row.ssid

/-- The octets a network entry carries are the row's. -/
theorem listNetworks_ssidBytes {answer : Text → Text} {header : Text}
    (hheader : ∀ c ∈ header, isLineBoundary c = false) {networks : List NetworkRow}
    (hlist : answer "LIST_NETWORKS".toList =
      renderTable header (networks.map NetworkRow.columns)) :
    List.Forall₂ (fun network row => network.ssidBytes = row.ssid) (listNetworks answer)
      networks := by
  rw [listNetworks, exchange, hlist, parseNetworks_rendered hheader, List.forall₂_map_left_iff,
    List.forall₂_same]
  intro row _
  exact printfDecode_printfEncode row.ssid

/-- **A name is shown as a text exactly when it is one.**  Against a daemon that prints its
scan table and its network table, the `ssid_text` of an entry is the text whose UTF-8 the
row's octets are, and `None` where there is none; and a scanned and a configured network
that show one text are named by the same octets. -/
theorem ssidText_names_octets (answer : Text → Text) (header header' : Text)
    (hheader : ∀ c ∈ header, isLineBoundary c = false)
    (hheader' : ∀ c ∈ header', isLineBoundary c = false)
    (rows : List ScanRow) (networks : List NetworkRow)
    (hscan : answer "SCAN_RESULTS".toList = renderTable header (rows.map ScanRow.columns))
    (hlist : answer "LIST_NETWORKS".toList =
      renderTable header' (networks.map NetworkRow.columns)) :
    List.Forall₂ (fun result row => ∀ text, result.ssidText = some text ↔ row.ssid = encode text)
        (scanResults answer) rows ∧
      List.Forall₂ (fun network row => ∀ text, network.ssidText = some text ↔
        row.ssid = encode text) (listNetworks answer) networks ∧
      ∀ result ∈ scanResults answer, ∀ network ∈ listNetworks answer,
        result.ssidText = network.ssidText → result.ssidText ≠ none →
          result.ssidBytes = network.ssidBytes := by
  refine ⟨?_, ?_, ?_⟩
  · apply (scanResults_ssidBytes hheader hscan).imp
    intro result row hoctets text
    rw [ScanResult.ssidText, hoctets, ssidText_eq_some_iff]
  · apply (listNetworks_ssidBytes hheader' hlist).imp
    intro network row hoctets text
    rw [Network.ssidText, hoctets, ssidText_eq_some_iff]
  · intro result _ network _ htext hne
    exact eq_of_ssidText_eq htext hne

/-- A name in UTF-8 beside one that is not, and a configured network with the first. -/
theorem ssidText_names_octets_cut :
    let column : Column := ⟨"02:00:00:00:01:00".toList, List.all_eq_true.mp (by decide)⟩
    let flags : Column := ⟨"[ESS]".toList, List.all_eq_true.mp (by decide)⟩
    let rows : List ScanRow := [⟨column, 2412, -50, flags, encode "café".toList⟩,
      ⟨column, 5180, -71, flags, [0x63, 0xc3]⟩]
    let networks : List NetworkRow := [⟨0, encode "café".toList, column, flags⟩]
    let answer : Text → Text := fun command =>
      if command = "SCAN_RESULTS".toList then
        renderTable "bssid / frequency".toList (rows.map ScanRow.columns)
      else renderTable "network id / ssid".toList (networks.map NetworkRow.columns)
    List.Forall₂ (fun result row => ∀ text, result.ssidText = some text ↔ row.ssid = encode text)
        (scanResults answer) rows ∧
      List.Forall₂ (fun network row => ∀ text, network.ssidText = some text ↔
        row.ssid = encode text) (listNetworks answer) networks ∧
      ∀ result ∈ scanResults answer, ∀ network ∈ listNetworks answer,
        result.ssidText = network.ssidText → result.ssidText ≠ none →
          result.ssidBytes = network.ssidBytes := by
  intro column flags rows networks answer
  refine ssidText_names_octets answer "bssid / frequency".toList "network id / ssid".toList
    ?_ ?_ rows networks rfl rfl
  · simp [isLineBoundary, lineBoundaries]
  · simp [isLineBoundary, lineBoundaries]

end WpaCtrl
