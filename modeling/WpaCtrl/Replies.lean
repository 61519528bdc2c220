/-
# Reading the daemon's replies (`replies.py`)

The two reply parsers, `parse_variables` for a `variable=value` block and
`parse_table` for tab-separated rows under a header, and `_addressed_variables`
for a block headed by a MAC address.

* `parseVariables_unlines` : a block whose keys and values hold no line boundary is
  read as the assignments of its lines, trailing newlines stripped or not;
* `parseVariables_rendered_iff` : the parser splits lines where `str.splitlines`
  does, so a rendered block is read back exactly when none of its texts holds one
  of the other line boundaries;
* `parseTable_rendered` : a rendered table is read back row by row.
-/
import WpaCtrl.Dict
import WpaCtrl.Integer
import WpaCtrl.Ssid

open Text

namespace WpaCtrl

/-- What `request` returns for a reply datagram: the text without its trailing
newlines. -/
def replyText (datagram : Text) : Text := rstrip '\n' datagram

/-! ## `parse_variables` -/

/-- One line of a block: the pair it assigns, if there is an `=` in it. -/
def readVariable (line : Text) : Option (Text × Text) :=
  let (key, sep, value) := partition '=' line
  if sep = [] then none else some (key, value)

/-- `parse_variables`: lines without an `=` are skipped. -/
def parseVariables (reply : Text) : Dict Text Text :=
  (splitlines reply).foldl
    (fun vars line =>
      match readVariable line with
      | some (key, value) => vars.set key value
      | none => vars)
    Dict.empty

/-- The loop is the loop of assignments over the lines that assign something. -/
theorem parseVariables_eq_ofPairs (reply : Text) :
    parseVariables reply = Dict.ofPairs ((splitlines reply).filterMap readVariable) := by
  rw [parseVariables, Dict.ofPairs, List.foldl_filterMap]
  congr 1
  funext vars line
  cases readVariable line <;> rfl

/-- A variable as the daemon prints it. -/
def variableLine (pair : Text × Text) : Text := pair.1 ++ '=' :: pair.2

/-- The daemon's rendering of a variable block. -/
def renderVariables (pairs : List (Text × Text)) : Text := unlines (pairs.map variableLine)

theorem readVariable_variableLine {pair : Text × Text} (h : '=' ∉ pair.1) :
    readVariable (variableLine pair) = some pair := by
  rw [readVariable, variableLine, partition_append h]
  rfl

theorem filterMap_variableLine {pairs : List (Text × Text)} (h : ∀ pair ∈ pairs, '=' ∉ pair.1) :
    (pairs.map variableLine).filterMap readVariable = pairs := by
  induction pairs with
  | nil => rfl
  | cons pair pairs ih =>
    rw [List.map_cons, List.filterMap_cons_some (readVariable_variableLine (h pair (by simp))),
      ih fun p hp => h p (by simp [hp])]

/-- A pair without a line boundary in either text. -/
def OneLine (pair : Text × Text) : Prop :=
  (∀ c ∈ pair.1, isLineBoundary c = false) ∧ ∀ c ∈ pair.2, isLineBoundary c = false

instance : DecidablePred OneLine := fun _ => inferInstanceAs (Decidable (_ ∧ _))

theorem noBoundary_variableLine {pair : Text × Text} (h : OneLine pair) :
    ∀ c ∈ variableLine pair, isLineBoundary c = false := by
  intro c hc
  rcases List.mem_append.mp hc with hc | hc
  · exact h.1 c hc
  · rcases List.mem_cons.mp hc with rfl | hc
    · decide
    · exact h.2 c hc

theorem noBoundary_map_variableLine {pairs : List (Text × Text)}
    (h : ∀ pair ∈ pairs, OneLine pair) :
    ∀ line ∈ pairs.map variableLine, ∀ c ∈ line, isLineBoundary c = false := by
  intro line hline
  obtain ⟨pair, hpair, rfl⟩ := List.mem_map.mp hline
  exact noBoundary_variableLine (h pair hpair)

/-- A block without line boundaries inside its texts assigns its pairs in order. -/
theorem parseVariables_unlines {pairs : List (Text × Text)} (hkey : ∀ pair ∈ pairs, '=' ∉ pair.1)
    (hline : ∀ pair ∈ pairs, OneLine pair) :
    parseVariables (renderVariables pairs) = Dict.ofPairs pairs := by
  rw [parseVariables_eq_ofPairs, renderVariables,
    splitlines_unlines (noBoundary_map_variableLine hline), filterMap_variableLine hkey]

/-- The same block after `request` has stripped its trailing newline. -/
theorem parseVariables_replyText {pairs : List (Text × Text)}
    (hkey : ∀ pair ∈ pairs, '=' ∉ pair.1) (hline : ∀ pair ∈ pairs, OneLine pair) :
    parseVariables (replyText (renderVariables pairs)) = Dict.ofPairs pairs := by
  have hlast : ∀ line, (pairs.map variableLine).getLast? = some line → line ≠ [] := by
    intro line h
    obtain ⟨pair, -, rfl⟩ := List.mem_map.mp (List.mem_of_getLast? h)
    simp [variableLine]
  rw [parseVariables_eq_ofPairs, replyText, renderVariables,
    splitlines_rstrip_unlines (noBoundary_map_variableLine hline) hlast,
    filterMap_variableLine hkey]

/-- What is read from a reply never holds a line boundary. -/
theorem oneLine_of_mem_parseVariables {reply : Text} {pair : Text × Text}
    (h : pair ∈ (parseVariables reply).entries) : OneLine pair := by
  rw [parseVariables_eq_ofPairs] at h
  obtain ⟨line, hline, hpair⟩ := List.mem_filterMap.mp (Dict.mem_of_mem_ofPairs h)
  have hbound := isLineBoundary_of_mem_splitlines reply line hline
  by_cases hsep : '=' ∈ line
  · simp only [readVariable, partition, if_pos hsep, List.cons_ne_nil, if_false] at hpair
    obtain rfl := Option.some.inj hpair
    refine ⟨fun c hc => hbound c ?_, fun c hc => hbound c ?_⟩
    · exact (List.takeWhile_prefix _).subset hc
    · exact (List.dropWhile_suffix _).subset (List.mem_of_mem_tail hc)
  · simp [readVariable, partition, if_neg hsep] at hpair

/-- **Exactly when a block is read back.**  For distinct keys without an `=`, the
parser returns the rendered pairs exactly when none of the texts holds a line
boundary of `str.splitlines`; for texts without newlines these are the nine
boundaries that are no separator on the wire. -/
theorem parseVariables_rendered_iff (pairs : List (Text × Text))
    (hnodup : (pairs.map Prod.fst).Nodup) (hkey : ∀ pair ∈ pairs, '=' ∉ pair.1) :
    (parseVariables (renderVariables pairs)).entries = pairs ↔ ∀ pair ∈ pairs, OneLine pair := by
  constructor
  · intro h pair hpair
    exact oneLine_of_mem_parseVariables (h.symm ▸ hpair)
  · intro h
    rw [parseVariables_unlines hkey h, Dict.entries_ofPairs hnodup]

/-- A station reply without such characters. -/
theorem parseVariables_rendered_iff_aid :
    (parseVariables (renderVariables [("aid".toList, "1".toList), ("wpa".toList, [])])).entries =
      [("aid".toList, "1".toList), ("wpa".toList, [])] :=
  (parseVariables_rendered_iff _ (by decide) (by decide)).mpr
    (by simp [OneLine, isLineBoundary, lineBoundaries])

/-- A peer whose device name holds a line separator adds a variable of its choice. -/
theorem parseVariables_rendered_device_name :
    ¬ (parseVariables (renderVariables
      [("device_name".toList, "x\u2028group_capab=0xff".toList)])).entries =
        [("device_name".toList, "x\u2028group_capab=0xff".toList)] := by
  decide

/-! ## Address-headed blocks -/

/-- `_is_address`: six pairs of hexadecimal digits between colons. -/
def isAddress (text : Text) : Bool :=
  let parts := text.splitOn ':'
  parts.length = 6 && parts.all fun part =>
    match part with
    | [c, d] => isHexDigit c && isHexDigit d
    | _ => false

/-- `_addressed_variables`: the address on the first line and the variables under
it; `none` stands for `(None, {})`. -/
def addressedVariables (reply : Text) : Option (Text × Dict Text Text) :=
  let (line, _, rest) := partition '\n' reply
  let address := strip line
  if isAddress address then some (address, parseVariables rest) else none

/-- An address consists of hexadecimal digits and colons. -/
theorem mem_of_isAddress {address : Text} (h : isAddress address = true) {c : Char}
    (hc : c ∈ address) : c = ':' ∨ isHexDigit c = true := by
  have hjoin : [':'].intercalate (address.splitOn ':') = address := List.intercalate_splitOn ':'
  rw [← hjoin] at hc
  rcases mem_intercalate hc with hc | ⟨part, hpart, hc⟩
  · exact Or.inl hc
  · simp only [isAddress, Bool.and_eq_true, List.all_eq_true] at h
    have hdigits := h.2 part hpart
    rcases part with _ | ⟨a, _ | ⟨b, _ | ⟨d, part⟩⟩⟩
    · simp at hdigits
    · simp at hdigits
    · simp only [Bool.and_eq_true] at hdigits
      simp only [List.mem_cons, List.not_mem_nil, or_false] at hc
      rcases hc with rfl | rfl
      · exact Or.inr hdigits.1
      · exact Or.inr hdigits.2
    · simp at hdigits

theorem isPrintable_of_mem_address {address : Text} (h : isAddress address = true) {c : Char}
    (hc : c ∈ address) : isPrintable c = true ∧ c ≠ ' ' := by
  rcases mem_of_isAddress h hc with rfl | hc
  · decide
  · exact isPrintable_of_isHexDigit hc

/-- A reply headed by an address is read as that address and the variables below. -/
theorem addressedVariables_address {address : Text} (h : isAddress address = true)
    (rest : Text) :
    addressedVariables (address ++ '\n' :: rest) = some (address, parseVariables rest) ∧
      addressedVariables address = some (address, parseVariables []) := by
  have hvis : ∀ c ∈ address, isSpace c = false := fun c hc =>
    isSpace_of_isPrintable (isPrintable_of_mem_address h hc).1 (isPrintable_of_mem_address h hc).2
  have hnewline : '\n' ∉ address := fun hc => absurd (isPrintable_of_mem_address h hc).1 (by decide)
  have hstrip : strip address = address := stripBy_of_forall hvis
  refine ⟨?_, ?_⟩
  · rw [addressedVariables, partition_append hnewline]
    simp only [hstrip, h, if_true]
  · rw [addressedVariables, partition_of_notMem hnewline]
    simp only [hstrip, h, if_true]

/-- An address-headed block is read back after `request` has stripped its newlines. -/
theorem addressedVariables_block {address : Text} (h : isAddress address = true)
    {pairs : List (Text × Text)} (hkey : ∀ pair ∈ pairs, '=' ∉ pair.1)
    (hline : ∀ pair ∈ pairs, OneLine pair) :
    addressedVariables (replyText (address ++ '\n' :: renderVariables pairs)) =
      some (address, Dict.ofPairs pairs) := by
  rcases pairs with _ | ⟨pair, pairs⟩
  · -- without variables the newline behind the address is stripped too
    have hlast : address.getLast? ≠ some '\n' := fun hlast =>
      absurd (isPrintable_of_mem_address h (List.mem_of_getLast? hlast)).1 (by decide)
    have hreply : replyText (address ++ '\n' :: renderVariables []) = address := by
      show rstrip '\n' (address ++ List.replicate 1 '\n') = address
      rw [rstrip_append_replicate, rstrip_of_getLast? hlast]
    rw [hreply, (addressedVariables_address h []).2]
    rfl
  · have hvisible : ∃ d ∈ renderVariables (pair :: pairs), d ≠ '\n' := by
      refine ⟨'=', ?_, by decide⟩
      simp [renderVariables, variableLine]
    have hreply : replyText (address ++ '\n' :: renderVariables (pair :: pairs)) =
        address ++ '\n' :: replyText (renderVariables (pair :: pairs)) := by
      have hassoc : ∀ text : Text, address ++ '\n' :: text = (address ++ ['\n']) ++ text := by simp
      rw [replyText, hassoc, rstrip_append hvisible, ← hassoc]
      rfl
    rw [hreply, (addressedVariables_address h _).1, parseVariables_replyText hkey hline]

/-! ## `parse_table` -/

/-- One line of a table: its fields, a further separator staying in the last one,
unless the line is blank or too short. -/
def tableRow? (columns : ℕ) (line : Text) : Option (List Text) :=
  if strip line = [] then none
  else
    let fields := line.splitOn '\t'
    if fields.length < columns then none
    else some (fields.take (columns - 1) ++ [['\t'].intercalate (fields.drop (columns - 1))])

/-- `parse_table`: the rows below the header. -/
def parseTable (reply : Text) (columns : ℕ) : List (List Text) :=
  ((splitlines reply).drop 1).filterMap (tableRow? columns)

/-- The daemon's rendering of a table row. -/
def rowLine (row : List Text) : Text := ['\t'].intercalate row

/-- The daemon's rendering of a table: a header and one line per row. -/
def renderTable (header : Text) (rows : List (List Text)) : Text :=
  unlines (header :: rows.map rowLine)

/-- A row the table format can carry: as many columns as the table has, none with a
tabulator or a line boundary in it, and something visible. -/
structure TableRow (columns : ℕ) (row : List Text) : Prop where
  length : row.length = columns
  clean : ∀ field ∈ row, ∀ c ∈ field, c ≠ '\t' ∧ isLineBoundary c = false
  visible : ∃ field ∈ row, ∃ c ∈ field, isSpace c = false

theorem mem_rowLine_of_mem {row : List Text} {field : Text} {c : Char} (hfield : field ∈ row)
    (hc : c ∈ field) : c ∈ rowLine row := by
  induction row with
  | nil => simp at hfield
  | cons first row ih =>
    rcases row with _ | ⟨next, row⟩
    · rw [List.mem_singleton] at hfield
      simpa [rowLine, hfield] using hc
    · rw [rowLine, List.intercalate_cons_cons]
      rcases List.mem_cons.mp hfield with rfl | hfield
      · simp [hc]
      · exact List.mem_append_right _ (ih hfield)

theorem noBoundary_rowLine {columns : ℕ} {row : List Text} (h : TableRow columns row) :
    ∀ c ∈ rowLine row, isLineBoundary c = false := by
  intro c hc
  rcases mem_intercalate hc with rfl | ⟨field, hfield, hc⟩
  · decide
  · exact (h.clean field hfield c hc).2

theorem rowLine_ne_nil {columns : ℕ} {row : List Text} (h : TableRow columns row) :
    rowLine row ≠ [] := by
  obtain ⟨field, hfield, c, hc, -⟩ := h.visible
  exact List.ne_nil_of_mem (mem_rowLine_of_mem hfield hc)

/-- A rendered row is read back. -/
theorem tableRow?_rowLine {columns : ℕ} {row : List Text}
    (h : TableRow columns row) : tableRow? columns (rowLine row) = some row := by
  obtain ⟨field, hfield, c, hc, hvis⟩ := h.visible
  have hblank : strip (rowLine row) ≠ [] := strip_ne_nil (mem_rowLine_of_mem hfield hc) hvis
  have hne : row ≠ [] := List.ne_nil_of_mem hfield
  have hsplit : (rowLine row).splitOn '\t' = row :=
    List.splitOn_intercalate '\t' (fun f hf ht => (h.clean f hf '\t' ht).1 rfl) hne
  have hlast : row.drop (columns - 1) = [row.getLast hne] := by
    rw [← h.length, List.drop_length_sub_one]
  rw [tableRow?, if_neg hblank]
  simp only [hsplit]
  rw [if_neg (by rw [h.length]; omega), hlast, List.intercalate_singleton, ← hlast,
    List.take_append_drop]

/-- **A rendered table is read back**, row by row, under any header of one line and
after `request` has stripped the trailing newline. -/
theorem parseTable_rendered {columns : ℕ} {header : Text}
    (hheader : ∀ c ∈ header, isLineBoundary c = false) {rows : List (List Text)}
    (hrows : ∀ row ∈ rows, TableRow columns row) :
    parseTable (replyText (renderTable header rows)) columns = rows := by
  have hclean : ∀ line ∈ header :: rows.map rowLine, ∀ c ∈ line, isLineBoundary c = false := by
    simp only [List.mem_cons, List.mem_map]
    rintro line (rfl | ⟨row, hrow, rfl⟩)
    · exact hheader
    · exact noBoundary_rowLine (hrows row hrow)
  have hlines : (splitlines (replyText (renderTable header rows))).drop 1 = rows.map rowLine := by
    by_cases hempty : rows = [] ∧ header = []
    · -- of an empty header and no rows, nothing is left after the stripping
      rw [hempty.1, hempty.2]
      decide
    · rw [replyText, renderTable, splitlines_rstrip_unlines hclean]
      · rfl
      · intro line hline
        rcases List.eq_nil_or_concat rows with rfl | ⟨first, last, rfl⟩
        · obtain rfl : header = line := by simpa using hline
          exact fun h => hempty ⟨rfl, h⟩
        · rw [List.concat_eq_append, List.map_append, List.map_cons, List.map_nil,
            ← List.cons_append, List.getLast?_concat] at hline
          rw [← Option.some.inj hline]
          exact rowLine_ne_nil (hrows last (by simp))
  rw [parseTable, hlines, List.filterMap_map]
  have hread : ∀ row ∈ rows, (tableRow? columns ∘ rowLine) row = some row := fun row hrow =>
    tableRow?_rowLine (hrows row hrow)
  rw [List.filterMap_congr hread, List.filterMap_some]

end WpaCtrl
