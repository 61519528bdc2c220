/-
# Malformed rows (`scan_results`, `list_networks`, `pmksa`)

Three commands read a table line by line.  What each line yields is said here by its
columns alone, and compared with what the loops make of a whole reply: a malformed line
is skipped by the first two, while `pmksa` skips the short ones and raises for a number
that is none.

* `tableRow?_bind` : a row of `parse_table` is read as its line says;
* `pmksaLoop_of_forall`, `pmksaLoop_of_exists` : when the loop of `pmksa` goes through, and
  when it raises;
* `malformed_rows` : exactly when a malformed line costs no other one.
-/
import WpaCtrl.Tables

open Text

namespace WpaCtrl

/-! ## `pmksa` -/

/-- `PmksaEntry`. -/
structure PmksaEntry where
  index : ℤ
  aa : Text
  pmkid : Text
  expiration : ℤ
  opportunistic : ℤ
  deriving DecidableEq

/-- The `ValueError` of `int`, with the text it could not read. -/
structure NotAnInteger where
  text : Text
  deriving DecidableEq

/-- `int(text)`. -/
def intOf (text : Text) : Except NotAnInteger ℤ :=
  match int? text with
  | some n => .ok n
  | none => .error ⟨text⟩

/-- The columns of a line of the PMKSA cache. -/
def pmksaFields (line : Text) : List Text := (line.splitOn '/').map strip

/-- The loop of `WpaCtrl.pmksa`, from the entries so far. -/
def pmksaLoop (entries : List PmksaEntry) : List Text → Except NotAnInteger (List PmksaEntry)
  | [] => .ok entries
  | line :: lines =>
    match pmksaFields line with
    | index :: aa :: pmkid :: expiration :: opportunistic :: _ => do
      let index ← intOf index
      let expiration ← intOf expiration
      let opportunistic ← intOf opportunistic
      pmksaLoop (entries ++ [⟨index, aa, pmkid, expiration, opportunistic⟩]) lines
    -- fewer than five columns
    | _ => pmksaLoop entries lines

/-- `WpaCtrl.pmksa`. -/
def pmksa (answer : Text → Text) : Except NotAnInteger (List PmksaEntry) :=
  pmksaLoop [] ((splitlines (exchange answer "PMKSA".toList)).drop 1)

/-! ## What a line yields by itself -/

/-- The scan result of a line with five columns or more, a further tabulator being part of
the last one, whose frequency and level are integers. -/
def scanLine? (line : Text) : Option ScanResult :=
  match line.splitOn '\t' with
  | bssid :: frequency :: level :: flags :: ssid :: more => do
    let frequency ← int? frequency
    let level ← int? level
    return ⟨bssid, frequency, level, flags, ['\t'].intercalate (ssid :: more)⟩
  | _ => none

/-- The network of a line with four columns or more whose id is an integer. -/
def networkLine? (line : Text) : Option Network :=
  match line.splitOn '\t' with
  | id :: ssid :: bssid :: flags :: more => do
    let id ← int? id
    return ⟨id, ssid, bssid, ['\t'].intercalate (flags :: more)⟩
  | _ => none

/-- The entry of a line with five columns or more whose numbers are integers. -/
def pmksaLine? (line : Text) : Option PmksaEntry :=
  match pmksaFields line with
  | index :: aa :: pmkid :: expiration :: opportunistic :: _ => do
    let index ← int? index
    let expiration ← int? expiration
    let opportunistic ← int? opportunistic
    return ⟨index, aa, pmkid, expiration, opportunistic⟩
  | _ => none

/-- A line of the PMKSA cache with five columns or more, and a number that is none. -/
def Unreadable (line : Text) : Prop :=
  match pmksaFields line with
  | index :: _ :: _ :: expiration :: opportunistic :: _ =>
    int? index = none ∨ int? expiration = none ∨ int? opportunistic = none
  | _ => False

section

variable {β : Type}

/-- What is asked of a table command against a daemon: it returns, with what the lines
behind the first yield, in order; and a daemon whose reply lacks one of these lines that
yields nothing gets the same out of it. -/
def RowsSurvive (run : (Text → Text) → Except NotAnInteger (List β)) (command : Text)
    (line? : Text → Option β) (answer : Text → Text) : Prop :=
  run answer = .ok (((splitlines (exchange answer command)).drop 1).filterMap line?) ∧
    ∀ answer' header before line after,
      splitlines (exchange answer command) = header :: (before ++ line :: after) →
        line? line = none → splitlines (exchange answer' command) = header :: (before ++ after) →
          run answer' = run answer

/-- A command that reads line by line drops a line that yields nothing, wherever it
stands. -/
theorem rowsSurvive_of_forall {run : (Text → Text) → Except NotAnInteger (List β)} {command : Text}
    {line? : Text → Option β} (sound : Text → Prop) {answer : Text → Text}
    (hrun : ∀ answer, (∀ line ∈ (splitlines (exchange answer command)).drop 1, sound line) →
      run answer = .ok (((splitlines (exchange answer command)).drop 1).filterMap line?))
    (hsound : ∀ line ∈ (splitlines (exchange answer command)).drop 1, sound line) :
    RowsSurvive run command line? answer := by
  refine ⟨hrun answer hsound, ?_⟩
  intro answer' header before line after hlines hnone hlines'
  have hsound' : ∀ l ∈ (splitlines (exchange answer' command)).drop 1, sound l := by
    rw [hlines', List.drop_one, List.tail_cons]
    rw [hlines, List.drop_one, List.tail_cons] at hsound
    intro l hl
    rcases List.mem_append.mp hl with hl | hl
    · exact hsound l (List.mem_append_left _ hl)
    · exact hsound l (List.mem_append_right _ (List.mem_cons_of_mem _ hl))
  rw [hrun answer' hsound', hrun answer hsound, hlines, hlines', List.drop_one, List.drop_one,
    List.tail_cons, List.tail_cons, List.filterMap_append, List.filterMap_append,
    List.filterMap_cons_none hnone]

end

/-! ## Rows and lines -/

/-- White space is no integer. -/
theorem int?_of_isSpace {text : Text} (h : ∀ c ∈ text, isSpace c = true) : int? text = none := by
  have hall : (whiteSpace.all fun c => (decimalValue? c).isNone && c ≠ '-' && c ≠ '+') = true := by
    decide +kernel
  have hsigned : ∀ text : Text, (∀ c ∈ text, isSpace c = true) → signed? text = none := by
    intro text h
    rcases text with _ | ⟨c, text⟩
    · rfl
    · have hspace := List.all_eq_true.mp hall c (by simpa [isSpace] using h c (by simp))
      simp only [Bool.and_eq_true, decide_eq_true_eq, Option.isNone_iff_eq_none] at hspace
      rw [signed?, numeral?, hspace.1.1]
      · rfl
      · exact fun _ heq => hspace.1.2 (List.cons.inj heq).1
      · exact fun _ heq => hspace.2 (List.cons.inj heq).1
  apply hsigned
  intro c hc
  have hfront := List.rdropWhile_prefix isIntSpace (l := text.dropWhile isIntSpace)
  exact h c ((List.dropWhile_suffix _).subset (hfront.subset hc))

/-- The columns of a blank line are white space. -/
theorem int?_of_blank {line column : Text} (hblank : strip line = [])
    (hcolumn : column ∈ line.splitOn '\t') : int? column = none := by
  apply int?_of_isSpace
  intro c hc
  by_contra hvisible
  have hline : c ∈ line := by
    have hjoin : ['\t'].intercalate (line.splitOn '\t') = line := List.intercalate_splitOn '\t'
    rw [← hjoin]
    exact mem_rowLine_of_mem hcolumn hc
  exact strip_ne_nil hline (by simpa using hvisible) hblank

/-- **A row of `parse_table` is read as its line says**, a further tabulator staying in
the last column, if blank lines are read as nothing. -/
theorem tableRow?_bind {β : Type} {columns : ℕ} {read : List Text → Option β} {line : Text}
    (hblank : strip line = [] → read ((line.splitOn '\t').take (columns - 1) ++
      [['\t'].intercalate ((line.splitOn '\t').drop (columns - 1))]) = none) :
    (tableRow? columns line).bind read =
      if (line.splitOn '\t').length < columns then none
      else read ((line.splitOn '\t').take (columns - 1) ++
        [['\t'].intercalate ((line.splitOn '\t').drop (columns - 1))]) := by
  unfold tableRow?
  by_cases hline : strip line = []
  · rw [if_pos hline, hblank hline, ite_self]
    rfl
  · by_cases hshort : (line.splitOn '\t').length < columns
    · simp only [if_neg hline, if_pos hshort, Option.bind_none]
    · simp only [if_neg hline, if_neg hshort, Option.bind_some]

theorem scanLine?_eq (line : Text) : (tableRow? 5 line).bind scanResult? = scanLine? line := by
  have hcolumn : strip line = [] → ∀ column ∈ line.splitOn '\t', int? column = none :=
    fun hblank column => int?_of_blank hblank
  rw [tableRow?_bind]
  · unfold scanLine?
    rcases line.splitOn '\t' with _ | ⟨bssid, _ | ⟨frequency, _ | ⟨level, _ | ⟨flags, _ | ⟨ssid, more⟩⟩⟩⟩⟩
    · rfl
    · rfl
    · rfl
    · rfl
    · rfl
    · exact if_neg (by simp)
  · intro hblank
    generalize line.splitOn '\t' = columns at hcolumn
    rcases columns with _ | ⟨bssid, _ | ⟨frequency, _ | ⟨level, _ | ⟨flags, more⟩⟩⟩⟩
    · rfl
    · rfl
    · rfl
    · rfl
    · have hfrequency : int? frequency = none := hcolumn hblank frequency (by simp)
      show (int? frequency).bind _ = none
      rw [hfrequency, Option.bind_none]

theorem networkLine?_eq (line : Text) : (tableRow? 4 line).bind network? = networkLine? line := by
  have hcolumn : strip line = [] → ∀ column ∈ line.splitOn '\t', int? column = none :=
    fun hblank column => int?_of_blank hblank
  rw [tableRow?_bind]
  · unfold networkLine?
    rcases line.splitOn '\t' with _ | ⟨id, _ | ⟨ssid, _ | ⟨bssid, _ | ⟨flags, more⟩⟩⟩⟩
    · rfl
    · rfl
    · rfl
    · rfl
    · exact if_neg (by simp)
  · intro hblank
    generalize line.splitOn '\t' = columns at hcolumn
    rcases columns with _ | ⟨id, _ | ⟨ssid, _ | ⟨bssid, more⟩⟩⟩
    · rfl
    · rfl
    · rfl
    · have hid : int? id = none := hcolumn hblank id (by simp)
      show (int? id).bind _ = none
      rw [hid, Option.bind_none]

/-- Both commands read their reply line by line. -/
theorem scanResults_eq (answer : Text → Text) : scanResults answer =
    ((splitlines (exchange answer "SCAN_RESULTS".toList)).drop 1).filterMap scanLine? := by
  rw [scanResults, parseTable, List.filterMap_filterMap]
  exact List.filterMap_congr fun line _ => scanLine?_eq line

theorem listNetworks_eq (answer : Text → Text) : listNetworks answer =
    ((splitlines (exchange answer "LIST_NETWORKS".toList)).drop 1).filterMap networkLine? := by
  rw [listNetworks, parseNetworks, parseTable, List.filterMap_filterMap]
  exact List.filterMap_congr fun line _ => networkLine?_eq line

/-! ## The loop of `pmksa` -/

/-- One turn: a short line is skipped, an entry is appended, and a number that is none
ends the loop. -/
theorem pmksaLoop_cons (entries : List PmksaEntry) (line : Text) (lines : List Text) :
    (¬ Unreadable line ∧ pmksaLoop entries (line :: lines) =
        pmksaLoop (entries ++ (pmksaLine? line).toList) lines) ∨
      (Unreadable line ∧ ∃ error, pmksaLoop entries (line :: lines) = .error error) := by
  unfold Unreadable pmksaLine?
  rw [pmksaLoop]
  rcases pmksaFields line with _ | ⟨index, _ | ⟨aa, _ | ⟨pmkid, _ | ⟨expiration, _ | ⟨opportunistic, more⟩⟩⟩⟩⟩
  · simp
  · simp
  · simp
  · simp
  · simp
  · simp only [intOf]
    rcases int? index with _ | index
    · exact Or.inr ⟨by simp, _, rfl⟩
    · rcases int? expiration with _ | expiration
      · exact Or.inr ⟨by simp, _, rfl⟩
      · rcases int? opportunistic with _ | opportunistic
        · exact Or.inr ⟨by simp, _, rfl⟩
        · exact Or.inl ⟨by simp, rfl⟩

/-- The loop over lines that are all readable or short. -/
theorem pmksaLoop_of_forall {lines : List Text} (h : ∀ line ∈ lines, ¬ Unreadable line)
    (entries : List PmksaEntry) :
    pmksaLoop entries lines = .ok (entries ++ lines.filterMap pmksaLine?) := by
  induction lines generalizing entries with
  | nil => rw [List.filterMap_nil, List.append_nil, pmksaLoop]
  | cons line lines ih =>
    rcases pmksaLoop_cons entries line lines with ⟨-, hstep⟩ | ⟨hbad, -⟩
    · rw [hstep, ih fun l hl => h l (List.mem_cons_of_mem _ hl), List.append_assoc]
      cases hline : pmksaLine? line with
      | none => rw [List.filterMap_cons_none hline]; rfl
      | some entry => rw [List.filterMap_cons_some hline]; rfl
    · exact absurd hbad (h line List.mem_cons_self)

/-- The loop that meets an unreadable line raises, whatever it has got. -/
theorem pmksaLoop_of_exists {lines : List Text} (h : ∃ line ∈ lines, Unreadable line)
    (entries : List PmksaEntry) : ∃ error, pmksaLoop entries lines = .error error := by
  induction lines generalizing entries with
  | nil => simp at h
  | cons line lines ih =>
    rcases pmksaLoop_cons entries line lines with ⟨hgood, hstep⟩ | ⟨-, hraised⟩
    · rw [hstep]
      refine ih ?_ _
      obtain ⟨bad, hmem, hbad⟩ := h
      rcases List.mem_cons.mp hmem with rfl | hmem
      · exact absurd hbad hgood
      · exact ⟨bad, hmem, hbad⟩
    · exact hraised

/-! ## Which malformed lines cost the others -/

/-- **Exactly when a malformed row costs no other one**: in `scan_results` and
`list_networks` always, in `pmksa` exactly when every line with five columns or more has
integers for its numbers. -/
theorem malformed_rows (answer : Text → Text) :
    RowsSurvive (fun answer => .ok (scanResults answer)) "SCAN_RESULTS".toList scanLine? answer ∧
      RowsSurvive (fun answer => .ok (listNetworks answer)) "LIST_NETWORKS".toList networkLine?
        answer ∧
      (RowsSurvive pmksa "PMKSA".toList pmksaLine? answer ↔
        ∀ line ∈ (splitlines (exchange answer "PMKSA".toList)).drop 1, ¬ Unreadable line) := by
  refine ⟨?_, ?_, ?_, ?_⟩
  · exact rowsSurvive_of_forall (fun _ => True)
      (fun answer _ => congrArg _ (scanResults_eq answer)) fun _ _ => trivial
  · exact rowsSurvive_of_forall (fun _ => True)
      (fun answer _ => congrArg _ (listNetworks_eq answer)) fun _ _ => trivial
  · rintro ⟨hrows, -⟩ line hline hbad
    obtain ⟨error, herror⟩ := pmksaLoop_of_exists ⟨line, hline, hbad⟩ []
    rw [pmksa, herror] at hrows
    cases hrows
  · exact rowsSurvive_of_forall (fun line => ¬ Unreadable line) fun answer h =>
      pmksaLoop_of_forall h []

/-- One row without a number, and the other one is lost. -/
theorem pmksa_row_costs_others : ¬ ∀ answer, RowsSurvive pmksa "PMKSA".toList pmksaLine? answer := by
  intro h
  have hlost : ∃ answer, pmksa answer = .error ⟨"?".toList⟩ :=
    ⟨fun _ => unlines ["Index / APs / PMKID / expiration / opportunistic".toList,
      "? / 00:11:22:33:44:55 / a0 / 10 / 0".toList,
      "1 / 00:11:22:33:44:66 / b0 / 20 / 0".toList], by decide +kernel⟩
  obtain ⟨answer, hlost⟩ := hlost
  obtain ⟨hrows, -⟩ := h answer
  rw [hlost] at hrows
  cases hrows

end WpaCtrl
