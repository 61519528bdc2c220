/-
# Events (`events.py`)

An event is a datagram `<n>NAME params`.  This module embeds `parse_event`,
`is_event`, the tokenizer `_split_params`, `parse_params` and the view
`SsidTempDisabled`, and beside them the daemon's rendering of a list of fields.

The tokenizer is a machine of three variables and two flags that is run over the
payload one character at a time; `run_token` says what a whole field does to it, and
the rest is an induction over the fields.

* `event_read_back` : priority, name and fields of a rendered event are read back,
  whatever octets a quoted value holds.
-/
import WpaCtrl.Ssid
import WpaCtrl.Dict
import WpaCtrl.Integer

open Text

namespace WpaCtrl

/-! ## `parse_event` -/

/-- `MSG_INFO`, the priority of a message without a prefix. -/
def msgInfo : ℤ := 3

/-- `Event`. -/
structure Event where
  priority : ℤ
  name : Text
  params : Text
  raw : Text
  deriving DecidableEq

/-- `is_event`: replies never carry the priority prefix. -/
def isEvent (message : Text) : Bool := message.head? = some '<'

/-- The priority of a message and what is left of it behind the prefix. -/
def readPriority (message : Text) : ℤ × Text :=
  if isEvent message then
    let (digits, close, body) := partition '>' message.tail
    if close = [] then (msgInfo, message)
    else match int? digits with
      | some priority => (priority, body)
      -- `<` without a number is part of the text
      | none => (msgInfo, message)
  else (msgInfo, message)

/-- `parse_event`. -/
def parseEvent (message : Text) : Event :=
  let (priority, body) := readPriority message
  let (name, _, params) := partition ' ' (rstrip '\n' body)
  ⟨priority, name, params, message⟩

/-! ## `parse_params` -/

/-- The variables of the tokenizer's loop. -/
structure Splitter where
  tokens : List Text
  current : Text
  quoted : Bool
  escaped : Bool
  deriving DecidableEq

namespace Splitter

/-- Append to the current token. -/
def push (s : Splitter) (char : Char) : Splitter := { s with current := s.current ++ [char] }

/-- Close the current token, unless there is nothing in it. -/
def flush (s : Splitter) : Splitter :=
  if s.current = [] then s else { s with tokens := s.tokens ++ [s.current], current := [] }

/-- The loop body of `_split_params`. -/
def step (s : Splitter) (char : Char) : Splitter :=
  if s.escaped then { s.push char with escaped := false }
  else if s.quoted && char = '\\' then { s.push char with escaped := true }
  else if char = '"' then { s.push char with quoted := !s.quoted }
  else if char = ' ' && !s.quoted then s.flush
  else s.push char

/-- The loop of `_split_params`, from given variables. -/
def run (s : Splitter) (text : Text) : Splitter := text.foldl step s

/-- Between two tokens, or inside one that has no open quote. -/
def bare (tokens : List Text) (current : Text) : Splitter := ⟨tokens, current, false, false⟩

/-- Inside a quoted span. -/
def inside (tokens : List Text) (current : Text) : Splitter := ⟨tokens, current, true, false⟩

end Splitter

/-- `_split_params`. -/
def splitParams (text : Text) : List Text := ((Splitter.bare [] []).run text).flush.tokens

/-- A quoted value loses its quotes, and only these. -/
def unquote (value : Text) : Text :=
  if 2 ≤ value.length ∧ value.head? = some '"' ∧ value.getLast? = some '"' then
    value.tail.dropLast
  else value

/-- The pair a token makes; a token without `=` or without a key is skipped. -/
def readParam (token : Text) : Option (Text × Text) :=
  let (key, sep, value) := partition '=' token
  if sep = [] ∨ key = [] then none else some (key, unquote value)

/-- `parse_params`. -/
def parseParams (params : Text) : Dict Text Text :=
  Dict.ofPairs ((splitParams params).filterMap readParam)

/-- `Event.variables`. -/
def Event.variables (event : Event) : Dict Text Text := parseParams event.params

/-! ## The typed views -/

/-- The `ValueError`s of the typed views. -/
inductive ViewError where
  /-- `... is not ...`: an event of another name -/
  | otherEvent (name expected : Text)
  /-- `int` of a text that is no number -/
  | notANumber (text : Text)
  deriving DecidableEq

/-- `_EventView.from_event`, for the view that reads the events of the given name. -/
def eventView (expected : Text) (event : Event) : Except ViewError (Dict Text Text) :=
  if event.name ≠ expected then .error (.otherEvent event.name expected)
  else .ok event.variables

/-- `_Variables._int` in base ten. -/
def intVariable (view : Dict Text Text) (key : Text) : Except ViewError (Option ℤ) :=
  match view.get? key with
  | none => .ok none
  | some value =>
    match int? value with
    | some n => .ok (some n)
    | none => .error (.notANumber value)

namespace SsidTempDisabled

/-- `SsidTempDisabled.NAME`. -/
def eventName : Text := "CTRL-EVENT-SSID-TEMP-DISABLED".toList

/-- `SsidTempDisabled.from_event`. -/
def fromEvent (event : Event) : Except ViewError (Dict Text Text) := eventView eventName event

variable (view : Dict Text Text)

/-- `SsidTempDisabled.id`. -/
def id : Except ViewError (Option ℤ) := intVariable view "id".toList

/-- `SsidTempDisabled.ssid_bytes`. -/
def ssidBytes : Option Ssid := (view.get? "ssid".toList).map Ssid.fromPrintf

/-- `SsidTempDisabled.auth_failures`. -/
def authFailures : Except ViewError (Option ℤ) := intVariable view "auth_failures".toList

/-- `SsidTempDisabled.duration`. -/
def duration : Except ViewError (Option ℤ) := intVariable view "duration".toList

/-- `SsidTempDisabled.reason`. -/
def reason : Option Text := view.get? "reason".toList

end SsidTempDisabled

/-! ## The daemon's rendering -/

/-- The value of a payload field: a bare text, or octets in quotes. -/
inductive FieldValue where
  | bare (text : Text) (clean : ∀ c ∈ text, c ≠ ' ' ∧ c ≠ '"' ∧ c ≠ '\n')
  | quoted (octets : Bytes)

namespace FieldValue

/-- The value as it is sent. -/
def rendered : FieldValue → Text
  | bare text _ => text
  | quoted octets => '"' :: printfEncode octets ++ ['"']

/-- The value a client is to read: a quoted one loses its quotes. -/
def content : FieldValue → Text
  | bare text _ => text
  | quoted octets => printfEncode octets

/-- A printed number. -/
def number (n : ℤ) : FieldValue := bare (ofInt n) fun c hc => by
  obtain ⟨hprint, hspace⟩ := isPrintable_of_mem_ofInt hc
  refine ⟨hspace, ?_, ?_⟩
  · rintro rfl
    rcases mem_ofInt hc with h | h <;> exact absurd h (by decide)
  · rintro rfl
    exact absurd hprint (by decide)

end FieldValue

/-- A payload field. -/
structure Field where
  key : Text
  value : FieldValue
  key_ne_nil : key ≠ []
  key_clean : ∀ c ∈ key, c ≠ ' ' ∧ c ≠ '=' ∧ c ≠ '"'

/-- A field as it is sent. -/
def Field.token (field : Field) : Text := field.key ++ '=' :: field.value.rendered

/-- The fields behind the name, each after a space. -/
def fieldsText (fields : List Field) : Text := fields.flatMap fun field => ' ' :: field.token

/-- `<n>NAME k1=v1 k2=v2 ...` and trailing newlines. -/
def renderEvent (priority : ℕ) (name : Text) (fields : List Field) (newlines : ℕ) : Text :=
  '<' :: ofInt priority ++ '>' :: (name ++ fieldsText fields ++ List.replicate newlines '\n')

/-- What the daemon reports when it gives up on a network for a while. -/
structure TempDisabling where
  id : ℤ
  ssid : Bytes
  authFailures : ℤ
  duration : ℤ
  reason : Text
  reason_clean : ∀ c ∈ reason, c ≠ ' ' ∧ c ≠ '"' ∧ c ≠ '\n'

/-- The five fields of such a report. -/
def TempDisabling.fields (report : TempDisabling) : List Field :=
  [⟨"id".toList, .number report.id, by decide, by simp⟩,
    ⟨"ssid".toList, .quoted report.ssid, by decide, by simp⟩,
    ⟨"auth_failures".toList, .number report.authFailures, by decide, by simp⟩,
    ⟨"duration".toList, .number report.duration, by decide, by simp⟩,
    ⟨"reason".toList, .bare report.reason report.reason_clean, by decide, by simp⟩]

theorem TempDisabling.nodup_fields (report : TempDisabling) :
    (report.fields.map Field.key).Nodup := by
  simp [fields]

/-! ## Running the tokenizer -/

namespace Splitter

@[simp] theorem run_nil (s : Splitter) : s.run [] = s := rfl

theorem run_cons (s : Splitter) (c : Char) (text : Text) :
    s.run (c :: text) = (s.step c).run text := rfl

theorem run_append (s : Splitter) (a b : Text) : s.run (a ++ b) = (s.run a).run b := by
  unfold run
  rw [List.foldl_append]

variable (tokens : List Text) (current : Text)

/-- Outside quotes, plain characters go to the current token. -/
theorem run_bare {text : Text} (h : ∀ c ∈ text, c ≠ ' ' ∧ c ≠ '"') :
    (bare tokens current).run text = bare tokens (current ++ text) := by
  induction text generalizing current with
  | nil => simp
  | cons c text ih =>
    obtain ⟨hspace, hquote⟩ := h c (by simp)
    have hstep : (bare tokens current).step c = bare tokens (current ++ [c]) := by
      simp [step, bare, push, hspace, hquote]
    rw [run_cons, hstep, ih _ fun d hd => h d (by simp [hd]), List.append_assoc,
      List.singleton_append]

/-- Inside quotes, so does everything but quote and backslash. -/
theorem run_inside {text : Text} (h : ∀ c ∈ text, c ≠ '"' ∧ c ≠ '\\') :
    (inside tokens current).run text = inside tokens (current ++ text) := by
  induction text generalizing current with
  | nil => simp
  | cons c text ih =>
    obtain ⟨hquote, hslash⟩ := h c (by simp)
    have hstep : (inside tokens current).step c = inside tokens (current ++ [c]) := by
      simp [step, inside, push, hquote, hslash]
    rw [run_cons, hstep, ih _ fun d hd => h d (by simp [hd]), List.append_assoc,
      List.singleton_append]

/-- An encoded octet leaves the machine inside the quotes: the character behind a
backslash is taken whatever it is. -/
theorem run_printfEncodeOctet (b : UInt8) :
    (inside tokens current).run (printfEncodeOctet b) =
      inside tokens (current ++ printfEncodeOctet b) := by
  rcases printfEncodeOctet_shape b with ⟨c, hc, hclean⟩ | ⟨c, rest, hc, hclean⟩
  · rw [hc]
    apply run_inside
    simpa using hclean
  · -- the character behind the backslash may be a quote and closes nothing
    have hescape : (inside tokens current).run ['\\', c] = inside tokens (current ++ ['\\', c]) := by
      simp [run, step, inside, push]
    have hsplit : '\\' :: c :: rest = ['\\', c] ++ rest := rfl
    rw [hc, hsplit, run_append, hescape, run_inside tokens _ hclean, List.append_assoc]

theorem run_printfEncode (octets : Bytes) :
    (inside tokens current).run (printfEncode octets) =
      inside tokens (current ++ printfEncode octets) := by
  induction octets generalizing current with
  | nil => simp [printfEncode]
  | cons b octets ih =>
    have hcons : printfEncode (b :: octets) = printfEncodeOctet b ++ printfEncode octets := rfl
    rw [hcons, run_append, run_printfEncodeOctet, ih, List.append_assoc]

/-- A value of either kind ends outside quotes. -/
theorem run_rendered (value : FieldValue) :
    (bare tokens current).run value.rendered = bare tokens (current ++ value.rendered) := by
  cases value with
  | bare text clean => exact run_bare tokens current fun c hc => ⟨(clean c hc).1, (clean c hc).2.1⟩
  | quoted octets =>
    have hopen : (bare tokens current).step '"' = inside tokens (current ++ ['"']) := rfl
    have hclose : ∀ text, (inside tokens text).run ['"'] = bare tokens (text ++ ['"']) :=
      fun _ => rfl
    rw [FieldValue.rendered, List.cons_append, run_cons, hopen, run_append, run_printfEncode,
      hclose]
    simp

/-- **A whole field** goes to the current token. -/
theorem run_token (field : Field) :
    (bare tokens current).run field.token = bare tokens (current ++ field.token) := by
  have hkey : ∀ c ∈ field.key, c ≠ ' ' ∧ c ≠ '"' := fun c hc =>
    ⟨(field.key_clean c hc).1, (field.key_clean c hc).2.2⟩
  have heq : ∀ text, (bare tokens text).step '=' = bare tokens (text ++ ['=']) := fun _ => rfl
  rw [Field.token, run_append, run_bare tokens current hkey, run_cons, heq, run_rendered]
  simp

/-- A space closes a token. -/
theorem step_space (h : current ≠ []) :
    (bare tokens current).step ' ' = bare (tokens ++ [current]) [] := by
  simp [step, bare, flush, h]

theorem token_ne_nil (field : Field) : field.token ≠ [] := by
  unfold Field.token
  simp

/-- Behind a first field, the others become one token each. -/
theorem tokens_run_fieldsText (first : Field) (fields : List Field) :
    ((bare tokens first.token).run (fieldsText fields)).flush.tokens =
      tokens ++ first.token :: fields.map Field.token := by
  induction fields generalizing tokens first with
  | nil => simp [fieldsText, flush, bare, token_ne_nil]
  | cons next fields ih =>
    -- the space in front of a field closes the token of the field before it
    have hcons : fieldsText (next :: fields) = ' ' :: (next.token ++ fieldsText fields) := rfl
    rw [hcons, run_cons, step_space tokens _ (token_ne_nil first), run_append, run_token,
      List.nil_append, ih, List.append_assoc]
    rfl

end Splitter

/-! ## Reading an event back -/

/-- The tokens of a payload are its fields. -/
theorem splitParams_fields (first : Field) (fields : List Field) :
    splitParams (first.token ++ fieldsText fields) = (first :: fields).map Field.token := by
  rw [splitParams, Splitter.run_append, Splitter.run_token, List.nil_append,
    Splitter.tokens_run_fieldsText]
  rfl

/-- A value in quotes loses them, a bare one is not taken for quoted. -/
theorem unquote_rendered (value : FieldValue) : unquote value.rendered = value.content := by
  cases value with
  | bare text clean =>
    have hfirst : text.head? ≠ some '"' := fun h => (clean _ (List.mem_of_mem_head? h)).2.1 rfl
    rw [FieldValue.rendered, unquote, if_neg fun h => hfirst h.2.1]
    rfl
  | quoted octets =>
    have hquotes : 2 ≤ ('"' :: printfEncode octets ++ ['"']).length ∧
        ('"' :: printfEncode octets ++ ['"']).head? = some '"' ∧
        ('"' :: printfEncode octets ++ ['"']).getLast? = some '"' := by
      refine ⟨?_, rfl, List.getLast?_concat⟩
      rw [List.length_append, List.length_cons, List.length_singleton]
      omega
    rw [FieldValue.rendered, unquote, if_pos hquotes]
    exact List.dropLast_concat

theorem readParam_token (field : Field) :
    readParam field.token = some (field.key, field.value.content) := by
  have hkey : '=' ∉ field.key := fun h => (field.key_clean _ h).2.1 rfl
  rw [readParam, Field.token, partition_append hkey]
  simp [field.key_ne_nil, unquote_rendered]

/-- **Parameters are read back**: the keys in order, each with its value's content. -/
theorem parseParams_fields (first : Field) (fields : List Field)
    (hnodup : ((first :: fields).map Field.key).Nodup) :
    (parseParams (first.token ++ fieldsText fields)).entries =
      (first :: fields).map fun field => (field.key, field.value.content) := by
  have hread : readParam ∘ Field.token = some ∘ fun field => (field.key, field.value.content) := by
    funext field
    exact readParam_token field
  rw [parseParams, splitParams_fields, List.filterMap_map, hread, ← List.filterMap_map,
    List.filterMap_some]
  apply Dict.entries_ofPairs
  rw [List.map_map]
  exact hnodup

/-- The body of an event does not end in a newline of its own. -/
theorem getLast?_body {name : Text} (hname : '\n' ∉ name) (fields : List Field) :
    (name ++ fieldsText fields).getLast? ≠ some '\n' := by
  rcases List.eq_nil_or_concat fields with rfl | ⟨fields, last, rfl⟩
  · intro h
    rw [fieldsText, List.flatMap_nil, List.append_nil] at h
    exact hname (List.mem_of_getLast? h)
  · -- the last field ends in its value, or in `=` where that is empty
    have hvalue : ∀ c ∈ last.value.rendered, c ≠ '\n' := by
      intro c hc
      cases hkind : last.value with
      | bare text clean =>
        rw [hkind] at hc
        exact (clean c hc).2.2
      | quoted octets =>
        rw [hkind, FieldValue.rendered] at hc
        rintro rfl
        rcases List.mem_append.mp hc with hc | hc
        · rcases List.mem_cons.mp hc with hc | hc
          · exact absurd hc (by decide)
          · exact absurd (isPrintable_of_mem_printfEncode hc) (by decide)
        · exact absurd hc (by decide)
    have hend : (name ++ fieldsText (fields.concat last)).getLast? =
        ('=' :: last.value.rendered).getLast? := by
      rw [List.concat_eq_append, fieldsText, List.flatMap_append, List.flatMap_singleton,
        Field.token, ← List.cons_append, ← List.append_assoc, ← List.append_assoc]
      exact List.getLast?_append_cons _ _ _
    intro h
    rw [hend] at h
    rcases List.mem_cons.mp (List.mem_of_getLast? h) with hc | hc
    · exact absurd hc (by decide)
    · exact hvalue '\n' hc rfl

/-- The prefix of a rendered event is read as its priority. -/
theorem readPriority_renderEvent (priority : ℕ) (body : Text) :
    readPriority ('<' :: ofInt priority ++ '>' :: body) = (↑priority, body) := by
  have hclose : '>' ∉ ofInt priority := notMem_ofInt (by decide) (by decide) _
  have hevent : isEvent ('<' :: ofInt priority ++ '>' :: body) = true := rfl
  rw [readPriority, if_pos hevent, List.cons_append, List.tail_cons, partition_append hclose]
  simp [int?_ofInt]

/-- An event is parsed into its priority, its name and the text of its fields. -/
theorem parseEvent_renderEvent (priority : ℕ) {name : Text}
    (hname : ∀ c ∈ name, c ≠ ' ' ∧ c ≠ '\n') (fields : List Field) (newlines : ℕ) :
    parseEvent (renderEvent priority name fields newlines) =
      ⟨priority, name, (fieldsText fields).tail, renderEvent priority name fields newlines⟩ := by
  have hnewline : '\n' ∉ name := fun h => (hname _ h).2 rfl
  have hspace : ' ' ∉ name := fun h => (hname _ h).1 rfl
  have hstrip : rstrip '\n' (name ++ fieldsText fields ++ List.replicate newlines '\n') =
      name ++ fieldsText fields := by
    rw [rstrip_append_replicate]
    exact rstrip_of_getLast? (getLast?_body hnewline fields)
  unfold parseEvent
  rw [renderEvent, readPriority_renderEvent]
  simp only [hstrip]
  cases fields with
  | nil => simp [fieldsText, partition_of_notMem hspace]
  | cons first fields =>
    have hcons : fieldsText (first :: fields) = ' ' :: (first.token ++ fieldsText fields) := rfl
    rw [hcons, partition_append hspace]
    rfl

/-- The variables of a rendered event are its fields. -/
theorem variables_renderEvent (priority : ℕ) {name : Text}
    (hname : ∀ c ∈ name, c ≠ ' ' ∧ c ≠ '\n') {fields : List Field}
    (hnodup : (fields.map Field.key).Nodup) (newlines : ℕ) :
    (parseEvent (renderEvent priority name fields newlines)).variables.entries =
      fields.map fun field => (field.key, field.value.content) := by
  rw [parseEvent_renderEvent priority hname, Event.variables]
  cases fields with
  | nil => rfl
  | cons first fields => exact parseParams_fields first fields hnodup

/-- A field is looked up under its key. -/
theorem get?_variables {view : Dict Text Text} {fields : List Field}
    (hview : view.entries = fields.map fun field => (field.key, field.value.content))
    {field : Field} (hfield : field ∈ fields) :
    view.get? field.key = some field.value.content := by
  have hmem : (field.key, field.value.content) ∈ view.entries := by
    rw [hview]
    exact List.mem_map_of_mem hfield
  have hself : Dict.ofPairs view.entries = view := by
    apply Dict.ext
    exact Dict.entries_ofPairs view.nodup
  rw [← hself]
  exact Dict.get?_ofPairs_eq_some view.nodup hmem

/-- A number is read back under its key. -/
theorem intVariable_number {view : Dict Text Text} {key : Text} {n : ℤ}
    (h : view.get? key = some (ofInt n)) : intVariable view key = .ok (some n) := by
  simp only [intVariable, h, int?_ofInt]

/-- **An event is read back.**  Whatever the fields, in any order and followed by any
number of newlines, the datagram is an event with the priority, the name and exactly
the fields it was rendered from; a quoted value decodes to its octets; and the view
of a temporarily disabled network reports the five values written for it. -/
theorem event_read_back (priority : ℕ) (name : Text) (hname : ∀ c ∈ name, c ≠ ' ' ∧ c ≠ '\n')
    (fields : List Field) (hnodup : (fields.map Field.key).Nodup) (newlines : ℕ) :
    let message := renderEvent priority name fields newlines
    let event := parseEvent message
    isEvent message = true ∧ event.priority = priority ∧ event.name = name ∧
      event.variables.entries = fields.map (fun field => (field.key, field.value.content)) ∧
      (∀ field ∈ fields, ∀ octets, field.value = .quoted octets →
        (event.variables.get? field.key).map Ssid.fromPrintf = some octets) ∧
      ∀ report : TempDisabling, report.fields ⊆ fields → name = SsidTempDisabled.eventName →
        ∃ view, SsidTempDisabled.fromEvent event = .ok view ∧
          SsidTempDisabled.id view = .ok (some report.id) ∧
          SsidTempDisabled.ssidBytes view = some report.ssid ∧
          SsidTempDisabled.authFailures view = .ok (some report.authFailures) ∧
          SsidTempDisabled.duration view = .ok (some report.duration) ∧
          SsidTempDisabled.reason view = some report.reason := by
  intro message event
  have hparsed : event = ⟨priority, name, (fieldsText fields).tail, message⟩ :=
    parseEvent_renderEvent priority hname fields newlines
  have hentries : event.variables.entries =
      fields.map fun field => (field.key, field.value.content) :=
    variables_renderEvent priority hname hnodup newlines
  refine ⟨rfl, by rw [hparsed], by rw [hparsed], hentries, ?_, ?_⟩
  · intro field hfield octets hoctets
    rw [get?_variables hentries hfield, hoctets, Option.map_some]
    exact congrArg some (printfDecode_printfEncode octets)
  · intro report hreport htemp
    have hget : ∀ field ∈ report.fields, event.variables.get? field.key =
        some field.value.content := fun field hfield =>
      get?_variables hentries (hreport hfield)
    simp only [TempDisabling.fields, List.mem_cons, List.not_mem_nil, or_false, forall_eq_or_imp,
      forall_eq] at hget
    obtain ⟨hid, hssid, hfailures, hduration, hreason⟩ := hget
    refine ⟨event.variables, ?_, intVariable_number hid, ?_, intVariable_number hfailures,
      intVariable_number hduration, hreason⟩
    · have hsame : event.name = SsidTempDisabled.eventName := by rw [hparsed, htemp]
      rw [SsidTempDisabled.fromEvent, eventView, if_neg (not_not_intro hsame)]
    · rw [SsidTempDisabled.ssidBytes, hssid, Option.map_some]
      exact congrArg some (printfDecode_printfEncode report.ssid)

/-- A network named `" reason=OK \` cannot pass for a field of its own. -/
theorem event_read_back_forged_reason :
    let report : TempDisabling :=
      ⟨0, encode "\" reason=OK \\".toList, 1, 10, "WRONG_KEY".toList, by simp⟩
    let event := parseEvent (renderEvent 3 SsidTempDisabled.eventName report.fields 1)
    ∃ view, SsidTempDisabled.fromEvent event = .ok view ∧
      SsidTempDisabled.id view = .ok (some report.id) ∧
      SsidTempDisabled.ssidBytes view = some report.ssid ∧
      SsidTempDisabled.authFailures view = .ok (some report.authFailures) ∧
      SsidTempDisabled.duration view = .ok (some report.duration) ∧
      SsidTempDisabled.reason view = some report.reason := by
  intro report event
  have hname : ∀ c ∈ SsidTempDisabled.eventName, c ≠ ' ' ∧ c ≠ '\n' := by
    have hall : (SsidTempDisabled.eventName.all fun c => c ≠ ' ' && c ≠ '\n') = true := by decide
    intro c hc
    simpa using List.all_eq_true.mp hall c hc
  obtain ⟨-, -, -, -, -, hview⟩ :=
    event_read_back 3 SsidTempDisabled.eventName hname report.fields report.nodup_fields 1
  exact hview report (List.Subset.refl _) rfl

end WpaCtrl
