/-
# Methods that send one command (`client.py`)

Most methods of `WpaCtrl` make one request and read its reply: a text built of the
arguments goes out, and what comes back is `OK` or a refusal, an identifier, or a value.
A `Method` is such a text with the reading of its reply.

* `dpp_parameters_survive` : every DPP command carries its parameters, which are read
  back from the text that was sent;
* `p2p_arguments_told_apart` : which calls with optional arguments send the same text.
-/
import WpaCtrl.Compat
import WpaCtrl.Params

open Text

namespace WpaCtrl

/-! ## One request -/

/-- `WpaCtrlCommandFailed`: the command that was refused, and what came back. -/
structure CommandFailed where
  command : Text
  reply : Text
  deriving DecidableEq

/-- A method that makes one request: the command it sends, and what it makes of the text
that `request` returns. -/
structure Method (β : Type) where
  sent : Text
  read : Text → Except CommandFailed β

/-- A command word followed by arguments, with a space although there may be none. -/
def followed (command arguments : Text) : Text := command ++ ' ' :: arguments

/-- `f"{command} {arguments}" if arguments else command` -/
def withArguments (command arguments : Text) : Text :=
  if arguments = [] then command else followed command arguments

/-- `command += f" {name}{argument}"` unless the argument is `None`. -/
def appended (command name : Text) : Option Text → Text
  | none => command
  | some argument => command ++ ' ' :: (name ++ argument)

/-- The `persistent` argument of `p2p_group_add`: `True`, or what names the group. -/
inductive Persistent where
  | yes
  | group (id : Text)
  deriving DecidableEq

namespace Method

variable {β σ : Type}

/-- The method against a daemon that answers each command by `daemon`: what it returns or
raises, and the daemon afterwards. -/
def against (m : Method β) (daemon : σ → Text → Text × σ) (s : σ) : Except CommandFailed β × σ :=
  (m.read (replyText (daemon s m.sent).1), (daemon s m.sent).2)

/-- `WpaCtrl.command` -/
def command (text : Text) : Method Unit where
  sent := text
  read reply := if strip reply = replyOk then .ok () else .error ⟨text, reply⟩

/-- `WpaCtrl.try_command` -/
def tryCommand (text : Text) : Method Bool where
  sent := text
  read reply := .ok (decide (strip reply = replyOk))

/-- A request whose reply is the answer, without the white space around it. -/
def stripped (text : Text) : Method Text where
  sent := text
  read reply := .ok (strip reply)

/-- A request whose reply is an identifier, as `add_network` and `_dpp_id` read it. -/
def identifier (text : Text) : Method ℤ where
  sent := text
  read reply :=
    match int? (strip reply) with
    | some id => .ok id
    | none => .error ⟨text, strip reply⟩

/-- **`try_command` is `command` with its refusal as an answer.** -/
theorem tryCommand_against (text : Text) (daemon : σ → Text → Text × σ) (s : σ) :
    (tryCommand text).against daemon s =
      (.ok ((command text).against daemon s).1.isOk, ((command text).against daemon s).2) := by
  simp only [against, tryCommand, command]
  split_ifs with hreply <;> simp [hreply, Except.isOk, Except.toBool]

/-! ## Capabilities -/

/-- `str.split()`: the words between runs of white space. -/
def split (text : Text) : List Text := (text.splitOnP isSpace).filter (· ≠ [])

/-- `WpaCtrl.get_capability` -/
def getCapability (option : Text) (strict : Bool) : Method (List Text) where
  sent := "GET_CAPABILITY ".toList ++ option ++ if strict then " strict".toList else []
  read reply := .ok (split reply)

/-- `WpaCtrl.supports_key_mgmt` -/
def supportsKeyMgmt (name : Text) : Method Bool where
  sent := (getCapability "key_mgmt".toList false).sent
  read reply := ((getCapability "key_mgmt".toList false).read reply).map fun found =>
    decide (name ∈ found)

/-- A space ends a word, if there is one. -/
theorem split_append_cons (a : Text) {c : Char} (hc : isSpace c = true) (b : Text) :
    split (a ++ c :: b) = split a ++ split b := by
  rw [split, List.splitOnP_append_cons a b hc, List.filter_append]
  rfl

/-- White space behind a text ends its last word. -/
theorem split_append_spaces (a : Text) {gap : Text} (hgap : ∀ c ∈ gap, isSpace c = true)
    (b : Text) (hne : gap ≠ []) : split (a ++ gap ++ b) = split a ++ split b := by
  induction gap generalizing a with
  | nil => exact absurd rfl hne
  | cons c gap ih =>
    have hc : isSpace c = true := hgap c (by simp)
    rcases gap with _ | ⟨d, gap⟩
    · rw [List.append_assoc, List.singleton_append, split_append_cons a hc]
    · have hrest := ih (a ++ [c]) (fun e he => hgap e (by simp [he])) (by simp)
      have hfront : split (a ++ [c]) = split a := by
        rw [split_append_cons a hc]
        simp [split]
      rw [hfront] at hrest
      rw [← hrest]
      simp

theorem split_word {word : Text} (hne : word ≠ []) (hword : ∀ c ∈ word, isSpace c = false) :
    split word = [word] := by
  rw [split, List.splitOnP_eq_singleton hword]
  simp [hne]

/-- A word with white space behind it. -/
structure SpacedWord where
  word : Text
  gap : Text
  word_ne_nil : word ≠ []
  word_clean : ∀ c ∈ word, isSpace c = false
  gap_ne_nil : gap ≠ []
  gap_clean : ∀ c ∈ gap, isSpace c = true

/-- The words are split off, whatever white space is between them. -/
theorem split_spacedWords (words : List SpacedWord) :
    split (words.flatMap fun w => w.word ++ w.gap) = words.map SpacedWord.word := by
  induction words with
  | nil => rfl
  | cons w words ih =>
    rw [List.flatMap_cons, split_append_spaces w.word w.gap_clean _ w.gap_ne_nil,
      split_word w.word_ne_nil w.word_clean, ih]
    rfl

/-- The newlines `request` strips are white space. -/
theorem split_replyText (datagram : Text) : split (replyText datagram) = split datagram := by
  obtain ⟨k, hk⟩ := exists_rstrip_append '\n' datagram
  have hspace : ∀ c ∈ List.replicate k '\n', isSpace c = true := by
    intro c hc
    rw [(List.mem_replicate.mp hc).2]
    decide
  rcases eq_or_ne (List.replicate k '\n') [] with hnil | hne
  · rw [hnil, List.append_nil] at hk
    rw [replyText, ← hk]
  · have hsplit := split_append_spaces (replyText datagram) hspace [] hne
    rw [List.append_nil, replyText, ← hk] at hsplit
    rw [hsplit]
    simp [split, replyText]

/-- Words between any runs of white space are the capabilities. -/
theorem getCapability_against (daemon : σ → Text → Text × σ) (s : σ) (option : Text)
    (strict : Bool) {lead : Text} (hlead : ∀ c ∈ lead, isSpace c = true) (words : List SpacedWord)
    (hanswer : (daemon s (getCapability option strict).sent).1 =
      lead ++ words.flatMap fun w => w.word ++ w.gap) :
    ((getCapability option strict).against daemon s).1 = .ok (words.map SpacedWord.word) := by
  show Except.ok (split (replyText _)) = _
  rw [split_replyText, hanswer]
  rcases eq_or_ne lead [] with rfl | hne
  · rw [List.nil_append, split_spacedWords]
  · have hsplit := split_append_spaces [] hlead (words.flatMap fun w => w.word ++ w.gap) hne
    rw [List.nil_append] at hsplit
    rw [hsplit, split_spacedWords]
    rfl

/-- **A suite is offered when it is one of the words**, and not when it is part of one.
Against a daemon that answers `GET_CAPABILITY key_mgmt` with words between any runs of white
space, `get_capability` returns the words in order, and `supports_key_mgmt` is true of them
and of nothing else. -/
theorem supportsKeyMgmt_iff (daemon : σ → Text → Text × σ) (s : σ) (lead : Text)
    (hlead : ∀ c ∈ lead, isSpace c = true) (words : List SpacedWord)
    (hanswer : (daemon s "GET_CAPABILITY key_mgmt".toList).1 =
      lead ++ words.flatMap fun w => w.word ++ w.gap) :
    ((getCapability "key_mgmt".toList false).against daemon s).1 =
        .ok (words.map SpacedWord.word) ∧
      ∀ name, ((supportsKeyMgmt name).against daemon s).1 = .ok true ↔
        ∃ w ∈ words, w.word = name := by
  have hread := getCapability_against daemon s "key_mgmt".toList false hlead words hanswer
  refine ⟨hread, fun name => ?_⟩
  have hmap : ((supportsKeyMgmt name).against daemon s).1 =
      ((getCapability "key_mgmt".toList false).against daemon s).1.map fun found =>
        decide (name ∈ found) := rfl
  rw [hmap, hread, Except.map, Except.ok.injEq, decide_eq_true_eq, List.mem_map]

/-- A suite that is part of another one's name. -/
theorem supportsKeyMgmt_iff_sae :
    let word : SpacedWord := ⟨"SAE-EXT-KEY".toList, "\n".toList, by decide,
      by simp [isSpace, whiteSpace], by decide, by simp [isSpace, whiteSpace]⟩
    let daemon : Unit → Text → Text × Unit := fun s _ => ("SAE-EXT-KEY\n".toList, s)
    ((getCapability "key_mgmt".toList false).against daemon ()).1 =
        .ok ([word].map SpacedWord.word) ∧
      ∀ name, ((supportsKeyMgmt name).against daemon ()).1 = .ok true ↔
        ∃ w ∈ [word], w.word = name := by
  intro word daemon
  exact supportsKeyMgmt_iff daemon () [] (by simp) [word] rfl

/-! ## Networks -/

/-- `WpaCtrl.add_network` -/
def addNetwork : Method ℤ := identifier "ADD_NETWORK".toList

/-- `WpaCtrl.remove_network` -/
def removeNetwork (networkId : Text) : Method Unit :=
  command (followed "REMOVE_NETWORK".toList networkId)

/-- `WpaCtrl.set_network` -/
def setNetwork (networkId variable_ value : Text) (quoted : Bool) : Method Unit :=
  command ("SET_NETWORK ".toList ++ networkId ++ ' ' :: variable_ ++ ' ' ::
    if quoted then quote value else value)

/-- `WpaCtrl.get_network` -/
def getNetwork (networkId variable_ : Text) : Method Text :=
  stripped ("GET_NETWORK ".toList ++ networkId ++ ' ' :: variable_)

/-- `WpaCtrl.enable_network` -/
def enableNetwork (networkId : Text) : Method Unit :=
  command (followed "ENABLE_NETWORK".toList networkId)

/-- `WpaCtrl.disable_network` -/
def disableNetwork (networkId : Text) : Method Unit :=
  command (followed "DISABLE_NETWORK".toList networkId)

/-- `WpaCtrl.select_network` -/
def selectNetwork (networkId : Text) : Method Unit :=
  command (followed "SELECT_NETWORK".toList networkId)

/-! ## Optional arguments -/

/-- `WpaCtrl.p2p_find` -/
def p2pFind (duration : Option ℤ) (type_ : Option Text) : Method Unit :=
  command (appended (appended "P2P_FIND".toList [] (duration.map ofInt)) "type=".toList type_)

/-- `WpaCtrl.p2p_group_add` -/
def p2pGroupAdd (persistent : Option Persistent) (freq : Option ℤ) : Method Unit :=
  let text :=
    match persistent with
    | none => "P2P_GROUP_ADD".toList
    | some .yes => "P2P_GROUP_ADD persistent".toList
    | some (.group id) => "P2P_GROUP_ADD persistent=".toList ++ id
  command (appended text "freq=".toList (freq.map ofInt))

/-- `WpaCtrl.p2p_invite` -/
def p2pInvite (group peer persistent : Option Text) : Method Unit :=
  command (appended (appended (appended "P2P_INVITE".toList "persistent=".toList persistent)
    "group=".toList group) "peer=".toList peer)

/-- `WpaCtrl.p2p_ext_listen` -/
def p2pExtListen (period interval : Option ℤ) : Method Unit :=
  match period, interval with
  | some period, some interval =>
    command ("P2P_EXT_LISTEN ".toList ++ ofInt period ++ ' ' :: ofInt interval)
  | _, _ => command "P2P_EXT_LISTEN".toList

/-! ## Commands that take DPP parameters -/

section

variable (params : List (Text × Option Text))

/-- `WpaCtrl._dpp_id` -/
def dppId (command arguments : Text) : Method ℤ := identifier (withArguments command arguments)

/-- `WpaCtrl.dpp_configurator_add` -/
def dppConfiguratorAdd : Method ℤ := dppId "DPP_CONFIGURATOR_ADD".toList (formatParams params)

/-- `WpaCtrl.dpp_configurator_set` -/
def dppConfiguratorSet (configuratorId : Text) : Method Unit :=
  command (followed ("DPP_CONFIGURATOR_SET ".toList ++ configuratorId) (formatParams params))

/-- `WpaCtrl.dpp_configurator_sign` -/
def dppConfiguratorSign : Method Unit :=
  command (followed "DPP_CONFIGURATOR_SIGN".toList (formatParams params))

/-- `WpaCtrl.dpp_bootstrap_gen` -/
def dppBootstrapGen : Method ℤ := dppId "DPP_BOOTSTRAP_GEN".toList (formatParams params)

/-- `WpaCtrl.dpp_bootstrap_set` -/
def dppBootstrapSet (bootstrapId : Text) : Method Unit :=
  command (followed ("DPP_BOOTSTRAP_SET ".toList ++ bootstrapId) (formatParams params))

/-- `WpaCtrl.dpp_listen` -/
def dppListen (freq : ℤ) : Method Unit :=
  command (withArguments ("DPP_LISTEN ".toList ++ ofInt freq) (formatParams params))

/-- `WpaCtrl.dpp_auth_init` -/
def dppAuthInit : Method Unit := command (followed "DPP_AUTH_INIT".toList (formatParams params))

/-- `WpaCtrl.dpp_chirp` -/
def dppChirp : Method Unit := command (followed "DPP_CHIRP".toList (formatParams params))

/-- `WpaCtrl.dpp_push_button` -/
def dppPushButton : Method Unit :=
  command (withArguments "DPP_PUSH_BUTTON".toList (formatParams params))

/-- `WpaCtrl.dpp_pkex_add` -/
def dppPkexAdd : Method ℤ := dppId "DPP_PKEX_ADD".toList (formatParams params)

/-- `WpaCtrl.dpp_controller_start` -/
def dppControllerStart : Method Unit :=
  command (withArguments "DPP_CONTROLLER_START".toList (formatParams params))

/-- `WpaCtrl.dpp_ca_set` -/
def dppCaSet : Method Unit := command (followed "DPP_CA_SET".toList (formatParams params))

/-- `WpaCtrl.dpp_conf_set` -/
def dppConfSet : Method Unit := command (followed "DPP_CONF_SET".toList (formatParams params))

/-- Every text that is sent with DPP parameters, with the identifier or the frequency a
command takes beside them. -/
def dppTexts (id : Text) (freq : ℤ) : List Text :=
  [(dppConfiguratorAdd params).sent, (dppConfiguratorSet params id).sent,
    (dppConfiguratorSign params).sent, (dppBootstrapGen params).sent,
    (dppBootstrapSet params id).sent, (dppListen params freq).sent, (dppAuthInit params).sent,
    (dppChirp params).sent, (dppPushButton params).sent, (dppPkexAdd params).sent,
    (dppControllerStart params).sent, (dppCaSet params).sent, (dppConfSet params).sent]

end

end Method

/-! ## Parameters behind command words -/

/-- A word that the tokenizer takes whole and that assigns nothing. -/
structure PlainWord (word : Text) : Prop where
  ne_nil : word ≠ []
  clean : ∀ c ∈ word, c ≠ ' ' ∧ c ≠ '"' ∧ c ≠ '='

/-- Words with a space behind each of them are closed tokens. -/
theorem Splitter.run_words {words : List Text} (h : ∀ word ∈ words, PlainWord word)
    (tokens : List Text) :
    (bare tokens []).run (words.flatMap (· ++ [' '])) = bare (tokens ++ words) [] := by
  induction words generalizing tokens with
  | nil => simp
  | cons word words ih =>
    have hword := h word (by simp)
    rw [List.flatMap_cons, run_append, run_append,
      run_bare tokens [] fun c hc => ⟨(hword.clean c hc).1, (hword.clean c hc).2.1⟩,
      List.nil_append, run_cons, run_nil, step_space tokens word hword.ne_nil,
      ih fun w hw => h w (by simp [hw]), List.append_assoc, List.singleton_append]

/-- Joined words and a space are words with a space behind each of them. -/
theorem followed_intercalate {words : List Text} (hne : words ≠ []) (arguments : Text) :
    followed ([' '].intercalate words) arguments =
      words.flatMap (· ++ [' ']) ++ arguments := by
  induction words with
  | nil => exact absurd rfl hne
  | cons word words ih =>
    rcases words with _ | ⟨next, words⟩
    · simp [followed]
    · rw [List.flatMap_cons, List.append_assoc, ← ih (by simp), followed, followed,
        List.intercalate_cons_cons]
      simp

/-- The tokens of a mapping are taken whole. -/
theorem ParamMap.pieces (m : ParamMap) :
    ∀ piece ∈ m.params.filterMap fun param => param.2.map (formatParam param.1),
      piece ≠ [] ∧ ∀ c ∈ piece, c ≠ ' ' ∧ c ≠ '"' := by
  intro piece hpiece
  obtain ⟨param, hparam, hmap⟩ := List.mem_filterMap.mp hpiece
  obtain ⟨value, hvalue, rfl⟩ := Option.map_eq_some_iff.mp hmap
  exact CleanParam.piece ⟨m.name_ne_nil param hparam, m.name_clean param hparam,
    m.value_clean param hparam value hvalue⟩

/-- Plain words assign nothing. -/
theorem filterMap_readParam_words {words : List Text} (h : ∀ word ∈ words, PlainWord word) :
    words.filterMap readParam = [] := by
  rw [List.filterMap_eq_nil_iff]
  intro word hword
  have hequals : '=' ∉ word := fun hmem => ((h word hword).clean _ hmem).2.2 rfl
  rw [readParam, partition_of_notMem hequals]
  rfl

/-- **The words in front of the parameters are not mistaken for some.** -/
theorem parseParams_followed {words : List Text} (hwords : ∀ word ∈ words, PlainWord word)
    (hne : words ≠ []) (m : ParamMap) :
    (parseParams (followed ([' '].intercalate words) (formatParams m.params))).entries =
      m.given := by
  have hpieces := m.pieces
  have hsplit : splitParams (followed ([' '].intercalate words) (formatParams m.params)) =
      words ++ splitParams (formatParams m.params) := by
    rw [followed_intercalate hne, formatParams, splitParams_intercalate hpieces, splitParams,
      Splitter.run_append, Splitter.run_words hwords, Splitter.tokens_run_intercalate hpieces]
    rfl
  rw [← m.parse_format, parseParams, hsplit, List.filterMap_append,
    filterMap_readParam_words hwords, List.nil_append]
  rfl

/-- Nor where a command without parameters ends behind them. -/
theorem parseParams_withArguments {words : List Text} (hwords : ∀ word ∈ words, PlainWord word)
    (hne : words ≠ []) (m : ParamMap) :
    (parseParams (withArguments ([' '].intercalate words) (formatParams m.params))).entries =
      m.given := by
  unfold withArguments
  split_ifs with hnil
  · have hpieces : ∀ word ∈ words, word ≠ [] ∧ ∀ c ∈ word, c ≠ ' ' ∧ c ≠ '"' := fun word hword =>
      ⟨(hwords word hword).ne_nil, fun c hc => ⟨((hwords word hword).clean c hc).1,
        ((hwords word hword).clean c hc).2.1⟩⟩
    rw [← m.parse_format, hnil, parseParams, splitParams_intercalate hpieces,
      filterMap_readParam_words hwords]
    rfl
  · exact parseParams_followed hwords hne m

/-- A command word is plain. -/
theorem plainWord_of_upper {verb : Text} (hne : verb ≠ [])
    (h : verb.all (fun c => c.isUpper || c == '_') = true) : PlainWord verb := by
  refine ⟨hne, fun c hc => ?_⟩
  have hupper := List.all_eq_true.mp h c hc
  refine ⟨?_, ?_, ?_⟩ <;> rintro rfl <;> exact absurd hupper (by decide)

theorem plainWord_ofInt (n : ℤ) : PlainWord (ofInt n) := by
  refine ⟨ofInt_ne_nil n, fun c hc => ?_⟩
  refine ⟨?_, ?_, ?_⟩ <;> rintro rfl <;> exact notMem_ofInt (by decide) (by decide) n hc

/-- Parameters behind a command word. -/
theorem parseParams_verb {verb : Text} (hverb : PlainWord verb) (m : ParamMap) :
    (parseParams (followed verb (formatParams m.params))).entries = m.given ∧
      (parseParams (withArguments verb (formatParams m.params))).entries = m.given := by
  have hwords : ∀ word ∈ [verb], PlainWord word := by simpa using hverb
  have hjoin : [' '].intercalate [verb] = verb := List.intercalate_singleton
  rw [← hjoin]
  exact ⟨parseParams_followed hwords (by simp) m, parseParams_withArguments hwords (by simp) m⟩

/-- Parameters behind a command word and an argument. -/
theorem parseParams_verb_word {front verb word : Text} (hfront : front = verb ++ [' '])
    (hverb : PlainWord verb) (hword : PlainWord word) (m : ParamMap) :
    (parseParams (followed (front ++ word) (formatParams m.params))).entries = m.given ∧
      (parseParams (withArguments (front ++ word) (formatParams m.params))).entries =
        m.given := by
  have hwords : ∀ w ∈ [verb, word], PlainWord w := by simpa using ⟨hverb, hword⟩
  have hjoin : [' '].intercalate [verb, word] = front ++ word := by simp [hfront]
  rw [← hjoin]
  exact ⟨parseParams_followed hwords (by simp) m, parseParams_withArguments hwords (by simp) m⟩

/-- An argument of one word. -/
def OneWord (argument : Option Text) : Prop := ∀ word, argument = some word → ' ' ∉ word

/-- A printed integer is one word. -/
theorem oneWord_ofInt (n : Option ℤ) : OneWord (n.map ofInt) := by
  intro word hword
  obtain ⟨k, -, rfl⟩ := Option.map_eq_some_iff.mp hword
  exact notMem_ofInt (by decide) (by decide) k

/-- The word an optional argument makes. -/
def argumentWord (name : Text) (argument : Option Text) : List Text :=
  (argument.map (name ++ ·)).toList

/-- The argument of a name among the words. -/
def argument? (name : Text) (words : List Text) : Option Text :=
  words.findSome? fun word => if name <+: word then some (word.drop name.length) else none

theorem intercalate_concat {words : List Text} (hne : words ≠ []) (word : Text) :
    [' '].intercalate (words ++ [word]) = [' '].intercalate words ++ ' ' :: word := by
  induction words with
  | nil => exact absurd rfl hne
  | cons first words ih =>
    rcases words with _ | ⟨next, words⟩
    · simp
    · rw [List.cons_append, List.cons_append, List.intercalate_cons_cons, ← List.cons_append,
        ih (by simp), List.intercalate_cons_cons]
      simp

/-- An argument that is appended is a word more. -/
theorem appended_intercalate {words : List Text} (hne : words ≠ []) (name : Text)
    (argument : Option Text) :
    appended ([' '].intercalate words) name argument =
      [' '].intercalate (words ++ argumentWord name argument) := by
  cases argument with
  | none => simp [appended, argumentWord]
  | some argument =>
    rw [appended, argumentWord, Option.map_some, Option.toList_some, intercalate_concat hne]

/-- Words without spaces are told apart. -/
theorem words_inj {words words' : List Text} (h : ∀ word ∈ words, ' ' ∉ word)
    (h' : ∀ word ∈ words', ' ' ∉ word) (hne : words ≠ []) (hne' : words' ≠ [])
    (heq : [' '].intercalate words = [' '].intercalate words') : words = words' := by
  rw [← List.splitOn_intercalate ' ' h hne, heq, List.splitOn_intercalate ' ' h' hne']

theorem notMem_argumentWord {name : Text} (hname : ' ' ∉ name) {argument : Option Text}
    (h : OneWord argument) : ∀ word ∈ argumentWord name argument, ' ' ∉ word := by
  intro word hword
  obtain ⟨value, hvalue, rfl⟩ := Option.map_eq_some_iff.mp (Option.mem_toList.mp hword)
  simpa using ⟨hname, h value hvalue⟩

/-- Integers are told apart by the words they make. -/
theorem argumentWord_ofInt_inj {name : Text} {n n' : Option ℤ}
    (h : argumentWord name (n.map ofInt) = argumentWord name (n'.map ofInt)) : n = n' := by
  have hmap : Function.Injective fun k : ℤ => name ++ ofInt k := fun _ _ hk =>
    ofInt_injective (List.append_cancel_left hk)
  rw [argumentWord, argumentWord, Option.map_map, Option.map_map] at h
  apply Option.map_injective hmap
  have hhead := congrArg List.head? h
  rwa [Option.head?_toList, Option.head?_toList] at hhead

namespace Method

/-- The words of `p2p_invite`. -/
def inviteWords (group peer persistent : Option Text) : List Text :=
  ["P2P_INVITE".toList] ++ argumentWord "persistent=".toList persistent ++
    argumentWord "group=".toList group ++ argumentWord "peer=".toList peer

theorem sent_p2pInvite (group peer persistent : Option Text) :
    (p2pInvite group peer persistent).sent =
      [' '].intercalate (inviteWords group peer persistent) := by
  have hverb : [' '].intercalate ["P2P_INVITE".toList] = "P2P_INVITE".toList :=
    List.intercalate_singleton
  rw [inviteWords, ← appended_intercalate (by simp), ← appended_intercalate (by simp),
    ← appended_intercalate (by simp), hverb]
  rfl

theorem argument?_inviteWords (group peer persistent : Option Text) :
    argument? "group=".toList (inviteWords group peer persistent) = group ∧
      argument? "peer=".toList (inviteWords group peer persistent) = peer ∧
      argument? "persistent=".toList (inviteWords group peer persistent) = persistent := by
  cases group <;> cases peer <;> cases persistent <;> exact ⟨rfl, rfl, rfl⟩

theorem notMem_inviteWords {group peer persistent : Option Text} (hgroup : OneWord group)
    (hpeer : OneWord peer) (hpersistent : OneWord persistent) :
    ∀ word ∈ inviteWords group peer persistent, ' ' ∉ word := by
  simp only [inviteWords, List.forall_mem_append, List.forall_mem_singleton]
  exact ⟨⟨⟨by decide, notMem_argumentWord (by decide) hpersistent⟩,
    notMem_argumentWord (by decide) hgroup⟩, notMem_argumentWord (by decide) hpeer⟩

/-- The words of `p2p_find`. -/
def findWords (duration : Option ℤ) (type_ : Option Text) : List Text :=
  ["P2P_FIND".toList] ++ argumentWord [] (duration.map ofInt) ++ argumentWord "type=".toList type_

theorem sent_p2pFind (duration : Option ℤ) (type_ : Option Text) :
    (p2pFind duration type_).sent = [' '].intercalate (findWords duration type_) := by
  have hverb : [' '].intercalate ["P2P_FIND".toList] = "P2P_FIND".toList :=
    List.intercalate_singleton
  rw [findWords, ← appended_intercalate (by simp), ← appended_intercalate (by simp), hverb]
  rfl

theorem notMem_findWords {duration : Option ℤ} {type_ : Option Text} (htype : OneWord type_) :
    ∀ word ∈ findWords duration type_, ' ' ∉ word := by
  simp only [findWords, List.forall_mem_append, List.forall_mem_singleton]
  exact ⟨⟨by decide, notMem_argumentWord (by simp) (oneWord_ofInt duration)⟩,
    notMem_argumentWord (by decide) htype⟩

/-- No integer starts as the type does. -/
theorem argument?_findWords (duration : Option ℤ) (type_ : Option Text) :
    argument? "type=".toList (findWords duration type_) = type_ := by
  have hno : ∀ n : ℤ, ¬ "type=".toList <+: ofInt n := fun n h =>
    notMem_ofInt (by decide) (by decide) n (h.subset (by decide : 't' ∈ "type=".toList))
  have hduration : argument? "type=".toList (argumentWord [] (duration.map ofInt)) = none := by
    cases duration with
    | none => rfl
    | some n => simp only [argument?, argumentWord, Option.map_some, Option.toList_some,
        List.nil_append, List.findSome?_cons, if_neg (hno n), List.findSome?_nil]
  have htype : argument? "type=".toList (argumentWord "type=".toList type_) = type_ := by
    cases type_ <;> rfl
  unfold argument? at hduration htype ⊢
  rw [findWords, List.findSome?_append, List.findSome?_append, hduration, htype]
  rfl

/-- The words of `p2p_group_add`. -/
def groupAddWords (persistent : Option Persistent) (freq : Option ℤ) : List Text :=
  ["P2P_GROUP_ADD".toList] ++
    (match persistent with
    | none => []
    | some .yes => ["persistent".toList]
    | some (.group id) => ["persistent=".toList ++ id]) ++
    argumentWord "freq=".toList (freq.map ofInt)

theorem sent_p2pGroupAdd (persistent : Option Persistent) (freq : Option ℤ) :
    (p2pGroupAdd persistent freq).sent = [' '].intercalate (groupAddWords persistent freq) := by
  unfold groupAddWords
  rw [← appended_intercalate (by simp)]
  rcases persistent with _ | _ | id
  · rfl
  · rfl
  · rw [intercalate_concat (by simp)]
    rfl

theorem notMem_groupAddWords {persistent : Option Persistent} {freq : Option ℤ}
    (h : ∀ id, persistent = some (.group id) → ' ' ∉ id) :
    ∀ word ∈ groupAddWords persistent freq, ' ' ∉ word := by
  have hfreq := notMem_argumentWord (by decide : ' ' ∉ "freq=".toList) (oneWord_ofInt freq)
  rcases persistent with _ | _ | id
  · simp only [groupAddWords, List.forall_mem_append, List.forall_mem_singleton]
    exact ⟨⟨by decide, by simp⟩, hfreq⟩
  · simp only [groupAddWords, List.forall_mem_append, List.forall_mem_singleton]
    exact ⟨⟨by decide, by decide⟩, hfreq⟩
  · have hid := h id rfl
    simp only [groupAddWords, List.forall_mem_append, List.forall_mem_singleton]
    exact ⟨⟨by decide, List.not_mem_append (by decide) hid⟩, hfreq⟩

theorem argument?_groupAddWords (persistent : Option Persistent) (freq : Option ℤ) :
    argument? "freq=".toList (groupAddWords persistent freq) = freq.map ofInt := by
  rcases persistent with _ | _ | id <;> cases freq <;> rfl

/-- The second word tells what is persistent. -/
theorem persistent_inj {persistent persistent' : Option Persistent} {freq : Option ℤ}
    (h : groupAddWords persistent freq = groupAddWords persistent' freq) :
    persistent = persistent' := by
  have hwords := List.append_cancel_left (List.append_cancel_right h)
  rcases persistent with _ | _ | id <;> rcases persistent' with _ | _ | id'
  · rfl
  · cases hwords
  · cases hwords
  · cases hwords
  · rfl
  · have hlength := congrArg List.length (List.cons.inj hwords).1
    rw [List.length_append] at hlength
    exact absurd hlength (by simp; omega)
  · cases hwords
  · have hlength := congrArg List.length (List.cons.inj hwords).1
    rw [List.length_append] at hlength
    exact absurd hlength (by simp; omega)
  · rw [List.append_cancel_left (List.cons.inj hwords).1]

/-- The timing `p2p_ext_listen` passes on. -/
def extTiming : Option ℤ → Option ℤ → Option (ℤ × ℤ)
  | some period, some interval => some (period, interval)
  | _, _ => none

/-- The words of `p2p_ext_listen`. -/
def extWords (timing : Option (ℤ × ℤ)) : List Text :=
  "P2P_EXT_LISTEN".toList ::
    timing.toList.flatMap fun timing => [ofInt timing.1, ofInt timing.2]

theorem sent_p2pExtListen (period interval : Option ℤ) :
    (p2pExtListen period interval).sent = [' '].intercalate (extWords (extTiming period interval)) := by
  cases period with
  | none => rfl
  | some period =>
    cases interval with
    | none => rfl
    | some interval =>
      show _ = [' '].intercalate (["P2P_EXT_LISTEN".toList, ofInt period] ++ [ofInt interval])
      rw [intercalate_concat (by simp), List.intercalate_cons_cons, List.intercalate_singleton]
      rfl

theorem notMem_extWords (timing : Option (ℤ × ℤ)) : ∀ word ∈ extWords timing, ' ' ∉ word := by
  have hint : ∀ n : ℤ, ' ' ∉ ofInt n := notMem_ofInt (by decide) (by decide)
  rw [extWords, List.forall_mem_cons]
  refine ⟨by decide, fun word hword => ?_⟩
  obtain ⟨timing, -, hword⟩ := List.mem_flatMap.mp hword
  simp only [List.mem_cons, List.not_mem_nil, or_false] at hword
  rcases hword with rfl | rfl
  · exact hint timing.1
  · exact hint timing.2

theorem extWords_inj {timing timing' : Option (ℤ × ℤ)} (h : extWords timing = extWords timing') :
    timing = timing' := by
  rcases timing with _ | ⟨period, interval⟩ <;> rcases timing' with _ | ⟨period', interval'⟩
  · rfl
  · cases h
  · cases h
  · have hnumbers : [ofInt period, ofInt interval] = [ofInt period', ofInt interval'] :=
      (List.cons.inj h).2
    simp only [List.cons.injEq, and_true] at hnumbers
    rw [ofInt_injective hnumbers.1, ofInt_injective hnumbers.2]

end Method

/-- **Optional arguments are told apart.**  With arguments of one word, two calls of
`p2p_invite`, `p2p_find` or `p2p_group_add` send the same text only when they have the same
arguments; two calls of `p2p_ext_listen` do exactly when they agree on the timing, which is
there only when both its arguments are: a single one is dropped. -/
theorem p2p_arguments_told_apart :
    (∀ group peer persistent group' peer' persistent' : Option Text,
      OneWord group → OneWord peer → OneWord persistent →
        OneWord group' → OneWord peer' → OneWord persistent' →
          (Method.p2pInvite group peer persistent).sent =
              (Method.p2pInvite group' peer' persistent').sent →
            group = group' ∧ peer = peer' ∧ persistent = persistent') ∧
      (∀ (duration duration' : Option ℤ) (type_ type_' : Option Text),
        OneWord type_ → OneWord type_' →
          (Method.p2pFind duration type_).sent = (Method.p2pFind duration' type_').sent →
            duration = duration' ∧ type_ = type_') ∧
      (∀ (persistent persistent' : Option Persistent) (freq freq' : Option ℤ),
        (∀ id, persistent = some (.group id) → ' ' ∉ id) →
          (∀ id, persistent' = some (.group id) → ' ' ∉ id) →
            (Method.p2pGroupAdd persistent freq).sent =
                (Method.p2pGroupAdd persistent' freq').sent →
              persistent = persistent' ∧ freq = freq') ∧
      ∀ period interval period' interval' : Option ℤ,
        (Method.p2pExtListen period interval).sent =
            (Method.p2pExtListen period' interval').sent ↔
          Method.extTiming period interval = Method.extTiming period' interval' := by
  refine ⟨?_, ?_, ?_, ?_⟩
  · intro group peer persistent group' peer' persistent' hg hp hq hg' hp' hq' hsent
    rw [Method.sent_p2pInvite, Method.sent_p2pInvite] at hsent
    have hwords := words_inj (Method.notMem_inviteWords hg hp hq)
      (Method.notMem_inviteWords hg' hp' hq') (by simp [Method.inviteWords])
      (by simp [Method.inviteWords]) hsent
    obtain ⟨hgroup, hpeer, hpersistent⟩ := Method.argument?_inviteWords group peer persistent
    obtain ⟨hgroup', hpeer', hpersistent'⟩ := Method.argument?_inviteWords group' peer' persistent'
    rw [← hwords] at hgroup' hpeer' hpersistent'
    exact ⟨hgroup.symm.trans hgroup', hpeer.symm.trans hpeer', hpersistent.symm.trans hpersistent'⟩
  · intro duration duration' type_ type_' ht ht' hsent
    rw [Method.sent_p2pFind, Method.sent_p2pFind] at hsent
    have hwords := words_inj (Method.notMem_findWords ht) (Method.notMem_findWords ht')
      (by simp [Method.findWords]) (by simp [Method.findWords]) hsent
    have htype : type_ = type_' := by
      rw [← Method.argument?_findWords duration type_, hwords, Method.argument?_findWords]
    subst htype
    have hduration := List.append_cancel_left (List.append_cancel_right hwords)
    exact ⟨argumentWord_ofInt_inj hduration, rfl⟩
  · intro persistent persistent' freq freq' hid hid' hsent
    rw [Method.sent_p2pGroupAdd, Method.sent_p2pGroupAdd] at hsent
    have hwords := words_inj (Method.notMem_groupAddWords hid) (Method.notMem_groupAddWords hid')
      (by simp [Method.groupAddWords]) (by simp [Method.groupAddWords]) hsent
    have hfreq : freq = freq' := by
      apply Option.map_injective ofInt_injective
      rw [← Method.argument?_groupAddWords persistent, hwords, Method.argument?_groupAddWords]
    subst hfreq
    exact ⟨Method.persistent_inj hwords, rfl⟩
  · intro period interval period' interval'
    rw [Method.sent_p2pExtListen, Method.sent_p2pExtListen]
    constructor
    · intro hsent
      exact Method.extWords_inj (words_inj (Method.notMem_extWords _) (Method.notMem_extWords _)
        (by simp [Method.extWords]) (by simp [Method.extWords]) hsent)
    · intro htiming
      rw [htiming]

end WpaCtrl
