/-
# What an AP advertises (`security.py`)

The flags column of a scan result is a list of bracketed groups.  A group that
starts with a protocol lists key management suites and, behind them, ciphers; any
other group is a flag.  Suite names and cipher names both contain dashes, so where
the suites end is found by matching the vocabulary, longest name first.

* `find?_of_pairwise` : the first hit in an ordered list is the largest one;
* `matchName_append` : the longest name at the front of a body is the one matched;
* `mem_foldl_add` : the result is the union over the groups;
* `security_read_back` : suites, protocols and flags of a rendered column.
-/
import WpaCtrl.Text
import Mathlib.Data.List.Sort
import Mathlib.Data.Finset.Union

open Text

namespace WpaCtrl

/-! ## The vocabulary -/

/-- `_PROTOCOLS`, the longer one before its prefix. -/
def protocols : List Text := ["WPA2".toList, "WPA".toList, "RSN".toList, "OSEN".toList]

/-- `sorted(names, key=len, reverse=True)`, which keeps the order of equal lengths. -/
def longestFirst (names : List Text) : List Text :=
  names.insertionSort fun a b => b.length ≤ a.length

/-- `_SCAN_KEY_MGMT`. -/
def scanVocabulary : List Text :=
  longestFirst ["EAP".toList, "PSK".toList, "SAE".toList, "OWE".toList, "DPP".toList,
    "None".toList, "?".toList,
    "FT/EAP".toList, "FT/PSK".toList, "FT/SAE".toList,
    "EAP-SHA256".toList, "PSK-SHA256".toList, "EAP-SHA384".toList,
    "EAP-SUITE-B".toList, "EAP-SUITE-B-192".toList,
    "SAE-EXT-KEY".toList, "FT/SAE-EXT-KEY".toList,
    "FILS-SHA256".toList, "FILS-SHA384".toList,
    "FT/FILS-SHA256".toList, "FT/FILS-SHA384".toList]

/-! ## `parse_security` -/

/-- What may follow a name: the end of the body, or a separator. -/
def separated : Text → Bool
  | [] => true
  | c :: _ => c = '+' || c = '-'

/-- The first name of the vocabulary at the front of a body that a separator follows. -/
def matchName (body : Text) : Option Text :=
  scanVocabulary.find? fun name => name.isPrefixOf body && separated (body.drop name.length)

/-- `_scan_key_mgmt`; the recursion is on what is left of the body. -/
def scanKeyMgmt (body : Text) : List Text :=
  match matchName body with
  -- not a key management name, so the ciphers begin here
  | none => []
  | some name =>
    match _h : body.drop name.length with
    | '+' :: rest => name :: scanKeyMgmt rest
    | _ => [name]
termination_by body.length
decreasing_by
  have hlen := congrArg List.length _h
  rw [List.length_drop, List.length_cons] at hlen
  omega

/-- `Security`. -/
structure Security where
  keyMgmt : Finset Text
  protocols : Finset Text
  flags : Finset Text
  deriving DecidableEq

/-- The protocol a group starts with. -/
def groupProtocol? (group : Text) : Option Text :=
  protocols.find? fun protocol => (protocol ++ ['-']).isPrefixOf group

/-- The loop body of `parse_security`, for the text behind the opening bracket. -/
def Security.add (security : Security) (group : Text) : Security :=
  if group = [] then security
  else match groupProtocol? group with
    | some protocol =>
      { security with
        protocols := insert protocol security.protocols
        keyMgmt := security.keyMgmt ∪ (scanKeyMgmt (group.drop (protocol.length + 1))).toFinset }
    | none => { security with flags := insert group security.flags }

/-- The three empty sets the loop starts from. -/
def Security.empty : Security := ⟨∅, ∅, ∅⟩

/-- `parse_security`. -/
def parseSecurity (flags : Text) : Security :=
  (flags.splitOn ']').foldl (fun security group => security.add (partition '[' group).2.2)
    Security.empty

/-! ## Columns of bracketed groups -/

/-- A group as it stands in the flags column. -/
def bracketed (group : Text) : Text := '[' :: group ++ [']']

/-- A flags column. -/
def flagsText (groups : List Text) : Text := groups.flatMap bracketed

theorem splitOn_flagsText {groups : List Text} (h : ∀ group ∈ groups, ']' ∉ group) :
    (flagsText groups).splitOn ']' = groups.map (fun group => '[' :: group) ++ [[]] := by
  induction groups with
  | nil => rfl
  | cons group groups ih =>
    have hgroup : ']' ∉ '[' :: group := by
      simpa using h group (by simp)
    have hcons : flagsText (group :: groups) = ('[' :: group) ++ ']' :: flagsText groups := by
      simp [flagsText, bracketed]
    rw [hcons, List.splitOn_append_cons_self, List.splitOn_eq_singleton hgroup,
      ih fun g hg => h g (by simp [hg])]
    rfl

/-- The loop runs over the groups. -/
theorem parseSecurity_flagsText {groups : List Text} (h : ∀ group ∈ groups, ']' ∉ group) :
    parseSecurity (flagsText groups) = groups.foldl Security.add Security.empty := by
  have hpartition : ∀ group, partition '[' ('[' :: group) = ([], ['['], group) := fun group =>
    partition_append List.not_mem_nil group
  have hgroup : ∀ group, (partition '[' ('[' :: group)).2.2 = group := fun group => by
    rw [hpartition]
  -- behind the last bracket stands one empty piece, which is skipped
  have hlast : ∀ security : Security, security.add (partition '[' []).2.2 = security :=
    fun security => if_pos rfl
  rw [parseSecurity, splitOn_flagsText h, List.foldl_append, List.foldl_map, List.foldl_cons,
    List.foldl_nil, hlast]
  simp only [hgroup]

/-! ## What a group contributes -/

/-- The suites a group contributes. -/
def groupKeyMgmt (group : Text) : List Text :=
  match groupProtocol? group with
  | some protocol => scanKeyMgmt (group.drop (protocol.length + 1))
  | none => []

/-- The flag a group contributes. -/
def groupFlag? (group : Text) : Option Text :=
  if group = [] ∨ (groupProtocol? group).isSome then none else some group

theorem groupProtocol?_nil : groupProtocol? [] = none := by decide

/-- Each of the three sets gains what the group contributes to it. -/
theorem mem_add (security : Security) (group name : Text) :
    (name ∈ (security.add group).keyMgmt ↔
        name ∈ security.keyMgmt ∨ name ∈ groupKeyMgmt group) ∧
      (name ∈ (security.add group).protocols ↔
        name ∈ security.protocols ∨ groupProtocol? group = some name) ∧
      (name ∈ (security.add group).flags ↔
        name ∈ security.flags ∨ groupFlag? group = some name) := by
  unfold Security.add groupKeyMgmt groupFlag?
  by_cases hempty : group = []
  · subst hempty
    simp [groupProtocol?_nil]
  · rcases hprotocol : groupProtocol? group with _ | protocol
    · simp [hempty, eq_comm, or_comm]
    · simp [hempty, eq_comm, or_comm]

/-- **The sets are unions over the groups.** -/
theorem mem_foldl_add (groups : List Text) (security : Security) (name : Text) :
    (name ∈ (groups.foldl Security.add security).keyMgmt ↔
        name ∈ security.keyMgmt ∨ ∃ group ∈ groups, name ∈ groupKeyMgmt group) ∧
      (name ∈ (groups.foldl Security.add security).protocols ↔
        name ∈ security.protocols ∨ ∃ group ∈ groups, groupProtocol? group = some name) ∧
      (name ∈ (groups.foldl Security.add security).flags ↔
        name ∈ security.flags ∨ ∃ group ∈ groups, groupFlag? group = some name) := by
  induction groups generalizing security with
  | nil => simp
  | cons group groups ih =>
    obtain ⟨hkey, hprotocol, hflag⟩ := mem_add security group name
    obtain ⟨ihkey, ihprotocol, ihflag⟩ := ih (security.add group)
    rw [List.foldl_cons, ihkey, ihprotocol, ihflag, hkey, hprotocol, hflag]
    simp only [List.mem_cons, exists_eq_or_imp, or_assoc, and_self]

/-! ## Longest match -/

/-- The first hit in an ordered list is a given hit, when every hit at or before it
in the order is that one. -/
theorem find?_of_pairwise {α : Type} {r : α → α → Prop} {p : α → Bool} {b : α} {l : List α}
    (hl : l.Pairwise r) (hb : b ∈ l) (hp : p b = true)
    (hfirst : ∀ a ∈ l, p a = true → r a b → a = b) : l.find? p = some b := by
  induction l with
  | nil => simp at hb
  | cons a l ih =>
    obtain ⟨ha, hl⟩ := List.pairwise_cons.mp hl
    rcases List.mem_cons.mp hb with rfl | hmem
    · exact List.find?_cons_of_pos hp
    · by_cases hpa : p a = true
      · rw [List.find?_cons_of_pos hpa, hfirst a (by simp) hpa (ha b hmem)]
      · rw [List.find?_cons_of_neg hpa]
        exact ih hl hmem fun x hx => hfirst x (by simp [hx])

theorem pairwise_longestFirst (names : List Text) :
    (longestFirst names).Pairwise fun a b => b.length ≤ a.length := by
  have : Std.Total fun a b : Text => b.length ≤ a.length := ⟨fun a b => Nat.le_total _ _⟩
  have : IsTrans Text fun a b => b.length ≤ a.length := ⟨fun a b c hab hbc => Nat.le_trans hbc hab⟩
  exact List.pairwise_insertionSort _ names

/-- No longer name of the vocabulary reaches over the end of a token. -/
def Unextended (token rest : Text) : Prop :=
  ∀ u v, rest = u ++ v → u ≠ [] → separated v = true → token ++ u ∉ scanVocabulary

/-- A name of the vocabulary is matched at the front of a body when no longer one is
and a separator follows. -/
theorem matchName_append {name rest : Text} (hname : name ∈ scanVocabulary)
    (hsep : separated rest = true) (hlong : Unextended name rest) :
    matchName (name ++ rest) = some name := by
  refine find?_of_pairwise (pairwise_longestFirst _) hname ?_ ?_
  · simp [hsep]
  · intro other hother hmatch hlen
    rw [Bool.and_eq_true, List.isPrefixOf_iff_prefix] at hmatch
    obtain ⟨⟨v, hv⟩, hsepv⟩ := hmatch
    -- the other name is at least as long, so it extends this one
    obtain ⟨u, rfl, hu⟩ : ∃ u, other = name ++ u ∧ rest = u ++ v := by
      rcases List.append_eq_append_iff.mp hv with ⟨u, hname', hv'⟩ | ⟨u, hother', hrest⟩
      · have hnil : u = [] := by
          have := congrArg List.length hname'
          rw [List.length_append] at this
          exact List.length_eq_zero_iff.mp (by omega)
        subst hnil
        exact ⟨[], by simpa using hname'.symm, by simpa using hv'.symm⟩
      · exact ⟨u, hother', hrest⟩
    by_cases hnil : u = []
    · rw [hnil, List.append_nil]
    · refine absurd hother (hlong u v hu hnil ?_)
      rwa [hu, ← List.append_assoc, List.drop_left] at hsepv

/-- No name of the vocabulary contains the separator of suites, or a bracket. -/
theorem notMem_of_mem_scanVocabulary {name : Text} (h : name ∈ scanVocabulary) :
    '+' ∉ name ∧ '[' ∉ name ∧ ']' ∉ name := by
  have hall : (scanVocabulary.all fun name =>
      !name.contains '+' && !name.contains '[' && !name.contains ']') = true := by
    decide +kernel
  have := List.all_eq_true.mp hall name h
  simpa [and_assoc] using this

/-- No name reaches over a `+`. -/
theorem unextended_plus (token rest : Text) : Unextended token ('+' :: rest) := by
  intro u v hu hne _ hmem
  rcases u with _ | ⟨c, u⟩
  · exact hne rfl
  · obtain rfl : '+' = c := (List.cons.inj hu).1
    exact (notMem_of_mem_scanVocabulary hmem).1 (by simp)

/-! ## What follows the suites -/

/-- What follows a list of suites. -/
def ciphersText : Option Text → Text
  | none => []
  | some text => '-' :: text

theorem separated_ciphersText (ciphers : Option Text) : separated (ciphersText ciphers) = true := by
  cases ciphers <;> rfl

theorem ciphersText_ne_plus (ciphers : Option Text) (rest : Text) :
    ciphersText ciphers ≠ '+' :: rest := by
  cases ciphers <;> simp [ciphersText]

theorem unextended_ciphersText {token : Text} {ciphers : Option Text}
    (h : ∀ text, ciphers = some text → ∀ u v, text = u ++ v → separated v = true →
      token ++ '-' :: u ∉ scanVocabulary) : Unextended token (ciphersText ciphers) := by
  intro u v hu hne hsep
  cases ciphers with
  | none => exact absurd (List.append_eq_nil_iff.mp hu.symm).1 hne
  | some text =>
    -- a longer name would reach over the dash into the text behind it
    rcases u with _ | ⟨c, u⟩
    · exact absurd rfl hne
    · obtain ⟨rfl, htext⟩ := List.cons.inj hu
      exact h text rfl u v htext hsep

theorem notMem_ciphersText {ciphers : Option Text}
    (h : ∀ text, ciphers = some text → '[' ∉ text ∧ ']' ∉ text) : ']' ∉ ciphersText ciphers := by
  cases ciphers with
  | none => exact List.not_mem_nil
  | some text => simpa [ciphersText] using (h text rfl).2

theorem notMem_of_mem_protocols {protocol : Text} (h : protocol ∈ protocols) :
    ']' ∉ protocol := by
  have hall : (protocols.all fun protocol => !protocol.contains ']') = true := by decide
  simpa using List.all_eq_true.mp hall protocol h

/-! ## Rendered columns -/

/-- A group that lists suites: a protocol, the suites, and what follows the last one,
which is nothing or a dash and a text that does not extend it to a longer name. -/
structure SuiteGroup where
  protocol : Text
  protocol_mem : protocol ∈ protocols
  first : List Text
  last : Text
  names_mem : ∀ name ∈ first ++ [last], name ∈ scanVocabulary
  ciphers : Option Text
  bracketFree : ∀ text, ciphers = some text → '[' ∉ text ∧ ']' ∉ text
  notExtended : ∀ text, ciphers = some text → ∀ u v, text = u ++ v → separated v = true →
    last ++ '-' :: u ∉ scanVocabulary

/-- The suites of a group. -/
def SuiteGroup.names (group : SuiteGroup) : List Text := group.first ++ [group.last]

/-- What follows the last suite. -/
def SuiteGroup.rest (group : SuiteGroup) : Text :=
  match group.ciphers with
  | none => []
  | some text => '-' :: text

/-- The text behind the protocol: every suite but the last one is followed by `+`. -/
def SuiteGroup.body (group : SuiteGroup) : Text :=
  group.first.flatMap (· ++ ['+']) ++ (group.last ++ group.rest)

/-- Any other group. -/
structure OtherGroup where
  flag : Text
  ne_nil : flag ≠ []
  bracketFree : '[' ∉ flag ∧ ']' ∉ flag
  notProtocol : ∀ protocol ∈ protocols, ¬ protocol ++ ['-'] <+: flag

/-- A group of a flags column. -/
inductive FlagGroup where
  | suites (group : SuiteGroup)
  | other (group : OtherGroup)

namespace FlagGroup

/-- The text between the brackets. -/
def text : FlagGroup → Text
  | suites group => group.protocol ++ '-' :: group.body
  | other group => group.flag

/-- The suites a group lists. -/
def names : FlagGroup → List Text
  | suites group => group.names
  | other _ => []

/-- The protocol of a group. -/
def protocol? : FlagGroup → Option Text
  | suites group => some group.protocol
  | other _ => none

/-- The flag a group is. -/
def flag? : FlagGroup → Option Text
  | suites _ => none
  | other group => some group.flag

end FlagGroup

theorem rest_eq_ciphersText (group : SuiteGroup) : group.rest = ciphersText group.ciphers := by
  unfold SuiteGroup.rest
  cases group.ciphers <;> rfl

/-- A name that a `+` follows is taken, and the scan goes on behind it. -/
theorem scanKeyMgmt_of_plus {body name rest : Text} (hmatch : matchName body = some name)
    (hdrop : body.drop name.length = '+' :: rest) :
    scanKeyMgmt body = name :: scanKeyMgmt rest := by
  rw [scanKeyMgmt, hmatch]
  show (match _h : body.drop name.length with
    | '+' :: rest => name :: scanKeyMgmt rest
    | _ => [name]) = name :: scanKeyMgmt rest
  split
  case h_1 rest' h =>
    rw [hdrop] at h
    rw [(List.cons.inj h).2]
  case h_2 h => exact absurd hdrop (h rest)

/-- A name that no `+` follows is the last one. -/
theorem scanKeyMgmt_of_stop {body name : Text} (hmatch : matchName body = some name)
    (hstop : ∀ rest, body.drop name.length ≠ '+' :: rest) : scanKeyMgmt body = [name] := by
  rw [scanKeyMgmt, hmatch]
  show (match _h : body.drop name.length with
    | '+' :: rest => name :: scanKeyMgmt rest
    | _ => [name]) = [name]
  split
  case h_1 rest h => exact absurd h (hstop rest)
  case h_2 => rfl

theorem scanKeyMgmt_plus {name : Text} (h : name ∈ scanVocabulary) (rest : Text) :
    scanKeyMgmt (name ++ '+' :: rest) = name :: scanKeyMgmt rest :=
  scanKeyMgmt_of_plus (matchName_append h rfl (unextended_plus name rest)) List.drop_left

/-- Behind the last name it stops. -/
theorem scanKeyMgmt_last (group : SuiteGroup) :
    scanKeyMgmt (group.last ++ group.rest) = [group.last] := by
  have hmem : group.last ∈ scanVocabulary := group.names_mem _ (by simp)
  rw [rest_eq_ciphersText]
  apply scanKeyMgmt_of_stop (matchName_append hmem (separated_ciphersText _)
    (unextended_ciphersText group.notExtended))
  intro rest h
  rw [List.drop_left] at h
  exact ciphersText_ne_plus _ _ h

/-- **The suites of a group are scanned**, in the order they are listed. -/
theorem scanKeyMgmt_body (group : SuiteGroup) : scanKeyMgmt group.body = group.names := by
  have hscan : ∀ first : List Text, (∀ name ∈ first, name ∈ scanVocabulary) →
      scanKeyMgmt (first.flatMap (· ++ ['+']) ++ (group.last ++ group.rest)) =
        first ++ [group.last] := by
    intro first hfirst
    induction first with
    | nil => exact scanKeyMgmt_last group
    | cons name first ih =>
      have hcons : (name :: first).flatMap (· ++ ['+']) ++ (group.last ++ group.rest) =
          name ++ '+' :: (first.flatMap (· ++ ['+']) ++ (group.last ++ group.rest)) := by simp
      rw [hcons, scanKeyMgmt_plus (hfirst name (by simp)), ih fun n hn => hfirst n (by simp [hn])]
      rfl
  exact hscan group.first fun name hname => group.names_mem name (by simp [hname])

/-- The protocol in front of a dash is the one found. -/
theorem groupProtocol?_append {protocol : Text} (h : protocol ∈ protocols) (body : Text) :
    groupProtocol? (protocol ++ '-' :: body) = some protocol := by
  simp only [protocols, List.mem_cons, List.not_mem_nil, or_false] at h
  rcases h with rfl | rfl | rfl | rfl <;> rfl

theorem groupProtocol?_of_notPrefix {group : Text}
    (h : ∀ protocol ∈ protocols, ¬ protocol ++ ['-'] <+: group) : groupProtocol? group = none := by
  apply List.find?_eq_none.mpr
  intro protocol hprotocol hprefix
  exact h protocol hprotocol (List.isPrefixOf_iff_prefix.mp hprefix)

/-- What a rendered group contributes. -/
theorem contributes (group : FlagGroup) :
    groupKeyMgmt group.text = group.names ∧ groupProtocol? group.text = group.protocol? ∧
      groupFlag? group.text = group.flag? := by
  cases group with
  | suites group =>
    have hprotocol := groupProtocol?_append group.protocol_mem group.body
    have hdrop : (group.protocol ++ '-' :: group.body).drop (group.protocol.length + 1) =
        group.body := by
      rw [← List.drop_drop, List.drop_left]
      rfl
    refine ⟨?_, hprotocol, ?_⟩
    · simp only [groupKeyMgmt, FlagGroup.text, hprotocol, hdrop, scanKeyMgmt_body, FlagGroup.names]
    · simp [groupFlag?, FlagGroup.text, hprotocol, FlagGroup.flag?]
  | other group =>
    have hprotocol := groupProtocol?_of_notPrefix group.notProtocol
    refine ⟨?_, hprotocol, ?_⟩
    · simp only [groupKeyMgmt, FlagGroup.text, hprotocol, FlagGroup.names]
    · simp [groupFlag?, FlagGroup.text, hprotocol, group.ne_nil, FlagGroup.flag?]

/-- A group contains no closing bracket of its own. -/
theorem notMem_text (group : FlagGroup) : ']' ∉ group.text := by
  cases group with
  | other group => exact group.bracketFree.2
  | suites group =>
    have hname : ∀ name ∈ group.first ++ [group.last], ']' ∉ name := fun name h =>
      (notMem_of_mem_scanVocabulary (group.names_mem name h)).2.2
    have hrest : ']' ∉ group.rest := by
      rw [rest_eq_ciphersText]
      exact notMem_ciphersText group.bracketFree
    intro h
    simp only [FlagGroup.text, SuiteGroup.body, List.mem_append, List.mem_cons, List.mem_flatMap,
      List.not_mem_nil, or_false] at h
    rcases h with h | h | ⟨name, hmem, h | h⟩ | h | h
    · exact notMem_of_mem_protocols group.protocol_mem h
    · exact absurd h (by decide)
    · exact hname name (by simp [hmem]) h
    · exact absurd h (by decide)
    · exact hname group.last (by simp) h
    · exact hrest h

/-- **A flags column is read back.**  Whatever the groups and their order, the suites
are those the groups list, the protocols those the groups start with, and the flags
the groups that are nothing else. -/
theorem security_read_back (groups : List FlagGroup) :
    let security := parseSecurity (flagsText (groups.map FlagGroup.text))
    security.keyMgmt = (groups.flatMap FlagGroup.names).toFinset ∧
      security.protocols = (groups.filterMap FlagGroup.protocol?).toFinset ∧
      security.flags = (groups.filterMap FlagGroup.flag?).toFinset := by
  intro security
  have hclean : ∀ text ∈ groups.map FlagGroup.text, ']' ∉ text := by
    intro text htext
    obtain ⟨group, -, rfl⟩ := List.mem_map.mp htext
    exact notMem_text group
  have hsecurity : security = (groups.map FlagGroup.text).foldl Security.add Security.empty :=
    parseSecurity_flagsText hclean
  have hmem := fun name => mem_foldl_add (groups.map FlagGroup.text) Security.empty name
  refine ⟨?_, ?_, ?_⟩
  · ext name
    rw [hsecurity, (hmem name).1]
    simp [Security.empty, (contributes _).1]
  · ext name
    rw [hsecurity, (hmem name).2.1]
    simp [Security.empty, (contributes _).2.1]
  · ext name
    rw [hsecurity, (hmem name).2.2]
    simp [Security.empty, (contributes _).2.2]

/-- `WPA2-PSK+SAE-CCMP`, of a network that takes both. -/
def pskAndSae : SuiteGroup where
  protocol := "WPA2".toList
  protocol_mem := by decide
  first := ["PSK".toList]
  last := "SAE".toList
  names_mem := by decide +kernel
  ciphers := some "CCMP".toList
  bracketFree := by
    rintro _ ⟨⟩
    decide
  notExtended := by
    rintro _ ⟨⟩ u v huv -
    -- there are five beginnings of the cipher
    have hall : ∀ u ∈ "CCMP".toList.inits, "SAE".toList ++ '-' :: u ∉ scanVocabulary := by
      decide +kernel
    exact hall u ((List.mem_inits u _).mpr ⟨v, huv.symm⟩)

/-- `MFPC`: it can protect management frames. -/
def mfpc : OtherGroup where
  flag := "MFPC".toList
  ne_nil := by simp
  bracketFree := by decide
  notProtocol := by decide

/-- The flags of a network in transition mode. -/
theorem security_read_back_transition :
    let security := parseSecurity "[WPA2-PSK+SAE-CCMP][MFPC]".toList
    security.keyMgmt = {"PSK".toList, "SAE".toList} ∧ security.protocols = {"WPA2".toList} ∧
      security.flags = {"MFPC".toList} :=
  security_read_back [.suites pskAndSae, .other mfpc]

end WpaCtrl
