/-
# What a BSS offers, whatever it advertises

`parse_security` runs against whatever daemon is on the device, so what matters is
what it makes of groups and suites it has never heard of.  The three sets it returns
are a semilattice under componentwise union, and the parser takes the concatenation
of flags to that union: what a group contributes does not depend on its neighbours.

* `parseSecurity_union` : the result is the union over the groups, and a group that
  names a protocol, or WEP, is never lost;
* `isOpen_false_iff` : exactly when a BSS that advertises a suite is not reported as
  open;
* `known_suites_found_iff` : the suites found in a list are those ahead of the first
  unknown one, and exactly when an unknown one hides another.
-/
import WpaCtrl.Security
import Mathlib.Order.Lattice
import Mathlib.Data.Finset.Lattice.Fold

open Text

namespace WpaCtrl

/-! ## The predicates -/

namespace Security

variable (security : Security)

/-- `Security.wep`. -/
def wep : Bool := "WEP".toList ∈ security.flags

/-- `Security.open`. -/
def isOpen : Bool := security.keyMgmt = ∅ && security.protocols = ∅ && !security.wep

/-- `Security.psk`. -/
def psk : Bool :=
  ∃ name ∈ security.keyMgmt, name = "PSK".toList ∨ "/PSK".toList <:+ name ∨ "PSK-".toList <+: name

/-- `Security.sae`. -/
def sae : Bool :=
  ∃ name ∈ security.keyMgmt, name = "SAE".toList ∨ "/SAE".toList <:+ name ∨ "SAE-".toList <+: name

/-- `Security.enterprise`. -/
def enterprise : Bool :=
  ∃ name ∈ security.keyMgmt, name = "EAP".toList ∨ "/EAP".toList <:+: name ∨ "EAP-".toList <+: name

/-- `Security.owe`. -/
def owe : Bool := "OWE".toList ∈ security.keyMgmt

/-- `Security.transition_mode`. -/
def transitionMode : Bool := security.psk && security.sae

/-- `Security.sae_only`. -/
def saeOnly : Bool := security.sae && !security.psk

/-! ## Componentwise union -/

/-- Each set is part of the other's. -/
instance : PartialOrder Security where
  le a b := a.keyMgmt ⊆ b.keyMgmt ∧ a.protocols ⊆ b.protocols ∧ a.flags ⊆ b.flags
  le_refl a := ⟨subset_rfl, subset_rfl, subset_rfl⟩
  le_trans a b c h h' := ⟨h.1.trans h'.1, h.2.1.trans h'.2.1, h.2.2.trans h'.2.2⟩
  le_antisymm a b h h' := by
    cases a
    cases b
    congr
    · exact subset_antisymm h.1 h'.1
    · exact subset_antisymm h.2.1 h'.2.1
    · exact subset_antisymm h.2.2 h'.2.2

/-- The union of each of the three sets. -/
def union (a b : Security) : Security :=
  ⟨a.keyMgmt ∪ b.keyMgmt, a.protocols ∪ b.protocols, a.flags ∪ b.flags⟩

instance : SemilatticeSup Security where
  sup := union
  le_sup_left _ _ :=
    ⟨Finset.subset_union_left, Finset.subset_union_left, Finset.subset_union_left⟩
  le_sup_right _ _ :=
    ⟨Finset.subset_union_right, Finset.subset_union_right, Finset.subset_union_right⟩
  sup_le _ _ _ h h' :=
    ⟨Finset.union_subset h.1 h'.1, Finset.union_subset h.2.1 h'.2.1,
      Finset.union_subset h.2.2 h'.2.2⟩

instance : OrderBot Security where
  bot := empty
  bot_le _ := ⟨Finset.empty_subset _, Finset.empty_subset _, Finset.empty_subset _⟩

theorem keyMgmt_sup (a b : Security) : (a ⊔ b).keyMgmt = a.keyMgmt ∪ b.keyMgmt := rfl

theorem protocols_sup (a b : Security) : (a ⊔ b).protocols = a.protocols ∪ b.protocols := rfl

theorem flags_sup (a b : Security) : (a ⊔ b).flags = a.flags ∪ b.flags := rfl

/-- A result is known by what is in its three sets. -/
theorem eq_of_mem_iff {a b : Security} (hkey : ∀ name, name ∈ a.keyMgmt ↔ name ∈ b.keyMgmt)
    (hprotocol : ∀ name, name ∈ a.protocols ↔ name ∈ b.protocols)
    (hflag : ∀ name, name ∈ a.flags ↔ name ∈ b.flags) : a = b := by
  cases a
  cases b
  congr
  · exact Finset.ext hkey
  · exact Finset.ext hprotocol
  · exact Finset.ext hflag

end Security

/-! ## Flags that are put together -/

/-- What is in the three sets, group by group. -/
theorem mem_parseSecurity {groups : List Text} (h : ∀ group ∈ groups, ']' ∉ group) (name : Text) :
    (name ∈ (parseSecurity (flagsText groups)).keyMgmt ↔
        ∃ group ∈ groups, name ∈ groupKeyMgmt group) ∧
      (name ∈ (parseSecurity (flagsText groups)).protocols ↔
        ∃ group ∈ groups, groupProtocol? group = some name) ∧
      (name ∈ (parseSecurity (flagsText groups)).flags ↔
        ∃ group ∈ groups, groupFlag? group = some name) := by
  rw [parseSecurity_flagsText h]
  obtain ⟨hkey, hprotocol, hflag⟩ := mem_foldl_add groups Security.empty name
  refine ⟨hkey.trans ?_, hprotocol.trans ?_, hflag.trans ?_⟩
  · simp [Security.empty]
  · simp [Security.empty]
  · simp [Security.empty]

theorem flagsText_append (groups more : List Text) :
    flagsText (groups ++ more) = flagsText groups ++ flagsText more := List.flatMap_append

theorem flagsText_singleton (group : Text) : flagsText [group] = bracketed group := by
  rw [flagsText, List.flatMap_singleton]

/-- **Concatenation goes to union.** -/
theorem parseSecurity_append {groups more : List Text} (h : ∀ group ∈ groups, ']' ∉ group)
    (hmore : ∀ group ∈ more, ']' ∉ group) :
    parseSecurity (flagsText groups ++ flagsText more) =
      parseSecurity (flagsText groups) ⊔ parseSecurity (flagsText more) := by
  have hall : ∀ group ∈ groups ++ more, ']' ∉ group := by
    intro group hgroup
    rcases List.mem_append.mp hgroup with hgroup | hgroup
    · exact h group hgroup
    · exact hmore group hgroup
  rw [← flagsText_append]
  apply Security.eq_of_mem_iff
  · intro name
    rw [Security.keyMgmt_sup, Finset.mem_union, (mem_parseSecurity hall name).1,
      (mem_parseSecurity h name).1, (mem_parseSecurity hmore name).1]
    simp only [List.mem_append, or_and_right, exists_or]
  · intro name
    rw [Security.protocols_sup, Finset.mem_union, (mem_parseSecurity hall name).2.1,
      (mem_parseSecurity h name).2.1, (mem_parseSecurity hmore name).2.1]
    simp only [List.mem_append, or_and_right, exists_or]
  · intro name
    rw [Security.flags_sup, Finset.mem_union, (mem_parseSecurity hall name).2.2,
      (mem_parseSecurity h name).2.2, (mem_parseSecurity hmore name).2.2]
    simp only [List.mem_append, or_and_right, exists_or]

/-- The result is the union over the groups taken one by one. -/
theorem parseSecurity_eq_sup {groups : List Text} (h : ∀ group ∈ groups, ']' ∉ group) :
    parseSecurity (flagsText groups) =
      groups.toFinset.sup fun group => parseSecurity (bracketed group) := by
  induction groups with
  | nil => rfl
  | cons group groups ih =>
    have hone : ∀ g ∈ [group], ']' ∉ g := fun g hg => h g (by simp_all)
    have hrest : ∀ g ∈ groups, ']' ∉ g := fun g hg => h g (by simp [hg])
    have hcons : flagsText (group :: groups) = flagsText [group] ++ flagsText groups :=
      flagsText_append [group] groups
    rw [hcons, parseSecurity_append hone hrest, ih hrest, flagsText_singleton, List.toFinset_cons,
      Finset.sup_insert]

/-! ## What becomes of a group -/

/-- A group that names one of the listed protocols. -/
def NamesProtocol (group : Text) : Prop := ∃ protocol ∈ protocols, protocol ++ ['-'] <+: group

theorem groupProtocol?_eq_some {group protocol : Text} (h : groupProtocol? group = some protocol) :
    protocol ∈ protocols ∧ protocol ++ ['-'] <+: group := by
  have hprefix : (protocol ++ ['-']).isPrefixOf group = true := by
    have := List.find?_some h
    exact this
  exact ⟨List.mem_of_find?_eq_some h, List.isPrefixOf_iff_prefix.mp hprefix⟩

/-- A group names a protocol exactly when one is found. -/
theorem namesProtocol_iff {group : Text} :
    NamesProtocol group ↔ ∃ protocol, groupProtocol? group = some protocol := by
  constructor
  · rintro ⟨protocol, hmem, rest, rfl⟩
    refine ⟨protocol, ?_⟩
    rw [List.append_assoc, List.singleton_append]
    exact groupProtocol?_append hmem rest
  · rintro ⟨protocol, hfound⟩
    exact ⟨protocol, groupProtocol?_eq_some hfound⟩

/-- A group is a flag exactly when there is something in it that names no protocol. -/
theorem groupFlag?_eq_some {group name : Text} :
    groupFlag? group = some name ↔ group = name ∧ group ≠ [] ∧ ¬ NamesProtocol group := by
  rw [namesProtocol_iff, ← Option.isSome_iff_exists, groupFlag?]
  split_ifs with h
  · constructor
    · intro hnone
      simp at hnone
    · rintro ⟨-, hne, hno⟩
      rcases h with h | h
      · exact absurd h hne
      · exact absurd h hno
  · rw [not_or] at h
    constructor
    · intro hsome
      exact ⟨Option.some.inj hsome, h⟩
    · rintro ⟨rfl, -⟩
      rfl

/-- The suites of a group that names no protocol are not looked at. -/
theorem groupKeyMgmt_of_not_namesProtocol {group : Text} (h : ¬ NamesProtocol group) :
    groupKeyMgmt group = [] := by
  rw [namesProtocol_iff] at h
  have hnone : groupProtocol? group = none := by
    rcases hfound : groupProtocol? group with _ | protocol
    · rfl
    · exact absurd ⟨protocol, hfound⟩ h
  rw [groupKeyMgmt, hnone]

/-- A group that keeps a BSS from being reported as open. -/
def Secures (group : Text) : Prop := NamesProtocol group ∨ group = "WEP".toList

/-- **When a BSS is reported as open**: no group names a listed protocol, and none is
WEP. -/
theorem isOpen_eq_false_iff {groups : List Text} (h : ∀ group ∈ groups, ']' ∉ group) :
    (parseSecurity (flagsText groups)).isOpen = false ↔ ∃ group ∈ groups, Secures group := by
  have hwep : "WEP".toList ∈ (parseSecurity (flagsText groups)).flags ↔ "WEP".toList ∈ groups := by
    rw [(mem_parseSecurity h _).2.2]
    constructor
    · rintro ⟨group, hgroup, hflag⟩
      exact (groupFlag?_eq_some.mp hflag).1 ▸ hgroup
    · intro hmem
      exact ⟨_, hmem, by decide⟩
  have hprotocols : (parseSecurity (flagsText groups)).protocols = ∅ ↔
      ∀ group ∈ groups, ¬ NamesProtocol group := by
    rw [Finset.eq_empty_iff_forall_notMem]
    constructor
    · intro hnone group hgroup hnames
      obtain ⟨protocol, hfound⟩ := namesProtocol_iff.mp hnames
      exact hnone protocol ((mem_parseSecurity h protocol).2.1.mpr ⟨group, hgroup, hfound⟩)
    · intro hnone protocol hmem
      obtain ⟨group, hgroup, hfound⟩ := (mem_parseSecurity h protocol).2.1.mp hmem
      exact hnone group hgroup (namesProtocol_iff.mpr ⟨protocol, hfound⟩)
  have hkey : (∀ group ∈ groups, ¬ NamesProtocol group) →
      (parseSecurity (flagsText groups)).keyMgmt = ∅ := by
    intro hnone
    rw [Finset.eq_empty_iff_forall_notMem]
    intro name hmem
    obtain ⟨group, hgroup, hname⟩ := (mem_parseSecurity h name).1.mp hmem
    rw [groupKeyMgmt_of_not_namesProtocol (hnone group hgroup)] at hname
    exact absurd hname List.not_mem_nil
  have hopen : (parseSecurity (flagsText groups)).isOpen = true ↔
      (∀ group ∈ groups, ¬ NamesProtocol group) ∧ "WEP".toList ∉ groups := by
    simp only [Security.isOpen, Security.wep, Bool.and_eq_true, decide_eq_true_eq,
      Bool.not_eq_true', decide_eq_false_iff_not, hwep, hprotocols]
    -- without a protocol there are no suites either
    exact ⟨fun hall => ⟨hall.1.2, hall.2⟩, fun hall => ⟨⟨hkey hall.1, hall.1⟩, hall.2⟩⟩
  rw [← Bool.not_eq_true, hopen, not_and_or, not_not]
  push Not
  constructor
  · rintro (⟨group, hgroup, hnames⟩ | hmem)
    · exact ⟨group, hgroup, Or.inl hnames⟩
    · exact ⟨_, hmem, Or.inr rfl⟩
  · rintro ⟨group, hgroup, hnames | rfl⟩
    · exact Or.inl ⟨group, hgroup, hnames⟩
    · exact Or.inr hgroup

/-- **The union over the groups.**  Whatever the groups are, known or not, repeated
or empty: the result is the union of what each of them gives alone, so their order
and their repetition do not matter, and a concatenation gives the union; every group
with something in it either adds its protocol or is kept as a flag, and not both; and
a group that names a protocol, or WEP, is enough for the BSS not to be open. -/
theorem parseSecurity_union (groups : List Text) (h : ∀ group ∈ groups, '[' ∉ group ∧ ']' ∉ group) :
    parseSecurity (flagsText groups) =
        groups.toFinset.sup (fun group => parseSecurity (bracketed group)) ∧
      (∀ other : List Text, (∀ group, group ∈ other ↔ group ∈ groups) →
        parseSecurity (flagsText other) = parseSecurity (flagsText groups)) ∧
      (∀ more : List Text, (∀ group ∈ more, '[' ∉ group ∧ ']' ∉ group) →
        parseSecurity (flagsText groups ++ flagsText more) =
          (parseSecurity (flagsText groups)).union (parseSecurity (flagsText more))) ∧
      (∀ group ∈ groups, group ≠ [] →
        Xor (∃ protocol ∈ (parseSecurity (flagsText groups)).protocols,
            protocol ++ ['-'] <+: group)
          (group ∈ (parseSecurity (flagsText groups)).flags)) ∧
      ((∃ group ∈ groups, (∃ protocol ∈ protocols, protocol ++ ['-'] <+: group) ∨
          group = "WEP".toList) → (parseSecurity (flagsText groups)).isOpen = false) := by
  have hclean : ∀ group ∈ groups, ']' ∉ group := fun group hgroup => (h group hgroup).2
  refine ⟨parseSecurity_eq_sup hclean, ?_, ?_, ?_, (isOpen_eq_false_iff hclean).mpr⟩
  · intro other hsame
    have hother : ∀ group ∈ other, ']' ∉ group := fun group hgroup =>
      hclean group ((hsame group).mp hgroup)
    have hset : other.toFinset = groups.toFinset := by
      ext group
      rw [List.mem_toFinset, List.mem_toFinset, hsame]
    rw [parseSecurity_eq_sup hother, parseSecurity_eq_sup hclean, hset]
  · exact fun more hmore => parseSecurity_append hclean fun group hgroup => (hmore group hgroup).2
  · intro group hgroup hne
    have hflag : group ∈ (parseSecurity (flagsText groups)).flags ↔ ¬ NamesProtocol group := by
      rw [(mem_parseSecurity hclean group).2.2]
      constructor
      · rintro ⟨other, -, hother⟩
        obtain ⟨rfl, -, hno⟩ := groupFlag?_eq_some.mp hother
        exact hno
      · exact fun hno => ⟨group, hgroup, groupFlag?_eq_some.mpr ⟨rfl, hne, hno⟩⟩
    have hprotocol : (∃ protocol ∈ (parseSecurity (flagsText groups)).protocols,
        protocol ++ ['-'] <+: group) ↔ NamesProtocol group := by
      constructor
      · rintro ⟨protocol, hmem, hprefix⟩
        obtain ⟨other, -, hother⟩ := (mem_parseSecurity hclean protocol).2.1.mp hmem
        exact ⟨protocol, (groupProtocol?_eq_some hother).1, hprefix⟩
      · intro hnames
        obtain ⟨protocol, hfound⟩ := namesProtocol_iff.mp hnames
        exact ⟨protocol, (mem_parseSecurity hclean protocol).2.1.mpr ⟨group, hgroup, hfound⟩,
          (groupProtocol?_eq_some hfound).2⟩
    rw [hflag, hprotocol]
    by_cases hnames : NamesProtocol group
    · exact Or.inl ⟨hnames, not_not_intro hnames⟩
    · exact Or.inr ⟨hnames, hnames⟩

/-- A suite this code has no name for, and a flag that stands twice. -/
theorem parseSecurity_union_unknown_suite :
    (parseSecurity (flagsText ["ESS".toList, "WPA2-NEWSUITE-CCMP".toList, [], "ESS".toList])).isOpen =
      false :=
  (parseSecurity_union ["ESS".toList, "WPA2-NEWSUITE-CCMP".toList, [], "ESS".toList]
    (by decide)).2.2.2.2
    ⟨"WPA2-NEWSUITE-CCMP".toList, by decide, Or.inl ⟨"WPA2".toList, by decide, by decide⟩⟩

/-! ## Protocols this code does not list -/

/-- A group that is a protocol of any name, a dash, and a body that begins with a
suite of the vocabulary. -/
def AdvertisesSuite (group : Text) : Prop :=
  ∃ protocol body : Text, protocol ≠ [] ∧ (∀ c ∈ protocol, c ≠ '-' ∧ c ≠ '[' ∧ c ≠ ']') ∧
    group = protocol ++ '-' :: body ∧ scanKeyMgmt body ≠ []

/-- **Exactly when an advertised suite keeps a BSS from being open.**  The suites of a
group whose protocol is not listed are not looked at, so it takes a group that names
a listed protocol, or WEP. -/
theorem isOpen_false_iff (groups : List Text) (h : ∀ group ∈ groups, '[' ∉ group ∧ ']' ∉ group) :
    ((∃ group ∈ groups, AdvertisesSuite group) →
        (parseSecurity (flagsText groups)).isOpen = false) ↔
      ((∃ group ∈ groups, AdvertisesSuite group) → ∃ group ∈ groups, Secures group) := by
  rw [isOpen_eq_false_iff fun group hgroup => (h group hgroup).2]

theorem scanKeyMgmt_sae_ccmp : scanKeyMgmt "SAE-CCMP".toList = ["SAE".toList] :=
  scanKeyMgmt_of_stop (by decide +kernel) fun rest h => by simp at h

/-- An SAE network beside a flag. -/
theorem isOpen_false_iff_sae :
    (parseSecurity (flagsText ["RSN-SAE-CCMP".toList, "ESS".toList])).isOpen = false := by
  apply (isOpen_false_iff ["RSN-SAE-CCMP".toList, "ESS".toList] (by decide)).mpr
  · exact fun _ => ⟨"RSN-SAE-CCMP".toList, by decide, Or.inl ⟨"RSN".toList, by decide, by decide⟩⟩
  · refine ⟨"RSN-SAE-CCMP".toList, by simp, "RSN".toList, "SAE-CCMP".toList, by simp, by simp, rfl,
      ?_⟩
    rw [scanKeyMgmt_sae_ccmp]
    exact List.cons_ne_nil _ _

/-- A protocol added upstream, with a suite that has long been known. -/
theorem wpa3_sae_reported_open : ¬ ∀ groups : List Text,
    (∀ group ∈ groups, '[' ∉ group ∧ ']' ∉ group) →
      (∃ group ∈ groups, AdvertisesSuite group) →
        (parseSecurity (flagsText groups)).isOpen = false := by
  intro hall
  have hsuite : scanKeyMgmt "SAE-CCMP".toList ≠ [] := by
    rw [scanKeyMgmt_sae_ccmp]
    simp
  have hoffer : AdvertisesSuite "WPA3-SAE-CCMP".toList :=
    ⟨"WPA3".toList, "SAE-CCMP".toList, by decide, by simp, rfl, hsuite⟩
  have hclosed := hall ["WPA3-SAE-CCMP".toList] (by decide) ⟨_, List.mem_singleton_self _, hoffer⟩
  rw [isOpen_eq_false_iff (by decide)] at hclosed
  obtain ⟨group, hgroup, hsecures⟩ := hclosed
  obtain rfl := List.mem_singleton.mp hgroup
  rcases hsecures with ⟨protocol, hmem, hprefix⟩ | hwep
  · revert protocol
    decide
  · exact absurd hwep (by decide)

/-! ## Suites this code does not know -/

/-- A token of a suite list: a name of the vocabulary, or a text that is none. -/
inductive SuiteToken where
  | known (name : Text) (mem : name ∈ scanVocabulary)
  | unknown (text : Text) (ne_nil : text ≠ [])
      (clean : ∀ c ∈ text, c ≠ '+' ∧ c ≠ '-' ∧ c ≠ '[' ∧ c ≠ ']') (notMem : text ∉ scanVocabulary)

/-- The token as it is advertised. -/
def SuiteToken.text : SuiteToken → Text
  | known name _ => name
  | unknown text _ _ _ => text

/-- The names ahead of the first token that is none. -/
def SuiteToken.leading (tokens : List SuiteToken) : List Text :=
  (tokens.map SuiteToken.text).takeWhile (· ∈ scanVocabulary)

/-- A group of a listed protocol, any suites, and what follows them: nothing, or a dash
and ciphers that do not make the last token the front of a longer name. -/
structure TokenGroup where
  protocol : Text
  protocol_mem : protocol ∈ protocols
  tokens : List SuiteToken
  ciphers : Option Text
  bracketFree : ∀ text, ciphers = some text → '[' ∉ text ∧ ']' ∉ text
  notExtended : ∀ last, tokens.getLast? = some last → ∀ text, ciphers = some text →
    ∀ u v, text = u ++ v → separated v = true → last.text ++ '-' :: u ∉ scanVocabulary

namespace TokenGroup

/-- The text behind the protocol. -/
def body (group : TokenGroup) : Text :=
  ['+'].intercalate (group.tokens.map SuiteToken.text) ++ ciphersText group.ciphers

/-- The text between the brackets. -/
def text (group : TokenGroup) : Text := group.protocol ++ '-' :: group.body

end TokenGroup

/-- Nothing is matched at the front of a token that is no name. -/
theorem matchName_eq_none {token rest : Text} (htoken : token ∉ scanVocabulary)
    (hclean : ∀ c ∈ token, c ≠ '+' ∧ c ≠ '-') (hlong : Unextended token rest) :
    matchName (token ++ rest) = none := by
  apply List.find?_eq_none.mpr
  intro name hname hmatch
  rw [Bool.and_eq_true, List.isPrefixOf_iff_prefix] at hmatch
  obtain ⟨⟨v, hv⟩, hsep⟩ := hmatch
  rw [← hv, List.drop_left] at hsep
  rcases List.append_eq_append_iff.mp hv with ⟨u, rfl, rfl⟩ | ⟨u, rfl, rfl⟩
  · -- the name ends inside the token, where no separator stands
    rcases u with _ | ⟨c, u⟩
    · rw [List.append_nil] at htoken
      exact htoken hname
    · obtain ⟨hplus, hdash⟩ := hclean c (by simp)
      rw [List.cons_append, separated] at hsep
      simp [hplus, hdash] at hsep
  · rcases u with _ | ⟨c, u⟩
    · rw [List.append_nil] at hname
      exact htoken hname
    · exact hlong (c :: u) v rfl (by simp) hsep hname

/-- A token of either kind is matched exactly when it is a name. -/
theorem matchName_token (token : SuiteToken) {rest : Text} (hsep : separated rest = true)
    (hlong : Unextended token.text rest) :
    matchName (token.text ++ rest) =
      if token.text ∈ scanVocabulary then some token.text else none := by
  cases token with
  | known name mem =>
    rw [if_pos (show (SuiteToken.known name mem).text ∈ scanVocabulary from mem)]
    exact matchName_append mem hsep hlong
  | unknown text ne_nil clean notMem =>
    rw [if_neg (show (SuiteToken.unknown text ne_nil clean notMem).text ∉ scanVocabulary
      from notMem)]
    exact matchName_eq_none notMem (fun c hc => ⟨(clean c hc).1, (clean c hc).2.1⟩) hlong

theorem scanKeyMgmt_of_none {body : Text} (h : matchName body = none) : scanKeyMgmt body = [] := by
  rw [scanKeyMgmt, h]

/-- No suite begins where the ciphers begin. -/
theorem matchName_ciphersText (ciphers : Option Text) : matchName (ciphersText ciphers) = none := by
  have hdash : ∀ name ∈ scanVocabulary, name.head? ≠ some '-' := by decide +kernel
  have hlong : Unextended [] (ciphersText ciphers) := by
    apply unextended_ciphersText
    intro text _ u v _ _ hmem
    exact hdash _ hmem rfl
  have hnone := matchName_eq_none (by decide +kernel) (by simp) hlong
  exact hnone

/-- **The scan stops at the first unknown suite**, and finds every name before it. -/
theorem scanKeyMgmt_tokens (ciphers : Option Text) {tokens : List SuiteToken}
    (hlast : ∀ last, tokens.getLast? = some last → Unextended last.text (ciphersText ciphers)) :
    scanKeyMgmt (['+'].intercalate (tokens.map SuiteToken.text) ++ ciphersText ciphers) =
      (tokens.map SuiteToken.text).takeWhile (· ∈ scanVocabulary) := by
  induction tokens with
  | nil => exact scanKeyMgmt_of_none (matchName_ciphersText ciphers)
  | cons token tokens ih =>
    rcases tokens with _ | ⟨next, tokens⟩
    · have hmatch := matchName_token token (separated_ciphersText ciphers) (hlast token rfl)
      rw [List.map_singleton, List.intercalate_singleton]
      by_cases hname : token.text ∈ scanVocabulary
      · rw [if_pos hname] at hmatch
        rw [scanKeyMgmt_of_stop hmatch, List.takeWhile_cons_of_pos (by simpa using hname)]
        · rfl
        · intro rest h
          rw [List.drop_left] at h
          exact ciphersText_ne_plus _ _ h
      · rw [if_neg hname] at hmatch
        rw [scanKeyMgmt_of_none hmatch, List.takeWhile_cons_of_neg (by simpa using hname)]
    · have hcons : ['+'].intercalate ((token :: next :: tokens).map SuiteToken.text) ++
          ciphersText ciphers = token.text ++ '+' :: (['+'].intercalate
            ((next :: tokens).map SuiteToken.text) ++ ciphersText ciphers) := by
        rw [List.map_cons, List.map_cons, List.intercalate_cons_cons]
        simp
      have hmatch := matchName_token token rfl (unextended_plus token.text (['+'].intercalate
        ((next :: tokens).map SuiteToken.text) ++ ciphersText ciphers))
      have hmap : (token :: next :: tokens).map SuiteToken.text =
          token.text :: (next :: tokens).map SuiteToken.text := rfl
      rw [hcons, hmap]
      by_cases hname : token.text ∈ scanVocabulary
      · rw [if_pos hname] at hmatch
        rw [scanKeyMgmt_of_plus hmatch List.drop_left,
          List.takeWhile_cons_of_pos (by simpa using hname)]
        exact congrArg _ (ih fun last h => hlast last h)
      · rw [if_neg hname] at hmatch
        rw [scanKeyMgmt_of_none hmatch, List.takeWhile_cons_of_neg (by simpa using hname)]

namespace TokenGroup

theorem groupProtocol?_text (group : TokenGroup) : groupProtocol? group.text = some group.protocol :=
  groupProtocol?_append group.protocol_mem group.body

theorem groupKeyMgmt_text (group : TokenGroup) :
    groupKeyMgmt group.text = SuiteToken.leading group.tokens := by
  have hdrop : group.text.drop (group.protocol.length + 1) = group.body := by
    rw [text, ← List.drop_drop, List.drop_left]
    rfl
  simp only [groupKeyMgmt, group.groupProtocol?_text, hdrop]
  exact scanKeyMgmt_tokens group.ciphers fun last hlast =>
    unextended_ciphersText (group.notExtended last hlast)

theorem groupFlag?_text (group : TokenGroup) : groupFlag? group.text = none := by
  rw [groupFlag?, if_pos (Or.inr (by rw [group.groupProtocol?_text]; rfl))]

/-- A group contains no closing bracket of its own. -/
theorem notMem_text (group : TokenGroup) : ']' ∉ group.text := by
  have htoken : ∀ token : SuiteToken, ']' ∉ token.text := by
    intro token h
    cases token with
    | known name mem => exact (notMem_of_mem_scanVocabulary mem).2.2 h
    | unknown text ne_nil clean notMem => exact (clean _ h).2.2.2 rfl
  intro h
  rcases List.mem_append.mp h with h | h
  · exact notMem_of_mem_protocols group.protocol_mem h
  rcases List.mem_cons.mp h with h | h
  · exact absurd h (by decide)
  rcases List.mem_append.mp h with h | h
  · rcases mem_intercalate h with h | ⟨piece, hpiece, h⟩
    · exact absurd h (by decide)
    · obtain ⟨token, -, rfl⟩ := List.mem_map.mp hpiece
      exact htoken token h
  · exact notMem_ciphersText group.bracketFree h

end TokenGroup

/-- The three sets around a group of suites. -/
theorem parseSecurity_around (group : TokenGroup) {before after : List Text}
    (hbefore : ∀ g ∈ before, ']' ∉ g) (hafter : ∀ g ∈ after, ']' ∉ g) :
    parseSecurity (flagsText (before ++ group.text :: after)) =
      parseSecurity (flagsText before) ⊔
        (⟨(SuiteToken.leading group.tokens).toFinset, {group.protocol}, ∅⟩ ⊔
          parseSecurity (flagsText after)) := by
  have hone : ∀ g ∈ [group.text], ']' ∉ g := by
    intro g hg
    rw [List.mem_singleton.mp hg]
    exact group.notMem_text
  have hrest : ∀ g ∈ [group.text] ++ after, ']' ∉ g := by
    intro g hg
    rcases List.mem_append.mp hg with hg | hg
    · exact hone g hg
    · exact hafter g hg
  have hsingle : parseSecurity (flagsText [group.text]) =
      ⟨(SuiteToken.leading group.tokens).toFinset, {group.protocol}, ∅⟩ := by
    apply Security.eq_of_mem_iff
    · intro name
      rw [(mem_parseSecurity hone name).1]
      simp [group.groupKeyMgmt_text]
    · intro name
      rw [(mem_parseSecurity hone name).2.1]
      simp [group.groupProtocol?_text, eq_comm]
    · intro name
      rw [(mem_parseSecurity hone name).2.2]
      simp [group.groupFlag?_text]
  have hsplit : before ++ group.text :: after = before ++ ([group.text] ++ after) := rfl
  rw [hsplit, flagsText_append, parseSecurity_append hbefore hrest, flagsText_append,
    parseSecurity_append hone hafter, hsingle]

namespace SuiteToken

variable {front back : List SuiteToken}

/-- Behind a token that is no name, nothing is read. -/
theorem leading_append_of_unknown (h : ∃ token ∈ front, token.text ∉ scanVocabulary) :
    leading (front ++ back) = leading front := by
  induction front with
  | nil =>
    obtain ⟨token, htoken, -⟩ := h
    cases htoken
  | cons token front ih =>
    rw [leading, leading, List.cons_append, List.map_cons, List.map_cons, List.takeWhile_cons,
      List.takeWhile_cons]
    by_cases hname : token.text ∈ scanVocabulary
    · have hrest : ∃ token ∈ front, token.text ∉ scanVocabulary := by
        obtain ⟨other, hother, hunknown⟩ := h
        rcases List.mem_cons.mp hother with rfl | hother
        · exact absurd hname hunknown
        · exact ⟨other, hother, hunknown⟩
      rw [if_pos (by simpa using hname), if_pos (by simpa using hname)]
      exact congrArg _ (ih hrest)
    · rw [if_neg (by simpa using hname), if_neg (by simpa using hname)]

/-- Behind names, the rest is read as it would be alone. -/
theorem leading_append_of_known (h : ¬ ∃ token ∈ front, token.text ∉ scanVocabulary) :
    leading (front ++ back) = front.map text ++ leading back := by
  push Not at h
  rw [leading, leading, List.map_append, List.takeWhile_append_of_pos]
  intro name hname
  obtain ⟨token, htoken, rfl⟩ := List.mem_map.mp hname
  simpa using h token htoken

theorem leading_cons_of_unknown {token : SuiteToken} (h : token.text ∉ scanVocabulary) :
    leading (token :: back) = [] := by
  rw [leading, List.map_cons, List.takeWhile_cons_of_neg (by simpa using h)]

end SuiteToken

/-- The families of suites that the predicates ask for. -/
inductive Family where
  | psk
  | sae
  | enterprise
  | owe

namespace Family

/-- Whether a name is of the family. -/
def Has : Family → Text → Prop
  | psk, name => name = "PSK".toList ∨ "/PSK".toList <:+ name ∨ "PSK-".toList <+: name
  | sae, name => name = "SAE".toList ∨ "/SAE".toList <:+ name ∨ "SAE-".toList <+: name
  | enterprise, name => name = "EAP".toList ∨ "/EAP".toList <:+: name ∨ "EAP-".toList <+: name
  | owe, name => name = "OWE".toList

/-- The predicate that asks for it. -/
def offered : Family → Security → Bool
  | psk => Security.psk
  | sae => Security.sae
  | enterprise => Security.enterprise
  | owe => Security.owe

theorem offered_iff (family : Family) (security : Security) :
    family.offered security = true ↔ ∃ name ∈ security.keyMgmt, family.Has name := by
  cases family with
  | psk => exact decide_eq_true_iff
  | sae => exact decide_eq_true_iff
  | enterprise => exact decide_eq_true_iff
  | owe => simp [offered, Has, Security.owe]

end Family

/-- The six predicates that read the suites. -/
def Security.predicates : List (Security → Bool) :=
  [psk, sae, enterprise, owe, transitionMode, saeOnly]

/-- They are known by the families on offer. -/
theorem Security.predicates_eq_iff {a b : Security} :
    (∀ predicate ∈ predicates, predicate a = predicate b) ↔
      ∀ family : Family, family.offered a = family.offered b := by
  constructor
  · intro h family
    cases family <;> exact h _ (by simp [predicates, Family.offered])
  · intro h
    have hpsk : a.psk = b.psk := h .psk
    have hsae : a.sae = b.sae := h .sae
    have henterprise : a.enterprise = b.enterprise := h .enterprise
    have howe : a.owe = b.owe := h .owe
    simp [predicates, transitionMode, saeOnly, hpsk, hsae, henterprise, howe]

namespace TokenGroup

/-- What is reported of the group among others. -/
def reported (group : TokenGroup) (before after : List Text) : Security :=
  parseSecurity (flagsText (before ++ group.text :: after))

/-- `extended` is `group` with one more token, behind those of `front`, which is no name. -/
structure Inserted (group extended : TokenGroup) (front back : List SuiteToken) : Prop where
  protocol : extended.protocol = group.protocol
  tokens : group.tokens = front ++ back
  extended : ∃ unknown : SuiteToken, unknown.text ∉ scanVocabulary ∧
    extended.tokens = front ++ unknown :: back

variable {group extended : TokenGroup} {front back : List SuiteToken} {before after : List Text}

theorem mem_keyMgmt_reported (h : ∀ g ∈ before ++ after, ']' ∉ g) (name : Text) :
    name ∈ (group.reported before after).keyMgmt ↔
      name ∈ (parseSecurity (flagsText before)).keyMgmt ∨ name ∈ SuiteToken.leading group.tokens ∨
        name ∈ (parseSecurity (flagsText after)).keyMgmt := by
  rw [reported, parseSecurity_around group (fun g hg => h g (by simp [hg]))
    fun g hg => h g (by simp [hg]), Security.keyMgmt_sup, Security.keyMgmt_sup, Finset.mem_union,
    Finset.mem_union, List.mem_toFinset]

/-- Alone, the group reports the names it leads with. -/
theorem mem_keyMgmt_alone (name : Text) :
    name ∈ (group.reported [] []).keyMgmt ↔ name ∈ SuiteToken.leading group.tokens := by
  rw [mem_keyMgmt_reported (by simp)]
  have hnone : (parseSecurity (flagsText [])).keyMgmt = ∅ := rfl
  simp [hnone]

/-- An unknown token behind an unknown one changes nothing. -/
theorem Inserted.leading_of_unknown (h : Inserted group extended front back)
    (hfront : ∃ token ∈ front, token.text ∉ scanVocabulary) :
    SuiteToken.leading extended.tokens = SuiteToken.leading group.tokens := by
  obtain ⟨unknown, -, htokens⟩ := h.extended
  rw [htokens, h.tokens, SuiteToken.leading_append_of_unknown hfront,
    SuiteToken.leading_append_of_unknown hfront]

/-- Behind names, it hides those that stand behind it. -/
theorem Inserted.leading_of_known (h : Inserted group extended front back)
    (hfront : ¬ ∃ token ∈ front, token.text ∉ scanVocabulary) :
    SuiteToken.leading extended.tokens = front.map SuiteToken.text ∧
      SuiteToken.leading group.tokens =
        front.map SuiteToken.text ++ SuiteToken.leading back := by
  obtain ⟨unknown, hunknown, htokens⟩ := h.extended
  rw [htokens, h.tokens, SuiteToken.leading_append_of_known hfront,
    SuiteToken.leading_append_of_known hfront, SuiteToken.leading_cons_of_unknown hunknown,
    List.append_nil]
  exact ⟨rfl, rfl⟩

/-- **When an unknown token hides no family**: an unknown one stands ahead of it already, or the
families of the names it hides are there ahead of it. -/
theorem Inserted.offered_iff (h : Inserted group extended front back) :
    (∀ before after, (∀ g ∈ before ++ after, '[' ∉ g ∧ ']' ∉ g) → ∀ family : Family,
        family.offered (extended.reported before after) =
          family.offered (group.reported before after)) ↔
      (∃ token ∈ front, token.text ∉ scanVocabulary) ∨
        ∀ family : Family, (∃ name ∈ SuiteToken.leading back, family.Has name) →
          ∃ token ∈ front, family.Has token.text := by
  by_cases hfront : ∃ token ∈ front, token.text ∉ scanVocabulary
  · refine iff_of_true (fun before after hclean family => ?_) (Or.inl hfront)
    have hclean : ∀ g ∈ before ++ after, ']' ∉ g := fun g hg => (hclean g hg).2
    rw [Bool.eq_iff_iff, Family.offered_iff, Family.offered_iff]
    simp only [mem_keyMgmt_reported hclean, h.leading_of_unknown hfront]
  · obtain ⟨hextended, hgroup⟩ := h.leading_of_known hfront
    constructor
    · intro hsame
      refine Or.inr fun family hback => ?_
      have hoffered : family.offered (group.reported [] []) = true := by
        obtain ⟨name, hname, hhas⟩ := hback
        refine (family.offered_iff _).mpr ⟨name, (mem_keyMgmt_alone _).mpr ?_, hhas⟩
        rw [hgroup]
        exact List.mem_append_right _ hname
      rw [← hsame [] [] (by simp) family, Family.offered_iff] at hoffered
      obtain ⟨name, hname, hhas⟩ := hoffered
      rw [mem_keyMgmt_alone, hextended] at hname
      obtain ⟨token, htoken, rfl⟩ := List.mem_map.mp hname
      exact ⟨token, htoken, hhas⟩
    · rintro (hunknown | hahead) before after hclean family
      · exact absurd hunknown hfront
      · have hclean : ∀ g ∈ before ++ after, ']' ∉ g := fun g hg => (hclean g hg).2
        rw [Bool.eq_iff_iff, Family.offered_iff, Family.offered_iff]
        simp only [mem_keyMgmt_reported hclean, hextended, hgroup, List.mem_append]
        constructor
        · rintro ⟨name, hname, hhas⟩
          refine ⟨name, ?_, hhas⟩
          exact hname.imp_right fun h => h.imp_left Or.inl
        · rintro ⟨name, hname | (hname | hname) | hname, hhas⟩
          · exact ⟨name, Or.inl hname, hhas⟩
          · exact ⟨name, Or.inr (Or.inl hname), hhas⟩
          · -- a name that is hidden has one of its family ahead of the unknown token
            obtain ⟨token, htoken, hhas⟩ := hahead family ⟨name, hname, hhas⟩
            exact ⟨token.text, Or.inr (Or.inl (List.mem_map_of_mem htoken)), hhas⟩
          · exact ⟨name, Or.inr (Or.inr hname), hhas⟩

end TokenGroup

/-- **Exactly which known suites are found** in a list: those ahead of its first unknown token,
whatever groups surround the list, for there the scan takes the ciphers to begin.  So every name
of the list is reported if and only if it also stands ahead of the first unknown token; and an
unknown token that is inserted changes none of the predicates if and only if one stands ahead of
it already, or every family among the names that stand directly behind it has a name ahead. -/
theorem known_suites_found_iff (group : TokenGroup) :
    (∀ before after, (∀ g ∈ before ++ after, '[' ∉ g ∧ ']' ∉ g) →
        (group.reported before after).keyMgmt = (parseSecurity (flagsText before)).keyMgmt ∪
          ((SuiteToken.leading group.tokens).toFinset ∪
            (parseSecurity (flagsText after)).keyMgmt)) ∧
      ((∀ before after, (∀ g ∈ before ++ after, '[' ∉ g ∧ ']' ∉ g) →
          ∀ token ∈ group.tokens, token.text ∈ scanVocabulary →
            token.text ∈ (group.reported before after).keyMgmt) ↔
        ∀ token ∈ group.tokens, token.text ∈ scanVocabulary →
          token.text ∈ SuiteToken.leading group.tokens) ∧
      ∀ (extended : TokenGroup) (front back : List SuiteToken),
        group.Inserted extended front back →
          ((∀ before after, (∀ g ∈ before ++ after, '[' ∉ g ∧ ']' ∉ g) →
              ∀ predicate ∈ Security.predicates, predicate (extended.reported before after) =
                predicate (group.reported before after)) ↔
            (∃ token ∈ front, token.text ∉ scanVocabulary) ∨
              ∀ family : Family, (∃ name ∈ SuiteToken.leading back, family.Has name) →
                ∃ token ∈ front, family.Has token.text) := by
  refine ⟨fun before after hclean => ?_, ⟨fun hfound token htoken hknown => ?_,
    fun hahead before after hclean token htoken hknown => ?_⟩, fun extended front back h => ?_⟩
  · ext name
    rw [TokenGroup.mem_keyMgmt_reported fun g hg => (hclean g hg).2, Finset.mem_union,
      Finset.mem_union, List.mem_toFinset]
  · exact (TokenGroup.mem_keyMgmt_alone _).mp (hfound [] [] (by simp) token htoken hknown)
  · exact (TokenGroup.mem_keyMgmt_reported (fun g hg => (hclean g hg).2) _).mpr
      (Or.inr (Or.inl (hahead token htoken hknown)))
  · rw [← h.offered_iff]
    simp only [Security.predicates_eq_iff]

/-- A suite that was added after this code was written. -/
def newSuite : SuiteToken :=
  .unknown "NEWSUITE".toList (by decide) (by simp) (by decide +kernel)

/-- An SAE network whose list of suites begins with given ones. -/
def saeBehind (tokens : List SuiteToken) : TokenGroup where
  protocol := "RSN".toList
  protocol_mem := by decide
  tokens := tokens ++ [.known "SAE".toList (by decide +kernel)]
  ciphers := none
  bracketFree := by simp
  notExtended := by simp

/-- The unknown suite between PSK and SAE: the first is found and the second is not. -/
theorem known_suites_found_iff_psk_ahead :
    let psk : SuiteToken := .known "PSK".toList (by decide +kernel)
    ((saeBehind [psk, newSuite]).reported [] ["ESS".toList]).keyMgmt = {"PSK".toList} := by
  intro psk
  rw [(known_suites_found_iff (saeBehind [psk, newSuite])).1 [] ["ESS".toList] (by decide)]
  decide +kernel

/-- In front of SAE, the unknown suite hides it. -/
theorem new_suite_hides_sae : ¬
    ((∀ group : TokenGroup, ∀ name ∈ group.tokens.map SuiteToken.text, name ∈ scanVocabulary →
        name ∈ (parseSecurity (flagsText [group.text])).keyMgmt) ∧
      ∀ (group extended : TokenGroup) (front back : List SuiteToken) (unknown : SuiteToken),
        extended.protocol = group.protocol → group.tokens = front ++ back →
        extended.tokens = front ++ unknown :: back → unknown.text ∉ scanVocabulary →
        ∀ predicate ∈ [Security.psk, Security.sae, Security.enterprise, Security.owe,
            Security.transitionMode, Security.saeOnly],
          predicate (parseSecurity (flagsText [extended.text])) =
            predicate (parseSecurity (flagsText [group.text]))) := by
  rintro ⟨hfound, -⟩
  have hsae := hfound (saeBehind [newSuite]) "SAE".toList (by decide) (by decide +kernel)
  have hclean : ∀ g ∈ [(saeBehind [newSuite]).text], ']' ∉ g := by
    intro g hg
    rw [List.mem_singleton.mp hg]
    exact TokenGroup.notMem_text _
  obtain ⟨g, hg, hname⟩ := (mem_parseSecurity hclean _).1.mp hsae
  rw [List.mem_singleton.mp hg, TokenGroup.groupKeyMgmt_text] at hname
  exact absurd hname (by decide +kernel)

end WpaCtrl
