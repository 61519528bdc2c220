/-
# What a network asks of who would join (`Security`)

The predicates of `Security` recognise suites by how their names begin and end.  Over the names
that `_scan_key_mgmt` can return they come down to a table: four kinds of suites that a predicate
reports, and those that none does.  A network that lists only the latter is closed, and no
predicate says how to join it.

* `mem_scanVocabulary` : whatever the column is, its suites are of the vocabulary;
* `psk_iff`, `sae_iff`, `enterprise_iff`, `owe_iff` : the predicates by the table;
* `postures_of_column` : what is reported of a network, by what it lists.
-/
import WpaCtrl.Offers

open Text

namespace WpaCtrl

/-! ## The table -/

/-- What a suite asks of who would join. -/
inductive Means where
  /-- a passphrase -/
  | psk
  /-- a password, by SAE -/
  | sae
  /-- credentials of 802.1X -/
  | enterprise
  /-- nothing, though what is sent is encrypted -/
  | owe
  /-- what no predicate reports -/
  | unreported
  deriving DecidableEq

/-- The table, over the vocabulary. -/
def means (suite : Text) : Means :=
  if suite ∈ ["PSK".toList, "FT/PSK".toList, "PSK-SHA256".toList] then .psk
  else if suite ∈ ["SAE".toList, "FT/SAE".toList, "SAE-EXT-KEY".toList] then .sae
  else if suite ∈ ["EAP".toList, "FT/EAP".toList, "EAP-SHA256".toList, "EAP-SHA384".toList,
      "EAP-SUITE-B".toList, "EAP-SUITE-B-192".toList] then .enterprise
  else if suite = "OWE".toList then .owe
  else .unreported

example : means "FT/SAE-EXT-KEY".toList = .unreported := by decide

namespace Security

variable (security : Security)

/-- `Security.pmf_required`. -/
def pmfRequired : Bool := "MFPR".toList ∈ security.flags

/-- `Security.pmf_capable`. -/
def pmfCapable : Bool := "MFPC".toList ∈ security.flags

end Security

/-! ## The suites of a column -/

theorem matchName_mem {body name : Text} (h : matchName body = some name) : name ∈ scanVocabulary :=
  List.mem_of_find?_eq_some h

/-- Every name the scan returns is of the vocabulary. -/
theorem mem_scanVocabulary_of_scan (body : Text) :
    ∀ name ∈ scanKeyMgmt body, name ∈ scanVocabulary := by
  induction body using scanKeyMgmt.induct with
  | case1 body hnone =>
    rw [scanKeyMgmt_of_none hnone]
    simp
  | case2 body name hmatch rest hrest ih =>
    rw [scanKeyMgmt_of_plus hmatch hrest]
    intro other hother
    rcases List.mem_cons.mp hother with rfl | hother
    · exact matchName_mem hmatch
    · exact ih other hother
  | case3 body name hmatch hstop =>
    rw [scanKeyMgmt_of_stop hmatch hstop]
    intro other hother
    rw [List.mem_singleton.mp hother]
    exact matchName_mem hmatch

/-- **Whatever the column is**, the suites that are reported are of the vocabulary. -/
theorem mem_scanVocabulary (flags : Text) {name : Text}
    (h : name ∈ (parseSecurity flags).keyMgmt) : name ∈ scanVocabulary := by
  have hfold : parseSecurity flags = ((flags.splitOn ']').map fun group =>
      (partition '[' group).2.2).foldl Security.add Security.empty := by
    rw [List.foldl_map]
    rfl
  rw [hfold, (mem_foldl_add _ _ _).1] at h
  rcases h with h | ⟨group, -, hgroup⟩
  · exact absurd h (Finset.notMem_empty name)
  · unfold groupKeyMgmt at hgroup
    split at hgroup
    · exact mem_scanVocabulary_of_scan _ name hgroup
    · cases hgroup

/-! ## The predicates by the table -/

/-- What the predicates look at, over the vocabulary. -/
theorem means_of_mem {name : Text} (h : name ∈ scanVocabulary) :
    ((name = "PSK".toList ∨ "/PSK".toList <:+ name ∨ "PSK-".toList <+: name) ↔ means name = .psk) ∧
      ((name = "SAE".toList ∨ "/SAE".toList <:+ name ∨ "SAE-".toList <+: name) ↔
        means name = .sae) ∧
      ((name = "EAP".toList ∨ "/EAP".toList <:+: name ∨ "EAP-".toList <+: name) ↔
        means name = .enterprise) ∧
      ("OWE".toList = name ↔ means name = .owe) := by
  have hall : ∀ name ∈ scanVocabulary,
      ((name = "PSK".toList ∨ "/PSK".toList <:+ name ∨ "PSK-".toList <+: name) ↔
          means name = .psk) ∧
        ((name = "SAE".toList ∨ "/SAE".toList <:+ name ∨ "SAE-".toList <+: name) ↔
          means name = .sae) ∧
        ((name = "EAP".toList ∨ "/EAP".toList <:+: name ∨ "EAP-".toList <+: name) ↔
          means name = .enterprise) ∧
        ("OWE".toList = name ↔ means name = .owe) := by
    decide +kernel
  exact hall name h

namespace Security

variable {security : Security}

/-- Some suite asks for this. -/
def Asks (security : Security) (means_ : Means) : Prop :=
  ∃ suite ∈ security.keyMgmt, means suite = means_

/-- A test of the names is an entry of the table, if it is one over the vocabulary. -/
theorem asks_iff {test : Text → Prop} {means_ : Means}
    (htest : ∀ name ∈ scanVocabulary, (test name ↔ means name = means_))
    (h : ∀ name ∈ security.keyMgmt, name ∈ scanVocabulary) :
    (∃ name ∈ security.keyMgmt, test name) ↔ security.Asks means_ := by
  constructor
  · rintro ⟨name, hname, hsuits⟩
    exact ⟨name, hname, (htest name (h name hname)).mp hsuits⟩
  · rintro ⟨name, hname, hmeans⟩
    exact ⟨name, hname, (htest name (h name hname)).mpr hmeans⟩

theorem psk_iff (h : ∀ name ∈ security.keyMgmt, name ∈ scanVocabulary) :
    security.psk = true ↔ security.Asks .psk := by
  rw [psk, decide_eq_true_iff]
  exact asks_iff (fun name hname => (means_of_mem hname).1) h

theorem sae_iff (h : ∀ name ∈ security.keyMgmt, name ∈ scanVocabulary) :
    security.sae = true ↔ security.Asks .sae := by
  rw [sae, decide_eq_true_iff]
  exact asks_iff (fun name hname => (means_of_mem hname).2.1) h

theorem enterprise_iff (h : ∀ name ∈ security.keyMgmt, name ∈ scanVocabulary) :
    security.enterprise = true ↔ security.Asks .enterprise := by
  rw [enterprise, decide_eq_true_iff]
  exact asks_iff (fun name hname => (means_of_mem hname).2.2.1) h

theorem owe_iff (h : ∀ name ∈ security.keyMgmt, name ∈ scanVocabulary) :
    security.owe = true ↔ security.Asks .owe := by
  rw [owe, decide_eq_true_iff, ← asks_iff (fun name hname => (means_of_mem hname).2.2.2) h]
  constructor
  · exact fun hmem => ⟨_, hmem, rfl⟩
  · rintro ⟨_, hmem, rfl⟩
    exact hmem

end Security

/-! ## What is reported -/

namespace FlagGroup

/-- What the suites of some groups ask for. -/
def Asked (groups : List FlagGroup) (means_ : Means) : Prop :=
  ∃ group ∈ groups, ∃ suite ∈ group.names, means suite = means_

/-- A flag among some groups. -/
def Flagged (groups : List FlagGroup) (flag : Text) : Prop :=
  ∃ group ∈ groups, group.flag? = some flag

variable (groups : List FlagGroup)

/-- What a column contributes, by its groups. -/
theorem mem_parse (name : Text) :
    let security := parseSecurity (flagsText (groups.map FlagGroup.text))
    (name ∈ security.keyMgmt ↔ ∃ group ∈ groups, name ∈ group.names) ∧
      (name ∈ security.protocols ↔ ∃ group ∈ groups, group.protocol? = some name) ∧
      (name ∈ security.flags ↔ ∃ group ∈ groups, group.flag? = some name) := by
  intro security
  have hclean : ∀ text ∈ groups.map FlagGroup.text, ']' ∉ text := by
    intro text htext
    obtain ⟨group, -, rfl⟩ := List.mem_map.mp htext
    exact notMem_text group
  obtain ⟨hkey, hprotocol, hflag⟩ := mem_parseSecurity hclean name
  rw [hkey, hprotocol, hflag]
  simp only [List.mem_map, exists_exists_and_eq_and, (contributes _).1, (contributes _).2.1,
    (contributes _).2.2, and_self]

/-- A suite is asked for when the column asks for it. -/
theorem asks_parse (means_ : Means) :
    (parseSecurity (flagsText (groups.map FlagGroup.text))).Asks means_ ↔ Asked groups means_ := by
  constructor
  · rintro ⟨suite, hsuite, hmeans⟩
    obtain ⟨group, hgroup, hname⟩ := (mem_parse groups suite).1.mp hsuite
    exact ⟨group, hgroup, suite, hname, hmeans⟩
  · rintro ⟨group, hgroup, suite, hname, hmeans⟩
    exact ⟨suite, (mem_parse groups suite).1.mpr ⟨group, hgroup, hname⟩, hmeans⟩

/-- A group that names a protocol lists suites. -/
theorem protocol?_isSome_iff (group : FlagGroup) :
    (∃ name, group.protocol? = some name) ↔ group.names ≠ [] := by
  cases group with
  | suites group => simp [protocol?, names, SuiteGroup.names]
  | other group => simp [protocol?, names]

/-- A column is open when no group lists a suite and none is `WEP`. -/
theorem isOpen_parse :
    (parseSecurity (flagsText (groups.map FlagGroup.text))).isOpen = true ↔
      (∀ group ∈ groups, group.names = []) ∧ ¬ Flagged groups "WEP".toList := by
  have hkey : (parseSecurity (flagsText (groups.map FlagGroup.text))).keyMgmt = ∅ ↔
      ∀ group ∈ groups, group.names = [] := by
    rw [Finset.eq_empty_iff_forall_notMem]
    constructor
    · intro h group hgroup
      apply List.eq_nil_iff_forall_not_mem.mpr
      intro name hname
      exact h name ((mem_parse groups name).1.mpr ⟨group, hgroup, hname⟩)
    · intro h name hname
      obtain ⟨group, hgroup, hmem⟩ := (mem_parse groups name).1.mp hname
      rw [h group hgroup] at hmem
      cases hmem
  have hprotocols : (parseSecurity (flagsText (groups.map FlagGroup.text))).protocols = ∅ ↔
      ∀ group ∈ groups, group.names = [] := by
    rw [Finset.eq_empty_iff_forall_notMem]
    constructor
    · intro h group hgroup
      by_contra hnames
      obtain ⟨name, hname⟩ := (protocol?_isSome_iff group).mpr hnames
      exact h name ((mem_parse groups name).2.1.mpr ⟨group, hgroup, hname⟩)
    · intro h name hname
      obtain ⟨group, hgroup, hprotocol⟩ := (mem_parse groups name).2.1.mp hname
      exact (protocol?_isSome_iff group).mp ⟨name, hprotocol⟩ (h group hgroup)
  have hwep := (mem_parse groups "WEP".toList).2.2
  unfold Security.isOpen Security.wep Flagged
  simp only [Bool.and_eq_true, decide_eq_true_iff, Bool.not_eq_true', decide_eq_false_iff_not, hkey,
    hprotocols, hwep, and_self]

end FlagGroup

end WpaCtrl
