/-
# Parameters written and read (`format_params`, `parse_params`)

The writer joins `name=value` by spaces, the reader is the tokenizer of the events with
its quotes and escapes.  On the mappings and the payloads that hold neither a space nor a
quote in a text, each of the two undoes the other.

* `ParamPayload.text_eq` : such a payload is what is written of its own pairs;
* `format_parse_inverse` : reading undoes writing, and writing undoes reading.
-/
import WpaCtrl.Dpp

open Text

namespace WpaCtrl

/-! ## Mappings and payloads -/

/-- The arguments of `format_params` as `**` passes them: a mapping from names to values,
`none` for `None`.  What counts of a name is what is left of it without its trailing
underscores. -/
structure ParamMap where
  params : List (Text × Option Text)
  name_ne_nil : ∀ param ∈ params, rstrip '_' param.1 ≠ []
  name_clean : ∀ param ∈ params, ∀ c ∈ rstrip '_' param.1, c ≠ ' ' ∧ c ≠ '=' ∧ c ≠ '"'
  distinct : (params.map fun param => rstrip '_' param.1).Nodup
  value_clean : ∀ param ∈ params, ∀ value, param.2 = some value → ∀ c ∈ value, c ≠ ' ' ∧ c ≠ '"'

/-- The stripped names of the entries that are not `None`, with their values. -/
def ParamMap.given (m : ParamMap) : List (Text × Text) :=
  m.params.filterMap fun param => param.2.map fun value => (rstrip '_' param.1, value)

/-- A payload of `key=value` tokens. -/
structure ParamPayload where
  pairs : List (Text × Text)
  key_ne_nil : ∀ pair ∈ pairs, pair.1 ≠ []
  key_last : ∀ pair ∈ pairs, pair.1.getLast? ≠ some '_'
  key_clean : ∀ pair ∈ pairs, ∀ c ∈ pair.1, c ≠ ' ' ∧ c ≠ '=' ∧ c ≠ '"'
  distinct : (pairs.map Prod.fst).Nodup
  value_clean : ∀ pair ∈ pairs, ∀ c ∈ pair.2, c ≠ ' ' ∧ c ≠ '"'

/-- The tokens, each behind a single space but the first. -/
def ParamPayload.text (p : ParamPayload) : Text :=
  [' '].intercalate (p.pairs.map fun pair => pair.1 ++ '=' :: pair.2)

/-- A dictionary of texts as the arguments of `format_params`. -/
def asArguments (pairs : Dict Text Text) : List (Text × Option Text) :=
  pairs.entries.map fun entry => (entry.1, some entry.2)

/-! ## The two directions -/

/-- The entries that are given are some of all, in their order. -/
theorem ParamMap.names_sublist (m : ParamMap) :
    List.Sublist (m.given.map Prod.fst) (m.params.map fun param => rstrip '_' param.1) := by
  unfold given
  generalize m.params = params
  induction params with
  | nil => simp
  | cons param params ih =>
    obtain ⟨name, value⟩ := param
    cases value with
    | none => exact ih.cons _
    | some value => exact ih.cons_cons _

/-- Reading undoes writing. -/
theorem ParamMap.parse_format (m : ParamMap) :
    (parseParams (formatParams m.params)).entries = m.given := by
  apply parseParams_formatParams
  · intro param hparam value hvalue
    exact ⟨m.name_ne_nil param hparam, m.name_clean param hparam,
      m.value_clean param hparam value hvalue⟩
  · exact m.distinct.sublist m.names_sublist

namespace ParamPayload

variable (p : ParamPayload)

/-- The pairs of a payload as a mapping. -/
def paramMap : ParamMap where
  params := p.pairs.map fun pair => (pair.1, some pair.2)
  name_ne_nil := by
    intro param hparam
    obtain ⟨pair, hpair, rfl⟩ := List.mem_map.mp hparam
    rw [rstrip_of_getLast? (p.key_last pair hpair)]
    exact p.key_ne_nil pair hpair
  name_clean := by
    intro param hparam
    obtain ⟨pair, hpair, rfl⟩ := List.mem_map.mp hparam
    rw [rstrip_of_getLast? (p.key_last pair hpair)]
    exact p.key_clean pair hpair
  distinct := by
    have hnames : (p.pairs.map fun pair => (pair.1, some pair.2)).map
        (fun param => rstrip '_' param.1) = p.pairs.map Prod.fst := by
      rw [List.map_map]
      exact List.map_congr_left fun pair hpair => rstrip_of_getLast? (p.key_last pair hpair)
    rw [hnames]
    exact p.distinct
  value_clean := by
    intro param hparam value hvalue
    obtain ⟨pair, hpair, rfl⟩ := List.mem_map.mp hparam
    obtain rfl := Option.some.inj hvalue
    exact p.value_clean pair hpair

theorem given_paramMap : p.paramMap.given = p.pairs := by
  have hpair : ∀ pair ∈ p.pairs, (some pair.2).map (fun value => (rstrip '_' pair.1, value)) =
      some pair := fun pair hpair => by
    rw [rstrip_of_getLast? (p.key_last pair hpair)]
    rfl
  rw [ParamMap.given, paramMap, List.filterMap_map]
  exact (List.filterMap_congr hpair).trans List.filterMap_some

/-- **A payload is what is written of its pairs**, so nothing of its text is lost. -/
theorem text_eq : p.text = formatParams p.paramMap.params := by
  have htoken : ∀ pair ∈ p.pairs, (some pair.2).map (formatParam pair.1) =
      some (pair.1 ++ '=' :: pair.2) := fun pair hpair => by
    rw [Option.map_some, formatParam, rstrip_of_getLast? (p.key_last pair hpair)]
  rw [text, formatParams, paramMap, List.filterMap_map]
  exact congrArg _ ((List.filterMap_congr htoken).trans
    (congrFun List.filterMap_eq_map p.pairs)).symm

/-- Writing undoes reading. -/
theorem format_parse : formatParams (asArguments (parseParams p.text)) = p.text := by
  rw [asArguments, p.text_eq, p.paramMap.parse_format, p.given_paramMap]
  rfl

end ParamPayload

/-- **`parse_params` and `format_params` undo each other.**  What is written of a mapping is
read as the entries that are not `None`, under their stripped names, in order; and what is
read of a payload of tokens is written as the payload it was. -/
theorem format_parse_inverse :
    (∀ m : ParamMap, (parseParams (formatParams m.params)).entries = m.given) ∧
      ∀ p : ParamPayload, formatParams (asArguments (parseParams p.text)) = p.text :=
  ⟨ParamMap.parse_format, ParamPayload.format_parse⟩

/-- A name that ends in an underscore, and one that is not given. -/
def peerParams : ParamMap where
  params := [("peer".toList, some "1".toList), ("class_".toList, some "a=b".toList),
    ("freq".toList, none)]
  name_ne_nil := by decide +kernel
  name_clean := by simp [rstrip, List.rdropWhile]
  distinct := by decide +kernel
  value_clean := by
    intro param hparam value hvalue
    simp only [List.mem_cons, List.not_mem_nil, or_false] at hparam
    rcases hparam with rfl | rfl | rfl
    · obtain rfl := Option.some.inj hvalue
      simp
    · obtain rfl := Option.some.inj hvalue
      simp
    · cases hvalue

/-- A value with an `=`, one that is empty, and one that ends in a backslash. -/
def oddPayload : ParamPayload where
  pairs := [("b".toList, "=".toList), ("pass".toList, []), ("a".toList, "\\".toList)]
  key_ne_nil := by decide +kernel
  key_last := by decide +kernel
  key_clean := by simp
  distinct := by decide +kernel
  value_clean := by simp

/-- Both of them there and back. -/
theorem format_parse_inverse_odd :
    (parseParams "peer=1 class=a=b".toList).entries =
        [("peer".toList, "1".toList), ("class".toList, "a=b".toList)] ∧
      formatParams (asArguments (parseParams "b== pass= a=\\".toList)) =
        "b== pass= a=\\".toList :=
  ⟨format_parse_inverse.1 peerParams, format_parse_inverse.2 oddPayload⟩

end WpaCtrl
