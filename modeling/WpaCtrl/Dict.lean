/-
# Insertion-ordered dictionaries

A Python `dict` keeps its pairs in the order the keys first arrived; assigning to a
key that is there replaces the value and not the place.  `Dict` carries the
distinctness of its keys as a field, and `Dict.ofPairs` is the loop that parsers
build a dictionary with: assign the pairs one after another.

* `Dict.entries_ofPairs` : pairs with distinct keys come back exactly, in order;
* `Dict.mem_of_mem_ofPairs` : nothing is in the dictionary that was not assigned;
* `Dict.get?_ofPairs_eq_some` : a key assigned once has that one value;
* `Dict.get?_ofPairs` : a key has the value assigned to it last;
* `Dict.get?_ofPairs_present` : of pairs that may be missing, a key has the value that was
  there.
-/
import Mathlib

/-- A `dict`: pairs in insertion order, no key twice. -/
structure Dict (κ ν : Type) where
  entries : List (κ × ν)
  nodup : (entries.map Prod.fst).Nodup

namespace Dict

variable {κ ν : Type}

@[ext] theorem ext {d e : Dict κ ν} (h : d.entries = e.entries) : d = e := by
  cases d; cases e; cases h; rfl

/-- `{}`. -/
def empty : Dict κ ν := ⟨[], List.nodup_nil⟩

variable [DecidableEq κ]

instance [DecidableEq ν] : DecidableEq (Dict κ ν) := fun _ _ =>
  decidable_of_iff _ ⟨Dict.ext, congrArg entries⟩

/-- `d.get(k)`. -/
def get? (d : Dict κ ν) (k : κ) : Option ν :=
  (d.entries.find? fun entry => entry.1 = k).map Prod.snd

/-- Assign in a list of pairs: at the place of the key, or at the end. -/
def assign (k : κ) (v : ν) : List (κ × ν) → List (κ × ν)
  | [] => [(k, v)]
  | entry :: entries =>
    if entry.1 = k then (entry.1, v) :: entries else entry :: assign k v entries

theorem map_fst_assign_of_mem {k : κ} {entries : List (κ × ν)} (v : ν)
    (h : k ∈ entries.map Prod.fst) :
    (assign k v entries).map Prod.fst = entries.map Prod.fst := by
  induction entries with
  | nil => simp at h
  | cons entry entries ih =>
    rw [assign]
    split_ifs with hk
    · rfl
    · have hmem : k ∈ entries.map Prod.fst := by
        rcases List.mem_cons.mp h with heq | hmem
        · exact absurd heq.symm hk
        · exact hmem
      rw [List.map_cons, ih hmem, List.map_cons]

/-- A new key goes to the end. -/
theorem assign_of_notMem {k : κ} {entries : List (κ × ν)} (v : ν)
    (h : k ∉ entries.map Prod.fst) : assign k v entries = entries ++ [(k, v)] := by
  induction entries with
  | nil => rfl
  | cons entry entries ih =>
    simp only [List.map_cons, List.mem_cons, not_or] at h
    rw [assign, if_neg (Ne.symm h.1), ih h.2, List.cons_append]

theorem nodup_map_fst_assign {entries : List (κ × ν)} (k : κ) (v : ν)
    (h : (entries.map Prod.fst).Nodup) : ((assign k v entries).map Prod.fst).Nodup := by
  by_cases hk : k ∈ entries.map Prod.fst
  · rwa [map_fst_assign_of_mem v hk]
  · rw [assign_of_notMem v hk, List.map_append, List.nodup_append]
    refine ⟨h, List.nodup_singleton _, ?_⟩
    rintro a ha b hb rfl
    simp only [List.map_cons, List.map_nil, List.mem_singleton] at hb
    exact hk (hb ▸ ha)

/-- `d[k] = v`. -/
def set (d : Dict κ ν) (k : κ) (v : ν) : Dict κ ν :=
  ⟨assign k v d.entries, nodup_map_fst_assign k v d.nodup⟩

@[simp] theorem entries_set (d : Dict κ ν) (k : κ) (v : ν) :
    (d.set k v).entries = assign k v d.entries := rfl

/-- The dictionary a loop of assignments builds. -/
def ofPairs (pairs : List (κ × ν)) : Dict κ ν :=
  pairs.foldl (fun d pair => d.set pair.1 pair.2) empty

theorem ofPairs_concat (pairs : List (κ × ν)) (pair : κ × ν) :
    ofPairs (pairs ++ [pair]) = (ofPairs pairs).set pair.1 pair.2 := by
  rw [ofPairs, List.foldl_append]
  rfl

/-! ## What assigning a list of pairs builds -/

/-- **Distinct keys come back exactly**, in the order of assignment. -/
theorem entries_ofPairs {pairs : List (κ × ν)} (h : (pairs.map Prod.fst).Nodup) :
    (ofPairs pairs).entries = pairs := by
  induction pairs using List.reverseRecOn with
  | nil => rfl
  | append_singleton pairs pair ih =>
    rw [List.map_append, List.nodup_append] at h
    have hnot : pair.1 ∉ pairs.map Prod.fst := fun hmem =>
      h.2.2 pair.1 hmem pair.1 (by simp) rfl
    rw [ofPairs_concat, entries_set, ih h.1, assign_of_notMem _ hnot]

theorem mem_assign {k : κ} {v : ν} {entries : List (κ × ν)} {entry : κ × ν}
    (h : entry ∈ assign k v entries) : entry = (k, v) ∨ entry ∈ entries := by
  induction entries with
  | nil => exact Or.inl (by simpa [assign] using h)
  | cons first entries ih =>
    rw [assign] at h
    split_ifs at h with hk
    · rcases List.mem_cons.mp h with rfl | h
      · exact Or.inl (by rw [hk])
      · exact Or.inr (List.mem_cons_of_mem _ h)
    · rcases List.mem_cons.mp h with rfl | h
      · exact Or.inr List.mem_cons_self
      · exact (ih h).imp_right (List.mem_cons_of_mem _)

/-- Nothing is in the dictionary that was not assigned. -/
theorem mem_of_mem_ofPairs {pairs : List (κ × ν)} {entry : κ × ν}
    (h : entry ∈ (ofPairs pairs).entries) : entry ∈ pairs := by
  induction pairs using List.reverseRecOn with
  | nil => exact h
  | append_singleton pairs pair ih =>
    rw [ofPairs_concat] at h
    rcases mem_assign h with rfl | h
    · simp
    · exact List.mem_append_left _ (ih h)

theorem find?_assign_self (k : κ) (v : ν) (entries : List (κ × ν)) :
    ((assign k v entries).find? fun entry => entry.1 = k).map Prod.snd = some v := by
  induction entries with
  | nil => simp [assign]
  | cons entry entries ih =>
    rw [assign]
    split_ifs with hk
    · simp [hk]
    · simp [hk, ih]

theorem find?_assign_of_ne {k j : κ} (h : j ≠ k) (v : ν) (entries : List (κ × ν)) :
    ((assign k v entries).find? fun entry => entry.1 = j) =
      entries.find? fun entry => entry.1 = j := by
  induction entries with
  | nil => simp [assign, Ne.symm h]
  | cons entry entries ih =>
    rw [assign]
    split_ifs with hk
    · simp [hk, Ne.symm h]
    · simp only [List.find?_cons, ih]

/-- The key just assigned has its new value. -/
@[simp] theorem get?_set_self (d : Dict κ ν) (k : κ) (v : ν) : (d.set k v).get? k = some v :=
  find?_assign_self k v d.entries

/-- The other keys keep theirs. -/
theorem get?_set_of_ne (d : Dict κ ν) {k j : κ} (h : j ≠ k) (v : ν) :
    (d.set k v).get? j = d.get? j :=
  congrArg (Option.map Prod.snd) (find?_assign_of_ne h v d.entries)

/-- The last assignment to a key decides its value. -/
theorem get?_ofPairs_append {first rest : List (κ × ν)} {k : κ} (v : ν)
    (h : k ∉ rest.map Prod.fst) : (ofPairs (first ++ (k, v) :: rest)).get? k = some v := by
  induction rest using List.reverseRecOn with
  | nil => rw [ofPairs_concat, get?_set_self]
  | append_singleton rest pair ih =>
    simp only [List.map_append, List.mem_append, not_or, List.map_cons, List.map_nil,
      List.mem_singleton] at h
    rw [← List.cons_append, ← List.append_assoc, ofPairs_concat, get?_set_of_ne _ h.2, ih h.1]

/-- A key assigned once has that one value. -/
theorem get?_ofPairs_eq_some {pairs : List (κ × ν)} {k : κ} {v : ν}
    (hnodup : (pairs.map Prod.fst).Nodup) (h : (k, v) ∈ pairs) :
    (ofPairs pairs).get? k = some v := by
  obtain ⟨first, rest, rfl⟩ := List.append_of_mem h
  refine get?_ofPairs_append v fun hmem => ?_
  rw [List.map_append, List.map_cons, List.nodup_append, List.nodup_cons] at hnodup
  exact hnodup.2.1.1 hmem

/-- The value of a key is the one assigned to it last. -/
theorem get?_ofPairs (pairs : List (κ × ν)) (k : κ) :
    (ofPairs pairs).get? k = (pairs.reverse.find? fun pair => pair.1 = k).map Prod.snd := by
  induction pairs using List.reverseRecOn with
  | nil => rfl
  | append_singleton pairs pair ih =>
    rw [ofPairs_concat, List.reverse_concat]
    by_cases hk : pair.1 = k
    · rw [← hk, get?_set_self, List.find?_cons_of_pos (by simp)]
      rfl
    · rw [get?_set_of_ne _ (Ne.symm hk), ih, List.find?_cons_of_neg (by simpa using hk)]

/-- The keys that have a value are those that were assigned. -/
theorem get?_ofPairs_isSome {pairs : List (κ × ν)} {k : κ} :
    ((ofPairs pairs).get? k).isSome = true ↔ k ∈ pairs.map Prod.fst := by
  rw [get?_ofPairs, Option.isSome_map, List.find?_isSome]
  simp

/-- One assignment more leaves the other keys as they are. -/
theorem get?_ofPairs_of_ne {first rest : List (κ × ν)} {k j : κ} (h : j ≠ k) (v : ν) :
    (ofPairs (first ++ (k, v) :: rest)).get? j = (ofPairs (first ++ rest)).get? j := by
  rw [get?_ofPairs, get?_ofPairs]
  simp [List.find?_append, Ne.symm h]

/-! ## Every entry at once -/

/-- A key has a value exactly when the two are an entry. -/
theorem get?_eq_some_iff {d : Dict κ ν} {k : κ} {v : ν} :
    d.get? k = some v ↔ (k, v) ∈ d.entries := by
  constructor
  · intro h
    obtain ⟨entry, hentry, rfl⟩ := Option.map_eq_some_iff.mp h
    have hkey : entry.1 = k := by simpa using List.find?_some hentry
    rw [← hkey]
    exact List.mem_of_find?_eq_some hentry
  · intro h
    obtain ⟨entries, hnodup⟩ := d
    rw [get?]
    induction entries with
    | nil => simp at h
    | cons entry entries ih =>
      rw [List.map_cons, List.nodup_cons] at hnodup
      rcases List.mem_cons.mp h with rfl | h
      · simp
      · have hne : entry.1 ≠ k := fun hk =>
          hnodup.1 (hk ▸ List.mem_map_of_mem (f := Prod.fst) h)
        rw [List.find?_cons_of_neg (by simpa using hne)]
        exact ih hnodup.2 h

variable {μ : Type}

omit [DecidableEq κ] in
/-- The keys of some of the pairs. -/
theorem map_fst_filterMap_sublist (f : κ → ν → Option μ) (pairs : List (κ × ν)) :
    ((pairs.filterMap fun pair => (f pair.1 pair.2).map fun v => (pair.1, v)).map
      Prod.fst).Sublist (pairs.map Prod.fst) := by
  induction pairs with
  | nil => simp
  | cons pair pairs ih =>
    rw [List.filterMap_cons]
    cases f pair.1 pair.2 with
    | none => exact ih.cons _
    | some v => exact ih.cons_cons _

/-- The entries a function keeps, under their keys and with their new values. -/
def filterMap (f : κ → ν → Option μ) (d : Dict κ ν) : Dict κ μ where
  entries := d.entries.filterMap fun entry => (f entry.1 entry.2).map fun v => (entry.1, v)
  nodup := d.nodup.sublist (map_fst_filterMap_sublist f d.entries)

/-- A key keeps what the function makes of its value. -/
theorem get?_filterMap (f : κ → ν → Option μ) (d : Dict κ ν) (k : κ) :
    (d.filterMap f).get? k = (d.get? k).bind (f k) := by
  apply Option.ext
  intro v
  rw [get?_eq_some_iff, Option.bind_eq_some_iff, filterMap, List.mem_filterMap]
  constructor
  · rintro ⟨entry, hentry, hmap⟩
    obtain ⟨w, hw, heq⟩ := Option.map_eq_some_iff.mp hmap
    obtain ⟨rfl, rfl⟩ := Prod.mk.inj heq
    exact ⟨entry.2, get?_eq_some_iff.mpr hentry, hw⟩
  · rintro ⟨w, hw, hv⟩
    exact ⟨(k, w), get?_eq_some_iff.mp hw, by rw [hv]; rfl⟩

/-- The pairs that are there, of pairs that may be missing. -/
def present (fields : List (κ × Option ν)) : List (κ × ν) :=
  fields.filterMap fun field => field.2.map fun v => (field.1, v)

/-- **A key has the value that was there, and none if it was missing.** -/
theorem get?_ofPairs_present {fields : List (κ × Option ν)}
    (hnodup : (fields.map Prod.fst).Nodup) {k : κ} {v : Option ν} (h : (k, v) ∈ fields) :
    (ofPairs (present fields)).get? k = v := by
  cases v with
  | some v =>
    refine get?_ofPairs_eq_some (hnodup.sublist (map_fst_filterMap_sublist (fun _ v => v) fields)) ?_
    exact List.mem_filterMap.mpr ⟨(k, some v), h, rfl⟩
  | none =>
    by_contra hsome
    have hkey := get?_ofPairs_isSome.mp (Option.isSome_iff_ne_none.mpr hsome)
    obtain ⟨pair, hpair, hk⟩ := List.mem_map.mp hkey
    obtain ⟨field, hfield, hmap⟩ := List.mem_filterMap.mp hpair
    obtain ⟨w, hw, rfl⟩ := Option.map_eq_some_iff.mp hmap
    -- two fields of one key are one field
    have heq : field = (k, none) := List.inj_on_of_nodup_map hnodup hfield h hk
    rw [heq] at hw
    cases hw

end Dict
