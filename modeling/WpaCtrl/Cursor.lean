/-
# Walking a list that changes

A walk asks for the first key of a list, and then again and again for the key after
the last one it got, while keys are removed and fresh ones inserted anywhere.  Only
the last key got is remembered, so what the walk can miss depends on that key alone:
as long as it stays in the list, everything that was there from the start has been
got or is still ahead.

* `Place` : the invariant of a walk, kept by removals, insertions and steps;
* `Place.end_of_walk` : a walk that comes to the end of the list has got every key
  that was there throughout.
-/
import Mathlib.Data.List.Nodup

namespace Cursor

variable {κ : Type} [DecidableEq κ]

/-! ## What is ahead of a key -/

/-- The keys after a given one, if it is in the list. -/
def after (k : κ) : List κ → Option (List κ)
  | [] => none
  | x :: keys => if x = k then some keys else after k keys

/-- The keys ahead of a walk: all of them before its first step. -/
def ahead : Option κ → List κ → Option (List κ)
  | none, keys => some keys
  | some k, keys => after k keys

theorem after_append {k : κ} {pre : List κ} (h : k ∉ pre) (post : List κ) :
    after k (pre ++ k :: post) = some post := by
  induction pre with
  | nil => simp [after]
  | cons x pre ih =>
    have hx : x ≠ k := fun hx => h (by simp [hx])
    rw [List.cons_append, after, if_neg hx]
    exact ih fun hk => h (by simp [hk])

theorem after_eq_some_iff {k : κ} {keys post : List κ} :
    after k keys = some post ↔ ∃ pre, keys = pre ++ k :: post ∧ k ∉ pre := by
  constructor
  · intro h
    induction keys with
    | nil => simp [after] at h
    | cons x keys ih =>
      unfold after at h
      split_ifs at h with hx
      · obtain rfl := Option.some.inj h
        exact ⟨[], by rw [hx]; rfl, List.not_mem_nil⟩
      · obtain ⟨pre, rfl, hpre⟩ := ih h
        refine ⟨x :: pre, rfl, ?_⟩
        intro hk
        rcases List.mem_cons.mp hk with rfl | hk
        · exact hx rfl
        · exact hpre hk
  · rintro ⟨pre, rfl, hpre⟩
    exact after_append hpre post

/-- A key in the list has something after it, be it nothing. -/
theorem exists_after_of_mem {k : κ} {keys : List κ} (h : k ∈ keys) :
    ∃ post, after k keys = some post := by
  obtain ⟨pre, post, rfl, hpre⟩ := List.eq_append_cons_of_mem h
  exact ⟨post, after_append hpre post⟩

/-- What is ahead is the end of the list. -/
theorem suffix_of_ahead {cursor : Option κ} {keys post : List κ}
    (h : ahead cursor keys = some post) : ∃ pre, keys = pre ++ post := by
  cases cursor with
  | none => exact ⟨[], Option.some.inj h⟩
  | some k =>
    obtain ⟨pre, rfl, -⟩ := after_eq_some_iff.mp h
    exact ⟨pre ++ [k], by simp⟩

omit [DecidableEq κ] in
/-- A sublist that has nothing from the front is one of the back. -/
theorem sublist_of_notMem {rest front back : List κ} (h : rest.Sublist (front ++ back))
    (hfront : ∀ k ∈ rest, k ∉ front) : rest.Sublist back := by
  obtain ⟨left, right, rfl, hleft, hright⟩ := List.sublist_append_iff.mp h
  have hnil : left = [] := by
    rw [List.eq_nil_iff_forall_not_mem]
    intro k hk
    exact hfront k (List.mem_append_left _ hk) (hleft.subset hk)
  rw [hnil, List.nil_append]
  exact hright

/-! ## Removals and insertions -/

/-- After a removal, what is ahead is what was ahead and not removed. -/
theorem ahead_filter {cursor : Option κ} {keys post : List κ} {p : κ → Bool}
    (h : ahead cursor (keys.filter p) = some post) :
    ∃ post', ahead cursor keys = some post' ∧ post = post'.filter p := by
  cases cursor with
  | none => exact ⟨keys, rfl, (Option.some.inj h).symm⟩
  | some k =>
    show ∃ post', after k keys = some post' ∧ post = post'.filter p
    -- the cursor survived the removal, for something is ahead of it
    obtain ⟨front, heq, hfront⟩ := after_eq_some_iff.mp h
    have hk : k ∈ keys := by
      have : k ∈ keys.filter p := by rw [heq]; simp
      exact (List.mem_filter.mp this).1
    have hpk : p k = true := by
      have : k ∈ keys.filter p := by rw [heq]; simp
      exact (List.mem_filter.mp this).2
    obtain ⟨pre, post', hkeys, hpre⟩ := List.eq_append_cons_of_mem hk
    refine ⟨post', by rw [hkeys]; exact after_append hpre post', ?_⟩
    have hfilter : after k (keys.filter p) = some (post'.filter p) := by
      rw [hkeys, List.filter_append, List.filter_cons_of_pos hpk]
      exact after_append (fun hmem => hpre (List.mem_filter.mp hmem).1) _
    have h' : after k (keys.filter p) = some post := h
    rw [hfilter] at h'
    exact (Option.some.inj h').symm

/-- After an insertion, what is ahead is what was ahead and maybe the new key. -/
theorem ahead_insert {cursor : Option κ} {front back post : List κ} {x : κ} (hx : cursor ≠ some x)
    (h : ahead cursor (front ++ x :: back) = some post) :
    ∃ post', ahead cursor (front ++ back) = some post' ∧ (∀ y ∈ post, y = x ∨ y ∈ post') ∧
      ∀ y ∈ post', y ∈ post := by
  cases cursor with
  | none =>
    obtain rfl := Option.some.inj h
    refine ⟨front ++ back, rfl, ?_, ?_⟩
    · intro y hy
      simp only [List.mem_append, List.mem_cons] at hy ⊢
      tauto
    · intro y hy
      simp only [List.mem_append, List.mem_cons] at hy ⊢
      tauto
  | some k =>
    have hkx : k ≠ x := fun hkx => hx (by rw [hkx])
    show ∃ post', after k (front ++ back) = some post' ∧ _
    by_cases hk : k ∈ front
    · -- the cursor stands before the new key, which is one more key ahead of it
      obtain ⟨pre, rest, rfl, hpre⟩ := List.eq_append_cons_of_mem hk
      have hpost : post = rest ++ x :: back := by
        have hcut : after k (pre ++ k :: rest ++ x :: back) = some (rest ++ x :: back) := by
          rw [List.append_assoc]
          exact after_append hpre _
        exact Option.some.inj (h.symm.trans hcut)
      refine ⟨rest ++ back, ?_, ?_, ?_⟩
      · rw [List.append_assoc]
        exact after_append hpre _
      · rw [hpost]
        intro y hy
        simp only [List.mem_append, List.mem_cons] at hy ⊢
        tauto
      · rw [hpost]
        intro y hy
        simp only [List.mem_append, List.mem_cons] at hy ⊢
        tauto
    · -- it stands behind the new key, and ahead of it nothing changes
      obtain ⟨pre, heq, hpre⟩ := after_eq_some_iff.mp h
      have hback : k ∈ back := by
        have hmem : k ∈ front ++ x :: back := by rw [heq]; simp
        simp only [List.mem_append, List.mem_cons] at hmem
        tauto
      obtain ⟨mid, rest, rfl, hmid⟩ := List.eq_append_cons_of_mem hback
      have hpost : post = rest := by
        have hcut : after k (front ++ x :: (mid ++ k :: rest)) = some rest := by
          have hassoc : front ++ x :: (mid ++ k :: rest) = (front ++ x :: mid) ++ k :: rest := by
            simp
          rw [hassoc]
          apply after_append
          simp [hk, hkx, hmid]
        exact Option.some.inj (h.symm.trans hcut)
      refine ⟨rest, ?_, ?_, ?_⟩
      · have hassoc : front ++ (mid ++ k :: rest) = (front ++ mid) ++ k :: rest := by simp
        rw [hassoc]
        apply after_append
        simp [hk, hmid]
      · rw [hpost]
        exact fun y hy => Or.inr hy
      · rw [hpost]
        exact fun y hy => hy

/-! ## The place of a walk -/

/-- The invariant of a walk over `keys`: `kept` are the keys that were there from the
start, `got` those the walk has got, in order, and `used` all that were ever there. -/
structure Place (keys kept got used : List κ) : Prop where
  nodup : keys.Nodup
  keys_used : ∀ k ∈ keys, k ∈ used
  got_used : ∀ k ∈ got, k ∈ used
  /-- survivors keep their order -/
  kept_sublist : kept.Sublist keys
  got_nodup : got.Nodup
  /-- nothing ahead was got before -/
  fresh : ∀ post, ahead got.getLast? keys = some post → ∀ k ∈ post, k ∉ got
  /-- what was there from the start was got or is ahead -/
  covered : ∀ post, ahead got.getLast? keys = some post → ∀ k ∈ kept, k ∈ got ∨ k ∈ post
  /-- what was got of it is its beginning -/
  ordered : (got.filter fun k => k ∈ kept) <+: kept

namespace Place

variable {keys kept got used : List κ}

/-- Before the first step. -/
theorem start (h : keys.Nodup) : Place keys keys [] keys where
  nodup := h
  keys_used := fun _ hk => hk
  got_used := by simp
  kept_sublist := List.Sublist.refl _
  got_nodup := List.nodup_nil
  fresh := by simp
  covered := fun post hpost k hk => Or.inr (Option.some.inj hpost ▸ hk)
  ordered := List.nil_prefix

/-- Keys are removed. -/
theorem remove (h : Place keys kept got used) (p : κ → Bool) :
    Place (keys.filter p) (kept.filter p) got used where
  nodup := h.nodup.filter p
  keys_used := fun k hk => h.keys_used k (List.mem_filter.mp hk).1
  got_used := h.got_used
  kept_sublist := h.kept_sublist.filter p
  got_nodup := h.got_nodup
  fresh := by
    intro post hpost k hk
    obtain ⟨post', hpost', rfl⟩ := ahead_filter hpost
    exact h.fresh post' hpost' k (List.mem_filter.mp hk).1
  covered := by
    intro post hpost k hk
    obtain ⟨post', hpost', rfl⟩ := ahead_filter hpost
    obtain ⟨hkept, hp⟩ := List.mem_filter.mp hk
    rcases h.covered post' hpost' k hkept with hgot | hahead
    · exact Or.inl hgot
    · exact Or.inr (List.mem_filter.mpr ⟨hahead, hp⟩)
  ordered := by
    have heq : (got.filter fun k => k ∈ kept.filter p) = (got.filter fun k => k ∈ kept).filter p := by
      rw [List.filter_filter]
      apply List.filter_congr
      intro k _
      simp [List.mem_filter, Bool.and_comm]
    rw [heq]
    exact h.ordered.filter p

/-- A fresh key is inserted. -/
theorem insert {front back : List κ} (h : Place (front ++ back) kept got used) {x : κ}
    (hx : x ∉ used) : Place (front ++ x :: back) kept got (x :: used) := by
  have hcursor : got.getLast? ≠ some x := fun hlast =>
    hx (h.got_used x (List.mem_of_getLast? hlast))
  constructor
  · have hnew : x ∉ front ++ back := fun hmem => hx (h.keys_used x hmem)
    exact List.nodup_middle.mpr (List.nodup_cons.mpr ⟨hnew, h.nodup⟩)
  · intro k hk
    have hk' : k = x ∨ k ∈ front ++ back := by
      simp only [List.mem_append, List.mem_cons] at hk ⊢
      tauto
    rcases hk' with rfl | hk'
    · simp
    · exact List.mem_cons_of_mem x (h.keys_used k hk')
  · exact fun k hk => List.mem_cons_of_mem x (h.got_used k hk)
  · exact h.kept_sublist.trans (List.Sublist.append_left (List.sublist_cons_self x back) front)
  · exact h.got_nodup
  · intro post hpost k hk
    obtain ⟨post', hpost', hback, -⟩ := ahead_insert hcursor hpost
    rcases hback k hk with rfl | hk
    · exact fun hgot => hx (h.got_used k hgot)
    · exact h.fresh post' hpost' k hk
  · intro post hpost k hk
    obtain ⟨post', hpost', -, hforth⟩ := ahead_insert hcursor hpost
    rcases h.covered post' hpost' k hk with hgot | hahead
    · exact Or.inl hgot
    · exact Or.inr (hforth k hahead)
  · exact h.ordered

/-- Kept keys that were not got are ahead, in the order of the list. -/
theorem sublist_ahead (h : Place keys kept got used) {post rest : List κ}
    (hahead : ahead got.getLast? keys = some post)
    (hrest : (got.filter fun k => k ∈ kept) ++ rest = kept) :
    rest.Sublist post ∧ ∀ k ∈ rest, k ∉ got := by
  have hnew : ∀ k ∈ rest, k ∉ got := by
    intro k hk hgot
    have hkeptnodup : kept.Nodup := h.kept_sublist.nodup h.nodup
    rw [← hrest] at hkeptnodup
    have hmem : k ∈ got.filter fun k => k ∈ kept := by
      rw [List.mem_filter, decide_eq_true_eq, ← hrest]
      exact ⟨hgot, List.mem_append_right _ hk⟩
    exact List.disjoint_of_nodup_append hkeptnodup hmem hk
  refine ⟨?_, hnew⟩
  obtain ⟨pre, hkeys⟩ := suffix_of_ahead hahead
  have hnodup := h.nodup
  rw [hkeys] at hnodup
  have hall : rest.Sublist (pre ++ post) := by
    rw [← hkeys]
    have hkept := List.sublist_append_right (got.filter fun k => k ∈ kept) rest
    rw [hrest] at hkept
    exact hkept.trans h.kept_sublist
  apply sublist_of_notMem hall
  -- a kept key that is not ahead was got, and `rest` has none of those
  intro k hk hpre
  have hkept : k ∈ kept := hrest ▸ List.mem_append_right _ hk
  rcases h.covered post hahead k hkept with hgot | hmem
  · exact hnew k hk hgot
  · exact List.disjoint_of_nodup_append hnodup hpre hmem

/-- A kept key right ahead is the next of the kept keys. -/
theorem ordered_concat (h : Place keys kept got used) {x : κ} {post : List κ}
    (hahead : ahead got.getLast? keys = some (x :: post)) (hkept : x ∈ kept) :
    (got.filter fun k => k ∈ kept) ++ [x] <+: kept := by
  obtain ⟨rest, hrest⟩ := h.ordered
  obtain ⟨hsub, hnew⟩ := h.sublist_ahead hahead hrest
  have hx : x ∉ got := h.fresh _ hahead x (by simp)
  have hxrest : x ∈ rest := by
    rw [← hrest] at hkept
    rcases List.mem_append.mp hkept with hmem | hmem
    · exact absurd (List.mem_filter.mp hmem).1 hx
    · exact hmem
  obtain ⟨pre, hkeys⟩ := suffix_of_ahead hahead
  have hpost : x ∉ post := by
    have hnodup := h.nodup
    rw [hkeys, List.nodup_append, List.nodup_cons] at hnodup
    exact hnodup.2.1.1
  -- `rest` has `x` and the order of the list, where `x` stands first
  obtain ⟨tail, htail⟩ : ∃ tail, rest = x :: tail := by
    rcases hsub with _ | ⟨_, hsub⟩ | ⟨_, hsub⟩
    · exact absurd (hsub.subset hxrest) hpost
    · exact ⟨_, rfl⟩
  refine ⟨tail, ?_⟩
  rw [List.append_assoc, List.singleton_append, ← htail]
  exact hrest

/-- The walk gets the key ahead of it. -/
theorem advance (h : Place keys kept got used) {x : κ} {post : List κ}
    (hahead : ahead got.getLast? keys = some (x :: post)) : Place keys kept (got ++ [x]) used := by
  have hx : x ∉ got := h.fresh _ hahead x (by simp)
  obtain ⟨pre, hkeys⟩ := suffix_of_ahead hahead
  have hnodup := h.nodup
  rw [hkeys] at hnodup
  have hpre : x ∉ pre := fun hmem => (List.disjoint_of_nodup_append hnodup) hmem (by simp)
  have hpost : x ∉ post := (List.nodup_cons.mp (List.nodup_append.mp hnodup).2.1).1
  have hnext : ∀ rest, ahead (got ++ [x]).getLast? keys = some rest → rest = post := by
    intro rest hrest
    rw [List.getLast?_concat] at hrest
    have hcut : after x keys = some post := by rw [hkeys]; exact after_append hpre post
    exact Option.some.inj (hrest.symm.trans hcut)
  constructor
  · exact h.nodup
  · exact h.keys_used
  · intro k hk
    rcases List.mem_append.mp hk with hk | hk
    · exact h.got_used k hk
    · rw [List.mem_singleton.mp hk]
      exact h.keys_used x (by rw [hkeys]; simp)
  · exact h.kept_sublist
  · refine List.nodup_append.mpr ⟨h.got_nodup, List.nodup_singleton x, ?_⟩
    intro k hk y hy
    rw [List.mem_singleton.mp hy]
    rintro rfl
    exact hx hk
  · intro rest hrest k hk
    rw [hnext rest hrest] at hk
    intro hgot
    rcases List.mem_append.mp hgot with hgot | hgot
    · exact h.fresh _ hahead k (by simp [hk]) hgot
    · exact hpost (List.mem_singleton.mp hgot ▸ hk)
  · intro rest hrest k hk
    rw [hnext rest hrest]
    rcases h.covered _ hahead k hk with hgot | hmem
    · exact Or.inl (by simp [hgot])
    · rcases List.mem_cons.mp hmem with rfl | hmem
      · exact Or.inl (by simp)
      · exact Or.inr hmem
  · rw [List.filter_append]
    by_cases hkept : x ∈ kept
    · have hsingle : ([x].filter fun k => k ∈ kept) = [x] := by simp [hkept]
      rw [hsingle]
      exact h.ordered_concat hahead hkept
    · have hnone : ([x].filter fun k => k ∈ kept) = [] := by simp [hkept]
      rw [hnone, List.append_nil]
      exact h.ordered

/-- **A walk at the end of the list** has got every key that was there throughout. -/
theorem end_of_walk (h : Place keys kept got used) (hend : ahead got.getLast? keys = some []) :
    ∀ k ∈ kept, k ∈ got := by
  intro k hk
  rcases h.covered [] hend k hk with hgot | hmem
  · exact hgot
  · exact absurd hmem List.not_mem_nil

/-- A walk that finds nothing ahead has come to the end, or the last key it got is no
longer there. -/
theorem covered_or_gone (h : Place keys kept got used)
    (hend : ∀ x post, ahead got.getLast? keys ≠ some (x :: post)) :
    (∀ k ∈ kept, k ∈ got) ∨ ∃ last, got.getLast? = some last ∧ last ∉ keys := by
  rcases hahead : ahead got.getLast? keys with _ | _ | ⟨x, post⟩
  · -- there is no place to go on from, so the last key got is gone
    rcases hlast : got.getLast? with _ | last
    · rw [hlast] at hahead
      simp [ahead] at hahead
    · refine Or.inr ⟨last, rfl, fun hmem => ?_⟩
      obtain ⟨post, hpost⟩ := exists_after_of_mem hmem
      rw [hlast, ahead, hpost] at hahead
      simp at hahead
  · exact Or.inl (h.end_of_walk hahead)
  · exact absurd hahead (hend x post)

end Place

end Cursor
