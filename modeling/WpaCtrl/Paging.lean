/-
# Reading a changing table page by page

A table is kept in the order of its keys and read in pages: each page starts behind
the last entry of the page before it and may be cut anywhere.  Between pages, entries
come and go.  The key of the last entry read stays meaningful when that entry is
removed, so nothing that was there throughout is passed over.

* `Swept` : the invariant of such a reading;
* `Swept.finished` : when nothing is left behind the last entry read, everything that
  was there throughout has been read.
-/
import Mathlib.Data.List.Pairwise
import Mathlib.Order.Lattice

namespace Paging

variable {ε κ : Type} [LinearOrder κ] (key : ε → κ)

/-- The entries behind a given key, or all of them. -/
def beyond (cursor : Option κ) (table : List ε) : List ε :=
  match cursor with
  | none => table
  | some last => table.filter fun entry => last < key entry

/-- The key of the last entry read. -/
def cursor (got : List ε) : Option κ := got.getLast?.map key

/-- The invariant: `kept` are the entries that were in the table throughout, `got`
those that were read. -/
structure Swept (table kept got : List ε) : Prop where
  table_increasing : table.Pairwise fun a b => key a < key b
  got_increasing : got.Pairwise fun a b => key a < key b
  kept_mem : ∀ entry ∈ kept, entry ∈ table
  /-- nothing that was there throughout is passed over -/
  covered : ∀ entry ∈ kept, entry ∉ got → entry ∈ beyond key (cursor key got) table

variable {key}

theorem mem_beyond {c : Option κ} {table : List ε} {entry : ε} :
    entry ∈ beyond key c table ↔ entry ∈ table ∧ ∀ last, c = some last → last < key entry := by
  cases c with
  | none => simp [beyond]
  | some last => simp [beyond]

/-- Everything read lies at or before the cursor. -/
theorem le_cursor {got : List ε} (h : got.Pairwise fun a b => key a < key b) {last : κ}
    (hlast : cursor key got = some last) : ∀ entry ∈ got, key entry ≤ last := by
  rcases List.eq_nil_or_concat got with rfl | ⟨front, final, rfl⟩
  · simp
  · rw [List.concat_eq_append] at *
    have hfinal : key final = last := by
      simpa [cursor] using hlast
    rw [List.pairwise_append] at h
    intro entry hentry
    rcases List.mem_append.mp hentry with hentry | hentry
    · exact hfinal ▸ (h.2.2 entry hentry final (by simp)).le
    · rw [List.mem_singleton.mp hentry, hfinal]

namespace Swept

variable {table kept got : List ε}

/-- Before the first page. -/
theorem start (h : table.Pairwise fun a b => key a < key b) : Swept key table table [] where
  table_increasing := h
  got_increasing := List.Pairwise.nil
  kept_mem := fun _ hentry => hentry
  covered := fun _ hentry _ => hentry

/-- Entries come and go: what is still kept is still there. -/
theorem change (h : Swept key table kept got) {table' kept' : List ε}
    (hincreasing : table'.Pairwise fun a b => key a < key b) (hkept : ∀ entry ∈ kept', entry ∈ kept)
    (hmem : ∀ entry ∈ kept', entry ∈ table') : Swept key table' kept' got where
  table_increasing := hincreasing
  got_increasing := h.got_increasing
  kept_mem := hmem
  covered := by
    intro entry hentry hgot
    have hbeyond := h.covered entry (hkept entry hentry) hgot
    rw [mem_beyond] at hbeyond ⊢
    exact ⟨hmem entry hentry, hbeyond.2⟩

/-- What is behind the cursor was not read before. -/
theorem lt_of_mem_beyond (h : Swept key table kept got) {entry : ε}
    (hentry : entry ∈ beyond key (cursor key got) table) : ∀ other ∈ got, key other < key entry := by
  intro other hother
  have hne : got ≠ [] := List.ne_nil_of_mem hother
  have hlast : cursor key got = some (key (got.getLast hne)) := by
    rw [cursor, List.getLast?_eq_some_getLast hne, Option.map_some]
  exact lt_of_le_of_lt (le_cursor h.got_increasing hlast other hother)
    ((mem_beyond.mp hentry).2 _ hlast)

/-- A page is read. -/
theorem page (h : Swept key table kept got) {page rest : List ε}
    (hpage : beyond key (cursor key got) table = page ++ rest) (hne : page ≠ []) :
    Swept key table kept (got ++ page) := by
  have hsorted : (page ++ rest).Pairwise fun a b => key a < key b := by
    rw [← hpage]
    unfold beyond
    split
    · exact h.table_increasing
    · exact h.table_increasing.filter _
  obtain ⟨hpagesorted, -, hrest⟩ := List.pairwise_append.mp hsorted
  have hcursor : cursor key (got ++ page) = some (key (page.getLast hne)) := by
    rw [cursor, List.getLast?_append, List.getLast?_eq_some_getLast hne]
    rfl
  constructor
  · exact h.table_increasing
  · rw [List.pairwise_append]
    refine ⟨h.got_increasing, hpagesorted, fun a ha b hb => ?_⟩
    exact h.lt_of_mem_beyond (by rw [hpage]; simp [hb]) a ha
  · exact h.kept_mem
  · intro entry hentry hgot
    rw [mem_beyond, hcursor]
    refine ⟨h.kept_mem entry hentry, ?_⟩
    rintro last hlast
    obtain rfl := Option.some.inj hlast
    -- a kept entry that was not read lies behind the page
    have hbehind := h.covered entry hentry fun hmem => hgot (by simp [hmem])
    rw [hpage] at hbehind
    rcases List.mem_append.mp hbehind with hmem | hmem
    · exact absurd (List.mem_append_right got hmem) hgot
    · exact hrest _ (List.getLast_mem hne) entry hmem

/-- **When nothing is left**, everything that was there throughout has been read. -/
theorem finished (h : Swept key table kept got)
    (hend : beyond key (cursor key got) table = []) : ∀ entry ∈ kept, entry ∈ got := by
  intro entry hentry
  by_contra hgot
  have hbehind := h.covered entry hentry hgot
  rw [hend] at hbehind
  exact absurd hbehind List.not_mem_nil

end Swept

end Paging
