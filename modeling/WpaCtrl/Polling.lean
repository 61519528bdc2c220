/-
# Asking until nothing new comes

A generator asks, looks at the answer, yields the entries whose keys it has not seen,
and ends when there are none.  Whoever answers may answer anything.  Every turn but
the last one brings a key that was not mentioned before, so the number of questions is
bounded by the number of keys that are ever mentioned.

* `Guarded.length_sent_le` : the bound;
* `Guarded.nodup_iff` : exactly when no key is yielded twice.
-/
import Mathlib.Data.List.Nodup
import Mathlib.Data.Finset.Card
import Mathlib.Data.Finset.Dedup

namespace Polling

variable {σ γ ρ β κ : Type}

/-- A generator: its state, the question it asks from there, and what it makes of the
answer. -/
structure Asker (σ γ ρ β : Type) where
  start : σ
  ended : σ → Bool
  question : σ → γ
  resume : σ → ρ → σ × List β

/-- What has passed between a generator and whoever answers it. -/
structure Session (σ γ ρ β : Type) where
  state : σ
  sent : List γ
  replies : List ρ
  yielded : List β

namespace Asker

variable (asker : Asker σ γ ρ β) (answer : List γ → ρ)

/-- One question and its answer, unless the generator has ended; the answer may depend
on all questions so far. -/
def turn (s : Session σ γ ρ β) : Session σ γ ρ β :=
  if asker.ended s.state then s
  else
    let sent := s.sent ++ [asker.question s.state]
    let reply := answer sent
    ⟨(asker.resume s.state reply).1, sent, s.replies ++ [reply],
      s.yielded ++ (asker.resume s.state reply).2⟩

/-- A turn of a generator that has not ended. -/
theorem turn_of_running {s : Session σ γ ρ β} (h : asker.ended s.state = false) :
    asker.turn answer s =
      ⟨(asker.resume s.state (answer (s.sent ++ [asker.question s.state]))).1,
        s.sent ++ [asker.question s.state],
        s.replies ++ [answer (s.sent ++ [asker.question s.state])],
        s.yielded ++ (asker.resume s.state (answer (s.sent ++ [asker.question s.state]))).2⟩ := by
  rw [turn, if_neg (by simp [h])]

/-- The session after so many turns. -/
def session : ℕ → Session σ γ ρ β
  | 0 => ⟨asker.start, [], [], []⟩
  | turns + 1 => asker.turn answer (session turns)

end Asker

variable [DecidableEq κ]

/-- A generator that keeps the keys it has seen: of the keys an answer mentions it
yields those, and it ends when there are none. -/
structure Guarded (asker : Asker σ γ ρ β) (key : β → κ) (mentions : ρ → List κ)
    (seen : σ → List κ) : Prop where
  start : seen asker.start = []
  fresh : ∀ s reply, asker.ended s = false →
    (asker.resume s reply).2.map key = (mentions reply).filter fun k => k ∉ seen s
  grows : ∀ s reply, asker.ended s = false → ∀ k, k ∈ seen (asker.resume s reply).1 ↔
    k ∈ seen s ∨ k ∈ (asker.resume s reply).2.map key
  ends : ∀ s reply, asker.ended s = false → (asker.resume s reply).2 = [] →
    asker.ended (asker.resume s reply).1 = true

/-- No answer mentions twice a key that no earlier one mentioned. -/
def Novel (mentions : ρ → List κ) (replies : List ρ) : Prop :=
  ∀ before reply after, replies = before ++ reply :: after →
    ((mentions reply).filter fun k => k ∉ before.flatMap mentions).Nodup

theorem novel_concat {mentions : ρ → List κ} {replies : List ρ} {reply : ρ} :
    Novel mentions (replies ++ [reply]) ↔ Novel mentions replies ∧
      ((mentions reply).filter fun k => k ∉ replies.flatMap mentions).Nodup := by
  constructor
  · intro h
    refine ⟨fun before r after heq => h before r (after ++ [reply]) ?_, h replies reply [] rfl⟩
    rw [heq, List.append_assoc, List.cons_append]
  · rintro ⟨h, hlast⟩ before r after heq
    rcases List.eq_nil_or_concat after with rfl | ⟨front, last, rfl⟩
    · obtain ⟨rfl, hr⟩ := List.append_inj' heq rfl
      rw [← (List.cons.inj hr).1]
      exact hlast
    · rw [List.concat_eq_append, ← List.cons_append, ← List.append_assoc] at heq
      exact h before r front (List.append_inj' heq rfl).1

/-- Where every answer mentions at most one key, none is mentioned twice at once. -/
theorem novel_of_length_le_one {mentions : ρ → List κ} (h : ∀ reply, (mentions reply).length ≤ 1)
    (replies : List ρ) : Novel mentions replies := by
  intro before reply after _
  rcases hmentions : mentions reply with _ | ⟨k, _ | ⟨k', rest⟩⟩
  · exact List.nodup_nil
  · exact (List.nodup_singleton k).filter _
  · have hlen := h reply
    rw [hmentions] at hlen
    simp at hlen

/-- The invariant of a session: what was seen, yielded and mentioned is the same, and
every question but the last brought something. -/
structure Kept (asker : Asker σ γ ρ β) (key : β → κ) (mentions : ρ → List κ) (seen : σ → List κ)
    (s : Session σ γ ρ β) : Prop where
  seen_iff : ∀ k, k ∈ seen s.state ↔ k ∈ s.yielded.map key
  mentioned : ∀ k, k ∈ s.yielded.map key ↔ k ∈ s.replies.flatMap mentions
  sent : s.sent.length ≤ (s.yielded.map key).toFinset.card + if asker.ended s.state then 1 else 0
  nodup : (s.yielded.map key).Nodup ↔ Novel mentions s.replies

namespace Guarded

variable {asker : Asker σ γ ρ β} {key : β → κ} {mentions : ρ → List κ} {seen : σ → List κ}
  {answer : List γ → ρ}

/-- A turn keeps the invariant. -/
theorem turn_kept (h : Guarded asker key mentions seen) {s : Session σ γ ρ β}
    (hs : Kept asker key mentions seen s) (hrunning : asker.ended s.state = false) :
    Kept asker key mentions seen (asker.turn answer s) := by
  rw [asker.turn_of_running answer hrunning]
  generalize answer (s.sent ++ [asker.question s.state]) = reply
  have hfresh := h.fresh s.state reply hrunning
  have hgrows := h.grows s.state reply hrunning
  have hends := h.ends s.state reply hrunning
  have hsent := hs.sent
  rw [hrunning] at hsent
  generalize hnext : asker.resume s.state reply = next at hfresh hgrows hends ⊢
  have hnew : ∀ k, k ∈ next.2.map key ↔ k ∈ mentions reply ∧ k ∉ s.yielded.map key := by
    intro k
    rw [hfresh, List.mem_filter, decide_eq_true_eq, hs.seen_iff]
  refine ⟨fun k => ?_, fun k => ?_, ?_, ?_⟩
  · show k ∈ seen next.1 ↔ k ∈ (s.yielded ++ next.2).map key
    rw [hgrows, hs.seen_iff, List.map_append, List.mem_append]
  · show k ∈ (s.yielded ++ next.2).map key ↔ k ∈ (s.replies ++ [reply]).flatMap mentions
    rw [List.map_append, List.mem_append, hnew, List.flatMap_append, List.mem_append,
      List.flatMap_singleton, hs.mentioned]
    tauto
  · show (s.sent ++ [_]).length ≤ ((s.yielded ++ next.2).map key).toFinset.card +
      if asker.ended next.1 then 1 else 0
    rw [List.length_append, List.length_singleton, List.map_append, List.toFinset_append]
    rcases hempty : next.2 with _ | ⟨b, rest⟩
    · rw [hends hempty]
      simpa using hsent
    · -- a key that was not yielded before is one more
      have hb : key b ∈ next.2.map key := by
        rw [hempty]
        simp
      have hlt : (s.yielded.map key).toFinset.card <
          ((s.yielded.map key).toFinset ∪ ((b :: rest).map key).toFinset).card := by
        apply Finset.card_lt_card
        refine ⟨Finset.subset_union_left, fun hsub => ((hnew (key b)).mp hb).2 ?_⟩
        exact List.mem_toFinset.mp (hsub (Finset.mem_union_right _ (by simp)))
      simp only [Bool.false_eq_true, if_false] at hsent
      omega
  · show ((s.yielded ++ next.2).map key).Nodup ↔ Novel mentions (s.replies ++ [reply])
    have hdisjoint : ∀ a ∈ s.yielded.map key, ∀ b ∈ next.2.map key, a ≠ b := by
      rintro a ha b hb rfl
      exact ((hnew a).mp hb).2 ha
    have hfilter : ((mentions reply).filter fun k => k ∉ s.replies.flatMap mentions) =
        next.2.map key := by
      rw [hfresh]
      apply List.filter_congr
      intro k _
      rw [decide_eq_decide, hs.seen_iff, hs.mentioned]
    rw [List.map_append, List.nodup_append, novel_concat, hs.nodup, hfilter]
    exact ⟨fun hall => ⟨hall.1, hall.2.1⟩, fun hall => ⟨hall.1, hall.2, hdisjoint⟩⟩

theorem kept (h : Guarded asker key mentions seen) (answer : List γ → ρ) (turns : ℕ) :
    Kept asker key mentions seen (asker.session answer turns) := by
  induction turns with
  | zero =>
    refine ⟨fun k => ?_, fun k => ?_, by simp [Asker.session], ?_⟩
    · rw [Asker.session, h.start]
      simp
    · simp [Asker.session]
    · simp [Asker.session, Novel]
  | succ turns ih =>
    cases hended : asker.ended (asker.session answer turns).state with
    | false => exact h.turn_kept ih hended
    | true =>
      rw [Asker.session, Asker.turn, if_pos hended]
      exact ih

/-- **No key is yielded twice** exactly when no answer mentions a new key twice. -/
theorem nodup_iff (h : Guarded asker key mentions seen) (answer : List γ → ρ) (turns : ℕ) :
    ((asker.session answer turns).yielded.map key).Nodup ↔
      Novel mentions (asker.session answer turns).replies :=
  (h.kept answer turns).nodup

omit [DecidableEq κ] in
/-- A generator that has not ended has asked a question every turn. -/
theorem length_sent_of_running (asker : Asker σ γ ρ β) (answer : List γ → ρ) {turns : ℕ}
    (hrunning : asker.ended (asker.session answer turns).state = false) :
    (asker.session answer turns).sent.length = turns := by
  induction turns with
  | zero => rfl
  | succ turns ih =>
    rw [Asker.session] at hrunning ⊢
    cases hended : asker.ended (asker.session answer turns).state with
    | true =>
      rw [Asker.turn, if_pos hended] at hrunning
      rw [hrunning] at hended
      exact absurd hended (by decide)
    | false =>
      rw [asker.turn_of_running answer hended]
      show (_ ++ [_]).length = turns + 1
      rw [List.length_append, ih hended]
      rfl

omit [DecidableEq κ] in
/-- After its end a session does not change. -/
theorem session_of_ended (asker : Asker σ γ ρ β) (answer : List γ → ρ) {turns : ℕ}
    (hended : asker.ended (asker.session answer turns).state = true) {more : ℕ}
    (hmore : turns ≤ more) : asker.session answer more = asker.session answer turns := by
  induction more, hmore using Nat.le_induction with
  | base => rfl
  | succ more _ ih => rw [Asker.session, ih, Asker.turn, if_pos hended]

/-- **The number of questions is bounded.**  If at most `n` keys are mentioned, the
generator ends after at most `n + 1` questions. -/
theorem length_sent_le (h : Guarded asker key mentions seen) (answer : List γ → ρ) {n : ℕ}
    (hn : ((asker.session answer (n + 1)).replies.flatMap mentions).toFinset.card ≤ n) {turns : ℕ}
    (hturns : n < turns) :
    asker.ended (asker.session answer turns).state = true ∧
      (asker.session answer turns).sent.length ≤ n + 1 := by
  have hkept := h.kept answer (n + 1)
  have hsame : ((asker.session answer (n + 1)).yielded.map key).toFinset =
      ((asker.session answer (n + 1)).replies.flatMap mentions).toFinset := by
    ext k
    rw [List.mem_toFinset, List.mem_toFinset, hkept.mentioned]
  have hsent := hkept.sent
  rw [hsame] at hsent
  have hended : asker.ended (asker.session answer (n + 1)).state = true := by
    by_contra hrunning
    have hlength := length_sent_of_running asker answer (Bool.eq_false_iff.mpr hrunning)
    rw [if_neg hrunning] at hsent
    omega
  rw [session_of_ended asker answer hended hturns]
  rw [if_pos hended] at hsent
  exact ⟨hended, by omega⟩

end Guarded

end Polling
