/-
# The guards of the walks, whatever the daemon answers

`iter_bss`, `iter_stations` and `iter_p2p_peers` keep the keys they have seen and end
at one they see again; `iter_networks` keeps them page by page.  Here the daemon is
anyone: each reply is any text, and may depend on all commands before it.

* `walks_without_repetition` : exactly when no walk yields a key twice;
* `walks_terminate` : a walk ends after one command more than there are keys.
-/
import WpaCtrl.Walks
import WpaCtrl.NetworkPages
import WpaCtrl.Polling

open Text Polling

namespace WpaCtrl

/-- What `request` returns when the daemon answers the commands so far by `daemon`. -/
def hearing (daemon : List Text → Text) (commands : List Text) : Text :=
  replyText (daemon commands)

/-! ## The walks as generators -/

namespace Iteration

variable {β : Type} (it : Iteration β)

/-- A walk of one entry per reply. -/
def asker : Asker Walk Text Text (Text × β) where
  start := it.start
  ended := Walk.ended
  question := Walk.command
  resume walk reply := ((it.resume walk reply).1, (it.resume walk reply).2.toList)

/-- The key a reply mentions, if it brings an entry. -/
def mentions (reply : Text) : List Text := (it.read reply).toList.map Prod.fst

theorem length_mentions_le (reply : Text) : (it.mentions reply).length ≤ 1 := by
  unfold mentions
  cases it.read reply <;> simp

theorem guarded : Guarded it.asker Prod.fst it.mentions Walk.seen where
  start := rfl
  fresh walk reply _ := by
    show (it.resume walk reply).2.toList.map Prod.fst = _
    unfold resume mentions
    rcases it.read reply with _ | ⟨key, value⟩
    · rfl
    · by_cases hseen : key ∈ walk.seen <;> simp [hseen]
  grows walk reply _ key := by
    show key ∈ (it.resume walk reply).1.seen ↔
      _ ∨ key ∈ (it.resume walk reply).2.toList.map Prod.fst
    unfold resume
    rcases it.read reply with _ | ⟨key', value⟩
    · simp
    · by_cases hseen : key' ∈ walk.seen <;> simp [hseen, or_comm]
  ends walk reply _ := by
    show (it.resume walk reply).2.toList = [] → (it.resume walk reply).1.ended = true
    unfold resume
    rcases it.read reply with _ | ⟨key, value⟩
    · simp
    · by_cases hseen : key ∈ walk.seen <;> simp [hseen]

end Iteration

namespace PageWalk

/-- The walk of `iter_networks`. -/
def asker : Asker PageWalk Text Text Network where
  start := start
  ended := PageWalk.ended
  question := PageWalk.command
  resume := resume

/-- The ids a reply lists. -/
def mentions (reply : Text) : List ℤ := (parseNetworks reply).map Network.id

/-- What a page makes of the walk, with the networks that were not seen before it. -/
theorem resume_cases (walk : PageWalk) (reply : Text) :
    ∃ new, new = (parseNetworks reply).filter (fun network => network.id ∉ walk.seen) ∧
      ((new = [] ∧ walk.resume reply = ({ walk with ended := true }, [])) ∨
        ∃ last : Network, walk.resume reply =
          (⟨continuation last.id, new.map Network.id ++ walk.seen, false⟩, new) ∧ new ≠ []) := by
  refine ⟨_, rfl, ?_⟩
  unfold resume
  generalize (parseNetworks reply).filter (fun network => network.id ∉ walk.seen) = new
  rcases hlast : new.getLast? with _ | last
  · exact Or.inl ⟨List.getLast?_eq_none_iff.mp hlast, by simp only [hlast]⟩
  · refine Or.inr ⟨last, by simp only [hlast], ?_⟩
    rintro rfl
    simp at hlast

theorem guarded : Guarded asker Network.id mentions PageWalk.seen where
  start := rfl
  fresh walk reply _ := by
    show (walk.resume reply).2.map Network.id = _
    obtain ⟨new, hnew, ⟨hnil, hresume⟩ | ⟨last, hresume, -⟩⟩ := walk.resume_cases reply
    · rw [hresume, mentions, List.filter_map]
      exact congrArg (List.map Network.id) (hnil.symm.trans hnew)
    · rw [hresume, mentions, List.filter_map]
      exact congrArg (List.map Network.id) hnew
  grows walk reply _ id := by
    show id ∈ (walk.resume reply).1.seen ↔ _ ∨ id ∈ (walk.resume reply).2.map Network.id
    obtain ⟨new, -, ⟨-, hresume⟩ | ⟨last, hresume, -⟩⟩ := walk.resume_cases reply
    · rw [hresume]
      simp
    · rw [hresume, List.mem_append, or_comm]
  ends walk reply _ := by
    show (walk.resume reply).2 = [] → (walk.resume reply).1.ended = true
    obtain ⟨new, -, ⟨-, hresume⟩ | ⟨last, hresume, hne⟩⟩ := walk.resume_cases reply
    · rw [hresume]
      exact fun _ => rfl
    · rw [hresume]
      exact fun hnil => absurd hnil hne

end PageWalk

/-! ## No repetition -/

/-- **When no key is yielded twice.**  Whatever the daemon answers, `iter_bss`,
`iter_stations` and `iter_p2p_peers` never do; `iter_networks` does not exactly when no
reply lists twice an id that no earlier reply listed, for it looks at a whole page
before it records any of it. -/
theorem walks_without_repetition (daemon : List Text → Text) (commands : ℕ) :
    (∀ (walker : Walker) (front : List (Text × walker.Value)),
        front <+: (walker.iteration.asker.session (hearing daemon) commands).yielded →
        (front.map Prod.fst).Nodup) ∧
      ((∀ front, front <+: (PageWalk.asker.session (hearing daemon) commands).yielded →
          (front.map Network.id).Nodup) ↔
        Novel PageWalk.mentions (PageWalk.asker.session (hearing daemon) commands).replies) := by
  constructor
  · intro walker front hfront
    have hall := (walker.iteration.guarded.nodup_iff (hearing daemon) commands).mpr
      (novel_of_length_le_one walker.iteration.length_mentions_le _)
    exact hall.sublist (hfront.sublist.map Prod.fst)
  · rw [← PageWalk.guarded.nodup_iff (hearing daemon) commands]
    constructor
    · intro h
      exact h _ (List.prefix_refl _)
    · intro h front hfront
      exact h.sublist (hfront.sublist.map Network.id)

/-- One page that lists the same id on two rows. -/
theorem repeated_row_yielded_twice : ¬ ∀ (daemon : List Text → Text) (commands : ℕ),
    ((PageWalk.asker.session (hearing daemon) commands).yielded.map Network.id).Nodup := by
  intro h
  exact absurd (h (fun _ => "network id\n0\thome\tany\t\n0\thome\tany\t\n".toList) 1)
    (by decide +kernel)

/-! ## Termination -/

/-- **The walks terminate.**  If the daemon's replies mention at most `n` keys, each of
the four walks ends after at most `n + 1` commands, whatever else the replies are. -/
theorem walks_terminate (daemon : List Text → Text) (n : ℕ) :
    (∀ walker : Walker,
        ((walker.iteration.asker.session (hearing daemon) (n + 1)).replies.flatMap
          walker.iteration.mentions).toFinset.card ≤ n →
        ∀ commands, n < commands →
          (walker.iteration.asker.session (hearing daemon) commands).state.ended = true ∧
            (walker.iteration.asker.session (hearing daemon) commands).sent.length ≤ n + 1) ∧
      (((PageWalk.asker.session (hearing daemon) (n + 1)).replies.flatMap
          PageWalk.mentions).toFinset.card ≤ n →
        ∀ commands, n < commands →
          (PageWalk.asker.session (hearing daemon) commands).state.ended = true ∧
            (PageWalk.asker.session (hearing daemon) commands).sent.length ≤ n + 1) :=
  ⟨fun walker hn _ hcommands =>
      walker.iteration.guarded.length_sent_le (hearing daemon) hn hcommands,
    fun hn _ hcommands => PageWalk.guarded.length_sent_le (hearing daemon) hn hcommands⟩

/-- A daemon that answers every command by the same page. -/
theorem walks_terminate_repeated_page :
    let daemon : List Text → Text := fun _ => "network id\n0\thome\tany\t\n7\t\tany\t\n".toList
    (PageWalk.asker.session (hearing daemon) 9).state.ended = true ∧
      (PageWalk.asker.session (hearing daemon) 9).sent.length ≤ 3 := by
  intro daemon
  exact (walks_terminate daemon 2).2 (by decide +kernel) 9 (by decide)

end WpaCtrl
