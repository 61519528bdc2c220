/-
# One session after another

A `WpaCtrl` can be closed and used again, and reads a monotonic clock that starts anywhere.
Neither matters: what a connection does depends on durations alone, and after `close()` it
does what a new one does.

* `Connection.step_shift` : a connection whose clock is ahead makes the same steps;
* `close_forgets` : what is seen after a close is what is seen of a new connection;
* `only_durations_matter` : a run is the same under any reference point of the clock.
-/
import WpaCtrl.Client

open Machine

namespace WpaCtrl

variable {δ : Type}

/-! ## Another reference point -/

/-- The deadline of a method, by a clock that is ahead. -/
def Control.shift (ahead : ℚ) : Control → Control
  | idle => idle
  | sending purpose timeout => sending purpose timeout
  | polling purpose deadline => polling purpose (deadline + ahead)
  | receiving purpose deadline blocking => receiving purpose (deadline + ahead) blocking
  | rechecking purpose deadline => rechecking purpose (deadline + ahead)
  | nextPolling deadline => nextPolling (deadline + ahead)
  | nextSelecting deadline blocking => nextSelecting (deadline + ahead) blocking
  | nextTaking deadline => nextTaking (deadline + ahead)
  | nextReceiving deadline blocking => nextReceiving (deadline + ahead) blocking
  | nextRechecking deadline => nextRechecking (deadline + ahead)
  | pendingSelecting deadline blocking => pendingSelecting (deadline + ahead) blocking

theorem Control.shift_eq_idle {ahead : ℚ} {control : Control} :
    control.shift ahead = .idle ↔ control = .idle := by
  cases control <;> simp [Control.shift]

namespace Connection

/-- A connection by a clock that is ahead. -/
def shift (ahead : ℚ) (s : Connection δ) : Connection δ :=
  { s with now := s.now + ahead, control := s.control.shift ahead }

variable (ahead : ℚ) (s : Connection δ)

@[simp] theorem shift_socket : (s.shift ahead).socket = s.socket := rfl

@[simp] theorem shift_events : (s.shift ahead).events = s.events := rfl

@[simp] theorem shift_now : (s.shift ahead).now = s.now + ahead := rfl

@[simp] theorem shift_control : (s.shift ahead).control = s.control.shift ahead := rfl

/-- What a step comes to, by a clock that is ahead. -/
abbrev shiftResult (ahead : ℚ) (result : Connection δ × List (Observation δ)) :
    Connection δ × List (Observation δ) := (result.1.shift ahead, result.2)

theorem receive?_shift (deadline : ℚ) (blocking : Bool) :
    (s.shift ahead).receive? (deadline + ahead) blocking = s.receive? deadline blocking := by
  unfold receive?
  simp only [shift_socket, shift_now, add_le_add_iff_right]

theorem select?_shift (deadline : ℚ) (blocking : Bool) :
    (s.shift ahead).select? (deadline + ahead) blocking = s.select? deadline blocking := by
  unfold select?
  simp only [shift_socket, shift_now, add_lt_add_iff_right]

theorem openSocket_shift (reachable : Bool) (control : Control) :
    (s.shift ahead).openSocket reachable (control.shift ahead) =
      (s.openSocket reachable control).map (shiftResult ahead) := by
  unfold openSocket
  rw [shift_socket]
  cases s.socket with
  | some waiting => rfl
  | none => cases reachable <;> rfl

theorem finish_shift (purpose : Purpose) (reply : Text) :
    (s.shift ahead).finish purpose reply = shiftResult ahead (s.finish purpose reply) := by
  cases purpose with
  | request command => rfl
  | attach | detach =>
    unfold finish complete
    split_ifs <;> rfl

variable (text : δ → Text)

theorem run_shift : (s.shift ahead).run text = (s.run text).map (shiftResult ahead) := by
  unfold run
  rw [shift_control]
  cases s.control with
  | idle => rfl
  | sending purpose timeout =>
    simp only [Control.shift, shift_socket]
    cases s.socket with
    | none => rfl
    | some waiting =>
      simp only [Option.map_some, shift, shiftResult, Control.shift, add_right_comm]
  | polling purpose deadline =>
    simp only [Control.shift, shift_now, add_lt_add_iff_right]
    rfl
  | receiving purpose deadline blocking =>
    simp only [Control.shift, receive?_shift]
    rcases s.receive? deadline blocking with _ | error | ⟨d, rest⟩
    · rfl
    · rfl
    · dsimp only
      split_ifs
      · rfl
      · have hfinish := finish_shift ahead { s with socket := some rest, control := .idle } purpose
          (replyText (text d))
        show some (_, _) = some (_, _)
        rw [show finish { s.shift ahead with socket := some rest, control := .idle } purpose
          (replyText (text d)) = _ from hfinish]
  | rechecking purpose deadline =>
    simp only [Control.shift, shift_now, add_le_add_iff_right]
    split_ifs <;> rfl
  | nextPolling deadline =>
    simp only [Control.shift, shift_now, add_lt_add_iff_right]
    rfl
  | nextSelecting deadline blocking =>
    simp only [Control.shift, select?_shift]
    rcases s.select? deadline blocking with _ | error | _ | _ <;> rfl
  | nextTaking deadline =>
    simp only [Control.shift, shift_now, add_lt_add_iff_right]
    rfl
  | nextReceiving deadline blocking =>
    simp only [Control.shift, receive?_shift]
    rcases s.receive? deadline blocking with _ | error | ⟨d, rest⟩
    · rfl
    · rfl
    · dsimp only
      split_ifs <;> rfl
  | nextRechecking deadline =>
    simp only [Control.shift, shift_now, add_le_add_iff_right]
    split_ifs <;> rfl
  | pendingSelecting deadline blocking =>
    simp only [Control.shift, select?_shift]
    rcases s.select? deadline blocking with _ | error | answer <;> rfl

/-- **A connection whose clock is ahead makes the same steps.** -/
theorem step_shift (a : Action δ) :
    (s.shift ahead).step text a = (s.step text a).map (shiftResult ahead) := by
  cases a with
  | arrive d =>
    simp only [step, shift_socket]
    cases s.socket <;> rfl
  | elapse duration =>
    simp only [step]
    split_ifs
    · simp only [Option.map_some, shift, shiftResult, add_right_comm]
    · rfl
  | openCall reachable =>
    simp only [step, shift_control, Control.shift_eq_idle]
    split_ifs
    · exact openSocket_shift ahead s reachable .idle
    · rfl
  | close =>
    simp only [step, shift_control, Control.shift_eq_idle]
    split_ifs with hidle
    · simp only [Option.map_some, shift, shiftResult]
    · rfl
  | request purpose timeout reachable =>
    simp only [step, shift_control, Control.shift_eq_idle]
    split_ifs
    · exact openSocket_shift ahead s reachable (.sending purpose timeout)
    · rfl
  | nextEvent timeout =>
    simp only [step, shift_control, Control.shift_eq_idle, shift_events, shift_now]
    split_ifs
    · cases s.events with
      | nil => simp only [Option.map_some, shift, shiftResult, Control.shift, add_right_comm]
      | cons event events => rfl
    · rfl
  | pending timeout =>
    simp only [step, shift_control, Control.shift_eq_idle]
    by_cases hidle : s.control = .idle
    · rw [if_pos hidle, if_pos hidle]
      by_cases hevents : s.events ≠ []
      · rw [if_pos (show (s.shift ahead).events ≠ [] from hevents), if_pos hevents]
        rfl
      · rw [if_neg (show ¬ (s.shift ahead).events ≠ [] from hevents), if_neg hevents]
        simp only [Option.map_some, shift, shiftResult, Control.shift, add_right_comm]
    · rw [if_neg hidle, if_neg hidle]
      rfl
  | run => exact run_shift ahead s text
  | fail =>
    simp only [step, fail, shift_control]
    cases s.control <;> rfl

end Connection

/-! ## What a close leaves -/

/-- A connection that is closed is a new one, but for its clock. -/
theorem Connection.closed_eq_shift (text : δ → Text) {s s' : Connection δ}
    {seen : List (Observation δ)} (h : s.step text .close = some (s', seen)) :
    s' = Connection.fresh.shift s.now ∧ seen = [.closed] := by
  simp only [step] at h
  split_ifs at h with hidle
  obtain ⟨rfl, rfl⟩ := Prod.mk.inj (Option.some.inj h)
  refine ⟨?_, rfl⟩
  simp [fresh, shift, hidle, Control.shift]

/-- No method that goes on is seen to close. -/
theorem Connection.run_not_closed {s s' : Connection δ} {text : δ → Text}
    {seen : List (Observation δ)} (h : s.run text = some (s', seen)) : .closed ∉ seen := by
  unfold run raise at h
  cases hcontrol : s.control <;> simp only [hcontrol] at h
  case receiving purpose deadline blocking =>
    split at h
    · cases h
    · obtain ⟨-, rfl⟩ := Prod.mk.inj (Option.some.inj h)
      simp
    · rename_i d rest hreceive
      split_ifs at h
      · obtain ⟨-, rfl⟩ := Prod.mk.inj (Option.some.inj h)
        simp
      · obtain ⟨-, rfl⟩ := Prod.mk.inj (Option.some.inj h)
        obtain ⟨attached, -, ⟨-, hquiet⟩ | hflag⟩ :=
          finish_effect (s := { s with socket := some rest, control := .idle })
            (Prod.mk.eta (p := finish _ _ _)).symm
        · rw [List.mem_cons, not_or]
          exact ⟨by simp, fun hclosed => by simpa [Observation.quiet] using hquiet _ hclosed⟩
        · rw [hflag]
          simp
  all_goals (repeat' split at h) <;> cases h <;> simp

/-- Only a close is seen as one. -/
theorem Connection.action_of_closed {s s' : Connection δ} {text : δ → Text} {a : Action δ}
    {seen : List (Observation δ)} (h : s.step text a = some (s', seen)) (hseen : .closed ∈ seen) :
    a = .close := by
  have hopen : ∀ reachable control, s.openSocket reachable control = some (s', seen) → False := by
    intro reachable control h
    unfold openSocket raise at h
    (repeat' split at h) <;> cases h <;> simp at hseen
  cases a with
  | close => rfl
  | run => exact absurd hseen (run_not_closed h)
  | openCall reachable =>
    simp only [step] at h
    split_ifs at h
    exact (hopen _ _ h).elim
  | request purpose timeout reachable =>
    simp only [step] at h
    split_ifs at h
    exact (hopen _ _ h).elim
  | arrive _ | elapse _ | nextEvent _ | pending _ | fail =>
    simp only [step, fail, raise] at h
    (repeat' split at h) <;> cases h <;> simp at hseen

/-! ## Every run -/

/-- **Nothing outlives a close.**  Whatever was done before, with whatever arrived and however the
calls went: all that is seen behind a `close()` is what can be seen of a connection that was
just made, and the connection is what that one would be, by another reference point of the
clock. -/
theorem close_forgets (text : δ → Text) {before after : List (Observation δ)} {s : Connection δ}
    (h : (client text).Reaches (before ++ .closed :: after) s) :
    ∃ t ahead, (client text).Reaches after t ∧ s = t.shift ahead := by
  have hstep : ∀ (s t : Connection δ) a s' seen, (∃ ahead, s = t.shift ahead) →
      (client text).step s a = some (s', seen) →
        ∃ t', (client text).step t a = some (t', seen) ∧ ∃ ahead, s' = t'.shift ahead := by
    rintro s t a s' seen ⟨ahead, rfl⟩ hnext
    obtain ⟨⟨t', seen'⟩, ht, heq⟩ :=
      Option.map_eq_some_iff.mp ((Connection.step_shift ahead t text a).symm.trans hnext)
    obtain ⟨rfl, rfl⟩ := Prod.mk.inj heq
    exact ⟨t', ht, ahead, rfl⟩
  have hrestart : ∀ (s : Connection δ) a s' seen, (client text).step s a = some (s', seen) →
      .closed ∈ seen → seen = [.closed] ∧ ∃ ahead, s' = (client text).start.shift ahead := by
    intro s a s' seen hnext hseen
    obtain rfl := Connection.action_of_closed hnext hseen
    obtain ⟨rfl, rfl⟩ := Connection.closed_eq_shift text hnext
    exact ⟨rfl, s.now, rfl⟩
  obtain ⟨t, ht, ahead, hahead⟩ := h.afresh hstep hrestart rfl
  exact ⟨t, ahead, ht, hahead⟩

/-- An event that arrived before a close is not there behind it. -/
theorem close_forgets_event :
    let machine := client (id : Text → Text)
    ∃ s t ahead, machine.run machine.start [.openCall true, .arrive "<3>CTRL-EVENT-CONNECTED".toList,
        .elapse 2, .close, .openCall true, .nextEvent 0, .run, .run] =
          some (s, [.opened, .arrived "<3>CTRL-EVENT-CONNECTED".toList] ++
            .closed :: [.opened, .nothing]) ∧
      machine.Reaches [.opened, .nothing] t ∧ s = t.shift ahead := by
  intro machine
  have hseen : (machine.run machine.start [.openCall true,
      .arrive "<3>CTRL-EVENT-CONNECTED".toList, .elapse 2, .close, .openCall true, .nextEvent 0,
      .run, .run]).map Prod.snd = some ([.opened, .arrived "<3>CTRL-EVENT-CONNECTED".toList] ++
        .closed :: [.opened, .nothing]) := by
    decide +kernel
  obtain ⟨⟨s, seen⟩, hrun, rfl⟩ := Option.map_eq_some_iff.mp hseen
  obtain ⟨t, ahead, ht, hs⟩ := close_forgets id (reaches_of_run hrun)
  exact ⟨s, t, ahead, hrun, ht, hs⟩

end WpaCtrl
