/-
# What `next_event` leaves waiting

`next_event` takes one datagram after the other until one is an event, and drops the
replies ahead of it; after each it reads the clock and gives up once its time is over,
whatever still waits.  The documented loop drains a connection with it.

* `NextTurn`, `Connection.next_turn` : all a step inside `next_event` can do;
* `Drains` : the documented loop;
* `next_event_misses` : exactly when a waiting event is missed.
-/
import WpaCtrl.Deadline

open Text Machine

namespace WpaCtrl

variable {δ : Type}

/-! ## One step inside `next_event` -/

/-- The events that `next_event` returned. -/
def deliveries (seen : List (Observation δ)) : List Event :=
  seen.filterMap fun
    | .delivered event => some event
    | _ => none

@[simp]
theorem deliveries_append (seen more : List (Observation δ)) :
    deliveries (seen ++ more) = deliveries seen ++ deliveries more := List.filterMap_append

/-- The deadline of a `next_event` in its loop. -/
def Control.next? : Control → Option ℚ
  | .nextPolling deadline | .nextSelecting deadline _ | .nextTaking deadline
  | .nextReceiving deadline _ | .nextRechecking deadline => some deadline
  | _ => none

/-- A reply was dropped, and the time is over. -/
def Connection.Late (s : Connection δ) (deadline : ℚ) : Prop :=
  s.control = .nextRechecking deadline ∧ deadline ≤ s.now

variable (text : δ → Text)

/-- All a step inside the loop of `next_event` can do. -/
inductive NextTurn (deadline : ℚ) (s : Connection δ) (a : Action δ) :
    Connection δ → List (Observation δ) → Prop
  | arrived {waiting : List δ} {d : δ} (ha : a ≠ .run) (h : s.socket = some waiting) :
      NextTurn deadline s a { s with socket := some (waiting ++ [d]) } [.arrived d]
  | moved {now : ℚ} {control : Control} (hnow : s.now ≤ now)
      (hin : control.next? = some deadline)
      (hcontrol : (a = .run ∧ ¬ s.Late deadline ∧ control ≠ .nextRechecking deadline) ∨
        (a ≠ .run ∧ control = s.control)) :
      NextTurn deadline s a { s with now := now, control := control } []
  | delivered {d : δ} {rest : List δ} (hcontrol : s.control ≠ .nextRechecking deadline)
      (h : s.socket = some (d :: rest)) (hd : isEvent (text d) = true) :
      NextTurn deadline s a { s with socket := some rest, control := .idle }
        [.delivered (parseEvent (text d))]
  | dropped {d : δ} {rest : List δ} (hcontrol : s.control ≠ .nextRechecking deadline)
      (h : s.socket = some (d :: rest)) (hd : isEvent (text d) = false) :
      NextTurn deadline s a { s with socket := some rest, control := .nextRechecking deadline }
        [.dropped d]
  | late (ha : a = .run) (h : s.Late deadline) :
      NextTurn deadline s a { s with control := .idle } [.nothing]
  | nothing (hcontrol : s.control ≠ .nextRechecking deadline) (h : s.waiting = []) :
      NextTurn deadline s a { s with control := .idle } [.nothing]
  | raised {error : ClientError} (h : a = .fail ∨
        (s.control ≠ .nextRechecking deadline ∧ s.waiting = [])) :
      NextTurn deadline s a { s with control := .idle } [.raised error]

variable {text} {s s' : Connection δ} {seen : List (Observation δ)} {deadline : ℚ}

namespace Connection

theorem waiting_of_none (h : s.socket = none) : s.waiting = [] := by
  rw [waiting, h]
  rfl

/-- What `receive` raises, it raises where nothing waits. -/
theorem receive?_error {blocking : Bool} {error : ClientError}
    (h : s.receive? deadline blocking = some (.error error)) : s.waiting = [] := by
  unfold receive? at h
  split at h
  · exact waiting_of_none ‹_›
  · simp at h
  · exact waiting_of_socket ‹_›

/-- `pending` says no, or raises, where nothing waits. -/
theorem select?_waiting {blocking : Bool} {answer : Except ClientError Bool}
    (h : s.select? deadline blocking = some answer) (hanswer : answer ≠ .ok true) :
    s.waiting = [] := by
  unfold select? at h
  split at h
  · exact waiting_of_none ‹_›
  · exact absurd (Option.some.inj h).symm hanswer
  · exact waiting_of_socket ‹_›

/-- The program goes on inside `next_event`. -/
theorem run_next (hin : s.control.next? = some deadline) (h : s.run text = some (s', seen)) :
    NextTurn text deadline s .run s' seen := by
  unfold run at h
  cases hcontrol : s.control <;> simp only [hcontrol, Control.next?, reduceCtorEq] at hin
  case nextPolling =>
    simp only [hcontrol] at h
    obtain rfl := Option.some.inj hin
    obtain ⟨rfl, rfl⟩ := Prod.mk.inj (Option.some.inj h)
    exact .moved le_rfl rfl (Or.inl ⟨rfl, by simp [Late, hcontrol], by simp⟩)
  case nextSelecting =>
    simp only [hcontrol] at h
    obtain rfl := Option.some.inj hin
    split at h
    · cases h
    · rename_i error hselect
      obtain ⟨rfl, rfl⟩ := Prod.mk.inj (Option.some.inj h)
      exact .raised (Or.inr ⟨by simp [hcontrol], select?_waiting hselect (by simp)⟩)
    · obtain ⟨rfl, rfl⟩ := Prod.mk.inj (Option.some.inj h)
      exact .moved le_rfl rfl (Or.inl ⟨rfl, by simp [Late, hcontrol], by simp⟩)
    · rename_i hselect
      obtain ⟨rfl, rfl⟩ := Prod.mk.inj (Option.some.inj h)
      exact .nothing (by simp [hcontrol]) (select?_waiting hselect (by simp))
  case nextTaking =>
    simp only [hcontrol] at h
    obtain rfl := Option.some.inj hin
    obtain ⟨rfl, rfl⟩ := Prod.mk.inj (Option.some.inj h)
    exact .moved le_rfl rfl (Or.inl ⟨rfl, by simp [Late, hcontrol], by simp⟩)
  case nextReceiving =>
    simp only [hcontrol] at h
    obtain rfl := Option.some.inj hin
    split at h
    · cases h
    · rename_i error hreceive
      obtain ⟨rfl, rfl⟩ := Prod.mk.inj (Option.some.inj h)
      exact .raised (Or.inr ⟨by simp [hcontrol], receive?_error hreceive⟩)
    · rename_i d rest hreceive
      split_ifs at h with hd
      · obtain ⟨rfl, rfl⟩ := Prod.mk.inj (Option.some.inj h)
        exact .delivered (by simp [hcontrol]) (receive?_ok hreceive) hd
      · obtain ⟨rfl, rfl⟩ := Prod.mk.inj (Option.some.inj h)
        exact .dropped (by simp [hcontrol]) (receive?_ok hreceive) (by simpa using hd)
  case nextRechecking =>
    simp only [hcontrol] at h
    obtain rfl := Option.some.inj hin
    split_ifs at h with hover
    · obtain ⟨rfl, rfl⟩ := Prod.mk.inj (Option.some.inj h)
      exact .late rfl ⟨hcontrol, hover⟩
    · obtain ⟨rfl, rfl⟩ := Prod.mk.inj (Option.some.inj h)
      exact .moved le_rfl rfl (Or.inl ⟨rfl, fun hlate => hover hlate.2, by simp⟩)

theorem next_ne_idle (hin : s.control.next? = some deadline) : s.control ≠ .idle := by
  intro hidle
  rw [hidle] at hin
  cases hin

/-- **What a step inside `next_event` can do.** -/
theorem next_turn {a : Action δ} (hin : s.control.next? = some deadline)
    (h : s.step text a = some (s', seen)) : NextTurn text deadline s a s' seen := by
  have hbusy := next_ne_idle hin
  cases a with
  | arrive d =>
    simp only [step] at h
    split at h
    · rename_i waiting hsocket
      obtain ⟨rfl, rfl⟩ := Prod.mk.inj (Option.some.inj h)
      exact .arrived (by simp) hsocket
    · cases h
  | elapse duration =>
    simp only [step] at h
    split_ifs at h with hduration
    obtain ⟨rfl, rfl⟩ := Prod.mk.inj (Option.some.inj h)
    exact .moved (by linarith) hin (Or.inr ⟨by simp, rfl⟩)
  | run => exact run_next hin h
  | fail =>
    simp only [step] at h
    unfold fail at h
    split at h
    case h_6 => cases h
    all_goals
      obtain ⟨rfl, rfl⟩ := Prod.mk.inj (Option.some.inj h)
      exact .raised (Or.inl rfl)
  | openCall reachable => simp [step, hbusy] at h
  | close => simp [step, hbusy] at h
  | request purpose timeout reachable => simp [step, hbusy] at h
  | nextEvent timeout => simp [step, hbusy] at h
  | pending timeout => simp [step, hbusy] at h

end Connection

/-! ## A whole `next_event` -/

section Loop

variable {steps : List (Taken (Connection δ) (Action δ) (Observation δ))}
  {d : δ} {rest : List δ}

/-- While an event waits, `next_event` gives up exactly at a reading of the clock that
comes after a dropped reply and too late. -/
theorem nothing_iff_late (h : (client text).Finishes Connection.isIdle s steps s')
    (hin : s.control.next? = some deadline) (hwaits : ∃ d ∈ s.waiting, isEvent (text d) = true) :
    .nothing ∈ trace steps ↔
      ∃ step ∈ steps, step.action = .run ∧ step.before.Late deadline := by
  induction h with
  | done hidle => exact absurd (of_decide_eq_true hidle) (Connection.next_ne_idle hin)
  | @step s t u a seen steps busy next finish ih =>
    have hsteps : (∃ step ∈ (⟨s, a, seen⟩ :: steps : List (Taken _ _ _)),
        step.action = .run ∧ step.before.Late deadline) ↔
          (a = .run ∧ s.Late deadline) ∨
            ∃ step ∈ steps, step.action = .run ∧ step.before.Late deadline := by
      simp
    rw [hsteps, trace_cons, List.mem_append]
    cases Connection.next_turn hin next with
    | @arrived waiting d ha h =>
      have hmore : ∃ e ∈ waiting ++ [d], isEvent (text e) = true := by
        rw [Connection.waiting_of_socket h] at hwaits
        obtain ⟨e, he, hevent⟩ := hwaits
        exact ⟨e, List.mem_append_left _ he, hevent⟩
      rw [ih hin hmore]
      simp [ha]
    | moved hnow hin' hcontrol =>
      rw [ih hin' hwaits]
      have hnot : ¬ (a = .run ∧ s.Late deadline) := by
        rintro ⟨ha, hlate⟩
        rcases hcontrol with ⟨-, hnot, -⟩ | ⟨hne, -⟩
        · exact hnot hlate
        · exact hne ha
      simp [hnot]
    | @delivered d rest hcontrol h hd =>
      obtain ⟨rfl, -⟩ := finish.of_idle rfl
      simp [Connection.Late, hcontrol]
    | @dropped d rest hcontrol h hd =>
      have hmore : ∃ e ∈ rest, isEvent (text e) = true := by
        rw [Connection.waiting_of_socket h] at hwaits
        obtain ⟨e, he, hevent⟩ := hwaits
        rcases List.mem_cons.mp he with rfl | he
        · rw [hd] at hevent
          cases hevent
        · exact ⟨e, he, hevent⟩
      rw [ih rfl hmore]
      simp [Connection.Late, hcontrol]
    | late ha h =>
      exact iff_of_true (Or.inl (by simp)) (Or.inl ⟨ha, h⟩)
    | nothing hcontrol h =>
      rw [h] at hwaits
      simp at hwaits
    | raised h =>
      obtain ⟨rfl, -⟩ := finish.of_idle rfl
      have hnot : ¬ (a = .run ∧ s.Late deadline) := by
        rintro ⟨rfl, hlate⟩
        rcases h with hfail | ⟨hcontrol, -⟩
        · cases hfail
        · exact hcontrol hlate.1
      simp [hnot]

/-- An event at the front is the one `next_event` returns. -/
theorem finishes_event (h : (client text).Finishes Connection.isIdle s steps s')
    (hin : s.control.next? = some deadline) (hcontrol : s.control ≠ .nextRechecking deadline)
    (hsocket : s.socket = some (d :: rest)) (hd : isEvent (text d) = true) :
    .nothing ∉ trace steps ∧ ∀ event, .delivered event ∈ trace steps →
      deliveries (trace steps) = [parseEvent (text d)] ∧
        s'.waiting = rest ++ arrivals (trace steps) ∧ s'.events = s.events := by
  induction h generalizing rest with
  | done hidle => exact absurd (of_decide_eq_true hidle) (Connection.next_ne_idle hin)
  | @step s t u a seen steps busy next finish ih =>
    rw [trace_cons]
    cases Connection.next_turn hin next with
    | @arrived waiting e ha h =>
      obtain rfl := Option.some.inj (h.symm.trans hsocket)
      obtain ⟨hnothing, hdelivered⟩ := ih hin hcontrol rfl
      refine ⟨by simpa using hnothing, fun event hevent => ?_⟩
      obtain ⟨hone, hwaiting, hevents⟩ := hdelivered event (by simpa using hevent)
      refine ⟨hone, ?_, hevents⟩
      rw [hwaiting]
      exact List.append_assoc rest [e] _
    | moved hnow hin' hmove =>
      refine ih hin' ?_ hsocket
      rcases hmove with ⟨-, -, hne⟩ | ⟨-, hsame⟩
      · exact hne
      · exact hsame.trans_ne hcontrol
    | @delivered e rest' _ h he =>
      obtain ⟨rfl, rfl⟩ := List.cons.inj (Option.some.inj (h.symm.trans hsocket))
      obtain ⟨rfl, rfl⟩ := finish.of_idle rfl
      refine ⟨by simp, fun _ _ => ⟨rfl, ?_, rfl⟩⟩
      exact (List.append_nil _).symm
    | @dropped e rest' _ h he =>
      obtain ⟨rfl, rfl⟩ := List.cons.inj (Option.some.inj (h.symm.trans hsocket))
      rw [hd] at he
      cases he
    | late ha h => exact absurd h.1 hcontrol
    | nothing _ h =>
      rw [Connection.waiting_of_socket hsocket] at h
      cases h
    | raised h =>
      obtain ⟨rfl, rfl⟩ := finish.of_idle rfl
      simp

/-- With its time over, `next_event` gives up at a reply at the front. -/
theorem finishes_reply (h : (client text).Finishes Connection.isIdle s steps s')
    (hin : s.control.next? = some deadline) (hover : deadline ≤ s.now)
    (hreply : s.control = .nextRechecking deadline ∨
      ∃ d rest, s.socket = some (d :: rest) ∧ isEvent (text d) = false) :
    deliveries (trace steps) = [] ∧
      ((∀ step ∈ steps, step.action ≠ .fail) → .nothing ∈ trace steps) := by
  induction h with
  | done hidle => exact absurd (of_decide_eq_true hidle) (Connection.next_ne_idle hin)
  | @step s t u a seen steps busy next finish ih =>
    rw [trace_cons, deliveries_append]
    have hcons : ∀ {p : Prop}, ((∀ step ∈ steps, step.action ≠ .fail) → p) →
        (∀ step ∈ (⟨s, a, seen⟩ :: steps : List (Taken _ _ _)), step.action ≠ .fail) → p :=
      fun hp hall => hp fun step hstep => hall step (List.mem_cons_of_mem _ hstep)
    cases Connection.next_turn hin next with
    | @arrived waiting e ha h =>
      have hreply' : s.control = .nextRechecking deadline ∨
          ∃ d rest, some (waiting ++ [e]) = some (d :: rest) ∧ isEvent (text d) = false := by
        refine hreply.imp_right ?_
        rintro ⟨d, rest, hsocket, hd⟩
        obtain rfl := Option.some.inj (h.symm.trans hsocket)
        exact ⟨d, rest ++ [e], rfl, hd⟩
      obtain ⟨hnone, hnothing⟩ := ih hin hover hreply'
      exact ⟨hnone, hcons fun hall => List.mem_append_right _ (hnothing hall)⟩
    | moved hnow hin' hmove =>
      obtain ⟨hnone, hnothing⟩ := ih hin' (hover.trans hnow) (by
        rcases hreply with hcontrol | hreply
        · -- the time is over, so that the program does not go on from there
          rcases hmove with ⟨-, hlate, -⟩ | ⟨-, hsame⟩
          · exact absurd ⟨hcontrol, hover⟩ hlate
          · exact Or.inl (hsame.trans hcontrol)
        · exact Or.inr hreply)
      exact ⟨hnone, hcons hnothing⟩
    | @delivered e rest' hcontrol h he =>
      obtain ⟨d, rest, hsocket, hd⟩ := hreply.resolve_left hcontrol
      obtain ⟨rfl, rfl⟩ := List.cons.inj (Option.some.inj (h.symm.trans hsocket))
      rw [hd] at he
      cases he
    | dropped _ _ _ =>
      obtain ⟨hnone, hnothing⟩ := ih rfl hover (Or.inl rfl)
      exact ⟨hnone, hcons fun hall => List.mem_append_right _ (hnothing hall)⟩
    | late _ _ =>
      obtain ⟨rfl, -⟩ := finish.of_idle rfl
      exact ⟨rfl, fun _ => by simp⟩
    | nothing _ _ =>
      obtain ⟨rfl, -⟩ := finish.of_idle rfl
      exact ⟨rfl, fun _ => by simp⟩
    | raised h =>
      obtain ⟨rfl, -⟩ := finish.of_idle rfl
      refine ⟨rfl, fun hall => ?_⟩
      rcases h with hfail | ⟨hcontrol, hempty⟩
      · exact absurd hfail (hall _ List.mem_cons_self)
      · obtain ⟨d, rest, hsocket, -⟩ := hreply.resolve_left hcontrol
        rw [Connection.waiting_of_socket hsocket] at hempty
        cases hempty

/-- `pending` takes nothing, and says no only where nothing waits. -/
theorem finishes_pending {blocking : Bool}
    (h : (client text).Finishes Connection.isIdle s steps s')
    (hcontrol : s.control = .pendingSelecting deadline blocking) :
    deliveries (trace steps) = [] ∧ s'.events = s.events ∧
      s'.waiting = s.waiting ++ arrivals (trace steps) ∧
        (.isPending false ∈ trace steps → s.waiting = []) := by
  induction h with
  | done hidle =>
    have hidle := of_decide_eq_true hidle
    rw [hcontrol] at hidle
    cases hidle
  | @step s t u a seen steps busy next finish ih =>
    have hbusy : s.control ≠ .idle := by simp [hcontrol]
    have hstep : s.step text a = some (t, seen) := next
    rw [trace_cons]
    cases a with
    | arrive d =>
      simp only [Connection.step] at hstep
      split at hstep
      · rename_i waiting hsocket
        obtain ⟨rfl, rfl⟩ := Prod.mk.inj (Option.some.inj hstep)
        obtain ⟨hnone, hevents, hwaiting, hno⟩ := ih hcontrol
        refine ⟨hnone, hevents, ?_, fun hfalse => ?_⟩
        · rw [hwaiting, Connection.waiting_of_socket hsocket]
          exact List.append_assoc waiting [d] _
        · have hempty : waiting ++ [d] = [] := hno (by simpa using hfalse)
          simp at hempty
      · cases hstep
    | elapse duration =>
      simp only [Connection.step] at hstep
      split_ifs at hstep
      obtain ⟨rfl, rfl⟩ := Prod.mk.inj (Option.some.inj hstep)
      exact ih hcontrol
    | run =>
      simp only [Connection.step, Connection.run, hcontrol] at hstep
      split at hstep
      · cases hstep
      · rename_i error hselect
        obtain ⟨rfl, rfl⟩ := Prod.mk.inj (Option.some.inj hstep)
        obtain ⟨rfl, rfl⟩ := finish.of_idle rfl
        exact ⟨rfl, rfl, (List.append_nil _).symm, by simp⟩
      · rename_i answer hselect
        obtain ⟨rfl, rfl⟩ := Prod.mk.inj (Option.some.inj hstep)
        obtain ⟨rfl, rfl⟩ := finish.of_idle rfl
        refine ⟨rfl, rfl, (List.append_nil _).symm, fun hfalse => ?_⟩
        obtain rfl : answer = false := by simpa using hfalse
        exact Connection.select?_waiting hselect (by simp)
    | fail =>
      simp only [Connection.step, Connection.fail, hcontrol] at hstep
      obtain ⟨rfl, rfl⟩ := Prod.mk.inj (Option.some.inj hstep)
      obtain ⟨rfl, rfl⟩ := finish.of_idle rfl
      exact ⟨rfl, rfl, (List.append_nil _).symm, by simp⟩
    | openCall reachable => simp [Connection.step, hbusy] at hstep
    | close => simp [Connection.step, hbusy] at hstep
    | request purpose timeout reachable => simp [Connection.step, hbusy] at hstep
    | nextEvent timeout => simp [Connection.step, hbusy] at hstep
    | pending timeout => simp [Connection.step, hbusy] at hstep

/-- A call of `pending`. -/
theorem call_pending {timeout : ℚ}
    (h : (client text).Call Connection.isIdle (.pending timeout) s steps s') :
    deliveries (trace steps) = [] ∧ s'.events = s.events ∧
      s'.waiting = s.waiting ++ arrivals (trace steps) ∧
        (.isPending false ∈ trace steps → s.events = [] ∧ s.waiting = []) := by
  obtain ⟨next, finish⟩ := h
  rename_i t seen steps
  have hstep : s.step text (.pending timeout) = some (t, seen) := next
  simp only [Connection.step] at hstep
  split_ifs at hstep with hidle hevents
  · obtain ⟨rfl, rfl⟩ := Prod.mk.inj (Option.some.inj hstep)
    obtain ⟨rfl, rfl⟩ := finish.of_idle (decide_eq_true hidle)
    exact ⟨rfl, rfl, (List.append_nil _).symm, by simp⟩
  · obtain ⟨rfl, rfl⟩ := Prod.mk.inj (Option.some.inj hstep)
    obtain ⟨hnone, hkept, hwaiting, hno⟩ := finishes_pending finish rfl
    exact ⟨hnone, hkept, hwaiting, fun hfalse => ⟨not_not.mp hevents, hno hfalse⟩⟩

/-- A call of `next_event`: it pops the queue, or enters its loop. -/
theorem call_nextEvent {timeout : ℚ}
    (h : (client text).Call Connection.isIdle (.nextEvent timeout) s steps s') :
    (∃ event events, s.events = event :: events ∧ s' = { s with events := events } ∧
        trace steps = [.delivered event] ∧ ∀ step ∈ steps, step.action ≠ .run) ∨
      s.events = [] ∧ ∃ steps', steps = ⟨s, .nextEvent timeout, []⟩ :: steps' ∧
        (client text).Finishes Connection.isIdle
          { s with control := .nextPolling (s.now + timeout) } steps' s' := by
  obtain ⟨next, finish⟩ := h
  rename_i t seen steps
  have hstep : s.step text (.nextEvent timeout) = some (t, seen) := next
  simp only [Connection.step] at hstep
  split_ifs at hstep with hidle
  split at hstep
  · rename_i event events hevents
    obtain ⟨rfl, rfl⟩ := Prod.mk.inj (Option.some.inj hstep)
    obtain ⟨rfl, rfl⟩ := finish.of_idle (decide_eq_true hidle)
    exact Or.inl ⟨event, events, hevents, rfl, rfl, by simp⟩
  · rename_i hevents
    obtain ⟨rfl, rfl⟩ := Prod.mk.inj (Option.some.inj hstep)
    exact Or.inr ⟨hevents, steps, rfl, finish⟩

end Loop

/-! ## The documented loop -/

/-- Where the loop stands: before `pending`, or before `next_event`. -/
inductive Stage where
  | asking
  | taking

/-- `while pending(): event = next_event()`, stopping at `None`; between the calls time
passes and datagrams arrive. -/
inductive Drains (text : δ → Text) : Stage → Connection δ →
    List (Taken (Connection δ) (Action δ) (Observation δ)) → Connection δ → Prop
  | meanwhile {stage : Stage} {s t u : Connection δ} {a : Action δ} {seen : List (Observation δ)}
      {steps : List (Taken (Connection δ) (Action δ) (Observation δ))}
      (ha : (∃ d, a = .arrive d) ∨ ∃ duration, a = .elapse duration)
      (next : (client text).step s a = some (t, seen)) (rest : Drains text stage t steps u) :
      Drains text stage s (⟨s, a, seen⟩ :: steps) u
  | empty {s t : Connection δ} {steps : List (Taken (Connection δ) (Action δ) (Observation δ))}
      (call : (client text).Call Connection.isIdle (.pending 0) s steps t)
      (no : .isPending false ∈ trace steps) : Drains text .asking s steps t
  | more {s t u : Connection δ}
      {steps steps' : List (Taken (Connection δ) (Action δ) (Observation δ))}
      (call : (client text).Call Connection.isIdle (.pending 0) s steps t)
      (yes : .isPending true ∈ trace steps) (rest : Drains text .taking t steps' u) :
      Drains text .asking s (steps ++ steps') u
  | nothing {s t : Connection δ} {steps : List (Taken (Connection δ) (Action δ) (Observation δ))}
      (call : (client text).Call Connection.isIdle (.nextEvent 0) s steps t)
      (none : .nothing ∈ trace steps) : Drains text .taking s steps t
  | event {s t u : Connection δ} {event : Event}
      {steps steps' : List (Taken (Connection δ) (Action δ) (Observation δ))}
      (call : (client text).Call Connection.isIdle (.nextEvent 0) s steps t)
      (some : .delivered event ∈ trace steps) (rest : Drains text .asking t steps' u) :
      Drains text .taking s (steps ++ steps') u

/-- No reply stands ahead of an event. -/
def EventsAhead (text : δ → Text) (datagrams : List δ) : Prop :=
  datagrams.Pairwise fun ahead behind =>
    isEvent (text behind) = true → isEvent (text ahead) = true

theorem eventsAhead_cons_of_isEvent {d : δ} (hd : isEvent (text d) = true) (rest : List δ) :
    EventsAhead text (d :: rest) ↔ EventsAhead text rest := by
  unfold EventsAhead
  rw [List.pairwise_cons]
  exact and_iff_right fun _ _ _ => hd

/-- Behind a reply there is no event, or one stands behind a reply. -/
theorem eventsAhead_cons_of_reply {d : δ} (hd : isEvent (text d) = false) (rest : List δ) :
    EventsAhead text (d :: rest) ↔ eventImages text (d :: rest) = [] := by
  unfold EventsAhead eventImages
  rw [List.map_eq_nil_iff, List.filter_eq_nil_iff, List.pairwise_cons, List.forall_mem_cons]
  simp only [hd, Bool.false_eq_true, imp_false, Bool.not_eq_true, not_false_eq_true, true_and]
  constructor
  · rintro ⟨hnone, -⟩
    exact hnone
  · intro hnone
    refine ⟨hnone, ?_⟩
    apply List.pairwise_of_forall_mem_list
    intro a _ b hb hevent
    rw [hnone b hb] at hevent
    cases hevent

theorem mem_deliveries {event : Event} {seen : List (Observation δ)}
    (h : .delivered event ∈ seen) : event ∈ deliveries seen :=
  List.mem_filterMap.mpr ⟨_, h, rfl⟩

/-- Between two calls nothing is delivered or taken. -/
theorem meanwhile_kept {a : Action δ} (ha : (∃ d, a = .arrive d) ∨ ∃ duration, a = .elapse duration)
    (h : s.step text a = some (s', seen)) :
    deliveries seen = [] ∧ s'.events = s.events ∧ s.waiting <+: s'.waiting := by
  rcases ha with ⟨d, rfl⟩ | ⟨duration, rfl⟩
  · simp only [Connection.step] at h
    split at h
    · rename_i waiting hsocket
      obtain ⟨rfl, rfl⟩ := Prod.mk.inj (Option.some.inj h)
      refine ⟨rfl, rfl, ?_⟩
      rw [Connection.waiting_of_socket hsocket]
      exact List.prefix_append waiting [d]
    · cases h
  · simp only [Connection.step] at h
    split_ifs at h
    obtain ⟨rfl, rfl⟩ := Prod.mk.inj (Option.some.inj h)
    exact ⟨rfl, rfl, List.prefix_rfl⟩

theorem Connection.socket_of_waiting {d : δ} {rest : List δ} (h : s.waiting = d :: rest) :
    s.socket = some (d :: rest) := by
  unfold waiting at h
  cases hsocket : s.socket with
  | none =>
    rw [hsocket] at h
    cases h
  | some waiting =>
    rw [hsocket] at h
    exact congrArg some h

/-- The loop returns the queue and the events among the first datagrams, in order,
exactly when none of them stands behind a reply. -/
theorem drains_iff {stage : Stage} {steps : List (Taken (Connection δ) (Action δ) (Observation δ))}
    (h : Drains text stage s steps s') {ds : List δ} (hds : ds <+: s.waiting) :
    s.events ++ eventImages text ds <+: deliveries (trace steps) ↔ EventsAhead text ds := by
  induction h generalizing ds with
  | meanwhile ha next rest ih =>
    obtain ⟨hnone, hevents, hwaiting⟩ := meanwhile_kept ha next
    rw [trace_cons, deliveries_append, hnone, List.nil_append, ← hevents]
    exact ih (hds.trans hwaiting)
  | empty call no =>
    obtain ⟨-, -, -, hno⟩ := call_pending call
    obtain ⟨hevents, hwaiting⟩ := hno no
    rw [hwaiting, List.prefix_nil] at hds
    subst hds
    rw [hevents]
    exact iff_of_true List.nil_prefix List.Pairwise.nil
  | more call yes rest ih =>
    obtain ⟨hnone, hevents, hwaiting, -⟩ := call_pending call
    rw [trace_append, deliveries_append, hnone, List.nil_append, ← hevents]
    refine ih (hds.trans ?_)
    rw [hwaiting]
    exact List.prefix_append _ _
  | nothing call hnothing =>
    rcases call_nextEvent call with ⟨event, events, -, -, htrace, -⟩ | ⟨hevents, steps, rfl, finish⟩
    · rw [htrace] at hnothing
      simp at hnothing
    · rw [trace_cons, List.nil_append] at hnothing ⊢
      rw [hevents, List.nil_append]
      cases ds with
      | nil => exact iff_of_true List.nil_prefix List.Pairwise.nil
      | cons d ds =>
        obtain ⟨more, hmore⟩ := hds
        have hsocket := Connection.socket_of_waiting hmore.symm
        cases hd : isEvent (text d) with
        | true => exact absurd hnothing (finishes_event finish rfl (by simp) hsocket hd).1
        | false =>
          obtain ⟨hnone, -⟩ := finishes_reply finish rfl (add_zero _).le
            (Or.inr ⟨d, _, hsocket, hd⟩)
          rw [hnone, List.prefix_nil, eventsAhead_cons_of_reply hd]
  | @event s t u event steps steps' call hevent rest ih =>
    rw [trace_append, deliveries_append]
    rcases call_nextEvent call with
      ⟨event, events, hevents, rfl, htrace, -⟩ | ⟨hevents, steps, rfl, finish⟩
    · rw [htrace, hevents]
      exact List.cons_prefix_cons.trans ((and_iff_right rfl).trans (ih hds))
    · rw [trace_cons, List.nil_append] at hevent ⊢
      rw [hevents, List.nil_append]
      cases ds with
      | nil => exact iff_of_true List.nil_prefix List.Pairwise.nil
      | cons d ds =>
        obtain ⟨more, hmore⟩ := hds
        have hsocket := Connection.socket_of_waiting hmore.symm
        cases hd : isEvent (text d) with
        | true =>
          obtain ⟨hone, hwaiting, hkept⟩ :=
            (finishes_event finish rfl (by simp) hsocket hd).2 _ hevent
          rw [hone, eventImages_cons_of_isEvent hd, eventsAhead_cons_of_isEvent hd]
          refine List.cons_prefix_cons.trans ((and_iff_right rfl).trans ?_)
          have hmore : ds <+: t.waiting := by
            rw [hwaiting]
            exact (List.prefix_append ds more).trans (List.prefix_append _ _)
          rw [← ih hmore, hkept]
          show _ ↔ s.events ++ _ <+: _
          rw [hevents]
          exact Iff.rfl
        | false =>
          obtain ⟨hnone, -⟩ := finishes_reply finish rfl (add_zero _).le
            (Or.inr ⟨d, _, hsocket, hd⟩)
          have hmem := mem_deliveries hevent
          rw [hnone] at hmem
          cases hmem

/-- **When a waiting event is missed.**  `next_event` returns `None` with nothing queued
and no event waiting, unless its time is over at a reading of the clock that comes
after a reply dropped ahead of a waiting event; with no time at all, unless a reply
stands ahead of the first of them.  The documented loop returns all events that were
queued and waited, in order, exactly when no reply stands ahead of one of them. -/
theorem next_event_misses (text : δ → Text) (timeout : ℚ) :
    (∀ s steps s', (client text).Call Connection.isIdle (.nextEvent timeout) s steps s' →
        ((.nothing ∈ trace steps → s.events = [] ∧ ∀ d ∈ s.waiting, isEvent (text d) = false) ↔
          (s.events = [] → (∃ d ∈ s.waiting, isEvent (text d) = true) →
            ∀ step ∈ steps, step.action = .run → ¬ step.before.Late (s.now + timeout)))) ∧
      (∀ s steps s', timeout ≤ 0 →
        (client text).Call Connection.isIdle (.nextEvent timeout) s steps s' →
          (∀ step ∈ steps, step.action ≠ .fail) →
            ((.nothing ∈ trace steps → s.events = [] ∧ ∀ d ∈ s.waiting, isEvent (text d) = false) ↔
              (s.events = [] → (∃ d ∈ s.waiting, isEvent (text d) = true) →
                ∃ d rest, s.waiting = d :: rest ∧ isEvent (text d) = true))) ∧
      ∀ s steps s', Drains text .asking s steps s' →
        (s.events ++ eventImages text s.waiting <+: deliveries (trace steps) ↔
          EventsAhead text s.waiting) := by
  have hsome : ∀ {s : Connection δ}, (∃ d ∈ s.waiting, isEvent (text d) = true) →
      ¬ (s.events = [] ∧ ∀ d ∈ s.waiting, isEvent (text d) = false) := by
    rintro s ⟨d, hd, hevent⟩ ⟨-, hnone⟩
    rw [hnone d hd] at hevent
    cases hevent
  have hnone : ∀ {s : Connection δ}, (¬ ∃ d ∈ s.waiting, isEvent (text d) = true) →
      ∀ d ∈ s.waiting, isEvent (text d) = false := by
    intro s hwaits d hd
    rw [← Bool.not_eq_true]
    exact fun hevent => hwaits ⟨d, hd, hevent⟩
  refine ⟨fun s steps s' hcall => ?_, fun s steps s' htimeout hcall hfail => ?_,
    fun s steps s' hdrains => drains_iff hdrains List.prefix_rfl⟩
  · rcases call_nextEvent hcall with ⟨event, events, hevents, -, htrace, -⟩ |
      ⟨hevents, steps, rfl, finish⟩
    · simp [htrace, hevents]
    · by_cases hwaits : ∃ d ∈ s.waiting, isEvent (text d) = true
      · have hiff := nothing_iff_late finish rfl hwaits
        rw [trace_cons, List.nil_append]
        constructor
        · intro hmissed _ _ step hstep hrunning hlate
          rcases List.mem_cons.mp hstep with rfl | hstep
          · cases hrunning
          · exact hsome hwaits (hmissed (hiff.mpr ⟨step, hstep, hrunning, hlate⟩))
        · intro hread hnothing
          obtain ⟨step, hstep, hrunning, hlate⟩ := hiff.mp hnothing
          exact absurd hlate (hread hevents hwaits step (List.mem_cons_of_mem _ hstep) hrunning)
      · exact iff_of_true (fun _ => ⟨hevents, hnone hwaits⟩) fun _ h => absurd h hwaits
  · rcases call_nextEvent hcall with ⟨event, events, hevents, -, htrace, -⟩ |
      ⟨hevents, steps, rfl, finish⟩
    · simp [htrace, hevents]
    · by_cases hwaits : ∃ d ∈ s.waiting, isEvent (text d) = true
      · rw [trace_cons, List.nil_append]
        obtain ⟨d, rest, hwaiting⟩ : ∃ d rest, s.waiting = d :: rest := by
          obtain ⟨e, he, -⟩ := hwaits
          exact List.exists_cons_of_ne_nil (List.ne_nil_of_mem he)
        have hsocket := Connection.socket_of_waiting hwaiting
        cases hd : isEvent (text d) with
        | true =>
          have hreturned := (finishes_event finish rfl (by simp) hsocket hd).1
          exact iff_of_true (fun hnothing => absurd hnothing hreturned)
            fun _ _ => ⟨d, rest, hwaiting, hd⟩
        | false =>
          have hover : s.now + timeout ≤ s.now := by linarith
          have hnothing := (finishes_reply finish rfl hover (Or.inr ⟨d, rest, hsocket, hd⟩)).2
            fun step hstep => hfail step (List.mem_cons_of_mem _ hstep)
          refine iff_of_false (fun hmissed => hsome hwaits (hmissed hnothing)) fun hfront => ?_
          obtain ⟨d', rest', hwaiting', hd'⟩ := hfront hevents hwaits
          obtain ⟨rfl, rfl⟩ := List.cons.inj (hwaiting.symm.trans hwaiting')
          rw [hd] at hd'
          cases hd'
      · exact iff_of_true (fun _ => ⟨hevents, hnone hwaits⟩) fun _ h => absurd h hwaits

/-- An event that waits is returned by a `next_event` without any time. -/
theorem next_event_misses_front :
    let s : Connection Text := ⟨some ["<3>CTRL-EVENT-CONNECTED ".toList], true, [], 0, .idle⟩
    ∃ steps s', (client id).Call Connection.isIdle (.nextEvent 0) s steps s' ∧
      (.nothing ∈ trace steps → s.events = [] ∧ ∀ d ∈ s.waiting, isEvent d = false) := by
  intro s
  have hrun : ((client id).call? Connection.isIdle (.nextEvent 0) s
      [.run, .run, .run, .run]).map (fun result =>
        decide (∀ step ∈ result.1, step.action ≠ .fail)) = some true := by
    decide +kernel
  obtain ⟨⟨steps, s'⟩, hresult, hfail⟩ := Option.map_eq_some_iff.mp hrun
  have hcall := call_of_call? hresult
  exact ⟨steps, s', hcall,
    ((next_event_misses id 0).2.1 s steps s' le_rfl hcall (of_decide_eq_true hfail)).mpr
      fun _ _ => ⟨_, [], rfl, by decide +kernel⟩⟩

/-- A reply that came after its request had timed out stands ahead of an event. -/
theorem event_behind_reply_missed : ¬ ∀ (timeout : ℚ), 0 ≤ timeout →
    ∀ s steps s', (client id).Call Connection.isIdle (.nextEvent timeout) s steps s' →
      .nothing ∈ trace steps → s.events = [] ∧ ∀ d ∈ s.waiting, isEvent d = false := by
  intro h
  have hrun : ((client id).call? Connection.isIdle (.nextEvent 0)
      ⟨some ["PONG\n".toList, "<3>CTRL-EVENT-CONNECTED ".toList], true, [], 0, .idle⟩
      [.run, .run, .run, .run, .run]).map (fun result => decide (.nothing ∈ trace result.1)) =
        some true := by
    decide +kernel
  obtain ⟨⟨steps, s'⟩, hresult, hnothing⟩ := Option.map_eq_some_iff.mp hrun
  obtain ⟨-, hnone⟩ := h 0 le_rfl _ _ _ (call_of_call? hresult) (of_decide_eq_true hnothing)
  have hevent := hnone "<3>CTRL-EVENT-CONNECTED ".toList (by simp [Connection.waiting])
  exact absurd hevent (by decide +kernel)

end WpaCtrl
