/-
# A request against its deadline

`request` sends, and then reads one datagram after the other until one is not an
event, or its time is over.  The clock is read at three places of a turn, and a time
left of zero makes the socket non-blocking, so that what an empty socket then raises
is no timeout.

* `RequestTurn`, `Connection.request_turn` : all a step inside a request can do;
* `request_ends` : exactly when a request ends with its reply or with a timeout.
-/
import WpaCtrl.EventStream

open Text Machine

namespace WpaCtrl

variable {δ : Type}

/-! ## What a request sees -/

/-- Between two calls. -/
def Connection.isIdle (s : Connection δ) : Bool := decide (s.control = .idle)

/-- The datagrams that arrived. -/
def arrivals (seen : List (Observation δ)) : List δ :=
  seen.filterMap fun
    | .arrived d => some d
    | _ => none

/-- An observation that ends a request. -/
def Observation.isEnding : Observation δ → Bool
  | .returned _ _ | .raised .timeout | .raised .connection => true
  | _ => false

/-- How a request ended. -/
def endings (seen : List (Observation δ)) : List (Observation δ) :=
  seen.filter Observation.isEnding

@[simp]
theorem arrivals_append (seen more : List (Observation δ)) :
    arrivals (seen ++ more) = arrivals seen ++ arrivals more := List.filterMap_append

@[simp]
theorem endings_append (seen more : List (Observation δ)) :
    endings (seen ++ more) = endings seen ++ endings more := List.filter_append _ _

/-- The purpose of a request that was made. -/
def Control.request? : Control → Option Purpose
  | .sending purpose _ | .polling purpose _ | .receiving purpose _ _ | .rechecking purpose _ =>
    some purpose
  | _ => none

/-- The deadline of a request that was sent. -/
def Control.deadline? : Control → Option ℚ
  | .polling _ deadline | .receiving _ deadline _ | .rechecking _ deadline => some deadline
  | _ => none

/-- In a `recv` that was made with no time left, while nothing waits. -/
def Connection.starved (s : Connection δ) : Bool :=
  match s.control, s.socket with
  | .receiving _ _ false, some [] => true
  | _, _ => false

variable (text : δ → Text)

/-- What was consumed between two states: events, which were set aside in order, and at
most one reply behind them. -/
structure Consumed (s : Connection δ) (seen : List (Observation δ)) (s' : Connection δ)
    (events : List δ) (reply : Option δ) : Prop where
  inbox : s.waiting ++ arrivals seen = events ++ reply.toList ++ s'.waiting
  isEvent_events : ∀ d ∈ events, isEvent (text d) = true
  isEvent_reply : ∀ d ∈ reply, isEvent (text d) = false
  queued : s'.events = s.events ++ events.map fun d => parseEvent (text d)

/-! ## One step inside a request -/

/-- Its time is over. -/
def Connection.Expired (s : Connection δ) : Prop :=
  ∃ deadline, s.control.deadline? = some deadline ∧ deadline ≤ s.now

instance (s : Connection δ) : Decidable s.Expired :=
  decidable_of_iff (∃ deadline ∈ s.control.deadline?, deadline ≤ s.now) Iff.rfl

/-- In a `recv` that was made with no time left. -/
def Control.spent : Control → Bool
  | .receiving _ _ false => true
  | _ => false

/-- All a step inside a request can do, as long as no system call fails. -/
inductive RequestTurn (purpose : Purpose) (s : Connection δ) (a : Action δ) :
    Connection δ → List (Observation δ) → Prop
  | arrived {waiting : List δ} {d : δ} (ha : a ≠ .run) (h : s.socket = some waiting) :
      RequestTurn purpose s a { s with socket := some (waiting ++ [d]) } [.arrived d]
  | sent {timeout : ℚ} (ha : a = .run) (hcontrol : s.control = .sending purpose timeout) :
      RequestTurn purpose s a { s with control := .polling purpose (s.now + timeout) }
        [.sent purpose.command]
  | moved {now : ℚ} {control : Control} (hfed : a = .run → s.starved = false)
      (hcontrol : control.request? = some purpose)
      (hsame : control = s.control ∨
        s.control.deadline?.isSome = true ∧ control.deadline?.isSome = true)
      (hspent : control.spent = true → s.control.spent = true ∨ s.Expired) :
      RequestTurn purpose s a { s with now := now, control := control } []
  | setAside {d : δ} {rest : List δ} {deadline : ℚ}
      (hdeadline : s.control.deadline? = some deadline) (h : s.socket = some (d :: rest))
      (hd : isEvent (text d) = true) :
      RequestTurn purpose s a
        { s with socket := some rest, events := s.events ++ [parseEvent (text d)],
                 control := .rechecking purpose deadline } []
  | answered {d : δ} {rest : List δ} {attached : Bool} {seen : List (Observation δ)}
      (hsent : s.control.deadline?.isSome = true) (h : s.socket = some (d :: rest)) (hd : isEvent (text d) = false)
      (hseen : arrivals seen = [] ∧ endings seen = [])
      (hquiet : ∀ command, purpose = .request command → seen = []) :
      RequestTurn purpose s a
        { s with socket := some rest, control := .idle, attached := attached }
        (.returned purpose d :: seen)
  | timedOut (ha : a = .run) (hfed : s.starved = false) (hover : s.Expired) :
      RequestTurn purpose s a { s with control := .idle } [.raised .timeout]
  | starved (ha : a = .run) (h : s.starved = true) :
      RequestTurn purpose s a { s with control := .idle } [.raised .connection]

variable {text} {s s' : Connection δ} {seen : List (Observation δ)} {purpose : Purpose}
  {deadline : ℚ}

namespace Connection

theorem starved_of_cons {d : δ} {rest : List δ} (h : s.socket = some (d :: rest)) :
    s.starved = false := by
  unfold starved
  split <;> simp_all

theorem starved_of_waiting (hcontrol : s.control = .receiving purpose deadline true) :
    s.starved = false := by
  unfold starved
  split <;> simp_all

theorem spent_of_starved (h : s.starved = true) : s.control.spent = true := by
  unfold starved at h
  split at h
  · rename_i hcontrol _
    rw [hcontrol]
    rfl
  · cases h

/-- What follows the reply is neither an arrival nor an end of the request. -/
theorem finish_quiet {reply : Text} (h : s.finish purpose reply = (s', seen)) :
    (arrivals seen = [] ∧ endings seen = []) ∧
      ∀ command, purpose = .request command → seen = [] := by
  have hcomplete : ∀ flag, s.complete reply flag = (s', seen) →
      arrivals seen = [] ∧ endings seen = [] := by
    intro flag h
    unfold complete at h
    split at h
    · obtain ⟨-, rfl⟩ := Prod.mk.inj h
      exact ⟨rfl, rfl⟩
    · obtain ⟨-, rfl⟩ := Prod.mk.inj h
      exact ⟨rfl, rfl⟩
  cases purpose with
  | request command =>
    obtain ⟨-, rfl⟩ := Prod.mk.inj h
    exact ⟨⟨rfl, rfl⟩, fun _ _ => rfl⟩
  | attach => exact ⟨hcomplete true h, by simp⟩
  | detach => exact ⟨hcomplete false h, by simp⟩

/-- The program goes on inside a request. -/
theorem run_turn {waiting : List δ} (hin : s.control.request? = some purpose)
    (hsocket : s.socket = some waiting) (h : s.run text = some (s', seen)) :
    RequestTurn text purpose s .run s' seen := by
  unfold run at h
  cases hcontrol : s.control <;> simp only [hcontrol, Control.request?, reduceCtorEq] at hin
  case sending =>
    simp only [hcontrol] at h
    obtain rfl := Option.some.inj hin
    split at h
    · simp_all
    · obtain ⟨rfl, rfl⟩ := Prod.mk.inj (Option.some.inj h)
      exact .sent rfl hcontrol
  case polling deadline =>
    simp only [hcontrol] at h
    obtain rfl := Option.some.inj hin
    obtain ⟨rfl, rfl⟩ := Prod.mk.inj (Option.some.inj h)
    refine .moved (by simp [starved, hcontrol]) rfl (Or.inr ⟨by rw [hcontrol]; rfl, rfl⟩)
      fun hspent => Or.inr ?_
    refine ⟨deadline, by rw [hcontrol]; rfl, ?_⟩
    by_contra hleft
    rw [decide_eq_true (not_le.mp hleft)] at hspent
    cases hspent
  case receiving deadline blocking =>
    simp only [hcontrol] at h
    obtain rfl := Option.some.inj hin
    cases waiting with
    | nil =>
      simp only [receive?, hsocket] at h
      split_ifs at h with hblocking hover
      · obtain ⟨rfl, rfl⟩ := Prod.mk.inj (Option.some.inj h)
        exact .timedOut rfl (starved_of_waiting (hblocking ▸ hcontrol))
          ⟨deadline, by rw [hcontrol]; rfl, hover⟩
      · obtain ⟨rfl, rfl⟩ := Prod.mk.inj (Option.some.inj h)
        rw [Bool.not_eq_true] at hblocking
        exact .starved rfl (by simp [starved, hcontrol, hblocking, hsocket])
    | cons d rest =>
      simp only [receive?, hsocket] at h
      split_ifs at h with hd
      · obtain ⟨rfl, rfl⟩ := Prod.mk.inj (Option.some.inj h)
        exact .setAside (by rw [hcontrol]; rfl) hsocket hd
      · obtain ⟨rfl, rfl⟩ := Prod.mk.inj (Option.some.inj h)
        obtain ⟨attached, hs', -⟩ :=
          finish_effect (s := { s with socket := some rest, control := .idle })
            (Prod.mk.eta (p := finish _ _ _)).symm
        rw [hs']
        obtain ⟨hseen, hquiet⟩ := finish_quiet (Prod.mk.eta (p := finish _ _ _)).symm
        exact .answered (by rw [hcontrol]; rfl) hsocket (by simpa using hd) hseen hquiet
  case rechecking deadline =>
    simp only [hcontrol] at h
    obtain rfl := Option.some.inj hin
    split_ifs at h with hover
    · obtain ⟨rfl, rfl⟩ := Prod.mk.inj (Option.some.inj h)
      exact .timedOut rfl (by simp [starved, hcontrol]) ⟨deadline, by rw [hcontrol]; rfl, hover⟩
    · obtain ⟨rfl, rfl⟩ := Prod.mk.inj (Option.some.inj h)
      exact .moved (by simp [starved, hcontrol]) rfl (Or.inr ⟨by rw [hcontrol]; rfl, rfl⟩)
        (by simp [Control.spent])

theorem control_ne_idle (hin : s.control.request? = some purpose) :
    s.control ≠ .idle := by
  intro hidle
  rw [hidle] at hin
  cases hin

/-- **What a step inside a request can do.** -/
theorem request_turn {a : Action δ} {waiting : List δ}
    (hin : s.control.request? = some purpose) (hsocket : s.socket = some waiting)
    (hfail : a ≠ .fail) (h : s.step text a = some (s', seen)) :
    RequestTurn text purpose s a s' seen := by
  have hbusy := control_ne_idle hin
  cases a with
  | arrive d =>
    simp only [step, hsocket] at h
    obtain ⟨rfl, rfl⟩ := Prod.mk.inj (Option.some.inj h)
    exact .arrived (by simp) hsocket
  | elapse duration =>
    simp only [step] at h
    split_ifs at h
    obtain ⟨rfl, rfl⟩ := Prod.mk.inj (Option.some.inj h)
    exact .moved (by simp) hin (Or.inl rfl) Or.inl
  | run => exact run_turn hin hsocket h
  | fail => exact absurd rfl hfail
  | openCall reachable => simp [step, hbusy] at h
  | close => simp [step, hbusy] at h
  | request purpose timeout reachable => simp [step, hbusy] at h
  | nextEvent timeout => simp [step, hbusy] at h
  | pending timeout => simp [step, hbusy] at h

end Connection

/-! ## A whole request -/

namespace Consumed

variable {events : List δ} {reply : Option δ}

/-- A datagram that arrives is one that waits. -/
theorem arrived {waiting : List δ} {d : δ} (hsocket : s.socket = some waiting)
    (h : Consumed text { s with socket := some (waiting ++ [d]) } seen s' events reply) :
    Consumed text s (.arrived d :: seen) s' events reply := by
  refine ⟨?_, h.isEvent_events, h.isEvent_reply, h.queued⟩
  rw [← h.inbox, Connection.waiting_of_socket hsocket]
  show waiting ++ d :: arrivals seen = waiting ++ [d] ++ arrivals seen
  rw [List.append_assoc, List.singleton_append]

theorem moved {now : ℚ} {control : Control} {quiet : List (Observation δ)}
    (hquiet : arrivals quiet = [])
    (h : Consumed text { s with now := now, control := control } seen s' events reply) :
    Consumed text s (quiet ++ seen) s' events reply := by
  refine ⟨?_, h.isEvent_events, h.isEvent_reply, h.queued⟩
  rw [arrivals_append, hquiet, List.nil_append]
  exact h.inbox

/-- An event that is set aside is the first one consumed. -/
theorem setAside {d : δ} {rest : List δ} {control : Control} (hsocket : s.socket = some (d :: rest))
    (hd : isEvent (text d) = true)
    (h : Consumed text
      { s with socket := some rest, events := s.events ++ [parseEvent (text d)],
               control := control } seen s' events reply) :
    Consumed text s seen s' (d :: events) reply := by
  refine ⟨?_, ?_, h.isEvent_reply, ?_⟩
  · rw [Connection.waiting_of_socket hsocket]
    exact congrArg (List.cons d) h.inbox
  · intro e he
    rcases List.mem_cons.mp he with rfl | he
    · exact hd
    · exact h.isEvent_events e he
  · rw [h.queued, List.map_cons, List.append_assoc, List.singleton_append]

end Consumed

/-- The request starved: its `recv` was made with no time left, while nothing waited. -/
def Starving (steps : List (Taken (Connection δ) (Action δ) (Observation δ))) : Prop :=
  ∃ step ∈ steps, step.action = .run ∧ step.before.starved = true

deriving instance DecidableEq for Action

instance [DecidableEq δ] (steps : List (Taken (Connection δ) (Action δ) (Observation δ))) :
    Decidable (Starving steps) :=
  inferInstanceAs (Decidable (∃ step ∈ steps, _))

/-- How a request ends, by the datagrams it consumed. -/
theorem finishes_request
    {steps : List (Taken (Connection δ) (Action δ) (Observation δ))} {waiting : List δ}
    (h : (client text).Finishes Connection.isIdle s steps s')
    (hin : s.control.request? = some purpose) (hsocket : s.socket = some waiting)
    (hfail : ∀ step ∈ steps, step.action ≠ .fail) :
    ∃ events reply, Consumed text s (trace steps) s' events reply ∧
      ((∃ d, reply = some d ∧ endings (trace steps) = [.returned purpose d] ∧ ¬ Starving steps) ∨
        (reply = none ∧ endings (trace steps) = [.raised .timeout] ∧ ¬ Starving steps) ∨
        (reply = none ∧ endings (trace steps) = [.raised .connection] ∧ Starving steps)) := by
  induction h generalizing waiting with
  | done hidle => exact absurd (of_decide_eq_true hidle) (Connection.control_ne_idle hin)
  | @step s t u a seen steps busy next finish ih =>
    have hstarving : Starving (⟨s, a, seen⟩ :: steps) ↔
        (a = .run ∧ s.starved = true) ∨ Starving steps := by
      simp [Starving]
    have hrest : ∀ step ∈ steps, step.action ≠ .fail := fun step hstep =>
      hfail step (List.mem_cons_of_mem _ hstep)
    rw [hstarving, trace_cons]
    cases Connection.request_turn hin hsocket (hfail _ List.mem_cons_self) next with
    | @arrived waiting d ha h =>
      obtain ⟨events, reply, hconsumed, hend⟩ := ih hin rfl hrest
      refine ⟨events, reply, hconsumed.arrived h, ?_⟩
      simpa [ha, endings, Observation.isEnding] using hend
    | sent _ hcontrol =>
      obtain ⟨events, reply, hconsumed, hend⟩ := ih rfl hsocket hrest
      have hnot : s.starved = false := by simp [Connection.starved, hcontrol]
      refine ⟨events, reply, hconsumed.moved rfl, ?_⟩
      simpa [hnot, endings, Observation.isEnding] using hend
    | moved hfed hcontrol =>
      obtain ⟨events, reply, hconsumed, hend⟩ := ih hcontrol hsocket hrest
      have hnot : ¬ (a = .run ∧ s.starved = true) := by
        rintro ⟨ha, hstarved⟩
        rw [hfed ha] at hstarved
        cases hstarved
      refine ⟨events, reply, hconsumed.moved rfl, ?_⟩
      simpa [hnot] using hend
    | @setAside d rest deadline _ h hd =>
      obtain ⟨events, reply, hconsumed, hend⟩ := ih rfl rfl hrest
      refine ⟨d :: events, reply, hconsumed.setAside h hd, ?_⟩
      simpa [Connection.starved_of_cons h] using hend
    | @answered d rest attached seen _ h hd hseen _ =>
      obtain ⟨rfl, rfl⟩ := finish.of_idle rfl
      rw [trace_nil, List.append_nil]
      refine ⟨[], some d, ⟨?_, by simp, by simpa using hd, by simp⟩, Or.inl ⟨d, rfl, ?_, ?_⟩⟩
      · show s.waiting ++ arrivals seen = d :: rest
        rw [hseen.1, List.append_nil, Connection.waiting_of_socket h]
      · show .returned purpose d :: endings seen = [.returned purpose d]
        rw [hseen.2]
      · simp [Connection.starved_of_cons h, Starving]
    | timedOut _ hfed _ =>
      obtain ⟨rfl, rfl⟩ := finish.of_idle rfl
      refine ⟨[], none, ⟨?_, by simp, by simp, by simp⟩, Or.inr (Or.inl ⟨rfl, rfl, ?_⟩)⟩
      · exact List.append_nil _
      · simp [hfed, Starving]
    | starved ha h =>
      obtain ⟨rfl, rfl⟩ := finish.of_idle rfl
      refine ⟨[], none, ⟨?_, by simp, by simp, by simp⟩, Or.inr (Or.inr ⟨rfl, rfl, ?_⟩)⟩
      · exact List.append_nil _
      · exact Or.inl ⟨ha, h⟩

/-! ## The end of a request -/

/-- How near a request is to its end, once its time is over. -/
def Control.distance : Control → ℕ
  | .polling _ _ => 3
  | .receiving _ _ _ => 2
  | .rechecking _ _ => 1
  | _ => 0

/-- Once its time is over, the program goes on, and every step of it is nearer to the
end. -/
theorem Connection.run_nearer (hin : s.control.deadline? = some deadline)
    (hopen : s.socket.isSome = true) (hover : deadline ≤ s.now) :
    ∃ s' seen, s.run text = some (s', seen) ∧ s'.control.distance < s.control.distance := by
  obtain ⟨waiting, hsocket⟩ := Option.isSome_iff_exists.mp hopen
  unfold run
  cases hcontrol : s.control <;> simp only [hcontrol, Control.deadline?, reduceCtorEq] at hin
  case polling =>
    exact ⟨_, _, rfl, by simp [Control.distance]⟩
  case receiving blocking =>
    obtain rfl := Option.some.inj hin
    cases waiting with
    | nil =>
      cases hblocking : blocking with
      | true => exact ⟨{ s with control := .idle }, [.raised .timeout], by
          simp [receive?, hsocket, hover, raise], by simp [Control.distance]⟩
      | false => exact ⟨{ s with control := .idle }, [.raised .connection], by
          simp [receive?, hsocket, raise], by simp [Control.distance]⟩
    | cons d rest =>
      simp only [receive?, hsocket]
      split_ifs with hd
      · exact ⟨_, _, rfl, by simp [Control.distance]⟩
      · refine ⟨_, _, rfl, ?_⟩
        obtain ⟨attached, hs', -⟩ :=
          finish_effect (s := { s with socket := some rest, control := .idle })
            (Prod.mk.eta (p := finish _ _ _)).symm
        rw [hs']
        simp [Control.distance]
  case rechecking =>
    obtain rfl := Option.some.inj hin
    simp only [if_pos hover]
    exact ⟨{ s with control := .idle }, [.raised .timeout], rfl, by simp [Control.distance]⟩

/-- The request returned the first datagram that is no event. -/
def Answered (text : δ → Text) (purpose : Purpose) (s : Connection δ)
    (steps : List (Taken (Connection δ) (Action δ) (Observation δ))) (s' : Connection δ) : Prop :=
  ∃ events d, Consumed text s (trace steps) s' events (some d) ∧
    endings (trace steps) = [.returned purpose d]

/-- The request raised `WpaCtrlTimeout`, and consumed nothing but events. -/
def TimedOut (text : δ → Text) (s : Connection δ)
    (steps : List (Taken (Connection δ) (Action δ) (Observation δ))) (s' : Connection δ) : Prop :=
  ∃ events, Consumed text s (trace steps) s' events none ∧
    endings (trace steps) = [.raised .timeout]

/-- A whole call: `request` opens the transport, if it is not open, and sends. -/
theorem call_request {timeout : ℚ}
    {steps : List (Taken (Connection δ) (Action δ) (Observation δ))}
    (h : (client text).Call Connection.isIdle (.request purpose timeout true) s steps s')
    (hfail : ∀ step ∈ steps, step.action ≠ .fail) :
    ∃ events reply, Consumed text s (trace steps) s' events reply ∧
      ((∃ d, reply = some d ∧ endings (trace steps) = [.returned purpose d] ∧ ¬ Starving steps) ∨
        (reply = none ∧ endings (trace steps) = [.raised .timeout] ∧ ¬ Starving steps) ∨
        (reply = none ∧ endings (trace steps) = [.raised .connection] ∧ Starving steps)) := by
  obtain ⟨next, finish⟩ := h
  rename_i t seen steps
  have hrest : ∀ step ∈ steps, step.action ≠ .fail := fun step hstep =>
    hfail step (List.mem_cons_of_mem _ hstep)
  have hstarving : Starving (⟨s, .request purpose timeout true, seen⟩ :: steps) ↔
      Starving steps := by
    simp [Starving]
  have hopened : ∃ waiting, t = { s with socket := some waiting, control := .sending purpose timeout } ∧
      s.waiting = waiting ∧ arrivals seen = [] ∧ endings seen = [] := by
    have hstep : s.step text (.request purpose timeout true) = some (t, seen) := next
    simp only [Connection.step] at hstep
    split_ifs at hstep
    unfold Connection.openSocket at hstep
    split at hstep
    · rename_i waiting hsocket
      obtain ⟨rfl, rfl⟩ := Prod.mk.inj (Option.some.inj hstep)
      exact ⟨waiting, by rw [hsocket], Connection.waiting_of_socket hsocket, rfl, rfl⟩
    · rename_i hsocket
      obtain ⟨rfl, rfl⟩ := Prod.mk.inj (Option.some.inj hstep)
      exact ⟨[], rfl, by rw [Connection.waiting, hsocket]; rfl, rfl, rfl⟩
  obtain ⟨waiting, rfl, hwaiting, harrivals, hendings⟩ := hopened
  obtain ⟨events, reply, hconsumed, hend⟩ := finishes_request finish rfl rfl hrest
  rw [hstarving, trace_cons, endings_append, hendings, List.nil_append]
  refine ⟨events, reply, ⟨?_, hconsumed.isEvent_events, hconsumed.isEvent_reply,
    hconsumed.queued⟩, hend⟩
  rw [arrivals_append, harrivals, List.nil_append, hwaiting]
  exact hconsumed.inbox

/-- **How a request ends.**  Unless a system call fails, it ends with the first datagram
that is no event or with a timeout, never both, and the events ahead are queued in
order, exactly when no `recv` is made with no time left while nothing waits; and once
its time is over, every step of the program is nearer to the end. -/
theorem request_ends (text : δ → Text) (purpose : Purpose) (timeout : ℚ) :
    (∀ s steps s', (client text).Call Connection.isIdle (.request purpose timeout true) s steps s' →
        (∀ step ∈ steps, step.action ≠ .fail) →
          (Xor (Answered text purpose s steps s') (TimedOut text s steps s') ↔
            ¬ Starving steps)) ∧
      ∀ (s : Connection δ) deadline, s.control.deadline? = some deadline →
        s.socket.isSome = true → deadline ≤ s.now →
          ∃ s' seen, (client text).step s .run = some (s', seen) ∧
            s'.control.distance < s.control.distance := by
  refine ⟨fun s steps s' hcall hfail => ?_, fun s deadline => Connection.run_nearer⟩
  obtain ⟨events, reply, hconsumed, ⟨d, rfl, hend, hfed⟩ | ⟨rfl, hend, hfed⟩ |
    ⟨rfl, hend, hstarving⟩⟩ := call_request hcall hfail
  · refine iff_of_true (Or.inl ⟨⟨events, d, hconsumed, hend⟩, ?_⟩) hfed
    rintro ⟨_, -, htimeout⟩
    rw [hend] at htimeout
    cases htimeout
  · refine iff_of_true (Or.inr ⟨⟨events, hconsumed, hend⟩, ?_⟩) hfed
    rintro ⟨_, d, -, hreturned⟩
    rw [hend] at hreturned
    cases hreturned
  · refine iff_of_false ?_ (not_not_intro hstarving)
    rintro (⟨⟨_, d, -, hreturned⟩, -⟩ | ⟨⟨_, -, htimeout⟩, -⟩)
    · rw [hend] at hreturned
      cases hreturned
    · rw [hend] at htimeout
      cases htimeout

/-- A reply that arrives while the request waits. -/
theorem request_ends_pong : ∃ steps s', (client id).Call Connection.isIdle
    (.request (.request "PING".toList) 5 true) Connection.fresh steps s' ∧
      Xor (Answered id (.request "PING".toList) Connection.fresh steps s')
        (TimedOut id Connection.fresh steps s') := by
  have hrun : ((client id).call? Connection.isIdle (.request (.request "PING".toList) 5 true)
      Connection.fresh [.run, .run, .elapse 1, .arrive "PONG\n".toList, .run]).map (fun result =>
        decide ((∀ step ∈ result.1, step.action ≠ .fail) ∧ ¬ Starving result.1)) = some true := by
    decide +kernel
  obtain ⟨⟨steps, s'⟩, hresult, hall⟩ := Option.map_eq_some_iff.mp hrun
  obtain ⟨hfail, hfed⟩ := of_decide_eq_true hall
  have hcall := call_of_call? hresult
  exact ⟨steps, s', hcall,
    ((request_ends id (.request "PING".toList) 5).1 _ _ _ hcall hfail).mpr hfed⟩

/-- A request with no time at all, on a socket where nothing waits. -/
theorem request_without_time_raises_connection : ¬ ∀ (timeout : ℚ), 0 ≤ timeout →
    ∀ s steps s', (client id).Call Connection.isIdle (.request (.request "PING".toList) timeout true)
      s steps s' → (∀ step ∈ steps, step.action ≠ .fail) →
        Xor (Answered id (.request "PING".toList) s steps s') (TimedOut id s steps s') := by
  intro h
  have hrun : ((client id).call? Connection.isIdle (.request (.request "PING".toList) 0 true)
      Connection.fresh [.run, .run, .run]).map (fun result =>
        decide ((∀ step ∈ result.1, step.action ≠ .fail) ∧
          endings (trace result.1) = [.raised .connection])) = some true := by
    decide +kernel
  obtain ⟨⟨steps, s'⟩, hresult, hall⟩ := Option.map_eq_some_iff.mp hrun
  obtain ⟨hfail, hend⟩ := of_decide_eq_true hall
  rcases h 0 le_rfl _ _ _ (call_of_call? hresult) hfail with
    ⟨⟨_, d, -, hreturned⟩, -⟩ | ⟨⟨_, -, htimeout⟩, -⟩
  · rw [hend] at hreturned
    cases hreturned
  · rw [hend] at htimeout
    cases htimeout

end WpaCtrl
