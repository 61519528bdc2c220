/-
# One control connection (`client.py`, `transport.py`)

`request` and `next_event` read the same datagrams: `request` sets events aside on a
side queue while it waits for a reply, `next_event` drops stray replies while it
waits for an event.  The methods are embedded as one machine: `Control` says where in
which method the program stands, and each step of it is a stretch of the method
between two points at which time may pass, a datagram may arrive or a system call may
fail.

Datagrams are of any type; `text` is what `receive` decodes one to.

* `Effect`, `step_effect` : all a step can do to the socket, the side queue and the
  attached flag.
-/
import WpaCtrl.Events
import WpaCtrl.Replies
import WpaCtrl.Runs
import Mathlib.Data.Rat.Defs
import Mathlib.Algebra.Order.Ring.Rat

open Text

namespace WpaCtrl

/-! ## The connection -/

/-- What `request` is called for: by a caller, or by `attach` and `detach`. -/
inductive Purpose where
  | request (command : Text)
  | attach
  | detach
  deriving DecidableEq

/-- The command `request` sends. -/
def Purpose.command : Purpose → Text
  | request command => command
  | attach => "ATTACH".toList
  | detach => "DETACH".toList

/-- `DEFAULT_TIMEOUT` -/
def defaultTimeout : ℚ := 5

/-- The exceptions that leave a method. -/
inductive ClientError where
  /-- `WpaCtrlConnectionError` -/
  | connection
  /-- `WpaCtrlTimeout` -/
  | timeout
  /-- `WpaCtrlCommandFailed` -/
  | commandFailed
  deriving DecidableEq

/-- Where the program stands.  `blocking` says that a positive time was left when the
system call was made. -/
inductive Control where
  | idle
  /-- `request`, before `send` -/
  | sending (purpose : Purpose) (timeout : ℚ)
  /-- `request`, at the head of the loop -/
  | polling (purpose : Purpose) (deadline : ℚ)
  /-- `request`, in `receive` -/
  | receiving (purpose : Purpose) (deadline : ℚ) (blocking : Bool)
  /-- `request`, after an event was set aside -/
  | rechecking (purpose : Purpose) (deadline : ℚ)
  /-- `next_event`, at the head of the loop -/
  | nextPolling (deadline : ℚ)
  /-- `next_event`, in `pending` -/
  | nextSelecting (deadline : ℚ) (blocking : Bool)
  /-- `next_event`, once a datagram is there -/
  | nextTaking (deadline : ℚ)
  /-- `next_event`, in `receive` -/
  | nextReceiving (deadline : ℚ) (blocking : Bool)
  /-- `next_event`, after a stray reply was dropped -/
  | nextRechecking (deadline : ℚ)
  /-- `pending` -/
  | pendingSelecting (deadline : ℚ) (blocking : Bool)
  deriving DecidableEq

/-- Inside the loop of `next_event`. -/
def Control.inNextEvent : Control → Bool
  | nextPolling _ | nextSelecting _ _ | nextTaking _ | nextReceiving _ _ | nextRechecking _ => true
  | _ => false

/-- A `WpaCtrl` with its socket: the datagrams that arrived on it and were not read. -/
structure Connection (δ : Type) where
  socket : Option (List δ)
  attached : Bool
  events : List Event
  now : ℚ
  control : Control
  deriving DecidableEq

/-- What the environment does: the daemon's datagrams, time, the caller, and the
system calls. -/
inductive Action (δ : Type) where
  | arrive (datagram : δ)
  | elapse (duration : ℚ)
  /-- `open()`; `reachable` says whether its system calls succeed -/
  | openCall (reachable : Bool)
  | close
  /-- `request(command, timeout)`, `attach()` or `detach()` -/
  | request (purpose : Purpose) (timeout : ℚ) (reachable : Bool)
  | nextEvent (timeout : ℚ)
  | pending (timeout : ℚ)
  /-- the program goes on -/
  | run
  /-- the system call the program is in raises an `OSError` -/
  | fail

/-- What is seen of a step. -/
inductive Observation (δ : Type) where
  /-- a new socket was opened -/
  | opened
  | closed
  | arrived (datagram : δ)
  | sent (command : Text)
  /-- `request` returned this datagram as its reply -/
  | returned (purpose : Purpose) (datagram : δ)
  /-- `attach` or `detach` returned -/
  | flagged (attached : Bool)
  /-- `next_event` returned an event -/
  | delivered (event : Event)
  /-- `next_event` dropped a datagram -/
  | dropped (datagram : δ)
  /-- `next_event` returned `None` -/
  | nothing
  /-- `pending` returned -/
  | isPending (answer : Bool)
  | raised (error : ClientError)
  deriving DecidableEq

/-! ## Its methods -/

variable {δ : Type}

namespace Connection

/-- Leave the method with an exception. -/
def raise (s : Connection δ) (error : ClientError) :
    Option (Connection δ × List (Observation δ)) :=
  some ({ s with control := .idle }, [.raised error])

/-- `CtrlTransport.open`, on the way into a method that goes on at `control`. -/
def openSocket (s : Connection δ) (reachable : Bool) (control : Control) :
    Option (Connection δ × List (Observation δ)) :=
  match s.socket with
  | some _ => some ({ s with control := control }, [])
  | none =>
    if reachable then some ({ s with socket := some [], control := control }, [.opened])
    else s.raise .connection

/-- `CtrlTransport.receive`: the datagram it takes and those left, or what it raises;
`none` while it waits. -/
def receive? (s : Connection δ) (deadline : ℚ) (blocking : Bool) :
    Option (Except ClientError (δ × List δ)) :=
  match s.socket with
  | none => some (.error .connection)
  | some (datagram :: rest) => some (.ok (datagram, rest))
  | some [] =>
    if blocking then
      if deadline ≤ s.now then some (.error .timeout) else none
    -- with a timeout of zero `recv` raises `BlockingIOError` instead
    else some (.error .connection)

/-- `CtrlTransport.pending`: whether a datagram is there; `none` while it waits. -/
def select? (s : Connection δ) (deadline : ℚ) (blocking : Bool) :
    Option (Except ClientError Bool) :=
  match s.socket with
  | none => some (.error .connection)
  | some (_ :: _) => some (.ok true)
  | some [] => if blocking ∧ s.now < deadline then none else some (.ok false)

/-- `command` has its reply: anything but `OK` is a refusal, and `OK` sets the flag. -/
def complete (s : Connection δ) (reply : Text) (attached : Bool) :
    Connection δ × List (Observation δ) :=
  if strip reply = "OK".toList then ({ s with attached := attached }, [.flagged attached])
  else (s, [.raised .commandFailed])

/-- `request` returns, to its caller or to `attach` and `detach`. -/
def finish (s : Connection δ) (purpose : Purpose) (reply : Text) :
    Connection δ × List (Observation δ) :=
  match purpose with
  | .request _ => (s, [])
  | .attach => s.complete reply true
  | .detach => s.complete reply false

variable (text : δ → Text)

/-- The program goes on from where it stands. -/
def run (s : Connection δ) : Option (Connection δ × List (Observation δ)) :=
  match s.control with
  | .idle => none
  | .sending purpose timeout =>
    match s.socket with
    | none => s.raise .connection
    | some _ =>
      some ({ s with control := .polling purpose (s.now + timeout) }, [.sent purpose.command])
  | .polling purpose deadline =>
    some ({ s with control := .receiving purpose deadline (decide (s.now < deadline)) }, [])
  | .receiving purpose deadline blocking =>
    match s.receive? deadline blocking with
    | none => none
    | some (.error error) => s.raise error
    | some (.ok (datagram, rest)) =>
      if isEvent (text datagram) then
        -- set aside for `next_event`
        some ({ s with socket := some rest, events := s.events ++ [parseEvent (text datagram)],
                       control := .rechecking purpose deadline }, [])
      else
        let (s', seen) := finish { s with socket := some rest, control := .idle } purpose
          (replyText (text datagram))
        some (s', .returned purpose datagram :: seen)
  | .rechecking purpose deadline =>
    if deadline ≤ s.now then s.raise .timeout
    else some ({ s with control := .polling purpose deadline }, [])
  | .nextPolling deadline =>
    some ({ s with control := .nextSelecting deadline (decide (s.now < deadline)) }, [])
  | .nextSelecting deadline blocking =>
    match s.select? deadline blocking with
    | none => none
    | some (.error error) => s.raise error
    | some (.ok true) => some ({ s with control := .nextTaking deadline }, [])
    | some (.ok false) => some ({ s with control := .idle }, [.nothing])
  | .nextTaking deadline =>
    some ({ s with control := .nextReceiving deadline (decide (s.now < deadline)) }, [])
  | .nextReceiving deadline blocking =>
    match s.receive? deadline blocking with
    | none => none
    | some (.error error) => s.raise error
    | some (.ok (datagram, rest)) =>
      if isEvent (text datagram) then
        some ({ s with socket := some rest, control := .idle },
          [.delivered (parseEvent (text datagram))])
      else
        -- a reply with no outstanding request
        some ({ s with socket := some rest, control := .nextRechecking deadline },
          [.dropped datagram])
  | .nextRechecking deadline =>
    if deadline ≤ s.now then some ({ s with control := .idle }, [.nothing])
    else some ({ s with control := .nextPolling deadline }, [])
  | .pendingSelecting deadline blocking =>
    match s.select? deadline blocking with
    | none => none
    | some (.error error) => s.raise error
    | some (.ok answer) => some ({ s with control := .idle }, [.isPending answer])

/-- The system call the program is in fails. -/
def fail (s : Connection δ) : Option (Connection δ × List (Observation δ)) :=
  match s.control with
  | .sending _ _ | .receiving _ _ _ | .nextSelecting _ _ | .nextReceiving _ _
  | .pendingSelecting _ _ => s.raise .connection
  | _ => none

/-- One step of the connection. -/
def step (s : Connection δ) : Action δ → Option (Connection δ × List (Observation δ))
  | .arrive datagram =>
    match s.socket with
    | some waiting => some ({ s with socket := some (waiting ++ [datagram]) }, [.arrived datagram])
    | none => none
  | .elapse duration => if 0 ≤ duration then some ({ s with now := s.now + duration }, []) else none
  | .openCall reachable =>
    if s.control = .idle then s.openSocket reachable .idle else none
  | .close =>
    if s.control = .idle then
      some ({ s with socket := none, attached := false, events := [] }, [.closed])
    else none
  | .request purpose timeout reachable =>
    if s.control = .idle then s.openSocket reachable (.sending purpose timeout) else none
  | .nextEvent timeout =>
    if s.control = .idle then
      match s.events with
      | event :: events => some ({ s with events := events }, [.delivered event])
      | [] => some ({ s with control := .nextPolling (s.now + timeout) }, [])
    else none
  | .pending timeout =>
    if s.control = .idle then
      if s.events ≠ [] then some (s, [.isPending true])
      else some ({ s with control := .pendingSelecting (s.now + timeout) (decide (0 < timeout)) }, [])
    else none
  | .run => s.run text
  | .fail => s.fail

/-- A `WpaCtrl` that was just constructed. -/
def fresh : Connection δ := ⟨none, false, [], 0, .idle⟩

end Connection

/-- The machine of one connection. -/
def client (text : δ → Text) : Machine (Connection δ) (Action δ) (Observation δ) :=
  ⟨Connection.fresh, Connection.step text⟩

/-! ## What a step can do -/

/-- An observation that is neither about a datagram nor about an event or the flag. -/
def Observation.quiet : Observation δ → Bool
  | sent _ | nothing | isPending _ | raised _ => true
  | _ => false

/-- All a step can do to the socket, the side queue and the attached flag. -/
inductive Effect (text : δ → Text) (s : Connection δ) :
    Connection δ → List (Observation δ) → Prop
  | quiet {now : ℚ} {control : Control} {seen : List (Observation δ)}
      (hseen : ∀ o ∈ seen, o.quiet = true) :
      Effect text s { s with now := now, control := control } seen
  | opened {control : Control} (h : s.socket = none) :
      Effect text s { s with socket := some [], control := control } [.opened]
  | closed : Effect text s { s with socket := none, attached := false, events := [] } [.closed]
  | arrived {waiting : List δ} {d : δ} (h : s.socket = some waiting) :
      Effect text s { s with socket := some (waiting ++ [d]) } [.arrived d]
  | setAside {d : δ} {rest : List δ} {control : Control} (h : s.socket = some (d :: rest))
      (hd : isEvent (text d) = true) :
      Effect text s { s with socket := some rest, events := s.events ++ [parseEvent (text d)],
                             control := control } []
  | answered {d : δ} {rest : List δ} {purpose : Purpose} {attached : Bool}
      {seen : List (Observation δ)} (h : s.socket = some (d :: rest))
      (hd : isEvent (text d) = false)
      (hflag : (attached = s.attached ∧ ∀ o ∈ seen, o.quiet = true) ∨ seen = [.flagged attached]) :
      Effect text s { s with socket := some rest, control := .idle, attached := attached }
        (.returned purpose d :: seen)
  | popped {event : Event} {events : List Event} (h : s.events = event :: events) :
      Effect text s { s with events := events } [.delivered event]
  | delivered {d : δ} {rest : List δ} (h : s.socket = some (d :: rest))
      (hd : isEvent (text d) = true) (hempty : s.events = []) :
      Effect text s { s with socket := some rest, control := .idle }
        [.delivered (parseEvent (text d))]
  | dropped {d : δ} {rest : List δ} {control : Control} (h : s.socket = some (d :: rest))
      (hd : isEvent (text d) = false) :
      Effect text s { s with socket := some rest, control := control } [.dropped d]

/-- The loop of `next_event` is only entered with an empty side queue. -/
def Connection.Settled (s : Connection δ) : Prop := s.control.inNextEvent = true → s.events = []

variable {text : δ → Text} {s s' : Connection δ} {seen : List (Observation δ)}

namespace Connection

/-- A datagram is taken from the front of the socket. -/
theorem receive?_ok {deadline : ℚ} {blocking : Bool} {d : δ} {rest : List δ}
    (h : s.receive? deadline blocking = some (.ok (d, rest))) : s.socket = some (d :: rest) := by
  unfold receive? at h
  split at h
  · simp at h
  · simp_all
  · split_ifs at h <;> simp at h

theorem raise_effect {error : ClientError} (h : s.raise error = some (s', seen)) :
    Effect text s s' seen ∧ s'.Settled := by
  obtain ⟨rfl, rfl⟩ := Prod.mk.inj (Option.some.inj h)
  exact ⟨.quiet (by simp [Observation.quiet]), by simp [Settled, Control.inNextEvent]⟩

theorem openSocket_effect {reachable : Bool} {control : Control}
    (hcontrol : control.inNextEvent = false)
    (h : s.openSocket reachable control = some (s', seen)) : Effect text s s' seen ∧ s'.Settled := by
  unfold openSocket at h
  split at h
  · obtain ⟨rfl, rfl⟩ := Prod.mk.inj (Option.some.inj h)
    exact ⟨.quiet (by simp), by simp [Settled, hcontrol]⟩
  · rename_i hsocket
    split at h
    · obtain ⟨rfl, rfl⟩ := Prod.mk.inj (Option.some.inj h)
      exact ⟨.opened hsocket, by simp [Settled, hcontrol]⟩
    · exact raise_effect h

/-- `request` gives the reply back, and at most the flag changes. -/
theorem finish_effect {purpose : Purpose} {reply : Text} (h : s.finish purpose reply = (s', seen)) :
    ∃ attached, s' = { s with attached := attached } ∧
      ((attached = s.attached ∧ ∀ o ∈ seen, o.quiet = true) ∨ seen = [.flagged attached]) := by
  have hcomplete : ∀ flag, s.complete reply flag = (s', seen) →
      ∃ attached, s' = { s with attached := attached } ∧
        ((attached = s.attached ∧ ∀ o ∈ seen, o.quiet = true) ∨ seen = [.flagged attached]) := by
    intro flag h
    unfold complete at h
    split at h
    · obtain ⟨rfl, rfl⟩ := Prod.mk.inj h
      exact ⟨flag, rfl, Or.inr rfl⟩
    · obtain ⟨rfl, rfl⟩ := Prod.mk.inj h
      exact ⟨s.attached, rfl, Or.inl ⟨rfl, by simp [Observation.quiet]⟩⟩
  cases purpose with
  | request command =>
    obtain ⟨rfl, rfl⟩ := Prod.mk.inj h
    exact ⟨s.attached, rfl, Or.inl ⟨rfl, by simp⟩⟩
  | attach => exact hcomplete true h
  | detach => exact hcomplete false h

/-- A step inside a method that touches neither queue. -/
theorem move_effect {control : Control} {quiet : List (Observation δ)}
    (hquiet : ∀ o ∈ quiet, o.quiet = true)
    (hnext : control.inNextEvent = true → s.control.inNextEvent = true) (hs : s.Settled)
    (h : some ({ s with control := control }, quiet) = some (s', seen)) :
    Effect text s s' seen ∧ s'.Settled := by
  obtain ⟨rfl, rfl⟩ := Prod.mk.inj (Option.some.inj h)
  exact ⟨.quiet hquiet, fun hin => hs (hnext hin)⟩

theorem run_effect (hs : s.Settled) (h : s.run text = some (s', seen)) :
    Effect text s s' seen ∧ s'.Settled := by
  unfold run at h
  cases hcontrol : s.control <;> simp only [hcontrol] at h
  case idle => simp at h
  case sending purpose timeout =>
    split at h
    · exact raise_effect h
    · exact move_effect (by simp [Observation.quiet]) (by simp [Control.inNextEvent]) hs h
  case polling purpose deadline =>
    exact move_effect (by simp) (by simp [Control.inNextEvent]) hs h
  case receiving purpose deadline blocking =>
    split at h
    · simp at h
    · exact raise_effect h
    · rename_i d rest hreceive
      have hsocket := receive?_ok hreceive
      split at h
      case isTrue hd =>
        obtain ⟨rfl, rfl⟩ := Prod.mk.inj (Option.some.inj h)
        exact ⟨.setAside hsocket hd, by simp [Settled, Control.inNextEvent]⟩
      case isFalse hd =>
        obtain ⟨rfl, rfl⟩ := Prod.mk.inj (Option.some.inj h)
        obtain ⟨attached, hs', hflag⟩ :=
          finish_effect (s := { s with socket := some rest, control := .idle })
            (Prod.mk.eta (p := finish _ _ _)).symm
        rw [hs']
        exact ⟨.answered hsocket (by simpa using hd) hflag, by simp [Settled, Control.inNextEvent]⟩
  case rechecking purpose deadline =>
    split at h
    · exact raise_effect h
    · exact move_effect (by simp) (by simp [Control.inNextEvent]) hs h
  case nextPolling deadline =>
    exact move_effect (by simp) (by simp [hcontrol, Control.inNextEvent]) hs h
  case nextSelecting deadline blocking =>
    split at h
    · simp at h
    · exact raise_effect h
    · exact move_effect (by simp) (by simp [hcontrol, Control.inNextEvent]) hs h
    · exact move_effect (by simp [Observation.quiet]) (by simp [Control.inNextEvent]) hs h
  case nextTaking deadline =>
    exact move_effect (by simp) (by simp [hcontrol, Control.inNextEvent]) hs h
  case nextReceiving deadline blocking =>
    split at h
    · simp at h
    · exact raise_effect h
    · rename_i d rest hreceive
      have hsocket := receive?_ok hreceive
      -- `next_event` reads the socket only once the queue is empty
      have hempty : s.events = [] := hs (by simp [hcontrol, Control.inNextEvent])
      split at h
      case isTrue hd =>
        obtain ⟨rfl, rfl⟩ := Prod.mk.inj (Option.some.inj h)
        exact ⟨.delivered hsocket hd hempty, by simp [Settled, Control.inNextEvent]⟩
      case isFalse hd =>
        obtain ⟨rfl, rfl⟩ := Prod.mk.inj (Option.some.inj h)
        exact ⟨.dropped hsocket (by simpa using hd), fun _ => hempty⟩
  case nextRechecking deadline =>
    split at h
    · exact move_effect (by simp [Observation.quiet]) (by simp [Control.inNextEvent]) hs h
    · exact move_effect (by simp) (by simp [hcontrol, Control.inNextEvent]) hs h
  case pendingSelecting deadline blocking =>
    split at h
    · simp at h
    · exact raise_effect h
    · exact move_effect (by simp [Observation.quiet]) (by simp [Control.inNextEvent]) hs h

/-- **What a step can do.** -/
theorem step_effect {action : Action δ} (hs : s.Settled)
    (h : s.step text action = some (s', seen)) : Effect text s s' seen ∧ s'.Settled := by
  cases action with
  | arrive d =>
    simp only [step] at h
    split at h
    · rename_i waiting hsocket
      obtain ⟨rfl, rfl⟩ := Prod.mk.inj (Option.some.inj h)
      exact ⟨.arrived hsocket, hs⟩
    · simp at h
  | elapse duration =>
    simp only [step] at h
    split at h
    · obtain ⟨rfl, rfl⟩ := Prod.mk.inj (Option.some.inj h)
      exact ⟨.quiet (by simp), hs⟩
    · simp at h
  | openCall reachable =>
    simp only [step] at h
    split at h
    · exact openSocket_effect rfl h
    · simp at h
  | close =>
    simp only [step] at h
    split at h
    · obtain ⟨rfl, rfl⟩ := Prod.mk.inj (Option.some.inj h)
      exact ⟨.closed, fun _ => rfl⟩
    · simp at h
  | request purpose timeout reachable =>
    simp only [step] at h
    split at h
    · exact openSocket_effect rfl h
    · simp at h
  | nextEvent timeout =>
    simp only [step] at h
    split at h
    case isTrue hidle =>
      split at h
      · rename_i event events hevents
        obtain ⟨rfl, rfl⟩ := Prod.mk.inj (Option.some.inj h)
        exact ⟨.popped hevents, by simp [Settled, hidle, Control.inNextEvent]⟩
      · rename_i hevents
        obtain ⟨rfl, rfl⟩ := Prod.mk.inj (Option.some.inj h)
        exact ⟨.quiet (by simp), fun _ => hevents⟩
    case isFalse => simp at h
  | pending timeout =>
    simp only [step] at h
    split at h
    · split at h
      · obtain ⟨rfl, rfl⟩ := Prod.mk.inj (Option.some.inj h)
        exact ⟨.quiet (by simp [Observation.quiet]), hs⟩
      · exact move_effect (by simp) (by simp [Control.inNextEvent]) hs h
    · simp at h
  | run => exact run_effect hs h
  | fail =>
    simp only [step] at h
    unfold fail at h
    split at h
    case h_6 => simp at h
    all_goals exact raise_effect h

end Connection

end WpaCtrl
