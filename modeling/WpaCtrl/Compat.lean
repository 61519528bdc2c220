/-
# The wpa_cli-shaped front end (`compat.py`)

`execute_command` keeps one client per interface and reuses its connection.  Here the
client stands beside a daemon that can be stopped and started again: a socket that was
connected to a stopped daemon stays connected to it, and everything sent on it fails.

* `Service.step_kept` : what every step keeps of the wire between the two;
* `execute_command_transparent_iff` : exactly when a call gets its own reply.
-/
import WpaCtrl.Deadline
import WpaCtrl.RequestReply

open Text Machine

namespace WpaCtrl

/-! ## Commands and pairs -/

/-- `REPLY_FAIL` -/
def replyFail : Text := "FAIL".toList

/-- `REPLY_OK` -/
def replyOk : Text := "OK".toList

/-- `REPLY_UNKNOWN` -/
def replyUnknown : Text := "UNKNOWN COMMAND".toList

/-- The command `execute_command` sends: the verb in upper case, by `str.upper`. -/
def commandText (upper : Text → Text) (args : List Text) : Text :=
  let (verb, separator, remainder) := partition ' ' ([' '].intercalate args)
  upper verb ++ separator ++ remainder

/-- What `execute_command` returns for what `request` returned. -/
def commandPair (reply : Text) : Bool × Option Text :=
  let output := rstrip '\n' reply
  if replyFail <+: output ∨ replyUnknown <+: output then (false, none)
  else if output = replyOk then (true, none)
  else (true, some output)

/-! ## The service -/

/-- The client of one interface, as `get_client` keeps it, and the daemon.  A daemon is
known by how many were started before it. -/
structure Service where
  connection : Connection Datagram
  /-- the daemon that is up -/
  daemon : Option ℕ
  /-- how many daemons were started -/
  started : ℕ
  /-- the daemon whose socket the client's was connected to -/
  connected : Option ℕ
  /-- the calls whose command the daemon has received and not answered -/
  unanswered : List ℕ
  /-- how many calls of `execute_command` are over -/
  calls : ℕ
  deriving DecidableEq

inductive ServiceAction where
  /-- `execute_command(*args)`; `granted` says whether a running daemon can be reached -/
  | execute (args : List Text) (granted : Bool)
  | run
  | elapse (duration : ℚ)
  /-- the daemon answers the oldest command -/
  | answer (reply : Text)
  /-- the daemon sends an event -/
  | emit (message : Text)
  | stop
  | restart
  /-- the system call the client is in raises an `OSError` -/
  | fail

/-- A call of `execute_command` is over: the datagram `request` returned, if it did, and
the pair. -/
inductive ServiceObservation where
  | completed (call : ℕ) (reply : Option Datagram) (pair : Bool × Option Text)
  deriving DecidableEq

namespace Service

/-- The calls that are owed a reply: those whose reply waits in the socket, and those
the daemon has not answered. -/
def owed (s : Service) : List ℕ :=
  s.connection.waiting.filterMap Datagram.answers ++ s.unanswered

/-- A new socket is connected; the daemon receives a command; a call returns, or raises. -/
def enter (s : Service) : Observation Datagram → Service × List ServiceObservation
  | .opened => ({ s with connected := s.daemon }, [])
  | .sent _ => ({ s with unanswered := s.unanswered ++ [s.calls] }, [])
  | .returned _ d =>
    ({ s with calls := s.calls + 1 },
      [.completed s.calls (some d) (commandPair (replyText d.text))])
  | .raised _ => ({ s with calls := s.calls + 1 }, [.completed s.calls none (false, none)])
  | _ => (s, [])

/-- Enter what was observed, in order. -/
def enterAll (s : Service) : List (Observation Datagram) → Service × List ServiceObservation
  | [] => (s, [])
  | o :: seen =>
    let (s', out) := s.enter o
    let (s'', out') := s'.enterAll seen
    (s'', out ++ out')

/-- The client makes a step. -/
def clientStep (s : Service) (action : Action Datagram) :
    Option (Service × List ServiceObservation) :=
  match s.connection.step Datagram.text action with
  | none => none
  | some (connection, seen) => some ({ s with connection := connection }.enterAll seen)

/-- The client is about to send on a socket whose daemon is gone. -/
def stale (s : Service) : Bool :=
  match s.connection.control with
  | .sending _ _ => decide (s.daemon ≠ s.connected)
  | _ => false

variable (upper : Text → Text)

/-- One step of the service: calls of `execute_command` only, and the daemon. -/
def step (s : Service) : ServiceAction → Option (Service × List ServiceObservation)
  | .execute args granted =>
    s.clientStep (.request (.request (commandText upper args)) defaultTimeout
      (granted && s.daemon.isSome))
  | .run => s.clientStep (if s.stale then .fail else .run)
  | .elapse duration => s.clientStep (.elapse duration)
  | .answer reply =>
    match s.unanswered with
    | [] => none
    | call :: unanswered =>
      if isEvent reply then none
      else { s with unanswered := unanswered }.clientStep (.arrive ⟨reply, some call⟩)
  | .emit message =>
    if isEvent message ∧ s.daemon.isSome ∧ s.daemon = s.connected then
      s.clientStep (.arrive ⟨message, none⟩)
    else none
  | .stop => if s.daemon.isSome then some ({ s with daemon := none, unanswered := [] }, []) else none
  | .restart =>
    if s.daemon.isSome then none
    else some ({ s with daemon := some s.started, started := s.started + 1 }, [])
  | .fail => s.clientStep .fail

/-- Between two calls. -/
def isIdle (s : Service) : Bool := s.connection.isIdle

end Service

/-- The service of one interface, before its first call and the daemon's first start. -/
def service (upper : Text → Text) : Machine Service ServiceAction ServiceObservation :=
  ⟨⟨Connection.fresh, none, 0, none, [], 0⟩, Service.step upper⟩

/-! ## The wire between the two -/

namespace Service

/-- What holds of the wire in every run. -/
structure Kept (s : Service) : Prop where
  control : s.connection.control = .idle ∨
    ∃ command, s.connection.control.request? = some (.request command)
  /-- a call goes on over an open socket -/
  opened : s.connection.control ≠ .idle → s.connection.socket.isSome = true
  closed : s.connection.socket = none → s.unanswered = []
  /-- the events are the datagrams that answer nothing -/
  tagged : ∀ d ∈ s.connection.waiting, isEvent d.text = d.answers.isNone
  /-- an owed reply is for an earlier call, or for the one that has sent its command -/
  bounded : ∀ call ∈ s.owed, call < s.calls ∨
    call = s.calls ∧ s.connection.control.deadline?.isSome = true

variable {upper : Text → Text} {s t : Service} {out : List ServiceObservation}

theorem clientStep_eq_some {action : Action Datagram} (h : s.clientStep action = some (t, out)) :
    ∃ c seen, s.connection.step Datagram.text action = some (c, seen) ∧
      ({ s with connection := c } : Service).enterAll seen = (t, out) := by
  unfold clientStep at h
  split at h
  · cases h
  · rename_i c seen hstep
    exact ⟨c, seen, hstep, Option.some.inj h⟩

theorem Kept.bounded_le (hs : s.Kept) {call : ℕ} (hcall : call ∈ s.owed) : call ≤ s.calls := by
  rcases hs.bounded call hcall with hlt | ⟨heq, -⟩
  · exact hlt.le
  · exact heq.le

/-- Between two calls, what is owed is owed to earlier calls. -/
theorem Kept.bounded_lt (hs : s.Kept) (hcontrol : s.connection.control.deadline? = none) {call : ℕ}
    (hcall : call ∈ s.owed) : call < s.calls := by
  rcases hs.bounded call hcall with hlt | ⟨-, hsent⟩
  · exact hlt
  · rw [hcontrol] at hsent
    cases hsent

/-- A call raises. -/
theorem Kept.raised (hs : s.Kept) : Kept { s with
    connection := { s.connection with control := .idle }, calls := s.calls + 1 } where
  control := Or.inl rfl
  opened h := absurd rfl h
  closed := hs.closed
  tagged := hs.tagged
  bounded _ hcall := Or.inl (Nat.lt_succ_of_le (hs.bounded_le hcall))

/-- The client goes on, with what waits and what is owed as they were. -/
theorem Kept.moved (hs : s.Kept) {c : Connection Datagram} {command : Text}
    (hsocket : c.socket = s.connection.socket)
    (hcontrol : c.control.request? = some (.request command))
    (hopen : s.connection.socket.isSome = true)
    (hsent : s.connection.control.deadline?.isSome = true → c.control.deadline?.isSome = true) :
    Kept { s with connection := c } := by
  have hwaiting : c.waiting = s.connection.waiting := by
    rw [Connection.waiting, hsocket, Connection.waiting]
  refine ⟨Or.inr ⟨command, hcontrol⟩, fun _ => by rw [hsocket, hopen], ?_, ?_, ?_⟩
  · intro h
    exact hs.closed (hsocket ▸ h)
  · show ∀ d ∈ c.waiting, _
    rw [hwaiting]
    exact hs.tagged
  · show ∀ call ∈ c.waiting.filterMap Datagram.answers ++ s.unanswered, _
    rw [hwaiting]
    intro call hcall
    exact (hs.bounded call hcall).imp_right fun h => ⟨h.1, hsent h.2⟩

/-- A datagram arrives, and what is owed stays the same. -/
theorem owed_arrived {waiting : List Datagram} (hsocket : s.connection.socket = some waiting)
    {d : Datagram} {unanswered : List ℕ}
    (hunanswered : d.answers.toList ++ unanswered = s.unanswered) :
    owed { s with connection := { s.connection with socket := some (waiting ++ [d]) },
                  unanswered := unanswered } = s.owed := by
  show (waiting ++ [d]).filterMap Datagram.answers ++ unanswered =
    s.connection.waiting.filterMap Datagram.answers ++ s.unanswered
  have hone : [d].filterMap Datagram.answers = d.answers.toList := rfl
  rw [Connection.waiting_of_socket hsocket, List.filterMap_append, List.append_assoc, hone,
    hunanswered]

theorem Kept.arrived (hs : s.Kept) {waiting : List Datagram}
    (hsocket : s.connection.socket = some waiting) {d : Datagram} {unanswered : List ℕ}
    (htag : isEvent d.text = d.answers.isNone)
    (hunanswered : d.answers.toList ++ unanswered = s.unanswered) :
    Kept { s with connection := { s.connection with socket := some (waiting ++ [d]) },
                  unanswered := unanswered } := by
  refine ⟨hs.control, fun _ => rfl, fun h => absurd h (by simp), ?_, ?_⟩
  · intro e he
    rcases List.mem_append.mp he with he | he
    · exact hs.tagged e (by rwa [Connection.waiting_of_socket hsocket])
    · rw [List.mem_singleton.mp he]
      exact htag
  · rw [owed_arrived hsocket hunanswered]
    exact hs.bounded

/-- A datagram is taken from the front of the socket. -/
theorem owed_taken {d : Datagram} {rest : List Datagram}
    (hsocket : s.connection.socket = some (d :: rest)) {c : Connection Datagram}
    (hc : c.socket = some rest) :
    s.owed = d.answers.toList ++ owed { s with connection := c } := by
  show s.connection.waiting.filterMap Datagram.answers ++ s.unanswered =
    d.answers.toList ++ (c.waiting.filterMap Datagram.answers ++ s.unanswered)
  rw [Connection.waiting_of_socket hsocket, Connection.waiting_of_socket hc]
  cases hanswers : d.answers with
  | none => rw [List.filterMap_cons_none hanswers]; rfl
  | some call => rw [List.filterMap_cons_some hanswers]; rfl

/-- An event is owed to no call. -/
theorem owed_setAside {d : Datagram} {rest : List Datagram}
    (hfront : s.connection.socket = some (d :: rest)) {c : Connection Datagram}
    (hc : c.socket = some rest) (hnone : d.answers = none) :
    owed { s with connection := c } = s.owed := by
  rw [owed_taken hfront hc, hnone]
  rfl

/-- The first reply is for the first call that is owed one. -/
theorem owed_replied {d : Datagram} {rest : List Datagram}
    (hfront : s.connection.socket = some (d :: rest)) {c : Connection Datagram}
    (hc : c.socket = some rest) {call : ℕ} (hcall : d.answers = some call) :
    s.owed = call :: owed { s with connection := c } := by
  rw [owed_taken hfront hc, hcall]
  rfl

/-- A step that is not the client's own: the call stands where it stood. -/
structure Beside (s t : Service) (out : List ServiceObservation) : Prop where
  control : t.connection.control = s.connection.control
  owed : t.owed = s.owed
  calls : t.calls = s.calls
  daemon : t.daemon = s.daemon
  connected : t.connected = s.connected
  out : out = []

/-- The daemon sends: what is owed stays the same. -/
theorem daemon_step (hs : s.Kept) {d : Datagram} {unanswered : List ℕ}
    (htag : isEvent d.text = d.answers.isNone)
    (hunanswered : d.answers.toList ++ unanswered = s.unanswered)
    (h : { s with unanswered := unanswered }.clientStep (.arrive d) = some (t, out)) :
    t.Kept ∧ Beside s t out := by
  obtain ⟨c, seen, hstep, henter⟩ := clientStep_eq_some h
  simp only [Connection.step] at hstep
  split at hstep
  · rename_i waiting hsocket
    obtain ⟨rfl, rfl⟩ := Prod.mk.inj (Option.some.inj hstep)
    obtain ⟨rfl, rfl⟩ := Prod.mk.inj henter
    exact ⟨hs.arrived hsocket htag hunanswered,
      ⟨rfl, owed_arrived hsocket hunanswered, rfl, rfl, rfl, rfl⟩⟩
  · cases hstep

theorem answer_step {reply : Text} (hs : s.Kept) (h : s.step upper (.answer reply) = some (t, out)) :
    t.Kept ∧ Beside s t out := by
  simp only [step] at h
  split at h
  · cases h
  · rename_i call unanswered hunanswered
    split_ifs at h with hreply
    exact daemon_step hs (by simpa using hreply) hunanswered.symm h

theorem emit_step {message : Text} (hs : s.Kept)
    (h : s.step upper (.emit message) = some (t, out)) : t.Kept ∧ Beside s t out := by
  simp only [step] at h
  split_ifs at h with hmessage
  exact daemon_step hs (by simpa using hmessage.1) rfl h

/-- Time passes. -/
theorem elapse_step {duration : ℚ} (hs : s.Kept)
    (h : s.step upper (.elapse duration) = some (t, out)) : t.Kept ∧ Beside s t out := by
  obtain ⟨c, seen, hstep, henter⟩ := clientStep_eq_some h
  simp only [Connection.step] at hstep
  split_ifs at hstep
  obtain ⟨rfl, rfl⟩ := Prod.mk.inj (Option.some.inj hstep)
  obtain ⟨rfl, rfl⟩ := Prod.mk.inj henter
  exact ⟨⟨hs.control, hs.opened, hs.closed, hs.tagged, hs.bounded⟩, ⟨rfl, rfl, rfl, rfl, rfl, rfl⟩⟩

/-- A step of the client that fails: the call raises. -/
theorem fail_step (hs : s.Kept) (h : s.clientStep .fail = some (t, out)) :
    t.Kept ∧ t.isIdle = true ∧ out = [.completed s.calls none (false, none)] := by
  obtain ⟨c, seen, hstep, henter⟩ := clientStep_eq_some h
  simp only [Connection.step] at hstep
  unfold Connection.fail at hstep
  split at hstep
  case h_6 => cases hstep
  all_goals
    obtain ⟨rfl, rfl⟩ := Prod.mk.inj (Option.some.inj hstep)
    obtain ⟨rfl, rfl⟩ := Prod.mk.inj henter
    exact ⟨hs.raised, rfl, rfl⟩

/-- All a step of the client's own can do to a call. -/
inductive ClientTurn (s : Service) : Service → List ServiceObservation → Prop
  /-- the command is sent -/
  | sent {t : Service} (hcontrol : s.connection.control.deadline? = none)
      (ht : t.connection.control.deadline?.isSome = true)
      (hfresh : t.connection.control.spent = false) (howed : t.owed = s.owed ++ [s.calls])
      (hcalls : t.calls = s.calls) : ClientTurn s t []
  | moved {t : Service}
      (hsame : t.connection.control = s.connection.control ∨
        s.connection.control.deadline?.isSome = true ∧
          t.connection.control.deadline?.isSome = true)
      (hspent : t.connection.control.spent = true →
        s.connection.control.spent = true ∨ s.connection.Expired)
      (howed : t.owed = s.owed) (hcalls : t.calls = s.calls) (hdaemon : t.daemon = s.daemon)
      (hconnected : t.connected = s.connected) : ClientTurn s t []
  | replied {t : Service} {d : Datagram} {call : ℕ}
      (hsent : s.connection.control.deadline?.isSome = true) (ht : t.isIdle = true)
      (hanswers : d.answers = some call) (howed : s.owed = call :: t.owed) :
      ClientTurn s t [.completed s.calls (some d) (commandPair (replyText d.text))]
  | raised {t : Service} (ht : t.isIdle = true)
      (hover : s.connection.Expired ∨ s.connection.control.spent = true) :
      ClientTurn s t [.completed s.calls none (false, none)]

/-- A command is sent: its own reply is owed last. -/
theorem owed_sent {c : Connection Datagram} (hsocket : c.socket = s.connection.socket) :
    owed { s with connection := c, unanswered := s.unanswered ++ [s.calls] } =
      s.owed ++ [s.calls] := by
  show c.waiting.filterMap Datagram.answers ++ (s.unanswered ++ [s.calls]) = _
  rw [Connection.waiting, hsocket, ← List.append_assoc]
  rfl

theorem Kept.sent (hs : s.Kept) {c : Connection Datagram} {command : Text}
    (hsocket : c.socket = s.connection.socket)
    (hcontrol : c.control.request? = some (.request command))
    (hopen : s.connection.socket.isSome = true) (hunsent : s.connection.control.deadline? = none)
    (hsent : c.control.deadline?.isSome = true) :
    Kept { s with connection := c, unanswered := s.unanswered ++ [s.calls] } := by
  have hwaiting : c.waiting = s.connection.waiting := by
    rw [Connection.waiting, hsocket, Connection.waiting]
  refine ⟨Or.inr ⟨command, hcontrol⟩, fun _ => by rw [hsocket, hopen], ?_, ?_, ?_⟩
  · intro h
    rw [← hsocket, show c.socket = none from h] at hopen
    cases hopen
  · show ∀ d ∈ c.waiting, _
    rw [hwaiting]
    exact hs.tagged
  · rw [owed_sent hsocket]
    intro call hcall
    rcases List.mem_append.mp hcall with hcall | hcall
    · exact Or.inl (hs.bounded_lt hunsent hcall)
    · exact Or.inr ⟨List.mem_singleton.mp hcall, hsent⟩

/-- A datagram is taken. -/
theorem Kept.taken (hs : s.Kept) {d : Datagram} {rest : List Datagram}
    (hfront : s.connection.socket = some (d :: rest)) {c : Connection Datagram}
    (hc : c.socket = some rest)
    (hcontrol : c.control = .idle ∨ ∃ command, c.control.request? = some (.request command))
    {calls : ℕ} (hcalls : s.calls ≤ calls)
    (hbounded : s.calls < calls ∨ c.control.deadline?.isSome = true) :
    Kept { s with connection := c, calls := calls } := by
  have hopen : c.socket ≠ none := by simp [hc]
  have htaken : ∀ e ∈ c.waiting, e ∈ s.connection.waiting := by
    rw [Connection.waiting_of_socket hc, Connection.waiting_of_socket hfront]
    exact fun e he => List.mem_cons_of_mem d he
  have howed : ∀ call ∈ owed { s with connection := c }, call ∈ s.owed := by
    rw [owed_taken hfront hc]
    exact fun call hcall => List.mem_append_right _ hcall
  refine ⟨hcontrol, fun _ => Option.isSome_iff_ne_none.mpr hopen, fun h => absurd h hopen,
    fun e he => hs.tagged e (htaken e he), fun call hcall => ?_⟩
  show call < calls ∨ call = calls ∧ _
  have hle := hs.bounded_le (howed call hcall)
  rcases hbounded with hlt | hsent
  · exact Or.inl (by omega)
  · rcases Nat.lt_or_ge call calls with hlt | hge
    · exact Or.inl hlt
    · exact Or.inr ⟨by omega, hsent⟩

/-- A step of the client's own inside a call. -/
theorem run_step (hs : s.Kept) (h : s.clientStep .run = some (t, out)) :
    t.Kept ∧ ClientTurn s t out := by
  obtain ⟨c, seen, hstep, henter⟩ := clientStep_eq_some h
  obtain hidle | ⟨command, hin⟩ := hs.control
  · simp [Connection.step, Connection.run, hidle] at hstep
  · have hopen := hs.opened (Connection.control_ne_idle hin)
    obtain ⟨waiting, hsocket⟩ := Option.isSome_iff_exists.mp hopen
    cases Connection.request_turn hin hsocket (by simp) hstep with
    | arrived ha _ => exact absurd rfl ha
    | @sent timeout _ hcontrol =>
      obtain ⟨rfl, rfl⟩ := Prod.mk.inj henter
      have hunsent : s.connection.control.deadline? = none := by rw [hcontrol]; rfl
      exact ⟨hs.sent rfl rfl hopen hunsent rfl, .sent hunsent rfl rfl (owed_sent rfl) rfl⟩
    | moved _ hcontrol hsame hspent =>
      obtain ⟨rfl, rfl⟩ := Prod.mk.inj henter
      refine ⟨hs.moved rfl hcontrol hopen ?_, .moved hsame hspent rfl rfl rfl rfl⟩
      rcases hsame with hsame | ⟨-, hsent⟩
      · exact fun h => hsame ▸ h
      · exact fun _ => hsent
    | @setAside d rest deadline hdeadline hfront hd =>
      obtain ⟨rfl, rfl⟩ := Prod.mk.inj henter
      have hsent : s.connection.control.deadline?.isSome = true := by rw [hdeadline]; rfl
      have hnone : d.answers = none := by
        have htag := hs.tagged d (by simp [Connection.waiting_of_socket hfront])
        rw [hd] at htag
        exact Option.isNone_iff_eq_none.mp htag.symm
      refine ⟨hs.taken hfront rfl (Or.inr ⟨command, rfl⟩) le_rfl (Or.inr rfl),
        .moved (Or.inr ⟨hsent, rfl⟩) (by simp [Control.spent]) ?_ rfl rfl rfl⟩
      exact owed_setAside hfront (by rfl) hnone
    | @answered d rest attached seen hsent hfront hd _ hquiet =>
      obtain rfl := hquiet command rfl
      obtain ⟨rfl, rfl⟩ := Prod.mk.inj henter
      obtain ⟨call, hcall⟩ : ∃ call, d.answers = some call := by
        have htag := hs.tagged d (by simp [Connection.waiting_of_socket hfront])
        rw [hd, eq_comm, Option.isNone_eq_false_iff] at htag
        exact Option.isSome_iff_exists.mp htag
      refine ⟨hs.taken hfront rfl (Or.inl rfl) (Nat.le_succ _) (Or.inl (Nat.lt_succ_self _)),
        .replied hsent rfl hcall ?_⟩
      exact owed_replied hfront (by rfl) hcall
    | timedOut _ _ hover =>
      obtain ⟨rfl, rfl⟩ := Prod.mk.inj henter
      exact ⟨hs.raised, .raised rfl (Or.inl hover)⟩
    | starved _ hstarved =>
      obtain ⟨rfl, rfl⟩ := Prod.mk.inj henter
      exact ⟨hs.raised, .raised rfl (Or.inr (Connection.spent_of_starved hstarved))⟩

/-- A call begins: it goes on over the open socket, over a new one, or raises. -/
inductive Begun (s : Service) (reachable : Bool) : Service → List ServiceObservation → Prop
  | reused {t : Service} {command : Text} (hopen : s.connection.socket ≠ none)
      (hcontrol : t.connection.control = .sending (.request command) defaultTimeout)
      (howed : t.owed = s.owed) (hcalls : t.calls = s.calls) (hdaemon : t.daemon = s.daemon)
      (hconnected : t.connected = s.connected) : Begun s reachable t []
  | opened {t : Service} {command : Text} (hclosed : s.connection.socket = none)
      (hcontrol : t.connection.control = .sending (.request command) defaultTimeout)
      (howed : t.owed = []) (hcalls : t.calls = s.calls) (hdaemon : t.daemon = s.daemon)
      (hconnected : t.connected = s.daemon) : Begun s reachable t []
  | raised {t : Service} (hclosed : s.connection.socket = none) (hreachable : reachable = false) :
      Begun s reachable t [.completed s.calls none (false, none)]

theorem execute_step {args : List Text} {granted : Bool} (hs : s.Kept)
    (h : s.step upper (.execute args granted) = some (t, out)) :
    t.Kept ∧ s.isIdle = true ∧ Begun s (granted && s.daemon.isSome) t out := by
  obtain ⟨c, seen, hstep, henter⟩ := clientStep_eq_some h
  simp only [Connection.step] at hstep
  split_ifs at hstep with hidle
  have hunsent : s.connection.control.deadline? = none := by rw [hidle]; rfl
  unfold Connection.openSocket at hstep
  split at hstep
  · rename_i waiting hsocket
    obtain ⟨rfl, rfl⟩ := Prod.mk.inj (Option.some.inj hstep)
    obtain ⟨rfl, rfl⟩ := Prod.mk.inj henter
    have hopen : s.connection.socket ≠ none := by simp [hsocket]
    exact ⟨⟨Or.inr ⟨_, rfl⟩, fun _ => Option.isSome_iff_ne_none.mpr hopen, hs.closed, hs.tagged,
      fun call hcall => Or.inl (hs.bounded_lt hunsent hcall)⟩, decide_eq_true hidle,
      .reused hopen rfl rfl rfl rfl rfl⟩
  · rename_i hsocket
    have hnothing := hs.closed hsocket
    split_ifs at hstep with hreachable
    · obtain ⟨rfl, rfl⟩ := Prod.mk.inj (Option.some.inj hstep)
      obtain ⟨rfl, rfl⟩ := Prod.mk.inj henter
      -- nothing is owed over a socket that is new
      refine ⟨⟨Or.inr ⟨_, rfl⟩, fun _ => rfl, fun hclosed => absurd hclosed (by simp),
        fun d hd => absurd hd (by simp [Connection.waiting]), fun call hcall => ?_⟩,
        decide_eq_true hidle, .opened hsocket rfl hnothing rfl rfl rfl⟩
      have hcall : call ∈ s.unanswered := hcall
      rw [hnothing] at hcall
      cases hcall
    · obtain ⟨rfl, rfl⟩ := Prod.mk.inj (Option.some.inj hstep)
      obtain ⟨rfl, rfl⟩ := Prod.mk.inj henter
      exact ⟨hs.raised, decide_eq_true hidle, .raised hsocket (Bool.eq_false_iff.mpr hreachable)⟩

/-- **Every step keeps the wire.** -/
theorem step_kept {a : ServiceAction} (hs : s.Kept) (h : s.step upper a = some (t, out)) :
    t.Kept := by
  cases a with
  | execute args granted => exact (execute_step hs h).1
  | run =>
    simp only [step] at h
    split_ifs at h
    · exact (fail_step hs h).1
    · exact (run_step hs h).1
  | elapse duration => exact (elapse_step hs h).1
  | answer reply => exact (answer_step hs h).1
  | emit message => exact (emit_step hs h).1
  | stop =>
    simp only [step] at h
    split_ifs at h
    obtain ⟨rfl, -⟩ := Prod.mk.inj (Option.some.inj h)
    refine ⟨hs.control, hs.opened, fun _ => rfl, hs.tagged, fun call hcall => hs.bounded call ?_⟩
    exact List.mem_append_left _ (by simpa [owed] using hcall)
  | restart =>
    simp only [step] at h
    split_ifs at h
    obtain ⟨rfl, -⟩ := Prod.mk.inj (Option.some.inj h)
    exact ⟨hs.control, hs.opened, hs.closed, hs.tagged, hs.bounded⟩
  | fail => exact (fail_step hs h).1

end Service

theorem kept_of_reaches {upper : Text → Text} {seen : List ServiceObservation} {s : Service}
    (h : (service upper).Reaches seen s) : s.Kept := by
  refine h.invariant (fun _ s => s.Kept) ?_ fun _ _ _ _ _ _ hs hstep => Service.step_kept hs hstep
  exact ⟨Or.inl rfl, fun hbusy => absurd rfl hbusy, fun _ => rfl,
    fun d hd => absurd hd (by simp [service, Connection.fresh, Connection.waiting]),
    fun call hcall => absurd hcall (by
      simp [service, Service.owed, Connection.fresh, Connection.waiting])⟩

/-! ## A whole call -/

/-- The daemon stays up and answers in time: no system call fails but for a stale socket,
and no step of the client finds its time over. -/
def Prompt (steps : List (Taken Service ServiceAction ServiceObservation)) : Prop :=
  ∀ step ∈ steps, step.action ≠ .stop ∧ step.action ≠ .fail ∧
    (step.action = .run → ¬ step.before.connection.Expired)

deriving instance DecidableEq for ServiceAction

instance (steps : List (Taken Service ServiceAction ServiceObservation)) :
    Decidable (Prompt steps) :=
  inferInstanceAs (Decidable (∀ step ∈ steps, _))

theorem Prompt.tail {step : Taken Service ServiceAction ServiceObservation}
    {steps : List (Taken Service ServiceAction ServiceObservation)} (h : Prompt (step :: steps)) :
    Prompt steps :=
  fun step hstep => h step (List.mem_cons_of_mem _ hstep)

section

variable {upper : Text → Text} {s s' : Service}
  {steps : List (Taken Service ServiceAction ServiceObservation)}

/-- Once the command is sent, a prompt call returns the first reply that is owed. -/
theorem finishes_sent (h : (service upper).Finishes Service.isIdle s steps s') (hs : s.Kept)
    (hsent : s.connection.control.deadline?.isSome = true)
    (hspent : s.connection.control.spent = false) (hprompt : Prompt steps) :
    ∃ d, trace steps = [.completed s.calls (some d) (commandPair (replyText d.text))] ∧
      d.answers = s.owed.head? := by
  induction h with
  | done hidle =>
    have hidle := of_decide_eq_true hidle
    rw [hidle] at hsent
    cases hsent
  | @step s t u a seen steps busy next finish ih =>
    have hkept := Service.step_kept hs next
    -- a step after which the call still waits for the same replies
    have hwaits : t.connection.control.deadline?.isSome = true →
        t.connection.control.spent = false → t.owed = s.owed → t.calls = s.calls → seen = [] →
        ∃ d, trace (⟨s, a, seen⟩ :: steps) =
            [.completed s.calls (some d) (commandPair (replyText d.text))] ∧
          d.answers = s.owed.head? := by
      rintro hsent hspent howed hcalls rfl
      obtain ⟨d, htrace, hanswers⟩ := ih hkept hsent hspent hprompt.tail
      exact ⟨d, by rw [trace_cons, List.nil_append, htrace, hcalls], by rw [hanswers, howed]⟩
    have hbeside : Service.Beside s t seen →
        ∃ d, trace (⟨s, a, seen⟩ :: steps) =
            [.completed s.calls (some d) (commandPair (replyText d.text))] ∧
          d.answers = s.owed.head? := fun h =>
      hwaits (h.control ▸ hsent) (h.control ▸ hspent) h.owed h.calls h.out
    obtain ⟨hstop, hfail, hintime⟩ := hprompt _ List.mem_cons_self
    have hstep : s.step upper a = some (t, seen) := next
    cases a with
    | execute args granted =>
      rw [(Service.execute_step hs hstep).2.1] at busy
      cases busy
    | run =>
      have hstale : s.stale = false := by
        unfold Service.stale
        split
        · rename_i hcontrol
          rw [hcontrol] at hsent
          cases hsent
        · rfl
      simp only [Service.step, hstale, Bool.false_eq_true, if_false] at hstep
      cases (Service.run_step hs hstep).2 with
      | sent hcontrol =>
        rw [hcontrol] at hsent
        cases hsent
      | moved hsame hspent' howed hcalls =>
        refine hwaits ?_ (Bool.eq_false_iff.mpr fun hspent'' => ?_) howed hcalls rfl
        · rcases hsame with hsame | ⟨-, hsent'⟩
          · exact hsame ▸ hsent
          · exact hsent'
        · rcases hspent' hspent'' with hbefore | hover
          · exact absurd hbefore (by simp [hspent])
          · exact hintime rfl hover
      | @replied d call _ ht hanswers howed =>
        obtain ⟨rfl, rfl⟩ := finish.of_idle ht
        exact ⟨d, rfl, by rw [hanswers, howed]; rfl⟩
      | raised ht hover =>
        rcases hover with hover | hbefore
        · exact absurd hover (hintime rfl)
        · exact absurd hbefore (by simp [hspent])
    | elapse duration => exact hbeside (Service.elapse_step hs hstep).2
    | answer reply => exact hbeside (Service.answer_step hs hstep).2
    | emit message => exact hbeside (Service.emit_step hs hstep).2
    | stop => exact absurd rfl hstop
    | restart =>
      simp only [Service.step] at hstep
      split_ifs at hstep
      obtain ⟨rfl, rfl⟩ := Prod.mk.inj (Option.some.inj hstep)
      exact hwaits hsent hspent rfl rfl rfl
    | fail => exact absurd rfl hfail

/-- A prompt call that is about to send: over a stale socket it raises; else it returns
the first reply that is owed once the command is sent. -/
theorem finishes_sending (h : (service upper).Finishes Service.isIdle s steps s') (hs : s.Kept)
    {command : Text} (hcontrol : s.connection.control = .sending (.request command) defaultTimeout)
    (hup : s.daemon.isSome = true) (hprompt : Prompt steps) :
    (s.daemon ≠ s.connected → trace steps = [.completed s.calls none (false, none)]) ∧
      (s.daemon = s.connected → ∃ d,
        trace steps = [.completed s.calls (some d) (commandPair (replyText d.text))] ∧
          d.answers = (s.owed ++ [s.calls]).head?) := by
  induction h with
  | done hidle =>
    have hidle := of_decide_eq_true hidle
    rw [hidle] at hcontrol
    cases hcontrol
  | @step s t u a seen steps busy next finish ih =>
    have hkept := Service.step_kept hs next
    have hbeside : Service.Beside s t seen →
        (s.daemon ≠ s.connected →
          trace (⟨s, a, seen⟩ :: steps) = [.completed s.calls none (false, none)]) ∧
        (s.daemon = s.connected → ∃ d, trace (⟨s, a, seen⟩ :: steps) =
            [.completed s.calls (some d) (commandPair (replyText d.text))] ∧
          d.answers = (s.owed ++ [s.calls]).head?) := by
      rintro ⟨hcontrol', howed, hcalls, hdaemon, hconnected, rfl⟩
      have hrest := ih hkept (hcontrol'.trans hcontrol) (hdaemon ▸ hup) hprompt.tail
      rwa [hdaemon, hconnected, hcalls, howed] at hrest
    obtain ⟨hstop, hfail, -⟩ := hprompt _ List.mem_cons_self
    have hstep : s.step upper a = some (t, seen) := next
    cases a with
    | execute args granted =>
      rw [(Service.execute_step hs hstep).2.1] at busy
      cases busy
    | run =>
      have hstale : s.stale = decide (s.daemon ≠ s.connected) := by
        rw [Service.stale, hcontrol]
      simp only [Service.step] at hstep
      constructor
      · intro hne
        rw [if_pos (by rw [hstale]; exact decide_eq_true hne)] at hstep
        obtain ⟨-, ht, rfl⟩ := Service.fail_step hs hstep
        obtain ⟨rfl, -⟩ := finish.of_idle ht
        rfl
      · intro heq
        rw [if_neg (by simp [hstale, heq])] at hstep
        cases (Service.run_step hs hstep).2 with
        | sent _ hsent hspent howed hcalls =>
          obtain ⟨d, htrace, hanswers⟩ := finishes_sent finish hkept hsent hspent hprompt.tail
          exact ⟨d, by rw [trace_cons, List.nil_append, htrace, hcalls], by rw [hanswers, howed]⟩
        | moved hsame hspent howed hcalls hdaemon hconnected =>
          have hsame : t.connection.control = s.connection.control := by
            rcases hsame with hsame | ⟨hsent, -⟩
            · exact hsame
            · rw [hcontrol] at hsent
              cases hsent
          exact (hbeside ⟨hsame, howed, hcalls, hdaemon, hconnected, rfl⟩).2 heq
        | replied hsent =>
          rw [hcontrol] at hsent
          cases hsent
        | raised ht hover =>
          rcases hover with ⟨deadline, hdeadline, -⟩ | hspent
          · rw [hcontrol] at hdeadline
            cases hdeadline
          · rw [hcontrol] at hspent
            cases hspent
    | elapse duration => exact hbeside (Service.elapse_step hs hstep).2
    | answer reply => exact hbeside (Service.answer_step hs hstep).2
    | emit message => exact hbeside (Service.emit_step hs hstep).2
    | stop => exact absurd rfl hstop
    | restart => simp [Service.step, hup] at hstep
    | fail => exact absurd rfl hfail

/-- The call returned the pair of the daemon's reply to this very command. -/
def OwnReply (s : Service) (steps : List (Taken Service ServiceAction ServiceObservation)) : Prop :=
  ∃ d : Datagram, d.answers = some s.calls ∧
    trace steps = [.completed s.calls (some d) (commandPair (replyText d.text))]

/-- **When a reused connection is transparent.**  After any history, with the daemon up
and answering in time, `execute_command` returns the pair of the daemon's reply to its
command exactly when it opens a connection for it, or its connection is to the daemon
that is up and no earlier call is owed a reply over it. -/
theorem execute_command_transparent_iff {seen : List ServiceObservation} {args : List Text}
    (hrun : (service upper).Reaches seen s) (hup : s.daemon.isSome = true)
    (hcall : (service upper).Call Service.isIdle (.execute args true) s steps s')
    (hprompt : Prompt steps) :
    OwnReply s steps ↔
      s.connection.socket = none ∨ (s.connected = s.daemon ∧ s.owed = []) := by
  have hs := kept_of_reaches hrun
  obtain ⟨next, finish⟩ := hcall
  rename_i t out steps
  obtain ⟨hkept, hidle, hbegun⟩ := Service.execute_step hs next
  unfold OwnReply
  rw [trace_cons]
  cases hbegun with
  | opened hclosed hcontrol howed hcalls hdaemon hconnected =>
    obtain ⟨d, htrace, hanswers⟩ := (finishes_sending finish hkept hcontrol (hdaemon ▸ hup)
      hprompt.tail).2 (hdaemon.trans hconnected.symm)
    rw [howed, hcalls] at hanswers
    exact iff_of_true ⟨d, hanswers, by rw [htrace, hcalls]; rfl⟩ (Or.inl hclosed)
  | raised _ hreachable =>
    rw [hup] at hreachable
    cases hreachable
  | reused hopen hcontrol howed hcalls hdaemon hconnected =>
    obtain ⟨hstale, hlinked⟩ := finishes_sending finish hkept hcontrol (hdaemon ▸ hup) hprompt.tail
    rw [hdaemon, hconnected, hcalls] at hstale hlinked
    rw [howed] at hlinked
    by_cases hsame : s.daemon = s.connected
    · obtain ⟨d, htrace, hanswers⟩ := hlinked hsame
      cases hearlier : s.owed with
      | nil =>
        rw [hearlier] at hanswers
        exact iff_of_true ⟨d, hanswers, htrace⟩ (Or.inr ⟨hsame.symm, rfl⟩)
      | cons call rest =>
        -- the first reply is for an earlier call
        have hlt : call < s.calls := by
          have hidle : s.connection.control = .idle := of_decide_eq_true hidle
          exact hs.bounded_lt (by rw [hidle]; rfl) (by rw [hearlier]; exact List.mem_cons_self)
        refine iff_of_false ?_ (by simp [hopen])
        rintro ⟨d', hanswers', htrace'⟩
        rw [List.nil_append, htrace] at htrace'
        have hsame : d = d' := by
          injection List.head_eq_of_cons_eq htrace' with _ hreply _
          exact Option.some.inj hreply
        rw [← hsame, hanswers, hearlier] at hanswers'
        have heq : call = s.calls := by simpa using hanswers'
        omega
    · refine iff_of_false ?_ ?_
      · rintro ⟨d, -, htrace⟩
        rw [hstale hsame] at htrace
        simp at htrace
      · rintro (hclosed | ⟨hconnected, -⟩)
        · exact hopen hclosed
        · exact hsame hconnected.symm

end

/-- After a daemon that refused a first command, with nothing owed. -/
theorem execute_command_transparent_iff_second :
    ∃ seen s steps s', (service id).Reaches seen s ∧
      (service id).Call Service.isIdle (.execute ["PING".toList] true) s steps s' ∧
        OwnReply s steps := by
  have hrun : ((service id).run (service id).start
      [.restart, .execute ["SCAN".toList] true, .run, .answer "FAIL-BUSY\n".toList, .run, .run]).bind
        (fun reached =>
          ((service id).call? Service.isIdle (.execute ["PING".toList] true) reached.1
            [.run, .run, .answer "PONG\n".toList, .run]).map fun result =>
              decide ((reached.1.daemon.isSome = true ∧ reached.1.connected = reached.1.daemon ∧
                reached.1.owed = []) ∧ Prompt result.1)) = some true := by
    decide +kernel
  obtain ⟨⟨s, seen⟩, hreached, hcall⟩ := Option.bind_eq_some_iff.mp hrun
  obtain ⟨⟨steps, s'⟩, hresult, hall⟩ := Option.map_eq_some_iff.mp hcall
  obtain ⟨⟨hup, hsame, hnone⟩, hprompt⟩ := of_decide_eq_true hall
  have hreaches := reaches_of_run hreached
  have hcall := call_of_call? hresult
  exact ⟨seen, s, steps, s', hreaches, hcall,
    (execute_command_transparent_iff hreaches hup hcall hprompt).mpr (Or.inr ⟨hsame, hnone⟩)⟩

/-- The daemon answered once, was stopped and was started again. -/
theorem restarted_daemon_not_reached : ¬ ∀ seen s, (service id).Reaches seen s →
    s.daemon.isSome = true → ∀ args steps s',
      (service id).Call Service.isIdle (.execute args true) s steps s' → Prompt steps →
        OwnReply s steps := by
  intro h
  have hrun : ((service id).run (service id).start
      [.restart, .execute ["PING".toList] true, .run, .run, .answer "PONG\n".toList, .run, .stop,
        .restart]).bind
        (fun reached =>
          ((service id).call? Service.isIdle (.execute ["PING".toList] true) reached.1 [.run]).map
            fun result =>
              decide (reached.1.daemon.isSome = true ∧ Prompt result.1 ∧
                trace result.1 = [.completed 1 none (false, none)])) = some true := by
    decide +kernel
  obtain ⟨⟨s, seen⟩, hreached, hcall⟩ := Option.bind_eq_some_iff.mp hrun
  obtain ⟨⟨steps, s'⟩, hresult, hall⟩ := Option.map_eq_some_iff.mp hcall
  obtain ⟨hup, hprompt, htrace⟩ := of_decide_eq_true hall
  obtain ⟨d, -, hown⟩ :=
    h seen s (reaches_of_run hreached) hup _ steps s' (call_of_call? hresult) hprompt
  rw [htrace] at hown
  simp at hown

end WpaCtrl
