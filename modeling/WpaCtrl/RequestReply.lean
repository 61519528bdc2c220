/-
# Whose reply `request` returns

The wire carries no request numbers, so a reply is matched to a command by its place
in the stream alone.  This module puts the connection beside a daemon that answers
every command with one reply, in the order of the commands and after any delay, and
numbers the calls; a datagram carries, unseen by the client, the call it answers.

A call that times out leaves its reply owed, and the next call to return gets it.

* `request_returns_own_reply_iff` : in every run, a call that returns has the reply
  to its own command exactly when no earlier reply was owed as the command was sent.
-/
import WpaCtrl.EventStream

open Text

namespace WpaCtrl

/-! ## The exchange -/

/-- A datagram of the daemon, with the number of the call it answers if it is a
reply. -/
structure Datagram where
  text : Text
  answers : Option ℕ
  deriving DecidableEq

/-- One open connection and the daemon at its other end. -/
structure Exchange where
  connection : Connection Datagram
  /-- the calls whose command the daemon has received and not answered -/
  unanswered : List ℕ
  /-- how many commands were sent -/
  calls : ℕ
  deriving DecidableEq

inductive ExchangeAction where
  | request (command : Text) (timeout : ℚ)
  | run
  | elapse (duration : ℚ)
  /-- the daemon answers the oldest command -/
  | answer (reply : Text)
  /-- the daemon sends an event -/
  | emit (message : Text)

inductive ExchangeObservation where
  /-- the command of a call was sent while these calls were owed a reply -/
  | asked (call : ℕ) (owed : List ℕ)
  /-- a call returned this datagram -/
  | answered (call : ℕ) (datagram : Datagram)
  deriving DecidableEq

namespace Exchange

/-- The calls that are owed a reply: those whose reply waits in the socket, and those
the daemon has not answered. -/
def owed (s : Exchange) : List ℕ :=
  s.connection.waiting.filterMap Datagram.answers ++ s.unanswered

/-- The daemon receives a command; a call returns. -/
def enter (s : Exchange) : Observation Datagram → Exchange × List ExchangeObservation
  | .sent _ =>
    ({ s with unanswered := s.unanswered ++ [s.calls], calls := s.calls + 1 },
      [.asked s.calls s.owed])
  | .returned _ d => (s, [.answered (s.calls - 1) d])
  | _ => (s, [])

/-- Enter what was observed, in order. -/
def enterAll (s : Exchange) : List (Observation Datagram) → Exchange × List ExchangeObservation
  | [] => (s, [])
  | o :: seen =>
    let (s', out) := s.enter o
    let (s'', out') := s'.enterAll seen
    (s'', out ++ out')

/-- The connection makes a step. -/
def clientStep (s : Exchange) (action : Action Datagram) :
    Option (Exchange × List ExchangeObservation) :=
  match s.connection.step Datagram.text action with
  | none => none
  | some (connection, seen) => some ({ s with connection := connection }.enterAll seen)

/-- One step of the exchange: `request` calls only, and the daemon. -/
def step (s : Exchange) : ExchangeAction → Option (Exchange × List ExchangeObservation)
  | .request command timeout => s.clientStep (.request (.request command) timeout true)
  | .run => s.clientStep .run
  | .elapse duration => s.clientStep (.elapse duration)
  | .answer reply =>
    match s.unanswered with
    | [] => none
    | call :: unanswered =>
      if isEvent reply then none
      else { s with unanswered := unanswered }.clientStep (.arrive ⟨reply, some call⟩)
  | .emit message =>
    if isEvent message then s.clientStep (.arrive ⟨message, none⟩) else none

end Exchange

/-- The exchange over one connection, from the moment it is open. -/
def exchanges : Machine Exchange ExchangeAction ExchangeObservation :=
  ⟨⟨{ (Connection.fresh : Connection Datagram) with socket := some [] }, [], 0⟩, Exchange.step⟩

/-! ## What a step of `request` can do -/

/-- Inside the loop of `request`. -/
def Control.awaiting : Control → Bool
  | polling _ _ | receiving _ _ _ | rechecking _ _ => true
  | _ => false

/-- Outside every method, or in a `request` of a caller. -/
def Control.inRequest : Control → Bool
  | idle | sending (.request _) _ | polling (.request _) _ | receiving (.request _) _ _
  | rechecking (.request _) _ => true
  | _ => false

/-- An observation the exchange takes no notice of. -/
def Observation.unnoticed {δ : Type} : Observation δ → Bool
  | sent _ | returned _ _ => false
  | _ => true

/-- All a step can do to the datagrams in the socket while `request` is called. -/
inductive RequestEffect (c c' : Connection Datagram) : List (Observation Datagram) → Prop
  | moved {seen : List (Observation Datagram)} (hwaiting : c'.waiting = c.waiting)
      (hawait : c'.control.awaiting = true → c.control.awaiting = true)
      (hseen : ∀ o ∈ seen, o.unnoticed = true) : RequestEffect c c' seen
  | sent {command : Text} (hwaiting : c'.waiting = c.waiting) : RequestEffect c c' [.sent command]
  | heard {d : Datagram} (hwaiting : c.waiting = d :: c'.waiting) (hd : isEvent d.text = true)
      (hawait : c.control.awaiting = true) : RequestEffect c c' []
  | replied {d : Datagram} {purpose : Purpose} (hwaiting : c.waiting = d :: c'.waiting)
      (hd : isEvent d.text = false) (hawait : c.control.awaiting = true)
      (hidle : c'.control.awaiting = false) : RequestEffect c c' [.returned purpose d]

/-- Where a `request` of a caller can stand. -/
theorem inRequest_cases {control : Control} (h : control.inRequest = true) :
    control = .idle ∨ (∃ command timeout, control = .sending (.request command) timeout) ∨
      (∃ command deadline, control = .polling (.request command) deadline) ∨
      (∃ command deadline blocking, control = .receiving (.request command) deadline blocking) ∨
      ∃ command deadline, control = .rechecking (.request command) deadline := by
  unfold Control.inRequest at h
  split at h <;> simp_all

section
variable {c c' : Connection Datagram} {seen : List (Observation Datagram)}

theorem raise_requestEffect {error : ClientError} (h : c.raise error = some (c', seen)) :
    RequestEffect c c' seen ∧ c'.control.inRequest = true := by
  obtain ⟨rfl, rfl⟩ := Prod.mk.inj (Option.some.inj h)
  exact ⟨.moved rfl (by simp [Control.awaiting]) (by simp [Observation.unnoticed]), rfl⟩

theorem move_requestEffect {control : Control} (hcontrol : control.inRequest = true)
    (hawait : control.awaiting = true → c.control.awaiting = true)
    (h : some ({ c with control := control }, []) = some (c', seen)) :
    RequestEffect c c' seen ∧ c'.control.inRequest = true := by
  obtain ⟨rfl, rfl⟩ := Prod.mk.inj (Option.some.inj h)
  exact ⟨.moved rfl hawait (by simp), hcontrol⟩

theorem run_requestEffect (hc : c.control.inRequest = true)
    (h : c.run Datagram.text = some (c', seen)) :
    RequestEffect c c' seen ∧ c'.control.inRequest = true := by
  unfold Connection.run at h
  obtain hcontrol | ⟨command, timeout, hcontrol⟩ | ⟨command, deadline, hcontrol⟩ |
    ⟨command, deadline, blocking, hcontrol⟩ | ⟨command, deadline, hcontrol⟩ := inRequest_cases hc <;>
    simp only [hcontrol] at h
  case inl => simp at h
  case inr.inl =>
    split at h
    · exact raise_requestEffect h
    · obtain ⟨rfl, rfl⟩ := Prod.mk.inj (Option.some.inj h)
      exact ⟨.sent rfl, rfl⟩
  case inr.inr.inl =>
    exact move_requestEffect rfl (by simp [hcontrol, Control.awaiting]) h
  case inr.inr.inr.inl =>
    have hawait : c.control.awaiting = true := by rw [hcontrol]; rfl
    split at h
    · simp at h
    · exact raise_requestEffect h
    · rename_i d rest hreceive
      have hwaiting := Connection.waiting_of_socket (Connection.receive?_ok hreceive)
      split at h
      case isTrue hd =>
        obtain ⟨rfl, rfl⟩ := Prod.mk.inj (Option.some.inj h)
        exact ⟨.heard hwaiting hd hawait, rfl⟩
      case isFalse hd =>
        obtain ⟨rfl, rfl⟩ := Prod.mk.inj (Option.some.inj h)
        exact ⟨.replied hwaiting (by simpa using hd) hawait rfl, rfl⟩
  case inr.inr.inr.inr =>
    split at h
    · exact raise_requestEffect h
    · exact move_requestEffect rfl (by simp [hcontrol, Control.awaiting]) h

theorem request_requestEffect {command : Text} {timeout : ℚ}
    (h : c.step Datagram.text (.request (.request command) timeout true) = some (c', seen)) :
    RequestEffect c c' seen ∧ c'.control.inRequest = true := by
  simp only [Connection.step] at h
  split at h
  · unfold Connection.openSocket at h
    split at h
    · exact move_requestEffect rfl (by simp [Control.awaiting]) h
    · rename_i hsocket
      obtain ⟨rfl, rfl⟩ := Prod.mk.inj (Option.some.inj h)
      refine ⟨.moved ?_ (by simp [Control.awaiting]) (by simp [Observation.unnoticed]), rfl⟩
      simp [Connection.waiting, hsocket]
  · simp at h

theorem elapse_requestEffect {duration : ℚ} (hc : c.control.inRequest = true)
    (h : c.step Datagram.text (.elapse duration) = some (c', seen)) :
    RequestEffect c c' seen ∧ c'.control.inRequest = true := by
  simp only [Connection.step] at h
  split at h
  · obtain ⟨rfl, rfl⟩ := Prod.mk.inj (Option.some.inj h)
    exact ⟨.moved rfl (fun h => h) (by simp), hc⟩
  · simp at h

/-- An arriving datagram waits behind the others. -/
theorem arrive_eq {d : Datagram} (h : c.step Datagram.text (.arrive d) = some (c', seen)) :
    c'.waiting = c.waiting ++ [d] ∧ c'.control = c.control ∧ seen = [.arrived d] := by
  simp only [Connection.step] at h
  split at h
  · rename_i waiting hsocket
    obtain ⟨rfl, rfl⟩ := Prod.mk.inj (Option.some.inj h)
    exact ⟨by simp [Connection.waiting, hsocket], rfl, rfl⟩
  · simp at h

end

/-! ## Replies stay in order -/

/-- Owed replies are in the order of the calls, and a call in progress is the last. -/
structure InOrder (trace : List ExchangeObservation) (s : Exchange) : Prop where
  inRequest : s.connection.control.inRequest = true
  /-- the events are the datagrams that answer nothing -/
  tagged : ∀ d ∈ s.connection.waiting, isEvent d.text = d.answers.isNone
  increasing : s.owed.Pairwise (· < ·)
  bounded : ∀ call ∈ s.owed, call < s.calls
  /-- what was owed when the command in progress was sent still is, before its reply -/
  awaiting : s.connection.control.awaiting = true →
    ∃ call owed, s.calls = call + 1 ∧ .asked call owed ∈ trace ∧ s.owed = owed ++ [call]
  asked : ∀ call owed, .asked call owed ∈ trace → call < s.calls
  unique : ∀ call owed owed', .asked call owed ∈ trace → .asked call owed' ∈ trace → owed = owed'
  answered : ∀ call d, .answered call d ∈ trace →
    ∃ owed, .asked call owed ∈ trace ∧ (d.answers = some call ↔ owed = [])

namespace Exchange

theorem enterAll_unnoticed (s : Exchange) {seen : List (Observation Datagram)}
    (h : ∀ o ∈ seen, o.unnoticed = true) : s.enterAll seen = (s, []) := by
  induction seen with
  | nil => rfl
  | cons o seen ih =>
    have ho : s.enter o = (s, []) := by
      have hquiet := h o (by simp)
      cases o <;> first | rfl | simp [Observation.unnoticed] at hquiet
    rw [enterAll, ho]
    show ((s.enterAll seen).1, [] ++ (s.enterAll seen).2) = (s, [])
    rw [ih fun p hp => h p (by simp [hp])]
    rfl

theorem owed_eq_of_waiting (s : Exchange) {c : Connection Datagram}
    (h : c.waiting = s.connection.waiting) : { s with connection := c }.owed = s.owed := by
  show c.waiting.filterMap Datagram.answers ++ s.unanswered = s.owed
  rw [h]
  rfl

end Exchange

variable {trace : List ExchangeObservation} {s : Exchange} {c : Connection Datagram}
  {seen : List (Observation Datagram)}

namespace InOrder

/-- Nothing was sent, nothing returned, and the owed replies are the same. -/
theorem of_owed_eq (hs : InOrder trace s) (s' : Exchange)
    (hrequest : s'.connection.control.inRequest = true)
    (htagged : ∀ d ∈ s'.connection.waiting, isEvent d.text = d.answers.isNone)
    (howed : s'.owed = s.owed) (hcalls : s'.calls = s.calls)
    (hawait : s'.connection.control.awaiting = true → s.connection.control.awaiting = true) :
    InOrder trace s' where
  inRequest := hrequest
  tagged := htagged
  increasing := howed ▸ hs.increasing
  bounded := by
    rw [howed, hcalls]
    exact hs.bounded
  awaiting := fun h => by
    rw [howed, hcalls]
    exact hs.awaiting (hawait h)
  asked := by
    rw [hcalls]
    exact hs.asked
  unique := hs.unique
  answered := hs.answered

/-- A command is sent: what is owed is recorded, and its own reply is owed last. -/
theorem sent (hs : InOrder trace s) (hrequest : c.control.inRequest = true)
    (hwaiting : c.waiting = s.connection.waiting) :
    InOrder (trace ++ [.asked s.calls s.owed])
      ⟨c, s.unanswered ++ [s.calls], s.calls + 1⟩ := by
  have howed : Exchange.owed ⟨c, s.unanswered ++ [s.calls], s.calls + 1⟩ =
      s.owed ++ [s.calls] := by
    show c.waiting.filterMap Datagram.answers ++ (s.unanswered ++ [s.calls]) = s.owed ++ [s.calls]
    rw [hwaiting, ← List.append_assoc]
    rfl
  constructor
  · exact hrequest
  · show ∀ d ∈ c.waiting, isEvent d.text = d.answers.isNone
    rw [hwaiting]
    exact hs.tagged
  · rw [howed, List.pairwise_append]
    refine ⟨hs.increasing, List.pairwise_singleton _ _, fun call hcall last hlast => ?_⟩
    rw [List.mem_singleton.mp hlast]
    exact hs.bounded call hcall
  · rw [howed]
    intro call hcall
    show call < s.calls + 1
    rcases List.mem_append.mp hcall with hcall | hcall
    · exact Nat.lt_succ_of_lt (hs.bounded call hcall)
    · rw [List.mem_singleton.mp hcall]
      omega
  · intro _
    exact ⟨s.calls, s.owed, rfl, by simp, howed⟩
  · intro call owed hasked
    show call < s.calls + 1
    rcases List.mem_append.mp hasked with hasked | hasked
    · exact Nat.lt_succ_of_lt (hs.asked call owed hasked)
    · obtain ⟨rfl, -⟩ := ExchangeObservation.asked.inj (List.mem_singleton.mp hasked)
      omega
  · intro call owed owed' h h'
    -- the number of the new call is fresh
    rcases List.mem_append.mp h with h | h <;> rcases List.mem_append.mp h' with h' | h'
    · exact hs.unique call owed owed' h h'
    · obtain ⟨rfl, -⟩ := ExchangeObservation.asked.inj (List.mem_singleton.mp h')
      exact absurd (hs.asked _ _ h) (by omega)
    · obtain ⟨rfl, -⟩ := ExchangeObservation.asked.inj (List.mem_singleton.mp h)
      exact absurd (hs.asked _ _ h') (by omega)
    · obtain ⟨-, rfl⟩ := ExchangeObservation.asked.inj (List.mem_singleton.mp h)
      obtain ⟨-, rfl⟩ := ExchangeObservation.asked.inj (List.mem_singleton.mp h')
      rfl
  · intro call d hanswered
    rcases List.mem_append.mp hanswered with hanswered | hanswered
    · obtain ⟨owed, hasked, hiff⟩ := hs.answered call d hanswered
      exact ⟨owed, by simp [hasked], hiff⟩
    · simp at hanswered

/-- A call returns: it takes the first reply owed, which is its own exactly when no
other was owed before it. -/
theorem replied (hs : InOrder trace s) (hrequest : c.control.inRequest = true) {d : Datagram}
    (hwaiting : s.connection.waiting = d :: c.waiting) (hd : isEvent d.text = false)
    (hawait : s.connection.control.awaiting = true) (hidle : c.control.awaiting = false) :
    InOrder (trace ++ [.answered (s.calls - 1) d]) { s with connection := c } := by
  have htag := hs.tagged d (by rw [hwaiting]; simp)
  rw [hd] at htag
  obtain ⟨first, hfirst⟩ : ∃ first, d.answers = some first := by
    rcases hanswers : d.answers with _ | first
    · simp [hanswers] at htag
    · exact ⟨first, rfl⟩
  have howed : s.owed = first :: ({ s with connection := c } : Exchange).owed := by
    show s.connection.waiting.filterMap Datagram.answers ++ s.unanswered =
      first :: (c.waiting.filterMap Datagram.answers ++ s.unanswered)
    rw [hwaiting, List.filterMap_cons_some hfirst, List.cons_append]
  obtain ⟨call, owed, hcalls, hasked, hlast⟩ := hs.awaiting hawait
  -- the first reply owed is this call's own exactly if none was owed before it
  have hown : d.answers = some call ↔ owed = [] := by
    rw [hfirst, Option.some.injEq]
    rcases owed with _ | ⟨other, owed⟩
    · rw [howed] at hlast
      simpa using (List.cons.inj hlast).1
    · -- an earlier call is owed its reply first
      have hincreasing := hs.increasing
      rw [hlast, List.cons_append, List.pairwise_cons] at hincreasing
      have hlt : other < call := hincreasing.1 call (by simp)
      rw [howed] at hlast
      have heq : first = other := (List.cons.inj hlast).1
      constructor
      · intro h
        omega
      · intro h
        simp at h
  have hincreasing := hs.increasing
  rw [howed, List.pairwise_cons] at hincreasing
  constructor
  · exact hrequest
  · intro e he
    exact hs.tagged e (by rw [hwaiting]; exact List.mem_cons_of_mem d he)
  · exact hincreasing.2
  · intro n hn
    exact hs.bounded n (by rw [howed]; exact List.mem_cons_of_mem first hn)
  · intro h
    rw [show ({ s with connection := c } : Exchange).connection.control.awaiting = false from hidle]
      at h
    exact absurd h (by decide)
  · intro n o h
    exact hs.asked n o (by simpa using h)
  · intro n o o' h h'
    exact hs.unique n o o' (by simpa using h) (by simpa using h')
  · intro n e h
    rcases List.mem_append.mp h with h | h
    · obtain ⟨o, ho, hiff⟩ := hs.answered n e h
      exact ⟨o, by simp [ho], hiff⟩
    · obtain ⟨rfl, rfl⟩ := ExchangeObservation.answered.inj (List.mem_singleton.mp h)
      have hcall : s.calls - 1 = call := by omega
      rw [hcall]
      exact ⟨owed, by simp [hasked], hown⟩

/-- A step of the client keeps the order. -/
theorem requestEffect (hs : InOrder trace s) (hrequest : c.control.inRequest = true)
    (heffect : RequestEffect s.connection c seen) :
    InOrder (trace ++ ({ s with connection := c }.enterAll seen).2)
      ({ s with connection := c }.enterAll seen).1 := by
  cases heffect with
  | moved hwaiting hawait hseen =>
    rw [Exchange.enterAll_unnoticed _ hseen, List.append_nil]
    refine hs.of_owed_eq _ hrequest ?_ (s.owed_eq_of_waiting hwaiting) rfl hawait
    rw [show ({ s with connection := c } : Exchange).connection.waiting = s.connection.waiting
      from hwaiting]
    exact hs.tagged
  | sent hwaiting =>
    have howed := s.owed_eq_of_waiting hwaiting
    have hsent := hs.sent hrequest hwaiting
    rw [← howed] at hsent
    exact hsent
  | @heard d hwaiting hd hawait =>
    -- an event answers no call, so what is owed stays the same
    have htag := hs.tagged d (by rw [hwaiting]; simp)
    have hnone : d.answers = none := by
      rw [hd] at htag
      exact Option.isNone_iff_eq_none.mp htag.symm
    refine (List.append_nil trace).symm ▸ hs.of_owed_eq _ hrequest ?_ ?_ rfl fun _ => hawait
    · intro e he
      exact hs.tagged e (by rw [hwaiting]; exact List.mem_cons_of_mem d he)
    · show c.waiting.filterMap Datagram.answers ++ s.unanswered =
        s.connection.waiting.filterMap Datagram.answers ++ s.unanswered
      rw [hwaiting, List.filterMap_cons_none hnone]
  | replied hwaiting hd hawait hidle => exact hs.replied hrequest hwaiting hd hawait hidle

/-- A datagram of the daemon arrives: what is owed does not change. -/
theorem arrived (hs : InOrder trace s) {d : Datagram} {unanswered : List ℕ}
    (htag : isEvent d.text = d.answers.isNone)
    (hunanswered : d.answers.toList ++ unanswered = s.unanswered)
    (hwaiting : c.waiting = s.connection.waiting ++ [d])
    (hcontrol : c.control = s.connection.control) :
    InOrder trace { s with connection := c, unanswered := unanswered } := by
  refine hs.of_owed_eq { s with connection := c, unanswered := unanswered } ?_ ?_ ?_ rfl ?_
  · show c.control.inRequest = true
    rw [hcontrol]
    exact hs.inRequest
  · show ∀ e ∈ c.waiting, isEvent e.text = e.answers.isNone
    rw [hwaiting]
    intro e he
    rcases List.mem_append.mp he with he | he
    · exact hs.tagged e he
    · rw [List.mem_singleton.mp he]
      exact htag
  · show c.waiting.filterMap Datagram.answers ++ unanswered =
      s.connection.waiting.filterMap Datagram.answers ++ s.unanswered
    have hone : [d].filterMap Datagram.answers = d.answers.toList := rfl
    rw [hwaiting, List.filterMap_append, List.append_assoc, hone, hunanswered]
  · show c.control.awaiting = true → s.connection.control.awaiting = true
    rw [hcontrol]
    exact fun h => h

end InOrder

/-! ## Runs of the exchange -/

theorem Exchange.clientStep_eq_some {action : Action Datagram} {s' : Exchange}
    {out : List ExchangeObservation} (h : s.clientStep action = some (s', out)) :
    ∃ c seen, s.connection.step Datagram.text action = some (c, seen) ∧
      ({ s with connection := c } : Exchange).enterAll seen = (s', out) := by
  unfold Exchange.clientStep at h
  split at h
  · simp at h
  · rename_i c seen hstep
    exact ⟨c, seen, hstep, Option.some.inj h⟩

/-- A step of the client keeps the replies in order. -/
theorem InOrder.clientStep {action : Action Datagram} {s' : Exchange}
    {out : List ExchangeObservation} (hs : InOrder trace s)
    (h : s.clientStep action = some (s', out))
    (heffect : ∀ c seen, s.connection.step Datagram.text action = some (c, seen) →
      RequestEffect s.connection c seen ∧ c.control.inRequest = true) :
    InOrder (trace ++ out) s' := by
  obtain ⟨c, seen, hstep, hout⟩ := Exchange.clientStep_eq_some h
  obtain ⟨heffect, hrequest⟩ := heffect c seen hstep
  have hnext := hs.requestEffect hrequest heffect
  rwa [hout] at hnext

/-- So does a datagram of the daemon. -/
theorem InOrder.daemonStep {d : Datagram} {unanswered : List ℕ} {s' : Exchange}
    {out : List ExchangeObservation} (hs : InOrder trace s)
    (htag : isEvent d.text = d.answers.isNone)
    (hunanswered : d.answers.toList ++ unanswered = s.unanswered)
    (h : { s with unanswered := unanswered }.clientStep (.arrive d) = some (s', out)) :
    InOrder (trace ++ out) s' := by
  obtain ⟨c, seen, hstep, hout⟩ := Exchange.clientStep_eq_some h
  obtain ⟨hwaiting, hcontrol, rfl⟩ := arrive_eq hstep
  obtain ⟨rfl, rfl⟩ := Prod.mk.inj hout
  rw [List.append_nil, List.append_nil]
  exact hs.arrived htag hunanswered hwaiting hcontrol

/-- **Every step keeps the replies in order.** -/
theorem InOrder.step {action : ExchangeAction} {s' : Exchange} {out : List ExchangeObservation}
    (hs : InOrder trace s) (h : s.step action = some (s', out)) : InOrder (trace ++ out) s' := by
  cases action with
  | request command timeout => exact hs.clientStep h fun _ _ => request_requestEffect
  | run => exact hs.clientStep h fun _ _ => run_requestEffect hs.inRequest
  | elapse duration => exact hs.clientStep h fun _ _ => elapse_requestEffect hs.inRequest
  | answer reply =>
    simp only [Exchange.step] at h
    split at h
    · simp at h
    · rename_i call unanswered hunanswered
      split at h
      · simp at h
      · rename_i hreply
        exact hs.daemonStep (by simpa using hreply) hunanswered.symm h
  | emit message =>
    simp only [Exchange.step] at h
    split at h
    · rename_i hmessage
      exact hs.daemonStep (by simpa using hmessage) rfl h
    · simp at h

theorem inOrder_of_reaches (h : exchanges.Reaches trace s) : InOrder trace s := by
  apply h.invariant InOrder
  · constructor
    · rfl
    · simp [exchanges, Connection.waiting]
    · simp [exchanges, Exchange.owed, Connection.waiting]
    · simp [exchanges, Exchange.owed, Connection.waiting]
    · simp [exchanges, Connection.fresh, Control.awaiting]
    · simp
    · simp
    · simp
  · intro trace s action s' out run hs hstep
    exact hs.step hstep

/-- **Whose reply a call returns.**  In every run of requests on an open connection,
with any timeouts, delays and events in between: a call that returns has sent its
command, and has the reply to it exactly when no reply was owed as it was sent.  So
where every command is sent with no reply owed, every call that returns has its own. -/
theorem request_returns_own_reply_iff {trace : List ExchangeObservation} {s : Exchange}
    (h : exchanges.Reaches trace s) :
    (∀ call d, .answered call d ∈ trace → (∃ owed, .asked call owed ∈ trace) ∧
        ∀ owed, .asked call owed ∈ trace → (d.answers = some call ↔ owed = [])) ∧
      ((∀ call owed, .asked call owed ∈ trace → owed = []) →
        ∀ call d, .answered call d ∈ trace → d.answers = some call) := by
  have hs := inOrder_of_reaches h
  constructor
  · intro call d hanswered
    obtain ⟨owed, hasked, hiff⟩ := hs.answered call d hanswered
    refine ⟨⟨owed, hasked⟩, fun owed' hasked' => ?_⟩
    rwa [hs.unique call owed' owed hasked' hasked]
  · intro hnone call d hanswered
    obtain ⟨owed, hasked, hiff⟩ := hs.answered call d hanswered
    exact hiff.mpr (hnone call owed hasked)

/-- Two calls, with an event ahead of the first reply: each returns its own. -/
theorem request_returns_own_reply_iff_two_calls :
    let trace : List ExchangeObservation :=
      [.asked 0 [], .answered 0 ⟨"PONG\n".toList, some 0⟩, .asked 1 [],
        .answered 1 ⟨"OK\n".toList, some 1⟩]
    (∀ call d, .answered call d ∈ trace → (∃ owed, .asked call owed ∈ trace) ∧
        ∀ owed, .asked call owed ∈ trace → (d.answers = some call ↔ owed = [])) ∧
      ∀ call d, .answered call d ∈ trace → d.answers = some call := by
  intro trace
  have hrun : exchanges.run exchanges.start
      [.request "PING".toList 5, .run, .emit "<3>CTRL-EVENT-SCAN-STARTED ".toList,
        .answer "PONG\n".toList, .run, .run, .run, .run, .run,
        .request "SCAN".toList 5, .run, .answer "OK\n".toList, .run, .run] =
      some (⟨⟨some [], false, [parseEvent "<3>CTRL-EVENT-SCAN-STARTED ".toList], 0, .idle⟩, [], 2⟩,
        trace) := by decide +kernel
  obtain ⟨hiff, hall⟩ := request_returns_own_reply_iff (Machine.reaches_of_run hrun)
  refine ⟨hiff, hall fun call owed hasked => ?_⟩
  simp only [trace, List.mem_cons, List.not_mem_nil, or_false, reduceCtorEq, false_or,
    ExchangeObservation.asked.injEq] at hasked
  rcases hasked with ⟨-, rfl⟩ | ⟨-, rfl⟩ <;> rfl

/-- The first call times out, and the second returns the reply to the first. -/
theorem late_reply_taken_for_next : ¬ ∀ trace s, exchanges.Reaches trace s →
    ∀ call d, .answered call d ∈ trace → d.answers = some call := by
  intro h
  have hrun : exchanges.run exchanges.start
      [.request "SCAN_RESULTS".toList 1, .run, .run, .elapse 1, .run, .request "PING".toList 5,
        .run, .answer "bssid / frequency\n".toList, .run, .run] =
      some (⟨⟨some [], false, [], 1, .idle⟩, [1], 2⟩,
        [.asked 0 [], .asked 1 [0], .answered 1 ⟨"bssid / frequency\n".toList, some 0⟩]) := by
    decide +kernel
  have hcall := h _ _ (Machine.reaches_of_run hrun) 1 ⟨"bssid / frequency\n".toList, some 0⟩
    (by simp)
  exact absurd hcall (by decide)

end WpaCtrl
