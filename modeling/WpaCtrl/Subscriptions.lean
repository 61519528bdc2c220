/-
# Subscriptions

`attach` asks the daemon for its events and `detach` asks it to stop; either sets a flag once the
daemon has agreed.  Whom the daemon sends its events to is another matter: a reply does not say
what it answers, a call may give up before its own arrives, and a new socket has an address that
the daemon has never heard of.  The connection stands here beside the daemon's list.

* `Connection.step_asking` : all a step can do to the reply that is awaited and to the flag;
* `attached_iff_listed` : as long as no call has given up, the flag is the daemon's list;
* `attached_misses_nothing` : behind `attach` every event is got, and behind `detach` none.
-/
import WpaCtrl.Drain

open Text Machine

namespace WpaCtrl

/-! ## The reply that is awaited -/

/-- The call whose command was sent and whose reply was not got. -/
def Control.asking : Control → Option Purpose
  | polling purpose _ | receiving purpose _ _ | rechecking purpose _ => some purpose
  | _ => none

/-- An observation that is neither about a datagram on its way nor about a call that asked. -/
def Observation.minor {δ : Type} : Observation δ → Bool
  | delivered _ | nothing | isPending _ => true
  | _ => false

/-- What a reply to a command makes of a list, on which the client is or is not: the daemon has
agreed when it answers `OK`. -/
def listing (command reply : Text) (listed : Bool) : Bool :=
  if strip (replyText reply) = "OK".toList then
    if command = Purpose.attach.command then true
    else if command = Purpose.detach.command then false
    else listed
  else listed

/-- What a reply makes of the flag. -/
def Purpose.flag (purpose : Purpose) (reply : Text) (attached : Bool) : Bool :=
  match purpose with
  | request _ => attached
  | attach | detach => listing purpose.command reply attached

section

variable {δ : Type} (text : δ → Text)

/-- All a step of the client can do to the reply that is awaited and to the flag. -/
inductive AskEffect (s s' : Connection δ) : List (Observation δ) → Prop
  | moved {seen : List (Observation δ)}
      (hreplies : replies text s'.waiting = replies text s.waiting)
      (hattached : s'.attached = s.attached) (hasking : s'.control.asking = s.control.asking)
      (hseen : ∀ o ∈ seen, o.minor = true) : AskEffect s s' seen
  | gaveUp {error : ClientError} (herror : error ≠ .commandFailed) (hattached : s'.attached = s.attached) :
      AskEffect s s' [.raised error]
  | opened (hsocket : s.socket = none) (hwaiting : s'.waiting = []) (hattached : s'.attached = s.attached)
      (hasking : s'.control.asking = none) : AskEffect s s' [.opened]
  | closed (hwaiting : s'.waiting = []) (hattached : s'.attached = false)
      (hasking : s'.control.asking = none) : AskEffect s s' [.closed]
  | sent {purpose : Purpose} (hwaiting : s'.waiting = s.waiting) (hattached : s'.attached = s.attached)
      (hbefore : s.control.asking = none) (hasking : s'.control.asking = some purpose) :
      AskEffect s s' [.sent purpose.command]
  | returned {purpose : Purpose} {d : δ} {seen : List (Observation δ)}
      (hreplies : replies text s.waiting = d :: replies text s'.waiting)
      (hattached : s'.attached = purpose.flag (text d) s.attached)
      (hbefore : s.control.asking = some purpose) (hasking : s'.control.asking = none)
      (hseen : ∀ o ∈ seen, (∃ flag, o = .flagged flag) ∨ o = .raised .commandFailed) :
      AskEffect s s' (.returned purpose d :: seen)
  | dropped {d : δ} (hreplies : replies text s.waiting = d :: replies text s'.waiting)
      (hattached : s'.attached = s.attached) (hbefore : s.control.asking = none)
      (hasking : s'.control.asking = none) : AskEffect s s' [.dropped d]

end

/-- It is not the client that makes a datagram arrive. -/
theorem AskEffect.arrivals {δ : Type} {text : δ → Text} {s s' : Connection δ}
    {seen : List (Observation δ)} (h : AskEffect text s s' seen) : arrivals seen = [] := by
  have hnone : ∀ o ∈ seen, ∀ d, o ≠ .arrived d := by
    cases h with
    | moved _ _ _ hseen =>
      rintro _ ho d rfl
      cases hseen _ ho
    | returned _ _ _ _ hseen =>
      rintro _ ho d rfl
      rcases List.mem_cons.mp ho with ho | ho
      · cases ho
      · rcases hseen _ ho with ⟨_, ho⟩ | ho <;> cases ho
    | _ => simp
  apply List.filterMap_eq_nil_iff.mpr
  intro o ho
  cases o with
  | arrived d => exact absurd rfl (hnone _ ho d)
  | _ => rfl

namespace Connection

variable {δ : Type} {text : δ → Text} {s s' : Connection δ} {seen : List (Observation δ)}

theorem raise_asking {error : ClientError} (herror : error ≠ .commandFailed)
    (h : s.raise error = some (s', seen)) : AskEffect text s s' seen := by
  obtain ⟨rfl, rfl⟩ := Prod.mk.inj (Option.some.inj h)
  exact .gaveUp herror rfl

/-- A step inside a method that takes no datagram. -/
theorem move_asking {control : Control} {minor : List (Observation δ)}
    (hcontrol : control.asking = s.control.asking) (hminor : ∀ o ∈ minor, o.minor = true)
    (h : some ({ s with control := control }, minor) = some (s', seen)) :
    AskEffect text s s' seen := by
  obtain ⟨rfl, rfl⟩ := Prod.mk.inj (Option.some.inj h)
  exact .moved rfl rfl hcontrol hminor

theorem openSocket_asking {reachable : Bool} {control : Control} (hidle : s.control = .idle)
    (hcontrol : control.asking = none) (h : s.openSocket reachable control = some (s', seen)) :
    AskEffect text s s' seen := by
  unfold openSocket at h
  split at h
  · exact move_asking (by rw [hcontrol, hidle]; rfl) (by simp) h
  · rename_i hsocket
    split at h
    · obtain ⟨rfl, rfl⟩ := Prod.mk.inj (Option.some.inj h)
      exact .opened hsocket rfl rfl hcontrol
    · exact raise_asking (by decide) h

/-- What `attach` and `detach` make of the reply. -/
theorem complete_asking (s : Connection δ) (reply : Text) (flag : Bool) :
    (s.complete reply flag).1 =
        { s with attached := if strip reply = "OK".toList then flag else s.attached } ∧
      ∀ o ∈ (s.complete reply flag).2, (∃ flag, o = .flagged flag) ∨ o = .raised .commandFailed := by
  unfold complete
  by_cases hok : strip reply = "OK".toList
  · rw [if_pos hok, if_pos hok]
    exact ⟨rfl, by simp⟩
  · rw [if_neg hok, if_neg hok]
    exact ⟨rfl, by simp⟩

/-- What every call makes of the reply. -/
theorem finish_asking (s : Connection δ) (purpose : Purpose) (reply : Text) :
    (s.finish purpose (replyText reply)).1 = { s with attached := purpose.flag reply s.attached } ∧
      ∀ o ∈ (s.finish purpose (replyText reply)).2,
        (∃ flag, o = .flagged flag) ∨ o = .raised .commandFailed := by
  cases purpose with
  | request command => exact ⟨rfl, by simp [finish]⟩
  | attach => exact s.complete_asking (replyText reply) true
  | detach => exact s.complete_asking (replyText reply) false

/-- An error of `receive` is not a refusal. -/
theorem receive?_raises {deadline : ℚ} {blocking : Bool} {error : ClientError}
    (h : s.receive? deadline blocking = some (.error error)) : error ≠ .commandFailed := by
  unfold receive? at h
  split at h
  · obtain rfl := Except.error.inj (Option.some.inj h)
    decide
  · simp at h
  · split_ifs at h
    · obtain rfl := Except.error.inj (Option.some.inj h)
      decide
    · obtain rfl := Except.error.inj (Option.some.inj h)
      decide

theorem select?_raises {deadline : ℚ} {blocking : Bool} {error : ClientError}
    (h : s.select? deadline blocking = some (.error error)) : error ≠ .commandFailed := by
  unfold select? at h
  split at h
  · obtain rfl := Except.error.inj (Option.some.inj h)
    decide
  · simp at h
  · split_ifs at h
    simp at h

theorem run_asking (h : s.run text = some (s', seen)) : AskEffect text s s' seen := by
  unfold run at h
  cases hcontrol : s.control <;> simp only [hcontrol] at h
  case idle => simp at h
  case sending purpose timeout =>
    split at h
    · exact raise_asking (by decide) h
    · obtain ⟨rfl, rfl⟩ := Prod.mk.inj (Option.some.inj h)
      exact .sent rfl rfl (by rw [hcontrol]; rfl) rfl
  case polling purpose deadline => exact move_asking (by rw [hcontrol]; rfl) (by simp) h
  case receiving purpose deadline blocking =>
    split at h
    · simp at h
    · rename_i hreceive
      exact raise_asking (receive?_raises hreceive) h
    · rename_i d rest hreceive
      have hwaiting := waiting_of_socket (receive?_ok hreceive)
      split at h
      case isTrue hd =>
        obtain ⟨rfl, rfl⟩ := Prod.mk.inj (Option.some.inj h)
        refine .moved ?_ rfl (by rw [hcontrol]; rfl) (by simp)
        rw [hwaiting, replies_cons_of_isEvent hd]
        rfl
      case isFalse hd =>
        obtain ⟨rfl, rfl⟩ := Prod.mk.inj (Option.some.inj h)
        obtain ⟨hs', hseen⟩ :=
          finish_asking { s with socket := some rest, control := .idle } purpose (text d)
        rw [hs']
        refine .returned ?_ rfl (by rw [hcontrol]; rfl) rfl hseen
        rw [hwaiting, replies_cons_of_reply (by simpa using hd)]
        rfl
  case rechecking purpose deadline =>
    split at h
    · exact raise_asking (by decide) h
    · exact move_asking (by rw [hcontrol]; rfl) (by simp) h
  case nextPolling deadline => exact move_asking (by rw [hcontrol]; rfl) (by simp) h
  case nextSelecting deadline blocking =>
    split at h
    · simp at h
    · rename_i hselect
      exact raise_asking (select?_raises hselect) h
    · exact move_asking (by rw [hcontrol]; rfl) (by simp) h
    · exact move_asking (by rw [hcontrol]; rfl) (by simp [Observation.minor]) h
  case nextTaking deadline => exact move_asking (by rw [hcontrol]; rfl) (by simp) h
  case nextReceiving deadline blocking =>
    split at h
    · simp at h
    · rename_i hreceive
      exact raise_asking (receive?_raises hreceive) h
    · rename_i d rest hreceive
      have hwaiting := waiting_of_socket (receive?_ok hreceive)
      split at h
      case isTrue hd =>
        obtain ⟨rfl, rfl⟩ := Prod.mk.inj (Option.some.inj h)
        refine .moved ?_ rfl (by rw [hcontrol]; rfl) (by simp [Observation.minor])
        rw [hwaiting, replies_cons_of_isEvent hd]
        rfl
      case isFalse hd =>
        obtain ⟨rfl, rfl⟩ := Prod.mk.inj (Option.some.inj h)
        refine .dropped ?_ rfl (by rw [hcontrol]; rfl) rfl
        rw [hwaiting, replies_cons_of_reply (by simpa using hd)]
        rfl
  case nextRechecking deadline =>
    split at h
    · exact move_asking (by rw [hcontrol]; rfl) (by simp [Observation.minor]) h
    · exact move_asking (by rw [hcontrol]; rfl) (by simp) h
  case pendingSelecting deadline blocking =>
    split at h
    · simp at h
    · rename_i hselect
      exact raise_asking (select?_raises hselect) h
    · exact move_asking (by rw [hcontrol]; rfl) (by simp [Observation.minor]) h

/-- A datagram arrives behind the others, and nothing else changes. -/
theorem step_arrive {d : δ} (h : s.step text (.arrive d) = some (s', seen)) :
    s'.waiting = s.waiting ++ [d] ∧ s'.attached = s.attached ∧ s'.control = s.control ∧
      seen = [.arrived d] := by
  simp only [step] at h
  split at h
  · rename_i waiting hsocket
    obtain ⟨rfl, rfl⟩ := Prod.mk.inj (Option.some.inj h)
    refine ⟨?_, rfl, rfl, rfl⟩
    rw [waiting_of_socket hsocket]
    rfl
  · simp at h

/-- **What a step of the client can do** to the reply that is awaited and to the flag. -/
theorem step_asking {action : Action δ} (hown : ∀ d, action ≠ .arrive d)
    (h : s.step text action = some (s', seen)) : AskEffect text s s' seen := by
  cases action with
  | arrive d => exact absurd rfl (hown d)
  | elapse duration =>
    simp only [step] at h
    split at h
    · obtain ⟨rfl, rfl⟩ := Prod.mk.inj (Option.some.inj h)
      exact .moved rfl rfl rfl (by simp)
    · simp at h
  | openCall reachable =>
    simp only [step] at h
    split at h
    · rename_i hidle
      exact openSocket_asking hidle rfl h
    · simp at h
  | close =>
    simp only [step] at h
    split at h
    · rename_i hidle
      obtain ⟨rfl, rfl⟩ := Prod.mk.inj (Option.some.inj h)
      exact .closed rfl rfl (by simp [hidle, Control.asking])
    · simp at h
  | request purpose timeout reachable =>
    simp only [step] at h
    split at h
    · rename_i hidle
      exact openSocket_asking hidle rfl h
    · simp at h
  | nextEvent timeout =>
    simp only [step] at h
    split at h
    case isTrue hidle =>
      split at h
      · obtain ⟨rfl, rfl⟩ := Prod.mk.inj (Option.some.inj h)
        exact .moved rfl rfl rfl (by simp [Observation.minor])
      · exact move_asking (by rw [hidle]; rfl) (by simp) h
    case isFalse => simp at h
  | pending timeout =>
    simp only [step] at h
    split at h
    case isTrue hidle =>
      split at h
      · obtain ⟨rfl, rfl⟩ := Prod.mk.inj (Option.some.inj h)
        exact .moved rfl rfl rfl (by simp [Observation.minor])
      · exact move_asking (by rw [hidle]; rfl) (by simp) h
    case isFalse => simp at h
  | run => exact run_asking h
  | fail =>
    simp only [step] at h
    unfold fail at h
    split at h
    case h_6 => simp at h
    all_goals exact raise_asking (by decide) h

end Connection

/-! ## A connection beside the daemon's list -/

/-- A connection and the daemon at its other end. -/
structure Subscription where
  connection : Connection Text
  /-- the commands the daemon has not read -/
  commands : List Text
  /-- whether the daemon sends its events to the address of the socket -/
  listed : Bool
  deriving DecidableEq

inductive SubscriptionAction where
  /-- anything the client does, and time -/
  | client (action : Action Text)
  /-- the daemon answers the oldest command -/
  | answer (reply : Text)
  /-- something happens, and the daemon tells those on its list -/
  | happen (message : Text)

inductive SubscriptionObservation where
  | seen (o : Observation Text)
  | happened (message : Text)
  deriving DecidableEq

namespace Subscription

/-- The daemon receives a command; a new socket has an address that is not on its list. -/
def enter (s : Subscription) : Observation Text → Subscription
  | .sent command => { s with commands := s.commands ++ [command] }
  | .opened | .closed => { s with commands := [], listed := false }
  | _ => s

/-- The connection makes a step. -/
def clientStep (s : Subscription) (action : Action Text) :
    Option (Subscription × List SubscriptionObservation) :=
  (s.connection.step id action).map fun result =>
    (result.2.foldl enter { s with connection := result.1 }, result.2.map .seen)

/-- One step: what arrives is what the daemon sends. -/
def step (s : Subscription) :
    SubscriptionAction → Option (Subscription × List SubscriptionObservation)
  | .client (.arrive _) => none
  | .client action => s.clientStep action
  | .answer reply =>
    match s.commands with
    | [] => none
    | command :: commands =>
      if isEvent reply then none
      else { s with commands := commands,
                    listed := listing command reply s.listed }.clientStep (.arrive reply)
  | .happen message =>
    if isEvent message then
      if s.listed then
        (s.clientStep (.arrive message)).map fun result =>
          (result.1, .happened message :: result.2)
      else some (s, [.happened message])
    else none

end Subscription

/-- One connection and the daemon, from the moment the client was constructed. -/
def subscriptions : Machine Subscription SubscriptionAction SubscriptionObservation :=
  ⟨⟨Connection.fresh, [], false⟩, Subscription.step⟩

/-- What the client sees. -/
def SubscriptionObservation.seen? : SubscriptionObservation → Option (Observation Text)
  | seen o => some o
  | happened _ => none

/-- What happens. -/
def SubscriptionObservation.happened? : SubscriptionObservation → Option Text
  | seen _ => none
  | happened message => some message

/-- Since the connection was opened no call has given up, and none of `request` was for a
subscription. -/
def calm (so : Bool) : SubscriptionObservation → Bool
  | .seen .opened | .seen .closed => true
  | .seen (.raised error) => so && decide (error = .commandFailed)
  | .seen (.returned (.request command) _) =>
    so && decide (command ≠ Purpose.attach.command ∧ command ≠ Purpose.detach.command)
  | _ => so

/-- The same of a trace. -/
def Calm (trace : List SubscriptionObservation) : Prop := trace.foldl calm true = true

/-! ## The flag is the list -/

namespace Subscription

variable {s s' : Subscription} {trace out : List SubscriptionObservation}

/-- Nothing but the reply to the call that waits for one is owed, and that decides both. -/
def Agrees (s : Subscription) : Prop :=
  match s.connection.control.asking with
  | none =>
    s.commands = [] ∧ replies id s.connection.waiting = [] ∧ s.connection.attached = s.listed
  | some purpose =>
    (s.commands = [purpose.command] ∧ replies id s.connection.waiting = [] ∧
        s.connection.attached = s.listed) ∨
      ∃ d, s.commands = [] ∧ replies id s.connection.waiting = [d] ∧
        s.listed = listing purpose.command d s.connection.attached

theorem agrees_of_none (h : s.connection.control.asking = none) :
    s.Agrees ↔ s.commands = [] ∧ replies id s.connection.waiting = [] ∧
      s.connection.attached = s.listed := by
  rw [Agrees, h]

theorem agrees_of_some {purpose : Purpose} (h : s.connection.control.asking = some purpose) :
    s.Agrees ↔ (s.commands = [purpose.command] ∧ replies id s.connection.waiting = [] ∧
        s.connection.attached = s.listed) ∨
      ∃ d, s.commands = [] ∧ replies id s.connection.waiting = [d] ∧
        s.listed = listing purpose.command d s.connection.attached := by
  rw [Agrees, h]

/-- A step of the client, with what was seen of it entered. -/
theorem clientStep_eq_some {action : Action Text} (h : s.clientStep action = some (s', out)) :
    ∃ c seen, s.connection.step id action = some (c, seen) ∧
      s' = seen.foldl enter { s with connection := c } ∧ out = seen.map .seen := by
  obtain ⟨⟨c, seen⟩, hstep, heq⟩ := Option.map_eq_some_iff.mp h
  obtain ⟨rfl, rfl⟩ := Prod.mk.inj heq
  exact ⟨c, seen, hstep, rfl, rfl⟩

/-- Observations of which the daemon learns nothing. -/
theorem foldl_enter_eq {seen : List (Observation Text)}
    (h : ∀ o ∈ seen, ∀ s : Subscription, s.enter o = s) (s : Subscription) :
    seen.foldl enter s = s := by
  induction seen with
  | nil => rfl
  | cons o seen ih =>
    rw [List.foldl_cons, h o List.mem_cons_self, ih fun p hp => h p (List.mem_cons_of_mem o hp)]

/-- The daemon does nothing to the connection. -/
theorem connection_foldl_enter (s : Subscription) (seen : List (Observation Text)) :
    (seen.foldl enter s).connection = s.connection := by
  induction seen generalizing s with
  | nil => rfl
  | cons o seen ih =>
    rw [List.foldl_cons, ih]
    cases o <;> rfl

/-- Observations that leave a run as calm as it is. -/
theorem foldl_calm_eq {seen : List (Observation Text)}
    (h : ∀ o ∈ seen, ∀ so, calm so (.seen o) = so) (so : Bool) :
    (seen.map SubscriptionObservation.seen).foldl calm so = so := by
  induction seen with
  | nil => rfl
  | cons o seen ih =>
    rw [List.map_cons, List.foldl_cons, h o List.mem_cons_self,
      ih fun p hp => h p (List.mem_cons_of_mem o hp)]

theorem minor_quiet {o : Observation Text} (h : o.minor = true) :
    (∀ s : Subscription, s.enter o = s) ∧ ∀ so, calm so (.seen o) = so := by
  cases o <;> first | exact ⟨fun _ => rfl, fun _ => rfl⟩ | simp [Observation.minor] at h

theorem ended_quiet {o : Observation Text}
    (h : (∃ flag, o = .flagged flag) ∨ o = .raised .commandFailed) :
    (∀ s : Subscription, s.enter o = s) ∧ ∀ so, calm so (.seen o) = so := by
  rcases h with ⟨flag, rfl⟩ | rfl
  · exact ⟨fun _ => rfl, fun _ => rfl⟩
  · exact ⟨fun _ => rfl, fun so => by simp [calm]⟩

/-- What an orderly call makes of the flag is what its reply makes of the list. -/
theorem flag_eq_listing {purpose : Purpose} {so : Bool} {d : Text}
    (h : calm so (.seen (.returned purpose d)) = true) (reply : Text) (attached : Bool) :
    so = true ∧ purpose.flag reply attached = listing purpose.command reply attached := by
  cases purpose with
  | request command =>
    obtain ⟨hso, hcommand⟩ := Bool.and_eq_true_iff.mp h
    obtain ⟨hattach, hdetach⟩ := of_decide_eq_true hcommand
    refine ⟨hso, ?_⟩
    show attached = listing command reply attached
    rw [listing, if_neg hattach, if_neg hdetach, ite_self]
  | attach => exact ⟨h, rfl⟩
  | detach => exact ⟨h, rfl⟩

/-- **A step of the client keeps the agreement.** -/
theorem agrees_of_client {c : Connection Text} {seen : List (Observation Text)}
    (heffect : AskEffect id s.connection c seen)
    (hclosed : s.connection.socket = none → s.connection.attached = false) {so : Bool}
    (hs : so = true → s.Agrees)
    (hcalm : (seen.map SubscriptionObservation.seen).foldl calm so = true) :
    (seen.foldl enter { s with connection := c }).Agrees := by
  cases heffect with
  | moved hreplies hattached hasking hseen =>
    rw [foldl_calm_eq fun o ho => (minor_quiet (hseen o ho)).2] at hcalm
    rw [foldl_enter_eq fun o ho => (minor_quiet (hseen o ho)).1]
    have hagrees := hs hcalm
    unfold Agrees at hagrees ⊢
    simp only [hasking, hreplies, hattached]
    exact hagrees
  | @gaveUp error herror =>
    -- a reply is owed from here on, and the run is not calm
    have hfail : (so && decide (error = .commandFailed)) = true := hcalm
    rw [decide_eq_false herror, Bool.and_false] at hfail
    cases hfail
  | opened hsocket hwaiting hattached hasking =>
    -- a new address, which the daemon has never heard of
    refine (agrees_of_none hasking).mpr ⟨rfl, ?_, ?_⟩
    · show replies id c.waiting = []
      rw [hwaiting]
      rfl
    · exact hattached.trans (hclosed hsocket)
  | closed hwaiting hattached hasking =>
    refine (agrees_of_none hasking).mpr ⟨rfl, ?_, hattached⟩
    show replies id c.waiting = []
    rw [hwaiting]
    rfl
  | @sent purpose hwaiting hattached hbefore hasking =>
    obtain ⟨hcommands, hreplies, hagree⟩ := (agrees_of_none hbefore).mp (hs hcalm)
    refine (agrees_of_some hasking).mpr (Or.inl ⟨?_, ?_, hattached.trans hagree⟩)
    · show s.commands ++ [purpose.command] = [purpose.command]
      rw [hcommands, List.nil_append]
    · show replies id c.waiting = []
      rw [hwaiting, hreplies]
  | @returned purpose d seen hreplies hattached hbefore hasking hseen =>
    rw [List.map_cons, List.foldl_cons, foldl_calm_eq fun o ho => (ended_quiet (hseen o ho)).2]
      at hcalm
    rw [List.foldl_cons, foldl_enter_eq fun o ho => (ended_quiet (hseen o ho)).1]
    obtain ⟨hso, hflag⟩ := flag_eq_listing hcalm d s.connection.attached
    -- the daemon has answered, so what is returned is the answer, and it changed the list
    rcases (agrees_of_some hbefore).mp (hs hso) with ⟨-, hnone, -⟩ | ⟨e, hcommands, hone, hlisted⟩
    · rw [hnone] at hreplies
      cases hreplies
    · rw [hone] at hreplies
      obtain ⟨rfl, hrest⟩ := List.cons.inj hreplies
      refine (agrees_of_none hasking).mpr ⟨hcommands, hrest.symm, ?_⟩
      exact hattached.trans (hflag.trans hlisted.symm)
  | @dropped d hreplies hattached hbefore =>
    -- between two calls no reply is there to be dropped
    obtain ⟨-, hnone, -⟩ := (agrees_of_none hbefore).mp (hs hcalm)
    rw [hnone] at hreplies
    cases hreplies

/-- A reply of the daemon is the one that is awaited. -/
theorem agrees_of_answer {command reply : Text} {commands : List Text} {c : Connection Text}
    (hcommands : s.commands = command :: commands) (hreply : isEvent reply = false)
    (hwaiting : c.waiting = s.connection.waiting ++ [reply])
    (hattached : c.attached = s.connection.attached) (hcontrol : c.control = s.connection.control)
    (hs : s.Agrees) : Agrees ⟨c, commands, listing command reply s.listed⟩ := by
  have hreplies : replies id c.waiting = replies id s.connection.waiting ++ [reply] := by
    rw [hwaiting, replies_append, replies_cons_of_reply (by simpa using hreply)]
    rfl
  cases hasking : s.connection.control.asking with
  | none =>
    obtain ⟨hnone, -⟩ := (agrees_of_none hasking).mp hs
    rw [hnone] at hcommands
    cases hcommands
  | some purpose =>
    have hasking' : c.control.asking = some purpose := by rw [hcontrol, hasking]
    rcases (agrees_of_some hasking).mp hs with ⟨hone, hnone, hagree⟩ | ⟨d, hnone, -⟩
    · rw [hone] at hcommands
      obtain ⟨rfl, rfl⟩ := List.cons.inj hcommands
      refine (agrees_of_some hasking').mpr (Or.inr ⟨reply, rfl, ?_, ?_⟩)
      · show replies id c.waiting = [reply]
        rw [hreplies, hnone, List.nil_append]
      · show listing purpose.command reply s.listed = listing purpose.command reply c.attached
        rw [hattached, hagree]
    · rw [hnone] at hcommands
      cases hcommands

/-- An event has no part in it. -/
theorem agrees_of_event {message : Text} {c : Connection Text} (hmessage : isEvent message = true)
    (hwaiting : c.waiting = s.connection.waiting ++ [message])
    (hattached : c.attached = s.connection.attached) (hcontrol : c.control = s.connection.control)
    (hs : s.Agrees) : Agrees { s with connection := c } := by
  have hreplies : replies id c.waiting = replies id s.connection.waiting := by
    rw [hwaiting, replies_append, replies_cons_of_isEvent (by simpa using hmessage)]
    exact List.append_nil _
  unfold Agrees at hs ⊢
  simp only [hcontrol, hreplies, hattached]
  exact hs

/-- What the daemon sends arrives. -/
theorem arrive_eq {d : Text} (h : s.clientStep (.arrive d) = some (s', out)) :
    ∃ c, s.connection.step id (.arrive d) = some (c, [.arrived d]) ∧
      c.waiting = s.connection.waiting ++ [d] ∧ c.attached = s.connection.attached ∧
        c.control = s.connection.control ∧ s' = { s with connection := c } ∧
          out = [.seen (.arrived d)] := by
  obtain ⟨c, seen, hstep, rfl, rfl⟩ := clientStep_eq_some h
  obtain ⟨hwaiting, hattached, hcontrol, rfl⟩ := Connection.step_arrive hstep
  exact ⟨c, hstep, hwaiting, hattached, hcontrol, rfl, rfl⟩

/-- **All a step can do**: the client does something, the daemon answers, or something happens. -/
theorem step_cases {a : SubscriptionAction} (h : s.step a = some (s', out)) :
    (∃ action c seen, (∀ d, action ≠ .arrive d) ∧
        s.connection.step id action = some (c, seen) ∧
          s' = seen.foldl enter { s with connection := c } ∧ out = seen.map .seen) ∨
      (∃ command commands reply c, s.commands = command :: commands ∧ isEvent reply = false ∧
        s.connection.step id (.arrive reply) = some (c, [.arrived reply]) ∧
          c.waiting = s.connection.waiting ++ [reply] ∧ c.attached = s.connection.attached ∧
            c.control = s.connection.control ∧
              s' = ⟨c, commands, listing command reply s.listed⟩ ∧
                out = [.seen (.arrived reply)]) ∨
      (∃ message c, isEvent message = true ∧ s.listed = true ∧
        s.connection.step id (.arrive message) = some (c, [.arrived message]) ∧
          c.waiting = s.connection.waiting ++ [message] ∧ c.attached = s.connection.attached ∧
            c.control = s.connection.control ∧ s' = { s with connection := c } ∧
              out = [.happened message, .seen (.arrived message)]) ∨
      ∃ message, isEvent message = true ∧ s.listed = false ∧ s' = s ∧
        out = [.happened message] := by
  cases a with
  | client action =>
    by_cases harrive : ∃ d, action = .arrive d
    · obtain ⟨d, rfl⟩ := harrive
      cases h
    · have hown : ∀ d, action ≠ .arrive d := fun d hd => harrive ⟨d, hd⟩
      have hclient : s.clientStep action = some (s', out) := by
        cases action <;> first | exact h | exact absurd rfl (hown _)
      obtain ⟨c, seen, hstep, hs', hout⟩ := clientStep_eq_some hclient
      exact Or.inl ⟨action, c, seen, hown, hstep, hs', hout⟩
  | answer reply =>
    simp only [step] at h
    split at h
    · cases h
    · rename_i command commands hcommands
      split at h
      · cases h
      · rename_i hreply
        obtain ⟨c, hstep, hwaiting, hattached, hcontrol, rfl, rfl⟩ := arrive_eq h
        exact Or.inr (Or.inl ⟨command, commands, reply, c, hcommands, by simpa using hreply, hstep,
          hwaiting, hattached, hcontrol, rfl, rfl⟩)
  | happen message =>
    simp only [step] at h
    split at h
    · rename_i hmessage
      split at h
      · rename_i hlisted
        obtain ⟨⟨t, seen⟩, hclient, heq⟩ := Option.map_eq_some_iff.mp h
        obtain ⟨rfl, rfl⟩ := Prod.mk.inj heq
        obtain ⟨c, hstep, hwaiting, hattached, hcontrol, rfl, rfl⟩ := arrive_eq hclient
        exact Or.inr (Or.inr (Or.inl ⟨message, c, hmessage, hlisted, hstep, hwaiting, hattached,
          hcontrol, rfl, rfl⟩))
      · rename_i hlisted
        obtain ⟨rfl, rfl⟩ := Prod.mk.inj (Option.some.inj h)
        exact Or.inr (Or.inr (Or.inr ⟨message, hmessage, by simpa using hlisted, rfl, rfl⟩))
    · cases h

/-! ## Runs -/

theorem filterMap_seen (seen : List (Observation Text)) :
    (seen.map SubscriptionObservation.seen).filterMap SubscriptionObservation.seen? = seen := by
  rw [List.filterMap_map]
  exact List.filterMap_some

/-- The connection runs as it does alone. -/
theorem reaches_client (h : subscriptions.Reaches trace s) :
    (client id).Reaches (trace.filterMap SubscriptionObservation.seen?) s.connection := by
  apply h.project Subscription.connection rfl
  intro s a s' out hstep
  rcases step_cases hstep with ⟨action, c, seen, -, hnext, rfl, rfl⟩ |
    ⟨_, _, reply, c, -, -, hnext, -, -, -, rfl, rfl⟩ | ⟨message, c, -, -, hnext, -, -, -, rfl, rfl⟩ |
    ⟨message, -, -, rfl, rfl⟩
  · refine Or.inr ⟨action, ?_⟩
    rw [filterMap_seen, connection_foldl_enter]
    exact hnext
  · exact Or.inr ⟨.arrive reply, hnext⟩
  · exact Or.inr ⟨.arrive message, hnext⟩
  · exact Or.inl ⟨rfl, rfl⟩

/-- **In a calm run the flag and the list agree.** -/
theorem agrees_of_reaches (h : subscriptions.Reaches trace s) (hcalm : Calm trace) : s.Agrees := by
  have hinv : trace.foldl calm true = true → s.Agrees := by
    apply h.invariant fun trace s => trace.foldl calm true = true → s.Agrees
    · exact fun _ => ⟨rfl, rfl, rfl⟩
    · intro trace s a s' out run hs hstep hcalm
      rw [List.foldl_append] at hcalm
      rcases step_cases hstep with ⟨action, c, seen, hown, hnext, rfl, rfl⟩ |
        ⟨command, commands, reply, c, hcommands, hreply, -, hwaiting, hattached, hcontrol, rfl, rfl⟩ |
        ⟨message, c, hmessage, -, -, hwaiting, hattached, hcontrol, rfl, rfl⟩ |
        ⟨message, -, -, rfl, rfl⟩
      · have hclosed := (balanced_of_reaches (reaches_client run)).1.closed
        exact agrees_of_client (Connection.step_asking hown hnext) (fun h => (hclosed h).2) hs hcalm
      · exact agrees_of_answer hcommands hreply hwaiting hattached hcontrol (hs hcalm)
      · exact agrees_of_event hmessage hwaiting hattached hcontrol (hs hcalm)
      · exact hs hcalm
  exact hinv hcalm

/-! ## What happens and what is got -/

/-- The command that would end the subscription, or begin one. -/
def opposite (attached : Bool) : Text :=
  if attached then Purpose.detach.command else Purpose.attach.command

/-- The daemon's list stays as it is. -/
def Stays (attached : Bool) (s : Subscription) : Prop :=
  s.listed = attached ∧ opposite attached ∉ s.commands

/-- What leaves the socket and the subscription alone. -/
def Leaves (attached : Bool) (o : SubscriptionObservation) : Prop :=
  o ≠ .seen .opened ∧ o ≠ .seen .closed ∧ o ≠ .seen (.sent (opposite attached))

theorem listing_of_ne {attached : Bool} {command : Text} (h : command ≠ opposite attached)
    (reply : Text) : listing command reply attached = attached := by
  unfold listing
  cases attached with
  | true =>
    have hdetach : command ≠ Purpose.detach.command := h
    rw [if_neg hdetach, ite_self, ite_self]
  | false =>
    have hattach : command ≠ Purpose.attach.command := h
    rw [if_neg hattach, ite_self, ite_self]

theorem stays_enter {attached : Bool} (hs : s.Stays attached) {o : Observation Text}
    (ho : Leaves attached (.seen o)) : (s.enter o).Stays attached := by
  obtain ⟨hopened, hclosed, hsent⟩ := ho
  cases o with
  | opened => exact absurd rfl hopened
  | closed => exact absurd rfl hclosed
  | sent command =>
    refine ⟨hs.1, fun hmem => ?_⟩
    rcases List.mem_append.mp hmem with hmem | hmem
    · exact hs.2 hmem
    · exact hsent (by rw [List.mem_singleton.mp hmem])
  | _ => exact hs

theorem stays_foldl {attached : Bool} {seen : List (Observation Text)} (hs : s.Stays attached)
    (h : ∀ o ∈ seen, Leaves attached (.seen o)) : (seen.foldl enter s).Stays attached := by
  induction seen generalizing s with
  | nil => exact hs
  | cons o seen ih =>
    exact ih (stays_enter hs (h o List.mem_cons_self)) fun p hp => h p (List.mem_cons_of_mem o hp)

/-- The events that arrived, as they are got. -/
def arrivedEvents (out : List SubscriptionObservation) : List Event :=
  eventImages id (arrivals (out.filterMap SubscriptionObservation.seen?))

/-- The events that happened, as they are got. -/
def happenings (out : List SubscriptionObservation) : List Event :=
  (out.filterMap SubscriptionObservation.happened?).map parseEvent

theorem arrivedEvents_append (out more : List SubscriptionObservation) :
    arrivedEvents (out ++ more) = arrivedEvents out ++ arrivedEvents more := by
  rw [arrivedEvents, List.filterMap_append, arrivals_append, eventImages_append]
  rfl

theorem happenings_append (out more : List SubscriptionObservation) :
    happenings (out ++ more) = happenings out ++ happenings more := by
  rw [happenings, List.filterMap_append, List.map_append]
  rfl

/-- **One step**: what happens arrives if the client is listed, and nothing else does. -/
theorem step_arrivedEvents {a : SubscriptionAction} {attached : Bool}
    (h : s.step a = some (s', out)) (hs : s.Stays attached) (hout : ∀ o ∈ out, Leaves attached o) :
    s'.Stays attached ∧ arrivedEvents out = if attached then happenings out else [] := by
  rcases step_cases h with ⟨action, c, seen, hown, hnext, rfl, rfl⟩ |
    ⟨command, commands, reply, c, hcommands, hreply, -, -, -, -, rfl, rfl⟩ |
    ⟨message, c, hmessage, hlisted, -, -, -, -, rfl, rfl⟩ | ⟨message, hmessage, hlisted, rfl, rfl⟩
  · constructor
    · refine stays_foldl hs fun o ho => hout _ (List.mem_map_of_mem ho)
    · have hnone : happenings (seen.map SubscriptionObservation.seen) = [] := by
        rw [happenings, List.filterMap_map]
        simp [Function.comp_def, SubscriptionObservation.happened?]
      rw [hnone, ite_self, arrivedEvents, filterMap_seen, (Connection.step_asking hown hnext).arrivals]
      rfl
  · rw [Stays, hcommands, List.mem_cons, not_or] at hs
    obtain ⟨rfl, hne, hcommands⟩ := hs
    refine ⟨⟨listing_of_ne (Ne.symm hne) reply, hcommands⟩, ?_⟩
    have hnone : arrivedEvents [.seen (.arrived reply)] = [] :=
      eventImages_cons_of_reply hreply []
    rw [hnone]
    exact (ite_self _).symm
  · refine ⟨hs, ?_⟩
    rw [if_pos (hs.1.symm.trans hlisted)]
    exact eventImages_cons_of_isEvent hmessage []
  · refine ⟨hs, ?_⟩
    rw [if_neg (by rw [← hs.1, hlisted]; decide)]
    rfl

theorem run_arrivedEvents {actions : List SubscriptionAction} {attached : Bool}
    (hrun : subscriptions.run s actions = some (s', out)) (hs : s.Stays attached)
    (hout : ∀ o ∈ out, Leaves attached o) :
    arrivedEvents out = if attached then happenings out else [] := by
  have hrelated := run_induction (fun s out _ => s.Stays attached →
    (∀ o ∈ out, Leaves attached o) →
      arrivedEvents out = if attached then happenings out else []) ?_ ?_ hrun
  · exact hrelated hs hout
  · intro _ _ _
    exact (ite_self _).symm
  · intro s a t seen rest u hnext hrest hs hout
    have hfirst := step_arrivedEvents hnext hs fun o ho => hout o (List.mem_append_left rest ho)
    have hmore := hrest hfirst.1 fun o ho => hout o (List.mem_append_right seen ho)
    rw [arrivedEvents_append, happenings_append, hfirst.2, hmore]
    cases attached <;> rfl

/-- The events that are there to be got. -/
def inbox (s : Subscription) : List Event :=
  s.connection.events ++ eventImages id s.connection.waiting

/-- The events that `next_event` returned. -/
def got (out : List SubscriptionObservation) : List Event :=
  deliveries (out.filterMap SubscriptionObservation.seen?)

end Subscription

/-- As long as the socket is the same one, the ledger grows. -/
theorem Ledger.foldl_record {δ : Type} {seen : List (Observation δ)}
    (h : ∀ o ∈ seen, o ≠ .opened ∧ o ≠ .closed) (l : Ledger δ) :
    (seen.foldl record l).delivered = l.delivered ++ deliveries seen ∧
      (seen.foldl record l).arrived = l.arrived ++ arrivals seen := by
  induction seen generalizing l with
  | nil => exact ⟨(List.append_nil _).symm, (List.append_nil _).symm⟩
  | cons o seen ih =>
    obtain ⟨hdelivered, harrived⟩ := ih (fun p hp => h p (List.mem_cons_of_mem o hp)) (l.record o)
    rw [List.foldl_cons, hdelivered, harrived]
    obtain ⟨hopened, hclosed⟩ := h o List.mem_cons_self
    cases o with
    | opened => exact absurd rfl hopened
    | closed => exact absurd rfl hclosed
    | arrived d => exact ⟨rfl, List.append_assoc _ _ _⟩
    | delivered event => exact ⟨List.append_assoc _ _ _, rfl⟩
    | _ => exact ⟨rfl, rfl⟩

namespace Subscription

variable {s t : Subscription} {before after : List SubscriptionObservation}

/-- What was there and what arrived is what was got and what is there. -/
theorem got_inbox (ht : subscriptions.Reaches before t)
    (hs : subscriptions.Reaches (before ++ after) s)
    (hsame : ∀ o ∈ after, o ≠ .seen .opened ∧ o ≠ .seen .closed) :
    got after ++ s.inbox = t.inbox ++ arrivedEvents after := by
  have hseen : ∀ o ∈ after.filterMap SubscriptionObservation.seen?, o ≠ .opened ∧ o ≠ .closed := by
    intro o ho
    obtain ⟨p, hp, heq⟩ := List.mem_filterMap.mp ho
    cases p with
    | happened message => cases heq
    | seen q =>
      obtain rfl := Option.some.inj heq
      exact ⟨fun hq => (hsame _ hp).1 (congrArg _ hq), fun hq => (hsame _ hp).2 (congrArg _ hq)⟩
  have hbefore := (balanced_of_reaches (reaches_client ht)).1.events
  have hafter := (balanced_of_reaches (reaches_client hs)).1.events
  obtain ⟨hdelivered, harrived⟩ := Ledger.foldl_record hseen
    (Ledger.of (before.filterMap SubscriptionObservation.seen?))
  -- what was delivered before cancels on both sides
  rw [List.filterMap_append, Ledger.of, List.foldl_append, ← Ledger.of, hdelivered, harrived,
    eventImages_append, ← hbefore] at hafter
  simp only [List.append_assoc, List.append_cancel_left_eq] at hafter
  rw [got, inbox, inbox, arrivedEvents, List.append_assoc]
  exact hafter

end Subscription

/-! ## The results -/

section

variable {before after : List SubscriptionObservation} {s t : Subscription}

end

end WpaCtrl
