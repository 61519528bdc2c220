/-
# Conversations over a connection

The methods are verified against a daemon that is asked and answers.  What stands between
the two is a socket on which datagrams arrive at any time, among them events that nobody asked
for, and a client that is closed, opened again and read for events in between.  As long
as every call returns and a reply arrives while it is made, none of this is noticed.

* `Connection.clean_of_step` : no step leaves a reply behind, but one that arrives;
* `conversation_faithful` : the calls return what the daemon answers to them, one by one;
* `conversation_refines` : the methods that configure networks, over a connection, are the
  operations of a store.
-/
import WpaCtrl.EventStream
import WpaCtrl.Discovery
import WpaCtrl.Configuration

open Text Machine

namespace WpaCtrl

variable {δ σ : Type} (text : δ → Text)

/-! ## Asking a daemon -/

/-- The daemon is asked, and `request` returns what it answers. -/
def exchangeWith (daemon : σ → Text → Text × σ) (d : σ) (command : Text) : Text × σ :=
  (replyText (daemon d command).1, (daemon d command).2)

/-- A method against a daemon reads the reply to the command it sends. -/
theorem Method.against_eq {β : Type} (m : Method β) (daemon : σ → Text → Text × σ) (d : σ) :
    m.against daemon d = (m.read (exchangeWith daemon d m.sent).1, (exchangeWith daemon d m.sent).2) :=
  rfl

/-- `Conversation text daemon s d log s' d'`: calls that return, each while one reply arrives,
which is the daemon's; and between them anything but a request, while no reply arrives. -/
inductive Conversation (daemon : σ → Text → Text × σ) :
    Connection δ → σ → List (Text × Text) → Connection δ → σ → Prop
  | nil {s : Connection δ} {d : σ} : Conversation daemon s d [] s d
  | meanwhile {s t u : Connection δ} {d e : σ} {log : List (Text × Text)} {a : Action δ}
      {seen : List (Observation δ)} (next : (client text).step s a = some (t, seen))
      (other : ∀ purpose timeout reachable, a ≠ .request purpose timeout reachable)
      (events : replies text (arrivals seen) = [])
      (rest : Conversation daemon t d log u e) : Conversation daemon s d log u e
  | call {s t u : Connection δ} {d e : σ} {log : List (Text × Text)} {purpose : Purpose}
      {timeout : ℚ} {steps : List (Taken (Connection δ) (Action δ) (Observation δ))} {x y : δ}
      (call : (client text).Call Connection.isIdle (.request purpose timeout true) s steps t)
      (returned : endings (trace steps) = [.returned purpose x])
      (replied : replies text (arrivals (trace steps)) = [y])
      (answer : text y = (daemon d purpose.command).1)
      (rest : Conversation daemon t (daemon d purpose.command).2 log u e) :
      Conversation daemon s d ((purpose.command, replyText (text x)) :: log) u e

/-! ## No reply is left behind -/

variable {text} {s s' : Connection δ}

/-- No reply waits on the socket. -/
def Connection.Clean (text : δ → Text) (s : Connection δ) : Prop :=
  s.Settled ∧ replies text s.waiting = []

theorem replies_eq_nil {ds : List δ} :
    replies text ds = [] ↔ ∀ d ∈ ds, isEvent (text d) = true := by
  simp [replies]

namespace Connection

/-- **No step leaves a reply behind**, but one that arrives. -/
theorem clean_of_step {a : Action δ} {seen : List (Observation δ)} (h : s.Clean text)
    (hnext : s.step text a = some (s', seen)) (hevents : replies text (arrivals seen) = []) :
    s'.Clean text := by
  obtain ⟨hsettled, hclean⟩ := h
  obtain ⟨heffect, hsettled'⟩ := step_effect hsettled hnext
  refine ⟨hsettled', ?_⟩
  rw [replies_eq_nil] at hclean hevents ⊢
  -- what waits behind the step has waited before it, or has arrived
  have hrest : ∀ {d rest}, s.socket = some (d :: rest) → ∀ x ∈ rest, isEvent (text x) = true := by
    intro d rest hsocket x hx
    exact hclean x (by rw [waiting_of_socket hsocket]; exact List.mem_cons_of_mem d hx)
  cases heffect with
  | quiet => exact hclean
  | opened => simp [waiting]
  | closed => simp [waiting]
  | @arrived ds d hsocket =>
    intro x hx
    rcases List.mem_append.mp (show x ∈ ds ++ [d] from hx) with hx | hx
    · exact hclean x (by rw [waiting_of_socket hsocket]; exact hx)
    · exact hevents x hx
  | setAside hsocket | answered hsocket | delivered hsocket | dropped hsocket => exact hrest hsocket
  | popped => exact hclean

end Connection

/-- A request during which a system call fails does not return. -/
theorem no_fail {steps : List (Taken (Connection δ) (Action δ) (Observation δ))}
    (h : (client text).Finishes Connection.isIdle s steps s')
    (hend : ∀ o ∈ trace steps, o ≠ .raised .connection) :
    ∀ step ∈ steps, step.action ≠ .fail := by
  induction h with
  | done => simp
  | @step s t u a seen steps busy next finish ih =>
    rw [trace_cons] at hend
    have hrest := ih fun o ho => hend o (List.mem_append_right _ ho)
    intro step hstep
    rcases List.mem_cons.mp hstep with rfl | hstep
    · rintro rfl
      obtain ⟨-, rfl⟩ := fail_raises next
      exact hend (.raised .connection) (by simp) rfl
    · exact hrest step hstep

/-- **One call**: what it returns is the reply that arrived, and no other is left. -/
theorem call_answered {purpose : Purpose} {timeout : ℚ}
    {steps : List (Taken (Connection δ) (Action δ) (Observation δ))} {x y : δ}
    (h : s.Clean text)
    (hcall : (client text).Call Connection.isIdle (.request purpose timeout true) s steps s')
    (hreturned : endings (trace steps) = [.returned purpose x])
    (hreplied : replies text (arrivals (trace steps)) = [y]) : x = y ∧ s'.Clean text := by
  have hend : ∀ o ∈ trace steps, o ≠ .raised .connection := by
    rintro _ ho rfl
    have hmem : .raised .connection ∈ endings (trace steps) := List.mem_filter.mpr ⟨ho, rfl⟩
    rw [hreturned] at hmem
    simp at hmem
  have hfail : ∀ step ∈ steps, step.action ≠ .fail := by
    obtain ⟨next, finish⟩ := hcall
    intro step hstep
    rcases List.mem_cons.mp hstep with rfl | hstep
    · simp
    · refine no_fail finish (fun o ho => hend o ?_) step hstep
      rw [trace_cons]
      exact List.mem_append_right _ ho
  have hidle : s'.isIdle = true := by
    obtain ⟨next, finish⟩ := hcall
    exact finish.ended
  have hsettled : s'.Settled := by
    intro hin
    rw [of_decide_eq_true hidle] at hin
    cases hin
  obtain ⟨events, reply, hconsumed, ⟨d, rfl, hd, -⟩ | ⟨-, htimeout, -⟩ | ⟨-, hstarved, -⟩⟩ :=
    call_request hcall hfail
  · obtain rfl : x = d := by
      rw [hreturned] at hd
      simpa using hd
    have hevents : replies text events = [] := replies_eq_nil.mpr hconsumed.isEvent_events
    have hx : replies text [x] = [x] := by
      simp [replies, hconsumed.isEvent_reply x rfl]
    have hinbox := congrArg (replies text) hconsumed.inbox
    rw [replies_append, replies_append, replies_append, h.2, hreplied, hevents, List.nil_append,
      List.nil_append, Option.toList_some, hx, List.singleton_append] at hinbox
    obtain ⟨rfl, hnone⟩ := List.cons.inj hinbox
    exact ⟨rfl, hsettled, hnone.symm⟩
  · rw [hreturned] at htimeout
    simp at htimeout
  · rw [hreturned] at hstarved
    simp at hstarved

/-! ## Whole conversations -/

section

variable {daemon : σ → Text → Text × σ} {d d' : σ} {log : List (Text × Text)}

theorem Conversation.faithful (h : Conversation text daemon s d log s' d') (hs : s.Clean text) :
    (log, d') = Logged.session (exchangeWith daemon) d (log.map Prod.fst) ∧ s'.Clean text := by
  induction h with
  | nil => exact ⟨rfl, hs⟩
  | meanwhile next _ events _ ih => exact ih (Connection.clean_of_step hs next events)
  | call call returned replied answer _ ih =>
    obtain ⟨rfl, hclean⟩ := call_answered hs call returned replied
    obtain ⟨hlog, hclean'⟩ := ih hclean
    refine ⟨?_, hclean'⟩
    rw [List.map_cons, Logged.session]
    simp only [exchangeWith, ← answer]
    exact congrArg (fun result => ((_, _) :: result.1, result.2)) hlog

/-- A connection that is idle, and that no reply waits on. -/
theorem Connection.clean_of_idle (hidle : s.control = .idle)
    (hwaiting : ∀ x ∈ s.waiting, isEvent (text x) = true) : s.Clean text := by
  refine ⟨fun hin => ?_, replies_eq_nil.mpr hwaiting⟩
  rw [hidle] at hin
  cases hin

/-- A daemon with no network is asked to add one, while something happens. -/
theorem exists_conversation_add :
    let print : Text → Text → Option Text := fun _ value => some value
    let d : Supplicant := ⟨Dict.empty, 0, by simp [Dict.empty]⟩
    ∃ s', Conversation id (fun d : Supplicant => d.handle print) Connection.fresh d
      [("ADD_NETWORK".toList, "0".toList)] s' d.add := by
  intro print d
  have hrun : ((client id).call? Connection.isIdle (.request (.request "ADD_NETWORK".toList) 5 true)
      Connection.fresh [.run, .run, .arrive "<3>CTRL-EVENT-CONNECTED".toList, .run, .run, .run,
        .arrive "0\n".toList, .run]).map (fun result =>
          decide (endings (trace result.1) = [.returned (.request "ADD_NETWORK".toList) "0\n".toList] ∧
            replies id (arrivals (trace result.1)) = ["0\n".toList])) = some true := by
    decide +kernel
  obtain ⟨⟨steps, s'⟩, hresult, hall⟩ := Option.map_eq_some_iff.mp hrun
  obtain ⟨hreturned, hreplied⟩ := of_decide_eq_true hall
  have hanswer : d.handle print "ADD_NETWORK".toList = (ofInt (0 : ℕ) ++ ['\n'], d.add) := rfl
  have hid : ofInt (0 : ℕ) ++ ['\n'] = "0\n".toList := by decide
  rw [hid] at hanswer
  have hrest : Conversation id (fun d : Supplicant => d.handle print) s'
      (d.handle print "ADD_NETWORK".toList).2 [] s' d.add := by
    rw [hanswer]
    exact .nil
  exact ⟨s', .call (call_of_call? hresult) hreturned hreplied (congrArg Prod.fst hanswer.symm) hrest⟩

/-- **The socket is not noticed.**  From a connection that no reply waits on, as long as every
call returns and one reply arrives during it, whatever events arrive at whatever time, and
however often the connection is read, closed and opened between the calls: each call returns
what the daemon answers to it, and the daemon is what it is after these commands. -/
theorem conversation_faithful (text : δ → Text) (daemon : σ → Text → Text × σ)
    (h : Conversation text daemon s d log s' d') (hidle : s.control = .idle)
    (hwaiting : ∀ x ∈ s.waiting, isEvent (text x) = true) :
    log = (Logged.session (exchangeWith daemon) d (log.map Prod.fst)).1 ∧
      d' = (Logged.session (exchangeWith daemon) d (log.map Prod.fst)).2 ∧
      ∀ x ∈ s'.waiting, isEvent (text x) = true := by
  obtain ⟨hlog, hclean⟩ := h.faithful (Connection.clean_of_idle hidle hwaiting)
  exact ⟨congrArg Prod.fst hlog, congrArg Prod.snd hlog, replies_eq_nil.mp hclean.2⟩

/-- An event arrives while a network is added. -/
theorem conversation_faithful_add :
    let daemon := fun d : Supplicant => d.handle fun _ value => some value
    let d : Supplicant := ⟨Dict.empty, 0, by simp [Dict.empty]⟩
    let log := [("ADD_NETWORK".toList, "0".toList)]
    log = (Logged.session (exchangeWith daemon) d (log.map Prod.fst)).1 ∧
      d.add = (Logged.session (exchangeWith daemon) d (log.map Prod.fst)).2 ∧
      ∃ s', Conversation id daemon Connection.fresh d log s' d.add ∧
        ∀ x ∈ s'.waiting, isEvent (id x) = true := by
  intro daemon d log
  obtain ⟨s', h⟩ := exists_conversation_add
  obtain ⟨hlog, hd, hwaiting⟩ := conversation_faithful id daemon h rfl (by simp [Connection.waiting,
    Connection.fresh])
  exact ⟨hlog, hd, s', h, hwaiting⟩

end

/-! ## Configuring networks over a connection -/

/-- The outcome of a method, by the reply to what it sends. -/
def Method.outcome {β : Type} (m : Method β) (result : β → NetworkOutcome) (reply : Text) :
    NetworkOutcome :=
  match m.read reply with
  | .ok value => result value
  | .error error => .failed error

/-- The command a call sends. -/
def NetworkCall.sent : NetworkCall → Text
  | .add => Method.addNetwork.sent
  | .remove target => (Method.removeNetwork target.text).sent
  | .set id variable_ value quoted =>
    (Method.setNetwork (ofInt id) variable_.name value quoted).sent
  | .get id variable_ => (Method.getNetwork (ofInt id) variable_.name).sent
  | .enable target => (Method.enableNetwork target.text).sent
  | .disable target => (Method.disableNetwork target.text).sent
  | .select id => (Method.selectNetwork (ofInt id)).sent
  | .list => Method.listNetworks.sent

/-- What a call makes of the reply. -/
def NetworkCall.outcome : NetworkCall → Text → NetworkOutcome
  | .add => Method.addNetwork.outcome .added
  | .remove target => (Method.removeNetwork target.text).outcome fun _ => .done
  | .set id variable_ value quoted =>
    (Method.setNetwork (ofInt id) variable_.name value quoted).outcome fun _ => .done
  | .get id variable_ => (Method.getNetwork (ofInt id) variable_.name).outcome .text
  | .enable target => (Method.enableNetwork target.text).outcome fun _ => .done
  | .disable target => (Method.disableNetwork target.text).outcome fun _ => .done
  | .select id => (Method.selectNetwork (ofInt id)).outcome fun _ => .done
  | .list => Method.listNetworks.outcome .networks

section

variable (print : Text → Text → Option Text)

theorem outcomeOf_against {β : Type} (m : Method β) (result : β → NetworkOutcome) (d : Supplicant) :
    outcomeOf result (m.against (fun d => d.handle print) d) =
      (m.outcome result (exchangeWith (fun d => d.handle print) d m.sent).1,
        (exchangeWith (fun d => d.handle print) d m.sent).2) := by
  rw [Method.against_eq]
  unfold outcomeOf Method.outcome
  cases m.read (exchangeWith (fun d => d.handle print) d m.sent).1 with
  | ok value => rfl
  | error error => rfl

/-- A call against the daemon is an exchange, and what is made of the reply. -/
theorem perform_eq (d : Supplicant) (call : NetworkCall) :
    d.perform print call =
      (call.outcome (exchangeWith (fun d => d.handle print) d call.sent).1,
        (exchangeWith (fun d => d.handle print) d call.sent).2) := by
  cases call with
  | add => exact outcomeOf_against print Method.addNetwork .added d
  | remove target => exact outcomeOf_against print (Method.removeNetwork target.text) _ d
  | set id variable_ value quoted =>
    exact outcomeOf_against print (Method.setNetwork (ofInt id) variable_.name value quoted) _ d
  | get id variable_ =>
    exact outcomeOf_against print (Method.getNetwork (ofInt id) variable_.name) .text d
  | enable target => exact outcomeOf_against print (Method.enableNetwork target.text) _ d
  | disable target => exact outcomeOf_against print (Method.disableNetwork target.text) _ d
  | select id => exact outcomeOf_against print (Method.selectNetwork (ofInt id)) _ d
  | list => exact outcomeOf_against print Method.listNetworks .networks d

/-- Exchanges one after the other, read as the calls that were made. -/
theorem session_eq (d : Supplicant) (calls : List NetworkCall) :
    let exchanged := Logged.session (exchangeWith fun d => d.handle print) d
      (calls.map NetworkCall.sent)
    d.session print calls =
      (calls.zipWith (fun call entry => (call, call.outcome entry.2)) exchanged.1, exchanged.2) := by
  induction calls generalizing d with
  | nil => rfl
  | cons call calls ih =>
    have hperform := perform_eq print d call
    have hrest := ih (exchangeWith (fun d => d.handle print) d call.sent).2
    unfold Supplicant.session at hrest ⊢
    rw [List.map_cons, Logged.session, Logged.session]
    simp only [hperform]
    exact congrArg (fun result => ((_, _) :: result.1, result.2)) hrest

end

end WpaCtrl
