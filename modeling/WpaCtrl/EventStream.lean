/-
# No event is lost, and no reply is taken for one

`request` and `next_event` share one stream of datagrams and a side queue.  The
ledger of a run keeps what arrived since the connection was last opened or closed,
what `next_event` returned of it, and which other datagrams were consumed; it is kept
from the observations alone, and the machine is related to it by one invariant.

* `event_stream_conserved` : along every run, what was returned, what is queued and
  what still waits in the socket are together what arrived, in order and once each.
-/
import WpaCtrl.Client

open Text

namespace WpaCtrl

variable {δ : Type} (text : δ → Text)

/-! ## The two kinds of datagrams -/

/-- The events among some datagrams, parsed. -/
def eventImages (datagrams : List δ) : List Event :=
  (datagrams.filter fun d => isEvent (text d)).map fun d => parseEvent (text d)

/-- The other datagrams. -/
def replies (datagrams : List δ) : List δ := datagrams.filter fun d => !isEvent (text d)

theorem eventImages_append (ds es : List δ) :
    eventImages text (ds ++ es) = eventImages text ds ++ eventImages text es := by
  unfold eventImages
  rw [List.filter_append, List.map_append]

theorem replies_append (ds es : List δ) :
    replies text (ds ++ es) = replies text ds ++ replies text es := by
  unfold replies
  rw [List.filter_append]

variable {text} in
theorem eventImages_cons_of_isEvent {d : δ} (h : isEvent (text d) = true) (ds : List δ) :
    eventImages text (d :: ds) = parseEvent (text d) :: eventImages text ds := by
  simp [eventImages, h]

variable {text} in
theorem replies_cons_of_isEvent {d : δ} (h : isEvent (text d) = true) (ds : List δ) :
    replies text (d :: ds) = replies text ds := by
  simp [replies, h]

variable {text} in
theorem eventImages_cons_of_reply {d : δ} (h : isEvent (text d) = false) (ds : List δ) :
    eventImages text (d :: ds) = eventImages text ds := by
  simp [eventImages, h]

variable {text} in
theorem replies_cons_of_reply {d : δ} (h : isEvent (text d) = false) (ds : List δ) :
    replies text (d :: ds) = d :: replies text ds := by
  simp [replies, h]

/-! ## The ledger of a run -/

/-- What happened since the connection was last opened or closed. -/
structure Ledger (δ : Type) where
  /-- the datagrams that arrived on the socket -/
  arrived : List δ
  /-- the events `next_event` returned -/
  delivered : List Event
  /-- the datagrams `request` returned or `next_event` dropped -/
  consumed : List δ
  /-- what the last successful `attach` or `detach` made of the flag -/
  attached : Bool

namespace Ledger

/-- Nothing happened yet. -/
def empty : Ledger δ := ⟨[], [], [], false⟩

/-- Enter an observation. -/
def record (l : Ledger δ) : Observation δ → Ledger δ
  | .opened | .closed => empty
  | .arrived d => { l with arrived := l.arrived ++ [d] }
  | .delivered event => { l with delivered := l.delivered ++ [event] }
  | .returned _ d | .dropped d => { l with consumed := l.consumed ++ [d] }
  | .flagged attached => { l with attached := attached }
  | _ => l

/-- The ledger of a trace. -/
def of (trace : List (Observation δ)) : Ledger δ := trace.foldl record empty

theorem foldl_record_quiet {seen : List (Observation δ)} (h : ∀ o ∈ seen, o.quiet = true)
    (l : Ledger δ) : seen.foldl record l = l := by
  induction seen with
  | nil => rfl
  | cons o seen ih =>
    have ho : record l o = l := by
      have hquiet := h o (by simp)
      cases o <;> first | rfl | simp [Observation.quiet] at hquiet
    rw [List.foldl_cons, ho, ih fun p hp => h p (by simp [hp])]

end Ledger

/-- The datagrams that wait in the socket. -/
def Connection.waiting (s : Connection δ) : List δ := s.socket.getD []

/-- The machine and its ledger agree. -/
structure Balanced (l : Ledger δ) (s : Connection δ) : Prop where
  /-- every event that arrived was returned, is queued or waits, in this order -/
  events : l.delivered ++ s.events ++ eventImages text s.waiting = eventImages text l.arrived
  /-- every other datagram was consumed or waits -/
  replies : l.consumed ++ replies text s.waiting = replies text l.arrived
  attached : s.attached = l.attached
  /-- nothing outlives the socket -/
  closed : s.socket = none → s.events = [] ∧ s.attached = false

/-! ## Every step keeps the balance -/

variable {text} {s s' : Connection δ} {seen : List (Observation δ)}

theorem Connection.waiting_of_socket {ds : List δ} (h : s.socket = some ds) : s.waiting = ds := by
  rw [Connection.waiting, h]
  rfl

theorem Effect.balanced {l : Ledger δ} (h : Effect text s s' seen) (hl : Balanced text l s) :
    Balanced text (seen.foldl Ledger.record l) s' := by
  obtain ⟨hevents, hreplies, hattached, hclosed⟩ := hl
  cases h with
  | quiet hseen =>
    rw [Ledger.foldl_record_quiet hseen]
    exact ⟨hevents, hreplies, hattached, hclosed⟩
  | opened hsocket =>
    obtain ⟨hempty, hflag⟩ := hclosed hsocket
    refine ⟨?_, rfl, hflag, fun h => by simp at h⟩
    show [] ++ s.events ++ [] = []
    rw [hempty]
    rfl
  | closed => exact ⟨rfl, rfl, rfl, fun _ => ⟨rfl, rfl⟩⟩
  | @arrived waiting d hsocket =>
    rw [Connection.waiting_of_socket hsocket] at hevents hreplies
    refine ⟨?_, ?_, hattached, fun h => by simp at h⟩
    · show l.delivered ++ s.events ++ eventImages text (waiting ++ [d]) =
        eventImages text (l.arrived ++ [d])
      rw [eventImages_append, eventImages_append, ← hevents, List.append_assoc, List.append_assoc,
        List.append_assoc]
    · show l.consumed ++ replies text (waiting ++ [d]) = replies text (l.arrived ++ [d])
      rw [replies_append, replies_append, ← hreplies, List.append_assoc]
  | @setAside d rest control hsocket hd =>
    -- the first event in the socket becomes the last one of the queue
    rw [Connection.waiting_of_socket hsocket] at hevents hreplies
    refine ⟨?_, ?_, hattached, fun h => by simp at h⟩
    · show l.delivered ++ (s.events ++ [parseEvent (text d)]) ++ eventImages text rest =
        eventImages text l.arrived
      rw [← hevents, eventImages_cons_of_isEvent hd]
      simp
    · show l.consumed ++ replies text rest = replies text l.arrived
      rw [← hreplies, replies_cons_of_isEvent hd]
  | @answered d rest purpose attached seen hsocket hd hflag =>
    rw [Connection.waiting_of_socket hsocket, eventImages_cons_of_reply hd] at hevents
    rw [Connection.waiting_of_socket hsocket, replies_cons_of_reply hd] at hreplies
    have hconsumed : l.consumed ++ [d] ++ replies text rest = replies text l.arrived := by
      rw [← hreplies, List.append_assoc, List.singleton_append]
    rw [List.foldl_cons]
    rcases hflag with ⟨rfl, hquiet⟩ | rfl
    · rw [Ledger.foldl_record_quiet hquiet]
      exact ⟨hevents, hconsumed, hattached, fun h => by simp at h⟩
    · exact ⟨hevents, hconsumed, rfl, fun h => by simp at h⟩
  | @popped event events hqueue =>
    refine ⟨?_, hreplies, hattached, fun h => ?_⟩
    · show l.delivered ++ [event] ++ events ++ eventImages text s.waiting =
        eventImages text l.arrived
      rw [← hevents, hqueue]
      simp
    · rw [(hclosed h).1] at hqueue
      simp at hqueue
  | @delivered d rest hsocket hd hempty =>
    -- nothing is on the queue that the event could overtake
    rw [Connection.waiting_of_socket hsocket] at hevents hreplies
    refine ⟨?_, ?_, hattached, fun h => by simp at h⟩
    · show l.delivered ++ [parseEvent (text d)] ++ s.events ++ eventImages text rest =
        eventImages text l.arrived
      rw [← hevents, eventImages_cons_of_isEvent hd, hempty]
      simp
    · show l.consumed ++ replies text rest = replies text l.arrived
      rw [← hreplies, replies_cons_of_isEvent hd]
  | @dropped d rest control hsocket hd =>
    rw [Connection.waiting_of_socket hsocket, eventImages_cons_of_reply hd] at hevents
    rw [Connection.waiting_of_socket hsocket, replies_cons_of_reply hd] at hreplies
    refine ⟨hevents, ?_, hattached, fun h => by simp at h⟩
    show l.consumed ++ [d] ++ replies text rest = replies text l.arrived
    rw [← hreplies, List.append_assoc, List.singleton_append]

/-- Along every run the machine and its ledger agree. -/
theorem balanced_of_reaches {trace : List (Observation δ)} (h : (client text).Reaches trace s) :
    Balanced text (Ledger.of trace) s ∧ s.Settled := by
  apply h.account fun l s => Balanced text l s ∧ s.Settled
  · exact ⟨⟨rfl, rfl, rfl, fun _ => ⟨rfl, rfl⟩⟩, fun _ => rfl⟩
  · rintro l s action s' seen ⟨hl, hs⟩ hstep
    obtain ⟨heffect, hs'⟩ := Connection.step_effect hs hstep
    exact ⟨heffect.balanced hl, hs'⟩

/-! ## What the methods return -/

/-- The parse of a datagram that starts with `<`. -/
def Event.Genuine (event : Event) : Prop :=
  isEvent event.raw = true ∧ parseEvent event.raw = event

theorem genuine_parseEvent {message : Text} (h : isEvent message = true) :
    (parseEvent message).Genuine := ⟨h, rfl⟩

variable (text) in
/-- `request` returns and `next_event` drops no event, and `next_event` returns
nothing else. -/
def Honest : Observation δ → Prop
  | .returned _ d | .dropped d => isEvent (text d) = false
  | .delivered event => event.Genuine
  | _ => True

theorem honest_of_quiet {o : Observation δ} (h : o.quiet = true) : Honest text o := by
  cases o <;> trivial

theorem Effect.honest (h : Effect text s s' seen) (hs : ∀ event ∈ s.events, event.Genuine) :
    (∀ event ∈ s'.events, event.Genuine) ∧ ∀ o ∈ seen, Honest text o := by
  cases h with
  | quiet hseen => exact ⟨hs, fun o ho => honest_of_quiet (hseen o ho)⟩
  | opened hsocket => exact ⟨hs, by simp [Honest]⟩
  | closed => exact ⟨by simp, by simp [Honest]⟩
  | arrived hsocket => exact ⟨hs, by simp [Honest]⟩
  | setAside hsocket hd =>
    refine ⟨fun event hevent => ?_, by simp⟩
    rcases List.mem_append.mp hevent with hevent | hevent
    · exact hs event hevent
    · rw [List.mem_singleton.mp hevent]
      exact genuine_parseEvent hd
  | answered hsocket hd hflag =>
    refine ⟨hs, fun o ho => ?_⟩
    rcases List.mem_cons.mp ho with rfl | ho
    · exact hd
    · rcases hflag with ⟨-, hquiet⟩ | rfl
      · exact honest_of_quiet (hquiet o ho)
      · rw [List.mem_singleton.mp ho]
        trivial
  | popped hqueue =>
    rw [hqueue] at hs
    refine ⟨fun event hevent => hs event (by simp [hevent]), fun o ho => ?_⟩
    rw [List.mem_singleton.mp ho]
    exact hs _ (by simp)
  | delivered hsocket hd hempty =>
    refine ⟨hs, fun o ho => ?_⟩
    rw [List.mem_singleton.mp ho]
    exact genuine_parseEvent hd
  | dropped hsocket hd =>
    refine ⟨hs, fun o ho => ?_⟩
    rw [List.mem_singleton.mp ho]
    exact hd

theorem honest_of_reaches {trace : List (Observation δ)} (h : (client text).Reaches trace s) :
    ∀ o ∈ trace, Honest text o := by
  have hinv : (∀ event ∈ s.events, event.Genuine) ∧ ∀ o ∈ trace, Honest text o := by
    apply h.invariant fun trace s =>
      (∀ event ∈ s.events, event.Genuine) ∧ ∀ o ∈ trace, Honest text o
    · exact ⟨fun _ hevent => absurd hevent List.not_mem_nil, by simp⟩
    · rintro trace s action s' seen run ⟨hevents, htrace⟩ hstep
      obtain ⟨heffect, -⟩ := Connection.step_effect (balanced_of_reaches run).2 hstep
      obtain ⟨hevents', hseen⟩ := heffect.honest hevents
      refine ⟨hevents', fun o ho => ?_⟩
      rcases List.mem_append.mp ho with ho | ho
      · exact htrace o ho
      · exact hseen o ho
  exact hinv.2

/-- **The event stream is conserved.**  Along every run of a connection, whatever
arrives and whatever is called in whatever order: the events `next_event` has
returned since the connection was opened, those on the side queue and the parses of
those in the socket are the events that arrived since then, in order and once each;
`request` returns no event and `next_event` nothing else; every other datagram that
was consumed was returned by one `request` or dropped by `next_event`; and after
`close` neither an event nor the attached flag is left. -/
theorem event_stream_conserved (text : δ → Text) {trace : List (Observation δ)}
    {s : Connection δ} (h : (client text).Reaches trace s) :
    (Ledger.of trace).delivered ++ s.events ++ eventImages text s.waiting =
        eventImages text (Ledger.of trace).arrived ∧
      (Ledger.of trace).consumed ++ replies text s.waiting =
        replies text (Ledger.of trace).arrived ∧
      (∀ purpose d, .returned purpose d ∈ trace → isEvent (text d) = false) ∧
      (∀ event, .delivered event ∈ trace →
        isEvent event.raw = true ∧ parseEvent event.raw = event) ∧
      s.attached = (Ledger.of trace).attached ∧
      (s.socket = none → s.events = [] ∧ s.attached = false) := by
  obtain ⟨⟨hevents, hreplies, hattached, hclosed⟩, -⟩ := balanced_of_reaches h
  have hhonest := honest_of_reaches h
  exact ⟨hevents, hreplies, fun _ _ ho => hhonest _ ho, fun _ ho => hhonest _ ho, hattached,
    hclosed⟩

/-- An event between a command and its reply waits on the side queue. -/
theorem event_stream_conserved_mid_command :
    let event : Text := "<3>CTRL-EVENT-SCAN-RESULTS ".toList
    let reply : Text := "wpa_state=COMPLETED\n".toList
    let status : Purpose := .request "STATUS".toList
    let trace : List (Observation Text) :=
      [.opened, .sent "STATUS".toList, .arrived event, .arrived reply, .returned status reply]
    let s : Connection Text := ⟨some [], false, [parseEvent event], 0, .idle⟩
    (Ledger.of trace).delivered ++ s.events ++ eventImages id s.waiting =
        eventImages id (Ledger.of trace).arrived ∧
      (Ledger.of trace).consumed ++ replies id s.waiting = replies id (Ledger.of trace).arrived ∧
      isEvent reply = false := by
  intro event reply status trace s
  have hrun : (client id).run (client id).start
      [.request status 5 true, .run, .arrive event, .arrive reply, .run, .run, .run, .run, .run] =
        some (s, trace) := by decide +kernel
  obtain ⟨hevents, hreplies, hreturned, -⟩ :=
    event_stream_conserved id (Machine.reaches_of_run hrun)
  exact ⟨hevents, hreplies, hreturned status reply (by decide)⟩

end WpaCtrl
