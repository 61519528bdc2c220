/-
# Finding the interfaces (`discovery.py`)

`find_interfaces` asks the global socket which interfaces it has, and reads the control
directory where that brings none; what sysfs does not know is dropped afterwards.  That
the socket cannot be reached leaves the client as an exception and is caught, but a
refusal is a reply like any other, one line of text.

* `asked_of_call` : how asking the global socket can go, over every run of the client;
* `fallback_iff` : exactly when an answer that is no list leaves the result alone.
-/
import WpaCtrl.Compat
import WpaCtrl.Transport

open Text Machine

namespace WpaCtrl

/-! ## The file system -/

/-- What the operating system says of files; no directory has a name twice. -/
structure FileSystem where
  /-- `os.listdir`, with `none` for an `OSError` -/
  listdir : Text → Option (List Text)
  nodup_listdir : ∀ path entries, listdir path = some entries → entries.Nodup
  /-- `S_ISSOCK` of what `os.stat` says, with `none` for an `OSError` -/
  isSock : Text → Option Bool
  isdir : Text → Bool
  lexists : Text → Bool

/-- `sorted`, by code points. -/
def sorted (names : List Text) : List Text := names.mergeSort fun a b => decide (a ≤ b)

namespace FileSystem

variable (fs : FileSystem)

/-- `control_sockets` -/
def controlSockets (ctrlDir : Text) : List Text :=
  match fs.listdir ctrlDir with
  | none => []
  | some entries => sorted (entries.filter fun entry => fs.isSock (join ctrlDir entry) = some true)

/-- `is_wireless` -/
def isWireless (ifname sysClassNet : Text) : Bool :=
  fs.lexists (join (join sysClassNet ifname) "phy80211".toList)

/-- `have_sysfs` -/
def haveSysfs (sysClassNet : Text) : Bool := fs.isdir sysClassNet

/-- `_interface_exists` -/
def interfaceExists (ifname sysClassNet : Text) : Bool := fs.isdir (join sysClassNet ifname)

/-- Whether sysfs lets a name pass; without sysfs everything does. -/
def passes (wirelessOnly : Bool) (sysClassNet ifname : Text) : Bool :=
  !fs.haveSysfs sysClassNet ||
    fs.interfaceExists ifname sysClassNet && (!wirelessOnly || fs.isWireless ifname sysClassNet)

end FileSystem

/-! ## The global socket -/

/-- `WpaCtrl.interfaces`, of what `request` returned. -/
def interfaces (reply : Text) : List Text := (splitlines reply).filter fun line => line ≠ []

/-- What comes of asking the global socket. -/
inductive GlobalAnswer where
  /-- `socket.socket()` raises; `open` makes its socket outside of the `try` -/
  | noSocket (error : OsError)
  /-- an exception of the package -/
  | raised (error : ClientError)
  /-- `request` returned -/
  | replied (reply : Text)

/-- `_interfaces_from_global`: what the client raises is caught. -/
def interfacesFromGlobal : GlobalAnswer → Except OsError (List Text)
  | .noSocket error => .error error
  | .raised _ => .ok []
  | .replied reply => .ok (interfaces reply)

section

variable {δ : Type} (text : δ → Text)

/-- The answers there can be: what a run of a new client comes to that is opened and asked
for its interfaces. -/
inductive Asked : GlobalAnswer → Prop
  | noSocket (error : OsError) : Asked (.noSocket error)
  | notOpened {s : Connection δ} {error : ClientError}
      (hopen : (client text).step (client text).start (.openCall false) =
        some (s, [.raised error])) : Asked (.raised error)
  | raised {s s' : Connection δ} {seen : List (Observation δ)} {reachable : Bool}
      {steps : List (Taken (Connection δ) (Action δ) (Observation δ))} {error : ClientError}
      (hopen : (client text).step (client text).start (.openCall true) = some (s, seen))
      (hcall : (client text).Call Connection.isIdle
        (.request (.request "INTERFACES".toList) defaultTimeout reachable) s steps s')
      (hend : endings (trace steps) = [.raised error]) : Asked (.raised error)
  | replied {s s' : Connection δ} {seen : List (Observation δ)} {reachable : Bool}
      {steps : List (Taken (Connection δ) (Action δ) (Observation δ))} {d : δ}
      (hopen : (client text).step (client text).start (.openCall true) = some (s, seen))
      (hcall : (client text).Call Connection.isIdle
        (.request (.request "INTERFACES".toList) defaultTimeout reachable) s steps s')
      (hend : endings (trace steps) = [.returned (.request "INTERFACES".toList) d]) :
      Asked (.replied (replyText (text d)))

end

/-- An answer that is no list of interfaces: the socket could not be opened or asked, no
line of the reply names anything, or the daemon refused. -/
def GlobalAnswer.NoList : GlobalAnswer → Prop
  | .noSocket _ | .raised _ => True
  | .replied reply => interfaces reply = [] ∨ reply = replyFail ∨ reply = replyUnknown

/-! ## `find_interfaces` -/

variable {δ : Type} {text : δ → Text}

/-- `find_interfaces`; `ask` says how asking the socket at a path goes. -/
def findInterfaces (fs : FileSystem) (ask : Text → {answer : GlobalAnswer // Asked text answer})
    (ctrlDir : Text) (globalPath : Option Text) (wirelessOnly : Bool) (sysClassNet : Text) :
    Except OsError (List Text) := do
  let names ←
    match globalPath with
    | none | some [] => .ok []
    | some path => interfacesFromGlobal (ask path).1
  let names := if names = [] then fs.controlSockets ctrlDir else names
  let names :=
    if fs.haveSysfs sysClassNet then
      names.filter fun name => fs.interfaceExists name sysClassNet &&
        (!wirelessOnly || fs.isWireless name sysClassNet)
    else names
  return sorted names

/-! ## Every run of the client is one of the answers -/

variable {s s' : Connection δ} {purpose : Purpose}
  {steps : List (Taken (Connection δ) (Action δ) (Observation δ))}

theorem fail_raises {seen : List (Observation δ)}
    (h : (client text).step s .fail = some (s', seen)) :
    s' = { s with control := .idle } ∧ seen = [.raised .connection] := by
  have hfail : s.fail = some (s', seen) := h
  unfold Connection.fail Connection.raise at hfail
  split at hfail
  all_goals first
    | exact (Prod.mk.inj (Option.some.inj hfail)).imp Eq.symm Eq.symm
    | cases hfail

/-- A request over an open socket, though its system calls may fail, has one end: a
reply or an exception. -/
theorem endings_of_finishes {waiting : List δ}
    (h : (client text).Finishes Connection.isIdle s steps s')
    (hin : s.control.request? = some purpose) (hsocket : s.socket = some waiting) :
    (∃ error, endings (trace steps) = [.raised error]) ∨
      ∃ d, endings (trace steps) = [.returned purpose d] := by
  induction h generalizing waiting with
  | done hidle => exact absurd (of_decide_eq_true hidle) (Connection.control_ne_idle hin)
  | @step s t u a seen steps busy next finish ih =>
    rw [trace_cons, endings_append]
    by_cases hfail : a = .fail
    · -- an `OSError` of `send` or `recv` leaves as a `WpaCtrlConnectionError`
      obtain ⟨rfl, rfl⟩ := fail_raises (hfail ▸ next)
      obtain ⟨rfl, rfl⟩ := finish.of_idle rfl
      exact Or.inl ⟨.connection, rfl⟩
    · cases Connection.request_turn hin hsocket hfail next with
      | @arrived waiting d ha h => exact ih hin rfl
      | sent _ hcontrol => exact ih rfl hsocket
      | moved hfed hcontrol => exact ih hcontrol hsocket
      | @setAside d rest deadline _ h hd => exact ih rfl rfl
      | @answered d rest attached seen _ h hd hseen _ =>
        obtain ⟨rfl, rfl⟩ := finish.of_idle rfl
        refine Or.inr ⟨d, ?_⟩
        show .returned purpose d :: endings seen ++ [] = _
        rw [hseen.2]
        rfl
      | timedOut _ hfed _ =>
        obtain ⟨rfl, rfl⟩ := finish.of_idle rfl
        exact Or.inl ⟨.timeout, rfl⟩
      | starved ha h =>
        obtain ⟨rfl, rfl⟩ := finish.of_idle rfl
        exact Or.inl ⟨.connection, rfl⟩

/-- **Every run of the client is one of the answers**: asking over a socket that is open
ends with an exception of the package, or with a reply. -/
theorem asked_of_call {seen : List (Observation δ)} {reachable : Bool}
    (hopen : (client text).step (client text).start (.openCall true) = some (s, seen))
    (hcall : (client text).Call Connection.isIdle
      (.request (.request "INTERFACES".toList) defaultTimeout reachable) s steps s') :
    (∃ error, endings (trace steps) = [.raised error] ∧ Asked text (.raised error)) ∨
      ∃ d, endings (trace steps) = [.returned (.request "INTERFACES".toList) d] ∧
        Asked text (.replied (replyText (text d))) := by
  have hopened : s = { (Connection.fresh : Connection δ) with socket := some [] } :=
    (Prod.mk.inj (Option.some.inj hopen)).1.symm
  have hends : (∃ error, endings (trace steps) = [.raised error]) ∨
      ∃ d, endings (trace steps) = [.returned (.request "INTERFACES".toList) d] := by
    obtain ⟨next, finish⟩ := hcall
    rw [hopened] at next
    obtain ⟨hsending, rfl⟩ := Prod.mk.inj (Option.some.inj next)
    rw [trace_cons]
    exact endings_of_finishes finish (by rw [← hsending]; rfl) (by rw [← hsending])
  rcases hends with ⟨error, hend⟩ | ⟨d, hend⟩
  · exact Or.inl ⟨error, hend, .raised hopen hcall hend⟩
  · exact Or.inr ⟨d, hend, .replied hopen hcall hend⟩

/-! ## What is found -/

/-- The same names make the same sorted list. -/
theorem sorted_eq_sorted_iff {names names' : List Text} :
    sorted names = sorted names' ↔ names.Perm names' := by
  have hperm : ∀ names, (sorted names).Perm names := fun names => List.mergeSort_perm _ _
  constructor
  · intro h
    exact (hperm names).symm.trans (h ▸ hperm names')
  · intro h
    have hpairwise : ∀ names, (sorted names).Pairwise (· ≤ ·) := fun names =>
      List.pairwise_mergeSort' (· ≤ ·) names
    exact ((hperm names).trans (h.trans (hperm names').symm)).eq_of_pairwise'
      (hpairwise names) (hpairwise names')

/-- One name is found as well as some names, once the same check has been made of all. -/
theorem sorted_filter_singleton_iff {names : List Text} (hnodup : names.Nodup)
    (passes : Text → Bool) (name : Text) :
    sorted ([name].filter passes) = sorted (names.filter passes) ↔
      (∀ n ∈ names, passes n = true → n = name) ∧ (passes name = true → name ∈ names) := by
  rw [sorted_eq_sorted_iff, List.perm_ext_iff_of_nodup ((List.nodup_singleton name).filter _)
    (hnodup.filter _)]
  simp only [List.mem_filter, List.mem_singleton]
  constructor
  · intro h
    exact ⟨fun n hn hpasses => ((h n).mpr ⟨hn, hpasses⟩).1,
      fun hpasses => ((h name).mp ⟨rfl, hpasses⟩).1⟩
  · rintro ⟨honly, hthere⟩ n
    constructor
    · rintro ⟨rfl, hpasses⟩
      exact ⟨hthere hpasses, hpasses⟩
    · rintro ⟨hn, hpasses⟩
      exact ⟨honly n hn hpasses, hpasses⟩

namespace FileSystem

variable (fs : FileSystem) {ctrlDir sysClassNet : Text} {wirelessOnly : Bool}

theorem nodup_controlSockets (ctrlDir : Text) : (fs.controlSockets ctrlDir).Nodup := by
  unfold controlSockets
  cases hentries : fs.listdir ctrlDir with
  | none => exact List.nodup_nil
  | some entries =>
    have hnodup := fs.nodup_listdir ctrlDir entries hentries
    exact (List.mergeSort_perm _ _).nodup_iff.mpr (hnodup.filter _)

theorem filter_passes (names : List Text) :
    (if fs.haveSysfs sysClassNet then
      names.filter fun name => fs.interfaceExists name sysClassNet &&
        (!wirelessOnly || fs.isWireless name sysClassNet)
    else names) = names.filter (fs.passes wirelessOnly sysClassNet) := by
  unfold passes
  cases fs.haveSysfs sysClassNet <;> simp

end FileSystem

variable {fs : FileSystem} {ask : Text → {answer : GlobalAnswer // Asked text answer}}
  {ctrlDir path sysClassNet : Text} {wirelessOnly : Bool}

/-- Without a global socket, what is found are the sockets of the directory that pass. -/
theorem findInterfaces_none : findInterfaces fs ask ctrlDir none wirelessOnly sysClassNet =
    .ok (sorted ((fs.controlSockets ctrlDir).filter (fs.passes wirelessOnly sysClassNet))) :=
  congrArg (fun names => (Except.ok (sorted names) : Except OsError (List Text)))
    (fs.filter_passes (fs.controlSockets ctrlDir))

/-- With one, they are the names it brings, if there are any. -/
theorem findInterfaces_some (hpath : path ≠ []) :
    findInterfaces fs ask ctrlDir (some path) wirelessOnly sysClassNet =
      (interfacesFromGlobal (ask path).1).map fun names =>
        sorted ((if names = [] then fs.controlSockets ctrlDir else names).filter
          (fs.passes wirelessOnly sysClassNet)) := by
  obtain ⟨c, path, rfl⟩ := List.exists_cons_of_ne_nil hpath
  show (interfacesFromGlobal (ask (c :: path)).1).bind _ = _
  cases interfacesFromGlobal (ask (c :: path)).1 with
  | error error => rfl
  | ok names =>
    exact congrArg (fun names => (Except.ok (sorted names) : Except OsError (List Text)))
      (fs.filter_passes _)

/-- A refusal is a line of text, and read as a name. -/
theorem interfaces_refusal {refusal : Text} (h : refusal ∈ [replyFail, replyUnknown]) :
    interfaces refusal = [refusal] := by
  simp only [List.mem_cons, List.not_mem_nil, or_false] at h
  rcases h with rfl | rfl <;> decide

/-- **Exactly when an answer that is no list leaves the result alone**: the client could
make its socket, and a refusal, if there was one, is as good as the directory: no socket
there passes sysfs but one of the name the refusal spells, and it is there if that name
passes. -/
theorem fallback_iff (fs : FileSystem) (ask : Text → {answer : GlobalAnswer // Asked text answer})
    (ctrlDir : Text) {path : Text} (hpath : path ≠ []) (wirelessOnly : Bool) (sysClassNet : Text)
    (hanswer : (ask path).1.NoList) :
    findInterfaces fs ask ctrlDir (some path) wirelessOnly sysClassNet =
        findInterfaces fs ask ctrlDir none wirelessOnly sysClassNet ↔
      (∀ error, (ask path).1 ≠ .noSocket error) ∧
        ∀ refusal ∈ [replyFail, replyUnknown], (ask path).1 = .replied refusal →
          (∀ name ∈ fs.controlSockets ctrlDir,
            fs.passes wirelessOnly sysClassNet name = true → name = refusal) ∧
          (fs.passes wirelessOnly sysClassNet refusal = true →
            refusal ∈ fs.controlSockets ctrlDir) := by
  rw [findInterfaces_some hpath, findInterfaces_none]
  generalize (ask path).1 = answer at hanswer
  have hnodup := fs.nodup_controlSockets ctrlDir
  cases answer with
  | noSocket error =>
    refine iff_of_false (fun h => ?_) fun h => h.1 error rfl
    cases h
  | raised error =>
    refine iff_of_true rfl ⟨fun _ h => ?_, fun _ _ h => ?_⟩ <;> cases h
  | replied reply =>
    by_cases hrefusal : reply ∈ [replyFail, replyUnknown]
    · have hleft : (interfacesFromGlobal (.replied reply)).map (fun names =>
          sorted ((if names = [] then fs.controlSockets ctrlDir else names).filter
            (fs.passes wirelessOnly sysClassNet))) =
          .ok (sorted ([reply].filter (fs.passes wirelessOnly sysClassNet))) := by
        rw [interfacesFromGlobal, interfaces_refusal hrefusal]
        rfl
      rw [hleft, Except.ok.injEq, sorted_filter_singleton_iff hnodup]
      constructor
      · intro h
        refine ⟨by simp, fun refusal _ hreply => ?_⟩
        obtain rfl : reply = refusal := by simpa using hreply
        exact h
      · rintro ⟨-, h⟩
        exact h reply hrefusal rfl
    · -- the reply names nothing, and the directory is read
      have hempty : interfaces reply = [] := by
        rcases hanswer with hempty | rfl | rfl
        · exact hempty
        · simp at hrefusal
        · simp at hrefusal
      refine iff_of_true ?_ ⟨by simp, fun refusal hmem hreply => ?_⟩
      · rw [interfacesFromGlobal, hempty]
        rfl
      · obtain rfl : reply = refusal := by simpa using hreply
        exact absurd hmem hrefusal

/-- The global socket does not exist. -/
theorem fallback_iff_dead :
    let fs : FileSystem := ⟨fun _ => some ["wlan0".toList], by simp, fun _ => some true,
      fun _ => false, fun _ => false⟩
    let ask : Text → {answer : GlobalAnswer // Asked (id : Text → Text) answer} :=
      fun _ => ⟨.raised .connection, .notOpened rfl⟩
    findInterfaces fs ask "/run/wpa_supplicant".toList (some "/run/global".toList) false
        "/sys/class/net".toList =
      findInterfaces fs ask "/run/wpa_supplicant".toList none false "/sys/class/net".toList := by
  intro fs ask
  refine (fallback_iff fs ask "/run/wpa_supplicant".toList (by decide) false
    "/sys/class/net".toList trivial).mpr ⟨fun _ h => ?_, fun _ _ h => ?_⟩ <;> cases h

/-- A daemon that refuses, beside a directory with one socket. -/
theorem refusal_replaces_directory :
    ¬ ∀ (fs : FileSystem) (ask : Text → {answer : GlobalAnswer // Asked (id : Text → Text) answer})
      (ctrlDir path : Text) (wirelessOnly : Bool) (sysClassNet : Text), path ≠ [] →
      (ask path).1.NoList →
      findInterfaces fs ask ctrlDir (some path) wirelessOnly sysClassNet =
        findInterfaces fs ask ctrlDir none wirelessOnly sysClassNet := by
  intro h
  let fs : FileSystem := ⟨fun _ => some ["wlan0".toList], by simp, fun _ => some true,
    fun _ => false, fun _ => false⟩
  have hrun : (((client id).call? Connection.isIdle
      (.request (.request "INTERFACES".toList) defaultTimeout true)
      { (Connection.fresh : Connection Text) with socket := some [] }
      [.run, .run, .arrive "FAIL\n".toList, .run]).map fun run => endings (trace run.1)) =
      some [.returned (.request "INTERFACES".toList) "FAIL\n".toList] := by
    decide +kernel
  obtain ⟨⟨steps, s'⟩, hcall, hend⟩ := Option.map_eq_some_iff.mp hrun
  have hasked : Asked (id : Text → Text) (.replied replyFail) :=
    .replied rfl (call_of_call? hcall) hend
  have hsame := h fs (fun _ => ⟨.replied replyFail, hasked⟩) [] ['g'] false [] (by decide)
    (Or.inr (Or.inl rfl))
  rw [findInterfaces_some (by decide), findInterfaces_none] at hsame
  exact absurd (Except.ok.inj hsame) (by decide +kernel)

end WpaCtrl
