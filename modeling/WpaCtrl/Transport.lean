/-
# Opening and closing a connection (`transport.py`)

`open` binds a socket in the abstract namespace, or else to a file of its own, connects
it, and gives it the timeout of the transport; `close` gives both back.  Each of the three
system calls may fail, and `settimeout` refuses some timeouts.  The host keeps the sockets
and the files, and says of a file whether this transport made it, so that what is left
behind can be seen.

* `Seconds.settimeout_eq_ok_iff` : the timeouts a socket takes;
* `World.openSocket_spec`, `World.close_spec` : what `open` and `close` make of a host on
  which others have sockets and files too;
* `World.openSocket_cases` : what `open` does where there is one transport;
* `Connection.openSocket_over` : it is the `open` of the connection;
* `transport_never_leaks_iff` : when every run keeps what a transport promises.
-/
import WpaCtrl.Client
import Mathlib.Logic.Function.Basic
import Mathlib.Tactic.NormNum

open Text

namespace WpaCtrl

/-! ## The host -/

/-- An `OSError`, with what a message says of it. -/
structure OsError where
  text : Text

/-- How a system call may go: whether it is granted, and what it raises if not. -/
structure Outcome where
  granted : Bool
  error : OsError

/-- Who made a file. -/
inductive Maker where
  | ours
  | another
  deriving DecidableEq

/-- The addresses a socket is bound and connected to. -/
structure Endpoint where
  bound : Option Text
  peer : Option Text
  deriving DecidableEq

/-- The operating system: its files, and the sockets this process has not closed. -/
structure Host where
  pid : ℕ
  abstractNamespace : Bool
  files : Text → Option Maker
  sockets : ℕ → Option Endpoint
  /-- how many sockets were made; the next one's number -/
  made : ℕ

/-- An address outside the file system starts with a NUL. -/
def isAbstract (address : Text) : Bool := address.head? = some '\x00'

namespace Host

variable (host : Host)

/-- `socket.socket()` -/
def socket : ℕ × Host :=
  (host.made,
    { host with sockets := Function.update host.sockets host.made (some ⟨none, none⟩),
                made := host.made + 1 })

/-- The address of an open socket becomes known to the host. -/
def setEndpoint (sock : ℕ) (change : Endpoint → Endpoint) : Host :=
  { host with sockets := Function.update host.sockets sock ((host.sockets sock).map change) }

/-- `sock.bind(address)`: a path is taken by making a file there. -/
def bind (sock : ℕ) (address : Text) (outcome : Outcome) : Except OsError Host :=
  if isAbstract address then
    if outcome.granted ∧ host.abstractNamespace then
      .ok (host.setEndpoint sock fun endpoint => { endpoint with bound := some address })
    else .error outcome.error
  else if outcome.granted ∧ host.files address = none then
    let host := host.setEndpoint sock fun endpoint => { endpoint with bound := some address }
    .ok { host with files := Function.update host.files address (some .ours) }
  else .error outcome.error

/-- `sock.connect(address)` -/
def connect (sock : ℕ) (address : Text) (outcome : Outcome) : Except OsError Host :=
  if outcome.granted then
    .ok (host.setEndpoint sock fun endpoint => { endpoint with peer := some address })
  else .error outcome.error

/-- `sock.close()` -/
def closeSocket (sock : ℕ) : Host :=
  { host with sockets := Function.update host.sockets sock none }

/-- `_unlink`; `removable` says whether a file that is another's can be removed. -/
def unlink (path : Option Text) (removable : Bool) : Host :=
  match path with
  | none | some [] => host
  | some path =>
    if host.files path = some .another ∧ removable = false then host
    else { host with files := Function.update host.files path none }

end Host

/-! ## Timeouts -/

/-- A number of seconds, an `int` or a `float`; both infinities are `infinite`. -/
inductive Seconds where
  | finite (value : ℚ)
  | infinite
  | nan
  deriving DecidableEq

/-- What `settimeout` raises. -/
inductive SettimeoutError where
  | valueError
  | overflowError
  deriving DecidableEq

/-- `sock.settimeout(value)`: the nanoseconds are kept in a signed word of 64 bits, and are
not negative. -/
def Seconds.settimeout : Seconds → Except SettimeoutError Unit
  | nan => .error .valueError
  | infinite => .error .overflowError
  | finite value =>
    -- the product of a `float` is rounded to a multiple of 2048 there
    if 2 ^ 63 ≤ value * 10 ^ 9 ∨ value * 10 ^ 9 < -2 ^ 63 - 1024 then .error .overflowError
    else if value < 0 then .error .valueError
    else .ok ()

/-! ## The transport -/

/-- `os.path.join` of two parts. -/
def join (a b : Text) : Text :=
  if b.head? = some '/' then b
  else if a = [] ∨ a.getLast? = some '/' then a ++ b
  else a ++ '/' :: b

/-- `ABSTRACT_PREFIX` -/
def abstractPrefix : Text := "@abstract:".toList

/-- `_address` -/
def address (path : Text) : Text :=
  if abstractPrefix <+: path then '\x00' :: path.drop abstractPrefix.length else path

/-- A transport.  The name of a directory has no NUL. -/
structure CtrlTransport where
  path : Text
  clientDir : Text
  clientDir_noNul : '\x00' ∉ clientDir
  timeout : Seconds
  /-- `id(self)` -/
  id : ℕ
  socket : Option ℕ
  clientPath : Option Text

/-- A transport with its host. -/
structure World where
  transport : CtrlTransport
  host : Host

/-- How the system calls of one `open` go. -/
structure Fate where
  abstractBind : Outcome
  fileBind : Outcome
  connect : Outcome
  /-- whether a crashed predecessor's file can be removed -/
  removable : Bool

/-- The name of the client socket. -/
def CtrlTransport.name (t : CtrlTransport) (pid : ℕ) : Text :=
  "wpa_ctrl_".toList ++ (toString pid).toList ++ '-' :: (toString t.id).toList

/-- The inner `try` of `open`: how the bind went, and the client path. -/
def CtrlTransport.bindClient (t : CtrlTransport) (sock : ℕ) (host : Host) (fate : Fate) :
    Except OsError Unit × Option Text × Host :=
  match host.bind sock ('\x00' :: t.name host.pid) fate.abstractBind with
  | .ok host => (.ok (), none, host)
  | .error _ =>
    let clientPath := join t.clientDir (t.name host.pid)
    let host := host.unlink (some clientPath) fate.removable
    match host.bind sock clientPath fate.fileBind with
    | .ok host => (.ok (), some clientPath, host)
    | .error error => (.error error, some clientPath, host)

/-- What `open` raises. -/
inductive OpenError where
  /-- a `WpaCtrlConnectionError` -/
  | connection (message : Text)
  /-- what passes through it from `settimeout` -/
  | settimeout (error : SettimeoutError)
  deriving DecidableEq

namespace World

variable (s : World)

/-- `CtrlTransport.open` -/
def openSocket (fate : Fate) : Except OpenError Unit × World :=
  match s.transport.socket with
  | some _ => (.ok (), s)
  | none =>
    let (sock, host) := s.host.socket
    let (outcome, clientPath, host) :=
      match s.transport.bindClient sock host fate with
      | (.error error, clientPath, host) => (Except.error error, clientPath, host)
      | (.ok (), clientPath, host) =>
        match host.connect sock (address s.transport.path) fate.connect with
        | .error error => (.error error, clientPath, host)
        | .ok host => (.ok (), clientPath, host)
    match outcome with
    | .error error =>
      (.error (.connection (s.transport.path ++ ": ".toList ++ error.text)),
        ⟨s.transport, (host.closeSocket sock).unlink clientPath fate.removable⟩)
    | .ok () =>
      -- this stands behind the `try`: what it raises leaves the socket and its file
      match s.transport.timeout.settimeout with
      | .error error => (.error (.settimeout error), ⟨s.transport, host⟩)
      | .ok () =>
        (.ok (), ⟨{ s.transport with socket := some sock, clientPath := clientPath }, host⟩)

/-- `CtrlTransport.close` -/
def close (removable : Bool) : World :=
  let host :=
    match s.transport.socket with
    | some sock => s.host.closeSocket sock
    | none => s.host
  ⟨{ s.transport with socket := none, clientPath := none },
    host.unlink s.transport.clientPath removable⟩

end World

/-- What happens to a transport and its host. -/
inductive Happening where
  | openCall (fate : Fate)
  | close (removable : Bool)
  /-- the interpreter frees a socket that the transport does not have, which closes it -/
  | collect (sock : ℕ)
  /-- another program makes or removes a file that is not ours -/
  | others (path : Text) (present : Bool)

/-- One step: a call with its outcome, or what others do meanwhile. -/
def World.step (s : World) : Happening → Option (World × List (Except OpenError Unit))
  | .openCall fate => some ((s.openSocket fate).2, [(s.openSocket fate).1])
  | .close removable => some (s.close removable, [])
  | .collect sock =>
    if s.transport.socket = some sock then none
    else some (⟨s.transport, s.host.closeSocket sock⟩, [])
  | .others path present =>
    if s.host.files path = some .ours then none
    else
      let file := if present then some .another else none
      some (⟨s.transport, { s.host with files := Function.update s.host.files path file }⟩, [])

/-- A transport that was just constructed, on a host where other programs have left
files. -/
def World.start (path clientDir : Text) (hdir : '\x00' ∉ clientDir) (timeout : Seconds)
    (id pid : ℕ) (abstractNamespace : Bool) (left : Text → Bool) : World :=
  ⟨⟨path, clientDir, hdir, timeout, id, none, none⟩,
    ⟨pid, abstractNamespace, fun path => if left path then some .another else none,
      fun _ => none, 0⟩⟩

/-- The machine of one transport. -/
def transport (path clientDir : Text) (hdir : '\x00' ∉ clientDir) (timeout : Seconds)
    (id pid : ℕ) (abstractNamespace : Bool) (left : Text → Bool) :
    Machine World Happening (Except OpenError Unit) :=
  ⟨World.start path clientDir hdir timeout id pid abstractNamespace left, World.step⟩

theorem Seconds.settimeout_eq_ok_iff {timeout : Seconds} : timeout.settimeout = .ok () ↔
    ∃ value, timeout = .finite value ∧ 0 ≤ value ∧ value * 10 ^ 9 < 2 ^ 63 := by
  cases timeout with
  | nan => simp [settimeout]
  | infinite => simp [settimeout]
  | finite value =>
    rw [settimeout]
    split_ifs with hrange hnegative
    · refine iff_of_false (by simp) ?_
      rintro ⟨_, ⟨⟩, hnonneg, hlt⟩
      rcases hrange with hge | hlow
      · exact absurd hlt (not_lt.mpr hge)
      · linarith
    · refine iff_of_false (by simp) ?_
      rintro ⟨_, ⟨⟩, hnonneg, -⟩
      exact absurd hnegative (not_lt.mpr hnonneg)
    · rw [not_or, not_le] at hrange
      exact iff_of_true rfl ⟨value, rfl, not_lt.mp hnegative, hrange.1⟩

theorem Seconds.settimeout_default : (finite defaultTimeout).settimeout = .ok () :=
  settimeout_eq_ok_iff.mpr ⟨5, rfl, by norm_num⟩

/-! ## The client path -/

theorem isAbstract_cons (name : Text) : isAbstract ('\x00' :: name) = true := by
  simp [isAbstract]

theorem CtrlTransport.name_eq (t : CtrlTransport) (pid : ℕ) : ∃ rest, t.name pid = 'w' :: rest :=
  ⟨_, rfl⟩

/-- The path of the fallback. -/
def CtrlTransport.own (t : CtrlTransport) (pid : ℕ) : Text := join t.clientDir (t.name pid)

/-- The client path can be unlinked, and is a path. -/
theorem CtrlTransport.own_spec (t : CtrlTransport) (pid : ℕ) :
    t.own pid ≠ [] ∧ isAbstract (t.own pid) = false := by
  obtain ⟨rest, hname⟩ := t.name_eq pid
  have hnul := t.clientDir_noNul
  rw [own, hname, join, if_neg (by simp)]
  cases hdir : t.clientDir with
  | nil => simp [isAbstract]
  | cons c dir =>
    rw [hdir] at hnul
    have hc : c ≠ '\x00' := fun h => hnul (h ▸ List.mem_cons_self)
    split_ifs <;> simp [isAbstract, hc]

/-! ## What a call leaves alone -/

/-- Nothing has changed but one socket and the file at one path. -/
structure Host.Within (sock : ℕ) (path : Text) (host host' : Host) : Prop where
  pid : host'.pid = host.pid
  made : host'.made = host.made
  sockets : ∀ k, k ≠ sock → host'.sockets k = host.sockets k
  files : ∀ p, p ≠ path → host'.files p = host.files p

namespace Host.Within

variable {sock : ℕ} {path : Text} {host host' host'' : Host}

theorem refl : Within sock path host host := ⟨rfl, rfl, fun _ _ => rfl, fun _ _ => rfl⟩

theorem trans (h : Within sock path host host') (h' : Within sock path host' host'') :
    Within sock path host host'' where
  pid := h'.pid.trans h.pid
  made := h'.made.trans h.made
  sockets := fun k hk => (h'.sockets k hk).trans (h.sockets k hk)
  files := fun p hp => (h'.files p hp).trans (h.files p hp)

theorem setEndpoint (change : Endpoint → Endpoint) :
    Within sock path host (host.setEndpoint sock change) :=
  ⟨rfl, rfl, fun _ hk => Function.update_of_ne hk _ _, fun _ _ => rfl⟩

theorem closeSocket : Within sock path host (host.closeSocket sock) :=
  ⟨rfl, rfl, fun _ hk => Function.update_of_ne hk _ _, fun _ _ => rfl⟩

theorem bind {address : Text} (haddress : isAbstract address = true ∨ address = path)
    {outcome : Outcome} (h : host.bind sock address outcome = .ok host') :
    Within sock path host host' := by
  unfold Host.bind at h
  split_ifs at h with habstract
  · cases h
    exact setEndpoint _
  · cases h
    obtain rfl : address = path := haddress.resolve_left habstract
    have hfile : ∀ p, p ≠ address →
        Function.update host.files address (some Maker.ours) p = host.files p := fun p hp =>
      Function.update_of_ne hp _ _
    exact ⟨rfl, rfl, fun _ hk => Function.update_of_ne hk _ _, hfile⟩

theorem unlink {p : Option Text} (hp : p = none ∨ p = some path) (removable : Bool) :
    Within sock path host (host.unlink p removable) := by
  rcases hp with rfl | rfl
  · exact refl
  · unfold Host.unlink
    split
    · exact refl
    · exact refl
    · rename_i hsome
      obtain rfl := Option.some.inj hsome
      split_ifs
      · exact refl
      · exact ⟨rfl, rfl, fun _ _ => rfl, fun q hq => Function.update_of_ne hq _ _⟩

end Host.Within

namespace Host

@[simp]
theorem unlink_sockets (host : Host) (path : Option Text) (removable : Bool) :
    (host.unlink path removable).sockets = host.sockets := by
  unfold unlink
  split
  · rfl
  · rfl
  · split <;> rfl

/-- What others do leaves our files where they are. -/
theorem others_ours {host : Host} {path : Text} (hpath : host.files path ≠ some .ours)
    (present : Bool) (p : Text) :
    Function.update host.files path (if present then some .another else none) p = some .ours ↔
      host.files p = some .ours := by
  by_cases hsame : p = path
  · rw [hsame, Function.update_self]
    exact iff_of_false (by cases present <;> simp) hpath
  · rw [Function.update_of_ne hsame]

/-- A file of ours that is unlinked is gone, and the others stay. -/
theorem unlink_ours (host : Host) {path : Option Text} (hpath : path ≠ some []) (removable : Bool)
    (p : Text) : (host.unlink path removable).files p = some .ours ↔
      host.files p = some .ours ∧ path ≠ some p := by
  unfold unlink
  split
  · simp
  · exact absurd rfl hpath
  · rename_i path' _
    rcases eq_or_ne p path' with rfl | hne
    · split_ifs with hkeep
      · simp [hkeep.1]
      · simp
    · split_ifs
      · simp [Ne.symm hne]
      · simp [hne, Ne.symm hne]

end Host

/-! ## `open` and `close` on any host -/

theorem CtrlTransport.own_ne_nil (t : CtrlTransport) (pid : ℕ) : some (t.own pid) ≠ some [] := by
  exact fun h => (t.own_spec pid).1 (Option.some.inj h)

theorem Host.setEndpoint_sockets (host : Host) (sock : ℕ) (change : Endpoint → Endpoint) :
    (host.setEndpoint sock change).sockets sock = (host.sockets sock).map change :=
  Function.update_self ..

/-- Where the socket of a transport is bound and connected. -/
def CtrlTransport.endpoint (t : CtrlTransport) (pid : ℕ) : Endpoint :=
  ⟨some (t.clientPath.getD ('\x00' :: t.name pid)), some (address t.path)⟩

/-- Both binds fail, or one of them succeeds, and nothing else is touched. -/
theorem CtrlTransport.bindClient_spec (t : CtrlTransport) {host : Host} {sock : ℕ}
    (hsock : host.sockets sock = some ⟨none, none⟩) (fate : Fate) :
    ∃ host', Host.Within sock (t.own host.pid) host host' ∧
      ((∃ error, t.bindClient sock host fate = (.error error, some (t.own host.pid), host')) ∨
        ∃ clientPath, t.bindClient sock host fate = (.ok (), clientPath, host') ∧
          (clientPath = none ∧ host'.files = host.files ∨
            clientPath = some (t.own host.pid) ∧ host'.files (t.own host.pid) = some .ours) ∧
          host'.sockets sock =
            some ⟨some (clientPath.getD ('\x00' :: t.name host.pid)), none⟩) := by
  have hown : join t.clientDir (t.name host.pid) = t.own host.pid := rfl
  unfold bindClient
  cases habstract : host.bind sock ('\x00' :: t.name host.pid) fate.abstractBind with
  | ok host' =>
    refine ⟨host', .bind (Or.inl (isAbstract_cons _)) habstract, Or.inr ⟨none, rfl, ?_⟩⟩
    rw [Host.bind, if_pos (isAbstract_cons _)] at habstract
    split_ifs at habstract
    cases habstract
    refine ⟨Or.inl ⟨rfl, rfl⟩, ?_⟩
    rw [Host.setEndpoint_sockets, hsock]
    rfl
  | error error =>
    have hfile : isAbstract (t.own host.pid) = false := (t.own_spec host.pid).2
    have hunlink : Host.Within sock (t.own host.pid) host
        (host.unlink (some (t.own host.pid)) fate.removable) := .unlink (Or.inr rfl) _
    have hleft : (host.unlink (some (t.own host.pid)) fate.removable).sockets sock =
        some ⟨none, none⟩ := by
      rw [Host.unlink_sockets, hsock]
    cases hbind : (host.unlink (some (t.own host.pid)) fate.removable).bind sock (t.own host.pid)
        fate.fileBind with
    | ok host' =>
      refine ⟨host', hunlink.trans (.bind (Or.inr rfl) hbind),
        Or.inr ⟨some (t.own host.pid), ?_, ?_⟩⟩
      · simp only [hown, hbind]
      · rw [Host.bind, if_neg (by simp [hfile])] at hbind
        split_ifs at hbind
        cases hbind
        refine ⟨Or.inr ⟨rfl, Function.update_self ..⟩, ?_⟩
        show (Host.setEndpoint _ sock _).sockets sock = _
        rw [Host.setEndpoint_sockets, hleft]
        rfl
    | error error =>
      exact ⟨_, hunlink, Or.inl ⟨error, by simp only [hown, hbind]⟩⟩

namespace World

/-- What `open` leaves when it succeeds: the socket is bound to the client path, or else to the
abstract name, and connected. -/
structure OpenedAs (s s' : World) : Prop where
  same : ∃ clientPath,
    s'.transport = { s.transport with socket := some s.host.made, clientPath := clientPath }
  endpoint : s'.host.sockets s.host.made = some (s'.transport.endpoint s.host.pid)
  file : s'.transport.clientPath = none ∧ s'.host.files = s.host.files ∨
    s'.transport.clientPath = some (s.transport.own s.host.pid) ∧
      s'.host.files (s.transport.own s.host.pid) = some .ours

/-- What it leaves when a system call fails: nothing that was not there. -/
structure GivenBack (s s' : World) : Prop where
  same : s'.transport = s.transport
  socket : s'.host.sockets s.host.made = none
  file : s'.host.files (s.transport.own s.host.pid) = some .ours →
    s.host.files (s.transport.own s.host.pid) = some .ours

/-- Closing the new socket and unlinking the client path gives everything back. -/
theorem givenBack {s : World} {host : Host} {clientPath : Option Text}
    (hpath : clientPath = none ∧ host.files = s.host.files ∨
      clientPath = some (s.transport.own s.host.pid)) (removable : Bool) :
    s.GivenBack ⟨s.transport, (host.closeSocket s.host.made).unlink clientPath removable⟩ := by
  have hne : clientPath ≠ some [] := by
    rcases hpath with ⟨rfl, -⟩ | rfl
    · simp
    · exact s.transport.own_ne_nil _
  refine ⟨rfl, ?_, fun h => ?_⟩
  · show ((host.closeSocket s.host.made).unlink clientPath removable).sockets s.host.made = none
    rw [Host.unlink_sockets]
    exact Function.update_self ..
  · rw [Host.unlink_ours _ hne] at h
    rcases hpath with ⟨-, hfiles⟩ | rfl
    · rw [← hfiles]
      exact h.1
    · exact absurd rfl h.2

/-- **What `open` does to a closed transport, whatever else the host has**: only its own
socket and its own path change; it is open, or everything is given back, or `settimeout` has
raised. -/
theorem openSocket_spec {s : World} (hsocket : s.transport.socket = none) (fate : Fate) :
    ∃ outcome s', s.openSocket fate = (outcome, s') ∧
      Host.Within s.host.made (s.transport.own s.host.pid) s.host.socket.2 s'.host ∧
      (outcome = .ok () ∧ s.OpenedAs s' ∨
        (∃ message, outcome = .error (.connection message)) ∧ s.GivenBack s' ∨
        ∃ error, outcome = .error (.settimeout error) ∧
          s.transport.timeout.settimeout = .error error ∧ s'.transport = s.transport) := by
  have hnew : s.host.socket.2.sockets s.host.made = some ⟨none, none⟩ := Function.update_self ..
  unfold openSocket
  rw [hsocket]
  dsimp only
  obtain ⟨host, hwithin, ⟨error, hbind⟩ | ⟨clientPath, hbind, hpath, hsock⟩⟩ :=
    s.transport.bindClient_spec hnew fate
  · have hbind : s.transport.bindClient s.host.socket.1 s.host.socket.2 fate =
        (.error error, some (s.transport.own s.host.pid), host) := hbind
    rw [hbind]
    exact ⟨_, _, rfl, (hwithin.trans .closeSocket).trans (.unlink (Or.inr rfl) _),
      Or.inr (Or.inl ⟨⟨_, rfl⟩, givenBack (Or.inr rfl) _⟩)⟩
  · have hbind : s.transport.bindClient s.host.socket.1 s.host.socket.2 fate =
        (.ok (), clientPath, host) := hbind
    rw [hbind]
    dsimp only
    unfold Host.connect
    split_ifs
    · -- connected, so only `settimeout` is left
      dsimp only
      cases htimeout : s.transport.timeout.settimeout with
      | ok =>
        refine ⟨_, _, rfl, hwithin.trans (.setEndpoint _), Or.inl ⟨rfl, ⟨_, rfl⟩, ?_, hpath⟩⟩
        exact (Host.setEndpoint_sockets _ _ _).trans (congrArg (Option.map _) hsock)
      | error error =>
        exact ⟨_, _, rfl, hwithin.trans (.setEndpoint _), Or.inr (Or.inr ⟨error, rfl, rfl, rfl⟩)⟩
    · exact ⟨_, _, rfl,
        (hwithin.trans .closeSocket).trans (.unlink (hpath.imp And.left And.left) _),
        Or.inr (Or.inl ⟨⟨_, rfl⟩, givenBack (hpath.imp_right And.left) _⟩)⟩

/-- `close` of an open transport gives back its socket and its file. -/
theorem close_spec {s : World} {sock : ℕ} (hsocket : s.transport.socket = some sock)
    (hpath : s.transport.clientPath = none ∨
      s.transport.clientPath = some (s.transport.own s.host.pid)) (removable : Bool) :
    (s.close removable).transport = { s.transport with socket := none, clientPath := none } ∧
      Host.Within sock (s.transport.own s.host.pid) s.host (s.close removable).host ∧
      (s.close removable).host.sockets sock = none ∧
      ∀ p, (s.close removable).host.files p = some .ours ↔
        s.host.files p = some .ours ∧ s.transport.clientPath ≠ some p := by
  have hne : s.transport.clientPath ≠ some [] := by
    rcases hpath with hpath | hpath
    · simp [hpath]
    · rw [hpath]
      exact s.transport.own_ne_nil _
  have hhost : (s.close removable).host =
      (s.host.closeSocket sock).unlink s.transport.clientPath removable := by
    unfold close
    rw [hsocket]
  rw [hhost]
  refine ⟨rfl, Host.Within.closeSocket.trans (.unlink hpath _), ?_, fun p => ?_⟩
  · rw [Host.unlink_sockets]
    exact Function.update_self ..
  · exact Host.unlink_ours _ hne _ _

/-- `close` of a closed transport does nothing. -/
theorem close_of_closed {s : World} (hsocket : s.transport.socket = none)
    (hpath : s.transport.clientPath = none) (removable : Bool) : s.close removable = s := by
  obtain ⟨⟨path, clientDir, hdir, timeout, id, socket, clientPath⟩, host⟩ := s
  obtain rfl : socket = none := hsocket
  obtain rfl : clientPath = none := hpath
  rfl

theorem openSocket_path (s : World) (fate : Fate) :
    (s.openSocket fate).2.transport.path = s.transport.path := by
  cases hsocket : s.transport.socket with
  | some sock => rw [openSocket, hsocket]
  | none =>
    obtain ⟨outcome, s', hopen, -, ⟨-, hopened⟩ | ⟨-, hback⟩ | ⟨error, -, -, hsame⟩⟩ :=
      openSocket_spec hsocket fate
    · obtain ⟨clientPath, hsame⟩ := hopened.same
      rw [hopen, hsame]
    · rw [hopen, hback.same]
    · rw [hopen, hsame]

end World

/-! ## A host with one transport -/

/-- A closed transport: the host holds nothing of it. -/
structure World.Shut (s : World) : Prop where
  socket : s.transport.socket = none
  clientPath : s.transport.clientPath = none
  sockets : s.host.sockets = fun _ => none
  files : ∀ path, s.host.files path ≠ some .ours

/-- An open transport: the host holds its socket, and the file at its client path. -/
structure World.Opened (s : World) (sock : ℕ) : Prop where
  socket : s.transport.socket = some sock
  clientPath : s.transport.clientPath = none ∨
    s.transport.clientPath = some (s.transport.own s.host.pid)
  sockets : s.host.sockets =
    Function.update (fun _ => none) sock (some (s.transport.endpoint s.host.pid))
  files : ∀ path, s.host.files path = some .ours ↔ s.transport.clientPath = some path

namespace World

variable {s s' : World}

theorem Shut.opened (h : s.Shut)
    (hwithin : Host.Within s.host.made (s.transport.own s.host.pid) s.host.socket.2 s'.host)
    (hopened : s.OpenedAs s') : s'.Opened s.host.made := by
  obtain ⟨clientPath, hsame⟩ := hopened.same
  have hpid : s'.host.pid = s.host.pid := hwithin.pid
  have hown : s'.transport.own s'.host.pid = s.transport.own s.host.pid := by
    rw [hsame, hpid]
    rfl
  refine ⟨by rw [hsame], ?_, ?_, fun p => ?_⟩
  · rw [hown]
    exact hopened.file.imp And.left And.left
  · funext k
    by_cases hk : k = s.host.made
    · rw [hk, hopened.endpoint, Function.update_self, hpid]
    · have hother : s.host.socket.2.sockets k = s.host.sockets k := Function.update_of_ne hk _ _
      rw [hwithin.sockets k hk, hother, h.sockets, Function.update_of_ne hk]
  · by_cases hp : p = s.transport.own s.host.pid
    · subst hp
      rcases hopened.file with ⟨hnone, hfiles⟩ | ⟨hpath, hfile⟩
      · rw [hfiles, hnone]
        exact iff_of_false (h.files _) (by simp)
      · exact iff_of_true hfile hpath
    · rw [hwithin.files p hp]
      refine iff_of_false (h.files p) ?_
      rcases hopened.file with ⟨hpath, -⟩ | ⟨hpath, -⟩
      · simp [hpath]
      · simp [hpath, Ne.symm hp]

theorem Shut.givenBack (h : s.Shut)
    (hwithin : Host.Within s.host.made (s.transport.own s.host.pid) s.host.socket.2 s'.host)
    (hback : s.GivenBack s') : s'.Shut := by
  refine ⟨by rw [hback.same, h.socket], by rw [hback.same, h.clientPath], ?_, fun p hp => ?_⟩
  · funext k
    by_cases hk : k = s.host.made
    · rw [hk, hback.socket]
    · have hother : s.host.socket.2.sockets k = s.host.sockets k := Function.update_of_ne hk _ _
      rw [hwithin.sockets k hk, hother, h.sockets]
  · by_cases hown : p = s.transport.own s.host.pid
    · rw [hown] at hp
      exact h.files _ (hback.file hp)
    · rw [hwithin.files p hown] at hp
      exact h.files p hp

/-- **What `open` does to a closed transport**, if `settimeout` takes its timeout: it is
connected, or everything is given back. -/
theorem openSocket_cases (h : s.Shut) (htimeout : s.transport.timeout.settimeout = .ok ())
    (fate : Fate) :
    (∃ sock s', s.openSocket fate = (.ok (), s') ∧ s'.Opened sock ∧
        s'.transport.timeout = s.transport.timeout) ∨
      ∃ message s', s.openSocket fate = (.error (.connection message), s') ∧
        s'.transport = s.transport ∧ s'.Shut := by
  obtain ⟨outcome, s', hopen, hwithin, ⟨rfl, hopened⟩ | ⟨⟨message, rfl⟩, hback⟩ |
    ⟨error, -, hraised, -⟩⟩ := openSocket_spec h.socket fate
  · obtain ⟨clientPath, hsame⟩ := hopened.same
    exact Or.inl ⟨s.host.made, s', hopen, h.opened hwithin hopened, by rw [hsame]⟩
  · exact Or.inr ⟨message, s', hopen, hback.same, h.givenBack hwithin hback⟩
  · rw [htimeout] at hraised
    cases hraised

theorem openSocket_of_opened {sock : ℕ} (h : s.Opened sock) (fate : Fate) :
    s.openSocket fate = (.ok (), s) := by
  rw [openSocket, h.socket]

theorem close_of_shut (h : s.Shut) (removable : Bool) : s.close removable = s :=
  close_of_closed h.socket h.clientPath removable

theorem close_of_opened {sock : ℕ} (h : s.Opened sock) (removable : Bool) :
    (s.close removable).Shut := by
  obtain ⟨-, hwithin, hsock, hfiles⟩ := close_spec h.socket h.clientPath removable
  refine ⟨rfl, rfl, ?_, fun p hp => ?_⟩
  · funext k
    by_cases hk : k = sock
    · rw [hk, hsock]
    · rw [hwithin.sockets k hk, h.sockets, Function.update_of_ne hk]
  · obtain ⟨hours, hother⟩ := (hfiles p).mp hp
    exact hother ((h.files p).mp hours)

/-- Closed or open, with a timeout that `settimeout` takes. -/
structure Sound (s : World) : Prop where
  timeout : s.transport.timeout.settimeout = .ok ()
  held : s.Shut ∨ ∃ sock, s.Opened sock

/-- A socket the transport does not have is none of the host's. -/
theorem Sound.collect (h : s.Sound) {sock : ℕ} (hother : s.transport.socket ≠ some sock) :
    s.host.closeSocket sock = s.host := by
  have hnone : s.host.sockets sock = none := by
    rcases h.held with hshut | ⟨sock', hopened⟩
    · rw [hshut.sockets]
    · have hne : sock ≠ sock' := by
        rintro rfl
        exact hother hopened.socket
      rw [hopened.sockets, Function.update_of_ne hne]
  rw [Host.closeSocket, ← hnone, Function.update_eq_self]

theorem Sound.openSocket (h : s.Sound) (fate : Fate) : (s.openSocket fate).2.Sound := by
  rcases h.held with hshut | ⟨sock, hopened⟩
  · rcases openSocket_cases hshut h.timeout fate with
      ⟨sock, s', heq, hs', hsame⟩ | ⟨message, s', heq, hsame, hs'⟩
    · rw [heq]
      exact ⟨by rw [hsame, h.timeout], Or.inr ⟨sock, hs'⟩⟩
    · rw [heq]
      exact ⟨by rw [hsame, h.timeout], Or.inl hs'⟩
  · rw [openSocket_of_opened hopened]
    exact h

theorem Sound.close (h : s.Sound) (removable : Bool) : (s.close removable).Sound := by
  refine ⟨h.timeout, Or.inl ?_⟩
  rcases h.held with hshut | ⟨sock, hopened⟩
  · rw [close_of_shut hshut]
    exact hshut
  · exact close_of_opened hopened removable

theorem Sound.step {a : Happening} {s' : World} {seen : List (Except OpenError Unit)}
    (h : s.Sound) (hstep : s.step a = some (s', seen)) : s'.Sound := by
  cases a with
  | openCall fate =>
    obtain ⟨rfl, -⟩ := Prod.mk.inj (Option.some.inj hstep)
    exact h.openSocket fate
  | close removable =>
    obtain ⟨rfl, -⟩ := Prod.mk.inj (Option.some.inj hstep)
    exact h.close removable
  | collect sock =>
    rw [World.step] at hstep
    split_ifs at hstep with hsocket
    obtain ⟨rfl, -⟩ := Prod.mk.inj (Option.some.inj hstep)
    rw [h.collect hsocket]
    exact h
  | others path present =>
    have hours : s.host.files path ≠ some .ours := by
      intro hours
      rw [World.step, if_pos hours] at hstep
      cases hstep
    rw [World.step, if_neg hours] at hstep
    obtain ⟨rfl, -⟩ := Prod.mk.inj (Option.some.inj hstep)
    refine ⟨h.timeout, ?_⟩
    rcases h.held with hshut | ⟨sock, hopened⟩
    · refine Or.inl ⟨hshut.socket, hshut.clientPath, hshut.sockets, fun p => ?_⟩
      exact fun hp => hshut.files p ((Host.others_ours hours present p).mp hp)
    · refine Or.inr ⟨sock, hopened.socket, hopened.clientPath, hopened.sockets, fun p => ?_⟩
      exact (Host.others_ours hours present p).trans (hopened.files p)

end World

/-! ## The connection of `WpaCtrl` -/

/-- A connection is over a transport: they are open together. -/
def Connection.Over {δ : Type} (c : Connection δ) (s : World) : Prop :=
  c.socket.isSome = s.transport.socket.isSome

/-- The connection's `open` is that of a transport whose timeout `settimeout` takes: they
stay open together, and go on or raise together. -/
theorem Connection.openSocket_over {δ : Type} {c c' : Connection δ} {s : World}
    {seen : List (Observation δ)} {control : Control} (hs : s.Sound) (hover : c.Over s)
    (fate : Fate)
    (hopen : c.openSocket (s.openSocket fate).1.isOk control = some (c', seen)) :
    c'.Over (s.openSocket fate).2 ∧
      ((s.openSocket fate).1.isOk = false ↔ .raised .connection ∈ seen) := by
  unfold Connection.openSocket at hopen
  unfold Connection.Over at hover ⊢
  rcases hs.held with hshut | ⟨sock, hopened⟩
  · rw [hshut.socket, Option.isSome_none, Option.isSome_eq_false_iff, Option.isNone_iff_eq_none]
      at hover
    rw [hover] at hopen
    rcases World.openSocket_cases hshut hs.timeout fate with
      ⟨sock, s', heq, hs', -⟩ | ⟨message, s', heq, -, hs'⟩
    · rw [heq] at hopen ⊢
      obtain ⟨rfl, rfl⟩ := Prod.mk.inj (Option.some.inj hopen)
      rw [hs'.socket]
      exact ⟨rfl, by simp [Except.isOk, Except.toBool]⟩
    · rw [heq] at hopen ⊢
      obtain ⟨rfl, rfl⟩ := Prod.mk.inj (Option.some.inj hopen)
      rw [hs'.socket, hover]
      exact ⟨rfl, by simp [Except.isOk, Except.toBool]⟩
  · rw [hopened.socket, Option.isSome_some, Option.isSome_iff_exists] at hover
    obtain ⟨waiting, hwaiting⟩ := hover
    rw [hwaiting] at hopen
    obtain ⟨rfl, rfl⟩ := Prod.mk.inj (Option.some.inj hopen)
    rw [World.openSocket_of_opened hopened]
    refine ⟨?_, by simp [Except.isOk, Except.toBool]⟩
    show true = s.transport.socket.isSome
    rw [hopened.socket]
    rfl

/-! ## Every run -/

section

variable {path clientDir : Text} {hdir : '\x00' ∉ clientDir} {timeout : Seconds} {id pid : ℕ}
  {abstractNamespace : Bool} {left : Text → Bool}

/-- In every run the transport is closed, and the host holds nothing of it, or open. -/
theorem transport_sound (htimeout : timeout.settimeout = .ok ())
    {trace : List (Except OpenError Unit)} {s : World}
    (h : (transport path clientDir hdir timeout id pid abstractNamespace left).Reaches trace s) :
    s.Sound := by
  refine h.invariant (fun _ s => s.Sound) ⟨htimeout, Or.inl ⟨rfl, rfl, rfl, ?_⟩⟩
    (fun _ _ _ _ _ _ hs hstep => hs.step hstep)
  intro p
  show (if left p then some Maker.another else none) ≠ some .ours
  split_ifs <;> simp

/-- Open, and connected to the control socket. -/
def World.Connected (s : World) : Prop :=
  ∃ sock endpoint, s.transport.socket = some sock ∧ s.host.sockets sock = some endpoint ∧
    endpoint.peer = some (address s.transport.path)

/-- Open by the fallback, with its socket bound to this path. -/
def World.OpenAt (s : World) (path : Text) : Prop :=
  ∃ sock endpoint, s.transport.socket = some sock ∧ s.host.sockets sock = some endpoint ∧
    endpoint.bound = some path ∧ isAbstract path = false

theorem World.Shut.not_openAt {s : World} (h : s.Shut) (path : Text) : ¬ s.OpenAt path := by
  rintro ⟨sock, endpoint, hsocket, -⟩
  rw [h.socket] at hsocket
  cases hsocket

theorem World.Opened.endpoint {s : World} {sock : ℕ} (h : s.Opened sock) :
    s.host.sockets sock = some (s.transport.endpoint s.host.pid) := by
  rw [h.sockets, Function.update_self]

theorem World.Opened.connected {s : World} {sock : ℕ} (h : s.Opened sock) : s.Connected :=
  ⟨sock, _, h.socket, h.endpoint, rfl⟩

/-- The client path is that of the fallback. -/
theorem World.Opened.openAt_iff {s : World} {sock : ℕ} (h : s.Opened sock) (path : Text) :
    s.OpenAt path ↔ s.transport.clientPath = some path := by
  constructor
  · rintro ⟨sock', endpoint, hsocket, hendpoint, hbound, hfile⟩
    rw [h.socket] at hsocket
    obtain rfl := Option.some.inj hsocket
    rw [h.endpoint] at hendpoint
    obtain rfl := Option.some.inj hendpoint
    have hbound := Option.some.inj hbound
    cases hpath : s.transport.clientPath with
    | none =>
      -- the abstract name is not a path
      rw [hpath] at hbound
      rw [← hbound] at hfile
      exact absurd hfile (by simp [isAbstract])
    | some path' =>
      rw [hpath] at hbound
      exact congrArg some hbound
  · intro hpath
    refine ⟨sock, _, h.socket, h.endpoint, ?_, ?_⟩
    · rw [CtrlTransport.endpoint, hpath]
      rfl
    · have hown : path = s.transport.own s.host.pid := by
        rcases h.clientPath with hnone | hown
        · rw [hnone] at hpath
          cases hpath
        · exact Option.some.inj (hpath.symm.trans hown)
      rw [hown]
      exact (s.transport.own_spec _).2

/-- What a transport promises in every state, whatever fails. -/
structure World.Promise (s : World) : Prop where
  /-- `open` ends connected, or raises a `WpaCtrlConnectionError` with the transport as it was,
  no socket and no file of ours -/
  opens : ∀ fate s' outcome, s.openSocket fate = (outcome, s') →
    (outcome = .ok () ∧ s'.Connected) ∨
      ∃ message, outcome = .error (.connection message) ∧ s'.transport = s.transport ∧
        s'.transport.socket = none ∧ s'.transport.clientPath = none ∧
        s'.host.sockets = s.host.sockets ∧ (∀ sock, s'.host.sockets sock = none) ∧
        ∀ p, s'.host.files p ≠ some .ours
  /-- a file of ours is on disk exactly when it is open there by the fallback -/
  files : ∀ p, s.host.files p = some .ours ↔ s.OpenAt p
  /-- the client path is that file's, or `None` -/
  clientPath : ∀ p, s.transport.clientPath = some p ↔ s.OpenAt p
  /-- `open` again changes nothing -/
  opensOnce : s.transport.socket ≠ none → ∀ fate, s.openSocket fate = (.ok (), s)
  /-- `close` again changes nothing -/
  closesOnce : s.transport.socket = none → ∀ removable, s.close removable = s
  /-- `close` gives back the socket and the file -/
  closes : s.transport.socket ≠ none → ∀ removable,
    (s.close removable).transport = { s.transport with socket := none, clientPath := none } ∧
      (∀ sock, (s.close removable).host.sockets sock = none) ∧
      ∀ p, (s.close removable).host.files p ≠ some .ours

theorem World.Shut.promise {s : World} (h : s.Shut)
    (htimeout : s.transport.timeout.settimeout = .ok ()) : s.Promise where
  opens := by
    intro fate s' outcome hopen
    rcases openSocket_cases h htimeout fate with
      ⟨sock, t, heq, ht, -⟩ | ⟨message, t, heq, hsame, ht⟩
    · obtain ⟨rfl, rfl⟩ := Prod.mk.inj (heq.symm.trans hopen)
      exact Or.inl ⟨rfl, ht.connected⟩
    · obtain ⟨rfl, rfl⟩ := Prod.mk.inj (heq.symm.trans hopen)
      refine Or.inr ⟨message, rfl, hsame, ht.socket, ht.clientPath, ?_, ?_, ht.files⟩
      · rw [ht.sockets, h.sockets]
      · rw [ht.sockets]
        exact fun _ => rfl
  files p := iff_of_false (h.files p) (h.not_openAt p)
  clientPath p := iff_of_false (by simp [h.clientPath]) (h.not_openAt p)
  opensOnce hsocket := absurd h.socket hsocket
  closesOnce _ := close_of_shut h
  closes hsocket := absurd h.socket hsocket

theorem World.Opened.promise {s : World} {sock : ℕ} (h : s.Opened sock) : s.Promise where
  opens := by
    intro fate s' outcome hopen
    obtain ⟨rfl, rfl⟩ := Prod.mk.inj ((openSocket_of_opened h fate).symm.trans hopen)
    exact Or.inl ⟨rfl, h.connected⟩
  files p := by rw [h.files, h.openAt_iff]
  clientPath p := (h.openAt_iff p).symm
  opensOnce _ := openSocket_of_opened h
  closesOnce hnone := by
    rw [h.socket] at hnone
    cases hnone
  closes := by
    intro _ removable
    have hshut := close_of_opened h removable
    refine ⟨rfl, ?_, hshut.files⟩
    rw [hshut.sockets]
    exact fun _ => rfl

/-- A fate in which every call is granted. -/
def Fate.granted : Fate := ⟨⟨true, ⟨[]⟩⟩, ⟨true, ⟨[]⟩⟩, ⟨true, ⟨[]⟩⟩, true⟩

/-- What can be removed leaves its path free. -/
theorem Host.unlink_free (host : Host) {path : Text} (hpath : path ≠ []) :
    (host.unlink (some path) true).files path = none := by
  cases path with
  | nil => exact absurd rfl hpath
  | cons c path =>
    rw [unlink, if_neg (by simp)]
    · exact Function.update_self ..
    · simp

theorem CtrlTransport.bindClient_granted (t : CtrlTransport) (sock : ℕ) (host : Host) :
    ∃ clientPath host', t.bindClient sock host .granted = (.ok (), clientPath, host') := by
  unfold bindClient
  cases host.bind sock ('\x00' :: t.name host.pid) Fate.granted.abstractBind with
  | ok host' => exact ⟨none, host', rfl⟩
  | error error =>
    have hown : join t.clientDir (t.name host.pid) = t.own host.pid := rfl
    obtain ⟨hpath, hfile⟩ := t.own_spec host.pid
    -- nothing is left at the path, so the bind finds it free
    have hbind : ∃ host', (host.unlink (some (t.own host.pid)) Fate.granted.removable).bind sock
        (t.own host.pid) Fate.granted.fileBind = .ok host' := by
      rw [Host.bind, if_neg (by simp [hfile]), if_pos ⟨rfl, host.unlink_free hpath⟩]
      exact ⟨_, rfl⟩
    obtain ⟨host', hbind⟩ := hbind
    exact ⟨some (t.own host.pid), host', by simp only [hown, hbind]⟩

/-- When every call is granted, a socket is bound and connected, and `settimeout` decides. -/
theorem World.openSocket_granted {s : World} (hsocket : s.transport.socket = none)
    {error : SettimeoutError} (hraised : s.transport.timeout.settimeout = .error error) :
    (s.openSocket .granted).1 = .error (.settimeout error) := by
  obtain ⟨clientPath, host, hbind⟩ :=
    s.transport.bindClient_granted s.host.socket.1 s.host.socket.2
  unfold openSocket
  rw [hsocket]
  dsimp only
  rw [hbind]
  show (match s.transport.timeout.settimeout with
    | .error error => (Except.error (OpenError.settimeout error), _)
    | .ok () => _).1 = _
  rw [hraised]

/-- **Nothing is leaked, if the socket takes the timeout.**  A transport keeps its promise in
every state of every run exactly when its timeout is a number of seconds from zero up to what a
signed word of 64 bits holds in nanoseconds. -/
theorem transport_never_leaks_iff :
    (∀ trace s,
        (transport path clientDir hdir timeout id pid abstractNamespace left).Reaches trace s →
          s.Promise) ↔
      ∃ value, timeout = .finite value ∧ 0 ≤ value ∧ value * 10 ^ 9 < 2 ^ 63 := by
  rw [← Seconds.settimeout_eq_ok_iff]
  constructor
  · intro hpromise
    cases htimeout : timeout.settimeout with
    | ok => rfl
    | error error =>
      -- the first `open` is refused its timeout
      have hraised := World.openSocket_granted
        (s := World.start path clientDir hdir timeout id pid abstractNamespace left) rfl htimeout
      rcases (hpromise [] _ .start).opens .granted _ _ Prod.mk.eta.symm with
        ⟨hok, -⟩ | ⟨message, hmessage, -⟩
      · cases hraised.symm.trans hok
      · cases hraised.symm.trans hmessage
  · intro htimeout trace s hreaches
    have hsound := transport_sound htimeout hreaches
    rcases hsound.held with hshut | ⟨sock, hopened⟩
    · exact hshut.promise hsound.timeout
    · exact hopened.promise

/-- The abstract bind fails, the fallback binds, and `connect` is refused. -/
theorem transport_never_leaks_iff_refused :
    let refused : Outcome := ⟨false, ⟨"[Errno 2] No such file or directory".toList⟩⟩
    let start := World.start "/run/wlan0".toList "/tmp".toList (by simp) (.finite defaultTimeout)
      7 1 false fun _ => false
    let s := (start.openSocket ⟨refused, ⟨true, ⟨[]⟩⟩, refused, true⟩).2
    s.transport.clientPath = none ∧ ∀ p, s.host.files p ≠ some .ours := by
  intro refused start s
  have hfails : (start.openSocket ⟨refused, ⟨true, ⟨[]⟩⟩, refused, true⟩).1.isOk = false := by
    decide +kernel
  have hstart : (transport "/run/wlan0".toList "/tmp".toList (by simp) (.finite defaultTimeout)
    7 1 false fun _ => false).Reaches [] start := Machine.Reaches.start
  have hpromise : start.Promise :=
    transport_never_leaks_iff.mpr ⟨5, rfl, by norm_num⟩ [] start hstart
  rcases hpromise.opens ⟨refused, ⟨true, ⟨[]⟩⟩, refused, true⟩ s _ Prod.mk.eta.symm with
    ⟨hok, -⟩ | ⟨message, -, -, -, hpath, -, -, hfiles⟩
  · rw [hok] at hfails
    cases hfails
  · exact ⟨hpath, hfiles⟩

/-- A timeout of minus one second: the file of the fallback stays, and `close` does not remove
it. -/
theorem negative_timeout_leaks :
    let refused : Outcome := ⟨false, ⟨"[Errno 2] No such file or directory".toList⟩⟩
    let machine := transport "/run/wlan0".toList "/tmp".toList (by simp) (.finite (-1)) 7 1 false
      fun _ => false
    (∃ s, machine.run machine.start
          [.openCall { Fate.granted with abstractBind := refused }, .close true, .collect 0] =
            some (s, [.error (.settimeout .valueError)]) ∧
        s.transport.socket = none ∧ s.transport.clientPath = none ∧
        s.host.files "/tmp/wpa_ctrl_1-7".toList = some .ours) ∧
      ¬ ∀ trace s, machine.Reaches trace s → s.Promise := by
  intro refused machine
  have hleft : ∃ s, machine.run machine.start
        [.openCall { Fate.granted with abstractBind := refused }, .close true, .collect 0] =
          some (s, [.error (.settimeout .valueError)]) ∧
      s.transport.socket = none ∧ s.transport.clientPath = none ∧
      s.host.files "/tmp/wpa_ctrl_1-7".toList = some .ours := by
    have hrun : (machine.run machine.start
        [.openCall { Fate.granted with abstractBind := refused }, .close true, .collect 0]).map
          (fun result => (result.2, result.1.transport.socket, result.1.transport.clientPath,
            result.1.host.files "/tmp/wpa_ctrl_1-7".toList)) =
        some ([.error (.settimeout .valueError)], none, none, some .ours) := by
      decide +kernel
    obtain ⟨⟨s, seen⟩, hrun, hleft⟩ := Option.map_eq_some_iff.mp hrun
    simp only [Prod.mk.injEq] at hleft
    obtain ⟨rfl, hsocket, hpath, hfile⟩ := hleft
    exact ⟨s, hrun, hsocket, hpath, hfile⟩
  refine ⟨hleft, fun hpromise => ?_⟩
  obtain ⟨s, hrun, hsocket, -, hfile⟩ := hleft
  obtain ⟨sock, endpoint, hopen, -⟩ :=
    ((hpromise _ s (Machine.reaches_of_run hrun)).files _).mp hfile
  rw [hsocket] at hopen
  cases hopen

end

end WpaCtrl
