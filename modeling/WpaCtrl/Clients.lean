/-
# Several connections in one process (`compat.py`, `transport.py`)

A process may hold several connections, and `compat` keeps one for every interface it was
asked for, to reuse it.  They share one host: each binds its socket under a name made of the
process and of its own identity, in the abstract namespace or as a file in a directory.

* `Clients.Moved.kept`, `Clients.Moved.tidy` : what a client that opens or closes leaves;
* `clients_never_leak` : in every run the host holds what the open clients hold, and, if
  `settimeout` takes their timeouts, nothing else; `close_all` gives back what `get_client` has
  handed out;
* `clients_undisturbed` : what is done with one client leaves the others as they are;
* `getClient_keeps` : the same interface has the same client until `close_all`.
-/
import WpaCtrl.Transport
import WpaCtrl.Dict

open Text Machine

namespace WpaCtrl

/-! ## The names of the clients -/

theorem CtrlTransport.own_congr {t u : CtrlTransport} (hid : t.id = u.id)
    (hdir : t.clientDir = u.clientDir) (pid : ℕ) : t.own pid = u.own pid := by
  have hname : t.name pid = u.name pid := by
    unfold name
    rw [hid]
  unfold own
  rw [hname, hdir]

private theorem toString_toList (n : ℕ) : (toString n).toList = ofInt n := by
  show (Nat.repr n).toList = Nat.toDigits 10 n
  simp [Nat.repr]

/-- Names of one process are as different as the objects they are made of. -/
theorem CtrlTransport.name_inj {t u : CtrlTransport} {pid : ℕ} (h : t.name pid = u.name pid) :
    t.id = u.id := by
  have hid := (List.cons.inj (List.append_cancel_left h)).2
  rw [toString_toList, toString_toList] at hid
  exact Int.ofNat.inj (ofInt_injective hid)

theorem CtrlTransport.notMem_name (t : CtrlTransport) (pid : ℕ) : '/' ∉ t.name pid := by
  have hdigits : ∀ n : ℕ, '/' ∉ ofInt n := fun n => notMem_ofInt (by decide) (by decide) _
  unfold name
  rw [toString_toList, toString_toList]
  simp only [List.mem_append, List.mem_cons, not_or]
  exact ⟨⟨by decide, hdigits _⟩, by decide, hdigits _⟩

/-- So are their paths, in one directory or in two. -/
theorem CtrlTransport.own_inj {t u : CtrlTransport} {pid : ℕ} (h : t.own pid = u.own pid) :
    t.id = u.id := by
  -- the name is what stands behind the last slash
  have hlast : ∀ v : CtrlTransport, (rpartition '/' (v.own pid)).2.2 = v.name pid := by
    intro v
    have hslash := v.notMem_name pid
    obtain ⟨rest, hname⟩ := v.name_eq pid
    rw [own, join, if_neg (by simp [hname])]
    split_ifs with hdir
    · rcases hdir with hnil | hend
      · rw [hnil, List.nil_append, rpartition, if_neg hslash]
      · obtain ⟨dir, hdir⟩ := List.getLast?_eq_some_iff.mp hend
        rw [hdir, List.append_assoc]
        exact congrArg (·.2.2) (rpartition_append dir hslash)
    · exact congrArg (·.2.2) (rpartition_append v.clientDir hslash)
  exact name_inj (by rw [← hlast t, ← hlast u, h])

/-! ## The clients of a process -/

/-- `DEFAULT_CTRL_DIR` -/
def defaultCtrlDir : Text := "/var/run/wpa_supplicant".toList

/-- `DEFAULT_CLIENT_DIR` -/
def defaultClientDir : Text := "/tmp".toList

/-- `interface_path` -/
def interfacePath (ifname ctrlDir : Text) : Text := join ctrlDir ifname

/-- The arguments of `WpaCtrl`. -/
structure Arguments where
  ifname : Option Text
  ctrlDir : Text
  path : Option Text
  clientDir : Text
  clientDir_noNul : '\x00' ∉ clientDir
  timeout : Seconds

/-- The path `WpaCtrl` talks to; `none` is a `ValueError`. -/
def Arguments.path? (arguments : Arguments) : Option Text :=
  match arguments.path with
  | some path => some path
  | none => arguments.ifname.map fun ifname => interfacePath ifname arguments.ctrlDir

/-- `WpaCtrl(ifname)` -/
def Arguments.ofInterface (ifname : Text) : Arguments where
  ifname := some ifname
  ctrlDir := defaultCtrlDir
  path := none
  clientDir := defaultClientDir
  clientDir_noNul := by decide
  timeout := .finite defaultTimeout

/-- The transport of a new client, `id` being that of the object. -/
def Arguments.transport? (arguments : Arguments) (id : ℕ) : Option CtrlTransport :=
  arguments.path?.map fun path =>
    ⟨path, arguments.clientDir, arguments.clientDir_noNul, arguments.timeout, id, none, none⟩

/-- The clients of a process by their identities, those that `compat` keeps by their
interfaces, and their host. -/
structure Clients where
  host : Host
  objects : ℕ → Option CtrlTransport
  /-- `_clients` -/
  clients : Dict Text ℕ

inductive ClientsAction where
  /-- `WpaCtrl(..)`, and the identity of the client -/
  | make (arguments : Arguments) (id : ℕ)
  /-- `get_client(ifname)`, and the identity of the client that is made, if one is -/
  | getClient (ifname : Text) (id : ℕ)
  /-- a call of a client that opens its transport -/
  | openCall (id : ℕ) (fate : Fate)
  | close (id : ℕ) (removable : Bool)
  | closeAll (removable : ℕ → Bool)
  /-- a closed client that nobody has any more is freed, and its identity with it -/
  | free (id : ℕ)
  /-- another program makes or removes a file that is not ours -/
  | others (path : Text) (present : Bool)

inductive ClientsObservation where
  /-- the client that was made, or `none` for a `ValueError` -/
  | made (id : Option ℕ)
  | got (ifname : Text) (id : ℕ)
  | opened (id : ℕ) (outcome : Except OpenError Unit)
  | closed (id : ℕ)
  | closedAll

namespace Clients

/-- A client calls `open`. -/
def openOne (c : Clients) (t : CtrlTransport) (id : ℕ) (fate : Fate) :
    Except OpenError Unit × Clients :=
  let (outcome, s) := World.openSocket ⟨t, c.host⟩ fate
  (outcome, { c with host := s.host, objects := Function.update c.objects id (some s.transport) })

/-- A client is closed, if it is one. -/
def closeOne (c : Clients) (id : ℕ) (removable : Bool) : Clients :=
  match c.objects id with
  | none => c
  | some t =>
    let s := World.close ⟨t, c.host⟩ removable
    { c with host := s.host, objects := Function.update c.objects id (some s.transport) }

/-- The loop of `close_all`, over the entries that are left, the last one first. -/
def closeEntries (c : Clients) (removable : ℕ → Bool) (entries : List (Text × ℕ)) : Clients :=
  entries.reverse.foldl (fun c entry => c.closeOne entry.2 (removable entry.2)) c

/-- A client is made, under an identity that no other has. -/
def add (c : Clients) (arguments : Arguments) (id : ℕ) : Option Clients :=
  match c.objects id with
  | some _ => none
  | none =>
    (arguments.transport? id).map fun t =>
      { c with objects := Function.update c.objects id (some t) }

/-- One step. -/
def step (c : Clients) : ClientsAction → Option (Clients × List ClientsObservation)
  | .make arguments id =>
    match arguments.path? with
    | none => some (c, [.made none])
    | some _ => (c.add arguments id).map fun c => (c, [.made (some id)])
  | .getClient ifname id =>
    match c.clients.get? ifname with
    | some client => some (c, [.got ifname client])
    | none =>
      (c.add (.ofInterface ifname) id).map fun c =>
        ({ c with clients := c.clients.set ifname id }, [.got ifname id])
  | .openCall id fate =>
    match c.objects id with
    | none => none
    | some t => some ((c.openOne t id fate).2, [.opened id (c.openOne t id fate).1])
  | .close id removable =>
    if (c.objects id).isSome then some (c.closeOne id removable, [.closed id]) else none
  | .closeAll removable =>
    some ({ c.closeEntries removable c.clients.entries with clients := Dict.empty }, [.closedAll])
  | .free id =>
    match c.objects id with
    | some ⟨_, _, _, _, _, none, _⟩ =>
      if id ∈ c.clients.entries.map Prod.snd then none
      else some ({ c with objects := Function.update c.objects id none }, [])
    | _ => none
  | .others path present =>
    if c.host.files path = some .ours then none
    else
      let file := if present then some Maker.another else none
      some ({ c with host :=
        { c.host with files := Function.update c.host.files path file } }, [])

/-- A process that has made no client, on a host where other programs have left files. -/
def start (pid : ℕ) (abstractNamespace : Bool) (left : Text → Bool) : Clients where
  host := ⟨pid, abstractNamespace, fun path => if left path then some .another else none,
    fun _ => none, 0⟩
  objects := fun _ => none
  clients := Dict.empty

end Clients

/-- Whether an action is about a client. -/
def ClientsAction.about (c : Clients) (id : ℕ) : ClientsAction → Prop
  | .make _ _ | .getClient _ _ | .others _ _ => False
  | .openCall id' _ | .close id' _ | .free id' => id' = id
  | .closeAll _ => ∃ ifname, c.clients.get? ifname = some id

/-- Whether `settimeout` takes the timeout of a client that is made. -/
def ClientsAction.takesTimeout : ClientsAction → Bool
  | .make arguments _ => arguments.timeout.settimeout = .ok ()
  | _ => true

/-- The machine of a process and its clients. -/
def clients (pid : ℕ) (abstractNamespace : Bool) (left : Text → Bool) :
    Machine Clients ClientsAction ClientsObservation :=
  ⟨Clients.start pid abstractNamespace left, Clients.step⟩

/-! ## What the host holds of them -/

namespace Clients

/-- The host holds the socket and the file of each open client. -/
structure Kept (c : Clients) (pid : ℕ) : Prop where
  pid : c.host.pid = pid
  self : ∀ {id t}, c.objects id = some t → t.id = id
  fresh : ∀ k, c.host.made ≤ k → c.host.sockets k = none
  socket : ∀ {id t k}, c.objects id = some t → t.socket = some k →
    c.host.sockets k = some (t.endpoint c.host.pid)
  once : ∀ {id id' t t' k}, c.objects id = some t → c.objects id' = some t' →
    t.socket = some k → t'.socket = some k → id = id'
  file : ∀ {id t p}, c.objects id = some t → t.clientPath = some p → c.host.files p = some .ours
  path : ∀ {id t}, c.objects id = some t →
    t.clientPath = none ∨ t.clientPath = some (t.own c.host.pid) ∧ t.socket ≠ none

/-- It holds nothing else of them, and `settimeout` takes their timeouts. -/
structure Tidy (c : Clients) : Prop where
  timeout : ∀ {id t}, c.objects id = some t → t.timeout.settimeout = .ok ()
  socket : ∀ {k endpoint}, c.host.sockets k = some endpoint →
    ∃ id t, c.objects id = some t ∧ t.socket = some k
  file : ∀ {p}, c.host.files p = some .ours →
    ∃ id t, c.objects id = some t ∧ t.clientPath = some p

variable {c : Clients} {pid : ℕ}

/-- A closed client has no path. -/
theorem Kept.path_of_closed (h : c.Kept pid) {id : ℕ} {t : CtrlTransport}
    (ht : c.objects id = some t) (hsocket : t.socket = none) : t.clientPath = none :=
  (h.path ht).resolve_right fun hopen => hopen.2 hsocket

/-- A path of one client is no other's. -/
theorem Kept.id_of_own (h : c.Kept pid) {id id' : ℕ} {t t' : CtrlTransport}
    (ht : c.objects id = some t) (ht' : c.objects id' = some t')
    (hpath : t'.clientPath = some (t.own c.host.pid)) : id' = id := by
  rcases h.path ht' with hnone | ⟨hown, -⟩
  · rw [hnone] at hpath
    cases hpath
  · have hsame : t'.own c.host.pid = t.own c.host.pid := Option.some.inj (hown.symm.trans hpath)
    exact (h.self ht').symm.trans ((CtrlTransport.own_inj hsame).trans (h.self ht))

/-- No two clients are bound under one address. -/
theorem Kept.bound_inj (h : c.Kept pid) {id id' : ℕ} {t t' : CtrlTransport}
    (ht : c.objects id = some t) (ht' : c.objects id' = some t')
    (hbound : (t.endpoint pid).bound = (t'.endpoint pid).bound) : id = id' := by
  have hsame : t.clientPath.getD ('\x00' :: t.name pid) =
      t'.clientPath.getD ('\x00' :: t'.name pid) := Option.some.inj hbound
  -- an abstract name is no path
  have hfile : ∀ u v : CtrlTransport, '\x00' :: u.name pid ≠ v.own pid := by
    intro u v heq
    have hpath : isAbstract (v.own pid) = false := (v.own_spec pid).2
    rw [← heq, isAbstract_cons] at hpath
    cases hpath
  have hpid := h.pid
  rw [← h.self ht, ← h.self ht']
  rcases h.path ht with hpath | ⟨hpath, -⟩ <;> rcases h.path ht' with hpath' | ⟨hpath', -⟩ <;>
    rw [hpath, hpath'] at hsame <;> subst hpid
  · exact CtrlTransport.name_inj (List.cons.inj hsame).2
  · exact absurd hsame (hfile _ _)
  · exact absurd hsame.symm (hfile _ _)
  · exact CtrlTransport.own_inj hsame

/-- An object afterwards is the new one, or another one as it was. -/
theorem update_cases {objects : ℕ → Option CtrlTransport} {id id' : ℕ}
    {object : Option CtrlTransport} {u : CtrlTransport}
    (hu : Function.update objects id object id' = some u) :
    id' = id ∧ object = some u ∨ id' ≠ id ∧ objects id' = some u := by
  by_cases hsame : id' = id
  · subst hsame
    rw [Function.update_self] at hu
    exact Or.inl ⟨rfl, hu⟩
  · rw [Function.update_of_ne hsame] at hu
    exact Or.inr ⟨hsame, hu⟩

/-! ### One client opens or closes -/

/-- One client opens or closes: if it has a socket, before or afterwards, that is `sock`; its
file is the one at its own path; and the others have neither. -/
structure Moved (c : Clients) (id sock : ℕ) (t t' : CtrlTransport) (host' : Host) : Prop where
  was : c.objects id = some t
  same : t'.id = t.id ∧ t'.clientDir = t.clientDir ∧ t'.timeout = t.timeout
  pid : host'.pid = c.host.pid
  fresh : ∀ k, host'.made ≤ k → host'.sockets k = none
  before : ∀ {k}, t.socket = some k → k = sock
  after : ∀ {k}, t'.socket = some k → k = sock
  others : ∀ {id' u}, id' ≠ id → c.objects id' = some u → u.socket ≠ some sock
  sockets : ∀ k, k ≠ sock → host'.sockets k = c.host.sockets k
  files : ∀ p, p ≠ t.own c.host.pid → host'.files p = c.host.files p
  endpoint : t'.socket ≠ none → host'.sockets sock = some (t'.endpoint c.host.pid)
  file : t'.clientPath = none ∨ t'.clientPath = some (t.own c.host.pid) ∧ t'.socket ≠ none ∧
    host'.files (t.own c.host.pid) = some .ours

namespace Moved

variable {id sock : ℕ} {t t' : CtrlTransport} {host' : Host}

/-- The sockets of all clients are there. -/
theorem held_socket (m : c.Moved id sock t t' host') (h : c.Kept pid) {id' k : ℕ}
    {u : CtrlTransport} (hu : Function.update c.objects id (some t') id' = some u)
    (hk : u.socket = some k) : host'.sockets k = some (u.endpoint c.host.pid) := by
  rcases update_cases hu with ⟨rfl, ⟨⟩⟩ | ⟨hne, hu⟩
  · obtain rfl := m.after hk
    exact m.endpoint (by simp [hk])
  · have hother : k ≠ sock := by
      rintro rfl
      exact m.others hne hu hk
    rw [m.sockets k hother]
    exact h.socket hu hk

/-- So are their files. -/
theorem held_file (m : c.Moved id sock t t' host') (h : c.Kept pid) {id' : ℕ}
    {u : CtrlTransport} {p : Text} (hu : Function.update c.objects id (some t') id' = some u)
    (hp : u.clientPath = some p) : host'.files p = some .ours := by
  rcases update_cases hu with ⟨rfl, ⟨⟩⟩ | ⟨hne, hu⟩
  · rcases m.file with hnone | ⟨hown, -, hfile⟩
    · rw [hnone] at hp
      cases hp
    · rw [← Option.some.inj (hown.symm.trans hp)]
      exact hfile
  · have hother : p ≠ t.own c.host.pid := by
      rintro rfl
      exact hne (h.id_of_own m.was hu hp)
    rw [m.files p hother]
    exact h.file hu hp

/-- Two clients have two sockets. -/
theorem once (m : c.Moved id sock t t' host') (h : c.Kept pid) {id₁ id₂ k : ℕ}
    {u₁ u₂ : CtrlTransport} (h₁ : Function.update c.objects id (some t') id₁ = some u₁)
    (h₂ : Function.update c.objects id (some t') id₂ = some u₂) (hk₁ : u₁.socket = some k)
    (hk₂ : u₂.socket = some k) : id₁ = id₂ := by
  rcases update_cases h₁ with ⟨rfl, ⟨⟩⟩ | ⟨hne₁, hold₁⟩
  · rcases update_cases h₂ with ⟨rfl, -⟩ | ⟨hne₂, hold₂⟩
    · rfl
    · exact absurd (m.after hk₁ ▸ hk₂) (m.others hne₂ hold₂)
  · rcases update_cases h₂ with ⟨rfl, ⟨⟩⟩ | ⟨-, hold₂⟩
    · exact absurd (m.after hk₂ ▸ hk₁) (m.others hne₁ hold₁)
    · exact h.once hold₁ hold₂ hk₁ hk₂

/-- **The host holds what the open clients have.** -/
theorem kept (m : c.Moved id sock t t' host') (h : c.Kept pid) :
    (⟨host', Function.update c.objects id (some t'), c.clients⟩ : Clients).Kept pid where
  pid := m.pid.trans h.pid
  self := by
    intro id' u hu
    rcases update_cases hu with ⟨rfl, ⟨⟩⟩ | ⟨-, hu⟩
    · exact m.same.1.trans (h.self m.was)
    · exact h.self hu
  fresh := m.fresh
  socket := by
    intro id' u k hu hk
    show host'.sockets k = some (u.endpoint host'.pid)
    rw [m.pid]
    exact m.held_socket h hu hk
  once := m.once h
  file := m.held_file h
  path := by
    intro id' u hu
    show u.clientPath = none ∨ u.clientPath = some (u.own host'.pid) ∧ u.socket ≠ none
    rw [m.pid]
    rcases update_cases hu with ⟨rfl, ⟨⟩⟩ | ⟨-, hu⟩
    · rw [CtrlTransport.own_congr m.same.1 m.same.2.1]
      exact m.file.imp_right fun hown => ⟨hown.1, hown.2.1⟩
    · exact h.path hu

/-- **It holds nothing else**, if nothing is left at the socket and the path of a client that is
closed afterwards. -/
theorem tidy (m : c.Moved id sock t t' host') (hkept : c.Kept pid) (h : c.Tidy)
    (hsock : ∀ {endpoint}, host'.sockets sock = some endpoint → t'.socket = some sock)
    (hown : host'.files (t.own c.host.pid) = some .ours →
      t'.clientPath = some (t.own c.host.pid)) :
    (⟨host', Function.update c.objects id (some t'), c.clients⟩ : Clients).Tidy where
  timeout := by
    intro id' u hu
    rcases update_cases hu with ⟨rfl, ⟨⟩⟩ | ⟨-, hu⟩
    · rw [m.same.2.2]
      exact h.timeout m.was
    · exact h.timeout hu
  socket := by
    intro k endpoint hk
    by_cases hsame : k = sock
    · subst hsame
      exact ⟨id, t', Function.update_self .., hsock hk⟩
    · obtain ⟨id', u, hu, huk⟩ := h.socket ((m.sockets k hsame).symm.trans hk)
      have hne : id' ≠ id := by
        rintro rfl
        obtain rfl := Option.some.inj (m.was.symm.trans hu)
        exact hsame (m.before huk)
      exact ⟨id', u, (Function.update_of_ne hne _ _).trans hu, huk⟩
  file := by
    intro p hp
    by_cases hsame : p = t.own c.host.pid
    · subst hsame
      exact ⟨id, t', Function.update_self .., hown hp⟩
    · obtain ⟨id', u, hu, hup⟩ := h.file ((m.files p hsame).symm.trans hp)
      have hne : id' ≠ id := by
        rintro rfl
        obtain rfl := Option.some.inj (m.was.symm.trans hu)
        rcases hkept.path m.was with hnone | ⟨hpath, -⟩
        · rw [hnone] at hup
          cases hup
        · exact hsame (Option.some.inj (hup.symm.trans hpath))
      exact ⟨id', u, (Function.update_of_ne hne _ _).trans hu, hup⟩

end Moved

/-- The number of the next socket is no client's. -/
theorem Kept.socket_ne_made (h : c.Kept pid) {id : ℕ} {t : CtrlTransport}
    (ht : c.objects id = some t) : t.socket ≠ some c.host.made := by
  intro hsocket
  have hsome := h.socket ht hsocket
  rw [h.fresh _ le_rfl] at hsome
  cases hsome

/-- A client that is not open has no file. -/
theorem Tidy.file_ne (h : c.Tidy) (hkept : c.Kept pid) {id : ℕ} {t : CtrlTransport}
    (ht : c.objects id = some t) (hpath : t.clientPath ≠ some (t.own c.host.pid)) :
    c.host.files (t.own c.host.pid) ≠ some .ours := by
  intro hfile
  obtain ⟨id', u, hu, hup⟩ := h.file hfile
  obtain rfl := hkept.id_of_own ht hu hup
  obtain rfl := Option.some.inj (ht.symm.trans hu)
  exact hpath hup

theorem openOne_of_open {id sock : ℕ} {t : CtrlTransport} (ht : c.objects id = some t)
    (hsocket : t.socket = some sock) (fate : Fate) : (c.openOne t id fate).2 = c := by
  have hopen : World.openSocket ⟨t, c.host⟩ fate = (.ok (), ⟨t, c.host⟩) := by
    unfold World.openSocket
    rw [hsocket]
  rw [openOne, hopen]
  show ({ c with objects := Function.update c.objects id (some t) } : Clients) = c
  rw [← ht, Function.update_eq_self]

/-- A closed client opens; if nothing was left before, nothing is left that it does not hold. -/
theorem Kept.moved_of_open (h : c.Kept pid) {id : ℕ} {t : CtrlTransport}
    (ht : c.objects id = some t) (hsocket : t.socket = none) (fate : Fate) :
    ∃ t' host', (c.openOne t id fate).2 =
        ⟨host', Function.update c.objects id (some t'), c.clients⟩ ∧
      c.Moved id c.host.made t t' host' ∧
      (c.Tidy → (∀ {endpoint}, host'.sockets c.host.made = some endpoint →
          t'.socket = some c.host.made) ∧
        (host'.files (t.own c.host.pid) = some .ours →
          t'.clientPath = some (t.own c.host.pid))) := by
  have hpath := h.path_of_closed ht hsocket
  obtain ⟨outcome, s', hopen, hwithin, hresult⟩ :=
    World.openSocket_spec (s := ⟨t, c.host⟩) hsocket fate
  have hsockets : ∀ k, k ≠ c.host.made → s'.host.sockets k = c.host.sockets k := fun k hk =>
    (hwithin.sockets k hk).trans (Function.update_of_ne hk _ _)
  have hfresh : ∀ k, s'.host.made ≤ k → s'.host.sockets k = none := by
    intro k hk
    rw [hwithin.made] at hk
    have hlt : c.host.made < k := hk
    rw [hsockets k (Nat.ne_of_gt hlt)]
    exact h.fresh k hlt.le
  have hbefore : ∀ {k}, t.socket = some k → k = c.host.made := by
    rw [hsocket]
    rintro k ⟨⟩
  -- a transport that is as it was holds nothing
  have hsame : s'.transport = t → c.Moved id c.host.made t s'.transport s'.host := by
    intro hsame
    rw [hsame]
    exact ⟨ht, ⟨rfl, rfl, rfl⟩, hwithin.pid, hfresh, hbefore, hbefore,
      fun _ hu => h.socket_ne_made hu, hsockets, hwithin.files, fun hopened => absurd hsocket hopened,
      Or.inl hpath⟩
  refine ⟨s'.transport, s'.host, by rw [openOne, hopen], ?_⟩
  rcases hresult with ⟨-, ⟨clientPath, hopened⟩, hendpoint, hfile⟩ | ⟨-, hback⟩ |
    ⟨error, -, hraised, hunchanged⟩
  · have hsome : s'.transport.socket = some c.host.made := by rw [hopened]
    refine ⟨⟨ht, by rw [hopened]; exact ⟨rfl, rfl, rfl⟩, hwithin.pid, hfresh, hbefore, fun hk => ?_,
      fun _ hu => h.socket_ne_made hu, hsockets, hwithin.files, fun _ => hendpoint, ?_⟩,
      fun htidy => ⟨fun _ => hsome, fun hours => ?_⟩⟩
    · exact Option.some.inj (hk.symm.trans hsome)
    · exact hfile.imp And.left fun hown => ⟨hown.1, by simp [hsome], hown.2⟩
    · rcases hfile with ⟨-, hfiles⟩ | ⟨hown, -⟩
      · rw [hfiles] at hours
        exact absurd hours (htidy.file_ne h ht (by simp [hpath]))
      · exact hown
  · refine ⟨hsame hback.same, fun htidy => ⟨fun hsome => ?_, fun hours => ?_⟩⟩
    · cases hback.socket.symm.trans hsome
    · exact absurd (hback.file hours) (htidy.file_ne h ht (by simp [hpath]))
  · refine ⟨hsame hunchanged, fun htidy => ?_⟩
    cases hraised.symm.trans (htidy.timeout ht)

theorem Kept.openOne (h : c.Kept pid) {id : ℕ} {t : CtrlTransport} (ht : c.objects id = some t)
    (fate : Fate) : (c.openOne t id fate).2.Kept pid := by
  cases hsocket : t.socket with
  | some sock =>
    rw [openOne_of_open ht hsocket]
    exact h
  | none =>
    obtain ⟨t', host', hopen, hmoved, -⟩ := h.moved_of_open ht hsocket fate
    rw [hopen]
    exact hmoved.kept h

theorem Tidy.openOne (h : c.Tidy) (hkept : c.Kept pid) {id : ℕ} {t : CtrlTransport}
    (ht : c.objects id = some t) (fate : Fate) : (c.openOne t id fate).2.Tidy := by
  cases hsocket : t.socket with
  | some sock =>
    rw [openOne_of_open ht hsocket]
    exact h
  | none =>
    obtain ⟨t', host', hopen, hmoved, hleft⟩ := hkept.moved_of_open ht hsocket fate
    rw [hopen]
    exact hmoved.tidy hkept h (hleft h).1 (hleft h).2

/-- What is closed already, or is no client, stays. -/
theorem Kept.closeOne_of_closed (h : c.Kept pid) {id : ℕ}
    (hclosed : ∀ t, c.objects id = some t → t.socket = none) (removable : Bool) :
    c.closeOne id removable = c := by
  unfold Clients.closeOne
  cases ht : c.objects id with
  | none => rfl
  | some t =>
    dsimp only
    rw [World.close_of_closed (s := ⟨t, c.host⟩) (hclosed t ht) (h.path_of_closed ht (hclosed t ht))]
    show ({ c with host := c.host, objects := Function.update c.objects id (some t) } : Clients) = c
    rw [← ht, Function.update_eq_self]

/-- An open client closes. -/
theorem Kept.moved_of_close (h : c.Kept pid) {id sock : ℕ} {t : CtrlTransport}
    (ht : c.objects id = some t) (hsocket : t.socket = some sock) (removable : Bool) :
    ∃ host', c.closeOne id removable = ⟨host', Function.update c.objects id
        (some { t with socket := none, clientPath := none }), c.clients⟩ ∧
      c.Moved id sock t { t with socket := none, clientPath := none } host' ∧
      host'.sockets sock = none ∧
      (c.Tidy → host'.files (t.own c.host.pid) ≠ some .ours) := by
  have hpath := (h.path ht).imp_right And.left
  obtain ⟨htransport, hwithin, hsock, hfiles⟩ :=
    World.close_spec (s := ⟨t, c.host⟩) hsocket hpath removable
  have hfresh : ∀ k, (World.close ⟨t, c.host⟩ removable).host.made ≤ k →
      (World.close ⟨t, c.host⟩ removable).host.sockets k = none := by
    intro k hk
    by_cases hsame : k = sock
    · rw [hsame]
      exact hsock
    · rw [hwithin.sockets k hsame]
      exact h.fresh k (hwithin.made ▸ hk)
  refine ⟨(World.close ⟨t, c.host⟩ removable).host, ?_, ?_, hsock, fun htidy hours => ?_⟩
  · unfold Clients.closeOne
    rw [ht]
    dsimp only
    rw [htransport]
  · refine ⟨ht, ⟨rfl, rfl, rfl⟩, hwithin.pid, hfresh, ?_, ?_, ?_, hwithin.sockets, hwithin.files,
      fun hopen => absurd rfl hopen, Or.inl rfl⟩
    · intro k hk
      exact Option.some.inj (hk.symm.trans hsocket)
    · rintro k ⟨⟩
    · intro id' u hne hu huk
      exact hne (h.once hu ht huk hsocket)
  · obtain ⟨hfile, hother⟩ := (hfiles _).mp hours
    exact htidy.file_ne h ht hother hfile

theorem Kept.closeOne (h : c.Kept pid) (id : ℕ) (removable : Bool) :
    (c.closeOne id removable).Kept pid := by
  by_cases hopen : ∃ t sock, c.objects id = some t ∧ t.socket = some sock
  · obtain ⟨t, sock, ht, hsocket⟩ := hopen
    obtain ⟨host', hclose, hmoved, -⟩ := h.moved_of_close ht hsocket removable
    rw [hclose]
    exact hmoved.kept h
  · rw [h.closeOne_of_closed fun t ht => Option.eq_none_iff_forall_ne_some.mpr
      fun sock hsocket => hopen ⟨t, sock, ht, hsocket⟩]
    exact h

theorem Tidy.closeOne (h : c.Tidy) (hkept : c.Kept pid) (id : ℕ) (removable : Bool) :
    (c.closeOne id removable).Tidy := by
  by_cases hopen : ∃ t sock, c.objects id = some t ∧ t.socket = some sock
  · obtain ⟨t, sock, ht, hsocket⟩ := hopen
    obtain ⟨host', hclose, hmoved, hgone, hfile⟩ := hkept.moved_of_close ht hsocket removable
    rw [hclose]
    refine hmoved.tidy hkept h (fun hsome => ?_) fun hours => absurd hours (hfile h)
    rw [hgone] at hsome
    cases hsome
  · rw [hkept.closeOne_of_closed fun t ht => Option.eq_none_iff_forall_ne_some.mpr
      fun sock hsocket => hopen ⟨t, sock, ht, hsocket⟩]
    exact h

/-! ### Clients come and go -/

/-- A closed client comes or goes. -/
theorem Kept.exchange (h : c.Kept pid) {id : ℕ} {object : Option CtrlTransport}
    (hafter : ∀ t, object = some t → t.id = id ∧ t.socket = none ∧ t.clientPath = none)
    (clients : Dict Text ℕ) :
    (⟨c.host, Function.update c.objects id object, clients⟩ : Clients).Kept pid where
  pid := h.pid
  self := by
    intro id' u hu
    rcases update_cases hu with ⟨rfl, hobject⟩ | ⟨-, hu⟩
    · exact (hafter u hobject).1
    · exact h.self hu
  fresh := h.fresh
  socket := by
    intro id' u k hu hk
    rcases update_cases hu with ⟨-, hobject⟩ | ⟨-, hu⟩
    · rw [(hafter u hobject).2.1] at hk
      cases hk
    · exact h.socket hu hk
  once := by
    intro id₁ id₂ u₁ u₂ k h₁ h₂ hk₁ hk₂
    rcases update_cases h₁ with ⟨-, hobject⟩ | ⟨-, h₁⟩
    · rw [(hafter u₁ hobject).2.1] at hk₁
      cases hk₁
    · rcases update_cases h₂ with ⟨-, hobject⟩ | ⟨-, h₂⟩
      · rw [(hafter u₂ hobject).2.1] at hk₂
        cases hk₂
      · exact h.once h₁ h₂ hk₁ hk₂
  file := by
    intro id' u p hu hp
    rcases update_cases hu with ⟨-, hobject⟩ | ⟨-, hu⟩
    · rw [(hafter u hobject).2.2] at hp
      cases hp
    · exact h.file hu hp
  path := by
    intro id' u hu
    rcases update_cases hu with ⟨-, hobject⟩ | ⟨-, hu⟩
    · exact Or.inl (hafter u hobject).2.2
    · exact h.path hu

theorem Tidy.exchange (h : c.Tidy) (hkept : c.Kept pid) {id : ℕ} {object : Option CtrlTransport}
    (hbefore : ∀ t, c.objects id = some t → t.socket = none)
    (hafter : ∀ t, object = some t → t.timeout.settimeout = .ok ()) (clients : Dict Text ℕ) :
    (⟨c.host, Function.update c.objects id object, clients⟩ : Clients).Tidy where
  timeout := by
    intro id' u hu
    rcases update_cases hu with ⟨-, hobject⟩ | ⟨-, hu⟩
    · exact hafter u hobject
    · exact h.timeout hu
  socket := by
    intro k endpoint hk
    obtain ⟨id', u, hu, huk⟩ := h.socket hk
    have hne : id' ≠ id := by
      rintro rfl
      rw [hbefore u hu] at huk
      cases huk
    exact ⟨id', u, (Function.update_of_ne hne _ _).trans hu, huk⟩
  file := by
    intro p hp
    obtain ⟨id', u, hu, hup⟩ := h.file hp
    have hne : id' ≠ id := by
      rintro rfl
      rw [hkept.path_of_closed hu (hbefore u hu)] at hup
      cases hup
    exact ⟨id', u, (Function.update_of_ne hne _ _).trans hu, hup⟩

/-- What a new client is. -/
theorem add_cases {arguments : Arguments} {id : ℕ} {c' : Clients}
    (hadd : c.add arguments id = some c') : c.objects id = none ∧ ∃ t,
      arguments.transport? id = some t ∧ t.id = id ∧ t.socket = none ∧ t.clientPath = none ∧
      t.timeout = arguments.timeout ∧
      c' = { c with objects := Function.update c.objects id (some t) } := by
  unfold add at hadd
  cases hfree : c.objects id with
  | some t =>
    rw [hfree] at hadd
    cases hadd
  | none =>
    rw [hfree] at hadd
    obtain ⟨t, ht, rfl⟩ := Option.map_eq_some_iff.mp hadd
    obtain ⟨path, -, rfl⟩ := Option.map_eq_some_iff.mp ht
    exact ⟨rfl, _, ht, rfl, rfl, rfl, rfl, rfl⟩

theorem Kept.add (h : c.Kept pid) {arguments : Arguments} {id : ℕ} {c' : Clients}
    (hadd : c.add arguments id = some c') (clients : Dict Text ℕ) :
    ({ c' with clients := clients } : Clients).Kept pid := by
  obtain ⟨-, t, -, hid, hsocket, hpath, -, rfl⟩ := add_cases hadd
  refine h.exchange ?_ clients
  rintro _ ⟨⟩
  exact ⟨hid, hsocket, hpath⟩

theorem Tidy.add (h : c.Tidy) (hkept : c.Kept pid) {arguments : Arguments} {id : ℕ}
    {c' : Clients} (hadd : c.add arguments id = some c')
    (htimeout : arguments.timeout.settimeout = .ok ()) (clients : Dict Text ℕ) :
    ({ c' with clients := clients } : Clients).Tidy := by
  obtain ⟨hfree, t, -, -, -, -, hsame, rfl⟩ := add_cases hadd
  refine h.exchange hkept ?_ ?_ clients
  · simp [hfree]
  · rintro _ ⟨⟩
    rw [hsame]
    exact htimeout

/-- What `close` makes of the clients. -/
theorem closeOne_objects (c : Clients) (id : ℕ) (removable : Bool) :
    (c.closeOne id removable).clients = c.clients ∧
      ∀ id', (c.closeOne id removable).objects id' =
        if id' = id then (c.objects id').map fun t => { t with socket := none, clientPath := none }
        else c.objects id' := by
  unfold closeOne
  cases ht : c.objects id with
  | none =>
    refine ⟨rfl, fun id' => ?_⟩
    rcases eq_or_ne id' id with rfl | hne
    · rw [if_pos rfl, ht]
      rfl
    · rw [if_neg hne]
  | some t =>
    refine ⟨rfl, fun id' => ?_⟩
    rcases eq_or_ne id' id with rfl | hne
    · rw [if_pos rfl, ht]
      exact Function.update_self ..
    · rw [if_neg hne]
      exact Function.update_of_ne hne _ _

theorem closeEntries_cons (c : Clients) (removable : ℕ → Bool) (entry : Text × ℕ)
    (entries : List (Text × ℕ)) : c.closeEntries removable (entry :: entries) =
      (c.closeEntries removable entries).closeOne entry.2 (removable entry.2) := by
  rw [closeEntries, List.reverse_cons, List.foldl_append]
  rfl

/-- What every `close` keeps, the loop of `close_all` keeps. -/
theorem closeEntries_keeps (p : Clients → Prop)
    (hclose : ∀ c id removable, p c → p (c.closeOne id removable)) (h : p c)
    (removable : ℕ → Bool) (entries : List (Text × ℕ)) : p (c.closeEntries removable entries) := by
  induction entries with
  | nil => exact h
  | cons entry entries ih =>
    rw [closeEntries_cons]
    exact hclose _ _ _ ih

/-- The loop of `close_all` closes the clients of its entries and no other. -/
theorem closeEntries_objects (c : Clients) (removable : ℕ → Bool) (entries : List (Text × ℕ))
    (id : ℕ) : (c.closeEntries removable entries).objects id =
      if id ∈ entries.map Prod.snd then
        (c.objects id).map fun t => { t with socket := none, clientPath := none }
      else c.objects id := by
  induction entries with
  | nil => rfl
  | cons entry entries ih =>
    rw [closeEntries_cons, (closeOne_objects _ _ _).2, ih]
    simp only [List.map_cons, List.mem_cons]
    by_cases hid : id = entry.2
    · subst hid
      by_cases hmem : entry.2 ∈ entries.map Prod.snd
      · rw [if_pos rfl, if_pos hmem, if_pos (Or.inl rfl), Option.map_map]
        rfl
      · rw [if_pos rfl, if_neg hmem, if_pos (Or.inl rfl)]
    · simp only [hid, if_false, false_or]

/-- All a step can do. -/
inductive Change (c : Clients) :
    ClientsAction → Clients → List ClientsObservation → Prop
  | refused {arguments : Arguments} {id : ℕ} : Change c (.make arguments id) c [.made none]
  | made {arguments : Arguments} {id : ℕ} {c' : Clients} (h : c.add arguments id = some c') :
      Change c (.make arguments id) c' [.made (some id)]
  | found {ifname : Text} {id client : ℕ} (h : c.clients.get? ifname = some client) :
      Change c (.getClient ifname id) c [.got ifname client]
  | remembered {ifname : Text} {id : ℕ} {c' : Clients} (hnew : c.clients.get? ifname = none)
      (h : c.add (.ofInterface ifname) id = some c') :
      Change c (.getClient ifname id) { c' with clients := c.clients.set ifname id }
        [.got ifname id]
  | opened {id : ℕ} {fate : Fate} {t : CtrlTransport} (h : c.objects id = some t) :
      Change c (.openCall id fate) (c.openOne t id fate).2 [.opened id (c.openOne t id fate).1]
  | closed {id : ℕ} {removable : Bool} :
      Change c (.close id removable) (c.closeOne id removable) [.closed id]
  | closedAll {removable : ℕ → Bool} : Change c (.closeAll removable)
      { c.closeEntries removable c.clients.entries with clients := Dict.empty } [.closedAll]
  | freed {id : ℕ} {t : CtrlTransport} (h : c.objects id = some t) (hsocket : t.socket = none)
      (hforgotten : id ∉ c.clients.entries.map Prod.snd) :
      Change c (.free id) { c with objects := Function.update c.objects id none } []
  | others {path : Text} {present : Bool} (h : c.host.files path ≠ some .ours) :
      Change c (.others path present)
        ⟨{ c.host with
            files := Function.update c.host.files path
              (if present then some .another else none) }, c.objects, c.clients⟩ []

theorem step_change {a : ClientsAction} {c' : Clients} {seen : List ClientsObservation}
    (hstep : c.step a = some (c', seen)) : Change c a c' seen := by
  cases a with
  | make arguments id =>
    rw [step] at hstep
    cases hpath : arguments.path? with
    | none =>
      rw [hpath] at hstep
      obtain ⟨rfl, rfl⟩ := Prod.mk.inj (Option.some.inj hstep)
      exact .refused
    | some path =>
      rw [hpath] at hstep
      obtain ⟨d, hadd, heq⟩ := Option.map_eq_some_iff.mp hstep
      obtain ⟨rfl, rfl⟩ := Prod.mk.inj heq
      exact .made hadd
  | getClient ifname id =>
    rw [step] at hstep
    cases hclient : c.clients.get? ifname with
    | some client =>
      rw [hclient] at hstep
      obtain ⟨rfl, rfl⟩ := Prod.mk.inj (Option.some.inj hstep)
      exact .found hclient
    | none =>
      rw [hclient] at hstep
      obtain ⟨d, hadd, heq⟩ := Option.map_eq_some_iff.mp hstep
      obtain ⟨rfl, rfl⟩ := Prod.mk.inj heq
      have hclients : d.clients = c.clients := by
        obtain ⟨-, t, -, -, -, -, -, rfl⟩ := add_cases hadd
        rfl
      rw [hclients]
      exact .remembered hclient hadd
  | openCall id fate =>
    rw [step] at hstep
    cases ht : c.objects id with
    | none =>
      rw [ht] at hstep
      cases hstep
    | some t =>
      rw [ht] at hstep
      obtain ⟨rfl, rfl⟩ := Prod.mk.inj (Option.some.inj hstep)
      exact .opened ht
  | close id removable =>
    rw [step] at hstep
    split_ifs at hstep
    obtain ⟨rfl, rfl⟩ := Prod.mk.inj (Option.some.inj hstep)
    exact .closed
  | closeAll removable =>
    obtain ⟨rfl, rfl⟩ := Prod.mk.inj (Option.some.inj hstep)
    exact .closedAll
  | free id =>
    rw [step] at hstep
    split at hstep
    · rename_i ht
      split_ifs at hstep with hlisted
      obtain ⟨rfl, rfl⟩ := Prod.mk.inj (Option.some.inj hstep)
      exact .freed ht rfl hlisted
    · cases hstep
  | others path present =>
    by_cases hours : c.host.files path = some .ours
    · rw [step, if_pos hours] at hstep
      cases hstep
    · rw [step, if_neg hours] at hstep
      obtain ⟨rfl, rfl⟩ := Prod.mk.inj (Option.some.inj hstep)
      exact .others hours

theorem Change.kept {a : ClientsAction} {c' : Clients} {seen : List ClientsObservation}
    (hchange : Change c a c' seen) (h : c.Kept pid) : c'.Kept pid := by
  cases hchange with
  | refused => exact h
  | made hadd => exact h.add hadd _
  | found => exact h
  | remembered hnew hadd => exact h.add hadd _
  | opened ht => exact h.openOne ht _
  | closed => exact h.closeOne _ _
  | @closedAll removable =>
    have hloop := closeEntries_keeps (fun c => c.Kept pid) (fun _ _ _ h => h.closeOne _ _) h
      removable c.clients.entries
    exact ⟨hloop.pid, hloop.self, hloop.fresh, hloop.socket, hloop.once, hloop.file, hloop.path⟩
  | freed => exact h.exchange (by rintro _ ⟨⟩) _
  | others hours =>
    exact ⟨h.pid, h.self, h.fresh, h.socket, h.once,
      fun ht hp => (Host.others_ours hours _ _).mpr (h.file ht hp), h.path⟩

/-- A step keeps the host tidy, unless it makes a client with a timeout that is refused. -/
theorem Change.tidy {a : ClientsAction} {c' : Clients} {seen : List ClientsObservation}
    (hchange : Change c a c' seen) (htimeout : a.takesTimeout = true) (hkept : c.Kept pid)
    (h : c.Tidy) : c'.Tidy := by
  cases hchange with
  | refused => exact h
  | made hadd => exact h.add hkept hadd (by simpa [ClientsAction.takesTimeout] using htimeout) _
  | found => exact h
  | remembered hnew hadd => exact h.add hkept hadd Seconds.settimeout_default _
  | opened ht => exact h.openOne hkept ht _
  | closed => exact h.closeOne hkept _ _
  | @closedAll removable =>
    have hloop := closeEntries_keeps (fun c => c.Kept pid ∧ c.Tidy)
      (fun _ _ _ h => ⟨h.1.closeOne _ _, h.2.closeOne h.1 _ _⟩) ⟨hkept, h⟩
      removable c.clients.entries
    exact ⟨hloop.2.timeout, hloop.2.socket, hloop.2.file⟩
  | freed ht hsocket =>
    refine h.exchange hkept (fun u hu => ?_) (by rintro _ ⟨⟩) _
    rw [← Option.some.inj (ht.symm.trans hu), hsocket]
  | others hours =>
    exact ⟨h.timeout, h.socket, fun hp => h.file ((Host.others_ours hours _ _).mp hp)⟩

/-- The clients that `get_client` hands out are there, talk to their interfaces, and are
different clients. -/
structure Listed (c : Clients) : Prop where
  object : ∀ {ifname id}, c.clients.get? ifname = some id →
    ∃ t, c.objects id = some t ∧ t.path = interfacePath ifname defaultCtrlDir
  inj : ∀ {i j id}, c.clients.get? i = some id → c.clients.get? j = some id → i = j

variable {a : ClientsAction} {c' : Clients} {seen : List ClientsObservation}

/-- The clients of the entries are those that `get_client` hands out. -/
theorem mem_entries {id : ℕ} :
    id ∈ c.clients.entries.map Prod.snd ↔ ∃ ifname, c.clients.get? ifname = some id := by
  simp [Dict.get?_eq_some_iff]

/-- What is not about a client leaves its object. -/
theorem Change.objects (hchange : Change c a c' seen) {id : ℕ} {t : CtrlTransport}
    (ht : c.objects id = some t) (hother : ¬ a.about c id) : c'.objects id = some t := by
  have hadd : ∀ {arguments id' d}, c.add arguments id' = some d → d.objects id = some t := by
    intro arguments id' d hadd
    obtain ⟨hfree, u, -, -, -, -, -, rfl⟩ := add_cases hadd
    have hne : id ≠ id' := by
      rintro rfl
      rw [hfree] at ht
      cases ht
    exact (Function.update_of_ne hne _ _).trans ht
  cases hchange with
  | refused => exact ht
  | made h => exact hadd h
  | found => exact ht
  | remembered _ h => exact (hadd h :)
  | opened => exact (Function.update_of_ne (Ne.symm hother) _ _).trans ht
  | closed => rw [(closeOne_objects _ _ _).2, if_neg (Ne.symm hother), ht]
  | @closedAll removable =>
    have hobjects := closeEntries_objects c removable c.clients.entries id
    rw [if_neg fun hmem => hother (mem_entries.mp hmem), ht] at hobjects
    exact hobjects
  | freed => exact (Function.update_of_ne (Ne.symm hother) _ _).trans ht
  | others => exact ht

/-- A client that stays talks to the same path. -/
theorem Change.path (hchange : Change c a c' seen) {id : ℕ} {t : CtrlTransport}
    (ht : c.objects id = some t) (hstays : a ≠ .free id) :
    ∃ t', c'.objects id = some t' ∧ t'.path = t.path := by
  by_cases hother : ¬ a.about c id
  · exact ⟨t, hchange.objects ht hother, rfl⟩
  have habout := not_not.mp hother
  cases hchange with
  | refused | made | found | remembered | others => exact habout.elim
  | @opened id' fate u hu =>
    obtain rfl : id' = id := habout
    obtain rfl := Option.some.inj (hu.symm.trans ht)
    exact ⟨_, Function.update_self .., World.openSocket_path _ _⟩
  | @closed id' removable =>
    obtain rfl : id' = id := habout
    refine ⟨{ t with socket := none, clientPath := none }, ?_, rfl⟩
    rw [(closeOne_objects _ _ _).2, if_pos rfl, ht]
    rfl
  | @closedAll removable =>
    have hobjects := closeEntries_objects c removable c.clients.entries id
    rw [if_pos (mem_entries.mpr habout), ht] at hobjects
    exact ⟨_, hobjects, rfl⟩
  | freed =>
    obtain rfl := habout
    exact absurd rfl hstays

theorem Change.listed (hchange : Change c a c' seen) (hlisted : c.Listed) : c'.Listed := by
  -- the entries stay, and so do their clients
  have hsame : c'.clients = c.clients → (∀ id, a = .free id → id ∉ c.clients.entries.map Prod.snd) →
      c'.Listed := by
    intro hclients hfree
    refine ⟨fun {ifname id} hget => ?_, fun hi hj => ?_⟩
    · rw [hclients] at hget
      obtain ⟨t, ht, hpath⟩ := hlisted.object hget
      obtain ⟨t', ht', hpath'⟩ := hchange.path ht fun ha => hfree id ha
        (List.mem_map.mpr ⟨_, Dict.get?_eq_some_iff.mp hget, rfl⟩)
      exact ⟨t', ht', hpath'.trans hpath⟩
    · rw [hclients] at hi hj
      exact hlisted.inj hi hj
  cases hchange with
  | refused => exact hlisted
  | made hadd =>
    obtain ⟨-, t, -, -, -, -, -, rfl⟩ := add_cases hadd
    exact hsame rfl (by simp)
  | found => exact hlisted
  | @remembered ifname id d hnew hadd =>
    obtain ⟨hfree, t, ht, -, -, -, -, rfl⟩ := add_cases hadd
    have hid : ∀ {i}, (c.clients.set ifname id).get? i = some id → i = ifname := by
      intro i hi
      by_contra hne
      rw [Dict.get?_set_of_ne _ hne] at hi
      obtain ⟨u, hu, -⟩ := hlisted.object hi
      rw [hfree] at hu
      cases hu
    refine ⟨fun {i id'} hget => ?_, fun {i j id'} hi hj => ?_⟩
    · rcases eq_or_ne i ifname with rfl | hne
      · obtain rfl : id = id' := Option.some.inj ((Dict.get?_set_self _ _ _).symm.trans hget)
        obtain ⟨path, hpath, rfl⟩ := Option.map_eq_some_iff.mp ht
        exact ⟨_, Function.update_self .., (Option.some.inj hpath).symm⟩
      · have hget : c.clients.get? i = some id' := (Dict.get?_set_of_ne _ hne _).symm.trans hget
        obtain ⟨u, hu, hpath⟩ := hlisted.object hget
        have hother : id' ≠ id := by
          rintro rfl
          rw [hfree] at hu
          cases hu
        exact ⟨u, (Function.update_of_ne hother _ _).trans hu, hpath⟩
    · rcases eq_or_ne id' id with rfl | hne
      · rw [hid hi, hid hj]
      · have hold : ∀ {k}, (c.clients.set ifname id).get? k = some id' →
            c.clients.get? k = some id' := by
          intro k hk
          rcases eq_or_ne k ifname with rfl | hk'
          · exact absurd (Option.some.inj ((Dict.get?_set_self _ _ _).symm.trans hk)).symm hne
          · exact (Dict.get?_set_of_ne _ hk' _).symm.trans hk
        exact hlisted.inj (hold hi) (hold hj)
  | opened => exact hsame rfl (by simp)
  | closed => exact hsame (closeOne_objects _ _ _).1 (by simp)
  | closedAll => exact ⟨fun hget => by simp [Dict.empty, Dict.get?] at hget,
      fun hi => by simp [Dict.empty, Dict.get?] at hi⟩
  | freed _ _ hforgotten =>
    refine hsame rfl fun id ha => ?_
    obtain rfl := ClientsAction.free.inj ha
    exact hforgotten
  | others => exact hsame rfl (by simp)

/-- An entry stays until `close_all`, and what `get_client` returns is one. -/
theorem Change.got (hchange : Change c a c' seen) {ifname : Text} {id : ℕ}
    (hgot : c.clients.get? ifname = some id ∧ .closedAll ∉ seen ∨ .got ifname id ∈ seen) :
    c'.clients.get? ifname = some id := by
  cases hchange with
  | refused => simpa using hgot
  | made hadd =>
    obtain ⟨-, t, -, -, -, -, -, rfl⟩ := add_cases hadd
    simpa using hgot
  | @found ifname' id' client hclient =>
    rcases hgot with ⟨hget, -⟩ | hseen
    · exact hget
    · obtain ⟨rfl, rfl⟩ := ClientsObservation.got.inj (List.mem_singleton.mp hseen)
      exact hclient
  | @remembered ifname' id' d hnew hadd =>
    rcases hgot with ⟨hget, -⟩ | hseen
    · have hne : ifname ≠ ifname' := by
        rintro rfl
        rw [hnew] at hget
        cases hget
      exact (Dict.get?_set_of_ne _ hne _).trans hget
    · obtain ⟨rfl, rfl⟩ := ClientsObservation.got.inj (List.mem_singleton.mp hseen)
      exact Dict.get?_set_self _ _ _
  | opened => simpa [openOne] using hgot
  | closed =>
    rw [(closeOne_objects _ _ _).1]
    simpa using hgot
  | closedAll => simp at hgot
  | freed => simpa using hgot
  | others => simpa using hgot

end Clients

/-! ## Every run -/

section

variable {pid : ℕ} {abstractNamespace : Bool} {left : Text → Bool}
  {trace : List ClientsObservation} {c : Clients}

theorem clients_kept (h : (clients pid abstractNamespace left).Reaches trace c) : c.Kept pid := by
  refine h.invariant (fun _ c => c.Kept pid) ⟨rfl, ?_, fun _ _ => rfl, ?_, ?_, ?_, ?_⟩
    fun _ _ _ _ _ _ hkept hstep => (Clients.step_change hstep).kept hkept
  · rintro _ _ ⟨⟩
  · rintro _ _ _ ⟨⟩
  · rintro _ _ _ _ _ ⟨⟩
  · rintro _ _ _ ⟨⟩
  · rintro _ _ ⟨⟩

theorem clients_tidy
    (h : ((clients pid abstractNamespace left).restrict ClientsAction.takesTimeout).Reaches
      trace c) : c.Tidy := by
  have hstart : (Clients.start pid abstractNamespace left).Tidy := by
    refine ⟨by rintro _ _ ⟨⟩, by rintro _ _ ⟨⟩, fun {p} hp => ?_⟩
    have hleft : (if left p then some Maker.another else none) = some .ours := hp
    split_ifs at hleft
    cases hleft
  refine h.invariant (fun _ c => c.Tidy) hstart ?_
  intro _ c _ _ _ run htidy hstep
  obtain ⟨htimeout, hstep⟩ := restrict_step.mp hstep
  exact (Clients.step_change hstep).tidy htimeout (clients_kept run.of_restrict) htidy

/-- **What is done with one client leaves the others as they are**: a step from any state of any
run that is not about a client, whether it fails or not, leaves that client, the endpoint of its
socket and its file. -/
theorem clients_undisturbed (h : (clients pid abstractNamespace left).Reaches trace c)
    {a : ClientsAction} {c' : Clients} {seen : List ClientsObservation}
    (hstep : c.step a = some (c', seen)) {id : ℕ} {t : CtrlTransport}
    (ht : c.objects id = some t) (hother : ¬ a.about c id) :
    c'.objects id = some t ∧
      (∀ sock, t.socket = some sock → c.host.sockets sock = some (t.endpoint pid) ∧
        c'.host.sockets sock = some (t.endpoint pid)) ∧
      ∀ path, t.clientPath = some path → c.host.files path = some .ours ∧
        c'.host.files path = some .ours := by
  have hkept := clients_kept h
  have hchange := Clients.step_change hstep
  have hkept' := hchange.kept hkept
  have ht' := hchange.objects ht hother
  refine ⟨ht', fun sock hsock => ⟨?_, ?_⟩, fun path hpath => ⟨?_, ?_⟩⟩
  · rw [hkept.socket ht hsock, hkept.pid]
  · rw [hkept'.socket ht' hsock, hkept'.pid]
  · exact hkept.file ht hpath
  · exact hkept'.file ht' hpath

/-- The second of two clients is closed. -/
theorem clients_undisturbed_close :
    let granted : Outcome := ⟨true, ⟨[]⟩⟩
    let fate : Fate := ⟨granted, granted, granted, true⟩
    let machine := clients 1 true fun _ => false
    ∃ c seen, machine.run machine.start [.getClient "wlan0".toList 7,
        .make (.ofInterface "wlan1".toList) 8, .openCall 7 fate, .openCall 8 fate] =
          some (c, seen) ∧
      ∃ t, c.objects 7 = some t ∧ (c.closeOne 8 true).objects 7 = some t := by
  intro granted fate machine
  have hboth : (machine.run machine.start [.getClient "wlan0".toList 7,
      .make (.ofInterface "wlan1".toList) 8, .openCall 7 fate, .openCall 8 fate]).map
        (fun result => ((result.1.objects 7).isSome, (result.1.objects 8).isSome)) =
          some (true, true) := by
    decide +kernel
  obtain ⟨⟨c, seen⟩, hrun, hobjects⟩ := Option.map_eq_some_iff.mp hboth
  obtain ⟨hfirst, hsecond⟩ := Prod.mk.inj hobjects
  obtain ⟨t, ht⟩ := Option.isSome_iff_exists.mp hfirst
  have hstep : c.step (.close 8 true) = some (c.closeOne 8 true, [.closed 8]) := by
    rw [Clients.step, if_pos hsecond]
  exact ⟨c, seen, hrun, t, ht, (clients_undisturbed (reaches_of_run hrun) hstep ht
    (by simp [ClientsAction.about])).1⟩

theorem clients_listed (h : (clients pid abstractNamespace left).Reaches trace c) : c.Listed := by
  refine h.invariant (fun _ c => c.Listed) ⟨?_, ?_⟩ fun _ _ _ _ _ run hlisted hstep =>
    (Clients.step_change hstep).listed hlisted
  · rintro _ _ ⟨⟩
  · rintro _ _ _ ⟨⟩

theorem clients_entries (h : (clients pid abstractNamespace left).Reaches trace c) :
    ∀ a b ifname id, trace = a ++ .got ifname id :: b → .closedAll ∉ b →
      c.clients.get? ifname = some id := by
  refine h.invariant (fun trace c => ∀ a b ifname id, trace = a ++ .got ifname id :: b →
    .closedAll ∉ b → c.clients.get? ifname = some id) (by simp) ?_
  intro trace c action c' seen _ ih hstep a b ifname id htrace hkept
  have hchange := Clients.step_change hstep
  rcases List.append_eq_append_iff.mp htrace with ⟨a', -, hseen⟩ | ⟨b', hbefore, hafter⟩
  · exact hchange.got (Or.inr (by simp [hseen]))
  · rcases b' with _ | ⟨o, b'⟩
    · have hseen : .got ifname id :: b = seen := hafter
      exact hchange.got (Or.inr (by simp [← hseen]))
    · obtain ⟨rfl, hrest⟩ := List.cons.inj hafter
      obtain rfl : b = b' ++ seen := hrest
      rw [List.mem_append, not_or] at hkept
      exact hchange.got (Or.inl ⟨ih a b' ifname id hbefore hkept.1, hkept.2⟩)

/-- **One client for one interface.**  In every run, between two calls of `close_all`,
`get_client` returns the same client for the same interface and different ones for different
interfaces, whatever is done with them in between; the client it returned is one of the process,
and talks to the socket of that interface. -/
theorem getClient_keeps (h : (clients pid abstractNamespace left).Reaches trace c) :
    (∀ a b d i j x y, trace = a ++ .got i x :: (b ++ .got j y :: d) → .closedAll ∉ b →
        (x = y ↔ i = j)) ∧
      ∀ a b ifname id, trace = a ++ .got ifname id :: b → .closedAll ∉ b →
        ∃ t, c.objects id = some t ∧ t.path = interfacePath ifname defaultCtrlDir := by
  constructor
  · intro a b d i j x y htrace hopen
    have hone : ∀ s action s' seen, (clients pid abstractNamespace left).step s action =
        some (s', seen) → seen.length ≤ 1 := by
      intro s action s' seen hstep
      cases Clients.step_change hstep <;> simp
    -- as it was when the second call returned
    obtain ⟨s, hs⟩ := h.cut hone (a := a ++ .got i x :: (b ++ [.got j y])) (b := d)
      (by rw [htrace]; simp)
    have hi : s.clients.get? i = some x := clients_entries hs a _ i x rfl (by simp [hopen])
    have hj : s.clients.get? j = some y :=
      clients_entries hs (a ++ .got i x :: b) [] j y (by simp) (by simp)
    constructor
    · rintro rfl
      exact (clients_listed hs).inj hi hj
    · rintro rfl
      exact Option.some.inj (hi.symm.trans hj)
  · intro a b ifname id htrace hopen
    exact (clients_listed h).object (clients_entries h a b ifname id htrace hopen)

/-- The client of `wlan0` is asked for again after it was closed. -/
theorem getClient_keeps_again :
    let machine := clients 1 true fun _ => false
    ∃ c seen, machine.run machine.start [.getClient "wlan0".toList 7,
        .getClient "wlan1".toList 8, .close 7 true, .getClient "wlan0".toList 9] =
          some (c, seen) ∧
      seen = [.got "wlan0".toList 7, .got "wlan1".toList 8, .closed 7, .got "wlan0".toList 7] ∧
      ∃ t, c.objects 8 = some t ∧ t.path = "/var/run/wpa_supplicant/wlan1".toList := by
  intro machine
  have hsome : (machine.run machine.start [.getClient "wlan0".toList 7,
      .getClient "wlan1".toList 8, .close 7 true, .getClient "wlan0".toList 9]).map Prod.snd =
        some [.got "wlan0".toList 7, .got "wlan1".toList 8, .closed 7, .got "wlan0".toList 7] := rfl
  obtain ⟨⟨c, seen⟩, hrun, rfl⟩ := Option.map_eq_some_iff.mp hsome
  obtain ⟨t, ht, hpath⟩ := (getClient_keeps (reaches_of_run hrun)).2 [.got "wlan0".toList 7]
    [.closed 7, .got "wlan0".toList 7] _ _ rfl (by simp)
  exact ⟨c, _, hrun, rfl, t, ht, hpath⟩

end

end WpaCtrl
