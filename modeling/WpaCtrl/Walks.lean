/-
# Walking the daemon's tables (`iter_bss`, `iter_stations`, `iter_p2p_peers`)

Three generators walk a table of the daemon one entry per round trip: `FIRST`, then
`NEXT` of the key last yielded, until a reply brings no entry or one already seen.
They are one iteration with different commands and different replies.  The daemon
answers from the table as it is at that moment, while entries are removed and
inserted between any two commands.

* `walks_hold_their_place` : what a walk yields and what it can miss, along every run.
-/
import WpaCtrl.Replies
import WpaCtrl.Runs
import WpaCtrl.Cursor

open Text Cursor

namespace WpaCtrl

/-! ## The generators -/

/-- What the generators differ in: the commands, and how a reply is read as a key and
the object to yield. -/
structure Iteration (β : Type) where
  first : Text
  next : Text → Text
  read : Text → Option (Text × β)

/-- The variables of a generator. -/
structure Walk where
  command : Text
  seen : List Text
  ended : Bool
  deriving DecidableEq

namespace Iteration

variable {β : Type} (it : Iteration β)

/-- A generator before its first step. -/
def start : Walk := ⟨it.first, [], false⟩

/-- The loop of a generator, from one `yield` to the next, given the reply to its
command: what it yields, if it does not return. -/
def resume (walk : Walk) (reply : Text) : Walk × Option (Text × β) :=
  match it.read reply with
  | none => ({ walk with ended := true }, none)
  | some (key, value) =>
    if key ∈ walk.seen then ({ walk with ended := true }, none)
    else (⟨it.next key, key :: walk.seen, false⟩, some (key, value))

end Iteration

/-- `BssMask.ID`. -/
def bssMaskId : ℕ := 1

/-- The command `bss` sends for a selector and a mask. -/
def bssCommand (selector : Text) (mask : Option ℕ) : Text :=
  "BSS ".toList ++ selector ++
    match mask with
    | none => []
    | some mask => " MASK=0x".toList ++ Nat.toDigits 16 mask

/-- The mask `iter_bss` asks with: the walk is keyed on the id. -/
def walkMask (mask : Option ℕ) : Option ℕ := mask.map (· ||| bssMaskId)

/-- `WpaCtrl.iter_bss`. -/
def iterBss (mask : Option ℕ) : Iteration (Dict Text Text) where
  first := bssCommand "FIRST".toList (walkMask mask)
  next id := bssCommand ("NEXT-".toList ++ id) (walkMask mask)
  read reply :=
    let info := parseVariables reply
    (info.get? "id".toList).map fun id => (id, info)

/-- A reply that is an address and the variables of what has it, read as a `Station`
or a `P2pPeer`. -/
def readAddressed (reply : Text) : Option (Text × Text × Dict Text Text) :=
  (addressedVariables reply).map fun found => (found.1, found)

/-- `WpaCtrl.iter_stations`. -/
def iterStations : Iteration (Text × Dict Text Text) where
  first := "STA-FIRST".toList
  next address := "STA-NEXT ".toList ++ address
  read := readAddressed

/-- `WpaCtrl.iter_p2p_peers`. -/
def iterP2pPeers : Iteration (Text × Dict Text Text) where
  first := "P2P_PEER FIRST".toList
  next address := "P2P_PEER NEXT-".toList ++ address
  read := readAddressed

/-! ## The daemon's tables -/

/-- How the daemon refuses: with nothing, or with `FAIL`. -/
def refusal (failed : Bool) : Text := if failed then "FAIL\n".toList else []

/-- A kind of table entries the iteration can walk: every entry has a key and is sent
as a block that is read back as the key and the entry. -/
structure Served {β : Type} (it : Iteration β) (ε : Type) where
  key : ε → Text
  value : ε → β
  block : ε → Text
  read_block : ∀ entry, it.read (replyText (block entry)) = some (key entry, value entry)
  read_refusal : ∀ failed, it.read (replyText (refusal failed)) = none
  next_ne_first : ∀ key, it.next key ≠ it.first
  next_injective : Function.Injective it.next

/-- A variable of a BSS and the mask bits that select it. -/
structure BssField where
  bits : ℕ
  name : Text
  value : Text
  name_clean : '=' ∉ name
  name_ne : name ≠ "id".toList
  oneLine : OneLine (name, value)
  deriving DecidableEq

/-- A BSS as the daemon holds it, with its id among its other variables. -/
structure BssEntry where
  id : ℕ
  before : List BssField
  after : List BssField
  deriving DecidableEq

/-- A missing mask and a mask of zero select every variable. -/
def selected (mask : Option ℕ) (bits : ℕ) : Bool :=
  match mask with
  | none => true
  | some mask => mask = 0 || mask &&& bits ≠ 0

/-- The variables of some fields a mask selects. -/
def selectedVariables (mask : Option ℕ) (fields : List BssField) : List (Text × Text) :=
  (fields.filter fun field => selected mask field.bits).map fun field => (field.name, field.value)

/-- The variables of a BSS a mask selects. -/
def BssEntry.variables (mask : Option ℕ) (entry : BssEntry) : List (Text × Text) :=
  selectedVariables mask entry.before ++
    (if selected mask bssMaskId then [("id".toList, ofInt entry.id)] else []) ++
    selectedVariables mask entry.after

/-- A station or a peer as the daemon holds it. -/
structure AddressedEntry where
  address : Text
  isAddress : isAddress address = true
  fields : List (Text × Text)
  name_clean : ∀ field ∈ fields, '=' ∉ field.1
  oneLine : ∀ field ∈ fields, OneLine field
  deriving DecidableEq

/-- The block of a station or a peer. -/
def AddressedEntry.block (entry : AddressedEntry) : Text :=
  entry.address ++ '\n' :: renderVariables entry.fields

/-! ## The blocks are read back -/

theorem selected_walkMask (mask : Option ℕ) : selected (walkMask mask) bssMaskId = true := by
  cases mask with
  | none => rfl
  | some mask =>
    have hbit : (mask ||| 1) &&& 1 = 1 := by
      rw [Nat.and_one_is_mod, Nat.or_mod_two_eq_one.mpr (Or.inr rfl)]
    simp [walkMask, selected, bssMaskId, hbit]

/-- The variables of a BSS are fit for a block. -/
theorem clean_variables (mask : Option ℕ) (entry : BssEntry) :
    ∀ pair ∈ entry.variables mask, '=' ∉ pair.1 ∧ OneLine pair := by
  have hfields : ∀ fields : List BssField, ∀ pair ∈ selectedVariables mask fields,
      '=' ∉ pair.1 ∧ OneLine pair := by
    intro fields pair hpair
    obtain ⟨field, -, rfl⟩ := List.mem_map.mp hpair
    exact ⟨field.name_clean, field.oneLine⟩
  have hid : '=' ∉ "id".toList ∧ OneLine ("id".toList, ofInt entry.id) := by
    refine ⟨by decide, by simp [isLineBoundary, lineBoundaries], ?_⟩
    show ∀ c ∈ ofInt entry.id, isLineBoundary c = false
    exact fun c hc => isLineBoundary_of_isPrintable (isPrintable_of_mem_ofInt hc).1
  intro pair hpair
  simp only [BssEntry.variables, List.mem_append] at hpair
  rcases hpair with (hpair | hpair) | hpair
  · exact hfields _ pair hpair
  · split_ifs at hpair
    · rw [List.mem_singleton.mp hpair]
      exact hid
    · simp at hpair
  · exact hfields _ pair hpair

/-- The id of a BSS is read back, whatever its other variables are. -/
theorem get?_id (mask : Option ℕ) (entry : BssEntry) :
    (Dict.ofPairs (entry.variables (walkMask mask))).get? "id".toList =
      some (ofInt entry.id) := by
  have hafter : "id".toList ∉ (selectedVariables (walkMask mask) entry.after).map Prod.fst := by
    intro hmem
    obtain ⟨pair, hpair, hname⟩ := List.mem_map.mp hmem
    obtain ⟨field, -, rfl⟩ := List.mem_map.mp hpair
    exact field.name_ne hname
  rw [BssEntry.variables, if_pos (selected_walkMask mask), List.append_assoc,
    List.singleton_append]
  exact Dict.get?_ofPairs_append _ hafter

/-- The BSSes, as `iter_bss` walks them. -/
def bssServed (mask : Option ℕ) : Served (iterBss mask) BssEntry where
  key entry := ofInt entry.id
  value entry := Dict.ofPairs (entry.variables (walkMask mask))
  block entry := renderVariables (entry.variables (walkMask mask))
  read_block entry := by
    have hclean := clean_variables (walkMask mask) entry
    have hparse := parseVariables_replyText (fun pair hpair => (hclean pair hpair).1)
      fun pair hpair => (hclean pair hpair).2
    show ((parseVariables (replyText _)).get? "id".toList).map _ = _
    rw [hparse, get?_id]
    rfl
  read_refusal failed := by
    have hempty : parseVariables (replyText (refusal failed)) = Dict.empty := by
      cases failed <;> decide
    show ((parseVariables (replyText (refusal failed))).get? "id".toList).map _ = none
    rw [hempty]
    rfl
  next_ne_first key h := by simp [iterBss, bssCommand] at h
  next_injective key key' h := by simpa [iterBss, bssCommand] using h

/-- A text is a prefix of what it is the front of. -/
theorem prefix_of_append_eq {a b command : Text} (h : a ++ b = command) : a <+: command := ⟨b, h⟩

theorem readAddressed_block (entry : AddressedEntry) :
    readAddressed (replyText entry.block) =
      some (entry.address, entry.address, Dict.ofPairs entry.fields) := by
  rw [readAddressed, AddressedEntry.block,
    addressedVariables_block entry.isAddress entry.name_clean entry.oneLine]
  rfl

theorem readAddressed_refusal (failed : Bool) : readAddressed (replyText (refusal failed)) = none := by
  cases failed <;> decide

/-- The stations, as `iter_stations` walks them. -/
def stationsServed : Served iterStations AddressedEntry where
  key := AddressedEntry.address
  value entry := (entry.address, Dict.ofPairs entry.fields)
  block := AddressedEntry.block
  read_block := readAddressed_block
  read_refusal := readAddressed_refusal
  next_ne_first key h := absurd (prefix_of_append_eq h) (by decide)
  next_injective _ _ h := List.append_cancel_left h

/-- The peers, as `iter_p2p_peers` walks them. -/
def p2pPeersServed : Served iterP2pPeers AddressedEntry where
  key := AddressedEntry.address
  value entry := (entry.address, Dict.ofPairs entry.fields)
  block := AddressedEntry.block
  read_block := readAddressed_block
  read_refusal := readAddressed_refusal
  next_ne_first key h := absurd (prefix_of_append_eq h) (by decide)
  next_injective _ _ h := List.append_cancel_left h

/-! ## A walk beside a changing table -/

/-- The daemon's table, the keys it ever held, and the generator. -/
structure Walking (ε : Type) where
  table : List ε
  used : List Text
  walk : Walk
  deriving DecidableEq

inductive WalkAction (ε : Type) where
  | remove (key : Text)
  | insert (position : ℕ) (entry : ε)
  /-- the caller asks the generator for one more entry; `failed` says how the daemon
  refuses, if it does -/
  | next (failed : Bool)

inductive WalkObservation (β : Type) where
  | removed (key : Text)
  | sent (command : Text)
  | yielded (key : Text) (value : β)
  | ended
  deriving DecidableEq

namespace Served

variable {β ε : Type} {it : Iteration β} (served : Served it ε)

/-- The entry a command asks for: the first one, or the one after the entry it
names. -/
def follower (table : List ε) (command : Text) : Option ε :=
  if command = it.first then table.head?
  else (table.dropWhile fun entry => it.next (served.key entry) ≠ command).tail.head?

/-- The daemon's reply. -/
def answer (table : List ε) (command : Text) (failed : Bool) : Text :=
  match served.follower table command with
  | some entry => served.block entry
  | none => refusal failed

/-- One step: the table changes, or the generator runs to its next `yield`. -/
def step (s : Walking ε) : WalkAction ε → Option (Walking ε × List (WalkObservation β))
  | .remove key =>
    some ({ s with table := s.table.filter fun entry => served.key entry ≠ key }, [.removed key])
  | .insert position entry =>
    if served.key entry ∈ s.used then none
    else some ({ s with table := s.table.take position ++ entry :: s.table.drop position,
                        used := served.key entry :: s.used }, [])
  | .next failed =>
    if s.walk.ended then none
    else
      let reply := replyText (served.answer s.table s.walk.command failed)
      match it.resume s.walk reply with
      | (walk, some (key, value)) =>
        some ({ s with walk := walk }, [.sent s.walk.command, .yielded key value])
      | (walk, none) => some ({ s with walk := walk }, [.sent s.walk.command, .ended])

/-- The keys of a table. -/
def keys (table : List ε) : List Text := table.map served.key

/-- A walk of a given table. -/
def machine (table : List ε) : Machine (Walking ε) (WalkAction ε) (WalkObservation β) :=
  ⟨⟨table, served.keys table, it.start⟩, served.step⟩

end Served

section
variable {β : Type}

/-- The keys a walk yielded, in order. -/
def yieldedKeys (trace : List (WalkObservation β)) : List Text :=
  trace.filterMap fun
    | .yielded key _ => some key
    | _ => none

/-- The keys that were removed. -/
def removedKeys (trace : List (WalkObservation β)) : List Text :=
  trace.filterMap fun
    | .removed key => some key
    | _ => none

/-- How many commands were sent. -/
def commandsSent (trace : List (WalkObservation β)) : ℕ :=
  trace.countP fun
    | .sent _ => true
    | _ => false

/-- The keys of a table that were there throughout. -/
def keptKeys (initial : List Text) (trace : List (WalkObservation β)) : List Text :=
  initial.filter fun key => key ∉ removedKeys trace

theorem yieldedKeys_append (trace seen : List (WalkObservation β)) :
    yieldedKeys (trace ++ seen) = yieldedKeys trace ++ yieldedKeys seen := List.filterMap_append

theorem removedKeys_append (trace seen : List (WalkObservation β)) :
    removedKeys (trace ++ seen) = removedKeys trace ++ removedKeys seen := List.filterMap_append

theorem commandsSent_append (trace seen : List (WalkObservation β)) :
    commandsSent (trace ++ seen) = commandsSent trace + commandsSent seen := List.countP_append

theorem keptKeys_append (initial : List Text) (trace seen : List (WalkObservation β))
    (h : removedKeys seen = []) : keptKeys initial (trace ++ seen) = keptKeys initial trace := by
  unfold keptKeys
  rw [removedKeys_append, h, List.append_nil]

theorem keptKeys_removed (initial : List Text) (trace : List (WalkObservation β)) (key : Text) :
    keptKeys initial (trace ++ [.removed key]) =
      (keptKeys initial trace).filter fun k => k ≠ key := by
  have hremoved : removedKeys (trace ++ [.removed key]) = removedKeys trace ++ [key] :=
    removedKeys_append trace [.removed key]
  unfold keptKeys
  rw [hremoved, List.filter_filter]
  apply List.filter_congr
  intro k _
  simp [and_comm]

end

namespace Served

variable {β ε : Type} {it : Iteration β} {served : Served it ε}

/-- The command a walk sends after the keys it got. -/
def cursorCommand (it : Iteration β) : Option Text → Text
  | none => it.first
  | some key => it.next key

/-- **What the daemon answers** is the first key ahead of the walk. -/
theorem key_follower (served : Served it ε) (table : List ε) (cursor : Option Text) :
    (served.follower table (cursorCommand it cursor)).map served.key =
      (ahead cursor (served.keys table)).bind List.head? := by
  unfold follower keys
  cases cursor with
  | none =>
    rw [cursorCommand, if_pos rfl]
    exact List.head?_map.symm
  | some key =>
    rw [cursorCommand, if_neg (served.next_ne_first key)]
    show _ = (after key (table.map served.key)).bind List.head?
    induction table with
    | nil => rfl
    | cons entry table ih =>
      rw [List.map_cons, after]
      by_cases hkey : served.key entry = key
      · rw [if_pos hkey, List.dropWhile_cons_of_neg (by simp [hkey])]
        exact List.head?_map.symm
      · have hnext : it.next (served.key entry) ≠ it.next key := fun h =>
          hkey (served.next_injective h)
        rw [if_neg hkey, List.dropWhile_cons_of_pos (by simpa using hnext)]
        exact ih

/-- The invariant of a walk. -/
structure OnTrack (served : Served it ε) (initial : List Text)
    (trace : List (WalkObservation β)) (s : Walking ε) : Prop where
  place : Place (served.keys s.table) (keptKeys initial trace) (yieldedKeys trace) s.used
  seen : ∀ key, key ∈ s.walk.seen ↔ key ∈ yieldedKeys trace
  command : s.walk.ended = false →
    s.walk.command = cursorCommand it (yieldedKeys trace).getLast?
  sent : commandsSent trace = (yieldedKeys trace).length + if s.walk.ended then 1 else 0
  ended : s.walk.ended = true → (∀ key ∈ keptKeys initial trace, key ∈ yieldedKeys trace) ∨
    ∃ last, (yieldedKeys trace).getLast? = some last ∧ last ∉ served.keys s.table

namespace OnTrack

variable {initial : List Text} {trace : List (WalkObservation β)} {s : Walking ε}

theorem remove (h : OnTrack served initial trace s) (key : Text) :
    OnTrack served initial (trace ++ [.removed key])
      { s with table := s.table.filter fun entry => served.key entry ≠ key } := by
  have hyielded : yieldedKeys (trace ++ [.removed key]) = yieldedKeys trace := by
    rw [yieldedKeys_append]
    exact List.append_nil _
  have hkeys : served.keys (s.table.filter fun entry => served.key entry ≠ key) =
      (served.keys s.table).filter fun k => k ≠ key := by
    unfold keys
    rw [List.filter_map]
    rfl
  constructor
  · show Place (served.keys (s.table.filter fun entry => served.key entry ≠ key)) _ _ _
    rw [hyielded, hkeys, keptKeys_removed]
    exact h.place.remove _
  · rw [hyielded]
    exact h.seen
  · rw [hyielded]
    exact h.command
  · rw [hyielded, commandsSent_append]
    exact h.sent
  · intro hended
    show _ ∨ ∃ last, _ ∧ last ∉ served.keys (s.table.filter fun entry => served.key entry ≠ key)
    rw [hyielded, hkeys, keptKeys_removed]
    rcases h.ended hended with hall | ⟨last, hlast, hgone⟩
    · exact Or.inl fun k hk => hall k (List.mem_filter.mp hk).1
    · exact Or.inr ⟨last, hlast, fun hmem => hgone (List.mem_filter.mp hmem).1⟩

theorem insert (h : OnTrack served initial trace s) (position : ℕ) {entry : ε}
    (hfresh : served.key entry ∉ s.used) :
    OnTrack served initial trace
      { s with table := s.table.take position ++ entry :: s.table.drop position,
               used := served.key entry :: s.used } := by
  have hkeys : served.keys (s.table.take position ++ entry :: s.table.drop position) =
      served.keys (s.table.take position) ++ served.key entry ::
        served.keys (s.table.drop position) := by
    unfold keys
    rw [List.map_append, List.map_cons]
  have hsplit : served.keys s.table =
      served.keys (s.table.take position) ++ served.keys (s.table.drop position) := by
    unfold keys
    rw [← List.map_append, List.take_append_drop]
  refine ⟨?_, h.seen, h.command, h.sent, ?_⟩
  · show Place (served.keys (s.table.take position ++ entry :: s.table.drop position)) _ _ _
    rw [hkeys]
    exact (hsplit ▸ h.place).insert hfresh
  · intro hended
    show _ ∨ ∃ last, _ ∧
      last ∉ served.keys (s.table.take position ++ entry :: s.table.drop position)
    rw [hkeys]
    rcases h.ended hended with hall | ⟨last, hlast, hgone⟩
    · exact Or.inl hall
    · refine Or.inr ⟨last, hlast, fun hmem => ?_⟩
      have hlast' : last = served.key entry ∨ last ∈ served.keys s.table := by
        rw [hsplit]
        simp only [List.mem_append, List.mem_cons] at hmem ⊢
        tauto
      rcases hlast' with rfl | hmem
      · exact hfresh (h.place.got_used _ (List.mem_of_getLast? hlast))
      · exact hgone hmem

/-- The generator asks for one more entry. -/
theorem next (h : OnTrack served initial trace s) (hrunning : s.walk.ended = false)
    (failed : Bool) {s' : Walking ε} {seen : List (WalkObservation β)}
    (hstep : served.step s (.next failed) = some (s', seen)) :
    OnTrack served initial (trace ++ seen) s' := by
  have hcommand := h.command hrunning
  have hfollower := served.key_follower s.table (yieldedKeys trace).getLast?
  rw [← hcommand] at hfollower
  have hsent := h.sent
  rw [hrunning] at hsent
  simp only [step, hrunning] at hstep
  rcases hentry : served.follower s.table s.walk.command with _ | entry
  · -- nothing is ahead, and the walk ends
    have hread : it.read (replyText (served.answer s.table s.walk.command failed)) = none := by
      rw [answer, hentry]
      exact served.read_refusal failed
    simp only [Iteration.resume, hread] at hstep
    obtain ⟨rfl, rfl⟩ := Prod.mk.inj (Option.some.inj hstep)
    have hyielded : yieldedKeys (trace ++ [.sent s.walk.command, .ended]) = yieldedKeys trace := by
      rw [yieldedKeys_append]
      exact List.append_nil _
    have hkept := keptKeys_append initial trace [.sent s.walk.command, .ended] rfl
    constructor
    · rw [hyielded, hkept]
      exact h.place
    · rw [hyielded]
      exact h.seen
    · intro hended
      simp at hended
    · rw [hyielded, commandsSent_append, hsent]
      rfl
    · intro _
      rw [hyielded, hkept]
      apply h.place.covered_or_gone
      intro x post hahead
      rw [hentry, hahead] at hfollower
      simp at hfollower
  · -- the first key ahead is yielded, for it was not seen before
    rw [hentry, Option.map_some] at hfollower
    obtain ⟨ahead', hahead, hhead⟩ := Option.bind_eq_some_iff.mp hfollower.symm
    obtain ⟨post, rfl⟩ := List.head?_eq_some_iff.mp hhead
    have hread : it.read (replyText (served.answer s.table s.walk.command failed)) =
        some (served.key entry, served.value entry) := by
      rw [answer, hentry]
      exact served.read_block entry
    have hunseen : served.key entry ∉ s.walk.seen := by
      rw [h.seen]
      exact h.place.fresh _ hahead _ (by simp)
    simp only [Iteration.resume, hread, hunseen, if_false] at hstep
    obtain ⟨rfl, rfl⟩ := Prod.mk.inj (Option.some.inj hstep)
    have hyielded : yieldedKeys (trace ++ [.sent s.walk.command,
        .yielded (served.key entry) (served.value entry)]) =
        yieldedKeys trace ++ [served.key entry] := yieldedKeys_append _ _
    have hkept := keptKeys_append initial trace
      [.sent s.walk.command, .yielded (served.key entry) (served.value entry)] rfl
    constructor
    · rw [hyielded, hkept]
      exact h.place.advance hahead
    · intro key
      show key ∈ served.key entry :: s.walk.seen ↔ _
      rw [hyielded, List.mem_cons, h.seen, List.mem_append, List.mem_singleton, or_comm]
    · intro _
      rw [hyielded, List.getLast?_concat]
      rfl
    · rw [hyielded, commandsSent_append, hsent, List.length_append]
      rfl
    · intro hended
      simp at hended

/-- **Every step keeps a walk on track.** -/
theorem step (h : OnTrack served initial trace s) {action : WalkAction ε} {s' : Walking ε}
    {seen : List (WalkObservation β)} (hstep : served.step s action = some (s', seen)) :
    OnTrack served initial (trace ++ seen) s' := by
  cases action with
  | remove key =>
    obtain ⟨rfl, rfl⟩ := Prod.mk.inj (Option.some.inj hstep)
    exact h.remove key
  | insert position entry =>
    simp only [Served.step] at hstep
    split at hstep
    · simp at hstep
    · rename_i hfresh
      obtain ⟨rfl, rfl⟩ := Prod.mk.inj (Option.some.inj hstep)
      rw [List.append_nil]
      exact h.insert position hfresh
  | next failed =>
    cases hended : s.walk.ended with
    | false => exact h.next hended failed hstep
    | true => simp [Served.step, hended] at hstep

end OnTrack

theorem onTrack_of_reaches {table : List ε} (hnodup : (served.keys table).Nodup)
    {trace : List (WalkObservation β)} {s : Walking ε}
    (h : (served.machine table).Reaches trace s) :
    OnTrack served (served.keys table) trace s := by
  apply h.invariant (OnTrack served (served.keys table))
  · have hkept : keptKeys (served.keys table) ([] : List (WalkObservation β)) =
        served.keys table := by
      unfold keptKeys
      apply List.filter_eq_self.mpr
      simp [removedKeys]
    refine ⟨?_, by simp [machine, Iteration.start, yieldedKeys], fun _ => rfl, rfl, ?_⟩
    · rw [hkept]
      exact Place.start hnodup
    · intro hended
      simp [machine, Iteration.start] at hended
  · intro trace s action s' seen run hs hstep
    exact hs.step hstep

end Served

/-! ## The three walks -/

/-- The generators that walk a table. -/
inductive Walker where
  | bss (mask : Option ℕ)
  | stations
  | p2pPeers

namespace Walker

/-- What a generator yields. -/
def Value : Walker → Type
  | bss _ => Dict Text Text
  | stations | p2pPeers => Text × Dict Text Text

/-- What the daemon's table holds. -/
def Entry : Walker → Type
  | bss _ => BssEntry
  | stations | p2pPeers => AddressedEntry

/-- The generator. -/
def iteration : (walker : Walker) → Iteration walker.Value
  | bss mask => iterBss mask
  | stations => iterStations
  | p2pPeers => iterP2pPeers

/-- The daemon's side. -/
def served : (walker : Walker) → Served walker.iteration walker.Entry
  | bss mask => bssServed mask
  | stations => stationsServed
  | p2pPeers => p2pPeersServed

end Walker

/-- **Walks hold their place.**  Along every run of `iter_bss`, `iter_stations` or
`iter_p2p_peers` beside a table that changes between its commands: no key is yielded
twice; of the entries there throughout, those yielded so far are the first ones of
the table; every entry yielded costs one command, and so does the end; and a walk
that has ended has yielded every entry that was there throughout, or the entry it
yielded last is gone. -/
theorem walks_hold_their_place (walker : Walker) (table : List walker.Entry)
    (hnodup : (walker.served.keys table).Nodup) {trace : List (WalkObservation walker.Value)}
    {s : Walking walker.Entry} (h : (walker.served.machine table).Reaches trace s) :
    let kept := keptKeys (walker.served.keys table) trace
    (yieldedKeys trace).Nodup ∧
      ((yieldedKeys trace).filter (· ∈ kept) <+: kept ∧
        kept.Sublist (walker.served.keys s.table)) ∧
      commandsSent trace = (yieldedKeys trace).length + (if s.walk.ended then 1 else 0) ∧
      (s.walk.ended = true → (∀ key ∈ kept, key ∈ yieldedKeys trace) ∨
        ∃ last, (yieldedKeys trace).getLast? = some last ∧
          last ∉ walker.served.keys s.table) := by
  intro kept
  have hs := Served.onTrack_of_reaches hnodup h
  have hordered : (yieldedKeys trace).filter (· ∈ kept) <+: kept := by
    convert hs.place.ordered
  exact ⟨hs.place.got_nodup, ⟨hordered, hs.place.kept_sublist⟩, hs.sent, hs.ended⟩

/-- The second of two BSSes expires while the walk stands at the first. -/
theorem walks_hold_their_place_expiry :
    let trace : List (WalkObservation (Dict Text Text)) :=
      [.sent "BSS FIRST".toList, .yielded ['0'] (Dict.ofPairs [("id".toList, ['0'])]),
        .removed ['1'], .sent "BSS NEXT-0".toList, .ended]
    keptKeys [['0'], ['1']] trace = [['0']] ∧ (yieldedKeys trace).Nodup ∧
      commandsSent trace = (yieldedKeys trace).length + 1 := by
  intro trace
  have hrun : ((bssServed none).machine [⟨0, [], []⟩, ⟨1, [], []⟩]).run
      ((bssServed none).machine [⟨0, [], []⟩, ⟨1, [], []⟩]).start
      [.next false, .remove ['1'], .next true] =
      some (⟨[⟨0, [], []⟩], [['0'], ['1']], ⟨"BSS NEXT-0".toList, [['0']], true⟩⟩, trace) := by
    decide +kernel
  obtain ⟨hnodup, -, hsent, -⟩ := walks_hold_their_place (.bss none) [⟨0, [], []⟩, ⟨1, [], []⟩]
    (by decide +kernel) (Machine.reaches_of_run hrun)
  exact ⟨by decide +kernel, hnodup, hsent⟩

end WpaCtrl
