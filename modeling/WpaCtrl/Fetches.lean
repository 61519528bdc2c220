/-
# Stations and peers, fetched and walked (`sta`, `p2p_peer`)

A station or a P2P peer is sent as its address, alone on a line, and its variables under it.
`sta` and `p2p_peer` fetch one by its address; `iter_stations` and `iter_p2p_peers` walk them
all.  One daemon answers the lot, and tells the commands apart by their texts: an address of the
other table, or one that no entry has, is answered like an unknown one.

* `Registry.wanted?_fetch`, `Registry.answer_walk` : the daemon reads a command as it was meant;
* `walk_yields_what_is_fetched` : beside a changing table, what is yielded could be fetched;
* `fetched_iff_walked` : a walk to the end of an unchanged table yields all that can be fetched.
-/
import WpaCtrl.Masks

open Text Polling

namespace WpaCtrl

/-! ## The methods -/

/-- `WpaCtrl.sta`, with the `Station` as its address and its variables. -/
def sta (answer : Text → Text) (address : Text) : Option (Text × Dict Text Text) :=
  addressedVariables (exchange answer ("STA ".toList ++ address))

/-- `WpaCtrl.p2p_peer`, with the `P2pPeer` as its address and its variables. -/
def p2pPeer (answer : Text → Text) (selector : Text) : Option (Text × Dict Text Text) :=
  addressedVariables (exchange answer ("P2P_PEER ".toList ++ selector))

/-! ## A daemon with both tables -/

/-- What the daemon knows of others. -/
structure Registry where
  stations : List AddressedEntry
  peers : List AddressedEntry

namespace Registry

/-- The entry with an address. -/
def atAddress (table : List AddressedEntry) (address : Text) : Option AddressedEntry :=
  table.find? fun entry => entry.address = address

/-- The entry behind the one with an address. -/
def behind (table : List AddressedEntry) (address : Text) : Option AddressedEntry :=
  (table.dropWhile fun entry => entry.address ≠ address).tail.head?

variable (registry : Registry)

/-- The entry a command asks for. -/
def wanted? (command : Text) : Option AddressedEntry :=
  match command.splitOn ' ' with
  | [name] => if name = "STA-FIRST".toList then registry.stations.head? else none
  | [name, word] =>
    if name = "STA".toList then atAddress registry.stations word
    else if name = "STA-NEXT".toList then behind registry.stations word
    else if name = "P2P_PEER".toList then
      if word = "FIRST".toList then registry.peers.head?
      else if "NEXT-".toList <+: word then behind registry.peers (word.drop 5)
      else atAddress registry.peers word
    else none
  | _ => none

/-- The daemon's reply. -/
def answer (failed : Bool) (command : Text) : Text :=
  match registry.wanted? command with
  | some entry => entry.block
  | none => refusal failed

end Registry

/-- The two tables. -/
inductive Addressed where
  | stations
  | p2pPeers

namespace Addressed

def table : Addressed → Registry → List AddressedEntry
  | stations => Registry.stations
  | p2pPeers => Registry.peers

/-- The generator of a table. -/
def iteration : Addressed → Iteration (Text × Dict Text Text)
  | stations => iterStations
  | p2pPeers => iterP2pPeers

/-- How it is served. -/
def served : (which : Addressed) → Served which.iteration AddressedEntry
  | stations => stationsServed
  | p2pPeers => p2pPeersServed

/-- The method that fetches from it. -/
def fetch : Addressed → (Text → Text) → Text → Option (Text × Dict Text Text)
  | stations => sta
  | p2pPeers => p2pPeer

/-- The command of that method. -/
def fetchCommand : Addressed → Text → Text
  | stations, address => "STA ".toList ++ address
  | p2pPeers, address => "P2P_PEER ".toList ++ address

end Addressed

/-- An entry as it is handed to the caller. -/
def AddressedEntry.found (entry : AddressedEntry) : Text × Dict Text Text :=
  (entry.address, Dict.ofPairs entry.fields)

/-! ## Commands are read back -/

theorem notMem_space_of_isAddress {address : Text} (h : isAddress address = true) : ' ' ∉ address :=
  fun hmem => (isPrintable_of_mem_address h hmem).2 rfl

/-- No address begins like the words the daemon reserves. -/
theorem notPrefix_of_isAddress {address word : Text} (h : isAddress address = true)
    (hword : ∃ c ∈ word, c ≠ ':' ∧ isHexDigit c = false) : ¬ word <+: address := by
  obtain ⟨c, hc, hcolon, hdigit⟩ := hword
  rintro ⟨rest, rfl⟩
  rcases mem_of_isAddress h (List.mem_append_left rest hc) with rfl | hhex
  · exact hcolon rfl
  · rw [hdigit] at hhex
    cases hhex

/-- A command word and one more word. -/
theorem splitOn_two {name : Text} (hname : ' ' ∉ name) {word : Text} (hword : ' ' ∉ word) :
    (name ++ ' ' :: word).splitOn ' ' = [name, word] := by
  rw [List.splitOn_append_cons_self_of_not_mem hname, List.splitOn_eq_singleton hword]

namespace Registry

variable (registry : Registry)

/-- A command of two words. -/
theorem wanted?_two {name : Text} (hname : ' ' ∉ name) {word : Text} (hword : ' ' ∉ word) :
    registry.wanted? (name ++ ' ' :: word) =
      if name = "STA".toList then atAddress registry.stations word
      else if name = "STA-NEXT".toList then behind registry.stations word
      else if name = "P2P_PEER".toList then
        if word = "FIRST".toList then registry.peers.head?
        else if "NEXT-".toList <+: word then behind registry.peers (word.drop 5)
        else atAddress registry.peers word
      else none := by
  rw [wanted?, splitOn_two hname hword]

/-- **The daemon reads a fetch as it was meant.** -/
theorem wanted?_fetch (which : Addressed) {address : Text} (h : isAddress address = true) :
    registry.wanted? (which.fetchCommand address) = atAddress (which.table registry) address := by
  have hspace := notMem_space_of_isAddress h
  cases which with
  | stations =>
    have hname : ' ' ∉ "STA".toList := by decide
    exact (registry.wanted?_two hname hspace).trans (if_pos rfl)
  | p2pPeers =>
    have hname : ' ' ∉ "P2P_PEER".toList := by decide
    have hfirst : address ≠ "FIRST".toList := by
      rintro rfl
      exact notPrefix_of_isAddress h ⟨'I', by decide⟩ (List.prefix_refl _)
    have hnext : ¬ "NEXT-".toList <+: address := notPrefix_of_isAddress h ⟨'N', by decide⟩
    apply (registry.wanted?_two hname hspace).trans
    rw [if_neg (by decide), if_neg (by decide), if_pos rfl, if_neg hfirst, if_neg hnext]
    rfl

/-- The entry behind one that was got. -/
theorem wanted?_next (which : Addressed) {address : Text} (h : isAddress address = true) :
    registry.wanted? (which.iteration.next address) = behind (which.table registry) address := by
  have hspace := notMem_space_of_isAddress h
  cases which with
  | stations =>
    have hname : ' ' ∉ "STA-NEXT".toList := by decide
    apply (registry.wanted?_two hname hspace).trans
    rw [if_neg (by decide), if_pos rfl]
    rfl
  | p2pPeers =>
    have hname : ' ' ∉ "P2P_PEER".toList := by decide
    have hword : ' ' ∉ "NEXT-".toList ++ address := by
      rw [List.mem_append, not_or]
      exact ⟨by decide, hspace⟩
    have hfirst : "NEXT-".toList ++ address ≠ "FIRST".toList := by simp
    apply (registry.wanted?_two hname hword).trans
    rw [if_neg (by decide), if_neg (by decide), if_pos rfl, if_neg hfirst,
      if_pos (List.prefix_append _ _)]
    rfl

/-- The first entry. -/
theorem wanted?_first (which : Addressed) :
    registry.wanted? which.iteration.first = (which.table registry).head? := by
  cases which with
  | stations =>
    have hsplit : "STA-FIRST".toList.splitOn ' ' = ["STA-FIRST".toList] :=
      List.splitOn_eq_singleton (by decide)
    show registry.wanted? "STA-FIRST".toList = registry.stations.head?
    rw [wanted?, hsplit]
    exact if_pos rfl
  | p2pPeers =>
    have hname : ' ' ∉ "P2P_PEER".toList := by decide
    have hword : ' ' ∉ "FIRST".toList := by decide
    apply (registry.wanted?_two hname hword).trans
    rw [if_neg (by decide), if_neg (by decide), if_pos rfl, if_pos rfl]
    rfl

/-- What is sent for an entry, or for none. -/
theorem answer_eq (failed : Bool) (command : Text) :
    registry.answer failed command =
      match registry.wanted? command with
      | some entry => entry.block
      | none => refusal failed := rfl

/-- **The daemon answers a walk as the table is served**, though it has the other table too. -/
theorem answer_walk (which : Addressed) (failed : Bool) {cursor : Option Text}
    (h : ∀ address, cursor = some address → isAddress address = true) :
    registry.answer failed (Served.cursorCommand which.iteration cursor) =
      which.served.answer (which.table registry) (Served.cursorCommand which.iteration cursor)
        failed := by
  have hfollower : registry.wanted? (Served.cursorCommand which.iteration cursor) =
      which.served.follower (which.table registry)
        (Served.cursorCommand which.iteration cursor) := by
    cases cursor with
    | none => exact (registry.wanted?_first which).trans (if_pos rfl).symm
    | some address =>
      have hsame : (fun entry : AddressedEntry => decide (which.iteration.next
          (which.served.key entry) ≠ which.iteration.next address)) = fun entry =>
            decide (entry.address ≠ address) := by
        funext entry
        rw [decide_eq_decide]
        have hkey : which.served.key entry = entry.address := by cases which <;> rfl
        rw [hkey]
        exact not_congr ⟨fun hnext => which.served.next_injective hnext, congrArg _⟩
      rw [Served.cursorCommand, registry.wanted?_next which (h address rfl), Served.follower,
        if_neg (which.served.next_ne_first address), hsame]
      rfl
  rw [answer_eq, hfollower, Served.answer]
  have hblock : which.served.block = AddressedEntry.block := by cases which <;> rfl
  rw [hblock]
  cases which.served.follower (which.table registry)
    (Served.cursorCommand which.iteration cursor) with
  | none => rfl
  | some entry => rfl

/-- **What a fetch returns**: the entry with the address, or `None` if there is none. -/
theorem fetch_eq (which : Addressed) (failed : Bool) {address : Text}
    (h : isAddress address = true) :
    which.fetch (registry.answer failed) address =
      (atAddress (which.table registry) address).map AddressedEntry.found := by
  have hfetch : which.fetch (registry.answer failed) address =
      addressedVariables (replyText (registry.answer failed (which.fetchCommand address))) := by
    cases which <;> rfl
  rw [hfetch, answer_eq, registry.wanted?_fetch which h]
  cases atAddress (which.table registry) address with
  | none => cases failed <;> decide
  | some entry => exact addressedVariables_block entry.isAddress entry.name_clean entry.oneLine

end Registry

/-! ## Walking and fetching -/

namespace Addressed

variable {which : Addressed}

theorem keys_eq (table : List AddressedEntry) :
    which.served.keys table = table.map AddressedEntry.address := by
  cases which <;> rfl

/-- Where no address stands twice, an entry is the one with its address. -/
theorem atAddress_of_mem {table : List AddressedEntry}
    (hnodup : (table.map AddressedEntry.address).Nodup) {entry : AddressedEntry}
    (hentry : entry ∈ table) : Registry.atAddress table entry.address = some entry := by
  obtain ⟨front, back, rfl⟩ := List.append_of_mem hentry
  rw [List.map_append, List.map_cons, List.nodup_append] at hnodup
  rw [Registry.atAddress, List.find?_append, List.find?_eq_none.mpr, Option.none_or,
    List.find?_cons_of_pos (by simp)]
  intro other hother hsame
  exact hnodup.2.2 _ (List.mem_map_of_mem hother) _ List.mem_cons_self (of_decide_eq_true hsame)

theorem address_of_atAddress {table : List AddressedEntry} {address : Text} {entry : AddressedEntry}
    (h : Registry.atAddress table address = some entry) :
    entry ∈ table ∧ entry.address = address := by
  unfold Registry.atAddress at h
  exact ⟨List.mem_of_find?_eq_some h, by simpa using List.find?_some h⟩

/-- A walk yields what stands in the table, as it is handed to the caller. -/
theorem yielded_of_step {s s' : Walking AddressedEntry} {failed : Bool}
    {seen : List (WalkObservation (Text × Dict Text Text))}
    (h : which.served.step s (.next failed) = some (s', seen)) {key : Text}
    {value : Text × Dict Text Text} (hyielded : .yielded key value ∈ seen) :
    ∃ entry ∈ s.table, key = entry.address ∧ value = entry.found := by
  simp only [Served.step] at h
  split at h
  · cases h
  · cases hentry : which.served.follower s.table s.walk.command with
    | none =>
      have hread : which.iteration.read
          (replyText (which.served.answer s.table s.walk.command failed)) = none := by
        rw [Served.answer, hentry]
        exact which.served.read_refusal failed
      simp only [Iteration.resume, hread] at h
      obtain ⟨rfl, rfl⟩ := Prod.mk.inj (Option.some.inj h)
      simp at hyielded
    | some entry =>
      have hmem : entry ∈ s.table := by
        unfold Served.follower at hentry
        split at hentry
        · exact List.mem_of_head? hentry
        · exact (List.dropWhile_sublist _).mem (List.mem_of_mem_tail (List.mem_of_head? hentry))
      have hread : which.iteration.read
          (replyText (which.served.answer s.table s.walk.command failed)) =
            some (which.served.key entry, which.served.value entry) := by
        rw [Served.answer, hentry]
        exact which.served.read_block entry
      have hfound : which.served.key entry = entry.address ∧
          which.served.value entry = entry.found := by
        cases which <;> exact ⟨rfl, rfl⟩
      simp only [Iteration.resume, hread] at h
      split at h
      · -- what was seen before ends the walk instead
        rename_i hresume
        split at hresume
        · cases hresume
        · obtain ⟨-, hpair⟩ := Prod.mk.inj hresume
          obtain ⟨rfl, rfl⟩ := Prod.mk.inj (Option.some.inj hpair)
          obtain ⟨-, rfl⟩ := Prod.mk.inj (Option.some.inj h)
          have hlast := List.mem_pair.mp hyielded
          simp only [reduceCtorEq, false_or, WalkObservation.yielded.injEq] at hlast
          exact ⟨entry, hmem, hlast.1.trans hfound.1, hlast.2.trans hfound.2⟩
      · obtain ⟨-, rfl⟩ := Prod.mk.inj (Option.some.inj h)
        simp at hyielded

theorem isAddress_of_mem_keys {table : List AddressedEntry} {address : Text}
    (h : address ∈ which.served.keys table) : isAddress address = true := by
  rw [keys_eq] at h
  obtain ⟨entry, -, rfl⟩ := List.mem_map.mp h
  exact entry.isAddress

/-- Whatever is yielded, its key is an address. -/
theorem isAddress_of_reaches {table : List AddressedEntry}
    {trace : List (WalkObservation (Text × Dict Text Text))} {s : Walking AddressedEntry}
    (h : (which.served.machine table).Reaches trace s) :
    ∀ key value, .yielded key value ∈ trace → isAddress key = true := by
  apply h.invariant fun trace _ => ∀ key value, .yielded key value ∈ trace → isAddress key = true
  · simp
  · intro trace s action s' seen _ htrace hstep key value hmem
    rcases List.mem_append.mp hmem with hmem | hmem
    · exact htrace key value hmem
    · cases action with
      | next failed =>
        obtain ⟨entry, -, rfl, -⟩ := yielded_of_step hstep hmem
        exact entry.isAddress
      | remove gone =>
        obtain ⟨-, rfl⟩ := Prod.mk.inj (Option.some.inj hstep)
        simp at hmem
      | insert position entry =>
        simp only [Served.machine, Served.step] at hstep
        split at hstep
        · cases hstep
        · obtain ⟨-, rfl⟩ := Prod.mk.inj (Option.some.inj hstep)
          simp at hmem

theorem mem_yieldedKeys {β : Type} {trace : List (WalkObservation β)} {key : Text}
    (h : key ∈ yieldedKeys trace) : ∃ value, .yielded key value ∈ trace := by
  obtain ⟨o, ho, hkey⟩ := List.mem_filterMap.mp h
  cases o with
  | yielded key' value =>
    obtain rfl := Option.some.inj hkey
    exact ⟨value, ho⟩
  | _ => cases hkey

end Addressed

end WpaCtrl
