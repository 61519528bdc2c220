/-
# Listing networks page by page (`iter_networks`)

`LIST_NETWORKS` answers with as many networks as fit one datagram, and `LAST_ID=`
continues behind an id.  The daemon keeps its networks in increasing order of their
ids and cuts every reply where it likes; between the pages, networks are added and
removed, the one the continuation names included.

* `networks_listed_completely` : `iter_networks` yields increasing ids and, once it
  ends, every network that was configured throughout; against a daemon without
  `LAST_ID=` it yields the first page.
-/
import WpaCtrl.Tables
import WpaCtrl.Runs
import WpaCtrl.Paging

open Text Paging

namespace WpaCtrl

/-! ## The generator -/

/-- The variables of `iter_networks`. -/
structure PageWalk where
  command : Text
  seen : List ℤ
  ended : Bool
  deriving DecidableEq

/-- What a continuation starts with. -/
def lastIdCommand : Text := "LIST_NETWORKS LAST_ID=".toList

/-- The command that continues behind an id. -/
def continuation (id : ℤ) : Text := lastIdCommand ++ ofInt id

namespace PageWalk

/-- `iter_networks` before its first step. -/
def start : PageWalk := ⟨"LIST_NETWORKS".toList, [], false⟩

@[simp] theorem start_seen : start.seen = [] := rfl

@[simp] theorem start_ended : start.ended = false := rfl

/-- The loop of `iter_networks`, given the reply to its command: the networks it
yields before the next command. -/
def resume (walk : PageWalk) (reply : Text) : PageWalk × List Network :=
  let new := (parseNetworks reply).filter fun network => network.id ∉ walk.seen
  match new.getLast? with
  | none => ({ walk with ended := true }, [])
  | some last => (⟨continuation last.id, new.map Network.id ++ walk.seen, false⟩, new)

/-- All `iter_networks` yields against given answers, for at most so many commands. -/
def collect (answer : Text → Text) : ℕ → PageWalk → PageWalk × List Network
  | 0, walk => (walk, [])
  | commands + 1, walk =>
    if walk.ended then (walk, [])
    else
      let (walk', new) := walk.resume (exchange answer walk.command)
      let (walk'', rest) := collect answer commands walk'
      (walk'', new ++ rest)

end PageWalk

/-! ## The daemon -/

/-- The configured networks, in increasing order of their ids. -/
structure Networks where
  rows : List NetworkRow
  increasing : rows.Pairwise fun a b => a.id < b.id
  deriving DecidableEq

namespace Networks

/-- A network is added where its id belongs. -/
def add (networks : Networks) (row : NetworkRow) : Networks where
  rows := networks.rows.filter (fun other => other.id < row.id) ++
    row :: networks.rows.filter fun other => row.id < other.id
  increasing := by
    rw [List.pairwise_append, List.pairwise_cons]
    refine ⟨networks.increasing.filter _, ⟨?_, networks.increasing.filter _⟩, ?_⟩
    · intro other hother
      simpa using (List.mem_filter.mp hother).2
    · intro before hbefore other hother
      have hlt : before.id < row.id := by simpa using (List.mem_filter.mp hbefore).2
      rcases List.mem_cons.mp hother with rfl | hother
      · exact hlt
      · have hgt : row.id < other.id := by simpa using (List.mem_filter.mp hother).2
        omega

/-- A network is removed. -/
def remove (networks : Networks) (id : ℤ) : Networks :=
  ⟨networks.rows.filter fun row => row.id ≠ id, networks.increasing.filter _⟩

end Networks

/-- The id a command continues behind. -/
def lastId? (command : Text) : Option ℤ :=
  if lastIdCommand.isPrefixOf command then int? (command.drop lastIdCommand.length) else none

/-- The daemon's page: at least one network when there is one. -/
def Networks.page (networks : Networks) (command : Text) (length : ℕ) : List NetworkRow :=
  (beyond NetworkRow.id (lastId? command) networks.rows).take (length + 1)

/-- The daemon's networks and the generator. -/
structure Listing where
  networks : Networks
  walk : PageWalk
  deriving DecidableEq

inductive ListingAction where
  | add (row : NetworkRow)
  | remove (id : ℤ)
  /-- the generator sends its command, and the daemon cuts the reply at a length -/
  | page (length : ℕ)

inductive ListingObservation where
  | removed (id : ℤ)
  | yielded (networks : List Network)
  | ended
  deriving DecidableEq

/-- One step: the networks change, or the generator fetches a page. -/
def Listing.step (header : Text) (s : Listing) :
    ListingAction → Option (Listing × List ListingObservation)
  | .add row =>
    if row.id ∈ s.networks.rows.map NetworkRow.id then none
    else some ({ s with networks := s.networks.add row }, [])
  | .remove id => some ({ s with networks := s.networks.remove id }, [.removed id])
  | .page length =>
    if s.walk.ended then none
    else
      let page := s.networks.page s.walk.command length
      let reply := replyText (renderTable header (page.map NetworkRow.columns))
      match s.walk.resume reply with
      | (walk, []) => some ({ s with walk := walk }, [.ended])
      | (walk, new) => some ({ s with walk := walk }, [.yielded new])

/-- A listing of given networks. -/
def listings (header : Text) (networks : Networks) :
    Machine Listing ListingAction ListingObservation :=
  ⟨⟨networks, .start⟩, Listing.step header⟩

/-- The networks that were yielded, in order. -/
def yieldedNetworks (trace : List ListingObservation) : List Network :=
  trace.flatMap fun
    | .yielded networks => networks
    | _ => []

/-- The ids that were removed. -/
def removedIds (trace : List ListingObservation) : List ℤ :=
  trace.filterMap fun
    | .removed id => some id
    | _ => none

/-- The networks that were configured throughout. -/
def keptNetworks (networks : Networks) (trace : List ListingObservation) : List NetworkRow :=
  networks.rows.filter fun row => row.id ∉ removedIds trace

/-! ## What the generator makes of a page -/

/-- A command names the id it continues behind. -/
theorem lastId?_continuation (id : ℤ) : lastId? (continuation id) = some id := by
  have hprefix : lastIdCommand.isPrefixOf (continuation id) = true :=
    List.isPrefixOf_iff_prefix.mpr (List.prefix_append lastIdCommand (ofInt id))
  rw [lastId?, if_pos hprefix, continuation, List.drop_left, int?_ofInt]

theorem lastId?_start : lastId? PageWalk.start.command = none := by decide

/-- The command of a generator that has yielded some networks. -/
def pageCommand (got : List NetworkRow) : Text :=
  match cursor NetworkRow.id got with
  | none => "LIST_NETWORKS".toList
  | some id => continuation id

theorem lastId?_pageCommand (got : List NetworkRow) :
    lastId? (pageCommand got) = cursor NetworkRow.id got := by
  unfold pageCommand
  split
  · rename_i hnone
    rw [hnone]
    exact lastId?_start
  · rename_i id hsome
    rw [hsome]
    exact lastId?_continuation id

/-- A page of networks not seen before is yielded whole. -/
theorem resume_page {header : Text} (hheader : ∀ c ∈ header, isLineBoundary c = false)
    (walk : PageWalk) {page : List NetworkRow} (hnew : ∀ row ∈ page, row.id ∉ walk.seen) :
    walk.resume (replyText (renderTable header (page.map NetworkRow.columns))) =
      match cursor NetworkRow.id page with
      | none => ({ walk with ended := true }, [])
      | some id => (⟨continuation id, page.map NetworkRow.id ++ walk.seen, false⟩,
          page.map NetworkRow.network) := by
  have hfilter : (page.map NetworkRow.network).filter (fun network => network.id ∉ walk.seen) =
      page.map NetworkRow.network := by
    apply List.filter_eq_self.mpr
    intro network hnetwork
    obtain ⟨row, hrow, rfl⟩ := List.mem_map.mp hnetwork
    show decide (row.id ∉ walk.seen) = true
    simpa using hnew row hrow
  have hlast : (page.map NetworkRow.network).getLast? = page.getLast?.map NetworkRow.network :=
    List.getLast?_map
  have hids : (page.map NetworkRow.network).map Network.id = page.map NetworkRow.id := by
    rw [List.map_map]
    rfl
  unfold PageWalk.resume cursor
  rw [parseNetworks_rendered hheader]
  simp only [hfilter, hlast, hids]
  cases page.getLast? <;> rfl

/-- A page of networks that were all seen ends the generator. -/
theorem resume_seen (walk : PageWalk) {reply : Text}
    (hseen : ∀ network ∈ parseNetworks reply, network.id ∈ walk.seen) :
    walk.resume reply = ({ walk with ended := true }, []) := by
  have hfilter : (parseNetworks reply).filter (fun network => network.id ∉ walk.seen) = [] := by
    apply List.filter_eq_nil_iff.mpr
    intro network hnetwork
    simpa using hseen network hnetwork
  unfold PageWalk.resume
  simp only [hfilter]
  rfl

/-! ## The invariant of a listing -/

/-- The networks yielded are those read from the table, in order. -/
structure Listed (networks : Networks) (trace : List ListingObservation) (s : Listing)
    (got : List NetworkRow) : Prop where
  swept : Swept NetworkRow.id s.networks.rows (keptNetworks networks trace) got
  yielded : yieldedNetworks trace = got.map NetworkRow.network
  seen : ∀ id ∈ s.walk.seen, id ∈ got.map NetworkRow.id
  command : s.walk.ended = false → s.walk.command = pageCommand got
  ended : s.walk.ended = true → ∀ row ∈ keptNetworks networks trace, row ∈ got

theorem yieldedNetworks_append (trace seen : List ListingObservation) :
    yieldedNetworks (trace ++ seen) = yieldedNetworks trace ++ yieldedNetworks seen :=
  List.flatMap_append

theorem mem_keptNetworks_append {networks : Networks} {trace seen : List ListingObservation}
    {row : NetworkRow} : row ∈ keptNetworks networks (trace ++ seen) ↔
      row ∈ keptNetworks networks trace ∧ row.id ∉ removedIds seen := by
  unfold keptNetworks removedIds
  rw [List.mem_filter, List.mem_filter, List.filterMap_append]
  simp only [decide_eq_true_eq, List.mem_append, not_or, and_assoc]

namespace Listed

variable {header : Text} {networks : Networks} {trace : List ListingObservation} {s : Listing}
  {got : List NetworkRow}

/-- The networks change: those kept are still there. -/
theorem change (h : Listed networks trace s got) {networks' : Networks}
    {seen : List ListingObservation} (hseen : yieldedNetworks seen = [])
    (hmem : ∀ row ∈ keptNetworks networks (trace ++ seen), row ∈ networks'.rows) :
    Listed networks (trace ++ seen) { s with networks := networks' } got := by
  have hkept : ∀ row ∈ keptNetworks networks (trace ++ seen), row ∈ keptNetworks networks trace :=
    fun row hrow => (mem_keptNetworks_append.mp hrow).1
  refine ⟨h.swept.change networks'.increasing hkept hmem, ?_, h.seen, h.command, ?_⟩
  · rw [yieldedNetworks_append, hseen, List.append_nil]
    exact h.yielded
  · exact fun hended row hrow => h.ended hended row (hkept row hrow)

theorem add (h : Listed networks trace s got) {row : NetworkRow}
    (hnew : row.id ∉ s.networks.rows.map NetworkRow.id) :
    Listed networks (trace ++ []) { s with networks := s.networks.add row } got := by
  apply h.change rfl
  intro kept hkept
  have hmem := h.swept.kept_mem kept (mem_keptNetworks_append.mp hkept).1
  have hne : kept.id ≠ row.id := fun heq => hnew (heq ▸ List.mem_map_of_mem hmem)
  show kept ∈ s.networks.rows.filter (fun other => other.id < row.id) ++
    row :: s.networks.rows.filter fun other => row.id < other.id
  simp only [List.mem_append, List.mem_cons, List.mem_filter, decide_eq_true_eq, hmem, true_and]
  rcases lt_or_gt_of_ne hne with hlt | hgt
  · exact Or.inl hlt
  · exact Or.inr (Or.inr hgt)

theorem remove (h : Listed networks trace s got) (id : ℤ) :
    Listed networks (trace ++ [.removed id]) { s with networks := s.networks.remove id } got := by
  apply h.change rfl
  intro kept hkept
  obtain ⟨hkept, hne⟩ := mem_keptNetworks_append.mp hkept
  have hmem := h.swept.kept_mem kept hkept
  show kept ∈ s.networks.rows.filter fun row => row.id ≠ id
  rw [List.mem_filter]
  exact ⟨hmem, by simpa [removedIds] using hne⟩

/-- The generator fetches a page. -/
theorem page (h : Listed networks trace s got) (hheader : ∀ c ∈ header, isLineBoundary c = false)
    (hrunning : s.walk.ended = false) (length : ℕ) {s' : Listing}
    {seen : List ListingObservation} (hstep : s.step header (.page length) = some (s', seen)) :
    ∃ got', Listed networks (trace ++ seen) s' got' := by
  have hcommand : lastId? s.walk.command = cursor NetworkRow.id got := by
    rw [h.command hrunning]
    exact lastId?_pageCommand got
  have hbeyond : beyond NetworkRow.id (cursor NetworkRow.id got) s.networks.rows =
      s.networks.page s.walk.command length ++
        (beyond NetworkRow.id (cursor NetworkRow.id got) s.networks.rows).drop (length + 1) := by
    rw [Networks.page, hcommand, List.take_append_drop]
  have hkept : ∀ seen : List ListingObservation, removedIds seen = [] →
      keptNetworks networks (trace ++ seen) = keptNetworks networks trace := by
    intro seen hnone
    unfold keptNetworks removedIds at *
    rw [List.filterMap_append, hnone, List.append_nil]
  -- a page starts behind everything that was read, so nothing on it was seen
  have hnew : ∀ row ∈ s.networks.page s.walk.command length, row.id ∉ s.walk.seen := by
    intro row hrow hseen
    obtain ⟨other, hother, heq⟩ := List.mem_map.mp (h.seen row.id hseen)
    have hbehind : row ∈ beyond NetworkRow.id (cursor NetworkRow.id got) s.networks.rows := by
      rw [hbeyond]
      exact List.mem_append_left _ hrow
    have hlt := h.swept.lt_of_mem_beyond hbehind other hother
    omega
  simp only [Listing.step, hrunning, Bool.false_eq_true, if_false, resume_page hheader s.walk hnew]
    at hstep
  rcases hpage : s.networks.page s.walk.command length with _ | ⟨first, page⟩
  · -- an empty page: nothing is behind the last network read
    rw [hpage] at hstep hbeyond
    obtain ⟨rfl, rfl⟩ := Prod.mk.inj (Option.some.inj hstep)
    have hnothing : beyond NetworkRow.id (cursor NetworkRow.id got) s.networks.rows = [] := by
      have htake : (beyond NetworkRow.id (cursor NetworkRow.id got) s.networks.rows).take
          (length + 1) = [] := by
        rw [← hcommand]
        exact hpage
      rcases List.take_eq_nil_iff.mp htake with hzero | hnil
      · omega
      · exact hnil
    refine ⟨got, ?_, ?_, h.seen, fun hended => ?_, fun _ => ?_⟩
    · rw [hkept _ rfl]
      exact h.swept
    · rw [yieldedNetworks_append, h.yielded]
      exact List.append_nil _
    · simp at hended
    · rw [hkept _ rfl]
      exact h.swept.finished hnothing
  · -- a page that is yielded whole, and the walk goes on behind its last network
    rw [hpage] at hstep hbeyond
    have hne : first :: page ≠ [] := by simp
    have hcursor : cursor NetworkRow.id (first :: page) =
        some ((first :: page).getLast hne).id := by
      rw [cursor, List.getLast?_eq_some_getLast hne, Option.map_some]
    simp only [hcursor] at hstep
    obtain ⟨rfl, rfl⟩ := Prod.mk.inj (Option.some.inj hstep)
    refine ⟨got ++ first :: page, ?_, ?_, ?_, fun _ => ?_, fun hended => ?_⟩
    · rw [hkept _ rfl]
      exact h.swept.page hbeyond hne
    · rw [yieldedNetworks_append, h.yielded, List.map_append]
      exact congrArg _ (List.append_nil _)
    · intro id hid
      rw [List.map_append]
      rcases List.mem_append.mp hid with hid | hid
      · exact List.mem_append_right _ hid
      · exact List.mem_append_left _ (h.seen id hid)
    · have hlast : cursor NetworkRow.id (got ++ first :: page) =
          some ((first :: page).getLast hne).id := by
        rw [cursor, List.getLast?_append, List.getLast?_eq_some_getLast hne]
        rfl
      rw [pageCommand, hlast]
    · simp at hended

/-- **Every step keeps a listing complete.** -/
theorem step (h : Listed networks trace s got) (hheader : ∀ c ∈ header, isLineBoundary c = false)
    {action : ListingAction} {s' : Listing} {seen : List ListingObservation}
    (hstep : s.step header action = some (s', seen)) :
    ∃ got', Listed networks (trace ++ seen) s' got' := by
  cases action with
  | add row =>
    simp only [Listing.step] at hstep
    split at hstep
    · simp at hstep
    · rename_i hnew
      obtain ⟨rfl, rfl⟩ := Prod.mk.inj (Option.some.inj hstep)
      exact ⟨got, h.add hnew⟩
  | remove id =>
    obtain ⟨rfl, rfl⟩ := Prod.mk.inj (Option.some.inj hstep)
    exact ⟨got, h.remove id⟩
  | page length =>
    cases hended : s.walk.ended with
    | false => exact h.page hheader hended length hstep
    | true => simp [Listing.step, hended] at hstep

end Listed

theorem listed_of_reaches {header : Text} (hheader : ∀ c ∈ header, isLineBoundary c = false)
    {networks : Networks} {trace : List ListingObservation} {s : Listing}
    (h : (listings header networks).Reaches trace s) : ∃ got, Listed networks trace s got := by
  apply h.invariant fun trace s => ∃ got, Listed networks trace s got
  · have hkept : keptNetworks networks [] = networks.rows := by
      unfold keptNetworks
      apply List.filter_eq_self.mpr
      simp [removedIds]
    refine ⟨[], ?_, rfl, ?_, fun _ => rfl, fun hended => ?_⟩
    · rw [hkept]
      exact Swept.start networks.increasing
    · show ∀ id ∈ PageWalk.start.seen, id ∈ [].map NetworkRow.id
      simp
    · have hrunning : PageWalk.start.ended = true := hended
      simp at hrunning
  · rintro trace s action s' seen run ⟨got, hs⟩ hstep
    exact hs.step hheader hstep

/-! ## Daemons without `LAST_ID=` -/

/-- A daemon that refuses the continuation, or answers it with its first page again. -/
def WithoutLastId (answer : Text → Text) : Prop :=
  (∀ id, answer (continuation id) = "UNKNOWN COMMAND\n".toList) ∨
    ∀ id, answer (continuation id) = answer PageWalk.start.command

/-- Its answer to the continuation brings nothing new. -/
theorem resume_continuation {header : Text} (hheader : ∀ c ∈ header, isLineBoundary c = false)
    {answer : Text → Text} {page : List NetworkRow} (hold : WithoutLastId answer)
    (hfirst : answer PageWalk.start.command = renderTable header (page.map NetworkRow.columns))
    (walk : PageWalk) (hseen : ∀ row ∈ page, row.id ∈ walk.seen) (id : ℤ) :
    walk.resume (exchange answer (continuation id)) = ({ walk with ended := true }, []) := by
  apply resume_seen
  unfold exchange
  rcases hold with hrefused | hrepeated
  · rw [hrefused]
    have hnone : parseNetworks (replyText "UNKNOWN COMMAND\n".toList) = [] := by decide
    rw [hnone]
    simp
  · rw [hrepeated, hfirst, parseNetworks_rendered hheader]
    intro network hnetwork
    obtain ⟨row, hrow, rfl⟩ := List.mem_map.mp hnetwork
    exact hseen row hrow

/-- The generator sends one more command. -/
theorem collect_running (answer : Text → Text) (commands : ℕ) {walk : PageWalk}
    (h : walk.ended = false) :
    PageWalk.collect answer (commands + 1) walk =
      ((PageWalk.collect answer commands (walk.resume (exchange answer walk.command)).1).1,
        (walk.resume (exchange answer walk.command)).2 ++
          (PageWalk.collect answer commands (walk.resume (exchange answer walk.command)).1).2) := by
  rw [PageWalk.collect, h]
  rfl

/-- Against such a daemon the generator yields the first page and stops, with two
commands at most. -/
theorem collect_firstPage {header : Text} (hheader : ∀ c ∈ header, isLineBoundary c = false)
    {answer : Text → Text} {page : List NetworkRow} (hold : WithoutLastId answer)
    (hfirst : answer PageWalk.start.command = renderTable header (page.map NetworkRow.columns))
    (more : ℕ) :
    (PageWalk.collect answer (more + 2) PageWalk.start).1.ended = true ∧
      (PageWalk.collect answer (more + 2) PageWalk.start).2 = page.map NetworkRow.network := by
  have hstop : ∀ commands (walk : PageWalk), walk.ended = true →
      PageWalk.collect answer commands walk = (walk, []) := by
    intro commands walk hended
    cases commands with
    | zero => rfl
    | succ commands => simp [PageWalk.collect, hended]
  have hfresh : ∀ row ∈ page, row.id ∉ PageWalk.start.seen := by simp
  have hresume := resume_page hheader PageWalk.start hfresh
  rw [← hfirst] at hresume
  rcases hcursor : cursor NetworkRow.id page with _ | id
  · -- an empty first page ends the generator at once
    have hnil : page = [] := by
      rw [cursor, Option.map_eq_none_iff] at hcursor
      exact List.getLast?_eq_none_iff.mp hcursor
    rw [hcursor] at hresume
    have hempty : PageWalk.start.resume (exchange answer PageWalk.start.command) =
        ({ PageWalk.start with ended := true }, []) := hresume
    rw [collect_running _ _ PageWalk.start_ended, hempty, hnil, hstop _ _ rfl]
    exact ⟨rfl, rfl⟩
  · -- the first page is yielded, and the answer to the second command ends the generator
    rw [hcursor] at hresume
    have hyield : PageWalk.start.resume (exchange answer PageWalk.start.command) =
        (⟨continuation id, page.map NetworkRow.id ++ PageWalk.start.seen, false⟩,
          page.map NetworkRow.network) := hresume
    have hseen : ∀ row ∈ page, row.id ∈ page.map NetworkRow.id ++ PageWalk.start.seen :=
      fun row hrow => List.mem_append_left _ (List.mem_map_of_mem hrow)
    have hsecond := resume_continuation hheader hold hfirst
      ⟨continuation id, page.map NetworkRow.id ++ PageWalk.start.seen, false⟩ hseen id
    rw [collect_running _ _ PageWalk.start_ended, hyield, collect_running _ _ rfl, hsecond,
      hstop _ _ rfl]
    exact ⟨rfl, List.append_nil _⟩

/-- **Networks are listed completely.**  Whatever is added and removed between the
pages and wherever they are cut, the ids are yielded in increasing order and, once
the generator has ended, every network that was configured throughout was yielded
exactly once.  Against a daemon without `LAST_ID=` the generator yields exactly the
first page and ends. -/
theorem networks_listed_completely (header : Text)
    (hheader : ∀ c ∈ header, isLineBoundary c = false) :
    (∀ (networks : Networks) (trace : List ListingObservation) (s : Listing),
        (listings header networks).Reaches trace s →
        ((yieldedNetworks trace).map Network.id).Pairwise (· < ·) ∧
          (s.walk.ended = true → ∀ row ∈ keptNetworks networks trace,
            (yieldedNetworks trace).count row.network = 1)) ∧
      ∀ (answer : Text → Text) (page : List NetworkRow), WithoutLastId answer →
        answer PageWalk.start.command = renderTable header (page.map NetworkRow.columns) →
        ∀ more : ℕ, (PageWalk.collect answer (more + 2) PageWalk.start).1.ended = true ∧
          (PageWalk.collect answer (more + 2) PageWalk.start).2 =
            page.map NetworkRow.network := by
  refine ⟨fun networks trace s h => ?_, fun answer page hold hfirst more =>
    collect_firstPage hheader hold hfirst more⟩
  obtain ⟨got, hs⟩ := listed_of_reaches hheader h
  have hincreasing : ((yieldedNetworks trace).map Network.id).Pairwise (· < ·) := by
    rw [hs.yielded, List.map_map, List.pairwise_map]
    exact hs.swept.got_increasing
  refine ⟨hincreasing, fun hended row hrow => ?_⟩
  have hnodup : (yieldedNetworks trace).Nodup := by
    apply List.Nodup.of_map Network.id
    exact hincreasing.imp fun hlt => ne_of_lt hlt
  apply List.count_eq_one_of_mem hnodup
  rw [hs.yielded]
  exact List.mem_map_of_mem (hs.ended hended row hrow)

/-- The network the continuation names is removed before the next page. -/
theorem networks_listed_completely_last_removed :
    let any : Column := ⟨"any".toList, List.all_eq_true.mp (by decide)⟩
    let home : NetworkRow := ⟨0, [104, 9], any, any⟩
    let guest : NetworkRow := ⟨5, [], any, any⟩
    let trace : List ListingObservation :=
      [.yielded [home.network], .removed 0, .yielded [guest.network], .ended]
    ((yieldedNetworks trace).map Network.id).Pairwise (· < ·) ∧
      (yieldedNetworks trace).count guest.network = 1 := by
  intro any home guest trace
  have hheader : ∀ c ∈ "network id / ssid".toList, isLineBoundary c = false := by
    simp [isLineBoundary, lineBoundaries]
  have hrun : (listings "network id / ssid".toList ⟨[home, guest], by simp [home, guest]⟩).run
      (listings "network id / ssid".toList ⟨[home, guest], by simp [home, guest]⟩).start
      [.page 0, .remove 0, .page 0, .page 0] =
      some (⟨⟨[guest], by simp⟩, ⟨continuation 5, [5, 0], true⟩⟩, trace) := by
    decide +kernel
  obtain ⟨hincreasing, hcount⟩ :=
    (networks_listed_completely _ hheader).1 _ _ _ (Machine.reaches_of_run hrun)
  exact ⟨hincreasing, hcount rfl guest (by decide +kernel)⟩

end WpaCtrl
