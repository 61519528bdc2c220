/-
# Walking and fetching under a mask (`iter_bss`, `bss`)

`bss` sends the caller's mask as it is; `iter_bss` adds the bit of the id to it, for the
walk is keyed on the id.  The daemon reads a missing mask and a mask of zero as every
field, so the added bit turns the one mask that selects everything into one that selects
the id alone.  Here the daemon reads its commands back from their texts and answers from
a table that does not change.

* `Served.session_unchanged` : a walk of an unchanged table yields it entry by entry;
* `readBssCommand_bssCommand` : the daemon reads a command as it was meant;
* `walk_agrees_with_fetch` : exactly when walking and fetching agree.
-/
import WpaCtrl.Guards

open Text Polling

namespace WpaCtrl

/-! ## A walk of an unchanged table -/

/-- A daemon that answers each command by itself. -/
def unchanged (answer : Text → Text) (commands : List Text) : Text :=
  answer (commands.getLast?.getD [])

namespace Served

variable {β ε : Type} {it : Iteration β} (served : Served it ε)

/-- The command of a walk that has got some entries. -/
def commandAfter (got : List ε) : Text := cursorCommand it (got.getLast?.map served.key)

/-- What is asked for is the next entry. -/
theorem follower_commandAfter (got rest : List ε) (hnodup : (served.keys (got ++ rest)).Nodup) :
    served.follower (got ++ rest) (served.commandAfter got) = rest.head? := by
  rcases List.eq_nil_or_concat got with rfl | ⟨front, last, rfl⟩
  · exact if_pos rfl
  · have hcommand : served.commandAfter (front.concat last) = it.next (served.key last) := by
      rw [commandAfter, List.concat_eq_append, List.getLast?_concat]
      rfl
    rw [List.concat_eq_append, List.append_assoc, List.singleton_append] at hnodup ⊢
    have hfront : ∀ entry ∈ front, it.next (served.key entry) ≠ it.next (served.key last) := by
      intro entry hentry h
      rw [keys, List.map_append, List.map_cons, List.nodup_append] at hnodup
      exact hnodup.2.2 _ (List.mem_map_of_mem hentry) _ (by simp) (served.next_injective h)
    rw [← List.concat_eq_append, hcommand, follower, if_neg (served.next_ne_first _),
      List.dropWhile_append_of_pos (by simpa using hfront),
      List.dropWhile_cons_of_neg (by simp), List.tail_cons]

/-- A walk that has got some entries of its table. -/
def standing (got : List ε) : Walk := ⟨served.commandAfter got, (served.keys got).reverse, false⟩

variable {served}

/-- The reply that brings the next entry. -/
theorem resume_standing {got : List ε} {entry : ε} {rest : List ε}
    (hnodup : (served.keys (got ++ entry :: rest)).Nodup) (failed : Bool) :
    it.resume (served.standing got)
      (replyText (served.answer (got ++ entry :: rest) (served.commandAfter got) failed)) =
      (served.standing (got ++ [entry]), some (served.key entry, served.value entry)) := by
  have hfresh : served.key entry ∉ (served.standing got).seen := by
    intro hmem
    rw [keys, List.map_append, List.map_cons, List.nodup_append] at hnodup
    exact hnodup.2.2 _ (List.mem_reverse.mp hmem) _ (by simp) rfl
  have hnext : it.next (served.key entry) = served.commandAfter (got ++ [entry]) := by
    rw [commandAfter, List.getLast?_concat]
    rfl
  rw [answer, served.follower_commandAfter _ _ hnodup, List.head?_cons, Iteration.resume,
    served.read_block]
  simp only [hfresh, if_false, hnext]
  simp [standing, keys]

/-- The reply behind the last entry. -/
theorem resume_standing_end {table : List ε} (hnodup : (served.keys table).Nodup) (failed : Bool) :
    it.resume (served.standing table)
      (replyText (served.answer table (served.commandAfter table) failed)) =
      ({ served.standing table with ended := true }, none) := by
  have hfollower : served.follower table (served.commandAfter table) = none := by
    simpa using served.follower_commandAfter table [] (by simpa using hnodup)
  rw [answer, hfollower, Iteration.resume, served.read_refusal]

/-- A walk after so many turns at an unchanged table. -/
structure Turned (served : Served it ε) (table : List ε) (turns : ℕ)
    (s : Session Walk Text Text (Text × β)) : Prop where
  yielded : s.yielded = (table.take turns).map fun entry => (served.key entry, served.value entry)
  running : turns ≤ table.length → s.state = served.standing (table.take turns)
  ended : table.length < turns → s.state.ended = true

/-- **A walk of an unchanged table yields it**, entry by entry, and ends. -/
theorem session_unchanged {table : List ε} (hnodup : (served.keys table).Nodup) {failed : Bool}
    {answer : Text → Text} (hanswer : ∀ got, got <+: table →
      answer (served.commandAfter got) = served.answer table (served.commandAfter got) failed)
    (turns : ℕ) :
    Turned served table turns (it.asker.session (hearing (unchanged answer)) turns) := by
  induction turns with
  | zero => exact ⟨rfl, fun _ => rfl, fun h => absurd h (Nat.not_lt_zero _)⟩
  | succ turns ih =>
    rw [Asker.session]
    generalize it.asker.session (hearing (unchanged answer)) turns = s at ih
    rcases Nat.lt_or_ge table.length turns with hend | hle
    · -- a walk that has ended asks nothing more
      have hturn : it.asker.turn (hearing (unchanged answer)) s = s := if_pos (ih.ended hend)
      rw [hturn]
      refine ⟨?_, fun hle => absurd hle (by omega), fun _ => ih.ended hend⟩
      rw [ih.yielded, List.take_of_length_le (by omega), List.take_of_length_le (by omega)]
    · obtain ⟨got, rest, rfl, rfl⟩ : ∃ got rest, table = got ++ rest ∧ got.length = turns :=
        ⟨table.take turns, table.drop turns, (List.take_append_drop turns table).symm,
          List.length_take_of_le hle⟩
      have hstate := ih.running hle
      have hyielded := ih.yielded
      rw [List.take_left] at hstate hyielded
      have hreply : hearing (unchanged answer) (s.sent ++ [it.asker.question s.state]) =
          replyText (served.answer (got ++ rest) (served.commandAfter got) failed) := by
        rw [hearing, unchanged, List.getLast?_concat, hstate]
        exact congrArg replyText (hanswer got (List.prefix_append got rest))
      have hrunning : it.asker.ended s.state = false := by
        rw [hstate]
        rfl
      rw [it.asker.turn_of_running _ hrunning, hreply, hstate, hyielded]
      rcases rest with _ | ⟨entry, rest⟩
      · -- no entry is left, and the walk ends
        rw [List.append_nil] at hnodup ⊢
        have hresume : it.asker.resume (served.standing got)
            (replyText (served.answer got (served.commandAfter got) failed)) =
            ({ served.standing got with ended := true }, []) := by
          show (_, _) = _
          rw [resume_standing_end hnodup]
          rfl
        rw [hresume]
        refine ⟨?_, fun hle => absurd hle (by omega), fun _ => rfl⟩
        rw [List.take_of_length_le (by omega), List.append_nil]
      · have hresume : it.asker.resume (served.standing got)
            (replyText (served.answer (got ++ entry :: rest) (served.commandAfter got) failed)) =
            (served.standing (got ++ [entry]), [(served.key entry, served.value entry)]) := by
          show (_, _) = _
          rw [resume_standing hnodup]
          rfl
        have htake : (got ++ entry :: rest).take (got.length + 1) = got ++ [entry] := by
          rw [List.take_length_add_append]
          rfl
        rw [hresume]
        refine ⟨?_, fun _ => ?_, fun hlt => ?_⟩
        · rw [htake, List.map_append]
          rfl
        · rw [htake]
        · rw [List.length_append, List.length_cons] at hlt
          omega

end Served

/-! ## The daemon of the BSS table -/

/-- What the daemon makes of a `BSS` command: the selector, and the mask if there is one. -/
def readBssCommand (command : Text) : Option (Text × Option ℕ) :=
  match command.splitOn ' ' with
  | [name, selector] => if name = "BSS".toList then some (selector, none) else none
  | [name, selector, mask] =>
    if name = "BSS".toList ∧ "MASK=0x".toList <+: mask then
      some (selector, some (hexNumber (mask.drop 7)))
    else none
  | _ => none

/-- A BSS table: no id twice, and the bit of the id selects the id alone. -/
structure BssTable where
  entries : List BssEntry
  distinct : (entries.map BssEntry.id).Nodup
  idBit : ∀ entry ∈ entries, ∀ field ∈ entry.before ++ entry.after,
    bssMaskId &&& field.bits = 0

namespace BssTable

variable (table : BssTable)

/-- The BSS a selector stands for. -/
def find (selector : Text) : Option BssEntry :=
  if selector = "FIRST".toList then table.entries.head?
  else
    match table.entries.find? fun entry => "ID-".toList ++ ofInt entry.id = selector with
    | some entry => some entry
    | none =>
      (table.entries.dropWhile fun entry => "NEXT-".toList ++ ofInt entry.id ≠ selector).tail.head?

/-- The daemon's reply: the fields of the BSS whose mask bits are set, all of them without
a mask or with a mask of zero. -/
def answer (failed : Bool) (command : Text) : Text :=
  match readBssCommand command with
  | none => refusal failed
  | some (selector, mask) =>
    match table.find selector with
    | none => refusal failed
    | some entry => renderVariables (entry.variables mask)

end BssTable

/-- `WpaCtrl.bss` against a daemon. -/
def bss (answer : Text → Text) (selector : Text) (mask : Option ℕ) : Dict Text Text :=
  parseVariables (exchange answer (bssCommand selector mask))

/-- What a walk yields has its id, and every field `bss` returns for that id. -/
structure Agrees (answer : Text → Text) (mask : Option ℕ) (found : Text × Dict Text Text) :
    Prop where
  id : found.2.get? "id".toList = some found.1
  fields : ∀ name value, (bss answer ("ID-".toList ++ found.1) mask).get? name = some value →
    found.2.get? name = some value

/-! ## Commands are read back -/

/-- **The daemon reads a command as it was meant**, whatever the mask. -/
theorem readBssCommand_bssCommand {selector : Text} (h : ' ' ∉ selector) (mask : Option ℕ) :
    readBssCommand (bssCommand selector mask) = some (selector, mask) := by
  cases mask with
  | none =>
    have hsplit : (bssCommand selector none).splitOn ' ' = ["BSS".toList, selector] := by
      have hjoin : bssCommand selector none = [' '].intercalate ["BSS".toList, selector] := by
        simp [bssCommand]
      rw [hjoin]
      exact List.splitOn_intercalate ' ' (by simpa using h) (by simp)
    rw [readBssCommand, hsplit]
    rfl
  | some mask =>
    have hdigits : ' ' ∉ Nat.toDigits 16 mask := fun hmem =>
      (isPrintable_of_isHexDigit (isHexDigit_of_mem_toDigits hmem)).2 rfl
    have hsplit : (bssCommand selector (some mask)).splitOn ' ' =
        ["BSS".toList, selector, "MASK=0x".toList ++ Nat.toDigits 16 mask] := by
      have hjoin : bssCommand selector (some mask) = [' '].intercalate
          ["BSS".toList, selector, "MASK=0x".toList ++ Nat.toDigits 16 mask] := by
        simp [bssCommand]
      rw [hjoin]
      exact List.splitOn_intercalate ' ' (by simpa using ⟨h, hdigits⟩) (by simp)
    have hnumber : hexNumber (("MASK=0x".toList ++ Nat.toDigits 16 mask).drop 7) = mask :=
      hexNumber_toDigits mask
    rw [readBssCommand, hsplit]
    simp only [hnumber, true_and, List.prefix_append, if_true]

/-- Under one mask, commands differ as their selectors do. -/
theorem bssCommand_inj {selector selector' : Text} (mask : Option ℕ) :
    bssCommand selector mask = bssCommand selector' mask ↔ selector = selector' := by
  simp [bssCommand]

namespace BssTable

variable {table : BssTable}

theorem nodup_keys (mask : Option ℕ) : ((bssServed mask).keys table.entries).Nodup := by
  have hkeys : (bssServed mask).keys table.entries =
      (table.entries.map BssEntry.id).map fun id : ℕ => ofInt id := by
    rw [List.map_map]
    rfl
  rw [hkeys]
  exact table.distinct.map fun m n h => Int.ofNat.inj (ofInt_injective h)

/-- What stands behind a BSS of the table. -/
theorem find_next (id : ℕ) :
    table.find ("NEXT-".toList ++ ofInt id) =
      (table.entries.dropWhile fun entry =>
        "NEXT-".toList ++ ofInt entry.id ≠ "NEXT-".toList ++ ofInt id).tail.head? := by
  have hnone : (table.entries.find? fun entry =>
      "ID-".toList ++ ofInt entry.id = "NEXT-".toList ++ ofInt id) = none := by
    simp
  rw [find, if_neg (by simp), hnone]

/-- **The daemon answers a walk as `bssServed` says**, though it knows the mask from the
command alone. -/
theorem answer_commandAfter (mask : Option ℕ) (failed : Bool) (got : List BssEntry) :
    table.answer failed ((bssServed mask).commandAfter got) =
      (bssServed mask).answer table.entries ((bssServed mask).commandAfter got) failed := by
  have hread : ∀ selector, ' ' ∉ selector →
      (bssServed mask).follower table.entries (bssCommand selector (walkMask mask)) =
        table.find selector →
      table.answer failed (bssCommand selector (walkMask mask)) =
        (bssServed mask).answer table.entries (bssCommand selector (walkMask mask)) failed := by
    intro selector hselector hfind
    rw [answer, readBssCommand_bssCommand hselector, Served.answer, hfind]
    show (match table.find selector with | none => _ | some entry => _) = _
    cases table.find selector <;> rfl
  rcases List.eq_nil_or_concat got with rfl | ⟨front, last, rfl⟩
  · exact hread "FIRST".toList (by decide) ((if_pos rfl).trans (if_pos rfl).symm)
  · have hcommand : (bssServed mask).commandAfter (front.concat last) =
        bssCommand ("NEXT-".toList ++ ofInt last.id) (walkMask mask) := by
      rw [Served.commandAfter, List.concat_eq_append, List.getLast?_concat]
      rfl
    rw [hcommand]
    apply hread
    · simpa using notMem_ofInt (c := ' ') (by decide) (by decide) last.id
    · have hne : bssCommand ("NEXT-".toList ++ ofInt last.id) (walkMask mask) ≠
          (iterBss mask).first := (bssServed mask).next_ne_first (ofInt last.id)
      have hsame : (fun entry : BssEntry => decide ((iterBss mask).next ((bssServed mask).key entry) ≠
          bssCommand ("NEXT-".toList ++ ofInt last.id) (walkMask mask))) = fun entry =>
          decide ("NEXT-".toList ++ ofInt entry.id ≠ "NEXT-".toList ++ ofInt last.id) := by
        funext entry
        rw [decide_eq_decide]
        exact not_congr (bssCommand_inj _)
      rw [find_next, Served.follower, if_neg hne, hsame]

/-- A fetch by id gets the fields of that BSS. -/
theorem bss_id {entry : BssEntry} (hentry : entry ∈ table.entries) (failed : Bool)
    (mask : Option ℕ) :
    bss (table.answer failed) ("ID-".toList ++ ofInt entry.id) mask =
      Dict.ofPairs (entry.variables mask) := by
  have hfind : table.find ("ID-".toList ++ ofInt entry.id) = some entry := by
    have hfound : (table.entries.find? fun other =>
        "ID-".toList ++ ofInt other.id = "ID-".toList ++ ofInt entry.id) = some entry := by
      obtain ⟨before, after, hsplit⟩ := List.append_of_mem hentry
      have hdistinct := table.distinct
      rw [hsplit, List.map_append, List.map_cons, List.nodup_append] at hdistinct
      rw [hsplit, List.find?_append, List.find?_eq_none.mpr, Option.none_or,
        List.find?_cons_of_pos (by simp)]
      intro other hother hid
      have hid := ofInt_injective (List.append_cancel_left (of_decide_eq_true hid))
      exact hdistinct.2.2 _ (List.mem_map_of_mem hother) _ (by simp) (Int.ofNat.inj hid)
    rw [find, if_neg (by simp), hfound]
  have hspace : ' ' ∉ "ID-".toList ++ ofInt entry.id := by
    simpa using notMem_ofInt (c := ' ') (by decide) (by decide) entry.id
  have hclean := clean_variables mask entry
  rw [bss, exchange, answer, readBssCommand_bssCommand hspace]
  simp only [hfind]
  exact parseVariables_replyText (fun pair hpair => (hclean pair hpair).1)
    fun pair hpair => (hclean pair hpair).2

end BssTable

/-! ## What the two masks select -/

/-- Unless the caller's mask is zero, the bit of the id adds nothing but the id. -/
theorem selectedVariables_walkMask {mask : Option ℕ} (hmask : mask ≠ some 0)
    {fields : List BssField} (hbits : ∀ field ∈ fields, bssMaskId &&& field.bits = 0) :
    selectedVariables (walkMask mask) fields = selectedVariables mask fields := by
  cases mask with
  | none => rfl
  | some mask =>
    have hzero : mask ≠ 0 := fun h => hmask (congrArg some h)
    have hfilter : ∀ field ∈ fields,
        selected (walkMask (some mask)) field.bits = selected (some mask) field.bits := by
      intro field hfield
      have hand : (mask ||| bssMaskId) &&& field.bits = mask &&& field.bits := by
        rw [Nat.and_or_distrib_right, hbits field hfield, Nat.or_zero]
      have hor : mask ||| bssMaskId ≠ 0 := fun h => hzero (Nat.or_eq_zero_iff.mp h).1
      simp [walkMask, selected, hand, hor, hzero]
    rw [selectedVariables, selectedVariables, List.filter_congr hfilter]

/-- The bit of the id alone selects no other field. -/
theorem selectedVariables_idBit {fields : List BssField}
    (hbits : ∀ field ∈ fields, bssMaskId &&& field.bits = 0) :
    selectedVariables (walkMask (some 0)) fields = [] := by
  have hfilter : (fields.filter fun field => selected (walkMask (some 0)) field.bits) = [] := by
    rw [List.filter_eq_nil_iff]
    intro field hfield
    show ¬ (decide (bssMaskId = 0) || decide (bssMaskId &&& field.bits ≠ 0)) = true
    rw [hbits field hfield]
    decide
  rw [selectedVariables, hfilter, List.map_nil]

/-- Where a variable is not the id, the id does not matter. -/
theorem get?_variables_of_ne (mask : Option ℕ) (entry : BssEntry) {name : Text}
    (h : name ≠ "id".toList) :
    (Dict.ofPairs (entry.variables mask)).get? name =
      (Dict.ofPairs (selectedVariables mask entry.before ++
        selectedVariables mask entry.after)).get? name := by
  unfold BssEntry.variables
  split_ifs
  · rw [List.append_assoc, List.singleton_append, Dict.get?_ofPairs_of_ne h]
  · rw [List.append_nil]

/-- The id has no other value than the BSS's. -/
theorem eq_of_get?_id {mask : Option ℕ} {entry : BssEntry} {value : Text}
    (h : (Dict.ofPairs (entry.variables mask)).get? "id".toList = some value) :
    value = ofInt entry.id := by
  rw [Dict.get?_ofPairs] at h
  obtain ⟨pair, hpair, rfl⟩ := Option.map_eq_some_iff.mp h
  have hname : pair.1 = "id".toList := by simpa using List.find?_some hpair
  have hmem := List.mem_reverse.mp (List.mem_of_find?_eq_some hpair)
  have hfields : ∀ fields, pair ∉ selectedVariables mask fields := by
    intro fields hmem
    obtain ⟨field, -, rfl⟩ := List.mem_map.mp hmem
    exact field.name_ne hname
  simp only [BssEntry.variables, List.mem_append, hfields, false_or, or_false] at hmem
  split_ifs at hmem
  · rw [List.mem_singleton.mp hmem]
  · simp at hmem

/-! ## Agreement -/

namespace BssTable

variable {table : BssTable}

/-- **For one BSS**, walking and fetching agree unless the mask is zero and there is a
field beside the id. -/
theorem agrees_iff {entry : BssEntry} (hentry : entry ∈ table.entries) (failed : Bool)
    (mask : Option ℕ) :
    Agrees (table.answer failed) mask
        (ofInt entry.id, Dict.ofPairs (entry.variables (walkMask mask))) ↔
      (mask = some 0 → entry.before = [] ∧ entry.after = []) := by
  have hbits := table.idBit entry hentry
  have hbefore : ∀ field ∈ entry.before, bssMaskId &&& field.bits = 0 := fun field hfield =>
    hbits field (List.mem_append_left _ hfield)
  have hafter : ∀ field ∈ entry.after, bssMaskId &&& field.bits = 0 := fun field hfield =>
    hbits field (List.mem_append_right _ hfield)
  constructor
  · rintro hagrees rfl
    rw [← List.append_eq_nil_iff, List.eq_nil_iff_forall_not_mem]
    intro field hfield
    -- a field that a mask of zero selects, and the bit of the id does not
    have hselected : field.name ∈ (selectedVariables (some 0) entry.before ++
        selectedVariables (some 0) entry.after).map Prod.fst := by
      have hall : ∀ fields, selectedVariables (some 0) fields =
          fields.map fun field => (field.name, field.value) := fun fields => by
        simp [selectedVariables, selected]
      rw [hall, hall, ← List.map_append, List.map_map]
      exact List.mem_map_of_mem hfield
    obtain ⟨value, hvalue⟩ := Option.isSome_iff_exists.mp
      (Dict.get?_ofPairs_isSome.mpr hselected)
    have hfetched : (bss (table.answer failed) ("ID-".toList ++ ofInt entry.id) (some 0)).get?
        field.name = some value := by
      rw [bss_id hentry, get?_variables_of_ne _ _ field.name_ne, hvalue]
    have hwalked := hagrees.fields field.name value hfetched
    rw [get?_variables_of_ne _ _ field.name_ne, selectedVariables_idBit hbefore,
      selectedVariables_idBit hafter] at hwalked
    cases hwalked
  · intro h
    have hsame : selectedVariables (walkMask mask) entry.before =
          selectedVariables mask entry.before ∧
        selectedVariables (walkMask mask) entry.after = selectedVariables mask entry.after := by
      by_cases hmask : mask = some 0
      · rw [(h hmask).1, (h hmask).2]
        exact ⟨rfl, rfl⟩
      · exact ⟨selectedVariables_walkMask hmask hbefore, selectedVariables_walkMask hmask hafter⟩
    refine ⟨get?_id mask entry, fun name value hfetched => ?_⟩
    rw [bss_id hentry] at hfetched
    by_cases hname : name = "id".toList
    · rw [hname] at hfetched ⊢
      rw [eq_of_get?_id hfetched]
      exact get?_id mask entry
    · rw [get?_variables_of_ne _ _ hname] at hfetched ⊢
      rw [hsame.1, hsame.2]
      exact hfetched

end BssTable

/-- **Exactly when walking and fetching agree.**  Over an unchanged table, everything
`iter_bss` yields has its id and every field that `bss` returns for that id under the same
mask, unless the mask is an explicit zero: the walk asks for the id alone then, and the
fetch for everything. -/
theorem walk_agrees_with_fetch (table : BssTable) (failed : Bool) (mask : Option ℕ) :
    (∀ turns, ∀ found ∈ ((iterBss mask).asker.session
        (hearing (unchanged (table.answer failed))) turns).yielded,
      Agrees (table.answer failed) mask found) ↔
    (mask = some 0 → ∀ entry ∈ table.entries, entry.before = [] ∧ entry.after = []) := by
  have hwalk : ∀ turns, ((iterBss mask).asker.session
      (hearing (unchanged (table.answer failed))) turns).yielded =
      (table.entries.take turns).map fun entry =>
        (ofInt entry.id, Dict.ofPairs (entry.variables (walkMask mask))) := fun turns =>
    (Served.session_unchanged (BssTable.nodup_keys mask)
      (fun got _ => BssTable.answer_commandAfter mask failed got) turns).yielded
  constructor
  · intro h hmask entry hentry
    refine (BssTable.agrees_iff hentry failed mask).mp (h table.entries.length _ ?_) hmask
    rw [hwalk, List.take_length]
    exact List.mem_map_of_mem hentry
  · intro h turns found hfound
    rw [hwalk] at hfound
    obtain ⟨entry, hentry, rfl⟩ := List.mem_map.mp hfound
    have hentry := List.mem_of_mem_take hentry
    exact (BssTable.agrees_iff hentry failed mask).mpr fun hmask => h hmask entry hentry

/-- A BSS with a name, walked and fetched with a mask of zero. -/
theorem walk_disagrees_with_fetch : ¬ ∀ (table : BssTable) (mask : Option ℕ) (turns : ℕ),
    ∀ found ∈ ((iterBss mask).asker.session
      (hearing (unchanged (table.answer false))) turns).yielded,
    Agrees (table.answer false) mask found := by
  intro h
  let entry : BssEntry := ⟨0, [], [⟨0x1000, "ssid".toList, "home".toList, by decide, by decide,
    by simp [OneLine, isLineBoundary, lineBoundaries]⟩]⟩
  let table : BssTable := ⟨[entry], by decide, by decide⟩
  have hagrees := h table (some 0) 1 (['0'], Dict.ofPairs [("id".toList, ['0'])])
    (by decide +kernel)
  exact absurd (hagrees.fields "ssid".toList "home".toList (by decide +kernel)) (by decide)

end WpaCtrl
