/-
# The channel of a frequency (`dpp_channel`)

A bootstrapping URI names the channel its peer announces on, as an operating class and
a channel number.  The function tests one band after the other; the global operating
classes are grids of channels, each with its own offset and distance.

* `dppChannel_eq_some` : the function answers on the grids as the code has them;
* `dppChannel_iff` : exactly where these are the 20 MHz channels of the classes.
-/
import WpaCtrl.Integer

open Text

namespace WpaCtrl

/-! ## The function -/

/-- `f"{operating_class}/{channel}"`. -/
def channelSpec (operatingClass channel : ℤ) : Text := ofInt operatingClass ++ '/' :: ofInt channel

/-- `_FIVE_GHZ_CLASSES`, as (class, first channel, last). -/
def fiveGhzClasses : List (ℤ × ℤ × ℤ) := [(115, 36, 48), (118, 52, 64), (121, 100, 144), (125, 149, 177)]

/-- The loop over the classes. -/
def findClass (channel : ℤ) : List (ℤ × ℤ × ℤ) → Option Text
  | [] => none
  | (operatingClass, low, high) :: classes =>
    if low ≤ channel ∧ channel ≤ high then some (channelSpec operatingClass channel)
    else findClass channel classes

/-- The tests behind the 5 GHz band. -/
def sixGhzChannel (frequency : ℤ) : Option Text :=
  if frequency = 5935 then some "136/2".toList
  else if (5955 ≤ frequency ∧ frequency ≤ 7115) ∧ (frequency - 5955) % 20 = 0 then
    some (channelSpec 131 ((frequency - 5950) / 5))
  else none

/-- `dpp_channel`. -/
def dppChannel (frequency : ℤ) : Option Text :=
  if (2412 ≤ frequency ∧ frequency ≤ 2472) ∧ (frequency - 2412) % 5 = 0 then
    some (channelSpec 81 ((frequency - 2412) / 5 + 1))
  else if frequency = 2484 then some "82/14".toList
  else if (5180 ≤ frequency ∧ frequency ≤ 5885) ∧ (frequency - 5180) % 5 = 0 then
    match findClass ((frequency - 5000) / 5) fiveGhzClasses with
    | some spec => some spec
    -- a channel of no class goes on to the next test
    | none => sixGhzChannel frequency
  else sixGhzChannel frequency

/-! ## The operating classes -/

/-- Channels of one operating class: numbers at a distance, 5 MHz to the number. -/
structure ChannelGrid where
  operatingClass : ℤ
  first : ℤ
  last : ℤ
  step : ℤ
  base : ℤ

namespace ChannelGrid

/-- A channel of the grid. -/
def Has (grid : ChannelGrid) (channel : ℤ) : Prop :=
  grid.first ≤ channel ∧ channel ≤ grid.last ∧ (channel - grid.first) % grid.step = 0

instance (grid : ChannelGrid) (channel : ℤ) : Decidable (grid.Has channel) :=
  inferInstanceAs (Decidable (_ ∧ _))

/-- The centre of a channel, in MHz. -/
def centre (grid : ChannelGrid) (channel : ℤ) : ℤ := grid.base + 5 * channel

/-- All numbers from the first to the last. -/
def filled (grid : ChannelGrid) : ChannelGrid := { grid with step := 1 }

end ChannelGrid

/-- The 20 MHz channels of the 5 GHz classes. -/
def fiveGhzGrids : List ChannelGrid :=
  [⟨115, 36, 48, 4, 5000⟩, ⟨118, 52, 64, 4, 5000⟩, ⟨121, 100, 144, 4, 5000⟩, ⟨125, 149, 177, 4, 5000⟩]

/-- Those of the other classes; channel 14 is at 2484 MHz, channel 2 of class 136 at 5935. -/
def otherGrids : List ChannelGrid :=
  [⟨81, 1, 13, 1, 2407⟩, ⟨82, 14, 14, 1, 2414⟩, ⟨131, 1, 233, 4, 5950⟩, ⟨136, 2, 2, 1, 5925⟩]

/-- The 20 MHz channels of the global operating classes. -/
def channelGrids : List ChannelGrid := otherGrids ++ fiveGhzGrids

/-- The channels the code knows: at 5 GHz it asks for no distance. -/
def codedGrids : List ChannelGrid := otherGrids ++ fiveGhzGrids.map ChannelGrid.filled

/-! ## The grids of the code -/

/-- A spec is read back as its class and its channel. -/
theorem channelSpec_inj {c n c' n' : ℤ} (h : channelSpec c n = channelSpec c' n') :
    c = c' ∧ n = n' := by
  have hslash : ∀ n : ℤ, '/' ∉ ofInt n := notMem_ofInt (by decide) (by decide)
  have hcut := congrArg (partition '/') h
  rw [channelSpec, channelSpec, partition_append (hslash c), partition_append (hslash c')] at hcut
  simp only [Prod.mk.injEq, true_and] at hcut
  exact ⟨ofInt_injective hcut.1, ofInt_injective hcut.2⟩

/-- The class decides about the grid. -/
theorem grid_of_class : ∀ grid ∈ codedGrids, ∀ grid' ∈ codedGrids,
    grid.operatingClass = grid'.operatingClass → grid = grid' := by
  simp [codedGrids, otherGrids, fiveGhzGrids, ChannelGrid.filled]

/-- What the loop returns is a class that has the channel between its ends. -/
theorem mem_of_findClass {channel : ℤ} {spec : Text} {classes : List (ℤ × ℤ × ℤ)}
    (h : findClass channel classes = some spec) :
    ∃ c low high, (c, low, high) ∈ classes ∧ low ≤ channel ∧ channel ≤ high ∧
      spec = channelSpec c channel := by
  induction classes with
  | nil => cases h
  | cons first classes ih =>
    obtain ⟨c, low, high⟩ := first
    rw [findClass] at h
    split_ifs at h with hrange
    · exact ⟨c, low, high, by simp, hrange.1, hrange.2, (Option.some.inj h).symm⟩
    · obtain ⟨c', low', high', hmem, hspec⟩ := ih h
      exact ⟨c', low', high', List.mem_cons_of_mem _ hmem, hspec⟩

/-- The loop finds the class of a channel between its ends. -/
theorem findClass_of_has {grid : ChannelGrid} (hgrid : grid ∈ fiveGhzGrids) {channel : ℤ}
    (h : grid.filled.Has channel) :
    findClass channel fiveGhzClasses = some (channelSpec grid.operatingClass channel) := by
  obtain ⟨hfirst, hlast, -⟩ := h
  simp only [fiveGhzGrids, List.mem_cons, List.not_mem_nil, or_false] at hgrid
  simp only [findClass, fiveGhzClasses]
  rcases hgrid with rfl | rfl | rfl | rfl <;> simp only [ChannelGrid.filled] at hfirst hlast
  · rw [if_pos (by omega)]
  · rw [if_neg (by omega), if_pos (by omega)]
  · rw [if_neg (by omega), if_neg (by omega), if_pos (by omega)]
  · rw [if_neg (by omega), if_neg (by omega), if_neg (by omega), if_pos (by omega)]

/-- The centre of a channel is given its spec. -/
theorem dppChannel_centre {grid : ChannelGrid} (hgrid : grid ∈ codedGrids) {channel frequency : ℤ}
    (h : grid.Has channel) (hcentre : frequency = grid.centre channel) :
    dppChannel frequency = some (channelSpec grid.operatingClass channel) := by
  unfold dppChannel sixGhzChannel
  rcases List.mem_append.mp hgrid with hother | hfive
  · obtain ⟨hfirst, hlast, hstep⟩ := h
    simp only [otherGrids, List.mem_cons, List.not_mem_nil, or_false] at hother
    rcases hother with rfl | rfl | rfl | rfl <;>
      simp only [ChannelGrid.centre] at hfirst hlast hstep hcentre
    · have hchannel : (frequency - 2412) / 5 + 1 = channel := by omega
      rw [if_pos (by omega), hchannel]
    · obtain rfl : channel = 14 := by omega
      rw [if_neg (by omega), if_pos (by omega)]
      rfl
    · have hchannel : (frequency - 5950) / 5 = channel := by omega
      rw [if_neg (by omega), if_neg (by omega), if_neg (by omega), if_neg (by omega),
        if_pos (by omega), hchannel]
    · obtain rfl : channel = 2 := by omega
      rw [if_neg (by omega), if_neg (by omega), if_neg (by omega), if_pos (by omega)]
      rfl
  · obtain ⟨five, hmem, rfl⟩ := List.mem_map.mp hfive
    have hends : five.base = 5000 ∧ 36 ≤ five.first ∧ five.last ≤ 177 := by
      simp only [fiveGhzGrids, List.mem_cons, List.not_mem_nil, or_false] at hmem
      rcases hmem with rfl | rfl | rfl | rfl <;> decide
    have hfirst : five.first ≤ channel := h.1
    have hlast : channel ≤ five.last := h.2.1
    rw [ChannelGrid.centre, ChannelGrid.filled, hends.1] at hcentre
    have hchannel : (frequency - 5000) / 5 = channel := by omega
    rw [if_neg (by omega), if_neg (by omega), if_pos (by omega), hchannel, findClass_of_has hmem h]
    rfl

/-- **What the function answers**: the channels of the grids the code has, at their
centres, and nothing at any other frequency. -/
theorem dppChannel_eq_some {frequency : ℤ} {spec : Text} :
    dppChannel frequency = some spec ↔ ∃ grid ∈ codedGrids, ∃ channel, grid.Has channel ∧
      frequency = grid.centre channel ∧ spec = channelSpec grid.operatingClass channel := by
  constructor
  · intro h
    have hsix : sixGhzChannel frequency = some spec → ∃ grid ∈ codedGrids, ∃ channel,
        grid.Has channel ∧ frequency = grid.centre channel ∧
          spec = channelSpec grid.operatingClass channel := by
      intro h
      unfold sixGhzChannel at h
      split_ifs at h with h136 h131
      · refine ⟨⟨136, 2, 2, 1, 5925⟩, by simp [codedGrids, otherGrids], 2, by decide, h136, ?_⟩
        exact (Option.some.inj h).symm
      · refine ⟨⟨131, 1, 233, 4, 5950⟩, by simp [codedGrids, otherGrids], (frequency - 5950) / 5,
          ?_, ?_, (Option.some.inj h).symm⟩
        · simp only [ChannelGrid.Has]
          omega
        · simp only [ChannelGrid.centre]
          omega
    unfold dppChannel at h
    split_ifs at h with h81 h82 h5
    · refine ⟨⟨81, 1, 13, 1, 2407⟩, by simp [codedGrids, otherGrids], (frequency - 2412) / 5 + 1,
        ?_, ?_, (Option.some.inj h).symm⟩
      · simp only [ChannelGrid.Has]
        omega
      · simp only [ChannelGrid.centre]
        omega
    · refine ⟨⟨82, 14, 14, 1, 2414⟩, by simp [codedGrids, otherGrids], 14, by decide, h82, ?_⟩
      exact (Option.some.inj h).symm
    · split at h
      · rename_i found hfound
        obtain rfl := Option.some.inj h
        obtain ⟨c, low, high, hmem, hlow, hhigh, rfl⟩ := mem_of_findClass hfound
        -- the classes of the loop are the grids, but for their distance
        have hclass : ⟨c, low, high, 1, 5000⟩ ∈ fiveGhzGrids.map ChannelGrid.filled := by
          simp only [fiveGhzClasses, List.mem_cons, List.not_mem_nil, or_false] at hmem
          rcases hmem with hmem | hmem | hmem | hmem <;> cases hmem <;>
            simp [fiveGhzGrids, ChannelGrid.filled]
        refine ⟨_, List.mem_append_right _ hclass, (frequency - 5000) / 5, ?_, ?_, rfl⟩
        · exact ⟨hlow, hhigh, Int.emod_one _⟩
        · simp only [ChannelGrid.centre]
          omega
      · exact hsix h
    · exact hsix h
  · rintro ⟨grid, hgrid, channel, hhas, hcentre, rfl⟩
    exact dppChannel_centre hgrid hhas hcentre

/-! ## The 20 MHz channels -/

/-- The frequency is the centre of a 20 MHz channel of a global operating class. -/
def IsChannel (operatingClass channel frequency : ℤ) : Prop :=
  ∃ grid ∈ channelGrids, grid.operatingClass = operatingClass ∧ grid.Has channel ∧
    frequency = grid.centre channel

/-- What is asked of `dpp_channel` at a frequency: the spec of the 20 MHz channel whose
centre it is, and `None` if it is the centre of none. -/
def ChannelMeets (frequency : ℤ) : Prop :=
  ∀ spec, dppChannel frequency = some spec ↔
    ∃ c n, IsChannel c n frequency ∧ spec = channelSpec c n

/-- A frequency between two channel centres of a 5 GHz class, on a multiple of 5 MHz. -/
def BetweenCentres (frequency : ℤ) : Prop :=
  ∃ grid ∈ fiveGhzGrids, ∃ n, grid.first ≤ n ∧ n ≤ grid.last ∧ (n - grid.first) % grid.step ≠ 0 ∧
    frequency = grid.centre n

/-- A 20 MHz channel is on a grid of the code. -/
theorem IsChannel.coded {c n frequency : ℤ} (h : IsChannel c n frequency) :
    ∃ grid ∈ codedGrids, grid.Has n ∧ frequency = grid.centre n ∧ grid.operatingClass = c := by
  obtain ⟨grid, hgrid, hclass, hhas, hcentre⟩ := h
  rcases List.mem_append.mp hgrid with hother | hfive
  · exact ⟨grid, List.mem_append_left _ hother, hhas, hcentre, hclass⟩
  · exact ⟨grid.filled, List.mem_append_right _ (List.mem_map_of_mem hfive),
      ⟨hhas.1, hhas.2.1, Int.emod_one _⟩, hcentre, hclass⟩

/-- No other frequency has the spec. -/
theorem dppChannel_inj {frequency frequency' : ℤ} {spec : Text}
    (h : dppChannel frequency = some spec) (h' : dppChannel frequency' = some spec) :
    frequency = frequency' := by
  obtain ⟨grid, hgrid, channel, -, rfl, hspec⟩ := dppChannel_eq_some.mp h
  obtain ⟨grid', hgrid', channel', -, rfl, hspec'⟩ := dppChannel_eq_some.mp h'
  obtain ⟨hclass, rfl⟩ := channelSpec_inj (hspec.symm.trans hspec')
  rw [grid_of_class grid hgrid grid' hgrid' hclass]

/-- Between two centres the function answers all the same, with a number that is no
20 MHz channel of the class. -/
theorem BetweenCentres.not_meets {frequency : ℤ} (h : BetweenCentres frequency) :
    ¬ ChannelMeets frequency := by
  obtain ⟨grid, hgrid, channel, hfirst, hlast, hstep, hcentre⟩ := h
  intro hmeets
  have hcoded : grid.filled ∈ codedGrids := List.mem_append_right _ (List.mem_map_of_mem hgrid)
  have hanswer := dppChannel_centre hcoded ⟨hfirst, hlast, Int.emod_one _⟩ hcentre
  obtain ⟨c, n, ⟨grid', hgrid', hclass, hhas, -⟩, hspec⟩ := (hmeets _).mp hanswer
  obtain ⟨hclass', rfl⟩ := channelSpec_inj hspec
  -- the class decides about the grid, so the channel would be on it
  have hsame : ∀ g ∈ fiveGhzGrids, ∀ g' ∈ channelGrids, g.operatingClass = g'.operatingClass →
      g = g' := by
    simp [fiveGhzGrids, channelGrids, otherGrids]
  rw [← hsame grid hgrid grid' hgrid' (hclass'.trans hclass.symm)] at hhas
  exact hstep hhas.2.2

/-- **Exactly when `dpp_channel` answers as it has to**: at every frequency that is not
between two channel centres of a 5 GHz class; and no two frequencies share a spec. -/
theorem dppChannel_iff (frequency : ℤ) :
    (ChannelMeets frequency ↔ ¬ BetweenCentres frequency) ∧
      ∀ frequency' spec, dppChannel frequency = some spec →
        dppChannel frequency' = some spec → frequency = frequency' := by
  refine ⟨⟨fun hmeets hbetween => hbetween.not_meets hmeets, ?_⟩,
    fun frequency' spec => dppChannel_inj⟩
  intro hbetween spec
  rw [dppChannel_eq_some]
  constructor
  · rintro ⟨grid, hgrid, channel, hhas, hcentre, rfl⟩
    refine ⟨grid.operatingClass, channel, ?_, rfl⟩
    rcases List.mem_append.mp hgrid with hother | hfive
    · exact ⟨grid, List.mem_append_left _ hother, rfl, hhas, hcentre⟩
    · obtain ⟨five, hmem, rfl⟩ := List.mem_map.mp hfive
      have hstep : (channel - five.first) % five.step = 0 := by
        by_contra hstep
        exact hbetween ⟨five, hmem, channel, hhas.1, hhas.2.1, hstep, hcentre⟩
      exact ⟨five, List.mem_append_right _ hmem, rfl, ⟨hhas.1, hhas.2.1, hstep⟩, hcentre⟩
  · rintro ⟨c, n, hchannel, rfl⟩
    obtain ⟨grid, hgrid, hhas, hcentre, rfl⟩ := hchannel.coded
    exact ⟨grid, hgrid, n, hhas, hcentre, rfl⟩

/-- Between the channels 36 and 40. -/
theorem between_centres_answered : ¬ ∀ frequency, ChannelMeets frequency := by
  intro h
  have hbetween : BetweenCentres 5185 :=
    ⟨⟨115, 36, 48, 4, 5000⟩, by simp [fiveGhzGrids], 37, by decide⟩
  exact hbetween.not_meets (h 5185)

end WpaCtrl
