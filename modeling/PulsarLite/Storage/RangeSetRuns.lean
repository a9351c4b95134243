import PulsarLite.Library.Runs
import PulsarLite.Storage.SharedCursor

/-!
# Range sets over whole runs

What a range set answers after any calls, for `u64` keys and for the positions of
one partition. `insert_range` does not look at a range that begins before its
start, and `take_covering` does not look at the end of the range that it takes, so
the first must not start inside a stored range, and the second must not be asked
about a key behind one.
-/

namespace PulsarLite.Storage.RangeSet

open Library

inductive Call (K : Type)
  | insertRange (start stop : K)
  | insert (pos : K)
  | takeCovering (pos : K)

/-- A range set with the keys of the inserted ranges that were not taken since. -/
structure Tracked (K : Type) [LinearOrder K] where
  set : RangeSet K
  covered : K → Prop

variable {K : Type} [LinearOrder K]

def Within (range : Range K) (pos : K) : Prop := range.start ≤ pos ∧ pos ≤ range.stop

/-- No range begins before the key, or one that does, or is just the key, reaches it. -/
def Asks (set : RangeSet K) (pos : K) : Prop :=
  (∀ range ∈ set.ranges, pos ≤ range.start) ∨
    ∃ range ∈ set.ranges, range ≤ toLex (pos, pos) ∧ pos ≤ range.stop

variable [Succ K]

theorem take_covering_last {set : RangeSet K} {range pos} (normalised : Normalised set.ranges)
    (member : range ∈ set.ranges) (below : range ≤ toLex (pos, pos)) (reaches : pos ≤ range.stop) :
    set.takeCovering pos = some (range.stop, { ranges := set.ranges.erase range }) := by
  unfold takeCovering
  rw [last_at_most_covering normalised member below reaches]
  exact if_pos (Range.start_le below)

namespace Tracked

variable {stop start key : K} {covered : K → Prop}

def new : Tracked K where
  set := empty
  covered _ := False

def step (state : Tracked K) : Call K → Tracked K
  | .insertRange start stop =>
    { set := state.set.insertRange start stop
      covered pos := state.covered pos ∨ start ≤ pos ∧ pos ≤ stop }
  | .insert key =>
    { set := state.set.insert key
      covered pos := state.covered pos ∨ pos = key }
  | .takeCovering key =>
    match state.set.takeCovering key with
    | none => state
    | some (_, rest) =>
      { set := rest
        covered pos := state.covered pos ∧
          ∀ range ∈ state.set.ranges, range ∉ rest.ranges → ¬ Within range pos }

variable (valid : K → Prop)

/-- A new range does not start inside a stored one that begins before it. -/
def Fits (state : Tracked K) : Call K → Prop
  | .insertRange start stop => valid start ∧ valid stop ∧
    (start ≤ stop → ∀ range ∈ state.set.ranges, range.start < start → range.stop < start)
  | .insert pos | .takeCovering pos => valid pos

instance [DecidablePred valid] (state : Tracked K) (call : Call K) :
    Decidable (state.Fits valid call) :=
  match call with
  | .insertRange start stop => inferInstanceAs (Decidable (_ ∧ _ ∧ (start ≤ stop →
      ∀ range ∈ state.set.ranges.elements, range.start < start → range.stop < start)))
  | .insert _ | .takeCovering _ => inferInstanceAs (Decidable (valid _))

/-- The stored ranges are apart, so the one that covers a key is the longest. -/
structure Right (state : Tracked K) : Prop where
  normalised : Normalised state.set.ranges
  contains : ∀ pos, valid pos → (state.set.contains pos = true ↔ state.covered pos)
  take : ∀ pos, Asks state.set pos →
    (state.set.takeCovering pos).isSome = state.set.contains pos ∧
      ∀ stop rest, state.set.takeCovering pos = some (stop, rest) →
        ∃ range ∈ state.set.ranges, Within range pos ∧ range.stop = stop ∧
          rest.ranges = state.set.ranges.erase range

structure Kept (state : Tracked K) : Prop where
  normalised : Normalised state.set.ranges
  stops : ∀ range ∈ state.set.ranges, valid range.stop
  covers : ∀ pos, valid pos → (Covers state.set.ranges pos ↔ state.covered pos)

variable {valid} {state : Tracked K}

theorem Kept.inserted {after : RangeSet K} (kept : state.Kept valid) (stopValid : valid stop)
    (inserted : Inserted valid state.set.ranges start stop after.ranges)
    (isCovered : ∀ pos, covered pos ↔ state.covered pos ∨ start ≤ pos ∧ pos ≤ stop) :
    Kept valid { set := after, covered := covered } where
  normalised := inserted.normalised
  stops range member := by
    obtain old | ⟨_, _, _, same | ⟨old, oldMember, same⟩⟩ := inserted.bounds range member
    · exact kept.stops range old
    · exact same ▸ stopValid
    · exact same ▸ kept.stops old oldMember
  covers pos posValid := by
    rw [inserted.covers pos posValid, kept.covers pos posValid]
    exact (isCovered pos).symm

theorem Kept.unchanged (kept : state.Kept valid)
    (same : ∀ pos, valid pos → (covered pos ↔ state.covered pos)) :
    Kept valid { state with covered := covered } where
  normalised := kept.normalised
  stops := kept.stops
  covers pos posValid := (kept.covers pos posValid).trans (same pos posValid).symm

theorem Kept.taken {rest : RangeSet K} (kept : state.Kept valid)
    (taken : state.set.takeCovering key = some (stop, rest)) :
    Kept valid { set := rest, covered pos := state.covered pos ∧
      ∀ range ∈ state.set.ranges, range ∉ rest.ranges → ¬ Within range pos } := by
  obtain ⟨range, _, _, _, erased⟩ := take_covering_some taken
  have remains other (isOther : other ∈ rest.ranges) : other ∈ state.set.ranges := by
    rw [erased, OrderedSet.mem_erase] at isOther
    exact isOther.2
  refine ⟨kept.normalised.subset remains, fun other isOther =>
    kept.stops other (remains other isOther),
    fun pos posValid => ?_⟩
  refine Iff.trans ?_ (and_congr_left' (kept.covers pos posValid))
  constructor
  · rintro ⟨other, isOther, within⟩
    refine ⟨⟨other, remains other isOther, within⟩, fun gone isGone absent inGone => absent ?_⟩
    rw [kept.normalised.unique isGone (remains other isOther) inGone within]
    exact isOther
  · rintro ⟨⟨other, isOther, within⟩, apart⟩
    by_contra uncovered
    exact apart other isOther (fun left => uncovered ⟨other, left, within⟩) within

theorem Kept.step (gapless : Gapless K valid) (kept : state.Kept valid) (call : Call K)
    (fits : state.Fits valid call) : (state.step call).Kept valid := by
  cases call with
  | insertRange start stop =>
    obtain ⟨_, stopValid, noOverlap⟩ := fits
    obtain ordered | backwards := le_or_gt start stop
    · apply kept.inserted stopValid _ fun _ => Iff.rfl
      exact insert_range_spec gapless kept.normalised kept.stops ordered stopValid
        (noOverlap ordered)
    · have same : state.set.insertRange start stop = state.set := if_pos backwards
      simp only [Tracked.step, same]
      refine kept.unchanged fun pos _ => or_iff_left fun inside => ?_
      exact absurd (inside.1.trans inside.2) (not_le.mpr backwards)
  | insert key =>
    by_cases present : Covers state.set.ranges key
    · have same : state.set.insert key = state.set :=
        if_pos ((contains_iff kept.normalised key).mpr present)
      simp only [Tracked.step, same]
      refine kept.unchanged fun pos posValid => or_iff_left_of_imp fun isPos => ?_
      exact (kept.covers pos posValid).mp (isPos ▸ present)
    · apply kept.inserted fits (insert_spec gapless kept.normalised kept.stops fits present)
      intro pos
      rw [← le_antisymm_iff, eq_comm]
  | takeCovering key =>
    simp only [Tracked.step]
    cases taken : state.set.takeCovering key with
    | none => exact kept
    | some pair => exact kept.taken taken

theorem Kept.right (kept : state.Kept valid) : state.Right valid where
  normalised := kept.normalised
  contains pos posValid := by
    rw [contains_iff kept.normalised, kept.covers pos posValid]
  take pos asks := by
    rw [Bool.eq_iff_iff, contains_iff kept.normalised]
    obtain first | ⟨range, member, below, reaches⟩ := asks
    · cases taken : state.set.takeCovering pos with
      | none =>
        refine ⟨⟨nofun, ?_⟩, nofun⟩
        rintro ⟨range, member, starts, _⟩
        exact absurd (take_covering_none taken range member) (not_lt.mpr starts)
      | some pair =>
        obtain ⟨range, member, starts, stops, erased⟩ := take_covering_some taken
        have within : Within range pos :=
          ⟨starts, (first range member).trans (kept.normalised.ordered range member)⟩
        refine ⟨⟨fun _ => ⟨range, member, within⟩, fun _ => rfl⟩, ?_⟩
        rintro stop rest ⟨⟩
        exact ⟨range, member, within, stops, erased⟩
    · have within : Within range pos := ⟨Range.start_le below, reaches⟩
      rw [take_covering_last kept.normalised member below reaches]
      refine ⟨⟨fun _ => ⟨range, member, within⟩, fun _ => rfl⟩, ?_⟩
      rintro stop rest ⟨⟩
      exact ⟨range, member, within, rfl, rfl⟩

theorem right_of_run (gapless : Gapless K valid)
    (run : Run step (Fits valid) new state) : state.Right valid := by
  apply Kept.right
  apply run.invariant
  · exact ⟨normalised_empty, by simp [new, empty], by simp [new, empty, Covers]⟩
  · intro before call kept fits
    exact kept.step gapless call fits

end Tracked

/-- Any calls on `u64` keys, and on the positions of any one partition. -/
theorem range_set_right_when_apart (numbers : Tracked Nat) (partition : Int)
    (positions : Tracked ManagedLedgerPosition)
    (numberRun : Run .step (Tracked.Fits fun _ => True) .new numbers)
    (positionRun : Run .step (Tracked.Fits fun pos => pos.partition = partition) .new positions) :
    numbers.Right (fun _ => True) ∧ positions.Right fun pos => pos.partition = partition :=
  ⟨Tracked.right_of_run gapless_nat numberRun,
    Tracked.right_of_run (ManagedLedgerPosition.gapless_partition partition) positionRun⟩

/-- Ranges that merge on both sides of a key, and a key whose range is taken. -/
def sampleCalls (key : Nat → K) : List (Call K) :=
  [.insertRange (key 0) (key 3), .insertRange (key 6) (key 8), .insert (key 5), .insert (key 4),
    .insertRange (key 20) (key 21), .takeCovering (key 7)]

def sampleKey (entryId : Nat) : ManagedLedgerPosition := ⟨7, entryId, -1⟩

theorem sample_calls_right :
    let numbers := (sampleCalls id).foldl Tracked.step .new
    let positions := (sampleCalls sampleKey).foldl Tracked.step .new
    (numbers.Right (fun _ => True) ∧ positions.Right fun pos => pos.partition = -1) ∧
    numbers.set.ranges.elements.map ofLex = [(20, 21)] ∧
    positions.set.ranges.elements.map ofLex = [(sampleKey 20, sampleKey 21)] :=
  ⟨range_set_right_when_apart _ (-1) _ (Run.of_permits (by decide))
    (Run.of_permits (by decide)), by decide, by decide⟩

/-- A range inside a stored one is stored beside it, a key behind a range takes that
range, and so does a key at the start of the next range. -/
theorem stored_ranges_overlap :
    ((empty.insertRange (0 : Nat) 10).insertRange 5 7).ranges.elements.map ofLex =
      [(0, 10), (5, 7)] ∧
    ((empty.insert (1 : Nat)).takeCovering 5).map Prod.fst = some 1 ∧
    (((empty.insert (1 : Nat)).insertRange 5 7).takeCovering 5).map Prod.fst = some 1 := by
  decide

end PulsarLite.Storage.RangeSet
