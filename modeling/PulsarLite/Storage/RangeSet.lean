import Mathlib.Data.Prod.Lex
import PulsarLite.Library.OrderedSet

/-!
# The coalescing range set of the managed ledger

Transcription of `range_set.rs`. A set of keys is stored as inclusive
`(start, end)` pairs in an ordered tree, and an insertion merges every stored
range that intersects the new one or is adjacent to it. The bounds of a range
are compared by the key's full order, while adjacency is the key's own
successor, so the results below are relative to the keys a caller asks about.
-/

namespace PulsarLite.Storage

open Library Option OrderedSet

/-- The successor used for the adjacency test; `none` is overflow. -/
class Succ (K : Type*) where
  succ : K → Option K

abbrev Range (K : Type*) := K ×ₗ K

namespace Range

variable {K : Type*}

def start (range : Range K) : K := (ofLex range).1

def stop (range : Range K) : K := (ofLex range).2

@[simp] theorem start_mk (start stop : K) : Range.start (toLex (start, stop)) = start := rfl

@[simp] theorem stop_mk (start stop : K) : Range.stop (toLex (start, stop)) = stop := rfl

variable [LinearOrder K] (left right : Range K)

theorem lt_iff : left < right ↔ left.start < right.start ∨
      left.start = right.start ∧ left.stop < right.stop :=
  Prod.Lex.lt_iff

theorem le_iff : left ≤ right ↔ left.start < right.start ∨
      left.start = right.start ∧ left.stop ≤ right.stop :=
  Prod.Lex.le_iff

theorem start_le {left right : Range K} (ordered : left ≤ right) : left.start ≤ right.start := by
  obtain before | same := (le_iff left right).mp ordered
  · exact before.le
  · exact same.1.le

end Range

structure RangeSet (K : Type*) [LinearOrder K] where
  ranges : OrderedSet (Range K)
deriving DecidableEq

namespace RangeSet

section

variable {K : Type*} [LinearOrder K]

def empty : RangeSet K where
  ranges := .empty

def isEmpty (set : RangeSet K) : Bool := set.ranges.elements.isEmpty

/-- The two probes of the source: the last range at or below `(pos, pos)`, and
the first one at or above it, which finds a longer range starting at `pos`. -/
def contains (set : RangeSet K) (pos : K) : Bool :=
  (match set.ranges.lastAtMost (toLex (pos, pos)) with
    | some range => decide (range.start ≤ pos ∧ pos ≤ range.stop)
    | none => false) ||
  (match set.ranges.firstAtLeast (toLex (pos, pos)) with
    | some range => decide (range.start = pos)
    | none => false)

/-- Unlike `contains`, the first probe does not compare `pos` with the end of
the range it finds. -/
def takeCovering (set : RangeSet K) (pos : K) : Option (K × RangeSet K) :=
  let startsAt : Option (K × RangeSet K) :=
    match set.ranges.firstAtLeast (toLex (pos, pos)) with
    | some range =>
      if range.start = pos then some (range.stop, { ranges := set.ranges.erase range })
      else none
    | none => none
  match set.ranges.lastAtMost (toLex (pos, pos)) with
  | some range =>
    if range.start ≤ pos then some (range.stop, { ranges := set.ranges.erase range })
    else startsAt
  | none => startsAt

variable [Succ K]

def mergeLimit (stop : K) : K := (Succ.succ stop).getD stop

/-- The merge loop of `insert_range`. Every pass erases one stored range, so the
number of stored ranges bounds the passes. -/
def mergeRight : Nat → OrderedSet (Range K) → K → K → OrderedSet (Range K) × K × K
  | 0, ranges, start, stop => (ranges, start, stop)
  | fuel + 1, ranges, start, stop =>
    match (ranges.firstAtLeast (toLex (start, start))).filter
        (fun range => decide (range.start ≤ mergeLimit stop)) with
    | none => (ranges, start, stop)
    | some range =>
      mergeRight fuel (ranges.erase range)
        (if range.start < start then range.start else start)
        (if stop < range.stop then range.stop else stop)

def mergeLeft (ranges : OrderedSet (Range K)) (start stop : K) : RangeSet K :=
  match ranges.lastAtMost (toLex (start, start)) with
  | some range =>
    if Succ.succ range.stop = some start then
      { ranges := (ranges.erase range).insert (toLex (range.start, stop)) }
    else { ranges := ranges.insert (toLex (start, stop)) }
  | none => { ranges := ranges.insert (toLex (start, stop)) }

variable (set : RangeSet K)

def insertRange (start stop : K) : RangeSet K :=
  if stop < start then set
  else
    let merged := mergeRight set.ranges.elements.length set.ranges start stop
    mergeLeft merged.1 merged.2.1 merged.2.2

def insert (pos : K) : RangeSet K :=
  if set.contains pos then set else set.insertRange pos pos

end

variable {K : Type*} [LinearOrder K]

def Covers (ranges : OrderedSet (Range K)) (pos : K) : Prop :=
  ∃ range ∈ ranges, range.start ≤ pos ∧ pos ≤ range.stop

variable [Succ K]

/-- Disjoint and non-adjacent, in the order of the tree. -/
structure Normalised (ranges : OrderedSet (Range K)) : Prop where
  ordered : ∀ range ∈ ranges, range.start ≤ range.stop
  separated : ∀ left ∈ ranges, ∀ right ∈ ranges, left < right →
    left.stop < right.start ∧ Succ.succ left.stop ≠ some right.start

/-- Keys among which the successor leaves no gap. -/
structure Gapless (K : Type*) [LinearOrder K] [Succ K] (valid : K → Prop) : Prop where
  succ_valid : ∀ key next, valid key → Succ.succ key = some next → valid next
  succ_lt : ∀ key next, valid key → Succ.succ key = some next → key < next
  succ_le : ∀ key next other, valid key → Succ.succ key = some next →
    valid other → key < other → next ≤ other

theorem normalised_empty : Normalised (.empty : OrderedSet (Range K)) where
  ordered := by simp
  separated := by simp

theorem Normalised.subset {ranges smaller : OrderedSet (Range K)} (normalised : Normalised ranges)
    (subset : ∀ range ∈ smaller, range ∈ ranges) : Normalised smaller where
  ordered range member := normalised.ordered range (subset range member)
  separated left leftMember right rightMember before :=
    normalised.separated left (subset left leftMember) right (subset right rightMember) before

variable {ranges : OrderedSet (Range K)} {pos : K}

theorem Normalised.unique (normalised : Normalised ranges) {left right : Range K}
    (leftMember : left ∈ ranges)
    (rightMember : right ∈ ranges) (leftCovers : left.start ≤ pos ∧ pos ≤ left.stop)
    (rightCovers : right.start ≤ pos ∧ pos ≤ right.stop) : left = right := by
  obtain before | same | after := lt_trichotomy left right
  · have apart := (normalised.separated left leftMember right rightMember before).1
    exact absurd (leftCovers.2.trans_lt (apart.trans_le rightCovers.1)) (lt_irrefl pos)
  · exact same
  · have apart := (normalised.separated right rightMember left leftMember after).1
    exact absurd (rightCovers.2.trans_lt (apart.trans_le leftCovers.1)) (lt_irrefl pos)

theorem last_at_most_covering {range : Range K} (normalised : Normalised ranges)
    (member : range ∈ ranges) (below : range ≤ toLex (pos, pos)) (reaches : pos ≤ range.stop) :
    ranges.lastAtMost (toLex (pos, pos)) = some range := by
  cases found : ranges.lastAtMost (toLex (pos, pos)) with
  | none => exact absurd below (not_le.mpr (last_at_most_none found range member))
  | some last =>
    obtain ⟨lastMember, lastBelow, greatest⟩ := last_at_most_some found
    obtain before | rfl := (greatest range member below).lt_or_eq
    · have apart := (normalised.separated range member last lastMember before).1
      exact absurd (reaches.trans_lt (apart.trans_le (Range.start_le lastBelow))) (lt_irrefl pos)
    · rfl

variable {set : RangeSet K}

theorem contains_iff (normalised : Normalised set.ranges) (pos : K) :
    set.contains pos = true ↔ Covers set.ranges pos := by
  constructor
  · intro hit
    rw [contains, Bool.or_eq_true] at hit
    obtain hit | hit := hit
    · cases found : set.ranges.lastAtMost (toLex (pos, pos)) with
      | none => simp [found] at hit
      | some range =>
        simp only [found, decide_eq_true_eq] at hit
        exact ⟨range, (last_at_most_some found).1, hit⟩
    cases found : set.ranges.firstAtLeast (toLex (pos, pos)) with
    | none => simp [found] at hit
    | some range =>
      simp only [found, decide_eq_true_eq] at hit
      have member := (first_at_least_some found).1
      exact ⟨range, member, hit.le, hit ▸ normalised.ordered range member⟩
  rintro ⟨range, member, covers⟩
  rw [contains, Bool.or_eq_true]
  by_cases below : range ≤ toLex (pos, pos)
  · left
    rw [last_at_most_covering normalised member below covers.2]
    simpa using covers
  · right
    have starts : range.start = pos := by
      rw [Range.le_iff, not_or] at below
      exact le_antisymm covers.1 (not_lt.mp below.1)
    cases found : set.ranges.firstAtLeast (toLex (pos, pos)) with
    | none =>
      exact absurd (first_at_least_none found range member) (not_lt.mpr (not_le.mp below).le)
    | some first =>
      obtain ⟨firstMember, firstAbove, least⟩ := first_at_least_some found
      have notAfter : first ≤ range := least range member (not_le.mp below).le
      have firstStart : first.start = pos :=
        le_antisymm ((Range.start_le notAfter).trans starts.le) (Range.start_le firstAbove)
      simpa using firstStart

/-- What the merge loop leaves behind: the start is unchanged, the end has grown
to the end of the last swallowed range, and every remaining range lies before the
start or beyond the adjacency limit. -/
structure MergedRight (valid : K → Prop) (ranges : OrderedSet (Range K)) (start stop : K)
    (result : OrderedSet (Range K) × K × K) : Prop where
  start_eq : result.2.1 = start
  stop_le : stop ≤ result.2.2
  stop_source : result.2.2 = stop ∨ ∃ range ∈ ranges, range.stop = result.2.2
  subset : ∀ range ∈ result.1, range ∈ ranges
  clear : ∀ range ∈ result.1, range.start < start ∨ mergeLimit result.2.2 < range.start
  covers : ∀ pos, valid pos →
    (Covers result.1 pos ∨ start ≤ pos ∧ pos ≤ result.2.2 ↔
      Covers ranges pos ∨ start ≤ pos ∧ pos ≤ stop)

variable {range : Range K}

theorem below_probe_start (normalised : Normalised ranges) (member : range ∈ ranges)
    (below : range < toLex (pos, pos)) : range.start < pos := by
  obtain before | ⟨same, ends⟩ := (Range.lt_iff range _).mp below
  · exact before
  · exact (normalised.ordered range member).trans_lt ends

variable {valid : K → Prop} {start stop : K}

theorem MergedRight.refl
    (clear : ∀ range ∈ ranges, range.start < start ∨ mergeLimit stop < range.start) :
    MergedRight valid ranges start stop (ranges, start, stop) where
  start_eq := rfl
  stop_le := le_refl _
  stop_source := .inl rfl
  subset _ member := member
  clear := clear
  covers _ _ := Iff.rfl

/-- A pass swallows the first range from the start on, if it is adjacent. Otherwise all
ranges from the start on are beyond the limit. -/
theorem merge_right_pass (ranges : OrderedSet (Range K)) (fuel : Nat) (start stop : K) :
    (∃ range ∈ ranges, start ≤ range.start ∧ range.start ≤ mergeLimit stop ∧
      mergeRight (fuel + 1) ranges start stop = mergeRight fuel (ranges.erase range) start
        (if stop < range.stop then range.stop else stop)) ∨
    mergeRight (fuel + 1) ranges start stop = (ranges, start, stop) ∧ (Normalised ranges →
      ∀ range ∈ ranges, range.start < start ∨ mergeLimit stop < range.start) := by
  cases found : ranges.firstAtLeast (toLex (start, start)) with
  | none =>
    refine .inr ⟨by simp [mergeRight, found], fun normalised range member => .inl ?_⟩
    exact below_probe_start normalised member (first_at_least_none found range member)
  | some range =>
    obtain ⟨member, above, least⟩ := first_at_least_some found
    have notBefore : start ≤ range.start := Range.start_le above
    by_cases adjacent : range.start ≤ mergeLimit stop
    · refine .inl ⟨range, member, notBefore, adjacent, ?_⟩
      simp [mergeRight, found, filter_some, adjacent, not_lt.mpr notBefore]
    refine .inr ⟨by simp [mergeRight, found, filter_some, adjacent], ?_⟩
    intro normalised other otherMember
    obtain below | beyond := lt_or_ge other (toLex (start, start))
    · exact .inl (below_probe_start normalised otherMember below)
    · exact .inr ((not_le.mp adjacent).trans_le (Range.start_le (least other otherMember beyond)))

/-- No gap opens between the growing range and the range it swallows: a key past
the old end is at least the adjacency limit, hence inside the swallowed range. -/
theorem covers_erase_merge (gapless : Gapless K valid) (stopValid : valid stop)
    (member : range ∈ ranges) (notBefore : start ≤ range.start)
    (adjacent : range.start ≤ mergeLimit stop) (pos : K) (posValid : valid pos) :
    (Covers (ranges.erase range) pos ∨
        start ≤ pos ∧ pos ≤ (if stop < range.stop then range.stop else stop)) ↔
      (Covers ranges pos ∨ start ≤ pos ∧ pos ≤ stop) := by
  have grown bound : bound ≤ (if stop < range.stop then range.stop else stop) ↔
      bound ≤ stop ∨ bound ≤ range.stop := by
    split_ifs with longer
    · exact ⟨.inr, fun either => either.elim (fun within => within.trans longer.le) id⟩
    · exact ⟨.inl, fun either => either.elim id (fun within => within.trans (not_lt.mp longer))⟩
  rw [grown]
  constructor
  · rintro (⟨other, otherMember, covers⟩ | ⟨low, high | high⟩)
    · exact .inl ⟨other, ((mem_erase range other ranges).mp otherMember).2, covers⟩
    · exact .inr ⟨low, high⟩
    obtain within | beyond := le_or_gt pos stop
    · exact .inr ⟨low, within⟩
    refine .inl ⟨range, member, ?_, high⟩
    cases next : Succ.succ stop with
    | none =>
      rw [mergeLimit, next] at adjacent
      exact adjacent.trans beyond.le
    | some limit =>
      rw [mergeLimit, next] at adjacent
      exact adjacent.trans (gapless.succ_le stop limit pos stopValid next posValid beyond)
  · rintro (⟨other, otherMember, covers⟩ | ⟨low, high⟩)
    · by_cases same : other = range
      · subst same
        exact .inr ⟨notBefore.trans covers.1, .inr covers.2⟩
      · exact .inl ⟨other, (mem_erase range other ranges).mpr ⟨same, otherMember⟩, covers⟩
    · exact .inr ⟨low, .inl high⟩

theorem merge_right_spec (gapless : Gapless K valid) (fuel : Nat) (ranges : OrderedSet (Range K))
    (start stop : K) (enough : ranges.elements.length ≤ fuel) (normalised : Normalised ranges)
    (stopsValid : ∀ range ∈ ranges, valid range.stop) (stopValid : valid stop) :
    MergedRight valid ranges start stop (mergeRight fuel ranges start stop) := by
  induction fuel generalizing ranges stop with
  | zero =>
    refine .refl fun range member => ?_
    have positive := List.length_pos_of_mem member
    omega
  | succ fuel ih =>
    rcases merge_right_pass ranges fuel start stop with
      ⟨range, member, notBefore, adjacent, unfolded⟩ | ⟨same, clear⟩
    · have shorter := erase_length member
      have inside : ∀ other ∈ ranges.erase range, other ∈ ranges := fun other otherMember =>
        ((mem_erase range other ranges).mp otherMember).2
      have step := ih (ranges.erase range) (if stop < range.stop then range.stop else stop)
        (by omega) (normalised.subset inside)
        (fun other otherMember => stopsValid other (inside other otherMember))
        (by split_ifs <;> [exact stopsValid range member; exact stopValid])
      rw [unfolded]
      exact {
        start_eq := step.start_eq
        stop_le := by
          refine le_trans ?_ step.stop_le
          split_ifs with longer
          · exact longer.le
          · exact le_refl _
        stop_source := by
          obtain same | ⟨other, otherMember, same⟩ := step.stop_source
          · rw [same]
            split_ifs
            · exact .inr ⟨range, member, rfl⟩
            · exact .inl rfl
          · exact .inr ⟨other, inside other otherMember, same⟩
        subset other otherMember := inside other (step.subset other otherMember)
        clear := step.clear
        covers pos posValid := (step.covers pos posValid).trans
          (covers_erase_merge gapless stopValid member notBefore adjacent pos posValid) }
    · rw [same]
      exact .refl (clear normalised)

/-- The set after an insertion: normalised again, covering exactly the old keys
and the new ones, with every new bound taken from an old range or the argument. -/
structure Inserted (valid : K → Prop) (before : OrderedSet (Range K)) (start stop : K)
    (after : OrderedSet (Range K)) : Prop where
  normalised : Normalised after
  covers : ∀ pos, valid pos →
    (Covers after pos ↔ Covers before pos ∨ start ≤ pos ∧ pos ≤ stop)
  bounds : ∀ range ∈ after, range ∈ before ∨
    range.start ≤ start ∧ stop ≤ range.stop ∧
      (range.start = start ∨ ∃ old ∈ before, old.start = range.start ∧
        Succ.succ old.stop = some start) ∧
      (range.stop = stop ∨ ∃ old ∈ before, old.stop = range.stop)

theorem normalised_insert (normalised : Normalised ranges) (ordered : start ≤ stop)
    (clear : ∀ range ∈ ranges, range.stop < start ∧ Succ.succ range.stop ≠ some start ∨
        stop < range.start ∧ Succ.succ stop ≠ some range.start) :
    Normalised (ranges.insert (toLex (start, stop))) := by
  constructor
  · intro range member
    obtain rfl | member := (mem_insert _ range ranges).mp member
    · exact ordered
    · exact normalised.ordered range member
  intro left leftMember right rightMember before
  rcases (mem_insert _ left ranges).mp leftMember with rfl | leftOld <;>
    obtain rfl | rightOld := (mem_insert _ right ranges).mp rightMember
  · exact absurd before (lt_irrefl _)
  · obtain ⟨ends, _⟩ | after := clear right rightOld
    · have starts := (normalised.ordered right rightOld).trans_lt ends
      obtain later | tie := (Range.lt_iff _ right).mp before
      · exact absurd later (not_lt.mpr starts.le)
      · exact absurd tie.1 starts.ne'
    · exact after
  · obtain ends | ⟨after, _⟩ := clear left leftOld
    · exact ends
    · have starts := ordered.trans_lt after
      obtain earlier | tie := (Range.lt_iff left _).mp before
      · exact absurd earlier (not_lt.mpr starts.le)
      · exact absurd tie.1 starts.ne'
  · exact normalised.separated left leftOld right rightOld before

theorem beyond_limit (gapless : Gapless K valid) {stop other : K} (stopValid : valid stop)
    (beyond : mergeLimit stop < other) :
    stop < other ∧ Succ.succ stop ≠ some other := by
  cases next : Succ.succ stop with
  | none =>
    rw [mergeLimit, next] at beyond
    exact ⟨beyond, by simp⟩
  | some limit =>
    rw [mergeLimit, next] at beyond
    refine ⟨(gapless.succ_lt stop limit stopValid next).trans beyond, ?_⟩
    intro same
    exact beyond.ne (some.inj same)

omit [Succ K] in
theorem covers_insert (ranges : OrderedSet (Range K)) (start stop pos : K) :
    Covers (ranges.insert (toLex (start, stop))) pos ↔
      Covers ranges pos ∨ start ≤ pos ∧ pos ≤ stop := by
  constructor
  · rintro ⟨range, member, covers⟩
    obtain rfl | member := (mem_insert _ range ranges).mp member
    · exact .inr covers
    · exact .inl ⟨range, member, covers⟩
  · rintro (⟨range, member, covers⟩ | covers)
    · exact ⟨range, (mem_insert _ range ranges).mpr (.inr member), covers⟩
    · exact ⟨_, (mem_insert _ _ ranges).mpr (.inl rfl), covers⟩

/-- The left merge, given the state the merge loop leaves behind. The range just
below the start is the only candidate for adjacency: an earlier one ends before
that range begins. -/
theorem merge_left_spec (gapless : Gapless K valid) (normalised : Normalised ranges)
    (stopsValid : ∀ range ∈ ranges, valid range.stop) (ordered : start ≤ stop)
    (stopValid : valid stop)
    (clear : ∀ range ∈ ranges, range.stop < start ∨ mergeLimit stop < range.start) :
    Inserted valid ranges start stop (mergeLeft ranges start stop).ranges := by
  have apart range (member : range ∈ ranges) : Succ.succ range.stop ≠ some start →
      range.stop < start ∧ Succ.succ range.stop ≠ some start ∨
        stop < range.start ∧ Succ.succ stop ≠ some range.start := by
    intro notAdjacent
    obtain before | beyond := clear range member
    · exact .inl ⟨before, notAdjacent⟩
    · exact .inr (beyond_limit gapless stopValid beyond)
  have plain (noneAdjacent : ∀ range ∈ ranges, Succ.succ range.stop ≠ some start) :
      Inserted valid ranges start stop (ranges.insert (toLex (start, stop))) := {
    normalised := normalised_insert normalised ordered fun range member =>
      apart range member (noneAdjacent range member)
    covers pos _ := covers_insert ranges start stop pos
    bounds range member := by
      obtain rfl | member := (mem_insert _ range ranges).mp member
      · exact .inr ⟨le_refl _, le_refl _, .inl rfl, .inl rfl⟩
      · exact .inl member }
  cases found : ranges.lastAtMost (toLex (start, start)) with
  | none =>
    have result : (mergeLeft ranges start stop).ranges =
        ranges.insert (toLex (start, stop)) := by simp [mergeLeft, found]
    rw [result]
    apply plain
    intro range member adjacent
    have starts := Range.start_le (last_at_most_none found range member).le
    have ends := gapless.succ_lt range.stop start (stopsValid range member) adjacent
    exact absurd (normalised.ordered range member) (not_le.mpr (ends.trans_le starts))
  | some last =>
    obtain ⟨lastMember, lastBelow, greatest⟩ := last_at_most_some found
    have below : ∀ range ∈ ranges, range.stop < start → range ≤ toLex (start, start) :=
      fun range member ends =>
        (Range.le_iff range _).mpr (.inl ((normalised.ordered range member).trans_lt ends))
    -- Only the last range below the start can end right before it.
    have onlyLast : ∀ range ∈ ranges, Succ.succ range.stop = some start → range = last := by
      intro range member adjacent
      have ends := gapless.succ_lt range.stop start (stopsValid range member) adjacent
      obtain before | same := (greatest range member (below range member ends)).lt_or_eq
      · have gap := (normalised.separated range member last lastMember before).1
        have reaches :=
          gapless.succ_le range.stop start last.stop (stopsValid range member) adjacent
          (stopsValid last lastMember) (gap.trans_le (normalised.ordered last lastMember))
        obtain early | beyond := clear last lastMember
        · exact absurd reaches (not_le.mpr early)
        · have late := (beyond_limit gapless stopValid beyond).1
          exact absurd (Range.start_le lastBelow) (not_le.mpr (ordered.trans_lt late))
      · exact same
    by_cases adjacent : Succ.succ last.stop = some start
    · have result : (mergeLeft ranges start stop).ranges =
          (ranges.erase last).insert (toLex (last.start, stop)) := by
        simp [mergeLeft, found, adjacent]
      have inside : ∀ range ∈ ranges.erase last, range ∈ ranges := fun range member =>
        ((mem_erase last range ranges).mp member).2
      have ends := gapless.succ_lt last.stop start (stopsValid last lastMember) adjacent
      have lastStart : last.start ≤ start := ((normalised.ordered last lastMember).trans_lt ends).le
      rw [result]
      exact {
        normalised := by
          apply normalised_insert (normalised.subset inside) (lastStart.trans ordered)
          intro range member
          obtain ⟨different, old⟩ := (mem_erase last range ranges).mp member
          obtain before | beyond := clear range old
          · exact .inl (normalised.separated range old last lastMember
              (lt_of_le_of_ne (greatest range old (below range old before)) different))
          · exact .inr (beyond_limit gapless stopValid beyond)
        covers pos posValid := by
          rw [covers_insert]
          constructor
          · rintro (⟨range, member, covers⟩ | ⟨low, high⟩)
            · exact .inl ⟨range, inside range member, covers⟩
            · obtain within | beyond := le_or_gt pos last.stop
              · exact .inl ⟨last, lastMember, low, within⟩
              · exact .inr ⟨gapless.succ_le last.stop start pos
                  (stopsValid last lastMember) adjacent posValid beyond, high⟩
          rintro (⟨range, member, covers⟩ | ⟨low, high⟩)
          · by_cases same : range = last
            · subst same
              exact .inr ⟨covers.1, covers.2.trans (ends.le.trans ordered)⟩
            · exact .inl ⟨range, (mem_erase last range ranges).mpr ⟨same, member⟩, covers⟩
          · exact .inr ⟨lastStart.trans low, high⟩
        bounds range member := by
          obtain rfl | member := (mem_insert _ range _).mp member
          · exact .inr ⟨lastStart, le_refl _, .inr ⟨last, lastMember, rfl, adjacent⟩, .inl rfl⟩
          · exact .inl (inside range member) }
    · have result : (mergeLeft ranges start stop).ranges =
          ranges.insert (toLex (start, stop)) := by simp [mergeLeft, found, adjacent]
      rw [result]
      apply plain
      intro range member next
      exact adjacent (onlyLast range member next ▸ next)

section

variable (gapless : Gapless K valid) (normalised : Normalised set.ranges)
  (stopsValid : ∀ range ∈ set.ranges, valid range.stop)
include gapless normalised stopsValid

theorem insert_range_spec (ordered : start ≤ stop) (stopValid : valid stop)
    (noOverlap : ∀ range ∈ set.ranges, range.start < start → range.stop < start) :
    Inserted valid set.ranges start stop (set.insertRange start stop).ranges := by
  have right := merge_right_spec gapless set.ranges.elements.length set.ranges start stop
    (le_refl _) normalised stopsValid stopValid
  have unfolded : set.insertRange start stop =
      mergeLeft (mergeRight set.ranges.elements.length set.ranges start stop).1 start
        (mergeRight set.ranges.elements.length set.ranges start stop).2.2 := by
    rw [insertRange, if_neg (not_lt.mpr ordered)]
    simp only [right.start_eq]
  rw [unfolded]
  generalize mergeRight set.ranges.elements.length set.ranges start stop = merged at right
  have mergedValid : valid merged.2.2 := by
    obtain same | ⟨range, member, same⟩ := right.stop_source
    · rw [same]
      exact stopValid
    · rw [← same]
      exact stopsValid range member
  have left := merge_left_spec gapless (normalised.subset right.subset)
    (fun range member => stopsValid range (right.subset range member))
    (ordered.trans right.stop_le) mergedValid (by
      intro range member
      obtain before | beyond := right.clear range member
      · exact .inl (noOverlap range (right.subset range member) before)
      · exact .inr beyond)
  exact {
    normalised := left.normalised
    covers pos posValid := (left.covers pos posValid).trans (right.covers pos posValid)
    bounds range member := by
      obtain old | ⟨starts, stops, startSource, stopSource⟩ := left.bounds range member
      · exact .inl (right.subset range old)
      refine .inr ⟨starts, right.stop_le.trans stops, ?_, ?_⟩
      · obtain same | ⟨old, oldMember, same⟩ := startSource
        · exact .inl same
        · exact .inr ⟨old, right.subset old oldMember, same⟩
      · obtain same | ⟨old, oldMember, same⟩ := stopSource
        · rw [same]
          exact right.stop_source
        · exact .inr ⟨old, right.subset old oldMember, same⟩ }

theorem insert_spec (posValid : valid pos) (absent : ¬ Covers set.ranges pos) :
    Inserted valid set.ranges pos pos (set.insert pos).ranges := by
  have missing : set.contains pos = false := by
    rw [← Bool.not_eq_true, contains_iff normalised]
    exact absent
  rw [insert, missing]
  apply insert_range_spec gapless normalised stopsValid (le_refl pos) posValid
  intro range member before
  by_contra reaches
  exact absent ⟨range, member, before.le, not_lt.mp reaches⟩

end

theorem insert_range_beyond (ordered : start ≤ stop) (beyond : ∀ range ∈ set.ranges,
      range.start ≤ range.stop ∧ range.stop < start ∧ Succ.succ range.stop ≠ some start) :
    set.insertRange start stop = { ranges := set.ranges.insert (toLex (start, stop)) } := by
  have stays : mergeRight set.ranges.elements.length set.ranges start stop =
      (set.ranges, start, stop) := by
    cases size : set.ranges.elements.length with
    | zero => rfl
    | succ fuel =>
      cases found : set.ranges.firstAtLeast (toLex (start, start)) with
      | none => simp [mergeRight, found]
      | some range =>
        obtain ⟨member, above, _⟩ := first_at_least_some found
        obtain ⟨order, ends, _⟩ := beyond range member
        exact absurd (Range.start_le above) (not_le.mpr (order.trans_lt ends))
  rw [insertRange, if_neg (not_lt.mpr ordered), stays]
  simp only [mergeLeft]
  cases found : set.ranges.lastAtMost (toLex (start, start)) with
  | none => rfl
  | some range =>
    have apart := (beyond range (last_at_most_some found).1).2.2
    simp [apart]

section

/-! A grouping of the keys that is monotone and kept by the successor, such as
the ledger of a position, is also kept by every range an insertion builds. -/

variable {β : Type*} [PartialOrder β] {block : K → β}

theorem merge_right_block (monotone : Monotone block)
    (succBlock : ∀ key next, Succ.succ key = some next → block next = block key) (fuel : Nat)
    (ranges : OrderedSet (Range K)) (start stop : K)
    (blocks : ∀ range ∈ ranges, block range.start = block range.stop)
    (same : block start = block stop) :
    (∀ range ∈ (mergeRight fuel ranges start stop).1, block range.start = block range.stop) ∧
      block (mergeRight fuel ranges start stop).2.1 =
        block (mergeRight fuel ranges start stop).2.2 := by
  induction fuel generalizing ranges start stop with
  | zero => exact ⟨blocks, same⟩
  | succ fuel ih =>
    rcases merge_right_pass ranges fuel start stop with
      ⟨range, member, notBefore, adjacent, unfolded⟩ | ⟨stays, _⟩
    · have limitBlock : block (mergeLimit stop) = block stop := by
        cases next : Succ.succ stop with
        | none => simp [mergeLimit, next]
        | some limit => simpa [mergeLimit, next] using succBlock stop limit next
      have startBlock : block range.start = block stop := by
        apply le_antisymm
        · exact (monotone adjacent).trans limitBlock.le
        · exact same.symm.le.trans (monotone notBefore)
      rw [unfolded]
      apply ih
      · intro other otherMember
        exact blocks other ((mem_erase range other ranges).mp otherMember).2
      · split_ifs
        · rw [same, ← startBlock]
          exact blocks range member
        · exact same
    · rw [stays]
      exact ⟨blocks, same⟩

omit [PartialOrder β] in
theorem merge_left_block
    (succBlock : ∀ key next, Succ.succ key = some next → block next = block key)
    (ranges : OrderedSet (Range K)) (start stop : K)
    (blocks : ∀ range ∈ ranges, block range.start = block range.stop)
    (same : block start = block stop) :
    ∀ range ∈ (mergeLeft ranges start stop).ranges, block range.start = block range.stop := by
  have plain (range : Range K) : range ∈ ranges.insert (toLex (start, stop)) →
      block range.start = block range.stop := by
    intro member
    obtain rfl | member := (mem_insert _ range ranges).mp member
    · exact same
    · exact blocks range member
  intro range
  simp only [mergeLeft]
  cases found : ranges.lastAtMost (toLex (start, start)) with
  | none => exact plain range
  | some last =>
    have lastMember := (last_at_most_some found).1
    by_cases adjacent : Succ.succ last.stop = some start
    · simp only [adjacent, if_true]
      intro member
      obtain rfl | member := (mem_insert _ range _).mp member
      · calc
          block last.start = block last.stop := blocks last lastMember
          _ = block start := (succBlock last.stop start adjacent).symm
          _ = block stop := same
      · exact blocks range ((mem_erase last range ranges).mp member).2
    · simp only [adjacent, if_false]
      exact plain range

theorem insert_range_block (monotone : Monotone block)
    (succBlock : ∀ key next, Succ.succ key = some next → block next = block key) (set : RangeSet K)
    (start stop : K) (blocks : ∀ range ∈ set.ranges, block range.start = block range.stop)
    (same : block start = block stop) :
    ∀ range ∈ (set.insertRange start stop).ranges, block range.start = block range.stop := by
  unfold insertRange
  split_ifs
  · exact blocks
  · have merged := merge_right_block monotone succBlock set.ranges.elements.length set.ranges
      start stop blocks same
    exact merge_left_block succBlock _ _ _ merged.1 merged.2

end

omit [Succ K] in
theorem take_covering_some {set : RangeSet K} {pos stop : K} {rest : RangeSet K}
    (taken : set.takeCovering pos = some (stop, rest)) :
    ∃ range ∈ set.ranges, range.start ≤ pos ∧ range.stop = stop ∧
      rest.ranges = set.ranges.erase range := by
  have viaFirst : ∀ range, set.ranges.firstAtLeast (toLex (pos, pos)) = some range →
      (if range.start = pos then
          some (range.stop, ({ ranges := set.ranges.erase range } : RangeSet K))
        else none) = some (stop, rest) →
      ∃ range ∈ set.ranges, range.start ≤ pos ∧ range.stop = stop ∧
        rest.ranges = set.ranges.erase range := by
    intro range found hit
    split_ifs at hit with starts
    obtain ⟨rfl, rfl⟩ := hit
    exact ⟨range, (first_at_least_some found).1, starts.le, rfl, rfl⟩
  unfold takeCovering at taken
  cases last : set.ranges.lastAtMost (toLex (pos, pos)) with
  | some range =>
    simp only [last] at taken
    split_ifs at taken with starts
    · obtain ⟨rfl, rfl⟩ := taken
      exact ⟨range, (last_at_most_some last).1, starts, rfl, rfl⟩
    cases first : set.ranges.firstAtLeast (toLex (pos, pos)) with
    | none => simp [first] at taken
    | some range =>
      simp only [first] at taken
      exact viaFirst range first taken
  | none =>
    simp only [last] at taken
    cases first : set.ranges.firstAtLeast (toLex (pos, pos)) with
    | none => simp [first] at taken
    | some range =>
      simp only [first] at taken
      exact viaFirst range first taken

omit [Succ K] in
theorem take_covering_none {set : RangeSet K} {pos : K}
    (missed : set.takeCovering pos = none) : ∀ range ∈ set.ranges, pos < range.start := by
  intro range member
  unfold takeCovering at missed
  cases last : set.ranges.lastAtMost (toLex (pos, pos)) with
  | some found =>
    obtain ⟨_, below, _⟩ := last_at_most_some last
    have starts : found.start ≤ pos := Range.start_le below
    simp [last, starts] at missed
  | none =>
    have above := last_at_most_none last range member
    have starts := Range.start_le above.le
    refine lt_of_le_of_ne starts ?_
    intro same
    cases first : set.ranges.firstAtLeast (toLex (pos, pos)) with
    | none => exact absurd above (not_lt.mpr (first_at_least_none first range member).le)
    | some found =>
      obtain ⟨_, foundAbove, least⟩ := first_at_least_some first
      have foundStart : found.start = pos := by
        apply le_antisymm
        · obtain before | tie := (Range.le_iff found range).mp (least range member above.le)
          · exact (before.trans_eq same.symm).le
          · exact (tie.1.trans same.symm).le
        · exact Range.start_le foundAbove
      simp [last, first, foundStart] at missed

end RangeSet

end PulsarLite.Storage
