import Mathlib.Data.Finset.Card
import PulsarLite.Storage.MemoryStore

/-!
# The shared cursor in memory

A cursor covers the entries below its frontier and those of its holes. Whatever is
acknowledged, in whatever order, it holds the plain set of these entries: the mark is
at the end of the first run, and every later run is one stored range.
-/

namespace PulsarLite.Storage

open Library

theorem gapless_nat : RangeSet.Gapless Nat fun _ => True where
  succ_valid _ _ _ _ := trivial
  succ_lt key next _ found := by
    simp only [Succ.succ, Option.ite_none_right_eq_some, Option.some.injEq] at found
    omega
  succ_le key next other _ found _ beyond := by
    simp only [Succ.succ, Option.ite_none_right_eq_some, Option.some.injEq] at found
    omega

namespace SubscriptionCursor

def Acked (cursor : SubscriptionCursor) (entry : Nat) : Prop :=
  (∃ mark, cursor.markDelete = some mark ∧ entry ≤ mark) ∨
    RangeSet.Covers cursor.ackedHoles.ranges entry

/-- The holes are in normal form and above the mark, and no entry is the last `u64`. -/
structure Sound (cursor : SubscriptionCursor) : Prop where
  normal : RangeSet.Normalised cursor.ackedHoles.ranges
  above : ∀ mark, cursor.markDelete = some mark → ∀ range ∈ cursor.ackedHoles.ranges,
    mark < range.start
  words : ∀ entry, cursor.Acked entry → entry + 1 < u64Modulus

def frontier (cursor : SubscriptionCursor) : Nat := cursor.markDelete.elim 0 (· + 1)

def Tight (cursor : SubscriptionCursor) : Prop := ¬ cursor.Acked cursor.frontier

variable {cursor : SubscriptionCursor} {entry : Nat}

theorem sound_default : Sound default where
  normal := RangeSet.normalised_empty
  above := by simp [default]
  words := by simp [default, Acked, RangeSet.Covers, RangeSet.empty]

theorem acked_iff : cursor.Acked entry ↔
    entry < cursor.frontier ∨ RangeSet.Covers cursor.ackedHoles.ranges entry := by
  unfold Acked frontier
  cases cursor.markDelete with
  | none => simp
  | some mark => grind

section

variable (sound : cursor.Sound) {range : Range Nat}
include sound

theorem acknowledged_iff (entry : Nat) :
    isMessageAcknowledged (some cursor) entry = true ↔ cursor.Acked entry := by
  unfold isMessageAcknowledged Acked
  rw [Bool.or_eq_true, RangeSet.contains_iff sound.normal]
  cases cursor.markDelete with
  | none | some => simp

theorem Sound.start_acked (member : range ∈ cursor.ackedHoles.ranges) :
    cursor.Acked range.start :=
  .inr ⟨range, member, le_refl _, sound.normal.ordered range member⟩

theorem Sound.frontier_le
    (member : range ∈ cursor.ackedHoles.ranges) : cursor.frontier ≤ range.start := by
  unfold frontier
  cases marked : cursor.markDelete with
  | none => exact Nat.zero_le _
  | some mark => exact sound.above mark marked range member

theorem Sound.frontier_lt (tight : cursor.Tight)
    (member : range ∈ cursor.ackedHoles.ranges) : cursor.frontier < range.start := by
  apply lt_of_le_of_ne (sound.frontier_le member)
  intro same
  exact tight (same ▸ sound.start_acked member)

theorem Sound.mark_add_one {mark : Nat} (marked : cursor.markDelete = some mark) :
    (mark + 1) % u64Modulus = mark + 1 :=
  Nat.mod_eq_of_lt (sound.words mark (.inl ⟨mark, marked, le_refl _⟩))

theorem Sound.advance_succ (fuel : Nat) : advanceMarkDelete (fuel + 1) cursor =
      (cursor.ackedHoles.takeCovering cursor.frontier).elim cursor fun pair =>
        advanceMarkDelete fuel { markDelete := some pair.1, ackedHoles := pair.2 } := by
  rw [advanceMarkDelete, frontier]
  cases marked : cursor.markDelete with
  | none =>
    simp only [Option.elim_none]
    cases cursor.ackedHoles.takeCovering 0 <;> rfl
  | some mark =>
    simp only [sound.mark_add_one marked, Option.elim_some]
    cases cursor.ackedHoles.takeCovering (mark + 1) <;> rfl

theorem Sound.take {stop : Nat} {rest}
    (taken : cursor.ackedHoles.takeCovering cursor.frontier = some (stop, rest)) :
    Sound { markDelete := some stop, ackedHoles := rest } ∧
      ∀ entry, Acked { markDelete := some stop, ackedHoles := rest } entry ↔
        cursor.Acked entry := by
  obtain ⟨range, member, starts, rfl, left⟩ := RangeSet.take_covering_some taken
  have after := sound.frontier_le member
  have ordered := sound.normal.ordered range member
  have inRest other : other ∈ rest.ranges ↔ other ≠ range ∧ other ∈ cursor.ackedHoles.ranges := by
    rw [left, OrderedSet.mem_erase]
  have acked entry : Acked { markDelete := some range.stop, ackedHoles := rest } entry ↔
      cursor.Acked entry := by
    rw [acked_iff, acked_iff]
    constructor
    · rintro (below | ⟨other, inside, covers⟩)
      · rw [or_iff_not_imp_left]
        exact fun early => ⟨range, member, by omega, Nat.lt_succ_iff.mp below⟩
      · exact .inr ⟨other, ((inRest other).mp inside).2, covers⟩
    rintro (below | ⟨other, inside, covers⟩)
    · exact .inl (Nat.lt_succ_of_le (by omega))
    · by_cases same : other = range
      · exact .inl (Nat.lt_succ_of_le (same ▸ covers.2))
      · exact .inr ⟨other, (inRest other).mpr ⟨same, inside⟩, covers⟩
  refine ⟨⟨sound.normal.subset fun other inside => ((inRest other).mp inside).2, ?_, ?_⟩, acked⟩
  · rintro _ ⟨⟩ other inside
    obtain ⟨different, old⟩ := (inRest other).mp inside
    obtain before | behind := lt_or_gt_of_ne different
    · have apart := (sound.normal.separated other old range member before).1
      have otherAfter := sound.frontier_le old
      have otherOrdered := sound.normal.ordered other old
      omega
    · exact (sound.normal.separated range member other old behind).1
  · intro entry isAcked
    exact sound.words entry ((acked entry).mp isAcked)

end

/-- The loop ends with no hole at the frontier. -/
theorem advance_mark_delete_spec (fuel : Nat) (cursor) (sound : cursor.Sound)
    (enough : cursor.ackedHoles.ranges.elements.length ≤ fuel) :
    (advanceMarkDelete fuel cursor).Sound ∧ (advanceMarkDelete fuel cursor).Tight ∧
      ∀ entry, (advanceMarkDelete fuel cursor).Acked entry ↔ cursor.Acked entry := by
  induction fuel generalizing cursor with
  | zero =>
    have empty := List.length_eq_zero_iff.mp (Nat.le_zero.mp enough)
    refine ⟨sound, ?_, fun _ => Iff.rfl⟩
    simp [Tight, acked_iff, advanceMarkDelete, RangeSet.Covers, OrderedSet.mem_def, empty]
  | succ fuel ih =>
    rw [sound.advance_succ]
    cases taken : cursor.ackedHoles.takeCovering cursor.frontier with
    | none =>
      refine ⟨sound, ?_, fun _ => Iff.rfl⟩
      rw [Tight, acked_iff, or_iff_right (lt_irrefl _)]
      rintro ⟨range, member, starts, _⟩
      exact absurd (RangeSet.take_covering_none taken range member) (not_lt.mpr starts)
    | some pair =>
      obtain ⟨next, same⟩ := sound.take taken
      obtain ⟨range, member, _, _, left⟩ := RangeSet.take_covering_some taken
      have fewer := OrderedSet.erase_length member
      obtain ⟨final, tight, finalSame⟩ := ih _ next (by simp only [left]; omega)
      exact ⟨final, tight, fun entry => (finalSame entry).trans (same entry)⟩

section

variable (sound : cursor.Sound)
include sound

theorem Sound.with_mark (word : cursor.frontier + 1 < u64Modulus) (tight : cursor.Tight) :
    Sound { cursor with markDelete := some cursor.frontier } ∧
      ∀ other, Acked { cursor with markDelete := some cursor.frontier } other ↔
        cursor.Acked other ∨ other = cursor.frontier := by
  have acked other : Acked { cursor with markDelete := some cursor.frontier } other ↔
      cursor.Acked other ∨ other = cursor.frontier := by
    rw [acked_iff, acked_iff, or_right_comm, ← Nat.lt_succ_iff_lt_or_eq]
    rfl
  refine ⟨⟨sound.normal, ?_, ?_⟩, acked⟩
  · rintro _ ⟨⟩ range member
    exact sound.frontier_lt tight member
  · intro other isAcked
    obtain old | rfl := (acked other).mp isAcked
    · exact sound.words other old
    · exact word

theorem Sound.with_hole (word : entry + 1 < u64Modulus) (fresh : ¬ cursor.Acked entry) :
    Sound { cursor with ackedHoles := cursor.ackedHoles.insert entry } ∧
      ∀ other, Acked { cursor with ackedHoles := cursor.ackedHoles.insert entry } other ↔
        cursor.Acked other ∨ other = entry := by
  have uncovered : ¬ RangeSet.Covers cursor.ackedHoles.ranges entry :=
    fun covered => fresh (.inr covered)
  have inserted := RangeSet.insert_spec gapless_nat sound.normal (fun _ _ => trivial) trivial
    uncovered
  have acked other : Acked { cursor with ackedHoles := cursor.ackedHoles.insert entry } other ↔
      cursor.Acked other ∨ other = entry := by
    have covers := inserted.covers other trivial
    have single : entry ≤ other ∧ other ≤ entry ↔ other = entry := by omega
    rw [single] at covers
    unfold Acked
    rw [covers]
    exact or_assoc.symm
  refine ⟨⟨inserted.normalised, ?_, ?_⟩, acked⟩
  · intro mark isMark range member
    obtain old | ⟨_, _, same | ⟨old, inside, same, _⟩, _⟩ := inserted.bounds range member
    · exact sound.above mark isMark range old
    · rw [same]
      exact not_le.mp fun atMost => fresh (.inl ⟨mark, isMark, atMost⟩)
    · rw [← same]
      exact sound.above mark isMark old inside
  · intro other isAcked
    obtain old | rfl := (acked other).mp isAcked
    · exact sound.words other old
    · exact word

theorem Sound.ack_shared_eq (fresh : ¬ cursor.Acked entry) :
    ackShared cursor entry = if entry = cursor.frontier then
      advanceMarkDelete cursor.ackedHoles.ranges.elements.length
        { cursor with markDelete := some entry }
    else { cursor with ackedHoles := cursor.ackedHoles.insert entry } := by
  have beyond : ¬ entry < cursor.frontier := fun below => fresh (acked_iff.mpr (.inl below))
  rw [← acknowledged_iff sound] at fresh
  unfold ackShared
  rw [if_neg fresh]
  cases marked : cursor.markDelete with
  | none => simp [frontier, marked]
  | some mark =>
    have isNext : cursor.frontier = mark + 1 := by rw [frontier, marked]; rfl
    simp only [sound.mark_add_one marked, isNext] at beyond ⊢
    split_ifs <;> first | rfl | omega

theorem ack_shared_spec (word : entry + 1 < u64Modulus) : (ackShared cursor entry).Sound ∧
      (∀ other, (ackShared cursor entry).Acked other ↔ cursor.Acked other ∨ other = entry) ∧
      (cursor.Tight → (ackShared cursor entry).Tight) := by
  by_cases already : cursor.Acked entry
  · have same : ackShared cursor entry = cursor :=
      if_pos ((acknowledged_iff sound entry).mpr already)
    rw [same]
    exact ⟨sound, fun other => (or_iff_left_of_imp fun isEntry => isEntry ▸ already).symm, id⟩
  rw [sound.ack_shared_eq already]
  split_ifs with next
  · subst next
    obtain ⟨marked, acked⟩ := sound.with_mark word already
    obtain ⟨final, tight, same⟩ := advance_mark_delete_spec _ _ marked (le_refl _)
    exact ⟨final, fun other => (same other).trans (acked other), fun _ => tight⟩
  · obtain ⟨holed, acked⟩ := sound.with_hole word already
    refine ⟨holed, acked, fun tight isAcked => ?_⟩
    exact ((acked _).mp isAcked).elim tight fun same => next same.symm

end

theorem ack_shared_run (entries : List Nat) (words : ∀ entry ∈ entries, entry < u64Max) :
    (entries.foldl ackShared default).Sound ∧ (entries.foldl ackShared default).Tight ∧
      ∀ entry, (entries.foldl ackShared default).Acked entry ↔ entry ∈ entries := by
  induction entries using List.reverseRecOn with
  | nil =>
    refine ⟨sound_default, ?_, ?_⟩ <;> simp [Tight, acked_iff, RangeSet.Covers, frontier, default,
      RangeSet.empty]
  | append_singleton entries entry ih =>
    obtain ⟨sound, tight, acked⟩ := ih fun other member => words other (by simp [member])
    have word : entry + 1 < u64Modulus := by
      have := words entry (by simp)
      unfold u64Max at this
      omega
    obtain ⟨after, joined, stays⟩ := ack_shared_spec sound word
    rw [List.foldl_append]
    refine ⟨after, stays tight, fun other => (joined other).trans ?_⟩
    simp [acked]

theorem mark_iff (tight : cursor.Tight) (mark : Nat) : cursor.markDelete = some mark ↔
    (∀ entry ≤ mark, cursor.Acked entry) ∧ ¬ cursor.Acked (mark + 1) := by
  constructor
  · intro marked
    rw [Tight, frontier, marked] at tight
    exact ⟨fun entry atMost => .inl ⟨mark, marked, atMost⟩, tight⟩
  rintro ⟨before, ends⟩
  have high : mark < cursor.frontier := by
    by_contra atMost
    exact tight (before _ (not_lt.mp atMost))
  have low : ¬ mark + 1 < cursor.frontier := fun below => ends (acked_iff.mpr (.inl below))
  unfold frontier at high low
  cases marked : cursor.markDelete with
  | none => simp [marked] at high
  | some other =>
    simp only [marked, Option.elim_some] at high low
    rw [Option.some.injEq]
    omega

theorem start_iff (sound : cursor.Sound) (tight : cursor.Tight) (entry : Nat) :
    entry ∈ cursor.ackedHoles.ranges.elements.map Range.start ↔ cursor.Acked entry ∧
      cursor.frontier < entry ∧ ¬ cursor.Acked (entry - 1) := by
  rw [List.mem_map]
  constructor
  · rintro ⟨range, member, rfl⟩
    have above := sound.frontier_lt tight member
    refine ⟨sound.start_acked member, above, ?_⟩
    rw [acked_iff]
    rintro (below | ⟨other, isOther, starts, stops⟩)
    · omega
    have ordered := sound.normal.ordered other isOther
    have earlier : other < range := (Range.lt_iff other range).mpr (.inl (by omega))
    obtain ⟨apart, gap⟩ := sound.normal.separated other isOther range member earlier
    have word := sound.words _ (sound.start_acked member)
    have adjacent : other.stop + 1 = range.start := by omega
    apply gap
    simp only [Succ.succ, adjacent]
    exact if_pos (by omega)
  · rintro ⟨acked, above, first⟩
    obtain below | ⟨range, member, starts, stops⟩ := acked_iff.mp acked
    · omega
    refine ⟨range, member, starts.antisymm (not_lt.mp fun before => first ?_)⟩
    exact .inr ⟨range, member, by omega, by omega⟩

/-- Acknowledging entries in any order: the mark ends the run from zero, and the
stored ranges are as many as the runs above it, each counted at its first entry. -/
theorem ack_shared_exact (entries : List Nat) (words : ∀ entry ∈ entries, entry < u64Max) :
    let cursor := entries.foldl ackShared default
    (∀ entry, isMessageAcknowledged (some cursor) entry = true ↔ entry ∈ entries) ∧
    (∀ mark, cursor.markDelete = some mark ↔
      (∀ entry ≤ mark, entry ∈ entries) ∧ mark + 1 ∉ entries) ∧
    (∀ range ∈ cursor.ackedHoles.ranges, cursor.frontier < range.start) ∧
    (∀ entry, cursor.Acked entry → entry + 1 < u64Modulus) ∧
    cursor.ackedHoles.ranges.elements.length = (entries.toFinset.filter fun entry =>
      cursor.frontier < entry ∧ entry - 1 ∉ entries).card := by
  intro cursor
  obtain ⟨sound, tight, acked⟩ := ack_shared_run entries words
  refine ⟨fun entry => (acknowledged_iff sound entry).trans (acked entry), fun mark => ?_,
    fun range member => sound.frontier_lt tight member, sound.words, ?_⟩
  · rw [mark_iff tight, acked]
    simp only [acked]
  · have distinct : (cursor.ackedHoles.ranges.elements.map Range.start).Nodup := by
      refine List.Nodup.map_on ?_ (cursor.ackedHoles.ranges.sorted.imp ne_of_lt)
      intro left leftMember right rightMember same
      have leftOrdered := sound.normal.ordered left leftMember
      have rightOrdered := sound.normal.ordered right rightMember
      exact sound.normal.unique leftMember rightMember ⟨le_refl _, leftOrdered⟩
        ⟨same.ge, same ▸ rightOrdered⟩
    rw [← List.length_map Range.start, ← List.toFinset_card_of_nodup distinct]
    congr 1
    ext entry
    rw [List.mem_toFinset, start_iff sound tight, Finset.mem_filter, List.mem_toFinset, acked,
      acked]

theorem ack_shared_exact_out_of_order :
    ([3, 0, 4, 7].foldl ackShared default).ackedHoles.ranges.elements.length = 2 :=
  (ack_shared_exact [3, 0, 4, 7] (by decide)).2.2.2.2.trans (by decide)

end SubscriptionCursor

end PulsarLite.Storage
