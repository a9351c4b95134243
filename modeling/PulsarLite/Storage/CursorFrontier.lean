import PulsarLite.Storage.Cursor

/-!
# The acknowledgement frontier

What the operations of a cursor do to its state: where every position it keeps
comes from, that the ranges stay normalised, which entries count as acknowledged
afterwards, and how far the loop that advances the mark gets.
-/

namespace PulsarLite.Storage

open Library RangeSet ManagedLedgerPosition OrderedSet StoredManagedLedgerInfo

variable {state first second third : ManagedCursorState} {mark next : ManagedLedgerPosition}
  {rest : RangeSet ManagedLedgerPosition} {info : StoredManagedLedgerInfo}

namespace ManagedCursorState

variable {range : Range ManagedLedgerPosition} {old new : StoredManagedLedgerInfo}
  {slot bound : Nat ×ₗ Nat}

/-- The positions a cursor keeps: its mark and the ends of its ranges. -/
def Mentions (state : ManagedCursorState) (pos : ManagedLedgerPosition) : Prop :=
  state.markDelete = some pos ∨
    ∃ range ∈ state.individuallyDeletedEntries.ranges, pos = range.start ∨ pos = range.stop

theorem Mentions.start (member : range ∈ state.individuallyDeletedEntries.ranges) :
    state.Mentions range.start :=
  .inr ⟨range, member, .inl rfl⟩

theorem Mentions.stop (member : range ∈ state.individuallyDeletedEntries.ranges) :
    state.Mentions range.stop :=
  .inr ⟨range, member, .inr rfl⟩

theorem Shaped.mentions (shaped : state.Shaped) {pos} (mentioned : state.Mentions pos) :
    pos.partition = -1 := by
  obtain mark | ⟨range, member, rfl | rfl⟩ := mentioned
  · exact shaped.mark pos mark
  · exact shaped.starts range member
  · exact shaped.stops range member

theorem Shaped.well_formed (shaped : state.Shaped)
    (small : ∀ pos, state.Mentions pos → pos.ledgerId < i64Bound ∧ pos.entryId < i64Bound) :
    state.WellFormed := by
  have persistable pos : state.Mentions pos → Persistable pos := by
    intro mentioned
    exact ⟨shaped.mentions mentioned, (small pos mentioned).1, (small pos mentioned).2⟩
  exact {
    mark pos found := persistable pos (.inl found)
    normalised := shaped.normalised
    starts range member := persistable _ (.start member)
    stops range member := persistable _ (.stop member)
    ledgers := shaped.ledgers }

theorem WellFormed.mentions (wellFormed : state.WellFormed) {pos} (mentioned : state.Mentions pos) :
    Persistable pos := by
  obtain mark | ⟨range, member, rfl | rfl⟩ := mentioned
  · exact wellFormed.mark pos mark
  · exact wellFormed.starts range member
  · exact wellFormed.stops range member

def MarkLe (before after : ManagedCursorState) : Prop :=
  ∀ mark, before.markDelete = some mark →
    ∃ later, after.markDelete = some later ∧ mark.slot ≤ later.slot

theorem MarkLe.refl (state) : MarkLe state state := fun mark found => ⟨mark, found, le_refl _⟩

theorem MarkLe.trans (left : MarkLe first second) (right : MarkLe second third) :
    MarkLe first third := by
  intro mark found
  obtain ⟨middle, middleFound, below⟩ := left mark found
  obtain ⟨last, lastFound, above⟩ := right middle middleFound
  exact ⟨last, lastFound, below.trans above⟩

def StopsAbove (state : ManagedCursorState) : Prop :=
  ∀ mark, state.markDelete = some mark →
    ∀ range ∈ state.individuallyDeletedEntries.ranges, mark.slot < range.stop.slot

instance (state : ManagedCursorState) : Decidable state.StopsAbove :=
  inferInstanceAs (Decidable (∀ mark ∈ state.markDelete,
    ∀ range ∈ state.individuallyDeletedEntries.ranges.elements, _))

def HolesAbove (state : ManagedCursorState) : Prop :=
  ∀ mark, state.markDelete = some mark →
    ∀ range ∈ state.individuallyDeletedEntries.ranges, mark.slot < range.start.slot

theorem HolesAbove.stops_above (shaped : state.Shaped) (above : state.HolesAbove)
    : state.StopsAbove := by
  intro mark found range member
  exact (above mark found range member).trans_le
    (slot_mono (shaped.normalised.ordered range member))

/-- The entry after the mark, or the first one without a mark, is not acknowledged. -/
structure Stuck (info : StoredManagedLedgerInfo) (state : ManagedCursorState) : Prop where
  next : ∀ mark, state.markDelete = some mark → ∀ next, info.nextPosition mark = some next →
    ¬ state.Acked next.slot
  first : state.markDelete = none → ∀ first, info.firstPosition (-1) = some first →
    ¬ state.Acked first.slot

/-- A cursor that keeps only positions of stored entries. -/
structure Grounded (info : StoredManagedLedgerInfo) (state : ManagedCursorState) : Prop where
  wellFormed : state.WellFormed
  stored : ∀ pos, state.Mentions pos → info.Stores pos

theorem grounded_default (info) : Grounded info default where
  wellFormed := well_formed_default
  stored pos mentioned := by
    obtain mark | ⟨range, member, _⟩ := mentioned
    · simp [default] at mark
    · simp [default, RangeSet.empty] at member

theorem Grounded.extends (grounded : Grounded old state) (grown : old.Extends new) :
    Grounded new state where
  wellFormed := grounded.wellFormed
  stored pos mentioned := grown.keeps pos (grounded.stored pos mentioned)

theorem not_acked_beyond
    (below : ∀ pos, state.Mentions pos → pos.slot < bound) (beyond : bound ≤ slot) :
    ¬ state.Acked slot := by
  rintro (⟨mark, found, covered⟩ | ⟨range, member, _, covered⟩)
  · exact absurd (covered.trans_lt (below mark (.inl found))) (not_lt.mpr beyond)
  · exact absurd (covered.trans_lt (below _ (.stop member))) (not_lt.mpr beyond)

theorem Grounded.not_acked (grounded : Grounded info state) (ordered : info.Ordered)
    (beyond : info.writeSlot ≤ slot) : ¬ state.Acked slot :=
  not_acked_beyond (fun pos mentioned =>
    ordered.slot_lt_write_slot (grounded.stored pos mentioned)) beyond

theorem mark_word (wellFormed : state.WellFormed) (found : state.markDelete = some mark) :
    mark.entryId + 1 < u64Modulus := by
  have small := (wellFormed.mark mark found).entry
  have bound := i64_bound_lt
  omega

theorem Stuck.extends (grounded : Grounded old state) (oldOrdered : old.Ordered)
    (newOrdered : new.Ordered) (grown : old.Extends new) (stuck : Stuck old state) :
    Stuck new state where
  next mark found next walked := by
    obtain same | ⟨_, beyond⟩ := grown.next_position oldOrdered newOrdered mark
    · exact stuck.next mark found next (same ▸ walked)
    · exact grounded.not_acked oldOrdered (beyond next walked)
  first missing first found := by
    obtain same | ⟨_, beyond⟩ := grown.first_position oldOrdered newOrdered (-1)
    · exact stuck.first missing first (same ▸ found)
    · exact grounded.not_acked oldOrdered (beyond first found)

section

variable (state : ManagedCursorState) (pos : ManagedLedgerPosition)

def withMark : ManagedCursorState :=
  { state with markDelete := some pos }

def withEntry : ManagedCursorState :=
  { state with individuallyDeletedEntries := state.individuallyDeletedEntries.insert pos }

variable {state : ManagedCursorState} {pos : ManagedLedgerPosition}

theorem Shaped.with_mark (shaped : state.Shaped) (free : pos.partition = -1) :
    (state.withMark pos).Shaped where
  mark other found := by
    rw [← Option.some.inj found]
    exact free
  normalised := shaped.normalised
  starts := shaped.starts
  stops := shaped.stops
  ledgers := shaped.ledgers

theorem mentions_with_mark {other} (mentioned : (state.withMark pos).Mentions other) :
    other = pos ∨ state.Mentions other := by
  obtain mark | range := mentioned
  · exact .inl (Option.some.inj mark).symm
  · exact .inr (.inr range)

variable (shaped : state.Shaped)
include shaped

variable (free : pos.partition = -1)
include free

variable (absent : ¬ CoversSlot state.individuallyDeletedEntries.ranges pos.slot)
include absent

theorem Shaped.inserted :
    RangeSet.Inserted (fun pos => pos.partition = -1) state.individuallyDeletedEntries.ranges
      pos pos (state.withEntry pos).individuallyDeletedEntries.ranges := by
  apply insert_spec (gapless_partition (-1)) shaped.normalised shaped.stops free
  rw [covers_iff_slot shaped free]
  exact absent

theorem mentions_with_entry {other} (mentioned : (state.withEntry pos).Mentions other) :
    other = pos ∨ state.Mentions other := by
  obtain mark | ⟨range, member, ends⟩ := mentioned
  · exact .inr (.inl mark)
  obtain old | new := (shaped.inserted free absent).bounds range member
  · exact .inr (.inr ⟨range, old, ends⟩)
  obtain ⟨_, _, startSource, stopSource⟩ := new
  obtain rfl | rfl := ends
  · obtain same | ⟨old, oldMember, same, _⟩ := startSource
    · exact .inl same
    · exact .inr (same ▸ .start oldMember)
  · obtain same | ⟨old, oldMember, same⟩ := stopSource
    · exact .inl same
    · exact .inr (same ▸ .stop oldMember)

theorem Shaped.with_entry : (state.withEntry pos).Shaped := by
  have free' other : (state.withEntry pos).Mentions other → other.partition = -1 := by
    intro mentioned
    obtain rfl | old := mentions_with_entry shaped free absent mentioned
    · exact free
    · exact shaped.mentions old
  have missing : state.individuallyDeletedEntries.contains pos = false := by
    rw [← Bool.not_eq_true, contains_iff shaped.normalised, covers_iff_slot shaped free]
    exact absent
  have blocks := insert_range_block
    ledger_id_mono succ_ledger_id
    state.individuallyDeletedEntries pos pos shaped.ledgers rfl
  exact {
    mark := shaped.mark
    normalised := (shaped.inserted free absent).normalised
    starts range member := free' _ (Mentions.start member)
    stops range member := free' _ (Mentions.stop member)
    ledgers := by
      simpa [withEntry, RangeSet.insert, missing] using blocks }

variable (other : ManagedLedgerPosition)

theorem covers_with_entry :
    CoversSlot (state.withEntry pos).individuallyDeletedEntries.ranges other.slot ↔
      CoversSlot state.individuallyDeletedEntries.ranges other.slot ∨ other.slot = pos.slot := by
  have free' := cursor_position_partition other
  have covers := (shaped.inserted free absent).covers (cursorPosition other) free'
  rw [covers_iff_slot (shaped.with_entry free absent) free', covers_iff_slot shaped free',
    le_iff_slot_le (free.trans free'.symm),
    le_iff_slot_le (free'.trans free.symm), cursor_position_slot] at covers
  rw [covers]
  constructor
  · rintro (old | ⟨below, above⟩)
    · exact .inl old
    · exact .inr (le_antisymm above below)
  · rintro (old | same)
    · exact .inl old
    · exact .inr ⟨same.ge, same.le⟩

theorem acked_with_entry :
    (state.withEntry pos).Acked other.slot ↔ state.Acked other.slot ∨ other.slot = pos.slot := by
  unfold Acked
  rw [covers_with_entry shaped free absent, or_assoc]
  rfl

end

section

theorem Shaped.take (shaped : state.Shaped) {stop}
    (taken : state.individuallyDeletedEntries.takeCovering next = some (stop, rest)) :
    (ManagedCursorState.mk (some (cursorPosition stop)) rest).Shaped ∧
      ∀ pos, (ManagedCursorState.mk (some (cursorPosition stop)) rest).Mentions pos →
        state.Mentions pos := by
  obtain ⟨range, member, _, rfl, remaining⟩ := take_covering_some taken
  have subset : ∀ other ∈ rest.ranges, other ∈ state.individuallyDeletedEntries.ranges := by
    intro other otherMember
    rw [remaining] at otherMember
    exact ((mem_erase range other _).mp otherMember).2
  have mentions : ∀ pos, (ManagedCursorState.mk (some (cursorPosition range.stop)) rest).Mentions
      pos → state.Mentions pos := by
    rintro pos (marked | ⟨other, otherMember, ends⟩)
    · rw [cursor_position_eq (shaped.stops range member)] at marked
      exact Option.some.inj marked ▸ .stop member
    · exact .inr ⟨other, subset other otherMember, ends⟩
  refine ⟨?_, mentions⟩
  exact {
    mark pos marked := shaped.mentions (mentions pos (.inl marked))
    normalised := shaped.normalised.subset subset
    starts other otherMember := shaped.starts other (subset other otherMember)
    stops other otherMember := shaped.stops other (subset other otherMember)
    ledgers other otherMember := shaped.ledgers other (subset other otherMember) }

/-- A state the advancing loop has reached from another one. -/
structure Advanced (info : StoredManagedLedgerInfo) (before after : ManagedCursorState) :
    Prop where
  grounded : Grounded info after
  stopsAbove : after.StopsAbove
  marks : MarkLe before after
  acked : ∀ pos, info.Stores pos → (after.Acked pos.slot ↔ before.Acked pos.slot)
  holesAbove : before.HolesAbove → after.HolesAbove

theorem Advanced.refl (grounded : Grounded info state) (above : state.StopsAbove) :
    Advanced info state state where
  grounded := grounded
  stopsAbove := above
  marks := .refl state
  acked _ _ := Iff.rfl
  holesAbove above := above

theorem Advanced.trans (left : Advanced info first second) (right : Advanced info second third) :
    Advanced info first third where
  grounded := right.grounded
  stopsAbove := right.stopsAbove
  marks := left.marks.trans right.marks
  acked pos stores := (right.acked pos stores).trans (left.acked pos stores)
  holesAbove above := right.holesAbove (left.holesAbove above)

variable (ordered : info.Ordered) (grounded : Grounded info state)
include ordered grounded

/-- One pass of the loop: the range taken covers everything stored between the
old mark and its end, and every other range lies beyond it. -/
theorem advanced_take (above : state.StopsAbove) {stop} (found : state.markDelete = some mark)
    (walked : info.nextPosition mark = some next)
    (taken : state.individuallyDeletedEntries.takeCovering next = some (stop, rest)) :
    Advanced info state
      { markDelete := some (cursorPosition stop), individuallyDeletedEntries := rest } := by
  have shaped := grounded.wellFormed.shaped
  obtain ⟨afterShaped, mentions⟩ := shaped.take taken
  obtain ⟨range, member, starts, rfl, remaining⟩ := take_covering_some taken
  obtain ⟨_, _, _, least⟩ := next_position_some ordered (mark_word grounded.wellFormed found) walked
  have startBelow : range.start.slot ≤ next.slot := slot_mono starts
  have stopAbove := above mark found range member
  have subset other (otherMember : other ∈ rest.ranges) : other ≠ range ∧
      other ∈ state.individuallyDeletedEntries.ranges := by
    rw [remaining] at otherMember
    exact (mem_erase range other _).mp otherMember
  have beyond other (otherMember : other ∈ rest.ranges) : range.stop.slot < other.start.slot := by
    obtain ⟨different, old⟩ := subset other otherMember
    obtain before | after := lt_or_gt_of_ne different
    · have apart := (shaped.normalised.separated other old range member before).1
      have otherAbove := least other.stop (grounded.stored _ (.stop old))
        (above mark found other old)
      have touching : range.start ≤ other.stop := by
        rw [le_iff_slot_le ((shaped.starts range member).trans (shaped.stops other old).symm)]
        exact startBelow.trans otherAbove
      exact absurd apart (not_lt.mpr touching)
    · have apart := (shaped.normalised.separated range member other old after).1
      exact (lt_iff_slot_lt
        ((shaped.stops range member).trans (shaped.starts other old).symm)).mp apart
  have holes : (ManagedCursorState.mk (some (cursorPosition range.stop)) rest).HolesAbove := by
    intro later marked other otherMember
    rw [← Option.some.inj marked]
    exact beyond other otherMember
  exact {
    grounded := {
      wellFormed := afterShaped.well_formed fun pos mentioned =>
        let persistable := grounded.wellFormed.mentions (mentions pos mentioned)
        ⟨persistable.ledger, persistable.entry⟩
      stored pos mentioned := grounded.stored pos (mentions pos mentioned) }
    stopsAbove := holes.stops_above afterShaped
    marks old oldFound := by
      rw [found] at oldFound
      rw [← Option.some.inj oldFound]
      exact ⟨_, rfl, stopAbove.le⟩
    acked pos stores := by
      constructor
      · rintro (⟨later, marked, below⟩ | ⟨other, otherMember, inside⟩)
        · rw [← Option.some.inj marked, cursor_position_slot] at below
          by_cases early : pos.slot ≤ mark.slot
          · exact .inl ⟨mark, found, early⟩
          · have reached := least pos stores (not_le.mp early)
            exact .inr ⟨range, member, startBelow.trans reached, below⟩
        · exact .inr ⟨other, (subset other otherMember).2, inside⟩
      rintro (⟨old, oldFound, below⟩ | ⟨other, otherMember, inside⟩)
      · rw [found] at oldFound
        rw [← Option.some.inj oldFound] at below
        exact .inl ⟨_, rfl, below.trans stopAbove.le⟩
      by_cases same : other = range
      · rw [same] at inside
        exact .inl ⟨_, rfl, inside.2⟩
      · refine .inr ⟨other, ?_, inside⟩
        rw [remaining]
        exact (mem_erase range other _).mpr ⟨same, otherMember⟩
    holesAbove _ := holes }

theorem stuck_of_missed
    (found : state.markDelete = some mark) (walked : info.nextPosition mark = some next)
    (missed : ∀ range ∈ state.individuallyDeletedEntries.ranges, next < range.start) :
    ¬ state.Acked next.slot := by
  obtain ⟨_, nextPartition, after, _⟩ := next_position_some ordered
    (mark_word grounded.wellFormed found) walked
  rintro (⟨later, marked, below⟩ | ⟨range, member, below, _⟩)
  · rw [found] at marked
    rw [← Option.some.inj marked] at below
    exact absurd after (not_lt.mpr below)
  have free := nextPartition.trans (grounded.wellFormed.mark mark found).partition
  have beyond := (lt_iff_slot_lt
    (free.trans (grounded.wellFormed.starts range member).partition.symm)).mp
    (missed range member)
  exact absurd below (not_le.mpr beyond)

end

/-- A state in which one more entry is acknowledged than in another one. -/
structure AckedOne (info : StoredManagedLedgerInfo) (slot : Nat ×ₗ Nat)
    (before after : ManagedCursorState) : Prop where
  grounded : Grounded info after
  stopsAbove : after.StopsAbove
  marks : MarkLe before after
  acked : ∀ pos, info.Stores pos →
    (after.Acked pos.slot ↔ before.Acked pos.slot ∨ pos.slot = slot)
  holesAbove : before.HolesAbove → after.HolesAbove

theorem AckedOne.advanced (left : AckedOne info slot first second)
    (right : Advanced info second third) : AckedOne info slot first third where
  grounded := right.grounded
  stopsAbove := right.stopsAbove
  marks := left.marks.trans right.marks
  acked pos stores := (right.acked pos stores).trans (left.acked pos stores)
  holesAbove above := right.holesAbove (left.holesAbove above)

variable {pos : ManagedLedgerPosition} (grounded : Grounded info state)
include grounded

theorem Grounded.grow {after} (persistable : Persistable pos) (stores : info.Stores pos)
    (shaped : after.Shaped)
    (mentions : ∀ other, after.Mentions other → other = pos ∨ state.Mentions other) :
    Grounded info after where
  wellFormed := by
    apply shaped.well_formed
    intro other mentioned
    obtain rfl | old := mentions other mentioned
    · exact ⟨persistable.ledger, persistable.entry⟩
    · have kept := grounded.wellFormed.mentions old
      exact ⟨kept.ledger, kept.entry⟩
  stored other mentioned := by
    obtain rfl | old := mentions other mentioned
    · exact stores
    · exact grounded.stored other old

variable (persistable : Persistable pos) (stores : info.Stores pos) (fresh : ¬ state.Acked pos.slot)
include persistable stores fresh

/-- The mark moves onto the least stored entry that it did not cover, which was
not acknowledged before. -/
theorem acked_one_with_mark (least : ∀ other, info.Stores other → pos.slot ≤ other.slot ∨
      ∃ mark, state.markDelete = some mark ∧ other.slot ≤ mark.slot)
    (marks : ∀ mark, state.markDelete = some mark → mark.slot < pos.slot)
    (above : state.StopsAbove) :
    AckedOne info pos.slot state (state.withMark pos) := by
  have shaped := grounded.wellFormed.shaped
  have free := persistable.partition
  have reaches range (member : range ∈ state.individuallyDeletedEntries.ranges) :
      pos.slot ≤ range.stop.slot := by
    obtain beyond | covered := least range.stop (grounded.stored _ (.stop member))
    · exact beyond
    · obtain ⟨mark, found, below⟩ := covered
      exact absurd (above mark found range member) (not_lt.mpr below)
  have beyond range (member : range ∈ state.individuallyDeletedEntries.ranges) :
      pos.slot < range.start.slot ∨ range.stop.slot < pos.slot := by
    by_contra touching
    push Not at touching
    exact fresh (.inr ⟨range, member, touching.1, touching.2⟩)
  have starts range (member : range ∈ state.individuallyDeletedEntries.ranges) :
      pos.slot < range.start.slot := by
    obtain after | before := beyond range member
    · exact after
    · exact absurd before (not_lt.mpr (reaches range member))
  have holes : (state.withMark pos).HolesAbove := by
    intro mark found range member
    rw [← Option.some.inj found]
    exact starts range member
  exact {
    grounded := grounded.grow persistable stores (shaped.with_mark free)
      fun other mentioned => mentions_with_mark mentioned
    stopsAbove := holes.stops_above (shaped.with_mark free)
    marks mark found := ⟨pos, rfl, (marks mark found).le⟩
    acked other otherStores := by
      constructor
      · rintro (⟨mark, found, below⟩ | covered)
        · rw [← Option.some.inj found] at below
          obtain beyond | ⟨old, oldFound, oldBelow⟩ := least other otherStores
          · exact .inr (le_antisymm below beyond)
          · exact .inl (.inl ⟨old, oldFound, oldBelow⟩)
        · exact .inl (.inr covered)
      · rintro ((⟨mark, found, below⟩ | covered) | same)
        · exact .inl ⟨pos, rfl, below.trans (marks mark found).le⟩
        · exact .inr covered
        · exact .inl ⟨pos, rfl, same.le⟩
    holesAbove _ := holes }

theorem acked_one_with_entry (marks : ∀ mark, state.markDelete = some mark → mark.slot < pos.slot)
    (above : state.StopsAbove) :
    AckedOne info pos.slot state (state.withEntry pos) := by
  have shaped := grounded.wellFormed.shaped
  have free := persistable.partition
  have absent : ¬ CoversSlot state.individuallyDeletedEntries.ranges pos.slot :=
    fun covered => fresh (.inr covered)
  have inserted := shaped.inserted free absent
  exact {
    grounded := grounded.grow persistable stores (shaped.with_entry free absent)
      fun other mentioned => mentions_with_entry shaped free absent mentioned
    stopsAbove mark found range member := by
      obtain old | ⟨_, stops, _, _⟩ := inserted.bounds range member
      · exact above mark found range old
      · exact (marks mark found).trans_le (slot_mono stops)
    marks mark found := ⟨mark, found, le_refl _⟩
    acked other _ := acked_with_entry shaped free absent other
    holesAbove holes mark found range member := by
      obtain old | ⟨_, _, startSource, _⟩ := inserted.bounds range member
      · exact holes mark found range old
      obtain same | ⟨old, oldMember, same, _⟩ := startSource
      · rw [same]
        exact marks mark found
      · rw [← same]
        exact holes mark found old oldMember }

end ManagedCursorState

namespace RocksDBManagedCursor

open ManagedCursorState

def stored (cursor : RocksDBManagedCursor) (state : ManagedCursorState) : RocksDBManagedCursor :=
  persistState { cursor with state := state }

section

variable (cursor : RocksDBManagedCursor)
include cursor

theorem stored_stored (first second) :
    (cursor.stored first).stored second = cursor.stored second := by
  simp [stored, persistState, key, Db.put]

theorem mark_delete_eq (pos) :
    cursor.markDelete pos = cursor.stored (cursor.state.withMark (cursorPosition pos)) := rfl

theorem delete_individual_eq (pos) :
    cursor.deleteIndividual pos = cursor.stored (cursor.state.withEntry (cursorPosition pos)) :=
  rfl

@[simp] theorem stored_state (state) : (cursor.stored state).state = state := rfl

end

def Touched (before after : RocksDBManagedCursor) : Prop :=
  after = before ∨ after = before.stored after.state

theorem touched_stored (cursor state) : Touched cursor (cursor.stored state) := .inr rfl

theorem Touched.trans {first second third} (left : Touched first second)
    (right : Touched second third) : Touched first third := by
  obtain rfl | left := left
  · exact right
  obtain rfl | right := right
  · exact .inr left
  · right
    rw [left, stored_stored] at right
    exact right

variable {cursor : RocksDBManagedCursor}

theorem advance_frontier_take {stop} (fuel : Nat) (found : cursor.state.markDelete = some mark)
    (walked : info.nextPosition mark = some next)
    (taken : cursor.state.individuallyDeletedEntries.takeCovering next = some (stop, rest)) :
    advanceFrontier info (fuel + 1) cursor =
      advanceFrontier info fuel (cursor.stored
        { markDelete := some (cursorPosition stop), individuallyDeletedEntries := rest }) := by
  simp only [advanceFrontier, found, walked, taken]
  rfl

theorem advance_frontier_stop {cursor} (fuel : Nat)
    (missed : ∀ mark next, cursor.state.markDelete = some mark →
      info.nextPosition mark = some next →
      cursor.state.individuallyDeletedEntries.takeCovering next = none) :
    advanceFrontier info fuel cursor = cursor := by
  cases fuel with
  | zero => rfl
  | succ fuel =>
    cases found : cursor.state.markDelete with
    | none => simp only [advanceFrontier, found]
    | some mark =>
      cases walked : info.nextPosition mark with
      | none => simp only [advanceFrontier, found, walked]
      | some next => simp only [advanceFrontier, found, walked, missed mark next found walked]

theorem next_pass (info : StoredManagedLedgerInfo) (cursor : RocksDBManagedCursor) :
    (∃ mark next stop rest, cursor.state.markDelete = some mark ∧
      info.nextPosition mark = some next ∧
      cursor.state.individuallyDeletedEntries.takeCovering next = some (stop, rest)) ∨
    ∀ mark next, cursor.state.markDelete = some mark → info.nextPosition mark = some next →
      cursor.state.individuallyDeletedEntries.takeCovering next = none := by
  by_cases pass : ∃ mark next stop rest, cursor.state.markDelete = some mark ∧
      info.nextPosition mark = some next ∧
      cursor.state.individuallyDeletedEntries.takeCovering next = some (stop, rest)
  · exact .inl pass
  right
  intro mark next found walked
  cases taken : cursor.state.individuallyDeletedEntries.takeCovering next with
  | none => rfl
  | some pair => exact absurd ⟨mark, next, pair.1, pair.2, found, walked, taken⟩ pass

theorem advance_frontier_touched (info fuel cursor) :
    Touched cursor (advanceFrontier info fuel cursor) := by
  induction fuel generalizing cursor with
  | zero => exact .inl rfl
  | succ fuel ih =>
    obtain ⟨mark, next, stop, rest, found, walked, taken⟩ | missed := next_pass info cursor
    · rw [advance_frontier_take fuel found walked taken]
      exact (touched_stored cursor _).trans (ih _)
    · exact .inl (advance_frontier_stop _ missed)

theorem ack_position_touched (info cursor position) :
    Touched cursor (ackPosition info cursor position) := by
  unfold ackPosition
  split
  · split_ifs
    · exact touched_stored _ _
    · exact touched_stored _ _
  · split_ifs
    · exact touched_stored _ _
    · exact touched_stored _ _
    · exact .inl rfl

theorem ack_managed_cursor_shared_touched (cursor position info) :
    Touched cursor (ackManagedCursorShared cursor position info) := by
  unfold ackManagedCursorShared
  split_ifs
  · exact .inl rfl
  · exact (ack_position_touched info cursor _).trans (advance_frontier_touched info _ _)

/-- Run to its end, the loop reaches the last entry before the first one that is
not acknowledged. -/
theorem advance_frontier_spec (ordered : info.Ordered) (fuel : Nat) (cursor)
    (enough : cursor.state.individuallyDeletedEntries.ranges.elements.length ≤ fuel)
    (grounded : Grounded info cursor.state) (above : cursor.state.StopsAbove) :
    Advanced info cursor.state (advanceFrontier info fuel cursor).state ∧
      ∀ mark, (advanceFrontier info fuel cursor).state.markDelete = some mark →
        ∀ next, info.nextPosition mark = some next →
          ¬ (advanceFrontier info fuel cursor).state.Acked next.slot := by
  induction fuel generalizing cursor with
  | zero =>
    refine ⟨.refl grounded above, ?_⟩
    intro mark found next walked
    apply stuck_of_missed ordered grounded found walked
    intro range member
    have empty := List.length_eq_zero_iff.mp (Nat.le_zero.mp enough)
    rw [mem_def, empty] at member
    simp at member
  | succ fuel ih =>
    obtain ⟨mark, next, stop, rest, found, walked, taken⟩ | missed := next_pass info cursor
    · have pass := advanced_take ordered grounded above found walked taken
      have shorter : rest.ranges.elements.length ≤ fuel := by
        obtain ⟨range, member, _, _, erased⟩ := take_covering_some taken
        have size := erase_length member
        rw [erased]
        omega
      rw [advance_frontier_take fuel found walked taken]
      obtain ⟨advanced, stuck⟩ := ih (cursor.stored
        { markDelete := some (cursorPosition stop), individuallyDeletedEntries := rest })
        shorter pass.grounded pass.stopsAbove
      exact ⟨pass.trans advanced, stuck⟩
    · rw [advance_frontier_stop _ missed]
      refine ⟨.refl grounded above, ?_⟩
      intro mark found next walked
      exact stuck_of_missed ordered grounded found walked
        (take_covering_none (missed mark next found walked))

variable {pos : ManagedLedgerPosition}

/-- The acknowledgement proper: onto the mark if the entry is the one after it,
else into the ranges. Without a mark afterwards, the entry was not the first. -/
theorem ack_position_spec (ordered : info.Ordered) (grounded : Grounded info cursor.state)
    (above : cursor.state.StopsAbove) (persistable : Persistable pos) (stores : info.Stores pos)
    (fresh : ¬ cursor.state.Acked pos.slot) :
    AckedOne info pos.slot cursor.state (ackPosition info cursor pos).state ∧
      ((ackPosition info cursor pos).state.markDelete = none →
        cursor.state.markDelete = none ∧ some pos ≠ info.firstPosition pos.partition) := by
  have free : cursorPosition pos = pos := cursor_position_eq persistable.partition
  unfold ackPosition
  cases found : cursor.state.markDelete with
  | none =>
    have noMark : ∀ mark, cursor.state.markDelete = some mark → mark.slot < pos.slot := by
      simp [found]
    by_cases isFirst : some pos = info.firstPosition pos.partition
    · rw [if_pos isFirst, mark_delete_eq, free]
      obtain ⟨_, _, least⟩ := first_position_some ordered isFirst.symm
      exact ⟨acked_one_with_mark grounded persistable stores fresh
        (fun other otherStores => .inl (least other otherStores)) noMark above,
        by simp [withMark]⟩
    · rw [if_neg isFirst, delete_individual_eq, free]
      exact ⟨acked_one_with_entry grounded persistable stores fresh noMark above,
        fun _ => ⟨rfl, isFirst⟩⟩
  | some mark =>
    have markBelow : mark.slot < pos.slot := by
      by_contra notBelow
      exact fresh (.inl ⟨mark, found, not_lt.mp notBelow⟩)
    have marks other : cursor.state.markDelete = some other → other.slot < pos.slot := by
      intro otherFound
      rw [found] at otherFound
      rw [← Option.some.inj otherFound]
      exact markBelow
    by_cases isNext : some pos = info.nextPosition mark
    · simp only [if_pos isNext, mark_delete_eq, free]
      obtain ⟨_, _, _, least⟩ := next_position_some ordered
        (mark_word grounded.wellFormed found) isNext.symm
      refine ⟨acked_one_with_mark grounded persistable stores fresh ?_ marks above,
        by simp [withMark]⟩
      intro other otherStores
      by_cases covered : other.slot ≤ mark.slot
      · exact .inr ⟨mark, found, covered⟩
      · exact .inl (least other otherStores (not_le.mp covered))
    · have later : mark < pos := by
        rw [lt_iff]
        exact .inl markBelow
      simp only [if_neg isNext, if_pos later, delete_individual_eq, free]
      refine ⟨acked_one_with_entry grounded persistable stores fresh marks above, ?_⟩
      simp [withEntry, found]

theorem AckedOne.refl (grounded : Grounded info state) (above : state.StopsAbove)
    (acked : state.Acked pos.slot) : AckedOne info pos.slot state state where
  grounded := grounded
  stopsAbove := above
  marks := .refl state
  acked other _ := by
    constructor
    · exact .inl
    · rintro (old | same)
      · exact old
      · exact same ▸ acked
  holesAbove holes := holes

/-- An individual acknowledgement of a stored entry acknowledges that entry and
nothing else, and leaves the frontier at the first entry not acknowledged. -/
theorem ack_managed_cursor_shared_spec (ordered : info.Ordered) (cursor : RocksDBManagedCursor)
    (grounded : Grounded info cursor.state) (above : cursor.state.StopsAbove)
    (ledger : pos.ledgerId < i64Bound) (entry : pos.entryId < i64Bound) (stores : info.Stores pos) :
    AckedOne info pos.slot cursor.state (ackManagedCursorShared cursor pos info).state ∧
      (Stuck info cursor.state → Stuck info (ackManagedCursorShared cursor pos info).state) := by
  have acknowledged := acknowledged_iff grounded.wellFormed.shaped (cursorPosition pos)
  unfold ackManagedCursorShared
  split_ifs with already
  · exact ⟨AckedOne.refl grounded above (acknowledged.mp already), fun stuck => stuck⟩
  have fresh : ¬ cursor.state.Acked (cursorPosition pos).slot :=
    fun acked => already (acknowledged.mpr acked)
  have persistable : Persistable (cursorPosition pos) := ⟨rfl, ledger, entry⟩
  obtain ⟨acked, noMark⟩ := ack_position_spec ordered grounded above persistable
    (stores.of_slot (cursor_position_slot pos).symm) fresh
  obtain ⟨advanced, stuckNext⟩ := advance_frontier_spec ordered (ackPosition info cursor
      (cursorPosition pos)).state.individuallyDeletedEntries.ranges.elements.length
    (ackPosition info cursor (cursorPosition pos)) (le_refl _) acked.grounded acked.stopsAbove
  refine ⟨acked.advanced advanced, fun stuck => ⟨stuckNext, ?_⟩⟩
  -- The loop keeps a mark, so without one the entry went into the ranges.
  intro missing first firstFound isAcked
  have noMarkBefore : (ackPosition info cursor (cursorPosition pos)).state.markDelete = none := by
    cases found : (ackPosition info cursor (cursorPosition pos)).state.markDelete with
    | none => rfl
    | some mark =>
      obtain ⟨later, laterFound, _⟩ := advanced.marks mark found
      rw [missing] at laterFound
      simp at laterFound
  obtain ⟨wasMissing, notFirst⟩ := noMark noMarkBefore
  obtain ⟨firstStored, firstFree, _⟩ := first_position_some ordered firstFound
  rw [advanced.acked first firstStored, acked.acked first firstStored] at isAcked
  obtain old | same := isAcked
  · exact stuck.first wasMissing first firstFound old
  · have equal : first = cursorPosition pos := ext_slot same firstFree
    exact notFirst (by rw [← equal, firstFree]; exact firstFound.symm)

end RocksDBManagedCursor

end PulsarLite.Storage
