import Mathlib.Data.List.Basic
import StorageStack.Partition.Image
import StorageStack.Proofs.Disk.Reads

/-! # Scanning as greedy selection

A disk whose sectors do not change proposes one sequence of candidates: the primaries of
its first sector, and then the logical ones of each chain. A scan keeps the greedy
selection from that sequence as far as the table has room for it.
-/

namespace StorageStack

namespace BootSector

/-- The entries of a boot sector that are not empty, in slot order: the extended ones, or the
others. -/
def slotted (sector : BootSector) (extended : Bool) : List (Nat × Entry) :=
  (List.range 4).filterMap fun slot => (sector.entry? slot).bind fun entry =>
    if entry.typeCode ≠ TypeCode.empty ∧ entry.count ≠ 0 ∧ entry.isExtended = extended then
      some (slot, entry)
    else none

theorem filter_entries (sector : BootSector) (extended : Bool) :
    (sector.entries.filter fun slotted => slotted.2.isExtended == extended) =
      sector.slotted extended := by
  rw [entries, List.filter_filterMap]
  refine List.filterMap_congr fun slot _ => ?_
  cases sector.entry? slot with
  | none => rfl
  | some entry =>
      by_cases htype : entry.typeCode = TypeCode.empty
      · simp [Entry.isEmpty, htype]
      · by_cases hcount : entry.count = 0
        · simp [Entry.isEmpty, hcount]
        · simp [Entry.isEmpty, htype, hcount, Option.filter_some]

theorem dataEntries_eq (sector : BootSector) : sector.dataEntries = sector.slotted false := by
  rw [← filter_entries, dataEntries]
  exact List.filter_congr fun slotted _ => by cases slotted.2.isExtended <;> rfl

theorem extendedEntries_eq (sector : BootSector) :
    sector.extendedEntries = (sector.slotted true).map Prod.snd := by
  rw [← filter_entries, extendedEntries]
  congr 1
  exact List.filter_congr fun slotted _ => by cases slotted.2.isExtended <;> rfl

end BootSector

namespace Candidate

/-- Two candidates that claim no common sector. -/
def Apart (left right : Candidate) : Prop :=
  left.finish ≤ right.start ∨ right.finish ≤ left.start

instance (left right : Candidate) : Decidable (left.Apart right) :=
  inferInstanceAs (Decidable (_ ∨ _))

/-- Greedy selection: each candidate is kept that keeps to its bounds and lies apart from
all that were kept before it. -/
def keep (kept : List Candidate) : List Candidate → List Candidate
  | [] => kept
  | candidate :: rest =>
      if candidate.InBounds ∧ ∀ earlier ∈ kept, earlier.Apart candidate then
        keep (kept ++ [candidate]) rest
      else keep kept rest

/-- The table of a selection: the whole disk, and behind it each candidate in its slot. -/
def listing (sectorCount : Nat) (kept : List Candidate) : List Partition :=
  Partition.wholeDisk sectorCount ::
    kept.mapIdx fun index candidate => candidate.toPartition (index + 1)

/-- The partitions that a table has room for behind the whole disk. -/
def capacity : Nat := Limits.maxPartitions - 1

theorem capacity_add_one : capacity + 1 = Limits.maxPartitions := rfl

theorem keep_append (kept first second : List Candidate) :
    keep kept (first ++ second) = keep (keep kept first) second := by
  induction first generalizing kept with
  | nil => rfl
  | cons candidate rest ih =>
      rw [List.cons_append, keep, keep]
      split
      · exact ih _
      · exact ih _

/-- What was kept stays kept, in front. -/
theorem prefix_keep (kept candidates : List Candidate) : kept <+: keep kept candidates := by
  induction candidates generalizing kept with
  | nil => exact List.prefix_rfl
  | cons candidate rest ih =>
      rw [keep]
      split
      · exact (List.prefix_append kept [candidate]).trans (ih _)
      · exact ih _

theorem length_le_keep (kept candidates : List Candidate) :
    kept.length ≤ (keep kept candidates).length :=
  (prefix_keep kept candidates).length_le

/-- Behind a full table, selection goes on without effect on what the table holds. -/
theorem take_keep {kept : List Candidate} (hfull : capacity ≤ kept.length)
    (candidates : List Candidate) :
    (keep kept candidates).take capacity = kept.take capacity := by
  obtain ⟨later, hlater⟩ := prefix_keep kept candidates
  rw [← hlater, List.take_append_of_le_length hfull]

/-- Candidates within their bounds and apart from each other are all kept. -/
theorem keep_eq_append {kept candidates : List Candidate}
    (hbounds : ∀ candidate ∈ candidates, candidate.InBounds)
    (hapart : (kept ++ candidates).Pairwise Apart) : keep kept candidates = kept ++ candidates := by
  induction candidates generalizing kept with
  | nil => rw [keep, List.append_nil]
  | cons candidate rest ih =>
      have hbefore : ∀ earlier ∈ kept, earlier.Apart candidate := by
        intro earlier hearlier
        exact (List.pairwise_append.mp hapart).2.2 earlier hearlier candidate List.mem_cons_self
      rw [List.append_cons] at hapart ⊢
      rw [keep, if_pos ⟨hbounds candidate List.mem_cons_self, hbefore⟩]
      apply ih _ hapart
      intro later hlater
      exact hbounds later (List.mem_cons_of_mem _ hlater)

@[simp] theorem length_listing (sectorCount : Nat) (kept : List Candidate) :
    (listing sectorCount kept).length = kept.length + 1 := by
  rw [listing, List.length_cons, List.length_mapIdx]

theorem listing_append (sectorCount : Nat) (kept : List Candidate) (candidate : Candidate) :
    listing sectorCount (kept ++ [candidate]) =
      listing sectorCount kept ++ [candidate.toPartition (listing sectorCount kept).length] := by
  rw [length_listing, listing, listing, List.mapIdx_concat, List.cons_append]

/-- To fit a listed selection is to keep to the bounds and lie apart from its members. -/
theorem fits_listing_iff (sectorCount : Nat) (kept : List Candidate) (candidate : Candidate) :
    candidate.Fits (listing sectorCount kept) ↔
      candidate.InBounds ∧ ∀ earlier ∈ kept, earlier.Apart candidate := by
  have hmeets : ∀ (earlier : Candidate) (slot : Nat),
      ¬ (earlier.toPartition slot).Overlaps candidate.start candidate.finish ↔
        earlier.Apart candidate := by
    intro earlier slot
    change ¬ (candidate.start < earlier.finish ∧ earlier.start < candidate.finish) ↔
      earlier.finish ≤ candidate.start ∨ candidate.finish ≤ earlier.start
    omega
  refine and_congr_right fun _ => ⟨fun hfits earlier hearlier => ?_, fun hapart partition hmem => ?_⟩
  · obtain ⟨slot, hslot, rfl⟩ := List.mem_iff_getElem.mp hearlier
    refine (hmeets _ (slot + 1)).mp (hfits _ ?_)
    exact List.mem_mapIdx.mpr ⟨slot, hslot, rfl⟩
  · obtain ⟨slot, hslot, rfl⟩ := List.mem_mapIdx.mp hmem
    exact (hmeets _ _).mpr (hapart _ (List.getElem_mem hslot))

end Candidate

namespace Container

/-- The signed sectors of a chain with their positions, for a bounded number of sectors
from `lba` on. -/
def chainFrom (container : Container) (contents : Contents) (sectorCount : Nat) :
    Nat → Nat → List (Nat × BootSector)
  | 0, _ => []
  | hops + 1, lba =>
      if sectorCount ≤ lba then []
      else
        match contents.bootSector? lba with
        | none => []
        | some sector =>
            (lba, sector) ::
              match sector.link? with
              | none => []
              | some offset => container.chainFrom contents sectorCount hops (container.head + offset)

/-- The chain of a container, up to the bound on its length. -/
def chain (container : Container) (contents : Contents) (sectorCount : Nat) :
    List (Nat × BootSector) :=
  container.chainFrom contents sectorCount Limits.maxExtendedHops container.head

/-- What the sectors of a chain propose, in the order of the chain. -/
def proposals (container : Container) (chain : List (Nat × BootSector)) : List Candidate :=
  chain.flatMap fun linked => linked.2.logicals linked.1 container.finish

/-- A chain of so many sectors with one more link behind its last. -/
def Overlong (hops : Nat) (chain : List (Nat × BootSector)) : Prop :=
  chain.length = hops ∧ ∀ last ∈ chain.getLast?, last.2.link?.isSome

theorem not_overlong_nil (hops : Nat) : ¬ Overlong (hops + 1) [] :=
  fun hlong => Nat.succ_ne_zero hops hlong.1.symm

theorem not_overlong_singleton {hops lba : Nat} {sector : BootSector}
    (hlink : sector.link? = none) : ¬ Overlong (hops + 1) [(lba, sector)] := by
  intro hlong
  have hsome := hlong.2 (lba, sector) rfl
  rw [hlink] at hsome
  cases hsome

theorem overlong_cons_iff {hops lba offset : Nat} {sector : BootSector}
    (hlink : sector.link? = some offset) (chain : List (Nat × BootSector)) :
    Overlong (hops + 1) ((lba, sector) :: chain) ↔ Overlong hops chain := by
  refine and_congr (by rw [List.length_cons, Nat.add_left_inj]) ?_
  cases chain with
  | nil =>
      refine ⟨fun _ last hlast => (by cases hlast), fun _ last hlast => ?_⟩
      cases hlast
      change sector.link?.isSome = true
      rw [hlink, Option.isSome_some]
  | cons next rest => rw [List.getLast?_cons_cons]

theorem overlong_iff {hops : Nat} (hpos : 0 < hops) (chain : List (Nat × BootSector)) :
    Overlong hops chain ↔ chain.length = hops ∧
      ∃ last, chain.getLast? = some last ∧ last.2.link?.isSome := by
  refine and_congr_right fun hlength => ?_
  cases hlast : chain.getLast? with
  | none =>
      rw [List.getLast?_eq_none_iff.mp hlast, List.length_nil] at hlength
      exact absurd hlength (Nat.ne_of_lt hpos)
  | some last => simp

end Container

namespace Scan

open Candidate Container

/-- Trying candidates keeps what the selection keeps, as long as there is room, and is
truncated when the selection needs more. -/
theorem admitAll_listing (sectorCount : Nat) {kept : List Candidate} (candidates : List Candidate)
    (hroom : kept.length ≤ capacity) :
    admitAll candidates (listing sectorCount kept) =
      (if capacity < (keep kept candidates).length then .truncated else .complete,
        listing sectorCount ((keep kept candidates).take capacity)) := by
  induction candidates generalizing kept with
  | nil =>
      rw [admitAll, keep, if_neg (Nat.not_lt.mpr hroom), List.take_of_length_le hroom]
  | cons candidate rest ih =>
      rw [admitAll, keep]
      by_cases hfits : candidate.InBounds ∧ ∀ earlier ∈ kept, earlier.Apart candidate
      · rw [if_pos ((fits_listing_iff sectorCount kept candidate).mpr hfits), if_pos hfits,
          length_listing, ← capacity_add_one]
        by_cases hfree : kept.length < capacity
        · rw [if_pos (Nat.succ_lt_succ hfree), ← length_listing sectorCount, ← listing_append]
          refine ih ?_
          rw [List.length_append]
          exact hfree
        · -- The candidate is one too many, for the table and for the selection.
          have hfull : kept.length = capacity := Nat.le_antisymm hroom (Nat.le_of_not_lt hfree)
          have hmore : capacity < (keep (kept ++ [candidate]) rest).length := by
            have hkept := length_le_keep (kept ++ [candidate]) rest
            rw [List.length_append, List.length_singleton, hfull] at hkept
            exact hkept
          have hlonger : capacity ≤ (kept ++ [candidate]).length := by
            rw [List.length_append, hfull]
            exact Nat.le_succ _
          rw [if_neg (by omega), if_pos hmore, take_keep hlonger,
            List.take_append_of_le_length (Nat.le_of_eq hfull.symm), List.take_of_length_le hroom]
      · rw [if_neg (mt (fits_listing_iff sectorCount kept candidate).mp hfits), if_neg hfits]
        exact ih hroom

/-- A full table stays as it is. -/
theorem table_admitAll_of_full {table : List Partition} (hfull : Limits.maxPartitions ≤ table.length)
    (candidates : List Candidate) : (admitAll candidates table).2 = table := by
  induction candidates with
  | nil => rfl
  | cons candidate rest ih =>
      rw [admitAll]
      split
      · rw [if_neg (Nat.not_lt.mpr hfull)]
      · exact ih

variable {δ : Type} [DiskDriver δ]

theorem table_walkAll_of_full (geometry : Geometry) (containers : List Container) (scan : Scan δ)
    (hfull : Limits.maxPartitions ≤ scan.table.length) :
    (walkAll geometry containers scan).2.table = scan.table := by
  refine walkAll_induct (motive := fun walked => walked.table = scan.table) (fun container _ => ?_) rfl
  refine ⟨fun hsame _ => hsame, fun hsame _ _ => ?_⟩
  dsimp only at hsame ⊢
  rw [hsame]
  exact table_admitAll_of_full hfull _

/-- A walk along a chain keeps what the selection keeps from its sectors. It is truncated
when the selection outgrows the table, and when the chain outgrows the bound. -/
structure Follows (geometry : Geometry) (contents : Contents) (container : Container) (hops : Nat)
    (kept : List Candidate) (chain : List (Nat × BootSector)) (walked : ScanStatus × Scan δ) :
    Prop where
  steady : Steady geometry.sectorSize contents walked.2.driver
  table : walked.2.table = listing geometry.sectorCount
    ((keep kept (container.proposals chain)).take capacity)
  truncated_iff : walked.1 = .truncated ↔
    capacity < (keep kept (container.proposals chain)).length ∨ Overlong hops chain

section Follows

variable {geometry : Geometry} {contents : Contents} {container : Container} {hops lba : Nat}
  {driver : δ} {kept : List Candidate} {sector : BootSector}

theorem follows_zero (hsteady : Steady geometry.sectorSize contents driver)
    (hroom : kept.length ≤ capacity) :
    Follows geometry contents container 0 kept []
      (.truncated, ⟨driver, listing geometry.sectorCount kept⟩) where
  steady := hsteady
  table := by
    rw [show keep kept _ = kept from rfl, List.take_of_length_le hroom]
  truncated_iff := iff_of_true rfl (Or.inr ⟨rfl, fun _ hlast => by cases hlast⟩)

theorem follows_nil (hsteady : Steady geometry.sectorSize contents driver)
    (hroom : kept.length ≤ capacity) :
    Follows geometry contents container (hops + 1) kept []
      (.complete, ⟨driver, listing geometry.sectorCount kept⟩) where
  steady := hsteady
  table := by
    rw [show keep kept _ = kept from rfl, List.take_of_length_le hroom]
  truncated_iff := by
    refine iff_of_false (by simp) (not_or.mpr ⟨Nat.not_lt.mpr hroom, not_overlong_nil hops⟩)

theorem follows_full (hsteady : Steady geometry.sectorSize contents driver)
    (hfull : capacity < (keep kept (sector.logicals lba container.finish)).length)
    (chain : List (Nat × BootSector)) :
    Follows geometry contents container hops kept ((lba, sector) :: chain)
      (.truncated, ⟨driver, listing geometry.sectorCount
        ((keep kept (sector.logicals lba container.finish)).take capacity)⟩) where
  steady := hsteady
  table := by
    rw [proposals, List.flatMap_cons, keep_append, take_keep (Nat.le_of_lt hfull)]
  truncated_iff := by
    rw [proposals, List.flatMap_cons, keep_append]
    exact iff_of_true rfl (Or.inl (Nat.lt_of_lt_of_le hfull (length_le_keep _ _)))

theorem follows_last (hsteady : Steady geometry.sectorSize contents driver)
    (hlink : sector.link? = none)
    (hroom : (keep kept (sector.logicals lba container.finish)).length ≤ capacity) :
    Follows geometry contents container (hops + 1) kept [(lba, sector)]
      (.complete, ⟨driver, listing geometry.sectorCount
        (keep kept (sector.logicals lba container.finish))⟩) where
  steady := hsteady
  table := by
    rw [proposals, List.flatMap_singleton, List.take_of_length_le hroom]
  truncated_iff := by
    rw [proposals, List.flatMap_singleton]
    exact iff_of_false (by simp)
      (not_or.mpr ⟨Nat.not_lt.mpr hroom, not_overlong_singleton hlink⟩)

theorem Follows.cons {chain : List (Nat × BootSector)} {walked : ScanStatus × Scan δ} {offset : Nat}
    (hfollows : Follows geometry contents container hops
      (keep kept (sector.logicals lba container.finish)) chain walked)
    (hlink : sector.link? = some offset) :
    Follows geometry contents container (hops + 1) kept ((lba, sector) :: chain) walked where
  steady := hfollows.steady
  table := by
    rw [proposals, List.flatMap_cons, keep_append]
    exact hfollows.table
  truncated_iff := by
    rw [proposals, List.flatMap_cons, keep_append, overlong_cons_iff hlink]
    exact hfollows.truncated_iff

theorem follows_walk (container : Container) (hops lba : Nat)
    (hsteady : Steady geometry.sectorSize contents driver) (hroom : kept.length ≤ capacity) :
    Follows geometry contents container hops kept
      (container.chainFrom contents geometry.sectorCount hops lba)
      (walk geometry container hops lba ⟨driver, listing geometry.sectorCount kept⟩) := by
  induction hops generalizing lba driver kept with
  | zero => exact follows_zero hsteady hroom
  | succ hops ih =>
      unfold walk chainFrom
      by_cases hoff : geometry.sectorCount ≤ lba
      · rw [if_pos hoff, if_pos hoff]
        exact follows_nil hsteady hroom
      · rw [if_neg hoff, if_neg hoff]
        cases hsector : contents.bootSector? lba with
        | none =>
            obtain ⟨cause, after, hafter, hread⟩ := hsteady.readBootSector_eq_error hsector
            rw [hread]
            exact follows_nil hafter hroom
        | some sector =>
            obtain ⟨after, hafter, hread⟩ := hsteady.readBootSector_eq_ok hsector
            rw [hread]
            dsimp only
            rw [admitAll_listing geometry.sectorCount _ hroom]
            by_cases hfull : capacity < (keep kept (sector.logicals lba container.finish)).length
            · rw [if_pos hfull]
              exact follows_full hafter hfull _
            · have hfits := Nat.le_of_not_lt hfull
              rw [if_neg hfull, List.take_of_length_le hfits]
              dsimp only
              cases hlink : sector.link? with
              | none => exact follows_last hafter hlink hfits
              | some offset => exact (ih _ hafter hfits).cons hlink

end Follows

theorem ScanStatus.join_eq_truncated_iff (first later : ScanStatus) :
    first.join later = .truncated ↔ first = .truncated ∨ later = .truncated := by
  cases first <;> cases later <;> simp [ScanStatus.join]

/-- The walks along all chains keep what the selection keeps from their sectors. Once one of
them has filled the table, the others change nothing. -/
theorem walkAll_listing {geometry : Geometry} {contents : Contents} (containers : List Container)
    {driver : δ} {kept : List Candidate} (hsteady : Steady geometry.sectorSize contents driver)
    (hroom : kept.length ≤ capacity) :
    let chosen := keep kept (containers.flatMap fun container =>
      container.proposals (container.chain contents geometry.sectorCount))
    let walked := walkAll geometry containers ⟨driver, listing geometry.sectorCount kept⟩
    walked.2.table = listing geometry.sectorCount (chosen.take capacity) ∧
      (walked.1 = .truncated ↔ capacity < chosen.length ∨ ∃ container ∈ containers,
        Overlong Limits.maxExtendedHops (container.chain contents geometry.sectorCount)) := by
  induction containers generalizing driver kept with
  | nil =>
      refine ⟨?_, iff_of_false (by simp [walkAll]) ?_⟩
      · rw [List.flatMap_nil, keep, List.take_of_length_le hroom, walkAll]
      · simpa [keep] using hroom
  | cons container rest ih =>
      have hfirst := follows_walk container Limits.maxExtendedHops container.head hsteady hroom
      rw [← chain] at hfirst
      rw [List.flatMap_cons, keep_append, walkAll]
      dsimp only
      rw [ScanStatus.join_eq_truncated_iff, hfirst.truncated_iff]
      generalize walk geometry container Limits.maxExtendedHops container.head
        ⟨driver, listing geometry.sectorCount kept⟩ = walked at hfirst ⊢
      obtain ⟨status, between, table⟩ := walked
      obtain ⟨hbetween, htable, -⟩ := hfirst
      dsimp only at htable
      subst htable
      generalize keep kept (container.proposals (container.chain contents geometry.sectorCount)) =
        selected
      dsimp only at hbetween ⊢
      by_cases hfull : capacity < selected.length
      · have hlength : Limits.maxPartitions ≤
            (listing geometry.sectorCount (selected.take capacity)).length := by
          apply Nat.le_of_eq
          rw [length_listing, List.length_take_of_le (Nat.le_of_lt hfull), capacity_add_one]
        refine ⟨(table_walkAll_of_full geometry rest ⟨between, _⟩ hlength).trans ?_,
          iff_of_true (Or.inl (Or.inl hfull)) (Or.inl ?_)⟩
        · rw [take_keep (Nat.le_of_lt hfull)]
          rfl
        · exact Nat.lt_of_lt_of_le hfull (length_le_keep _ _)
      · have hfits := Nat.le_of_not_lt hfull
        rw [List.take_of_length_le hfits]
        obtain ⟨htable, htruncated⟩ := ih hbetween hfits
        refine ⟨htable, ?_⟩
        rw [htruncated, List.exists_mem_cons_iff]
        tauto

/-- What a disk with the given first sector proposes: its primaries in slot order, then for
each container, in slot order, the logical candidates of its chain. -/
def proposals (contents : Contents) (mbr : BootSector) (sectorCount : Nat) : List Candidate :=
  mbr.primaries sectorCount ++
    (mbr.containers sectorCount).flatMap fun container =>
      container.proposals (container.chain contents sectorCount)

/-- Where there is room for the selection and no chain outgrows the bound, the scan is complete. -/
theorem run_of_room {geometry : Geometry} {contents : Contents} {driver : δ} {mbr : BootSector}
    (hsize : Limits.sectorSize ≤ geometry.sectorSize)
    (hsteady : Steady geometry.sectorSize contents driver)
    (hmbr : contents.bootSector? 0 = some mbr)
    (hroom : (keep [] (proposals contents mbr geometry.sectorCount)).length ≤ capacity)
    (hchains : ∀ container ∈ mbr.containers geometry.sectorCount,
      ¬ Overlong Limits.maxExtendedHops (container.chain contents geometry.sectorCount)) :
    ∃ after, run geometry ⟨driver, [Partition.wholeDisk geometry.sectorCount]⟩ =
        .ok .complete after ∧
      after.table =
        listing geometry.sectorCount (keep [] (proposals contents mbr geometry.sectorCount)) := by
  obtain ⟨between, hbetween, hread⟩ := hsteady.readBootSector_eq_ok hmbr
  have hempty : ([] : List Candidate).length ≤ capacity := Nat.zero_le _
  have hprimaries := admitAll_listing geometry.sectorCount (mbr.primaries geometry.sectorCount) hempty
  rw [proposals, keep_append] at hroom ⊢
  generalize keep [] (mbr.primaries geometry.sectorCount) = selected at hprimaries hroom ⊢
  have hfits : selected.length ≤ capacity := Nat.le_trans (length_le_keep _ _) hroom
  rw [if_neg (Nat.not_lt.mpr hfits), List.take_of_length_le hfits] at hprimaries
  obtain ⟨htable, htruncated⟩ := walkAll_listing (mbr.containers geometry.sectorCount) hbetween hfits
  rw [List.take_of_length_le hroom] at htable
  rw [run, if_neg (Nat.not_lt.mpr hsize), hread]
  dsimp only
  rw [show [Partition.wholeDisk geometry.sectorCount] = listing geometry.sectorCount [] from rfl,
    hprimaries]
  dsimp only
  generalize walkAll geometry (mbr.containers geometry.sectorCount)
    ⟨between, listing geometry.sectorCount selected⟩ = walked at htable htruncated ⊢
  obtain ⟨status, after⟩ := walked
  cases status with
  | complete => exact ⟨after, rfl, htable⟩
  | truncated =>
      rcases htruncated.mp rfl with hmore | ⟨container, hcontainer, hlong⟩
      · exact absurd hroom (Nat.not_le.mpr hmore)
      · exact absurd hlong (hchains container hcontainer)

/-- What the entries of boot sectors propose, in slot order. Primaries keep clear of the first
sector of the disk, and logical partitions of the sector of their chain that lists them, from
which they are counted. A container ends with the disk at the latest, and the first link of a
sector of its chain is the only one that counts. -/
structure Proposes (mbr : BootSector) (sectorCount : Nat) : Prop where
  primaries : mbr.primaries sectorCount = (mbr.slotted false).map fun (slot, entry) =>
    { entry, base := 0, lower := 1, upper := sectorCount, mbrNum := slot + 1,
      eraseBlock := mbr.eraseBlock? slot }
  containers : mbr.containers sectorCount = (mbr.slotted true).map fun (_, entry) =>
    ⟨entry.start.toNat, min (entry.start.toNat + entry.count.toNat) sectorCount⟩
  logicals : ∀ (sector : BootSector) (lba finish : Nat),
    sector.logicals lba finish = (sector.slotted false).map fun (_, entry) =>
      { entry, base := lba, lower := lba + 1, upper := finish, mbrNum := 0, eraseBlock := none }
  link : ∀ sector : BootSector,
    sector.link? = (sector.slotted true).head?.map fun (_, entry) => entry.start.toNat

theorem proposes (mbr : BootSector) (sectorCount : Nat) : Proposes mbr sectorCount where
  primaries := by rw [BootSector.primaries, mbr.dataEntries_eq]
  containers := by
    rw [BootSector.containers, mbr.extendedEntries_eq, List.map_map]
    rfl
  logicals sector lba finish := by rw [BootSector.logicals, sector.dataEntries_eq]
  link sector := by
    rw [BootSector.link?, sector.extendedEntries_eq, List.head?_map, Option.map_map]
    rfl

/-- The scan of an unchanging disk lists the greedy selection from what the disk proposes, cut
off where the table is full. It is truncated exactly if the selection is cut off or some
chain goes on behind the bound. -/
theorem run_eq_greedy {geometry : Geometry} {contents : Contents} {driver : δ} {mbr : BootSector}
    (hsize : Limits.sectorSize ≤ geometry.sectorSize)
    (hsteady : Steady geometry.sectorSize contents driver)
    (hmbr : contents.bootSector? 0 = some mbr) :
    Proposes mbr geometry.sectorCount ∧ ∃ status after,
      run geometry ⟨driver, [Partition.wholeDisk geometry.sectorCount]⟩ = .ok status after ∧
      after.table = Partition.wholeDisk geometry.sectorCount ::
        ((keep [] (proposals contents mbr geometry.sectorCount)).take
          (Limits.maxPartitions - 1)).mapIdx (fun index candidate =>
            { logicalNum := index + 1
              mbrNum := candidate.mbrNum
              start := candidate.base + candidate.entry.start.toNat
              count := candidate.entry.count.toNat
              bootable := candidate.entry.bootable
              bootUnit := candidate.entry.bootUnit
              typeCode := candidate.entry.typeCode
              eraseBlock := candidate.eraseBlock }) ∧
      (status = .truncated ↔
        Limits.maxPartitions - 1 < (keep [] (proposals contents mbr geometry.sectorCount)).length ∨
        ∃ container ∈ mbr.containers geometry.sectorCount,
          (container.chain contents geometry.sectorCount).length = Limits.maxExtendedHops ∧
          ∃ last, (container.chain contents geometry.sectorCount).getLast? = some last ∧
            last.2.link?.isSome) := by
  refine ⟨proposes mbr _, ?_⟩
  obtain ⟨between, hbetween, hread⟩ := hsteady.readBootSector_eq_ok hmbr
  have hempty : ([] : List Candidate).length ≤ capacity := Nat.zero_le _
  have hprimaries := admitAll_listing geometry.sectorCount (mbr.primaries geometry.sectorCount) hempty
  simp only [← overlong_iff (show 0 < Limits.maxExtendedHops by decide)]
  unfold run proposals
  rw [if_neg (Nat.not_lt.mpr hsize), hread]
  dsimp only
  rw [show [Partition.wholeDisk geometry.sectorCount] = listing geometry.sectorCount [] from rfl,
    hprimaries, keep_append]
  generalize keep [] (mbr.primaries geometry.sectorCount) = selected
  by_cases hfull : capacity < selected.length
  · rw [if_pos hfull]
    refine ⟨.truncated, _, rfl, ?_, iff_of_true rfl (Or.inl ?_)⟩
    · rw [← capacity, take_keep (Nat.le_of_lt hfull)]
      rfl
    · exact Nat.lt_of_lt_of_le hfull (length_le_keep _ _)
  · have hfits := Nat.le_of_not_lt hfull
    rw [if_neg hfull, List.take_of_length_le hfits]
    exact ⟨_, _, rfl, walkAll_listing (mbr.containers geometry.sectorCount) hbetween hfits⟩

/-- A disk with two primaries that overlap, one that reaches for the first sector, and a chain of
two sectors that is cut off by the end of the disk. A second link, a logical partition that reaches
for the sector that lists it, and one that leaves the container are passed over. -/
theorem run_eq_greedy_overlapping :
    let disk := RamDisk.ofPatches 580
      [.entry 0 0 ⟨0x81, TypeCode.fat16, 100, 100⟩, .entry 0 1 ⟨0, TypeCode.fat16, 150, 100⟩,
        .entry 0 2 ⟨0, TypeCode.extendedChs, 400, 200⟩, .entry 0 3 ⟨0, TypeCode.fat16, 0, 50⟩,
        .eraseTable 0 [8, 0, 0, 0], .sign 0,
        .entry 400 0 ⟨0, TypeCode.linux, 1, 50⟩,
        .entry 400 1 ⟨0, TypeCode.extendedLba, 100, 100⟩,
        .entry 400 2 ⟨0, TypeCode.extendedLinux, 60, 20⟩, .entry 400 3 ⟨0, TypeCode.linux, 0, 1⟩,
        .sign 400,
        .entry 460 0 ⟨0, TypeCode.linux, 1, 5⟩, .sign 460,
        .entry 500 0 ⟨0, TypeCode.littleFs, 1, 79⟩, .entry 500 1 ⟨0, TypeCode.linux, 80, 1⟩,
        .sign 500]
    Steady 512 (disk.sectors 512) disk ∧
      ∃ mbr, (disk.sectors 512).bootSector? 0 = some mbr ∧
        (keep [] (proposals (disk.sectors 512) mbr 580)).map (·.start) = [100, 401, 501] ∧
        ∃ status after, run ⟨512, 580, 1024⟩ ⟨disk, [Partition.wholeDisk 580]⟩ = .ok status after ∧
          after.table = [⟨0, 0, 0, 580, false, 0, TypeCode.empty, none⟩,
            ⟨1, 1, 100, 100, true, 1, TypeCode.fat16, some 8⟩,
            ⟨2, 0, 401, 50, false, 0, TypeCode.linux, none⟩,
            ⟨3, 0, 501, 79, false, 0, TypeCode.littleFs, none⟩] := by
  intro disk
  let selected (mbr : BootSector) := keep [] (proposals (disk.sectors 512) mbr 580)
  have hselected : ((disk.sectors 512).bootSector? 0).map selected =
      some [⟨⟨0x81, TypeCode.fat16, 100, 100⟩, 0, 1, 580, 1, some 8⟩,
        ⟨⟨0, TypeCode.linux, 1, 50⟩, 400, 401, 580, 0, none⟩,
        ⟨⟨0, TypeCode.littleFs, 1, 79⟩, 500, 501, 580, 0, none⟩] := by
    decide +kernel
  obtain ⟨mbr, hmbr, hselected⟩ := Option.map_eq_some_iff.mp hselected
  obtain ⟨-, status, after, hrun, htable, -⟩ :=
    @run_eq_greedy RamDisk _ ⟨512, 580, 1024⟩ (disk.sectors 512) disk mbr (Nat.le_refl 512)
      (disk.steady 512) hmbr
  change keep [] (proposals (disk.sectors 512) mbr 580) = _ at hselected
  rw [hselected] at htable
  refine ⟨disk.steady 512, mbr, hmbr, ?_, status, after, hrun, htable.trans ?_⟩
  · rw [hselected]
    decide
  · decide +kernel

end Scan

end StorageStack
