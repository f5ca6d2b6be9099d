import StorageStack.Proofs.Partition.Table

/-! # Scans with bounded sums

A scan forms its sums from 32-bit fields, each added to a sector number that itself came from
such a sum. A scan that gives up at the first sum that reaches a limit, or at a slot number
that is not a byte, gives up nowhere if the limit is large enough, since the sectors of a chain
stay within one link of its head.
-/

namespace StorageStack

/-- The sum of two numbers, if it stays below the limit. -/
def sum? (limit left right : Nat) : Option Nat :=
  if left + right < limit then some (left + right) else none

theorem sum?_of_lt {limit left right : Nat} (hsum : left + right < limit) :
    sum? limit left right = some (left + right) :=
  if_pos hsum

/-- Whether the partition shares a sector with the range. The end of the partition is a sum. -/
def Partition.overlaps? (limit : Nat) (partition : Partition) (start finish : Nat) : Option Bool := do
  let behind ← sum? limit partition.start partition.count
  return decide (start < behind ∧ partition.start < finish)

namespace BootSector

/-- The containers of the first sector. Each end is a sum. -/
def containers? (limit : Nat) (sector : BootSector) (sectorCount : Nat) : Option (List Container) :=
  sector.extendedEntries.mapM fun entry => do
    let finish ← sum? limit entry.start.toNat entry.count.toNat
    return ⟨entry.start.toNat, min finish sectorCount⟩

/-- The logical candidates of a chain sector. The sector behind it is a sum. -/
def logicals? (limit : Nat) (sector : BootSector) (lba finish : Nat) : Option (List Candidate) := do
  let lower ← sum? limit lba 1
  return sector.dataEntries.map fun (_, entry) => { entry, base := lba, lower, upper := finish }

/-- The sector behind the first link, if there is a link. It is a sum. -/
def next? (limit head : Nat) (sector : BootSector) : Option (Option Nat) :=
  match sector.link? with
  | none => some none
  | some offset => (sum? limit head offset).map some

end BootSector

theorem BootSector.link?_lt (sector : BootSector) {offset : Nat} (hlink : sector.link? = some offset) :
    offset < UInt32.size := by
  obtain ⟨entry, -, rfl⟩ := Option.map_eq_some_iff.mp hlink
  exact entry.start.toNat_lt

namespace Scan

/-- Try candidates in order, with the ends of candidates and partitions as sums and each slot
number as a byte. -/
def admitAll? (limit : Nat) : List Candidate → List Partition → Option (ScanStatus × List Partition)
  | [], table => some (.complete, table)
  | candidate :: rest, table => do
      let start ← sum? limit candidate.base candidate.entry.start.toNat
      let finish ← sum? limit start candidate.entry.count.toNat
      if candidate.lower ≤ start ∧ finish ≤ candidate.upper then
        let met ← table.tail.anyM fun partition => partition.overlaps? limit start finish
        if met then admitAll? limit rest table
        else if UInt8.size ≤ table.length then none
        else if table.length < Limits.maxPartitions then
          let kept := { candidate.toPartition table.length with start }
          admitAll? limit rest (table ++ [kept])
        else return (.truncated, table)
      else admitAll? limit rest table

variable {δ : Type} [DiskDriver δ]

/-- Follow an extended chain. The sums of a sector are formed before anything of it is kept. -/
def walk? (limit : Nat) (geometry : Geometry) (container : Container) :
    Nat → Nat → Scan δ → Option (ScanStatus × Scan δ)
  | 0, _, scan => some (.truncated, scan)
  | hops + 1, lba, scan =>
      if geometry.sectorCount ≤ lba then some (.complete, scan)
      else
        match readBootSector geometry.sectorSize lba scan.driver with
        | .error _ driver => some (.complete, { scan with driver })
        | .ok sector driver => do
            let candidates ← sector.logicals? limit lba container.finish
            let next ← sector.next? limit container.head
            match ← admitAll? limit candidates scan.table, next with
            | (.truncated, table), _ => return (.truncated, ⟨driver, table⟩)
            | (.complete, table), none => return (.complete, ⟨driver, table⟩)
            | (.complete, table), some lba => walk? limit geometry container hops lba ⟨driver, table⟩

/-- Walk every container. -/
def walkAll? (limit : Nat) (geometry : Geometry) :
    List Container → Scan δ → Option (ScanStatus × Scan δ)
  | [], scan => some (.complete, scan)
  | container :: rest, scan => do
      let first ← walk? limit geometry container Limits.maxExtendedHops container.head scan
      let later ← walkAll? limit geometry rest first.2
      return (first.1.join later.1, later.2)

/-- Scan the disk. The sums of the first sector are formed before anything of it is kept. -/
def run? (limit : Nat) (geometry : Geometry) (scan : Scan δ) :
    Option (Except StorageError ScanStatus × Scan δ) :=
  if geometry.sectorSize < Limits.sectorSize then some (.error .invalidArgument, scan)
  else
    match readBootSector geometry.sectorSize 0 scan.driver with
    | .error cause driver => some (.error cause, { scan with driver })
    | .ok sector driver => do
        let containers ← sector.containers? limit geometry.sectorCount
        match ← admitAll? limit (sector.primaries geometry.sectorCount) scan.table with
        | (.truncated, table) => return (.ok .truncated, ⟨driver, table⟩)
        | (.complete, table) =>
            let walked ← walkAll? limit geometry containers ⟨driver, table⟩
            return (.ok walked.1, walked.2)

/-- No sum of a scan reaches this number. -/
def sumBound : Nat := 1 <<< 35

/-- A table whose partitions end below the bound, in so many slots that a byte can number them. -/
structure Bounded (table : List Partition) : Prop where
  length_le : table.length ≤ Limits.maxPartitions
  finish_lt : ∀ partition ∈ table.tail, partition.finish < sumBound

theorem bounded_whole (sectorCount : Nat) : Bounded [Partition.wholeDisk sectorCount] where
  length_le := (soundTable_whole sectorCount).length_le
  finish_lt := by simp

theorem Bounded.append {table : List Partition} {partition : Partition} (htable : Bounded table)
    (hroom : table.length < Limits.maxPartitions) (hfinish : partition.finish < sumBound) :
    Bounded (table ++ [partition]) where
  length_le := by rwa [List.length_append, List.length_singleton]
  finish_lt := by
    cases table with
    | nil => simp
    | cons whole listed =>
        exact List.forall_mem_append.mpr
          ⟨htable.finish_lt, List.forall_mem_singleton.mpr hfinish⟩

section Sums

variable {limit : Nat} (hlimit : sumBound ≤ limit)

include hlimit

theorem anyM_overlaps? {table : List Partition}
    (htable : ∀ partition ∈ table, partition.finish < sumBound) (start finish : Nat) :
    (table.anyM fun partition => partition.overlaps? limit start finish) =
      some (table.any fun partition => decide (partition.Overlaps start finish)) := by
  induction table with
  | nil => rfl
  | cons partition rest ih =>
      obtain ⟨hfirst, hrest⟩ := List.forall_mem_cons.mp htable
      have hsum : partition.overlaps? limit start finish =
          some (decide (partition.Overlaps start finish)) := by
        rw [Partition.overlaps?, sum?_of_lt (Nat.lt_of_lt_of_le hfirst hlimit)]
        rfl
      rw [List.anyM_cons, hsum, List.any_cons, ih hrest]
      cases decide (partition.Overlaps start finish) <;> rfl

theorem admitAll?_cons {candidate : Candidate} {table : List Partition} (rest : List Candidate)
    (htable : Bounded table) (hfinish : candidate.finish < sumBound) :
    admitAll? limit (candidate :: rest) table =
      if candidate.Fits table then
        if table.length < Limits.maxPartitions then
          admitAll? limit rest (table ++ [candidate.toPartition table.length])
        else some (.truncated, table)
      else admitAll? limit rest table := by
  have hends : candidate.start < limit ∧ candidate.finish < limit := by
    have hbehind : candidate.start ≤ candidate.finish := Nat.le_add_right _ _
    omega
  have hbyte : ¬ UInt8.size ≤ table.length := by
    have hlength := htable.length_le
    simp only [Limits.maxPartitions, UInt8.size] at hlength ⊢
    omega
  have hstart : sum? limit candidate.base candidate.entry.start.toNat = some candidate.start :=
    sum?_of_lt hends.1
  have hbehind : sum? limit candidate.start candidate.entry.count.toNat = some candidate.finish :=
    sum?_of_lt hends.2
  have hmet := anyM_overlaps? hlimit htable.finish_lt candidate.start candidate.finish
  simp only [admitAll?, hstart, hbehind, hmet, Option.bind_eq_bind, Option.bind_some,
    if_neg hbyte]
  by_cases hfits : candidate.Fits table
  · have hclear : (table.tail.any fun partition =>
        decide (partition.Overlaps candidate.start candidate.finish)) = false := by
      simpa using hfits.2
    rw [if_pos hfits, if_pos (show _ ∧ _ from hfits.1), hclear, if_neg Bool.false_ne_true]
    rfl
  · rw [if_neg hfits]
    by_cases hbounds : candidate.InBounds
    · have hblocked : (table.tail.any fun partition =>
          decide (partition.Overlaps candidate.start candidate.finish)) = true := by
        rw [Candidate.Fits, not_and] at hfits
        simpa using hfits hbounds
      rw [if_pos (show _ ∧ _ from hbounds), hblocked, if_pos rfl]
    · rw [if_neg (show ¬ (_ ∧ _) from hbounds)]

/-- Admission forms no sum that reaches the bound, and numbers slots by bytes. -/
theorem admitAll?_eq {candidates : List Candidate} {table : List Partition} (htable : Bounded table)
    (hcandidates : ∀ candidate ∈ candidates, candidate.finish < sumBound) :
    admitAll? limit candidates table = some (admitAll candidates table) ∧
      Bounded (admitAll candidates table).2 := by
  induction candidates generalizing table with
  | nil => exact ⟨rfl, htable⟩
  | cons candidate rest ih =>
      obtain ⟨hfinish, hrest⟩ := List.forall_mem_cons.mp hcandidates
      rw [admitAll?_cons hlimit rest htable hfinish, admitAll]
      by_cases hfits : candidate.Fits table
      · rw [if_pos hfits, if_pos hfits]
        by_cases hroom : table.length < Limits.maxPartitions
        · rw [if_pos hroom, if_pos hroom]
          exact ih (htable.append hroom hfinish) hrest
        · rw [if_neg hroom, if_neg hroom]
          exact ⟨rfl, htable⟩
      · rw [if_neg hfits, if_neg hfits]
        exact ih htable hrest

/-- The sums of a chain sector, which lies within one link of the head of the chain. -/
theorem chainSums_eq (sector : BootSector) {head lba : Nat} (finish : Nat)
    (hhead : head < UInt32.size) (hlba : lba < head + UInt32.size) :
    sector.logicals? limit lba finish = some (sector.logicals lba finish) ∧
      sector.next? limit head = some (sector.link?.map (head + ·)) ∧
      ∀ candidate ∈ sector.logicals lba finish, candidate.finish < sumBound := by
  simp only [UInt32.size, sumBound] at hhead hlba hlimit ⊢
  refine ⟨?_, ?_, fun candidate hmem => ?_⟩
  · rw [BootSector.logicals?, sum?_of_lt (by omega)]
    rfl
  · rw [BootSector.next?]
    cases hlink : sector.link? with
    | none => rfl
    | some offset =>
        have hoffset := sector.link?_lt hlink
        simp only [UInt32.size] at hoffset
        dsimp only
        rw [sum?_of_lt (by omega), Option.map_some, Option.map_some]
  · obtain ⟨⟨slot, entry⟩, -, rfl⟩ := List.mem_map.mp hmem
    have hstart := entry.start.toNat_lt
    have hcount := entry.count.toNat_lt
    simp only [Candidate.finish, Candidate.start]
    omega

/-- A walk forms no sum that reaches the bound. -/
theorem walk?_eq {δ : Type} [DiskDriver δ] (geometry : Geometry) {container : Container}
    (hhead : container.head < UInt32.size) (hops : Nat) {lba : Nat}
    (hlba : lba < container.head + UInt32.size) {scan : Scan δ} (hscan : Bounded scan.table) :
    walk? limit geometry container hops lba scan = some (walk geometry container hops lba scan) ∧
      Bounded (walk geometry container hops lba scan).2.table := by
  induction hops generalizing lba scan with
  | zero => exact ⟨rfl, hscan⟩
  | succ hops ih =>
      rw [walk?, walk]
      by_cases houtside : geometry.sectorCount ≤ lba
      · rw [if_pos houtside, if_pos houtside]
        exact ⟨rfl, hscan⟩
      · rw [if_neg houtside, if_neg houtside]
        cases readBootSector geometry.sectorSize lba scan.driver with
        | error cause driver => exact ⟨rfl, hscan⟩
        | ok sector driver =>
            obtain ⟨hlogicals, hnext, hfinish⟩ :=
              chainSums_eq hlimit sector container.finish hhead hlba
            obtain ⟨hadmitted, hbounded⟩ := admitAll?_eq hlimit hscan hfinish
            simp only [hlogicals, hnext, hadmitted, Option.bind_eq_bind, Option.bind_some]
            generalize admitAll (sector.logicals lba container.finish) scan.table = admitted
              at hbounded ⊢
            obtain ⟨_ | _, table⟩ := admitted
            · cases hlink : sector.link? with
              | none => exact ⟨rfl, hbounded⟩
              | some offset =>
                  exact ih (Nat.add_lt_add_left (sector.link?_lt hlink) _) hbounded
            · cases sector.link? <;> exact ⟨rfl, hbounded⟩

theorem walkAll?_eq {δ : Type} [DiskDriver δ] (geometry : Geometry) {containers : List Container}
    (hheads : ∀ container ∈ containers, container.head < UInt32.size) {scan : Scan δ}
    (hscan : Bounded scan.table) :
    walkAll? limit geometry containers scan = some (walkAll geometry containers scan) ∧
      Bounded (walkAll geometry containers scan).2.table := by
  induction containers generalizing scan with
  | nil => exact ⟨rfl, hscan⟩
  | cons container rest ih =>
      obtain ⟨hhead, hrest⟩ := List.forall_mem_cons.mp hheads
      obtain ⟨hwalk, hbounded⟩ := walk?_eq hlimit geometry hhead Limits.maxExtendedHops
        (Nat.lt_add_of_pos_right (by decide)) hscan
      obtain ⟨hlater, hlast⟩ := ih hrest hbounded
      rw [walkAll?, walkAll, hwalk, Option.bind_eq_bind, Option.bind_some, hlater]
      exact ⟨rfl, hlast⟩

/-- The sums of the first sector. -/
theorem firstSums_eq (sector : BootSector) (sectorCount : Nat) :
    sector.containers? limit sectorCount = some (sector.containers sectorCount) ∧
      (∀ container ∈ sector.containers sectorCount, container.head < UInt32.size) ∧
      ∀ candidate ∈ sector.primaries sectorCount, candidate.finish < sumBound := by
  refine ⟨?_, fun container hmem => ?_, fun candidate hmem => ?_⟩
  · have hends : ∀ entry : Entry, sum? limit entry.start.toNat entry.count.toNat =
        some (entry.start.toNat + entry.count.toNat) := by
      intro entry
      have hstart := entry.start.toNat_lt
      have hcount := entry.count.toNat_lt
      simp only [sumBound] at hlimit
      exact sum?_of_lt (by omega)
    simp only [BootSector.containers?, hends, Option.bind_eq_bind, Option.bind_some, List.mapM_pure]
    rfl
  · obtain ⟨entry, -, rfl⟩ := List.mem_map.mp hmem
    exact entry.start.toNat_lt
  · obtain ⟨⟨slot, entry⟩, -, rfl⟩ := List.mem_map.mp hmem
    have hstart := entry.start.toNat_lt
    have hcount := entry.count.toNat_lt
    simp only [Candidate.finish, Candidate.start, sumBound]
    omega

/-- A scan forms no sum that reaches the bound, whatever the driver answers. -/
theorem run?_eq {δ : Type} [DiskDriver δ] (geometry : Geometry) {scan : Scan δ}
    (hscan : Bounded scan.table) :
    run? limit geometry scan = some ((run geometry).outcome scan) ∧
      Bounded ((run geometry).outcome scan).2.table := by
  unfold run? Action.outcome run
  by_cases hshort : geometry.sectorSize < Limits.sectorSize
  · rw [if_pos hshort, if_pos hshort]
    exact ⟨rfl, hscan⟩
  · rw [if_neg hshort, if_neg hshort]
    cases readBootSector geometry.sectorSize 0 scan.driver with
    | error cause driver => exact ⟨rfl, hscan⟩
    | ok sector driver =>
        obtain ⟨hcontainers, hheads, hfinish⟩ := firstSums_eq hlimit sector geometry.sectorCount
        obtain ⟨hadmitted, hbounded⟩ := admitAll?_eq hlimit hscan hfinish
        simp only [hcontainers, hadmitted, Option.bind_eq_bind, Option.bind_some]
        generalize admitAll (sector.primaries geometry.sectorCount) scan.table = admitted
          at hbounded ⊢
        obtain ⟨_ | _, table⟩ := admitted
        · have hwalked := @walkAll?_eq limit hlimit δ _ geometry _ hheads ⟨driver, table⟩ hbounded
          simp only [hwalked.1, Option.bind_some]
          exact ⟨rfl, hwalked.2⟩
        · exact ⟨rfl, hbounded⟩

end Sums

end Scan

end StorageStack
