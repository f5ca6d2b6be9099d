import StorageStack.Proofs.Partition.DiskPlan
import StorageStack.Proofs.Partition.Greedy

/-! # From a plan to a scan

A disk that is built after a valid plan holds the planned sectors, proposes the planned
partitions in order, and scans to the table of the plan.
-/

namespace StorageStack

/-- A sector that a patched RAM disk holds as a signed boot sector. -/
theorem RamDisk.bootSector?_ofPatches {sectorCount lba : Nat} {patches : List Patch}
    (hlba : lba < sectorCount)
    (hsigned : ((Medium.ofPatches Limits.sectorSize patches).bootSector lba).signed = true) :
    ((RamDisk.ofPatches sectorCount patches).sectors Limits.sectorSize).bootSector? lba =
      some ((Medium.ofPatches Limits.sectorSize patches).bootSector lba) := by
  have hserves : (RamDisk.ofPatches sectorCount patches).Serves lba Limits.sectorSize := by
    refine ⟨rfl, ?_⟩
    change lba * 512 + 512 ≤ sectorCount * 512
    omega
  rw [Contents.bootSector?, RamDisk.sectors, if_pos hserves]
  dsimp only [RamDisk.ofPatches, RamDisk.zeroed]
  rw [Medium.bootSector_eq_ofBytes?, Option.filter_some_pos hsigned]

namespace ChainSector

section Decoding

variable {sector : ChainSector} {container : Extent} {sectorCount head : Nat} {next? : Option Nat}
  {decoded : BootSector}

theorem Valid.used (hvalid : sector.Valid container sectorCount) (slot : Fin entrySlots)
    (value : Entry) (hcell : (sector.plan head next?).cell slot = some value) :
    value.isEmpty = false := by
  unfold plan at hcell
  dsimp only at hcell
  split at hcell
  · cases hcell
    exact hvalid.data.isEmpty_entry hvalid.fits
  · split at hcell
    · obtain ⟨next, -, rfl⟩ := Option.map_eq_some_iff.mp hcell
      have htype := TypeCode.ne_empty_of_isExtended hvalid.extended
      simpa [Entry.isEmpty, linkEntry, htype] using hvalid.count_ne
    · cases hcell

/-- Of the two entries of the sector one is for data and one is a link. -/
theorem Valid.filter_cell (hvalid : sector.Valid container sectorCount) (slot : Fin entrySlots) :
    ((sector.plan head next?).cell slot).filter (fun value => !value.isExtended) =
        (if slot = sector.slot then some (sector.extent.entry sector.lba) else none) ∧
      ((sector.plan head next?).cell slot).filter (fun value => value.isExtended) =
        if slot = sector.link.slot then next?.map (sector.linkEntry head) else none := by
  have hdata : (sector.extent.entry sector.lba).isExtended = false := hvalid.data.2.2
  have hlink : ∀ next, (sector.linkEntry head next).isExtended = true := fun _ => hvalid.extended
  unfold plan
  dsimp only
  by_cases hslot : slot = sector.slot
  · subst hslot
    simp [hvalid.slot_ne, Option.filter, hdata]
  · rw [if_neg hslot]
    by_cases hplace : slot = sector.link.slot
    · cases next? <;> simp [hplace, hvalid.slot_ne.symm, Option.filter, hlink]
    · simp [hslot, hplace]

theorem Valid.logicals_eq (hvalid : sector.Valid container sectorCount)
    (hdecoded : (sector.plan head next?).Decoded decoded) (finish : Nat) :
    decoded.logicals sector.lba finish = [sector.extent.candidate sector.lba finish 0 none] := by
  have hentries :=
    hdecoded.dataEntries_single hvalid.used fun slot => (hvalid.filter_cell slot).1
  rw [BootSector.logicals, hentries]
  rfl

theorem Valid.link?_eq (hvalid : sector.Valid container sectorCount)
    (hdecoded : (sector.plan head next?).Decoded decoded)
    (hnear : ∀ next, next? = some next → next - head < UInt32.size) :
    decoded.link? = next?.map (· - head) := by
  have hentries :=
    hdecoded.extendedEntries_single hvalid.used fun slot => (hvalid.filter_cell slot).2
  rw [BootSector.link?, hentries]
  cases next? with
  | none => rfl
  | some next =>
      change some (UInt32.ofNat (next - head)).toNat = some (next - head)
      rw [UInt32.toNat_ofNat_of_lt' (hnear next rfl)]

end Decoding

section Chains

variable {sectors : List ChainSector} {container : Extent} {sectorCount : Nat} {image : Medium}

theorem exists_plan_mem {sector : ChainSector} (hsector : sector ∈ sectors) (head : Nat) :
    ∃ next?, sector.plan head next? ∈ plans head sectors := by
  induction sectors with
  | nil => cases hsector
  | cons first rest ih =>
      rcases List.mem_cons.mp hsector with rfl | hrest
      · exact ⟨_, List.mem_cons_self⟩
      · obtain ⟨next?, hplan⟩ := ih hrest
        exact ⟨next?, List.mem_cons_of_mem _ hplan⟩

theorem map_lba_plans (head : Nat) (sectors : List ChainSector) :
    (plans head sectors).map (·.lba) = sectors.map (·.lba) := by
  induction sectors with
  | nil => rfl
  | cons sector rest ih => rw [plans, List.map_cons, List.map_cons, ih, plan]

/-- The chain of the disk visits the sectors of the plan. -/
theorem chainFrom_eq {contents : Contents}
    (hvalid : ∀ sector ∈ sectors, sector.Valid container sectorCount)
    (hdecoded : ∀ plan ∈ plans container.start sectors, plan.Decoded (image.bootSector plan.lba))
    (hcontents : ∀ lba < sectorCount, (image.bootSector lba).signed = true →
      contents.bootSector? lba = some (image.bootSector lba))
    {hops lba finish : Nat} (hhops : sectors.length ≤ hops)
    (hlba : sectors.head?.map (·.lba) = some lba) :
    Container.chainFrom ⟨container.start, finish⟩ contents sectorCount hops lba =
      sectors.map fun sector => (sector.lba, image.bootSector sector.lba) := by
  induction sectors generalizing hops lba with
  | nil => cases hlba
  | cons sector rest ih =>
      cases hlba
      obtain _ | hops := hops
      · cases hhops
      · have hfirst := hvalid sector List.mem_cons_self
        have hsector : (sector.plan container.start (rest.head?.map (·.lba))).Decoded
            (image.bootSector sector.lba) := hdecoded _ List.mem_cons_self
        have hrest : ∀ sector ∈ rest, sector.Valid container sectorCount :=
          fun sector hmem => hvalid sector (List.mem_cons_of_mem _ hmem)
        have hlink := hfirst.link?_eq hsector (by
          intro next hnext
          obtain ⟨second, hsecond, rfl⟩ := Option.map_eq_some_iff.mp hnext
          exact (hrest second (List.mem_of_mem_head? hsecond)).near)
        rw [Container.chainFrom, if_neg (Nat.not_le.mpr hfirst.upper),
          hcontents _ hfirst.upper hsector.signed]
        dsimp only [List.map_cons]
        rw [hlink]
        cases rest with
        | nil => rfl
        | cons second later =>
            have hlower := (hrest second List.mem_cons_self).lower
            dsimp only [List.head?_cons, Option.map_some]
            rw [Nat.add_sub_of_le hlower]
            congr 1
            apply ih hrest _ (Nat.le_of_succ_le_succ hhops) rfl
            intro plan hplan
            exact hdecoded plan (List.mem_cons_of_mem _ hplan)

end Chains

end ChainSector

namespace DiskPlan

variable {disk : DiskPlan}

/-- What a scan is to find, in order. -/
def candidates (disk : DiskPlan) : List Candidate :=
  disk.primaries.map (fun primary =>
    primary.2.candidate 0 disk.sectorCount (primary.1 + 1) (disk.mbr.eraseBlock? primary.1)) ++
  disk.chain.map fun sector => sector.extent.candidate sector.lba disk.container.finish 0 none

theorem mem_primaries_iff {slot : Fin entrySlots} {extent : Extent} :
    (slot, extent) ∈ disk.primaries ↔ disk.primary? slot = some extent := by
  simp [primaries]

section Mbr

variable {decoded : BootSector}

theorem Valid.sectorCount_pos (hvalid : disk.Valid) : 0 < disk.sectorCount := by
  obtain ⟨sector, hsector, -⟩ := Option.map_eq_some_iff.mp hvalid.head
  exact Nat.zero_lt_of_lt (hvalid.chain sector (List.mem_of_mem_head? hsector)).upper

/-- A table with room for the partitions bounds the chain more tightly than the bound on its
sectors does. -/
theorem Valid.length_chain (hvalid : disk.Valid) : disk.chain.length < Limits.maxExtendedHops := by
  have hroom := hvalid.room
  have hbounds : Limits.maxPartitions ≤ Limits.maxExtendedHops := by decide
  rw [extents, List.length_append, List.length_map, List.length_map] at hroom
  omega

/-- A container with a chain has sectors. -/
theorem Valid.container_count_pos (hvalid : disk.Valid) : 0 < disk.container.count := by
  obtain ⟨sector, hsector, hlba⟩ := Option.map_eq_some_iff.mp hvalid.head
  have hfirst := hvalid.chain sector (List.mem_of_mem_head? hsector)
  have hinside := hfirst.inside
  have hbehind := hfirst.behind
  unfold Extent.finish at hinside
  omega

theorem Valid.isEmpty_container (hvalid : disk.Valid) :
    (disk.container.entry 0).isEmpty = false :=
  Extent.isEmpty_entry hvalid.fits hvalid.container_count_pos
    (TypeCode.ne_empty_of_isExtended hvalid.extended)

theorem Valid.used (hvalid : disk.Valid) (slot : Fin entrySlots) (value : Entry)
    (hcell : disk.mbr.cell slot = some value) : value.isEmpty = false := by
  unfold mbr at hcell
  dsimp only at hcell
  split at hcell
  · cases hcell
    exact hvalid.isEmpty_container
  · obtain ⟨extent, hextent, rfl⟩ := Option.map_eq_some_iff.mp hcell
    obtain ⟨hdata, hfits, -, -⟩ := hvalid.primary slot extent hextent
    exact hdata.isEmpty_entry hfits

/-- The entries of the first sector are the primaries and the container. -/
theorem Valid.filter_cell (hvalid : disk.Valid) (slot : Fin entrySlots) :
    (disk.mbr.cell slot).filter (fun value => !value.isExtended) =
        (disk.primary? slot).map (·.entry 0) ∧
      (disk.mbr.cell slot).filter (fun value => value.isExtended) =
        if slot = disk.containerSlot then some (disk.container.entry 0) else none := by
  have hcontainer : (disk.container.entry 0).isExtended = true := hvalid.extended
  unfold mbr
  dsimp only
  by_cases hslot : slot = disk.containerSlot
  · subst hslot
    simp [hvalid.free, Option.filter, hcontainer]
  · rw [if_neg hslot, if_neg hslot]
    cases hextent : disk.primary? slot with
    | none => exact ⟨rfl, rfl⟩
    | some extent =>
        have hdata : (extent.entry 0).isExtended = false := (hvalid.primary slot extent hextent).1.2.2
        simp [Option.filter, hdata]

theorem Valid.primaries_eq (hvalid : disk.Valid) (hdecoded : disk.mbr.Decoded decoded) :
    decoded.primaries disk.sectorCount = disk.primaries.map fun primary =>
      primary.2.candidate 0 disk.sectorCount (primary.1 + 1) (disk.mbr.eraseBlock? primary.1) := by
  rw [BootSector.primaries, hdecoded.dataEntries hvalid.used, primaries, List.map_filterMap,
    List.map_filterMap]
  apply List.filterMap_congr
  intro slot _
  rw [(hvalid.filter_cell slot).1]
  cases disk.primary? slot with
  | none => rfl
  | some extent =>
      dsimp only [Option.map_some]
      rw [hdecoded.eraseBlock? slot]
      rfl

theorem Valid.containers_eq (hvalid : disk.Valid) (hdecoded : disk.mbr.Decoded decoded) :
    decoded.containers disk.sectorCount = [⟨disk.container.start, disk.container.finish⟩] := by
  have hentries :=
    hdecoded.extendedEntries_single hvalid.used fun slot => (hvalid.filter_cell slot).2
  have hstart := Extent.toNat_start_entry hvalid.fits
  rw [Nat.zero_add] at hstart
  rw [BootSector.containers, hentries, Option.toList_some, List.map_singleton, hstart,
    Extent.toNat_count_entry hvalid.fits, ← Extent.finish, Nat.min_eq_left hvalid.upper]

end Mbr

/-- The sectors of the plan are different ones. -/
theorem Valid.nodup_lba (hvalid : disk.Valid) : (disk.plans.map (·.lba)).Nodup := by
  rw [plans, List.map_cons, ChainSector.map_lba_plans]
  apply List.nodup_cons.mpr
  refine ⟨?_, hvalid.distinct⟩
  intro hzero
  obtain ⟨sector, hsector, hlba⟩ := List.mem_map.mp hzero
  have hlower := (hvalid.chain sector hsector).lower
  have hhead := hvalid.lower
  change sector.lba = 0 at hlba
  omega

section Candidates

theorem Valid.inBounds (hvalid : disk.Valid) :
    ∀ candidate ∈ disk.candidates, candidate.InBounds := by
  intro candidate hcandidate
  rcases List.mem_append.mp hcandidate with hmem | hmem
  · obtain ⟨⟨slot, extent⟩, hextent, rfl⟩ := List.mem_map.mp hmem
    obtain ⟨-, hfits, hstart, hfinish⟩ := hvalid.primary slot extent (mem_primaries_iff.mp hextent)
    rw [Candidate.InBounds, Extent.start_candidate hfits, Extent.finish_candidate hfits]
    exact ⟨hstart, hfinish⟩
  · obtain ⟨sector, hsector, rfl⟩ := List.mem_map.mp hmem
    have hsector := hvalid.chain sector hsector
    rw [Candidate.InBounds, Extent.start_candidate hsector.fits, Extent.finish_candidate hsector.fits]
    exact ⟨hsector.behind, hsector.inside⟩

theorem Valid.map_candidates (hvalid : disk.Valid) :
    disk.candidates.map (fun candidate => (candidate.start, candidate.finish)) =
      disk.extents.map fun extent => (extent.start, extent.finish) := by
  rw [candidates, extents, List.map_append, List.map_append, List.map_map, List.map_map,
    List.map_map, List.map_map]
  congr 1
  · apply List.map_congr_left
    intro ⟨slot, extent⟩ hextent
    obtain ⟨-, hfits, -, -⟩ := hvalid.primary slot extent (mem_primaries_iff.mp hextent)
    simp [Extent.start_candidate hfits, Extent.finish_candidate hfits]
  · apply List.map_congr_left
    intro sector hsector
    have hfits := (hvalid.chain sector hsector).fits
    simp [Extent.start_candidate hfits, Extent.finish_candidate hfits]

theorem Valid.pairwise_candidates (hvalid : disk.Valid) :
    disk.candidates.Pairwise Candidate.Apart := by
  have hranges : (disk.candidates.map fun candidate => (candidate.start, candidate.finish)).Pairwise
      fun left right => left.2 ≤ right.1 ∨ right.2 ≤ left.1 := by
    rw [hvalid.map_candidates, List.pairwise_map]
    exact hvalid.apart
  rw [List.pairwise_map] at hranges
  exact hranges

theorem Valid.map_toPartition (hvalid : disk.Valid) :
    disk.candidates.map (·.toPartition 0) = disk.partitions := by
  rw [candidates, partitions, List.map_append, List.map_map, List.map_map]
  congr 1
  · apply List.map_congr_left
    intro ⟨slot, extent⟩ hextent
    obtain ⟨-, hfits, -, -⟩ := hvalid.primary slot extent (mem_primaries_iff.mp hextent)
    exact Extent.toPartition_candidate hfits 0
  · apply List.map_congr_left
    intro sector hsector
    exact Extent.toPartition_candidate (hvalid.chain sector hsector).fits 0

theorem Valid.listing_eq (hvalid : disk.Valid) :
    Candidate.listing disk.sectorCount disk.candidates = disk.table := by
  rw [Candidate.listing, table, ← hvalid.map_toPartition]
  congr 1
  apply List.ext_getElem?
  intro index
  rw [List.getElem?_mapIdx, List.getElem?_mapIdx, List.getElem?_map, Option.map_map]
  rfl

theorem Valid.length_candidates (hvalid : disk.Valid) :
    disk.candidates.length ≤ Candidate.capacity := by
  have hroom := hvalid.room
  have hlength := congrArg List.length hvalid.map_candidates
  rw [List.length_map, List.length_map] at hlength
  rw [hlength]
  exact Nat.le_of_lt_succ hroom

end Candidates

section Scanning

variable {image : Medium} {contents : Contents}

/-- What the disk proposes is what was planned. -/
theorem Valid.proposals_eq (hvalid : disk.Valid)
    (hdecoded : ∀ plan ∈ disk.plans, plan.Decoded (image.bootSector plan.lba))
    (hcontents : ∀ lba < disk.sectorCount, (image.bootSector lba).signed = true →
      contents.bootSector? lba = some (image.bootSector lba)) :
    Container.chain ⟨disk.container.start, disk.container.finish⟩ contents disk.sectorCount =
        disk.chain.map (fun sector => (sector.lba, image.bootSector sector.lba)) ∧
      Scan.proposals contents (image.bootSector 0) disk.sectorCount = disk.candidates := by
  have hmbr : disk.mbr.Decoded (image.bootSector 0) := hdecoded disk.mbr List.mem_cons_self
  have hsectors : ∀ plan ∈ ChainSector.plans disk.container.start disk.chain,
      plan.Decoded (image.bootSector plan.lba) :=
    fun plan hplan => hdecoded plan (List.mem_cons_of_mem _ hplan)
  have hchain : Container.chain ⟨disk.container.start, disk.container.finish⟩ contents
      disk.sectorCount = disk.chain.map fun sector => (sector.lba, image.bootSector sector.lba) :=
    ChainSector.chainFrom_eq hvalid.chain hsectors hcontents
      (Nat.le_of_lt hvalid.length_chain) hvalid.head
  refine ⟨hchain, ?_⟩
  rw [Scan.proposals, hvalid.primaries_eq hmbr, hvalid.containers_eq hmbr, List.flatMap_singleton,
    hchain, Container.proposals, List.flatMap_map, candidates]
  congr 1
  rw [← List.flatMap_singleton' (disk.chain.map _), List.flatMap_map]
  apply List.flatMap_congr
  intro sector hsector
  obtain ⟨next?, hplan⟩ := ChainSector.exists_plan_mem hsector disk.container.start
  exact (hvalid.chain sector hsector).logicals_eq (hsectors _ hplan) _

/-- A disk that is built after a valid plan, by its patches in whatever order, scans to what was
planned: the whole disk, the primaries in slot order, and the logical partitions in the order of
the chain. -/
theorem run_eq_table (hvalid : disk.Valid) (eraseGroup : Nat) {patches : List Patch}
    (hpatches : ∀ patch, patch ∈ patches ↔ patch ∈ disk.patches) :
    ∃ after,
      Scan.run ⟨Limits.sectorSize, disk.sectorCount, eraseGroup⟩
          ⟨RamDisk.ofPatches disk.sectorCount patches, [Partition.wholeDisk disk.sectorCount]⟩ =
        .ok .complete after ∧
      after.table = disk.table := by
  have hdecoded : ∀ plan ∈ disk.plans,
      plan.Decoded ((Medium.ofPatches Limits.sectorSize patches).bootSector plan.lba) := by
    intro plan hplan
    apply SectorPlan.decoded_ofPatches hvalid.nodup_lba _ hplan
    intro patch
    rw [hpatches, DiskPlan.patches, List.mem_flatMap]
  obtain ⟨hchain, hproposals⟩ := hvalid.proposals_eq hdecoded
    fun lba hlba hsigned => RamDisk.bootSector?_ofPatches hlba hsigned
  have hmbr : disk.mbr.Decoded ((Medium.ofPatches Limits.sectorSize patches).bootSector 0) :=
    hdecoded disk.mbr List.mem_cons_self
  have hkeep : Candidate.keep [] (Scan.proposals _ _ disk.sectorCount) = disk.candidates :=
    (congrArg (Candidate.keep []) hproposals).trans
      (Candidate.keep_eq_append hvalid.inBounds hvalid.pairwise_candidates)
  have hshort : ∀ container ∈ ((Medium.ofPatches Limits.sectorSize patches).bootSector 0).containers
      disk.sectorCount, ¬ Container.Overlong Limits.maxExtendedHops (container.chain
        ((RamDisk.ofPatches disk.sectorCount patches).sectors Limits.sectorSize)
        disk.sectorCount) := by
    intro container hcontainer hlong
    rw [hvalid.containers_eq hmbr, List.mem_singleton] at hcontainer
    have hlength := hlong.1
    rw [hcontainer, hchain, List.length_map] at hlength
    exact absurd hlength (Nat.ne_of_lt hvalid.length_chain)
  have hroom := hvalid.length_candidates
  rw [← hkeep] at hroom
  let geometry : Geometry := ⟨Limits.sectorSize, disk.sectorCount, eraseGroup⟩
  obtain ⟨after, hrun, htable⟩ := Scan.run_of_room (Nat.le_refl geometry.sectorSize)
    ((RamDisk.ofPatches disk.sectorCount patches).steady Limits.sectorSize)
    (RamDisk.bootSector?_ofPatches hvalid.sectorCount_pos hmbr.signed) hroom hshort
  refine ⟨after, hrun, htable.trans ?_⟩
  rw [hkeep]
  exact hvalid.listing_eq

end Scanning

theorem run_eq_table_handset :
    ∃ after, Scan.run ⟨512, 65536, 1024⟩ ⟨Handset.userDisk, [Partition.wholeDisk 65536]⟩ =
        .ok .complete after ∧
      after.table.map (fun partition => (partition.mbrNum, partition.start, partition.count)) =
        [(0, 0, 65536), (1, 2048, 8192), (2, 10240, 16384), (0, 32832, 4096), (0, 41024, 4096),
          (0, 49216, 8192)] := by
  have hpatches : ∀ patch, patch ∈ Handset.patches ↔ patch ∈ handset.patches := by
    have hforward : ∀ patch ∈ Handset.patches, patch ∈ handset.patches := by decide
    have hbackward : ∀ patch ∈ handset.patches, patch ∈ Handset.patches := by decide
    exact fun patch => ⟨hforward patch, hbackward patch⟩
  obtain ⟨after, hrun, htable⟩ := run_eq_table valid_handset 1024 hpatches
  refine ⟨after, hrun, ?_⟩
  rw [htable]
  decide

end DiskPlan

end StorageStack
