import StorageStack.Proofs.Partition.Trail

/-! # Scans over again

What a scan finds depends on the sectors that it reads and on nothing else of the disk. A
second disk on which those sectors hold the same bytes is scanned into the same table.
-/

namespace StorageStack

/-- The contents give the answer that each read of a transcript was given. -/
def Contents.Repeats (contents : Contents) (sectorSize : Nat) (exchanges : List Exchange) : Prop :=
  ∀ lba answer, Exchange.read lba sectorSize answer ∈ exchanges → contents lba = answer

variable {δ ε : Type} [DiskDriver δ] [DiskDriver ε]

/-- The transcript of a steady driver repeats what the driver holds. -/
theorem Steady.repeats {sectorSize : Nat} {contents : Contents} {driver : δ}
    {exchanges : List Exchange} {after : Transcript δ} (hsteady : Steady sectorSize contents driver)
    (hrepeats : contents.Repeats sectorSize exchanges)
    (hreads : ReadsTo sectorSize (⟨driver, exchanges⟩ : Transcript δ) after) :
    Steady sectorSize contents after.driver ∧ contents.Repeats sectorSize after.exchanges := by
  induction hreads with
  | refl => exact ⟨hsteady, hrepeats⟩
  | @read before lba _ ih =>
      obtain ⟨hbefore, hprior⟩ := ih
      obtain ⟨later, hlater, hread⟩ := hbefore.outcome_read lba
      rw [Transcript.outcome_read before.exchanges hread]
      refine ⟨hlater, fun other answer hmem => ?_⟩
      rcases List.mem_append.mp hmem with hold | hnew
      · exact hprior other answer hold
      · cases List.mem_singleton.mp hnew
        rfl

namespace Scan

variable {contents : Contents}

theorem mem_exchanges_walk (geometry : Geometry) (container : Container) (hops lba : Nat)
    (scan : Scan (Transcript δ)) {exchange : Exchange} (hmem : exchange ∈ scan.driver.exchanges) :
    exchange ∈ (walk geometry container hops lba scan).2.driver.exchanges := by
  obtain ⟨-, _, -, hexchanges⟩ := walk_transcript geometry container hops lba scan
  rw [hexchanges]
  exact List.mem_append_left _ hmem

theorem mem_exchanges_walkAll (geometry : Geometry) (containers : List Container)
    (scan : Scan (Transcript δ)) {exchange : Exchange} (hmem : exchange ∈ scan.driver.exchanges) :
    exchange ∈ (walkAll geometry containers scan).2.driver.exchanges := by
  obtain ⟨-, _, -, hexchanges, -⟩ := walkAll_transcript geometry containers scan
  rw [hexchanges]
  exact List.mem_append_left _ hmem

/-- The first sector of a walk on the disk is in its transcript. -/
theorem mem_exchanges_walk_succ {geometry : Geometry} (container : Container) (hops : Nat)
    {lba : Nat} (table : List Partition) (exchanges : List Exchange)
    (hinside : lba < geometry.sectorCount) {driver after : δ} {answer : Except DriverError Bytes}
    (hread : DriverAction.outcome (DiskDriver.read lba geometry.sectorSize) driver =
      (answer, after)) :
    Exchange.read lba geometry.sectorSize answer ∈
      (walk geometry container (hops + 1) lba
        ⟨(⟨driver, exchanges⟩ : Transcript δ), table⟩).2.driver.exchanges := by
  have hlast : Exchange.read lba geometry.sectorSize answer ∈
      exchanges ++ [.read lba geometry.sectorSize answer] := by simp
  rw [walk_succ container hops table hinside (Transcript.outcome_read exchanges hread)]
  cases BootSector.ofAnswer answer with
  | error cause => exact hlast
  | ok sector =>
      dsimp only
      rcases admitAll (sector.logicals lba container.finish) table with ⟨_ | _, kept⟩
      · cases sector.link? with
        | none => exact hlast
        | some offset => exact mem_exchanges_walk geometry container hops _ _ hlast
      · exact hlast

/-- A walk over a disk that answers as a transcript of the walk says. -/
theorem walk_replay (geometry : Geometry) (container : Container) (hops lba : Nat)
    (scan : Scan (Transcript δ)) {driver : ε} (hsteady : Steady geometry.sectorSize contents driver) :
    let walked := walk geometry container hops lba scan
    contents.Repeats geometry.sectorSize walked.2.driver.exchanges →
      ∃ after, Steady geometry.sectorSize contents after ∧
        walk geometry container hops lba ⟨driver, scan.table⟩ =
          (walked.1, ⟨after, walked.2.table⟩) := by
  intro walked hrepeats
  induction hops generalizing lba scan driver with
  | zero => exact ⟨driver, hsteady, rfl⟩
  | succ hops ih =>
      obtain ⟨⟨original, exchanges⟩, table⟩ := scan
      rcases Nat.lt_or_ge lba geometry.sectorCount with hinside | houtside
      · rcases hread : DriverAction.outcome (DiskDriver.read lba geometry.sectorSize) original with
          ⟨answer, later⟩
        have hwalk := walk_succ container hops table hinside (Transcript.outcome_read exchanges hread)
        -- The answer is in the transcript, so the second disk gives it as well.
        have hanswer : contents lba = answer := hrepeats lba answer
          (mem_exchanges_walk_succ container hops table exchanges hinside hread)
        obtain ⟨after, hafter, hrepeated⟩ := hsteady.outcome_read lba
        rw [hanswer] at hrepeated
        rw [walk_succ container hops table hinside hrepeated]
        dsimp only [walked] at hrepeats ⊢
        rw [hwalk] at hrepeats ⊢
        cases hsector : BootSector.ofAnswer answer with
        | error cause => exact ⟨after, hafter, rfl⟩
        | ok sector =>
            rw [hsector] at hrepeats
            dsimp only at hrepeats ⊢
            generalize admitAll (sector.logicals lba container.finish) table = admitted
              at hrepeats ⊢
            obtain ⟨_ | _, kept⟩ := admitted
            · cases hlink : sector.link? with
              | none => exact ⟨after, hafter, rfl⟩
              | some offset =>
                  rw [hlink] at hrepeats
                  exact ih _ _ hafter hrepeats
            · exact ⟨after, hafter, rfl⟩
      · dsimp only [walked]
        rw [walk_outside container hops _ houtside, walk_outside container hops _ houtside]
        exact ⟨driver, hsteady, rfl⟩

theorem walkAll_replay (geometry : Geometry) (containers : List Container)
    (scan : Scan (Transcript δ)) {driver : ε} (hsteady : Steady geometry.sectorSize contents driver) :
    let walked := walkAll geometry containers scan
    contents.Repeats geometry.sectorSize walked.2.driver.exchanges →
      ∃ after, Steady geometry.sectorSize contents after ∧
        walkAll geometry containers ⟨driver, scan.table⟩ = (walked.1, ⟨after, walked.2.table⟩) := by
  induction containers generalizing scan driver with
  | nil => exact fun _ => ⟨driver, hsteady, rfl⟩
  | cons container rest ih =>
      intro walked hrepeats
      obtain ⟨middle, hmiddle, hfirst⟩ := walk_replay geometry container Limits.maxExtendedHops
        container.head scan hsteady fun lba answer hmem =>
          hrepeats lba answer (mem_exchanges_walkAll geometry rest _ hmem)
      obtain ⟨after, hafter, hlater⟩ := ih _ hmiddle hrepeats
      refine ⟨after, hafter, ?_⟩
      rw [walkAll, hfirst, hlater]
      rfl

/-- The first sector of the disk is in the transcript of a scan. -/
theorem mem_exchanges_run {geometry : Geometry} (table : List Partition) (exchanges : List Exchange)
    (hsize : Limits.sectorSize ≤ geometry.sectorSize) {driver after : δ}
    {answer : Except DriverError Bytes}
    (hread : DriverAction.outcome (DiskDriver.read 0 geometry.sectorSize) driver =
      (answer, after)) :
    Exchange.read 0 geometry.sectorSize answer ∈
      ((run geometry).outcome ⟨(⟨driver, exchanges⟩ : Transcript δ), table⟩).2.driver.exchanges := by
  have hlast : Exchange.read 0 geometry.sectorSize answer ∈
      exchanges ++ [.read 0 geometry.sectorSize answer] := by simp
  rw [outcome_run table hsize (Transcript.outcome_read exchanges hread)]
  cases BootSector.ofAnswer answer with
  | error cause => exact hlast
  | ok mbr =>
      dsimp only
      rcases admitAll (mbr.primaries geometry.sectorCount) table with ⟨_ | _, kept⟩
      · exact mem_exchanges_walkAll geometry _ _ hlast
      · exact hlast

/-- A scan of a disk that answers as the transcript of a scan says has the same outcome. -/
theorem run_replay (geometry : Geometry) (scan : Scan (Transcript δ)) {driver : ε}
    (hsteady : Steady geometry.sectorSize contents driver) :
    let scanned := (run geometry).outcome scan
    contents.Repeats geometry.sectorSize scanned.2.driver.exchanges →
      ∃ after, (run geometry).outcome ⟨driver, scan.table⟩ =
        (scanned.1, ⟨after, scanned.2.table⟩) := by
  intro scanned hrepeats
  obtain ⟨⟨original, exchanges⟩, table⟩ := scan
  dsimp only [scanned] at hrepeats ⊢
  rcases Nat.lt_or_ge geometry.sectorSize Limits.sectorSize with hshort | hsize
  · rw [outcome_run_of_short _ hshort, outcome_run_of_short _ hshort]
    exact ⟨driver, rfl⟩
  · rcases hread : DriverAction.outcome (DiskDriver.read 0 geometry.sectorSize) original with
      ⟨answer, later⟩
    have hrun := outcome_run table hsize (Transcript.outcome_read exchanges hread)
    have hanswer : contents 0 = answer :=
      hrepeats 0 answer (mem_exchanges_run table exchanges hsize hread)
    obtain ⟨after, hafter, hrepeated⟩ := hsteady.outcome_read 0
    rw [hanswer] at hrepeated
    rw [outcome_run table hsize hrepeated]
    rw [hrun] at hrepeats ⊢
    cases hsector : BootSector.ofAnswer answer with
    | error cause => exact ⟨after, rfl⟩
    | ok mbr =>
        rw [hsector] at hrepeats
        dsimp only at hrepeats ⊢
        generalize admitAll (mbr.primaries geometry.sectorCount) table = admitted at hrepeats ⊢
        obtain ⟨_ | _, kept⟩ := admitted
        · obtain ⟨last, -, hwalked⟩ := walkAll_replay geometry _ _ hafter hrepeats
          dsimp only at hwalked ⊢
          rw [hwalked]
          exact ⟨last, rfl⟩
        · exact ⟨after, rfl⟩

end Scan

end StorageStack
