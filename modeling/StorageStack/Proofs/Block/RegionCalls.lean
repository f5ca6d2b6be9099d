import StorageStack.Disk.Faulty
import StorageStack.Disk.Recorder
import StorageStack.Proofs.Block.TableInvariant
import StorageStack.Proofs.Block.Transfer
import StorageStack.Proofs.Disk.Transcript

/-! # The calls of a region

A transfer of bytes goes through the sectors that its range meets, each of them once and in
ascending order. A read is one call for each sector. A write is one call for a sector that it
covers, and otherwise a read and a write of that sector. The first call that fails is the last.
-/

namespace StorageStack

namespace Exchange

/-- The call of an exchange, without the answer. -/
def access : Exchange → Access
  | geometry _ => .geometry
  | read lba length _ => .read lba length
  | write lba bytes _ => .write lba bytes.length

/-- Whether the driver did what it was asked for. -/
def served : Exchange → Bool
  | geometry answer => answer.isOk
  | read _ _ answer => answer.isOk
  | write _ _ answer => answer.isOk

end Exchange

/-- The calls follow the plan in order. All of them but the last are served, and if that one is
served too, the plan has been followed to its end. -/
structure CarriesOut (plan : List Access) (calls : List Exchange) : Prop where
  follows : calls.map Exchange.access <+: plan
  served : ∀ call ∈ calls.dropLast, call.served
  complete : (∀ call ∈ calls, call.served) → calls.map Exchange.access = plan

namespace CarriesOut

variable {plan rest : List Access} {calls later : List Exchange} {access : Access} {call : Exchange}

theorem nil : CarriesOut [] [] := ⟨List.prefix_rfl, by simp, fun _ => rfl⟩

theorem single (hcall : call.access = access) : CarriesOut [access] [call] := by
  subst hcall
  exact ⟨List.prefix_rfl, by simp, fun _ => rfl⟩

/-- A plan that has been carried out to its end goes on with the next. -/
theorem append (hcalls : CarriesOut plan calls) (hserved : ∀ call ∈ calls, call.served)
    (hlater : CarriesOut rest later) : CarriesOut (plan ++ rest) (calls ++ later) := by
  have hdone := hcalls.complete hserved
  refine ⟨?_, ?_, fun hall => ?_⟩
  · rw [List.map_append, hdone]
    exact (List.prefix_append_right_inj plan).mpr hlater.follows
  · cases later with
    | nil =>
        rw [List.append_nil]
        exact hcalls.served
    | cons call others =>
        rw [List.dropLast_append_of_ne_nil (List.cons_ne_nil call others)]
        exact List.forall_mem_append.mpr ⟨hserved, hlater.served⟩
  · rw [List.map_append, hdone, hlater.complete (List.forall_mem_append.mp hall).2]

/-- A plan that breaks off has nothing of the next behind it. -/
theorem stop (hcalls : CarriesOut plan calls) (hfailed : ¬ ∀ call ∈ calls, call.served)
    (rest : List Access) : CarriesOut (plan ++ rest) calls :=
  ⟨hcalls.follows.trans (List.prefix_append plan rest), hcalls.served,
    fun hserved => absurd hserved hfailed⟩

theorem cons (hcall : call.access = access) (hserved : call.served)
    (hlater : CarriesOut rest later) : CarriesOut (access :: rest) (call :: later) :=
  (single hcall).append (by simpa using hserved) hlater

theorem failed (hcall : call.access = access) (hfailed : call.served = false) :
    CarriesOut (access :: rest) [call] :=
  (single hcall).stop (by simp [hfailed]) rest

end CarriesOut

namespace Partition

/-- The calls for a read of bytes: one for each sector that the range meets. -/
def readPlan (partition : Partition) (sectorSize offset length : Nat) : List Access :=
  (sectorsMet partition.count sectorSize offset length).map fun lba =>
    .read (partition.start + lba) sectorSize

/-- The calls for a write of bytes: a sector that the range covers is written, and any other
sector that it meets is read and then written. -/
def writePlan (partition : Partition) (sectorSize offset length : Nat) : List Access :=
  (sectorsMet partition.count sectorSize offset length).flatMap fun lba =>
    if Covers sectorSize offset length lba then [.write (partition.start + lba) sectorSize]
    else [.read (partition.start + lba) sectorSize, .write (partition.start + lba) sectorSize]

/-- The call is for one sector of the partition, and the range meets that sector. -/
def Reaches (partition : Partition) (sectorSize offset length : Nat) (access : Access) : Prop :=
  ∃ lba, lba < partition.count ∧ Meets sectorSize offset length lba ∧
    (access = .read (partition.start + lba) sectorSize ∨
      access = .write (partition.start + lba) sectorSize)

/-- The calls for writing one piece. -/
def pieceCalls (partition : Partition) (sectorSize : Nat) (piece : Piece) : List Access :=
  if piece.size = sectorSize then [.write (partition.start + piece.lba) sectorSize]
  else [.read (partition.start + piece.lba) sectorSize,
    .write (partition.start + piece.lba) sectorSize]

section Plans

variable (partition : Partition) {sectorSize offset length : Nat} (hsize : 0 < sectorSize)
  (hrange : offset + length ≤ partition.count * sectorSize)

include hsize hrange

theorem readPlan_eq :
    partition.readPlan sectorSize offset length =
      (pieces sectorSize offset length).map fun piece =>
        .read (partition.start + piece.lba) sectorSize := by
  rw [readPlan, ← map_lba_pieces hsize hrange, List.map_map]
  rfl

theorem writePlan_eq :
    partition.writePlan sectorSize offset length =
      (pieces sectorSize offset length).flatMap (partition.pieceCalls sectorSize) := by
  rw [writePlan, ← map_lba_pieces hsize hrange, List.flatMap_map]
  refine List.flatMap_congr fun piece hpiece => ?_
  exact if_congr (size_eq_iff_covers hsize hpiece).symm rfl rfl

end Plans

theorem reaches_of_mem_plans {partition : Partition} {sectorSize offset length : Nat} {access : Access}
    (haccess : access ∈ partition.readPlan sectorSize offset length ∨
      access ∈ partition.writePlan sectorSize offset length) :
    partition.Reaches sectorSize offset length access := by
  rcases haccess with hread | hwrite
  · obtain ⟨lba, hlba, rfl⟩ := List.mem_map.mp hread
    obtain ⟨hcount, hmeets⟩ := mem_sectorsMet.mp hlba
    exact ⟨lba, hcount, hmeets, Or.inl rfl⟩
  · obtain ⟨lba, hlba, hcall⟩ := List.mem_flatMap.mp hwrite
    obtain ⟨hcount, hmeets⟩ := mem_sectorsMet.mp hlba
    refine ⟨lba, hcount, hmeets, ?_⟩
    split at hcall
    · exact Or.inr (List.mem_singleton.mp hcall)
    · simpa using hcall

end Partition

namespace BlockDevices

/-- The devices after calls to the driver of one disk. -/
def called {δ : Type} (blocks : BlockDevices (Transcript δ)) (disk : AttachedDisk (Transcript δ))
    (driver : δ) (calls : List Exchange) : BlockDevices (Transcript δ) :=
  blocks.replace { disk with driver := ⟨driver, disk.driver.exchanges ++ calls⟩ }

namespace Resolves

variable {δ : Type} [DiskDriver δ] {blocks : BlockDevices (Transcript δ)} {device : DeviceHandle}
  {disk : AttachedDisk (Transcript δ)} {layout : Layout} {partition : Partition}

variable (hresolves : Resolves blocks device disk layout partition)
  (hsize : 0 < layout.geometry.sectorSize) (driver : δ) (calls : List Exchange)

include hresolves hsize

section Sector

variable {lba : Nat} (hlba : lba < partition.count)

include hlba

/-- A read of one sector is one call, and succeeds if it is served. -/
theorem read_called :
    ∃ after,
      (∃ sector, sector.length = layout.geometry.sectorSize ∧
        read device lba layout.geometry.sectorSize (blocks.called disk driver calls) =
          .ok sector (blocks.called disk after
            (calls ++ [.read (partition.start + lba) layout.geometry.sectorSize (.ok sector)]))) ∨
      ∃ cause, read device lba layout.geometry.sectorSize (blocks.called disk driver calls) =
        .error .ioError (blocks.called disk after
          (calls ++ [.read (partition.start + lba) layout.geometry.sectorSize (.error cause)])) := by
  have hread := (hresolves.replace ⟨driver, disk.driver.exchanges ++ calls⟩).read_sector hsize hlba
  rcases hcall : DriverAction.outcome
    (DiskDriver.read (partition.start + lba) layout.geometry.sectorSize) driver with ⟨answer, after⟩
  have hkept := Transcript.outcome_read (disk.driver.exchanges ++ calls) hcall
  rw [List.append_assoc] at hkept
  refine ⟨after, ?_⟩
  cases answer with
  | ok sector =>
      refine Or.inl ⟨sector, DiskDriver.length_read (DriverAction.outcome_eq_ok_iff.mp hcall), ?_⟩
      rw [DriverAction.outcome_eq_ok_iff.mp hkept] at hread
      exact hread.trans (congrArg (EStateM.Result.ok sector) (replace_replace blocks rfl))
  | error cause =>
      refine Or.inr ⟨cause, ?_⟩
      rw [DriverAction.outcome_eq_error_iff.mp hkept] at hread
      exact hread.trans (congrArg (EStateM.Result.error _) (replace_replace blocks rfl))

/-- A write of one sector is one call, and succeeds if it is served. -/
theorem write_called {bytes : Bytes} (hbytes : bytes.length = layout.geometry.sectorSize) :
    ∃ after,
      write device lba bytes (blocks.called disk driver calls) =
        .ok () (blocks.called disk after
          (calls ++ [.write (partition.start + lba) bytes (.ok ())])) ∨
      ∃ cause, write device lba bytes (blocks.called disk driver calls) =
        .error .ioError (blocks.called disk after
          (calls ++ [.write (partition.start + lba) bytes (.error cause)])) := by
  have hwrite := (hresolves.replace ⟨driver, disk.driver.exchanges ++ calls⟩).write_sector
    hsize hlba hbytes
  rcases hcall : DriverAction.outcome
    (DiskDriver.write (partition.start + lba) bytes) driver with ⟨answer, after⟩
  have hkept := Transcript.outcome_write (disk.driver.exchanges ++ calls) hcall
  rw [List.append_assoc] at hkept
  refine ⟨after, ?_⟩
  cases answer with
  | ok =>
      rw [DriverAction.outcome_eq_ok_iff.mp hkept] at hwrite
      exact Or.inl (hwrite.trans (congrArg (EStateM.Result.ok ()) (replace_replace blocks rfl)))
  | error cause =>
      refine Or.inr ⟨cause, ?_⟩
      rw [DriverAction.outcome_eq_error_iff.mp hkept] at hwrite
      exact hwrite.trans (congrArg (EStateM.Result.error _) (replace_replace blocks rfl))

/-- A piece takes one call if it is a whole sector, and otherwise a read and a write. -/
theorem writePiece_called {within size : Nat} {bytes : Bytes} (hbytes : bytes.length = size)
    (hwithin : within + size ≤ layout.geometry.sectorSize) :
    ∃ after made,
      CarriesOut (partition.pieceCalls layout.geometry.sectorSize ⟨lba, within, size⟩) made ∧
      (Region.onLayout device layout partition).writePiece ⟨lba, within, size⟩ bytes
          (blocks.called disk driver calls) =
        if ∀ call ∈ made, call.served then .ok () (blocks.called disk after (calls ++ made))
        else .error .ioError (blocks.called disk after (calls ++ made)) := by
  unfold Partition.pieceCalls
  by_cases hwhole : size = layout.geometry.sectorSize
  · have hsector := hbytes.trans hwhole
    have hcall := congrArg (Access.write (partition.start + lba)) hsector
    rw [Region.writePiece_of_whole _ _ _ hwhole, if_pos hwhole]
    obtain ⟨after, hwrite | ⟨cause, hwrite⟩⟩ :=
      write_called hresolves hsize driver calls hlba hsector
    · exact ⟨after, [.write (partition.start + lba) bytes (.ok ())], .single hcall, hwrite⟩
    · exact ⟨after, [.write (partition.start + lba) bytes (.error cause)], .single hcall, hwrite⟩
  · rw [if_neg hwhole]
    obtain ⟨middle, ⟨sector, hsector, hread⟩ | ⟨cause, hread⟩⟩ :=
      read_called hresolves hsize driver calls hlba
    · have hlength : (sector.splice within bytes).length = layout.geometry.sectorSize := by
        rw [Bytes.length_splice, hsector, hbytes, Nat.max_eq_left hwithin]
      have hcall := congrArg (Access.write (partition.start + lba)) hlength
      rw [Region.writePiece_of_part _ _ _ hwhole hread]
      let first : Exchange :=
        .read (partition.start + lba) layout.geometry.sectorSize (.ok sector)
      obtain ⟨after, hwrite⟩ := write_called hresolves hsize middle (calls ++ [first]) hlba hlength
      simp only [List.append_assoc] at hwrite
      rcases hwrite with hwrite | ⟨cause, hwrite⟩
      · exact ⟨after, first :: [.write (partition.start + lba) _ (.ok ())],
          .cons rfl rfl (.single hcall), hwrite⟩
      · exact ⟨after, first :: [.write (partition.start + lba) _ (.error cause)],
          .cons rfl rfl (.single hcall), hwrite⟩
    · rw [Region.writePiece_of_unreadable _ _ _ hwhole hread]
      exact ⟨middle, [.read (partition.start + lba) layout.geometry.sectorSize (.error cause)],
        .failed rfl rfl, rfl⟩

end Sector

section Range

variable {offset : Nat}

/-- A read of bytes is one call for each piece, up to the first that fails. -/
theorem readPieces_called {length : Nat}
    (hrange : offset + length ≤ partition.count * layout.geometry.sectorSize) :
    ∃ after made,
      CarriesOut ((pieces layout.geometry.sectorSize offset length).map fun piece =>
        .read (partition.start + piece.lba) layout.geometry.sectorSize) made ∧
      ∃ bytes, (Region.onLayout device layout partition).readPieces
          (pieces layout.geometry.sectorSize offset length) (blocks.called disk driver calls) =
        (⟨bytes, if ∀ call ∈ made, call.served then none else some .ioError⟩,
          blocks.called disk after (calls ++ made)) := by
  induction offset, length using pieces_induct hsize generalizing driver calls with
  | empty offset =>
      rw [pieces_zero]
      refine ⟨driver, [], .nil, [], ?_⟩
      rw [List.append_nil]
      rfl
  | cons offset length size hlength hmin hpieces ih =>
      have hlba : offset / layout.geometry.sectorSize < partition.count :=
        div_lt_of_range hlength hrange
      rw [hpieces, List.map_cons]
      obtain ⟨middle, ⟨sector, -, hread⟩ | ⟨cause, hread⟩⟩ :=
        read_called hresolves hsize driver calls hlba
      · let first : Exchange := .read (partition.start + offset / layout.geometry.sectorSize)
          layout.geometry.sectorSize (.ok sector)
        obtain ⟨after, made, hmade, bytes, hrest⟩ := ih middle (calls ++ [first]) (by omega)
        refine ⟨after, first :: made, .cons rfl rfl hmade,
          (sector.drop (offset % layout.geometry.sectorSize)).take size ++ bytes, ?_⟩
        have hserved : (∀ call ∈ first :: made, call.served) ↔ ∀ call ∈ made, call.served :=
          List.forall_mem_cons.trans (and_iff_right rfl)
        rw [Region.readPieces_of_ok _ _ _ hread, hrest, List.append_assoc]
        simp only [hserved]
        rfl
      · rw [Region.readPieces_of_error _ _ _ hread]
        exact ⟨middle, [.read (partition.start + offset / layout.geometry.sectorSize)
          layout.geometry.sectorSize (.error cause)], .failed rfl rfl, [], rfl⟩

/-- A write of bytes makes the calls of each piece, up to the first that fails. -/
theorem writePieces_called {bytes : Bytes}
    (hrange : offset + bytes.length ≤ partition.count * layout.geometry.sectorSize) :
    ∃ after made,
      CarriesOut ((pieces layout.geometry.sectorSize offset bytes.length).flatMap
        (partition.pieceCalls layout.geometry.sectorSize)) made ∧
      (Region.onLayout device layout partition).writePieces
          (pieces layout.geometry.sectorSize offset bytes.length) bytes
          (blocks.called disk driver calls) =
        if ∀ call ∈ made, call.served then .ok () (blocks.called disk after (calls ++ made))
        else .error .ioError (blocks.called disk after (calls ++ made)) := by
  generalize hbytes : bytes.length = length at hrange ⊢
  induction offset, length using pieces_induct hsize generalizing bytes driver calls with
  | empty offset =>
      rw [pieces_zero]
      refine ⟨driver, [], .nil, ?_⟩
      rw [List.append_nil]
      rfl
  | cons offset length size hlength hmin hpieces ih =>
      have hlba : offset / layout.geometry.sectorSize < partition.count :=
        div_lt_of_range hlength hrange
      have hwithin := Nat.mod_lt offset hsize
      have hshare : (bytes.take size).length = size := by
        rw [List.length_take, hbytes]
        omega
      have hbehind : (bytes.drop size).length = length - size := by
        rw [List.length_drop, hbytes]
      rw [hpieces, List.flatMap_cons]
      obtain ⟨middle, first, hfirst, hwrite⟩ := writePiece_called hresolves hsize driver calls hlba
        hshare (show offset % layout.geometry.sectorSize + size ≤ _ by omega)
      by_cases hserved : ∀ call ∈ first, call.served
      · rw [if_pos hserved] at hwrite
        obtain ⟨after, made, hmade, hrest⟩ := ih middle (calls ++ first) hbehind (by omega)
        have hall : (∀ call ∈ first ++ made, call.served) ↔ ∀ call ∈ made, call.served :=
          List.forall_mem_append.trans (and_iff_right hserved)
        refine ⟨after, first ++ made, hfirst.append hserved hmade, ?_⟩
        rw [Region.writePieces_of_ok _ _ _ _ hwrite, hrest, List.append_assoc]
        simp only [hall]
      · rw [if_neg hserved] at hwrite
        refine ⟨middle, first, hfirst.stop hserved _, ?_⟩
        rw [Region.writePieces_of_error _ _ _ _ hwrite, if_neg hserved]

end Range

end Resolves

end BlockDevices

end StorageStack
