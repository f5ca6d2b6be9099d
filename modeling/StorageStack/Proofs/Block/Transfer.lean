import StorageStack.Proofs.Block.Resolve
import StorageStack.Proofs.Block.Sectors
import StorageStack.Proofs.Disk.Stores

/-! # Transfers of bytes

A transfer of bytes through a region goes sector by sector. On a store it moves the bytes
of the range in order, up to the first sector that the store fails to serve.
-/

namespace StorageStack

/-- The byte at an offset of a region, found through the sector that holds it. -/
theorem position_eq (start offset sectorSize : Nat) :
    (start + offset / sectorSize) * sectorSize + offset % sectorSize =
      start * sectorSize + offset := by
  rw [Nat.add_mul, Nat.add_assoc, Nat.div_add_mod']

theorem Partition.start_add_lt {partition : Partition} {sectorCount lba : Nat}
    (hfinish : partition.finish ≤ sectorCount) (hlba : lba < partition.count) :
    partition.start + lba < sectorCount := by
  rw [Partition.finish] at hfinish
  omega

/-- A transfer moved `done` bytes of a range. If it stopped early, it stopped before a bad
sector and not inside a sector. -/
structure Progress (sectorSize offset length : Nat) (bad : Nat → Prop) (done : Nat) : Prop where
  done_le : done ≤ length
  aligned : done < length → done = 0 ∨ sectorSize ∣ offset + done
  stopped : done < length → bad ((offset + done) / sectorSize)

namespace Progress

variable {sectorSize offset length size done : Nat} {bad : Nat → Prop}

theorem nothing (hbad : bad (offset / sectorSize)) : Progress sectorSize offset length bad 0 :=
  ⟨Nat.zero_le _, fun _ => Or.inl rfl, fun _ => hbad⟩

/-- After the first piece a range goes on at a sector boundary. -/
theorem cons (hsize : size = min (sectorSize - offset % sectorSize) length)
    (hpositive : 0 < sectorSize)
    (hrest : Progress sectorSize (offset + size) (length - size) bad done) :
    Progress sectorSize offset length bad (size + done) := by
  have hdone := hrest.done_le
  refine ⟨by omega, fun hearly => Or.inr ?_, fun hearly => ?_⟩
  · rcases hrest.aligned (by omega) with rfl | haligned
    · rw [Nat.add_zero, boundary_of_pos hpositive hsize (by omega)]
      exact Nat.dvd_mul_left _ _
    · rw [← Nat.add_assoc]
      exact haligned
  · rw [← Nat.add_assoc]
    exact hrest.stopped (by omega)

/-- Without bad sectors a transfer is complete. -/
theorem eq_length (hprogress : Progress sectorSize offset length (fun _ => False) done) :
    done = length :=
  Nat.le_antisymm hprogress.done_le (Nat.le_of_not_lt hprogress.stopped)

end Progress

namespace Region

variable {δ : Type} [DiskDriver δ] {region : Region} {offset : Nat}

/-- A range that leaves the region is refused, and no driver is called. -/
theorem read_outside {length : Nat} (hrange : region.capacity < offset + length)
    (blocks : BlockDevices δ) :
    region.read offset length blocks = (⟨[], some .outOfRange⟩, blocks) :=
  if_pos hrange

theorem write_outside {bytes : Bytes} (hrange : region.capacity < offset + bytes.length)
    (blocks : BlockDevices δ) : region.write offset bytes blocks = .error .outOfRange blocks :=
  if_pos hrange

/-- A range inside the region goes piece by piece. -/
theorem read_of_le {length : Nat} (hrange : offset + length ≤ region.capacity)
    (blocks : BlockDevices δ) :
    region.read offset length blocks =
      region.readPieces (pieces region.info.sectorSize offset length) blocks :=
  if_neg (Nat.not_lt_of_le hrange)

theorem write_of_le {bytes : Bytes} (hrange : offset + bytes.length ≤ region.capacity)
    (blocks : BlockDevices δ) :
    region.write offset bytes blocks =
      region.writePieces (pieces region.info.sectorSize offset bytes.length) bytes blocks :=
  if_neg (Nat.not_lt_of_le hrange)

end Region

namespace Region

variable {δ : Type} [DiskDriver δ] (region : Region) (piece : Piece) (rest : List Piece)
  {blocks after : BlockDevices δ} {cause : StorageError}

theorem readPieces_of_ok {sector : Bytes}
    (hread : BlockDevices.read region.device piece.lba region.info.sectorSize blocks =
      .ok sector after) :
    region.readPieces (piece :: rest) blocks =
      (⟨(sector.drop piece.within).take piece.size ++ (region.readPieces rest after).1.bytes,
        (region.readPieces rest after).1.failure⟩, (region.readPieces rest after).2) := by
  rw [readPieces, hread]

theorem readPieces_of_error
    (hread : BlockDevices.read region.device piece.lba region.info.sectorSize blocks =
      .error cause after) :
    region.readPieces (piece :: rest) blocks = (⟨[], some cause⟩, after) := by
  rw [readPieces, hread]

theorem writePiece_of_whole (bytes : Bytes) (hwhole : piece.size = region.info.sectorSize) :
    region.writePiece piece bytes = BlockDevices.write (δ := δ) region.device piece.lba bytes := by
  funext blocks
  exact if_pos hwhole

theorem writePiece_of_part (bytes : Bytes) (hpart : piece.size ≠ region.info.sectorSize)
    {sector : Bytes} (hread : BlockDevices.read region.device piece.lba region.info.sectorSize blocks =
      .ok sector after) :
    region.writePiece piece bytes blocks =
      BlockDevices.write region.device piece.lba (sector.splice piece.within bytes) after := by
  rw [writePiece, if_neg hpart, hread]

theorem writePiece_of_unreadable (bytes : Bytes) (hpart : piece.size ≠ region.info.sectorSize)
    (hread : BlockDevices.read region.device piece.lba region.info.sectorSize blocks =
      .error cause after) :
    region.writePiece piece bytes blocks = .error cause after := by
  rw [writePiece, if_neg hpart, hread]

theorem writePieces_of_ok (bytes : Bytes)
    (hwrite : region.writePiece piece (bytes.take piece.size) blocks = .ok () after) :
    region.writePieces (piece :: rest) bytes blocks =
      region.writePieces rest (bytes.drop piece.size) after := by
  rw [writePieces, hwrite]

theorem writePieces_of_error (bytes : Bytes)
    (hwrite : region.writePiece piece (bytes.take piece.size) blocks = .error cause after) :
    region.writePieces (piece :: rest) bytes blocks = .error cause after := by
  rw [writePieces, hwrite]

end Region

namespace BlockDevices.Resolves

variable {δ : Type} [DiskDriver δ] {blocks : BlockDevices δ} {device : DeviceHandle}
  {disk : AttachedDisk δ} {layout : Layout} {partition : Partition} {sectorCount : Nat}
  {badReads badWrites : Nat → Prop} {holds : δ → Row → Prop}

section Sector

variable (hresolves : Resolves blocks device disk layout partition)
  (hstore : SectorStore layout.geometry.sectorSize sectorCount badReads badWrites holds)
  (hsize : 0 < layout.geometry.sectorSize) (hfinish : partition.finish ≤ sectorCount)
  {driver : δ} {row : Row} (hholds : holds driver row) {lba : Nat} (hlba : lba < partition.count)

include hresolves hstore hsize hfinish hholds hlba

theorem read_stored :
    ∃ after, holds after row ∧
      (read device lba layout.geometry.sectorSize (blocks.replace { disk with driver }) =
          .ok (row.slice ((partition.start + lba) * layout.geometry.sectorSize)
            layout.geometry.sectorSize) (blocks.replace { disk with driver := after }) ∨
        badReads (partition.start + lba) ∧
          read device lba layout.geometry.sectorSize (blocks.replace { disk with driver }) =
            .error .ioError (blocks.replace { disk with driver := after })) := by
  have hinside := Partition.start_add_lt hfinish hlba
  have hread := (hresolves.replace driver).read_sector hsize hlba
  obtain ⟨after, hafter, hserved | ⟨hbad, cause, hfailed⟩⟩ := hstore.read hholds hinside
  · refine ⟨after, hafter, Or.inl ?_⟩
    rw [hread, hserved]
    exact congrArg (EStateM.Result.ok _) (replace_replace blocks rfl)
  · refine ⟨after, hafter, Or.inr ⟨hbad, ?_⟩⟩
    rw [hread, hfailed]
    exact congrArg (EStateM.Result.error _) (replace_replace blocks rfl)

theorem write_stored {bytes : Bytes} (hbytes : bytes.length = layout.geometry.sectorSize) :
    ∃ after, holds after
          (row.overlay ((partition.start + lba) * layout.geometry.sectorSize) bytes) ∧
        write device lba bytes (blocks.replace { disk with driver }) =
          .ok () (blocks.replace { disk with driver := after }) ∨
      badWrites (partition.start + lba) ∧ holds after row ∧
        write device lba bytes (blocks.replace { disk with driver }) =
          .error .ioError (blocks.replace { disk with driver := after }) := by
  have hinside := Partition.start_add_lt hfinish hlba
  have hwrite := (hresolves.replace driver).write_sector hsize hlba hbytes
  obtain ⟨after, ⟨hafter, hserved⟩ | ⟨hbad, hafter, cause, hfailed⟩⟩ :=
    hstore.write hholds hinside hbytes
  · refine ⟨after, Or.inl ⟨hafter, ?_⟩⟩
    rw [hwrite, hserved]
    exact congrArg (EStateM.Result.ok _) (replace_replace blocks rfl)
  · refine ⟨after, Or.inr ⟨hbad, hafter, ?_⟩⟩
    rw [hwrite, hfailed]
    exact congrArg (EStateM.Result.error _) (replace_replace blocks rfl)

/-- A piece lands in its sector, or the sector stays as it is. -/
theorem writePiece_stored {within : Nat} {bytes : Bytes}
    (hwithin : within + bytes.length ≤ layout.geometry.sectorSize) :
    ∃ after, holds after (row.overlay
          ((partition.start + lba) * layout.geometry.sectorSize + within) bytes) ∧
        (Region.onLayout device layout partition).writePiece ⟨lba, within, bytes.length⟩ bytes
            (blocks.replace { disk with driver }) =
          .ok () (blocks.replace { disk with driver := after }) ∨
      (badReads (partition.start + lba) ∨ badWrites (partition.start + lba)) ∧ holds after row ∧
        (Region.onLayout device layout partition).writePiece ⟨lba, within, bytes.length⟩ bytes
            (blocks.replace { disk with driver }) =
          .error .ioError (blocks.replace { disk with driver := after }) := by
  by_cases hwhole : bytes.length = layout.geometry.sectorSize
  · obtain rfl : within = 0 := by omega
    rw [Region.writePiece_of_whole _ _ _ hwhole]
    obtain ⟨after, ⟨hafter, hwrite⟩ | ⟨hbad, hafter, hwrite⟩⟩ :=
      write_stored hresolves hstore hsize hfinish hholds hlba hwhole
    · exact ⟨after, Or.inl ⟨hafter, hwrite⟩⟩
    · exact ⟨after, Or.inr ⟨Or.inr hbad, hafter, hwrite⟩⟩
  · obtain ⟨middle, hmiddle, hread | ⟨hbad, hread⟩⟩ :=
      read_stored hresolves hstore hsize hfinish hholds hlba
    · rw [Region.writePiece_of_part _ _ _ hwhole hread]
      -- The sector that goes back is the one that was read, with the piece laid over it.
      have hlength : ((row.slice ((partition.start + lba) * layout.geometry.sectorSize)
          layout.geometry.sectorSize).splice within bytes).length = layout.geometry.sectorSize := by
        rw [Bytes.length_splice, Row.length_slice, Nat.max_eq_left hwithin]
      obtain ⟨after, ⟨hafter, hwrite⟩ | ⟨hbad, hafter, hwrite⟩⟩ :=
        write_stored hresolves hstore hsize hfinish hmiddle hlba hlength
      · rw [Row.overlay_splice_slice row _ hwithin] at hafter
        exact ⟨after, Or.inl ⟨hafter, hwrite⟩⟩
      · exact ⟨after, Or.inr ⟨Or.inr hbad, hafter, hwrite⟩⟩
    · rw [Region.writePiece_of_unreadable _ _ _ hwhole hread]
      exact ⟨middle, Or.inr ⟨Or.inl hbad, hmiddle, rfl⟩⟩

end Sector

section Range

variable (hresolves : Resolves blocks device disk layout partition)
  (hstore : SectorStore layout.geometry.sectorSize sectorCount badReads badWrites holds)
  (hsize : 0 < layout.geometry.sectorSize) (hfinish : partition.finish ≤ sectorCount)
  {driver : δ} {row : Row} (hholds : holds driver row)

include hresolves hstore hsize hfinish hholds

/-- A read delivers the bytes of the row up to the first bad sector. -/
theorem readPieces_stored {offset length : Nat}
    (hrange : offset + length ≤ partition.count * layout.geometry.sectorSize) :
    ∃ done after,
      Progress layout.geometry.sectorSize offset length
        (fun lba => badReads (partition.start + lba)) done ∧
      holds after row ∧
      (Region.onLayout device layout partition).readPieces
          (pieces layout.geometry.sectorSize offset length) (blocks.replace { disk with driver }) =
        (⟨row.slice (partition.start * layout.geometry.sectorSize + offset) done,
          if done = length then none else some .ioError⟩,
          blocks.replace { disk with driver := after }) := by
  induction offset, length using pieces_induct hsize generalizing driver with
  | empty offset =>
      refine ⟨0, driver, ⟨Nat.le_refl _, by omega, by omega⟩, hholds, ?_⟩
      rw [pieces_zero]
      rfl
  | cons offset length size hlength hmin hpieces ih =>
      have hlba : offset / layout.geometry.sectorSize < partition.count :=
        div_lt_of_range hlength hrange
      have hwithin := Nat.mod_lt offset hsize
      rw [hpieces]
      obtain ⟨after, hafter, hread | ⟨hbad, hread⟩⟩ :=
        read_stored hresolves hstore hsize hfinish hholds hlba
      · obtain ⟨done, last, hprogress, hlast, hrest⟩ := ih hafter (by omega)
        have hsector := row.take_drop_slice
          ((partition.start + offset / layout.geometry.sectorSize) * layout.geometry.sectorSize)
          (show offset % layout.geometry.sectorSize + size ≤ layout.geometry.sectorSize by omega)
        rw [position_eq] at hsector
        refine ⟨size + done, last, hprogress.cons hmin hsize, hlast, ?_⟩
        rw [Region.readPieces_of_ok _ _ _ hread, hrest, hsector, Row.slice_add, Nat.add_assoc]
        by_cases hdone : done = length - size
        · rw [if_pos hdone, if_pos (by omega)]
        · have hearly := hprogress.done_le
          rw [if_neg hdone, if_neg (by omega)]
      · refine ⟨0, after, Progress.nothing hbad, hafter, ?_⟩
        rw [Region.readPieces_of_error _ _ _ hread, if_neg (Nat.ne_of_lt hlength), Row.slice_zero]

/-- A write lays the payload over the row up to the first bad sector. -/
theorem writePieces_stored {offset : Nat} {bytes : Bytes}
    (hrange : offset + bytes.length ≤ partition.count * layout.geometry.sectorSize) :
    ∃ done after,
      Progress layout.geometry.sectorSize offset bytes.length
        (fun lba => badReads (partition.start + lba) ∨ badWrites (partition.start + lba)) done ∧
      holds after (row.overlay (partition.start * layout.geometry.sectorSize + offset)
        (bytes.take done)) ∧
      (Region.onLayout device layout partition).writePieces
          (pieces layout.geometry.sectorSize offset bytes.length) bytes
          (blocks.replace { disk with driver }) =
        if done = bytes.length then .ok () (blocks.replace { disk with driver := after })
        else .error .ioError (blocks.replace { disk with driver := after }) := by
  -- The row changes with each piece, so the induction is over all rows and payloads.
  generalize hbytes : bytes.length = length at hrange ⊢
  induction offset, length using pieces_induct hsize generalizing bytes driver row with
  | empty offset =>
      refine ⟨0, driver, ⟨Nat.le_refl _, by omega, by omega⟩, ?_, ?_⟩
      · rw [List.take_zero, Row.overlay_nil]
        exact hholds
      · rw [pieces_zero]
        rfl
  | cons offset length size hlength hmin hpieces ih =>
      have hlba : offset / layout.geometry.sectorSize < partition.count :=
        div_lt_of_range hlength hrange
      have hwithin := Nat.mod_lt offset hsize
      have hshare : (bytes.take size).length = size := by
        rw [List.length_take, hbytes]
        omega
      have hbehind : (bytes.drop size).length = length - size := by
        rw [List.length_drop, hbytes]
      have hsector : offset % layout.geometry.sectorSize + (bytes.take size).length ≤
          layout.geometry.sectorSize := by omega
      have hfirst := writePiece_stored hresolves hstore hsize hfinish hholds hlba hsector
      rw [position_eq, hshare] at hfirst
      rw [hpieces]
      obtain ⟨middle, ⟨hmiddle, hwrite⟩ | ⟨hbad, hmiddle, hwrite⟩⟩ := hfirst
      · obtain ⟨done, last, hprogress, hlast, hrest⟩ := ih hmiddle hbehind (by omega)
        refine ⟨size + done, last, hprogress.cons hmin hsize, ?_, ?_⟩
        · have hoverlay := row.overlay_append
            (partition.start * layout.geometry.sectorSize + offset) (bytes.take size)
            ((bytes.drop size).take done)
          rw [hshare, ← List.take_add, Nat.add_assoc] at hoverlay
          rw [← hoverlay]
          exact hlast
        · rw [Region.writePieces_of_ok _ _ _ _ hwrite, hrest]
          have hearly := hprogress.done_le
          by_cases hdone : done = length - size
          · rw [if_pos hdone, if_pos (by omega)]
          · rw [if_neg hdone, if_neg (by omega)]
      · refine ⟨0, middle, Progress.nothing hbad, ?_, ?_⟩
        · rw [List.take_zero, Row.overlay_nil]
          exact hmiddle
        · rw [Region.writePieces_of_error _ _ _ _ hwrite, if_neg (Nat.ne_of_lt hlength)]

end Range

end BlockDevices.Resolves

end StorageStack
