import Mathlib.Data.List.Forall2
import StorageStack.Proofs.Memory.Consistency

/-! # Listings of the memory filesystem

What a directory is listed with is told from the paths in its volume: which of them stand directly
in the directory, and under what names. The listing has each of them once, the directories in front
of the files, and both in the order of their paths.
-/

namespace StorageStack

namespace MemoryPath

/-- The path stands directly in a directory, under a name without slashes. The root directory is
itself a slash, so in front of the name it may stand for the slash or have one behind it. -/
def InDirectory (directory name path : String) : Prop :=
  '/' ∉ name.toList ∧ (path = directory ++ "/" ++ name ∨ directory = "/" ∧ path = "/" ++ name)

variable {path directory name : String}

/-- The last slash of a text cuts it in two. -/
theorem exists_split_of_mem {chars : List Char} (hslash : '/' ∈ chars) :
    ∃ before last, chars = before ++ '/' :: last ∧ '/' ∉ last := by
  obtain ⟨last, before, hsplit, hlast⟩ :=
    List.eq_append_cons_of_mem (List.mem_reverse.mpr hslash)
  refine ⟨before.reverse, last.reverse, ?_, fun hmem => hlast (List.mem_reverse.mp hmem)⟩
  rw [← List.reverse_reverse chars, hsplit, List.reverse_append, List.reverse_cons,
    List.append_assoc, List.singleton_append]

section Split

variable {before last : List Char} (hpath : path.toList = before ++ '/' :: last)
  (hlast : '/' ∉ last)

include hpath hlast

theorem leaf_of_split : leaf path = String.ofList last := by
  have hkept : ∀ c ∈ last.reverse, (c != '/') = true := fun c hc =>
    bne_iff_ne.mpr fun heq => hlast (heq ▸ List.mem_reverse.mp hc)
  rw [leaf, hpath, List.reverse_append, List.reverse_cons, List.append_assoc,
    List.takeWhile_append_of_pos hkept]
  simp

theorem parent_of_split :
    parent path = if before = [] then "/" else String.ofList before := by
  have hkept : ∀ c ∈ last.reverse, (c != '/') = true := fun c hc =>
    bne_iff_ne.mpr fun heq => hlast (heq ▸ List.mem_reverse.mp hc)
  have hrest : path.toList.reverse.dropWhile (· != '/') = '/' :: before.reverse := by
    rw [hpath, List.reverse_append, List.reverse_cons, List.append_assoc,
      List.dropWhile_append_of_pos hkept]
    simp
  rw [parent, hrest, List.tail_cons]
  split
  · next hnil => rw [if_pos (List.reverse_eq_nil_iff.mp hnil)]
  · next hne =>
    rw [if_neg fun hnil => hne (List.reverse_eq_nil_iff.mpr hnil), List.reverse_reverse]

end Split

/-- A name within a directory comes behind the last slash. -/
theorem InDirectory.leaf_eq (hin : InDirectory directory name path) : leaf path = name := by
  have hsplit : ∃ before, path.toList = before ++ '/' :: name.toList := by
    rcases hin.2 with rfl | ⟨-, rfl⟩
    · exact ⟨directory.toList, by simp⟩
    · exact ⟨[], by simp⟩
  obtain ⟨before, hsplit⟩ := hsplit
  rw [leaf_of_split hsplit hin.1, String.ofList_toList]

/-- A path is in a directory exactly if that is its parent, and then it has its leaf for a name. -/
theorem inDirectory_iff (hpath : IsAbsolute path) (hdirectory : directory ≠ "") :
    InDirectory directory name path ↔ parent path = directory ∧ leaf path = name := by
  constructor
  · intro hin
    refine ⟨?_, hin.leaf_eq⟩
    obtain ⟨hname, rfl | ⟨rfl, rfl⟩⟩ := hin
    · have hsplit : (directory ++ "/" ++ name).toList = directory.toList ++ '/' :: name.toList := by
        simp
      have hbefore : directory.toList ≠ [] := fun hnil => hdirectory (String.toList_eq_nil_iff.mp hnil)
      rw [parent_of_split hsplit hname, if_neg hbefore, String.ofList_toList]
    · have hsplit : ("/" ++ name).toList = [] ++ '/' :: name.toList := by simp
      rw [parent_of_split hsplit hname, if_pos rfl]
  · rintro ⟨rfl, rfl⟩
    obtain ⟨before, last, hsplit, hlast⟩ := exists_split_of_mem (List.mem_of_mem_head? hpath)
    rw [parent_of_split hsplit hlast, leaf_of_split hsplit hlast]
    refine ⟨by rwa [String.toList_ofList], ?_⟩
    by_cases hbefore : before = []
    · subst hbefore
      exact Or.inr ⟨if_pos rfl, String.toList_inj.mp (by simp [hsplit])⟩
    · rw [if_neg hbefore]
      exact Or.inl (String.toList_inj.mp (by simp [hsplit]))

end MemoryPath

theorem DirEntry.ofName?_eq_some_iff {name : String} {kind : FileKind} {size : Option Nat}
    {entry : DirEntry} :
    ofName? name kind size = some entry ↔
      entry.name.text = name ∧ entry.kind = kind ∧ entry.size = size := by
  constructor
  · intro hentry
    unfold ofName? at hentry
    split at hentry
    · cases hentry
      exact ⟨rfl, rfl, rfl⟩
    · cases hentry
  · rintro ⟨rfl, rfl, rfl⟩
    rw [ofName?, dif_pos entry.name.short]

theorem DirEntry.isDot_eq_false_iff {entry : DirEntry} (hdirectory : entry.kind = .directory) :
    entry.isDot = false ↔ entry.name.text ≠ "." ∧ entry.name.text ≠ ".." := by
  simp [isDot, isDir, hdirectory]

/-- What is listed of some items, beside the items that it is listed of. -/
theorem forall₂_filterMap {α β : Type} {related : α → β → Prop} {list : α → Option β}
    {items : List α}
    (hlisted : ∀ item ∈ items, ∀ entry, list item = some entry → related item entry) :
    List.Forall₂ related (items.filter fun item => (list item).isSome) (items.filterMap list) := by
  induction items with
  | nil => exact .nil
  | cons item rest ih =>
      obtain ⟨hitem, hrest⟩ := List.forall_mem_cons.mp hlisted
      cases hentry : list item with
      | none =>
          rw [List.filterMap_cons_none hentry, List.filter_cons_of_neg (by simp [hentry])]
          exact ih hrest
      | some entry =>
          rw [List.filterMap_cons_some hentry, List.filter_cons_of_pos (by simp [hentry])]
          exact .cons (hitem entry hentry) (ih hrest)

namespace Volume

open MemoryPath

/-- An entry tells of what stands at a path of a directory. -/
structure Shows (directory path : String) (kind : FileKind) (size : Option Nat) (entry : DirEntry) :
    Prop where
  named : InDirectory directory entry.name.text path
  kind_eq : entry.kind = kind
  size_eq : entry.size = size

/-- What a directory is listed with: each directory directly in it whose name is neither too long
nor one of the names for a directory itself and its parent, and then each file directly in it whose
name is not too long. Both come in the order of their paths, and the root is in no directory. -/
structure Snapshot (volume : Volume) (directory : String) (dirs : List String)
    (files : List (String × Bytes)) (entries : List DirEntry) : Prop where
  dirs_sorted : dirs.Pairwise (· < ·)
  mem_dirs : ∀ path, path ∈ dirs ↔ volume.dirs.contains path = true ∧ path ≠ "/" ∧
    ∃ name, InDirectory directory name path ∧ name.utf8ByteSize ≤ Limits.maxNameLength ∧
      name ≠ "." ∧ name ≠ ".."
  files_sorted : files.Pairwise fun first second => first.1 < second.1
  mem_files : ∀ path contents, (path, contents) ∈ files ↔ volume.files[path]? = some contents ∧
    ∃ name, InDirectory directory name path ∧ name.utf8ByteSize ≤ Limits.maxNameLength
  entries_eq : ∃ shownDirs shownFiles, entries = shownDirs ++ shownFiles ∧
    List.Forall₂ (fun path => Shows directory path .directory none) dirs shownDirs ∧
    List.Forall₂ (fun file => Shows directory file.1 .regular (some file.2.length)) files shownFiles

/-- The entry of a directory within another, unless its name rules it out. -/
def listedDir? (directory path : String) : Option DirEntry :=
  if path != directory && parent path == directory then
    (DirEntry.ofName? (leaf path) .directory none).filter fun entry => !entry.isDot
  else none

/-- The entry of a file within a directory, unless its name is too long. -/
def listedFile? (directory : String) (file : String × Bytes) : Option DirEntry :=
  if parent file.1 == directory then DirEntry.ofName? (leaf file.1) .regular (some file.2.length)
  else none

theorem filter_children (volume : Volume) (directory : String) :
    (volume.children directory).filter (fun entry => !entry.isDot) =
      volume.dirs.toList.filterMap (listedDir? directory) ++
        volume.files.toList.filterMap (listedFile? directory) := by
  rw [children, List.filter_append, List.filterMap_filter, List.filterMap_filter,
    List.filter_filterMap, List.filter_filterMap]
  congr 1
  · refine congrArg (List.filterMap · _) (funext fun path => ?_)
    unfold listedDir?
    split <;> rfl
  · refine congrArg (List.filterMap · _) (funext fun file => ?_)
    unfold listedFile?
    split
    · cases hentry : DirEntry.ofName? (leaf file.1) .regular (some file.2.length) with
      | none => rfl
      | some entry =>
          -- The names for a directory and its parent are kept if they belong to files.
          have hkind := (DirEntry.ofName?_eq_some_iff.mp hentry).2.1
          exact Option.filter_some_pos (by simp [DirEntry.isDot, DirEntry.isDir, hkind])
    · rfl

section Entries

variable {directory path : String} {entry : DirEntry}

theorem ne_of_inDirectory {name : String} (hin : InDirectory directory name path) (hroot : path ≠ "/") :
    path ≠ directory := by
  rintro rfl
  rcases hin.2 with hlonger | ⟨heq, -⟩
  · have hlength := congrArg String.length hlonger
    rw [String.length_append, String.length_append] at hlength
    have hslash : "/".length = 1 := rfl
    omega
  · exact hroot heq

theorem listedDir?_eq_some_iff (hpath : IsAbsolute path) (hdirectory : directory ≠ "") :
    listedDir? directory path = some entry ↔
      path ≠ "/" ∧ Shows directory path .directory none entry ∧
        entry.name.text ≠ "." ∧ entry.name.text ≠ ".." := by
  unfold listedDir?
  rw [Option.ite_none_right_eq_some, Bool.and_eq_true_iff, bne_iff_ne, beq_iff_eq,
    Option.filter_eq_some_iff, DirEntry.ofName?_eq_some_iff, Bool.not_eq_true']
  constructor
  · rintro ⟨⟨hne, hparent⟩, ⟨hname, hkind, hsize⟩, hdot⟩
    refine ⟨?_, ⟨(inDirectory_iff hpath hdirectory).mpr ⟨hparent, hname.symm⟩, hkind, hsize⟩,
      (DirEntry.isDot_eq_false_iff hkind).mp hdot⟩
    rintro rfl
    exact hne hparent
  · rintro ⟨hroot, ⟨hnamed, hkind, hsize⟩, hdots⟩
    obtain ⟨hparent, hname⟩ := (inDirectory_iff hpath hdirectory).mp hnamed
    exact ⟨⟨ne_of_inDirectory hnamed hroot, hparent⟩, ⟨hname.symm, hkind, hsize⟩,
      (DirEntry.isDot_eq_false_iff hkind).mpr hdots⟩

theorem listedFile?_eq_some_iff (hpath : IsAbsolute path) (hdirectory : directory ≠ "")
    {contents : Bytes} :
    listedFile? directory (path, contents) = some entry ↔
      Shows directory path .regular (some contents.length) entry := by
  unfold listedFile?
  rw [Option.ite_none_right_eq_some, beq_iff_eq, DirEntry.ofName?_eq_some_iff]
  constructor
  · rintro ⟨hparent, hname, hkind, hsize⟩
    exact ⟨(inDirectory_iff hpath hdirectory).mpr ⟨hparent, hname.symm⟩, hkind, hsize⟩
  · rintro ⟨hnamed, hkind, hsize⟩
    obtain ⟨hparent, hname⟩ := (inDirectory_iff hpath hdirectory).mp hnamed
    exact ⟨hparent, hname.symm, hkind, hsize⟩

/-- A name that is short enough makes an entry. -/
theorem exists_shows {name : String} (hin : InDirectory directory name path)
    (hshort : name.utf8ByteSize ≤ Limits.maxNameLength) (kind : FileKind) (size : Option Nat) :
    ∃ entry, entry.name.text = name ∧ Shows directory path kind size entry :=
  ⟨⟨⟨name, hshort⟩, kind, size⟩, rfl, hin, rfl, rfl⟩

end Entries

/-- The entries of a directory, without those for itself and its parent, are a snapshot of what is in
it. -/
theorem Consistent.snapshot {volume : Volume} (hvolume : volume.Consistent) {directory : String}
    (hdirectory : directory ≠ "") :
    ∃ dirs files, volume.Snapshot directory dirs files
      ((volume.children directory).filter fun entry => !entry.isDot) := by
  have habsolute : ∀ path ∈ volume.dirs.toList, IsAbsolute path := fun path hpath =>
    hvolume.dirs path (Std.TreeSet.mem_iff_contains.mp (Std.TreeSet.mem_toList.mp hpath))
  have hfiles : ∀ file ∈ volume.files.toList, IsAbsolute file.1 := fun file hfile => by
    refine hvolume.files file.1 ?_
    rw [Std.TreeMap.contains_eq_isSome_getElem?,
      Std.TreeMap.mem_toList_iff_getElem?_eq_some.mp hfile, Option.isSome_some]
  refine ⟨volume.dirs.toList.filter fun path => (listedDir? directory path).isSome,
    volume.files.toList.filter fun file => (listedFile? directory file).isSome, ?_, ?_, ?_, ?_,
    ⟨_, _, filter_children volume directory, forall₂_filterMap ?_, forall₂_filterMap ?_⟩⟩
  · have hordered : volume.dirs.toList.Pairwise fun first second => compare first second = .lt :=
      Std.TreeSet.ordered_toList
    exact (hordered.imp fun hlt => compareOfLessAndEq_eq_lt.mp hlt).filter _
  · intro path
    rw [List.mem_filter, Std.TreeSet.mem_toList, Std.TreeSet.mem_iff_contains]
    refine and_congr_right fun hdir => ?_
    rw [Option.isSome_iff_exists]
    constructor
    · rintro ⟨entry, hentry⟩
      obtain ⟨hroot, hshows, hdots⟩ :=
        (listedDir?_eq_some_iff (hvolume.dirs path hdir) hdirectory).mp hentry
      exact ⟨hroot, entry.name.text, hshows.named, entry.name.short, hdots⟩
    · rintro ⟨hroot, name, hin, hshort, hdots⟩
      obtain ⟨entry, rfl, hshows⟩ := exists_shows hin hshort .directory none
      exact ⟨entry, (listedDir?_eq_some_iff (hvolume.dirs path hdir) hdirectory).mpr
        ⟨hroot, hshows, hdots⟩⟩
  · have hordered : volume.files.toList.Pairwise fun first second =>
        compare first.1 second.1 = .lt := Std.TreeMap.ordered_keys_toList
    exact (hordered.imp fun hlt => compareOfLessAndEq_eq_lt.mp hlt).filter _
  · intro path contents
    rw [List.mem_filter, Std.TreeMap.mem_toList_iff_getElem?_eq_some]
    refine and_congr_right fun hfile => ?_
    have hpath := hfiles _ (Std.TreeMap.mem_toList_iff_getElem?_eq_some.mpr hfile)
    rw [Option.isSome_iff_exists]
    constructor
    · rintro ⟨entry, hentry⟩
      have hshows := (listedFile?_eq_some_iff hpath hdirectory).mp hentry
      exact ⟨entry.name.text, hshows.named, entry.name.short⟩
    · rintro ⟨name, hin, hshort⟩
      obtain ⟨entry, -, hshows⟩ := exists_shows hin hshort .regular (some contents.length)
      exact ⟨entry, (listedFile?_eq_some_iff hpath hdirectory).mpr hshows⟩
  · intro path hpath entry hentry
    exact ((listedDir?_eq_some_iff (habsolute path hpath) hdirectory).mp hentry).2.1
  · intro file hfile entry hentry
    exact (listedFile?_eq_some_iff (hfiles file hfile) hdirectory).mp hentry

/-! ## There is one snapshot -/

theorem eq_of_pairwise_lt {α : Type} {key : α → String} {first second : List α}
    (hfirst : first.Pairwise fun earlier later => key earlier < key later)
    (hsecond : second.Pairwise fun earlier later => key earlier < key later)
    (hmem : ∀ item, item ∈ first ↔ item ∈ second) : first = second := by
  have hnodup {items : List α}
      (hsorted : items.Pairwise fun earlier later => key earlier < key later) : items.Nodup := by
    refine hsorted.imp fun hlt => ?_
    rintro rfl
    exact String.lt_irrefl _ hlt
  exact List.Perm.eq_of_pairwise
    (fun _ _ _ _ hforth hback => absurd hback (String.lt_asymm hforth)) hfirst hsecond
    ((List.perm_ext_iff_of_nodup (hnodup hfirst) (hnodup hsecond)).mpr hmem)

theorem Shows.unique {directory path : String} {kind : FileKind} {size : Option Nat}
    {first second : DirEntry} (hfirst : Shows directory path kind size first)
    (hsecond : Shows directory path kind size second) : first = second := by
  obtain ⟨⟨name, hshort⟩, kind, size⟩ := first
  obtain ⟨⟨other, hshort'⟩, kind', size'⟩ := second
  obtain ⟨hnamed, rfl, rfl⟩ := hfirst
  obtain ⟨hnamed', hkind, hsize⟩ := hsecond
  obtain rfl : name = other := hnamed.leaf_eq.symm.trans hnamed'.leaf_eq
  cases hkind
  cases hsize
  rfl

/-- What is in a directory is listed in one way. -/
theorem Snapshot.unique {volume : Volume} {directory : String} {dirs others : List String}
    {files otherFiles : List (String × Bytes)} {entries otherEntries : List DirEntry}
    (hfirst : volume.Snapshot directory dirs files entries)
    (hsecond : volume.Snapshot directory others otherFiles otherEntries) :
    entries = otherEntries := by
  obtain rfl : dirs = others := eq_of_pairwise_lt hfirst.dirs_sorted hsecond.dirs_sorted fun path => by
    rw [hfirst.mem_dirs, hsecond.mem_dirs]
  obtain rfl : files = otherFiles :=
    eq_of_pairwise_lt hfirst.files_sorted hsecond.files_sorted fun file => by
      rw [hfirst.mem_files, hsecond.mem_files]
  obtain ⟨_, _, rfl, hdirs, hfiles⟩ := hfirst.entries_eq
  obtain ⟨_, _, rfl, hdirs', hfiles'⟩ := hsecond.entries_eq
  have hsame : Relator.RightUnique fun path => Shows directory path .directory none :=
    fun _ _ _ => Shows.unique
  have hsame' : Relator.RightUnique fun file : String × Bytes =>
      Shows directory file.1 .regular (some file.2.length) := fun _ _ _ => Shows.unique
  rw [hsame.forall₂ hdirs hdirs', hsame'.forall₂ hfiles hfiles']

end Volume

/-- A directory that exists is opened on a listing of its own: the children of the directory, behind
entries for itself and its parent at most. -/
theorem MemoryFs.outcome_openDir_of_dir (fs : MemoryFs) {id : Nat} {path : String}
    (hdir : (fs.volume id).dirs.contains path = true) :
    ∃ handle after dots, (openDir id path).outcome fs = (.ok handle, after) ∧
      after.listings[handle.number]? = some (dots ++ (fs.volume id).children path) ∧
      ∀ entry ∈ dots, entry.isDot = true := by
  have houtcome := outcome_openDir fs id path
  rw [if_pos hdir] at houtcome
  refine ⟨_, _, _, houtcome, Std.TreeMap.getElem?_insert_self, ?_⟩
  cases fs.listsDots <;> decide

end StorageStack
