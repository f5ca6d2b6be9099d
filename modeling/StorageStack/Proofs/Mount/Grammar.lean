import StorageStack.Handset
import StorageStack.Proofs.Mount.Segments
import StorageStack.Proofs.Storage.Changes

/-! # The grammar of mount paths

A mount path is a row of groups, each of them a slash with a name behind it. The tests that a mount
makes on a path look at its ends and at neighbouring letters only, and together they accept exactly
the rows of groups that are short enough.
-/

namespace StorageStack

/-- A slash and a name behind it, which has letters and no slash among them. -/
inductive PathGroup : List Char → Prop
  | mk {name : List Char} (hletters : name ≠ []) (hslash : '/' ∉ name) : PathGroup ('/' :: name)

/-- Groups one after the other, at least one of them. -/
inductive PathGroups : List Char → Prop
  | one {group : List Char} (hgroup : PathGroup group) : PathGroups group
  | cons {group rest : List Char} (hgroup : PathGroup group) (hrest : PathGroups rest) :
      PathGroups (group ++ rest)

/-! ## Empty segments -/

/-- Only a slash in front of a slash opens an empty segment. -/
theorem hasEmptySegment_cons {c : Char} {rest : List Char}
    (hpair : c ≠ '/' ∨ rest.head? ≠ some '/') :
    hasEmptySegment (c :: rest) = hasEmptySegment rest := by
  rw [hasEmptySegment.eq_2]
  rintro later rfl rfl
  simp at hpair

theorem hasEmptySegment_append_of_not_mem {name : List Char} (hslash : '/' ∉ name)
    (rest : List Char) :
    hasEmptySegment (name ++ rest) = hasEmptySegment rest := by
  induction name with
  | nil => rfl
  | cons c name ih =>
      have hc : c ≠ '/' := by
        rintro rfl
        exact hslash List.mem_cons_self
      rw [List.cons_append, hasEmptySegment_cons (Or.inl hc)]
      exact ih fun hmem => hslash (List.mem_cons_of_mem c hmem)

/-- A text without empty segments ends in none. -/
theorem hasEmptySegment_of_append {before rest : List Char}
    (hnone : hasEmptySegment (before ++ rest) = false) : hasEmptySegment rest = false := by
  induction before with
  | nil => exact hnone
  | cons c before ih =>
      rw [List.cons_append] at hnone
      by_cases hpair : c ≠ '/' ∨ (before ++ rest).head? ≠ some '/'
      · exact ih (hasEmptySegment_cons hpair ▸ hnone)
      · obtain ⟨hc, hhead⟩ := not_or.mp hpair
        obtain rfl := Classical.not_not.mp hc
        cases hchars : before ++ rest with
        | nil => simp [hchars] at hhead
        | cons d later =>
            obtain rfl : d = '/' := by simpa [hchars] using hhead
            simp [hchars, hasEmptySegment] at hnone

/-! ## Rows of groups -/

/-- The pieces of a text, each behind its separator, spell the text. -/
theorem Text.eq_append_flatMap_of_cut {separator : Char} {text piece : List Char}
    {pieces : List (List Char)} (hcut : cut (· == separator) text = piece :: pieces) :
    text = piece ++ pieces.flatMap fun later => separator :: later := by
  induction text generalizing piece pieces with
  | nil =>
      cases hcut
      rfl
  | cons c rest ih =>
      obtain ⟨first, others, hrest⟩ := exists_cut_eq_cons (· == separator) rest
      rw [cut_cons hrest] at hcut
      by_cases hc : c = separator
      · subst hc
        rw [if_pos (beq_self_eq_true c)] at hcut
        cases hcut
        rw [List.nil_append, List.flatMap_cons, List.cons_append, ← ih hrest]
      · rw [if_neg (by simpa using hc)] at hcut
        cases hcut
        rw [List.cons_append, ← ih hrest]

namespace PathGroups

variable {chars : List Char}

theorem head?_eq (hgroups : PathGroups chars) : chars.head? = some '/' := by
  cases hgroups with
  | one hgroup =>
      cases hgroup
      rfl
  | cons hgroup _ =>
      cases hgroup
      rfl

theorem ne_nil (hgroups : PathGroups chars) : chars ≠ [] := by
  rintro rfl
  cases hgroups.head?_eq

theorem getLast?_ne (hgroups : PathGroups chars) : chars.getLast? ≠ some '/' := by
  induction hgroups with
  | one hgroup =>
      obtain ⟨hletters, hslash⟩ := hgroup
      intro hlast
      rw [List.getLast?_cons_of_ne_nil hletters] at hlast
      exact hslash (List.mem_of_getLast? hlast)
  | cons hgroup hrest ih =>
      rwa [List.getLast?_append, Option.or_of_isSome (List.getLast?_isSome.mpr hrest.ne_nil)]

theorem hasEmptySegment_eq (hgroups : PathGroups chars) : hasEmptySegment chars = false := by
  -- A group adds no empty segment in front of a text, because its name keeps the slashes apart.
  have happend {group : List Char} (hgroup : PathGroup group) (rest : List Char) :
      hasEmptySegment (group ++ rest) = hasEmptySegment rest := by
    obtain @⟨name, hletters, hslash⟩ := hgroup
    have hhead : (name ++ rest).head? ≠ some '/' := by
      intro hhead
      rw [List.head?_append, Option.or_of_isSome (List.isSome_head?.mpr hletters)] at hhead
      exact hslash (List.mem_of_head? hhead)
    rw [List.cons_append, hasEmptySegment_cons (Or.inr hhead),
      hasEmptySegment_append_of_not_mem hslash]
  induction hgroups with
  | @one group hgroup =>
      have hnothing := happend hgroup []
      rwa [List.append_nil] at hnothing
  | cons hgroup _ ih => rw [happend hgroup, ih]

theorem of_names {names : List (List Char)} (hsome : names ≠ [])
    (hletters : ∀ name ∈ names, name ≠ []) (hslash : ∀ name ∈ names, '/' ∉ name) :
    PathGroups (names.flatMap fun name => '/' :: name) := by
  induction names with
  | nil => exact absurd rfl hsome
  | cons name rest ih =>
      obtain ⟨hname, hnames⟩ := List.forall_mem_cons.mp hletters
      obtain ⟨hown, hothers⟩ := List.forall_mem_cons.mp hslash
      rw [List.flatMap_cons]
      cases rest with
      | nil =>
          rw [List.flatMap_nil, List.append_nil]
          exact .one ⟨hname, hown⟩
      | cons second later => exact .cons ⟨hname, hown⟩ (ih (List.cons_ne_nil _ _) hnames hothers)

end PathGroups

/-- The tests at the ends and at neighbouring letters add up to the grammar. -/
theorem pathGroups_iff {chars : List Char} :
    PathGroups chars ↔
      chars.head? = some '/' ∧ chars.getLast? ≠ some '/' ∧ hasEmptySegment chars = false := by
  refine ⟨fun hgroups => ⟨hgroups.head?_eq, hgroups.getLast?_ne, hgroups.hasEmptySegment_eq⟩, ?_⟩
  rintro ⟨hhead, hlast, hempty⟩
  obtain ⟨first, names, hcut⟩ := Text.exists_cut_eq_cons (· == '/') chars
  have hletters := Text.ne_nil_of_mem_tail_cut hempty hlast
  have hslash : ∀ name ∈ Text.cut (· == '/') chars, '/' ∉ name := by
    intro name hname hmem
    simpa using Text.separates_eq_false_of_mem_cut hname '/' hmem
  have hfirst : first = [] := by
    have hpieces := Text.head?_cut_eq_nil_iff.mpr (Or.inr hhead)
    rwa [hcut, List.head?_cons, Option.some.injEq] at hpieces
  have hspelled := Text.eq_append_flatMap_of_cut hcut
  rw [hcut, List.tail_cons] at hletters
  rw [hcut] at hslash
  rw [hfirst, List.nil_append] at hspelled
  rw [hspelled]
  refine .of_names ?_ hletters fun name hname => hslash name (List.mem_cons_of_mem _ hname)
  rintro rfl
  rw [hspelled] at hhead
  cases hhead

/-- The texts that may stand as a mount path are the rows of groups within the bound. -/
theorem isMountPath_iff {text : String} :
    IsMountPath text ↔
      text.utf8ByteSize ≤ Limits.maxMountPathLength ∧ PathGroups text.toList := by
  rw [IsMountPath, IsAbsolute, pathGroups_iff]
  constructor
  · rintro ⟨habsolute, -, hlast, hempty, hsize⟩
    exact ⟨hsize, habsolute, hlast, hempty⟩
  · rintro ⟨hsize, habsolute, hlast, hempty⟩
    refine ⟨habsolute, ?_, hlast, hempty, hsize⟩
    -- A slash alone would end in a slash, so there is more than the one byte of the first slash.
    cases hchars : text.toList with
    | nil => simp [hchars] at habsolute
    | cons c rest =>
        obtain rfl : c = '/' := by simpa [hchars] using habsolute
        have hrest : String.ofList rest ≠ "" := by
          rintro hnothing
          obtain rfl : rest = [] := by simpa using congrArg String.toList hnothing
          simp [hchars] at hlast
        have htext : text = String.singleton '/' ++ String.ofList rest := by
          apply String.toList_inj.mp
          simp [hchars]
        have hpositive : (String.ofList rest).utf8ByteSize ≠ 0 :=
          fun hzero => hrest (String.utf8ByteSize_eq_zero_iff.mp hzero)
        have hslash : (String.singleton '/').utf8ByteSize = 1 := rfl
        rw [htext, String.utf8ByteSize_append, hslash]
        omega

namespace MountPath

theorem ofString?_eq_some_iff {text : String} {path : MountPath} :
    ofString? text = some path ↔ path.text = text := by
  unfold ofString?
  by_cases hvalid : IsMountPath text
  · rw [dif_pos hvalid, Option.some.injEq, eq_comm, eq_mk_iff hvalid]
  · rw [dif_neg hvalid]
    refine iff_of_false (by simp) ?_
    rintro rfl
    exact hvalid path.valid

/-- Between two mount paths, covering is going on with further groups. -/
theorem covers_text_iff (first second : MountPath) :
    first.covers second.text = true ↔
      second.text = first.text ∨
        ∃ rest, PathGroups rest ∧ second.text = first.text ++ String.ofList rest := by
  rw [covers_iff]
  constructor
  · rintro ⟨rest, htext, rfl | hhead⟩
    · rw [List.append_nil, String.toList_inj] at htext
      exact Or.inl htext
    · have hgroups := (isMountPath_iff.mp second.valid).2
      obtain ⟨-, hlast, hempty⟩ := pathGroups_iff.mp hgroups
      have hrest : rest ≠ [] := by
        rintro rfl
        cases hhead
      rw [htext] at hlast hempty
      rw [List.getLast?_append, Option.or_of_isSome (List.getLast?_isSome.mpr hrest)] at hlast
      refine Or.inr ⟨rest, pathGroups_iff.mpr ⟨hhead, hlast, hasEmptySegment_of_append hempty⟩, ?_⟩
      apply String.toList_inj.mp
      rw [htext, String.toList_append, String.toList_ofList]
  · rintro (htext | ⟨rest, hgroups, htext⟩)
    · exact ⟨[], by rw [htext, List.append_nil], Or.inl rfl⟩
    · refine ⟨rest, ?_, Or.inr hgroups.head?_eq⟩
      rw [htext, String.toList_append, String.toList_ofList]

theorem covers_refl (path : MountPath) : path.covers path.text = true :=
  (covers_text_iff path path).mpr (Or.inl rfl)

theorem covers_trans {first second third : MountPath} (hfirst : first.covers second.text = true)
    (hsecond : second.covers third.text = true) : first.covers third.text = true := by
  rw [covers_iff_segments] at *
  exact hfirst.trans hsecond

theorem covers_antisymm {first second : MountPath} (hfirst : first.covers second.text = true)
    (hsecond : second.covers first.text = true) : first = second := by
  obtain ⟨rest, hlonger, -⟩ := (covers_iff first second.text).mp hfirst
  obtain ⟨other, hlonger', -⟩ := (covers_iff second first.text).mp hsecond
  have hsame : first.text.toList = second.text.toList :=
    List.IsPrefix.eq_of_length_le ⟨rest, hlonger.symm⟩
      (List.IsPrefix.length_le ⟨other, hlonger'.symm⟩)
  exact (eq_mk_iff second.valid).mpr (String.toList_inj.mp hsame)

end MountPath

namespace Storage

variable {δ ω : Type}

/-- A path is accepted for a mount, unchanged, exactly if it is a row of groups within the bound, and
every other path is refused as an invalid argument without effect. Between accepted paths, covering
is going on with further groups, which orders them partially: paths that cover each other are one. -/
theorem mount_paths_are_groups (storage : Storage δ ω) (text : String) :
    ((∃ path, MountPath.ofString? text = some path) ↔
      text.utf8ByteSize ≤ Limits.maxMountPathLength ∧ PathGroups text.toList) ∧
    (∀ path, MountPath.ofString? text = some path → path.text = text) ∧
    (¬(text.utf8ByteSize ≤ Limits.maxMountPathLength ∧ PathGroups text.toList) →
      ∀ device fsType, storage.checkMount text device fsType = .error .invalidArgument ∧
        (mount text device fsType).outcome storage = (.error .invalidArgument, storage)) ∧
    ∀ first second : MountPath,
      (first.covers second.text = true ↔
        second.text = first.text ∨
          ∃ rest, PathGroups rest ∧ second.text = first.text ++ String.ofList rest) ∧
      first.covers first.text = true ∧
      (∀ third : MountPath, first.covers second.text = true → second.covers third.text = true →
        first.covers third.text = true) ∧
      (first.covers second.text = true → second.covers first.text = true → first = second) := by
  refine ⟨?_, fun path => MountPath.ofString?_eq_some_iff.mp, fun hrefused device fsType => ?_,
    fun first second => ⟨first.covers_text_iff second, first.covers_refl,
      fun third => MountPath.covers_trans, MountPath.covers_antisymm⟩⟩
  · rw [← isMountPath_iff]
    constructor
    · rintro ⟨path, hpath⟩
      rw [← MountPath.ofString?_eq_some_iff.mp hpath]
      exact path.valid
    · exact fun hvalid => ⟨⟨text, hvalid⟩, MountPath.ofString?_eq_some_iff.mpr rfl⟩
  · have hnone : MountPath.ofString? text = none :=
      dif_neg fun hvalid => hrefused (isMountPath_iff.mp hvalid)
    have hcheck : storage.checkMount text device fsType = .error .invalidArgument := by
      rw [checkMount, hnone]
    exact ⟨hcheck, outcome_mount_of_refused hcheck⟩

/-- An empty segment in the middle, and three paths that go on from one to the next. -/
theorem mount_paths_are_groups_nested :
    let outer : MountPath := ⟨"/os", by decide⟩
    let inner : MountPath := ⟨"/os/data", by decide⟩
    let storage : Storage RamDisk Unit := ofBlocks (Handset.blocks id) ()
    (mount "/os//data" ⟨.user, 2⟩ .ext4).outcome storage = (.error .invalidArgument, storage) ∧
      (∃ rest, PathGroups rest ∧ inner.text = outer.text ++ String.ofList rest) ∧
      outer.covers "/os/data/log" = true ∧ (inner.covers outer.text = true → outer = inner) := by
  intro outer inner storage
  have hrefused : ¬("/os//data".utf8ByteSize ≤ Limits.maxMountPathLength ∧
      PathGroups "/os//data".toList) := fun hgroups =>
    absurd (isMountPath_iff.mpr hgroups) (by decide)
  obtain ⟨-, -, hanswer, hpaths⟩ := mount_paths_are_groups storage "/os//data"
  obtain ⟨hcovers, -, htrans, hantisymm⟩ := hpaths outer inner
  have hinner : outer.covers inner.text = true := by decide
  exact ⟨(hanswer hrefused _ _).2, (hcovers.mp hinner).resolve_left (by decide),
    htrans ⟨"/os/data/log", by decide⟩ hinner (by decide), hantisymm hinner⟩

end Storage

end StorageStack
