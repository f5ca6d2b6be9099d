import Mathlib.Data.List.Forall2
import StorageStack.Mount.Table
import StorageStack.Proofs.Mount.Segments
import StorageStack.Proofs.Text.Decimal
import StorageStack.Proofs.Text.Fields

/-! # Accepted mount tables

A text is a mount table if each of its lines describes an entry and there are not too many of them.
Of the two ways to fail, the one that is met first in the order of the lines decides: a line that
describes nothing counts up to the first one that the table has no room for.
-/

namespace StorageStack

/-- The line describes the entry: a disk's name, a number, a type's name and an absolute path, and
nothing else but the blanks between them. -/
inductive MountEntry.DescribedBy (entry : MountEntry) : List Char → Prop
  | intro {disk fsType : String} {number line : List Char}
      (hline : Text.Separated [disk.toList, number, fsType.toList, entry.path.toList] line)
      (hdisk : DiskId.ofName? disk = some entry.disk)
      (hnumber : Text.IsDecimal entry.partition number)
      (hfsType : FsType.ofName? fsType = some entry.fsType)
      (habsolute : IsAbsolute entry.path) : entry.DescribedBy line

namespace MountTable

/-- The lines of a text without comments and without the blanks at their ends. Lines of which nothing
is left are left out. -/
def contentLines (text : String) : List (List Char) :=
  ((text.toList.splitOn '\n').map fun line => Text.trim (line.takeWhile (· != '#'))).filter
    fun line => !line.isEmpty

/-- The first of them: as many as a table has room for, and one more. -/
def readLines (text : String) : List (List Char) :=
  (contentLines text).take (Limits.maxMounts + 1)

/-! ## Lines -/

theorem separated_of_mem_contentLines {text : String} {line : List Char}
    (hline : line ∈ contentLines text) : Text.Separated (Text.fields line) line := by
  obtain ⟨hmem, hne⟩ := List.mem_filter.mp hline
  obtain ⟨raw, -, rfl⟩ := List.mem_map.mp hmem
  rcases Text.trim_cases (raw.takeWhile (· != '#')) with ⟨hempty, -⟩ | hseparated
  · rw [hempty] at hne
    cases hne
  · rw [hseparated.fields_eq]
    exact hseparated

/-- The lines that are read are the fields of the lines with content. -/
theorem significantLines_eq (text : String) :
    significantLines text = (contentLines text).map Text.fields := by
  simp only [significantLines, contentLines, Text.cut_eq_splitOnP, List.filter_map, List.map_map,
    Function.comp_def, Text.fields_trim, Text.isEmpty_trim]
  rfl

theorem contentLines_append (first second : String) :
    contentLines (first ++ "\n" ++ second) = contentLines first ++ contentLines second := by
  have hlines : (first ++ "\n" ++ second).toList.splitOn '\n' =
      first.toList.splitOn '\n' ++ second.toList.splitOn '\n' := by
    rw [String.toList_append, String.toList_append, List.append_assoc]
    exact List.splitOn_append_cons_self first.toList second.toList
  rw [contentLines, hlines, List.map_append, List.filter_append]
  rfl

/-- A line is read as the entry that it describes, and as no other. -/
theorem ofFields?_eq_some_iff {entry : MountEntry} {line : List Char}
    (hline : Text.Separated (Text.fields line) line) :
    MountEntry.ofFields? (Text.fields line) = some entry ↔ entry.DescribedBy line := by
  constructor
  · intro hread
    unfold MountEntry.ofFields? at hread
    split at hread
    · next disk number fsType path hfields =>
      simp only [Option.bind_eq_bind, Option.bind_eq_some_iff, Option.ite_none_right_eq_some] at hread
      obtain ⟨_, hdisk, _, hnumber, _, hfsType, habsolute, hentry⟩ := hread
      cases hentry
      refine .intro ?_ hdisk (Text.byteOfDecimal?_eq_some_iff.mp hnumber) hfsType habsolute
      simp only [String.toList_ofList]
      exact hfields ▸ hline
    · cases hread
  · rintro ⟨hseparated, hdisk, hnumber, hfsType, habsolute⟩
    rw [hseparated.fields_eq]
    simp [MountEntry.ofFields?, hdisk, Text.byteOfDecimal?_of_isDecimal hnumber, hfsType, habsolute]

/-! ## Tables -/

theorem ofLines?_eq_some_iff {lines : List (List (List Char))} {entries : List MountEntry} :
    ofLines? lines = some entries ↔
      List.Forall₂ (fun line entry => MountEntry.ofFields? line = some entry) lines entries := by
  induction lines generalizing entries with
  | nil => cases entries <;> simp [ofLines?]
  | cons line rest ih =>
      rw [ofLines?, List.forall₂_cons_left_iff]
      cases hline : MountEntry.ofFields? line with
      | none => simp
      | some entry =>
          cases hrest : ofLines? rest with
          | none => simp [← ih, hrest]
          | some others => simpa [← ih, hrest] using eq_comm

theorem ofLines?_eq_none_iff {lines : List (List (List Char))} :
    ofLines? lines = none ↔ ∃ line ∈ lines, MountEntry.ofFields? line = none := by
  induction lines with
  | nil => simp [ofLines?]
  | cons line rest ih =>
      rw [ofLines?]
      simp only [List.exists_mem_cons_iff, ← ih]
      cases MountEntry.ofFields? line <;> cases ofLines? rest <;> simp

section Lines

variable {lines : List (List Char)}
  (hlines : ∀ line ∈ lines, Text.Separated (Text.fields line) line)

include hlines

/-- Lines are read as the entries that they describe, one for each line. -/
theorem ofLines?_fields_eq_some_iff {entries : List MountEntry} :
    ofLines? (lines.map Text.fields) = some entries ↔
      List.Forall₂ (fun line entry => entry.DescribedBy line) lines entries := by
  rw [ofLines?_eq_some_iff, List.forall₂_map_left_iff]
  induction lines generalizing entries with
  | nil => simp
  | cons line rest ih =>
      obtain ⟨hline, hrest⟩ := List.forall_mem_cons.mp hlines
      cases entries with
      | nil => simp
      | cons entry others =>
          rw [List.forall₂_cons, List.forall₂_cons, ofFields?_eq_some_iff hline, ih hrest]

theorem ofLines?_fields_eq_none_iff :
    ofLines? (lines.map Text.fields) = none ↔
      ∃ line ∈ lines, ∀ entry : MountEntry, ¬ entry.DescribedBy line := by
  rw [ofLines?_eq_none_iff]
  simp only [List.mem_map, exists_exists_and_eq_and]
  refine exists_congr fun line => and_congr_right fun hline => ?_
  rw [Option.eq_none_iff_forall_ne_some]
  exact forall_congr' fun entry => not_congr (ofFields?_eq_some_iff (hlines line hline))

end Lines

section Text

variable {text : String}

theorem separated_of_mem_readLines :
    ∀ line ∈ readLines text, Text.Separated (Text.fields line) line :=
  fun _ hline => separated_of_mem_contentLines (List.mem_of_mem_take hline)

theorem parse_eq (text : String) :
    parse text =
      match ofLines? ((readLines text).map Text.fields) with
      | none => .error .invalidArgument
      | some entries =>
          if Limits.maxMounts < entries.length then .error .outOfMemory else .ok entries := by
  have hlines : (significantLines text).take (Limits.maxMounts + 1) =
      (readLines text).map Text.fields := by
    rw [significantLines_eq, readLines, List.map_take]
  rw [← hlines]
  rfl

theorem parse_eq_invalidArgument_iff :
    parse text = .error .invalidArgument ↔
      ∃ line ∈ readLines text, ∀ entry : MountEntry, ¬ entry.DescribedBy line := by
  rw [← ofLines?_fields_eq_none_iff separated_of_mem_readLines, parse_eq]
  cases ofLines? ((readLines text).map Text.fields) with
  | none => simp
  | some entries => by_cases hmany : Limits.maxMounts < entries.length <;> simp [hmany]

theorem parse_eq_outOfMemory_iff :
    parse text = .error .outOfMemory ↔
      (∀ line ∈ readLines text, ∃ entry : MountEntry, entry.DescribedBy line) ∧
        Limits.maxMounts < (contentLines text).length := by
  have hdescribed : (∀ line ∈ readLines text, ∃ entry : MountEntry, entry.DescribedBy line) ↔
      ofLines? ((readLines text).map Text.fields) ≠ none := by
    rw [Ne, ofLines?_fields_eq_none_iff separated_of_mem_readLines]
    push Not
    rfl
  rw [hdescribed, parse_eq]
  cases hread : ofLines? ((readLines text).map Text.fields) with
  | none => simp
  | some entries =>
      have hlength := ((ofLines?_fields_eq_some_iff separated_of_mem_readLines).mp hread).length_eq
      rw [readLines, List.length_take] at hlength
      have hmany : Limits.maxMounts < entries.length ↔
          Limits.maxMounts < (contentLines text).length := by omega
      by_cases hfull : Limits.maxMounts < entries.length <;> simp [hfull, ← hmany]

theorem parse_eq_ok_iff {entries : List MountEntry} :
    parse text = .ok entries ↔
      List.Forall₂ (fun line entry => entry.DescribedBy line) (contentLines text) entries ∧
        (contentLines text).length ≤ Limits.maxMounts := by
  have hread : parse text = .ok entries ↔
      ofLines? ((readLines text).map Text.fields) = some entries ∧
        entries.length ≤ Limits.maxMounts := by
    rw [parse_eq]
    cases ofLines? ((readLines text).map Text.fields) with
    | none => simp
    | some others =>
        by_cases hmany : Limits.maxMounts < others.length
        · refine iff_of_false (by simp [hmany]) ?_
          rintro ⟨hothers, hfew⟩
          cases hothers
          omega
        · simp only [if_neg hmany, Except.ok.injEq, Option.some.injEq]
          exact ⟨fun hothers => ⟨hothers, hothers ▸ Nat.le_of_not_lt hmany⟩, And.left⟩
  rw [hread, ofLines?_fields_eq_some_iff separated_of_mem_readLines]
  have hall : (contentLines text).length ≤ Limits.maxMounts → readLines text = contentLines text :=
    fun hfew => List.take_of_length_le (Nat.le_succ_of_le hfew)
  constructor
  · rintro ⟨hentries, hfew⟩
    have hlength := hentries.length_eq
    rw [readLines, List.length_take] at hlength
    have hlines : (contentLines text).length ≤ Limits.maxMounts := by omega
    exact ⟨hall hlines ▸ hentries, hlines⟩
  · rintro ⟨hentries, hlines⟩
    exact ⟨(hall hlines).symm ▸ hentries, hentries.length_eq ▸ hlines⟩

end Text

/-- A text is refused as malformed exactly if a line that describes no entry is among those that the
table has room for and the one behind them. Otherwise it is refused as too long exactly if there is
a line too many, and otherwise it is read as one entry for each line. So two tables that fit
together can be written one below the other. -/
theorem parse_lines (text : String) :
    (parse text = .error .invalidArgument ↔
      ∃ line ∈ readLines text, ∀ entry : MountEntry, ¬ entry.DescribedBy line) ∧
    (parse text = .error .outOfMemory ↔
      (∀ line ∈ readLines text, ∃ entry : MountEntry, entry.DescribedBy line) ∧
        Limits.maxMounts < (contentLines text).length) ∧
    (∀ entries, parse text = .ok entries ↔
      List.Forall₂ (fun line entry => entry.DescribedBy line) (contentLines text) entries ∧
        (contentLines text).length ≤ Limits.maxMounts) ∧
    (parse text = .error .invalidArgument ∨ parse text = .error .outOfMemory ∨
      ∃ entries, parse text = .ok entries) ∧
    ∀ later first second, parse text = .ok first → parse later = .ok second →
      first.length + second.length ≤ Limits.maxMounts →
      parse (text ++ "\n" ++ later) = .ok (first ++ second) := by
  refine ⟨parse_eq_invalidArgument_iff, parse_eq_outOfMemory_iff, fun _ => parse_eq_ok_iff, ?_, ?_⟩
  · rw [parse_eq]
    cases ofLines? ((readLines text).map Text.fields) with
    | none => exact Or.inl rfl
    | some entries => by_cases hmany : Limits.maxMounts < entries.length <;> simp [hmany]
  · intro later first second hfirst hsecond hfew
    obtain ⟨hfirst, -⟩ := parse_eq_ok_iff.mp hfirst
    obtain ⟨hsecond, -⟩ := parse_eq_ok_iff.mp hsecond
    refine parse_eq_ok_iff.mpr ?_
    rw [contentLines_append, List.length_append, hfirst.length_eq, hsecond.length_eq]
    exact ⟨List.rel_append hfirst hsecond, hfew⟩

/-- Lines for a full table. -/
def crowded : List Char := (List.replicate Limits.maxMounts "emmc-user 1 fat /m\n".toList).flatten

/-- Below a full table, a malformed line is refused as such, and not if it comes one line later. Two
short tables, the first with a comment that the line feed ends, are read as one. -/
theorem parse_lines_crowded :
    (∃ line ∈ readLines (.ofList (crowded ++ "swap".toList)),
      ∀ entry : MountEntry, ¬ entry.DescribedBy line) ∧
    Limits.maxMounts <
      (contentLines (.ofList (crowded ++ "emmc-user 2 lfs /m\nswap".toList))).length ∧
    parse (" emmc-user +01 vfat /boot# first" ++ "\n" ++ "\temmc-boot0 0 auto /os \r") =
      .ok [⟨.user, 1, .fat, "/boot"⟩, ⟨.boot0, 0, .auto, "/os"⟩] := by
  have hrefused : parse (.ofList (crowded ++ "swap".toList)) = .error .invalidArgument := by
    rw [parse, significantLines, String.toList_ofList]
    decide +kernel
  have hlong : parse (.ofList (crowded ++ "emmc-user 2 lfs /m\nswap".toList)) =
      .error .outOfMemory := by
    rw [parse, significantLines, String.toList_ofList]
    decide +kernel
  have hfirst : parse " emmc-user +01 vfat /boot# first" = .ok [⟨.user, 1, .fat, "/boot"⟩] := by
    decide +kernel
  have hsecond : parse "\temmc-boot0 0 auto /os \r" = .ok [⟨.boot0, 0, .auto, "/os"⟩] := by
    decide +kernel
  refine ⟨(parse_lines _).1.mp hrefused, ((parse_lines _).2.1.mp hlong).2, ?_⟩
  exact (parse_lines _).2.2.2.2 _ _ _ hfirst hsecond (by decide)

end MountTable

end StorageStack
