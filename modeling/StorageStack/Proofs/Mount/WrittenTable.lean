import StorageStack.Mount.Table
import StorageStack.Proofs.Text.Decimal

/-! # Written mount tables

The texts that may stand for a mount table: the fields of each entry in order, with any white
space around them, and with comments, empty lines and line ends as the writer likes. Such a text
is read as the table that it was written for.
-/

namespace StorageStack

/-- The entry can be written: its disk has a name, and its path is absolute and can stand as a
field. -/
structure MountEntry.Printable (entry : MountEntry) : Prop where
  named : ∃ name, entry.disk.name? = some name
  absolute : IsAbsolute entry.path
  unbroken : ∀ c ∈ entry.path.toList, Text.isBlank c = false ∧ c ≠ '#'

namespace MountTable

/-! ## What may be written -/

/-- White space that does not end the line. -/
def IsGap (run : List Char) : Prop := ∀ c ∈ run, Text.isBlank c = true ∧ c ≠ '\n'

instance (run : List Char) : Decidable (IsGap run) := List.decidableBAll _ run

/-- Nothing, or a `#` and the rest of the line. -/
def IsComment (comment : List Char) : Prop :=
  comment = [] ∨ ∃ content, '\n' ∉ content ∧ comment = '#' :: content

/-- The white space of a line with four fields: at least one character between two fields, and
any number in front of the first and behind the last. -/
structure Spacing where
  indent : List Char
  first : List Char
  second : List Char
  third : List Char
  behind : List Char
  isGap_indent : IsGap indent
  isGap_first : IsGap first
  first_ne_nil : first ≠ []
  isGap_second : IsGap second
  second_ne_nil : second ≠ []
  isGap_third : IsGap third
  third_ne_nil : third ≠ []
  isGap_behind : IsGap behind

/-- The four fields of an entry with white space around them. -/
def Spacing.spread (spacing : Spacing) (disk number fsType path : List Char) : List Char :=
  [spacing.indent, disk, spacing.first, number, spacing.second, fsType, spacing.third, path,
    spacing.behind].flatten

/-- The ways to write one line, for an entry or for none. -/
inductive Line : Option MountEntry → List Char → Prop
  | void {indent comment : List Char} (hindent : IsGap indent) (hcomment : IsComment comment) :
      Line none (indent ++ comment)
  | entry {entry : MountEntry} {name : String} {number comment : List Char} (spacing : Spacing)
      (hname : entry.disk.name? = some name) (hnumber : Text.IsDecimal entry.partition number)
      (hcomment : IsComment comment) :
      Line (some entry)
        (spacing.spread name.toList number entry.fsType.name.toList entry.path.toList ++ comment)

/-- The ways to write a table: lines, each ended by a line feed that a carriage return may stand
before. The last line need not be ended. -/
inductive Written : List MountEntry → List Char → Prop
  | last {listed : Option MountEntry} {line : List Char} (hline : Line listed line) :
      Written listed.toList line
  | cons {listed : Option MountEntry} {entries : List MountEntry} {line ending rest : List Char}
      (hline : Line listed line) (hending : ending = ['\n'] ∨ ending = ['\r', '\n'])
      (hrest : Written entries rest) :
      Written (listed.toList ++ entries) (line ++ ending ++ rest)

/-! ## Fields, white space and comments -/

/-- A text that is read as one field, whatever blanks are around it. -/
def IsField (text : List Char) : Prop :=
  text ≠ [] ∧ ∀ c ∈ text, Text.isBlank c = false ∧ c ≠ '#'

instance (text : List Char) : Decidable (IsField text) :=
  @instDecidableAnd _ _ _ (List.decidableBAll _ text)

theorem isField_diskName {disk : DiskId} {name : String} (hname : disk.name? = some name) :
    IsField name.toList := by
  unfold DiskId.name? at hname
  split at hname
  · cases hname
    decide
  · split at hname
    · cases hname
      decide
    · split at hname
      · cases hname
        decide
      · cases hname

theorem isField_fsTypeName (fsType : FsType) : IsField fsType.name.toList := by
  cases fsType <;> decide

theorem isField_path {entry : MountEntry} (hprintable : entry.Printable) :
    IsField entry.path.toList := by
  refine ⟨fun hempty => ?_, hprintable.unbroken⟩
  have habsolute := hprintable.absolute
  rw [IsAbsolute, hempty] at habsolute
  cases habsolute

theorem isField_decimal {number : UInt8} {text : List Char} (htext : Text.IsDecimal number text) :
    IsField text := by
  have hdigits : ∀ {zeros : Nat}, ∀ c ∈ List.replicate zeros '0' ++ Nat.toDigits 10 number.toNat,
      Text.isBlank c = false ∧ c ≠ '#' := by
    intro zeros c hc
    have hdigit := Text.isDigit_of_mem_zeros_append hc
    exact ⟨Text.isBlank_of_isDigit hdigit, fun heq => by simp [heq] at hdigit⟩
  cases htext with
  | plain zeros =>
      refine ⟨?_, hdigits⟩
      exact List.append_ne_nil_of_right_ne_nil _ Nat.toDigits_ne_nil
  | signed zeros => exact ⟨List.cons_ne_nil _ _, List.forall_mem_cons.mpr ⟨by decide, hdigits⟩⟩

theorem newline_not_mem_of_isField {text : List Char} (htext : IsField text) : '\n' ∉ text := by
  intro hmem
  exact absurd (htext.2 _ hmem).1 (by decide)

theorem newline_not_mem_of_isGap {run : List Char} (hrun : IsGap run) : '\n' ∉ run :=
  fun hmem => (hrun _ hmem).2 rfl

theorem newline_not_mem_of_isComment {comment : List Char} (hcomment : IsComment comment) :
    '\n' ∉ comment := by
  rcases hcomment with rfl | ⟨content, hcontent, rfl⟩
  · exact List.not_mem_nil
  · exact List.not_mem_cons_of_ne_of_not_mem (by decide) hcontent

theorem hash_not_mem_of_isField {text : List Char} (htext : IsField text) : '#' ∉ text :=
  fun hmem => (htext.2 _ hmem).2 rfl

theorem hash_not_mem_of_isGap {run : List Char} (hrun : IsGap run) : '#' ∉ run := by
  intro hmem
  exact absurd (hrun _ hmem).1 (by decide)

theorem isGap_append_return {run : List Char} (hrun : IsGap run) : IsGap (run ++ ['\r']) :=
  List.forall_mem_append.mpr ⟨hrun, List.forall_mem_singleton.mpr (by decide)⟩

section Spread

variable (spacing : Spacing) {disk number fsType path : List Char} (hdisk : IsField disk)
  (hnumber : IsField number) (hfsType : IsField fsType) (hpath : IsField path)

include hdisk hnumber hfsType hpath

/-- A character that white space and fields do not hold does not stand in front of the comment. -/
theorem Spacing.not_mem_spread {c : Char} (hgap : ∀ {run}, IsGap run → c ∉ run)
    (hfield : ∀ {text}, IsField text → c ∉ text) : c ∉ spacing.spread disk number fsType path := by
  intro hmem
  obtain ⟨piece, hpiece, hc⟩ := List.mem_flatten.mp hmem
  have hnone : ∀ piece ∈ [spacing.indent, disk, spacing.first, number, spacing.second, fsType,
      spacing.third, path, spacing.behind], c ∉ piece := by
    simp only [List.forall_mem_cons]
    exact ⟨hgap spacing.isGap_indent, hfield hdisk, hgap spacing.isGap_first, hfield hnumber,
      hgap spacing.isGap_second, hfield hfsType, hgap spacing.isGap_third, hfield hpath,
      hgap spacing.isGap_behind, List.forall_mem_nil _⟩
  exact hnone piece hpiece hc

theorem Spacing.fields_spread :
    Text.fields (spacing.spread disk number fsType path) = [disk, number, fsType, path] := by
  have hblank : ∀ {run}, IsGap run → ∀ c ∈ run, Text.isBlank c = true :=
    fun hrun c hc => (hrun c hc).1
  have hunbroken : ∀ {text}, IsField text → ∀ c ∈ text, Text.isBlank c = false :=
    fun htext c hc => (htext.2 c hc).1
  simp only [Spacing.spread, List.flatten_cons, List.flatten_nil, List.append_nil]
  rw [Text.fields_append_of_blank (hblank spacing.isGap_indent),
    Text.fields_append_append hdisk.1 (hunbroken hdisk) spacing.first_ne_nil
      (hblank spacing.isGap_first),
    Text.fields_append_append hnumber.1 (hunbroken hnumber) spacing.second_ne_nil
      (hblank spacing.isGap_second),
    Text.fields_append_append hfsType.1 (hunbroken hfsType) spacing.third_ne_nil
      (hblank spacing.isGap_third),
    Text.fields_append_run hpath.1 (hunbroken hpath) (hblank spacing.isGap_behind)]

end Spread

/-! ## Reading a line -/

/-- The fields that are read from a line. -/
def lineFields (line : List Char) : List (List Char) := Text.fields (line.takeWhile (· != '#'))

theorem lineFields_append_comment {body comment : List Char} (hbody : '#' ∉ body)
    (hcomment : IsComment comment) : lineFields (body ++ comment) = Text.fields body := by
  have hcut : (body ++ comment).takeWhile (· != '#') = body := by
    have hkept : ∀ c ∈ body, (c != '#') = true := by
      intro c hc
      rw [bne_iff_ne]
      exact ne_of_mem_of_not_mem hc hbody
    rw [List.takeWhile_append_of_pos hkept]
    rcases hcomment with rfl | ⟨content, -, rfl⟩ <;> simp
  rw [lineFields, hcut]

namespace Line

/-- A carriage return at the end of a line is white space or belongs to the comment. -/
theorem append_return {listed : Option MountEntry} {line : List Char} (hline : Line listed line) :
    Line listed (line ++ ['\r']) := by
  have hlonger : ∀ {content : List Char}, '\n' ∉ content → IsComment ('#' :: content ++ ['\r']) := by
    intro content hcontent
    refine Or.inr ⟨content ++ ['\r'], ?_, rfl⟩
    simpa using hcontent
  cases hline with
  | void hindent hcomment =>
      rcases hcomment with rfl | ⟨content, hcontent, rfl⟩
      · rw [List.append_nil, ← List.append_nil (_ ++ ['\r'])]
        exact .void (isGap_append_return hindent) (Or.inl rfl)
      · rw [List.append_assoc]
        exact .void hindent (hlonger hcontent)
  | entry spacing hname hnumber hcomment =>
      rcases hcomment with rfl | ⟨content, hcontent, rfl⟩
      · have hspread := Line.entry
          { spacing with
            behind := spacing.behind ++ ['\r']
            isGap_behind := isGap_append_return spacing.isGap_behind } hname hnumber (Or.inl rfl)
        simpa [Spacing.spread] using hspread
      · rw [List.append_assoc]
        exact .entry spacing hname hnumber (hlonger hcontent)

theorem newline_not_mem {listed : Option MountEntry} {line : List Char} (hline : Line listed line)
    (hprintable : ∀ entry ∈ listed.toList, entry.Printable) : '\n' ∉ line := by
  cases hline with
  | void hindent hcomment =>
      rw [List.mem_append, not_or]
      exact ⟨newline_not_mem_of_isGap hindent, newline_not_mem_of_isComment hcomment⟩
  | entry spacing hname hnumber hcomment =>
      rw [List.mem_append, not_or]
      refine ⟨?_, newline_not_mem_of_isComment hcomment⟩
      exact spacing.not_mem_spread (isField_diskName hname) (isField_decimal hnumber)
        (isField_fsTypeName _) (isField_path (hprintable _ List.mem_cons_self)) newline_not_mem_of_isGap
        newline_not_mem_of_isField

theorem cut_eq_singleton {listed : Option MountEntry} {line : List Char} (hline : Line listed line)
    (hprintable : ∀ entry ∈ listed.toList, entry.Printable) : Text.cut (· == '\n') line = [line] := by
  refine Text.cut_eq_singleton fun c hc => beq_eq_false_iff_ne.mpr ?_
  exact ne_of_mem_of_not_mem hc (hline.newline_not_mem hprintable)

/-- A line without an entry has no fields. -/
theorem lineFields_void {line : List Char} (hline : Line none line) : lineFields line = [] := by
  cases hline with
  | @void indent _ hindent hcomment =>
      rw [lineFields_append_comment (hash_not_mem_of_isGap hindent) hcomment,
        ← List.append_nil indent, Text.fields_append_of_blank fun c hc => (hindent c hc).1]
      rfl

/-- The fields of a line are read as the entry that it was written for. -/
theorem ofFields?_lineFields {entry : MountEntry} {line : List Char} (hline : Line (some entry) line)
    (hprintable : entry.Printable) : MountEntry.ofFields? (lineFields line) = some entry := by
  cases hline with
  | entry spacing hname hnumber hcomment =>
      have hdisk := isField_diskName hname
      have hdigits := isField_decimal hnumber
      have hfsType := isField_fsTypeName entry.fsType
      have hpath := isField_path hprintable
      rw [lineFields_append_comment (spacing.not_mem_spread hdisk hdigits hfsType hpath
          hash_not_mem_of_isGap hash_not_mem_of_isField) hcomment,
        spacing.fields_spread hdisk hdigits hfsType hpath]
      simp [MountEntry.ofFields?, DiskId.ofName?_eq_some_iff.mpr hname,
        Text.byteOfDecimal?_of_isDecimal hnumber, FsType.ofName?_name, hprintable.absolute]

end Line

/-! ## Reading a table -/

/-- The lines with fields, each as its fields. -/
def significant (lines : List (List Char)) : List (List (List Char)) :=
  (lines.map lineFields).filter fun fields => !fields.isEmpty

theorem significant_cons (line : List Char) (rest : List (List Char)) :
    significant (line :: rest) =
      if lineFields line = [] then significant rest else lineFields line :: significant rest := by
  rw [significant, List.map_cons, List.filter_cons]
  by_cases hline : lineFields line = [] <;> simp [hline, significant]

theorem ofLines?_significant_cons {listed : Option MountEntry} {line : List Char}
    (hline : Line listed line) (hprintable : ∀ entry ∈ listed.toList, entry.Printable)
    {rest : List (List Char)} {entries : List MountEntry}
    (hrest : ofLines? (significant rest) = some entries) :
    ofLines? (significant (line :: rest)) = some (listed.toList ++ entries) := by
  rw [significant_cons]
  cases listed with
  | none =>
      rw [if_pos hline.lineFields_void]
      exact hrest
  | some entry =>
      have hentry := hline.ofFields?_lineFields (hprintable entry List.mem_cons_self)
      have hne : lineFields line ≠ [] := by
        intro hempty
        rw [hempty] at hentry
        cases hentry
      rw [if_neg hne, ofLines?, hentry, hrest]
      rfl

/-- The first line of a text is read before the lines behind its line feed. -/
theorem ofLines?_significant_append {listed : Option MountEntry} {line : List Char}
    (hline : Line listed line) (hprintable : ∀ entry ∈ listed.toList, entry.Printable)
    {rest : List Char} {entries : List MountEntry}
    (hrest : ofLines? (significant (Text.cut (· == '\n') rest)) = some entries) :
    ofLines? (significant (Text.cut (· == '\n') (line ++ '\n' :: rest))) =
      some (listed.toList ++ entries) := by
  have hcut : Text.cut (· == '\n') (line ++ '\n' :: rest) =
      Text.cut (· == '\n') line ++ Text.cut (· == '\n') rest :=
    Text.cut_append_cons (by decide) line rest
  rw [hcut, hline.cut_eq_singleton hprintable, List.singleton_append]
  exact ofLines?_significant_cons hline hprintable hrest

/-- A written table is read line by line as the entries that it was written for. -/
theorem Written.ofLines?_significant {entries : List MountEntry} {text : List Char}
    (hwritten : Written entries text) (hprintable : ∀ entry ∈ entries, entry.Printable) :
    ofLines? (significant (Text.cut (· == '\n') text)) = some entries := by
  induction hwritten with
  | @last listed line hline =>
      rw [hline.cut_eq_singleton hprintable, ← List.append_nil listed.toList]
      exact ofLines?_significant_cons hline hprintable rfl
  | @cons listed entries line ending rest hline hending _ ih =>
      obtain ⟨hmine, hothers⟩ := List.forall_mem_append.mp hprintable
      rcases hending with rfl | rfl
      · rw [List.append_assoc, List.singleton_append]
        exact ofLines?_significant_append hline hmine (ih hothers)
      · -- The carriage return is read as the last character of the line.
        have hsplit : line ++ ['\r', '\n'] ++ rest = (line ++ ['\r']) ++ '\n' :: rest := by
          simp only [List.append_assoc, List.cons_append, List.nil_append]
        rw [hsplit]
        exact ofLines?_significant_append hline.append_return hmine (ih hothers)

theorem length_of_ofLines?_eq_some {lines : List (List (List Char))} {entries : List MountEntry}
    (hlines : ofLines? lines = some entries) : entries.length = lines.length := by
  induction lines generalizing entries with
  | nil =>
      rw [ofLines?, Option.some.injEq] at hlines
      rw [← hlines]
      rfl
  | cons line rest ih =>
      rw [ofLines?] at hlines
      split at hlines
      · next hrest =>
          cases hlines
          rw [List.length_cons, List.length_cons, ih hrest]
      · cases hlines

/-! ## A plain layout -/

/-- One blank between two fields. -/
def Spacing.plain : Spacing where
  indent := []
  first := [' ']
  second := [' ']
  third := [' ']
  behind := []
  isGap_indent := List.forall_mem_nil _
  isGap_first := by decide
  first_ne_nil := List.cons_ne_nil _ _
  isGap_second := by decide
  second_ne_nil := List.cons_ne_nil _ _
  isGap_third := by decide
  third_ne_nil := List.cons_ne_nil _ _
  isGap_behind := List.forall_mem_nil _

/-- Every list of printable entries can be written. -/
theorem exists_written {entries : List MountEntry}
    (hprintable : ∀ entry ∈ entries, entry.Printable) : ∃ text, Written entries text := by
  induction entries with
  | nil => exact ⟨[], .last (.void (List.forall_mem_nil _) (Or.inl rfl))⟩
  | cons entry entries ih =>
      obtain ⟨hentry, hothers⟩ := List.forall_mem_cons.mp hprintable
      obtain ⟨name, hname⟩ := hentry.named
      obtain ⟨rest, hrest⟩ := ih hothers
      exact ⟨_, .cons (.entry .plain hname (.plain 0) (Or.inl rfl)) (Or.inl rfl) hrest⟩

/-! ## Reading undoes writing -/

/-- A table that fits can be written, and however it is written, reading gives it back. -/
theorem parse_of_written {entries : List MountEntry} (hcapacity : entries.length ≤ Limits.maxMounts)
    (hprintable : ∀ entry ∈ entries, entry.Printable) :
    (∃ text : String, Written entries text.toList) ∧
      ∀ text : String, Written entries text.toList → parse text = .ok entries := by
  refine ⟨?_, fun text hwritten => ?_⟩
  · obtain ⟨text, htext⟩ := exists_written hprintable
    exact ⟨String.ofList text, by rwa [String.toList_ofList]⟩
  · have hlines : ofLines? (significantLines text) = some entries :=
      hwritten.ofLines?_significant hprintable
    have hlength := length_of_ofLines?_eq_some hlines
    have hall : (significantLines text).take (Limits.maxMounts + 1) = significantLines text :=
      List.take_of_length_le (by omega)
    simp only [parse, hall, hlines, if_neg (Nat.not_lt.mpr hcapacity)]

/-- A table of three mounts with comments, an empty line, tabs, both line ends and a last line that
is not ended. -/
def scrawled : String :=
  "# mounts\r\n \temmc-user +001\t\tvfat /boot # first # boot\r\n\n" ++
    "emmc-user 02 ext4  /os \r\n  emmc-boot0 0 littlefs /bootloader"

theorem written_scrawled :
    Written [⟨.user, 1, .fat, "/boot"⟩, ⟨.user, 2, .ext4, "/os"⟩,
      ⟨.boot0, 0, .littleFs, "/bootloader"⟩] scrawled.toList := by
  have htitle : Line none "# mounts".toList :=
    @Line.void [] _ (by decide) (Or.inr ⟨" mounts".toList, by decide, rfl⟩)
  have hboot : Line (some ⟨.user, 1, .fat, "/boot"⟩)
      " \temmc-user +001\t\tvfat /boot # first # boot".toList :=
    @Line.entry ⟨.user, 1, .fat, "/boot"⟩ "emmc-user" _ _
      { Spacing.plain with
        indent := [' ', '\t'], isGap_indent := by decide
        second := ['\t', '\t'], isGap_second := by decide, second_ne_nil := by decide
        behind := [' '], isGap_behind := by decide }
      rfl (.signed 2) (Or.inr ⟨" first # boot".toList, by decide, rfl⟩)
  have hempty : Line none [] := @Line.void [] _ (by decide) (Or.inl rfl)
  have hos : Line (some ⟨.user, 2, .ext4, "/os"⟩) "emmc-user 02 ext4  /os ".toList :=
    @Line.entry ⟨.user, 2, .ext4, "/os"⟩ "emmc-user" _ _
      { Spacing.plain with
        third := [' ', ' '], isGap_third := by decide, third_ne_nil := by decide
        behind := [' '], isGap_behind := by decide }
      rfl (.plain 1) (Or.inl rfl)
  have hloader : Line (some ⟨.boot0, 0, .littleFs, "/bootloader"⟩)
      "  emmc-boot0 0 littlefs /bootloader".toList :=
    @Line.entry ⟨.boot0, 0, .littleFs, "/bootloader"⟩ "emmc-boot0" _ _
      { Spacing.plain with indent := [' ', ' '], isGap_indent := by decide }
      rfl (.plain 0) (Or.inl rfl)
  have htext := Written.cons htitle (Or.inr rfl) (.cons hboot (Or.inr rfl)
    (.cons hempty (Or.inl rfl) (.cons hos (Or.inr rfl) (.last hloader))))
  exact Eq.subst (motive := Written _) (by decide) htext

theorem parse_of_written_scrawled :
    parse scrawled = .ok [⟨.user, 1, .fat, "/boot"⟩, ⟨.user, 2, .ext4, "/os"⟩,
      ⟨.boot0, 0, .littleFs, "/bootloader"⟩] := by
  refine (parse_of_written (by decide) ?_).2 scrawled written_scrawled
  simp only [List.forall_mem_cons]
  have hfields : IsField "/boot".toList ∧ IsField "/os".toList ∧ IsField "/bootloader".toList := by
    decide
  exact ⟨⟨⟨"emmc-user", rfl⟩, by decide, hfields.1.2⟩, ⟨⟨"emmc-user", rfl⟩, by decide, hfields.2.1.2⟩,
    ⟨⟨"emmc-boot0", rfl⟩, by decide, hfields.2.2.2⟩, List.forall_mem_nil _⟩

end MountTable

end StorageStack
