import StorageStack.Mount.Point
import StorageStack.Text.Cut

/-! # Paths by segment

The segments of a path are what stands between its slashes, empty ones included. A mount
covers a path exactly if its segments are the first segments of the path, and two mounts
that cover one path are told apart by their length.
-/

namespace StorageStack

/-- The pieces of a path between its slashes, with the empty ones. -/
def segments (path : String) : List (List Char) := path.toList.splitOn '/'

namespace Text

theorem cut_eq_splitOnP (separates : Char → Bool) (text : List Char) :
    cut separates text = text.splitOnP separates := by
  induction text with
  | nil => exact List.splitOnP_nil.symm
  | cons c rest ih =>
      obtain ⟨piece, pieces, hrest⟩ := exists_cut_eq_cons separates rest
      rw [cut_cons hrest, List.splitOnP_cons_eq_if_modifyHead, ← ih, hrest]
      rfl

theorem head?_cut_eq_nil_iff {separator : Char} {text : List Char} :
    (cut (· == separator) text).head? = some [] ↔ text = [] ∨ text.head? = some separator := by
  cases text with
  | nil => exact iff_of_true rfl (Or.inl rfl)
  | cons c rest =>
      obtain ⟨piece, pieces, hrest⟩ := exists_cut_eq_cons (· == separator) rest
      rw [cut_cons hrest]
      by_cases hc : c = separator <;> simp [hc]

/-- The pieces of one text come first in another exactly if the other goes on with a separator,
where it goes on at all. -/
theorem cut_prefix_iff {separator : Char} {first second : List Char} :
    cut (· == separator) first <+: cut (· == separator) second ↔
      ∃ rest, second = first ++ rest ∧ (rest = [] ∨ rest.head? = some separator) := by
  constructor
  · intro hbegins
    induction first generalizing second with
    | nil =>
        refine ⟨second, rfl, head?_cut_eq_nil_iff.mp ?_⟩
        obtain ⟨pieces, hpieces⟩ := hbegins
        rw [← hpieces]
        rfl
    | cons c first ih =>
        -- The texts agree on their first letter, and what is left of them is in the same relation.
        suffices hstep : ∃ later, second = c :: later ∧
            cut (· == separator) first <+: cut (· == separator) later by
          obtain ⟨later, rfl, hlater⟩ := hstep
          obtain ⟨rest, rfl, hrest⟩ := ih hlater
          exact ⟨rest, rfl, hrest⟩
        obtain ⟨piece, pieces, hfirst⟩ := exists_cut_eq_cons (· == separator) first
        rw [cut_cons hfirst] at hbegins
        cases second with
        | nil =>
            change _ <+: [[]] at hbegins
            by_cases hc : c = separator <;> simp [hc] at hbegins
        | cons d later =>
            obtain ⟨other, others, hlater⟩ := exists_cut_eq_cons (· == separator) later
            rw [cut_cons hlater] at hbegins
            by_cases hc : c = separator <;> by_cases hd : d = separator <;>
              simp_all [List.cons_prefix_cons]
  · rintro ⟨rest, rfl, hrest⟩
    cases rest with
    | nil => simp
    | cons c rest =>
        obtain rfl : c = separator := by simpa using hrest
        rw [cut_append_cons (by simp)]
        exact List.prefix_append _ _

/-- Between two separators that do not follow each other stands a piece with letters in it. -/
theorem ne_nil_of_mem_tail_cut {text : List Char} (hempty : hasEmptySegment text = false)
    (hlast : text.getLast? ≠ some '/') :
    ∀ piece ∈ (cut (· == '/') text).tail, piece ≠ [] := by
  induction text with
  | nil => exact fun _ hpiece => nomatch hpiece
  | cons c rest ih =>
      have hrest : hasEmptySegment rest = false := by
        unfold hasEmptySegment at hempty
        split at hempty <;> simp_all
      obtain ⟨piece, pieces, hpieces⟩ := exists_cut_eq_cons (· == '/') rest
      rw [cut_cons hpieces]
      rw [hpieces] at ih
      cases hchars : rest with
      | nil =>
          rw [hchars] at hpieces
          cases hpieces
          have hc : c ≠ '/' := by simpa [hchars] using hlast
          simp [hc]
      | cons d chars =>
          have htail := ih hrest (by simpa [hchars] using hlast)
          by_cases hc : c = '/'
          · -- The slash opens the piece that follows; that piece does not begin with a slash.
            have hd : d ≠ '/' := by
              rintro rfl
              simp [hc, hchars, hasEmptySegment] at hempty
            have hpiece : piece ≠ [] := by
              rintro rfl
              have hhead := head?_cut_eq_nil_iff.mp (congrArg List.head? hpieces)
              simp [hchars, hd] at hhead
            simpa [hc, hpiece] using htail
          · simpa [hc] using htail

end Text

/-- A text that begins with another and is no longer is the other. -/
theorem eq_of_prefix_of_size_le {first second : String} (hbegins : first.toList <+: second.toList)
    (hsize : second.utf8ByteSize ≤ first.utf8ByteSize) : first = second := by
  obtain ⟨rest, hrest⟩ := hbegins
  have happend : second = first ++ String.ofList rest := by
    apply String.toList_inj.mp
    rw [← hrest, String.toList_append, String.toList_ofList]
  rw [happend, String.utf8ByteSize_append] at hsize
  have hempty : String.ofList rest = "" := String.utf8ByteSize_eq_zero_iff.mp (by omega)
  rw [happend, hempty, String.append_empty]

theorem segments_eq_cut (path : String) : segments path = Text.cut (· == '/') path.toList :=
  (Text.cut_eq_splitOnP _ _).symm

namespace MountPath

/-- A mount path has an empty segment in front of its slash, and no other. -/
theorem segments_text (mount : MountPath) :
    ∃ names, names ≠ [] ∧ (∀ name ∈ names, name ≠ []) ∧ segments mount.text = [] :: names := by
  obtain ⟨habsolute, hlong, hlast, hempty, -⟩ := mount.valid
  have hnames := Text.ne_nil_of_mem_tail_cut hempty hlast
  cases hchars : mount.text.toList with
  | nil => simp [IsAbsolute, hchars] at habsolute
  | cons c rest =>
      obtain rfl : c = '/' := by simpa [IsAbsolute, hchars] using habsolute
      obtain ⟨piece, pieces, hrest⟩ := Text.exists_cut_eq_cons (· == '/') rest
      have hsegments : segments mount.text = [] :: piece :: pieces := by
        rw [segments_eq_cut, hchars, Text.cut_cons hrest]
        rfl
      refine ⟨_, List.cons_ne_nil piece pieces, ?_, hsegments⟩
      rw [← segments_eq_cut, hsegments] at hnames
      exact hnames

/-- A mount covers exactly the paths whose first segments are its own. -/
theorem covers_iff_segments (mount : MountPath) (path : String) :
    mount.covers path = true ↔ segments mount.text <+: segments path := by
  rw [covers_iff, segments_eq_cut, segments_eq_cut, Text.cut_prefix_iff]

/-- What a mount covers is its own path, or its path and a relative path. -/
theorem relative_of_covers {mount : MountPath} {path : String} (hcovers : mount.covers path = true) :
    IsAbsolute (mount.relative path) ∧ (path = mount.text → mount.relative path = "/") ∧
      (path ≠ mount.text → mount.text ++ mount.relative path = path) := by
  obtain ⟨rest, hpath, hrest⟩ := (covers_iff mount path).mp hcovers
  unfold relative
  rw [hpath, List.drop_left]
  cases rest with
  | nil =>
      rw [List.append_nil, String.toList_inj] at hpath
      subst hpath
      exact ⟨rfl, fun _ => rfl, fun hne => absurd rfl hne⟩
  | cons c rest =>
      refine ⟨?_, ?_, fun _ => ?_⟩
      · rw [IsAbsolute, String.toList_ofList]
        simpa using hrest
      · rintro rfl
        simp at hpath
      · apply String.toList_inj.mp
        rw [hpath, String.toList_append, String.toList_ofList]

theorem eq_mk_iff {mountPath : MountPath} {text : String} (hvalid : IsMountPath text) :
    mountPath = ⟨text, hvalid⟩ ↔ mountPath.text = text := by
  obtain ⟨own, hown⟩ := mountPath
  exact MountPath.mk.injEq .. ▸ Iff.rfl

/-- Two mounts that cover one path are equal if they are equally long. -/
theorem eq_of_covers {first second : MountPath} {path : String}
    (hfirst : first.covers path = true) (hsecond : second.covers path = true)
    (hsize : first.text.utf8ByteSize = second.text.utf8ByteSize) : first = second := by
  obtain ⟨firstRest, hfirst, -⟩ := (covers_iff first path).mp hfirst
  obtain ⟨secondRest, hsecond, -⟩ := (covers_iff second path).mp hsecond
  have htext : first.text = second.text := by
    -- Both are the beginning of the path, so one of them is the beginning of the other.
    rcases List.prefix_or_prefix_of_prefix ⟨firstRest, hfirst.symm⟩ ⟨secondRest, hsecond.symm⟩ with
      hbegins | hbegins
    · exact eq_of_prefix_of_size_le hbegins (Nat.le_of_eq hsize.symm)
    · exact (eq_of_prefix_of_size_le hbegins (Nat.le_of_eq hsize)).symm
  exact (eq_mk_iff second.valid).mpr htext

end MountPath

end StorageStack
