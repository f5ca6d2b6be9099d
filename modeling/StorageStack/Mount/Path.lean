import StorageStack.Limits

/-! # Mount paths

A mount path is a slash and a segment, once or more often, within 64 bytes. A mount
covers its own path and everything below it, and nothing that merely begins with the
same letters.
-/

namespace StorageStack

/-- Whether two slashes follow each other. -/
def hasEmptySegment : List Char → Bool
  | '/' :: '/' :: _ => true
  | _ :: rest => hasEmptySegment rest
  | [] => false

/-- A path is absolute if it begins with a slash. -/
def IsAbsolute (path : String) : Prop := path.toList.head? = some '/'

instance (path : String) : Decidable (IsAbsolute path) :=
  inferInstanceAs (Decidable (_ = _))

/-- The text may stand as a mount path: absolute, not only a slash, without a slash at
the end or two in a row, and not too long. -/
def IsMountPath (text : String) : Prop :=
  IsAbsolute text ∧ 1 < text.utf8ByteSize ∧ text.toList.getLast? ≠ some '/' ∧
    hasEmptySegment text.toList = false ∧ text.utf8ByteSize ≤ Limits.maxMountPathLength

instance (text : String) : Decidable (IsMountPath text) :=
  inferInstanceAs (Decidable (_ ∧ _))

/-- The place where a device is mounted. -/
structure MountPath where
  text : String
  valid : IsMountPath text
deriving DecidableEq

namespace MountPath

/-- The text as a mount path, if it may stand as one. -/
def ofString? (text : String) : Option MountPath :=
  if valid : IsMountPath text then some ⟨text, valid⟩ else none

/-- What is left of a path behind the mount path, or none if it begins differently. -/
def remainder? (mount : MountPath) (path : String) : Option (List Char) :=
  if mount.text.toList.isPrefixOf path.toList then
    some (path.toList.drop mount.text.toList.length)
  else none

/-- The mount is responsible for the path: the path ends behind the mount path or goes on
with a slash. -/
def covers (mount : MountPath) (path : String) : Bool :=
  match mount.remainder? path with
  | some [] => true
  | some (c :: _) => c == '/'
  | none => false

theorem covers_iff (mount : MountPath) (path : String) :
    mount.covers path = true ↔
      ∃ rest, path.toList = mount.text.toList ++ rest ∧ (rest = [] ∨ rest.head? = some '/') := by
  unfold covers remainder?
  constructor
  · intro hcovers
    -- Covering begins with the letters of the mount path; what follows them decides.
    by_cases hbegins : mount.text.toList.isPrefixOf path.toList = true
    · rw [if_pos hbegins] at hcovers
      obtain ⟨rest, hrest⟩ := List.isPrefixOf_iff_prefix.mp hbegins
      refine ⟨rest, hrest.symm, ?_⟩
      rw [← hrest, List.drop_left] at hcovers
      cases rest with
      | nil => exact Or.inl rfl
      | cons c tail => exact Or.inr (by simpa using hcovers)
    · simp [hbegins] at hcovers
  · rintro ⟨rest, hpath, hrest⟩
    have hbegins : mount.text.toList.isPrefixOf path.toList = true :=
      List.isPrefixOf_iff_prefix.mpr ⟨rest, hpath.symm⟩
    rw [if_pos hbegins, hpath, List.drop_left]
    cases rest with
    | nil => rfl
    | cons c tail => simpa using hrest

/-- The path as seen from the mount, which is itself called `/`. -/
def relative (mount : MountPath) (path : String) : String :=
  match path.toList.drop mount.text.toList.length with
  | [] => "/"
  | rest => String.ofList rest

/-- The path without its leading slash: the name under which the mount is listed. -/
def name (mount : MountPath) : String := String.ofList mount.text.toList.tail

/-- A mount path is a slash and its name. -/
theorem text_eq (mount : MountPath) : mount.text = String.singleton '/' ++ mount.name := by
  have habsolute : mount.text.toList.head? = some '/' := mount.valid.1
  apply String.toList_inj.mp
  rw [String.toList_append, name, String.toList_ofList]
  cases hchars : mount.text.toList with
  | nil => simp [hchars] at habsolute
  | cons c rest =>
      simp only [hchars, List.head?_cons, Option.some.injEq] at habsolute
      simp [habsolute]

/-- A mount can always be listed: its name is shorter than its path. -/
theorem size_name_le (mount : MountPath) : mount.name.utf8ByteSize ≤ Limits.maxNameLength := by
  have hshort : mount.text.utf8ByteSize ≤ Limits.maxMountPathLength := mount.valid.2.2.2.2
  rw [text_eq, String.utf8ByteSize_append] at hshort
  simp only [Limits.maxMountPathLength] at hshort
  simp only [Limits.maxNameLength]
  omega

end MountPath

end StorageStack
