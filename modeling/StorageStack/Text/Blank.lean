import StorageStack.Text.Cut

/-! # Blank characters

The Unicode property `White_Space`, and the fields that blanks separate.
-/

namespace StorageStack.Text

/-- The code points with the Unicode property `White_Space`, as closed ranges. -/
def blankRanges : List (Nat × Nat) :=
  [(0x09, 0x0D), (0x20, 0x20), (0x85, 0x85), (0xA0, 0xA0), (0x1680, 0x1680), (0x2000, 0x200A),
    (0x2028, 0x2029), (0x202F, 0x202F), (0x205F, 0x205F), (0x3000, 0x3000)]

/-- Whether a character is white space. -/
def isBlank (c : Char) : Bool :=
  blankRanges.any fun range => range.1 ≤ c.toNat && c.toNat ≤ range.2

/-- The maximal runs of characters that are not blank, in order. -/
def fields (text : List Char) : List (List Char) :=
  (cut isBlank text).filter fun field => !field.isEmpty

/-- Fields do not reach across a blank. -/
theorem fields_append_cons {c : Char} (hc : isBlank c = true) (before after : List Char) :
    fields (before ++ c :: after) = fields before ++ fields after := by
  rw [fields, cut_append_cons hc, List.filter_append]
  rfl

@[simp] theorem fields_nil : fields [] = [] := rfl

/-- Blanks in front of a text belong to no field. -/
theorem fields_append_of_blank {run : List Char} (hrun : ∀ c ∈ run, isBlank c = true)
    (rest : List Char) : fields (run ++ rest) = fields rest := by
  induction run with
  | nil => rfl
  | cons c run ih =>
      obtain ⟨hc, hrun⟩ := List.forall_mem_cons.mp hrun
      rw [List.cons_append, ← ih hrun]
      exact fields_append_cons hc [] (run ++ rest)

theorem fields_eq_singleton {field : List Char} (hne : field ≠ [])
    (hfield : ∀ c ∈ field, isBlank c = false) : fields field = [field] := by
  rw [fields, cut_eq_singleton hfield]
  simp [hne]

/-- A text up to its first blank is a field. -/
theorem fields_append_append {field run : List Char} (hne : field ≠ [])
    (hfield : ∀ c ∈ field, isBlank c = false) (hrun : run ≠ [])
    (hblank : ∀ c ∈ run, isBlank c = true) (rest : List Char) :
    fields (field ++ (run ++ rest)) = field :: fields rest := by
  obtain ⟨c, run, rfl⟩ := List.exists_cons_of_ne_nil hrun
  obtain ⟨hc, hblank⟩ := List.forall_mem_cons.mp hblank
  rw [List.cons_append, fields_append_cons hc, fields_eq_singleton hne hfield,
    fields_append_of_blank hblank]
  rfl

/-- The last field may have blanks behind it. -/
theorem fields_append_run {field run : List Char} (hne : field ≠ [])
    (hfield : ∀ c ∈ field, isBlank c = false) (hblank : ∀ c ∈ run, isBlank c = true) :
    fields (field ++ run) = [field] := by
  by_cases hrun : run = []
  · rw [hrun, List.append_nil, fields_eq_singleton hne hfield]
  · have hfields := fields_append_append hne hfield hrun hblank []
    rw [List.append_nil] at hfields
    exact hfields

end StorageStack.Text
