import StorageStack.Text.Blank

/-! # Fields between blanks

What it means that blanks separate the fields of a text. The fields that are read from a text are
the only ones that it can be separated into, once the blanks at its ends are taken away.
-/

namespace StorageStack.Text

/-- A text without the blanks at its ends. -/
def trim (text : List Char) : List Char :=
  ((text.dropWhile isBlank).reverse.dropWhile isBlank).reverse

/-- The text is the fields in their order, with one or more blanks between every two of them and
none anywhere else. -/
inductive Separated : List (List Char) → List Char → Prop
  | single {field : List Char} (hne : field ≠ []) (hfield : ∀ c ∈ field, isBlank c = false) :
      Separated [field] field
  | cons {field run rest : List Char} {fields : List (List Char)} (hne : field ≠ [])
      (hfield : ∀ c ∈ field, isBlank c = false) (hrun : run ≠ [])
      (hblank : ∀ c ∈ run, isBlank c = true) (hrest : Separated fields rest) :
      Separated (field :: fields) (field ++ (run ++ rest))

namespace Separated

variable {fields : List (List Char)} {text : List Char}

/-- Blanks behind the last field belong to no field. -/
theorem fields_append (hseparated : Separated fields text) {run : List Char}
    (hrun : ∀ c ∈ run, isBlank c = true) : Text.fields (text ++ run) = fields := by
  induction hseparated with
  | single hne hfield => exact fields_append_run hne hfield hrun
  | cons hne hfield hbetween hblank _ ih =>
      rw [List.append_assoc, List.append_assoc, fields_append_append hne hfield hbetween hblank, ih]

theorem fields_eq (hseparated : Separated fields text) : Text.fields text = fields := by
  have hfields := hseparated.fields_append (List.forall_mem_nil _)
  rwa [List.append_nil] at hfields

theorem head_not_blank (hseparated : Separated fields text) :
    ∃ c rest, text = c :: rest ∧ isBlank c = false := by
  cases hseparated with
  | single hne hfield | cons hne hfield =>
      obtain ⟨c, rest, rfl⟩ := List.exists_cons_of_ne_nil hne
      exact ⟨c, _, rfl, hfield c List.mem_cons_self⟩

theorem last_not_blank (hseparated : Separated fields text) :
    ∃ front c, text = front ++ [c] ∧ isBlank c = false := by
  induction hseparated with
  | @single field hne hfield =>
      refine ⟨field.dropLast, field.getLast hne, (List.dropLast_concat_getLast hne).symm, ?_⟩
      exact hfield _ (List.getLast_mem hne)
  | cons _ _ _ _ _ ih =>
      obtain ⟨front, c, rfl, hc⟩ := ih
      exact ⟨_, c, by rw [← List.append_assoc, ← List.append_assoc], hc⟩

theorem fields_ne_nil (hseparated : Separated fields text) : fields ≠ [] := by
  cases hseparated <;> exact List.cons_ne_nil _ _

/-- A letter in front of the text belongs to its first field. -/
theorem exists_cons (hseparated : Separated fields text) {c : Char} (hc : isBlank c = false) :
    ∃ fields, Separated fields (c :: text) := by
  cases hseparated with
  | single _ hfield =>
      exact ⟨_, .single (List.cons_ne_nil _ _) (List.forall_mem_cons.mpr ⟨hc, hfield⟩)⟩
  | cons _ hfield hrun hblank hrest =>
      have hlonger := Separated.cons (List.cons_ne_nil _ _) (List.forall_mem_cons.mpr ⟨hc, hfield⟩)
        hrun hblank hrest
      exact ⟨_, hlonger⟩

end Separated

/-- A text is blank, or it is a separated text with blanks around it. -/
theorem blank_or_separated (text : List Char) :
    (∀ c ∈ text, isBlank c = true) ∨
      ∃ before fields core behind, text = before ++ (core ++ behind) ∧
        (∀ c ∈ before, isBlank c = true) ∧ (∀ c ∈ behind, isBlank c = true) ∧
        Separated fields core := by
  induction text with
  | nil => exact Or.inl (List.forall_mem_nil _)
  | cons c rest ih =>
      cases hc : isBlank c with
      | true =>
          rcases ih with hblank | ⟨before, fields, core, behind, rfl, hbefore, hbehind, hcore⟩
          · exact Or.inl (List.forall_mem_cons.mpr ⟨hc, hblank⟩)
          · exact Or.inr ⟨c :: before, fields, core, behind, rfl,
              List.forall_mem_cons.mpr ⟨hc, hbefore⟩, hbehind, hcore⟩
      | false =>
          have hletter : ∀ d ∈ [c], isBlank d = false := List.forall_mem_singleton.mpr hc
          rcases ih with hblank | ⟨before, fields, core, behind, rfl, hbefore, hbehind, hcore⟩
          · exact Or.inr ⟨[], _, [c], rest, rfl, List.forall_mem_nil _, hblank,
              .single (List.cons_ne_nil _ _) hletter⟩
          · by_cases hadjacent : before = []
            · obtain ⟨longer, hlonger⟩ := hcore.exists_cons hc
              exact Or.inr ⟨[], longer, c :: core, behind, by rw [hadjacent]; rfl,
                List.forall_mem_nil _, hbehind, hlonger⟩
            · exact Or.inr ⟨[], _, [c] ++ (before ++ core), behind, by simp, List.forall_mem_nil _,
                hbehind, .cons (List.cons_ne_nil _ _) hletter hadjacent hbefore hcore⟩

theorem trim_eq_nil_of_blank {text : List Char} (hblank : ∀ c ∈ text, isBlank c = true) :
    trim text = [] := by
  rw [trim, ← List.append_nil text, List.dropWhile_append_of_pos hblank]
  rfl

theorem trim_append_append {fields : List (List Char)} {before core behind : List Char}
    (hbefore : ∀ c ∈ before, isBlank c = true) (hbehind : ∀ c ∈ behind, isBlank c = true)
    (hcore : Separated fields core) : trim (before ++ (core ++ behind)) = core := by
  obtain ⟨first, rest, hfirst, hfirstletter⟩ := hcore.head_not_blank
  obtain ⟨front, last, hlast, hlastletter⟩ := hcore.last_not_blank
  have hleft : (before ++ (core ++ behind)).dropWhile isBlank = core ++ behind := by
    rw [List.dropWhile_append_of_pos hbefore, hfirst, List.cons_append,
      List.dropWhile_cons_of_neg (by simp [hfirstletter])]
  have hright : (core ++ behind).reverse.dropWhile isBlank = core.reverse := by
    have hreverse : ∀ c ∈ behind.reverse, isBlank c = true :=
      fun c hc => hbehind c (List.mem_reverse.mp hc)
    rw [List.reverse_append, List.dropWhile_append_of_pos hreverse, hlast, List.reverse_append,
      List.reverse_singleton, List.singleton_append,
      List.dropWhile_cons_of_neg (by simp [hlastletter])]
  rw [trim, hleft, hright, List.reverse_reverse]

/-- What is left of a text without the blanks at its ends is nothing, or its fields and the blanks
that separate them. -/
theorem trim_cases (text : List Char) :
    trim text = [] ∧ fields text = [] ∨ Separated (fields text) (trim text) := by
  rcases blank_or_separated text with
    hblank | ⟨before, fields, core, behind, rfl, hbefore, hbehind, hcore⟩
  · have hfields := fields_append_of_blank hblank []
    rw [List.append_nil] at hfields
    exact Or.inl ⟨trim_eq_nil_of_blank hblank, hfields⟩
  · rw [trim_append_append hbefore hbehind hcore, fields_append_of_blank hbefore,
      hcore.fields_append hbehind]
    exact Or.inr hcore

theorem fields_trim (text : List Char) : fields (trim text) = fields text := by
  rcases trim_cases text with ⟨htrim, hfields⟩ | hseparated
  · rw [htrim, hfields, fields_nil]
  · exact hseparated.fields_eq

theorem isEmpty_trim (text : List Char) : (trim text).isEmpty = (fields text).isEmpty := by
  rcases trim_cases text with ⟨htrim, hfields⟩ | hseparated
  · rw [htrim, hfields]
    rfl
  · obtain ⟨c, rest, htrim, -⟩ := hseparated.head_not_blank
    rw [List.isEmpty_eq_false_iff.mpr hseparated.fields_ne_nil, htrim]
    rfl

end StorageStack.Text
