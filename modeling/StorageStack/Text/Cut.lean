/-! # Cutting text

`cut` divides text at every separator and keeps the empty pieces, so the pieces and
the separators spell the text. Lines, fields and path segments are all cuts.
-/

namespace StorageStack.Text

/-- The pieces between separators, in order. There is one more piece than there are
separators, and no piece holds a separator. -/
def cut (separates : Char → Bool) : List Char → List (List Char)
  | [] => [[]]
  | c :: rest =>
      if separates c then [] :: cut separates rest
      else match cut separates rest with
        | [] => [[c]]
        | piece :: pieces => (c :: piece) :: pieces

/-- A separator opens an empty piece, any other character goes to the first piece. -/
theorem cut_cons {separates : Char → Bool} {rest piece : List Char} {pieces : List (List Char)}
    (hrest : cut separates rest = piece :: pieces) (c : Char) :
    cut separates (c :: rest) =
      if separates c then [] :: piece :: pieces else (c :: piece) :: pieces := by
  rw [cut, hrest]

theorem exists_cut_eq_cons (separates : Char → Bool) (text : List Char) :
    ∃ piece pieces, cut separates text = piece :: pieces := by
  induction text with
  | nil => exact ⟨[], [], rfl⟩
  | cons c rest ih =>
      obtain ⟨piece, pieces, hrest⟩ := ih
      rw [cut_cons hrest]
      by_cases hc : separates c = true
      · exact ⟨[], piece :: pieces, if_pos hc⟩
      · exact ⟨c :: piece, pieces, if_neg hc⟩

/-- A separator ends one cut and begins another. -/
theorem cut_append_cons {separates : Char → Bool} {c : Char} (hc : separates c = true)
    (before after : List Char) :
    cut separates (before ++ c :: after) = cut separates before ++ cut separates after := by
  -- On the text in front of the separator: its last piece is closed by the separator.
  induction before with
  | nil =>
      obtain ⟨piece, pieces, hafter⟩ := exists_cut_eq_cons separates after
      rw [List.nil_append, cut_cons hafter, if_pos hc, hafter]
      rfl
  | cons d rest ih =>
      obtain ⟨piece, pieces, hrest⟩ := exists_cut_eq_cons separates rest
      rw [hrest, List.cons_append] at ih
      rw [List.cons_append, cut_cons ih, cut_cons hrest]
      by_cases hd : separates d = true <;> simp [hd]

/-- Text without separators is one piece. -/
theorem cut_eq_singleton {separates : Char → Bool} {text : List Char}
    (htext : ∀ c ∈ text, separates c = false) : cut separates text = [text] := by
  induction text with
  | nil => rfl
  | cons c rest ih =>
      have hrest := ih fun d hd => htext d (List.mem_cons_of_mem _ hd)
      rw [cut_cons hrest, htext c List.mem_cons_self]
      rfl

theorem separates_eq_false_of_mem_cut {separates : Char → Bool} {text piece : List Char}
    (hpiece : piece ∈ cut separates text) : ∀ c ∈ piece, separates c = false := by
  induction text generalizing piece with
  | nil =>
      rw [List.mem_singleton.mp hpiece]
      simp
  | cons d rest ih =>
      obtain ⟨first, others, hrest⟩ := exists_cut_eq_cons separates rest
      rw [cut_cons hrest] at hpiece
      rw [hrest] at ih
      by_cases hd : separates d = true
      · rw [if_pos hd] at hpiece
        rcases List.mem_cons.mp hpiece with rfl | htail
        · simp
        · exact ih htail
      · rw [if_neg hd] at hpiece
        rcases List.mem_cons.mp hpiece with rfl | htail
        · exact List.forall_mem_cons.mpr ⟨by simpa using hd, ih List.mem_cons_self⟩
        · exact ih (List.mem_cons_of_mem _ htail)

end StorageStack.Text
