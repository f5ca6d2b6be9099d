/-! # Lists of calls

Calls made one after the other, each on the state that the call before it left. The answers
come in the order of the calls.
-/

namespace StorageStack.CallList

variable {σ τ κ α : Type}

theorem run_mapM_cons (call : κ → StateM σ α) (first : κ) (rest : List κ) (state : σ) :
    ((first :: rest).mapM call).run state =
      let called := (call first).run state
      let later := (rest.mapM call).run called.2
      (called.1 :: later.1, later.2) := by
  rw [List.mapM_cons]
  rfl

theorem run_mapM_cons_of_run {call : κ → StateM σ α} {first : κ} {state after : σ} {answer : α}
    (hcall : (call first).run state = (answer, after)) (rest : List κ) :
    ((first :: rest).mapM call).run state =
      (answer :: ((rest.mapM call).run after).1, ((rest.mapM call).run after).2) := by
  rw [run_mapM_cons, hcall]

/-- Calls that leave the state as it is are answered as each of them is. -/
theorem run_mapM_of_fixed {call : κ → StateM σ α} {answer : κ → α} {calls : List κ} {state : σ}
    (hfixed : ∀ each ∈ calls, (call each).run state = (answer each, state)) :
    (calls.mapM call).run state = (calls.map answer, state) := by
  induction calls with
  | nil => rfl
  | cons first rest ih =>
      obtain ⟨hfirst, hrest⟩ := List.forall_mem_cons.mp hfixed
      rw [run_mapM_cons, hfirst]
      dsimp only
      rw [ih hrest, List.map_cons]

/-- If each call keeps two states related and is answered alike, so is every list of calls. -/
theorem run_mapM_related {related : σ → τ → Prop} {left : κ → StateM σ α} {right : κ → StateM τ α}
    {calls : List κ}
    (hstep : ∀ call ∈ calls, ∀ first second, related first second →
      ((left call).run first).1 = ((right call).run second).1 ∧
        related ((left call).run first).2 ((right call).run second).2)
    {first : σ} {second : τ} (hrelated : related first second) :
    ((calls.mapM left).run first).1 = ((calls.mapM right).run second).1 ∧
      related ((calls.mapM left).run first).2 ((calls.mapM right).run second).2 := by
  induction calls generalizing first second with
  | nil => exact ⟨rfl, hrelated⟩
  | cons call rest ih =>
      obtain ⟨hfirst, hrest⟩ := List.forall_mem_cons.mp hstep
      obtain ⟨hanswer, hafter⟩ := hfirst first second hrelated
      obtain ⟨hanswers, hlast⟩ := ih hrest hafter
      rw [run_mapM_cons, run_mapM_cons]
      dsimp only
      rw [hanswer, hanswers]
      exact ⟨rfl, hlast⟩

end StorageStack.CallList
