/-! Runs of characters of a kind. A run that nothing continues is found whole, and what is found is such a run. -/
namespace EventTrace.Text

variable {p q : Char → Bool} {run rest : List Char}

/-- No character of the kind is in front, so that a run of them is over. -/
def RunsOut (p : Char → Bool) (rest : List Char) : Prop := ∀ c, rest.head? = some c → p c = false

theorem runsOut_nil (p : Char → Bool) : RunsOut p [] := by simp [RunsOut]

theorem runsOut_cons {c : Char} : RunsOut p (c :: rest) ↔ p c = false := by simp [RunsOut]

theorem RunsOut.mono (h : RunsOut q rest) (hpq : ∀ c, p c = true → q c = true) : RunsOut p rest := by
  intro c hc
  cases hp : p c with
  | false => rfl
  | true => exact absurd (hpq c hp) (by rw [h c hc]; exact Bool.false_ne_true)

theorem RunsOut.of_append (h : RunsOut p (run ++ rest)) : RunsOut p run := by
  intro c hc
  cases run with
  | nil => cases hc
  | cons d run => exact h c hc

theorem RunsOut.append (hrun : RunsOut p run) (hrest : RunsOut p rest) : RunsOut p (run ++ rest) := by
  cases run with
  | nil => exact hrest
  | cons d run => exact runsOut_cons.mpr (runsOut_cons.mp hrun)

theorem RunsOut.takeWhile_eq_nil (h : RunsOut p rest) : rest.takeWhile p = [] := by
  cases rest with
  | nil => rfl
  | cons c rest => simp [runsOut_cons.mp h]

theorem RunsOut.dropWhile_eq (h : RunsOut p rest) : rest.dropWhile p = rest := by
  cases rest with
  | nil => rfl
  | cons c rest => simp [runsOut_cons.mp h]

theorem runsOut_of_takeWhile_eq_nil (h : rest.takeWhile p = []) : RunsOut p rest := by
  cases rest with
  | nil => exact runsOut_nil p
  | cons c rest =>
    rw [runsOut_cons]
    cases hp : p c with
    | false => rfl
    | true => simp [hp] at h

theorem takeWhile_run (hrun : ∀ c ∈ run, p c = true) (hrest : RunsOut p rest) : (run ++ rest).takeWhile p = run := by
  rw [List.takeWhile_append_of_pos hrun, hrest.takeWhile_eq_nil, List.append_nil]

theorem dropWhile_run (hrun : ∀ c ∈ run, p c = true) (hrest : RunsOut p rest) : (run ++ rest).dropWhile p = rest := by
  rw [List.dropWhile_append_of_pos hrun, hrest.dropWhile_eq]

theorem runsOut_dropWhile (p : Char → Bool) (cs : List Char) : RunsOut p (cs.dropWhile p) := by
  intro c hc
  have h := List.head?_dropWhile_not p cs
  rw [hc] at h
  simpa using h

theorem of_mem_takeWhile {cs : List Char} {c : Char} (h : c ∈ cs.takeWhile p) : p c = true :=
  List.all_eq_true.mp List.all_takeWhile c h

/-- All characters are of the kind, or there is a first that is not. -/
theorem all_or_first (p : Char → Bool) (cs : List Char) :
    (∀ c ∈ cs, p c = true) ∨ ∃ run c rest, cs = run ++ c :: rest ∧ (∀ d ∈ run, p d = true) ∧ p c = false := by
  have hcs : cs.takeWhile p ++ cs.dropWhile p = cs := List.takeWhile_append_dropWhile
  cases hrest : cs.dropWhile p with
  | nil =>
    rw [hrest, List.append_nil] at hcs
    exact .inl fun c hc => of_mem_takeWhile (hcs.symm ▸ hc)
  | cons c rest =>
    rw [hrest] at hcs
    exact .inr ⟨cs.takeWhile p, c, rest, hcs.symm, fun d hd => of_mem_takeWhile hd,
      runsOut_dropWhile p cs c (by rw [hrest]; rfl)⟩

end EventTrace.Text
