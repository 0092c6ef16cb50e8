import Mathlib.Data.List.Basic

/-!
# Transition — executable labelled transition systems

A system is a partial step function: the label says which of the enabled
steps is taken, so one label is one choice of the interleaving. A run is
kept as the list of its steps, each with the state before and after it,
because a safety law is often about the moment of a step and not about a
state. The induction over runs is done here once; a development states its
invariants and proves what one step does.
-/

namespace Transition

variable {σ : Type*} {ℓ : Type*}

/-- One executed step: the state before it, its label, the state after it. -/
structure Step (step : σ → ℓ → Option σ) where
  src : σ
  label : ℓ
  dst : σ
  fired : step src label = some dst

/-- A run from `s₀`, as the list of its steps in order. -/
inductive Run (step : σ → ℓ → Option σ) (s₀ : σ) : List (Step step) → σ → Prop
  | nil : Run step s₀ [] s₀
  | snoc {xs : List (Step step)} (x : Step step) (run : Run step s₀ xs x.src) :
      Run step s₀ (xs ++ [x]) x.dst

/-- Some run from `s₀` ends in `s`. -/
def Reachable (step : σ → ℓ → Option σ) (s₀ s : σ) : Prop :=
  ∃ xs, Run step s₀ xs s

section
variable {step : σ → ℓ → Option σ} {s₀ s t : σ} {xs ys : List (Step step)}

theorem Run.single (x : Step step) : Run step x.src [x] x.dst := by
  simpa using Run.snoc x .nil

/-- Runs compose. -/
theorem Run.append (hx : Run step s₀ xs s) (hy : Run step s ys t) :
    Run step s₀ (xs ++ ys) t := by
  induction hy with
  | nil => simpa using hx
  | snoc y _ ih =>
    rw [← List.append_assoc]
    exact ih.snoc y

/-- A run can be cut anywhere. -/
theorem Run.split (h : Run step s₀ (xs ++ ys) t) :
    ∃ s, Run step s₀ xs s ∧ Run step s ys t := by
  generalize hzs : xs ++ ys = zs at h
  induction h generalizing ys with
  | nil =>
    obtain ⟨rfl, rfl⟩ := List.append_eq_nil_iff.mp hzs
    exact ⟨s₀, .nil, .nil⟩
  | @snoc zs z run ih =>
    rcases List.eq_nil_or_concat ys with rfl | ⟨ys, y, rfl⟩
    · rw [List.append_nil] at hzs
      subst hzs
      exact ⟨z.dst, run.snoc z, .nil⟩
    · rw [List.concat_eq_append] at hzs ⊢
      rw [← List.append_assoc] at hzs
      obtain ⟨hinit, hlast⟩ := List.append_inj' hzs rfl
      obtain rfl : y = z := List.singleton_inj.mp hlast
      obtain ⟨s, hx, hys⟩ := ih hinit
      exact ⟨s, hx, hys.snoc y⟩

theorem Run.eq_of_nil (h : Run step s [] t) : s = t := by
  generalize hzs : [] = zs at h
  cases h with
  | nil => rfl
  | snoc y run => simp at hzs

theorem Run.of_singleton {x : Step step} (h : Run step s [x] t) : s = x.src ∧ t = x.dst := by
  generalize hzs : [x] = zs at h
  cases h with
  | nil => cases hzs
  | snoc y run =>
    obtain ⟨hinit, hlast⟩ := List.append_inj' ((List.nil_append _).trans hzs) rfl
    obtain rfl : x = y := List.singleton_inj.mp hlast
    subst hinit
    exact ⟨run.eq_of_nil, rfl⟩

theorem Run.reachable (h : Run step s₀ xs s) : Reachable step s₀ s := ⟨xs, h⟩

theorem Reachable.refl : Reachable step s₀ s₀ := ⟨[], .nil⟩

theorem Reachable.tail {l : ℓ} (h : Reachable step s₀ s) (hl : step s l = some t) :
    Reachable step s₀ t := by
  obtain ⟨xs, hx⟩ := h
  exact ⟨_, hx.snoc ⟨s, l, t, hl⟩⟩

theorem Reachable.trans (h : Reachable step s₀ s) (h' : Reachable step s t) :
    Reachable step s₀ t := by
  obtain ⟨_, hx⟩ := h
  obtain ⟨_, hy⟩ := h'
  exact (hx.append hy).reachable

/-- Every step of a run starts in a reachable state. -/
theorem Run.src_reachable (h : Run step s₀ xs s) {x : Step step} (hx : x ∈ xs) :
    Reachable step s₀ x.src := by
  induction h with
  | nil => simp at hx
  | snoc y run ih =>
    rcases List.mem_append.mp hx with hx | hx
    · exact ih hx
    · rw [List.mem_singleton] at hx
      subst hx
      exact run.reachable

/-- The end of a run is reachable from after every step of it. -/
theorem Run.dst_reaches (h : Run step s₀ xs s) {x : Step step} (hx : x ∈ xs) :
    Reachable step x.dst s := by
  induction h with
  | nil => simp at hx
  | snoc y _ ih =>
    rcases List.mem_append.mp hx with hx | hx
    · exact (ih hx).tail y.fired
    · rw [List.mem_singleton] at hx
      subst hx
      exact .refl

/-! ## Invariants -/

/-- **The invariant rule for guarded runs**: what holds at the start and is
kept by every step that meets `ok` holds before each step, and at the end,
of a run whose steps all meet `ok`. -/
theorem Run.invariant_of {I : σ → Prop} (ok : Step step → Prop) (h₀ : I s₀)
    (hstep : ∀ x : Step step, I x.src → ok x → I x.dst)
    (h : Run step s₀ xs s) (hok : ∀ x ∈ xs, ok x) :
    (∀ x ∈ xs, I x.src) ∧ I s := by
  induction h with
  | nil => exact ⟨by simp, h₀⟩
  | snoc y _ ih =>
    obtain ⟨hsrc, hy⟩ := ih (fun x hx => hok x (by simp [hx]))
    refine ⟨?_, hstep y hy (hok y (by simp))⟩
    intro x hx
    rcases List.mem_append.mp hx with hx | hx
    · exact hsrc x hx
    · rw [List.mem_singleton] at hx
      exact hx ▸ hy

/-- The invariant rule: what holds at the start and is kept by every step
holds in every reachable state. -/
theorem Reachable.invariant {I : σ → Prop} (h₀ : I s₀)
    (hstep : ∀ s l t, I s → step s l = some t → I t)
    (h : Reachable step s₀ s) : I s := by
  obtain ⟨xs, hx⟩ := h
  exact (hx.invariant_of (fun _ => True) h₀
    (fun x hi _ => hstep _ _ _ hi x.fired) (fun _ _ => trivial)).2

/-- The rule for laws that relate an earlier state to a later one: a
preorder that every step respects (under an invariant) relates the ends of
a run. -/
theorem Reachable.relates {I : σ → Prop} {R : σ → σ → Prop}
    (hrefl : ∀ s, R s s) (htrans : ∀ s t u, R s t → R t u → R s u)
    (hinv : ∀ s l t, I s → step s l = some t → I t)
    (hrel : ∀ s l t, I s → step s l = some t → R s t)
    (h₀ : I s₀) (h : Reachable step s₀ s) : R s₀ s := by
  obtain ⟨xs, hx⟩ := h
  induction hx with
  | nil => exact hrefl _
  | snoc y run ih =>
    exact htrans _ _ _ ih
      (hrel _ _ _ (Reachable.invariant h₀ hinv run.reachable) y.fired)

/-- The same, from before any step of a run to its end. -/
theorem Run.relates {I : σ → Prop} {R : σ → σ → Prop}
    (htrans : ∀ s t u, R s t → R t u → R s u)
    (hinv : ∀ s l t, I s → step s l = some t → I t)
    (hrel : ∀ s l t, I s → step s l = some t → R s t)
    (h₀ : I s₀) (h : Run step s₀ xs s) : ∀ x ∈ xs, R x.src s := by
  induction h with
  | nil => simp
  | snoc y run ih =>
    intro x hx
    have hy := hrel _ _ _ (Reachable.invariant h₀ hinv run.reachable) y.fired
    rcases List.mem_append.mp hx with hx | hx
    · exact htrans _ _ _ (ih x hx) hy
    · rw [List.mem_singleton] at hx
      exact hx ▸ hy

/-- A law that holds of a step exactly when a condition on the state before
it does, holds of a whole run exactly when all its steps meet the
condition. -/
theorem Run.forall_iff {P ok : Step step → Prop}
    (hiff : ∀ x : Step step, Reachable step s₀ x.src → (P x ↔ ok x))
    (h : Run step s₀ xs s) : (∀ x ∈ xs, P x) ↔ ∀ x ∈ xs, ok x := by
  constructor
  · intro hp x hx
    exact (hiff x (h.src_reachable hx)).mp (hp x hx)
  · intro hok x hx
    exact (hiff x (h.src_reachable hx)).mpr (hok x hx)

/-- A law that holds of a step exactly when a condition does, as long as an
invariant is in force that the steps under the condition keep: it holds
throughout a run exactly when the condition does. -/
theorem Run.forall_iff_of_kept {J : σ → Prop} {P ok : Step step → Prop} (h₀ : J s₀)
    (hkept : ∀ x : Step step, J x.src → ok x → J x.dst)
    (hiff : ∀ x : Step step, J x.src → (P x ↔ ok x))
    (h : Run step s₀ xs s) : (∀ x ∈ xs, P x) ↔ ∀ x ∈ xs, ok x := by
  constructor
  · intro hall
    induction h with
    | nil => simp
    | @snoc xs y run ih =>
      have hxs : ∀ x ∈ xs, ok x := ih fun x hx => hall x (List.mem_append_left _ hx)
      have hsrc : J y.src := (run.invariant_of ok h₀ hkept hxs).2
      intro x hx
      rcases List.mem_append.mp hx with hx | hx
      · exact hxs x hx
      · rw [List.mem_singleton] at hx
        subst hx
        exact (hiff x hsrc).mp (hall x (by simp))
  · intro hok x hx
    have hsrc := (h.invariant_of ok h₀ hkept hok).1 x hx
    exact (hiff x hsrc).mpr (hok x hx)

/-- An invariant that a step keeps exactly when a condition on the state
before it holds, is in force throughout a run exactly when all steps of the
run meet the condition. -/
theorem Run.forall_dst_iff {I : σ → Prop} {ok : Step step → Prop} (h₀ : I s₀)
    (hiff : ∀ x : Step step, I x.src → (I x.dst ↔ ok x))
    (h : Run step s₀ xs s) : (∀ x ∈ xs, I x.dst) ↔ ∀ x ∈ xs, ok x :=
  h.forall_iff_of_kept h₀ (fun x hx => (hiff x hx).mpr) hiff

/-- **Progress by a rank**: where every state short of the goal has an allowed
step that keeps the invariant and takes it lower, the goal can be reached. -/
theorem exists_run {α : Type*} {r : α → α → Prop} (wf : WellFounded r) (rank : σ → α)
    {I goal : σ → Prop} {ok : Step step → Prop}
    (hgo : ∀ s, I s → ¬ goal s →
      ∃ x : Step step, x.src = s ∧ ok x ∧ I x.dst ∧ r (rank x.dst) (rank s)) (hs : I s) :
    ∃ xs t, Run step s xs t ∧ (∀ x ∈ xs, ok x) ∧ I t ∧ goal t := by
  -- on the rank, for all states of that rank
  induction hrank : rank s using wf.induction generalizing s with
  | _ a ih =>
    by_cases hgoal : goal s
    · exact ⟨[], s, .nil, by simp, hs, hgoal⟩
    · obtain ⟨x, rfl, hok, hi, hlower⟩ := hgo s hs hgoal
      obtain ⟨xs, t, run, hxs, ht, hreached⟩ := ih _ (hrank ▸ hlower) hi rfl
      refine ⟨x :: xs, t, (Run.single x).append run, ?_, ht, hreached⟩
      intro y hy
      rcases List.mem_cons.mp hy with rfl | hy
      · exact hok
      · exact hxs y hy

end

/-! ## Executing a list of labels -/

/-- The state after a list of labels, if every step is enabled and meets the
test `ok` on the state before it. -/
def execWhile (ok : σ → ℓ → Bool) (step : σ → ℓ → Option σ) : σ → List ℓ → Option σ
  | s, [] => some s
  | s, l :: ls => if ok s l then (step s l).bind fun t => execWhile ok step t ls else none

/-- The state after a list of labels, if every step is enabled. -/
def exec (step : σ → ℓ → Option σ) : σ → List ℓ → Option σ :=
  execWhile (fun _ _ => true) step

section
variable {step : σ → ℓ → Option σ} {ok : σ → ℓ → Bool} {s t : σ} {ls : List ℓ}

theorem execWhile_run (h : execWhile ok step s ls = some t) :
    ∃ xs, Run step s xs t ∧ xs.map Step.label = ls ∧ ∀ x ∈ xs, ok x.src x.label = true := by
  induction ls generalizing s with
  | nil =>
    cases h
    exact ⟨[], .nil, rfl, by simp⟩
  | cons l ls ih =>
    simp only [execWhile] at h
    split at h
    · rename_i hok
      obtain ⟨u, hu, hrest⟩ := Option.bind_eq_some_iff.mp h
      obtain ⟨xs, run, hlabels, hxs⟩ := ih hrest
      refine ⟨_, (Run.single ⟨s, l, u, hu⟩).append run, by simp [hlabels], ?_⟩
      intro x hx
      rcases List.mem_cons.mp (by simpa using hx) with rfl | hx
      · exact hok
      · exact hxs x hx
    · cases h

/-- An executed list of labels whose last state passes a test gives a run
that meets the guard and ends in a state passing the test. -/
theorem execWhile_test (ok : σ → ℓ → Bool) (step : σ → ℓ → Option σ) (s : σ) (ls : List ℓ)
    (p : σ → Bool) (h : (execWhile ok step s ls).any p = true) :
    ∃ xs t, Run step s xs t ∧ (∀ x ∈ xs, ok x.src x.label = true) ∧ p t = true := by
  cases ht : execWhile ok step s ls with
  | none => simp [ht] at h
  | some t =>
    obtain ⟨xs, run, -, hxs⟩ := execWhile_run ht
    exact ⟨xs, t, run, hxs, by simpa [ht] using h⟩

theorem exec_test (step : σ → ℓ → Option σ) (s : σ) (ls : List ℓ) (p : σ → Bool)
    (h : (exec step s ls).any p = true) :
    ∃ t, Reachable step s t ∧ p t = true := by
  obtain ⟨xs, t, run, _, hp⟩ := execWhile_test _ step s ls p h
  exact ⟨t, run.reachable, hp⟩

/-- The run an executed list of labels gives takes exactly these steps. -/
theorem exec_labels (step : σ → ℓ → Option σ) (s : σ) (ls : List ℓ) (p : σ → Bool)
    (h : (exec step s ls).any p = true) :
    ∃ xs t, Run step s xs t ∧ xs.map Step.label = ls ∧ p t = true := by
  cases ht : exec step s ls with
  | none => simp [ht] at h
  | some t =>
    obtain ⟨xs, run, hlabels, -⟩ := execWhile_run ht
    exact ⟨xs, t, run, hlabels, by simpa [ht] using h⟩

/-- The steps that a list of labels takes, and the state after them. -/
def execSteps (step : σ → ℓ → Option σ) : σ → List ℓ → Option (List (Step step) × σ)
  | s, [] => some ([], s)
  | s, l :: ls =>
      match h : step s l with
      | none => none
      | some t => (execSteps step t ls).map fun r => (⟨s, l, t, h⟩ :: r.1, r.2)

theorem execSteps_run (step : σ → ℓ → Option σ) {s t : σ} {ls : List ℓ}
    {xs : List (Step step)} (h : execSteps step s ls = some (xs, t)) : Run step s xs t := by
  induction ls generalizing s xs with
  | nil =>
    cases h
    exact .nil
  | cons l ls ih =>
    simp only [execSteps] at h
    split at h
    · cases h
    · rename_i u hu
      obtain ⟨⟨ys, v⟩, hys, hpair⟩ := Option.map_eq_some_iff.mp h
      cases hpair
      exact (Run.single ⟨s, l, u, hu⟩).append (ih hys)

/-- A test on the steps of an executed list of labels, and on its last state. -/
theorem execSteps_test (step : σ → ℓ → Option σ) (s : σ) (ls : List ℓ)
    (p : List (Step step) × σ → Bool) (h : (execSteps step s ls).any p = true) :
    ∃ xs t, Run step s xs t ∧ p (xs, t) = true := by
  obtain ⟨⟨xs, t⟩, hr, hp⟩ := (Option.any_eq_true ..).mp h
  exact ⟨xs, t, execSteps_run step hr, hp⟩

theorem exec_getD_reachable (step : σ → ℓ → Option σ) (s : σ) (ls : List ℓ)
    (h : (exec step s ls).isSome = true) : Reachable step s ((exec step s ls).getD s) := by
  obtain ⟨t, ht⟩ := Option.isSome_iff_exists.mp h
  obtain ⟨xs, run, -⟩ := execWhile_run ht
  rw [ht]
  exact run.reachable

end

end Transition
