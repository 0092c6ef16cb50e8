import Fusion.Core.RuntimeSteps

/-!
# Fencing — success and the execution generation

A command is stamped with its runner's generation; a later bump is meant to
keep it from succeeding. The observer checks the stamp before it reports
success. `submit` does not check it when `adapter.execute` returns, so the
law holds of exactly the runs in which no command that asked for DISPATCHED
or ACKNOWLEDGED was preempted inside `adapter.execute`.
-/

namespace Fusion.DeviceRuntime

open Transition

variable {V : Type} [BEq V]

/-- No command that the step finishes SUCCEEDED carries a stamp other than
its runner's generation. -/
def Fenced (x : Step (DeviceRuntime.step (V := V))) : Prop :=
  ∀ c r, x.dst.getCommand c = some r → r.status = .terminal → r.outcome = some .succeeded →
    (∀ r₀, x.src.getCommand c = some r₀ → r₀.status ≠ .terminal) →
    x.dst.generation r.targetId = some r.executionGeneration

/-- When `adapter.execute` returns for a command that asked for no more than
ACKNOWLEDGED, the stamp is still the runner's generation. -/
def Unpreempted (s : DeviceRuntime V) : RuntimeLabel V → Bool
  | .executeReturned c =>
      match s.getCommand c with
      | none => true
      | some r => r.completionRequirement = .observed ||
          s.generation r.targetId = some r.executionGeneration
  | _ => true

variable {s t : DeviceRuntime V}

omit [BEq V] in
theorem unpreempted_executeReturned {r : CommandRecord V}
    (hr : s.getCommand r.commandId = some r) :
    Unpreempted s (.executeReturned r.commandId) = true ↔
      (r.completionRequirement ≠ .observed →
        s.generation r.targetId = some r.executionGeneration) := by
  simp only [Unpreempted, hr, Bool.or_eq_true, decide_eq_true_eq]
  exact ⟨fun h hne => h.resolve_left hne, fun h => or_iff_not_imp_left.mpr h⟩

/-- What a step owes the fence is owed by `adapter.execute` returning. -/
theorem fenced_of_unpreempted (x : Step (DeviceRuntime.step (V := V))) (h : OwnerInv x.src)
    (hok : Unpreempted x.src x.label = true) : Fenced x := by
  intro c r hr hdone hsucc hlive
  obtain ⟨task, r₀, task', -, hr₀, hfits, -, hd, hby⟩ :=
    (step_moves h x.fired).succeeded hr hdone hsucc hlive
  rw [hd.generations]
  cases hby with
  | executed label _ level record =>
    rw [label, unpreempted_executeReturned hr₀] at hok
    rw [record]
    exact hok level
  | observed _ _ _ generation record =>
    rw [record]
    exact (congrArg _ hfits.target).trans
      (generation.trans (congrArg some hfits.generation.symm))

/-- A step that keeps the fence was not preempted: the return of
`adapter.execute` reports success whatever the generation. -/
theorem unpreempted_of_fenced (x : Step (DeviceRuntime.step (V := V))) (h : OwnerInv x.src)
    (hx : Fenced x) : Unpreempted x.src x.label = true := by
  obtain ⟨s, l, t, hs⟩ := x
  cases l with
  | executeReturned c =>
    simp only [step] at hs
    split at hs
    · rename_i task r runner ho
      split at hs <;> cases hs
      rename_i hstage
      obtain ⟨rfl, _, hr, hfits⟩ := OwnerInv.owner h ho
      rw [unpreempted_executeReturned hr]
      intro hlevel
      have hstatus : r.status = .dispatching := by rw [hfits.status, hstage]; rfl
      rcases drives_executeReturned task hr hstatus with ⟨_, hd⟩ | ⟨hobserved, _⟩
      · rw [← hd.generations]
        refine hx r.commandId (r.finish .succeeded _) hd.record rfl rfl fun r₀ hr₀ => ?_
        obtain rfl : r = r₀ := Option.some.inj (hr.symm.trans hr₀)
        exact hfits.live
      · exact absurd hobserved hlevel
    · cases hs
  | _ => rfl

/-- **Generation fencing** holds of exactly the runs in which every return
of `adapter.execute`, for a command that asked for DISPATCHED or
ACKNOWLEDGED, finds the generation it was submitted under. -/
theorem generation_fencing_iff (runtimeId bootId : String) (now : ℚ) (targets : List String)
    (customGuard : Bool) {xs : List (Step (DeviceRuntime.step (V := V)))}
    (run : Run DeviceRuntime.step (init runtimeId bootId now targets customGuard) xs s) :
    (∀ x ∈ xs, Fenced x) ↔ ∀ x ∈ xs, Unpreempted x.src x.label = true :=
  run.forall_iff fun x hx =>
    have howner := (OwnerInv.init runtimeId bootId now targets customGuard).reachable hx
    ⟨unpreempted_of_fenced x howner, fenced_of_unpreempted x howner⟩

/-- A `move` to be acknowledged, up to the return of `adapter.execute`. -/
private def acknowledgedMove : List (RuntimeLabel Int) :=
  [.acquireControlSession "op" .manual none "cs1",
    .submitCommand (moveRequest "req-1" "cs1" 100 .acknowledged) "c1" (.ok (fakeMotor "motor01"))]

theorem generation_fencing_unpreempted :
    ∃ xs s, Run DeviceRuntime.step motorRuntime xs s ∧
      (s.getCommand "c1").any (fun r => r.outcome = some .succeeded) = true ∧
      ∀ x ∈ xs, Fenced x := by
  obtain ⟨xs, s, run, hok, hs⟩ := execWhile_test
    Unpreempted DeviceRuntime.step motorRuntime
    (acknowledgedMove ++ [.executeReturned "c1"])
    (fun s => (s.getCommand "c1").any fun r => r.outcome = some .succeeded)
    (by decide +kernel)
  exact ⟨xs, s, run, hs,
    (generation_fencing_iff "motor-test" "boot1" 0 ["motor01"] false run).mpr hok⟩

/-- The defect: another operator takes control while the `move` is inside
`adapter.execute`; the command is stamped 2, the generation is 3, and it is
finished SUCCEEDED. -/
theorem generation_fencing_stale_success :
    ¬ ∀ xs s, Run DeviceRuntime.step motorRuntime xs s → ∀ x ∈ xs, Fenced x := by
  intro hall
  obtain ⟨xs, s, run, -, hs⟩ := execWhile_test
    (fun _ _ => true) DeviceRuntime.step motorRuntime
    (acknowledgedMove ++ [.acquireControlSession "other" .manual none "cs2"])
    (fun s => (s.step (.executeReturned "c1")).isSome &&
      !Unpreempted s (.executeReturned "c1")) (by decide +kernel)
  obtain ⟨hfires, hpre⟩ := Bool.and_eq_true_iff.mp hs
  obtain ⟨t, ht⟩ := Option.isSome_iff_exists.mp hfires
  have howner := (OwnerInv.init "motor-test" "boot1" 0 ["motor01"] false).reachable run.reachable
  have hfenced := hall _ _ (run.snoc ⟨s, _, t, ht⟩) ⟨s, _, t, ht⟩ (by simp)
  simp [unpreempted_of_fenced _ howner hfenced] at hpre

end Fusion.DeviceRuntime
