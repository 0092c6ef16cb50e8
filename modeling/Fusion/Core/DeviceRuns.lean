import Fusion.Core.DeviceNetwork

/-!
# DeviceRuns — what the adapters are given in a run

A request of a Cue is served once, so its command reaches the adapter at most
once, on the Cue's own Runtime; and by then the commands of its dependencies
have succeeded on theirs. What is recorded of a Cue follows from whether it
got there.
-/

namespace Fusion

open Transition

variable {V : Type} [BEq V]

namespace DeviceNetwork

variable {s t : DeviceNetwork V}

/-! ## What a step leaves -/

omit [BEq V] in
theorem respond_eq (s : DeviceNetwork V) (name : String) (l : DeviceRuntime.RuntimeLabel V) :
    ∃ rpcs, s.respond name l = { s with rpcs := rpcs } ∧
      ∀ i, (rpcs i).served = (s.rpcs i).served := by
  have hreturns : ∀ c, ∃ rpcs, s.respond name (.executeReturned c) = { s with rpcs := rpcs } ∧
      ∀ i, (rpcs i).served = (s.rpcs i).served := by
    intro c
    simp only [respond]
    split
    · rename_i k r _ _
      refine ⟨_, rfl, ?_⟩
      intro i
      by_cases hik : i = k
      · subst hik
        rw [Function.update_self]
      · rw [Function.update_of_ne hik]
    · exact ⟨s.rpcs, rfl, fun _ => rfl⟩
  cases l with
  | executeReturned c => exact hreturns c
  | executeRaised c message => exact hreturns c
  | _ => exact ⟨s.rpcs, rfl, fun _ => rfl⟩

omit [BEq V] in
theorem served_setRpc {k : Nat} {rpc : Rpc} (h : rpc.served = (s.rpcs k).served) (i : Nat) :
    ((s.setRpc k rpc).rpcs i).served = (s.rpcs i).served := by
  show (Function.update s.rpcs k rpc i).served = _
  by_cases hik : i = k
  · subst hik
    rw [Function.update_self, h]
  · rw [Function.update_of_ne hik]

omit [BEq V] in
theorem requestId_inj {exec : Execution V} {cue cue' : Cue V} :
    exec.requestId cue = exec.requestId cue' ↔ cue.cueId = cue'.cueId := by
  simp [Execution.requestId, toString]

/-- What a step has in common with the state before it, as to a Cue's request. -/
structure Frame (s t : DeviceNetwork V) (i : Nat) (cue : Cue V) : Prop where
  requestId : t.exec.requestId cue = s.exec.requestId cue
  host : t.host = s.host
  served : (t.rpcs i).served = (s.rpcs i).served
  runtimes : ∀ name, (s.runtimes name).Untouched (t.runtimes name) (s.exec.requestId cue)

/-- Nothing but its own submission touches a Cue's request. -/
theorem step_frame (hi : DeviceInv s) {l : DeviceLabel V} (h : s.step l = some t) {i : Nat}
    {cue : Cue V} (hcue : s.exec.timeline.cues[i]? = some cue) :
    Frame s t i cue ∨ ∃ freshId manifest sessionId answer R, l = .submit i freshId manifest ∧
      Submits s i freshId manifest t cue sessionId answer R := by
  have hrefl : ∀ name, (s.runtimes name).Untouched (s.runtimes name) (s.exec.requestId cue) :=
    fun name => .refl _ _
  cases l with
  | exec env label =>
    simp only [step] at h
    split at h
    · obtain ⟨exec, hexec, rfl⟩ := Option.map_eq_some_iff.mp h
      have hrun := (Execution.step_moves hexec).runId
      exact .inl ⟨by simp only [Execution.requestId, hrun], rfl, rfl, hrefl⟩
    · cases h
  | submit k freshId manifest =>
    obtain ⟨cue', sessionId, answer, R, hs⟩ := submits_of_step hi h
    by_cases hik : i = k
    · subst hik
      obtain rfl : cue' = cue := Option.some.inj (hs.cueAt.symm.trans hcue)
      exact .inr ⟨freshId, manifest, sessionId, answer, R, rfl, hs⟩
    · refine .inl ?_
      rw [hs.eq]
      refine ⟨rfl, rfl, congrArg Rpc.served (Function.update_of_ne hik _ _), ?_⟩
      intro name
      by_cases hname : name = s.host cue'.runtime
      · subst hname
        show DeviceRuntime.Untouched _ (Function.update s.runtimes _ R _) _
        rw [Function.update_self]
        refine DeviceRuntime.step_untouched (hi.owner _) hs.stepped ?_
        rintro req c m he hsame
        cases he
        exact hi.credit.net.gate.id_ne hs.cueAt hcue hik (requestId_inj.mp hsame)
      · show DeviceRuntime.Untouched _ (Function.update s.runtimes _ R _) _
        rw [Function.update_of_ne hname]
        exact hrefl name
  | runtime name label =>
    simp only [step] at h
    split at h
    · rename_i hothers
      obtain ⟨R, hR, rfl⟩ := Option.map_eq_some_iff.mp h
      obtain ⟨rpcs, heq, hserved⟩ := (s.goOn name R).respond_eq name label
      rw [heq]
      refine .inl ⟨rfl, rfl, hserved i, ?_⟩
      intro n
      show DeviceRuntime.Untouched _ (Function.update s.runtimes _ R _) _
      by_cases hn : n = name
      · subst hn
        rw [Function.update_self]
        refine DeviceRuntime.step_untouched (hi.owner _) hR ?_
        rintro req freshId manifest rfl
        simp only [others, Bool.and_eq_true, List.all_eq_true, decide_eq_true_eq] at hothers
        exact hothers.2 cue (List.mem_of_getElem? hcue)
      · rw [Function.update_of_ne hn]
        exact hrefl n
    · cases h
  | lose k message =>
    simp only [step] at h
    split at h <;> cases h
    refine .inl ⟨rfl, rfl, served_setRpc ?_ i, hrefl⟩
    rfl
  | readRecord k =>
    obtain ⟨cue', -, h⟩ := Option.bind_eq_some_iff.mp h
    split at h
    · obtain ⟨r, -, rfl⟩ := Option.map_eq_some_iff.mp h
      refine .inl ⟨rfl, rfl, served_setRpc ?_ i, hrefl⟩
      rfl
    · cases h
  | loseRecord k message =>
    simp only [step] at h
    split at h <;> cases h
    refine .inl ⟨rfl, rfl, served_setRpc ?_ i, hrefl⟩
    rfl

/-- What a run is about stays. -/
theorem step_static {l : DeviceLabel V} (h : s.step l = some t) :
    t.exec.timeline = s.exec.timeline ∧ t.exec.runId = s.exec.runId ∧ t.host = s.host := by
  cases l with
  | exec env label =>
    simp only [step] at h
    split at h
    · obtain ⟨exec, hexec, rfl⟩ := Option.map_eq_some_iff.mp h
      have hmoves := Execution.step_moves hexec
      exact ⟨hmoves.cueStep.timeline, hmoves.runId, rfl⟩
    · cases h
  | submit k freshId manifest =>
    obtain ⟨call, -, h⟩ := Option.bind_eq_some_iff.mp h
    split at h <;> cases h
    exact ⟨rfl, rfl, rfl⟩
  | runtime name label =>
    simp only [step] at h
    split at h
    · obtain ⟨R, -, rfl⟩ := Option.map_eq_some_iff.mp h
      obtain ⟨rpcs, heq, -⟩ := (s.goOn name R).respond_eq name label
      rw [heq]
      exact ⟨rfl, rfl, rfl⟩
    · cases h
  | lose k message =>
    simp only [step] at h
    split at h <;> cases h
    exact ⟨rfl, rfl, rfl⟩
  | readRecord k =>
    obtain ⟨cue', -, h⟩ := Option.bind_eq_some_iff.mp h
    split at h
    · obtain ⟨r, -, rfl⟩ := Option.map_eq_some_iff.mp h
      exact ⟨rfl, rfl, rfl⟩
    · cases h
  | loseRecord k message =>
    simp only [step] at h
    split at h <;> cases h
    exact ⟨rfl, rfl, rfl⟩

/-- Each Runtime stays as it is or takes a step of its own. -/
theorem step_runtimes (hi : DeviceInv s) {l : DeviceLabel V} (h : s.step l = some t)
    (name : String) : t.runtimes name = s.runtimes name ∨
      ∃ l', (s.runtimes name).step l' = some (t.runtimes name) := by
  have hgoes : ∀ {k : String} {R : DeviceRuntime V} {l'}, (s.runtimes k).step l' = some R →
      t.runtimes = Function.update s.runtimes k R → t.runtimes name = s.runtimes name ∨
        ∃ l', (s.runtimes name).step l' = some (t.runtimes name) := by
    intro k R l' hR heq
    by_cases hn : name = k
    · subst hn
      exact .inr ⟨l', by rw [heq, Function.update_self, hR]⟩
    · exact .inl (by rw [heq, Function.update_of_ne hn])
  cases l with
  | exec env label =>
    simp only [step] at h
    split at h
    · obtain ⟨exec, -, rfl⟩ := Option.map_eq_some_iff.mp h
      exact .inl rfl
    · cases h
  | submit k freshId manifest =>
    obtain ⟨cue', sessionId, answer, R, hs⟩ := submits_of_step hi h
    exact hgoes hs.stepped (by rw [hs.eq]; rfl)
  | runtime k label =>
    simp only [step] at h
    split at h
    · obtain ⟨R, hR, rfl⟩ := Option.map_eq_some_iff.mp h
      obtain ⟨rpcs, heq, -⟩ := (s.goOn k R).respond_eq k label
      exact hgoes hR (by rw [heq]; rfl)
    · cases h
  | lose k message =>
    simp only [step] at h
    split at h <;> cases h
    exact .inl rfl
  | readRecord k =>
    obtain ⟨cue', -, h⟩ := Option.bind_eq_some_iff.mp h
    split at h
    · obtain ⟨r, -, rfl⟩ := Option.map_eq_some_iff.mp h
      exact .inl rfl
    · cases h
  | loseRecord k message =>
    simp only [step] at h
    split at h <;> cases h
    exact .inl rfl

/-! ## Whole runs -/

omit [BEq V] in
theorem Kept.frame {i : Nat} {cue : Cue V} (h : Kept s i cue) (hf : Frame s t i cue) :
    Kept t i cue where
  known := by
    intro name c hc
    rw [hf.requestId, (hf.runtimes name).commandOf] at hc
    rw [hf.host, hf.served]
    exact h.known name c hc
  executed := by
    intro name c
    rw [hf.requestId, (hf.runtimes name).executed, hf.host, hf.served]
    exact h.executed name c
  record := by
    intro c hc
    rw [hf.served] at hc
    obtain ⟨r, hr, hq, hcontent⟩ := h.record c hc
    obtain ⟨r', hr', hle⟩ := (hf.runtimes _).later c r hr
    rw [hf.host, hf.requestId]
    exact ⟨r', hr', hle.requestId.trans hq, hle.fingerprint.trans hcontent⟩

/-- The Cue's own submission. -/
theorem Kept.submits {i : Nat} {cue : Cue V} (h : Kept s i cue) {freshId : CommandId}
    {manifest : TargetManifest} {sessionId : String}
    {answer : Except Fault DeviceRuntime.SubmitAnswer} {R : DeviceRuntime V}
    (hs : Submits s i freshId manifest t cue sessionId answer R) : Kept t i cue := by
  have hrpc : t.rpcs i = (s.rpcs i).told R answer := by
    rw [hs.eq]
    exact Function.update_self ..
  have hhere : t.runtimes (s.host cue.runtime) = R := by
    rw [hs.eq]
    exact Function.update_self ..
  have hthere : ∀ name, name ≠ s.host cue.runtime → t.runtimes name = s.runtimes name := by
    intro name hname
    rw [hs.eq]
    exact Function.update_of_ne hname _ _
  have hexec : t.exec = s.exec := by
    rw [hs.eq]
    rfl
  have hhost : t.host = s.host := by
    rw [hs.eq]
    rfl
  have hbefore : ∀ name c, (s.exec.requestId cue, c) ∉ (s.runtimes name).executed := by
    intro name c hc
    have haccepted := ((h.executed name c).mp hc).2
    rw [hs.waiting] at haccepted
    cases haccepted
  have hserves := hs.serves
  refine ⟨?_, ?_, ?_⟩
  · intro name c hc
    rw [hexec] at hc
    by_cases hname : name = s.host cue.runtime
    · refine ⟨by rw [hhost, hname], ?_⟩
      rw [hrpc]
      cases hserves <;> nofun
    · rw [hthere name hname] at hc
      exact absurd (h.known name c hc).1 hname
  · intro name c
    rw [hexec, hhost, hrpc]
    by_cases hname : name = s.host cue.runtime
    · subst hname
      rw [hhere]
      cases hserves with
      | refused e _ hsame =>
        rw [hsame]
        refine iff_of_false (hbefore _ c) ?_
        rintro ⟨-, hc⟩
        cases hc
      | accepted _ r hsame _ _ _ =>
        rw [hsame, List.mem_append, List.mem_singleton]
        refine Iff.intro ?_ ?_
        · rintro (hc | hc)
          · exact absurd hc (hbefore _ c)
          · cases hc
            exact ⟨rfl, rfl⟩
        · rintro ⟨-, hc⟩
          cases hc
          exact .inr rfl
    · rw [hthere name hname]
      exact iff_of_false (hbefore name c) fun hc => hname hc.1
  · intro c hc
    rw [hrpc] at hc
    rw [hexec, hhost, hhere]
    cases hserves with
    | refused e _ _ => cases hc
    | accepted _ r _ hr hq hcontent =>
      cases hc
      exact ⟨r, hr, hq, hcontent⟩

omit [BEq V] in
theorem DeviceInv.init {timeline : Timeline V} (h : validateTimeline timeline = [])
    (clients : List String) (runId : String) (host : String → String) (boots : String → Boot) :
    DeviceInv (init timeline clients runId host boots) where
  credit := .init h clients runId host
  owner := fun name => .init ..
  submit := fun name => ⟨List.nodup_nil, nofun, nofun⟩
  kept := by
    intro i cue _
    refine ⟨?_, ?_, ?_⟩
    · intro name c hc
      cases hc
    · intro name c
      refine iff_of_false (fun hc => ?_) (fun hc => ?_)
      · cases hc
      · cases hc.2
    · intro c hc
      cases hc

theorem DeviceInv.step (hi : DeviceInv s) {l : DeviceLabel V} (h : s.step l = some t) :
    DeviceInv t where
  credit := hi.credit.reachable (step_network hi h)
  owner := by
    intro name
    rcases step_runtimes hi h name with heq | ⟨l', hl'⟩
    · rw [heq]
      exact hi.owner name
    · exact (hi.owner name).step hl'
  submit := by
    intro name
    rcases step_runtimes hi h name with heq | ⟨l', hl'⟩
    · rw [heq]
      exact hi.submit name
    · exact (hi.submit name).step (hi.owner name) hl'
  kept := by
    intro i cue hcue
    rw [(step_static h).1] at hcue
    have hkept := hi.kept i cue hcue
    rcases step_frame hi h hcue with hf | ⟨freshId, manifest, sessionId, answer, R, -, hs⟩
    · exact hkept.frame hf
    · exact hkept.submits hs

theorem DeviceInv.reachable (hi : DeviceInv s) (hs : Reachable DeviceNetwork.step s t) :
    DeviceInv t :=
  hs.invariant hi fun _ _ _ hi hstep => hi.step hstep

omit [BEq V] in
theorem request_of_static {runId : String} (h : s.exec.runId = runId) (cue : Cue V) :
    s!"{runId}:{cue.cueId}" = s.exec.requestId cue := by
  rw [Execution.requestId, h]

/-- A run keeps the invariant, and stays about one timeline. -/
theorem reachable_init {timeline : Timeline V} (hvalid : validateTimeline timeline = [])
    (clients : List String) (runId : String) (host : String → String) (boots : String → Boot)
    (hs : Reachable DeviceNetwork.step (init timeline clients runId host boots) s) :
    DeviceInv s ∧ s.exec.timeline = timeline ∧ s.exec.runId = runId ∧ s.host = host := by
  refine ⟨(DeviceInv.init hvalid clients runId host boots).reachable hs, ?_⟩
  refine hs.invariant (I := fun u => u.exec.timeline = timeline ∧ u.exec.runId = runId ∧
    u.host = host) ⟨rfl, rfl, rfl⟩ ?_
  rintro u l v ⟨htimeline, hrun, hhost⟩ hstep
  obtain ⟨htimeline', hrun', hhost'⟩ := step_static hstep
  exact ⟨htimeline'.trans htimeline, hrun'.trans hrun, hhost'.trans hhost⟩

/-- A lamp that fades once the motor has moved. -/
def chain : Timeline Int :=
  ⟨[⟨"a", 0, "motor", "motor01", "move", .empty, .acknowledged, [], .default⟩,
    ⟨"b", 0, "lamp", "lamp01", "move", .empty, .acknowledged, ["a"], .default⟩]⟩

/-- A Runtime with one target. -/
def chainBoots (name : String) : Boot := ⟨name, "boot1", 0, [name ++ "01"], false⟩

/-- Two Cues on two Runtimes, the second after the first. -/
def chainNetwork : DeviceNetwork Int :=
  init chain ["motor", "lamp"] "run-1" (fun client => client) chainBoots

/-- Up to where the motor's Cue has succeeded and the lamp's is submitted. -/
def chainMoved : List (DeviceLabel Int) :=
  [.runtime "motor" (.acquireControlSession "op" .manual none "cs1"),
    .runtime "lamp" (.acquireControlSession "op" .manual none "cs2"),
    .exec TimelineNetwork.duoStart .begin, .exec TimelineNetwork.duoStart (.snapshot (.ok 0)),
    .exec TimelineNetwork.duoStart (.snapshot (.ok 0)), .exec TimelineNetwork.duoStart (.cue 0),
    .submit 0 "c1" (fakeMotor "motor01"), .runtime "motor" (.executeReturned "c1"),
    .exec TimelineNetwork.duoStart (.submitAnswered 0 (.ok ("c1", .terminal .succeeded))),
    .exec TimelineNetwork.duoStart (.cue 1)]

omit [BEq V] in
/-- The command that succeeded behind a dependency was executed. -/
theorem DeviceInv.succeeded (hi : DeviceInv s) {d : String} (h : s.exec.succeeded d = true) :
    ∃ (j : Nat) (cue : Cue V) (c : CommandId) (r : CommandRecord V),
      s.exec.timeline.cues[j]? = some cue ∧ cue.cueId = d ∧
      (s.exec.requestId cue, c) ∈ (s.runtimes (s.host cue.runtime)).executed ∧
      (s.runtimes (s.host cue.runtime)).getCommand c = some r ∧
      r.fingerprint = cue.fingerprint ∧ r.status = .terminal ∧ r.outcome = some .succeeded := by
  obtain ⟨j, cue, c, hcue, hid, -, hserved, hdone⟩ := hi.credit.succeeded h
  have hcue : s.exec.timeline.cues[j]? = some cue := hcue
  have hserved : (s.rpcs j).served = .accepted c := hserved
  have hkept := hi.kept j cue hcue
  obtain ⟨r, hr, -, hcontent⟩ := hkept.record c hserved
  have hview : ((s.runtimes (s.host cue.runtime)).getCommand c).map CommandRecord.view =
      some (.terminal .succeeded) := hdone
  rw [hr, Option.map_some] at hview
  obtain ⟨hterminal, houtcome⟩ := CommandRecord.view_terminal (Option.some.inj hview)
  exact ⟨j, cue, c, r, hcue, hid, (hkept.executed _ c).mpr ⟨rfl, hserved⟩, hr, hcontent,
    hterminal, houtcome⟩

/-- **Dependencies come first.** Whenever the command of a Cue reaches an
adapter, it does so on the Cue's own Runtime and for the first time, and the
command of each of its dependencies has succeeded, with the content of that
Cue, on the Runtime of that Cue. -/
theorem executes_after_dependencies {timeline : Timeline V}
    (hvalid : validateTimeline timeline = []) (clients : List String) (runId : String)
    (host : String → String) (boots : String → Boot)
    (hs : Reachable DeviceNetwork.step (init timeline clients runId host boots) s)
    {l : DeviceLabel V} (h : s.step l = some t) {i : Nat} {cue : Cue V}
    (hcue : timeline.cues[i]? = some cue) {name : String} {c : CommandId}
    (hold : (s!"{runId}:{cue.cueId}", c) ∉ (s.runtimes name).executed)
    (hnew : (s!"{runId}:{cue.cueId}", c) ∈ (t.runtimes name).executed) :
    name = host cue.runtime ∧
    (∀ name' c', (s!"{runId}:{cue.cueId}", c') ∉ (s.runtimes name').executed) ∧
    ∀ d ∈ cue.dependsOn, ∃ (j : Nat) (dep : Cue V) (c' : CommandId) (r : CommandRecord V),
      timeline.cues[j]? = some dep ∧ dep.cueId = d ∧
      (s!"{runId}:{dep.cueId}", c') ∈ (s.runtimes (host dep.runtime)).executed ∧
      (s.runtimes (host dep.runtime)).getCommand c' = some r ∧
      r.fingerprint = dep.fingerprint ∧ r.status = .terminal ∧ r.outcome = some .succeeded := by
  obtain ⟨hi, htimeline, hrun, hhost⟩ := reachable_init hvalid clients runId host boots hs
  rw [request_of_static hrun] at hold hnew ⊢
  rw [← htimeline] at hcue ⊢
  have hkept := hi.kept i cue hcue
  rcases step_frame hi h hcue with hf | ⟨freshId, manifest, sessionId, answer, R, -, hsub⟩
  · exact absurd (((hf.runtimes name).executed c).mp hnew) hold
  · have hexec : t.exec = s.exec := by
      rw [hsub.eq]
      rfl
    have hname := ((hkept.submits hsub).executed name c).mp (by rw [hexec]; exact hnew)
    have hthost : t.host = s.host := by
      rw [hsub.eq]
      rfl
    refine ⟨by rw [hname.1, hthost, hhost], ?_, ?_⟩
    · intro name' c' hc'
      have haccepted := ((hkept.executed name' c').mp hc').2
      rw [hsub.waiting] at haccepted
      cases haccepted
    · intro d hd
      have hsucceeded := hi.credit.calls.passed i cue hcue hsub.called d hd
      obtain ⟨j, dep, c', r, hdep, hid, hexecuted, hr, hcontent, hterminal, houtcome⟩ :=
        hi.succeeded hsucceeded
      rw [hhost] at hexecuted hr
      refine ⟨j, dep, c', r, hdep, hid, ?_, hr, hcontent, hterminal, houtcome⟩
      rw [request_of_static hrun]
      exact hexecuted

/-- The lamp's command is handed over after the motor's has succeeded. -/
theorem executes_after_dependencies_chain :
    ∃ s t, Reachable DeviceNetwork.step chainNetwork s ∧
      s.step (.submit 1 "c2" (fakeMotor "lamp01")) = some t ∧
      ("run-1:b", "c2") ∈ (t.runtimes "lamp").executed ∧
      ∃ c r, (s.runtimes "motor").getCommand c = some r ∧ r.status = .terminal ∧
        r.outcome = some .succeeded := by
  obtain ⟨s, hs, htest⟩ := exec_test DeviceNetwork.step chainNetwork chainMoved
    (fun s => !(s.runtimes "lamp").executed.contains ("run-1:b", "c2") &&
      (s.step (.submit 1 "c2" (fakeMotor "lamp01"))).any fun t =>
        (t.runtimes "lamp").executed.contains ("run-1:b", "c2"))
    (by decide +kernel)
  simp only [Bool.and_eq_true, Bool.not_eq_true', List.contains_eq_mem, decide_eq_false_iff_not,
    Option.any_eq_true, decide_eq_true_eq] at htest
  obtain ⟨hold, t, ht, hnew⟩ := htest
  have hvalid : validateTimeline chain = [] := by decide +kernel
  obtain ⟨-, -, hdeps⟩ := executes_after_dependencies hvalid ["motor", "lamp"] "run-1"
    (fun client => client) chainBoots hs ht (i := 1) rfl hold hnew
  obtain ⟨j, dep, c, r, hdep, hid, -, hr, -, hterminal, houtcome⟩ := hdeps "a" (by decide)
  have hmotor : ∀ dep ∈ chain.cues, dep.cueId = "a" → dep.runtime = "motor" := by decide
  have hmotor := hmotor dep (List.mem_of_getElem? hdep) hid
  rw [hmotor] at hr
  exact ⟨s, t, hs, ht, hnew, c, r, hr, hterminal, houtcome⟩

/-- **Outcomes and executions.** A Cue with an outcome was given to no
adapter, and is SKIPPED or FAILED; or it was given to its own Runtime's
adapter once and to no other, and its outcome is UNKNOWN or what that command
came to. -/
theorem outcome_of_execution {timeline : Timeline V}
    (hvalid : validateTimeline timeline = []) (clients : List String) (runId : String)
    (host : String → String) (boots : String → Boot)
    (hs : Reachable DeviceNetwork.step (init timeline clients runId host boots) s)
    {i : Nat} {cue : Cue V} (hcue : timeline.cues[i]? = some cue) {o : CueOutcome}
    (ho : s.exec.outcomes.get cue.cueId = some o) :
    (∀ name c, (s!"{runId}:{cue.cueId}", c) ∉ (s.runtimes name).executed) ∧
      (o.outcome = "SKIPPED" ∨ o.outcome = "FAILED") ∨
    ∃ (c : CommandId) (r : CommandRecord V),
      (∀ name c', (s.runtimes name).executed.count (s!"{runId}:{cue.cueId}", c') =
        if name = host cue.runtime ∧ c' = c then 1 else 0) ∧
      (s.runtimes (host cue.runtime)).getCommand c = some r ∧ r.fingerprint = cue.fingerprint ∧
      (o.outcome = "UNKNOWN" ∨ ∃ outcome, r.status = .terminal ∧ r.outcome = some outcome ∧
        o.outcome = outcome.value) := by
  obtain ⟨hi, htimeline, hrun, hhost⟩ := reachable_init hvalid clients runId host boots hs
  rw [request_of_static hrun]
  rw [← htimeline] at hcue
  have hkept := hi.kept i cue hcue
  have htracked := hi.credit.net.tracked i cue hcue
  have hunserved : ∀ {served}, (s.rpcs i).served = served → (∀ c, served ≠ .accepted c) →
      ∀ name c, (s.exec.requestId cue, c) ∉ (s.runtimes name).executed := by
    intro served hserved hno name c hc
    exact hno c (hserved.symm.trans ((hkept.executed name c).mp hc).2)
  by_cases hcalled : i ∈ s.exec.calls
  · rcases (hi.credit.credits i cue hcue).outcome o hcalled ho with
      ⟨hrefused, hv⟩ | ⟨c, hserved, hv⟩
    · exact .inl ⟨hunserved hrefused nofun, .inr hv⟩
    · have hserved : (s.rpcs i).served = .accepted c := hserved
      obtain ⟨r, hr, -, hcontent⟩ := hkept.record c hserved
      refine .inr ⟨c, r, ?_, by rw [← hhost]; exact hr, hcontent, hv.imp_right ?_⟩
      · intro name c'
        rw [List.Nodup.count (hi.submit name).once.of_map]
        refine if_congr ?_ rfl rfl
        rw [hkept.executed, hserved, hhost]
        refine and_congr_right' ⟨?_, ?_⟩
        · intro heq
          cases heq
          rfl
        · rintro rfl
          rfl
      · rintro ⟨outcome, hdone, hvalue⟩
        have hview : ((s.runtimes (s.host cue.runtime)).getCommand c).map CommandRecord.view =
            some (.terminal outcome) := hdone
        rw [hr, Option.map_some] at hview
        obtain ⟨hterminal, houtcome⟩ := CommandRecord.view_terminal (Option.some.inj hview)
        exact ⟨outcome, hterminal, houtcome, hvalue⟩
  · have hwaiting : (s.rpcs i).served = .waiting := by
      by_contra hserved
      exact hcalled (htracked.called hserved)
    exact .inl ⟨hunserved hwaiting nofun,
      (hi.credit.net.gate.passed i).uncalled cue o hcue hcalled ho⟩

/-- The motor's Cue, once it has succeeded. -/
theorem outcome_of_execution_motor :
    ∃ s, Reachable DeviceNetwork.step chainNetwork s ∧
      (s.exec.outcomes.get "a").isSome = true ∧
      (s.runtimes "motor").executed.count ("run-1:a", "c1") = 1 := by
  obtain ⟨s, hs, htest⟩ := exec_test DeviceNetwork.step chainNetwork chainMoved
    (fun s => (s.exec.outcomes.get "a").isSome &&
      (s.runtimes "motor").executed.contains ("run-1:a", "c1")) (by decide +kernel)
  simp only [Bool.and_eq_true, List.contains_eq_mem, decide_eq_true_eq] at htest
  obtain ⟨ho, hexecuted⟩ := htest
  obtain ⟨o, hoa⟩ := Option.isSome_iff_exists.mp ho
  have hvalid : validateTimeline chain = [] := by decide +kernel
  refine ⟨s, hs, ho, ?_⟩
  rcases outcome_of_execution hvalid ["motor", "lamp"] "run-1" (fun client => client) chainBoots hs
    (i := 0) rfl hoa with ⟨hnone, -⟩ | ⟨c, r, hcount, -⟩
  · exact absurd hexecuted (hnone "motor" "c1")
  · have hpos : 0 < (s.runtimes "motor").executed.count ("run-1:a", "c1") :=
      List.count_pos_iff.mpr hexecuted
    have hcount : (s.runtimes "motor").executed.count ("run-1:a", "c1") =
        if "motor" = "motor" ∧ "c1" = c then 1 else 0 := hcount "motor" "c1"
    split at hcount
    · exact hcount
    · exact absurd hcount hpos.ne'

end DeviceNetwork

end Fusion
