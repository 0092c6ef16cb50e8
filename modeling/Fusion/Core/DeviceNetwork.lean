import Fusion.Core.CueCredit
import Fusion.Core.Drivers
import Fusion.Core.Submission

/-!
# DeviceNetwork — a run on its device Runtimes

The network of a run with whole Runtimes in it: a Cue's `submit_command` is
served by the Runtime's own, and the response says of the record what it says
when the call returns. It refines `TimelineNetwork`, whose Runtimes are what
clients see of them; what the Runtimes' ledgers add is which commands the
adapters were given. Other callers use the same Runtimes, under request ids
of their own. For the Cues' own submissions the adapter's `manifest` does not
raise, so that only the Runtime's rejections refuse them.
-/

namespace Fusion

open Transition

variable {V : Type}

/-- A Runtime as it is started. -/
structure Boot where
  runtimeId : String
  runtimeBootId : String
  now : ℚ
  targets : List String
  customGuard : Bool

/-- The Runtime at its start. -/
def Boot.start (b : Boot) : DeviceRuntime V :=
  .init b.runtimeId b.runtimeBootId b.now b.targets b.customGuard

/-- A run, the Runtimes of its clients, and the calls between them. -/
structure DeviceNetwork (V : Type) where
  exec : Execution V
  /-- the Runtime behind a client's name -/
  host : String → String
  runtimes : String → DeviceRuntime V
  /-- every command id in use, and the Runtime that made it -/
  made : CommandId → Option String
  /-- the sequence number up to which a client's listener has the events -/
  delivered : String → Nat
  rpcs : Nat → Rpc

/-- A move of the run, of a call or of a Runtime. -/
inductive DeviceLabel (V : Type)
  | exec (env : Env) (label : Execution.ExecLabel)
  /-- the Runtime serves the `submit_command` of a Cue, up to its return or
  its suspension in the adapter; `manifest` is what the adapter declares -/
  | submit (i : Nat) (freshId : CommandId) (manifest : TargetManifest)
  /-- a Runtime goes on, with these and other commands -/
  | runtime (name : String) (label : DeviceRuntime.RuntimeLabel V)
  /-- `submit_command` raises another error than a `RuntimeCommandError` -/
  | lose (i : Nat) (message : String)
  /-- the Runtime answers `get_command` -/
  | readRecord (i : Nat)
  | loseRecord (i : Nat) (message : String)

/-- What the handler's answer makes of a Cue's request: a rejection arrives as
a `RuntimeCommandError`, any other exception, which only `manifest` could
raise, as another error. -/
def Rpc.told (rpc : Rpc) (runtime : DeviceRuntime V) :
    Except Fault DeviceRuntime.SubmitAnswer → Rpc
  | .ok (.suspended c) => { rpc with served := .accepted c }
  | .ok (.returned c) =>
      { rpc with
        served := .accepted c
        answer := rpc.answer.or ((runtime.getCommand c).map fun r => .ok (c, r.view)) }
  | .error (.fusion e) =>
      { rpc with
        served := .refused
        answer := rpc.answer.or (some (.error (.command e.message))) }
  | .error (.other message) =>
      { rpc with
        served := .refused
        answer := rpc.answer.or (some (.error (.other message))) }

/-- The request id of a Cue, in this run. -/
def Execution.requestId (s : Execution V) (cue : Cue V) : String := s!"{s.runId}:{cue.cueId}"

namespace DeviceNetwork

/-- A run that has not begun, and Runtimes at their start. -/
def init (timeline : Timeline V) (clients : List String) (runId : String)
    (host : String → String) (boots : String → Boot) : DeviceNetwork V where
  exec := .init timeline clients runId
  host := host
  runtimes := fun name => (boots name).start
  made := fun _ => none
  delivered := fun _ => 0
  rpcs := fun _ => ⟨.waiting, none, none⟩

/-- The network as the clients see it. -/
def network (s : DeviceNetwork V) : TimelineNetwork V where
  exec := s.exec
  host := s.host
  remotes := fun name => (s.runtimes name).remote
  made := s.made
  delivered := s.delivered
  rpcs := s.rpcs

/-- Where the calls of the Cue of position `i` are. -/
def setRpc (s : DeviceNetwork V) (i : Nat) (rpc : Rpc) : DeviceNetwork V :=
  { s with rpcs := Function.update s.rpcs i rpc }

/-- A Runtime has gone on; the commands it has are its own. -/
def goOn (s : DeviceNetwork V) (name : String) (runtime : DeviceRuntime V) : DeviceNetwork V :=
  { s with
    runtimes := Function.update s.runtimes name runtime
    made := fun c => if (runtime.getCommand c).isSome then some name else s.made c }

/-- The call of `submit_command` that a Cue's task has made. -/
def callOf (s : DeviceNetwork V) (i : Nat) : Option (SubmitCall V) :=
  s.exec.submitted.find? fun call => call.index = i

/-- The Cue whose command this is. -/
def caller (s : DeviceNetwork V) (c : CommandId) : Option Nat :=
  s.exec.positions.find? fun i => (s.rpcs i).served = .accepted c

/-- A `submit_command` that returns to a Cue's task answers with the record. -/
def respond (s : DeviceNetwork V) (name : String) :
    DeviceRuntime.RuntimeLabel V → DeviceNetwork V
  | .executeReturned c | .executeRaised c _ =>
      match s.caller c, (s.runtimes name).getCommand c with
      | some i, some r =>
          s.setRpc i { s.rpcs i with answer := (s.rpcs i).answer.or (some (.ok (c, r.view))) }
      | _, _ => s
  | _ => s

/-- A submission of another caller: its request id is none of this run's, and
its command id was never used. -/
def others (s : DeviceNetwork V) : DeviceRuntime.RuntimeLabel V → Bool
  | .submitCommand req freshId _ =>
      s.made freshId = none &&
        s.exec.timeline.cues.all fun cue => req.requestId ≠ s.exec.requestId cue
  | _ => true

variable [BEq V]

/-- One move. -/
def step (s : DeviceNetwork V) : DeviceLabel V → Option (DeviceNetwork V)
  | .exec env label =>
      if s.network.offers label then
        (s.exec.step env label).map fun exec =>
          { s with exec := exec, delivered := s.network.deliveredAfter label }
      else none
  | .submit i freshId manifest =>
      (s.callOf i).bind fun call =>
        if (s.rpcs i).served = .waiting ∧ s.made freshId = none then
          let name := s.host call.runtime
          let out := (s.runtimes name).submitCommand call.request freshId (.ok manifest)
          some ((s.goOn name out.2).setRpc i ((s.rpcs i).told out.2 out.1))
        else none
  | .runtime name label =>
      if s.others label then
        ((s.runtimes name).step label).map fun runtime => (s.goOn name runtime).respond name label
      else none
  | .lose i message =>
      if (s.exec.tasks i).pc = .submitting then
        some (s.setRpc i { s.rpcs i with answer := some (.error (.other message)) })
      else none
  | .readRecord i =>
      s.exec.timeline.cues[i]?.bind fun cue =>
        match (s.exec.tasks i).pc, (s.rpcs i).record with
        | .rechecking c, none =>
            ((s.runtimes (s.host cue.runtime)).getCommand c).map fun r =>
              s.setRpc i { s.rpcs i with record := some (.ok r.view) }
        | _, _ => none
  | .loseRecord i message =>
      match (s.exec.tasks i).pc with
      | .rechecking _ => some (s.setRpc i { s.rpcs i with record := some (.error message) })
      | _ => none

end DeviceNetwork

/-! ## Runs of one Runtime, in the network -/

theorem Remote.later_reachable {r r' : Remote} (h : Reachable Remote.step r r') : r.Later r' :=
  h.relates (I := fun _ => True) (R := Remote.Later) .refl
    (fun _ _ _ h h' => ⟨fun c hc => h'.known c (h.known c hc),
      fun c outcome hc => h'.finished c outcome (h.finished c outcome hc), h.log.trans h'.log⟩)
    (fun _ _ _ _ _ => trivial) (fun _ _ _ _ hs => Remote.later_step hs) trivial

/-- A command that is there after a run was made at one step of it. -/
theorem Remote.made_within {r r' : Remote} (h : Reachable Remote.step r r') {c : CommandId}
    (hold : r.commands c = none) (hnew : r'.commands c ≠ none) :
    ∃ u v, Reachable Remote.step r u ∧ u.step (.begins c) = some v ∧
      Reachable Remote.step v r' := by
  obtain ⟨xs, run⟩ := h
  induction run with
  | nil => exact absurd hold hnew
  | @snoc xs x run ih =>
    by_cases hbefore : x.src.commands c = none
    · have hl := Remote.begins_of_new x.fired hbefore hnew
      exact ⟨x.src, x.dst, run.reachable, hl ▸ x.fired, .refl⟩
    · obtain ⟨u, v, hu, hs, hv⟩ := ih hbefore
      exact ⟨u, v, hu, hs, hv.tail x.fired⟩

namespace TimelineNetwork

variable {s : TimelineNetwork V} {name : String} {r r' : Remote}

/-- A Runtime has gone on to `r`, and the commands it has are its own. -/
def evolved (s : TimelineNetwork V) (name : String) (r : Remote) : TimelineNetwork V :=
  { s with
    remotes := Function.update s.remotes name r
    made := fun c => if r.commands c = none then s.made c else some name }

theorem evolved_self (hi : NetInv s) : s.evolved name (s.remotes name) = s := by
  have hmade : (fun c => if (s.remotes name).commands c = none then s.made c else some name)
      = s.made := by
    funext c
    split
    · rfl
    · rename_i hc
      exact (hi.made name c hc).symm
  rw [evolved, hmade, Function.update_eq_self]

theorem evolved_evolved (hl : r.Later r') : (s.evolved name r).evolved name r' =
    s.evolved name r' := by
  simp only [evolved, Function.update_idem]
  congr 1
  funext c
  by_cases hc' : r'.commands c = none
  · have hc : r.commands c = none := by
      by_contra hc
      exact hl.known c hc hc'
    simp [hc, hc']
  · simp [hc']

/-- A step of one Runtime, of a command that is new to all. -/
theorem evolve_evolved (hi : NetInv s) {l : RemoteLabel} (h : (s.remotes name).step l = some r)
    (hnew : ∀ c, l = .begins c → s.made c = none) :
    s.evolve name l = some (s.evolved name r) := by
  have hmade : ∀ c, r.commands c ≠ none → l = .begins c ∨ s.made c = some name := by
    intro c hc
    by_cases hold : (s.remotes name).commands c = none
    · exact .inl (Remote.begins_of_new h hold hc)
    · exact .inr (hi.made name c hold)
  cases l with
  | begins c =>
    simp only [evolve, hnew c rfl, if_true, h, Option.map_some, evolved]
    congr 2
    funext c'
    by_cases hc : c' = c
    · subst hc
      simp [Remote.commands_begins h]
    · rw [Function.update_of_ne hc]
      split
      · rfl
      · rename_i hknown
        rcases hmade c' hknown with heq | hm
        · cases heq
          exact absurd rfl hc
        · exact hm
  | finishes c outcome | publishes =>
    simp only [evolve, h, Option.map_some, evolved]
    congr 2
    funext c'
    split
    · rfl
    · rename_i hknown
      rcases hmade c' hknown with heq | hm
      · cases heq
      · exact hm

/-- **A run of one Runtime is a run of the network**, if the commands it makes
are new to all. -/
theorem evolved_reachable (hi : NetInv s) (h : Reachable Remote.step (s.remotes name) r)
    (hnew : ∀ c, (s.remotes name).commands c = none → r.commands c ≠ none → s.made c = none) :
    Reachable TimelineNetwork.step s (s.evolved name r) := by
  obtain ⟨xs, run⟩ := h
  induction run with
  | nil =>
    rw [evolved_self hi]
    exact .refl
  | @snoc xs x run ih =>
    have hlater := Remote.later_step x.fired
    have hmid : Reachable TimelineNetwork.step s (s.evolved name x.src) :=
      ih fun c hold hc => hnew c hold (hlater.known c hc)
    have hi' : NetInv (s.evolved name x.src) :=
      hmid.invariant hi fun _ _ _ hi hs => hi.step hs
    refine hmid.tail (l := .remote name x.label) ?_
    show (s.evolved name x.src).evolve name x.label = _
    have hdst : (s.evolved name x.src).evolved name x.dst = s.evolved name x.dst :=
      evolved_evolved hlater
    rw [← hdst]
    refine evolve_evolved hi' ?_ ?_
    · show (Function.update s.remotes name x.src name).step x.label = _
      rw [Function.update_self]
      exact x.fired
    · -- the command was not there before the step, nor at the start
      intro c hl
      have hfired := x.fired
      rw [hl, Remote.step] at hfired
      split at hfired
      · rename_i hsrc
        have hfirst : (s.remotes name).commands c = none := by
          by_contra hknown
          exact (Remote.later_reachable run.reachable).known c hknown hsrc
        have hdst : x.dst.commands c ≠ none := by
          rw [Remote.commands_begins (hl ▸ x.fired)]
          exact Option.some_ne_none _
        show (if x.src.commands c = none then s.made c else some name) = none
        rw [if_pos hsrc]
        exact hnew c hfirst hdst
      · cases hfired

end TimelineNetwork

/-! ## One request on one Runtime -/

namespace DeviceRuntime

variable [BEq V] {s t : DeviceRuntime V} {l : RuntimeLabel V}

omit [BEq V] in
theorem commands_eq_none {c : CommandId} :
    s.remote.commands c = none ↔ s.getCommand c = none := by
  simp [remote]

/-- A step that is no submission makes no command. -/
theorem step_known (h : OwnerInv s) (hl : ∀ req freshId manifest,
    l ≠ .submitCommand req freshId manifest) (hs : s.step l = some t) {c : CommandId}
    (hc : s.getCommand c = none) : t.getCommand c = none := by
  rcases l.kinds with hnone | ⟨req, freshId, manifest, rfl⟩ | ⟨c', htask⟩
  · rw [getCommand, (step_sparesCommands hnone hs).ledger]
    exact hc
  · exact absurd rfl (hl req freshId manifest)
  · obtain ⟨task, r, -, hr, rfl, -, hand⟩ := step_handover h htask hs
    have hne : c ≠ r.commandId := by
      rintro rfl
      rw [hc] at hr
      cases hr
    rw [hand.records hne, hc]

theorem step_executed (hl : ∀ req freshId manifest, l ≠ .submitCommand req freshId manifest)
    (hs : s.step l = some t) : t.executed = s.executed := by
  cases l with
  | submitCommand req freshId manifest => exact absurd rfl (hl req freshId manifest)
  | executeReturned c =>
    simp only [DeviceRuntime.step] at hs
    split at hs
    · split at hs <;> cases hs
      exact (executeReturned_histories ..).1
    · cases hs
  | executeRaised c message =>
    simp only [DeviceRuntime.step] at hs
    split at hs
    · split at hs <;> cases hs
      rfl
    · cases hs
  | observe c complete =>
    simp only [DeviceRuntime.step] at hs
    split at hs
    · exact (observe_histories hs).1
    · cases hs
  | cancel c =>
    simp only [DeviceRuntime.step] at hs
    split at hs <;> cases hs
    exact (cancel_histories ..).1
  | _ => exact (step_sparesCommands rfl hs).executed

/-- What a step of a Runtime leaves of the request `q`: records go on, and
nothing is entered or executed under it. -/
structure Untouched (s t : DeviceRuntime V) (q : String) : Prop where
  later : Later s t
  commandOf : t.commandOf q = s.commandOf q
  executed : ∀ c, (q, c) ∈ t.executed ↔ (q, c) ∈ s.executed

omit [BEq V] in
theorem Untouched.refl (s : DeviceRuntime V) (q : String) : Untouched s s q :=
  ⟨.refl s, rfl, fun _ => .rfl⟩

omit [BEq V] in
/-- The entries of a ledger are those of its records. -/
theorem commandOf_of_known (h : OwnerInv s) (ht : OwnerInv t) (hlater : Later s t)
    (hknown : ∀ c, s.getCommand c = none → t.getCommand c = none) (q : String) :
    t.commandOf q = s.commandOf q := by
  have hforward : ∀ c, t.commandOf q = some c → s.commandOf q = some c := by
    intro c hc
    obtain ⟨e, he, rfl⟩ := Option.map_eq_some_iff.mp hc
    obtain ⟨r, hr, rfl, -⟩ := ht.ledger.entries q e he
    obtain ⟨r₀, hr₀⟩ : ∃ r₀, s.getCommand e.commandId = some r₀ := by
      cases hold : s.getCommand e.commandId with
      | some r₀ => exact ⟨r₀, rfl⟩
      | none =>
        have hnone := hknown _ hold
        rw [getCommand, hr] at hnone
        cases hnone
    obtain ⟨r', hr', hle⟩ := hlater _ r₀ hr₀
    obtain rfl : r' = r := Option.some.inj (hr'.symm.trans hr)
    obtain ⟨e₀, he₀, hid⟩ := h.ledger.recorded _ r₀ hr₀
    simp [commandOf, hle.requestId, he₀, hid]
  cases htq : t.commandOf q with
  | some c => exact (hforward c htq).symm
  | none =>
    cases hsq : s.commandOf q with
    | none => rfl
    | some c =>
      -- a record is still there, and so is its entry
      obtain ⟨e, he, rfl⟩ := Option.map_eq_some_iff.mp hsq
      obtain ⟨r₀, hr₀, rfl, -⟩ := h.ledger.entries q e he
      obtain ⟨r', hr', hle⟩ := hlater _ r₀ hr₀
      obtain ⟨e', he', -⟩ := ht.ledger.recorded _ r' hr'
      rw [hle.requestId] at he'
      simp [commandOf, he'] at htq

theorem submitCommand_commandOf (s : DeviceRuntime V) (req : CommandSubmitRequest V)
    (freshId : CommandId) (manifest : Except Fault TargetManifest) {q : String}
    (hq : req.requestId ≠ q) :
    (s.submitCommand req freshId manifest).2.commandOf q = s.commandOf q := by
  have hout := submitCommand_cases s req freshId manifest
  generalize s.submitCommand req freshId manifest = answer at hout
  cases hout with
  | refused e sessions => rfl
  | existing entry _ _ => rfl
  | faulted _ r _ _ | rejected _ r _ _ | accepted _ _ r _ _ _ _ =>
    exact congrArg _ (Dict.get_set_ne _ _ hq)

/-- **A step under another request id leaves a request alone.** -/
theorem step_untouched (h : OwnerInv s) (hs : s.step l = some t) {q : String}
    (hq : ∀ req freshId manifest, l = .submitCommand req freshId manifest → req.requestId ≠ q) :
    Untouched s t q := by
  have hlater := (step_moves h hs).effects.later
  by_cases hl : ∃ req freshId manifest, l = .submitCommand req freshId manifest
  · obtain ⟨req, freshId, manifest, rfl⟩ := hl
    have hne := hq req freshId manifest rfl
    simp only [DeviceRuntime.step] at hs
    split at hs <;> cases hs
    refine ⟨hlater, submitCommand_commandOf s req freshId manifest hne, ?_⟩
    intro c
    have hout := submitCommand_cases s req freshId manifest
    generalize s.submitCommand req freshId manifest = answer at hout
    cases hout with
    | accepted runner generation r made _ _ _ =>
      have hne' : q ≠ r.requestId := by
        rw [made.requestId]
        exact hne.symm
      simp [hne']
    | _ => exact .rfl
  · have hno : ∀ req freshId manifest, l ≠ .submitCommand req freshId manifest :=
      fun req freshId manifest he => hl ⟨req, freshId, manifest, he⟩
    refine ⟨hlater, ?_, ?_⟩
    · exact commandOf_of_known h (h.step hs) hlater (fun c => step_known h hno hs) q
    · rw [step_executed hno hs]
      exact fun _ => .rfl

end DeviceRuntime

/-! ## The refinement -/

/-- What a Cue asks of its target, as the ledger compares it. -/
def Cue.fingerprint (cue : Cue V) : Fingerprint V where
  targetId := cue.targetId
  action := cue.action
  params := cue.params.sortedItems
  completionRequirement := cue.completionRequirement

namespace DeviceNetwork

variable [BEq V] {s t : DeviceNetwork V} {name : String} {runtime : DeviceRuntime V}
  {l : DeviceRuntime.RuntimeLabel V}

/-- The Runtimes know of a Cue's request what the Cue's own Runtime did about
it, and nothing before. -/
structure Kept (s : DeviceNetwork V) (i : Nat) (cue : Cue V) : Prop where
  known : ∀ name c, (s.runtimes name).commandOf (s.exec.requestId cue) = some c →
    name = s.host cue.runtime ∧ (s.rpcs i).served ≠ .waiting
  executed : ∀ name c, (s.exec.requestId cue, c) ∈ (s.runtimes name).executed ↔
    name = s.host cue.runtime ∧ (s.rpcs i).served = .accepted c
  record : ∀ c, (s.rpcs i).served = .accepted c →
    ∃ r, (s.runtimes (s.host cue.runtime)).getCommand c = some r ∧
      r.requestId = s.exec.requestId cue ∧ r.fingerprint = cue.fingerprint

/-- **The device invariant.** -/
structure DeviceInv (s : DeviceNetwork V) : Prop where
  credit : s.network.CreditInv
  owner : ∀ name, (s.runtimes name).OwnerInv
  submit : ∀ name, (s.runtimes name).SubmitInv
  kept : ∀ i cue, s.exec.timeline.cues[i]? = some cue → Kept s i cue

omit [BEq V] in
theorem network_goOn (s : DeviceNetwork V) (name : String) (runtime : DeviceRuntime V) :
    (s.goOn name runtime).network = s.network.evolved name runtime.remote := by
  simp only [network, goOn, TimelineNetwork.evolved]
  congr 1
  · funext n
    by_cases hn : n = name
    · subst hn
      simp
    · simp [hn]
  · funext c
    cases hc : runtime.getCommand c with
    | none => simp [DeviceRuntime.remote, hc]
    | some r => simp [DeviceRuntime.remote, hc]

omit [BEq V] in
/-- A command of a Runtime was made there. -/
theorem made_of_known (hnet : s.network.NetInv) {c : CommandId}
    (hc : (s.runtimes name).getCommand c ≠ none) : s.made c = some name :=
  hnet.made name c (fun hnone => hc (DeviceRuntime.commands_eq_none.mp hnone))

/-- The command that a Runtime makes in a step is new to all. -/
theorem fresh_of_new (howner : (s.runtimes name).OwnerInv)
    (hs : (s.runtimes name).step l = some runtime)
    (hnew : ∀ req freshId manifest, l = .submitCommand req freshId manifest →
      s.made freshId = none) {c : CommandId} (hold : (s.runtimes name).getCommand c = none)
    (hc : runtime.getCommand c ≠ none) : s.made c = none := by
  by_cases hl : ∃ req freshId manifest, l = .submitCommand req freshId manifest
  · obtain ⟨req, freshId, manifest, rfl⟩ := hl
    have hfresh : c = freshId := by
      by_contra hne
      simp only [DeviceRuntime.step] at hs
      split at hs <;> cases hs
      rw [DeviceRuntime.submitCommand_records _ _ _ hne] at hc
      exact hc hold
    rw [hfresh]
    exact hnew req freshId manifest rfl
  · refine absurd (DeviceRuntime.step_known howner ?_ hs hold) hc
    intro req freshId manifest he
    exact hl ⟨req, freshId, manifest, he⟩

theorem goOn_reachable (hi : DeviceInv s) (hs : (s.runtimes name).step l = some runtime)
    (hnew : ∀ req freshId manifest, l = .submitCommand req freshId manifest →
      s.made freshId = none) :
    Reachable TimelineNetwork.step s.network (s.goOn name runtime).network := by
  rw [network_goOn]
  refine TimelineNetwork.evolved_reachable hi.credit.net
    (DeviceRuntime.step_remote (hi.owner name) hs) ?_
  intro c hold hc
  refine fresh_of_new (hi.owner name) hs hnew (DeviceRuntime.commands_eq_none.mp hold) ?_
  exact fun hnone => hc (DeviceRuntime.commands_eq_none.mpr hnone)

omit [BEq V] in
theorem caller_some {c : CommandId} {i : Nat} (h : s.caller c = some i) :
    (∃ cue, s.exec.timeline.cues[i]? = some cue) ∧ (s.rpcs i).served = .accepted c := by
  have hmem := List.mem_of_find?_eq_some h
  have hserved := List.find?_some h
  rw [decide_eq_true_eq] at hserved
  rw [Execution.positions, List.mem_range] at hmem
  exact ⟨⟨_, List.getElem?_eq_getElem hmem⟩, hserved⟩

omit [BEq V] in
/-- The response to a Cue's request is one that the Runtime gives. -/
theorem respond_reachable (hnet : s.network.NetInv) (name : String)
    (l : DeviceRuntime.RuntimeLabel V) :
    Reachable TimelineNetwork.step s.network (s.respond name l).network := by
  have hreturns : ∀ c, Reachable TimelineNetwork.step s.network
      (s.respond name (.executeReturned c)).network := by
    intro c
    simp only [respond]
    split
    · rename_i i r hcaller hr
      obtain ⟨⟨cue, hcue⟩, hserved⟩ := caller_some hcaller
      cases hanswer : (s.rpcs i).answer with
      | some answer =>
        have hsame : { s.rpcs i with answer := some answer } = s.rpcs i := by rw [← hanswer]
        rw [Option.some_or, hsame, setRpc, Function.update_eq_self]
        exact .refl
      | none =>
        -- the command is known to the Cue's own Runtime, which is this one
        have hown := hnet.made (s.host cue.runtime) c ((hnet.tracked i cue hcue).known c hserved)
        have hknown : (s.runtimes name).getCommand c ≠ none := by
          rw [hr]
          exact Option.some_ne_none _
        have hthis := made_of_known hnet hknown
        have hname : s.host cue.runtime = name := Option.some.inj (hown.symm.trans hthis)
        refine Reachable.refl.tail (l := .respond i) ?_
        have hview : (s.network.remote cue.runtime).commands c = some r.view := by
          show ((s.runtimes (s.host cue.runtime)).getCommand c).map _ = _
          rw [hname, hr]
          rfl
        have hcue' : s.network.exec.timeline.cues[i]? = some cue := hcue
        have hserved' : (s.network.rpcs i).served = .accepted c := hserved
        have hanswer' : (s.network.rpcs i).answer = none := hanswer
        simp only [TimelineNetwork.step, hcue', Option.bind_some, hserved', hanswer', hview,
          Option.map_some]
        rw [Option.none_or, hserved]
        rfl
    · exact .refl
  cases l with
  | executeReturned c => exact hreturns c
  | executeRaised c message => exact hreturns c
  | _ => exact .refl

omit [BEq V] in
theorem callOf_some {i : Nat} {call : SubmitCall V} (h : s.callOf i = some call) :
    call ∈ s.exec.submitted ∧ call.index = i := by
  have hindex := List.find?_some h
  rw [decide_eq_true_eq] at hindex
  exact ⟨List.mem_of_find?_eq_some h, hindex⟩

/-- What the Runtime does with a Cue's request: it refuses it, and executes
nothing, or it hands it to the adapter under the fresh id. -/
inductive Serves (R : DeviceRuntime V) (req : CommandSubmitRequest V) (freshId : CommandId) :
    Except Fault DeviceRuntime.SubmitAnswer × DeviceRuntime V → Prop
  | refused (e : FusionError) (R' : DeviceRuntime V) (executed : R'.executed = R.executed) :
      Serves R req freshId (.error (.fusion e), R')
  | accepted (R' : DeviceRuntime V) (r : CommandRecord V)
      (executed : R'.executed = R.executed ++ [(req.requestId, freshId)])
      (record : R'.getCommand freshId = some r) (requestId : r.requestId = req.requestId)
      (content : r.fingerprint = fingerprint req) :
      Serves R req freshId (.ok (.suspended freshId), R')

theorem serves_of_unknown (R : DeviceRuntime V) (req : CommandSubmitRequest V)
    (freshId : CommandId) (manifest : TargetManifest) (hq : R.commandOf req.requestId = none) :
    Serves R req freshId (R.submitCommand req freshId (.ok manifest)) := by
  have hother := DeviceRuntime.submitCommand_ne_other R req freshId manifest
  have hout := DeviceRuntime.submitCommand_cases R req freshId (.ok manifest)
  generalize R.submitCommand req freshId (.ok manifest) = answer at hout hother
  cases hout with
  | refused e sessions => exact .refused e _ rfl
  | existing entry hentry _ => simp [DeviceRuntime.commandOf, hentry] at hq
  | faulted message r made hreq => exact absurd rfl (hother message)
  | rejected e r made hreq => exact .refused e _ rfl
  | accepted runner generation r made hrunner hgeneration hreq =>
    rw [made.commandId]
    refine .accepted _ (r.dispatch generation) ?_ ?_ made.requestId made.fingerprint
    · rw [← made.requestId]
    · have hid : (r.dispatch generation).commandId = freshId := made.commandId
      show DeviceRuntime.getCommand (DeviceRuntime.change _ _) freshId = _
      rw [DeviceRuntime.getCommand_change, if_pos hid]

/-- The step that serves a Cue's request. -/
structure Submits (s : DeviceNetwork V) (i : Nat) (freshId : CommandId)
    (manifest : TargetManifest) (t : DeviceNetwork V) (cue : Cue V) (sessionId : String)
    (answer : Except Fault DeviceRuntime.SubmitAnswer) (R : DeviceRuntime V) : Prop where
  cueAt : s.exec.timeline.cues[i]? = some cue
  called : i ∈ s.exec.calls
  waiting : (s.rpcs i).served = .waiting
  fresh : s.made freshId = none
  serves : Serves (s.runtimes (s.host cue.runtime)) (s.exec.request cue sessionId) freshId
    (answer, R)
  stepped : (s.runtimes (s.host cue.runtime)).step
    (.submitCommand (s.exec.request cue sessionId) freshId (.ok manifest)) = some R
  eq : t = (s.goOn (s.host cue.runtime) R).setRpc i ((s.rpcs i).told R answer)

theorem submits_of_step (hi : DeviceInv s) {i : Nat} {freshId : CommandId}
    {manifest : TargetManifest} (h : s.step (.submit i freshId manifest) = some t) :
    ∃ cue sessionId answer R, Submits s i freshId manifest t cue sessionId answer R := by
  obtain ⟨call, hcall, h⟩ := Option.bind_eq_some_iff.mp h
  obtain ⟨hmem, rfl⟩ := callOf_some hcall
  split at h
  swap
  · cases h
  rename_i hguard
  obtain ⟨hwaiting, hfresh⟩ := hguard
  obtain ⟨cue, sessionId, hcue, hruntime, hreq⟩ := hi.credit.calls.request call hmem
  have hcue : s.exec.timeline.cues[call.index]? = some cue := hcue
  have hreq : call.request = s.exec.request cue sessionId := hreq
  have hunknown : (s.runtimes (s.host cue.runtime)).commandOf
      (s.exec.request cue sessionId).requestId = none := by
    cases hc : (s.runtimes (s.host cue.runtime)).commandOf
        (s.exec.request cue sessionId).requestId with
    | none => rfl
    | some c => exact absurd hwaiting ((hi.kept _ cue hcue).known _ c hc).2
  have hnone : (s.runtimes (s.host cue.runtime)).getCommand freshId = none := by
    by_contra hknown
    rw [made_of_known hi.credit.net hknown] at hfresh
    cases hfresh
  have hserves := serves_of_unknown _ _ freshId manifest hunknown
  have hstepped : (s.runtimes (s.host cue.runtime)).step
      (.submitCommand (s.exec.request cue sessionId) freshId (.ok manifest)) = some
        ((s.runtimes (s.host cue.runtime)).submitCommand (s.exec.request cue sessionId) freshId
          (.ok manifest)).2 := by
    rw [DeviceRuntime.step, hnone]
    rfl
  rw [hruntime, hreq] at h
  have heq := (Option.some.inj h).symm
  change t = (s.goOn (s.host cue.runtime) ((s.runtimes (s.host cue.runtime)).submitCommand
    (s.exec.request cue sessionId) freshId (.ok manifest)).2).setRpc _ _ at heq
  generalize (s.runtimes (s.host cue.runtime)).submitCommand (s.exec.request cue sessionId) freshId
    (.ok manifest) = out at hserves hstepped heq
  exact ⟨cue, sessionId, out.1, out.2, hcue, List.mem_map_of_mem hmem, hwaiting, hfresh,
    hserves, hstepped, heq⟩

/-- A refusal is one step; the command of an accepted request is made at one
step of the Runtime, and what the Runtime does before and after it is its own. -/
theorem Submits.reachable (hi : DeviceInv s) {i : Nat} {freshId : CommandId}
    {manifest : TargetManifest} {cue : Cue V} {sessionId : String}
    {answer : Except Fault DeviceRuntime.SubmitAnswer} {R : DeviceRuntime V}
    (hs : Submits s i freshId manifest t cue sessionId answer R) :
    Reachable TimelineNetwork.step s.network
      ((s.goOn (s.host cue.runtime) R).setRpc i ((s.rpcs i).told R answer)).network := by
  have howner := hi.owner (s.host cue.runtime)
  have hfresh : ∀ req c m, (DeviceRuntime.RuntimeLabel.submitCommand
      (s.exec.request cue sessionId) freshId (.ok manifest) : DeviceRuntime.RuntimeLabel V)
      = .submitCommand req c m → s.made c = none := by
    intro req c m he
    cases he
    exact hs.fresh
  have hstepped := hs.stepped
  have hserves := hs.serves
  cases hserves with
  | refused e _ _ =>
    refine (goOn_reachable hi hstepped hfresh).tail (l := .refuse i e.message) ?_
    have hguard : i ∈ (s.goOn (s.host cue.runtime) R).network.exec.calls ∧
        ((s.goOn (s.host cue.runtime) R).network.rpcs i).served = .waiting :=
      ⟨hs.called, hs.waiting⟩
    rw [TimelineNetwork.step, if_pos hguard]
    rfl
  | accepted _ r _ hr _ _ =>
    have hrun := DeviceRuntime.step_remote howner hstepped
    have hnone : (s.runtimes (s.host cue.runtime)).getCommand freshId = none := by
      by_contra hknown
      have hmade := made_of_known hi.credit.net hknown
      rw [hs.fresh] at hmade
      cases hmade
    have hnew : R.remote.commands freshId ≠ none := by
      intro hc
      rw [DeviceRuntime.commands_eq_none, hr] at hc
      cases hc
    have hnews : ∀ c, (s.runtimes (s.host cue.runtime)).remote.commands c = none →
        R.remote.commands c ≠ none → s.made c = none := by
      intro c hold hc
      refine fresh_of_new howner hstepped hfresh (DeviceRuntime.commands_eq_none.mp hold) ?_
      exact fun hnone => hc (DeviceRuntime.commands_eq_none.mpr hnone)
    obtain ⟨u, v, hu, hmake, hv⟩ :=
      Remote.made_within hrun (DeviceRuntime.commands_eq_none.mpr hnone) hnew
    have hlater := Remote.later_reachable hv
    have hmakes := Remote.later_step hmake
    -- up to the command
    have hbefore : Reachable TimelineNetwork.step s.network
        (s.network.evolved (s.host cue.runtime) u) :=
      TimelineNetwork.evolved_reachable hi.credit.net hu
        fun c hold hc => hnews c hold (hlater.known c (hmakes.known c hc))
    have hunknown : u.commands freshId = none := by
      by_contra hknown
      rw [Remote.step, if_neg hknown] at hmake
      cases hmake
    -- the Cue's request is accepted
    have haccept : (s.network.evolved (s.host cue.runtime) u).step (.accept i freshId) =
        some ((s.network.evolved (s.host cue.runtime) v).setRpc i
          { s.rpcs i with served := .accepted freshId }) := by
      have hcue : (s.network.evolved (s.host cue.runtime) u).exec.timeline.cues[i]? = some cue :=
        hs.cueAt
      have hguard : i ∈ (s.network.evolved (s.host cue.runtime) u).exec.calls ∧
          ((s.network.evolved (s.host cue.runtime) u).rpcs i).served = .waiting :=
        ⟨hs.called, hs.waiting⟩
      have hmake' : ((s.network.evolved (s.host cue.runtime) u).remotes
          (s.host cue.runtime)).step (.begins freshId) = some v := by
        show Remote.step (Function.update s.network.remotes (s.host cue.runtime) u
          (s.host cue.runtime)) _ = _
        rw [Function.update_self]
        exact hmake
      have hevolve := TimelineNetwork.evolve_evolved (hi.credit.reachable hbefore).net hmake'
        (by
          intro c he
          cases he
          show (if u.commands freshId = none then s.made freshId else _) = none
          rw [if_pos hunknown, hs.fresh])
      have hhost : (s.network.evolved (s.host cue.runtime) u).host cue.runtime =
        s.host cue.runtime := rfl
      simp only [TimelineNetwork.step, hcue, Option.bind_some, if_pos hguard, hhost, hevolve,
        Option.map_some, TimelineNetwork.evolved_evolved hmakes]
      rfl
    have haccepted := hbefore.tail haccept
    -- after the command
    have hmid : ((s.network.evolved (s.host cue.runtime) v).setRpc i
        { s.rpcs i with served := .accepted freshId }).remotes (s.host cue.runtime) = v :=
      Function.update_self ..
    have hafter : Reachable TimelineNetwork.step
        ((s.network.evolved (s.host cue.runtime) v).setRpc i
          { s.rpcs i with served := .accepted freshId })
        (((s.network.evolved (s.host cue.runtime) v).setRpc i
          { s.rpcs i with served := .accepted freshId }).evolved
            (s.host cue.runtime) R.remote) := by
      refine TimelineNetwork.evolved_reachable (hi.credit.reachable haccepted).net
        (hmid.symm ▸ hv) ?_
      intro c hold hc
      rw [hmid] at hold
      show (if v.commands c = none then s.made c else _) = none
      rw [if_pos hold]
      refine hnews c ?_ hc
      by_contra hknown
      exact hmakes.known c ((Remote.later_reachable hu).known c hknown) hold
    have hend : ((s.network.evolved (s.host cue.runtime) v).setRpc i
        { s.rpcs i with served := .accepted freshId }).evolved (s.host cue.runtime) R.remote =
        ((s.goOn (s.host cue.runtime) R).setRpc i
          ((s.rpcs i).told R (.ok (.suspended freshId)))).network := by
      show ((s.network.evolved (s.host cue.runtime) v).evolved (s.host cue.runtime)
        R.remote).setRpc i _ = (s.goOn (s.host cue.runtime) R).network.setRpc i _
      rw [TimelineNetwork.evolved_evolved hlater, network_goOn]
      rfl
    exact haccepted.trans (hend ▸ hafter)

/-- **One step of the refinement.** -/
theorem step_network (hi : DeviceInv s) {l : DeviceLabel V} (h : s.step l = some t) :
    Reachable TimelineNetwork.step s.network t.network := by
  cases l with
  | exec env label =>
    simp only [step] at h
    split at h
    · rename_i hoffers
      obtain ⟨exec, hexec, rfl⟩ := Option.map_eq_some_iff.mp h
      refine Reachable.refl.tail (l := .exec env label) ?_
      have hexec' : s.network.exec.step env label = some exec := hexec
      rw [TimelineNetwork.step, if_pos hoffers, hexec']
      rfl
    · cases h
  | submit i freshId manifest =>
    obtain ⟨cue, sessionId, answer, R, hs⟩ := submits_of_step hi h
    rw [hs.eq]
    exact hs.reachable hi
  | runtime name label =>
    simp only [step] at h
    split at h
    · rename_i hothers
      obtain ⟨R, hR, rfl⟩ := Option.map_eq_some_iff.mp h
      have hnew : ∀ req freshId manifest, label = .submitCommand req freshId manifest →
          s.made freshId = none := by
        rintro req freshId manifest rfl
        simp only [others, Bool.and_eq_true, decide_eq_true_eq] at hothers
        exact hothers.1
      have hreach := goOn_reachable hi hR hnew
      have hnet := (hi.credit.reachable hreach).net
      exact hreach.trans (respond_reachable hnet name label)
    · cases h
  | lose i message =>
    simp only [step] at h
    split at h <;> cases h
    rename_i hpc
    refine Reachable.refl.tail (l := .lose i message) ?_
    have hpc' : (s.network.exec.tasks i).pc = .submitting := hpc
    rw [TimelineNetwork.step, if_pos hpc']
    rfl
  | readRecord i =>
    obtain ⟨cue, hcue, h⟩ := Option.bind_eq_some_iff.mp h
    split at h
    · rename_i c hpc hrecord
      obtain ⟨r, hr, rfl⟩ := Option.map_eq_some_iff.mp h
      refine Reachable.refl.tail (l := .readRecord i) ?_
      have hcue' : s.network.exec.timeline.cues[i]? = some cue := hcue
      have hpc' : (s.network.exec.tasks i).pc = .rechecking c := hpc
      have hrecord' : (s.network.rpcs i).record = none := hrecord
      have hview : (s.network.remote cue.runtime).commands c = some r.view := by
        show ((s.runtimes (s.host cue.runtime)).getCommand c).map _ = _
        rw [hr]
        rfl
      simp only [TimelineNetwork.step, hcue', Option.bind_some, hpc', hrecord', hview,
        Option.map_some]
      rfl
    · cases h
  | loseRecord i message =>
    simp only [step] at h
    split at h <;> cases h
    rename_i c hpc
    refine Reachable.refl.tail (l := .loseRecord i message) ?_
    have hpc' : (s.network.exec.tasks i).pc = .rechecking c := hpc
    simp only [TimelineNetwork.step, hpc']
    rfl

end DeviceNetwork

end Fusion
