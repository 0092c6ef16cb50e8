import Fusion.Core.ConfigApply

/-!
# SettingCoordinator — one configuration for several Runtimes
(contracts/deployment.py, apps/setting/coordinator.py, transport/client.py)

`deploy` visits its clients in turn. A request is served by its Runtime at
some moment, and its response may be lost at any moment, before or after it
was served; meanwhile other callers use the Runtimes, and a Runtime may
restart. The content goes through as it is: a revision that the deployment
staged is one with its content.
-/

namespace Fusion

open Transition

/-! ## The contract -/

/-- How a deployment went as a whole; `someSucceeded` is PARTIAL. -/
inductive DeploymentOverall
  | staged
  | succeeded
  | someSucceeded
  | failed
deriving DecidableEq, Repr

/-- What came of a deployment on one Runtime. -/
structure RuntimeDeploymentResult where
  runtimeName : String
  staged : Bool
  revisionId : Option String
  stageError : Option String
  /-- `none`: apply was never attempted -/
  applyOutcome : Option ApplyOutcome
  applyDetail : Option String
deriving DecidableEq

/-- A deployment that is over, with a result for each client. -/
structure Deployment where
  deploymentId : String
  kind : String
  createdAt : ℚ
  results : Dict String RuntimeDeploymentResult

/-- `overall` -/
def Deployment.overall (d : Deployment) : DeploymentOverall :=
  let results := d.results.items.map Prod.snd
  if results.any fun r => !r.staged then .failed
  else
    let attempted := results.filterMap (·.applyOutcome)
    if attempted.isEmpty then .staged
    else if attempted.all (· = .succeeded) then .succeeded
    else if attempted.any (· = .succeeded) then .someSucceeded
    else .failed

/-! ## The coordinator and its Runtimes -/

/-- A call of `deploy`. -/
structure DeployCall where
  kind : String
  apply : Bool
  /-- the names of the clients, in the order of the mapping -/
  clients : List String
  distinct : clients.Nodup
  /-- the Runtime that a client talks to -/
  reaches : String → String

/-- Where `_deploy_one` is with its client. -/
inductive DeployPhase
  /-- `stage_config` is awaited, and not served yet -/
  | staging
  /-- the Runtime has staged the revision -/
  | staged (revisionId : String)
  /-- `apply_config` is awaited, and not served yet -/
  | applying (revisionId : String)
  /-- the Runtime is at it, in a call of its own -/
  | serving (revisionId : String) (call : Nat)
  | applied (revisionId : String) (record : ApplyRecord)
  /-- no response is to come but an error -/
  | broken (revisionId : String)

/-- A Runtime went on: the call that serves the request has decided, or is
over without a decision. -/
def DeployPhase.follow (before after : ConfigApply) : DeployPhase → DeployPhase
  | .serving revisionId call =>
      match after.calls call with
      | some _ => .serving revisionId call
      | none =>
          match (after.made.drop before.made.length).getLast? with
          | some decision => .applied revisionId decision.record
          | none => .broken revisionId
  | phase => phase

/-- The Runtime restarts: what it was serving gets no response. -/
def DeployPhase.restart : DeployPhase → DeployPhase
  | .serving revisionId _ => .broken revisionId
  | phase => phase

/-- The current client, when the Runtime `id` went on. -/
def DeployCall.follow (d : DeployCall) (id : String) (before after : ConfigApply)
    (client : String × DeployPhase) : String × DeployPhase :=
  (client.1, if d.reaches client.1 = id then client.2.follow before after else client.2)

/-- The current client, when the Runtime `id` restarts. -/
def DeployCall.restart (d : DeployCall) (id : String) (client : String × DeployPhase) :
    String × DeployPhase :=
  (client.1, if d.reaches client.1 = id then client.2.restart else client.2)

/-- A record that some Runtime made, and its active revision right after. -/
structure DeployLogEntry where
  runtime : String
  record : ApplyRecord
  active : Option String

/-- A call of `deploy` on its way, among its Runtimes. -/
structure SettingCoordinator where
  runtimes : String → ConfigApply
  todo : List String
  current : Option (String × DeployPhase)
  results : Dict String RuntimeDeploymentResult
  /-- history: every record made by a Runtime -/
  log : List DeployLogEntry
  /-- history: the revisions that the deployment's own requests staged, by client -/
  stagedHere : List (String × String)

namespace SettingCoordinator

variable (d : DeployCall)

/-- `deploy` is called. -/
def init (runtimes : String → ConfigApply) : SettingCoordinator where
  runtimes := runtimes
  todo := d.clients
  current := none
  results := .empty
  log := []
  stagedHere := []

/-- A move of a Runtime, of a request, or of the loop. -/
inductive Label
  /-- a Runtime goes on, or serves another caller -/
  | runtime (id : String) (l : ConfigApply.Label)
  | restart (id : String) (now : ℚ)
  /-- the loop goes on to the next client -/
  | next
  | stageServed (freshId : String)
  | stageReturned
  | stageRaised (message : String)
  | applyServed (call : Nat)
  | applyReturned
  | applyRaised (message : String)

/-- Revision ids are new. -/
def fresh (r : ConfigApply) : ConfigApply.Label → Bool
  | .stage _ freshId => (r.service.staged.get freshId).isNone
  | _ => true

/-- A Runtime takes a step; `follow` says where the current client is then. -/
def runtimeStep (s : SettingCoordinator) (id : String) (l : ConfigApply.Label)
    (follow : ConfigApply → ConfigApply → String × DeployPhase → String × DeployPhase) :
    Option SettingCoordinator :=
  let before := s.runtimes id
  if fresh before l then
    (before.step l).map fun after =>
      { s with
        runtimes := Function.update s.runtimes id after
        current := s.current.map (follow before after)
        log := s.log ++ (after.made.drop before.made.length).map fun decision =>
          ⟨id, decision.record, after.active⟩ }
  else none

/-- The result of the current client is there; the loop goes on. -/
def finish (s : SettingCoordinator) (name : String) (r : RuntimeDeploymentResult) :
    SettingCoordinator :=
  { s with current := none, results := s.results.set name r }

/-- What an apply that returned, or raised, makes of the staged result. -/
def applyResult (name revisionId : String) (outcome : Option ApplyOutcome)
    (detail : Option String) : RuntimeDeploymentResult :=
  ⟨name, true, some revisionId, none, outcome, detail⟩

/-- One move. A request is served at a moment of its own. -/
def step (s : SettingCoordinator) : Label → Option SettingCoordinator
  | .runtime id l => s.runtimeStep id l (d.follow id)
  | .restart id now =>
      some { s with
        runtimes := Function.update s.runtimes id
          (.init now ConfigService.defaultJournalLimit)
        current := s.current.map (d.restart id) }
  | .next =>
      match s.current, s.todo with
      | none, name :: todo => some { s with current := some (name, .staging), todo := todo }
      | _, _ => none
  | .stageServed freshId =>
      match s.current with
      | some (name, .staging) =>
          (s.runtimeStep (d.reaches name) (.stage d.kind freshId) fun _ _ _ =>
            (name, .staged freshId)).map fun t =>
              { t with stagedHere := t.stagedHere ++ [(name, freshId)] }
      | _ => none
  | .stageReturned =>
      match s.current with
      | some (name, .staged revisionId) =>
          if d.apply then some { s with current := some (name, .applying revisionId) }
          else some (s.finish name (applyResult name revisionId none none))
      | _ => none
  | .stageRaised message =>
      match s.current with
      | some (name, .staging) | some (name, .staged _) =>
          some (s.finish name ⟨name, false, none, some message, none, none⟩)
      | _ => none
  | .applyServed call =>
      match s.current with
      | some (name, .applying revisionId) =>
          match (s.runtimes (d.reaches name)).calls call with
          | some _ => none
          | none =>
              s.runtimeStep (d.reaches name) (.apply call revisionId none) fun _ after _ =>
                (name, match after.calls call with
                  | some _ => .serving revisionId call
                  -- the Runtime does not know the revision
                  | none => .broken revisionId)
      | _ => none
  | .applyReturned =>
      match s.current with
      | some (name, .applied revisionId record) =>
          some (s.finish name (applyResult name revisionId (some record.outcome) record.detail))
      | _ => none
  | .applyRaised message =>
      match s.current with
      | some (name, .applying revisionId) | some (name, .serving revisionId _)
      | some (name, .applied revisionId _) | some (name, .broken revisionId) =>
          some (s.finish name (applyResult name revisionId (some .failed) (some message)))
      | _ => none

/-- `deploy` has returned. -/
def Ended (s : SettingCoordinator) : Prop :=
  s.current = none ∧ s.todo = []

/-- What it returned. -/
def deployment (s : SettingCoordinator) (deploymentId : String) (createdAt : ℚ) : Deployment :=
  ⟨deploymentId, d.kind, createdAt, s.results⟩

end SettingCoordinator

end Fusion
