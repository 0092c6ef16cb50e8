import Fusion.Contracts.Command

/-!
# Timeline — Cues and their validation (contracts/timeline.py)

A Cue is one scheduled command request. `validateTimeline` checks structure
only: distinct ids, known dependencies, no dependency cycle.
-/

namespace Fusion

/-- What becomes of the run when a Cue is too late. -/
inductive LatePolicyMode
  | skip
  | abort
deriving DecidableEq, Repr

/-- How late a Cue may be submitted. -/
structure LatePolicy where
  maxLatenessMs : Int
  mode : LatePolicyMode
deriving DecidableEq, Repr

/-- `DEFAULT_MAX_LATENESS_MS`, and the default mode. -/
def LatePolicy.default : LatePolicy := ⟨500, .skip⟩

/-- One scheduled command request. -/
structure Cue (V : Type) where
  cueId : String
  /-- offset from the start of the run -/
  atMs : Int
  /-- the Scheduler's own name of the Runtime client -/
  runtime : String
  targetId : String
  action : String
  params : Dict String V
  completionRequirement : CompletionRequirement
  dependsOn : List String
  latePolicy : LatePolicy

/-- The Cues of a Show. -/
structure Timeline (V : Type) where
  cues : List (Cue V)

section
variable {V : Type}

/-! ## Validation -/

/-- The ids seen before, and an error for each id seen again. -/
def duplicateErrors : List (Cue V) → List String → List String
  | [], _ => []
  | cue :: rest, seen =>
      if cue.cueId ∈ seen then
        s!"duplicate cue_id '{cue.cueId}'" :: duplicateErrors rest (cue.cueId :: seen)
      else duplicateErrors rest (cue.cueId :: seen)

/-- An error for each dependency that is no Cue. -/
def unknownErrors (t : Timeline V) : List String :=
  t.cues.flatMap fun cue =>
    (cue.dependsOn.filter fun dep => dep ∉ t.cues.map (·.cueId)).map fun dep =>
      s!"cue '{cue.cueId}' depends_on unknown cue '{dep}'"

/-- Not visited, on the path, left. -/
inductive Color
  | white
  | gray
  | black
deriving DecidableEq, Repr

/-- The colours and the errors of `_find_cycles`. -/
structure Search where
  color : Dict String Color
  errors : List String

/-- `visit`. Each nested call has turned one more node gray, so a depth of
one more than the number of nodes is never used up. -/
def visit (graph : Dict String (List String)) : Nat → String → List String → Search → Search
  | 0, _, _, st => st
  | depth + 1, node, path, st =>
      match graph.get node with
      | none => st
      | some deps =>
          let st := { st with color := st.color.set node .gray }
          let st := deps.foldl (fun st dep =>
            match st.color.get dep with
            | some .gray =>
                let cycle := " -> ".intercalate (path ++ [node, dep])
                { st with errors := st.errors ++ [s!"dependency cycle: {cycle}"] }
            | some .white => visit graph depth dep (path ++ [node]) st
            | _ => st) st
          { st with color := st.color.set node .black }

/-- `_find_cycles`: an error for each edge back to the path. -/
def findCycles (t : Timeline V) : List String :=
  let graph := t.cues.foldl (fun g cue => g.set cue.cueId cue.dependsOn) Dict.empty
  let st : Search := ⟨graph.mapValues fun _ _ => .white, []⟩
  (graph.keys.foldl (fun st cueId =>
    if st.color.get cueId = some .white then visit graph (graph.keys.length + 1) cueId [] st
    else st) st).errors

/-- The structural errors of a timeline, none if it is valid. -/
def validateTimeline (t : Timeline V) : List String :=
  duplicateErrors t.cues [] ++ unknownErrors t ++ findCycles t

theorem nodup_of_duplicateErrors {cues : List (Cue V)} {seen : List String}
    (h : duplicateErrors cues seen = []) :
    (cues.map (·.cueId)).Nodup ∧ ∀ cue ∈ cues, cue.cueId ∉ seen := by
  induction cues generalizing seen with
  | nil => simp
  | cons cue rest ih =>
    simp only [duplicateErrors] at h
    split at h
    · cases h
    · rename_i hnew
      obtain ⟨hnodup, hrest⟩ := ih h
      refine ⟨?_, ?_⟩
      · rw [List.map_cons, List.nodup_cons]
        refine ⟨?_, hnodup⟩
        intro hmem
        obtain ⟨cue', hcue', hid⟩ := List.mem_map.mp hmem
        exact hrest cue' hcue' (by simp [hid])
      · intro cue' hcue'
        rcases List.mem_cons.mp hcue' with rfl | hcue'
        · exact hnew
        · intro hseen
          exact hrest cue' hcue' (List.mem_cons_of_mem _ hseen)

/-- The cue ids of a valid timeline are distinct. -/
theorem nodup_of_valid {t : Timeline V} (h : validateTimeline t = []) :
    (t.cues.map (·.cueId)).Nodup := by
  simp only [validateTimeline, List.append_eq_nil_iff] at h
  exact (nodup_of_duplicateErrors h.1.1).1

end

end Fusion
