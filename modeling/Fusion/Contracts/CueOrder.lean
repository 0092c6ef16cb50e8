import Fusion.Contracts.Timeline
import Fusion.Lib.Precedence

/-!
# CueOrder — what the search for cycles finds

`_find_cycles` is a depth-first search with three colours. The gray nodes
are the ones it is inside of, so an edge to a gray node closes a cycle; the
black ones were left in an order in which each follows its dependencies.
`Extends` carries the second fact through the search and gives an order when
no error was found; a ranking of the nodes excludes every edge to a gray
node, so there is no error when there is an order. The search recurses as deep
as the graph is; the interpreter's limit on that is left out.
-/

namespace Fusion

/-- Node to dependencies. -/
abbrev Graph := Dict String (List String)

/-- A list in which each node of the graph follows its dependencies, but for
those the graph does not know. -/
inductive Ordered (graph : Graph) : List String → Prop
  | nil : Ordered graph []
  | snoc {order : List String} {node : String} {deps : List String}
      (ordered : Ordered graph order) (get : graph.get node = some deps)
      (before : ∀ dep ∈ deps, graph.get dep = none ∨ dep ∈ order) :
      Ordered graph (order ++ [node])

theorem Ordered.idxOf_lt {graph : Graph} {order : List String} (h : Ordered graph order)
    {node : String} (hnode : node ∈ order) {deps : List String}
    (hget : graph.get node = some deps) {dep : String} (hdep : dep ∈ deps)
    (hknown : graph.get dep ≠ none) : order.idxOf dep < order.idxOf node := by
  induction h with
  | nil => cases hnode
  | @snoc order last _ _ hlast before ih =>
    by_cases hold : node ∈ order
    · have hlt := ih hold
      have hmem : dep ∈ order :=
        List.idxOf_lt_length_iff.mp (hlt.trans (List.idxOf_lt_length_of_mem hold))
      rw [List.idxOf_append_of_mem hmem, List.idxOf_append_of_mem hold]
      exact hlt
    · -- the node was added last, with its dependencies before it
      obtain rfl : node = last := by simpa [hold] using hnode
      cases hget.symm.trans hlast
      have hmem : dep ∈ order := (before dep hdep).resolve_left hknown
      rw [List.idxOf_append_of_mem hmem, List.idxOf_append_of_notMem hold]
      have := List.idxOf_lt_length_of_mem hmem
      omega

/-! ## Colours -/

namespace Search

/-- Exactly the nodes of the graph have a colour. -/
def Tracks (graph : Graph) (st : Search) : Prop :=
  ∀ k, (st.color.get k).isSome = (graph.get k).isSome

/-- The number of white nodes. -/
def whites (graph : Graph) (st : Search) : Nat :=
  graph.keys.countP fun k => st.color.get k = some .white

/-- `color[node] = c` -/
def paint (st : Search) (node : String) (c : Color) : Search :=
  { st with color := st.color.set node c }

variable {graph : Graph} {st : Search} {node : String} {c : Color}

theorem get_paint (st : Search) (node k : String) (c : Color) :
    (st.paint node c).color.get k = if node = k then some c else st.color.get k :=
  Dict.get_set ..

theorem Tracks.paint (h : Tracks graph st) (hnode : (graph.get node).isSome = true) :
    Tracks graph (st.paint node c) := by
  intro k
  rw [get_paint]
  split
  · rename_i hk
    rw [← hk, hnode]
    rfl
  · exact h k

/-- Painting leaves no more white nodes among any. -/
theorem countP_paint_le (st : Search) (node : String) (ks : List String) (hc : c ≠ .white) :
    ks.countP (fun k => (st.paint node c).color.get k = some .white) ≤
      ks.countP fun k => st.color.get k = some .white := by
  refine List.countP_mono_left fun k _ hk => ?_
  rw [decide_eq_true_eq, get_paint] at hk
  split at hk
  · exact absurd (Option.some.inj hk) hc
  · simpa using hk

/-- A white node that is painted is one white node less. -/
theorem whites_paint_lt (hwhite : st.color.get node = some .white)
    (hnode : (graph.get node).isSome = true) (hc : c ≠ .white) :
    whites graph (st.paint node c) < whites graph st := by
  obtain ⟨deps, hget⟩ := Option.isSome_iff_exists.mp hnode
  obtain ⟨pre, post, hkeys⟩ := List.append_of_mem (Dict.mem_keys_iff.mpr ⟨deps, hget⟩)
  have hpre := countP_paint_le st node pre hc
  have hpost := countP_paint_le st node post hc
  simp only [whites, hkeys, List.countP_append, List.countP_cons, hwhite, get_paint, if_pos,
    decide_true, Option.some.injEq, hc, decide_false, Bool.false_eq_true, if_false] at *
  omega

end Search

open Search

variable {graph : Graph} {st st' st'' : Search} {node : String} {path : List String}

/-- One round of the loop of `visit`. -/
def look (graph : Graph) (depth : Nat) (node : String) (path : List String) (st : Search)
    (dep : String) : Search :=
  match st.color.get dep with
  | some .gray =>
      let cycle := " -> ".intercalate (path ++ [node, dep])
      { st with errors := st.errors ++ [s!"dependency cycle: {cycle}"] }
  | some .white => visit graph depth dep (path ++ [node]) st
  | _ => st

theorem visit_eq {deps : List String} (hget : graph.get node = some deps) (depth : Nat) :
    visit graph (depth + 1) node path st =
      (deps.foldl (look graph depth node path) (st.paint node .gray)).paint node .black := by
  rw [visit]
  simp only [hget]
  rfl

/-! ## Errors only accumulate -/

theorem errors_foldl {step : Search → String → Search}
    (h : ∀ st dep, st.errors <+: (step st dep).errors) (deps : List String) (st : Search) :
    st.errors <+: (deps.foldl step st).errors := by
  induction deps generalizing st with
  | nil => exact List.prefix_rfl
  | cons dep deps ih => exact (h st dep).trans (ih (step st dep))

theorem errors_visit (depth : Nat) (node : String) (path : List String) (st : Search) :
    st.errors <+: (visit graph depth node path st).errors := by
  induction depth generalizing node path st with
  | zero => exact List.prefix_rfl
  | succ depth ih =>
    cases hget : graph.get node with
    | none =>
      rw [visit]
      simp only [hget]
      exact List.prefix_rfl
    | some deps =>
      rw [visit_eq hget]
      show (st.paint node .gray).errors <+:
        (deps.foldl (look graph depth node path) (st.paint node .gray)).errors
      refine errors_foldl (fun st dep => ?_) deps (st.paint node .gray)
      unfold look
      split
      · exact List.prefix_append _ _
      · exact ih dep _ st
      · exact List.prefix_rfl

theorem errors_look (depth : Nat) (node : String) (path : List String) (st : Search)
    (dep : String) : st.errors <+: (look graph depth node path st dep).errors := by
  unfold look
  split
  · exact List.prefix_append _ _
  · exact errors_visit depth dep _ st
  · exact List.prefix_rfl

/-! ## No error, then an order -/

/-- The search went on from `st` to `st'` and found no cycle: it finished
some more nodes, in order, and is inside of the same ones. -/
structure Extends (graph : Graph) (st : Search) (order : List String) (st' : Search)
    (order' : List String) : Prop where
  ordered : Ordered graph order'
  black : ∀ k, k ∈ order' ↔ st'.color.get k = some .black
  gray : ∀ k, st'.color.get k = some .gray ↔ st.color.get k = some .gray
  tracks : st'.Tracks graph
  kept : order ⊆ order'
  whites : st'.whites graph ≤ st.whites graph

theorem Extends.trans {order order' order'' : List String} (h : Extends graph st order st' order')
    (h' : Extends graph st' order' st'' order'') : Extends graph st order st'' order'' :=
  ⟨h'.ordered, h'.black, fun k => (h'.gray k).trans (h.gray k), h'.tracks,
    fun _ hk => h'.kept (h.kept hk), h'.whites.trans h.whites⟩

/-- `order` lists the black nodes of `st`, each after its dependencies. -/
abbrev Finished (graph : Graph) (st : Search) (order : List String) : Prop :=
  Extends graph st order st order

theorem Extends.finished {order order' : List String} (h : Extends graph st order st' order') :
    Finished graph st' order' :=
  ⟨h.ordered, h.black, fun _ => .rfl, h.tracks, List.Subset.refl _, Nat.le_refl _⟩

/-- A loop whose rounds find no cycle goes through all its dependencies: the
errors at its end bound those of each round. -/
theorem extends_foldl {step : Search → String → Search} (ok : Search → Prop)
    (herrors : ∀ st dep, st.errors <+: (step st dep).errors)
    (hok : ∀ {st order st' order'}, Extends graph st order st' order' → ok st → ok st')
    (hstep : ∀ st order dep, Finished graph st order → ok st →
      (step st dep).errors = st.errors → ∃ order', Extends graph st order (step st dep) order' ∧
        (graph.get dep = none ∨ dep ∈ order'))
    (deps : List String) {st : Search} {order : List String} (hfin : Finished graph st order)
    (hst : ok st) (herr : (deps.foldl step st).errors = st.errors) :
    ∃ order', Extends graph st order (deps.foldl step st) order' ∧
      ∀ dep ∈ deps, graph.get dep = none ∨ dep ∈ order' := by
  induction deps generalizing st order with
  | nil => exact ⟨order, hfin, by simp⟩
  | cons dep deps ih =>
    have hfirst : (step st dep).errors = st.errors := by
      refine ((herrors st dep).eq_of_length_le ?_).symm
      rw [← herr]
      exact (errors_foldl herrors deps (step st dep)).length_le
    obtain ⟨order₁, h₁, hdep⟩ := hstep st order dep hfin hst hfirst
    obtain ⟨order₂, h₂, hdeps⟩ :=
      ih h₁.finished (hok h₁ hst) (herr.trans hfirst.symm)
    refine ⟨order₂, h₁.trans h₂, ?_⟩
    intro d hd
    rcases List.mem_cons.mp hd with rfl | hd
    · exact hdep.imp_right fun hmem => h₂.kept hmem
    · exact hdeps d hd

/-- A white node that is visited without finding a cycle is finished. -/
theorem visit_extends (depth : Nat) {order : List String} (hfin : Finished graph st order)
    (hwhite : st.color.get node = some .white) (hdepth : st.whites graph ≤ depth)
    (herr : (visit graph depth node path st).errors = st.errors) :
    ∃ order', Extends graph st order (visit graph depth node path st) order' ∧ node ∈ order' := by
  induction depth generalizing st node path order with
  | zero =>
    have hnode : (graph.get node).isSome = true := by rw [← hfin.tracks, hwhite]; rfl
    have := whites_paint_lt hwhite hnode (c := .gray) (by decide)
    omega
  | succ depth ih =>
    have hnode : (graph.get node).isSome = true := by rw [← hfin.tracks, hwhite]; rfl
    obtain ⟨deps, hget⟩ := Option.isSome_iff_exists.mp hnode
    rw [visit_eq hget] at herr ⊢
    have hless := whites_paint_lt hwhite hnode (c := .gray) (by decide)
    have hblack : ∀ k, k ∈ order ↔ (st.paint node .gray).color.get k = some .black := by
      intro k
      rw [hfin.black, get_paint]
      split
      · rename_i hk
        rw [← hk, hwhite]
        exact iff_of_false (by decide) (by decide)
      · rfl
    have hstart : Finished graph (st.paint node .gray) order :=
      ⟨hfin.ordered, hblack, fun _ => .rfl, hfin.tracks.paint hnode, List.Subset.refl _,
        Nat.le_refl _⟩
    obtain ⟨order', hloop, hdeps⟩ := extends_foldl
      (fun st => st.whites graph ≤ depth) (errors_look depth node path)
      (fun h hbound => h.whites.trans hbound) (by
        intro st order dep hfin hbound herr
        unfold look at herr ⊢
        cases hcolor : st.color.get dep with
        | none =>
          -- a node without colour is not in the graph
          refine ⟨order, hfin, .inl ?_⟩
          have := hfin.tracks dep
          rw [hcolor] at this
          simpa using this.symm
        | some c =>
          cases c with
          | gray =>
            simp only [hcolor] at herr
            simp at herr
          | white =>
            simp only [hcolor] at herr
            obtain ⟨order', h, hmem⟩ := ih hfin hcolor hbound herr
            exact ⟨order', h, .inr hmem⟩
          | black => exact ⟨order, hfin, .inr ((hfin.black dep).mpr hcolor)⟩)
      deps hstart (by omega) herr
    -- the node is finished after its dependencies
    refine ⟨order' ++ [node], ⟨?_, ?_, ?_, ?_, ?_, ?_⟩, by simp⟩
    · exact .snoc hloop.ordered hget hdeps
    · intro k
      rw [get_paint, List.mem_append, List.mem_singleton, hloop.black]
      by_cases hk : node = k
      · simp [hk]
      · simp [hk, Ne.symm hk]
    · intro k
      rw [get_paint]
      by_cases hk : node = k
      · subst hk
        simp [hwhite]
      · rw [if_neg hk, hloop.gray, get_paint, if_neg hk]
    · exact hloop.tracks.paint hnode
    · exact fun k hk => List.mem_append_left _ (hloop.kept hk)
    · exact (countP_paint_le (c := .black) _ _ _ (by decide)).trans (hloop.whites.trans hless.le)

/-! ## An order, then no error -/

/-- The ranks fall along the edges of the graph. -/
def Falls (graph : Graph) (rank : String → Nat) : Prop :=
  ∀ node deps, graph.get node = some deps → ∀ dep ∈ deps, graph.get dep ≠ none →
    rank dep < rank node

/-- The search from `st` to `st'` found no error and is inside of no more
nodes. -/
structure Clean (graph : Graph) (st st' : Search) : Prop where
  errors : st'.errors = st.errors
  gray : ∀ k, st'.color.get k = some .gray → st.color.get k = some .gray
  tracks : st.Tracks graph → st'.Tracks graph

theorem Clean.refl (st : Search) : Clean graph st st := ⟨rfl, fun _ h => h, fun h => h⟩

theorem Clean.trans (h : Clean graph st st') (h' : Clean graph st' st'') : Clean graph st st'' :=
  ⟨h'.errors.trans h.errors, fun k hk => h.gray k (h'.gray k hk), fun ht => h'.tracks (h.tracks ht)⟩

theorem clean_foldl {step : Search → String → Search} (ok : Search → Prop)
    (hok : ∀ {st st'}, Clean graph st st' → ok st → ok st') (deps : List String)
    (hstep : ∀ st, ∀ dep ∈ deps, ok st → Clean graph st (step st dep)) {st : Search}
    (hst : ok st) : Clean graph st (deps.foldl step st) := by
  induction deps generalizing st with
  | nil => exact .refl st
  | cons dep deps ih =>
    have hfirst := hstep st dep (by simp) hst
    exact hfirst.trans
      (ih (fun st d hd => hstep st d (List.mem_cons_of_mem _ hd)) (hok hfirst hst))

/-- Inside of nodes of higher ranks only, a visit finds no cycle: every edge
goes down, and a gray node would be higher up. -/
theorem visit_clean {rank : String → Nat} (hfalls : Falls graph rank) (depth : Nat)
    (htracks : st.Tracks graph)
    (hgray : ∀ k, st.color.get k = some .gray → rank node < rank k) :
    Clean graph st (visit graph depth node path st) := by
  induction depth generalizing node path st with
  | zero => exact .refl st
  | succ depth ih =>
    cases hget : graph.get node with
    | none =>
      rw [visit]
      simp only [hget]
      exact .refl st
    | some deps =>
      have hnode : (graph.get node).isSome = true := by rw [hget]; rfl
      rw [visit_eq hget]
      have hloop : Clean graph (st.paint node .gray)
          (deps.foldl (look graph depth node path) (st.paint node .gray)) := by
        refine clean_foldl (fun st => st.Tracks graph ∧
            ∀ k, st.color.get k = some .gray → rank node ≤ rank k)
          (fun h hok => ⟨h.tracks hok.1, fun k hk => hok.2 k (h.gray k hk)⟩) deps
          (fun st dep hdep hok => ?_) ⟨htracks.paint hnode, fun k hk => ?_⟩
        · have hlower : ∀ c, st.color.get dep = some c → rank dep < rank node := by
            intro c hc
            refine hfalls node deps hget dep hdep fun hnone => ?_
            have := hok.1 dep
            rw [hc, hnone] at this
            cases this
          unfold look
          split
          · rename_i hcolor
            have := hlower _ hcolor
            have := hok.2 dep hcolor
            omega
          · rename_i hcolor
            exact ih hok.1 fun k hk => (hlower _ hcolor).trans_le (hok.2 k hk)
          · exact .refl st
        · rw [get_paint] at hk
          split at hk
          · rename_i hself
            exact hself ▸ Nat.le_refl _
          · exact (hgray k hk).le
      refine ⟨hloop.errors, fun k hk => ?_,
        fun _ => (hloop.tracks (htracks.paint hnode)).paint hnode⟩
      -- the node is black when the visit ends
      rw [get_paint] at hk
      split at hk
      · cases hk
      · rename_i hne
        have := hloop.gray k hk
        rw [get_paint, if_neg hne] at this
        exact this

/-! ## The search of a whole graph -/

/-- The search before its first visit. -/
def Search.start (graph : Graph) : Search := ⟨graph.mapValues fun _ _ => .white, []⟩

theorem get_start (graph : Graph) (k : String) :
    (Search.start graph).color.get k = (graph.get k).map fun _ => .white :=
  Dict.get_mapValues ..

theorem tracks_start (graph : Graph) : (Search.start graph).Tracks graph := by
  intro k
  rw [get_start, Option.isSome_map]

theorem start_white {k : String} {c : Color} (h : (Search.start graph).color.get k = some c) :
    c = .white := by
  rw [get_start, Option.map_eq_some_iff] at h
  obtain ⟨_, _, rfl⟩ := h
  rfl

/-- One round of the loop of `_find_cycles`. -/
def launch (graph : Graph) (depth : Nat) (st : Search) (node : String) : Search :=
  if st.color.get node = some .white then visit graph depth node [] st else st

theorem errors_launch (graph : Graph) (depth : Nat) (st : Search) (node : String) :
    st.errors <+: (launch graph depth st node).errors := by
  unfold launch
  split
  · exact errors_visit depth node [] st
  · exact List.prefix_rfl

theorem launch_extends {order : List String} (hfin : Finished graph st order)
    (hgray : ∀ k, st.color.get k ≠ some .gray) {depth : Nat} (hdepth : st.whites graph ≤ depth)
    (herr : (launch graph depth st node).errors = st.errors) :
    ∃ order', Extends graph st order (launch graph depth st node) order' ∧
      (graph.get node = none ∨ node ∈ order') := by
  unfold launch at herr ⊢
  split at herr
  · rename_i hwhite
    rw [if_pos hwhite]
    obtain ⟨order', h, hmem⟩ := visit_extends depth hfin hwhite hdepth herr
    exact ⟨order', h, .inr hmem⟩
  · rename_i hwhite
    rw [if_neg hwhite]
    refine ⟨order, hfin, ?_⟩
    cases hcolor : st.color.get node with
    | none =>
      have := hfin.tracks node
      rw [hcolor] at this
      exact .inl (by simpa using this.symm)
    | some c =>
      cases c with
      | white => exact absurd hcolor hwhite
      | gray => exact absurd hcolor (hgray node)
      | black => exact .inr ((hfin.black node).mpr hcolor)

/-- The search finds no error exactly when the edges fall along some
ranking. -/
theorem search_errors_iff (graph : Graph) :
    (graph.keys.foldl (launch graph (graph.keys.length + 1)) (.start graph)).errors = [] ↔
      ∃ rank, Falls graph rank := by
  constructor
  · intro herr
    have hgray : ∀ k, (Search.start graph).color.get k ≠ some .gray :=
      fun k hk => absurd (start_white hk) nofun
    have hstart : Finished graph (.start graph) [] := by
      refine ⟨.nil, fun k => ⟨nofun, fun hk => ?_⟩, fun _ => .rfl, tracks_start graph,
        List.Subset.refl _, Nat.le_refl _⟩
      exact absurd (start_white hk) nofun
    obtain ⟨order, hsearch, hall⟩ := extends_foldl
      (fun st => (∀ k, st.color.get k ≠ some .gray) ∧ st.whites graph ≤ graph.keys.length + 1)
      (errors_launch graph (graph.keys.length + 1))
      (fun h hok => ⟨fun k hk => hok.1 k ((h.gray k).mp hk), h.whites.trans hok.2⟩)
      (fun st order dep hfin hok herr => launch_extends hfin hok.1 hok.2 herr)
      graph.keys hstart ⟨hgray, List.countP_le_length.trans (Nat.le_succ _)⟩ herr
    refine ⟨fun k => order.idxOf k, fun node deps hget dep hdep hknown => ?_⟩
    have hnode : node ∈ order :=
      (hall node (Dict.mem_keys_iff.mpr ⟨deps, hget⟩)).resolve_left (by rw [hget]; nofun)
    exact hsearch.ordered.idxOf_lt hnode hget hdep hknown
  · rintro ⟨rank, hfalls⟩
    refine (clean_foldl (fun st => st.Tracks graph ∧ ∀ k, st.color.get k ≠ some .gray)
      (fun h hok => ⟨h.tracks hok.1, fun k hk => hok.2 k (h.gray k hk)⟩) graph.keys
      (fun st node _ hok => ?_)
      ⟨tracks_start graph, fun k hk => absurd (start_white hk) nofun⟩).errors
    unfold launch
    split
    · exact visit_clean hfalls _ hok.1 fun k hk => absurd hk (hok.2 k)
    · exact .refl st

/-! ## Timelines -/

section
variable {V : Type}

/-- The dependencies by cue id. -/
def cueGraph (t : Timeline V) : Graph :=
  t.cues.foldl (fun g cue => g.set cue.cueId cue.dependsOn) Dict.empty

theorem findCycles_eq (t : Timeline V) :
    findCycles t = ((cueGraph t).keys.foldl
      (launch (cueGraph t) ((cueGraph t).keys.length + 1)) (.start (cueGraph t))).errors := rfl

/-- With distinct ids, the graph holds the dependencies of each Cue. -/
theorem get_cueGraph {t : Timeline V} (hnodup : (t.cues.map (·.cueId)).Nodup)
    {id : String} {deps : List String} :
    (cueGraph t).get id = some deps ↔ ∃ cue ∈ t.cues, cue.cueId = id ∧ cue.dependsOn = deps := by
  have hfold : ∀ (cues : List (Cue V)) (g : Graph), (cues.map (·.cueId)).Nodup →
      ((cues.foldl (fun g cue => g.set cue.cueId cue.dependsOn) g).get id = some deps ↔
        (∃ cue ∈ cues, cue.cueId = id ∧ cue.dependsOn = deps) ∨
          id ∉ cues.map (·.cueId) ∧ g.get id = some deps) := by
    intro cues
    induction cues with
    | nil => simp
    | cons cue cues ih =>
      intro g hnodup
      rw [List.map_cons, List.nodup_cons] at hnodup
      rw [List.foldl_cons, ih _ hnodup.2, Dict.get_set]
      by_cases hid : cue.cueId = id
      · subst hid
        have hlater : ¬∃ cue' ∈ cues, cue'.cueId = cue.cueId ∧ cue'.dependsOn = deps := by
          rintro ⟨cue', hmem, hid, -⟩
          exact hnodup.1 (List.mem_map.mpr ⟨cue', hmem, hid⟩)
        simp [hlater, hnodup.1]
      · simp [hid, Ne.symm hid]
  rw [cueGraph, hfold t.cues Dict.empty hnodup]
  simp

theorem duplicateErrors_nil_iff {cues : List (Cue V)} {seen : List String} :
    duplicateErrors cues seen = [] ↔
      (cues.map (·.cueId)).Nodup ∧ ∀ cue ∈ cues, cue.cueId ∉ seen := by
  refine ⟨nodup_of_duplicateErrors, ?_⟩
  induction cues generalizing seen with
  | nil => intro _; rfl
  | cons cue rest ih =>
    rintro ⟨hnodup, hseen⟩
    rw [List.map_cons, List.nodup_cons] at hnodup
    rw [duplicateErrors, if_neg (hseen cue (by simp))]
    refine ih ⟨hnodup.2, ?_⟩
    intro cue' hcue' hmem
    rcases List.mem_cons.mp hmem with heq | hmem
    · exact hnodup.1 (List.mem_map.mpr ⟨cue', hcue', heq⟩)
    · exact hseen cue' (List.mem_cons_of_mem _ hcue') hmem

theorem unknownErrors_nil_iff (t : Timeline V) :
    unknownErrors t = [] ↔
      ∀ cue ∈ t.cues, ∀ dep ∈ cue.dependsOn, dep ∈ t.cues.map (·.cueId) := by
  simp only [unknownErrors, List.flatMap_eq_nil_iff, List.map_eq_nil_iff, List.filter_eq_nil_iff,
    decide_eq_true_eq, not_not]

/-- Along known dependencies, the graph and the Cues rank alike. -/
theorem falls_iff_ranked {t : Timeline V} (hnodup : (t.cues.map (·.cueId)).Nodup)
    (hknown : ∀ cue ∈ t.cues, ∀ dep ∈ cue.dependsOn, dep ∈ t.cues.map (·.cueId))
    (rank : String → Nat) :
    Falls (cueGraph t) rank ↔ Precedence.Ranked Cue.cueId Cue.dependsOn rank t.cues := by
  constructor
  · intro h cue hcue dep hdep
    refine h cue.cueId cue.dependsOn ((get_cueGraph hnodup).mpr ⟨cue, hcue, rfl, rfl⟩) dep hdep ?_
    obtain ⟨cue', hcue', hid⟩ := List.mem_map.mp (hknown cue hcue dep hdep)
    rw [(get_cueGraph hnodup).mpr ⟨cue', hcue', hid, rfl⟩]
    nofun
  · intro h node deps hget dep hdep _
    obtain ⟨cue, hcue, rfl, rfl⟩ := (get_cueGraph hnodup).mp hget
    exact h cue hcue dep hdep

/-- **Validation is exact**: no error is returned exactly when the cue ids
are distinct, every dependency is a Cue of the timeline, and the Cues can be
listed so that each comes after all the Cues it depends on. -/
theorem validateTimeline_exact (t : Timeline V) :
    validateTimeline t = [] ↔
      (t.cues.map (·.cueId)).Nodup ∧
      (∀ cue ∈ t.cues, ∀ dep ∈ cue.dependsOn, dep ∈ t.cues.map (·.cueId)) ∧
      ∃ order : List (Cue V), order.Perm t.cues ∧
        ∀ pre cue post, order = pre ++ cue :: post →
          ∀ dep ∈ cue.dependsOn, dep ∈ pre.map (·.cueId) := by
  simp only [validateTimeline, List.append_eq_nil_iff, duplicateErrors_nil_iff,
    unknownErrors_nil_iff, findCycles_eq, search_errors_iff, List.not_mem_nil, not_false_eq_true,
    implies_true, and_true, and_assoc]
  refine and_congr_right fun hnodup => and_congr_right fun hknown => ?_
  simp only [falls_iff_ranked hnodup hknown]
  constructor
  · rintro ⟨rank, hranked⟩
    exact hranked.exists_inOrder hknown
  · rintro ⟨order, hperm, horder⟩
    exact Precedence.InOrder.exists_ranked hperm hnodup horder

end

end Fusion
