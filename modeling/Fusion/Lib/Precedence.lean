import Mathlib.Data.List.Sort
import Mathlib.Data.List.Nodup

/-!
# Precedence — lists in which each item follows what it depends on

Items carry a key and the keys of the items they depend on. Such a list can
be put in order exactly when the keys can be ranked so that the ranks fall
along the dependencies.
-/

namespace Precedence

variable {α κ : Type*} {key : α → κ} {deps : α → List κ}

/-- Each item comes after all the items it depends on. -/
def InOrder (key : α → κ) (deps : α → List κ) (xs : List α) : Prop :=
  ∀ pre x post, xs = pre ++ x :: post → ∀ d ∈ deps x, d ∈ pre.map key

/-- The ranks fall along the dependencies. -/
def Ranked (key : α → κ) (deps : α → List κ) (rank : κ → ℕ) (xs : List α) : Prop :=
  ∀ x ∈ xs, ∀ d ∈ deps x, rank d < rank (key x)

/-- Induction along the dependencies: what an item's key inherits from the
keys it depends on holds of every item's key. -/
theorem Ranked.induction {rank : κ → ℕ} {xs : List α} (h : Ranked key deps rank xs)
    (known : ∀ x ∈ xs, ∀ d ∈ deps x, d ∈ xs.map key) {P : κ → Prop}
    (step : ∀ x ∈ xs, (∀ d ∈ deps x, P d) → P (key x)) : ∀ x ∈ xs, P (key x) := by
  have hbelow : ∀ n, ∀ x ∈ xs, rank (key x) < n → P (key x) := by
    intro n
    induction n with
    | zero =>
      intro x _ hlt
      omega
    | succ n ih =>
      intro x hx hlt
      refine step x hx fun d hd => ?_
      obtain ⟨y, hy, rfl⟩ := List.mem_map.mp (known x hx d hd)
      have hfalls : rank (key y) < rank (key x) := h x hx _ hd
      exact ih y hy (by omega)
  intro x hx
  exact hbelow _ x hx (Nat.lt_succ_self _)

/-- Sorting by rank puts the items in order. -/
theorem Ranked.exists_inOrder {rank : κ → ℕ} {xs : List α} (h : Ranked key deps rank xs)
    (known : ∀ x ∈ xs, ∀ d ∈ deps x, d ∈ xs.map key) :
    ∃ ys, ys.Perm xs ∧ InOrder key deps ys := by
  let before (x y : α) : Prop := rank (key x) ≤ rank (key y)
  have : DecidableRel before := fun x y => inferInstanceAs (Decidable (_ ≤ _))
  have : Std.Total before := ⟨fun x y => Nat.le_total _ _⟩
  have : IsTrans α before := ⟨fun _ _ _ h h' => Nat.le_trans h h'⟩
  refine ⟨xs.insertionSort before, List.perm_insertionSort .., ?_⟩
  intro pre x post heq d hd
  have hperm := List.perm_insertionSort before xs
  have hsorted := List.pairwise_insertionSort before xs
  rw [heq] at hperm hsorted
  have hx : x ∈ xs := hperm.subset (by simp)
  have hrank := h x hx d hd
  obtain ⟨y, hy, rfl⟩ := List.mem_map.mp (known x hx d hd)
  rcases List.mem_append.mp (hperm.symm.subset hy) with hpre | hpost
  · exact List.mem_map_of_mem hpre
  · -- from `x` on, the ranks do not fall below that of `x`
    have hle : rank (key x) ≤ rank (key y) := by
      rcases List.mem_cons.mp hpost with rfl | hpost
      · exact Nat.le_refl _
      · exact List.rel_of_pairwise_cons (List.pairwise_append.mp hsorted).2.1 hpost
    omega

variable [DecidableEq κ]

/-- The position of its key ranks an item of a list in order. -/
theorem InOrder.exists_ranked {xs ys : List α} (hperm : ys.Perm xs)
    (hnodup : (xs.map key).Nodup) (h : InOrder key deps ys) :
    ∃ rank, Ranked key deps rank xs := by
  refine ⟨fun k => (ys.map key).idxOf k, ?_⟩
  intro x hx d hd
  obtain ⟨pre, post, rfl⟩ := List.append_of_mem (hperm.symm.subset hx)
  have hnodup' : ((pre ++ x :: post).map key).Nodup := (hperm.map key).nodup_iff.mpr hnodup
  have hd' : d ∈ pre.map key := h pre x post rfl d hd
  rw [List.map_append, List.map_cons] at hnodup' ⊢
  have hnot : key x ∉ pre.map key := by
    intro hmem
    exact (List.nodup_append.mp hnodup').2.2 _ hmem _ (by simp) rfl
  show List.idxOf _ _ < List.idxOf _ _
  rw [List.idxOf_append_of_mem hd', List.idxOf_append_of_notMem hnot]
  have := List.idxOf_lt_length_of_mem hd'
  omega

end Precedence
