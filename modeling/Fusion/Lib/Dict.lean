import Mathlib.Data.List.Nodup
import Mathlib.Data.List.Perm.Subperm
import Mathlib.Data.List.Sort
import Mathlib.Order.Defs.LinearOrder

/-!
# Dict — insertion-ordered dictionaries

An association list whose keys are distinct, with the order of a dictionary
that remembers insertion: a new key goes to the end, an overwritten key
keeps its place. The distinctness of the keys is a field, so a dictionary
with two entries for one key cannot be built.
-/

/-- A dictionary: entries in insertion order, keys distinct. -/
structure Dict (κ : Type*) (α : Type*) where
  items : List (κ × α)
  nodup : (items.map Prod.fst).Nodup

namespace Dict

variable {κ α β : Type*} [DecidableEq κ]

/-! ## Lookup and update on entry lists -/

/-- The value of the first entry for `k`. -/
def lookup (k : κ) : List (κ × α) → Option α
  | [] => none
  | (k', v) :: rest => if k' = k then some v else lookup k rest

/-- Overwrite the entry for `k` in place, or append a new one. -/
def upsert (k : κ) (v : α) : List (κ × α) → List (κ × α)
  | [] => [(k, v)]
  | (k', w) :: rest => if k' = k then (k, v) :: rest else (k', w) :: upsert k v rest

theorem lookup_upsert (k k' : κ) (v : α) (xs : List (κ × α)) :
    lookup k' (upsert k v xs) = if k = k' then some v else lookup k' xs := by
  induction xs with
  | nil => simp [upsert, lookup]
  | cons x xs ih =>
    obtain ⟨a, w⟩ := x
    by_cases ha : a = k
    · subst ha
      by_cases hk : a = k' <;> simp [upsert, lookup, hk]
    · by_cases hk : k = k'
      · subst hk
        simp [upsert, lookup, ha, ih]
      · simp [upsert, lookup, ha, ih, hk]

theorem mem_upsert_keys (k a : κ) (v : α) (xs : List (κ × α)) :
    a ∈ (upsert k v xs).map Prod.fst ↔ a = k ∨ a ∈ xs.map Prod.fst := by
  induction xs with
  | nil => simp [upsert]
  | cons x xs ih =>
    obtain ⟨b, w⟩ := x
    by_cases hb : b = k
    · simp [upsert, hb]
    · simp only [upsert, if_neg hb, List.map_cons, List.mem_cons, ih]
      tauto

theorem upsert_nodup (k : κ) (v : α) {xs : List (κ × α)}
    (h : (xs.map Prod.fst).Nodup) : ((upsert k v xs).map Prod.fst).Nodup := by
  induction xs with
  | nil => simp [upsert]
  | cons x xs ih =>
    obtain ⟨b, w⟩ := x
    rw [List.map_cons, List.nodup_cons] at h
    by_cases hb : b = k
    · subst hb
      simpa [upsert] using h
    · simp only [upsert, if_neg hb, List.map_cons, List.nodup_cons, mem_upsert_keys]
      exact ⟨fun hm => hm.elim (fun e => hb e) h.1, ih h.2⟩

/-- With distinct keys, lookup finds exactly the entries. -/
theorem lookup_eq_some_iff {k : κ} {v : α} {xs : List (κ × α)}
    (h : (xs.map Prod.fst).Nodup) : lookup k xs = some v ↔ (k, v) ∈ xs := by
  induction xs with
  | nil => simp [lookup]
  | cons x xs ih =>
    obtain ⟨b, w⟩ := x
    rw [List.map_cons, List.nodup_cons] at h
    by_cases hb : b = k
    · subst hb
      have hnot : (b, v) ∉ xs := fun hm => h.1 (List.mem_map.mpr ⟨_, hm, rfl⟩)
      simp [lookup, hnot, eq_comm]
    · simp [lookup, hb, Ne.symm hb, ih h.2]

theorem lookup_filter {k k' : κ} (xs : List (κ × α)) :
    lookup k' (xs.filter (fun x => decide (x.1 ≠ k)))
      = if k = k' then none else lookup k' xs := by
  induction xs with
  | nil => simp [lookup]
  | cons x xs ih =>
    obtain ⟨b, w⟩ := x
    by_cases hb : b = k
    · subst hb
      by_cases hk : b = k' <;> simp_all [lookup]
    · by_cases hk : k = k'
      · subst hk
        simp_all [lookup]
      · by_cases hbk : b = k' <;> simp_all [lookup]

theorem lookup_map (f : κ → α → β) (k : κ) (xs : List (κ × α)) :
    lookup k (xs.map fun x => (x.1, f x.1 x.2)) = (lookup k xs).map (f k) := by
  induction xs with
  | nil => rfl
  | cons x xs ih =>
    obtain ⟨b, w⟩ := x
    by_cases hb : b = k
    · subst hb
      simp [lookup]
    · simp [lookup, hb, ih]

/-! ### Entries in turn -/

theorem foldl_upsert_nodup (ms r : List (κ × α)) (h : (r.map Prod.fst).Nodup) :
    ((ms.foldl (fun r m => upsert m.1 m.2 r) r).map Prod.fst).Nodup := by
  induction ms generalizing r with
  | nil => exact h
  | cons m ms ih => exact ih _ (upsert_nodup m.1 m.2 h)

theorem mem_upsert {k : κ} {v : α} {xs : List (κ × α)} {e : κ × α}
    (h : e ∈ upsert k v xs) : e = (k, v) ∨ e ∈ xs := by
  induction xs with
  | nil => simpa [upsert] using h
  | cons x xs ih =>
    simp only [upsert] at h
    split at h
    · rcases List.mem_cons.mp h with rfl | h
      · exact .inl rfl
      · exact .inr (by simp [h])
    · rcases List.mem_cons.mp h with rfl | h
      · exact .inr (by simp)
      · exact (ih h).imp id (by simp +contextual)

/-- An entry of the dictionary is one of those that went in. -/
theorem mem_foldl_upsert {ms r : List (κ × α)} {e : κ × α}
    (h : e ∈ ms.foldl (fun r m => upsert m.1 m.2 r) r) : e ∈ ms ∨ e ∈ r := by
  induction ms generalizing r with
  | nil => exact .inr h
  | cons m ms ih =>
    rcases ih h with he | he
    · exact .inl (by simp [he])
    · rcases mem_upsert he with rfl | he
      · exact .inl (by simp)
      · exact .inr he

theorem upsert_new {k : κ} {v : α} {r : List (κ × α)}
    (h : k ∉ r.map Prod.fst) : upsert k v r = r ++ [(k, v)] := by
  induction r with
  | nil => rfl
  | cons x r ih =>
    obtain ⟨hne, hr⟩ := not_or.mp (by simpa using h : ¬(k = x.1 ∨ k ∈ r.map Prod.fst))
    rw [upsert, if_neg (Ne.symm hne), ih hr, List.cons_append]

/-! ## The operations -/

/-- The empty dictionary. -/
def empty : Dict κ α := ⟨[], by simp⟩

/-- `d.get k`: the value at `k`, if there is one. -/
def get (d : Dict κ α) (k : κ) : Option α := lookup k d.items

/-- `d[k] = v`. -/
def set (d : Dict κ α) (k : κ) (v : α) : Dict κ α :=
  ⟨upsert k v d.items, upsert_nodup k v d.nodup⟩

/-- `d.pop(k, None)`, as far as the dictionary left behind. -/
def erase (d : Dict κ α) (k : κ) : Dict κ α :=
  ⟨d.items.filter (fun x => decide (x.1 ≠ k)),
    d.nodup.sublist (List.filter_sublist.map _)⟩

/-- Every value replaced, keys and order kept. -/
def mapValues (d : Dict κ α) (f : κ → α → β) : Dict κ β :=
  ⟨d.items.map fun x => (x.1, f x.1 x.2), by simpa [Function.comp_def] using d.nodup⟩

/-- The keys in insertion order. -/
def keys (d : Dict κ α) : List κ := d.items.map Prod.fst

@[simp] theorem get_empty (k : κ) : (empty : Dict κ α).get k = none := rfl

theorem get_set (d : Dict κ α) (k k' : κ) (v : α) :
    (d.set k v).get k' = if k = k' then some v else d.get k' :=
  lookup_upsert k k' v d.items

@[simp] theorem get_set_self (d : Dict κ α) (k : κ) (v : α) :
    (d.set k v).get k = some v := by
  simp [get_set]

/-- A new key goes to the end. -/
theorem keys_set_new (d : Dict κ α) {k : κ} (v : α) (h : k ∉ d.keys) :
    (d.set k v).keys = d.keys ++ [k] := by
  simp [keys, set, upsert_new h]

theorem get_set_ne (d : Dict κ α) {k k' : κ} (v : α) (h : k ≠ k') :
    (d.set k v).get k' = d.get k' := by
  simp [get_set, h]

theorem get_erase (d : Dict κ α) (k k' : κ) :
    (d.erase k).get k' = if k = k' then none else d.get k' :=
  lookup_filter d.items

@[simp] theorem get_erase_self (d : Dict κ α) (k : κ) : (d.erase k).get k = none := by
  simp [get_erase]

@[simp] theorem get_mapValues (d : Dict κ α) (f : κ → α → β) (k : κ) :
    (d.mapValues f).get k = (d.get k).map (f k) :=
  lookup_map f k d.items

theorem get_eq_some_iff {d : Dict κ α} {k : κ} {v : α} :
    d.get k = some v ↔ (k, v) ∈ d.items :=
  lookup_eq_some_iff d.nodup

theorem mem_keys_iff {d : Dict κ α} {k : κ} : k ∈ d.keys ↔ ∃ v, d.get k = some v := by
  simp [keys, get_eq_some_iff]

/-- Popping the first key leaves the other entries. -/
theorem keys_eq_cons {d : Dict κ α} {k : κ} {ks : List κ} (h : d.keys = k :: ks) :
    ∃ v, d.get k = some v ∧ d.items = (k, v) :: (d.erase k).items ∧ (d.erase k).keys = ks := by
  obtain ⟨items, hnodup⟩ := d
  cases items with
  | nil => cases h
  | cons x xs =>
    obtain ⟨b, v⟩ := x
    obtain ⟨rfl, rfl⟩ : b = k ∧ xs.map Prod.fst = ks := by simpa [keys] using h
    have hnot : b ∉ xs.map Prod.fst := (List.nodup_cons.mp hnodup).1
    have hkept : xs.filter (fun x => decide (x.1 ≠ b)) = xs := by
      rw [List.filter_eq_self]
      intro x hx
      have hne : x.1 ≠ b := fun he => hnot (List.mem_map.mpr ⟨x, hx, he⟩)
      simpa using hne
    refine ⟨v, by simp [get, lookup], ?_, ?_⟩
    · simpa [erase] using hkept.symm
    · simpa [erase, keys] using congrArg (List.map Prod.fst) hkept

end Dict

/-! ## Equality, and sorting as its canonical form

Dictionary equality ignores the order of the entries. Sorting the entries by
key turns it into element-by-element equality of lists, which is how a
dictionary becomes part of a comparable tuple.
-/

namespace Dict

variable {κ α : Type*} [LinearOrder κ]

/-- The entries sorted by key: the keys are distinct, so values are never
compared while sorting. -/
def sortedItems (d : Dict κ α) : List (κ × α) :=
  d.items.insertionSort (fun a b => a.1 ≤ b.1)

theorem sortedItems_perm (d : Dict κ α) : d.sortedItems.Perm d.items :=
  List.perm_insertionSort _ _

theorem sortedItems_nodup (d : Dict κ α) : (d.sortedItems.map Prod.fst).Nodup :=
  (d.sortedItems_perm.map Prod.fst).nodup_iff.mpr d.nodup

/-- The sorted items determine every lookup. -/
theorem get_of_sortedItems {d e : Dict κ α} (h : d.sortedItems = e.sortedItems) (k : κ) :
    d.get k = e.get k := by
  refine Option.ext fun v => ?_
  rw [get_eq_some_iff, get_eq_some_iff, ← d.sortedItems_perm.mem_iff, h,
    e.sortedItems_perm.mem_iff]

theorem sortedItems_strict (d : Dict κ α) :
    d.sortedItems.Pairwise (fun a b => a.1 < b.1) := by
  have hle : d.sortedItems.Pairwise (fun a b => a.1 ≤ b.1) :=
    List.pairwise_insertionSort _ _
  have hne : d.sortedItems.Pairwise (fun a b => a.1 ≠ b.1) :=
    List.pairwise_map.mp d.sortedItems_nodup
  exact hle.imp₂ (fun _ _ h h' => lt_of_le_of_ne h h') hne

/-- Two strictly sorted entry lists of one length whose keys agree start with
the same key: otherwise all keys of the left list lie in the tail of the
right one, which is too short. -/
theorem sorted_head_eq {k l : κ} {v w : α} {xs ys : List (κ × α)}
    (hx : ((k, v) :: xs).Pairwise (fun a b => a.1 < b.1))
    (hy : ((l, w) :: ys).Pairwise (fun a b => a.1 < b.1))
    (hlen : xs.length = ys.length)
    (hsub : ∀ x ∈ (k, v) :: xs, ∃ u, (x.1, u) ∈ (l, w) :: ys) : k = l := by
  by_contra hne
  rw [List.pairwise_cons] at hy
  have hlk : l < k := by
    obtain ⟨u, hu⟩ := hsub (k, v) (by simp)
    rcases List.mem_cons.mp hu with he | hu
    · exact absurd (congrArg Prod.fst he) hne
    · exact hy.1 _ hu
  have hkeys : ((k, v) :: xs).map Prod.fst ⊆ ys.map Prod.fst := by
    intro a ha
    obtain ⟨p, hp, rfl⟩ := List.mem_map.mp ha
    have hkp : k ≤ p.1 := by
      rcases List.mem_cons.mp hp with rfl | hp
      · exact le_refl _
      · exact ((List.pairwise_cons.mp hx).1 p hp).le
    obtain ⟨u, hu⟩ := hsub p hp
    rcases List.mem_cons.mp hu with he | hu
    · have hpl : p.1 = l := congrArg Prod.fst he
      exact absurd (hkp.trans_eq hpl) (not_le.mpr hlk)
    · exact List.mem_map.mpr ⟨_, hu, rfl⟩
  have hnd : (((k, v) :: xs).map Prod.fst).Nodup :=
    List.pairwise_map.mpr (hx.imp fun h => h.ne)
  have := (List.subperm_of_subset hnd hkeys).length_le
  simp only [List.length_map, List.length_cons] at this
  omega

variable [BEq α]

/-- Equality of two entry lists as dictionaries: as many entries, and each
key of the first holds an equal value in the second. -/
def entriesEq (xs ys : List (κ × α)) : Bool :=
  xs.length == ys.length && xs.all fun x => (lookup x.1 ys).any (x.2 == ·)

/-- Dictionary equality. -/
def eq (d e : Dict κ α) : Bool := entriesEq d.items e.items

theorem entriesEq_iff {xs ys : List (κ × α)} (hy : (ys.map Prod.fst).Nodup) :
    entriesEq xs ys = true ↔ xs.length = ys.length ∧
      ∀ x ∈ xs, ∃ w, (x.1, w) ∈ ys ∧ (x.2 == w) = true := by
  simp only [entriesEq, Bool.and_eq_true, beq_iff_eq, List.all_eq_true, Option.any_eq_true]
  refine and_congr_right fun _ => forall₂_congr fun x _ => exists_congr fun w => ?_
  rw [lookup_eq_some_iff hy]

/-- Reordering the entries on either side does not change dictionary
equality. -/
theorem entriesEq_perm {xs xs' ys ys' : List (κ × α)}
    (hx : xs.Perm xs') (hy : ys.Perm ys') (hnd : (ys.map Prod.fst).Nodup) :
    entriesEq xs ys = entriesEq xs' ys' := by
  have hnd' : (ys'.map Prod.fst).Nodup := (hy.map _).nodup_iff.mp hnd
  rw [Bool.eq_iff_iff, entriesEq_iff hnd, entriesEq_iff hnd', hx.length_eq, hy.length_eq]
  simp only [hx.mem_iff, hy.mem_iff]

/-- Strictly sorted entry lists are equal element by element exactly when
they are equal as dictionaries. -/
theorem sorted_beq_iff {xs ys : List (κ × α)}
    (hx : xs.Pairwise (fun a b => a.1 < b.1)) (hy : ys.Pairwise (fun a b => a.1 < b.1)) :
    (xs == ys) = true ↔ xs.length = ys.length ∧
      ∀ x ∈ xs, ∃ w, (x.1, w) ∈ ys ∧ (x.2 == w) = true := by
  induction xs generalizing ys with
  | nil => cases ys <;> simp
  | cons x xs ih =>
    cases ys with
    | nil => simp
    | cons y ys =>
      obtain ⟨k, v⟩ := x
      obtain ⟨l, w⟩ := y
      have hx' := List.pairwise_cons.mp hx
      have hy' := List.pairwise_cons.mp hy
      have hcons : ((k, v) :: xs == (l, w) :: ys) = true ↔
          (k = l ∧ (v == w) = true) ∧ (xs == ys) = true := by
        simp only [List.cons_beq_cons, Bool.and_eq_true]
        refine and_congr_left' ?_
        change (k == l && v == w) = true ↔ _
        simp
      rw [hcons, ih hx'.2 hy'.2]
      constructor
      · rintro ⟨⟨rfl, hvw⟩, hlen, hall⟩
        refine ⟨by simp [hlen], ?_⟩
        intro p hp
        rcases List.mem_cons.mp hp with rfl | hp
        · exact ⟨w, by simp, hvw⟩
        · obtain ⟨u, hu, hpu⟩ := hall p hp
          exact ⟨u, by simp [hu], hpu⟩
      · rintro ⟨hlen, hall⟩
        have hlen' : xs.length = ys.length := by simpa using hlen
        have hkl : k = l := sorted_head_eq hx hy hlen'
          (fun p hp => (hall p hp).imp fun _ h => h.1)
        subst hkl
        obtain ⟨u, hu, hvu⟩ := hall (k, v) (by simp)
        have huw : u = w := by
          rcases List.mem_cons.mp hu with he | hu
          · exact congrArg Prod.snd he
          · exact absurd (hy'.1 _ hu) (lt_irrefl _)
        refine ⟨⟨rfl, huw ▸ hvu⟩, hlen', ?_⟩
        intro p hp
        obtain ⟨u', hu', hpu⟩ := hall p (by simp [hp])
        rcases List.mem_cons.mp hu' with he | hu'
        · exact absurd (hx'.1 p hp) (by rw [congrArg Prod.fst he]; exact lt_irrefl _)
        · exact ⟨u', hu', hpu⟩

/-- **Sorting canonicalises**: the sorted entry lists are equal element by
element exactly when the dictionaries are equal. -/
theorem sortedItems_beq (d e : Dict κ α) : (d.sortedItems == e.sortedItems) = d.eq e := by
  rw [eq, ← entriesEq_perm d.sortedItems_perm e.sortedItems_perm e.sortedItems_nodup,
    Bool.eq_iff_iff, sorted_beq_iff d.sortedItems_strict e.sortedItems_strict,
    entriesEq_iff e.sortedItems_nodup]

end Dict
