import Fusion.Lib.Dict
import Fusion.Lib.JsonWriter
import Mathlib.Data.List.Lex

/-!
# JsonCanonical — values as dictionaries, and their canonical text

The decoder builds a dictionary from the members of an object: of the members
of one name the last is kept, at the place of the first. A float is kept as
the literal that the interpreter prints for it; the printing is a parameter.
Two values are the same whatever the order of their members, at every
level. The writer's `sort_keys` brings the members into the order of their
names, so that the same values get one text, and only these.
-/

namespace Json

/-- How the interpreter prints the float that a literal denotes. -/
structure FloatPrinting where
  print : Text → Text
  isFloat : ∀ literal, IsFloat literal → IsFloat (print literal)
  /-- the literal printed denotes the same float -/
  again : ∀ literal, IsFloat literal → print (print literal) = print literal

/-- For texts in which every float stands as it is printed. -/
def FloatPrinting.asWritten : FloatPrinting :=
  ⟨fun literal => literal, fun _ h => h, fun _ _ => rfl⟩

variable (fp : FloatPrinting)

/-! ## Dictionaries -/

mutual

/-- The value that the decoder builds. -/
def toDict : Json → Json
  | .number (.float literal) => .number (.float (fp.print literal))
  | .array items => .array (toDictItems items)
  | .object members =>
      .object ((toDictMembers members).foldl (fun r m => Dict.upsert m.1 m.2 r) [])
  | v => v

def toDictItems : List Json → List Json
  | [] => []
  | v :: items => toDict v :: toDictItems items

def toDictMembers : List (Text × Json) → List (Text × Json)
  | [] => []
  | (name, v) :: members => (name, toDict v) :: toDictMembers members

end

/-- A value as the interpreter holds it. -/
inductive Held : Json → Prop
  | null : Held .null
  | bool (b : Bool) : Held (.bool b)
  | int (n : ℤ) : Held (.number (.int n))
  | float {literal : Text} (h : fp.print literal = literal) : Held (.number (.float literal))
  | string (s : Text) : Held (.string s)
  | array {items : List Json} (h : ∀ v ∈ items, Held v) : Held (.array items)
  | object {members : List (Text × Json)} (hnames : (members.map Prod.fst).Nodup)
      (h : ∀ m ∈ members, Held m.2) : Held (.object members)

mutual

/-- The same members at every level, in any order, and the same scalars. Unlike
the language's own equality, for which `1`, `1.0` and `True` are equal, this
tells an integer, a float and a boolean apart, as the written text does; two
floats are the same if they are printed alike. -/
def same : Json → Json → Bool
  | .null, .null => true
  | .bool b, .bool c => b == c
  | .number n, .number m => n == m
  | .string s, .string t => s == t
  | .array xs, .array ys => sameItems xs ys
  | .object ms, .object ns => ms.length == ns.length && sameMembers ms ns
  | _, _ => false

def sameItems : List Json → List Json → Bool
  | [], [] => true
  | v :: xs, w :: ys => same v w && sameItems xs ys
  | _, _ => false

/-- Each member has an equal one of its name among `ns`. -/
def sameMembers : List (Text × Json) → List (Text × Json) → Bool
  | [], _ => true
  | (name, v) :: ms, ns => (Dict.lookup name ns).any (same v) && sameMembers ms ns

end

mutual

/-- `sort_keys=True` -/
def sortKeys : Json → Json
  | .array items => .array (sortItems items)
  | .object members => .object ((sortMembers members).insertionSort fun a b => a.1 ≤ b.1)
  | v => v

def sortItems : List Json → List Json
  | [] => []
  | v :: items => sortKeys v :: sortItems items

def sortMembers : List (Text × Json) → List (Text × Json)
  | [] => []
  | (name, v) :: members => (name, sortKeys v) :: sortMembers members

end

example : same (.object [([0x61], .null), ([0x62], .bool true)])
    (.object [([0x62], .bool true), ([0x61], .null)]) = true := by decide

/-! ## The functions on lists -/

theorem toDictItems_eq (items : List Json) : toDictItems fp items = items.map (toDict fp) := by
  induction items with
  | nil => rfl
  | cons v items ih => rw [toDictItems, ih, List.map_cons]

theorem toDictMembers_eq (members : List (Text × Json)) :
    toDictMembers fp members = members.map fun m => (m.1, toDict fp m.2) := by
  induction members with
  | nil => rfl
  | cons m members ih =>
    obtain ⟨name, v⟩ := m
    rw [toDictMembers, ih, List.map_cons]

theorem sortItems_eq (items : List Json) : sortItems items = items.map sortKeys := by
  induction items with
  | nil => rfl
  | cons v items ih => rw [sortItems, ih, List.map_cons]

theorem sortMembers_eq (members : List (Text × Json)) :
    sortMembers members = members.map fun m => (m.1, sortKeys m.2) := by
  induction members with
  | nil => rfl
  | cons m members ih =>
    obtain ⟨name, v⟩ := m
    rw [sortMembers, ih, List.map_cons]

theorem sameMembers_iff {ms ns : List (Text × Json)} (hnames : (ns.map Prod.fst).Nodup) :
    sameMembers ms ns = true ↔ ∀ m ∈ ms, ∃ w, (m.1, w) ∈ ns ∧ same m.2 w = true := by
  induction ms with
  | nil => simp [sameMembers]
  | cons m ms ih =>
    obtain ⟨name, v⟩ := m
    rw [sameMembers, Bool.and_eq_true, ih, Option.any_eq_true]
    simp only [Dict.lookup_eq_some_iff hnames, List.forall_mem_cons]

/-! ## What the decoder builds -/

/-- **The decoder's values are as the interpreter holds them**: names are
distinct and floats as they are printed. -/
theorem held_toDict {ascii : Bool} {v : Json} (h : Writable ascii v) : Held fp (toDict fp v) := by
  induction h with
  | null => exact .null
  | bool b => exact .bool b
  | int n => exact .int n
  | float h => exact .float (fp.again _ h)
  | string h => exact .string _
  | array h ih =>
    rw [toDict, toDictItems_eq]
    exact .array (by simpa using ih)
  | object hnames h ih =>
    rw [toDict, toDictMembers_eq]
    refine .object (Dict.foldl_upsert_nodup _ _ (by simp)) fun e he => ?_
    rcases Dict.mem_foldl_upsert he with he | he
    · obtain ⟨m, hm, rfl⟩ := List.mem_map.mp he
      exact ih m hm
    · cases he

theorem writable_toDict {ascii : Bool} {v : Json} (h : Writable ascii v) :
    Writable ascii (toDict fp v) := by
  induction h with
  | null => exact .null
  | bool b => exact .bool b
  | int n => exact .int n
  | float h => exact .float (fp.isFloat _ h)
  | string h => exact .string h
  | array h ih =>
    rw [toDict, toDictItems_eq]
    exact .array (by simpa using ih)
  | object hnames h ih =>
    rw [toDict, toDictMembers_eq]
    refine .object (fun e he => ?_) fun e he => ?_
    all_goals
      rcases Dict.mem_foldl_upsert he with he | he
      · obtain ⟨m, hm, rfl⟩ := List.mem_map.mp he
        first | exact hnames m hm | exact ih m hm
      · cases he

/-! ## The canonical form -/

variable {fp} {v w : Json}

theorem writable_sortKeys {ascii : Bool} (h : Writable ascii v) :
    Writable ascii (sortKeys v) := by
  induction h with
  | null => exact .null
  | bool b => exact .bool b
  | int n => exact .int n
  | float h => exact .float h
  | string h => exact .string h
  | array h ih =>
    rw [sortKeys, sortItems_eq]
    exact .array (by simpa using ih)
  | object hnames h ih =>
    rw [sortKeys, sortMembers_eq]
    refine .object (fun e he => ?_) fun e he => ?_
    all_goals
      obtain ⟨m, hm, rfl⟩ := List.mem_map.mp ((List.mem_insertionSort _).mp he)
      first | exact hnames m hm | exact ih m hm

/-- Members whose names are distinct, sorted: the list is determined by the
members. -/
theorem insertionSort_eq_iff {ms ns : List (Text × Json)} (hms : (ms.map Prod.fst).Nodup)
    (hns : (ns.map Prod.fst).Nodup) :
    (ms.insertionSort fun a b => a.1 ≤ b.1) = (ns.insertionSort fun a b => a.1 ≤ b.1) ↔
      ms.Perm ns := by
  constructor
  · intro h
    have hm := List.perm_insertionSort (fun a b : Text × Json => a.1 ≤ b.1) ms
    have hn := List.perm_insertionSort (fun a b : Text × Json => a.1 ≤ b.1) ns
    exact hm.symm.trans ((List.Perm.of_eq h).trans hn)
  · intro h
    let d : Dict Text Json := ⟨ms, hms⟩
    let e : Dict Text Json := ⟨ns, hns⟩
    have hperm : d.sortedItems.Perm e.sortedItems :=
      d.sortedItems_perm.trans (h.trans e.sortedItems_perm.symm)
    exact hperm.eq_of_pairwise (fun a b _ _ hab hba => absurd hab hba.asymm) d.sortedItems_strict
      e.sortedItems_strict

/-- **Sorted values are equal exactly if the values are the same.** -/
theorem sortKeys_eq_iff (hv : Held fp v) (hw : Held fp w) :
    sortKeys v = sortKeys w ↔ same v w = true := by
  induction hv generalizing w with
  | null | bool b | int n | float h | string s => cases w <;> simp [sortKeys, same]
  | array h ih =>
    rename_i xs
    cases hw with
    | null | bool b | int n | float h | string s | object hnames hw => simp [sortKeys, same]
    | array hw =>
      rename_i ys
      simp only [sortKeys, sortItems_eq, array.injEq, same]
      induction xs generalizing ys with
      | nil => cases ys <;> simp [sameItems]
      | cons v xs ihxs =>
        cases ys with
        | nil => simp [sameItems]
        | cons u ys =>
          have hhead := ih v (by simp) (hw u (by simp))
          have htail := ihxs (fun a ha => h a (List.mem_cons_of_mem v ha))
            (fun a ha => ih a (List.mem_cons_of_mem v ha))
            (fun a ha => hw a (List.mem_cons_of_mem u ha))
          rw [List.map_cons, List.map_cons, List.cons.injEq, hhead, htail, sameItems,
            Bool.and_eq_true]
  | object hnames h ih =>
    rename_i ms
    cases hw with
    | null | bool b | int n | float h | string s | array hw => simp [sortKeys, same]
    | object hnames' hw =>
      rename_i ns
      have hkeys : ∀ l : List (Text × Json),
          (l.map fun m => (m.1, sortKeys m.2)).map Prod.fst = l.map Prod.fst := by simp
      simp only [sortKeys, sortMembers_eq, object.injEq, same, Bool.and_eq_true, beq_iff_eq,
        sameMembers_iff hnames']
      rw [insertionSort_eq_iff (by rwa [hkeys]) (by rwa [hkeys])]
      constructor
      · intro hperm
        refine ⟨by simpa using hperm.length_eq, fun m hm => ?_⟩
        obtain ⟨n, hn, heq⟩ := List.mem_map.mp
          (hperm.mem_iff.mp (List.mem_map.mpr ⟨m, hm, rfl⟩))
        obtain ⟨hname, hvalue⟩ := Prod.mk.inj heq
        exact ⟨n.2, hname ▸ hn, (ih m hm (hw n hn)).mp hvalue.symm⟩
      · rintro ⟨hlen, hall⟩
        have hsub : (ms.map fun m => (m.1, sortKeys m.2)) ⊆
            ns.map fun m => (m.1, sortKeys m.2) := by
          intro e he
          obtain ⟨m, hm, rfl⟩ := List.mem_map.mp he
          obtain ⟨u, hu, hsame⟩ := hall m hm
          exact List.mem_map.mpr ⟨(m.1, u), hu, by rw [(ih m hm (hw _ hu)).mpr hsame]⟩
        have hnodup : (ms.map fun m => (m.1, sortKeys m.2)).Nodup :=
          .of_map Prod.fst (by rwa [hkeys])
        exact (List.subperm_of_subset hnodup hsub).perm_of_length_le (by simp [hlen])

/-- **The canonical text**: of two values that the interpreter holds it is the
same exactly if they are. -/
theorem dumps_sortKeys_iff {st : Style} (hst : st.Valid) (hv : Held fp v) (hw : Held fp w)
    (hv' : Writable st.ascii v) (hw' : Writable st.ascii w) :
    dumps st (sortKeys v) = dumps st (sortKeys w) ↔ same v w = true := by
  rw [← sortKeys_eq_iff hv hw]
  exact ⟨dumps_inj hst (writable_sortKeys hv') (writable_sortKeys hw'), fun h => by rw [h]⟩

end Json
