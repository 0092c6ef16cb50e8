import Fusion.Core.BlobStore

/-!
# BlobSaves — saving is all or nothing

What a call of `save_stream` leaves in the root, whatever other calls do in
between. A call writes under the name of its temporary file alone until it
moves that file to its digest, and removes it on every way out.
-/

namespace Fusion

open FileTree Transition

/-- The chunk that call `i` receives. -/
def BlobLabel.bytesFor (i : Nat) : BlobLabel → List UInt8
  | chunk j bytes => if j = i then bytes else []
  | _ => []

/-- The call is over. -/
def Save.over : Save → Bool
  | writing _ => false
  | returned _ | raised _ => true

namespace BlobStore

variable {h : Sha256} {t t' : BlobStore} {l : BlobLabel} {i : Nat}

/-- A store in a root of any content, before any call. -/
def opened (root : Path) (maxBytes : Nat) (tree : Tree) : BlobStore :=
  ⟨root, maxBytes, tree, fun _ => none, []⟩

/-- The chunks that call `i` has received in a run, put together. -/
def received (i : Nat) (xs : List (Step (step h))) : List UInt8 :=
  xs.flatMap fun x => x.label.bytesFor i

/-! ## The uploads in progress -/

theorem Uploads.step (hw : Uploads t) (hstep : t.step h l = some t') : Uploads t' := by
  cases step_saves hw hstep with
  | @begins i hex expected made unborn free hmade =>
    refine (hw.mkdir hmade).write (v := ⟨tmpName hex, expected, [], 0⟩) ⟨hex, rfl⟩ ?_
    intro j w hj heq
    -- the name is not in use
    have hfile := (hw.temporary j w hj).2
    rw [heq, free] at hfile
    cases hfile
  | @grows i u bytes hu fits =>
    exact hw.write (v := { u with data := u.data ++ bytes, size := u.size + bytes.length })
      (hw.temporary i u hu).1 fun j w hj heq => hw.apart j i w u hj hu heq
  | raises call later hu e => exact hw.close hu nofun
  | returns hu => exact (hw.store _).close hu nofun

theorem uploads_opened (root : Path) (maxBytes : Nat) (tree : Tree) :
    Uploads (opened root maxBytes tree) where
  temporary := by
    intro i u hu
    cases hu
  apart := by
    intro i j u v hu
    cases hu

theorem Uploads.reachable {root : Path} {maxBytes : Nat} {tree : Tree}
    (ht : Reachable (BlobStore.step h) (opened root maxBytes tree) t) : Uploads t :=
  ht.invariant (uploads_opened root maxBytes tree) fun _ _ _ hw hstep => hw.step hstep

/-! ## What a step spares -/

theorem Saves.root (hs : Saves h t l t') : t'.root = t.root ∧ t'.maxBytes = t.maxBytes := by
  cases hs <;> exact ⟨rfl, rfl⟩

theorem Saves.others (hs : Saves h t l t') {j : Nat} (hj : j ≠ l.call) :
    t'.saves j = t.saves j := by
  cases hs with
  | raises call => exact saves_setSave_ne (call ▸ hj) _
  | _ => exact saves_setSave_ne hj _

/-- Only a call that is in progress, or begins, takes a step. -/
theorem Saves.not_over (hs : Saves h t l t') {s : Save} (ht : t.saves l.call = some s) :
    s.over = false := by
  cases hs with
  | begins unborn =>
    cases unborn.symm.trans ht
  | raises call later writing =>
    cases call
    cases writing.symm.trans ht
    rfl
  | grows writing | returns writing =>
    cases writing.symm.trans ht
    rfl

/-- A call that is over stays over. -/
theorem Saves.over_kept (hs : Saves h t l t') {s : Save} (hover : s.over = true)
    (ht : t.saves i = some s) : t'.saves i = some s := by
  have hi : i ≠ l.call := by
    rintro rfl
    rw [hs.not_over ht] at hover
    cases hover
  exact (hs.others hi).trans ht

/-- Unless it returns, a step leaves all that is not a temporary file. -/
theorem Saves.frame (hw : Uploads t) (hs : Saves h t l t') :
    (∃ u, t.saves l.call = some (.writing u) ∧ l = .ends l.call ∧ t' = stores h t l.call u) ∨
      t'.stored = t.stored ∧ ∀ name, (∀ hex, name ≠ tmpName hex) →
        t'.tree (t'.inRoot name) = t.tree (t.inRoot name) := by
  cases hs with
  | @begins i hex expected made _ _ hmade =>
    refine .inr ⟨rfl, fun name hname => ?_⟩
    have hne : t.inRoot name ≠ t.inRoot (tmpName hex) := fun heq => hname hex (inRoot_inj.mp heq)
    exact (write_ne hne _).trans (mkdir_below hmade name [])
  | @grows i u bytes hu _ =>
    obtain ⟨⟨hex, htmp⟩, -⟩ := hw.temporary i u hu
    refine .inr ⟨rfl, fun name hname => write_ne (fun heq => hname hex ?_) _⟩
    exact (inRoot_inj.mp heq).trans htmp
  | @raises l i u call _ hu e =>
    obtain ⟨⟨hex, htmp⟩, -⟩ := hw.temporary i u hu
    refine .inr ⟨rfl, fun name hname => unlink_ne (fun heq => hname hex ?_)⟩
    exact (inRoot_inj.mp heq).trans htmp
  | @returns i u hu => exact .inl ⟨u, hu, rfl, rfl⟩

/-! ## What the calls receive -/

theorem received_snoc (i : Nat) (xs : List (Step (step h))) (x : Step (step h)) :
    received i (xs ++ [x]) = received i xs ++ x.label.bytesFor i := by
  simp [received]

theorem bytesFor_ne (hi : i ≠ l.call) : l.bytesFor i = [] := by
  cases l with
  | chunk j bytes => exact if_neg fun heq => hi heq.symm
  | _ => rfl

/-- What a call holds that has received `data`. -/
def Holds (h : Sha256) (t : BlobStore) (data : List UInt8) : Option Save → Prop
  | none => data = []
  | some (.writing u) => u.data = data ∧ u.size = data.length ∧ u.size ≤ t.maxBytes
  | some (.returned ref) =>
      ref = ⟨h.hexdigest data, data.length⟩ ∧ ref.size ≤ t.maxBytes ∧ data ∈ t.stored
  | some (.raised _) => True

theorem Holds.mono {data : List UInt8} {s : Option Save} (hmax : t'.maxBytes = t.maxBytes)
    (hsub : t.stored ⊆ t'.stored) (hh : Holds h t data s) : Holds h t' data s := by
  match s with
  | none => exact hh
  | some (.writing u) => exact ⟨hh.1, hh.2.1, hmax ▸ hh.2.2⟩
  | some (.returned ref) => exact ⟨hh.1, hmax ▸ hh.2.1, hsub hh.2.2⟩
  | some (.raised _) => trivial

theorem Saves.stored (hs : Saves h t l t') : t.stored ⊆ t'.stored := by
  cases hs with
  | returns => exact List.subset_append_left ..
  | _ => exact List.Subset.refl _

/-- A step keeps what its own call holds in line with what it received. -/
theorem Saves.holds (hs : Saves h t l t') {data : List UInt8}
    (hh : Holds h t data (t.saves l.call)) :
    Holds h t' (data ++ l.bytesFor l.call) (t'.saves l.call) := by
  cases hs with
  | @begins i hex expected made unborn =>
    simp only [BlobLabel.call] at hh ⊢
    rw [unborn] at hh
    cases hh
    rw [saves_setSave]
    exact ⟨rfl, rfl, Nat.zero_le _⟩
  | @grows i u bytes hu fits =>
    simp only [BlobLabel.call, BlobLabel.bytesFor, if_pos] at hh ⊢
    rw [hu] at hh
    obtain ⟨rfl, hsize, -⟩ := hh
    rw [saves_setSave]
    exact ⟨rfl, by rw [List.length_append, ← hsize], fits⟩
  | @raises l i u call =>
    cases call
    rw [BlobStore.close, saves_setSave]
    trivial
  | @returns i u hu =>
    simp only [BlobLabel.call, BlobLabel.bytesFor, List.append_nil] at hh ⊢
    rw [hu] at hh
    obtain ⟨rfl, hsize, hmax⟩ := hh
    rw [stores, BlobStore.close, saves_setSave]
    exact ⟨by rw [hsize], hmax, List.mem_append_right _ (List.mem_singleton_self _)⟩

/-- Under the digest of every stored content lies one of that digest. -/
def Filed (h : Sha256) (t : BlobStore) : Prop :=
  ∀ data ∈ t.stored, ∃ other ∈ t.stored, h.hexdigest other = h.hexdigest data ∧
    t.tree (t.inRoot (h.hexdigest data)) = some (.file other)

theorem filed_stores (hw : Uploads t) (hf : Filed h t) {u : Upload}
    (hu : t.saves i = some (.writing u)) : Filed h (stores h t i u) := by
  obtain ⟨⟨hex, htmp⟩, -⟩ := hw.temporary i u hu
  -- a digest is none of the temporary names
  have hkeep : ∀ data, (stores h t i u).tree ((stores h t i u).inRoot (h.hexdigest data)) =
      write t.tree (t.inRoot (h.hexdigest u.data)) u.data (t.inRoot (h.hexdigest data)) := by
    intro data
    refine unlink_ne fun heq => ?_
    have hname : tmpName hex = h.hexdigest data := by rw [← htmp, inRoot_inj.mp heq]
    exact tmpName_ne_hex (h.isHex data) hname
  intro data hdata
  rw [hkeep]
  by_cases hsame : h.hexdigest data = h.hexdigest u.data
  · refine ⟨u.data, List.mem_append_right _ (List.mem_singleton_self _), hsame.symm, ?_⟩
    rw [hsame, write_self]
  · have hold : data ∈ t.stored := by
      rcases List.mem_append.mp hdata with hold | hnew
      · exact hold
      · exact absurd (congrArg h.hexdigest (List.mem_singleton.mp hnew)) hsame
    obtain ⟨other, hother, hdigest, hfile⟩ := hf data hold
    refine ⟨other, List.mem_append_left _ hother, hdigest, ?_⟩
    rw [write_ne (fun heq => hsame (inRoot_inj.mp heq)), hfile]

theorem Saves.filed (hw : Uploads t) (hs : Saves h t l t') (hf : Filed h t) : Filed h t' := by
  obtain ⟨u, hu, -, rfl⟩ | ⟨hstored, htree⟩ := hs.frame hw
  · exact filed_stores hw hf hu
  · intro data hdata
    rw [hstored] at hdata ⊢
    rw [htree _ fun hex heq => tmpName_ne_hex (h.isHex data) heq.symm]
    exact hf data hdata

/-! ## Whole runs -/

variable {root : Path} {maxBytes : Nat} {tree : Tree} {xs : List (Step (step h))}

theorem run_saves (run : Run (step h) (opened root maxBytes tree) xs t) {x : Step (step h)}
    (hx : x ∈ xs) : Uploads x.src ∧ Saves h x.src x.label x.dst := by
  have hw := Uploads.reachable (run.src_reachable hx)
  exact ⟨hw, step_saves hw x.fired⟩

theorem run_holds (run : Run (step h) (opened root maxBytes tree) xs t) (i : Nat) :
    Holds h t (received i xs) (t.saves i) := by
  induction run with
  | nil => rfl
  | @snoc xs x run ih =>
    have hs := step_saves (Uploads.reachable run.reachable) x.fired
    rw [received_snoc]
    by_cases hi : i = x.label.call
    · subst hi
      exact hs.holds ih
    · rw [bytesFor_ne hi, List.append_nil, hs.others hi]
      exact ih.mono hs.root.2 hs.stored

theorem run_filed (run : Run (step h) (opened root maxBytes tree) xs t) : Filed h t := by
  induction run with
  | nil => exact fun data hdata => absurd hdata List.not_mem_nil
  | @snoc xs x run ih =>
    have hw := Uploads.reachable run.reachable
    exact (step_saves hw x.fired).filed hw ih

theorem run_root (run : Run (step h) (opened root maxBytes tree) xs t) :
    t.root = root ∧ t.maxBytes = maxBytes := by
  induction run with
  | nil => exact ⟨rfl, rfl⟩
  | @snoc xs x run ih =>
    obtain ⟨hroot, hmax⟩ := (step_saves (Uploads.reachable run.reachable) x.fired).root
    exact ⟨hroot.trans ih.1, hmax.trans ih.2⟩

/-- A call that is over stays over for the rest of a run. -/
theorem over_stays (hw : Uploads t) (hreach : Reachable (step h) t t') {s : Save}
    (hover : s.over = true) (ht : t.saves i = some s) : t'.saves i = some s := by
  refine Reachable.relates (I := Uploads)
    (R := fun t t' => t.saves i = some s → t'.saves i = some s)
    (fun _ ht => ht) (fun _ _ _ h₁ h₂ ht => h₂ (h₁ ht)) (fun _ _ _ hw hstep => hw.step hstep)
    (fun _ _ _ hw hstep ht => (step_saves hw hstep).over_kept hover ht) hw hreach ht

/-- The steps of a call that does not return leave all that is not a temporary
file. -/
theorem raised_spares (run : Run (step h) (opened root maxBytes tree) xs t) {e : BlobError}
    (ht : t.saves i = some (.raised e)) {x : Step (step h)} (hx : x ∈ xs)
    (hcall : x.label.call = i) {name : String} (hname : ∀ hex, name ≠ tmpName hex) :
    x.dst.tree (x.dst.inRoot name) = x.src.tree (x.src.inRoot name) := by
  obtain ⟨hw, hs⟩ := run_saves run hx
  obtain ⟨u, -, -, hdst⟩ | ⟨-, htree⟩ := hs.frame hw
  · -- a call that has returned has not raised
    have hreturned : x.dst.saves i = some (.returned ⟨h.hexdigest u.data, u.size⟩) := by
      rw [hdst, hcall, stores, BlobStore.close, saves_setSave]
    have hend := over_stays (hw.step x.fired) (run.dst_reaches hx) rfl hreturned
    cases ht.symm.trans hend
  · exact htree name hname

/-! ## The temporary files -/

/-- Call `i` has begun with the temporary name of `hex`. -/
def Named (xs : List (Step (step h))) (i : Nat) (hex : String) : Prop :=
  ∃ x ∈ xs, ∃ expected, x.label = .begin i hex expected

theorem tmpName_inj {hex hex' : String} : tmpName hex = tmpName hex' ↔ hex = hex' :=
  String.append_right_inj _

theorem Named.label {hex : String} (hn : Named xs i hex) :
    ∃ expected, .begin i hex expected ∈ xs.map Step.label := by
  obtain ⟨x, hx, expected, hl⟩ := hn
  exact ⟨expected, List.mem_map.mpr ⟨x, hx, hl⟩⟩

theorem Named.snoc {x : Step (step h)} {hex : String} (hn : Named xs i hex) :
    Named (xs ++ [x]) i hex := by
  obtain ⟨y, hy, expected, hl⟩ := hn
  exact ⟨y, List.mem_append_left _ hy, expected, hl⟩

theorem named_snoc {x : Step (step h)} {hex : String} (hn : Named (xs ++ [x]) i hex) :
    Named xs i hex ∨ ∃ expected, x.label = .begin i hex expected := by
  obtain ⟨y, hy, expected, hl⟩ := hn
  rcases List.mem_append.mp hy with hy | hy
  · exact .inl ⟨y, hy, expected, hl⟩
  · rw [List.mem_singleton] at hy
    exact .inr ⟨expected, hy ▸ hl⟩

/-- A call has its temporary file while it writes, and none once it is over. -/
structure Temporaries (xs : List (Step (step h))) (t : BlobStore) : Prop where
  writing : ∀ i u, t.saves i = some (.writing u) → ∃ hex, Named xs i hex ∧ u.tmp = tmpName hex
  named : ∀ i hex, Named xs i hex →
    (∃ u, t.saves i = some (.writing u) ∧ u.tmp = tmpName hex) ∨
      ∃ s, t.saves i = some s ∧ s.over = true ∧ t.tree (t.inRoot (tmpName hex)) = none

theorem temporaries_opened (root : Path) (maxBytes : Nat) (tree : Tree) :
    Temporaries ([] : List (Step (step h))) (opened root maxBytes tree) where
  writing := by
    intro i u hu
    cases hu
  named := by
    rintro i hex ⟨x, hx, -⟩
    cases hx

/-- A step that begins no call gives no call a name. -/
theorem Temporaries.snoc (ht : Temporaries xs t) {x : Step (step h)}
    (later : x.label.isBegin = false) : Temporaries (xs ++ [x]) t where
  writing := by
    intro i u hu
    obtain ⟨hex, hn, htmp⟩ := ht.writing i u hu
    exact ⟨hex, hn.snoc, htmp⟩
  named := by
    intro i hex hn
    rcases named_snoc hn with hn | ⟨expected, hl⟩
    · exact ht.named i hex hn
    · rw [hl] at later
      cases later

theorem Temporaries.close (ht : Temporaries xs t) {u : Upload}
    (hu : t.saves i = some (.writing u)) {s : Save} (hs : s.over = true) :
    Temporaries xs (t.close i u s) where
  writing := by
    intro j v hv
    refine ht.writing j v (writing_of_over ?_ hv).2
    rintro w rfl
    cases hs
  named := by
    intro j hex hn
    by_cases hji : j = i
    · -- the file that is removed is the call's own
      subst hji
      refine .inr ⟨s, saves_setSave j s, hs, ?_⟩
      rcases ht.named j hex hn with ⟨v, hv, htmp⟩ | ⟨r, hr, hover, -⟩
      · cases hu.symm.trans hv
        rw [← htmp]
        exact unlink_self _
      · cases hu.symm.trans hr
        cases hover
    · rcases ht.named j hex hn with ⟨v, hv, htmp⟩ | ⟨r, hr, hover, hgone⟩
      · exact .inl ⟨v, (saves_setSave_ne hji s).trans hv, htmp⟩
      · refine .inr ⟨r, (saves_setSave_ne hji s).trans hr, hover, ?_⟩
        by_cases hpath : t.inRoot (tmpName hex) = t.inRoot u.tmp
        · exact (congrArg _ hpath).trans (unlink_self _)
        · exact (unlink_ne hpath).trans hgone

/-- A content is moved to its digest, which is no temporary name. -/
theorem Temporaries.store (ht : Temporaries xs t) (data : List UInt8) :
    Temporaries xs { t with
      tree := FileTree.write t.tree (t.inRoot (h.hexdigest data)) data
      stored := t.stored ++ [data] } where
  writing := ht.writing
  named := by
    intro j hex hn
    rcases ht.named j hex hn with hv | ⟨r, hr, hover, hgone⟩
    · exact .inl hv
    · refine .inr ⟨r, hr, hover, (write_ne ?_ _).trans hgone⟩
      exact fun heq => tmpName_ne_hex (h.isHex data) (inRoot_inj.mp heq)

/-- No two calls have a temporary name in common. -/
def Fresh (xs : List (Step (step h))) : Prop :=
  ∀ i j hex, Named xs i hex → Named xs j hex → i = j

theorem Temporaries.grow (ht : Temporaries xs t) (fresh : Fresh xs) {u : Upload}
    (hu : t.saves i = some (.writing u)) {v : Upload} (hv : v.tmp = u.tmp) :
    Temporaries xs
      ({ t with tree := write t.tree (t.inRoot u.tmp) v.data }.setSave i (.writing v)) where
  writing := by
    intro j w hw
    rcases writing_of_update hw with ⟨rfl, rfl⟩ | ⟨-, hw⟩
    · rw [hv]
      exact ht.writing j u hu
    · exact ht.writing j w hw
  named := by
    intro j hex hn
    obtain ⟨mine, hmine, htmp⟩ := ht.writing i u hu
    rcases ht.named j hex hn with ⟨w, hw, hwtmp⟩ | ⟨r, hr, hover, hgone⟩
    · by_cases hji : j = i
      · subst hji
        cases hu.symm.trans hw
        exact .inl ⟨v, saves_setSave j _, hv.trans hwtmp⟩
      · exact .inl ⟨w, (saves_setSave_ne hji _).trans hw, hwtmp⟩
    · have hji : j ≠ i := by
        rintro rfl
        cases hu.symm.trans hr
        cases hover
      refine .inr ⟨r, (saves_setSave_ne hji _).trans hr, hover, (write_ne (fun heq => ?_) _).trans
        hgone⟩
      -- the name is another call's
      obtain rfl := tmpName_inj.mp ((inRoot_inj.mp heq).trans htmp)
      exact hji (fresh j i hex hn hmine)

theorem Temporaries.begin (ht : Temporaries xs t) {x : Step (step h)} {hex : String}
    {expected : Option String} (hl : x.label = .begin i hex expected)
    (fresh : Fresh (xs ++ [x])) (unborn : t.saves i = none) {made : Tree}
    (hmade : mkdir t.tree t.root = some made) :
    Temporaries (xs ++ [x])
      ({ t with tree := write made (t.inRoot (tmpName hex)) [] }.setSave i
        (.writing ⟨tmpName hex, expected, [], 0⟩)) := by
  have hmine : Named (xs ++ [x]) i hex :=
    ⟨x, List.mem_append_right _ (List.mem_singleton_self _), expected, hl⟩
  constructor
  case writing =>
    intro j w hw
    rcases writing_of_update hw with ⟨rfl, rfl⟩ | ⟨-, hw⟩
    · exact ⟨hex, hmine, rfl⟩
    · obtain ⟨other, hn, htmp⟩ := ht.writing j w hw
      exact ⟨other, hn.snoc, htmp⟩
  case named =>
    intro j other hn
    rcases named_snoc hn with hold | ⟨expected', hl'⟩
    · have hji : j ≠ i := by
        rintro rfl
        rcases ht.named j other hold with ⟨w, hw, -⟩ | ⟨r, hr, -⟩
        · cases unborn.symm.trans hw
        · cases unborn.symm.trans hr
      rcases ht.named j other hold with ⟨w, hw, htmp⟩ | ⟨r, hr, hover, hgone⟩
      · exact .inl ⟨w, (saves_setSave_ne hji _).trans hw, htmp⟩
      · refine .inr ⟨r, (saves_setSave_ne hji _).trans hr, hover, ?_⟩
        have hne : t.inRoot (tmpName other) ≠ t.inRoot (tmpName hex) := by
          intro heq
          obtain rfl := tmpName_inj.mp (inRoot_inj.mp heq)
          exact hji (fresh j i other hn hmine)
        exact (write_ne hne _).trans ((mkdir_below hmade _ []).trans hgone)
    · cases hl.symm.trans hl'
      exact .inl ⟨_, saves_setSave _ _, rfl⟩

theorem Temporaries.step (ht : Temporaries xs t) {x : Step (step h)} (hl : x.label = l)
    (fresh : Fresh (xs ++ [x])) (hs : Saves h t l t') : Temporaries (xs ++ [x]) t' := by
  cases hs with
  | @begins i hex expected made unborn free hmade => exact ht.begin hl fresh unborn hmade
  | @grows i u bytes hu _ => 
    exact (ht.snoc (by rw [hl]; rfl)).grow
      (v := { u with data := u.data ++ bytes, size := u.size + bytes.length }) fresh hu rfl
  | @raises l i u _ later hu e => exact (ht.snoc (by rw [hl, later])).close hu rfl
  | @returns i u hu => exact ((ht.snoc (by rw [hl]; rfl)).store u.data).close hu rfl

theorem run_temporaries (run : Run (step h) (opened root maxBytes tree) xs t) (fresh : Fresh xs) :
    Temporaries xs t := by
  induction run with
  | nil => exact temporaries_opened root maxBytes tree
  | @snoc xs x run ih =>
    have hold : Fresh xs := fun i j hex hi hj => fresh i j hex hi.snoc hj.snoc
    exact (ih hold).step rfl fresh (run_saves (run.snoc x) (by simp)).2

/-! ## All or nothing -/

/-- The digest tells the stored contents apart. -/
def CollisionFree (h : Sha256) (t : BlobStore) : Prop :=
  ∀ a ∈ t.stored, ∀ b ∈ t.stored, h.hexdigest a = h.hexdigest b → a = b

/-- What the calls of a run leave in the root. -/
structure Atomic (h : Sha256) (root : Path) (maxBytes : Nat) (xs : List (Step (step h)))
    (t : BlobStore) : Prop where
  /-- the blob of a call that has returned is all that it received -/
  returned : ∀ i ref, t.saves i = some (.returned ref) →
    t.tree (root ++ [ref.sha256]) = some (.file (received i xs)) ∧
      ref.sha256 = h.hexdigest (received i xs) ∧ ref.size = (received i xs).length ∧
        ref.size ≤ maxBytes
  /-- no step of a call that has raised changes a blob -/
  raised : ∀ i e, t.saves i = some (.raised e) → ∀ x ∈ xs, x.label.call = i →
    ∀ name, (∀ hex, name ≠ tmpName hex) → x.dst.tree (root ++ [name]) = x.src.tree (root ++ [name])
  /-- a call that is over has no temporary file -/
  removed : ∀ i s, t.saves i = some s → s.over = true → ∀ hex, Named xs i hex →
    t.tree (root ++ [tmpName hex]) = none

/-- **A blob is saved whole or not at all**, whatever other calls do in
between. -/
theorem save_atomic (run : Run (step h) (opened root maxBytes tree) xs t) (fresh : Fresh xs)
    (hcf : CollisionFree h t) : Atomic h root maxBytes xs t where
  returned := by
    intro i ref href
    obtain ⟨rfl, rfl⟩ := run_root run
    have hholds := run_holds run i
    rw [href] at hholds
    obtain ⟨rfl, hmax, hstored⟩ := hholds
    obtain ⟨other, hother, hdigest, hfile⟩ := run_filed run _ hstored
    rw [hcf other hother _ hstored hdigest] at hfile
    exact ⟨hfile, rfl, rfl, hmax⟩
  raised := by
    intro i e he x hx hcall name hname
    obtain ⟨ys, hys⟩ := run.src_reachable hx
    have hsrc : x.src.root = root := (run_root hys).1
    have hdst : x.dst.root = root := (run_saves run hx).2.root.1.trans hsrc
    have hspares := raised_spares run he hx hcall hname
    rwa [inRoot, inRoot, hsrc, hdst] at hspares
  removed := by
    intro i s hi hover hex hn
    obtain ⟨rfl, -⟩ := run_root run
    rcases (run_temporaries run fresh).named i hex hn with ⟨u, hu, -⟩ | ⟨-, -, -, hgone⟩
    · cases hi.symm.trans hu
      cases hover
    · exact hgone

/-- Two uploads of one content that overlap, each in two pieces, and a third
that is cancelled. -/
def uploads : List BlobLabel :=
  [.begin 0 "0123456789abcdef0123456789abcdef" none,
    .begin 1 "123456789abcdef0123456789abcdef0" (some (abcSha.hexdigest abc)),
    .chunk 0 [0x61], .begin 2 "23456789abcdef0123456789abcdef01" none, .chunk 1 [0x61, 0x62],
    .chunk 2 [0x37], .chunk 0 [0x62, 0x63], .ends 0, .chunk 1 [0x63], .fails 2 "cancelled", .ends 1]

theorem save_atomic_uploads :
    ∃ xs t, xs.map Step.label = uploads ∧ t.stored = [abc, abc] ∧
      Run (step abcSha) (opened ["blobs"] 4 emptyDisk.tree) xs t ∧
        Atomic abcSha ["blobs"] 4 xs t := by
  obtain ⟨xs, t, run, hlabels, hend⟩ := exec_labels (step abcSha)
    (opened ["blobs"] 4 emptyDisk.tree) uploads (fun t => t.stored = [abc, abc]) (by decide +kernel)
  have hstored : t.stored = [abc, abc] := of_decide_eq_true hend
  refine ⟨xs, t, hlabels, hstored, run, save_atomic run ?_ ?_⟩
  · intro i j hex hi hj
    obtain ⟨_, hmine⟩ := hi.label
    obtain ⟨_, hother⟩ := hj.label
    rw [hlabels] at hmine hother
    simp only [uploads, List.mem_cons, BlobLabel.begin.injEq, reduceCtorEq, List.not_mem_nil,
      or_false, false_or] at hmine hother
    rcases hmine with ⟨rfl, rfl, -⟩ | ⟨rfl, rfl, -⟩ | ⟨rfl, rfl, -⟩
    all_goals
      simp at hother
      exact hother.1.symm
  · intro a ha b hb _
    rw [hstored] at ha hb
    simp only [List.mem_cons, List.not_mem_nil, or_false, or_self] at ha hb
    rw [ha, hb]

end BlobStore

end Fusion
