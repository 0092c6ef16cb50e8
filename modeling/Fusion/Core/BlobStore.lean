import Fusion.Contracts.Command
import Fusion.Lib.FileTree
import Fusion.Lib.Transition

/-!
# BlobStore — blobs under the digest of their content
(core/blob_store.py, core/device_runtime.py)

An upload is written chunk by chunk to a temporary file in the store's root
and moved to its digest when the stream ends. Uploads interleave at their
chunks. A lookup joins the client's text to the root as it is; what it finds
is a blob of that digest exactly when the text is a digest.
-/

namespace Fusion

open FileTree Transition

/-! ## The store -/

/-- A lower-case hexadecimal text of this length. -/
def isHex (length : Nat) (s : String) : Bool :=
  s.toList.length = length &&
    s.toList.all fun c => ('0' ≤ c && c ≤ '9') || ('a' ≤ c && c ≤ 'f')

/-- `hashlib.sha256(data).hexdigest()`. -/
structure Sha256 where
  hexdigest : List UInt8 → String
  isHex : ∀ data, isHex 64 (hexdigest data) = true

/-- What `save_stream` returns. -/
structure BlobRef where
  sha256 : String
  size : Nat

/-- Why `save_stream` raises. -/
inductive BlobError
  | tooLarge (size maxBytes : Nat)
  | hashMismatch (expected actual : String)
  /-- the stream of chunks, or the operating system, raised -/
  | other (message : String)

/-- `str` of the error. -/
def BlobError.message : BlobError → String
  | tooLarge size maxBytes => s!"blob size {size} exceeds max {maxBytes} bytes"
  | hashMismatch expected actual => s!"expected sha256 {expected}, got {actual}"
  | other message => message

/-- One call of `save_stream` that waits for its next chunk. -/
structure Upload where
  /-- the name of `tmp_path` in the root -/
  tmp : String
  expected : Option String
  /-- what the hasher was given and the file holds -/
  data : List UInt8
  size : Nat

/-- Where a call of `save_stream` is. -/
inductive Save
  | writing (u : Upload)
  | returned (ref : BlobRef)
  | raised (e : BlobError)

/-- The store, its disk and the calls on it. -/
structure BlobStore where
  root : Path
  maxBytes : Nat
  tree : Tree
  saves : Nat → Option Save
  /-- the contents that were moved to their digests -/
  stored : List (List UInt8)

/-- What call `i` meets next. -/
inductive BlobLabel
  /-- a call of `save_stream` up to its first chunk; `hex` is `uuid4().hex` -/
  | begin (i : Nat) (hex : String) (expected : Option String)
  | chunk (i : Nat) (bytes : List UInt8)
  /-- the stream ends -/
  | ends (i : Nat)
  /-- the stream raises, or the call is cancelled -/
  | fails (i : Nat) (message : String)

/-- The call that takes the step. -/
def BlobLabel.call : BlobLabel → Nat
  | begin i _ _ | chunk i _ | ends i | fails i _ => i

/-- The step begins a call. -/
def BlobLabel.isBegin : BlobLabel → Bool
  | begin .. => true
  | _ => false

namespace BlobStore

/-- The name of an upload's temporary file. -/
def tmpName (hex : String) : String := ".tmp-" ++ hex

/-- The path of a name in the root. -/
def inRoot (t : BlobStore) (name : String) : Path := t.root ++ [name]

/-- Where call `i` is. -/
def setSave (t : BlobStore) (i : Nat) (s : Save) : BlobStore :=
  { t with saves := Function.update t.saves i (some s) }

/-- The `finally`: the temporary file is removed, and the call is over. -/
def close (t : BlobStore) (i : Nat) (u : Upload) (s : Save) : BlobStore :=
  { t.setSave i s with tree := unlink t.tree (t.inRoot u.tmp) }

/-- After the last chunk. -/
def finish (h : Sha256) (t : BlobStore) (i : Nat) (u : Upload) : BlobStore :=
  let digest := h.hexdigest u.data
  match u.expected.filter (· ≠ digest) with
  | some expected => t.close i u (.raised (.hashMismatch expected digest))
  | none =>
      match replace t.tree (t.inRoot u.tmp) (t.inRoot digest) with
      | .error message => t.close i u (.raised (.other message))
      | .ok tree =>
          { t with tree, stored := t.stored ++ [u.data] }.close i u (.returned ⟨digest, u.size⟩)

/-- One step. A fresh `uuid4` names no file of the root. -/
def step (h : Sha256) (t : BlobStore) : BlobLabel → Option BlobStore
  | .begin i hex expected =>
      if (t.saves i).isNone ∧ isHex 32 hex = true ∧ (t.tree (t.inRoot (tmpName hex))).isNone then
        (mkdir t.tree t.root).map fun tree =>
          { t with tree := write tree (t.inRoot (tmpName hex)) [] }.setSave i
            (.writing ⟨tmpName hex, expected, [], 0⟩)
      else none
  | .chunk i bytes =>
      match t.saves i with
      | some (.writing u) =>
          let size := u.size + bytes.length
          if size > t.maxBytes then some (t.close i u (.raised (.tooLarge size t.maxBytes)))
          else
            some ({ t with tree := write t.tree (t.inRoot u.tmp) (u.data ++ bytes) }.setSave i
              (.writing { u with data := u.data ++ bytes, size }))
      | _ => none
  | .ends i =>
      match t.saves i with
      | some (.writing u) => some (finish h t i u)
      | _ => none
  | .fails i message =>
      match t.saves i with
      | some (.writing u) => some (t.close i u (.raised (.other message)))
      | _ => none

/-- `path_for(sha256)` -/
def pathFor (t : BlobStore) (sha256 : String) : List String :=
  join t.root sha256

/-- The file that `path_for(sha256)` leads to, with its content. -/
def leadsTo (t : BlobStore) (sha256 : String) : Option (Path × List UInt8) :=
  find t.tree (t.pathFor sha256)

/-- `DeviceRuntimeApp.save_blob`: what a call of it raises. -/
def saveError (e : BlobError) : Fault :=
  match e with
  | .tooLarge .. | .hashMismatch .. => .fusion ⟨.validationError, e.message⟩
  | .other message => .other message

/-- `DeviceRuntimeApp.open_blob` -/
def openBlob (t : BlobStore) (sha256 : String) : Except FusionError (List String) :=
  if (t.leadsTo sha256).isSome then .ok (t.pathFor sha256)
  else .error ⟨.blobNotFound, s!"unknown blob sha256 '{sha256}'"⟩

/-- A disk with a root for the store, below which there are only the blobs of
earlier runs. -/
structure Disk (h : Sha256) where
  root : Path
  names : ".." ∉ root
  tree : Tree
  stored : List (List UInt8)
  below : ∀ name rest node, tree (root ++ name :: rest) = some node →
    rest = [] ∧ ∃ data ∈ stored, name = h.hexdigest data ∧ node = .file data

/-- The store over a disk, before any call. -/
def init {h : Sha256} (d : Disk h) (maxBytes : Nat) : BlobStore :=
  ⟨d.root, maxBytes, d.tree, fun _ => none, d.stored⟩

/-! ## The uploads in progress -/

/-- Every upload in progress has a temporary file of its own, with what was
written so far. -/
structure Uploads (t : BlobStore) : Prop where
  temporary : ∀ i u, t.saves i = some (.writing u) →
    (∃ hex, u.tmp = tmpName hex) ∧ t.tree (t.inRoot u.tmp) = some (.file u.data)
  apart : ∀ i j u v, t.saves i = some (.writing u) → t.saves j = some (.writing v) →
    u.tmp = v.tmp → i = j

variable {h : Sha256} {t : BlobStore}

/-- A digest is not the name of a temporary file. -/
theorem tmpName_ne_hex {hex s : String} {n : Nat} (hs : isHex n s = true) : tmpName hex ≠ s := by
  intro heq
  rw [← heq] at hs
  simp [isHex, tmpName] at hs

theorem inRoot_inj {a b : String} : t.inRoot a = t.inRoot b ↔ a = b := by
  simp [inRoot]

theorem saves_setSave (i : Nat) (s : Save) : (t.setSave i s).saves i = some s :=
  Function.update_self ..

theorem saves_setSave_ne {i j : Nat} (hji : j ≠ i) (s : Save) :
    (t.setSave i s).saves j = t.saves j :=
  Function.update_of_ne hji ..

/-- Who is still writing once `i` is over was writing before. -/
theorem writing_of_over {i : Nat} {s : Save} (hs : ∀ v, s ≠ .writing v) {j : Nat} {v : Upload}
    (hv : (t.setSave i s).saves j = some (.writing v)) :
    j ≠ i ∧ t.saves j = some (.writing v) := by
  have hji : j ≠ i := by
    intro heq
    rw [heq, saves_setSave] at hv
    exact hs v (Option.some.inj hv)
  exact ⟨hji, by rwa [saves_setSave_ne hji] at hv⟩

theorem Uploads.close (hw : Uploads t) {i : Nat} {u : Upload} (hu : t.saves i = some (.writing u))
    {s : Save} (hs : ∀ v, s ≠ .writing v) : Uploads (t.close i u s) where
  temporary := by
    intro j v hv
    obtain ⟨hji, hv⟩ := writing_of_over hs hv
    obtain ⟨hname, hfile⟩ := hw.temporary j v hv
    have hne : t.inRoot v.tmp ≠ t.inRoot u.tmp := fun heq =>
      hji (hw.apart j i v u hv hu (inRoot_inj.mp heq))
    exact ⟨hname, (unlink_ne hne).trans hfile⟩
  apart := fun j k v w hv hx =>
    hw.apart j k v w (writing_of_over hs hv).2 (writing_of_over hs hx).2

/-- Who is writing once `i` writes `v` is `i`, or was writing before. -/
theorem writing_of_update {i : Nat} {v : Upload} {j : Nat} {w : Upload}
    (hw : Function.update t.saves i (some (.writing v)) j = some (.writing w)) :
    (j = i ∧ w = v) ∨ (j ≠ i ∧ t.saves j = some (.writing w)) := by
  by_cases hji : j = i
  · subst hji
    rw [Function.update_self] at hw
    cases hw
    exact .inl ⟨rfl, rfl⟩
  · rw [Function.update_of_ne hji] at hw
    exact .inr ⟨hji, hw⟩

theorem Uploads.write (hw : Uploads t) {i : Nat} {v : Upload} (hname : ∃ hex, v.tmp = tmpName hex)
    (hmine : ∀ j w, t.saves j = some (.writing w) → w.tmp = v.tmp → j = i) :
    Uploads ({ t with tree := FileTree.write t.tree (t.inRoot v.tmp) v.data }.setSave i
      (.writing v)) where
  temporary := by
    intro j w hv
    rcases writing_of_update hv with ⟨-, rfl⟩ | ⟨hji, hv⟩
    · exact ⟨hname, write_self ..⟩
    · obtain ⟨hwname, hfile⟩ := hw.temporary j w hv
      have hne : t.inRoot w.tmp ≠ t.inRoot v.tmp := fun heq =>
        hji (hmine j w hv (inRoot_inj.mp heq))
      exact ⟨hwname, (write_ne hne _).trans hfile⟩
  apart := by
    intro j k w x hv hx heq
    rcases writing_of_update hv with ⟨rfl, rfl⟩ | ⟨-, hj⟩
    · rcases writing_of_update hx with ⟨rfl, -⟩ | ⟨-, hk⟩
      · rfl
      · exact (hmine k x hk heq.symm).symm
    · rcases writing_of_update hx with ⟨rfl, rfl⟩ | ⟨-, hk⟩
      · exact hmine j w hj heq
      · exact hw.apart j k w x hj hk heq

/-- The root is made where there is none. -/
theorem Uploads.mkdir (hw : Uploads t) {made : Tree} (hmade : mkdir t.tree t.root = some made) :
    Uploads { t with tree := made } where
  temporary := by
    intro i u hu
    obtain ⟨hname, hfile⟩ := hw.temporary i u hu
    exact ⟨hname, (mkdir_below hmade u.tmp []).trans hfile⟩
  apart := hw.apart

/-- A content is moved to its digest. -/
theorem Uploads.store (hw : Uploads t) (data : List UInt8) :
    Uploads { t with
      tree := FileTree.write t.tree (t.inRoot (h.hexdigest data)) data
      stored := t.stored ++ [data] } where
  temporary := by
    intro i u hu
    obtain ⟨⟨hex, hname⟩, hfile⟩ := hw.temporary i u hu
    have hne : t.inRoot u.tmp ≠ t.inRoot (h.hexdigest data) := by
      rw [hname, ne_eq, inRoot_inj]
      exact tmpName_ne_hex (h.isHex data)
    exact ⟨⟨hex, hname⟩, (write_ne hne _).trans hfile⟩
  apart := hw.apart

/-! ## What a step does -/

variable {t' : BlobStore} {l : BlobLabel} {i : Nat}

/-- The content of an upload is moved to its digest and the call returns. -/
def stores (h : Sha256) (t : BlobStore) (i : Nat) (u : Upload) : BlobStore :=
  { t with
    tree := write t.tree (t.inRoot (h.hexdigest u.data)) u.data
    stored := t.stored ++ [u.data] }.close i u (.returned ⟨h.hexdigest u.data, u.size⟩)

/-- What a step does: a call begins, its file grows, it raises or it returns. -/
inductive Saves (h : Sha256) (t : BlobStore) : BlobLabel → BlobStore → Prop
  | begins {i : Nat} {hex : String} {expected : Option String} {made : Tree}
      (unborn : t.saves i = none) (free : t.tree (t.inRoot (tmpName hex)) = none)
      (mkdir : mkdir t.tree t.root = some made) :
      Saves h t (.begin i hex expected)
        ({ t with tree := write made (t.inRoot (tmpName hex)) [] }.setSave i
          (.writing ⟨tmpName hex, expected, [], 0⟩))
  | grows {i : Nat} {u : Upload} {bytes : List UInt8} (writing : t.saves i = some (.writing u))
      (fits : u.size + bytes.length ≤ t.maxBytes) :
      Saves h t (.chunk i bytes)
        ({ t with tree := write t.tree (t.inRoot u.tmp) (u.data ++ bytes) }.setSave i
          (.writing { u with data := u.data ++ bytes, size := u.size + bytes.length }))
  /-- too large, of another digest than expected, failed or cancelled -/
  | raises {l : BlobLabel} {i : Nat} {u : Upload} (call : l.call = i)
      (later : l.isBegin = false)
      (writing : t.saves i = some (.writing u)) (e : BlobError) :
      Saves h t l (t.close i u (.raised e))
  | returns {i : Nat} {u : Upload} (writing : t.saves i = some (.writing u)) :
      Saves h t (.ends i) (stores h t i u)

theorem finish_saves (hw : Uploads t) {u : Upload} (hu : t.saves i = some (.writing u)) :
    Saves h t (.ends i) (finish h t i u) := by
  unfold finish
  dsimp only
  split
  · exact .raises rfl rfl hu _
  · split
    · exact .raises rfl rfl hu _
    · rename_i tree hmoved
      rw [replace_file (hw.temporary i u hu).2 hmoved]
      simpa [stores, BlobStore.close, setSave, inRoot, unlink_unlink] using
        Saves.returns (h := h) hu

theorem step_saves (hw : Uploads t) (hstep : t.step h l = some t') : Saves h t l t' := by
  cases l with
  | begin i hex expected =>
    simp only [BlobStore.step] at hstep
    split at hstep
    · rename_i hguard
      obtain ⟨made, hmade, rfl⟩ := Option.map_eq_some_iff.mp hstep
      obtain ⟨hnew, -, hfree⟩ := hguard
      exact .begins (Option.isNone_iff_eq_none.mp hnew) (Option.isNone_iff_eq_none.mp hfree) hmade
    · cases hstep
  | chunk i bytes =>
    simp only [BlobStore.step] at hstep
    split at hstep
    · rename_i u hu
      split at hstep <;> cases hstep
      · exact .raises rfl rfl hu _
      · rename_i hsize
        exact .grows hu (not_lt.mp hsize)
    · cases hstep
  | ends i =>
    simp only [BlobStore.step] at hstep
    split at hstep
    · cases hstep
      exact finish_saves hw ‹_›
    · cases hstep
  | fails i message =>
    simp only [BlobStore.step] at hstep
    split at hstep
    · cases hstep
      exact .raises rfl rfl ‹_› _
    · cases hstep

/-! ## What lies in the root -/

/-- Below the root there are the files of the uploads in progress and the
blobs, each under its digest. -/
structure Inv (h : Sha256) (t : BlobStore) : Prop where
  names : ".." ∉ t.root
  below : ∀ name rest node, t.tree (t.root ++ name :: rest) = some node → rest = [] ∧
    ((∃ i u, t.saves i = some (.writing u) ∧ name = u.tmp ∧ node = .file u.data) ∨
      ∃ data ∈ t.stored, name = h.hexdigest data ∧ node = .file data)
  temporary : ∀ i u, t.saves i = some (.writing u) →
    (∃ hex, u.tmp = tmpName hex) ∧ t.tree (t.inRoot u.tmp) = some (.file u.data)
  apart : ∀ i j u v, t.saves i = some (.writing u) → t.saves j = some (.writing v) →
    u.tmp = v.tmp → i = j

theorem inv_init {h : Sha256} (d : Disk h) (maxBytes : Nat) : Inv h (init d maxBytes) where
  names := d.names
  below := by
    intro name rest node hnode
    obtain ⟨hrest, hblob⟩ := d.below name rest node hnode
    exact ⟨hrest, .inr hblob⟩
  temporary := by
    intro i u hsave
    cases hsave
  apart := by
    intro i j u v hsave
    cases hsave

theorem Inv.uploads (hi : Inv h t) : Uploads t :=
  ⟨hi.temporary, hi.apart⟩

/-- An upload is over and its temporary file is removed. -/
theorem Inv.close (hi : Inv h t) {i : Nat} {u : Upload} (hu : t.saves i = some (.writing u))
    {s : Save} (hs : ∀ v, s ≠ .writing v) : Inv h (t.close i u s) := by
  have hopen := hi.uploads.close hu hs
  refine ⟨hi.names, ?_, hopen.temporary, hopen.apart⟩
  intro name rest node hnode
  have hnode : unlink t.tree (t.inRoot u.tmp) (t.root ++ name :: rest) = some node := hnode
  by_cases hpath : t.root ++ name :: rest = t.inRoot u.tmp
  · rw [hpath, unlink_self] at hnode
    cases hnode
  · rw [unlink_ne hpath] at hnode
    obtain ⟨rfl, ⟨j, v, hv, rfl, rfl⟩ | hblob⟩ := hi.below name rest node hnode
    · refine ⟨rfl, .inl ⟨j, v, ?_, rfl, rfl⟩⟩
      -- the file that is removed is the upload's own
      have hji : j ≠ i := by
        rintro rfl
        rw [hu] at hv
        cases hv
        exact hpath rfl
      exact (saves_setSave_ne hji s).trans hv
    · exact ⟨rfl, .inr hblob⟩

/-- An upload's data is written to its temporary file. -/
theorem Inv.write (hi : Inv h t) {i : Nat} {v : Upload} (hname : ∃ hex, v.tmp = tmpName hex)
    (hmine : ∀ j w, t.saves j = some (.writing w) → w.tmp = v.tmp → j = i)
    (hsame : ∀ w, t.saves i = some (.writing w) → w.tmp = v.tmp) :
    Inv h ({ t with tree := FileTree.write t.tree (t.inRoot v.tmp) v.data }.setSave i
      (.writing v)) := by
  have hopen := hi.uploads.write hname hmine
  refine ⟨hi.names, ?_, hopen.temporary, hopen.apart⟩
  intro name rest node hnode
  have hnode : FileTree.write t.tree (t.inRoot v.tmp) v.data (t.root ++ name :: rest) =
      some node := hnode
  by_cases hpath : t.root ++ name :: rest = t.inRoot v.tmp
  · rw [hpath, write_self] at hnode
    cases hnode
    have htail := List.append_cancel_left hpath
    cases htail
    exact ⟨rfl, .inl ⟨i, v, Function.update_self .., rfl, rfl⟩⟩
  · rw [write_ne hpath] at hnode
    obtain ⟨rfl, ⟨j, w, hw, rfl, rfl⟩ | hblob⟩ := hi.below name rest node hnode
    · refine ⟨rfl, .inl ⟨j, w, ?_, rfl, rfl⟩⟩
      have hji : j ≠ i := by
        rintro rfl
        exact hpath (inRoot_inj.mpr (hsame w hw))
      exact (Function.update_of_ne hji ..).trans hw
    · exact ⟨rfl, .inr hblob⟩

theorem Inv.mkdir (hi : Inv h t) {made : Tree} (hmade : mkdir t.tree t.root = some made) :
    Inv h { t with tree := made } := by
  refine ⟨hi.names, ?_, (hi.uploads.mkdir hmade).temporary, hi.apart⟩
  intro name rest node hnode
  exact hi.below name rest node ((mkdir_below hmade name rest).symm.trans hnode)

theorem Inv.store (hi : Inv h t) (data : List UInt8) :
    Inv h { t with
      tree := FileTree.write t.tree (t.inRoot (h.hexdigest data)) data
      stored := t.stored ++ [data] } := by
  refine ⟨hi.names, ?_, (hi.uploads.store data).temporary, hi.apart⟩
  intro name rest node hnode
  have hnode : FileTree.write t.tree (t.inRoot (h.hexdigest data)) data (t.root ++ name :: rest) =
      some node := hnode
  by_cases hpath : t.root ++ name :: rest = t.inRoot (h.hexdigest data)
  · rw [hpath, write_self] at hnode
    cases hnode
    have htail := List.append_cancel_left hpath
    cases htail
    exact ⟨rfl, .inr ⟨data, by simp, rfl, rfl⟩⟩
  · rw [write_ne hpath] at hnode
    obtain ⟨rfl, hupload | ⟨old, hold, rfl, rfl⟩⟩ := hi.below name rest node hnode
    · exact ⟨rfl, .inl hupload⟩
    · exact ⟨rfl, .inr ⟨old, List.mem_append_left _ hold, rfl, rfl⟩⟩

theorem Inv.step (hi : Inv h t) (hstep : t.step h l = some t') : Inv h t' := by
  cases step_saves hi.uploads hstep with
  | @begins i hex expected made unborn free hmade =>
    refine (hi.mkdir hmade).write (v := ⟨tmpName hex, expected, [], 0⟩) ⟨hex, rfl⟩ ?_ ?_
    · intro j w hw heq
      -- the name is not in use
      have hfile := (hi.temporary j w hw).2
      rw [heq, free] at hfile
      cases hfile
    · intro w hw
      rw [show t.saves i = none from unborn] at hw
      cases hw
  | @grows i u bytes hu fits =>
    refine hi.write (v := { u with data := u.data ++ bytes, size := u.size + bytes.length })
      (hi.temporary i u hu).1 ?_ ?_
    · intro j w hw heq
      exact hi.apart j i w u hw hu heq
    · intro w hw
      rw [hu] at hw
      cases hw
      rfl
  | raises _ _ hu e => exact hi.close hu nofun
  | returns hu => exact (hi.store _).close hu nofun

theorem Inv.reachable {d : Disk h} {maxBytes : Nat}
    (ht : Reachable (BlobStore.step h) (init d maxBytes) t) : Inv h t :=
  ht.invariant (I := Inv h) (inv_init d maxBytes) fun _ _ _ hi hstep => hi.step hstep

/-! ## What a lookup finds -/

/-- A digest is one name, and not `..`. -/
theorem join_hex (root : Path) {s : String} (hs : isHex 64 s = true) :
    join root s = root ++ [s] ∧ s ≠ ".." := by
  have hsep : '/' ∉ s.toList := by
    intro hmem
    simp only [isHex, Bool.and_eq_true, List.all_eq_true] at hs
    have := hs.2 '/' hmem
    simp at this
  have hhead : s.toList.head? ≠ some '/' := fun hh => hsep (List.mem_of_head? hh)
  have hne : ∀ a : String, isHex 64 a = false → s ≠ a := by
    intro a ha heq
    rw [heq, ha] at hs
    cases hs
  refine ⟨?_, hne ".." (by decide)⟩
  rw [join, if_neg hhead, parts_name (hne "" (by decide)) (hne "." (by decide)) hsep]

/-- The file under a digest is a blob that was stored, of that digest. -/
theorem Inv.leadsTo_hex (hi : Inv h t) {s : String} (hs : isHex 64 s = true) {p : Path}
    {content : List UInt8} (hfind : t.leadsTo s = some (p, content)) :
    p = t.inRoot s ∧ content ∈ t.stored ∧ h.hexdigest content = s := by
  obtain ⟨hjoin, hdots⟩ := join_hex t.root hs
  obtain ⟨hwalk, hfile⟩ := find_walk hfind
  rw [pathFor, hjoin] at hwalk
  obtain rfl : p = t.root ++ [s] := by
    apply walk_names _ hwalk
    rw [List.mem_append, List.mem_singleton]
    rintro (hroot | rfl)
    · exact hi.names hroot
    · exact hdots rfl
  obtain ⟨-, ⟨i, u, hu, rfl, -⟩ | ⟨data, hdata, rfl, hnode⟩⟩ := hi.below s [] _ hfile
  · obtain ⟨⟨hex, hname⟩, -⟩ := hi.temporary i u hu
    exact absurd hname.symm (tmpName_ne_hex hs)
  · cases hnode
    exact ⟨rfl, hdata, rfl⟩

/-- If `open_blob(s)` succeeds, the path it returns leads to a stored blob in
the root whose digest is `s`. -/
def FindsBlob (h : Sha256) (t : BlobStore) (s : String) : Prop :=
  ∀ path, t.openBlob s = .ok path → ∃ name, ∃ data ∈ t.stored,
    find t.tree path = some (t.inRoot name, data) ∧ h.hexdigest data = s

theorem openBlob_ok_iff (s : String) (path : List String) :
    t.openBlob s = .ok path ↔ (∃ found, t.leadsTo s = some found) ∧ path = t.pathFor s := by
  unfold openBlob
  cases t.leadsTo s <;> simp [eq_comm]

/-- **Integrity of a lookup**: it finds a blob of the digest `s` exactly when
`s` is a digest, or `root / s` leads to no file. -/
theorem blob_lookup_iff {d : Disk h} {maxBytes : Nat}
    (ht : Reachable (BlobStore.step h) (init d maxBytes) t) (s : String) :
    FindsBlob h t s ↔ isHex 64 s = true ∨ t.leadsTo s = none := by
  have hi := Inv.reachable ht
  constructor
  · intro hfinds
    cases hfound : t.leadsTo s with
    | none => exact .inr rfl
    | some found =>
      obtain ⟨-, data, -, -, rfl⟩ := hfinds _ ((openBlob_ok_iff s _).mpr ⟨⟨found, hfound⟩, rfl⟩)
      exact .inl (h.isHex data)
  · rintro hcond path hopen
    obtain ⟨⟨⟨p, content⟩, hfound⟩, rfl⟩ := (openBlob_ok_iff s path).mp hopen
    rcases hcond with hs | hnone
    · obtain ⟨rfl, hstored, hdigest⟩ := hi.leadsTo_hex hs hfound
      exact ⟨s, content, hstored, hfound, hdigest⟩
    · rw [hnone] at hfound
      cases hfound

/-- The digest of the empty content. -/
def emptySha : Sha256 where
  hexdigest := fun _ => "e3b0c44298fc1c149afbf4c8996fb92427ae41e4649b934ca495991b7852b855"
  isHex := fun _ => by decide +kernel

/-- The three letters `abc`. -/
def abc : List UInt8 := [0x61, 0x62, 0x63]

/-- The digest of these letters; any other content is given that of the empty
one. -/
def abcSha : Sha256 where
  hexdigest := fun data =>
    if data = abc then "ba7816bf8f01cfea414140de5dae2223b00361a396177a9cb410ff61f20015ad"
    else emptySha.hexdigest data
  isHex := fun data => by
    split
    · decide +kernel
    · exact emptySha.isHex data

/-- An empty root. -/
def emptyDisk : Disk emptySha where
  root := ["blobs"]
  names := by decide
  tree := fun p => if p = [] then some .dir else none
  stored := []
  below := by
    intro name rest node hnode
    cases hnode

/-- `uuid4().hex` of the one upload. -/
def uploadHex : String := "0123456789abcdef0123456789abcdef"

/-- The temporary file of an upload in progress is served by its name. -/
theorem blob_lookup_temporary : ¬ ∀ (h : Sha256) (d : Disk h) (maxBytes : Nat) (t : BlobStore),
    Reachable (BlobStore.step h) (init d maxBytes) t → ∀ s, FindsBlob h t s := by
  intro hall
  obtain ⟨t, ht, hserved⟩ := exec_test (BlobStore.step emptySha) (init emptyDisk 4)
    [.begin 0 uploadHex none] (fun t => (t.leadsTo (tmpName uploadHex)).isSome) (by decide +kernel)
  have hopen : t.openBlob (tmpName uploadHex) = .ok (t.pathFor (tmpName uploadHex)) :=
    if_pos hserved
  obtain ⟨-, data, -, -, hdigest⟩ := hall emptySha emptyDisk 4 t ht _ _ hopen
  exact tmpName_ne_hex (emptySha.isHex data) hdigest.symm

theorem blob_lookup_iff_upload : ∃ t : BlobStore, (t.leadsTo (tmpName uploadHex)).isSome = true ∧
    (FindsBlob emptySha t (tmpName uploadHex) ↔
      isHex 64 (tmpName uploadHex) = true ∨ t.leadsTo (tmpName uploadHex) = none) := by
  obtain ⟨t, ht, hserved⟩ := exec_test (BlobStore.step emptySha) (init emptyDisk 4)
    [.begin 0 uploadHex none] (fun t => (t.leadsTo (tmpName uploadHex)).isSome) (by decide +kernel)
  exact ⟨t, hserved, blob_lookup_iff ht _⟩

end BlobStore

end Fusion
