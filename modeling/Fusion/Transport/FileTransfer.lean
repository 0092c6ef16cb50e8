import Fusion.Core.BlobSaves
import Fusion.Transport.Http

/-!
# FileTransfer — files to and from a Runtime's blob store
(transport/client.py, transport/server.py)

Any number of clients upload and download at once. The body of an upload
arrives in pieces of the transport's choosing; `save_stream` takes them one
by one. A download asks for a digest, is answered with the path of a file or
refused, and its body arrives in pieces of its own. Either connection may
break at any moment.
-/

namespace Fusion

open FileTree Transition

/-! ## The client's side -/

/-- `while chunk := fh.read(size)`; each read but the last takes a byte. -/
def readChunks (size : Nat) : Nat → List UInt8 → List (List UInt8)
  | 0, _ => []
  | reads + 1, content =>
      if content = [] then []
      else content.take size :: readChunks size reads (content.drop size)

/-- `_reader` -/
def fileChunks (content : List UInt8) : List (List UInt8) :=
  readChunks (1024 * 1024) content.length content

/-- Where a call of `download_file` stands. -/
inductive DownloadPhase
  /-- the route has the path of a file to serve -/
  | opened (path : List String)
  /-- the destination is open -/
  | streaming (rest written : List UInt8)
  | done (written : List UInt8)
  /-- `raise_for_status`, before the destination is opened -/
  | failed (status : Nat)
  /-- the connection broke before there was an answer -/
  | lost
  | broken (written : List UInt8)
deriving DecidableEq

/-- A call of `download_file`. -/
structure Download where
  sha256 : String
  phase : DownloadPhase
deriving DecidableEq

/-- The store among the clients that upload and download. -/
structure Transfers where
  store : BlobStore
  /-- the file that an upload sends -/
  files : Nat → List UInt8
  /-- what of its body has not arrived -/
  bodies : Nat → List UInt8
  downloads : Nat → Option Download

/-- What upload `i` or download `j` meets next. -/
inductive TransferLabel
  /-- `upload_file`, up to the first piece of the body; `hex` is `uuid4().hex` -/
  | upload (i : Nat) (hex : String) (file : List UInt8) (expected : Option String)
  | arrives (i : Nat) (bytes : List UInt8)
  | bodyEnds (i : Nat)
  | breaks (i : Nat) (message : String)
  /-- `download_file`, up to the answer of `open_blob` -/
  | get (j : Nat) (sha256 : String)
  /-- the file is opened and the response starts -/
  | serves (j : Nat)
  | piece (j size : Nat)
  | finishes (j : Nat)
  | drops (j : Nat)

/-- The body of a successful upload's response. -/
def BlobRef.toJson (ref : BlobRef) : Json :=
  .object [(Text.of "sha256", .string (Text.of ref.sha256)),
    (Text.of "size", .number (.int ref.size))]

/-- The answer to an upload that is over. -/
def Save.answer : Save → Option Response
  | writing _ => none
  | returned ref => some (Fusion.answer 201 (.ok ref.toJson))
  | raised e => some (Fusion.answer 201 (.error (BlobStore.saveError e)))

namespace Transfers

/-- The store over a disk, before any transfer. -/
def opened (root : Path) (maxBytes : Nat) (tree : Tree) : Transfers where
  store := .opened root maxBytes tree
  files := fun _ => []
  bodies := fun _ => []
  downloads := fun _ => none

/-- What `upload_file` of call `i` returns or raises, once it does. -/
def uploaded (s : Transfers) (i : Nat) : Option (Except CallError Json) :=
  (s.store.saves i).bind fun save => save.answer.map Response.checked

/-- Where download `j` is. -/
def setDownload (s : Transfers) (j : Nat) (d : Download) : Transfers :=
  { s with downloads := Function.update s.downloads j (some d) }

/-- The route and the client, from the request to the first answer. -/
def get (s : Transfers) (j : Nat) (sha256 : String) : Transfers :=
  match s.store.openBlob sha256 with
  | .ok path => s.setDownload j ⟨sha256, .opened path⟩
  | .error e => s.setDownload j ⟨sha256, .failed e.code.status⟩

/-- A file that is gone by then makes the response an internal error. -/
def serves (s : Transfers) (j : Nat) (sha256 : String) (path : List String) : Transfers :=
  match find s.store.tree path with
  | some (_, content) => s.setDownload j ⟨sha256, .streaming content []⟩
  | none => s.setDownload j ⟨sha256, .failed 500⟩

/-- One event of one transfer. -/
def step (h : Sha256) (s : Transfers) : TransferLabel → Option Transfers
  | .upload i hex file expected =>
      -- an empty text is no parameter
      (s.store.step h (.begin i hex (expected.filter (· ≠ "")))).map fun store =>
        { s with
          store
          files := Function.update s.files i file
          bodies := Function.update s.bodies i (fileChunks file).flatten }
  | .arrives i bytes =>
      if bytes <+: s.bodies i then
        (s.store.step h (.chunk i bytes)).map fun store =>
          { s with store, bodies := Function.update s.bodies i ((s.bodies i).drop bytes.length) }
      else none
  | .bodyEnds i =>
      if s.bodies i = [] then (s.store.step h (.ends i)).map fun store => { s with store }
      else none
  | .breaks i message => (s.store.step h (.fails i message)).map fun store => { s with store }
  | .get j sha256 => if (s.downloads j).isNone then some (s.get j sha256) else none
  | .serves j =>
      match s.downloads j with
      | some ⟨sha256, .opened path⟩ => some (s.serves j sha256 path)
      | _ => none
  | .piece j size =>
      match s.downloads j with
      | some ⟨sha256, .streaming rest written⟩ =>
          some (s.setDownload j ⟨sha256, .streaming (rest.drop size) (written ++ rest.take size)⟩)
      | _ => none
  | .finishes j =>
      match s.downloads j with
      | some ⟨sha256, .streaming [] written⟩ => some (s.setDownload j ⟨sha256, .done written⟩)
      | _ => none
  | .drops j =>
      match s.downloads j with
      | some ⟨sha256, .opened _⟩ => some (s.setDownload j ⟨sha256, .lost⟩)
      | some ⟨sha256, .streaming _ written⟩ => some (s.setDownload j ⟨sha256, .broken written⟩)
      | _ => none

variable {h : Sha256} {s s' : Transfers}

theorem flatten_readChunks {size : Nat} (hsize : 0 < size) {reads : Nat} {content : List UInt8}
    (hreads : content.length ≤ reads) : (readChunks size reads content).flatten = content := by
  induction reads generalizing content with
  | zero =>
    rw [List.length_eq_zero_iff.mp (Nat.le_zero.mp hreads)]
    rfl
  | succ reads ih =>
    rw [readChunks]
    split
    · rename_i hnil
      rw [hnil]
      rfl
    · have hdrop : (content.drop size).length ≤ reads := by
        rw [List.length_drop]
        omega
      rw [List.flatten_cons, ih hdrop, List.take_append_drop]

theorem flatten_fileChunks (content : List UInt8) : (fileChunks content).flatten = content :=
  flatten_readChunks (by decide) (Nat.le_refl _)

end Transfers

/-! ## The store's root -/

namespace BlobStore

variable {h : Sha256} {t t' : BlobStore} {l : BlobLabel} {i : Nat}

/-- The root and all above it are directories, once there was a call. -/
def Rooted (t : BlobStore) : Prop :=
  ∀ i s, t.saves i = some s → ∀ p, p <+: t.root → t.tree p = some .dir

/-- What lies in the root is not above it. -/
theorem inRoot_not_above {name : String} {p : Path} (hp : p <+: t.root) : p ≠ t.inRoot name := by
  rintro rfl
  have hlen := hp.length_le
  rw [inRoot, List.length_append, List.length_singleton] at hlen
  omega

theorem Saves.rooted (hs : Saves h t l t') (hr : Rooted t) : Rooted t' := by
  intro _ _ _ p hp
  cases hs with
  | @begins i hex expected made _ _ hmade =>
    exact (write_ne (inRoot_not_above hp) _).trans (mkdir_dirs hmade hp)
  | @grows i u bytes hu _ => exact (write_ne (inRoot_not_above hp) _).trans (hr i _ hu p hp)
  | @raises l i u _ _ hu e => exact (unlink_ne (inRoot_not_above hp)).trans (hr i _ hu p hp)
  | @returns i u hu =>
    exact (unlink_ne (inRoot_not_above hp)).trans
      ((write_ne (inRoot_not_above hp) _).trans (hr i _ hu p hp))

/-- A step keeps what every call holds in line with what it received. -/
theorem Saves.holds_all (hs : Saves h t l t') (i : Nat) {data : List UInt8}
    (hh : Holds h t data (t.saves i)) : Holds h t' (data ++ l.bytesFor i) (t'.saves i) := by
  by_cases hi : i = l.call
  · subst hi
    exact hs.holds hh
  · rw [bytesFor_ne hi, List.append_nil, hs.others hi]
    exact hh.mono hs.root.2 hs.stored

/-- Only the end of its stream lets a call return. -/
theorem Saves.returned (hs : Saves h t l t') {ref : BlobRef}
    (hret : t'.saves i = some (.returned ref)) :
    t.saves i = some (.returned ref) ∧ i ≠ l.call ∨ l = .ends i := by
  by_cases hi : i = l.call
  · subst hi
    cases hs with
    | begins | grows =>
      rw [BlobLabel.call, saves_setSave] at hret
      cases hret
    | raises hcall =>
      rw [hcall, BlobStore.close, saves_setSave] at hret
      cases hret
    | returns => exact .inr rfl
  · exact .inl ⟨(hs.others hi).symm.trans hret, hi⟩

end BlobStore

namespace Transfers

open BlobStore (Filed Holds Rooted Saves Uploads CollisionFree)

variable {h : Sha256} {s s' : Transfers}

/-! ## What a step does -/

/-- **The invariant of the transfers.** -/
structure Inv (h : Sha256) (s : Transfers) : Prop where
  uploads : Uploads s.store
  filed : Filed h s.store
  rooted : Rooted s.store
  /-- what the store received and what is under way is the file -/
  sent : ∀ i, ∃ data, Holds h s.store data (s.store.saves i) ∧ data ++ s.bodies i = s.files i
  whole : ∀ i ref, s.store.saves i = some (.returned ref) → s.bodies i = []
  paths : ∀ j sha256 path, s.downloads j = some ⟨sha256, .opened path⟩ →
    path = s.store.pathFor sha256

/-- A step of the store, or of one download. -/
inductive Moves (h : Sha256) (s : Transfers) : Transfers → Prop
  | uploads {i : Nat} {hex : String} {expected : Option String} {store : BlobStore}
      (file : List UInt8) (step : s.store.step h (.begin i hex expected) = some store) :
      Moves h s { s with
        store
        files := Function.update s.files i file
        bodies := Function.update s.bodies i file }
  | arrives {i : Nat} {bytes rest : List UInt8} {store : BlobStore}
      (body : s.bodies i = bytes ++ rest)
      (step : s.store.step h (.chunk i bytes) = some store) :
      Moves h s { s with store, bodies := Function.update s.bodies i rest }
  | stops {l : BlobLabel} {store : BlobStore} (step : s.store.step h l = some store)
      (later : l.isBegin = false) (nothing : ∀ i, l.bytesFor i = [])
      (body : ∀ i, l = .ends i → s.bodies i = []) : Moves h s { s with store }
  | gets {j : Nat} (sha256 : String) (new : s.downloads j = none) : Moves h s (s.get j sha256)
  | serves {j : Nat} {sha256 : String} {path : List String}
      (was : s.downloads j = some ⟨sha256, .opened path⟩) : Moves h s (s.serves j sha256 path)
  | goes {j : Nat} {sha256 : String} {rest written : List UInt8} (phase : DownloadPhase)
      (was : s.downloads j = some ⟨sha256, .streaming rest written⟩)
      (next : (∃ size, phase = .streaming (rest.drop size) (written ++ rest.take size)) ∨
        phase = .done written ∧ rest = [] ∨ phase = .broken written) :
      Moves h s (s.setDownload j ⟨sha256, phase⟩)
  | loses {j : Nat} {sha256 : String} {path : List String}
      (was : s.downloads j = some ⟨sha256, .opened path⟩) :
      Moves h s (s.setDownload j ⟨sha256, .lost⟩)

theorem step_moves {l : TransferLabel} (hstep : s.step h l = some s') : Moves h s s' := by
  cases l with
  | upload i hex file expected =>
    obtain ⟨store, hstore, rfl⟩ := Option.map_eq_some_iff.mp hstep
    rw [flatten_fileChunks]
    exact .uploads file hstore
  | arrives i bytes =>
    simp only [Transfers.step] at hstep
    split at hstep
    · rename_i hprefix
      obtain ⟨store, hstore, rfl⟩ := Option.map_eq_some_iff.mp hstep
      obtain ⟨rest, hrest⟩ := hprefix
      rw [← hrest, List.drop_left]
      exact .arrives hrest.symm hstore
    · cases hstep
  | bodyEnds i =>
    simp only [Transfers.step] at hstep
    split at hstep
    · rename_i hempty
      obtain ⟨store, hstore, rfl⟩ := Option.map_eq_some_iff.mp hstep
      refine .stops hstore rfl (fun _ => rfl) fun k hk => ?_
      cases hk
      exact hempty
    · cases hstep
  | breaks i message =>
    obtain ⟨store, hstore, rfl⟩ := Option.map_eq_some_iff.mp hstep
    exact .stops hstore rfl (fun _ => rfl) fun k hk => by cases hk
  | get j sha256 =>
    simp only [Transfers.step] at hstep
    split at hstep <;> cases hstep
    rename_i hnew
    exact .gets sha256 (Option.isNone_iff_eq_none.mp hnew)
  | serves j =>
    simp only [Transfers.step] at hstep
    split at hstep <;> cases hstep
    rename_i hwas
    exact .serves hwas
  | piece j size =>
    simp only [Transfers.step] at hstep
    split at hstep <;> cases hstep
    rename_i hwas
    exact .goes _ hwas (.inl ⟨size, rfl⟩)
  | finishes j =>
    simp only [Transfers.step] at hstep
    split at hstep <;> cases hstep
    rename_i hwas
    exact .goes _ hwas (.inr (.inl ⟨rfl, rfl⟩))
  | drops j =>
    simp only [Transfers.step] at hstep
    split at hstep <;> cases hstep
    · rename_i hwas
      exact .loses hwas
    · rename_i hwas
      exact .goes _ hwas (.inr (.inr rfl))

/-! ## The invariant -/

theorem inv_opened (root : Path) (maxBytes : Nat) (tree : Tree) :
    Inv h (opened root maxBytes tree) where
  uploads := BlobStore.uploads_opened root maxBytes tree
  filed := by
    intro data hdata
    cases hdata
  rooted := by
    intro i save hsave
    cases hsave
  sent := fun i => ⟨[], rfl, rfl⟩
  whole := fun i ref hret => rfl
  paths := by
    intro j sha256 path hd
    cases hd

/-- A step of the store, and what it takes from the bodies. -/
theorem Inv.store (hi : Inv h s) {l : BlobLabel} {store : BlobStore}
    (hstep : s.store.step h l = some store) {files bodies : Nat → List UInt8}
    (sent : ∀ i data, Holds h s.store data (s.store.saves i) → data ++ s.bodies i = s.files i →
      (data ++ l.bytesFor i) ++ bodies i = files i)
    (whole : ∀ i ref, store.saves i = some (.returned ref) → bodies i = []) :
    Inv h { s with store, files, bodies } := by
  have hs := BlobStore.step_saves hi.uploads hstep
  refine ⟨hi.uploads.step hstep, hs.filed hi.uploads hi.filed, hs.rooted hi.rooted, ?_, whole, ?_⟩
  · intro i
    obtain ⟨data, hholds, hdata⟩ := hi.sent i
    exact ⟨_, hs.holds_all i hholds, sent i data hholds hdata⟩
  · intro j sha256 path hd
    rw [hi.paths j sha256 path hd, BlobStore.pathFor, BlobStore.pathFor, hs.root.1]

theorem downloads_setDownload (j : Nat) (d : Download) :
    (s.setDownload j d).downloads j = some d :=
  Function.update_self ..

theorem downloads_setDownload_ne {j k : Nat} (hkj : k ≠ j) (d : Download) :
    (s.setDownload j d).downloads k = s.downloads k :=
  Function.update_of_ne hkj ..

theorem Inv.download (hi : Inv h s) {j : Nat} {d : Download}
    (hpath : ∀ path, d.phase = .opened path → path = s.store.pathFor d.sha256) :
    Inv h (s.setDownload j d) where
  uploads := hi.uploads
  filed := hi.filed
  rooted := hi.rooted
  sent := hi.sent
  whole := hi.whole
  paths := by
    intro k sha256 path hd
    by_cases hkj : k = j
    · subst hkj
      rw [downloads_setDownload] at hd
      cases hd
      exact hpath path rfl
    · rw [downloads_setDownload_ne hkj] at hd
      exact hi.paths k sha256 path hd

/-- The first answer to a download. -/
theorem get_cases (s : Transfers) (j : Nat) (sha256 : String) :
    ((s.store.leadsTo sha256).isSome = true ∧
        s.get j sha256 = s.setDownload j ⟨sha256, .opened (s.store.pathFor sha256)⟩) ∨
      s.store.leadsTo sha256 = none ∧ ∃ status,
        s.get j sha256 = s.setDownload j ⟨sha256, .failed status⟩ := by
  simp only [Transfers.get, BlobStore.openBlob]
  cases hfound : s.store.leadsTo sha256 with
  | none => exact .inr ⟨rfl, _, rfl⟩
  | some found => exact .inl ⟨rfl, rfl⟩

theorem serves_cases (s : Transfers) (j : Nat) (sha256 : String) (path : List String) :
    (∃ p content, find s.store.tree path = some (p, content) ∧
        s.serves j sha256 path = s.setDownload j ⟨sha256, .streaming content []⟩) ∨
      find s.store.tree path = none ∧
        s.serves j sha256 path = s.setDownload j ⟨sha256, .failed 500⟩ := by
  simp only [Transfers.serves]
  cases find s.store.tree path with
  | none => exact .inr ⟨rfl, rfl⟩
  | some found => exact .inl ⟨found.1, found.2, rfl, rfl⟩

theorem Inv.step {l : TransferLabel} (hi : Inv h s) (hstep : s.step h l = some s') :
    Inv h s' := by
  cases step_moves hstep with
  | @uploads i hex expected store file hstore =>
    have hs := BlobStore.step_saves hi.uploads hstore
    refine hi.store hstore (fun k data hholds hdata => ?_) fun k ref hret => ?_
    · by_cases hki : k = i
      · subst hki
        obtain rfl : data = [] := by
          cases hs with
          | begins unborn =>
            rw [unborn] at hholds
            exact hholds
          | raises _ later =>
            cases later
        rw [Function.update_self, Function.update_self]
        rfl
      · rw [Function.update_of_ne hki, Function.update_of_ne hki, BlobStore.bytesFor_ne hki,
          List.append_nil]
        exact hdata
    · rcases hs.returned hret with ⟨hold, hki⟩ | hends
      · have hki : k ≠ i := hki
        rw [Function.update_of_ne hki]
        exact hi.whole k ref hold
      · cases hends
  | @arrives i bytes rest store hbody hstore =>
    have hs := BlobStore.step_saves hi.uploads hstore
    refine hi.store hstore (fun k data hholds hdata => ?_) fun k ref hret => ?_
    · by_cases hki : k = i
      · subst hki
        rw [Function.update_self, BlobLabel.bytesFor, if_pos rfl, List.append_assoc, ← hbody]
        exact hdata
      · rw [Function.update_of_ne hki, BlobStore.bytesFor_ne hki, List.append_nil]
        exact hdata
    · rcases hs.returned hret with ⟨hold, hki⟩ | hends
      · have hki : k ≠ i := hki
        rw [Function.update_of_ne hki]
        exact hi.whole k ref hold
      · cases hends
  | @stops l store hstore _ hnothing hbody =>
    have hs := BlobStore.step_saves hi.uploads hstore
    refine hi.store hstore (fun k data _ hdata => ?_) fun k ref hret => ?_
    · rw [hnothing, List.append_nil]
      exact hdata
    · rcases hs.returned hret with ⟨hold, -⟩ | hends
      · exact hi.whole k ref hold
      · exact hbody k hends
  | @gets j sha256 _ =>
    rcases s.get_cases j sha256 with ⟨-, hget⟩ | ⟨-, status, hget⟩
    · rw [hget]
      exact hi.download fun path hpath => (DownloadPhase.opened.inj hpath).symm
    · rw [hget]
      exact hi.download fun path hpath => by cases hpath
  | @serves j sha256 path _ =>
    rcases s.serves_cases j sha256 path with ⟨_, _, -, hserves⟩ | ⟨-, hserves⟩
    · rw [hserves]
      exact hi.download fun path hpath => by cases hpath
    · rw [hserves]
      exact hi.download fun path hpath => by cases hpath
  | goes phase _ next =>
    refine hi.download fun path hpath => ?_
    rcases next with ⟨size, rfl⟩ | ⟨rfl, -⟩ | rfl <;> cases hpath
  | loses _ => exact hi.download fun path hpath => by cases hpath

theorem Inv.reachable {root : Path} {maxBytes : Nat} {tree : Tree}
    (hs : Reachable (Transfers.step h) (opened root maxBytes tree) s) : Inv h s :=
  hs.invariant (inv_opened root maxBytes tree) fun _ _ _ hi hstep => hi.step hstep

/-! ## What is served -/

/-- A root that is named as it is: no name is `..` or holds a NUL. -/
structure Named (root : Path) : Prop where
  dots : ".." ∉ root
  nul : ∀ name ∈ root, Char.ofNat 0 ∉ name.toList

theorem hex_no_nul {d : String} {n : Nat} (hd : isHex n d = true) : Char.ofNat 0 ∉ d.toList := by
  intro hmem
  simp only [isHex, Bool.and_eq_true, List.all_eq_true] at hd
  have := hd.2 _ hmem
  simp at this

/-- What an upload that has returned sent. -/
theorem Inv.ref (hi : Inv h s) {i : Nat} {ref : BlobRef}
    (hret : s.store.saves i = some (.returned ref)) :
    ref = ⟨h.hexdigest (s.files i), (s.files i).length⟩ ∧ s.files i ∈ s.store.stored := by
  obtain ⟨data, hholds, hdata⟩ := hi.sent i
  rw [hi.whole i ref hret, List.append_nil] at hdata
  rw [hret, hdata] at hholds
  exact ⟨hholds.1, hholds.2.2⟩

/-- The digest of an upload leads to the file that was sent. -/
theorem Inv.finds (hi : Inv h s) (hroot : Named s.store.root) (hcf : CollisionFree h s.store)
    {i : Nat} {ref : BlobRef} (hret : s.store.saves i = some (.returned ref)) :
    find s.store.tree (s.store.pathFor ref.sha256) =
      some (s.store.inRoot ref.sha256, s.files i) := by
  obtain ⟨rfl, hstored⟩ := hi.ref hret
  have hhex := h.isHex (s.files i)
  obtain ⟨hjoin, hdots⟩ := BlobStore.join_hex s.store.root hhex
  obtain ⟨other, hother, hdigest, hfile⟩ := hi.filed _ hstored
  rw [hcf other hother _ hstored hdigest] at hfile
  rw [BlobStore.pathFor, hjoin]
  refine find_file ?_ ?_ hfile
  · intro name hname
    rcases List.mem_append.mp hname with hname | hname
    · exact hroot.nul name hname
    · rw [List.mem_singleton] at hname
      exact hname ▸ hex_no_nul hhex
  · rw [walk_dirs]
    · rfl
    · rw [List.mem_append, List.mem_singleton]
      rintro (hmem | heq)
      · exact hroot.dots hmem
      · exact hdots heq.symm
    · -- every directory on the way is the root or above it
      intro p q hsplit hq
      obtain ⟨q', last, rfl⟩ := List.eq_nil_or_concat q |>.resolve_left hq
      rw [List.concat_eq_append, ← List.append_assoc] at hsplit
      obtain ⟨hsame, -⟩ := List.append_inj' hsplit rfl
      exact hi.rooted i _ hret p ⟨q', hsame.symm⟩

/-- A download of this file is served it, as far as it got. -/
def Gets (s : Transfers) (file : List UInt8) : DownloadPhase → Prop
  | .opened path => ∃ p, find s.store.tree path = some (p, file)
  | .streaming rest written => written ++ rest = file
  | .done written => written = file
  | .failed _ => False
  | .lost => True
  | .broken written => written <+: file

/-- A step takes one step of the store, or leaves it. -/
theorem step_store {l : TransferLabel} (hstep : s.step h l = some s') :
    s'.store = s.store ∨ ∃ l', s.store.step h l' = some s'.store := by
  cases step_moves hstep with
  | uploads _ hstore => exact .inr ⟨_, hstore⟩
  | arrives _ hstore => exact .inr ⟨_, hstore⟩
  | stops hstore _ _ _ => exact .inr ⟨_, hstore⟩
  | gets sha256 _ =>
    rcases s.get_cases _ sha256 with ⟨-, hget⟩ | ⟨-, status, hget⟩ <;> rw [hget] <;> exact .inl rfl
  | serves _ =>
    rcases s.serves_cases _ _ _ with ⟨_, _, -, hserves⟩ | ⟨-, hserves⟩ <;> rw [hserves] <;>
      exact .inl rfl
  | goes _ _ _ => exact .inl rfl
  | loses _ => exact .inl rfl

theorem step_stored {l : TransferLabel} (hi : Inv h s) (hstep : s.step h l = some s') :
    s.store.stored ⊆ s'.store.stored ∧ s'.store.root = s.store.root := by
  rcases step_store hstep with hsame | ⟨l', hstore⟩
  · rw [hsame]
    exact ⟨List.Subset.refl _, rfl⟩
  · have hs := BlobStore.step_saves hi.uploads hstore
    exact ⟨hs.stored, hs.root.1⟩

/-- An upload that has returned keeps its file and what it returned. -/
theorem step_returned {l : TransferLabel} (hi : Inv h s) (hstep : s.step h l = some s') {i : Nat}
    {ref : BlobRef} (hret : s.store.saves i = some (.returned ref)) :
    s'.store.saves i = some (.returned ref) ∧ s'.files i = s.files i := by
  constructor
  · rcases step_store hstep with hsame | ⟨l', hstore⟩
    · rw [hsame]
      exact hret
    · exact (BlobStore.step_saves hi.uploads hstore).over_kept rfl hret
  · cases step_moves hstep with
    | @uploads k hex expected store file hstore =>
      have hik : i ≠ k := by
        rintro rfl
        have hover := (BlobStore.step_saves hi.uploads hstore).not_over hret
        cases hover
      exact Function.update_of_ne hik ..
    | gets sha256 _ =>
      rcases s.get_cases _ sha256 with ⟨-, hget⟩ | ⟨-, status, hget⟩ <;> rw [hget] <;> rfl
    | serves _ =>
      rcases s.serves_cases _ _ _ with ⟨_, _, -, hserves⟩ | ⟨-, hserves⟩ <;> rw [hserves] <;> rfl
    | arrives _ _ | stops _ _ _ _ | goes _ _ _ | loses _ => rfl

/-- What is known of the downloads that began after an upload returned. -/
structure Served (s₀ s : Transfers) (i : Nat) (ref : BlobRef) : Prop where
  returned : s.store.saves i = some (.returned ref)
  file : s.files i = s₀.files i
  root : s.store.root = s₀.store.root
  gets : ∀ j d, s₀.downloads j = none → s.downloads j = some d → d.sha256 = ref.sha256 →
    Gets s (s₀.files i) d.phase

/-- A step of one download keeps what is known of the others. -/
theorem Served.setDownload {s₀ : Transfers} {i : Nat} {ref : BlobRef} (hs : Served s₀ s i ref)
    {j : Nat} {d : Download} (hd : s₀.downloads j = none → d.sha256 = ref.sha256 →
      Gets s (s₀.files i) d.phase) : Served s₀ (s.setDownload j d) i ref where
  returned := hs.returned
  file := hs.file
  root := hs.root
  gets := by
    intro k d' hnew hk hsha
    by_cases hkj : k = j
    · subst hkj
      rw [downloads_setDownload] at hk
      cases hk
      exact hd hnew hsha
    · rw [downloads_setDownload_ne hkj] at hk
      exact hs.gets k d' hnew hk hsha

theorem Served.step {s₀ : Transfers} {i : Nat} {ref : BlobRef} {l : TransferLabel}
    (hroot : Named s₀.store.root) (hi : Inv h s) (hs : Served s₀ s i ref)
    (hstep : s.step h l = some s') (hcf : CollisionFree h s'.store) : Served s₀ s' i ref := by
  obtain ⟨hret, hfile⟩ := step_returned hi hstep hs.returned
  obtain ⟨hsub, hsame⟩ := step_stored hi hstep
  have hi' := hi.step hstep
  have hcf₀ : CollisionFree h s.store := fun a ha b hb => hcf a (hsub ha) b (hsub hb)
  have hfinds := hi.finds (hs.root ▸ hroot) hcf₀ hs.returned
  have hfinds' := hi'.finds (hsame.trans hs.root ▸ hroot) hcf hret
  -- after a step of the store, the open paths lead to the file still
  have hstore : s'.downloads = s.downloads → Served s₀ s' i ref := by
    intro hdownloads
    refine ⟨hret, hfile.trans hs.file, hsame.trans hs.root, ?_⟩
    intro j d hnew hd hsha
    rw [hdownloads] at hd
    have hgets := hs.gets j d hnew hd hsha
    obtain ⟨sha256, phase⟩ := d
    cases phase with
    | opened path =>
      have hpath := hi'.paths j sha256 path (hdownloads ▸ hd)
      rw [hpath]
      rw [show sha256 = ref.sha256 from hsha]
      exact ⟨_, hs.file ▸ hfile ▸ hfinds'⟩
    | _ => exact hgets
  cases step_moves hstep with
  | uploads _ _ => exact hstore rfl
  | arrives _ _ => exact hstore rfl
  | stops _ _ _ _ => exact hstore rfl
  | @gets j sha256 _ =>
    rcases s.get_cases j sha256 with ⟨-, hget⟩ | ⟨hnone, status, hget⟩
    · rw [hget]
      refine hs.setDownload fun _ hsha => ?_
      rw [show sha256 = ref.sha256 from hsha]
      exact ⟨_, hs.file ▸ hfinds⟩
    · rw [hget]
      refine hs.setDownload fun _ hsha => ?_
      rw [show sha256 = ref.sha256 from hsha, BlobStore.leadsTo, hfinds] at hnone
      cases hnone
  | @serves j sha256 path hwas =>
    have hgets : s₀.downloads j = none → sha256 = ref.sha256 →
        ∃ p, find s.store.tree path = some (p, s₀.files i) := fun hnew hsha =>
      hs.gets j _ hnew hwas hsha
    rcases s.serves_cases j sha256 path with ⟨p, content, hfound, hserves⟩ | ⟨hnone, hserves⟩
    · rw [hserves]
      refine hs.setDownload fun hnew hsha => ?_
      obtain ⟨q, hq⟩ := hgets hnew hsha
      rw [hfound] at hq
      cases hq
      rfl
    · rw [hserves]
      refine hs.setDownload fun hnew hsha => ?_
      obtain ⟨q, hq⟩ := hgets hnew hsha
      rw [hnone] at hq
      cases hq
  | @goes j sha256 rest written phase hwas next =>
    refine hs.setDownload fun hnew hsha => ?_
    have hwritten : written ++ rest = s₀.files i := hs.gets j _ hnew hwas hsha
    rcases next with ⟨size, rfl⟩ | ⟨rfl, rfl⟩ | rfl
    · show written ++ rest.take size ++ rest.drop size = _
      rw [List.append_assoc, List.take_append_drop, hwritten]
    · show written = _
      rw [← hwritten, List.append_nil]
    · exact ⟨rest, hwritten⟩
  | loses hwas => exact hs.setDownload fun _ _ => trivial

theorem run_served {s₀ : Transfers} {i : Nat} {ref : BlobRef} {xs : List (Step (step h))}
    (hroot : Named s₀.store.root) (hi : Inv h s₀)
    (hret : s₀.store.saves i = some (.returned ref)) (run : Run (step h) s₀ xs s)
    (hcf : CollisionFree h s.store) : Inv h s ∧ Served s₀ s i ref := by
  induction run with
  | nil =>
    refine ⟨hi, hret, rfl, rfl, ?_⟩
    intro j d hnew hd
    rw [hnew] at hd
    cases hd
  | @snoc xs x run ih =>
    have hsrc : Inv h x.src := Reachable.invariant hi (fun _ _ _ hi hs => hi.step hs) run.reachable
    have hsub : x.src.store.stored ⊆ x.dst.store.stored := (step_stored hsrc x.fired).1
    obtain ⟨-, hs⟩ := ih fun a ha b hb => hcf a (hsub ha) b (hsub hb)
    exact ⟨hsrc.step x.fired, hs.step hroot hsrc x.fired hcf⟩

/-! ## The round trip -/

theorem writable_ref (ref : BlobRef) : Json.Writable false ref.toJson := by
  refine .object ?_ ?_
  · intro m hm
    simp only [List.mem_cons, List.not_mem_nil, or_false] at hm
    rcases hm with rfl | rfl <;> exact Json.plain_of false _
  · intro m hm
    simp only [List.mem_cons, List.not_mem_nil, or_false] at hm
    rcases hm with rfl | rfl
    · exact .string (Json.plain_of false _)
    · exact .int _

theorem isEncodable_ref (ref : BlobRef) : ref.toJson.isEncodable = true := by
  have hmembers : ref.toJson = .object (members [("sha256", .string (Text.of ref.sha256)),
      ("size", .number (.int ref.size))]) := rfl
  have hsize : (Json.number (.int ref.size)).isEncodable = true := rfl
  simp [hmembers, isEncodable_members, Json.isEncodable_text, hsize]

/-- `upload_file` returns what `save_stream` returned. -/
theorem uploaded_ok {i : Nat} {v : Json} (h : s.uploaded i = some (.ok v)) :
    ∃ ref, s.store.saves i = some (.returned ref) ∧ v = ref.toJson := by
  obtain ⟨save, hsave, hanswer⟩ := Option.bind_eq_some_iff.mp h
  obtain ⟨r, hr, hchecked⟩ := Option.map_eq_some_iff.mp hanswer
  cases save with
  | writing u => cases hr
  | returned ref =>
    cases hr
    have hread : (answer 201 (.ok ref.toJson)).checked = toldStatus (.ok ref.toJson) :=
      checked_answer (by decide) fun content hc => by cases hc; exact writable_ref ref
    rw [hread, toldStatus, if_pos (isEncodable_ref ref)] at hchecked
    cases hchecked
    exact ⟨ref, hsave, rfl⟩
  | raised e =>
    cases hr
    have hread : (answer 201 (.error (BlobStore.saveError e))).checked =
        toldStatus (.error (BlobStore.saveError e)) :=
      checked_answer (by decide) fun content hc => by cases hc
    rw [hread] at hchecked
    cases e <;> cases hchecked

/-- **An uploaded file is served**: when `upload_file` has returned, it has
returned the digest and the length of the file it was given, and from then on
each download of that digest, by any client, is served that file and no other
content, as far as its connection holds; it is never refused. Uploads and
downloads of other clients interleave with it in any way. -/
theorem uploaded_file_is_served {root : Path} {maxBytes : Nat} {tree : Tree} (hroot : Named root)
    (hs : Reachable (Transfers.step h) (opened root maxBytes tree) s) {i : Nat} {v : Json}
    (hup : s.uploaded i = some (.ok v)) :
    v = BlobRef.toJson ⟨h.hexdigest (s.files i), (s.files i).length⟩ ∧
      ∀ s', Reachable (Transfers.step h) s s' → CollisionFree h s'.store →
        ∀ j d, s.downloads j = none → s'.downloads j = some d →
          d.sha256 = h.hexdigest (s.files i) → Gets s' (s.files i) d.phase := by
  obtain ⟨ref, hret, rfl⟩ := uploaded_ok hup
  have hi := Inv.reachable hs
  have hsame : s.store.root = root :=
    hs.invariant (I := fun s => Inv h s ∧ s.store.root = root)
      ⟨inv_opened root maxBytes tree, rfl⟩
      (fun _ _ _ hi hstep => ⟨hi.1.step hstep, (step_stored hi.1 hstep).2.trans hi.2⟩) |>.2
  obtain ⟨rfl, -⟩ := hi.ref hret
  refine ⟨rfl, ?_⟩
  rintro s' ⟨xs, run⟩ hcf j d hnew hd hsha
  exact (run_served (hsame ▸ hroot) hi hret run hcf).2.gets j d hnew hd hsha

/-- The upload of the letters `abc` in two pieces, and a download of their
digest, which is cut differently. -/
def abcUpload : List TransferLabel :=
  [.upload 0 BlobStore.uploadHex BlobStore.abc none, .arrives 0 [0x61], .arrives 0 [0x62, 0x63],
    .bodyEnds 0]

def abcDownload : List TransferLabel :=
  [.get 1 (BlobStore.abcSha.hexdigest BlobStore.abc), .serves 1, .piece 1 2, .piece 1 2,
    .finishes 1]

theorem uploaded_file_is_served_abc :
    ∃ s s' v d, s.files 0 = BlobStore.abc ∧ s.uploaded 0 = some (.ok v) ∧
      Reachable (Transfers.step BlobStore.abcSha) s s' ∧ s'.downloads 1 = some d ∧
        d.phase = .done BlobStore.abc ∧ Gets s' (s.files 0) d.phase := by
  have hroot : Named ["blobs"] := ⟨by decide, by decide⟩
  let s₀ := opened ["blobs"] 4 BlobStore.emptyDisk.tree
  let s := (exec (Transfers.step BlobStore.abcSha) s₀ abcUpload).getD s₀
  let s' := (exec (Transfers.step BlobStore.abcSha) s abcDownload).getD s
  have hs : Reachable (Transfers.step BlobStore.abcSha) s₀ s :=
    exec_getD_reachable _ _ _ (by decide +kernel)
  have hs' : Reachable (Transfers.step BlobStore.abcSha) s s' :=
    exec_getD_reachable _ _ _ (by decide +kernel)
  have hup : ∃ v, s.uploaded 0 = some (.ok v) := by
    have hok : (s.uploaded 0).any (fun r => r.toOption.isSome) = true := by decide +kernel
    obtain ⟨r, hr, hsome⟩ := (Option.any_eq_true ..).mp hok
    cases r with
    | error e => cases hsome
    | ok v => exact ⟨v, hr⟩
  obtain ⟨v, hv⟩ := hup
  have hfile : s.files 0 = BlobStore.abc := by decide +kernel
  have hnew : s.downloads 1 = none := by decide +kernel
  have hd : s'.downloads 1 =
      some ⟨BlobStore.abcSha.hexdigest (s.files 0), .done BlobStore.abc⟩ := by decide +kernel
  have hstored : s'.store.stored = [BlobStore.abc] := by decide +kernel
  have hcf : BlobStore.CollisionFree BlobStore.abcSha s'.store := by
    intro a ha b hb _
    rw [hstored, List.mem_singleton] at ha hb
    rw [ha, hb]
  exact ⟨s, s', v, _, hfile, hv, hs', hd, rfl,
    (uploaded_file_is_served hroot hs hv).2 s' hs' hcf 1 _ hnew hd rfl⟩

end Transfers

end Fusion
