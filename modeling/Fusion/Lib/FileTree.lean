import Mathlib.Logic.Function.Basic
import Mathlib.Data.List.Infix

/-!
# FileTree — paths and what they lead to

A tree maps normalised absolute paths, the names from `/` on, to directories
and files; there are no links. A path as a program writes it may hold `..`:
it is walked from `/` through directories, and `..` goes to the parent.
-/

namespace FileTree

/-- A directory or a regular file. -/
inductive Node
  | dir
  | file (content : List UInt8)

/-- The node is no directory. -/
def Node.isFile : Node → Bool
  | dir => false
  | file _ => true

/-- A normalised path. -/
abbrev Path := List String

/-- What is at each path. -/
abbrev Tree := Path → Option Node

/-- The parts of a written path: empty ones and `.` are dropped. -/
def parts (s : String) : List String :=
  ((s.toList.splitOn '/').filter fun p => p ≠ [] ∧ p ≠ ['.']).map String.ofList

/-- `base / s`; an absolute path takes the place of the base. -/
def join (base : List String) (s : String) : List String :=
  if s.toList.head? = some '/' then parts s else base ++ parts s

/-- From the directory `cur` through the names, `..` going up. -/
def walk (tree : Tree) (cur : Path) : List String → Option Path
  | [] => some cur
  | name :: rest =>
      match tree cur with
      | some .dir => walk tree (if name = ".." then cur.dropLast else cur ++ [name]) rest
      | _ => none

/-- The regular file that a written path leads to. No name holds a NUL. -/
def find (tree : Tree) (path : List String) : Option (Path × List UInt8) :=
  if path.any fun name => name.toList.contains (Char.ofNat 0) then none
  else
    match walk tree [] path with
    | none => none
    | some p =>
        match tree p with
        | some (.file content) => some (p, content)
        | _ => none

/-- `mkdir(parents=True, exist_ok=True)`, where no file is in the way. -/
def mkdir (tree : Tree) (path : Path) : Option Tree :=
  if path.inits.any fun p => (tree p).any Node.isFile then none
  else some fun p => if p <+: path then some .dir else tree p

/-- The file holds this content from here on. -/
def write (tree : Tree) (path : Path) (content : List UInt8) : Tree :=
  Function.update tree path (some (.file content))

/-- Nothing is left at the path. -/
def unlink (tree : Tree) (path : Path) : Tree :=
  Function.update tree path none

/-- `src.replace(dst)` of a file, or the text of the error. -/
def replace (tree : Tree) (src dst : Path) : Except String Tree :=
  match tree src, tree dst with
  | some (.file _), some .dir => .error "Is a directory"
  | some (.file content), _ => .ok (unlink (write tree dst content) src)
  | some .dir, _ => .error "Not a directory"
  | none, _ => .error "No such file or directory"

variable {tree : Tree}

theorem write_self (path : Path) (content : List UInt8) :
    write tree path content path = some (.file content) :=
  Function.update_self ..

theorem write_ne {path p : Path} (h : p ≠ path) (content : List UInt8) :
    write tree path content p = tree p :=
  Function.update_of_ne h ..

theorem unlink_self (path : Path) : unlink tree path path = none :=
  Function.update_self ..

theorem unlink_ne {path p : Path} (h : p ≠ path) : unlink tree path p = tree p :=
  Function.update_of_ne h ..

theorem unlink_unlink (path : Path) : unlink (unlink tree path) path = unlink tree path :=
  Function.update_idem ..

/-- Making a directory changes nothing below it. -/
theorem mkdir_below {path : Path} {made : Tree} (h : mkdir tree path = some made) (name : String)
    (rest : List String) : made (path ++ name :: rest) = tree (path ++ name :: rest) := by
  unfold mkdir at h
  split at h
  · cases h
  · cases h
    refine if_neg ?_
    intro hpre
    have hlen := hpre.length_le
    rw [List.length_append, List.length_cons] at hlen
    omega

theorem mkdir_dirs {path : Path} {made : Tree} (h : mkdir tree path = some made) {p : Path}
    (hp : p <+: path) : made p = some .dir := by
  unfold mkdir at h
  split at h <;> cases h
  exact if_pos hp

theorem replace_file {src dst : Path} {content : List UInt8} {moved : Tree}
    (hsrc : tree src = some (.file content)) (h : replace tree src dst = .ok moved) :
    moved = unlink (write tree dst content) src := by
  unfold replace at h
  rw [hsrc] at h
  split at h
  · cases h
  · rename_i c hfile _
    cases hfile
    exact (Except.ok.inj h).symm
  · rename_i hdir
    cases hdir
  · rename_i hnone
    cases hnone

/-- Names that are not `..` lead down. -/
theorem walk_names {names : List String} (hn : ".." ∉ names) {cur p : Path}
    (h : walk tree cur names = some p) : p = cur ++ names := by
  induction names generalizing cur with
  | nil => simpa [walk] using h.symm
  | cons name names ih =>
    have hname : name ≠ ".." := fun heq => hn (by simp [heq])
    have hrest : ".." ∉ names := fun hmem => hn (by simp [hmem])
    unfold walk at h
    split at h
    · rw [if_neg hname] at h
      rw [ih hrest h, List.append_assoc, List.singleton_append]
    · cases h

/-- Through directories, names that are not `..` lead all the way. -/
theorem walk_dirs {names : List String} (hn : ".." ∉ names) {cur : Path}
    (hdirs : ∀ p q, names = p ++ q → q ≠ [] → tree (cur ++ p) = some .dir) :
    walk tree cur names = some (cur ++ names) := by
  induction names generalizing cur with
  | nil => simp [walk]
  | cons name names ih =>
    have hname : name ≠ ".." := fun heq => hn (by simp [heq])
    have hrest : ".." ∉ names := fun hmem => hn (by simp [hmem])
    have hcur : tree cur = some .dir := by simpa using hdirs [] (name :: names) rfl (by simp)
    rw [walk, hcur]
    dsimp only
    rw [if_neg hname, ih hrest, List.append_assoc, List.singleton_append]
    intro p q hsplit hq
    rw [List.append_assoc, List.singleton_append]
    exact hdirs (name :: p) q (by rw [hsplit, List.cons_append]) hq

/-- A file that the walk comes to is found. -/
theorem find_file {path : List String} {p : Path} {content : List UInt8}
    (hnul : ∀ name ∈ path, Char.ofNat 0 ∉ name.toList) (hwalk : walk tree [] path = some p)
    (hfile : tree p = some (.file content)) : find tree path = some (p, content) := by
  have hno : ¬(path.any fun name => name.toList.contains (Char.ofNat 0)) = true := by
    simpa using hnul
  rw [find, if_neg hno, hwalk]
  dsimp only
  rw [hfile]

theorem find_walk {path : List String} {p : Path} {content : List UInt8}
    (h : find tree path = some (p, content)) :
    walk tree [] path = some p ∧ tree p = some (.file content) := by
  unfold find at h
  split at h
  · cases h
  · split at h
    · cases h
    · rename_i q hwalk
      split at h
      · rename_i c hnode
        cases h
        exact ⟨hwalk, hnode⟩
      · cases h

/-- One name without separators is one part. -/
theorem parts_name {s : String} (hne : s ≠ "") (hdot : s ≠ ".") (hsep : '/' ∉ s.toList) :
    parts s = [s] := by
  have hnil : s.toList ≠ [] := by
    intro h
    exact hne (String.toList_inj.mp h)
  have hdots : s.toList ≠ ['.'] := by
    intro h
    exact hdot (String.toList_inj.mp h)
  rw [parts, List.splitOn_eq_singleton hsep]
  simp [hnil, hdots]

end FileTree
