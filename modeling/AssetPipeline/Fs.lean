import Mathlib.Data.List.Infix
import Mathlib.Data.List.Nodup
import AssetPipeline.PyStr

/-!
# The file system the scripts run on

Every script of the pipeline is a sequence of blocking calls on two directory trees:
`DATA_DIR` (`c:\data\BISSO_E350_Controller\data`, the deployment root) and `data_src` (the
archive root next to it). A `World` holds both as `Tree`s.

* A `Tree` lists its files, each a `Path` below the root (one name per segment) with its
  `Blob`, **in listing order**, and its directories. The fields carry what a real tree
  satisfies: one entry per path, no path both a file and a directory, and the parent of
  every file and directory is a directory (the root `[]` always is). Directories are
  explicit, so the empty directories that a move leaves behind still answer
  `os.path.exists`.
* A `Blob` is a file's content at the level the scripts see it: the string a UTF-8
  text-mode read returns (the scripts only ever write strings without `\r`, so newline
  translation is the identity on them), opaque binary bytes, or a gzip stream of another
  blob. The gzip header's timestamp is not modelled.
* `Script` is `EStateM Exc World`: a Python exception that nothing catches stops the script
  with every effect made before it still on disk, which is what `EStateM` does on `throw`.
  `attempt` is `try: … except Exception: pass` (the handlers only print).
* The primitives follow the calls: `readFile` is `open(p, "rb")`, `readFile` then
  `decodeText` is `open(p, "r", encoding="utf-8").read()`, `writeFile` is `open(p, "w")`
  followed by the writes, `removeFile` is `os.remove`, `makedirs` is `os.makedirs(d, exist_ok=True)`, and
  `copy2` and `move` are `shutil.copy2` and `shutil.move` as the standard library writes
  them. On every platform `shutil.move` onto an existing file replaces it (`os.rename`, or
  on Windows `copy2` after the rename is refused).

`os.walk` is modelled by `walk`, the tree's file list taken once at the start of the loop.
Every loop body of the scripts changes only the directory being visited (or the other root),
and `os.walk` lists a directory when it reaches it, so the listing it hands the body is the
one taken at the start; the order of a tree's list stands for the order the walk visits its
files in, so a theorem about every `Tree` holds for every order `os.walk` can produce.

Writes outside both roots, prints and byte counts are not modelled.
-/

namespace AssetPipeline

/-- A file's content. -/
inductive Blob where
  /-- Bytes that decode as UTF-8: `s` is what a text-mode read returns. -/
  | text (s : String)
  /-- Bytes that are neither UTF-8 text nor a gzip stream (an icon, a corrupt archive). -/
  | binary (id : Nat)
  /-- A gzip stream that decompresses to `b`. -/
  | gzip (b : Blob)
  deriving DecidableEq, Repr

/-- What a UTF-8 text-mode read returns, if the bytes decode. A gzip stream never does (its
second byte, `0x8b`, cannot start a UTF-8 sequence). -/
def Blob.decode : Blob → Option String
  | .text s => some s
  | _ => none

/-- What reading through `gzip.open(p, "rb")` returns, if the bytes are a gzip stream. A
0-byte file is read as an empty stream: `read()` returns `b''` and raises nothing. -/
def Blob.gunzip : Blob → Option Blob
  | .gzip b => some b
  | .text "" => some (.text "")
  | _ => none

/-- A path below a root, one name per segment. -/
abbrev Path := List String

/-- `DATA_DIR`, the deployment root every script names. -/
def dataDir : String := "c:\\data\\BISSO_E350_Controller\\data"

/-- `os.path.basename`. -/
def baseName (p : Path) : String := p.getLastD ""

/-- `os.path.join(root, name)`. An empty name gives `root` plus a separator, which names the
directory `root` itself. -/
def child (root : Path) (name : String) : Path := if name = "" then root else root ++ [name]

/-- `path + ".gz"`: the compressed sibling. -/
def gzSibling (p : Path) : Path := p.dropLast ++ [baseName p ++ ".gz"]

@[simp] theorem baseName_snoc (d : Path) (x : String) : baseName (d ++ [x]) = x := by
  simp [baseName]

@[simp] theorem baseName_gzSibling (p : Path) : baseName (gzSibling p) = baseName p ++ ".gz" := by
  simp [gzSibling]

theorem gzSibling_dropLast (p : Path) : (gzSibling p).dropLast = p.dropLast := by
  simp [gzSibling]

theorem dropLast_append_baseName {p : Path} (hp : p ≠ []) : p.dropLast ++ [baseName p] = p := by
  rw [baseName, List.getLastD_eq_getLast?, List.getLast?_eq_getLast p hp]
  exact List.dropLast_append_getLast hp

/-- The two roots. -/
inductive Root where
  /-- `DATA_DIR`, the deployment root. -/
  | data
  /-- `data_src`, the archive root. -/
  | src
  deriving DecidableEq, Repr

/-- The exception a script stops on: the call that raised it and the path it was given. -/
inductive Exc where
  /-- `os.makedirs` met a file on the way. -/
  | makedirs (r : Root) (p : Path)
  /-- `open(p, "r")`/`"rb"` of a missing path or a directory. -/
  | openRead (r : Root) (p : Path)
  /-- `open(p, "w")`/`"wb"` of a directory, or below a missing directory. -/
  | openWrite (r : Root) (p : Path)
  /-- `os.remove` of a missing path or a directory. -/
  | remove (r : Root) (p : Path)
  /-- `UnicodeDecodeError`. -/
  | decode (r : Root) (p : Path)
  /-- `gzip.BadGzipFile`. -/
  | gunzip (r : Root) (p : Path)
  /-- `shutil.Error`: the destination directory already holds the name. -/
  | moveExists (r : Root) (p : Path)
  /-- A path the model does not follow, and at which it stops: a name `unbundle` opens
  that Windows does not resolve to a path strictly below `DATA_DIR` as written
  (`resolveName`, `NtPath.lean`), or a path `os.makedirs` would reach outside `DATA_DIR`.
  Where the code opens such a name is `normPath (joinDataDir name)`. -/
  | unfollowed (name : String)
  deriving DecidableEq, Repr

/-! ## Trees -/

/-- A directory tree: its files in listing order, and its directories. -/
structure Tree where
  files : List (Path × Blob)
  dirs : List Path
  nodup : (files.map Prod.fst).Nodup
  file_not_dir : ∀ p ∈ files.map Prod.fst, p ≠ [] ∧ p ∉ dirs
  file_parent : ∀ p ∈ files.map Prod.fst, p.dropLast = [] ∨ p.dropLast ∈ dirs
  dir_parent : ∀ d ∈ dirs, d.dropLast = [] ∨ d.dropLast ∈ dirs

namespace Tree

/-- The file paths, in listing order. -/
def paths (t : Tree) : List Path := t.files.map Prod.fst

/-- The blob listed for `p`. -/
def getEntry (p : Path) : List (Path × Blob) → Option Blob
  | [] => none
  | e :: es => if e.1 = p then some e.2 else getEntry p es

/-- The content of the file at `p`. -/
def get (t : Tree) (p : Path) : Option Blob := getEntry p t.files

/-- `os.path.isfile`. -/
def isFile (t : Tree) (p : Path) : Bool := decide (p ∈ t.paths)

/-- `os.path.isdir`; the root always is one. -/
def isDir (t : Tree) (d : Path) : Bool := decide (d = [] ∨ d ∈ t.dirs)

/-- `os.path.exists`. -/
def present (t : Tree) (p : Path) : Bool := t.isFile p || t.isDir p

/-- The empty tree: the root directory alone. -/
def empty : Tree := ⟨[], [], List.nodup_nil, by simp, by simp, by simp⟩

@[simp] theorem get_empty (p : Path) : empty.get p = none := rfl

@[simp] theorem dirs_empty : empty.dirs = [] := rfl

/-- Set the file at `p`: in place if it is listed, else at the end of the listing. -/
def setEntry (p : Path) (b : Blob) : List (Path × Blob) → List (Path × Blob)
  | [] => [(p, b)]
  | e :: es => if e.1 = p then (p, b) :: es else e :: setEntry p b es

theorem setEntry_keys (p : Path) (b : Blob) (es : List (Path × Blob)) :
    (setEntry p b es).map Prod.fst =
      if p ∈ es.map Prod.fst then es.map Prod.fst else es.map Prod.fst ++ [p] := by
  induction es with
  | nil => rfl
  | cons e es ih =>
    by_cases he : e.1 = p
    · rw [setEntry, if_pos he, List.map_cons, List.map_cons,
        if_pos (he ▸ List.mem_cons_self _ _), he]
    · have hmem : p ∈ e.1 :: es.map Prod.fst ↔ p ∈ es.map Prod.fst :=
        ⟨fun h => (List.mem_cons.mp h).resolve_left (Ne.symm he), List.mem_cons_of_mem _⟩
      rw [setEntry, if_neg he, List.map_cons, List.map_cons, ih]
      by_cases hp : p ∈ es.map Prod.fst
      · rw [if_pos hp, if_pos (hmem.mpr hp)]
      · rw [if_neg hp, if_neg (mt hmem.mp hp)]
        rfl

theorem mem_setEntry_keys {p q : Path} {b : Blob} {es : List (Path × Blob)} :
    q ∈ (setEntry p b es).map Prod.fst ↔ q = p ∨ q ∈ es.map Prod.fst := by
  rw [setEntry_keys]
  split
  · exact ⟨.inr, fun h => h.elim (fun hq => hq ▸ ‹_›) id⟩
  · rw [List.mem_append, List.mem_singleton]
    exact or_comm

theorem getEntry_setEntry (p q : Path) (b : Blob) (es : List (Path × Blob)) :
    getEntry q (setEntry p b es) = if q = p then some b else getEntry q es := by
  induction es with
  | nil => by_cases h : p = q <;> simp [setEntry, getEntry, h, eq_comm]
  | cons e es ih =>
    by_cases hk : e.1 = p
    · by_cases h : p = q <;> simp [setEntry, getEntry, hk, h, eq_comm]
    · by_cases h : e.1 = q
      · subst h; simp [setEntry, getEntry, hk, Ne.symm hk]
      · simp [setEntry, getEntry, hk, h, ih]

theorem getEntry_filter (p q : Path) (es : List (Path × Blob)) :
    getEntry q (es.filter (·.1 != p)) = if q = p then none else getEntry q es := by
  induction es with
  | nil => simp [getEntry]
  | cons e es ih =>
    rw [List.filter_cons]
    by_cases hq : q = p
    · subst hq
      by_cases he : e.1 = q
      · simpa [he] using ih
      · simpa [he, getEntry] using ih
    · by_cases he : e.1 = p
      · simpa [he, hq, getEntry, Ne.symm hq] using ih
      · by_cases heq : e.1 = q <;> simp [he, hq, getEntry, heq, ih]

theorem getEntry_isSome (p : Path) (es : List (Path × Blob)) :
    (getEntry p es).isSome ↔ p ∈ es.map Prod.fst := by
  induction es with
  | nil => simp [getEntry]
  | cons e es ih =>
    rw [List.map_cons, List.mem_cons, ← ih]
    by_cases h : e.1 = p
    · simp [getEntry, h]
    · simp [getEntry, h, Ne.symm h]

theorem setEntry_of_getEntry {p : Path} {b : Blob} {es : List (Path × Blob)}
    (h : getEntry p es = some b) : setEntry p b es = es := by
  induction es with
  | nil => cases h
  | cons e es ih =>
    obtain ⟨q, c⟩ := e
    by_cases hq : q = p
    · subst hq
      simp_all [getEntry, setEntry]
    · simp_all [getEntry, setEntry]

/-- Two trees with the same files and directories are the same tree. -/
theorem eq_of_files_dirs {t t' : Tree} (hf : t.files = t'.files) (hd : t.dirs = t'.dirs) :
    t = t' := by
  cases t; cases t'; cases hf; cases hd; rfl

/-- Write the file `p`, whose parent is a directory and which is not one itself. -/
def put (t : Tree) (p : Path) (b : Blob) (hp : p.dropLast = [] ∨ p.dropLast ∈ t.dirs)
    (hd : p ≠ [] ∧ p ∉ t.dirs) : Tree where
  files := setEntry p b t.files
  dirs := t.dirs
  nodup := by
    rw [setEntry_keys]
    split
    · exact t.nodup
    · exact t.nodup.append (List.nodup_singleton p) (List.disjoint_singleton.mpr ‹_›)
  file_not_dir q hq := by
    rcases mem_setEntry_keys.mp hq with rfl | hq
    · exact hd
    · exact t.file_not_dir q hq
  file_parent q hq := by
    rcases mem_setEntry_keys.mp hq with rfl | hq
    · exact hp
    · exact t.file_parent q hq
  dir_parent := t.dir_parent

/-- `t` with the file `p` written when its parent is a directory and it is not one itself, as
`open(p, "w")` writes it, and `t` otherwise: the worlds a run leaves are stated with it. -/
def write (t : Tree) (p : Path) (b : Blob) : Tree :=
  if h : (p.dropLast = [] ∨ p.dropLast ∈ t.dirs) ∧ (p ≠ [] ∧ p ∉ t.dirs) then t.put p b h.1 h.2
  else t

/-- Remove the file `p` (`os.remove`). -/
def erase (t : Tree) (p : Path) : Tree where
  files := t.files.filter (·.1 != p)
  dirs := t.dirs
  nodup := t.nodup.sublist ((List.filter_sublist _).map _)
  file_not_dir q hq := t.file_not_dir q ((List.filter_sublist _).map _ |>.subset hq)
  file_parent q hq := t.file_parent q ((List.filter_sublist _).map _ |>.subset hq)
  dir_parent := t.dir_parent

/-- Make every directory on the way to `d`, none of which is a file. -/
def mkdirs (t : Tree) (d : Path) (h : ∀ q ∈ d.inits, q ∉ t.paths) : Tree where
  files := t.files
  dirs := t.dirs ++ d.inits.filter (fun q => q ≠ [] ∧ q ∉ t.dirs)
  nodup := t.nodup
  file_not_dir q hq := by
    refine ⟨(t.file_not_dir q hq).1, ?_⟩
    simp only [List.mem_append, List.mem_filter, not_or, not_and]
    exact ⟨(t.file_not_dir q hq).2, fun hi => absurd hq (h q hi)⟩
  file_parent q hq := by
    rcases t.file_parent q hq with h' | h' <;> simp [h']
  dir_parent q hq := by
    simp only [List.mem_append, List.mem_filter, decide_eq_true_eq] at hq ⊢
    rcases hq with hq | ⟨hi, -, -⟩
    · rcases t.dir_parent q hq with h' | h' <;> simp [h']
    · by_cases h0 : q.dropLast = []
      · exact .inl h0
      · have hi' : q.dropLast ∈ d.inits :=
          List.mem_inits _ _ |>.mpr ((List.dropLast_prefix q).trans ((List.mem_inits _ _).mp hi))
        by_cases hd : q.dropLast ∈ t.dirs
        · exact .inr (.inl hd)
        · exact .inr (.inr ⟨hi', h0, hd⟩)

@[simp] theorem paths_put {t : Tree} {p : Path} {b : Blob} {hp hd} :
    (t.put p b hp hd).paths = if p ∈ t.paths then t.paths else t.paths ++ [p] :=
  setEntry_keys p b t.files

@[simp] theorem get_put {t : Tree} {p : Path} {b : Blob} {hp hd} (q : Path) :
    (t.put p b hp hd).get q = if q = p then some b else t.get q :=
  getEntry_setEntry p q b t.files

@[simp] theorem dirs_put {t : Tree} {p : Path} {b : Blob} {hp hd} :
    (t.put p b hp hd).dirs = t.dirs := rfl

@[simp] theorem dirs_erase (t : Tree) (p : Path) : (t.erase p).dirs = t.dirs := rfl

@[simp] theorem paths_erase (t : Tree) (p : Path) :
    (t.erase p).paths = t.paths.filter (· != p) := by
  simp only [erase, paths, List.filter_map]
  rfl

theorem get_erase (t : Tree) (p q : Path) :
    (t.erase p).get q = if q = p then none else t.get q :=
  getEntry_filter p q t.files

@[simp] theorem files_mkdirs {t : Tree} {d : Path} {h} : (t.mkdirs d h).files = t.files := rfl

@[simp] theorem paths_mkdirs {t : Tree} {d : Path} {h} : (t.mkdirs d h).paths = t.paths := rfl

@[simp] theorem get_mkdirs {t : Tree} {d : Path} {h} : (t.mkdirs d h).get = t.get := rfl

theorem mem_paths {t : Tree} {p : Path} : p ∈ t.paths ↔ (t.get p).isSome :=
  (getEntry_isSome p t.files).symm

theorem isFile_iff {t : Tree} {p : Path} : t.isFile p = true ↔ (t.get p).isSome := by
  simp [isFile, mem_paths]

/-- Writing a file's own content again changes nothing. -/
theorem put_of_get {t : Tree} {p : Path} {b : Blob} {hp hd} (h : t.get p = some b) :
    t.put p b hp hd = t :=
  eq_of_files_dirs (setEntry_of_getEntry h) rfl

/-- Whether a path exists depends only on its file and on the directories. -/
theorem present_congr {t t' : Tree} {p : Path} (hd : t'.dirs = t.dirs) (hg : t'.get p = t.get p) :
    t'.present p = t.present p := by
  have hf : t'.isFile p = t.isFile p := Bool.eq_iff_iff.mpr (by rw [isFile_iff, isFile_iff, hg])
  simp only [present, isDir, hd, hf]

theorem present_put {t : Tree} {p q : Path} {b : Blob} (hp) (hd) (h : t.present q = true) :
    (t.put p b hp hd).present q = true := by
  simp only [present, isFile, isDir, paths_put, dirs_put, Bool.or_eq_true, decide_eq_true_eq] at h ⊢
  rcases h with h | h
  · left; split <;> simp [h]
  · exact .inr h

theorem present_mkdirs {t : Tree} {d q : Path} {h} (hq : t.present q = true) :
    (t.mkdirs d h).present q = true := by
  simp only [present, isFile, isDir, paths_mkdirs, Bool.or_eq_true, decide_eq_true_eq] at hq ⊢
  rcases hq with hq | hq | hq
  · exact .inl hq
  · exact .inr (.inl hq)
  · exact .inr (.inr (List.mem_append_left _ hq))

theorem present_erase {t : Tree} {p q : Path} (h : q ≠ p) : (t.erase p).present q = t.present q := by
  simp [present, isFile, isDir, h]

theorem isDir_of_mem {t : Tree} {p : Path} (h : p ∈ t.paths) : t.isDir p.dropLast = true := by
  simpa [isDir] using t.file_parent p h

theorem get_of_absent {t : Tree} {p : Path} (h : t.present p = false) : t.get p = none := by
  simp only [present, Bool.or_eq_false_iff, isFile, decide_eq_false_iff_not, mem_paths] at h
  simpa using h.1

/-- Nothing is below a path that does not exist. -/
theorem get_below_absent {t : Tree} {p : Path} (h : t.present p = false) (x : String) :
    t.get (p ++ [x]) = none := by
  by_contra hx
  have hm : p ++ [x] ∈ t.paths := mem_paths.mpr (Option.ne_none_iff_isSome.mp hx)
  have hd := isDir_of_mem hm
  rw [List.dropLast_concat] at hd
  simp [present, hd] at h

/-- A directory is not a file. -/
theorem isFile_of_isDir {t : Tree} {d : Path} (h : t.isDir d = true) : t.isFile d = false := by
  simp only [isDir, decide_eq_true_eq] at h
  simp only [isFile, decide_eq_false_iff_not]
  intro hd
  have := t.file_not_dir d hd
  rcases h with h | h
  · exact this.1 h
  · exact this.2 h

/-- Every prefix of a directory is a directory, the root included. -/
theorem isDir_of_prefix {t : Tree} {d e : Path} (hd : t.isDir d = true) (he : e <+: d) :
    t.isDir e = true := by
  induction d using List.reverseRecOn with
  | nil => rwa [List.prefix_nil.mp he]
  | append_singleton d x ih =>
    rcases List.prefix_concat_iff.mp he with rfl | he
    · exact hd
    · refine ih ?_ he
      simp only [isDir, decide_eq_true_eq, List.append_eq_nil, List.cons_ne_self, and_false,
        false_or] at hd ⊢
      simpa using t.dir_parent _ hd

/-- `os.makedirs` of an existing directory makes none. -/
theorem dirs_mkdirs_of_isDir {t : Tree} {d : Path} {h} (hd : t.isDir d = true) :
    (t.mkdirs d h).dirs = t.dirs := by
  show t.dirs ++ _ = t.dirs
  rw [List.filter_eq_nil_iff.mpr, List.append_nil]
  intro e he
  have := isDir_of_prefix hd ((List.mem_inits _ _).mp he)
  simp only [isDir, decide_eq_true_eq] at this
  simp only [decide_eq_true_eq, not_and, not_not]
  exact this.resolve_left

/-- The directories `os.makedirs` makes are prefixes of its argument, other than the root. -/
theorem mem_dirs_mkdirs {t : Tree} {d e : Path} {h} (he : e ∈ (t.mkdirs d h).dirs) :
    e ∈ t.dirs ∨ (e <+: d ∧ e ≠ []) := by
  simp only [mkdirs, List.mem_append, List.mem_filter, decide_eq_true_eq] at he
  exact he.imp_right fun h => ⟨(List.mem_inits _ _).mp h.1, h.2.1⟩

theorem isDir_mkdirs {t : Tree} {d : Path} {h} : (t.mkdirs d h).isDir d = true := by
  simp only [isDir, mkdirs, List.mem_append, List.mem_filter, decide_eq_true_eq]
  by_cases h0 : d = []
  · exact .inl h0
  · by_cases hd : d ∈ t.dirs
    · exact .inr (.inl hd)
    · exact .inr (.inr ⟨(List.mem_inits _ _).mpr (List.prefix_refl d), h0, hd⟩)

end Tree

/-! ## Worlds and scripts -/

/-- The two trees the scripts touch. -/
structure World where
  data : Tree
  src : Tree

namespace World

/-- The tree at a root. -/
def tree (w : World) : Root → Tree
  | .data => w.data
  | .src => w.src

/-- Replace the tree at a root. -/
def set (w : World) : Root → Tree → World
  | .data, t => { w with data := t }
  | .src, t => { w with src := t }

@[simp] theorem tree_data (w : World) : w.tree .data = w.data := rfl
@[simp] theorem tree_src (w : World) : w.tree .src = w.src := rfl
@[simp] theorem set_data (w : World) (t : Tree) : w.set .data t = { w with data := t } := rfl
@[simp] theorem set_src (w : World) (t : Tree) : w.set .src t = { w with src := t } := rfl

@[simp] theorem set_tree (w : World) (r : Root) : w.set r (w.tree r) = w := by cases r <;> rfl

@[simp] theorem tree_set_self (w : World) (r : Root) (t : Tree) : (w.set r t).tree r = t := by
  cases r <;> rfl

theorem tree_set_ne (w : World) {r r' : Root} (h : r' ≠ r) (t : Tree) :
    (w.set r t).tree r' = w.tree r' := by
  cases r <;> cases r' <;> first | rfl | exact absurd rfl h

end World

/-- A script: blocking calls on the world, stopped by the first exception nothing catches. -/
abbrev Script := EStateM Exc World

/-- The world a script leaves behind, whether it completed or raised. -/
def after (s : Script α) (w : World) : World :=
  match s w with
  | .ok _ w' => w'
  | .error _ w' => w'

/-- The tree at a root, as the next call sees it. -/
def getTree (r : Root) : Script Tree := fun w => .ok (w.tree r) w

/-- The files of a root, listed once (`os.walk`). -/
def walk (r : Root) : Script (List Path) := fun w => .ok (w.tree r).paths w

/-- `os.path.exists`. -/
def pathExists (r : Root) (p : Path) : Script Bool := fun w => .ok ((w.tree r).present p) w

/-- `os.path.isdir`. -/
def isdir (r : Root) (p : Path) : Script Bool := fun w => .ok ((w.tree r).isDir p) w

/-- `open(p, "rb").read()`. -/
def readFile (r : Root) (p : Path) : Script Blob := fun w =>
  match (w.tree r).get p with
  | some b => .ok b w
  | none => .error (.openRead r p) w

/-- Decoding what was read from `p` as UTF-8. -/
def decodeText (r : Root) (p : Path) (b : Blob) : Script String :=
  match b.decode with
  | some s => pure s
  | none => throw (.decode r p)

/-- `open(p, "w").write(…)`, `open(p, "wb").write(…)`: create or truncate `p`, then write. -/
def writeFile (r : Root) (p : Path) (b : Blob) : Script Unit := fun w =>
  if h : (p.dropLast = [] ∨ p.dropLast ∈ (w.tree r).dirs) ∧ (p ≠ [] ∧ p ∉ (w.tree r).dirs) then
    .ok () (w.set r ((w.tree r).put p b h.1 h.2))
  else .error (.openWrite r p) w

/-- Writing a file's own content again completes and changes nothing. -/
theorem writeFile_of_get {r : Root} {p : Path} {b : Blob} {w : World}
    (h : (w.tree r).get p = some b) : writeFile r p b w = .ok () w := by
  have hm : p ∈ (w.tree r).paths := Tree.mem_paths.mpr (by simp [h])
  unfold writeFile
  rw [dif_pos ⟨(w.tree r).file_parent p hm, (w.tree r).file_not_dir p hm⟩, Tree.put_of_get h,
    World.set_tree]

/-- `os.remove(p)`. -/
def removeFile (r : Root) (p : Path) : Script Unit := fun w =>
  if (w.tree r).isFile p then .ok () (w.set r ((w.tree r).erase p)) else .error (.remove r p) w

/-- `os.makedirs(d, exist_ok=True)`: fails exactly when a file lies on the way. -/
def makedirs (r : Root) (d : Path) : Script Unit := fun w =>
  if h : ∀ q ∈ d.inits, q ∉ (w.tree r).paths then .ok () (w.set r ((w.tree r).mkdirs d h))
  else .error (.makedirs r d) w

/-- `shutil.copy2(src, dst)`: into `dst/basename(src)` when `dst` is a directory. -/
def copy2 (r₁ : Root) (p : Path) (r₂ : Root) (q : Path) : Script Unit := do
  let q' := if (← isdir r₂ q) then q ++ [baseName p] else q
  let b ← readFile r₁ p
  writeFile r₂ q' b

/-- Where `shutil.move` and `shutil.copy2` put `p` for the destination `q`. -/
def moveTarget (t : Tree) (p q : Path) : Path := if t.isDir q then q ++ [baseName p] else q

/-- The rename of `shutil.move` once the destination `q'` is fixed: a copy, then the removal of
the source (`os.rename`, or `copy2` and `os.unlink` across devices; an existing file at `q'` is
replaced either way). -/
def moveTo (r₁ : Root) (p : Path) (r₂ : Root) (q' : Path) : Script Unit := do
  let b ← readFile r₁ p
  writeFile r₂ q' b
  removeFile r₁ p

/-- `shutil.move(src, dst)`: into `dst/basename(src)` when `dst` is a directory, refused with
`shutil.Error` if that name exists there; otherwise `dst` is replaced if it is a file. -/
def move (r₁ : Root) (p : Path) (r₂ : Root) (q : Path) : Script Unit := do
  let q' ← do
    if (← isdir r₂ q) then
      if (← pathExists r₂ (q ++ [baseName p])) then throw (.moveExists r₂ (q ++ [baseName p]))
      else pure (q ++ [baseName p])
    else pure q
  moveTo r₁ p r₂ q'

/-- `try: s` / `except Exception as e: print(…)`: the effects made before the exception stay. -/
def attempt (s : Script Unit) : Script Unit := fun w =>
  match s w with
  | .ok _ w' => .ok () w'
  | .error _ w' => .ok () w'

/-- `for x in xs: body(x)`. -/
def forEach : List α → (α → Script Unit) → Script Unit
  | [], _ => pure ()
  | x :: xs, body => do body x; forEach xs body

end AssetPipeline
