import AssetPipeline.Bundle

/-!
# Windows paths: where `open` and `os.makedirs` land

`recover_assets.unbundle` takes a name from a bundle and calls
`os.makedirs(os.path.dirname(out_path), exist_ok=True)` and then `open(out_path, "w")`, where
`out_path` is `os.path.join(DATA_DIR, fname)` (`recover_assets.py:48-53`). This module models
both calls on Windows.

* `joinDataDir` is `ntpath.join(DATA_DIR, fname)` and `normPath` is `ntpath.normpath`, as
  Python's `ntpath` writes them. `/` is a separator like `\`. `splitRoot` takes off a drive
  (`c:`, or a UNC `\\server\share`) and a root. The loop of `normpath` over the components is
  a stack (`normPush`, `normComps`), on which `..` drops the component before it, or is
  dropped at a root. `insideDataDir`: the normalised path is `DATA_DIR` or below it, ASCII
  letters compared without case, as Windows compares them.
* Windows resolves a path before a call reaches the disk, and it does so lexically, as
  `normpath` does. A path is given here by its raw components from the root of `c:`
  (`joinedComps` for a joined name). `place` says where the normalised form lies: above
  `DATA_DIR`, in the deployment tree, or elsewhere.
* The model follows a name (`resolveName`) only when three things hold. Every segment is one
  Windows stores as written (`plainSegment`: no refused character, no trailing `.` or blank,
  which Windows drops, and no device name). The name has no UNC prefix. Its normalised path
  lies strictly below `DATA_DIR`, spelled as `DATA_DIR` spells it (the tree compares names
  with case). So `./a.css`, `css//a.css` and `a/../b.css` are followed, and `../x` and `/x`
  are not. The limit on a path's length is not modelled.
* `osMakedirs` is `os.makedirs(name, exist_ok=True)` of Python 3.11:
  - `ntpath.split` takes the last component off; the head loses its trailing separators, and
    an empty tail is split again;
  - it recurses on a head that does not exist, and returns when the tail is `.`;
  - it then calls `os.mkdir` (`ntMkdir`), which accepts a directory that exists.

  `makedirsRev` runs on the components last first, so that the recursion is structural. The
  `except FileExistsError` around the recursive call only catches a race. The recursion runs
  on a head that does not exist and makes only directories, so its `mkdir` never meets a
  file.

Results:
* `normPath_drive`: `normpath` of a path on `c:` is the stack of its components.
* `osMakedirs_dirsOnly`: `os.makedirs` changes no file, whether it completes or not.
* `osMakedirs_plain`: below `DATA_DIR`, for components with no empty, `.` or `..` part and no
  file on the way, it completes and makes every prefix a directory, and no other directory.
* `osMakedirs_of_isDir`: on a directory that exists, it changes nothing.
* `ntDirname_plain`: `os.path.dirname` of such components is their parent.
-/

namespace AssetPipeline

/-! ## `ntpath` -/

/-- A separator of `ntpath`. -/
def isSep (c : Char) : Bool := c == '\\' || c == '/'

/-- `path.replace("/", "\\")`. -/
def toBackslash (l : List Char) : List Char := l.map fun c => if c = '/' then '\\' else c

/-- `normp.find("\\", start)`. -/
def findSep (l : List Char) (start : Nat) : Option Nat :=
  ((l.drop start).findIdx? (· == '\\')).map (· + start)

/-- `ntpath.splitroot(p)`: the drive, the root and the rest. -/
def splitRoot (p : List Char) : List Char × List Char × List Char :=
  let normp := toBackslash p
  if normp.take 1 = ['\\'] then
    if (normp.drop 1).take 1 = ['\\'] then
      let start := if (normp.take 8).map Char.toUpper = "\\\\?\\UNC\\".toList then 8 else 2
      match findSep normp start with
      | none => (p, [], [])
      | some i =>
        match findSep normp (i + 1) with
        | none => (p, [], [])
        | some j => (p.take j, (p.drop j).take 1, p.drop (j + 1))
    else ([], p.take 1, p.drop 1)
  else if (normp.drop 1).take 1 = [':'] then
    if (normp.drop 2).take 1 = ['\\'] then (p.take 2, (p.drop 2).take 1, p.drop 3)
    else (p.take 2, [], p.drop 2)
  else ([], [], p)

/-- `ntpath.join(DATA_DIR, fname)`: a name with a root replaces the path of `DATA_DIR` (and its
drive, if it has one), a name on another drive replaces it all, and any other name follows
`DATA_DIR` after a separator. -/
def joinDataDir (fname : String) : String :=
  match splitRoot fname.toList with
  | (d, r, rest) =>
    if r ≠ [] then ⟨(if d = [] then ['c', ':'] else d) ++ r ++ rest⟩
    else if d ≠ [] ∧ d.map Char.toLower ≠ ['c', ':'] then fname
    else ⟨(if d = [] then ['c', ':'] else d) ++ dataDir.toList.drop 2 ++ '\\' :: rest⟩

/-- One turn of the loop of `ntpath.normpath` over the components, on the components kept so
far (the last one first); `rooted` when the path has a root. -/
def normPush (rooted : Bool) (st : List String) (c : String) : List String :=
  if c = "" ∨ c = "." then st
  else if c = ".." then
    match st with
    | top :: rest => if top = ".." then c :: st else rest
    | [] => if rooted then [] else [c]
  else c :: st

/-- The loop of `ntpath.normpath`. -/
def normComps (rooted : Bool) (cs : List String) : List String :=
  (cs.foldl (normPush rooted) []).reverse

/-- `ntpath.normpath(path)`. -/
def normPath (path : String) : String :=
  match splitRoot (toBackslash path.toList) with
  | (d, r, rest) =>
    let comps := normComps (r ≠ []) ((splitPath rest).map String.mk)
    if d ++ r = [] ∧ comps = [] then "." else ⟨d ++ r⟩ ++ String.intercalate "\\" comps

/-- The normalised `path` is `DATA_DIR` or below it. -/
def insideDataDir (path : String) : Bool :=
  let n := (normPath path).toList.map Char.toLower
  let d := dataDir.toList.map Char.toLower
  n == d || (d ++ ['\\']).isPrefixOf n

/-! ## Where Windows resolves a path -/

/-- The components of `DATA_DIR` below the root of `c:`. -/
def dataComps : List String := ["data", "BISSO_E350_Controller", "data"]

/-- The raw components from the root of `c:` of `os.path.join(DATA_DIR, fname)`, for a name with
no drive: those of `DATA_DIR` and then the name's for a relative name, the name's own after its
root for a name with one. -/
def joinedComps (fname : String) : List String :=
  if fname.toList.head?.any isSep then (relPath fname).tail else dataComps ++ relPath fname

/-- Where a path lies once Windows has normalised it. -/
inductive Place where
  /-- A directory above `DATA_DIR`: it exists. -/
  | above
  /-- The path `p` of the deployment tree; `[]` is `DATA_DIR` itself. -/
  | data (p : Path)
  /-- Anywhere else: the model does not follow it. -/
  | elsewhere
  deriving DecidableEq, Repr

/-- Where the path of raw components `q` from the root of `c:` lies. -/
def place (q : List String) : Place :=
  let n := normComps true q
  if dataComps.isPrefixOf n then .data (n.drop dataComps.length)
  else if n.isPrefixOf dataComps then .above else .elsewhere

/-- A character Windows refuses in a name: `<>:"|?*` and the control characters. -/
def badChar (c : Char) : Bool := c.toNat < 32 || "<>:\"|?*".toList.contains c

/-- The device names of Windows, which name a device in every directory. -/
def deviceNames : List String :=
  ["CON", "PRN", "AUX", "NUL", "COM1", "COM2", "COM3", "COM4", "COM5", "COM6", "COM7", "COM8",
    "COM9", "COM¹", "COM²", "COM³", "LPT1", "LPT2", "LPT3", "LPT4", "LPT5", "LPT6", "LPT7",
    "LPT8", "LPT9", "LPT¹", "LPT²", "LPT³"]

/-- A segment Windows stores as written: empty (a doubled separator), `.` or `..` (resolved
lexically), or a name with no refused character, no trailing `.` or blank, and no device name
before its first `.` (blanks before the `.` included). -/
def plainSegment (s : String) : Bool :=
  s == "" || s == "." || s == ".." ||
    (!s.toList.any badChar && !(s.toList.getLast?.any fun c => c == '.' || c == ' ') &&
      !deviceNames.contains
        ⟨(((s.toList.takeWhile (· != '.')).reverse.dropWhile (· == ' ')).reverse).map Char.toUpper⟩)

/-- A name the model follows as written: no UNC prefix (two leading separators), and plain
segments. A drive needs a `:`, which `badChar` refuses. -/
def followable (fname : String) : Bool :=
  toBackslash (fname.toList.take 2) != ['\\', '\\'] && (relPath fname).all plainSegment

/-- The path of the deployment tree at which Windows opens `os.path.join(DATA_DIR, fname)`, for
a name the model follows whose normalised path lies strictly below `DATA_DIR`. -/
def resolveName (fname : String) : Option Path :=
  if followable fname then
    match place (joinedComps fname) with
    | .data (s :: ss) => some (s :: ss)
    | _ => none
  else none

example : resolveName "./a.css" = some ["a.css"] ∧ resolveName "css//a.css" = some ["css", "a.css"] ∧
    resolveName "a/../b.css" = some ["b.css"] ∧ resolveName "../x" = none := by
  decide

/-! ## `os.makedirs` -/

/-- A path of raw components from the root of `c:`, as a string for an exception. -/
def compsText (q : List String) : String := "c:\\" ++ String.intercalate "\\" q

/-- A prefix of `d` is `d` or a prefix of its parent. -/
theorem prefix_eq_or_dropLast {q d : Path} (h : q <+: d) : q = d ∨ q <+: d.dropLast := by
  induction d using List.reverseRecOn with
  | nil => exact .inl (List.prefix_nil.mp h)
  | append_singleton d x _ =>
    rw [List.dropLast_concat]
    exact List.prefix_concat_iff.mp h

/-- Nothing on the way to `d` is a file when its parent is a directory and it is not a file. -/
theorem Tree.inits_not_mem {t : Tree} {d : Path} (hp : t.isDir d.dropLast = true)
    (hd : d ∉ t.paths) : ∀ q ∈ d.inits, q ∉ t.paths := by
  intro q hq hqp
  rcases prefix_eq_or_dropLast ((List.mem_inits _ _).mp hq) with rfl | h
  · exact hd hqp
  · have := Tree.isFile_of_isDir (Tree.isDir_of_prefix hp h)
    simp [Tree.isFile, hqp] at this

/-- `os.path.exists` of the path of raw components `q` from the root of `c:`. -/
def ntExists (q : List String) : Script Bool := fun w =>
  match place q with
  | .above => .ok true w
  | .data p => .ok (w.data.present p) w
  | .elsewhere => .error (.unfollowed (compsText q)) w

/-- `os.mkdir(name)` inside `os.makedirs(name, exist_ok=True)`: a directory that exists is
accepted; otherwise the directory is made when its parent is a directory and nothing is there,
and the call raises when not. -/
def ntMkdir (q : List String) : Script Unit := fun w =>
  match place q with
  | .above => .ok () w
  | .data d =>
    if w.data.isDir d then .ok () w
    else if h : w.data.isDir d.dropLast = true ∧ d ∉ w.data.paths then
      .ok () { w with data := w.data.mkdirs d (Tree.inits_not_mem h.1 h.2) }
    else .error (.makedirs .data d) w
  | .elsewhere => .error (.unfollowed (compsText q)) w

/-- `os.makedirs(name, exist_ok=True)` on the raw components of `name`, the last first. An empty
last component is a trailing separator, which `ntpath.split` takes off with the rest. -/
def makedirsRev : List String → Script Unit
  | [] => pure ()
  | t :: rest =>
    if t = "" then makedirsRev rest
    else do
      if (← ntExists rest.reverse) then ntMkdir (t :: rest).reverse
      else
        makedirsRev rest
        if t = "." then pure () else ntMkdir (t :: rest).reverse

/-- `os.makedirs(name, exist_ok=True)` for the raw components `q` of `name` from the root of
`c:`. -/
def osMakedirs (q : List String) : Script Unit := makedirsRev q.reverse

/-- `os.path.dirname`: `ntpath.split` drops the last component and the separators before it. -/
def ntDirname (q : List String) : List String := (q.reverse.tail.dropWhile (· = "")).reverse

/-! ## Where a normalised path lies -/

theorem foldl_normPush_plain (rooted : Bool) {cs : List String}
    (h : ∀ c ∈ cs, c ≠ "" ∧ c ≠ "." ∧ c ≠ "..") (st : List String) :
    cs.foldl (normPush rooted) st = cs.reverse ++ st := by
  induction cs generalizing st with
  | nil => rfl
  | cons c cs ih =>
    obtain ⟨h₁, h₂, h₃⟩ := h c (List.mem_cons_self _ _)
    have hpush : normPush rooted st c = c :: st := by
      unfold normPush
      rw [if_neg (by tauto), if_neg h₃]
    rw [List.foldl_cons, hpush, ih fun c hc => h c (List.mem_cons_of_mem _ hc)]
    simp

theorem place_eq_data {q : List String} {p : Path} :
    place q = .data p ↔ normComps true q = dataComps ++ p := by
  unfold place
  dsimp only
  split
  · rename_i h
    obtain ⟨r, hr⟩ := List.isPrefixOf_iff_prefix.mp h
    rw [← hr, Place.data.injEq, List.drop_left, List.append_cancel_left_eq]
  · rename_i h
    refine ⟨fun h' => (by split at h' <;> cases h'), fun h' => absurd ?_ h⟩
    rw [h', List.isPrefixOf_iff_prefix]
    exact List.prefix_append _ _

/-- Plain components below `DATA_DIR` lie in the deployment tree as they are. -/
theorem place_dataComps {r : List String} (hr : ∀ s ∈ r, s ≠ "" ∧ s ≠ "." ∧ s ≠ "..") :
    place (dataComps ++ r) = .data r := by
  rw [place_eq_data, normComps, foldl_normPush_plain _ (List.forall_mem_append.mpr ⟨by decide, hr⟩),
    List.append_nil, List.reverse_reverse]

/-! ## `ntpath.normpath` on `c:` -/

theorem splitPath_ne_nil (l : List Char) : splitPath l ≠ [] := by
  cases l with
  | nil => simp [splitPath]
  | cons c cs =>
    simp only [splitPath]
    split
    · simp
    · split <;> simp

theorem splitPath_toBackslash (l : List Char) : splitPath (toBackslash l) = splitPath l := by
  induction l with
  | nil => rfl
  | cons c cs ih =>
    simp only [toBackslash, List.map_cons] at ih ⊢
    by_cases hc : c = '/'
    · simp [splitPath, hc, ih]
    · simp [splitPath, hc, ih]

/-- **`ntpath.normpath` on `c:`**: a path with a root on `c:` normalises to the root and the
stack of its components. -/
theorem normPath_drive {c : Char} (hc : isSep c = true) (rest : List Char) :
    normPath ⟨'c' :: ':' :: c :: rest⟩ =
      "c:\\" ++ String.intercalate "\\" (normComps true ((splitPath rest).map String.mk)) := by
  have hb : toBackslash ('c' :: ':' :: c :: rest) = 'c' :: ':' :: '\\' :: toBackslash rest := by
    have : (if c = '/' then '\\' else c) = '\\' := by
      simp only [isSep, Bool.or_eq_true, beq_iff_eq] at hc
      rcases hc with rfl | rfl <;> rfl
    simp [toBackslash, this]
  have hr : splitRoot ('c' :: ':' :: '\\' :: toBackslash rest) =
      (['c', ':'], ['\\'], toBackslash rest) := by
    simp [splitRoot, toBackslash]
  simp only [normPath, String.toList, hb, hr, splitPath_toBackslash]
  rw [if_neg (by simp)]
  rfl

/-! ## `os.makedirs` changes only directories -/

/-- `w'` has the files and the archive of `w`: at most directories were made. -/
def DirsOnly (w w' : World) : Prop := w'.src = w.src ∧ w'.data.files = w.data.files

theorem DirsOnly.refl (w : World) : DirsOnly w w := ⟨rfl, rfl⟩

theorem DirsOnly.trans {w₁ w₂ w₃ : World} (h₁ : DirsOnly w₁ w₂) (h₂ : DirsOnly w₂ w₃) :
    DirsOnly w₁ w₃ :=
  ⟨h₂.1.trans h₁.1, h₂.2.trans h₁.2⟩

theorem DirsOnly.get {w w' : World} (h : DirsOnly w w') (p : Path) : w'.data.get p = w.data.get p := by
  simp only [Tree.get, h.2]

/-- Making directories loses no file. -/
theorem DirsOnly.noLoss {w w' : World} (h : DirsOnly w w') : NoLoss w w' := fun q hq => by
  rwa [Tree.isFile_iff, h.get, ← Tree.isFile_iff]

theorem after_ntExists (q : List String) (w : World) : after (ntExists q) w = w := by
  cases hq : place q <;> simp only [after, ntExists, hq]

theorem after_ntMkdir (q : List String) (w : World) : DirsOnly w (after (ntMkdir q) w) := by
  cases hq : place q <;> simp only [after, ntMkdir, hq] <;> (try split_ifs) <;> exact ⟨rfl, rfl⟩

theorem makedirsRev_keeps {w₀ : World} (rq : List String) : Keeps (DirsOnly w₀) (makedirsRev rq) := by
  have hE : ∀ q, Keeps (DirsOnly w₀) (ntExists q) := fun q w h => by rwa [after_ntExists]
  have hM : ∀ q, Keeps (DirsOnly w₀) (ntMkdir q) := fun q w h => h.trans (after_ntMkdir q w)
  induction rq with
  | nil => exact Keeps.pure ()
  | cons t rest ih =>
    rw [makedirsRev]
    exact Keeps.ite ih (Keeps.bind (hE _) fun _ =>
      Keeps.ite (hM _) (Keeps.bind ih fun _ => Keeps.ite (Keeps.pure ()) (hM _)))

/-- **`os.makedirs` changes no file**, whether it completes or raises. -/
theorem osMakedirs_dirsOnly (q : List String) (w : World) : DirsOnly w (after (osMakedirs q) w) :=
  makedirsRev_keeps q.reverse w (DirsOnly.refl w)

/-! ## `os.makedirs` below `DATA_DIR` -/

section Plain

variable {r : List String} (hr : ∀ s ∈ r, s ≠ "" ∧ s ≠ "." ∧ s ≠ "..")
include hr

/-- `mkdir` of a plain path whose parent is a directory and which is no file. -/
theorem ntMkdir_plain {w : World} (hp : w.data.isDir r.dropLast = true) (hd : r ∉ w.data.paths) :
    ∃ w', ntMkdir (dataComps ++ r) w = .ok () w' ∧ DirsOnly w w' ∧ w'.data.isDir r = true ∧
      ∀ d ∈ w'.data.dirs, d ∈ w.data.dirs ∨ d <+: r := by
  unfold ntMkdir
  rw [place_dataComps hr]
  dsimp only
  by_cases hr' : w.data.isDir r = true
  · exact ⟨w, by rw [if_pos hr'], DirsOnly.refl w, hr', fun d hd => .inl hd⟩
  · rw [if_neg hr', dif_pos ⟨hp, hd⟩]
    have h := Tree.inits_not_mem hp hd
    exact ⟨_, rfl, ⟨rfl, rfl⟩, Tree.isDir_mkdirs (h := h),
      fun d hd => (Tree.mem_dirs_mkdirs (h := h) hd).imp_right And.left⟩

/-- The head of plain components is there in the deployment tree. -/
theorem ntExists_plain (w : World) : ntExists (dataComps ++ r) w = .ok (w.data.present r) w := by
  unfold ntExists
  rw [place_dataComps hr]

end Plain

theorem osMakedirs_snoc (r : List String) (x : String) :
    osMakedirs (dataComps ++ (r ++ [x])) = makedirsRev (x :: (dataComps ++ r).reverse) := by
  rw [osMakedirs, ← List.append_assoc, List.reverse_append]
  rfl

/-- **`os.makedirs` below `DATA_DIR`**: for plain components with no file on the way, it
completes, leaves them a directory, and makes no directory other than their prefixes. -/
theorem osMakedirs_plain {r : List String} (hr : ∀ s ∈ r, s ≠ "" ∧ s ≠ "." ∧ s ≠ "..")
    {w : World} (hfree : ∀ q ∈ r.inits, q ∉ w.data.paths) :
    ∃ w', osMakedirs (dataComps ++ r) w = .ok () w' ∧ DirsOnly w w' ∧ w'.data.isDir r = true ∧
      ∀ d ∈ w'.data.dirs, d ∈ w.data.dirs ∨ d <+: r := by
  induction r using List.reverseRecOn generalizing w with
  | nil => exact ⟨w, rfl, DirsOnly.refl w, rfl, fun d hd => .inl hd⟩
  | append_singleton r x ih =>
    have hr₀ : ∀ s ∈ r, s ≠ "" ∧ s ≠ "." ∧ s ≠ ".." := fun s hs => hr s (List.mem_append_left _ hs)
    obtain ⟨hx₁, hx₂, -⟩ := hr x (List.mem_append_right _ (List.mem_singleton_self x))
    have hinits : ∀ q ∈ r.inits, q ∈ (r ++ [x]).inits := fun q hq => (List.mem_inits _ _).mpr
      (((List.mem_inits _ _).mp hq).trans (List.prefix_append _ _))
    have hrx : r ++ [x] ∉ w.data.paths := hfree _ ((List.mem_inits _ _).mpr (List.prefix_refl _))
    rw [osMakedirs_snoc, makedirsRev, if_neg hx₁, bind_apply, List.reverse_reverse,
      ntExists_plain hr₀]
    dsimp only
    by_cases hp : w.data.present r = true
    · -- the parent is there: it is a directory, as no file is on the way
      have hdir : w.data.isDir r = true := by
        have := hfree r ((List.mem_inits _ _).mpr (List.prefix_append _ _))
        simpa [Tree.present, Tree.isFile, this] using hp
      rw [if_pos hp, List.reverse_cons, List.reverse_reverse, List.append_assoc]
      exact ntMkdir_plain hr (by simpa using hdir) hrx
    · -- the parent is made first
      obtain ⟨w₁, h₁, hd₁, hdir₁, hdirs₁⟩ := ih hr₀ fun q hq => hfree q (hinits q hq)
      have hrx₁ : r ++ [x] ∉ w₁.data.paths := by
        rwa [Tree.paths, hd₁.2]
      obtain ⟨w₂, h₂, hd₂, hdir₂, hdirs₂⟩ := ntMkdir_plain hr (w := w₁) (by simpa using hdir₁) hrx₁
      rw [osMakedirs] at h₁
      refine ⟨w₂, ?_, hd₁.trans hd₂, hdir₂, fun d hd => ?_⟩
      · rw [if_neg hp, bind_ok h₁, if_neg hx₂, List.reverse_cons, List.reverse_reverse,
          List.append_assoc, h₂]
      · rcases hdirs₂ d hd with hd | hd
        · exact (hdirs₁ d hd).imp_right fun h => h.trans (List.prefix_append _ _)
        · exact .inr hd

/-- **`os.makedirs` of a directory that exists** changes nothing. -/
theorem osMakedirs_of_isDir {r : List String} (hr : ∀ s ∈ r, s ≠ "" ∧ s ≠ "." ∧ s ≠ "..")
    {w : World} (hd : w.data.isDir r = true) : osMakedirs (dataComps ++ r) w = .ok () w := by
  induction r using List.reverseRecOn with
  | nil => rfl
  | append_singleton r x _ =>
    have hr₀ : ∀ s ∈ r, s ≠ "" ∧ s ≠ "." ∧ s ≠ ".." := fun s hs => hr s (List.mem_append_left _ hs)
    have hx := (hr x (List.mem_append_right _ (List.mem_singleton_self x))).1
    have hp : w.data.present r = true := by
      simp [Tree.present, Tree.isDir_of_prefix hd (List.prefix_append r [x])]
    rw [osMakedirs_snoc, makedirsRev, if_neg hx, bind_apply, List.reverse_reverse,
      ntExists_plain hr₀]
    dsimp only
    rw [if_pos hp, List.reverse_cons, List.reverse_reverse, List.append_assoc, ntMkdir,
      place_dataComps hr]
    simp [hd]

/-- `os.path.dirname` of plain components below `DATA_DIR` is their parent. -/
theorem ntDirname_plain {p : List String} (hp : ∀ s ∈ p, s ≠ "" ∧ s ≠ "." ∧ s ≠ "..")
    (hne : p ≠ []) : ntDirname (dataComps ++ p) = dataComps ++ p.dropLast := by
  obtain ⟨r, x, rfl⟩ : ∃ r x, p = r ++ [x] :=
    ⟨p.dropLast, p.getLast hne, (List.dropLast_append_getLast hne).symm⟩
  rw [List.dropLast_concat, ntDirname, ← List.append_assoc, List.reverse_append]
  rcases List.eq_nil_or_concat r with rfl | ⟨r', y, rfl⟩
  · rfl
  · have hy := (hp y (by simp)).1
    simp [List.dropWhile_cons, hy]

end AssetPipeline
