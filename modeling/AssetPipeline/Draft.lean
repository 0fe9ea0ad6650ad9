import Mathlib.Data.List.Sort
import AssetPipeline.Run

/-!
# The draft bundler: `bundle_files`

Model of `bundle_assets_draft.bundle_files(extension, output_filename)`
(`bundle_assets_draft.py:6-53`), the bundler that collects its inputs by walking `DATA_DIR`
instead of reading fixed lists.

* The walk keeps every file whose name ends in `extension`, does not end in `.gz`, and is not
  `output_filename` (`draftSelected`), at any depth: the test reads the name only.
* The selection is sorted by the full path `os.path.join(root, file)`; all of them start
  with `DATA_DIR` and a separator, so the order is that of the relative paths joined with
  `\` (`pathKey`). For `.js` a second, stable sort moves `utils.js`, `toast.js`, `state.js`
  and `theme.js` (by name, at any depth) to the front in that order (`getPriority`). Both
  sorts are `List.insertionSort`, which is stable, as Python's `list.sort` is.
* The output is opened at the root of `DATA_DIR` before the loop; each file then adds the
  marker `\n/* --- name --- */\n`, its text and a newline (`draftEntry`). The handler
  catches every error of the loop body: a file that does not open adds nothing, and a file
  that opens but does not decode has its marker written already. The output is never
  selected, so the loop reads the tree as it was before the output was opened.

Results: `mem_filesToBundle` (the sorts keep exactly the selected files), and the frame
`bundleFiles_frame`: the pass loses no file and writes only its output.
`bundleFiles_order`: the files are written each once, sorted by full path, and for `.js`
sorted by rank and then by full path; the second sort is stable
(`sorted_insertionSort_lex`), and comparing the relative paths orders as comparing the full
paths does (`codePointsLe_fullPath`).
-/

namespace AssetPipeline

/-- The test of the walk (`bundle_assets_draft.py:19`). -/
def draftSelected (extension outputFilename : String) (p : Path) : Bool :=
  endswith (baseName p) [extension] && !endswith (baseName p) [".gz"] &&
    baseName p != outputFilename

/-- The full path the first sort compares, less the prefix `DATA_DIR\` every one of them
has. -/
def pathKey (p : Path) : String := String.intercalate "\\" p

/-- `os.path.join(root, file)` for the file at `p`: `DATA_DIR`, a separator, and the relative
path joined with `\`. -/
def fullPath (p : Path) : String := dataDir ++ "\\" ++ pathKey p

/-- Python's `<=` on strings: the code points compared lexicographically. -/
def codePointsLe : List Char → List Char → Bool
  | [], _ => true
  | _ :: _, [] => false
  | a :: as, b :: bs => a.toNat < b.toNat || (a = b && codePointsLe as bs)

/-- `priority` (`bundle_assets_draft.py:31`). -/
def priority : List String := ["utils.js", "toast.js", "state.js", "theme.js"]

/-- `get_priority(path)`. -/
def getPriority (p : Path) : Nat :=
  if baseName p ∈ priority then priority.indexOf (baseName p) else 999

/-- `files_to_bundle` after both sorts. -/
def filesToBundle (extension outputFilename : String) (paths : List Path) : List Path :=
  let sorted := (paths.filter (draftSelected extension outputFilename)).insertionSort
    fun a b => codePointsLe (pathKey a).toList (pathKey b).toList
  if extension = ".js" then sorted.insertionSort fun a b => getPriority a ≤ getPriority b
  else sorted

/-- `f"\n/* --- {os.path.basename(fname)} --- */\n"`. -/
def draftMarker (name : String) : String := "\n/* --- " ++ name ++ " --- */\n"

/-- What one file adds to the output (`bundle_assets_draft.py:44-50`). -/
def draftEntry (t : Tree) (p : Path) : String :=
  match t.get p with
  | none => ""
  | some b =>
    match b.decode with
    | some s => draftMarker (baseName p) ++ s ++ "\n"
    | none => draftMarker (baseName p)

/-- The output's text: the entries of the files in order. -/
def draftText (t : Tree) : List Path → String
  | [] => ""
  | p :: ps => draftEntry t p ++ draftText t ps

/-- `bundle_files(extension, output_filename)`. -/
def bundleFiles (extension outputFilename : String) : Script Unit := do
  let t ← getTree .data
  writeFile .data (child [] outputFilename)
    (.text (draftText t (filesToBundle extension outputFilename t.paths)))

/-- The sorts keep exactly the selected files. -/
theorem mem_filesToBundle {extension outputFilename : String} {paths : List Path} {p : Path} :
    p ∈ filesToBundle extension outputFilename paths ↔
      p ∈ paths ∧ draftSelected extension outputFilename p = true := by
  unfold filesToBundle
  split <;> simp only [List.mem_insertionSort, List.mem_filter]

example : filesToBundle ".js" "bundle.js"
    [["app.js"], ["shared", "utils.js"], ["bundle.js"], ["app.js.gz"], ["a.css"]] =
      [["shared", "utils.js"], ["app.js"]] := by decide

/-- `bundle_files` loses no file and writes only its output, whether it completes or not. -/
theorem bundleFiles_frame (extension outputFilename : String) (w : World) :
    NoLoss w (after (bundleFiles extension outputFilename) w) ∧
      WritesOnly (· = child [] outputFilename) w (after (bundleFiles extension outputFilename) w) := by
  simp only [bundleFiles, after_getTree_bind]
  exact ⟨NoLoss.writeFile _ _ _ w, WritesOnly.writeFile _ _ w⟩

/-- A completed `bundle_files` leaves in its output the entries of the sorted selection, read
from the tree it started on. -/
theorem bundleFiles_get {extension outputFilename : String} {w w' : World}
    (h : bundleFiles extension outputFilename w = .ok () w') :
    w'.data.get (child [] outputFilename) =
      some (.text (draftText w.data (filesToBundle extension outputFilename w.data.paths))) :=
  writeFile_get (r := .data) h

/-! ## The order of the files -/

theorem codePointsLe_total (l m : List Char) : codePointsLe l m = true ∨ codePointsLe m l = true := by
  induction l generalizing m with
  | nil => exact .inl rfl
  | cons a as ih =>
    cases m with
    | nil => exact .inr rfl
    | cons b bs =>
      simp only [codePointsLe, Bool.or_eq_true, decide_eq_true_eq, Bool.and_eq_true]
      rcases Nat.lt_trichotomy a.toNat b.toNat with h | h | h
      · exact .inl (.inl h)
      · obtain rfl : a = b := by rw [← Char.ofNat_toNat a, h, Char.ofNat_toNat]
        rcases ih bs with h' | h'
        · exact .inl (.inr ⟨rfl, h'⟩)
        · exact .inr (.inr ⟨rfl, h'⟩)
      · exact .inr (.inl h)

theorem codePointsLe_trans {l m n : List Char} (h₁ : codePointsLe l m = true)
    (h₂ : codePointsLe m n = true) : codePointsLe l n = true := by
  induction l generalizing m n with
  | nil => rfl
  | cons a as ih =>
    cases m with
    | nil => cases h₁
    | cons b bs =>
      cases n with
      | nil => cases h₂
      | cons c cs =>
        simp only [codePointsLe, Bool.or_eq_true, decide_eq_true_eq, Bool.and_eq_true] at h₁ h₂ ⊢
        rcases h₁ with h₁ | ⟨rfl, h₁⟩ <;> rcases h₂ with h₂ | ⟨rfl, h₂⟩
        · exact .inl (by omega)
        · exact .inl h₁
        · exact .inl h₂
        · exact .inr ⟨rfl, ih h₁ h₂⟩

@[simp] theorem codePointsLe_append_left (c l m : List Char) :
    codePointsLe (c ++ l) (c ++ m) = codePointsLe l m := by
  induction c with
  | nil => rfl
  | cons x c ih => simp [codePointsLe, ih]

/-- Every full path starts with `DATA_DIR` and a separator, so they compare as the relative
paths do. -/
theorem codePointsLe_fullPath (a b : Path) :
    codePointsLe (fullPath a).toList (fullPath b).toList =
      codePointsLe (pathKey a).toList (pathKey b).toList := by
  simp only [fullPath, toList_append, List.append_assoc, codePointsLe_append_left]

/-- The first sort leaves the files in path order. -/
theorem sorted_pathKey (l : List Path) :
    (l.insertionSort fun a b => codePointsLe (pathKey a).toList (pathKey b).toList).Sorted
      fun a b => codePointsLe (pathKey a).toList (pathKey b).toList := by
  haveI : IsTotal Path fun a b => codePointsLe (pathKey a).toList (pathKey b).toList = true :=
    ⟨fun _ _ => codePointsLe_total _ _⟩
  haveI : IsTrans Path fun a b => codePointsLe (pathKey a).toList (pathKey b).toList = true :=
    ⟨fun _ _ _ => codePointsLe_trans⟩
  exact List.sorted_insertionSort _ l

section Stable

variable {α : Type}

/-- Inserting by the key `f` into a list sorted by `f` and then `r` keeps it so, when the new
element comes before every other one in `r`. -/
theorem sorted_orderedInsert_lex (f : α → Nat) {r : α → α → Prop} (a : α) {L : List α}
    (hL : L.Sorted fun x y => f x < f y ∨ (f x = f y ∧ r x y)) (ha : ∀ x ∈ L, r a x) :
    (L.orderedInsert (fun x y => f x ≤ f y) a).Sorted
      fun x y => f x < f y ∨ (f x = f y ∧ r x y) := by
  induction L with
  | nil => exact List.sorted_singleton a
  | cons b L ih =>
    obtain ⟨hb, hL⟩ := List.sorted_cons.mp hL
    have hle : ∀ x ∈ L, f b ≤ f x := fun x hx => by rcases hb x hx with h | h <;> omega
    rw [List.orderedInsert]
    split
    · rename_i hab
      refine List.sorted_cons.mpr ⟨fun x hx => ?_, List.sorted_cons.mpr ⟨hb, hL⟩⟩
      have hax : f a ≤ f x :=
        (List.mem_cons.mp hx).elim (fun h => h ▸ hab) fun hx => hab.trans (hle x hx)
      exact (Nat.lt_or_eq_of_le hax).imp_right fun h => ⟨h, ha x hx⟩
    · rename_i hab
      refine List.sorted_cons.mpr ⟨fun x hx => ?_,
        ih hL fun x hx => ha x (List.mem_cons_of_mem _ hx)⟩
      rcases (List.mem_orderedInsert _).mp hx with rfl | hx
      · exact .inl (by omega)
      · exact hb x hx

/-- **Insertion sort is stable**: sorting by the key `f` a list sorted by `r` gives a list
sorted by `f` and then by `r`. -/
theorem sorted_insertionSort_lex (f : α → Nat) {r : α → α → Prop} {l : List α}
    (hl : l.Sorted r) :
    (l.insertionSort fun x y => f x ≤ f y).Sorted fun x y => f x < f y ∨ (f x = f y ∧ r x y) := by
  induction l with
  | nil => exact List.sorted_nil
  | cons a l ih =>
    obtain ⟨ha, hl⟩ := List.sorted_cons.mp hl
    exact sorted_orderedInsert_lex f a (ih hl)
      fun x hx => ha x ((List.perm_insertionSort _ l).subset hx)

end Stable

theorem perm_filesToBundle (extension outputFilename : String) (paths : List Path) :
    (filesToBundle extension outputFilename paths).Perm
      (paths.filter (draftSelected extension outputFilename)) := by
  unfold filesToBundle
  split
  · exact (List.perm_insertionSort _ _).trans (List.perm_insertionSort _ _)
  · exact List.perm_insertionSort _ _

/-- **`bundle_files` writes each selected file once, in priority order**: the output holds the
entries of `filesToBundle` in turn, which is the selection, each file once; for `.js` it is
sorted by rank and then by full path, for any other extension by full path. -/
theorem bundleFiles_order (extension outputFilename : String) (w : World) :
    let fs := filesToBundle extension outputFilename w.data.paths
    (∀ w', bundleFiles extension outputFilename w = .ok () w' →
      w'.data.get (child [] outputFilename) = some (.text (draftText w.data fs))) ∧
    fs.Perm (w.data.paths.filter (draftSelected extension outputFilename)) ∧ fs.Nodup ∧
    (extension = ".js" → fs.Sorted fun a b => getPriority a < getPriority b ∨
      (getPriority a = getPriority b ∧ codePointsLe (fullPath a).toList (fullPath b).toList)) ∧
    (extension ≠ ".js" →
      fs.Sorted fun a b => codePointsLe (fullPath a).toList (fullPath b).toList) := by
  intro fs
  have hperm := perm_filesToBundle extension outputFilename w.data.paths
  refine ⟨fun _ h => bundleFiles_get h, hperm, hperm.nodup_iff.mpr (w.data.nodup.filter _),
    fun hjs => ?_, fun hjs => ?_⟩
  · simp only [fs, filesToBundle, if_pos hjs, codePointsLe_fullPath]
    exact sorted_insertionSort_lex getPriority (sorted_pathKey _)
  · simp only [fs, filesToBundle, if_neg hjs, codePointsLe_fullPath]
    exact sorted_pathKey _

/-- The ordering example of the bundler's description: four scripts at the root, walked in
this order. -/
def orderWorld : World :=
  ⟨⟨[(["zeta.js"], .text "z"), (["utils.js"], .text "u"), (["alpha.js"], .text "a"),
      (["theme.js"], .text "t")], [], by decide, by decide, by decide, by decide⟩, Tree.empty⟩

theorem bundleFiles_order_example :
    filesToBundle ".js" "bundle.js" orderWorld.data.paths =
        [["utils.js"], ["theme.js"], ["alpha.js"], ["zeta.js"]] ∧
      (filesToBundle ".js" "bundle.js" orderWorld.data.paths).Sorted fun a b =>
        getPriority a < getPriority b ∨
          (getPriority a = getPriority b ∧ codePointsLe (fullPath a).toList (fullPath b).toList) :=
  ⟨by decide, (bundleFiles_order ".js" "bundle.js" orderWorld).2.2.2.1 rfl⟩

end AssetPipeline
