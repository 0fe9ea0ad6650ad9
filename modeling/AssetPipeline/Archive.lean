import AssetPipeline.Bundle

/-!
# The archiver: `move_sources_to_src`

Model of `optimize_assets.move_sources_to_src` (`optimize_assets.py:207-255`), which moves the
script and style sources out of `DATA_DIR` into the archive root `data_src`, at the same
relative path.

* The walk skips a file whose name is in `keep_files` (`moveKeep`), or is one once every
  `.gz` is taken out of it (`replaceGz`), or whose relative path has a `pages` part; of the
  rest it moves the names ending in `.js` or `.css`, and the `.gz` of such names
  (`movable`). It never consults the lists `bundle_assets` bundles.
* For a file it moves, `os.makedirs` of the destination's directory runs outside the `try`
  (a file on the way stops the pass); `shutil.move` runs inside it (`archiveStep`). When the
  archive already holds a file at the destination, `shutil.move` replaces it: nothing in
  the pass checks for one.

Results:
* `moveSourcesToSrc_removes_movable`: a file the pass removes is `movable`; the bundle lists
  play no part, so a script no list names is archived all the same (`Pipeline.lean` runs the
  forward flow on one).
* `moveSourcesToSrc_overwrites`: an archive file at a moved path is replaced by the
  deployment file.
* `moveSourcesToSrc_fresh`: into an empty archive the pass completes and moves exactly the
  movable files, each to its own path (`archiveStep_move` for one iteration, `archiveStep_inv`
  for the invariant it keeps).
-/

namespace AssetPipeline

/-- `keep_files` of `move_sources_to_src` (`optimize_assets.py:212-218`). -/
def moveKeep : List String :=
  ["bundle.css", "bundle.css.gz", "bundle.js", "bundle.js.gz", "index.html", "index.html.gz",
    "favicon.ico"]

/-- `move_exts` (`optimize_assets.py:222`). -/
def moveExts : List String := [".js", ".css"]

/-- The tests of the walk (`optimize_assets.py:226-243`): the file at `p` is moved. -/
def movable (p : Path) : Bool :=
  let file := baseName p
  !moveKeep.contains file && !moveKeep.contains (replaceGz file) && !p.contains "pages" &&
    (endswith file moveExts || (endswith file [".gz"] && endswith (dropLast3 file) moveExts))

/-- One file of the walk (`optimize_assets.py:245-255`). -/
def archiveStep (p : Path) : Script Unit := do
  if movable p then
    makedirs .src p.dropLast
    attempt (move .data p .src p)

/-- `move_sources_to_src()`. -/
def moveSourcesToSrc : Script Unit := do
  let ps ← walk .data
  forEach ps archiveStep

/-- The pass is its loop over the files listed at its start. -/
theorem moveSourcesToSrc_eq (w : World) : moveSourcesToSrc w = forEach w.data.paths archiveStep w :=
  rfl

/-! ## What the pass removes -/

/-- One iteration leaves the deployment tree as it was, or without its own file, which is
movable. -/
theorem archiveStep_data (p : Path) (w : World) :
    (after (archiveStep p) w).data = w.data ∨
      (movable p = true ∧ (after (archiveStep p) w).data = w.data.erase p) := by
  unfold archiveStep
  split
  · rw [after_makedirs_bind]
    split
    · rw [after_attempt]
      rcases after_move (show Root.data ≠ Root.src by decide) p p _ with h | ⟨b, -, h, -⟩
      · exact .inl (by rw [h]; rfl)
      · exact .inr ⟨‹_›, h⟩
    · exact .inl rfl
  · exact .inl rfl

/-- Every file of `w₀` that is gone from `w` is movable. -/
def RemovedMovable (w₀ w : World) : Prop :=
  ∀ q, q ∈ w₀.data.paths → q ∉ w.data.paths → movable q = true

theorem archiveStep_keeps (p : Path) {w₀ : World} : Keeps (RemovedMovable w₀) (archiveStep p) := by
  intro w h q hq hgone
  rcases archiveStep_data p w with e | ⟨hm, e⟩
  · rw [e] at hgone
    exact h q hq hgone
  · rw [e, Tree.paths_erase] at hgone
    by_cases hqp : q = p
    · exact hqp ▸ hm
    · exact h q hq fun hw => hgone (List.mem_filter.mpr ⟨hw, by simpa using hqp⟩)

theorem moveSourcesToSrc_removes_movable {w : World} {p : Path} (hp : p ∈ w.data.paths)
    (hgone : p ∉ (after moveSourcesToSrc w).data.paths) : movable p = true := by
  simp only [moveSourcesToSrc, after_walk_bind] at hgone
  exact keeps_forEach (fun q _ => archiveStep_keeps q) w (fun _ h h' => absurd h h') p hp hgone

/-- The pass leaves every file it does not move as it was, whether it completes or not. -/
theorem moveSourcesToSrc_keeps {q : Path} (hq : movable q = false) (w : World) :
    (after moveSourcesToSrc w).data.get q = w.data.get q := by
  simp only [moveSourcesToSrc, after_walk_bind]
  refine keeps_forEach (P := fun w' => w'.data.get q = w.data.get q) (fun p _ w' hw' => ?_) w rfl
  rcases archiveStep_data p w' with e | ⟨hm, e⟩
  · rwa [e]
  · have hne : q ≠ p := by rintro rfl; rw [hq] at hm; cases hm
    rw [e, Tree.get_erase, if_neg hne, hw']

/-! ## Into a fresh archive -/

/-- The `.gz` of a movable name that is not itself a `.gz` is movable. -/
theorem movable_gzSibling {p : Path} (hm : movable p = true)
    (hgz : endswith (baseName p) [".gz"] = false) : movable (gzSibling p) = true := by
  have hkeep : ∀ k ∈ moveKeep, endswith k [".gz"] = true → dropLast3 k ∈ moveKeep := by decide
  have hend : endswith (baseName p ++ ".gz") [".gz"] = true := (endswith_gz_iff _).mpr ⟨_, rfl⟩
  have hpages : "pages" ≠ baseName p ++ ".gz" := fun h => absurd (h ▸ hend) (by decide)
  simp only [movable, baseName_gzSibling, replaceGz_append_gz, dropLast3_append_gz, hend, hgz,
    Bool.and_eq_true, Bool.not_eq_true', Bool.or_eq_true, Bool.false_and, Bool.true_and,
    or_false, Bool.false_eq_true, List.elem_eq_mem, decide_eq_false_iff_not,
    decide_eq_true_eq] at hm ⊢
  obtain ⟨⟨⟨h₁, h₂⟩, h₃⟩, h₄⟩ := hm
  refine ⟨⟨⟨fun hk => h₁ (by simpa using hkeep _ hk hend), h₂⟩, ?_⟩, .inr h₄⟩
  simp only [gzSibling, List.mem_append, List.mem_singleton, not_or]
  exact ⟨fun h => h₃ (List.dropLast_subset p h), hpages⟩

/-- One iteration on a movable file, when no file of the archive stands on its directory and
its path is no directory there: the directories are made and the file moves. -/
theorem archiveStep_move {p : Path} {b : Blob} {w : World} (hm : movable p = true)
    (hb : w.data.get p = some b) (hfree : ∀ e ∈ p.dropLast.inits, e ∉ w.src.paths)
    (hpnd : p ≠ [] ∧ p ∉ (w.src.mkdirs p.dropLast hfree).dirs) :
    ∃ w', archiveStep p w = .ok () w' ∧ w'.data = w.data.erase p ∧
      w'.src.dirs = (w.src.mkdirs p.dropLast hfree).dirs ∧
      ∀ q, w'.src.get q = if q = p then some b else w.src.get q := by
  set w₁ := w.set .src (w.src.mkdirs p.dropLast hfree) with hw₁
  have hmk : makedirs .src p.dropLast w = .ok () w₁ := dif_pos hfree
  have hnotdir : (w₁.tree .src).isDir p = false := by simpa [Tree.isDir] using hpnd
  have hpar : p.dropLast = [] ∨ p.dropLast ∈ (w₁.tree .src).dirs := by
    simpa [Tree.isDir] using (Tree.isDir_mkdirs : (w.src.mkdirs p.dropLast hfree).isDir _ = true)
  have hb₁ : (w₁.tree .data).get p = some b := by simpa [hw₁] using hb
  have hmv := (move_of_not_dir hnotdir).trans (moveTo_ok (by decide) hb₁ hpar hpnd)
  refine ⟨(w₁.set .src ((w₁.tree .src).put p b hpar hpnd)).set .data ((w₁.tree .data).erase p),
    ?_, by simp [hw₁], by simp [hw₁], fun q => by simp [hw₁]⟩
  unfold archiveStep
  rw [if_pos hm, bind_ok hmk, attempt_apply, after_ok hmv]

/-- The pass over the deployment tree `t`, with `rest` still to visit: the movable files
visited so far are in the archive at their own paths and gone from `DATA_DIR`, and every
directory of the archive is one of `t`. -/
def ArchiveInv (t : Tree) (rest : List Path) (w : World) : Prop :=
  w.data.dirs = t.dirs ∧ (∀ d ∈ w.src.dirs, d ∈ t.dirs) ∧
    (∀ q, w.data.get q = if movable q = true ∧ q ∉ rest then none else t.get q) ∧
    (∀ q, w.src.get q = if movable q = true ∧ q ∉ rest then t.get q else none)

/-- One iteration into an archive that holds only what the pass moved completes, and moves
its file when it is movable. -/
theorem archiveStep_inv {t : Tree} {p : Path} {rest : List Path} {w : World} (hp : p ∈ t.paths)
    (hpr : p ∉ rest) (h : ArchiveInv t (p :: rest) w) :
    ∃ w', archiveStep p w = .ok () w' ∧ ArchiveInv t rest w' := by
  obtain ⟨hd, hsd, hdata, hsrc⟩ := h
  have hcond : ∀ q, q ≠ p → (movable q = true ∧ q ∉ p :: rest ↔ movable q = true ∧ q ∉ rest) :=
    fun q hq => by simp [hq]
  by_cases hm : movable p = true
  · obtain ⟨b, hb⟩ := Option.isSome_iff_exists.mp (Tree.mem_paths.mp hp)
    have hpdir : t.isDir p.dropLast = true := Tree.isDir_of_mem hp
    -- the archive holds only files of `t`, none of them a directory of `t`
    have hfree : ∀ e ∈ p.dropLast.inits, e ∉ w.src.paths := by
      intro e he hes
      have hed := Tree.isDir_of_prefix hpdir ((List.mem_inits _ _).mp he)
      rw [Tree.mem_paths, hsrc] at hes
      split at hes
      · have := Tree.isFile_iff.mpr hes
        rw [Tree.isFile_of_isDir hed] at this
        cases this
      · cases hes
    have hsd₁ : ∀ d ∈ (w.src.mkdirs p.dropLast hfree).dirs, d ∈ t.dirs := fun d hd' => by
      rcases Tree.mem_dirs_mkdirs (h := hfree) hd' with h' | ⟨h', h0⟩
      · exact hsd d h'
      · simpa [Tree.isDir, h0] using Tree.isDir_of_prefix hpdir h'
    obtain ⟨w', hstep, hdata', hdirs', hsrc'⟩ := archiveStep_move (b := b) hm
      (by simp [hdata, hm, hb]) hfree
      ⟨(t.file_not_dir p hp).1, fun h' => (t.file_not_dir p hp).2 (hsd₁ p h')⟩
    refine ⟨w', hstep, by rw [hdata', Tree.dirs_erase, hd], fun d hd' => hsd₁ d (hdirs' ▸ hd'),
      fun q => ?_, fun q => ?_⟩
    · rw [hdata', Tree.get_erase]
      by_cases hq : q = p
      · subst hq; simp [hm, hpr]
      · simp only [if_neg hq, hdata, hcond q hq]
    · rw [hsrc']
      by_cases hq : q = p
      · subst hq; simp [hm, hpr, hb]
      · simp only [if_neg hq, hsrc, hcond q hq]
  · -- a file that stays is visited like one not yet visited
    have hstay : ∀ q, (movable q = true ∧ q ∉ p :: rest ↔ movable q = true ∧ q ∉ rest) :=
      fun q => if hq : q = p then by simp [hq, hm] else hcond q hq
    refine ⟨w, by unfold archiveStep; rw [if_neg hm]; rfl, hd, hsd,
      fun q => by simp only [hdata, hstay q], fun q => by simp only [hsrc, hstay q]⟩

/-- The walk runs to its end, and leaves every movable file it was handed in the archive. -/
theorem archive_loop {t : Tree} {rest : List Path} (hnd : rest.Nodup)
    (hsub : ∀ q ∈ rest, q ∈ t.paths) {w : World} (h : ArchiveInv t rest w) :
    ∃ w', forEach rest archiveStep w = .ok () w' ∧ ArchiveInv t [] w' := by
  induction rest generalizing w with
  | nil => exact ⟨w, rfl, h⟩
  | cons p rest ih =>
    obtain ⟨hp, hnd⟩ := List.nodup_cons.mp hnd
    obtain ⟨w₁, h₁, hi⟩ := archiveStep_inv (hsub p (List.mem_cons_self _ _)) hp h
    obtain ⟨w', h', hi'⟩ := ih hnd (fun q hq => hsub q (List.mem_cons_of_mem _ hq)) hi
    exact ⟨w', by rw [forEach_cons, h₁]; exact h', hi'⟩

/-- **Into a fresh archive, `move_sources_to_src` moves exactly the movable files**: it
completes, `DATA_DIR` keeps its directories and loses exactly its movable files, and the
archive holds exactly those, at their own paths. -/
theorem moveSourcesToSrc_fresh {w : World} (hA : w.src = Tree.empty) :
    ∃ w', moveSourcesToSrc w = .ok () w' ∧ w'.data.dirs = w.data.dirs ∧
      (∀ q, w'.data.get q = if movable q = true then none else w.data.get q) ∧
      (∀ q, w'.src.get q = if movable q = true then w.data.get q else none) := by
  have habs : ∀ q, q ∉ w.data.paths → w.data.get q = none := fun q hq => by
    simpa [Tree.mem_paths] using hq
  have h₀ : ArchiveInv w.data w.data.paths w := by
    refine ⟨rfl, by simp [hA], fun q => ?_, fun q => ?_⟩
    · by_cases hq : q ∈ w.data.paths <;> simp [hq, habs]
    · by_cases hq : q ∈ w.data.paths <;> simp [hq, habs, hA]
  obtain ⟨w', h', hd, -, hdata, hsrc⟩ := archive_loop w.data.nodup (fun _ h => h) h₀
  exact ⟨w', h', hd, fun q => by simpa using hdata q, fun q => by simpa using hsrc q⟩

/-! ## Collisions in the archive -/

/-- A deployment tree with `shared/utils.js`, and an archive that holds an older copy. -/
def clashWorld : World :=
  ⟨⟨[(["shared", "utils.js"], .text "new")], [["shared"]], by decide, by decide, by decide,
      by decide⟩,
    ⟨[(["shared", "utils.js"], .text "old")], [["shared"]], by decide, by decide, by decide,
      by decide⟩⟩

theorem moveSourcesToSrc_overwrites :
    (after moveSourcesToSrc clashWorld).src.get ["shared", "utils.js"] = some (.text "new") ∧
      (after moveSourcesToSrc clashWorld).data.get ["shared", "utils.js"] = none := by
  decide

end AssetPipeline
