import AssetPipeline.Prune

/-!
# The restorers: `restore_files` and `restore_data`

Model of `optimize_assets.restore_files` (`optimize_assets.py:8-32`) and of
`restore_data.restore_data` (`restore_data.py:8-38`), the two ways back from the archive.

* `restoreFiles` walks `DATA_DIR` and, for every listed `x.gz` whose `x` does not exist,
  opens `x` for writing and decompresses `x.gz` into it (`gunzipStep`; `gz_path[:-3]` is
  `gzOriginal`). A `.gz` that is no gzip stream raises after `x` was created empty, and
  nothing catches it. It then walks the archive and copies every file whose relative path
  does not exist in `DATA_DIR` (`copyBackStep`). Both loops test for existence first.
* `restoreData` walks the archive and moves every file to the same relative path in
  `DATA_DIR` (`restoreStep`), with `shutil.move` inside `try`, and tests nothing first.
  A missing `data_src` is the empty tree: the walk then visits nothing, as the early return
  does.

Results:
* `restoreFiles_grows`: `restore_files` changes no file of `DATA_DIR` and no path that
  exists stops existing, whether it completes or not.
* `restoreData_overwrites`: `restore_data` replaces a file of `DATA_DIR` with the archive's.
* `restoreFiles_twice`: a second run can do more than the first, since the copy loop brings
  in `.gz` files the decompression loop has already passed.
* `restoreFiles_fixed`: a completed run after which every `.gz` of `DATA_DIR` was there at
  its start is a fixed point of `restore_files`.
-/

namespace AssetPipeline

/-! ## `restore_files` -/

/-- The decompression loop's iteration (`optimize_assets.py:11-20`). -/
def gunzipStep (p : Path) : Script Unit := do
  if endswith (baseName p) [".gz"] then
    if !(← pathExists .data (gzOriginal p)) then
      let b ← readFile .data p
      writeFile .data (gzOriginal p) (.text "")
      match b.gunzip with
      | some d => writeFile .data (gzOriginal p) d
      | none => throw (.gunzip .data p)

/-- The copy loop's iteration (`optimize_assets.py:25-32`). -/
def copyBackStep (p : Path) : Script Unit := do
  if !(← pathExists .data p) then
    makedirs .data p.dropLast
    copy2 .src p .data p

/-- `restore_files()`. -/
def restoreFiles : Script Unit := do
  let ps ← walk .data
  forEach ps gunzipStep
  let qs ← walk .src
  forEach qs copyBackStep

/-! ## `restore_data` -/

/-- The iteration of `restore_data` (`restore_data.py:18-33`). -/
def restoreStep (p : Path) : Script Unit := do
  makedirs .data p.dropLast
  attempt (move .src p .data p)

/-- `restore_data()`. -/
def restoreData : Script Unit := do
  let ps ← walk .src
  forEach ps restoreStep

/-! ## `restore_files` only adds -/

theorem gunzipStep_grows (p : Path) (w : World) : Grows w (after (gunzipStep p) w) := by
  unfold gunzipStep
  split
  · rw [after_pathExists_bind]
    split
    · rename_i hab
      have hnone := Tree.get_of_absent (by simpa using hab)
      rw [after_readFile_bind]
      split
      · refine after_bind_of (Grows.writeFile (Grows.refl w) hnone) fun _ w₁ _ h₁ => ?_
        split
        · exact Grows.writeFile h₁ hnone
        · exact h₁
      · exact Grows.refl w
    · exact Grows.refl w
  · exact Grows.refl w

theorem copyBackStep_grows (p : Path) (w : World) : Grows w (after (copyBackStep p) w) := by
  unfold copyBackStep
  rw [after_pathExists_bind]
  split
  · rename_i hab
    have habs : w.data.present p = false := by simpa using hab
    refine Grows.makedirs_bind (Grows.refl w) fun w₁ h₁ => ?_
    unfold copy2
    rw [after_isdir_bind, after_readFile_bind]
    split
    · refine Grows.writeFile h₁ ?_
      split
      · exact Tree.get_below_absent habs _
      · exact Tree.get_of_absent habs
    · exact h₁
  · exact Grows.refl w

/-- **`restore_files` changes no file of `DATA_DIR`**: it only adds files at paths that did
not exist, whether it completes or not. -/
theorem restoreFiles_grows (w : World) : Grows w (after restoreFiles w) := by
  unfold restoreFiles
  simp only [after_walk_bind]
  exact after_bind_of (Grows.forEach (fun p _ => gunzipStep_grows p) w) fun _ w₁ _ h₁ => by
    simpa using h₁.trans (Grows.forEach (fun q _ => copyBackStep_grows q) w₁)

/-! ## What `restore_files` brings back -/

/-- An iteration of the decompression loop writes only the original of its own `.gz`. -/
theorem gunzipStep_writes (p : Path) (w : World) :
    WritesOnly (fun q => endswith (baseName p) [".gz"] = true ∧ q = gzOriginal p) w
      (after (gunzipStep p) w) := by
  unfold gunzipStep
  split
  · have hW : ∀ b, Keeps (WritesOnly (fun q => endswith (baseName p) [".gz"] = true ∧
        q = gzOriginal p) w) (writeFile .data (gzOriginal p) b) :=
      WritesOnly.keeps_writeFile ⟨‹_›, rfl⟩
    refine (Keeps.bind (Keeps.pathExists _ _) fun _ => Keeps.ite (Keeps.bind (Keeps.readFile _ _)
      fun b => Keeps.bind (hW _) fun _ => ?_) (Keeps.pure _)) w (WritesOnly.refl _ w)
    split
    · exact hW _
    · exact Keeps.throw _
  · exact WritesOnly.refl _ w

/-- An iteration of the copy loop, for an archive file whose directory exists in `DATA_DIR`:
it copies the file when nothing is at its path, and makes no directory. -/
theorem copyBackStep_spec {q : Path} {w w' : World} (hq : q ∈ w.src.paths)
    (hdir : w.data.isDir q.dropLast = true) (h : copyBackStep q w = .ok () w') :
    w'.src = w.src ∧ w'.data.dirs = w.data.dirs ∧
      ∀ x, w'.data.get x = if w.data.present q = false ∧ x = q then w.src.get q else w.data.get x := by
  unfold copyBackStep at h
  obtain ⟨c, w₁, hc, h⟩ := bind_eq_ok h
  cases hc
  cases hp : w.data.present q
  · simp only [World.tree_data, hp, Bool.not_false, if_true] at h
    obtain ⟨_, w₂, hm, h⟩ := bind_eq_ok h
    unfold makedirs at hm
    split at hm
    · cases hm
      rename_i hfree
      -- the directory exists, so `os.makedirs` changes nothing
      have hsame : (w.tree .data).mkdirs q.dropLast hfree = w.tree .data :=
        Tree.eq_of_files_dirs rfl (Tree.dirs_mkdirs_of_isDir hdir)
      rw [hsame, World.set_tree] at h
      have hnd : w.data.isDir q = false := (Bool.or_eq_false_iff.mp hp).2
      obtain ⟨b, hb⟩ := Option.isSome_iff_exists.mp (Tree.mem_paths.mp hq)
      unfold copy2 at h
      rw [bind_ok (show isdir .data q w = .ok false w by rw [← hnd]; rfl),
        bind_ok (readFile_of_get (r := .src) hb)] at h
      have hw := WritesOnly.writeFile_ok h
      refine ⟨hw.1, hw.2.1, fun x => ?_⟩
      by_cases hx : x = q
      · subst hx
        simpa [hb] using writeFile_get h
      · simpa [hx] using hw.2.2 x hx
    · cases hm
  · simp only [World.tree_data, hp, Bool.not_true] at h
    cases h
    exact ⟨rfl, rfl, fun x => by simp⟩

/-- The copy loop over archive files whose directories exist in `DATA_DIR` copies each one
that has nothing at its path when the loop starts. -/
theorem copyBack_loop {qs : List Path} (hnd : qs.Nodup) {w w' : World}
    (hq : ∀ q ∈ qs, q ∈ w.src.paths ∧ w.data.isDir q.dropLast = true)
    (h : forEach qs copyBackStep w = .ok () w') :
    ∀ q ∈ qs, w.data.present q = false → w'.data.get q = w.src.get q := by
  induction qs generalizing w with
  | nil => intro q hq; cases hq
  | cons q qs ih =>
    obtain ⟨_, w₁, h₁, h₂⟩ := bind_eq_ok h
    obtain ⟨hq₁, hdq⟩ := hq q (List.mem_cons_self _ _)
    obtain ⟨hs, hd, hg⟩ := copyBackStep_spec hq₁ hdq h₁
    have hdir : ∀ x, w₁.data.isDir x = w.data.isDir x := fun x => by simp only [Tree.isDir, hd]
    have ih' := ih (List.nodup_cons.mp hnd).2 (fun x hx => by
      rw [hs, hdir]; exact hq x (List.mem_cons_of_mem _ hx)) h₂
    intro x hx hpx
    rcases List.mem_cons.mp hx with rfl | hx
    · obtain ⟨b, hb⟩ := Option.isSome_iff_exists.mp (Tree.mem_paths.mp hq₁)
      have h₁x : w₁.data.get x = some b := by simp [hg, hpx, hb]
      have hgrow : Grows w₁ w' := after_ok h₂ ▸ Grows.forEach (fun y _ => copyBackStep_grows y) w₁
      rw [hgrow.2.1 x b h₁x, hb]
    · have hne : x ≠ q := fun e => (List.nodup_cons.mp hnd).1 (e ▸ hx)
      rw [ih' x hx (by rw [Tree.present_congr hd (by simp [hg, hne]), hpx]), hs]

/-- **`restore_files` brings back an archived file** whose path is free in `DATA_DIR` and has
no `.gz` there, when every archived file's directory exists in `DATA_DIR` and the run
completes. -/
theorem restoreFiles_restores {w w' : World} (h : restoreFiles w = .ok () w')
    (hanc : ∀ q ∈ w.src.paths, w.data.isDir q.dropLast = true) {p : Path} (hp : p ∈ w.src.paths)
    (habs : w.data.present p = false) (hgz : gzSibling p ∉ w.data.paths) :
    w'.data.get p = w.src.get p := by
  unfold restoreFiles at h
  obtain ⟨_, _, hw, h⟩ := bind_eq_ok h
  cases hw
  obtain ⟨_, wg, hg, h⟩ := bind_eq_ok h
  obtain ⟨_, _, hw, h⟩ := bind_eq_ok h
  cases hw
  have hW : WritesOnly (fun q => ∃ x ∈ w.data.paths, endswith (baseName x) [".gz"] = true ∧
      q = gzOriginal x) w wg :=
    after_ok hg ▸ WritesOnly.after_forEach (fun x hx w₁ =>
      (gunzipStep_writes x w₁).mono fun q hq => ⟨x, hx, hq⟩) w
  have hnot : ¬ ∃ x ∈ w.data.paths, endswith (baseName x) [".gz"] = true ∧ p = gzOriginal x := by
    rintro ⟨x, hx, hxg, rfl⟩
    by_cases h0 : dropLast3 (baseName x) = ""
    · have hdir := Tree.isDir_of_mem hx
      simp [gzOriginal, child, h0, Tree.present, hdir] at habs
    · exact hgz (by rwa [gzSibling_gzOriginal hxg h0])
  have hdir : ∀ x, wg.data.isDir x = w.data.isDir x := fun x => by simp only [Tree.isDir, hW.2.1]
  refine (copyBack_loop wg.src.nodup (fun q hq => ?_) h p (by rwa [hW.1]) ?_).trans (by rw [hW.1])
  · rw [hW.1] at hq ⊢
    exact ⟨hq, (hdir _).trans (hanc q hq)⟩
  · rwa [Tree.present_congr hW.2.1 (hW.2.2 p hnot)]

/-! ## Running `restore_files` again -/

/-- An iteration whose original exists does nothing. -/
theorem gunzipStep_of_present {p : Path} {w : World}
    (h : endswith (baseName p) [".gz"] = true → w.data.present (gzOriginal p) = true) :
    gunzipStep p w = .ok () w := by
  unfold gunzipStep
  by_cases hg : endswith (baseName p) [".gz"] = true
  · rw [if_pos hg, bind_ok (rfl : pathExists .data _ w = .ok _ w)]
    simp only [World.tree_data, h hg, Bool.not_true]
    rfl
  · rw [if_neg hg]
    rfl

/-- An iteration that completed leaves its original in place. -/
theorem gunzipStep_present {p : Path} {w w' : World} (h : gunzipStep p w = .ok () w')
    (hg : endswith (baseName p) [".gz"] = true) : w'.data.present (gzOriginal p) = true := by
  unfold gunzipStep at h
  rw [if_pos hg] at h
  obtain ⟨c, w₁, hc, h⟩ := bind_eq_ok h
  cases hc
  cases hp : w.data.present (gzOriginal p)
  · simp only [World.tree_data, hp, Bool.not_false, if_true] at h
    obtain ⟨b, w₂, hr, h₂⟩ := bind_eq_ok h
    obtain ⟨-, rfl⟩ := readFile_eq_ok hr
    obtain ⟨_, w₃, -, h₃⟩ := bind_eq_ok h₂
    rcases hb : b.gunzip with _ | d <;> rw [hb] at h₃
    · cases h₃
    · have := writeFile_get h₃
      simp only [Tree.present, Tree.isFile, Tree.mem_paths, World.tree_data] at this ⊢
      simp [this]
  · simp only [World.tree_data, hp, Bool.not_true, Bool.false_eq_true, if_false] at h
    cases h
    exact hp

theorem copyBackStep_of_present {p : Path} {w : World} (h : w.data.present p = true) :
    copyBackStep p w = .ok () w := by
  unfold copyBackStep
  rw [bind_ok (rfl : pathExists .data _ w = .ok _ w)]
  simp only [World.tree_data, h, Bool.not_true]
  rfl

/-- An iteration that completed leaves its path in place. -/
theorem copyBackStep_present {p : Path} {w w' : World} (h : copyBackStep p w = .ok () w') :
    w'.data.present p = true := by
  unfold copyBackStep at h
  obtain ⟨c, w₁, hc, h⟩ := bind_eq_ok h
  cases hc
  cases hp : w.data.present p
  · simp only [World.tree_data, hp, Bool.not_false, if_true] at h
    obtain ⟨_, w₂, -, h₂⟩ := bind_eq_ok h
    unfold copy2 at h₂
    obtain ⟨c, w₃, hc, h₃⟩ := bind_eq_ok h₂
    cases hc
    obtain ⟨b, w₄, hr, h₄⟩ := bind_eq_ok h₃
    obtain ⟨-, rfl⟩ := readFile_eq_ok hr
    have hm := Tree.mem_paths.mpr (Option.isSome_iff_exists.mpr ⟨_, writeFile_get h₄⟩)
    simp only [World.tree_data] at hm
    split at hm
    · have := Tree.isDir_of_mem hm
      rw [List.dropLast_concat] at this
      simp [Tree.present, this]
    · simp [Tree.present, Tree.isFile, hm]
  · simp only [World.tree_data, hp, Bool.not_true, Bool.false_eq_true, if_false] at h
    cases h
    exact hp

/-- A completed `restore_files`: every listed `.gz` has its original, and every archive file
exists in `DATA_DIR`. -/
theorem restoreFiles_done {w w₁ : World} (h : restoreFiles w = .ok () w₁) :
    (∀ p ∈ w.data.paths, endswith (baseName p) [".gz"] = true →
      w₁.data.present (gzOriginal p) = true) ∧
    (∀ q ∈ w₁.src.paths, w₁.data.present q = true) ∧ w₁.src = w.src := by
  unfold restoreFiles at h
  obtain ⟨_, _, hw, h⟩ := bind_eq_ok h
  cases hw
  obtain ⟨_, w₀, h₀, h⟩ := bind_eq_ok h
  obtain ⟨_, _, hw, h⟩ := bind_eq_ok h
  cases hw
  have hg₀ : Grows w w₀ := after_ok h₀ ▸ Grows.forEach (fun p _ => gunzipStep_grows p) w
  have hg₁ : Grows w₀ w₁ := after_ok h ▸ Grows.forEach (fun q _ => copyBackStep_grows q) w₀
  refine ⟨fun p hp hgz => hg₁.2.2 _ ?_, fun q hq => ?_, hg₁.1.trans hg₀.1⟩
  · refine forEach_establishes (D := fun p w => endswith (baseName p) [".gz"] = true →
      w.data.present (gzOriginal p) = true) w.data.nodup (fun p _ _ _ hs => gunzipStep_present hs)
      (fun x _ y _ w₂ w₃ _ hs hd hx => ?_) h₀ p hp hgz
    exact (after_ok hs ▸ gunzipStep_grows y w₂).2.2 _ (hd hx)
  · rw [hg₁.1] at hq
    refine forEach_establishes (D := fun q w => w.data.present q = true) w₀.src.nodup
      (fun q _ _ _ hs => copyBackStep_present hs)
      (fun x _ y _ w₂ w₃ _ hs hd => (after_ok hs ▸ copyBackStep_grows y w₂).2.2 _ hd) h q hq

/-- **A completed `restore_files` that created no `.gz` is a fixed point of itself.** -/
theorem restoreFiles_fixed {w w₁ : World} (h : restoreFiles w = .ok () w₁)
    (hgz : ∀ q ∈ w₁.data.paths, endswith (baseName q) [".gz"] = true → q ∈ w.data.paths) :
    restoreFiles w₁ = .ok () w₁ := by
  obtain ⟨hdec, hcopy, -⟩ := restoreFiles_done h
  have h₁ : forEach (w₁.tree .data).paths gunzipStep w₁ = .ok () w₁ :=
    forEach_ok fun p hp => gunzipStep_of_present fun hg => hdec p (hgz p hp hg) hg
  unfold restoreFiles
  rw [bind_ok (rfl : walk .data w₁ = .ok _ w₁), bind_ok h₁,
    bind_ok (rfl : walk .src w₁ = .ok _ w₁)]
  exact forEach_ok fun q hq => copyBackStep_of_present (hcopy q hq)

/-- A deployment tree with `a.js.gz` alone, and an empty archive. -/
def gzWorld : World :=
  ⟨⟨[(["a.js.gz"], .gzip (.text "x"))], [], by decide, by decide, by decide, by decide⟩,
    Tree.empty⟩

theorem restoreFiles_fixed_gz :
    restoreFiles gzWorld = .ok () (after restoreFiles gzWorld) ∧
      (∀ q ∈ (after restoreFiles gzWorld).data.paths, endswith (baseName q) [".gz"] = true →
        q ∈ gzWorld.data.paths) ∧
      restoreFiles (after restoreFiles gzWorld) = .ok () (after restoreFiles gzWorld) :=
  ⟨rfl, by decide, restoreFiles_fixed (w := gzWorld) rfl (by decide)⟩

/-- An empty deployment tree, and an archive with `a.js.gz` alone. -/
def gzArchiveWorld : World :=
  ⟨Tree.empty, ⟨[(["a.js.gz"], .gzip (.text "x"))], [], by decide, by decide, by decide,
    by decide⟩⟩

theorem restoreFiles_twice :
    ¬ ∀ w, (after (do restoreFiles; restoreFiles) w).data = (after restoreFiles w).data := by
  intro h
  have h₁ : restoreFiles gzArchiveWorld = .ok () ⟨gzWorld.data, gzArchiveWorld.src⟩ := rfl
  have := congrArg (Tree.get · ["a.js"]) (h gzArchiveWorld)
  rw [after_bind, h₁, after_ok h₁] at this
  revert this
  decide

/-! ## `restore_data` -/

/-- A deployment tree with a newer `a.js` than the archive's. -/
def newerWorld : World :=
  ⟨⟨[(["a.js"], .text "new")], [], by decide, by decide, by decide, by decide⟩,
    ⟨[(["a.js"], .text "old")], [], by decide, by decide, by decide, by decide⟩⟩

theorem restoreData_overwrites :
    newerWorld.data.get ["a.js"] = some (.text "new") ∧
      (after restoreData newerWorld).data.get ["a.js"] = some (.text "old") := by
  decide

end AssetPipeline
