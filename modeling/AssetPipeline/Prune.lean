import Mathlib.Algebra.Order.BigOperators.Group.List
import Mathlib.Algebra.Order.Ring.Nat
import Mathlib.Data.Nat.Find
import AssetPipeline.Run

/-!
# The pruning passes: `cleanup_files` and `finalize_filesystem`

Model of `cleanup_assets.cleanup_files` (`cleanup_assets.py:6-31`) and of
`final_cleanup.finalize_filesystem` (`final_cleanup.py:8-87`), the two passes that delete
files from `DATA_DIR`.

* `cleanupFiles` removes the root `VISUAL_MOCKUP.html` if it exists (`removeMockup`), then
  walks the tree and, for every listed `x.gz`, removes `x` if it exists (`cleanupStep`). The
  file is `os.path.join(root, file[:-3])` (`gzOriginal`); for a file named `.gz` that is the
  directory `root` itself, `os.remove` raises and the pass stops.
* `finalizeFilesystem` first gives every listed `.html` file that has none a `.gz` sibling
  (`gzipHtmlStep`), then walks again (`topdown=False`) and, for every file whose name is not
  in `keep_files` (`finalKeep`), removes it if it ends in `.js`, `.js.gz`, `.css` or
  `.css.gz`, and removes it if it is an `.html` file whose `.gz` exists (`pruneStep`). Its
  removals are wrapped in `try`.

Neither pass reads a file it deletes: what they check are names.

Results:
* `noLastCopyLost_refuted`: the deletion law stated over contents (`NoLastCopyLost`: a
  deleted plain file's content is left in a `.gz` sibling, a bundle or the archive) fails
  for `cleanupFiles`, which deletes a lone `VISUAL_MOCKUP.html`.
* `pruning_deletes_by_name`: what the passes guarantee instead. `cleanupFiles` removes the
  mockup from every tree that holds it (`cleanupFiles_removes_mockup`); any other file `x` it
  deletes had `x.gz` listed, and keeps a compressed descendant `x.gz`, `x.gz.gz`, … in the
  tree (`gzChain_top`). A file `finalizeFilesystem` deletes has a name outside its keep list,
  and is a script or style file, or an `.html` file whose `.gz` exists afterwards
  (`finalizeFilesystem_prunes`); the theorem keeps to the second kind, since the first is
  deleted whether a bundle holds it or not, against `final_cleanup.py:34`.
-/

namespace AssetPipeline

/-! ## `cleanup_files` -/

/-- `os.path.join(directory, "VISUAL_MOCKUP.html")`. -/
def mockupPath : Path := ["VISUAL_MOCKUP.html"]

/-- The unused mockup is removed if it exists (`cleanup_assets.py:11-16`). -/
def removeMockup : Script Unit := do
  if (← pathExists .data mockupPath) then
    removeFile .data mockupPath

/-- `os.path.join(root, file[:-3])` for a listed `file`. -/
def gzOriginal (p : Path) : Path := child p.dropLast (dropLast3 (baseName p))

/-- One iteration of the walk (`cleanup_assets.py:20-29`). -/
def cleanupStep (p : Path) : Script Unit := do
  if endswith (baseName p) [".gz"] then
    if (← pathExists .data (gzOriginal p)) then
      removeFile .data (gzOriginal p)

/-- `cleanup_files(DATA_DIR)`. -/
def cleanupFiles : Script Unit := do
  removeMockup
  let files ← walk .data
  forEach files cleanupStep

theorem gzSibling_gzOriginal {p : Path} (h : endswith (baseName p) [".gz"] = true)
    (h' : dropLast3 (baseName p) ≠ "") : gzSibling (gzOriginal p) = p := by
  obtain ⟨x, hx⟩ := (endswith_gz_iff _).mp h
  have hp : p ≠ [] := by
    rintro rfl
    have h0 : (x ++ ".gz").length = 0 := by rw [← hx]; rfl
    simp [show ".gz".length = 3 from rfl] at h0
  rw [hx, dropLast3_append_gz] at h'
  simp only [gzOriginal, child, hx, dropLast3_append_gz, if_neg h', gzSibling, baseName_snoc,
    List.dropLast_concat]
  rw [← hx, dropLast_append_baseName hp]

theorem removeMockup_removes (w : World) :
    RemovedOnly (· = mockupPath) w (after removeMockup w) := by
  simp only [removeMockup, after_pathExists_bind]
  split
  · exact RemovedOnly.removeFile (R := (· = mockupPath)) rfl w
  · exact RemovedOnly.refl _ w

/-- An iteration removes at most the file whose `.gz` it was handed. -/
theorem cleanupStep_removes {p : Path} {w : World} (hp : w.data.isDir p.dropLast = true) :
    RemovedOnly (fun q => gzSibling q = p) w (after (cleanupStep p) w) := by
  unfold cleanupStep
  split
  · rw [after_pathExists_bind]
    split
    · rw [after_removeFile]
      split
      · rename_i h _ hf
        refine RemovedOnly.erase (R := fun q => gzSibling q = p)
          (gzSibling_gzOriginal h fun h0 => ?_) w
        simp only [gzOriginal, child, h0, if_true, World.tree_data] at hf
        rw [Tree.isFile_of_isDir hp] at hf
        exact absurd hf Bool.false_ne_true
      · exact RemovedOnly.refl _ w
    · exact RemovedOnly.refl _ w
  · exact RemovedOnly.refl _ w

/-- The walk removes only files whose `.gz` it listed. -/
theorem cleanupWalk_removes (w : World) :
    RemovedOnly (fun q => gzSibling q ∈ w.data.paths) w
      (after (forEach w.data.paths cleanupStep) w) := by
  refine RemovedOnly.forEach fun p hp w' hw' => ?_
  have hd : w'.data.isDir p.dropLast = true := by
    simpa [Tree.isDir, hw'.2.1] using Tree.isDir_of_mem hp
  exact (cleanupStep_removes hd).mono fun q hq => hq ▸ hp

/-- `cleanup_files` removes the mockup, then files whose `.gz` the walk listed. -/
theorem cleanupFiles_removes (w : World) : ∃ w₁, RemovedOnly (· = mockupPath) w w₁ ∧
    RemovedOnly (fun q => gzSibling q ∈ w₁.data.paths) w₁ (after cleanupFiles w) := by
  have h₁ := removeMockup_removes w
  unfold cleanupFiles
  rw [after_bind]
  rcases hm : removeMockup w with ⟨_, w₁⟩ | ⟨_, w₁⟩
  · rw [after_ok hm] at h₁
    exact ⟨w₁, h₁, cleanupWalk_removes w₁⟩
  · rw [after_error hm] at h₁
    exact ⟨w₁, h₁, RemovedOnly.refl _ w₁⟩

theorem length_baseName_iterate (p : Path) (k : Nat) :
    (baseName (gzSibling^[k] p)).length = (baseName p).length + 3 * k := by
  induction k with
  | zero => rfl
  | succ k ih =>
    rw [Function.iterate_succ_apply', baseName_gzSibling, String.length_append, ih,
      show ".gz".length = 3 from rfl]
    omega

/-- Among finitely many paths, a path whose `.gz` is listed has a listed compressed descendant
whose own `.gz` is not. -/
theorem gzChain_top {S : List Path} {p : Path} (h : gzSibling p ∈ S) :
    ∃ k, 0 < k ∧ gzSibling^[k] p ∈ S ∧ gzSibling^[k + 1] p ∉ S := by
  classical
  have hex : ∃ j, gzSibling^[j + 1] p ∉ S := by
    refine ⟨(S.map fun q => (baseName q).length).sum, fun hm => ?_⟩
    have hle : (baseName (gzSibling^[(S.map fun q => (baseName q).length).sum + 1] p)).length ≤
        (S.map fun q => (baseName q).length).sum :=
      List.le_sum_of_mem (List.mem_map_of_mem _ hm)
    rw [length_baseName_iterate] at hle
    omega
  have hk := Nat.find_spec hex
  have hk0 : Nat.find hex ≠ 0 := fun h0 => by rw [h0] at hk; exact hk h
  refine ⟨Nat.find hex, Nat.pos_of_ne_zero hk0, ?_, hk⟩
  obtain ⟨j, hj⟩ := Nat.exists_eq_succ_of_ne_zero hk0
  have := Nat.find_min hex (show j < Nat.find hex by omega)
  rw [hj]
  simpa using this

/-- A file `cleanup_files` deletes, other than the mockup, keeps a compressed descendant. -/
theorem cleanupFiles_keeps_descendant {w : World} {p : Path} (hp : p ∈ w.data.paths)
    (hgone : p ∉ (after cleanupFiles w).data.paths) :
    p = mockupPath ∨ ∃ k, 0 < k ∧ gzSibling^[k] p ∈ (after cleanupFiles w).data.paths := by
  obtain ⟨w₁, h₁, h₂⟩ := cleanupFiles_removes w
  rw [Tree.mem_paths] at hp hgone
  rcases h₁.2.2 p with e₁ | ⟨-, rfl⟩
  · right
    rcases h₂.2.2 p with e₂ | ⟨-, hs⟩
    · exact absurd (e₂ ▸ e₁ ▸ hp) hgone
    · obtain ⟨k, hk, hin, hout⟩ := gzChain_top hs
      refine ⟨k, hk, ?_⟩
      rcases h₂.2.2 (gzSibling^[k] p) with e | ⟨-, hs'⟩
      · rw [Tree.mem_paths, e, ← Tree.mem_paths]
        exact hin
      · rw [← Function.iterate_succ_apply' gzSibling] at hs'
        exact absurd hs' hout
  · exact .inl rfl

/-- A file `cleanup_files` deletes, other than the mockup, had its `.gz` listed at the start. -/
theorem cleanupFiles_gz_listed {w : World} {p : Path} (hp : p ∈ w.data.paths)
    (hgone : p ∉ (after cleanupFiles w).data.paths) :
    p = mockupPath ∨ gzSibling p ∈ w.data.paths := by
  obtain ⟨w₁, h₁, h₂⟩ := cleanupFiles_removes w
  by_cases hp₁ : p ∈ w₁.data.paths
  · exact .inr (h₁.mem_of_mem (h₂.reason hp₁ hgone))
  · exact .inl (h₁.reason hp hp₁)

/-- A file `cleanup_files` deletes is the mockup, or had its `.gz` listed and keeps a
compressed descendant. -/
theorem cleanupFiles_deletes {w : World} {p : Path} (hp : p ∈ w.data.paths)
    (hgone : p ∉ (after cleanupFiles w).data.paths) :
    p = mockupPath ∨ (gzSibling p ∈ w.data.paths ∧
      ∃ k, 0 < k ∧ gzSibling^[k] p ∈ (after cleanupFiles w).data.paths) := by
  rcases cleanupFiles_gz_listed hp hgone with hm | hgz
  · exact .inl hm
  · exact (cleanupFiles_keeps_descendant hp hgone).imp_right fun hk => ⟨hgz, hk⟩

theorem removeMockup_of_mem {w : World} (h : mockupPath ∈ w.data.paths) :
    removeMockup w = .ok () (w.set .data (w.data.erase mockupPath)) := by
  have hf : w.data.isFile mockupPath = true := decide_eq_true h
  simp [removeMockup, bind, EStateM.bind, pathExists, removeFile, Tree.present, hf]

/-- `cleanup_files` removes the mockup from every tree that holds it, whatever else the tree
holds. -/
theorem cleanupFiles_removes_mockup {w : World} (h : mockupPath ∈ w.data.paths) :
    mockupPath ∉ (after cleanupFiles w).data.paths := fun h' => by
  unfold cleanupFiles at h'
  rw [after_bind, removeMockup_of_mem h] at h'
  simpa using (cleanupWalk_removes _).mem_of_mem h'

/-! ## `finalize_filesystem` -/

/-- `keep_files` (`final_cleanup.py:38-43`). -/
def finalKeep : List String :=
  ["bundle.js", "bundle.js.gz", "bundle.css", "bundle.css.gz", "index.html", "index.html.gz",
    "favicon.ico"]

/-- The suffixes step 2 deletes outright (`final_cleanup.py:63`). -/
def scriptSuffixes : List String := [".js", ".js.gz", ".css", ".css.gz"]

/-- Step 1's iteration (`final_cleanup.py:17-27`): an `.html` file without a `.gz` gets one. -/
def gzipHtmlStep (p : Path) : Script Unit := do
  if endswith (baseName p) [".html"] then
    if !(← pathExists .data (gzSibling p)) then
      let b ← readFile .data p
      writeFile .data (gzSibling p) (.gzip b)

/-- Step 2's iteration (`final_cleanup.py:46-83`). -/
def pruneStep (p : Path) : Script Unit := do
  if baseName p ∉ finalKeep then
    if endswith (baseName p) scriptSuffixes then
      attempt (removeFile .data p)
    if endswith (baseName p) [".html"] && baseName p != "index.html" then
      if (← pathExists .data (gzSibling p)) then
        attempt (removeFile .data p)

/-- `finalize_filesystem()`. -/
def finalizeFilesystem : Script Unit := do
  let files ← walk .data
  forEach files gzipHtmlStep
  let files ← walk .data
  forEach files pruneStep

/-- Why step 2 may have deleted `q`, judged on a world `w`: a script or style name outside
the keep list, or an `.html` name outside it whose `.gz` exists in `w`. -/
def Prunable (w : World) (q : Path) : Prop :=
  baseName q ∉ finalKeep ∧ (endswith (baseName q) scriptSuffixes = true ∨
    (endswith (baseName q) [".html"] = true ∧ w.data.present (gzSibling q) = true))

theorem gzipHtmlStep_adds (p : Path) (w : World) : AddsOnly w (after (gzipHtmlStep p) w) := by
  unfold gzipHtmlStep
  split
  · rw [after_pathExists_bind]
    split
    · rename_i hg
      rw [after_readFile_bind]
      split
      · rw [after_writeFile]
        split
        · refine ⟨rfl, rfl, fun q b hq => ?_⟩
          have hne : q ≠ gzSibling p := by
            rintro rfl
            simp [Tree.present, Tree.isFile, Tree.mem_paths, hq] at hg
          simpa [Tree.get_put, hne] using hq
        · exact AddsOnly.refl w
      · exact AddsOnly.refl w
    · exact AddsOnly.refl w
  · exact AddsOnly.refl w

/-- Step 1, completed or not, only adds files. -/
theorem forEach_gzipHtmlStep_adds (ps : List Path) (w : World) :
    AddsOnly w (after (forEach ps gzipHtmlStep) w) :=
  keeps_forEach (P := AddsOnly w) (fun x _ w' hw' => hw'.trans (gzipHtmlStep_adds x w')) w
    (AddsOnly.refl w)

/-- An iteration of step 2 leaves the world, or removes its own file for a reason. -/
theorem pruneStep_spec (p : Path) (w : World) :
    after (pruneStep p) w = w ∨
      (Prunable w p ∧ after (pruneStep p) w = w.set .data (w.data.erase p)) := by
  unfold pruneStep
  by_cases hk : baseName p ∈ finalKeep
  · simp [hk]
  by_cases hs : endswith (baseName p) scriptSuffixes = true
  · have hh : endswith (baseName p) [".html"] = false := Bool.eq_false_iff.mpr fun hh => by
      simp [scriptSuffixes, (endswith_html hh).1] at hs
    simp only [hk, hs, hh, not_false_eq_true, if_true, Bool.false_and, Bool.false_eq_true,
      if_false, after_attempt_bind, after_pure, after_removeFile, World.tree_data]
    split
    · exact .inr ⟨⟨hk, .inl hs⟩, rfl⟩
    · exact .inl rfl
  · simp only [hk, hs, not_false_eq_true, if_true, Bool.false_eq_true, if_false, after_pure_bind]
    split
    · rename_i hh
      simp only [Bool.and_eq_true] at hh
      rw [after_pathExists_bind]
      split
      · rename_i hg
        rw [after_attempt, after_removeFile]
        split
        · exact .inr ⟨⟨hk, .inr ⟨hh.1, hg⟩⟩, rfl⟩
        · exact .inl rfl
      · exact .inl rfl
    · exact .inl rfl

/-- Removing a prunable file leaves every other file prunable: the `.gz` of an `.html` name
is itself no name step 2 deletes. -/
theorem prunable_erase {w : World} {p q : Path} (hp : Prunable w p) (hq : Prunable w q) :
    Prunable (w.set .data (w.data.erase p)) q := by
  refine ⟨hq.1, hq.2.imp_right fun ⟨hh, hg⟩ => ⟨hh, ?_⟩⟩
  have hne : gzSibling q ≠ p := by
    rintro rfl
    obtain ⟨-, h1, h2⟩ := endswith_html hh
    rcases hp.2 with hs | ⟨hs, -⟩
    · rw [baseName_gzSibling, scriptSuffixes, h1] at hs; exact absurd hs Bool.false_ne_true
    · rw [baseName_gzSibling, h2] at hs; exact absurd hs Bool.false_ne_true
  simpa [Tree.present_erase hne] using hg

/-- What step 2 has done since the world `w₁` it started on. -/
def PruneInv (w₁ w : World) : Prop :=
  w.src = w₁.src ∧ w.data.dirs = w₁.data.dirs ∧
    ∀ q, w.data.get q = w₁.data.get q ∨ (w.data.get q = none ∧ Prunable w q)

theorem pruneStep_keeps (p : Path) {w₁ : World} : Keeps (PruneInv w₁) (pruneStep p) := by
  intro w h
  rcases pruneStep_spec p w with e | ⟨hp, e⟩
  · rwa [e]
  · rw [e]
    refine ⟨h.1, h.2.1, fun q => ?_⟩
    simp only [World.set_data, Tree.get_erase]
    by_cases hq : q = p
    · subst hq; exact .inr ⟨by simp, prunable_erase hp hp⟩
    · rcases h.2.2 q with e' | ⟨e', hq'⟩
      · exact .inl (by simp [hq, e'])
      · exact .inr ⟨by simp [hq, e'], prunable_erase hp hq'⟩

/-- A file `finalize_filesystem` deletes is prunable in the world it leaves. -/
theorem finalizeFilesystem_prunes {w : World} {p : Path} (hp : p ∈ w.data.paths)
    (hgone : p ∉ (after finalizeFilesystem w).data.paths) :
    Prunable (after finalizeFilesystem w) p := by
  have h₁ := forEach_gzipHtmlStep_adds w.data.paths w
  rw [Tree.mem_paths, Option.isSome_iff_exists] at hp
  obtain ⟨b, hb⟩ := hp
  unfold finalizeFilesystem at hgone ⊢
  simp only [after_walk_bind, World.tree_data] at hgone ⊢
  rw [after_bind] at hgone ⊢
  rcases hs : forEach w.data.paths gzipHtmlStep w with ⟨_, w₁⟩ | ⟨_, w₁⟩
  · rw [after_ok hs] at h₁
    rw [hs] at hgone
    dsimp only at hgone ⊢
    simp only [after_walk_bind, World.tree_data] at hgone ⊢
    have h₂ : PruneInv w₁ (after (forEach w₁.data.paths pruneStep) w₁) :=
      keeps_forEach (fun x _ => pruneStep_keeps x) w₁ ⟨rfl, rfl, fun _ => .inl rfl⟩
    rw [Tree.mem_paths] at hgone
    rcases h₂.2.2 p with e | ⟨-, h⟩
    · simp [e, h₁.2.2 p b hb] at hgone
    · exact h
  · rw [after_error hs] at h₁
    rw [hs] at hgone
    exact absurd (by simp [Tree.mem_paths, h₁.2.2 p b hb]) hgone

/-- A file other than a script or style file that `finalize_filesystem` deletes is an `.html`
file outside its keep list whose `.gz` is in the tree it leaves. -/
theorem finalizeFilesystem_prunes_html {w : World} {p : Path} (hp : p ∈ w.data.paths)
    (hgone : p ∉ (after finalizeFilesystem w).data.paths)
    (hs : endswith (baseName p) scriptSuffixes = false) :
    baseName p ∉ finalKeep ∧ endswith (baseName p) [".html"] = true ∧
      (after finalizeFilesystem w).data.present (gzSibling p) = true := by
  obtain ⟨hk, hs' | hh⟩ := finalizeFilesystem_prunes hp hgone
  · exact absurd (hs.symm.trans hs') Bool.false_ne_true
  · exact ⟨hk, hh⟩

/-! ## The deletion law -/

/-- A copy of the content `b` of a deleted file `p` that the law accepts: a `.gz` sibling that
decompresses to it, a bundle holding `p`'s relative path and the text, or the archive's file
at the same relative path. -/
def HasCopy (w : World) (p : Path) (b : Blob) : Prop :=
  (w.data.get (gzSibling p)).bind Blob.gunzip = some b ∨
    (∃ bundle ∈ ["bundle.js", "bundle.css"], ∃ txt s, w.data.get [bundle] = some (.text txt) ∧
      b = .text s ∧ (String.intercalate "/" p).toList <:+: txt.toList ∧
      s.toList <:+: txt.toList) ∨
    w.src.get p = some b

/-- The deletion law of one pass, for plain files: whatever it deletes keeps a copy. -/
def NoLastCopyLost (pass : Script Unit) : Prop :=
  ∀ w p b, endswith (baseName p) [".gz"] = false → w.data.get p = some b →
    (after pass w).data.get p = none → HasCopy (after pass w) p b

/-- A deployment tree holding only the mockup, and an empty archive. -/
def mockupWorld : World :=
  ⟨⟨[(mockupPath, .text "mockup")], [], by decide, by decide, by decide, by decide⟩, Tree.empty⟩

theorem noLastCopyLost_refuted : ¬ NoLastCopyLost cleanupFiles := by
  intro h
  have hc := h mockupWorld mockupPath (.text "mockup") rfl rfl (by decide)
  have hd : (after cleanupFiles mockupWorld).data.files = [] := by decide
  have hs : (after cleanupFiles mockupWorld).src.files = [] := by decide
  simp [HasCopy, Tree.get, hd, hs, Tree.getEntry] at hc

/-- **What the pruning passes guarantee.** `cleanup_files` removes the mockup from every tree
that holds it, and any other file it deletes had its `.gz` listed and keeps a compressed
descendant; a file other than a script or style file that `finalize_filesystem` deletes is an
`.html` file outside its keep list whose `.gz` it leaves. -/
theorem pruning_deletes_by_name :
    (∀ w, mockupPath ∈ w.data.paths → mockupPath ∉ (after cleanupFiles w).data.paths) ∧
    (∀ w p, p ∈ w.data.paths → p ∉ (after cleanupFiles w).data.paths →
      p = mockupPath ∨ (gzSibling p ∈ w.data.paths ∧
        ∃ k, 0 < k ∧ gzSibling^[k] p ∈ (after cleanupFiles w).data.paths)) ∧
    (∀ w p, p ∈ w.data.paths → p ∉ (after finalizeFilesystem w).data.paths →
      endswith (baseName p) scriptSuffixes = false →
      baseName p ∉ finalKeep ∧ endswith (baseName p) [".html"] = true ∧
        (after finalizeFilesystem w).data.present (gzSibling p) = true) :=
  ⟨fun _ => cleanupFiles_removes_mockup, fun _ _ => cleanupFiles_deletes,
    fun _ _ => finalizeFilesystem_prunes_html⟩

/-- A deployment tree with the mockup, a script and its `.gz`, and an empty archive. -/
def pruneWorld : World :=
  ⟨⟨[(mockupPath, .text "mockup"), (["app.js"], .text "a"), (["app.js.gz"], .gzip (.text "a"))],
    [], by decide, by decide, by decide, by decide⟩, Tree.empty⟩

theorem pruning_deletes_by_name_pruneWorld :
    (mockupPath ∈ pruneWorld.data.paths ∧ mockupPath ∉ (after cleanupFiles pruneWorld).data.paths) ∧
    (["app.js"] ∈ pruneWorld.data.paths ∧ ["app.js"] ∉ (after cleanupFiles pruneWorld).data.paths ∧
      (["app.js"] = mockupPath ∨ (gzSibling ["app.js"] ∈ pruneWorld.data.paths ∧
        ∃ k, 0 < k ∧ gzSibling^[k] ["app.js"] ∈ (after cleanupFiles pruneWorld).data.paths))) ∧
    (mockupPath ∈ pruneWorld.data.paths ∧
      mockupPath ∉ (after finalizeFilesystem pruneWorld).data.paths ∧
      endswith (baseName mockupPath) scriptSuffixes = false ∧
      baseName mockupPath ∉ finalKeep ∧ endswith (baseName mockupPath) [".html"] = true ∧
      (after finalizeFilesystem pruneWorld).data.present (gzSibling mockupPath) = true) :=
  ⟨⟨by decide, pruning_deletes_by_name.1 _ (by decide)⟩,
    ⟨by decide, by decide, pruning_deletes_by_name.2.1 _ _ (by decide) (by decide)⟩,
    ⟨by decide, by decide, by decide,
      pruning_deletes_by_name.2.2 _ _ (by decide) (by decide) (by decide)⟩⟩

end AssetPipeline
