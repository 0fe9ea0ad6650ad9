import AssetPipeline.Pipeline
import AssetPipeline.Restore
import AssetPipeline.Unbundle

/-!
# Forward, then back

The reverse flow runs `optimize_assets.restore_files`, then `recover_assets.unbundle` of
`bundle.js` and of `bundle.css` (`recover_assets.py:55-58`), in one process (`reverse`). Run
after the forward flow (`Pipeline.lean`), it is meant to give back the sources the forward
flow bundled and pruned.

Results:
* `reverse_flow_loses`: it does not, for either pruning stage. After `finalize_filesystem` a
  listed script is gone for good: the pass deletes it, and `unbundle` finds no entry in
  `bundle.js`. After `move_sources_to_src` a style source comes back from the archive and is
  then overwritten by its `strip()`ed copy from `bundle.css`.
* The worlds of these runs are stated stage by stage, each as the one before with the paths the
  stage writes or removes (`withBundles`, `withGzips` in `Pipeline.lean`).
* `reverse_flow_restores`: what holds for `move_sources_to_src`. Into a fresh archive, with
  listed sources free of one-line `/* … */` markers, when both flows complete, every file of
  `DATA_DIR` whose name does not end in `.gz`, other than the six root files the forward flow
  writes, is back at its path with its content, except the listed style sources, which come
  back stripped with one newline. It rests on `moveSourcesToSrc_fresh` (the archiver moves
  exactly the movable files), `restoreFiles_restores` (the copy loop brings them back, since
  their `.gz` moved with them) and `cssPlan_writes`/`jsPlan_clean` (the unbundler rewrites
  the listed style sources and nothing else).
* `restoreFiles_after_archive`: the archive half alone. `move_sources_to_src` into an empty
  archive, then `restore_files`, gives back every file whose name does not end in `.gz`.
-/

namespace AssetPipeline

/-- The reverse flow. -/
def reverse : List (Script Unit) := [restoreFiles, unbundle "bundle.js", unbundle "bundle.css"]

/-- The root files the first three forward stages write. -/
def flowOutputs : List Path :=
  [["bundle.css"], ["bundle.js"], ["index.html"], ["bundle.css.gz"], ["bundle.js.gz"],
    ["index.html.gz"]]

/-- Two contents that differ at most by one trailing newline. -/
def upToNewline : Blob → Blob → Bool
  | .text c, .text c' => c' == c || c' == c ++ "\n" || c == c' ++ "\n"
  | b, b' => b == b'

/-- The forward flow with the pruning stage `prune`, then the reverse flow, gives back every
`.js`, `.css` and `.html` file outside the keep set, up to one trailing newline. -/
def Reconstructs (prune : Script Unit) : Prop :=
  ∀ w ts p b, w.data.get p = some b → endswith (baseName p) [".js", ".css", ".html"] = true →
    baseName p ∉ moveKeep → ∃ b', (after (runStages (forward prune ts ++ reverse)) w).data.get p =
      some b' ∧ upToNewline b b' = true

/-! ## Two runs that lose a source -/

/-- A deployment tree with the entry page and a listed script. -/
def utilsWorld : World :=
  ⟨⟨[(["index.html"], .text "old"), (["shared", "utils.js"], .text "u")], [["shared"]],
    by decide, by decide, by decide, by decide⟩, Tree.empty⟩

/-- The script bundle of `utilsWorld`. -/
def utilsJs : String := "\x27use strict\x27;\n\n// --- shared/utils.js ---\n;u\n"

/-- `utilsWorld` after `bundle_assets` and `update_index_html`. -/
def utilsBundled : World := withBundles utilsWorld "" utilsJs

/-- ... and after `gzip_bundles`. -/
def utilsGzipped : World := withGzips utilsBundled "" utilsJs

/-- ... and after `finalize_filesystem`, which deletes the script; the reverse flow then
changes nothing. -/
def utilsPruned : World := { utilsGzipped with data := utilsGzipped.data.erase ["shared", "utils.js"] }

/-- A deployment tree with the entry page and an indented style source. -/
def padWorld : World :=
  ⟨⟨[(["index.html"], .text "old"), (["css", "variables.css"], .text "  a")], [["css"]],
    by decide, by decide, by decide, by decide⟩, Tree.empty⟩

/-- The style bundle of `padWorld`. -/
def padCss : String := "\n/* css/variables.css */\n  a"

/-- `padWorld` after `bundle_assets` and `update_index_html`. -/
def padBundled : World := withBundles padWorld padCss "\x27use strict\x27;\n"

/-- ... and after `gzip_bundles`. -/
def padGzipped : World := withGzips padBundled padCss "\x27use strict\x27;\n"

/-- ... and after `move_sources_to_src`: the style source is in the archive. -/
def padArchived : World :=
  ⟨padGzipped.data.erase ["css", "variables.css"],
    (Tree.empty.mkdirs ["css"] (by decide)).write ["css", "variables.css"] (.text "  a")⟩

/-- ... after `restore_files`, which copies the source back, and `unbundle` of `bundle.js`,
which changes nothing. -/
def padRestored : World :=
  { padArchived with data := padArchived.data.write ["css", "variables.css"] (.text "  a") }

/-- ... and after `unbundle` of `bundle.css`, which rewrites the source stripped. -/
def padUnbundled : World :=
  { padRestored with data := padRestored.data.write ["css", "variables.css"] (.text "a\n") }

theorem reverse_flow_loses :
    ¬ Reconstructs finalizeFilesystem ∧ ¬ Reconstructs moveSourcesToSrc := by
  have hA₁ : runStages [bundleAssets, updateIndexHtml 0] utilsWorld = .ok () utilsBundled := rfl
  have hA₂ : gzipBundles utilsBundled = .ok () utilsGzipped := rfl
  have hA₃ : finalizeFilesystem utilsGzipped = .ok () utilsPruned := rfl
  have hA₄ : runStages reverse utilsPruned = .ok () utilsPruned := rfl
  have hP₁ : runStages [bundleAssets, updateIndexHtml 0] padWorld = .ok () padBundled := rfl
  have hP₂ : gzipBundles padBundled = .ok () padGzipped := rfl
  have hP₃ : moveSourcesToSrc padGzipped = .ok () padArchived := rfl
  have hP₄ : restoreFiles padArchived = .ok () padRestored := rfl
  have hP₅ : unbundle "bundle.js" padRestored = .ok () padRestored := rfl
  have hP₆ : unbundle "bundle.css" padRestored = .ok () padUnbundled := rfl
  have hsplit : ∀ prune, forward prune 0 ++ reverse =
      [bundleAssets, updateIndexHtml 0] ++ gzipBundles :: prune :: reverse := fun _ => rfl
  refine ⟨fun h => ?_, fun h => ?_⟩
  · -- the listed script is deleted, and the script bundle gives nothing back
    obtain ⟨b', hb', -⟩ := h utilsWorld 0 ["shared", "utils.js"] _ rfl (by decide) (by decide)
    rw [hsplit, after_eq_of (runStages_append_ok hA₁), after_eq_of (runStages_cons_ok hA₂),
      after_eq_of (runStages_cons_ok hA₃), after_ok hA₄] at hb'
    cases hb'
  · -- the style source comes back, and is then overwritten stripped
    obtain ⟨b', hb', hup⟩ := h padWorld 0 ["css", "variables.css"] _ rfl (by decide) (by decide)
    rw [hsplit, after_eq_of (runStages_append_ok hP₁), after_eq_of (runStages_cons_ok hP₂),
      after_eq_of (runStages_cons_ok hP₃), reverse, after_eq_of (runStages_cons_ok hP₄),
      after_eq_of (runStages_cons_ok hP₅), after_eq_of (runStages_cons_ok hP₆)] at hb'
    cases hb'
    revert hup
    decide

/-! ## What the move variant gives back -/

/-- The first three stages of the forward flow write only the six root files, and leave the
bundles as the writers make them from the tree they started on. -/
theorem forward_prefix_spec {ts : Nat} {w wB wI wG : World} (hB : bundleAssets w = .ok () wB)
    (hU : updateIndexHtml ts wB = .ok () wI) (hG : gzipBundles wI = .ok () wG) :
    WritesOnly (· ∈ flowOutputs) w wG ∧
      wG.data.get ["bundle.css"] = some (.text (cssWriter.init ++
        (bundleText w.data cssWriter.head cssWriter.tail cssWriter.names).1)) ∧
      wG.data.get ["bundle.js"] = some (.text (jsWriter.init ++
        (bundleText w.data jsWriter.head jsWriter.tail jsWriter.names).1)) := by
  obtain ⟨hdB, hwB⟩ := bundleAssets_done hB
  obtain ⟨-, hwU⟩ := updateIndexHtml_done hU
  obtain ⟨-, hwG⟩ := gzipBundles_done hG
  have hgz : ∀ p, GzipOut p → p ∈ flowOutputs := by
    rintro p ⟨f, hf, rfl⟩
    revert f
    decide
  have hw : WritesOnly (· ∈ flowOutputs) w wG :=
    ((hwB.mono fun _ hp => by rcases hp with rfl | rfl <;> decide).trans
      (hwU.mono fun _ hp => by subst hp; decide)).trans (hwG.mono hgz)
  have hdG : BundleDone wG :=
    (hdB.transfer hwU indexHtml_not_bundle).transfer hwG gzipOut_not_bundle
  have hnames : ∀ f ∈ cssFiles ++ jsFiles, relPath f ∉ flowOutputs := by decide
  have htext := fun (W : Writer) (hW : ∀ f ∈ W.names, f ∈ cssFiles ++ jsFiles) =>
    bundleText_congr W.head W.tail hw.2.1 fun f hf => hw.2.2 _ (hnames f (hW f hf))
  exact ⟨hw, hdG.1.2.trans (by rw [htext cssWriter fun f => List.mem_append_left _]),
    hdG.2.2.trans (by rw [htext jsWriter fun f => List.mem_append_right _])⟩

/-- After archiving the tree `t` into a fresh archive (`moveSourcesToSrc_fresh`), the copy
loop can bring every moved file back: its directory is still in `DATA_DIR`, and a moved name
that is not a `.gz` has neither itself nor its `.gz` left there. -/
theorem archived_restorable {t : Tree} {w : World} (hdirs : w.data.dirs = t.dirs)
    (hdata : ∀ q, w.data.get q = if movable q = true then none else t.get q)
    (hsrc : ∀ q, w.src.get q = if movable q = true then t.get q else none) :
    (∀ q ∈ w.src.paths, w.data.isDir q.dropLast = true) ∧
      ∀ p ∈ t.paths, movable p = true → endswith (baseName p) [".gz"] = false →
        w.data.present p = false ∧ gzSibling p ∉ w.data.paths := by
  have hdir : ∀ q, w.data.isDir q = t.isDir q := fun q => by simp only [Tree.isDir, hdirs]
  refine ⟨fun q hq => ?_, fun p hp hm hgz => ⟨?_, ?_⟩⟩
  · rw [Tree.mem_paths, hsrc] at hq
    split at hq
    · exact (hdir _).trans (Tree.isDir_of_mem (Tree.mem_paths.mpr hq))
    · cases hq
  · have hnd : t.isDir p = false := by
      cases h : t.isDir p
      · rfl
      · have := Tree.isFile_of_isDir h
        simp [Tree.isFile, hp] at this
    simp [Tree.present, Tree.isFile, Tree.mem_paths, hdata, hm, hdir, hnd]
  · rw [Tree.mem_paths, hdata, if_pos (movable_gzSibling hm hgz)]
    simp

/-- So `restore_files` after archiving `t` gives back every file of `t` whose name does not
end in `.gz`: a moved one from the archive, a kept one because the pass changes no file. -/
theorem restored_of_archived {t : Tree} {w w' : World} (hdirs : w.data.dirs = t.dirs)
    (hdata : ∀ q, w.data.get q = if movable q = true then none else t.get q)
    (hsrc : ∀ q, w.src.get q = if movable q = true then t.get q else none)
    (hR : restoreFiles w = .ok () w') {p : Path} {b : Blob} (hp : t.get p = some b)
    (hgz : endswith (baseName p) [".gz"] = false) : w'.data.get p = some b := by
  by_cases hm : movable p = true
  · have hs : w.src.get p = some b := by rw [hsrc, if_pos hm, hp]
    obtain ⟨hanc, hfree⟩ := archived_restorable hdirs hdata hsrc
    obtain ⟨habs, hgzp⟩ := hfree p (Tree.mem_paths.mpr (by rw [hp]; rfl)) hm hgz
    rw [restoreFiles_restores hR hanc (Tree.mem_paths.mpr (by rw [hs]; rfl)) habs hgzp, hs]
  · have hgrow : Grows w w' := after_ok hR ▸ restoreFiles_grows w
    exact hgrow.2.1 p b (by rw [hdata, if_neg hm, hp])

/-- **Forward with `move_sources_to_src`, then back, gives back the sources**: into a fresh
archive, with listed sources that read as text without a one-line marker, when both flows
complete, every file of `DATA_DIR` whose name does not end in `.gz` comes back with its
content, except the six root files the flow writes and the listed style sources, which come
back stripped with one newline. -/
theorem reverse_flow_restores {ts : Nat} {w w₁ w₂ : World} (hA : w.src = Tree.empty)
    (hclean : ∀ f ∈ cssFiles ++ jsFiles, cleanSource w.data f = true)
    (hf : runStages (forward moveSourcesToSrc ts) w = .ok () w₁)
    (hr : runStages reverse w₁ = .ok () w₂) :
    (∀ p b, w.data.get p = some b → p ∉ flowOutputs → endswith (baseName p) [".gz"] = false →
      (∀ f ∈ cssFiles, p ≠ relPath f) → w₂.data.get p = some b) ∧
    (∀ f ∈ cssFiles, ∀ c, w.data.get (relPath f) = some (.text c) →
      w₂.data.get (relPath f) = some (.text (strip c ++ "\n"))) := by
  -- the forward flow
  obtain ⟨wB, hB, hf⟩ := runStages_cons_inv hf
  obtain ⟨wI, hU, hf⟩ := runStages_cons_inv hf
  obtain ⟨wG, hG, hf⟩ := runStages_cons_inv hf
  obtain ⟨w₁', hM, hf⟩ := runStages_cons_inv hf
  cases hf
  obtain ⟨hw, hcss, hjs⟩ := forward_prefix_spec hB hU hG
  obtain ⟨w₁'', hM', hdirs, hdata, hsrc⟩ := moveSourcesToSrc_fresh (hw.1.trans hA)
  rw [hM] at hM'
  cases hM'
  -- the reverse flow
  obtain ⟨wR, hR, hr⟩ := runStages_cons_inv hr
  obtain ⟨wJ, hJ, hr⟩ := runStages_cons_inv hr
  obtain ⟨w₂', hC, hr⟩ := runStages_cons_inv hr
  cases hr
  have hgrow : Grows w₁ wR := after_ok hR ▸ restoreFiles_grows w₁
  -- the bundles are not archived, so `restore_files` leaves them
  have hkept : ∀ q b, movable q = false → wG.data.get q = some b → wR.data.get q = some b :=
    fun q b hm hb => hgrow.2.1 q b (by rw [hdata, hm, hb]; rfl)
  rw [unbundle_of_get (hkept ["bundle.js"] _ rfl hjs),
    jsPlan_clean fun f hf => hclean f (List.mem_append_right _ hf)] at hJ
  cases hJ
  rw [unbundle_of_get (hkept ["bundle.css"] _ rfl hcss),
    cssPlan_clean fun f hf => hclean f (List.mem_append_left _ hf)] at hC
  obtain ⟨-, hother, hlisted⟩ := cssPlan_writes hC
  refine ⟨fun p b hp hout hgz hcss' => ?_,
    fun f hf c hc => hlisted f c (mem_presentTexts.mpr ⟨hf, hc⟩)⟩
  have hpG : wG.data.get p = some b := (hw.2.2 p hout).trans hp
  rw [hother p fun f _ hfc => hcss' f (mem_presentTexts.mp hfc).1]
  exact restored_of_archived hdirs hdata hsrc hR hpG hgz

/-- `styleArchived` after `restore_files` and `unbundle` of `bundle.js`: the source and the
script are back. -/
def styleRestored : World :=
  { styleArchived with
    data := styleArchived.data.write ["css", "variables.css"] (.text "a")
      |>.write ["app.js"] (.text "x") }

/-- ... and after `unbundle` of `bundle.css`: the source with a newline. -/
def styleUnbundled : World :=
  { styleRestored with data := styleRestored.data.write ["css", "variables.css"] (.text "a\n") }

/-- `restore_files` copies the source and the script back from the archive. -/
theorem restoreFiles_styleArchived : restoreFiles styleArchived = .ok () styleRestored := rfl

theorem reverse_flow_restores_style :
    (styleWorld.src = Tree.empty ∧
      (∀ f ∈ cssFiles ++ jsFiles, cleanSource styleWorld.data f = true) ∧
      runStages (forward moveSourcesToSrc 0) styleWorld = .ok () styleArchived ∧
      styleArchived.data.get ["app.js"] = none ∧
      styleArchived.src.get ["app.js"] = some (.text "x") ∧
      runStages reverse styleArchived = .ok () styleUnbundled) ∧
    ((∀ p b, styleWorld.data.get p = some b → p ∉ flowOutputs →
        endswith (baseName p) [".gz"] = false → (∀ f ∈ cssFiles, p ≠ relPath f) →
        styleUnbundled.data.get p = some b) ∧
      (∀ f ∈ cssFiles, ∀ c, styleWorld.data.get (relPath f) = some (.text c) →
        styleUnbundled.data.get (relPath f) = some (.text (strip c ++ "\n")))) := by
  have h₂ : unbundle "bundle.js" styleRestored = .ok () styleRestored := rfl
  have h₃ : unbundle "bundle.css" styleRestored = .ok () styleUnbundled := rfl
  have hrev : runStages reverse styleArchived = .ok () styleUnbundled := by
    rw [reverse, runStages_cons_ok restoreFiles_styleArchived, runStages_cons_ok h₂,
      runStages_cons_ok h₃]
    rfl
  exact ⟨⟨rfl, by decide, forward_styleWorld, by decide, by decide, hrev⟩,
    reverse_flow_restores rfl (by decide) forward_styleWorld hrev⟩

/-! ## Archive, then restore -/

/-- **Archiving into a fresh archive, then restoring, loses nothing**: when
`move_sources_to_src` into an empty archive and then `restore_files` complete, every file of
`DATA_DIR` whose name does not end in `.gz` is back at its path with its content. -/
theorem restoreFiles_after_archive {w w₁ w₂ : World} (hA : w.src = Tree.empty)
    (hM : moveSourcesToSrc w = .ok () w₁) (hR : restoreFiles w₁ = .ok () w₂) (p : Path)
    (b : Blob) (hp : w.data.get p = some b) (hgz : endswith (baseName p) [".gz"] = false) :
    w₂.data.get p = some b := by
  obtain ⟨w₁', hM', hdirs, hdata, hsrc⟩ := moveSourcesToSrc_fresh hA
  rw [hM] at hM'
  cases hM'
  exact restored_of_archived hdirs hdata hsrc hR hp hgz

theorem restoreFiles_after_archive_style :
    (styleGzipped.src = Tree.empty ∧ moveSourcesToSrc styleGzipped = .ok () styleArchived ∧
      restoreFiles styleArchived = .ok () styleRestored ∧
      styleGzipped.data.get ["css", "variables.css"] = some (.text "a") ∧
      endswith (baseName ["css", "variables.css"]) [".gz"] = false) ∧
    styleRestored.data.get ["css", "variables.css"] = some (.text "a") := by
  have hp : styleGzipped.data.get ["css", "variables.css"] = some (.text "a") := rfl
  exact ⟨⟨rfl, moveSourcesToSrc_styleGzipped, restoreFiles_styleArchived, hp, rfl⟩,
    restoreFiles_after_archive rfl moveSourcesToSrc_styleGzipped restoreFiles_styleArchived _ _ hp rfl⟩

end AssetPipeline
