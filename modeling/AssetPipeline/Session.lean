import AssetPipeline.Router
import AssetPipeline.Restore
import AssetPipeline.Recover
import AssetPipeline.Dashboard

/-!
# Any session of the scripts

The scripts of the repository are run by hand, one process after another, in any order, and
each can stop on an exception with its work half done. A session (`runSteps`) is a list of
them (`Step`), each run on the trees the previous one left, completed or not.

Three of them delete from `DATA_DIR`: `cleanup_files`, `finalize_filesystem` and
`move_sources_to_src`, the last one into the archive. Every other one only writes or adds
files (`step_noLoss`).

Results:
* `entryChain_kept`: in every session, each root entry file of the site (`index.html`, the two
  bundles and `favicon.ico`) that is in `DATA_DIR` at the start, as itself or compressed any
  number of times, is still there at the end in one of those forms. `cleanup_files` removes a
  file of the chain only when a later one is there, and the other two passes never remove one,
  by their keep lists.
* `entry_kept_without_cleanup`: in a session that does not run `cleanup_files`, the entry file
  itself stays.
-/

namespace AssetPipeline

/-- The scripts of the repository that change the trees, with their arguments: the functions
of `optimize_assets.py` (its main block runs `restore_files`; the calls of the others are
commented out there) and the main blocks of the other scripts. -/
inductive Step
  | restoreFiles
  | bundleAssets
  | updateIndexHtml (ts : Nat)
  | gzipBundles
  | moveSourcesToSrc
  | gzipFiles
  | cleanupFiles
  | finalizeFilesystem
  | bundleFiles (extension outputFilename : String)
  | restoreData
  | unbundle (bundleFile : String)
  | recoverAssets
  | fixDashboard
  deriving DecidableEq, Repr

/-- The script a step runs. -/
def Step.script : Step → Script Unit
  | .restoreFiles => AssetPipeline.restoreFiles
  | .bundleAssets => AssetPipeline.bundleAssets
  | .updateIndexHtml ts => AssetPipeline.updateIndexHtml ts
  | .gzipBundles => AssetPipeline.gzipBundles
  | .moveSourcesToSrc => AssetPipeline.moveSourcesToSrc
  | .gzipFiles => AssetPipeline.gzipFiles
  | .cleanupFiles => AssetPipeline.cleanupFiles
  | .finalizeFilesystem => AssetPipeline.finalizeFilesystem
  | .bundleFiles extension outputFilename => AssetPipeline.bundleFiles extension outputFilename
  | .restoreData => AssetPipeline.restoreData
  | .unbundle bundleFile => AssetPipeline.unbundle bundleFile
  | .recoverAssets => AssetPipeline.recoverAssets
  | .fixDashboard => AssetPipeline.fixDashboard

/-- A session: the steps run one after the other, each on what the previous one left. -/
def runSteps (w : World) : List Step → World
  | [] => w
  | s :: ss => runSteps (after s.script w) ss

/-- **What every step keeps, every session keeps.** -/
theorem runSteps_keeps {P : World → Prop} (h : ∀ s : Step, Keeps P s.script) :
    ∀ (ss : List Step) (w : World), P w → P (runSteps w ss)
  | [], _, hw => hw
  | s :: ss, w, hw => runSteps_keeps h ss _ (h s w hw)

/-! ## The steps that lose no file -/

namespace NoLoss

theorem of_grows {w w' : World} (h : Grows w w') : NoLoss w w' := fun q hq => by
  rw [Tree.isFile_iff, Option.isSome_iff_exists] at hq ⊢
  obtain ⟨b, hb⟩ := hq
  exact ⟨b, h.2.1 q b hb⟩

variable {w₀ : World}

theorem keeps_makedirs (r : Root) (d : Path) : Keeps (NoLoss w₀) (makedirs r d) := by
  intro w h
  unfold makedirs after
  dsimp only
  by_cases hc : ∀ q ∈ d.inits, q ∉ (w.tree r).paths
  · rw [dif_pos hc]
    cases r <;> exact h
  · rw [dif_neg hc]
    exact h

/-- `shutil.move` from the archive writes one deployment file and removes none. -/
theorem keeps_move (p q : Path) : Keeps (NoLoss w₀) (move .src p .data q) := by
  intro w h
  rcases after_move (show Root.src ≠ Root.data by decide) p q w with e | ⟨b, -, -, -, hget⟩
  · rw [e]
    exact h
  · refine h.trans fun x hx => ?_
    rw [Tree.isFile_iff] at hx ⊢
    have := hget x
    simp only [World.tree_data] at this
    rw [this]
    split <;> simp_all

theorem keeps_writeEntry (e : String × String) : Keeps (NoLoss w₀) (writeEntry e) := by
  unfold writeEntry
  split
  · exact Keeps.bind (fun w h => h.trans (osMakedirs_dirsOnly _ w).noLoss) fun _ =>
      keeps_writeFile _ _ _
  · exact Keeps.throw _

theorem keeps_unbundle (bundleFile : String) : Keeps (NoLoss w₀) (unbundle bundleFile) :=
  Keeps.bind (Keeps.pathExists _ _) fun _ => Keeps.ite (Keeps.bind (Keeps.readFile _ _) fun b =>
    Keeps.bind (Keeps.decodeText _ _ b) fun _ => keeps_forEach fun e _ => keeps_writeEntry e)
    (Keeps.pure _)

theorem keeps_restoreData : Keeps (NoLoss w₀) restoreData :=
  Keeps.bind (fun _ h => h) fun _ => keeps_forEach fun p _ =>
    Keeps.bind (keeps_makedirs _ _) fun _ => Keeps.attempt (keeps_move p p)

theorem keeps_updateIndexHtml (ts : Nat) : Keeps (NoLoss w₀) (updateIndexHtml ts) :=
  Keeps.bind (Keeps.readFile _ _) fun _ => Keeps.bind (Keeps.decodeText _ _ _) fun _ =>
    keeps_writeFile _ _ _

theorem keeps_fixDashboard : Keeps (NoLoss w₀) fixDashboard := by
  unfold fixDashboard
  exact Keeps.bind (Keeps.readFile _ _) fun b => Keeps.bind (Keeps.decodeText _ _ b) fun _ =>
    Keeps.ite (keeps_writeFile _ _ _) (Keeps.pure _)

end NoLoss

/-- Every step but the three pruning passes loses no deployment file, completed or not. -/
theorem step_noLoss {s : Step}
    (hs : s ≠ .cleanupFiles ∧ s ≠ .finalizeFilesystem ∧ s ≠ .moveSourcesToSrc) (w : World) :
    NoLoss w (after s.script w) := by
  have hk : ∀ {x : Script Unit}, (∀ {w₀}, Keeps (NoLoss w₀) x) → NoLoss w (after x w) :=
    fun h => h w (NoLoss.refl w)
  cases s with
  | restoreFiles => exact NoLoss.of_grows (restoreFiles_grows w)
  | bundleAssets => exact bundleAssets_noLoss w
  | updateIndexHtml ts => exact hk (NoLoss.keeps_updateIndexHtml ts)
  | gzipBundles => exact gzipBundles_noLoss w
  | gzipFiles => exact (gzipFiles_grows w).1
  | bundleFiles extension outputFilename => exact (bundleFiles_frame extension outputFilename w).1
  | restoreData => exact hk NoLoss.keeps_restoreData
  | unbundle bundleFile => exact hk (NoLoss.keeps_unbundle bundleFile)
  | recoverAssets => exact hk (Keeps.seq (NoLoss.keeps_unbundle _) (NoLoss.keeps_unbundle _))
  | fixDashboard => exact hk NoLoss.keeps_fixDashboard
  | cleanupFiles => exact absurd rfl hs.1
  | finalizeFilesystem => exact absurd rfl hs.2.1
  | moveSourcesToSrc => exact absurd rfl hs.2.2

/-! ## The entry files -/

/-- The root files the site starts from: the page, the two bundles it loads, and the icon. -/
def entryNames : List String := ["index.html", "bundle.js", "bundle.css", "favicon.ico"]

/-- `p` is in `DATA_DIR` as itself or compressed some number of times: `p`, `p.gz`,
`p.gz.gz`, … -/
def ChainPresent (w : World) (p : Path) : Prop := ∃ k, gzSibling^[k] p ∈ w.data.paths

theorem ChainPresent.of_noLoss {w w' : World} {p : Path} (h : NoLoss w w')
    (hc : ChainPresent w p) : ChainPresent w' p :=
  let ⟨k, hk⟩ := hc
  ⟨k, by simpa [Tree.isFile] using h _ (by simpa [Tree.isFile] using hk)⟩

/-- `cleanup_files` removes a file of a chain only when a later file of it is there. -/
theorem ChainPresent.cleanupFiles {w : World} {p : Path}
    (hp : ∀ k, gzSibling^[k] p ≠ mockupPath) (hc : ChainPresent w p) :
    ChainPresent (after AssetPipeline.cleanupFiles w) p := by
  obtain ⟨k, hk⟩ := hc
  by_cases hgone : gzSibling^[k] p ∈ (after AssetPipeline.cleanupFiles w).data.paths
  · exact ⟨k, hgone⟩
  · rcases cleanupFiles_keeps_descendant hk hgone with hm | ⟨j, -, hj⟩
    · exact absurd hm (hp k)
    · exact ⟨j + k, by rwa [Function.iterate_add_apply]⟩

theorem ChainPresent.finalizeFilesystem {w : World} {p : Path}
    (hp : ∀ k w, ¬ Prunable w (gzSibling^[k] p)) (hc : ChainPresent w p) :
    ChainPresent (after AssetPipeline.finalizeFilesystem w) p :=
  let ⟨k, hk⟩ := hc
  ⟨k, by_contra fun hgone => hp k _ (finalizeFilesystem_prunes hk hgone)⟩

theorem ChainPresent.moveSourcesToSrc {w : World} {p : Path}
    (hp : ∀ k, movable (gzSibling^[k] p) = false) (hc : ChainPresent w p) :
    ChainPresent (after AssetPipeline.moveSourcesToSrc w) p :=
  let ⟨k, hk⟩ := hc
  ⟨k, by_contra fun hgone => absurd (moveSourcesToSrc_removes_movable hk hgone) (by rw [hp k]; decide)⟩

/-! ### The names of an entry chain -/

theorem replaceGz_baseName_iterate (p : Path) (k : Nat) :
    replaceGz (baseName (gzSibling^[k] p)) = replaceGz (baseName p) := by
  induction k with
  | zero => rfl
  | succ k ih => rw [Function.iterate_succ_apply', baseName_gzSibling, replaceGz_append_gz, ih]

section Entry

variable {n : String} (hn : n ∈ entryNames)
include hn

/-- The archiver keeps an entry name once every `.gz` is taken out of it. -/
theorem movable_entryChain (k : Nat) : movable (gzSibling^[k] [n]) = false := by
  have hkeep : ∀ n ∈ entryNames, moveKeep.contains (replaceGz (baseName [n])) = true := by decide
  simp only [movable, replaceGz_baseName_iterate, hkeep n hn, Bool.not_true, Bool.and_false,
    Bool.false_and]

theorem entryChain_ne_mockup (k : Nat) : gzSibling^[k] [n] ≠ mockupPath := by
  cases k with
  | zero =>
    have : ∀ n ∈ entryNames, [n] ≠ mockupPath := by decide
    exact this n hn
  | succ k =>
    intro h
    have hgz : endswith (baseName (gzSibling^[k + 1] [n])) [".gz"] = true := by
      rw [Function.iterate_succ_apply', baseName_gzSibling]
      exact (endswith_gz_iff _).mpr ⟨_, rfl⟩
    rw [h] at hgz
    exact absurd hgz (by decide)

/-- `finalize_filesystem` prunes no file of an entry chain: the entry and its `.gz` are in its
keep list or carry no suffix it prunes, and a name ending in `.gz.gz` carries none. -/
theorem not_prunable_entryChain (k : Nat) (w : World) : ¬ Prunable w (gzSibling^[k] [n]) := by
  suffices h : baseName (gzSibling^[k] [n]) ∈ finalKeep ∨
      (endswith (baseName (gzSibling^[k] [n])) scriptSuffixes = false ∧
        endswith (baseName (gzSibling^[k] [n])) [".html"] = false) by
    rintro ⟨hk, hs | ⟨hh, -⟩⟩
    · rcases h with h | ⟨h, -⟩
      exacts [hk h, absurd hs (by rw [h]; decide)]
    · rcases h with h | ⟨-, h⟩
      exacts [hk h, absurd hh (by rw [h]; decide)]
  match k with
  | 0 =>
    have : ∀ n ∈ entryNames, baseName [n] ∈ finalKeep := by decide
    exact .inl (this n hn)
  | 1 =>
    have : ∀ n ∈ entryNames, baseName (gzSibling [n]) ∈ finalKeep ∨
        (endswith (baseName (gzSibling [n])) scriptSuffixes = false ∧
          endswith (baseName (gzSibling [n])) [".html"] = false) := by decide
    exact this n hn
  | j + 2 =>
    rw [Function.iterate_succ_apply', Function.iterate_succ_apply', baseName_gzSibling,
      baseName_gzSibling]
    refine .inr ⟨?_, ?_⟩ <;>
      simp only [scriptSuffixes, endswith_rev, toList_append, List.reverse_append] <;> rfl

end Entry

/-- One step keeps every entry chain. -/
theorem step_keeps_entryChain (s : Step) {n : String} (hn : n ∈ entryNames) :
    Keeps (fun w => ChainPresent w [n]) s.script := by
  intro w hw
  by_cases hc : s = .cleanupFiles
  · subst hc
    exact hw.cleanupFiles (entryChain_ne_mockup hn)
  by_cases hf : s = .finalizeFilesystem
  · subst hf
    exact hw.finalizeFilesystem (not_prunable_entryChain hn)
  by_cases hm : s = .moveSourcesToSrc
  · subst hm
    exact hw.moveSourcesToSrc (movable_entryChain hn)
  exact hw.of_noLoss (step_noLoss ⟨hc, hf, hm⟩ w)

/-- **No session loses an entry file**: each root entry file that is in `DATA_DIR` at the
start, as itself or compressed some number of times, is there at the end in one of those
forms, whatever scripts were run, in whatever order, completed or not. -/
theorem entryChain_kept (ss : List Step) (w : World) {n : String} (hn : n ∈ entryNames)
    (h : ChainPresent w [n]) : ChainPresent (runSteps w ss) [n] :=
  runSteps_keeps (fun s => step_keeps_entryChain s hn) ss w h

theorem entryChain_kept_chainWorld :
    "index.html" ∈ entryNames ∧ ChainPresent chainWorld ["index.html"] ∧
      ChainPresent (runSteps chainWorld
        [.cleanupFiles, .finalizeFilesystem, .moveSourcesToSrc, .cleanupFiles]) ["index.html"] :=
  have hn : "index.html" ∈ entryNames := by decide
  have hc : ChainPresent chainWorld ["index.html"] := ⟨0, by decide⟩
  ⟨hn, hc, entryChain_kept _ _ hn hc⟩

/-- One step other than `cleanup_files` keeps an entry file itself. -/
theorem step_keeps_entry {s : Step} (hs : s ≠ .cleanupFiles) {n : String} (hn : n ∈ entryNames) :
    Keeps (fun w => [n] ∈ w.data.paths) s.script := by
  intro w hw
  by_cases hf : s = .finalizeFilesystem
  · subst hf
    exact by_contra fun hgone =>
      not_prunable_entryChain hn 0 _ (finalizeFilesystem_prunes hw hgone)
  by_cases hm : s = .moveSourcesToSrc
  · subst hm
    exact by_contra fun hgone => absurd (moveSourcesToSrc_removes_movable hw hgone)
      (by rw [show [n] = gzSibling^[0] [n] from rfl, movable_entryChain hn]; decide)
  simpa [Tree.isFile] using step_noLoss ⟨hs, hf, hm⟩ w _ (by simpa [Tree.isFile] using hw)

/-- **Only `cleanup_files` removes an entry file**: in a session that does not run it, an entry
file in `DATA_DIR` at the start is there at the end. -/
theorem entry_kept_without_cleanup {ss : List Step} (hss : Step.cleanupFiles ∉ ss) (w : World)
    {n : String} (hn : n ∈ entryNames) (h : [n] ∈ w.data.paths) : [n] ∈ (runSteps w ss).data.paths := by
  induction ss generalizing w with
  | nil => exact h
  | cons s ss ih =>
    have hs : s ≠ .cleanupFiles := fun e => hss (e ▸ List.mem_cons_self _ _)
    exact ih (fun hm => hss (List.mem_cons_of_mem _ hm)) _ (step_keeps_entry hs hn w h)

theorem entry_kept_without_cleanup_chainWorld :
    Step.cleanupFiles ∉ [.finalizeFilesystem, .moveSourcesToSrc, .gzipFiles] ∧
      "index.html" ∈ entryNames ∧ ["index.html"] ∈ chainWorld.data.paths ∧
      ["index.html"] ∈ (runSteps chainWorld [.finalizeFilesystem, .moveSourcesToSrc, .gzipFiles]).data.paths :=
  have hss : Step.cleanupFiles ∉ [.finalizeFilesystem, .moveSourcesToSrc, .gzipFiles] := by decide
  have hn : "index.html" ∈ entryNames := by decide
  have h : ["index.html"] ∈ chainWorld.data.paths := by decide
  ⟨hss, hn, h, entry_kept_without_cleanup hss chainWorld hn h⟩

end AssetPipeline
