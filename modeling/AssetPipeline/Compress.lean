import AssetPipeline.Run

/-!
# The compressors: `gzip_bundles` and `gzip_files`

Model of `optimize_assets.gzip_bundles` (`optimize_assets.py:197-205`) and of
`gzip_assets.gzip_files` (`gzip_assets.py:8-22`). Both copy a file into `gzip.open(path +
".gz", "wb")`; the blob written is `.gzip b` for the bytes `b` read (the gzip header's
timestamp is not modelled).

* `gzipBundles` visits `bundle.css`, `bundle.js` and `index.html` at the root of `DATA_DIR`
  (`bundleOutputs`) and compresses each one that exists (`gzipBundle`). A name that exists as
  a directory makes `open(path, "rb")` raise, and nothing catches it.
* `gzipFiles` walks the tree and compresses every file whose name ends in `.js`, `.css` or
  `.html` and not in `.gz` (`gzipStep`) into its `.gz` sibling, overwriting one that is
  there. The `.gz` files it writes sit in directories the walk has already listed, so the
  listing it works from is the tree's file list at the start.

Results:
* `gzipBundles_fixed`: a completed `gzip_bundles` is a fixed point of itself; it is done
  (`GzipDone`) when every one of the three names that exists is a file whose `.gz` holds its
  compressed bytes, and it writes only the three `.gz` names (`gzipBundles_done`).
* `gzipFiles_grows`: `gzip_files` removes nothing and writes only `.gz` siblings of script,
  style and page files, whether it completes or not.
-/

namespace AssetPipeline

/-! ## `gzip_bundles` -/

/-- The loop list of `gzip_bundles`. -/
def bundleOutputs : List String := ["bundle.css", "bundle.js", "index.html"]

/-- One iteration of `gzip_bundles`: `path + ".gz"` gets the compressed bytes of `path`. -/
def gzipBundle (f : String) : Script Unit := do
  if (← pathExists .data [f]) then
    let b ← readFile .data [f]
    writeFile .data [f ++ ".gz"] (.gzip b)

/-- `gzip_bundles()`. -/
def gzipBundles : Script Unit := forEach bundleOutputs gzipBundle

/-- One name of `gzip_bundles` is done at `w`: if it exists, it is a file whose `.gz` holds
its compressed bytes. -/
def GzipOneDone (f : String) (w : World) : Prop :=
  w.data.present [f] = true → ∃ b, w.data.get [f] = some b ∧ w.data.get [f ++ ".gz"] = some (.gzip b)

/-- `gzip_bundles` is done at `w`. -/
def GzipDone (w : World) : Prop := ∀ f ∈ bundleOutputs, GzipOneDone f w

/-- The paths `gzip_bundles` writes. -/
def GzipOut (p : Path) : Prop := ∃ f ∈ bundleOutputs, p = [f ++ ".gz"]

theorem gzipBundle_of_done {f : String} {w : World} (h : GzipOneDone f w) :
    gzipBundle f w = .ok () w := by
  unfold gzipBundle
  rw [bind_ok (rfl : pathExists .data [f] w = .ok (w.data.present [f]) w)]
  by_cases hp : w.data.present [f] = true
  · obtain ⟨b, hb, hgz⟩ := h hp
    simp only [World.tree_data, hp, if_true]
    rw [bind_ok (readFile_of_get (r := .data) hb)]
    exact writeFile_of_get (r := .data) hgz
  · simp only [World.tree_data]
    rw [if_neg hp]
    rfl

/-- One iteration that completed is done for its name and wrote only that name's `.gz`. -/
theorem gzipBundle_done {f : String} {w w' : World} (h : gzipBundle f w = .ok () w') :
    GzipOneDone f w' ∧ WritesOnly (· = [f ++ ".gz"]) w w' := by
  have hne : [f] ≠ [f ++ ".gz"] := by
    simp only [ne_eq, List.cons.injEq, and_true]
    intro he
    have := congrArg String.length he
    simp [show ".gz".length = 3 from rfl] at this
  unfold gzipBundle at h
  obtain ⟨c, w₁, hc, h⟩ := bind_eq_ok h
  cases hc
  by_cases hp : w.data.present [f] = true
  · simp only [World.tree_data, hp, if_true] at h
    obtain ⟨b, w₂, hr, hwr⟩ := bind_eq_ok h
    obtain ⟨hb, rfl⟩ := readFile_eq_ok hr
    have hw := WritesOnly.writeFile_ok hwr
    exact ⟨fun _ => ⟨b, (hw.2.2 _ hne).trans hb, writeFile_get hwr⟩, hw⟩
  · simp only [World.tree_data, hp] at h
    cases h
    exact ⟨fun h' => absurd h' hp, WritesOnly.refl _ _⟩

/-- A completed `gzip_bundles` is done, and wrote only the three `.gz` names. -/
theorem gzipBundles_done {w w' : World} (h : gzipBundles w = .ok () w') :
    GzipDone w' ∧ WritesOnly GzipOut w w' := by
  refine ⟨forEach_establishes (by decide) (fun _ _ _ _ hb => (gzipBundle_done hb).1) ?_ h,
    WritesOnly.forEach (fun f hf _ _ hb => (gzipBundle_done hb).2.mono fun _ hq => ⟨f, hf, hq⟩) h⟩
  have hsep : ∀ f ∈ bundleOutputs, ∀ g ∈ bundleOutputs, f ≠ g →
      [f] ≠ [g ++ ".gz"] ∧ [f ++ ".gz"] ≠ [g ++ ".gz"] := by decide
  intro f hf g hg w₁ w₂ hfg hb hd
  have hw := (gzipBundle_done hb).2
  obtain ⟨hf, hgz⟩ := hsep f hf g hg hfg
  intro hp
  obtain ⟨b, hb₁, hb₂⟩ := hd (by rwa [hw.present hf] at hp)
  exact ⟨b, (hw.2.2 _ hf).trans hb₁, (hw.2.2 _ hgz).trans hb₂⟩

/-- `gzip_bundles` writes only the three `.gz` names, whether it completes or not. -/
theorem gzipBundles_writes (w : World) : WritesOnly GzipOut w (after gzipBundles w) := by
  refine WritesOnly.after_forEach (fun f hf w => ?_) w
  unfold gzipBundle
  rw [after_pathExists_bind]
  split
  · rw [after_readFile_bind]
    split
    · exact (WritesOnly.writeFile _ _ w).mono fun _ hq => ⟨f, hf, hq⟩
    · exact WritesOnly.refl _ w
  · exact WritesOnly.refl _ w

/-- `gzip_bundles` loses no file of `DATA_DIR`, whether it completes or not. -/
theorem gzipBundles_noLoss (w : World) : NoLoss w (after gzipBundles w) :=
  keeps_forEach (fun _ _ => Keeps.bind (Keeps.pathExists _ _) fun _ =>
      Keeps.ite (Keeps.bind (Keeps.readFile _ _) fun _ => NoLoss.keeps_writeFile _ _ _)
        (Keeps.pure _))
    w (NoLoss.refl w)

theorem gzipBundles_of_done {w : World} (h : GzipDone w) : gzipBundles w = .ok () w :=
  forEach_ok fun f hf => gzipBundle_of_done (h f hf)

/-- **A completed `gzip_bundles` is a fixed point of itself.** -/
theorem gzipBundles_fixed {w w' : World} (h : gzipBundles w = .ok () w') :
    gzipBundles w' = .ok () w' :=
  gzipBundles_of_done (gzipBundles_done h).1

/-! ## `gzip_files` -/

/-- The names `gzip_files` compresses (`gzip_assets.py:12`). -/
def gzipSelected (name : String) : Bool :=
  endswith name [".js", ".css", ".html"] && !endswith name [".gz"]

/-- One file of the walk of `gzip_files`. -/
def gzipStep (p : Path) : Script Unit := do
  if gzipSelected (baseName p) then
    let b ← readFile .data p
    writeFile .data (gzSibling p) (.gzip b)

/-- `gzip_files(DATA_DIR)`. -/
def gzipFiles : Script Unit := do
  let ps ← walk .data
  forEach ps gzipStep

/-- The paths `gzip_files` may write: the `.gz` siblings of the names it selects. -/
def GzipFilesOut (q : Path) : Prop := ∃ p, gzipSelected (baseName p) = true ∧ q = gzSibling p

theorem gzipStep_frame (p : Path) (w : World) :
    NoLoss w (after (gzipStep p) w) ∧ WritesOnly GzipFilesOut w (after (gzipStep p) w) := by
  unfold gzipStep
  split
  · rw [after_readFile_bind]
    split
    · exact ⟨NoLoss.writeFile .data _ _ w,
        (WritesOnly.writeFile _ _ w).mono fun q hq => ⟨p, ‹_›, hq⟩⟩
    · exact ⟨NoLoss.refl w, WritesOnly.refl _ w⟩
  · exact ⟨NoLoss.refl w, WritesOnly.refl _ w⟩

/-- **`gzip_files` removes nothing and writes only `.gz` siblings of the files it selects**,
whether it completes or not. -/
theorem gzipFiles_grows (w : World) :
    NoLoss w (after gzipFiles w) ∧ WritesOnly GzipFilesOut w (after gzipFiles w) := by
  simp only [gzipFiles, after_walk_bind]
  exact ⟨NoLoss.forEach (fun p _ w => (gzipStep_frame p w).1) w,
    WritesOnly.after_forEach (fun p _ w => (gzipStep_frame p w).2) w⟩

end AssetPipeline
