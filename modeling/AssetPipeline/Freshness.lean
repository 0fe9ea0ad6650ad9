import AssetPipeline.Compress
import AssetPipeline.Prune

/-!
# Fresh `.gz` siblings

What the three stages that write `.gz` siblings leave behind: `gzip_assets.gzip_files`
(`gzip_assets.py:8-22`), `optimize_assets.gzip_bundles` (`optimize_assets.py:197-205`) and
the first loop of `final_cleanup.finalize_filesystem` (`final_cleanup.py:14-27`). A sibling
is fresh when it decompresses to the file's current content (`FreshGz`).

* `gzip_files` and `gzip_bundles` open `path + ".gz"` with `"wb"` whatever is there, so a
  sibling they reach is written again from the current content.
* The first loop of `finalize_filesystem` writes a sibling only `if not
  os.path.exists(gz_path)` (`final_cleanup.py:22`): a sibling an earlier run left is kept,
  whatever it holds.

Results:
* `gzipFiles_fresh`: a completed `gzip_files` leaves every script, style and page file of the
  tree with a fresh sibling. Each iteration makes its own file's sibling fresh and writes no
  other file's (`gzipStep_fresh`, `gzSibling_injective`), and the files of the tree it leaves
  are the ones it walked, with their siblings.
* `gzipBundles_fresh`: a completed `gzip_bundles` leaves each of its three names that exists
  with a fresh sibling.
* `gzipHtmlPages_keeps`: the first loop of `finalize_filesystem`, completed or not, leaves a
  page whose sibling exists exactly as fresh, or as stale, as it found it.
* `finalizeFilesystem_keeps_stale`: so on a page edited after an earlier run the loop keeps
  the old sibling, and step 2 then deletes the page, leaving the old content as its only
  copy; `gzip_files` on the same tree refreshes the sibling.
-/

namespace AssetPipeline

/-- The `.gz` sibling of `p` decompresses to `p`'s current content. -/
def FreshGz (w : World) (p : Path) : Prop :=
  (w.data.get p).isSome ∧ (w.data.get (gzSibling p)).bind Blob.gunzip = w.data.get p

instance (w : World) (p : Path) : Decidable (FreshGz w p) :=
  inferInstanceAs (Decidable ((w.data.get p).isSome ∧
    (w.data.get (gzSibling p)).bind Blob.gunzip = w.data.get p))

theorem freshGz_of_get {w : World} {p : Path} {b : Blob} (hb : w.data.get p = some b)
    (hgz : w.data.get (gzSibling p) = some (.gzip b)) : FreshGz w p := by
  simp [FreshGz, hb, hgz, Blob.gunzip]

/-- Freshness reads only the file and its sibling. -/
theorem freshGz_congr {w w' : World} {p : Path} (hp : w'.data.get p = w.data.get p)
    (hgz : w'.data.get (gzSibling p) = w.data.get (gzSibling p)) :
    FreshGz w' p ↔ FreshGz w p := by
  rw [FreshGz, FreshGz, hp, hgz]

/-- A page edited after an earlier run: `a.html` is new, its sibling holds the old page. -/
def staleWorld : World :=
  ⟨⟨[(["a.html"], .text "new"), (["a.html.gz"], .gzip (.text "old"))], [],
    by decide, by decide, by decide, by decide⟩, Tree.empty⟩

/-! ## Sibling names -/

theorem gzSibling_ne_self (p : Path) : gzSibling p ≠ p := fun h => by
  have := congrArg (fun q => (baseName q).length) h
  simp [show ".gz".length = 3 from rfl] at this

/-- A name `gzip_files` selects is no one's sibling. -/
theorem ne_gzSibling_of_selected {p : Path} (hp : gzipSelected (baseName p) = true) (q : Path) :
    p ≠ gzSibling q := by
  rintro rfl
  simp [gzipSelected, (endswith_gz_iff _).mpr ⟨_, rfl⟩] at hp

/-- Two files have two siblings. -/
theorem gzSibling_injective {p q : Path} (hp : p ≠ []) (hq : q ≠ [])
    (h : gzSibling p = gzSibling q) : p = q := by
  have hd : p.dropLast = q.dropLast := by rw [← gzSibling_dropLast p, h, gzSibling_dropLast]
  have hb : baseName p = baseName q := by
    have := congrArg (fun r => (baseName r).toList) h
    simp only [baseName_gzSibling, toList_append] at this
    exact String.ext (List.append_cancel_right this)
  rw [← dropLast_append_baseName hp, ← dropLast_append_baseName hq, hd, hb]

/-! ## `gzip_files` and `gzip_bundles` -/

/-- An iteration of `gzip_files` that completed wrote only its file's sibling, and left it
fresh if it selects the file. -/
theorem gzipStep_fresh {p : Path} {w w' : World} (h : gzipStep p w = .ok () w') :
    WritesOnly (· = gzSibling p) w w' ∧ (gzipSelected (baseName p) = true → FreshGz w' p) := by
  unfold gzipStep at h
  split at h
  · obtain ⟨b, w₁, hr, hwr⟩ := bind_eq_ok h
    obtain ⟨hb, rfl⟩ := readFile_eq_ok hr
    have hw := WritesOnly.writeFile_ok hwr
    exact ⟨hw, fun _ =>
      freshGz_of_get ((hw.2.2 _ (gzSibling_ne_self p).symm).trans hb) (writeFile_get hwr)⟩
  · rename_i hs
    cases h
    exact ⟨WritesOnly.refl _ _, fun h => absurd h hs⟩

/-- **A completed `gzip_files` leaves every file it selects with a fresh sibling.** -/
theorem gzipFiles_fresh {w w' : World} (h : gzipFiles w = .ok () w') :
    ∀ p ∈ w'.data.paths, gzipSelected (baseName p) = true → FreshGz w' p := by
  have hrun : forEach w.data.paths gzipStep w = .ok () w' := h
  have hwalked := forEach_establishes (D := fun p w => gzipSelected (baseName p) = true →
      FreshGz w p) w.data.nodup (fun _ _ _ _ hs => (gzipStep_fresh hs).2) ?_ hrun
  · intro p hp hsel
    have hw : WritesOnly GzipFilesOut w w' := after_ok h ▸ (gzipFiles_grows w).2
    have hkept := hw.2.2 p fun ⟨q, _, hq⟩ => ne_gzSibling_of_selected hsel q hq
    exact hwalked p (Tree.mem_paths.mpr (hkept ▸ Tree.mem_paths.mp hp)) hsel
  · intro x hx y hy w₁ w₂ hxy hs hd hsel
    have hw := (gzipStep_fresh hs).1
    have hne : gzSibling x ≠ gzSibling y := fun he =>
      hxy (gzSibling_injective (w.data.file_not_dir x hx).1 (w.data.file_not_dir y hy).1 he)
    exact (freshGz_congr (hw.2.2 _ (ne_gzSibling_of_selected hsel y)) (hw.2.2 _ hne)).mpr
      (hd hsel)

theorem gzipFiles_fresh_staleWorld :
    gzipFiles staleWorld = .ok () (after gzipFiles staleWorld) ∧
      ["a.html"] ∈ (after gzipFiles staleWorld).data.paths ∧
      gzipSelected (baseName ["a.html"]) = true ∧ FreshGz (after gzipFiles staleWorld) ["a.html"] :=
  have h : gzipFiles staleWorld = .ok () (after gzipFiles staleWorld) := rfl
  have hp : ["a.html"] ∈ (after gzipFiles staleWorld).data.paths := by decide
  have hs : gzipSelected (baseName ["a.html"]) = true := by decide
  ⟨h, hp, hs, gzipFiles_fresh h _ hp hs⟩

/-- A completed `gzip_bundles` leaves each of its names that exists with a fresh sibling. -/
theorem gzipBundles_fresh {w w' : World} (h : gzipBundles w = .ok () w') :
    ∀ f ∈ bundleOutputs, w'.data.present [f] = true → FreshGz w' [f] := fun f hf hp => by
  obtain ⟨b, hb, hgz⟩ := (gzipBundles_done h).1 f hf hp
  exact freshGz_of_get hb hgz

/-! ## The first loop of `finalize_filesystem` -/

/-- **The first loop of `finalize_filesystem` refreshes no sibling**: completed or not, it
leaves a file whose sibling exists exactly as fresh as it found it. -/
theorem gzipHtmlPages_keeps {w : World} {p : Path} {g : Blob} (hp : p ∈ w.data.paths)
    (hgz : w.data.get (gzSibling p) = some g) :
    FreshGz (after (forEach w.data.paths gzipHtmlStep) w) p ↔ FreshGz w p := by
  have hadd := forEach_gzipHtmlStep_adds w.data.paths w
  obtain ⟨b, hb⟩ := Option.isSome_iff_exists.mp (Tree.mem_paths.mp hp)
  exact freshGz_congr ((hadd.2.2 p b hb).trans hb.symm) ((hadd.2.2 _ g hgz).trans hgz.symm)

theorem gzipHtmlPages_keeps_staleWorld :
    ["a.html"] ∈ staleWorld.data.paths ∧
      staleWorld.data.get (gzSibling ["a.html"]) = some (.gzip (.text "old")) ∧
      (FreshGz (after (forEach staleWorld.data.paths gzipHtmlStep) staleWorld) ["a.html"] ↔
        FreshGz staleWorld ["a.html"]) :=
  ⟨by decide, rfl, gzipHtmlPages_keeps (by decide) rfl⟩

/-- **`finalize_filesystem` keeps a stale sibling**: its first loop leaves the tree as it is, and
step 2 deletes the page, so the old content is the only copy left. `gzip_files` on the same
tree refreshes the sibling. -/
theorem finalizeFilesystem_keeps_stale :
    ¬ FreshGz staleWorld ["a.html"] ∧
      forEach staleWorld.data.paths gzipHtmlStep staleWorld = .ok () staleWorld ∧
      (after finalizeFilesystem staleWorld).data.get ["a.html"] = none ∧
      (after finalizeFilesystem staleWorld).data.get ["a.html.gz"] = some (.gzip (.text "old")) ∧
      FreshGz (after gzipFiles staleWorld) ["a.html"] :=
  ⟨by decide, rfl, by decide, by decide, by decide⟩

end AssetPipeline
