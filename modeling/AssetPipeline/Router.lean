import AssetPipeline.Draft
import AssetPipeline.Archive
import AssetPipeline.Compress
import AssetPipeline.Prune

/-!
# The files the router serves, across the forward stages

The deployed page loads some files by name: the root keep set (`index.html`, the two bundles,
`favicon.ico` and their `.gz`), every `.html` page, and every file below a `pages`
directory (`RouterServed`). `move_sources_to_src` says why: "Do NOT move files in pages/
directory (dynamically loaded by router)".

Seven passes change `DATA_DIR`: `gzip_files`, `cleanup_files`, `bundle_files`,
`bundle_assets`, `gzip_bundles`, `finalize_filesystem` and `move_sources_to_src`. Only the
last one tests for `pages`, and the two pruning passes and the draft bundler select by name
and suffix alone.

Results:
* `router_served_lost`: `cleanup_files` deletes `VISUAL_MOCKUP.html`, a page, with no
  copy left, and with `index.html.gz.gz` present it deletes both `index.html` and
  `index.html.gz`; `bundle_files` copies `pages/home.js` into `bundle.js`.
* `router_served_kept`: what holds instead. Four passes lose no file; the archiver leaves
  every served file as it was; `cleanup_files` removes the mockup from every tree, and
  deletes any other file only when its `.gz` was there, the file keeping a compressed
  descendant; `finalize_filesystem` never deletes a file named in its keep list, and deletes
  a served file outside `pages` only when its `.gz` is there afterwards; `bundle_assets`
  bundles no served file, and the draft bundler, run for `bundle.js` or `bundle.css`, only
  served files below `pages`.
* `finalizeFilesystem_served`: the bound for every served file. Below `pages` it also lets
  through script and style files, since `finalize_filesystem` has no test for `pages`
  (`final_cleanup.py:50` only comments on it), while `move_sources_to_src` keeps those files
  for the router.
-/

namespace AssetPipeline

/-- The root names the router loads: the keep set and the `.gz` of each. -/
def rootServed : List String :=
  ["index.html", "bundle.js", "bundle.css", "favicon.ico", "index.html.gz", "bundle.js.gz",
    "bundle.css.gz", "favicon.ico.gz"]

/-- A file the router serves: a root name of the keep set, a page, or a file below a `pages`
directory. -/
def RouterServed (p : Path) : Prop :=
  (p.length = 1 ∧ baseName p ∈ rootServed) ∨ endswith (baseName p) [".html"] = true ∨
    "pages" ∈ p.dropLast

instance (p : Path) : Decidable (RouterServed p) :=
  inferInstanceAs (Decidable ((p.length = 1 ∧ baseName p ∈ rootServed) ∨
    endswith (baseName p) [".html"] = true ∨ "pages" ∈ p.dropLast))

/-- A pass keeps every served file of `DATA_DIR`, as itself or as its `.gz`, whether it
completes or not. -/
def KeepsServed (s : Script Unit) : Prop :=
  ∀ w p, p ∈ w.data.paths → RouterServed p →
    p ∈ (after s w).data.paths ∨ gzSibling p ∈ (after s w).data.paths

/-! ## Served files the passes lose -/

/-- A deployment tree with one script below `pages`, and an empty archive. -/
def pagesWorld : World :=
  ⟨⟨[(["pages", "home.js"], .text "h")], [["pages"]], by decide, by decide, by decide,
      by decide⟩, Tree.empty⟩

/-- A deployment tree with the entry page, its `.gz`, and that file's `.gz`. -/
def chainWorld : World :=
  ⟨⟨[(["index.html"], .text "i"), (["index.html.gz"], .gzip (.text "i")),
      (["index.html.gz.gz"], .gzip (.gzip (.text "i")))], [], by decide, by decide, by decide,
      by decide⟩, Tree.empty⟩

theorem router_served_lost :
    ¬ KeepsServed cleanupFiles ∧
      (after cleanupFiles chainWorld).data.paths = [["index.html.gz.gz"]] ∧
      (after (bundleFiles ".js" "bundle.js") pagesWorld).data.get ["bundle.js"] =
        some (.text (draftMarker "home.js" ++ "h\n")) := by
  refine ⟨fun h => ?_, by decide, by decide⟩
  have := h mockupWorld mockupPath (by decide) (by decide)
  revert this
  decide

/-! ## What each pass does to served files -/

/-- The archiver moves no served file. -/
theorem movable_of_routerServed {p : Path} (h : RouterServed p) : movable p = false := by
  rcases h with ⟨hl, hn⟩ | hh | hpg
  · obtain ⟨n, rfl⟩ := List.length_eq_one.mp hl
    have hroot : ∀ n ∈ rootServed, movable [n] = false := by decide
    exact hroot n hn
  · obtain ⟨h₁, -, -, h₂⟩ := endswith_html_plain hh
    simp [movable, moveExts, h₁, h₂]
  · simp [movable, List.dropLast_subset p hpg]

/-- A served file `finalize_filesystem` deletes has its `.gz` in the tree it leaves, or is a
script or style file below `pages`. -/
theorem finalizeFilesystem_served {w : World} {p : Path} (hp : p ∈ w.data.paths)
    (hs : RouterServed p) (hgone : p ∉ (after finalizeFilesystem w).data.paths) :
    (after finalizeFilesystem w).data.present (gzSibling p) = true ∨
      ("pages" ∈ p.dropLast ∧ endswith (baseName p) scriptSuffixes = true) := by
  obtain ⟨hk, hscript | ⟨-, hgz⟩⟩ := finalizeFilesystem_prunes hp hgone
  · refine .inr ⟨?_, hscript⟩
    rcases hs with ⟨hl, hn⟩ | hh | hpg
    · obtain ⟨n, rfl⟩ := List.length_eq_one.mp hl
      have hroot : ∀ n ∈ rootServed, n ∉ finalKeep → endswith n scriptSuffixes = false := by
        decide
      exact absurd ((hroot n hn hk).symm.trans hscript) Bool.false_ne_true
    · exact absurd ((endswith_html hh).1.symm.trans hscript) Bool.false_ne_true
    · exact hpg
  · exact .inl hgz

/-- Outside `pages`, a served file `finalize_filesystem` deletes has its `.gz` in the tree it
leaves. -/
theorem finalizeFilesystem_served_outside_pages {w : World} {p : Path} (hp : p ∈ w.data.paths)
    (hs : RouterServed p) (hpg : "pages" ∉ p.dropLast)
    (hgone : p ∉ (after finalizeFilesystem w).data.paths) :
    (after finalizeFilesystem w).data.present (gzSibling p) = true :=
  (finalizeFilesystem_served hp hs hgone).resolve_right fun h => hpg h.1

/-- `finalize_filesystem` deletes no file named in its keep list. -/
theorem finalizeFilesystem_keeps_name {w : World} {p : Path} (hk : baseName p ∈ finalKeep)
    (hp : p ∈ w.data.paths) : p ∈ (after finalizeFilesystem w).data.paths :=
  by_contra fun hgone => (finalizeFilesystem_prunes hp hgone).1 hk

/-- Run for `bundle.js` or `bundle.css`, the draft bundler takes a served file only from
below `pages`. -/
theorem draftSelected_served {extension : String} (he : extension ∈ moveExts) {p : Path}
    (hs : RouterServed p) (hsel : draftSelected extension ("bundle" ++ extension) p = true) :
    "pages" ∈ p.dropLast := by
  rcases hs with ⟨hl, hn⟩ | hh | hpg
  · obtain ⟨n, rfl⟩ := List.length_eq_one.mp hl
    have hroot : ∀ e ∈ moveExts, ∀ n ∈ rootServed,
        draftSelected e ("bundle" ++ e) [n] = false := by decide
    exact absurd ((hroot _ he n hn).symm.trans hsel) Bool.false_ne_true
  · obtain ⟨-, h₁, h₂, -⟩ := endswith_html_plain hh
    simp only [moveExts, List.mem_cons, List.mem_singleton, List.not_mem_nil, or_false] at he
    rcases he with rfl | rfl <;> simp [draftSelected, h₁, h₂] at hsel
  · exact hpg

/-- **What the forward passes guarantee for served files.** `gzip_files`, `bundle_assets`,
`gzip_bundles` and `bundle_files` lose no file; `move_sources_to_src` leaves every served file
as it was; `cleanup_files` removes the mockup from every tree that holds it, and deletes any
other file only when its `.gz` was listed, the file keeping a compressed descendant;
`finalize_filesystem` never deletes a file named in its keep list, and deletes a served file
outside `pages` only when its `.gz` is there afterwards; the bundle lists name no served file,
and the draft bundler takes served files only from below `pages`. -/
theorem router_served_kept :
    (∀ w, NoLoss w (after gzipFiles w) ∧ NoLoss w (after bundleAssets w) ∧
      NoLoss w (after gzipBundles w) ∧
      ∀ extension outputFilename, NoLoss w (after (bundleFiles extension outputFilename) w)) ∧
    (∀ w p, RouterServed p → (after moveSourcesToSrc w).data.get p = w.data.get p) ∧
    (∀ w, mockupPath ∈ w.data.paths → mockupPath ∉ (after cleanupFiles w).data.paths) ∧
    (∀ w p, p ∈ w.data.paths → p ∉ (after cleanupFiles w).data.paths →
      p = mockupPath ∨ (gzSibling p ∈ w.data.paths ∧
        ∃ k, 0 < k ∧ gzSibling^[k] p ∈ (after cleanupFiles w).data.paths)) ∧
    (∀ w p, baseName p ∈ finalKeep → p ∈ w.data.paths →
      p ∈ (after finalizeFilesystem w).data.paths) ∧
    (∀ w p, p ∈ w.data.paths → RouterServed p → "pages" ∉ p.dropLast →
      p ∉ (after finalizeFilesystem w).data.paths →
      (after finalizeFilesystem w).data.present (gzSibling p) = true) ∧
    (∀ f ∈ cssFiles ++ jsFiles, ¬ RouterServed (relPath f)) ∧
    (∀ extension ∈ moveExts, ∀ p, RouterServed p →
      draftSelected extension ("bundle" ++ extension) p = true → "pages" ∈ p.dropLast) :=
  ⟨fun w => ⟨(gzipFiles_grows w).1, bundleAssets_noLoss w, gzipBundles_noLoss w,
      fun e o => (bundleFiles_frame e o w).1⟩,
    fun w _ hs => moveSourcesToSrc_keeps (movable_of_routerServed hs) w,
    fun _ => cleanupFiles_removes_mockup, fun _ _ => cleanupFiles_deletes,
    fun _ _ => finalizeFilesystem_keeps_name, fun _ _ => finalizeFilesystem_served_outside_pages,
    by decide, fun _ he _ => draftSelected_served he⟩

/-- A deployment tree with the entry page, its `.gz`, the mockup and a script below `pages`. -/
def routerWorld : World :=
  ⟨⟨[(["index.html"], .text "i"), (["index.html.gz"], .gzip (.text "i")),
      (mockupPath, .text "m"), (["pages", "home.js"], .text "h")], [["pages"]], by decide,
      by decide, by decide, by decide⟩, Tree.empty⟩

theorem router_served_kept_home :
    (RouterServed ["pages", "home.js"] ∧
      (after moveSourcesToSrc routerWorld).data.get ["pages", "home.js"] =
        routerWorld.data.get ["pages", "home.js"]) ∧
    (mockupPath ∈ routerWorld.data.paths ∧ mockupPath ∉ (after cleanupFiles routerWorld).data.paths) ∧
    (["index.html"] ∈ routerWorld.data.paths ∧
      ["index.html"] ∉ (after cleanupFiles routerWorld).data.paths ∧
      (["index.html"] = mockupPath ∨ (gzSibling ["index.html"] ∈ routerWorld.data.paths ∧
        ∃ k, 0 < k ∧ gzSibling^[k] ["index.html"] ∈ (after cleanupFiles routerWorld).data.paths))) ∧
    (baseName ["index.html"] ∈ finalKeep ∧ ["index.html"] ∈ routerWorld.data.paths ∧
      ["index.html"] ∈ (after finalizeFilesystem routerWorld).data.paths) ∧
    (mockupPath ∈ routerWorld.data.paths ∧ RouterServed mockupPath ∧ "pages" ∉ mockupPath.dropLast ∧
      mockupPath ∉ (after finalizeFilesystem routerWorld).data.paths ∧
      (after finalizeFilesystem routerWorld).data.present (gzSibling mockupPath) = true) ∧
    ("shared/router.js" ∈ cssFiles ++ jsFiles ∧ ¬ RouterServed (relPath "shared/router.js")) ∧
    (".js" ∈ moveExts ∧ RouterServed ["pages", "home.js"] ∧
      draftSelected ".js" ("bundle" ++ ".js") ["pages", "home.js"] = true ∧
      "pages" ∈ ["pages", "home.js"].dropLast) :=
  ⟨⟨by decide, router_served_kept.2.1 _ _ (by decide)⟩,
    ⟨by decide, router_served_kept.2.2.1 _ (by decide)⟩,
    ⟨by decide, by decide, router_served_kept.2.2.2.1 _ _ (by decide) (by decide)⟩,
    ⟨by decide, by decide, router_served_kept.2.2.2.2.1 _ _ (by decide) (by decide)⟩,
    ⟨by decide, by decide, by decide, by decide,
      router_served_kept.2.2.2.2.2.1 _ _ (by decide) (by decide) (by decide) (by decide)⟩,
    ⟨by decide, router_served_kept.2.2.2.2.2.2.1 _ (by decide)⟩,
    ⟨by decide, by decide, by decide,
      router_served_kept.2.2.2.2.2.2.2 ".js" (by decide) _ (by decide) (by decide)⟩⟩

end AssetPipeline
