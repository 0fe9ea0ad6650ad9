import AssetPipeline.Archive
import AssetPipeline.Compress
import AssetPipeline.Prune

/-!
# The forward pipeline and its re-runs

The forward flow runs `bundle_assets`, `update_index_html` at a fixed timestamp,
`gzip_bundles` and a pruning stage (`move_sources_to_src`, or `finalize_filesystem`) one
after the other, in one process: an exception that escapes a stage stops the flow
(`runStages`).

Results:
* `forward_rerun_loses_sources`: running the whole flow twice is not running it once. The
  first run archives (or deletes) the style sources, so the second writes an empty
  `bundle.css`, whichever pruning stage is used.
* `forward_rerun`: what holds instead. Re-running the flow after any prefix of at most three
  stages, for any pruning stage, is running it once: each of the first three stages is a
  fixed point of itself once completed (`Bundle.lean`, `Compress.lean`), and none of them
  writes a path another one reads.
* `forward_prunes_unbundled`: a completed run, with either pruning stage, takes out of
  `DATA_DIR` a root `app.js` that no bundle list names and neither bundle holds, though
  `optimize_assets.py:219` and `final_cleanup.py:34` say the pruned sources are the bundled
  ones. The intermediate worlds are stated stage by stage (`withBundles`, `withGzips`).
-/

namespace AssetPipeline

/-- The stages of the forward flow, with the pruning stage `prune` last. -/
def forward (prune : Script Unit) (ts : Nat) : List (Script Unit) :=
  [bundleAssets, updateIndexHtml ts, gzipBundles, prune]

/-- Stages run one after the other, stopped by the first exception that escapes one. -/
def runStages (ss : List (Script Unit)) : Script Unit := forEach ss id

/-- Running stages that, once completed, run again without a change. -/
def SelfFixed (ss : List (Script Unit)) : Prop :=
  ∀ w w', runStages ss w = .ok () w' → runStages ss w' = .ok () w'

/-- Re-running a self-fixed prefix changes nothing. -/
theorem runStages_prefix {xs : List (Script Unit)} (hx : SelfFixed xs) (ys : List (Script Unit))
    (w : World) : runStages (xs ++ xs ++ ys) w = runStages (xs ++ ys) w := by
  unfold runStages
  rw [List.append_assoc, forEach_append, forEach_append]
  rcases h : forEach xs id w with ⟨⟨⟩, w'⟩ | ⟨e, w'⟩
  · dsimp only
    rw [forEach_append, show forEach xs id w' = .ok () w' from hx w w' h]
  · rfl

/-- A stage that completes, followed by the rest. -/
theorem runStages_cons_ok {s : Script Unit} {ss : List (Script Unit)} {w w' : World}
    (hs : s w = .ok () w') : runStages (s :: ss) w = runStages ss w' := by
  unfold runStages
  rw [forEach_cons]
  show (match s w with
    | .ok _ w' => forEach ss id w'
    | .error e w' => .error e w') = _
  rw [hs]

/-- A run of stages that completed: its first stage completed, then the rest. -/
theorem runStages_cons_inv {s : Script Unit} {ss : List (Script Unit)} {w w' : World}
    (h : runStages (s :: ss) w = .ok () w') : ∃ w₁, s w = .ok () w₁ ∧ runStages ss w₁ = .ok () w' := by
  obtain ⟨_, w₁, h₁, h₂⟩ := bind_eq_ok h
  exact ⟨w₁, h₁, h₂⟩

/-- Stages that complete, followed by the rest. -/
theorem runStages_append_ok {xs ys : List (Script Unit)} {w w' : World}
    (h : runStages xs w = .ok () w') : runStages (xs ++ ys) w = runStages ys w' := by
  unfold runStages at h ⊢
  rw [forEach_append, h]

/-- The two root files `update_index_html` and `gzip_bundles` write are no bundles. -/
theorem indexHtml_not_bundle : ∀ p : Path, p = ["index.html"] → p.length = 1 ∧ ¬ BundleOut p := by
  rintro p rfl
  unfold BundleOut
  decide

theorem gzipOut_not_bundle : ∀ p, GzipOut p → p.length = 1 ∧ ¬ BundleOut p := by
  rintro p ⟨f, hf, rfl⟩
  unfold BundleOut
  revert f
  decide

theorem gzipOut_not_index : ¬ GzipOut ["index.html"] := by
  rintro ⟨f, hf, he⟩
  revert f
  decide

/-- The first three stages, once completed, are each done. -/
theorem forward_prefix_fixed (ts : Nat) :
    SelfFixed [bundleAssets] ∧ SelfFixed [bundleAssets, updateIndexHtml ts] ∧
      SelfFixed [bundleAssets, updateIndexHtml ts, gzipBundles] := by
  refine ⟨fun w w' h => ?_, fun w w' h => ?_, fun w w' h => ?_⟩
  all_goals
    unfold runStages at h
    obtain ⟨_, w₁, hB, h⟩ := bind_eq_ok h
  · cases h
    rw [runStages_cons_ok (bundleAssets_fixed hB)]
    rfl
  · obtain ⟨_, w₂, hU, h⟩ := bind_eq_ok h
    cases h
    obtain ⟨hdU, hwU⟩ := updateIndexHtml_done hU
    rw [runStages_cons_ok (bundleAssets_of_done
        ((bundleAssets_done hB).1.transfer hwU indexHtml_not_bundle)),
      runStages_cons_ok (updateIndexHtml_of_done hdU)]
    rfl
  · obtain ⟨_, w₂, hU, h⟩ := bind_eq_ok h
    obtain ⟨_, w₃, hG, h⟩ := bind_eq_ok h
    cases h
    obtain ⟨hdU, hwU⟩ := updateIndexHtml_done hU
    obtain ⟨hdG, hwG⟩ := gzipBundles_done hG
    rw [runStages_cons_ok (bundleAssets_of_done
        (((bundleAssets_done hB).1.transfer hwU indexHtml_not_bundle).transfer hwG
          gzipOut_not_bundle)),
      runStages_cons_ok (updateIndexHtml_of_done ((hwG.2.2 _ gzipOut_not_index).trans hdU)),
      runStages_cons_ok (gzipBundles_of_done hdG)]
    rfl

/-- **Re-running the forward flow after a prefix of at most three stages is running it
once**, for every pruning stage. -/
theorem forward_rerun (prune : Script Unit) (ts k : Nat) (hk : k ≤ 3) (w : World) :
    runStages ((forward prune ts).take k ++ forward prune ts) w = runStages (forward prune ts) w := by
  obtain ⟨h₁, h₂, h₃⟩ := forward_prefix_fixed ts
  have hfix : SelfFixed ((forward prune ts).take k) := by
    rcases k with _ | _ | _ | _ | k
    · intro w w' h; cases h; rfl
    · exact h₁
    · exact h₂
    · exact h₃
    · omega
  have h := runStages_prefix hfix ((forward prune ts).drop k) w
  rwa [List.append_assoc, List.take_append_drop] at h

/-- A deployment tree with the entry page, a page, a style source and a script that no bundle
list names, and an empty archive. -/
def styleWorld : World :=
  ⟨⟨[(["index.html"], .text "old"), (["about.html"], .text "<p>"),
      (["css", "variables.css"], .text "a"), (["app.js"], .text "x")], [["css"]],
    by decide, by decide, by decide, by decide⟩, Tree.empty⟩

theorem forward_rerun_styleWorld :
    3 ≤ 3 ∧ runStages ((forward moveSourcesToSrc 0).take 3 ++ forward moveSourcesToSrc 0) styleWorld =
      runStages (forward moveSourcesToSrc 0) styleWorld :=
  ⟨le_refl 3, forward_rerun moveSourcesToSrc 0 3 (le_refl 3) styleWorld⟩

/-! ### Two whole runs -/

/-- `w` after `bundle_assets` and `update_index_html`, for the bundle texts `css` and `js`: the
two bundles and the entry page written. -/
def withBundles (w : World) (css js : String) : World :=
  { w with
    data := w.data.write ["bundle.css"] (.text css) |>.write ["bundle.js"] (.text js)
      |>.write ["index.html"] (.text (indexHtml 0)) }

/-- ... and after `gzip_bundles`: the three `.gz` written. -/
def withGzips (w : World) (css js : String) : World :=
  { w with
    data := w.data.write ["bundle.css.gz"] (.gzip (.text css))
      |>.write ["bundle.js.gz"] (.gzip (.text js))
      |>.write ["index.html.gz"] (.gzip (.text (indexHtml 0))) }

/-- The bundle texts of `styleWorld`. -/
def styleCss : String := "\n/* css/variables.css */\na"

/-- `styleWorld` after `bundle_assets` and `update_index_html`. -/
def styleBundled : World := withBundles styleWorld styleCss "\x27use strict\x27;\n"

/-- ... and after `gzip_bundles`. -/
def styleGzipped : World := withGzips styleBundled styleCss "\x27use strict\x27;\n"

/-- ... after `move_sources_to_src` has moved the style source into the archive. -/
def styleMoved : World :=
  ⟨styleGzipped.data.erase ["css", "variables.css"],
    (Tree.empty.mkdirs ["css"] (by decide)).write ["css", "variables.css"] (.text "a")⟩

/-- ... and the script. -/
def styleArchived : World :=
  ⟨styleMoved.data.erase ["app.js"], styleMoved.src.write ["app.js"] (.text "x")⟩

/-- The walk moves the style source, then the script. -/
theorem moveSourcesToSrc_styleGzipped : moveSourcesToSrc styleGzipped = .ok () styleArchived := by
  have hps : styleGzipped.data.paths = [["index.html"], ["about.html"], ["css", "variables.css"]] ++
      [["app.js"], ["bundle.css"], ["bundle.js"], ["bundle.css.gz"], ["bundle.js.gz"],
        ["index.html.gz"]] := rfl
  have h₁ : forEach [["index.html"], ["about.html"], ["css", "variables.css"]] archiveStep
      styleGzipped = .ok () styleMoved := rfl
  have h₂ : forEach [["app.js"], ["bundle.css"], ["bundle.js"], ["bundle.css.gz"],
      ["bundle.js.gz"], ["index.html.gz"]] archiveStep styleMoved = .ok () styleArchived := rfl
  rw [moveSourcesToSrc_eq, hps, forEach_append, h₁]
  exact h₂

/-- The first three stages of the flow from `styleWorld`. -/
theorem forward_prefix_styleWorld :
    runStages [bundleAssets, updateIndexHtml 0, gzipBundles] styleWorld = .ok () styleGzipped := by
  have h₁ : runStages [bundleAssets, updateIndexHtml 0] styleWorld = .ok () styleBundled := rfl
  have h₂ : gzipBundles styleBundled = .ok () styleGzipped := rfl
  rw [show [bundleAssets, updateIndexHtml 0, gzipBundles] =
      [bundleAssets, updateIndexHtml 0] ++ [gzipBundles] from rfl, runStages_append_ok h₁,
    runStages_cons_ok h₂]
  rfl

/-- The flow from `styleWorld` with the pruning stage `prune`. -/
theorem forward_styleWorld_of {prune : Script Unit} {w : World}
    (h : prune styleGzipped = .ok () w) : runStages (forward prune 0) styleWorld = .ok () w := by
  rw [show forward prune 0 = [bundleAssets, updateIndexHtml 0, gzipBundles] ++ [prune] from rfl,
    runStages_append_ok forward_prefix_styleWorld, runStages_cons_ok h]
  rfl

theorem forward_styleWorld :
    runStages (forward moveSourcesToSrc 0) styleWorld = .ok () styleArchived :=
  forward_styleWorld_of moveSourcesToSrc_styleGzipped

/-- `styleGzipped` after `finalize_filesystem` instead: the page gzipped, then the page, the
style source and the script deleted. -/
def styleFinalized : World :=
  { styleGzipped with
    data := styleGzipped.data.write ["about.html.gz"] (.gzip (.text "<p>")) |>.erase ["about.html"]
      |>.erase ["css", "variables.css"] |>.erase ["app.js"] }

theorem finalizeFilesystem_styleGzipped : finalizeFilesystem styleGzipped = .ok () styleFinalized :=
  rfl

/-- The forward flow from `styleWorld`, with either pruning stage, takes `app.js` out of
`DATA_DIR`: a script that no bundle list names and that neither bundle holds. -/
theorem forward_prunes_unbundled :
    (∀ f ∈ cssFiles ++ jsFiles, relPath f ≠ ["app.js"]) ∧ styleWorld.data.get ["app.js"] = some (.text "x") ∧
    runStages (forward moveSourcesToSrc 0) styleWorld = .ok () styleArchived ∧
    styleArchived.data.get ["bundle.js"] = some (.text "\x27use strict\x27;\n") ∧
    styleArchived.data.get ["bundle.css"] = some (.text styleCss) ∧
    styleArchived.data.get ["app.js"] = none ∧
    runStages (forward finalizeFilesystem 0) styleWorld = .ok () styleFinalized ∧
    styleFinalized.data.get ["bundle.js"] = some (.text "\x27use strict\x27;\n") ∧
    styleFinalized.data.get ["bundle.css"] = some (.text styleCss) ∧
    styleFinalized.data.get ["app.js"] = none ∧ styleFinalized.src.get ["app.js"] = none :=
  ⟨by decide, rfl, forward_styleWorld, rfl, rfl, rfl,
    forward_styleWorld_of finalizeFilesystem_styleGzipped, rfl, rfl, rfl, rfl⟩

/-- Past `bundle_assets`, no stage of the flow changes `bundle.css`. -/
theorem forward_keeps_bundle (w : World) :
    (after (runStages [updateIndexHtml 0, gzipBundles, moveSourcesToSrc]) w).data.get ["bundle.css"] =
      w.data.get ["bundle.css"] := by
  refine keeps_forEach (P := fun w' => w'.data.get ["bundle.css"] = w.data.get ["bundle.css"])
    (fun s hs w' hw' => ?_) w rfl
  simp only [List.mem_cons, List.mem_singleton, List.not_mem_nil, or_false] at hs
  rcases hs with rfl | rfl | rfl
  · exact ((updateIndexHtml_writes 0 w').2.2 _ (by decide)).trans hw'
  · exact ((gzipBundles_writes w').2.2 _ (fun ⟨f, hf, he⟩ => by revert f; decide)).trans hw'
  · exact (moveSourcesToSrc_keeps (by decide) w').trans hw'

theorem forward_rerun_loses_sources :
    (after (runStages ((forward moveSourcesToSrc 0).take 4 ++ forward moveSourcesToSrc 0))
        styleWorld).data.get ["bundle.css"] ≠
      (after (runStages (forward moveSourcesToSrc 0)) styleWorld).data.get ["bundle.css"] := by
  have hB : bundleAssets styleArchived = .ok () (after bundleAssets styleArchived) := rfl
  have hempty : (after bundleAssets styleArchived).data.get ["bundle.css"] = some (.text "") := by
    decide
  rw [show (forward moveSourcesToSrc 0).take 4 = forward moveSourcesToSrc 0 from rfl,
    after_eq_of (runStages_append_ok forward_styleWorld), after_ok forward_styleWorld, forward,
    after_eq_of (runStages_cons_ok hB), forward_keeps_bundle, hempty]
  decide

end AssetPipeline
