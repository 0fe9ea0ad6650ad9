import AssetPipeline.Draft
import AssetPipeline.Unbundle

/-!
# What the bundlers' artifacts hold

Two questions about the texts the bundlers write: what `recover_assets.unbundle` makes of the
artifact of `bundle_assets_draft.bundle_files`, and what either bundler writes around a
source it cannot read.

* The draft writes each file after the marker `\n/* --- name --- */\n`, where `name` is the
  file's base name (`bundle_assets_draft.py:46`). The unbundler's pattern `/\* (.*?) \*/`
  captures `--- name ---` (`draftGroup`), not a relative path. For a file of text with no
  one-line match in it, whose group has no newline and no ` */` (`DraftClean`), the marker
  is one whole match and the text after it runs to the next marker.
* `bundle_files` opens a file, writes its marker, then reads (`bundle_assets_draft.py:44-50`):
  a file that does not decode has its marker written before the read raises, and the handler
  goes on with the next file. `bundle_assets` has no handler (`optimize_assets.py:81-87`): a
  script that does not decode stops it with `bundle.js` cut after the marker and `;`.

Results:
* `unbundlePlan_draftText`: the draft's text for clean files is a marked text of the style
  writer's shape (`draftText_entries`), so its plan has one entry per file, in bundle order,
  named by the cleaned `--- name ---`, with its text stripped and one newline.
  `bundleFiles_unbundlePlan`: so it is for the artifact `bundle_files` writes.
* `draft_round_trip_fails`: the scenario of two shared scripts comes back as the root files
  `--- utils.js ---` and `--- state.js ---`; two files with one base name give two entries
  of one name.
* `unreadable_file_kept`: a file that does not decode leaves its marker in the draft's
  artifact, and stops `bundle_assets` with `bundle.js` cut short.
-/

namespace AssetPipeline

/-- The text the unbundler's group captures from the draft's marker for `name`. -/
def draftGroup (name : String) : String := "--- " ++ name ++ " ---"

/-- The text of the file at `p`, or `""` when it does not decode. -/
def draftSource (t : Tree) (p : Path) : String := ((t.get p).bind Blob.decode).getD ""

/-- A file the draft's artifact round-trips through the unbundler's pattern: a text with no
one-line match, under a group with no newline and no ` */`. -/
def DraftClean (t : Tree) (p : Path) : Prop :=
  ∃ s, t.get p = some (.text s) ∧ search s.toList = none ∧
    '\n' ∉ (draftGroup (baseName p)).toList ∧ ¬ [' ', '*', '/'] <:+: (draftGroup (baseName p)).toList

/-! ## The draft's text through the pattern -/

/-- For clean files, the draft's text is the marked text of the entries `--- name ---`, each
holding the file's text and a newline. -/
theorem draftText_entries {t : Tree} {ps : List Path} (h : ∀ p ∈ ps, DraftClean t p) :
    draftText t ps = entriesText cssMarker ""
      (ps.map fun p => (draftGroup (baseName p), draftSource t p ++ "\n")) := by
  induction ps with
  | nil => rfl
  | cons p ps ih =>
    obtain ⟨s, hs, -⟩ := h p (List.mem_cons_self _ _)
    rw [draftText, ih fun q hq => h q (List.mem_cons_of_mem _ hq), List.map_cons, entriesText]
    simp only [draftEntry, hs, Blob.decode, draftSource, Option.some_bind, Option.getD_some,
      draftMarker, cssMarker, draftGroup, String.append_assoc, String.append_empty]
    rfl

/-- **The plan of the draft's text**: for clean files, one entry per file, in order, named by
the cleaned group `--- name ---` of its base name, with its text stripped and one newline. -/
theorem unbundlePlan_draftText {t : Tree} {ps : List Path} (h : ∀ p ∈ ps, DraftClean t p) :
    unbundlePlan (draftText t ps) =
      ps.map fun p => (cleanName (draftGroup (baseName p)), strip (draftSource t p) ++ "\n") := by
  have hstrip : ∀ s : String, strip (s ++ "\n") = strip s := fun s =>
    congrArg String.mk (stripList_pad (l := []) (m := s.toList) (r := ['\n']) (by simp) (by decide))
  rw [draftText_entries h, unbundlePlan_entriesText, List.map_map]
  · exact List.map_congr_left fun p _ => by simp only [Function.comp, hstrip]
  · refine List.forall_mem_map.mpr fun p hp => ?_
    obtain ⟨s, hs, hsearch, hnl, hgroup⟩ := h p hp
    refine ⟨hnl, hgroup, ?_⟩
    simp only [draftSource, hs, Option.some_bind, Blob.decode, Option.getD_some, toList_append]
    rw [show ("\n" : String).toList = ['\n'] from rfl, search_newline_append hsearch]
    rfl

/-- **What the unbundler makes of `bundle_files`' artifact**: when every file the draft bundles
is clean, its plan has one entry per bundled file, in bundle order, named by the group of the
file's base name, with the stripped text. -/
theorem bundleFiles_unbundlePlan {extension outputFilename : String} {w w' : World}
    (hclean : ∀ p ∈ filesToBundle extension outputFilename w.data.paths, DraftClean w.data p)
    (h : bundleFiles extension outputFilename w = .ok () w') :
    ∃ content, w'.data.get (child [] outputFilename) = some (.text content) ∧
      unbundlePlan content = (filesToBundle extension outputFilename w.data.paths).map
        fun p => (cleanName (draftGroup (baseName p)), strip (draftSource w.data p) ++ "\n") :=
  ⟨_, bundleFiles_get h, unbundlePlan_draftText hclean⟩

/-- The scenario of the bundler's description: two shared scripts. -/
def scenarioWorld : World :=
  ⟨⟨[(["shared", "utils.js"], .text "var U=1;"), (["shared", "state.js"], .text "var S=2;")],
    [["shared"]], by decide, by decide, by decide, by decide⟩, Tree.empty⟩

/-- `scenarioWorld` after `bundle_files(".js", "bundle.js")`: the bundle written. -/
def scenarioBundled : World :=
  { scenarioWorld with
    data := scenarioWorld.data.write ["bundle.js"]
      (.text "\n/* --- utils.js --- */\nvar U=1;\n\n/* --- state.js --- */\nvar S=2;\n") }

theorem bundleFiles_unbundlePlan_scenario :
    (∀ p ∈ filesToBundle ".js" "bundle.js" scenarioWorld.data.paths,
        DraftClean scenarioWorld.data p) ∧
      bundleFiles ".js" "bundle.js" scenarioWorld = .ok () scenarioBundled ∧
      ∃ content, scenarioBundled.data.get (child [] "bundle.js") = some (.text content) ∧
        unbundlePlan content = (filesToBundle ".js" "bundle.js" scenarioWorld.data.paths).map
          fun p => (cleanName (draftGroup (baseName p)),
            strip (draftSource scenarioWorld.data p) ++ "\n") := by
  have hclean : ∀ p ∈ filesToBundle ".js" "bundle.js" scenarioWorld.data.paths,
      DraftClean scenarioWorld.data p := by
    have hfs : filesToBundle ".js" "bundle.js" scenarioWorld.data.paths =
        [["shared", "utils.js"], ["shared", "state.js"]] := by decide
    rw [hfs, List.forall_mem_cons, List.forall_mem_singleton]
    exact ⟨⟨"var U=1;", rfl, by decide, by decide, by decide⟩,
      ⟨"var S=2;", rfl, by decide, by decide, by decide⟩⟩
  have hB : bundleFiles ".js" "bundle.js" scenarioWorld = .ok () scenarioBundled := rfl
  exact ⟨hclean, hB, bundleFiles_unbundlePlan hclean hB⟩

/-- Two scripts with one base name in two directories. -/
def twinWorld : World :=
  ⟨⟨[(["a", "x.js"], .text "1"), (["b", "x.js"], .text "2")], [["a"], ["b"]], by decide,
    by decide, by decide, by decide⟩, Tree.empty⟩

/-- **The draft's artifact does not round-trip**: unbundling it writes the scenario's scripts
to the root files `--- utils.js ---` and `--- state.js ---`, and nothing at their own paths;
two scripts with one base name give two entries with one name. -/
theorem draft_round_trip_fails :
    unbundlePlan (draftText scenarioWorld.data
        (filesToBundle ".js" "bundle.js" scenarioWorld.data.paths)) =
      [("--- utils.js ---", "var U=1;\n"), ("--- state.js ---", "var S=2;\n")] ∧
    (after (unbundle "bundle.js") scenarioBundled).data.get ["--- utils.js ---"] =
      some (.text "var U=1;\n") ∧
    (after (unbundle "bundle.js") scenarioBundled).data = (scenarioBundled.data.put
      ["--- utils.js ---"] (.text "var U=1;\n") (by decide) (by decide)).put
      ["--- state.js ---"] (.text "var S=2;\n") (by decide) (by decide) ∧
    unbundlePlan (draftText twinWorld.data (filesToBundle ".js" "bundle.js" twinWorld.data.paths)) =
      [("--- x.js ---", "1\n"), ("--- x.js ---", "2\n")] := by
  refine ⟨by decide, by decide, Tree.eq_of_files_dirs ?_ rfl, by decide⟩
  decide

/-! ## Unreadable files -/

/-- A style file that is not text. -/
def binaryStyleWorld : World :=
  ⟨⟨[(["a.css"], .binary 0)], [], by decide, by decide, by decide, by decide⟩, Tree.empty⟩

/-- A shared script that is not text. -/
def binaryScriptWorld : World :=
  ⟨⟨[(["shared", "utils.js"], .binary 0)], [["shared"]], by decide, by decide, by decide,
    by decide⟩, Tree.empty⟩

/-- `binaryScriptWorld` without its script. -/
def sharedDirWorld : World :=
  ⟨⟨[], [["shared"]], by decide, by decide, by decide, by decide⟩, Tree.empty⟩

/-- **A file that does not decode is not only dropped**: the draft writes its marker, which
the tree without the file does not have; `bundle_assets` stops on it with `bundle.js` cut after
the file's marker and `;`, where the tree without it gives a completed run. -/
theorem unreadable_file_kept :
    (after (bundleFiles ".css" "bundle.css") binaryStyleWorld).data.get ["bundle.css"] =
        some (.text "\n/* --- a.css --- */\n") ∧
      (after (bundleFiles ".css" "bundle.css") ⟨Tree.empty, Tree.empty⟩).data.get ["bundle.css"] =
        some (.text "") ∧
      bundleAssets binaryScriptWorld = .error (.decode .data ["shared", "utils.js"])
        (after bundleAssets binaryScriptWorld) ∧
      (after bundleAssets binaryScriptWorld).data.get ["bundle.js"] =
        some (.text "\x27use strict\x27;\n\n// --- shared/utils.js ---\n;") ∧
      bundleAssets sharedDirWorld = .ok () (after bundleAssets sharedDirWorld) ∧
      (after bundleAssets sharedDirWorld).data.get ["bundle.js"] =
        some (.text "\x27use strict\x27;\n") := by
  refine ⟨by decide, by decide, rfl, by decide, rfl, by decide⟩

end AssetPipeline
