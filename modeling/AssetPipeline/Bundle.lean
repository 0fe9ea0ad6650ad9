import AssetPipeline.Run

/-!
# The bundler: `bundle_assets` and `update_index_html`

Model of `optimize_assets.bundle_assets` (`optimize_assets.py:34-89`) and of
`optimize_assets.update_index_html` (`optimize_assets.py:91-195`).

* `bundle_assets` writes `bundle.css` and then `bundle.js` at the root of `DATA_DIR`, each
  from a fixed list of relative names (`cssFiles`, `jsFiles`). A name that does not exist is
  skipped with a warning. For one that exists the file is opened, the marker is written,
  then the file's text; a read that does not decode raises after the marker is out, and
  nothing catches it. The two writers are one definition, `writeBundle`, applied to each
  writer's own values: the CSS writer puts `cssMarker` before each text, the JS writer starts
  with `'use strict';`, puts `jsMarker` and `;` before each text and a newline after it.
  `bundleText` is what a writer writes and the exception it stops on; it reads the tree as
  it is when the output is opened, which is the tree the loop reads, since the output is on
  neither list.
* `update_index_html` reads `index.html` (it raises if the file is missing or not text) and
  replaces it with a fixed page (`indexHtml`) that links both bundles with `?v={ts}`. The
  timestamp `int(time.time())` is a parameter.

Results, for the idempotence of the forward pipeline (`Pipeline.lean`): each stage, once it
has completed, is a fixed point of itself (`bundleAssets_fixed`, `updateIndexHtml_fixed`),
and stays one across a stage that writes none of the paths it reads or writes
(`bundleFixed_transfer`, `indexFixed_transfer`).
-/

namespace AssetPipeline

/-! ## The lists and the markers -/

/-- `css_files` (`optimize_assets.py:38-46`). -/
def cssFiles : List String :=
  ["css/variables.css", "css/layout.css", "css/cards.css", "css/charts.css",
    "css/responsive.css", "css/mobile-menu.css", "shared/enhancements.css"]

/-- `js_files` (`optimize_assets.py:61-75`): "Order is critical!". -/
def jsFiles : List String :=
  ["shared/utils.js", "shared/toast.js", "shared/state.js", "shared/theme.js",
    "shared/alerts.js", "shared/websocket.js", "shared/mini-charts.js",
    "shared/calibration-wizard.js", "shared/safety.js", "shared/fallback-pages.js",
    "shared/router.js", "shared/graphs.js", "shared/mock-data.js"]

/-- The parts of a relative name, split at `/` and at `\`, the separators `os.path.join`
and `open` accept on Windows. -/
def splitPath : List Char → List (List Char)
  | [] => [[]]
  | c :: cs =>
    if c = '/' ∨ c = '\\' then [] :: splitPath cs
    else
      match splitPath cs with
      | [] => [[c]]
      | s :: ss => (c :: s) :: ss

/-- `os.path.join(DATA_DIR, fname)` for a listed relative name. -/
def relPath (fname : String) : Path := (splitPath fname.toList).map String.mk

/-- `f"\n/* {fname} */\n"`, the CSS writer's marker. -/
def cssMarker (fname : String) : String := "\n/* " ++ fname ++ " */\n"

/-- `f"\n// --- {fname} ---\n"`, the JS writer's marker. -/
def jsMarker (fname : String) : String := "\n// --- " ++ fname ++ " ---\n"

/-! ## `bundle_assets` -/

/-- The text one writer puts out for the names `fs`, and the exception it stops on, if any:
for each name that exists, `head fname`, the file's text and `tail`. -/
def bundleText (t : Tree) (head : String → String) (tail : String) :
    List String → String × Option Exc
  | [] => ("", none)
  | f :: fs =>
    if t.present (relPath f) then
      match t.get (relPath f) with
      | none => ("", some (.openRead .data (relPath f)))
      | some b =>
        match b.decode with
        | none => (head f, some (.decode .data (relPath f)))
        | some s =>
          let r := bundleText t head tail fs
          (head f ++ s ++ tail ++ r.1, r.2)
    else bundleText t head tail fs

/-- What tells the two writers of `bundle_assets` apart. -/
structure Writer where
  /-- The output, at the root of `DATA_DIR`. -/
  out : String
  /-- What the output starts with. -/
  init : String
  /-- The relative names bundled, in order. -/
  names : List String
  /-- What is written before a file's text. -/
  head : String → String
  /-- What is written after it. -/
  tail : String

/-- One writer of `bundle_assets`: `open(out, "w")`, the leading text, then the entries;
the exception a read raised, if any, after what was written before it. -/
def writeBundle (W : Writer) : Script Unit := do
  let t ← getTree .data
  let r := bundleText t W.head W.tail W.names
  writeFile .data [W.out] (.text (W.init ++ r.1))
  match r.2 with
  | some e => throw e
  | none => pure ()

/-- The CSS writer (`optimize_assets.py:48-57`). -/
def cssWriter : Writer := ⟨"bundle.css", "", cssFiles, cssMarker, ""⟩

/-- The JS writer (`optimize_assets.py:77-89`). -/
def jsWriter : Writer :=
  ⟨"bundle.js", "\x27use strict\x27;\n", jsFiles, fun f => jsMarker f ++ ";", "\n"⟩

/-- `bundle_assets()`. -/
def bundleAssets : Script Unit := do
  writeBundle cssWriter
  writeBundle jsWriter

/-! ## Re-running a writer -/

/-- The text reads only the listed paths. -/
theorem bundleText_congr {t t' : Tree} (head : String → String) (tail : String)
    {names : List String} (hd : t'.dirs = t.dirs)
    (h : ∀ f ∈ names, t'.get (relPath f) = t.get (relPath f)) :
    bundleText t' head tail names = bundleText t head tail names := by
  induction names with
  | nil => rfl
  | cons f fs ih =>
    have hf := h f (List.mem_cons_self _ _)
    simp only [bundleText, Tree.present_congr hd hf, hf,
      ih fun g hg => h g (List.mem_cons_of_mem _ hg)]

/-- A writer is done at `w`: its sources read without an error and its output holds what it
would write. -/
def Writer.Done (W : Writer) (w : World) : Prop :=
  (bundleText w.data W.head W.tail W.names).2 = none ∧
    w.data.get [W.out] = some (.text (W.init ++ (bundleText w.data W.head W.tail W.names).1))

/-- A writer that is done completes and changes nothing. -/
theorem writeBundle_of_done {W : Writer} {w : World} (h : W.Done w) :
    writeBundle W w = .ok () w := by
  unfold writeBundle
  rw [bind_ok (rfl : getTree .data w = .ok (w.tree .data) w)]
  simp only [World.tree_data]
  rw [bind_ok (writeFile_of_get (r := .data) h.2), h.1]
  rfl

/-- A writer that completed is done, and wrote only its output. -/
theorem writeBundle_done {W : Writer} (hW : ∀ f ∈ W.names, relPath f ≠ [W.out]) {w w' : World}
    (h : writeBundle W w = .ok () w') : W.Done w' ∧ WritesOnly (· = [W.out]) w w' := by
  unfold writeBundle at h
  obtain ⟨t, w₁, ht, h⟩ := bind_eq_ok h
  cases ht
  obtain ⟨_, w₂, hwr, hm⟩ := bind_eq_ok h
  have hw := WritesOnly.writeFile_ok hwr
  have hbt := bundleText_congr W.head W.tail hw.2.1 fun f hf => hw.2.2 _ (hW f hf)
  have hget := writeFile_get hwr
  simp only [World.tree_data] at hm hget
  rcases he : (bundleText w.data W.head W.tail W.names).2 with _ | e <;> rw [he] at hm <;>
    cases hm
  exact ⟨⟨by rwa [hbt], by rw [hbt, hget]⟩, hw⟩

/-- A writer stays done across a change to none of the paths it reads or writes. -/
theorem Writer.Done.transfer {W : Writer} {S : Path → Prop} {w w' : World} (h : W.Done w)
    (hS : WritesOnly S w w') (hout : ¬ S [W.out]) (hnames : ∀ f ∈ W.names, ¬ S (relPath f)) :
    W.Done w' := by
  have hbt := bundleText_congr W.head W.tail hS.2.1 fun f hf => hS.2.2 _ (hnames f hf)
  exact ⟨hbt ▸ h.1, by rw [hbt, hS.2.2 _ hout, h.2]⟩

/-- Every listed name is two levels deep, below the bundles at the root. -/
theorem relPath_length : ∀ f ∈ cssFiles ++ jsFiles, (relPath f).length = 2 := by decide

/-! ## Re-running `bundle_assets` -/

/-- The bundles at the root of `DATA_DIR`. -/
def BundleOut (p : Path) : Prop := p = [cssWriter.out] ∨ p = [jsWriter.out]

/-- `bundle_assets` is done at `w`: both writers are. -/
def BundleDone (w : World) : Prop := cssWriter.Done w ∧ jsWriter.Done w

theorem bundleAssets_of_done {w : World} (h : BundleDone w) : bundleAssets w = .ok () w := by
  unfold bundleAssets
  rw [bind_ok (writeBundle_of_done h.1), writeBundle_of_done h.2]

theorem bundleAssets_done {w w' : World} (h : bundleAssets w = .ok () w') :
    BundleDone w' ∧ WritesOnly BundleOut w w' := by
  have hcss : ∀ f ∈ cssWriter.names, relPath f ≠ [cssWriter.out] := by decide
  have hjs : ∀ f ∈ jsWriter.names, relPath f ≠ [jsWriter.out] := by decide
  unfold bundleAssets at h
  obtain ⟨_, w₁, h₁, h₂⟩ := bind_eq_ok h
  obtain ⟨hd₁, hw₁⟩ := writeBundle_done hcss h₁
  obtain ⟨hd₂, hw₂⟩ := writeBundle_done hjs h₂
  have hcss' : ∀ f ∈ cssWriter.names, relPath f ≠ [jsWriter.out] := by decide
  exact ⟨⟨hd₁.transfer hw₂ (by decide) hcss', hd₂⟩,
    (hw₁.mono fun _ => .inl).trans (hw₂.mono fun _ => .inr)⟩

/-- A writer loses no file of `DATA_DIR`, whether it completes or not. -/
theorem writeBundle_keeps (W : Writer) {w₀ : World} : Keeps (NoLoss w₀) (writeBundle W) :=
  Keeps.bind (Keeps.getTree _) fun _ => Keeps.bind (NoLoss.keeps_writeFile _ _ _) fun _ => by
    split
    · exact Keeps.throw _
    · exact Keeps.pure _

/-- `bundle_assets` loses no file of `DATA_DIR`, whether it completes or not. -/
theorem bundleAssets_noLoss (w : World) : NoLoss w (after bundleAssets w) :=
  Keeps.seq (writeBundle_keeps cssWriter) (writeBundle_keeps jsWriter) w (NoLoss.refl w)

/-- **A completed `bundle_assets` is a fixed point of itself.** -/
theorem bundleAssets_fixed {w w' : World} (h : bundleAssets w = .ok () w') :
    bundleAssets w' = .ok () w' :=
  bundleAssets_of_done (bundleAssets_done h).1

/-- `bundle_assets` stays done across a change to root files other than the bundles. -/
theorem BundleDone.transfer {S : Path → Prop} {w w' : World} (h : BundleDone w)
    (hS : WritesOnly S w w') (hroot : ∀ p, S p → p.length = 1 ∧ ¬ BundleOut p) :
    BundleDone w' := by
  have hnames : ∀ f ∈ cssFiles ++ jsFiles, ¬ S (relPath f) := fun f hf hs => by
    have := (hroot _ hs).1
    rw [relPath_length f hf] at this
    cases this
  exact ⟨h.1.transfer hS (fun hs => (hroot _ hs).2 (.inl rfl))
      fun f hf => hnames f (List.mem_append_left _ hf),
    h.2.transfer hS (fun hs => (hroot _ hs).2 (.inr rfl))
      fun f hf => hnames f (List.mem_append_right _ hf)⟩

/-! ## `update_index_html` -/

/-- The page `update_index_html` writes (`optimize_assets.py:109-191`), line by line. -/
def indexLines (ts : Nat) : List String := [
    "<!DOCTYPE html>",
    "<html lang=\"en\">",
    "<head>",
    "    <meta charset=\"UTF-8\">",
    "    <meta name=\"viewport\" content=\"width=device-width, initial-scale=1.0\">",
    "    <meta name=\"description\" content=\"BISSO E350 CNC Control System Dashboard\">",
    "    <meta name=\"theme-color\" content=\"#3b82f6\">",
    "    <title>BISSO E350 Dashboard</title>",
    "    <link rel=\"stylesheet\" href=\"bundle.css?v=" ++ toString ts ++ "\">",
    "</head>",
    "<body>",
    "    <a href=\"#main-content\" class=\"skip-link\">Skip to main content</a>",
    "",
    "    <!-- Header -->",
    "    <header role=\"banner\">",
    "        <div style=\"display: flex; align-items: center; gap: 1rem;\">",
    "            <button class=\"mobile-menu-toggle\" id=\"mobile-menu-toggle\" aria-label=\"Toggle navigation menu\">",
    "                <span></span><span></span><span></span>",
    "            </button>",
    "            <h1>⚙️ BISSO E350</h1>",
    "            <div class=\"status-indicator\" aria-label=\"System connection status\">",
    "                <div class=\"status-dot online\" id=\"status-dot\"></div>",
    "                <span id=\"status-text\">Online</span>",
    "            </div>",
    "        </div>",
    "    </header>",
    "",
    "    <!-- Navigation -->",
    "    <nav role=\"navigation\" aria-label=\"Main navigation\" id=\"main-nav\">",
    "        <ul>",
    "            <li><a href=\"#dashboard\" class=\"nav-item active\" data-icon=\"📊\"><span>Dashboard</span></a></li>",
    "            <li><a href=\"#gcode\" class=\"nav-item\" data-icon=\"📝\"><span>G-Code</span></a></li>",
    "            <li><a href=\"#motion\" class=\"nav-item\" data-icon=\"🎮\"><span>Motion</span></a></li>",
    "            <li><a href=\"#diagnostics\" class=\"nav-item\" data-icon=\"🔍\"><span>Diagnostics</span></a></li>",
    "            <li><a href=\"#network\" class=\"nav-item\" data-icon=\"🌐\"><span>Network</span></a></li>",
    "            <li><a href=\"#system\" class=\"nav-item\" data-icon=\"ℹ️\"><span>System</span></a></li>",
    "            <li><a href=\"#maintenance\" class=\"nav-item\" data-icon=\"🔧\"><span>Maintenance</span></a></li>",
    "            <li><a href=\"#logs\" class=\"nav-item\" data-icon=\"📋\"><span>Logs</span></a></li>",
    "            <li><a href=\"#hardware\" class=\"nav-item\" data-icon=\"🔌\"><span>Hardware</span></a></li>",
    "            <li><a href=\"#settings\" class=\"nav-item\" data-icon=\"⚙️\"><span>Settings</span></a></li>",
    "        </ul>",
    "    </nav>",
    "",
    "    <!-- Alerts Container -->",
    "    <div class=\"alerts\" role=\"region\" aria-label=\"System alerts\" id=\"alerts-container\"></div>",
    "",
    "    <!-- Floating Connection Status Badge -->",
    "    <div class=\"connection-badge\" id=\"connection-badge\">",
    "        <div class=\"status-dot online\" id=\"badge-status-dot\"></div>",
    "        <span class=\"status-text\" id=\"badge-status-text\">Connected</span>",
    "        <span class=\"latency\" id=\"badge-latency\">-- ms</span>",
    "    </div>",
    "",
    "    <!-- Main Content -->",
    "    <main id=\"page-container\" class=\"container\" role=\"main\">",
    "        <div style=\"text-align: center; padding: 2rem;\">",
    "            <p>Loading...</p>",
    "        </div>",
    "    </main>",
    "",
    "    <!-- Footer -->",
    "    <footer>",
    "        <p>BISSO E350 Dashboard v3.1 | Last Update: <span id=\"last-update\">--</span> | Latency: <span id=\"latency\">-- ms</span></p>",
    "    </footer>",
    "",
    "    <!-- Single Bundle Script -->",
    "    <script src=\"bundle.js?v=" ++ toString ts ++ "\"></script>",
    "    ",
    "    <script>",
    "        // Main App Initialization",
    "        document.addEventListener(\x27DOMContentLoaded\x27, () => \x7b",
    "            console.log(\"Initializing App...\");",
    "            // Initialize Router directly since there is no main App class",
    "            if (window.Router) \x7b",
    "                window.Router.init();",
    "            \x7d else \x7b",
    "                console.error(\"Router not found!\");",
    "            \x7d",
    "        \x7d);",
    "    </script>",
    "</body>",
    "</html>"]

/-- The page, with its final newline. -/
def indexHtml (ts : Nat) : String := String.intercalate "\n" (indexLines ts) ++ "\n"

/-- `update_index_html()` at the timestamp `ts`: the old page must be readable text. -/
def updateIndexHtml (ts : Nat) : Script Unit := do
  let b ← readFile .data ["index.html"]
  let _ ← decodeText .data ["index.html"] b
  writeFile .data ["index.html"] (.text (indexHtml ts))

/-! ## Re-running `update_index_html` -/

/-- `update_index_html` is done at `w`: the page is in place. -/
def IndexDone (ts : Nat) (w : World) : Prop :=
  w.data.get ["index.html"] = some (.text (indexHtml ts))

theorem updateIndexHtml_of_done {ts : Nat} {w : World} (h : IndexDone ts w) :
    updateIndexHtml ts w = .ok () w := by
  unfold updateIndexHtml
  rw [bind_ok (readFile_of_get (r := .data) h)]
  exact writeFile_of_get (r := .data) h

theorem updateIndexHtml_done {ts : Nat} {w w' : World} (h : updateIndexHtml ts w = .ok () w') :
    IndexDone ts w' ∧ WritesOnly (· = ["index.html"]) w w' := by
  unfold updateIndexHtml at h
  obtain ⟨_, w₁, hr, h⟩ := bind_eq_ok h
  obtain ⟨_, w₂, hdec, hwr⟩ := bind_eq_ok h
  obtain rfl := (readFile_eq_ok hr).2
  obtain rfl := (decodeText_eq_ok hdec).2
  exact ⟨writeFile_get hwr, WritesOnly.writeFile_ok hwr⟩

/-- `update_index_html` writes only the page, whether it completes or not. -/
theorem updateIndexHtml_writes (ts : Nat) (w : World) :
    WritesOnly (· = ["index.html"]) w (after (updateIndexHtml ts) w) := by
  unfold updateIndexHtml
  rw [after_readFile_bind]
  split
  · rw [after_decodeText_bind]
    split
    · exact WritesOnly.writeFile _ _ w
    · exact WritesOnly.refl _ w
  · exact WritesOnly.refl _ w

/-- **A completed `update_index_html` is a fixed point of itself.** -/
theorem updateIndexHtml_fixed {ts : Nat} {w w' : World} (h : updateIndexHtml ts w = .ok () w') :
    updateIndexHtml ts w' = .ok () w' :=
  updateIndexHtml_of_done (updateIndexHtml_done h).1

end AssetPipeline
