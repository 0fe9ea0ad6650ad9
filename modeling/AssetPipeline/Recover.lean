import AssetPipeline.Unbundle

/-!
# Where `unbundle` writes, and whether it gets there

`recover_assets.unbundle` opens `os.path.join(DATA_DIR, fname)` for each entry of its plan
(`recover_assets.py:43-53`), and the script's main block unbundles `bundle.js` and then
`bundle.css` (`recover_assets.py:55-58`), with no handler around either call.

* The name check of `unbundle` only removes `:` (`cleanName`), so no cleaned name holds a
  drive (`colon_not_mem_cleanName`), but every `..` stays.
* `writeEntry` follows a name that Windows resolves strictly below `DATA_DIR` (`resolveName`,
  `NtPath.lean`); at any other name the model stops with `Exc.unfollowed`.
* `recoverAssets` is the main block.

Results:
* `normPath_joinDataDir`: for a name the model follows, `ntpath.normpath` of the joined path is
  the root of `c:` and the stack of `joinedComps`, the components `writeEntry` resolves.
* `unbundlePlan_opens`: for every bundle text, an entry whose name resolves to `p` is opened
  by the code at `DATA_DIR\p` once normalised, inside `DATA_DIR`: the model writes each such
  entry where the code does.
* `unbundle_escapes`: the entry of `/* ../x */y` is opened at
  `c:\data\BISSO_E350_Controller\x`, and that of `/* /x */y` at `c:\x`, both outside
  `DATA_DIR`.
* `writeEntry_of_dir`: an entry whose name is an existing directory raises and changes
  nothing; nothing catches it, so `recoverAssets_stops`: such an entry in `bundle.js` stops
  the script before `bundle.css` is unbundled.
-/

namespace AssetPipeline

/-- The main block of `recover_assets.py`. -/
def recoverAssets : Script Unit := do
  unbundle "bundle.js"
  unbundle "bundle.css"

/-! ## Names that resolve -/

theorem mem_stripList {c : Char} {l : List Char} (h : c ∈ stripList l) : c ∈ l := by
  unfold stripList at h
  rw [List.mem_reverse] at h
  have h₁ := (List.dropWhile_suffix isSpace).subset h
  rw [List.mem_reverse] at h₁
  exact (List.dropWhile_suffix isSpace).subset h₁

/-- A cleaned name holds no `:`. -/
theorem colon_not_mem_cleanName (name : String) : ':' ∉ (cleanName name).toList := by
  unfold cleanName
  dsimp only
  split
  · intro hc
    simpa [dropColons] using mem_stripList hc
  · rename_i h
    intro hc
    simp only [Bool.or_eq_true, not_or, hasInfix, decide_eq_true_eq] at h
    obtain ⟨l₁, l₂, hl⟩ := List.append_of_mem hc
    exact h.2 ⟨l₁, l₂, by rw [hl]; simp⟩

theorem splitPath_append_sep {a b : List Char} {c : Char} (hc : c = '/' ∨ c = '\\') :
    splitPath (a ++ c :: b) = splitPath a ++ splitPath b := by
  induction a with
  | nil => simp [splitPath, hc]
  | cons x a ih =>
    rw [List.cons_append, splitPath, splitPath, ih]
    split
    · rfl
    · obtain ⟨s, ss, hs⟩ := List.exists_cons_of_ne_nil (splitPath_ne_nil a)
      rw [hs]
      rfl

/-- A name whose first character is no separator and which holds no `:` has no drive and no
root. -/
theorem splitRoot_of_plain {l : List Char} (h0 : ∀ c ∈ l.head?, isSep c = false)
    (h1 : ':' ∉ l) : splitRoot l = ([], [], l) := by
  unfold splitRoot
  rcases l with _ | ⟨c, _ | ⟨d, rest⟩⟩
  · rfl
  · have : c ≠ '\\' ∧ c ≠ '/' := by simpa [isSep] using h0
    simp [toBackslash, this.1, this.2]
  · have hc : c ≠ '\\' ∧ c ≠ '/' := by simpa [isSep] using h0
    have hd : d ≠ ':' := fun h => h1 (by simp [h])
    by_cases hd' : d = '/' <;> simp [toBackslash, hc.1, hc.2, hd, hd']

/-- A name with one leading separator has a root and no drive. -/
theorem splitRoot_of_rooted {c d : Char} {rest : List Char} (hc : isSep c = true)
    (hd : isSep d = false) : splitRoot (c :: d :: rest) = ([], [c], d :: rest) := by
  have hc' : (if c = '/' then '\\' else c) = '\\' := by
    simp only [isSep, Bool.or_eq_true, beq_iff_eq] at hc
    rcases hc with rfl | rfl <;> rfl
  have hd' : (if d = '/' then '\\' else d) ≠ '\\' := by
    simp only [isSep, Bool.or_eq_false_iff, beq_eq_false_iff_ne] at hd
    split <;> simp_all
  simp [splitRoot, toBackslash, hc', hd']

/-- **`ntpath.join(DATA_DIR, fname)` is a path on `c:` with a root** for a name the model
follows and with no `:`, and its components after the root are `joinedComps fname`. -/
theorem joinDataDir_followable {fname : String} (hcolon : ':' ∉ fname.toList)
    (hf : followable fname = true) :
    ∃ c rest, isSep c = true ∧ joinDataDir fname = ⟨'c' :: ':' :: c :: rest⟩ ∧
      (splitPath rest).map String.mk = joinedComps fname := by
  simp only [followable, Bool.and_eq_true, bne_iff_ne, ne_eq] at hf
  rcases hl : fname.toList with _ | ⟨c, cs⟩
  · refine ⟨'\\', "data\\BISSO_E350_Controller\\data\\".toList, rfl, ?_, ?_⟩
    · rw [joinDataDir, hl]
      rfl
    · rw [joinedComps, relPath, hl]
      rfl
  · by_cases hc : isSep c = true
    · -- a rooted name: `DATA_DIR` gives its drive only
      have hsplit : splitRoot (c :: cs) = ([], [c], cs) := by
        rcases cs with _ | ⟨d, ds⟩
        · simp only [isSep, Bool.or_eq_true, beq_iff_eq] at hc
          rcases hc with rfl | rfl <;> rfl
        · refine splitRoot_of_rooted hc ?_
          cases hd : isSep d
          · rfl
          · have hd' : (if d = '/' then '\\' else d) = '\\' := by
              simp only [isSep, Bool.or_eq_true, beq_iff_eq] at hd
              rcases hd with rfl | rfl <;> rfl
            have hc' : (if c = '/' then '\\' else c) = '\\' := by
              simp only [isSep, Bool.or_eq_true, beq_iff_eq] at hc
              rcases hc with rfl | rfl <;> rfl
            exact (hf.1 (by rw [hl]; simp [toBackslash, hc', hd'])).elim
      refine ⟨c, cs, hc, ?_, ?_⟩
      · rw [joinDataDir, hl, hsplit]
        rfl
      · have hsep : c = '/' ∨ c = '\\' := by simpa [isSep, or_comm] using hc
        rw [joinedComps, hl, if_pos (by simp [hc]), relPath, hl,
          show c :: cs = [] ++ c :: cs from rfl, splitPath_append_sep hsep]
        rfl
    · -- a relative name follows `DATA_DIR` after a separator
      have hsplit := splitRoot_of_plain (l := c :: cs) (by simpa using hc) (hl ▸ hcolon)
      refine ⟨'\\', "data\\BISSO_E350_Controller\\data".toList ++ '\\' :: c :: cs, rfl, ?_, ?_⟩
      · rw [joinDataDir, hl, hsplit]
        rfl
      · rw [splitPath_append_sep (.inr rfl), joinedComps, hl, if_neg (by simpa using hc), relPath,
          hl, List.map_append]
        rfl

/-- **`ntpath.normpath` of the joined name** is the root of `c:` and the stack of the
components `writeEntry` resolves, for every name the model follows and with no `:`. -/
theorem normPath_joinDataDir {fname : String} (hcolon : ':' ∉ fname.toList)
    (hf : followable fname = true) :
    normPath (joinDataDir fname) =
      "c:\\" ++ String.intercalate "\\" (normComps true (joinedComps fname)) := by
  obtain ⟨c, rest, hc, hj, hcomps⟩ := joinDataDir_followable hcolon hf
  rw [hj, normPath_drive hc, hcomps]

theorem resolveName_spec {fname : String} {p : Path} (h : resolveName fname = some p) :
    followable fname = true ∧ normComps true (joinedComps fname) = dataComps ++ p ∧ p ≠ [] := by
  unfold resolveName at h
  split at h
  · split at h
    · cases h
      exact ⟨‹_›, place_eq_data.mp ‹_›, List.cons_ne_nil _ _⟩
    · cases h
  · cases h

/-- The components of `DATA_DIR` and those of `p`, joined, are `DATA_DIR\p`. -/
theorem intercalate_dataComps {p : Path} (hp : p ≠ []) :
    "c:\\" ++ String.intercalate "\\" (dataComps ++ p) =
      dataDir ++ "\\" ++ String.intercalate "\\" p := by
  obtain ⟨q, qs, rfl⟩ := List.exists_cons_of_ne_nil hp
  apply String.ext
  simp [data_intercalate_go, String.intercalate, dataComps, dataDir]

/-- A name without `:` that resolves to `p` is opened at `DATA_DIR\p` once normalised. -/
theorem opens_of_resolved {fname : String} (hcolon : ':' ∉ fname.toList) {p : Path}
    (hres : resolveName fname = some p) :
    normPath (joinDataDir fname) = dataDir ++ "\\" ++ String.intercalate "\\" p ∧
      insideDataDir (joinDataDir fname) = true := by
  obtain ⟨hf, hn, hp⟩ := resolveName_spec hres
  have hopen : normPath (joinDataDir fname) = dataDir ++ "\\" ++ String.intercalate "\\" p := by
    rw [normPath_joinDataDir hcolon hf, hn, intercalate_dataComps hp]
  refine ⟨hopen, ?_⟩
  rw [insideDataDir, hopen, Bool.or_eq_true]
  refine .inr (List.isPrefixOf_iff_prefix.mpr ?_)
  simp only [toList_append, List.map_append, List.append_assoc]
  exact List.prefix_append _ _

/-- **The model writes each entry where the code does**: for every bundle text, an entry whose
name resolves to the relative path `p` is opened by `unbundle` at `DATA_DIR\p` once
normalised, which is inside `DATA_DIR`. -/
theorem unbundlePlan_opens {content : String} {e : String × String}
    (he : e ∈ unbundlePlan content) {p : Path} (hres : resolveName e.1 = some p) :
    normPath (joinDataDir e.1) = dataDir ++ "\\" ++ String.intercalate "\\" p ∧
      insideDataDir (joinDataDir e.1) = true := by
  obtain ⟨x, -, rfl⟩ := List.mem_map.mp he
  exact opens_of_resolved (colon_not_mem_cleanName _) hres

theorem unbundlePlan_opens_css :
    ("css/a.css", "x\n") ∈ unbundlePlan "/* css/a.css */x" ∧
      resolveName "css/a.css" = some ["css", "a.css"] ∧
      normPath (joinDataDir "css/a.css") =
        dataDir ++ "\\" ++ String.intercalate "\\" ["css", "a.css"] ∧
      insideDataDir (joinDataDir "css/a.css") = true :=
  have he : ("css/a.css", "x\n") ∈ unbundlePlan "/* css/a.css */x" := by decide
  have hres : resolveName "css/a.css" = some ["css", "a.css"] := by decide
  ⟨he, hres, unbundlePlan_opens he hres⟩

/-- **`unbundle` writes outside `DATA_DIR`**: the one entry of `/* ../x */y` is named `../x`,
which the model does not follow, and which the code opens at
`c:\data\BISSO_E350_Controller\x`; the entry of `/* /x */y` is opened at `c:\x`. -/
theorem unbundle_escapes :
    (unbundlePlan "/* ../x */y" = [("../x", "y\n")] ∧ resolveName "../x" = none ∧
      normPath (joinDataDir "../x") = "c:\\data\\BISSO_E350_Controller\\x" ∧
      insideDataDir (joinDataDir "../x") = false) ∧
    (unbundlePlan "/* /x */y" = [("/x", "y\n")] ∧ resolveName "/x" = none ∧
      normPath (joinDataDir "/x") = "c:\\x" ∧ insideDataDir (joinDataDir "/x") = false) := by
  decide

/-! ## An entry that raises -/

/-- An entry whose name is written as it stands and is an existing directory raises at
`open`, and changes nothing. -/
theorem writeEntry_of_dir {e : String × String} (he : PlainName e.1) {w : World}
    (hd : relPath e.1 ∈ w.data.dirs) : writeEntry e w = .error (.openWrite .data (relPath e.1)) w := by
  obtain ⟨hres, hj, hplain⟩ := he
  have hpd : w.data.isDir (relPath e.1).dropLast = true :=
    Tree.isDir_of_prefix (by simp [Tree.isDir, hd]) (List.dropLast_prefix _)
  unfold writeEntry
  rw [hres]
  dsimp only
  rw [hj, ntDirname_plain hplain (relPath_ne_nil _),
    bind_ok (osMakedirs_of_isDir (fun s hs => hplain s (List.dropLast_subset _ hs)) hpd),
    writeFile, dif_neg (by simp [hd])]

/-- Two bundles: `bundle.js` names the directory `css`, `bundle.css` a new file. -/
def dirWorld : World :=
  ⟨⟨[(["bundle.js"], .text "/* css */x"), (["bundle.css"], .text "/* a.css */y")], [["css"]],
    by decide, by decide, by decide, by decide⟩, Tree.empty⟩

/-- **The main block stops at the first entry that raises**: the entry of `bundle.js` naming
the directory `css` raises, so `bundle.css`, which on its own would write `a.css`, is never
unbundled. -/
theorem recoverAssets_stops :
    recoverAssets dirWorld = .error (.openWrite .data ["css"]) dirWorld ∧
      (after recoverAssets dirWorld).data.get ["a.css"] = none ∧
      (after (unbundle "bundle.css") dirWorld).data.get ["a.css"] = some (.text "y\n") := by
  have hplan : unbundlePlan "/* css */x" = [("css", "x\n")] := by decide
  have hjs : unbundle "bundle.js" dirWorld = .error (.openWrite .data ["css"]) dirWorld := by
    rw [unbundle_of_get (rfl : dirWorld.data.get ["bundle.js"] = _), hplan, forEach, bind_apply,
      writeEntry_of_dir (e := ("css", "x\n")) (by decide) (by decide)]
    rfl
  have hmain : recoverAssets dirWorld = .error (.openWrite .data ["css"]) dirWorld := by
    rw [recoverAssets, bind_apply, hjs]
  exact ⟨hmain, by rw [after_error hmain]; rfl, by decide⟩

end AssetPipeline
