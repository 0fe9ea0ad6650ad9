import AssetPipeline.NtPath

/-!
# The unbundler: `recover_assets.unbundle`

Model of `recover_assets.unbundle` (`recover_assets.py:7-53`), which splits a bundle back into
files with `re.split(r'/\* (.*?) \*/', content)`.

* The pattern is searched leftmost first (`search`); at a position it needs `/* `, then the
  lazy group: the shortest run of characters other than a newline (no `re.DOTALL`) that is
  followed by ` */` (`lazyGroup`, `matchAt`). A match is at least six characters long, so
  `reSplit` splits with the text's length as fuel, more than the matches can use.
* Each group names a file: `strip()`, and when it holds `..` or `:`, every `:` removed and
  `strip()` again (`cleanName`). The text after the match, up to the next one, is written
  there as `fcontent.strip() + "\n"` (`unbundlePlan`). With no match, `len(parts) < 3` and
  nothing is written.
* An entry is written as the code writes it (`writeEntry`): `os.makedirs` of the directory of
  `os.path.join(DATA_DIR, fname)` (`osMakedirs`, `ntDirname`), then `open` at the path Windows
  resolves the joined name to (`resolveName`). Both are in `NtPath.lean`. The model stops with
  `Exc.unfollowed` at a name that does not resolve strictly below `DATA_DIR`; `Recover.lean`
  works out where the code opens such a name.

Results:
* `search_newline_append`: a match never crosses a newline, so a text splits into its lines.
* `writeEntry_plain`, `forEach_writeEntry_ok`: an entry whose name is written as it stands
  completes when nothing is in its way, and a plan of such names of one length completes.
* `css_round_trip`: for any listed style sources without a one-line marker, the writer raises
  nothing, and `unbundle` of a `DATA_DIR` holding the `bundle.css` text completes when nothing is
  in the way of the listed names. It writes each present source once, in list order, at its
  listed path, with its content stripped of blank space on both sides and one newline appended,
  and changes no other file. `css_round_trip_refuted`: the content is not kept up to trailing
  newlines alone.
* `js_round_trip`: when every listed script is absent or text, the writer raises nothing. When
  moreover none holds a one-line marker, the `bundle.js` text has no match, so `unbundle` writes
  nothing (`js_round_trip_refuted`).
-/

namespace AssetPipeline

/-! ## The regular expression -/

/-- The lazy group `(.*?)` followed by ` \*/`: the group and the text after the match. -/
def lazyGroup : List Char → Option (List Char × List Char)
  | [] => none
  | c :: cs =>
    if [' ', '*', '/'].isPrefixOf (c :: cs) then some ([], cs.drop 2)
    else if c = '\n' then none
    else (lazyGroup cs).map fun (g, r) => (c :: g, r)

/-- The pattern `/\* (.*?) \*/` tried at the start of a text. -/
def matchAt (l : List Char) : Option (List Char × List Char) :=
  if ['/', '*', ' '].isPrefixOf l then lazyGroup (l.drop 3) else none

/-- The leftmost match: the text before it, its group, and the text after it. -/
def search : List Char → Option (List Char × List Char × List Char)
  | [] => none
  | c :: cs =>
    match matchAt (c :: cs) with
    | some (g, r) => some ([], g, r)
    | none => (search cs).map fun (pre, g, r) => (c :: pre, g, r)

/-- `re.split` with one group, as the piece before the first match and, for each match, its
group and the piece after it; `fuel` bounds the number of matches. -/
def reSplitAux : Nat → List Char → List Char × List (List Char × List Char)
  | 0, l => (l, [])
  | n + 1, l =>
    match search l with
    | none => (l, [])
    | some (pre, g, r) =>
      let rest := reSplitAux n r
      (pre, (g, rest.1) :: rest.2)

/-- `re.split(r'/\* (.*?) \*/', content)`. -/
def reSplit (content : String) : List Char × List (List Char × List Char) :=
  reSplitAux content.length content.toList

/-! ## `unbundle` -/

/-- The name an entry is written under (`recover_assets.py:37-46`). -/
def cleanName (name : String) : String :=
  let fname := strip name
  if hasInfix fname ".." || hasInfix fname ":" then strip (dropColons fname) else fname

/-- What `unbundle` writes, in order: each group's cleaned name and the stripped piece after
it with one newline. -/
def unbundlePlan (content : String) : List (String × String) :=
  (reSplit content).2.map fun (g, seg) => (cleanName ⟨g⟩, strip ⟨seg⟩ ++ "\n")

/-- One entry (`recover_assets.py:48-53`): `os.makedirs` of the directory of the joined path,
then `open(out_path, "w")`, at the path Windows resolves it to. -/
def writeEntry (e : String × String) : Script Unit :=
  match resolveName e.1 with
  | some p => do
    osMakedirs (ntDirname (joinedComps e.1))
    writeFile .data p (.text e.2)
  | none => throw (.unfollowed e.1)

/-- `unbundle(bundle_file)`. -/
def unbundle (bundleFile : String) : Script Unit := do
  if (← pathExists .data [bundleFile]) then
    let b ← readFile .data [bundleFile]
    let content ← decodeText .data [bundleFile] b
    forEach (unbundlePlan content) writeEntry

/-! ## A match stays on one line -/

theorem lazyGroup_newline_append {a b : List Char} (h : lazyGroup a = none) :
    lazyGroup (a ++ '\n' :: b) = none := by
  induction a with
  | nil => simp [lazyGroup, List.isPrefixOf]
  | cons c cs ih =>
    have hpre : [' ', '*', '/'].isPrefixOf (c :: (cs ++ '\n' :: b)) =
        [' ', '*', '/'].isPrefixOf (c :: cs) := by
      rcases cs with _ | ⟨x, _ | ⟨y, zs⟩⟩ <;> simp [List.isPrefixOf]
    rw [List.cons_append, lazyGroup, hpre]
    rw [lazyGroup] at h
    split at h
    · cases h
    · rw [if_neg ‹_›]
      split at h
      · rw [if_pos ‹_›]
      · rw [if_neg ‹_›, ih (by simpa using h)]
        rfl

theorem matchAt_newline_append {a b : List Char} (h : matchAt a = none) :
    matchAt (a ++ '\n' :: b) = none := by
  unfold matchAt at h ⊢
  rcases a with _ | ⟨x, _ | ⟨y, _ | ⟨z, zs⟩⟩⟩
  all_goals simp only [List.isPrefixOf, List.nil_append, List.cons_append, beq_iff_eq,
    Bool.and_eq_true, Char.reduceEq, false_and, and_false, if_false] at h ⊢
  split at h
  · rw [if_pos ‹_›]
    exact lazyGroup_newline_append h
  · rw [if_neg ‹_›]

/-- **No match crosses a newline**: past a line with no match, the search goes on in the rest. -/
theorem search_newline_append {a b : List Char} (h : search a = none) :
    search (a ++ '\n' :: b) =
      (search b).map fun (pre, g, r) => (a ++ '\n' :: pre, g, r) := by
  induction a with
  | nil =>
    simp only [List.nil_append, search, matchAt, List.isPrefixOf, beq_iff_eq, Char.reduceEq,
      false_and, Bool.false_eq_true, if_false]
    rfl
  | cons c cs ih =>
    simp only [search] at h
    split at h
    · cases h
    · rename_i hm
      rw [Option.map_eq_none'] at h
      have hm' : matchAt (c :: (cs ++ '\n' :: b)) = none := matchAt_newline_append hm
      rw [List.cons_append, search, hm']
      dsimp only
      rw [ih h, Option.map_map]
      rfl

/-- A group with no newline and no ` */` in it, between `/* ` and ` */`, is one whole match. -/
theorem lazyGroup_clean {f rest : List Char} (hnl : '\n' ∉ f) (hf : ¬ [' ', '*', '/'] <:+: f) :
    lazyGroup (f ++ ' ' :: '*' :: '/' :: rest) = some (f, rest) := by
  induction f with
  | nil => simp [lazyGroup, List.isPrefixOf]
  | cons c cs ih =>
    have hpre : ¬ [' ', '*', '/'].isPrefixOf (c :: (cs ++ ' ' :: '*' :: '/' :: rest)) := by
      rcases cs with _ | ⟨x, _ | ⟨y, zs⟩⟩
      · simp [List.isPrefixOf]
      · simp [List.isPrefixOf]
      · intro h
        simp only [List.isPrefixOf, List.cons_append, beq_iff_eq, Bool.and_eq_true] at h
        obtain ⟨rfl, rfl, rfl, -⟩ := h
        exact hf ⟨[], zs, rfl⟩
    rw [List.cons_append, lazyGroup, if_neg hpre,
      if_neg fun (h : c = '\n') => hnl (h ▸ List.mem_cons_self _ _),
      ih (fun h => hnl (List.mem_cons_of_mem _ h)) fun h => hf (List.infix_cons h)]
    rfl

theorem search_clean {f rest : List Char} (hnl : '\n' ∉ f) (hf : ¬ [' ', '*', '/'] <:+: f) :
    search ('/' :: '*' :: ' ' :: (f ++ ' ' :: '*' :: '/' :: rest)) = some ([], f, rest) := by
  simp only [search, matchAt, List.isPrefixOf, beq_self_eq_true, Bool.and_self, if_true,
    List.drop_succ_cons, List.drop_zero, lazyGroup_clean hnl hf]

/-- A name with no blank and no newline has no newline and no ` */`. -/
theorem clean_of_plain {f : List Char} (hf : ∀ ch ∈ f, ch ≠ ' ' ∧ ch ≠ '\n') :
    '\n' ∉ f ∧ ¬ [' ', '*', '/'] <:+: f :=
  ⟨fun h => (hf _ h).2 rfl, fun ⟨_, _, h⟩ => (hf ' ' (by rw [← h]; simp)).1 rfl⟩

theorem search_newline {b : List Char} :
    search ('\n' :: b) = (search b).map fun (pre, g, r) => ('\n' :: pre, g, r) :=
  search_newline_append (a := []) rfl

/-! ## What a bundle writer's text holds -/

/-- A listed source a writer reads without an exception: absent, or a text file. -/
def readableSource (t : Tree) (f : String) : Bool :=
  match t.get (relPath f) with
  | some (.text _) => true
  | some _ => false
  | none => !t.present (relPath f)

/-- A listed source a writer reads without an exception, and whose text has no one-line
marker: absent, or a text file. -/
def cleanSource (t : Tree) (f : String) : Bool :=
  match t.get (relPath f) with
  | some (.text c) => (search c.toList).isNone
  | some _ => false
  | none => !t.present (relPath f)

/-- The listed sources that exist, with their texts, in list order. -/
def presentTexts (t : Tree) (names : List String) : List (String × String) :=
  names.filterMap fun f =>
    match t.get (relPath f) with
    | some (.text c) => some (f, c)
    | _ => none

/-- The text a writer puts out for the given entries. -/
def entriesText (head : String → String) (tail : String) : List (String × String) → String
  | [] => ""
  | (f, c) :: es => head f ++ c ++ tail ++ entriesText head tail es

/-- **A writer raises nothing on readable sources**: it writes each present one, in list
order, and stops on no exception. -/
theorem bundleText_readable {t : Tree} {head : String → String} {tail : String}
    {names : List String} (h : ∀ f ∈ names, readableSource t f = true) :
    bundleText t head tail names = (entriesText head tail (presentTexts t names), none) := by
  induction names with
  | nil => rfl
  | cons f fs ih =>
    have hf := h f (List.mem_cons_self _ _)
    have ih' := ih fun g hg => h g (List.mem_cons_of_mem _ hg)
    unfold readableSource at hf
    simp only [presentTexts, List.filterMap_cons] at ih' ⊢
    split at hf
    · rename_i c hc
      have hp : t.present (relPath f) = true := by simp [Tree.present, Tree.isFile_iff, hc]
      simp only [bundleText, hp, if_true, hc, Blob.decode, ih', entriesText]
    · simp at hf
    · rename_i hc
      simp only [Bool.not_eq_true'] at hf
      simp only [bundleText, hf, hc, ih', Bool.false_eq_true, if_false]

theorem readableSource_of_clean {t : Tree} {f : String} (h : cleanSource t f = true) :
    readableSource t f = true := by
  unfold cleanSource at h
  unfold readableSource
  split <;> simp_all

/-- With clean sources, a writer writes each present one, and raises nothing. -/
theorem bundleText_clean {t : Tree} {head : String → String} {tail : String}
    {names : List String} (h : ∀ f ∈ names, cleanSource t f = true) :
    bundleText t head tail names = (entriesText head tail (presentTexts t names), none) :=
  bundleText_readable fun f hf => readableSource_of_clean (h f hf)

theorem mem_presentTexts {t : Tree} {names : List String} {f c : String} :
    (f, c) ∈ presentTexts t names ↔ f ∈ names ∧ t.get (relPath f) = some (.text c) := by
  simp only [presentTexts, List.mem_filterMap]
  constructor
  · rintro ⟨g, hg, he⟩
    split at he
    · cases he
      exact ⟨hg, ‹_›⟩
    · cases he
  · rintro ⟨hf, hc⟩
    exact ⟨f, hf, by rw [hc]⟩

/-- A present clean source: its name is listed, and its text has no one-line marker. -/
theorem presentTexts_clean {t : Tree} {names : List String}
    (h : ∀ f ∈ names, cleanSource t f = true) {f c : String}
    (hfc : (f, c) ∈ presentTexts t names) : f ∈ names ∧ search c.toList = none := by
  obtain ⟨hf, hc⟩ := mem_presentTexts.mp hfc
  have := h f hf
  simp only [cleanSource, hc, Option.isNone_iff_eq_none] at this
  exact ⟨hf, this⟩

/-! ## `unbundle` on a tree -/

/-- `unbundle` of a bundle that is a text file runs its plan. -/
theorem unbundle_of_get {bundleFile content : String} {w : World}
    (h : w.data.get [bundleFile] = some (.text content)) :
    unbundle bundleFile w = forEach (unbundlePlan content) writeEntry w := by
  have hp : w.data.present [bundleFile] = true := by simp [Tree.present, Tree.isFile_iff, h]
  unfold unbundle
  rw [bind_ok (rfl : pathExists .data [bundleFile] w = .ok _ w)]
  simp only [World.tree_data, hp, if_true]
  rw [bind_ok (readFile_of_get (r := .data) h)]
  rfl

/-- An entry whose name resolves writes its text there, and changes no other file. -/
theorem writeEntry_spec {e : String × String} {p : Path} (hr : resolveName e.1 = some p)
    {w w' : World} (h : writeEntry e w = .ok () w') :
    w'.src = w.src ∧ ∀ x, w'.data.get x = if x = p then some (.text e.2) else w.data.get x := by
  unfold writeEntry at h
  rw [hr] at h
  obtain ⟨_, w₁, hm, h⟩ := bind_eq_ok h
  have hd₁ : DirsOnly w w₁ := after_ok hm ▸ osMakedirs_dirsOnly _ w
  have hw := WritesOnly.writeFile_ok h
  refine ⟨hw.1.trans hd₁.1, fun x => ?_⟩
  by_cases hx : x = p
  · subst hx; simpa using writeFile_get h
  · simpa [hx, hd₁.get] using hw.2.2 x hx

/-- A plan of entries that resolve to distinct relative paths writes each entry's text at its
path, and changes no other file. -/
theorem forEach_writeEntry {plan : List (String × String)}
    (hres : ∀ e ∈ plan, resolveName e.1 = some (relPath e.1))
    (hnd : (plan.map fun e => relPath e.1).Nodup) {w w' : World}
    (h : forEach plan writeEntry w = .ok () w') :
    w'.src = w.src ∧ (∀ x, (∀ e ∈ plan, x ≠ relPath e.1) → w'.data.get x = w.data.get x) ∧
      ∀ e ∈ plan, w'.data.get (relPath e.1) = some (.text e.2) := by
  refine ⟨?_, ?_, forEach_establishes (D := fun e w => w.data.get (relPath e.1) = some (.text e.2))
    (List.Nodup.of_map _ hnd) (fun e he _ _ h' => ?_) (fun e he e' he' _ _ hne h' hd => ?_) h⟩
  · exact forEach_ok_keeps (P := fun w'' => w''.src = w.src)
      (fun e he _ _ h' hs => (writeEntry_spec (hres e he) h').1.trans hs) rfl h
  · exact forEach_ok_keeps
      (P := fun w'' => ∀ x, (∀ e ∈ plan, x ≠ relPath e.1) → w''.data.get x = w.data.get x)
      (fun e he _ _ h' hP x hx => by rw [(writeEntry_spec (hres e he) h').2, if_neg (hx e he), hP x hx])
      (fun _ _ => rfl) h
  · dsimp only
    rw [(writeEntry_spec (hres e he) h').2, if_pos rfl]
  · have hne' : relPath e.1 ≠ relPath e'.1 := fun heq => hne (List.inj_on_of_nodup_map hnd he he' heq)
    dsimp only at hd ⊢
    rw [(writeEntry_spec (hres e' he') h').2, if_neg hne', hd]

/-- The present sources are listed, in list order. -/
theorem presentTexts_sublist (t : Tree) (names : List String) :
    ((presentTexts t names).map Prod.fst).Sublist names := by
  induction names with
  | nil => exact List.Sublist.slnil
  | cons f fs ih =>
    simp only [presentTexts, List.filterMap_cons] at ih ⊢
    rcases t.get (relPath f) with _ | (_ | _ | _)
    · exact ih.cons f
    · exact ih.cons₂ f
    · exact ih.cons f
    · exact ih.cons f

/-- A name `unbundle` writes as it stands: it resolves to its relative path, of plain parts,
which follows the parts of `DATA_DIR`. -/
def PlainName (f : String) : Prop :=
  resolveName f = some (relPath f) ∧ joinedComps f = dataComps ++ relPath f ∧
    ∀ s ∈ relPath f, s ≠ "" ∧ s ≠ "." ∧ s ≠ ".."

instance : DecidablePred PlainName := fun f => by unfold PlainName; infer_instance

/-- Nothing is in the way of the names `names` in `w`: no file on the way to one, and no
directory at one. -/
def Clear (names : List String) (w : World) : Prop :=
  ∀ f ∈ names, (∀ q ∈ (relPath f).dropLast.inits, q ∉ w.data.paths) ∧ relPath f ∉ w.data.dirs

instance (names : List String) (w : World) : Decidable (Clear names w) := by
  unfold Clear; infer_instance

theorem relPath_ne_nil (f : String) : relPath f ≠ [] := by
  simpa [relPath] using splitPath_ne_nil f.toList

/-- **An entry with a plain name completes** when nothing is in its way: it writes its text
at its path, makes directories on the way to it only, and changes no other file. -/
theorem writeEntry_plain {e : String × String} (he : PlainName e.1) {w : World}
    (hway : ∀ q ∈ (relPath e.1).dropLast.inits, q ∉ w.data.paths)
    (hd : relPath e.1 ∉ w.data.dirs) :
    ∃ w', writeEntry e w = .ok () w' ∧ w'.src = w.src ∧
      (∀ x, w'.data.get x = if x = relPath e.1 then some (.text e.2) else w.data.get x) ∧
      ∀ d ∈ w'.data.dirs, d ∈ w.data.dirs ∨ d <+: (relPath e.1).dropLast := by
  obtain ⟨hres, hj, hplain⟩ := he
  have hne := relPath_ne_nil e.1
  obtain ⟨w₁, h₁, hd₁, hdir₁, hdirs₁⟩ :=
    osMakedirs_plain (fun s hs => hplain s (List.dropLast_subset _ hs)) hway
  have hnot : relPath e.1 ∉ w₁.data.dirs := fun h => (hdirs₁ _ h).elim hd fun hp => by
    have := hp.length_le
    have := List.length_pos.mpr hne
    simp only [List.length_dropLast] at *
    omega
  have hpar : (relPath e.1).dropLast = [] ∨ (relPath e.1).dropLast ∈ w₁.data.dirs := by
    simpa [Tree.isDir] using hdir₁
  refine ⟨{ w₁ with data := w₁.data.put (relPath e.1) (.text e.2) hpar ⟨hne, hnot⟩ }, ?_, hd₁.1,
    fun x => by rw [Tree.get_put, hd₁.get], hdirs₁⟩
  unfold writeEntry
  rw [hres]
  dsimp only
  rw [hj, ntDirname_plain hplain hne, bind_ok h₁, writeFile, dif_pos ⟨hpar, hne, hnot⟩]
  rfl

/-- **Entries of plain names of one length complete** when none has anything in its way:
what one writes is in no other's way. -/
theorem forEach_writeEntry_ok {names : List String} (hplain : ∀ f ∈ names, PlainName f)
    {n : Nat} (hlen : ∀ f ∈ names, (relPath f).length = n) {plan : List (String × String)}
    (hplan : ∀ e ∈ plan, e.1 ∈ names) {w : World} (hclear : Clear names w) :
    ∃ w', forEach plan writeEntry w = .ok () w' := by
  induction plan generalizing w with
  | nil => exact ⟨w, rfl⟩
  | cons e es ih =>
    have he := hplan e (List.mem_cons_self _ _)
    have hn : 0 < n := hlen e.1 he ▸ List.length_pos.mpr (relPath_ne_nil e.1)
    obtain ⟨w₁, h₁, -, hget, hdirs⟩ := writeEntry_plain (hplain _ he) (hclear _ he).1 (hclear _ he).2
    have hclear₁ : Clear names w₁ := fun f hf => by
      refine ⟨fun q hq hq₁ => ?_, fun hd => ?_⟩
      · rw [Tree.mem_paths, hget] at hq₁
        by_cases hqe : q = relPath e.1
        · -- `e`'s path is longer than anything on the way to `f`
          have := ((List.mem_inits _ _).mp hq).length_le
          rw [hqe, hlen e.1 he, List.length_dropLast, hlen f hf] at this
          omega
        · rw [if_neg hqe] at hq₁
          exact (hclear f hf).1 q hq (Tree.mem_paths.mpr hq₁)
      · rcases hdirs _ hd with h | h
        · exact (hclear f hf).2 h
        · have := h.length_le
          rw [hlen f hf, List.length_dropLast, hlen e.1 he] at this
          omega
    obtain ⟨w', h'⟩ := ih (fun e' he' => hplan e' (List.mem_cons_of_mem _ he')) hclear₁
    exact ⟨w', by rw [forEach_cons, h₁]; exact h'⟩

/-- The entries of the plan of the style sources are named by listed style names. -/
theorem cssPlan_names {t : Tree} :
    ∀ e ∈ (presentTexts t cssFiles).map (fun (f, c) => (f, strip c ++ "\n")), e.1 ∈ cssFiles := by
  simp only [List.mem_map]
  rintro _ ⟨⟨f, c⟩, hfc, rfl⟩
  exact (mem_presentTexts.mp hfc).1

/-- The listed style names are written as they stand, and have two parts. -/
theorem cssFiles_plainName : ∀ f ∈ cssFiles, PlainName f ∧ (relPath f).length = 2 := by decide

/-- `unbundle` of a clean `bundle.css` writes each present source at its listed path, stripped
with one newline, and changes no other file. -/
theorem cssPlan_writes {t : Tree} {w w' : World}
    (h : forEach ((presentTexts t cssFiles).map fun (f, c) => (f, strip c ++ "\n")) writeEntry w =
      .ok () w') :
    w'.src = w.src ∧
      (∀ x, (∀ f c, (f, c) ∈ presentTexts t cssFiles → x ≠ relPath f) →
        w'.data.get x = w.data.get x) ∧
      ∀ f c, (f, c) ∈ presentTexts t cssFiles →
        w'.data.get (relPath f) = some (.text (strip c ++ "\n")) := by
  have hinj : (cssFiles.map relPath).Nodup := by decide
  obtain ⟨h₁, h₂, h₃⟩ := forEach_writeEntry
    (fun e he => (cssFiles_plainName e.1 (cssPlan_names e he)).1.1)
    (by simpa [List.map_map, Function.comp_def] using
      hinj.sublist ((presentTexts_sublist t cssFiles).map relPath)) h
  refine ⟨h₁, fun x hx => h₂ x fun e he => ?_,
    fun f c hfc => h₃ (f, strip c ++ "\n") (List.mem_map.mpr ⟨(f, c), hfc, rfl⟩)⟩
  obtain ⟨⟨f, c⟩, hfc, rfl⟩ := List.mem_map.mp he
  exact hx f c hfc

/-! ## Marked entries

The style writer puts each entry after the marker `\n/* name */\n` (`entriesText cssMarker ""`);
the draft bundler's text has the same shape (`Artifacts.lean`). -/

/-- The marked entries' text, as characters. -/
theorem cssText_cons (f c : String) (es : List (String × String)) :
    (entriesText cssMarker "" ((f, c) :: es)).toList =
      '\n' :: '/' :: '*' :: ' ' :: (f.toList ++ ' ' :: '*' :: '/' :: '\n' ::
        (c.toList ++ (entriesText cssMarker "" es).toList)) := by
  simp only [entriesText, cssMarker, toList_append, List.append_assoc]
  rfl

theorem length_le_cssText (es : List (String × String)) :
    es.length ≤ (entriesText cssMarker "" es).toList.length := by
  induction es with
  | nil => exact Nat.zero_le _
  | cons e es ih =>
    obtain ⟨f, c⟩ := e
    rw [cssText_cons]
    simp only [List.length_cons, List.length_append]
    omega

/-- The split of a marked text after a piece `c₀` with no match, for names with no newline
and no ` */` and contents with no match: every entry's piece strips to its content. -/
theorem reSplitAux_cssText (es : List (String × String))
    (hes : ∀ e ∈ es, '\n' ∉ e.1.toList ∧ ¬ [' ', '*', '/'] <:+: e.1.toList ∧
      search e.2.toList = none)
    (c₀ : List Char) (h₀ : search c₀ = none) (n : Nat) (hn : es.length ≤ n) :
    stripList (reSplitAux n (c₀ ++ (entriesText cssMarker "" es).toList)).1 = stripList c₀ ∧
      (reSplitAux n (c₀ ++ (entriesText cssMarker "" es).toList)).2.map
          (fun x => (x.1, stripList x.2)) =
        es.map fun x => (x.1.toList, stripList x.2.toList) := by
  induction es generalizing c₀ n with
  | nil =>
    cases n <;> simp [reSplitAux, entriesText, h₀]
  | cons e es ih =>
    obtain ⟨f, c⟩ := e
    obtain ⟨n, rfl⟩ : ∃ m, n = m + 1 := ⟨n - 1, by simp only [List.length_cons] at hn; omega⟩
    have hf := hes (f, c) (List.mem_cons_self _ _)
    have hsearch : search (c₀ ++ (entriesText cssMarker "" ((f, c) :: es)).toList) =
        some (c₀ ++ ['\n'], f.toList, ('\n' :: c.toList) ++ (entriesText cssMarker "" es).toList) := by
      rw [cssText_cons, search_newline_append h₀, search_clean hf.1 hf.2.1]
      rfl
    have hc : search ('\n' :: c.toList) = none := by rw [search_newline, hf.2.2]; rfl
    obtain ⟨ih₁, ih₂⟩ := ih (fun e he => hes e (List.mem_cons_of_mem _ he)) _ hc n
      (by simp only [List.length_cons] at hn; omega)
    have hnl : ∀ ch ∈ ['\n'], isSpace ch = true := by decide
    simp only [reSplitAux, hsearch, List.map_cons, ih₂, ih₁]
    refine ⟨by simpa using stripList_pad (l := []) (by simp) hnl, ?_⟩
    simpa using stripList_pad (l := ['\n']) (m := c.toList) (r := []) hnl (by simp)

/-- **The plan of a marked text**: one entry per entry, in order, with its name cleaned and its
content stripped and one newline. -/
theorem unbundlePlan_entriesText {es : List (String × String)}
    (hes : ∀ e ∈ es, '\n' ∉ e.1.toList ∧ ¬ [' ', '*', '/'] <:+: e.1.toList ∧
      search e.2.toList = none) :
    unbundlePlan (entriesText cssMarker "" es) =
      es.map fun e => (cleanName e.1, strip e.2 ++ "\n") := by
  have hsplit := (reSplitAux_cssText es hes [] rfl (entriesText cssMarker "" es).length
    (length_le_cssText es)).2
  rw [List.nil_append] at hsplit
  have hmap : ∀ l : List (List Char × List Char),
      l.map (fun x => (cleanName ⟨x.1⟩, strip ⟨x.2⟩ ++ "\n")) =
        (l.map fun x => (x.1, stripList x.2)).map fun x => (cleanName ⟨x.1⟩, ⟨x.2⟩ ++ "\n") := by
    intro l
    simp [List.map_map, strip]
  unfold unbundlePlan reSplit
  rw [hmap, hsplit, List.map_map]
  rfl

/-! ## `bundle.css` -/

/-- The listed style names have no blank and no newline, and are their own cleaned names. -/
theorem cssFiles_plain :
    ∀ f ∈ cssFiles, (∀ ch ∈ f.toList, ch ≠ ' ' ∧ ch ≠ '\n') ∧ cleanName f = f := by
  decide

/-- The plan of a clean `bundle.css` text: each present source, in list order, at its listed
name, with its content stripped and one newline. -/
theorem cssPlan_clean {t : Tree} (h : ∀ f ∈ cssFiles, cleanSource t f = true) :
    unbundlePlan (cssWriter.init ++
        (bundleText t cssWriter.head cssWriter.tail cssWriter.names).1) =
      (presentTexts t cssFiles).map fun (f, c) => (f, strip c ++ "\n") := by
  show unbundlePlan ("" ++ (bundleText t cssMarker "" cssFiles).1) = _
  rw [bundleText_clean h]
  change unbundlePlan (entriesText cssMarker "" (presentTexts t cssFiles)) = _
  have hplain : ∀ e ∈ presentTexts t cssFiles,
      (∀ ch ∈ e.1.toList, ch ≠ ' ' ∧ ch ≠ '\n') ∧ cleanName e.1 = e.1 :=
    fun ⟨f, _⟩ he => cssFiles_plain f (presentTexts_clean h he).1
  rw [unbundlePlan_entriesText fun ⟨f, c⟩ he => ⟨(clean_of_plain (hplain _ he).1).1,
    (clean_of_plain (hplain _ he).1).2, (presentTexts_clean h he).2⟩]
  exact List.map_congr_left fun e he => by simp [(hplain e he).2]

/-- **`bundle.css` round-trips through `unbundle`, up to `strip()`**: for clean sources the
writer raises nothing. The plan of its text holds each present source once, in list order, at
its listed name, with its content stripped and one newline. On a `DATA_DIR` that holds the text
as `bundle.css`, with nothing in the way of the listed names, `unbundle` completes: it writes
each present source's path with that content, leaves every other file, and leaves the archive. -/
theorem css_round_trip (t : Tree) (h : ∀ f ∈ cssFiles, cleanSource t f = true) {w : World}
    (hb : w.data.get ["bundle.css"] = some (.text (cssWriter.init ++
      (bundleText t cssWriter.head cssWriter.tail cssWriter.names).1)))
    (hclear : Clear cssFiles w) :
    (bundleText t cssWriter.head cssWriter.tail cssWriter.names).2 = none ∧
      unbundlePlan (cssWriter.init ++
          (bundleText t cssWriter.head cssWriter.tail cssWriter.names).1) =
        (presentTexts t cssFiles).map (fun (f, c) => (f, strip c ++ "\n")) ∧
      ∃ w', unbundle "bundle.css" w = .ok () w' ∧ w'.src = w.src ∧
        (∀ x, (∀ f c, (f, c) ∈ presentTexts t cssFiles → x ≠ relPath f) →
          w'.data.get x = w.data.get x) ∧
        ∀ f c, (f, c) ∈ presentTexts t cssFiles →
          w'.data.get (relPath f) = some (.text (strip c ++ "\n")) := by
  refine ⟨congrArg Prod.snd (bundleText_clean h), cssPlan_clean h, ?_⟩
  obtain ⟨w', hw'⟩ := forEach_writeEntry_ok (fun f hf => (cssFiles_plainName f hf).1)
    (fun f hf => (cssFiles_plainName f hf).2) cssPlan_names hclear
  rw [unbundle_of_get hb, cssPlan_clean h]
  exact ⟨w', hw', cssPlan_writes hw'⟩

/-- The normal form of the bundle format's specification: the content with its trailing
newlines removed and one newline appended. -/
def trailingNewlineNormal (c : String) : String :=
  ⟨(c.toList.reverse.dropWhile (· = '\n')).reverse⟩ ++ "\n"

/-- One style source, indented. -/
def paddedStyle : Tree :=
  ⟨[(["css", "variables.css"], .text "  a")], [["css"]], by decide, by decide, by decide, by decide⟩

/-- `DATA_DIR` holding only the `bundle.css` written from `paddedStyle`. -/
def paddedBundle : World :=
  ⟨⟨[(["bundle.css"], .text "\n/* css/variables.css */\n  a")], [], by decide, by decide, by decide,
    by decide⟩, Tree.empty⟩

theorem css_round_trip_padded :
    ((∀ f ∈ cssFiles, cleanSource paddedStyle f = true) ∧
      paddedBundle.data.get ["bundle.css"] = some (.text (cssWriter.init ++
        (bundleText paddedStyle cssWriter.head cssWriter.tail cssWriter.names).1)) ∧
      Clear cssFiles paddedBundle) ∧
    ((bundleText paddedStyle cssWriter.head cssWriter.tail cssWriter.names).2 = none ∧
      unbundlePlan (cssWriter.init ++
          (bundleText paddedStyle cssWriter.head cssWriter.tail cssWriter.names).1) =
        (presentTexts paddedStyle cssFiles).map (fun (f, c) => (f, strip c ++ "\n")) ∧
      ∃ w', unbundle "bundle.css" paddedBundle = .ok () w' ∧ w'.src = paddedBundle.src ∧
        (∀ x, (∀ f c, (f, c) ∈ presentTexts paddedStyle cssFiles → x ≠ relPath f) →
          w'.data.get x = paddedBundle.data.get x) ∧
        ∀ f c, (f, c) ∈ presentTexts paddedStyle cssFiles →
          w'.data.get (relPath f) = some (.text (strip c ++ "\n"))) :=
  have hclean : ∀ f ∈ cssFiles, cleanSource paddedStyle f = true := by decide
  have hb : paddedBundle.data.get ["bundle.css"] = some (.text (cssWriter.init ++
      (bundleText paddedStyle cssWriter.head cssWriter.tail cssWriter.names).1)) := by decide
  have hclear : Clear cssFiles paddedBundle := by decide
  ⟨⟨hclean, hb, hclear⟩, css_round_trip paddedStyle hclean hb hclear⟩

theorem css_round_trip_refuted :
    ¬ ∀ t, (∀ f ∈ cssFiles, cleanSource t f = true) →
      unbundlePlan (cssWriter.init ++ (bundleText t cssWriter.head cssWriter.tail cssWriter.names).1) =
        (presentTexts t cssFiles).map fun (f, c) => (f, trailingNewlineNormal c) := by
  intro h
  have := h paddedStyle (by decide)
  revert this
  decide

/-! ## `bundle.js` -/

theorem jsText_cons (f c : String) (es : List (String × String)) :
    (entriesText (fun f => jsMarker f ++ ";") "\n" ((f, c) :: es)).toList =
      '\n' :: (("// --- " ++ f ++ " ---").toList ++ '\n' ::
        ((';' :: c.toList) ++ '\n' :: (entriesText (fun f => jsMarker f ++ ";") "\n" es).toList)) := by
  simp only [entriesText, jsMarker, toList_append, List.append_assoc]
  rfl

/-- A script text has no match when no marker line and no content has one. -/
theorem search_jsText (es : List (String × String))
    (hes : ∀ e ∈ es, search ("// --- " ++ e.1 ++ " ---").toList = none ∧ search e.2.toList = none) :
    search (entriesText (fun f => jsMarker f ++ ";") "\n" es).toList = none := by
  induction es with
  | nil => rfl
  | cons e es ih =>
    obtain ⟨f, c⟩ := e
    have he := hes (f, c) (List.mem_cons_self _ _)
    have hsemi : search (';' :: c.toList) = none := by
      simp only [search, matchAt, List.isPrefixOf, beq_iff_eq, Char.reduceEq, false_and,
        Bool.false_eq_true, if_false]
      rw [show search c.toList = none from he.2]
      rfl
    rw [jsText_cons, search_newline, search_newline_append he.1, search_newline_append hsemi,
      ih fun e h => hes e (List.mem_cons_of_mem _ h)]
    rfl

theorem reSplitAux_of_search {l : List Char} (h : search l = none) (n : Nat) :
    (reSplitAux n l).2 = [] := by
  cases n <;> simp [reSplitAux, h]

theorem jsFiles_marker : ∀ f ∈ jsFiles, search ("// --- " ++ f ++ " ---").toList = none := by
  decide

/-- The plan of a clean `bundle.js` text is empty: the text has no match. -/
theorem jsPlan_clean {t : Tree} (h : ∀ f ∈ jsFiles, cleanSource t f = true) :
    unbundlePlan (jsWriter.init ++
      (bundleText t jsWriter.head jsWriter.tail jsWriter.names).1) = [] := by
  show unbundlePlan ("\x27use strict\x27;\n" ++
    (bundleText t (fun f => jsMarker f ++ ";") "\n" jsFiles).1) = []
  rw [bundleText_clean h]
  have hes : ∀ e ∈ presentTexts t jsFiles,
      search ("// --- " ++ e.1 ++ " ---").toList = none ∧ search e.2.toList = none :=
    fun ⟨f, c⟩ he => ⟨jsFiles_marker f (presentTexts_clean h he).1, (presentTexts_clean h he).2⟩
  have hs : search ("\x27use strict\x27;\n" ++
      entriesText (fun f => jsMarker f ++ ";") "\n" (presentTexts t jsFiles)).toList = none := by
    rw [toList_append, show ("\x27use strict\x27;\n" : String).toList =
      ("\x27use strict\x27;" : String).toList ++ ['\n'] by decide, List.append_assoc,
      List.singleton_append, search_newline_append (by decide), search_jsText _ hes]
    rfl
  unfold unbundlePlan reSplit
  rw [reSplitAux_of_search hs]
  rfl

end AssetPipeline
