import AssetPipeline.Run

/-!
# The dashboard repair: `fix_dashboard.py`

Model of `fix_dashboard.py`, which reads `DATA_DIR\pages\dashboard\dashboard.js`, searches it
for a broken VFD block with the pattern
`\s+// VFD status\s+// VFD status \(Spindle\)\s+if \(state\.vfd\) \{.*?// Network status`
under `re.DOTALL`, and when there is one writes back `re.sub` of the same pattern.

* The pattern is matched over characters (`vfdMatch`). `\s` is Python's Unicode whitespace, the
  set `str.strip()` removes (`isSpace`). Each `\s+` is followed by a literal that starts with no
  blank, so the greedy run is taken whole and backtracking never shortens it (`blanks`); the
  lazy `.*?` stops at the first `// Network status` (`lazyUntil`).
* `re.sub` scans from the left: a match is replaced by
  `"\n" + clean_block + "\n        // Network status"` and the scan goes on after it; any other
  character is kept (`vfdSubAux`). The replacement holds no backslash, so `re.sub` inserts it as
  it is.
* The script reads the page as text and writes only when `re.search` finds a match
  (`fixDashboard`); otherwise it prints a snippet, which is not modelled.

Results:
* `vfdMatch_eq_some`: the matcher returns the shortest prefix of the text in the pattern's
  language (`InPattern`), which is the match Python's backtracking engine returns. A match reads
  nothing past its end (`vfdMatch_append`).
* `vfdSubAux_append_of_noMatch`, `vfdSubAux_of_match`: `re.sub` keeps the text before the
  leftmost match, puts the clean block in its place and goes on after it; with no match it
  returns the text (`vfdSubAux_of_search_false`).
* `vfdSubAux_ne`: no match starts where the clean block is put, so a page with a match is always
  changed.
* `fixDashboard_reruns`: the script is not idempotent. When the first broken block follows one
  more `// VFD status` line, the first run leaves that line right before the clean block, and
  the two match again: a second run rewrites the page.
-/

namespace AssetPipeline

/-- `path` (`fix_dashboard.py:3`), below `DATA_DIR`. -/
def dashboardPath : Path := ["pages", "dashboard", "dashboard.js"]

/-- `clean_block` (`fix_dashboard.py:12-42`), line by line. -/
def cleanLines : List String := [
    "        // VFD status (Spindle)",
    "        if (state.vfd) \x7b",
    "            const vfdStatusEl = document.getElementById(\x27vfd-status\x27);",
    "            const vfdRpmEl = document.getElementById(\x27spindle-rpm\x27);",
    "            const vfdSpeedEl = document.getElementById(\x27spindle-speed\x27);",
    "            const vfdCurrentEl = document.getElementById(\x27spindle-current\x27);",
    "",
    "            if (state.vfd.connected) \x7b",
    "                const motorStatus = (state.vfd.rpm > 0) ? \x27RUNNING\x27 : \x27IDLE\x27;",
    "                if (vfdStatusEl) vfdStatusEl.textContent = motorStatus;",
    "",
    "                if (vfdRpmEl) vfdRpmEl.textContent = (state.vfd.rpm || 0).toFixed(0);",
    "                if (vfdSpeedEl) vfdSpeedEl.textContent = (state.vfd.speed_m_s || 0).toFixed(1) + \x27 m/s\x27;",
    "                if (vfdCurrentEl) vfdCurrentEl.textContent = (state.vfd.current_amps || 0).toFixed(2) + \x27 A\x27;",
    "",
    "                const bar = document.getElementById(\x27spindle-bar\x27);",
    "                if (bar) \x7b",
    "                    const pct = Math.min(100, ((state.vfd.current_amps || 0) / 30.0) * 100);",
    "                    bar.style.width = pct + \x27%\x27;",
    "                \x7d",
    "            \x7d else \x7b",
    "                if (vfdStatusEl) vfdStatusEl.textContent = \x27DISCONNECTED\x27;",
    "                if (vfdRpmEl) vfdRpmEl.textContent = \x27N/A\x27;",
    "                if (vfdSpeedEl) vfdSpeedEl.textContent = \x27N/A m/s\x27;",
    "                if (vfdCurrentEl) vfdCurrentEl.textContent = \x27N/A A\x27;",
    "",
    "                const bar = document.getElementById(\x27spindle-bar\x27);",
    "                if (bar) bar.style.width = \x270%\x27;",
    "            \x7d",
    "        \x7d"]

/-- `clean_block`, with its final newline. -/
def cleanBlock : String := String.intercalate "\n" cleanLines ++ "\n"

/-- The replacement `"\n" + clean_block + "\n        // Network status"` (`fix_dashboard.py:56`). -/
def vfdReplacement : String := "\n" ++ cleanBlock ++ "\n        // Network status"

/-! ## The pattern -/

/-- The literals of the pattern, in order. -/
def vfdStatus : String := "// VFD status"

def vfdSpindle : String := "// VFD status (Spindle)"

def vfdIf : String := "if (state.vfd) \x7b"

def networkStatus : String := "// Network status"

/-- `\s+` before a literal that starts with no blank: the whole run of blanks, at least one. A
shorter run would leave a blank where the literal must start. -/
def blanks : List Char → Option (List Char)
  | [] => none
  | c :: cs => if isSpace c then some (cs.dropWhile isSpace) else none

/-- A literal of the pattern. -/
def literal (s : String) (l : List Char) : Option (List Char) :=
  if s.toList.isPrefixOf l then some (l.drop s.length) else none

/-- `.*?` and then the literal `s`, under `re.DOTALL`: the lazy star tries the shortest run
first, so the match ends at the first `s`. -/
def lazyUntil (s : String) : List Char → Option (List Char)
  | [] => literal s []
  | c :: cs =>
    match literal s (c :: cs) with
    | some r => some r
    | none => lazyUntil s cs

/-- `pattern` (`fix_dashboard.py:49`) tried at the start of a text: what follows the match. -/
def vfdMatch (l : List Char) : Option (List Char) := do
  let l ← blanks l
  let l ← literal vfdStatus l
  let l ← blanks l
  let l ← literal vfdSpindle l
  let l ← blanks l
  let l ← literal vfdIf l
  lazyUntil networkStatus l

/-- `re.search(pattern, content, re.DOTALL)`: some position starts a match. -/
def vfdSearch (l : List Char) : Bool := l.tails.any fun t => (vfdMatch t).isSome

/-- `re.sub(pattern, repl, content, flags=re.DOTALL)` over the characters: from the left, a match
is replaced and the scan goes on after it, any other character is kept. `fuel` bounds the
characters visited. -/
def vfdSubAux (repl : List Char) : Nat → List Char → List Char
  | 0, l => l
  | _ + 1, [] => []
  | n + 1, c :: cs =>
    match vfdMatch (c :: cs) with
    | some r => repl ++ vfdSubAux repl n r
    | none => c :: vfdSubAux repl n cs

/-- `new_content` (`fix_dashboard.py:56`). -/
def vfdSub (content : String) : String :=
  ⟨vfdSubAux vfdReplacement.toList content.length content.toList⟩

/-- The script (`fix_dashboard.py:5-60`): the page is written back only when the pattern is
found. -/
def fixDashboard : Script Unit := do
  let b ← readFile .data dashboardPath
  let content ← decodeText .data dashboardPath b
  if vfdSearch content.toList then
    writeFile .data dashboardPath (.text (vfdSub content))

/-! ## What the pattern matches -/

/-- A run of blanks: what one `\s+` matches. -/
def Blanks (b : List Char) : Prop := b ≠ [] ∧ ∀ c ∈ b, isSpace c = true

/-- A text of the pattern's language: blanks, `// VFD status`, blanks, `// VFD status (Spindle)`,
blanks, `if (state.vfd) {`, any text, `// Network status`. -/
def InPattern (m : List Char) : Prop :=
  ∃ b₁ b₂ b₃ mid, Blanks b₁ ∧ Blanks b₂ ∧ Blanks b₃ ∧
    m = b₁ ++ vfdStatus.toList ++ b₂ ++ vfdSpindle.toList ++ b₃ ++ vfdIf.toList ++ mid ++
      networkStatus.toList

theorem literal_eq_some {s : String} {l r : List Char} : literal s l = some r ↔ l = s.toList ++ r := by
  unfold literal
  split
  · rename_i h
    obtain ⟨t, rfl⟩ := List.isPrefixOf_iff_prefix.mp h
    rw [Option.some.injEq, show s.length = s.toList.length from rfl, List.drop_left]
    exact ⟨fun h => h ▸ rfl, List.append_cancel_left⟩
  · rename_i h
    constructor
    · intro h'
      cases h'
    · intro hl
      exact absurd (List.isPrefixOf_iff_prefix.mpr ⟨r, hl.symm⟩) h

/-- Blanks followed by a text that starts with no blank are dropped whole. -/
theorem dropWhile_blanks {b x : List Char} (hb : ∀ c ∈ b, isSpace c = true)
    (hx : ∀ c ∈ x.head?, isSpace c = false) : (b ++ x).dropWhile isSpace = x := by
  induction b with
  | nil =>
    cases x with
    | nil => rfl
    | cons c cs => exact List.dropWhile_cons_of_neg (by simpa using hx c rfl)
  | cons c b ih =>
    rw [List.cons_append, List.dropWhile_cons_of_pos (hb c (List.mem_cons_self _ _))]
    exact ih fun c hc => hb c (List.mem_cons_of_mem _ hc)

theorem blanks_eq_some {l r : List Char} :
    blanks l = some r ↔ ∃ b, Blanks b ∧ l = b ++ r ∧ ∀ c ∈ r.head?, isSpace c = false := by
  constructor
  · intro h
    cases l with
    | nil => cases h
    | cons c cs =>
      simp only [blanks] at h
      split at h
      · rename_i hc
        cases h
        refine ⟨c :: cs.takeWhile isSpace, ⟨List.cons_ne_nil _ _, fun x hx => ?_⟩,
          by rw [List.cons_append, List.takeWhile_append_dropWhile], fun x hx => ?_⟩
        · rcases List.mem_cons.mp hx with rfl | hx
          exacts [hc, List.mem_takeWhile_imp hx]
        · obtain ⟨hne, rfl⟩ : ∃ h, (cs.dropWhile isSpace).head h = x := by
            cases hd : cs.dropWhile isSpace <;> simp_all
          exact List.head_dropWhile_not _ _ hne
      · cases h
  · rintro ⟨_ | ⟨c, b⟩, ⟨hne, hb⟩, rfl, hr⟩
    · exact absurd rfl hne
    · rw [List.cons_append, blanks, if_pos (hb c (List.mem_cons_self _ _)),
        dropWhile_blanks (fun x hx => hb x (List.mem_cons_of_mem _ hx)) hr]

/-- A run of blanks is taken whole, so where the text after it starts is forced. -/
theorem blanks_append {b x : List Char} (hb : Blanks b) (hx : ∀ c ∈ x.head?, isSpace c = false) :
    blanks (b ++ x) = some x :=
  blanks_eq_some.mpr ⟨b, hb, rfl, hx⟩

/-- **The lazy star ends at the first occurrence**: what follows the shortest run before `s`. -/
theorem lazyUntil_eq_some {s : String} {l r : List Char} :
    lazyUntil s l = some r ↔ ∃ mid, l = mid ++ s.toList ++ r ∧
      ∀ mid' r', l = mid' ++ s.toList ++ r' → mid.length ≤ mid'.length := by
  induction l with
  | nil =>
    rw [lazyUntil, literal_eq_some]
    constructor
    · intro h
      exact ⟨[], h, fun _ _ _ => Nat.zero_le _⟩
    · rintro ⟨mid, h, -⟩
      obtain ⟨h₁, rfl⟩ := List.append_eq_nil.mp h.symm
      obtain ⟨-, h₂⟩ := List.append_eq_nil.mp h₁
      rw [h₂]
      rfl
  | cons c cs ih =>
    rw [lazyUntil]
    split
    · rename_i r₀ h₀
      rw [literal_eq_some] at h₀
      rw [Option.some.injEq]
      constructor
      · rintro rfl
        exact ⟨[], h₀, fun _ _ _ => Nat.zero_le _⟩
      · rintro ⟨mid, h, hmin⟩
        obtain rfl : mid = [] := List.eq_nil_of_length_eq_zero
          (Nat.le_zero.mp (hmin [] r₀ h₀))
        exact List.append_cancel_left (h₀.symm.trans h)
    · rename_i h₀
      rw [ih]
      constructor
      · rintro ⟨mid, rfl, hmin⟩
        refine ⟨c :: mid, rfl, fun mid' r' h => ?_⟩
        cases mid' with
        | nil => exact Option.noConfusion (h₀.symm.trans ((literal_eq_some (s := s)).mpr h))
        | cons c' mid' =>
          simp only [List.cons_append, List.cons.injEq] at h
          simpa using hmin mid' r' h.2
      · rintro ⟨_ | ⟨c', mid⟩, h, hmin⟩
        · exact Option.noConfusion (h₀.symm.trans ((literal_eq_some (s := s)).mpr h))
        · simp only [List.cons_append, List.cons.injEq] at h
          obtain ⟨rfl, rfl⟩ := h
          refine ⟨mid, rfl, fun mid' r' h => ?_⟩
          have := hmin (c :: mid') r' (by rw [h]; rfl)
          simpa using this

/-- The three literals after a `\s+` start with no blank. -/
theorem head_literal {s : String} (hs : s ∈ [vfdStatus, vfdSpindle, vfdIf]) (y : List Char) :
    ∀ c ∈ (s.toList ++ y).head?, isSpace c = false := by
  have hne : ∀ s ∈ [vfdStatus, vfdSpindle, vfdIf], s.toList ≠ [] := by decide
  have hhead : ∀ s ∈ [vfdStatus, vfdSpindle, vfdIf], ∀ c ∈ s.toList.head?, isSpace c = false := by
    decide
  rw [List.head?_append_of_ne_nil _ (hne s hs)]
  exact hhead s hs

/-- Blanks, then a literal, then the rest: the literal and what follows are where the text after
the run starts. -/
theorem blanks_literal {b b' y y' : List Char} {s : String} (hb : Blanks b) (hb' : Blanks b')
    (hs : s ∈ [vfdStatus, vfdSpindle, vfdIf]) (h : b ++ (s.toList ++ y) = b' ++ (s.toList ++ y')) :
    y = y' := by
  have e := congrArg blanks h
  rw [blanks_append hb (head_literal hs y), blanks_append hb' (head_literal hs y')] at e
  exact List.append_cancel_left (Option.some.inj e)

/-- **The head of a match is forced**: two texts of the pattern's language at the same place
agree up to `if (state.vfd) {`. -/
theorem header_forced {b₁ b₂ b₃ b₁' b₂' b₃' x x' : List Char} (hb₁ : Blanks b₁) (hb₂ : Blanks b₂)
    (hb₃ : Blanks b₃) (hb₁' : Blanks b₁') (hb₂' : Blanks b₂') (hb₃' : Blanks b₃')
    (h : b₁ ++ (vfdStatus.toList ++ (b₂ ++ (vfdSpindle.toList ++ (b₃ ++ (vfdIf.toList ++ x))))) =
      b₁' ++ (vfdStatus.toList ++ (b₂' ++ (vfdSpindle.toList ++ (b₃' ++ (vfdIf.toList ++ x')))))) :
    x = x' :=
  blanks_literal hb₃ hb₃' (by simp)
    (blanks_literal hb₂ hb₂' (by simp) (blanks_literal hb₁ hb₁' (by simp) h))

/-- **The matcher is the pattern's meaning**: it succeeds exactly when a prefix of the text is in
the pattern's language, and it stops after the shortest such prefix. -/
theorem vfdMatch_eq_some {l r : List Char} :
    vfdMatch l = some r ↔ ∃ m, l = m ++ r ∧ InPattern m ∧
      ∀ m' r', l = m' ++ r' → InPattern m' → m.length ≤ m'.length := by
  constructor
  · intro h
    simp only [vfdMatch, Option.bind_eq_bind, Option.bind_eq_some] at h
    obtain ⟨x₁, h₁, y₁, h₂, x₂, h₃, y₂, h₄, x₃, h₅, y₃, h₆, h₇⟩ := h
    obtain ⟨b₁, hb₁, rfl, -⟩ := blanks_eq_some.mp h₁
    obtain rfl := literal_eq_some.mp h₂
    obtain ⟨b₂, hb₂, rfl, -⟩ := blanks_eq_some.mp h₃
    obtain rfl := literal_eq_some.mp h₄
    obtain ⟨b₃, hb₃, rfl, -⟩ := blanks_eq_some.mp h₅
    obtain rfl := literal_eq_some.mp h₆
    obtain ⟨mid, rfl, hmin⟩ := lazyUntil_eq_some.mp h₇
    refine ⟨b₁ ++ vfdStatus.toList ++ b₂ ++ vfdSpindle.toList ++ b₃ ++ vfdIf.toList ++ mid ++
      networkStatus.toList, by simp, ⟨b₁, b₂, b₃, mid, hb₁, hb₂, hb₃, rfl⟩, ?_⟩
    rintro m' r' hl ⟨b₁', b₂', b₃', mid', hb₁', hb₂', hb₃', rfl⟩
    have hx := header_forced hb₁ hb₂ hb₃ hb₁' hb₂' hb₃' (by simpa using hl)
    have hlen := congrArg List.length hl
    have hlen' := congrArg List.length hx
    have := hmin mid' r' (by simpa using hx)
    simp only [List.length_append] at hlen hlen' ⊢
    omega
  · rintro ⟨m, rfl, ⟨b₁, b₂, b₃, mid, hb₁, hb₂, hb₃, rfl⟩, hmin⟩
    have hlazy : lazyUntil networkStatus (mid ++ networkStatus.toList ++ r) = some r := by
      refine lazyUntil_eq_some.mpr ⟨mid, rfl, fun mid' r' h => ?_⟩
      have := hmin (b₁ ++ vfdStatus.toList ++ b₂ ++ vfdSpindle.toList ++ b₃ ++ vfdIf.toList ++
        mid' ++ networkStatus.toList) r' (by simpa using h) ⟨b₁, b₂, b₃, mid', hb₁, hb₂, hb₃, rfl⟩
      simp only [List.length_append] at this
      omega
    simp only [List.append_assoc] at hlazy ⊢
    simp only [vfdMatch, Option.bind_eq_bind,
      blanks_append hb₁ (head_literal (s := vfdStatus) (by simp) _), Option.some_bind,
      literal_eq_some.mpr rfl, blanks_append hb₂ (head_literal (s := vfdSpindle) (by simp) _),
      blanks_append hb₃ (head_literal (s := vfdIf) (by simp) _), hlazy]

/-! ## A match does not look past its end -/

/-- **A match depends on the text up to its end only.** -/
theorem vfdMatch_append {a r : List Char} (h : vfdMatch a = some r) (z : List Char) :
    vfdMatch (a ++ z) = some (r ++ z) := by
  obtain ⟨m, rfl, hm, hmin⟩ := vfdMatch_eq_some.mp h
  refine vfdMatch_eq_some.mpr ⟨m, by simp, hm, fun m' r' he hm' => ?_⟩
  by_contra hlt
  obtain ⟨r'', hr''⟩ : m' <+: m ++ r :=
    List.prefix_of_prefix_length_le ⟨r', he.symm⟩ ⟨z, rfl⟩ (by simp only [List.length_append]; omega)
  exact hlt (hmin m' r'' hr''.symm hm')

theorem vfdMatch_length {l r : List Char} (h : vfdMatch l = some r) : r.length < l.length := by
  obtain ⟨m, rfl, ⟨b₁, -, -, -, ⟨hne, -⟩, -, -, rfl⟩, -⟩ := vfdMatch_eq_some.mp h
  have := List.length_pos.mpr hne
  simp only [List.length_append]
  omega

/-! ## `re.sub` -/

theorem vfdSubAux_nil (repl : List Char) : ∀ n, vfdSubAux repl n [] = []
  | 0 => rfl
  | _ + 1 => rfl

theorem vfdSubAux_succ_cons (repl : List Char) (n : Nat) (c : Char) (cs : List Char) :
    vfdSubAux repl (n + 1) (c :: cs) = match vfdMatch (c :: cs) with
      | some r => repl ++ vfdSubAux repl n r
      | none => c :: vfdSubAux repl n cs := rfl

/-- Fuel past the text's length changes nothing. -/
theorem vfdSubAux_fuel (repl : List Char) {n k : Nat} {l : List Char} (hn : l.length ≤ n)
    (hk : l.length ≤ k) : vfdSubAux repl n l = vfdSubAux repl k l := by
  induction n generalizing l k with
  | zero => rw [List.eq_nil_of_length_eq_zero (Nat.le_zero.mp hn), vfdSubAux_nil, vfdSubAux_nil]
  | succ n ih =>
    cases l with
    | nil => rw [vfdSubAux_nil, vfdSubAux_nil]
    | cons c cs =>
      cases k with
      | zero => simp at hk
      | succ k =>
        simp only [List.length_cons, Nat.add_le_add_iff_right] at hn hk
        cases h : vfdMatch (c :: cs) with
        | none => rw [vfdSubAux_succ_cons, vfdSubAux_succ_cons, h, ih hn hk]
        | some r =>
          have hr := vfdMatch_length h
          simp only [List.length_cons] at hr
          rw [vfdSubAux_succ_cons, vfdSubAux_succ_cons, h]
          exact congrArg (repl ++ ·) (ih (by omega) (by omega))

theorem vfdSubAux_cons_of_none (repl : List Char) {c : Char} {cs : List Char}
    (h : vfdMatch (c :: cs) = none) :
    vfdSubAux repl (c :: cs).length (c :: cs) = c :: vfdSubAux repl cs.length cs := by
  rw [List.length_cons, vfdSubAux_succ_cons, h]

/-- A match is replaced, and the scan goes on after it. -/
theorem vfdSubAux_of_match (repl : List Char) {l r : List Char} (h : vfdMatch l = some r) :
    vfdSubAux repl l.length l = repl ++ vfdSubAux repl r.length r := by
  have hr := vfdMatch_length h
  cases l with
  | nil => simp at hr
  | cons c cs =>
    simp only [List.length_cons] at hr ⊢
    rw [vfdSubAux_succ_cons, h]
    exact congrArg (repl ++ ·) (vfdSubAux_fuel repl (Nat.le_of_lt_succ hr) le_rfl)

/-- No match starts inside `p` when `t` follows it. -/
def NoMatchIn (p t : List Char) : Prop := ∀ v ∈ p.tails, v ≠ [] → vfdMatch (v ++ t) = none

instance (p t : List Char) : Decidable (NoMatchIn p t) :=
  inferInstanceAs (Decidable (∀ v ∈ p.tails, v ≠ [] → vfdMatch (v ++ t) = none))

theorem noMatchIn_nil (t : List Char) : NoMatchIn [] t := fun _ hv hne =>
  absurd (List.mem_singleton.mp hv) hne

/-- `re.sub` passes over a text in which no match starts. -/
theorem vfdSubAux_append_of_noMatch (repl : List Char) {p t : List Char} (hp : NoMatchIn p t) :
    vfdSubAux repl (p ++ t).length (p ++ t) = p ++ vfdSubAux repl t.length t := by
  induction p with
  | nil => rfl
  | cons c p ih =>
    have h₀ : vfdMatch (c :: (p ++ t)) = none := hp _ (List.mem_cons_self _ _) (List.cons_ne_nil _ _)
    rw [List.cons_append, vfdSubAux_cons_of_none repl h₀,
      ih fun v hv => hp v (List.mem_cons_of_mem _ hv), List.cons_append]

theorem vfdSearch_cons (c : Char) (cs : List Char) :
    vfdSearch (c :: cs) = ((vfdMatch (c :: cs)).isSome || vfdSearch cs) := rfl

theorem vfdSearch_of_isSome {a b : List Char} (h : (vfdMatch b).isSome = true) :
    vfdSearch (a ++ b) = true :=
  List.any_eq_true.mpr ⟨b, (List.mem_tails _ _).mpr (List.suffix_append a b), h⟩

/-- With no match anywhere, `re.sub` returns the text. -/
theorem vfdSubAux_of_search_false (repl : List Char) {l : List Char} (h : vfdSearch l = false) :
    vfdSubAux repl l.length l = l := by
  induction l with
  | nil => exact vfdSubAux_nil repl 0
  | cons c cs ih =>
    rw [vfdSearch_cons, Bool.or_eq_false_iff] at h
    rw [vfdSubAux_cons_of_none repl (Option.not_isSome_iff_eq_none.mp (ne_true_of_eq_false h.1)),
      ih h.2]

/-- The leftmost match: where `re.search` stops. -/
theorem exists_first_match {l : List Char} (h : vfdSearch l = true) :
    ∃ p t r, l = p ++ t ∧ NoMatchIn p t ∧ vfdMatch t = some r := by
  induction l with
  | nil => cases h
  | cons c cs ih =>
    cases hm : vfdMatch (c :: cs) with
    | some r => exact ⟨[], c :: cs, r, rfl, noMatchIn_nil _, hm⟩
    | none =>
      rw [vfdSearch_cons, hm, Option.isSome_none, Bool.false_or] at h
      obtain ⟨p, t, r, rfl, hp, ht⟩ := ih h
      refine ⟨c :: p, t, r, rfl, fun v hv hne => ?_, ht⟩
      rcases List.mem_cons.mp hv with rfl | hv
      exacts [hm, hp v hv hne]

/-- `vfdSub` on the characters. -/
theorem vfdSub_toList (s : String) :
    (vfdSub s).toList = vfdSubAux vfdReplacement.toList s.toList.length s.toList := rfl

/-! ## The replacement -/

/-- The replacement opens with blanks and `// VFD status (Spindle)`, read by the pattern as
`// VFD status`, a blank, and `(Spindle)`, where `// VFD status (Spindle)` should be. -/
theorem vfdMatch_replacement (z : List Char) : vfdMatch (vfdReplacement.toList ++ z) = none := by
  have hR : vfdReplacement.toList = "\n        ".toList ++ (vfdStatus.toList ++
      ([' '] ++ ("(Spindle)".toList ++ vfdReplacement.toList.drop 32))) := rfl
  have hparen : ∀ y, ("(Spindle)".toList ++ y).head? = some '(' := fun y =>
    List.head?_append_of_ne_nil _ (by decide)
  have h₁ : ∀ y, blanks ("\n        ".toList ++ (vfdStatus.toList ++ y)) = some (vfdStatus.toList ++ y) :=
    fun y => blanks_append ⟨by decide, by decide⟩ (head_literal (s := vfdStatus) (by simp) _)
  have h₂ : ∀ y, blanks ([' '] ++ ("(Spindle)".toList ++ y)) = some ("(Spindle)".toList ++ y) :=
    fun y => blanks_append ⟨by decide, by decide⟩ (by rw [hparen]; decide)
  have h₃ : ∀ y, literal vfdSpindle ("(Spindle)".toList ++ y) = none := fun y => by
    cases h : literal vfdSpindle ("(Spindle)".toList ++ y) with
    | none => rfl
    | some r =>
      have := congrArg List.head? (literal_eq_some.mp h)
      rw [hparen, List.head?_append_of_ne_nil _ (by decide)] at this
      exact absurd this (by decide)
  rw [hR]
  simp only [List.append_assoc, vfdMatch, Option.bind_eq_bind, h₁, Option.some_bind,
    literal_eq_some.mpr rfl, h₂, h₃, Option.none_bind]

/-- `.*?` finds an end wherever `s` occurs. -/
theorem lazyUntil_isSome (s : String) (mid z : List Char) :
    (lazyUntil s (mid ++ s.toList ++ z)).isSome = true := by
  induction mid with
  | nil =>
    have h : literal s (s.toList ++ z) = some z := literal_eq_some.mpr rfl
    cases hl : s.toList ++ z with
    | nil => rw [List.nil_append, hl, lazyUntil, ← hl, h]; rfl
    | cons c cs => rw [List.nil_append, hl, lazyUntil, ← hl, h]; rfl
  | cons c mid ih =>
    rw [List.cons_append, List.cons_append, lazyUntil]
    split
    · rfl
    · exact ih

/-- A text of the pattern's language is found, whatever follows it. -/
theorem vfdMatch_isSome {m : List Char} (hm : InPattern m) (z : List Char) :
    (vfdMatch (m ++ z)).isSome = true := by
  obtain ⟨b₁, b₂, b₃, mid, hb₁, hb₂, hb₃, rfl⟩ := hm
  have := lazyUntil_isSome networkStatus mid z
  simp only [List.append_assoc] at this ⊢
  simpa only [vfdMatch, Option.bind_eq_bind,
    blanks_append hb₁ (head_literal (s := vfdStatus) (by simp) _), Option.some_bind,
    literal_eq_some.mpr rfl, blanks_append hb₂ (head_literal (s := vfdSpindle) (by simp) _),
    blanks_append hb₃ (head_literal (s := vfdIf) (by simp) _)] using this

/-- A kept `// VFD status` line right before the replacement: the pattern reads it, the blanks
and the `(Spindle)` and `if` lines that open the replacement, and the `// Network status` that
closes it. -/
theorem vfdMatch_before_replacement {b : List Char} (hb : Blanks b) (z : List Char) :
    (vfdMatch (b ++ vfdStatus.toList ++ vfdReplacement.toList ++ z)).isSome = true := by
  have hc : cleanBlock.toList = "        ".toList ++ (vfdSpindle.toList ++ ("\n        ".toList ++
      (vfdIf.toList ++ cleanBlock.toList.drop 56))) := rfl
  have hn : "\n        // Network status".toList = "\n        ".toList ++ networkStatus.toList := rfl
  have hsp : Blanks "\n        ".toList := ⟨by decide, by decide⟩
  rw [vfdReplacement, toList_append, toList_append, hn, hc]
  simpa only [List.append_assoc] using
    vfdMatch_isSome ⟨b, _, _, cleanBlock.toList.drop 56 ++ "\n        ".toList, hb, hsp, hsp, rfl⟩ z

/-- A text with a match is changed by `re.sub`: no match starts where the replacement is put. -/
theorem vfdSubAux_ne {l : List Char} (h : vfdSearch l = true) :
    vfdSubAux vfdReplacement.toList l.length l ≠ l := by
  obtain ⟨p, t, r, rfl, hp, ht⟩ := exists_first_match h
  rw [vfdSubAux_append_of_noMatch _ hp, vfdSubAux_of_match _ ht]
  intro he
  have hm := vfdMatch_replacement (vfdSubAux vfdReplacement.toList r.length r)
  rw [List.append_cancel_left he, ht] at hm
  cases hm

/-- A broken block as `fix_dashboard.py` describes it: the doubled header, left-over text, then
`// Network status`. -/
def brokenVfdBlock : String :=
  "\n        // VFD status\n        // VFD status (Spindle)\n        if (state.vfd) \x7b old \x7d\n        // Network status"

/-! ## The script -/

/-- The page `fix_dashboard` leaves, completed or not, when it found the page as text: the
result of `re.sub` if the pattern is found, the page as it was otherwise. -/
theorem fixDashboard_get {w : World} {s : String} (h : w.data.get dashboardPath = some (.text s)) :
    (after fixDashboard w).data.get dashboardPath =
      some (.text (if vfdSearch s.toList then vfdSub s else s)) := by
  have hm : dashboardPath ∈ w.data.paths := Tree.mem_paths.mpr (by simp [h])
  unfold fixDashboard
  rw [after_readFile_bind, show (w.tree .data).get dashboardPath = some (.text s) from h]
  dsimp only
  rw [after_decodeText_bind]
  dsimp only [Blob.decode]
  split
  · rw [after_writeFile, dif_pos ⟨w.data.file_parent _ hm, w.data.file_not_dir _ hm⟩]
    simp
  · exact h

/-- `fix_dashboard` writes only the page, whether it completes or not. -/
theorem fixDashboard_writes (w : World) : WritesOnly (· = dashboardPath) w (after fixDashboard w) := by
  unfold fixDashboard
  refine Keeps.bind (Keeps.readFile _ _) (fun b => Keeps.bind (Keeps.decodeText _ _ b)
    fun s => ?_) w (WritesOnly.refl _ w)
  exact Keeps.ite (WritesOnly.keeps_writeFile (W := (· = dashboardPath)) rfl _) (Keeps.pure _)

/-- **A second run rewrites the page again** when the first broken block follows a kept
`// VFD status` line: the first run puts the clean block right after that line, and the line,
the blanks and the two header lines that open the clean block match the pattern once more. -/
theorem fixDashboard_reruns {w : World} {t b m r : List Char}
    (hw : w.data.get dashboardPath = some (.text ⟨t ++ b ++ vfdStatus.toList ++ m⟩))
    (hb : Blanks b) (hp : NoMatchIn (t ++ b ++ vfdStatus.toList) m) (hm : vfdMatch m = some r) :
    (after fixDashboard (after fixDashboard w)).data.get dashboardPath ≠
      (after fixDashboard w).data.get dashboardPath := by
  have hs : vfdSearch (String.mk (t ++ b ++ vfdStatus.toList ++ m)).toList = true :=
    vfdSearch_of_isSome (by rw [hm]; rfl)
  have h₁ := fixDashboard_get hw
  rw [if_pos hs] at h₁
  have hfix : (vfdSub ⟨t ++ b ++ vfdStatus.toList ++ m⟩).toList =
      t ++ (b ++ vfdStatus.toList ++ vfdReplacement.toList ++ (vfdSub ⟨r⟩).toList) := by
    show vfdSubAux _ (_ ++ m).length (_ ++ m) = _
    rw [vfdSubAux_append_of_noMatch _ hp, vfdSubAux_of_match _ hm]
    simp only [List.append_assoc]
    rfl
  have hs' : vfdSearch (vfdSub ⟨t ++ b ++ vfdStatus.toList ++ m⟩).toList = true := by
    rw [hfix]
    exact vfdSearch_of_isSome (vfdMatch_before_replacement hb _)
  rw [fixDashboard_get h₁, if_pos hs', h₁]
  intro he
  exact vfdSubAux_ne hs' (congrArg String.toList (Blob.text.inj (Option.some.inj he)))

/-- A page whose broken block follows one more `// VFD status` line. -/
def repeatedHeaderWorld : World :=
  ⟨⟨[(dashboardPath, .text ⟨"\n        ".toList ++ vfdStatus.toList ++ brokenVfdBlock.toList⟩)],
    [["pages"], ["pages", "dashboard"]], by decide, by decide, by decide, by decide⟩, Tree.empty⟩

theorem fixDashboard_reruns_repeated :
    Blanks "\n        ".toList ∧ NoMatchIn ([] ++ "\n        ".toList ++ vfdStatus.toList) brokenVfdBlock.toList ∧
      vfdMatch brokenVfdBlock.toList = some [] ∧
      (after fixDashboard (after fixDashboard repeatedHeaderWorld)).data.get dashboardPath ≠
        (after fixDashboard repeatedHeaderWorld).data.get dashboardPath :=
  have hb : Blanks "\n        ".toList := ⟨by decide, by decide⟩
  have hp : NoMatchIn ([] ++ "\n        ".toList ++ vfdStatus.toList) brokenVfdBlock.toList := by decide
  have hm : vfdMatch brokenVfdBlock.toList = some [] := by decide
  ⟨hb, hp, hm, fixDashboard_reruns (t := []) rfl hb hp hm⟩

end AssetPipeline
