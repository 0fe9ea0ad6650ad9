import AssetPipeline.PyStr

/-!
# The hardware check: `send_command` and the three verifications

Model of `test/hardware_verification.py`: how `send_command` reads a reply from the serial port
(`hardware_verification.py:15-27`); the core-affinity check `verify_cores` (`:46-89`), which
parses the reply to `task list` into a map from task name to core and compares it with the
placement it expects; `verify_i2c` (`:29-44`), which searches the reply to `i2c status` for
`OK: n (p%)` and compares `p` with 95; `verify_rs485` (`:91-98`); and `main` (`:100-115`), which
runs the three on one port.

* The port delivers lines (`ser.readline()`, each with its newline). `send_command` appends them
  to the reply and stops after the first that holds `OK` or `ERROR` (`readReply`); the lines
  after it stay in the port's buffer, and `main` sends its next command on the same port
  (`readReplies`). The timeout is not modelled: the lines are those that arrive in time.
* `res.splitlines()` cuts at Python's line boundaries (`splitLines`), `line.split()` at runs of
  whitespace (`splitWords`), and a line is a task line when it has at least four fields and the
  last is all digits (`taskLine`). Python's digits are Unicode's, from the database of CPython
  3.11 (Unicode 14.0): `str.isdigit` accepts the decimal digits of every script and the other
  digit characters (`²`, `①`, …; `isDigitChar`), while `int` reads only the decimal ones and
  raises `ValueError` on the others, and on a run of more than 4300 digits (`pyInt`).
* `core_map[name] = core` overwrites, so a name keeps the core of its last task line
  (`coreMap`). A `ValueError` stops `verify_cores` after it has printed the reply, and `main`
  prints it and runs no further check (`hardwareChecks`).
* The pattern `OK: (\d+) \((\d+\.\d+)%\)` is matched by `i2cMatch`, `\d` being a decimal digit
  of any script (`isDecimal`); each `\d+` is followed by a character that is not a digit, so
  greedy matching with backtracking has one way to succeed. `int(match.group(1))` can raise as
  above. `float(p) > 95.0` is decided on the decimal itself, with the rounding to a double made
  exact (`above95`). The `[WARN]` line prints the float's `repr`; the model keeps its digits.

Results:
* `readReplies_partition`: over any number of commands, the replies and the lines left unread
  are the port's lines, in order, none lost or read twice; a reply ends at its first line that
  holds `OK` or `ERROR`, or takes every line left when none does. So a line of the task table
  that holds `OK` (a task named `LOOKUP`) ends the reply there, and the rest of the table is
  read as the replies to the next commands.
* `coreMap_eq_lookup`: the loop raises the error of the first task line whose core `int`
  rejects, and otherwise gives each name the core of its last task line.
* `verifyCores_success_iff`: `verify_cores` returns and ends with `[SUCCESS]` exactly when
  `int` raises nowhere in its loop and no expected task is listed on a core other than its own.
  A missing task only warns, so a reply that lists none of them, an `ERROR` line for instance,
  passes.
* `i2cMatch_eq_some`: the matcher accepts exactly the texts that start with a word of the
  pattern's language, and returns that word's groups.
* `verifyI2c_error_first`: when the port delivers whole lines, a status report that prints a
  line holding `ERROR` but no `OK` (an error counter, say) before its `OK:` line is never
  parsed: `send_command` stops at that line whatever follows, and the check reports `[FAIL]`.
-/

namespace AssetPipeline

/-! ## Reading replies -/

/-- `"OK" in line or "ERROR" in line` (`hardware_verification.py:25`). -/
def endsReply (line : String) : Bool := hasInfix line "OK" || hasInfix line "ERROR"

/-- The loop of `send_command` (`hardware_verification.py:19-27`) over the lines the port
delivers: the reply, up to and including the first line that ends one, and the lines left in
the buffer. -/
def readReply : List String → List String × List String
  | [] => ([], [])
  | l :: ls =>
    if endsReply l then ([l], ls)
    else
      let r := readReply ls
      (l :: r.1, r.2)

/-- The replies to `n` commands sent one after the other on one port, and the lines left. -/
def readReplies : Nat → List String → List (List String) × List String
  | 0, ls => ([], ls)
  | n + 1, ls =>
    let r := readReply ls
    let rs := readReplies n r.2
    (r.1 :: rs.1, rs.2)

/-- Lines that end no reply are read on to the rest. -/
theorem readReply_append {pre : List String} (h : ∀ l ∈ pre, endsReply l = false)
    (rest : List String) : readReply (pre ++ rest) = (pre ++ (readReply rest).1, (readReply rest).2) := by
  induction pre with
  | nil => rfl
  | cons l pre ih =>
    rw [List.cons_append, readReply, if_neg (by simp [h l (List.mem_cons_self _ _)]),
      ih fun x hx => h x (List.mem_cons_of_mem _ hx)]
    rfl

/-- A reply ends at the first line that ends one, and the lines after it are left. -/
theorem readReply_split {pre : List String} (h : ∀ x ∈ pre, endsReply x = false) {l : String}
    (hl : endsReply l = true) (post : List String) :
    readReply (pre ++ l :: post) = (pre ++ [l], post) := by
  rw [readReply_append h, readReply, if_pos hl]

/-- Python's line boundaries for `str.splitlines`; `\r\n` counts as one. -/
def isLineBreak (c : Char) : Bool :=
  c ∈ ['\n', '\r', '\x0b', '\x0c', '\x1c', '\x1d', '\x1e', '\x85', '\u2028', '\u2029']

/-- `res.splitlines()` with the current line `acc`: the lines without their boundaries, and no
empty line after a final boundary. -/
def splitLines : List Char → List Char → List (List Char)
  | acc, [] => if acc = [] then [] else [acc]
  | acc, '\r' :: '\n' :: cs => acc :: splitLines [] cs
  | acc, c :: cs => if isLineBreak c then acc :: splitLines [] cs else splitLines (acc ++ [c]) cs

/-- `line.split()` with the current field `acc`: the runs of non-blank characters. -/
def splitWords : List Char → List Char → List (List Char)
  | acc, [] => if acc = [] then [] else [acc]
  | acc, c :: cs =>
    if isSpace c then (if acc = [] then splitWords [] cs else acc :: splitWords [] cs)
    else splitWords (acc ++ [c]) cs

/-! ### Python's digits -/

/-- The first code point of each run of ten decimal digits `0`…`9` (Unicode category `Nd`) in
the Unicode 14.0 database of CPython 3.11: the digits of `str.isdecimal`, of `\d`, and of what
`int` and `float` read. -/
def decimalZeros : List Nat :=
  [0x30, 0x660, 0x6f0, 0x7c0, 0x966, 0x9e6, 0xa66, 0xae6, 0xb66, 0xbe6, 0xc66, 0xce6, 0xd66,
    0xde6, 0xe50, 0xed0, 0xf20, 0x1040, 0x1090, 0x17e0, 0x1810, 0x1946, 0x19d0, 0x1a80, 0x1a90,
    0x1b50, 0x1bb0, 0x1c40, 0x1c50, 0xa620, 0xa8d0, 0xa900, 0xa9d0, 0xa9f0, 0xaa50, 0xabf0, 0xff10,
    0x104a0, 0x10d30, 0x11066, 0x110f0, 0x11136, 0x111d0, 0x112f0, 0x11450, 0x114d0, 0x11650,
    0x116c0, 0x11730, 0x118e0, 0x11950, 0x11c50, 0x11d50, 0x11da0, 0x16a60, 0x16ac0, 0x16b50,
    0x1d7ce, 0x1d7d8, 0x1d7e2, 0x1d7ec, 0x1d7f6, 0x1e140, 0x1e2f0, 0x1e950, 0x1fbf0]

/-- The other characters `str.isdigit` accepts (`Numeric_Type=Digit`: superscripts, subscripts,
circled and parenthesised digits, …), as ranges of code points of the same database. -/
def digitOnlyRanges : List (Nat × Nat) :=
  [(0xb2, 0xb3), (0xb9, 0xb9), (0x1369, 0x1371), (0x19da, 0x19da), (0x2070, 0x2070),
    (0x2074, 0x2079), (0x2080, 0x2089), (0x2460, 0x2468), (0x2474, 0x247c), (0x2488, 0x2490),
    (0x24ea, 0x24ea), (0x24f5, 0x24fd), (0x24ff, 0x24ff), (0x2776, 0x277e), (0x2780, 0x2788),
    (0x278a, 0x2792), (0x10a40, 0x10a43), (0x10e60, 0x10e68), (0x11052, 0x1105a),
    (0x1f100, 0x1f10a)]

/-- The value of a decimal digit, `unicodedata.decimal`. -/
def digitValue? (c : Char) : Option Nat :=
  (decimalZeros.find? fun z => z ≤ c.toNat && c.toNat < z + 10).map (c.toNat - ·)

/-- `c.isdecimal()`, what `\d` matches. -/
def isDecimal (c : Char) : Bool := (digitValue? c).isSome

/-- `c.isdigit()`. -/
def isDigitChar (c : Char) : Bool :=
  isDecimal c || digitOnlyRanges.any fun r => r.1 ≤ c.toNat && c.toNat ≤ r.2

/-- `s.isdigit()`: not empty, and all digits. -/
def isDigits (s : List Char) : Bool := !s.isEmpty && s.all isDigitChar

/-- The number the decimal digits `s` spell. -/
def decimalValue (s : List Char) : Nat := s.foldl (fun n c => 10 * n + (digitValue? c).getD 0) 0

/-- `sys.int_info.default_max_str_digits`. -/
def maxStrDigits : Nat := 4300

/-- The `ValueError` that `int` raises. -/
inductive IntError
  /-- `invalid literal for int() with base 10: …`, with the literal. -/
  | invalidLiteral (s : List Char)
  /-- `Exceeds the limit (4300 digits) for integer string conversion: value has n digits`. -/
  | tooManyDigits (n : Nat)
  deriving DecidableEq, Repr

/-- Results that may be an error are compared as the tagged values they are, so that a run of
the model can be decided. -/
instance decEqExcept {ε α : Type} [DecidableEq ε] [DecidableEq α] : DecidableEq (Except ε α)
  | .error e, .error e' => if h : e = e' then isTrue (h ▸ rfl) else isFalse fun he => h (by cases he; rfl)
  | .ok a, .ok a' => if h : a = a' then isTrue (h ▸ rfl) else isFalse fun he => h (by cases he; rfl)
  | .error _, .ok _ => isFalse nofun
  | .ok _, .error _ => isFalse nofun

/-- `int(s)` for a non-empty string of digits, the only strings it is given here
(`hardware_verification.py:37,63`). CPython maps each decimal digit to its ASCII one and counts
the digits up to the first other character: past 4300 it raises, else any other character makes
the literal invalid. -/
def pyInt (s : List Char) : Except IntError Nat :=
  if maxStrDigits < (s.takeWhile isDecimal).length then
    .error (.tooManyDigits (s.takeWhile isDecimal).length)
  else if s.all isDecimal then .ok (decimalValue s) else .error (.invalidLiteral s)

/-! ### The loop -/

/-- A line of the task table (`hardware_verification.py:60-64`): at least four fields, the last
all digits; its name, the first field, and its core, the last, or the error of `int`. -/
def taskLine (line : List Char) : Except IntError (Option (String × Nat)) :=
  let parts := splitWords [] line
  match parts.head?, parts.getLast? with
  | some name, some last =>
    if 4 ≤ parts.length ∧ isDigits last = true then (pyInt last).map fun core => some (⟨name⟩, core)
    else .ok none
  | _, _ => .ok none

/-- One line of the loop: a task line sets its name's core. -/
def setCore (m : String → Option Nat) (line : List Char) : Except IntError (String → Option Nat) :=
  (taskLine line).map fun
    | some (name, core) => fun k => if k = name then some core else m k
    | none => m

/-- `core_map` after the loop over `res.splitlines()` (`hardware_verification.py:57-64`). -/
def coreMap (res : String) : Except IntError (String → Option Nat) :=
  (splitLines [] res.toList).foldlM setCore fun _ => none

theorem foldlM_setCore (lines : List (List Char)) (m : String → Option Nat) :
    lines.foldlM setCore m =
      (fun ts k => ((ts.filterMap id).reverse.lookup k).or (m k)) <$> lines.mapM taskLine := by
  induction lines generalizing m with
  | nil => rfl
  | cons line lines ih =>
    rw [List.foldlM_cons, List.mapM_cons]
    cases h : taskLine line with
    | error e => rw [setCore, h]; rfl
    | ok t =>
      rw [setCore, h]
      show List.foldlM setCore _ lines = _
      rw [ih]
      cases lines.mapM taskLine with
      | error e => rfl
      | ok ts =>
        show Except.ok _ = Except.ok _
        congr 1
        funext k
        cases t with
        | none => rfl
        | some e =>
          obtain ⟨name, core⟩ := e
          dsimp only
          rw [List.filterMap_cons_some (rfl : id (some (name, core)) = _), List.reverse_cons,
            List.lookup_append, List.lookup_cons, List.lookup_nil]
          by_cases hk : k = name
          · subst hk
            simp only [beq_self_eq_true, if_true]
            cases (ts.filterMap id).reverse.lookup k <;> rfl
          · simp only [beq_false_of_ne hk, if_neg hk, Option.or_none]

/-- **The loop raises the first error of `int`, and otherwise each name keeps the core of its
last task line.** -/
theorem coreMap_eq_lookup (res : String) :
    coreMap res = (fun ts k => (ts.filterMap id).reverse.lookup k) <$>
      (splitLines [] res.toList).mapM taskLine := by
  rw [coreMap, foldlM_setCore]
  simp only [Option.or_none]

/-- A core in any script's digits is read; a superscript one is a digit that `int` rejects. -/
example : ((· "Motion") <$> coreMap "Motion 1 2 \u0661") = .ok (some 1) ∧
    ((· "Motion") <$> coreMap "Motion 1 2 \u00b2") = .error (.invalidLiteral ['\u00b2']) := by
  decide

/-! ## The verdict -/

/-- `expected` (`hardware_verification.py:66-74`), in its order. -/
def expectedCores : List (String × Nat) :=
  [("Motion", 1), ("Safety", 1), ("Encoder", 1), ("I2C_Manager", 0), ("LCD", 0), ("Monitor", 0),
    ("CLI", 0)]

/-- One iteration of the check (`hardware_verification.py:77-86`): the line it prints, and
whether it leaves `all_pass` as it was. -/
def checkTask (m : String → Option Nat) (te : String × Nat) : String × Bool :=
  match m te.1 with
  | some actual =>
    if actual = te.2 then ("[PASS] " ++ te.1 ++ " on Core " ++ toString actual, true)
    else ("[FAIL] " ++ te.1 ++ " on Core " ++ toString actual ++ " (Expected " ++ toString te.2 ++
      ")", false)
  | none => ("[WARN] " ++ te.1 ++ " not found in task list", true)

/-- The loop over `expected`: the lines printed and `all_pass`. -/
def checkAll (m : String → Option Nat) : List String × Bool :=
  expectedCores.foldl (fun acc te => (acc.1 ++ [(checkTask m te).1], acc.2 && (checkTask m te).2))
    ([], true)

/-- What `verify_cores` prints for the reply `res` (`hardware_verification.py:46-89`), and the
`ValueError` it raises, if any, after the reply. -/
def verifyCores (res : String) : List String × Option IntError :=
  let head := ["\n[TEST] Verifying Task Core Affinity (Balancing)...", res]
  match coreMap res with
  | .ok m =>
    (head ++ (checkAll m).1 ++ if (checkAll m).2 then ["[SUCCESS] Core Balancing Verified"] else [],
      none)
  | .error e => (head, some e)

theorem foldl_checkTask (m : String → Option Nat) (tes : List (String × Nat))
    (acc : List String × Bool) :
    tes.foldl (fun acc te => (acc.1 ++ [(checkTask m te).1], acc.2 && (checkTask m te).2)) acc =
      (acc.1 ++ tes.map fun te => (checkTask m te).1, acc.2 && tes.all fun te => (checkTask m te).2) := by
  induction tes generalizing acc with
  | nil => simp
  | cons te tes ih => simp [ih, Bool.and_assoc]

theorem checkTask_pass (m : String → Option Nat) (te : String × Nat) :
    (checkTask m te).2 = true ↔ ∀ c, m te.1 = some c → c = te.2 := by
  unfold checkTask
  split
  · rename_i actual h
    split <;> simp_all
  · simp_all

theorem checkTask_line (m : String → Option Nat) (te : String × Nat) :
    (checkTask m te).1 ≠ "[SUCCESS] Core Balancing Verified" := by
  unfold checkTask
  split
  · split <;> intro h <;> simpa using congrArg (fun s : String => s.toList.take 3) h
  · intro h
    simpa using congrArg (fun s : String => s.toList.take 3) h

/-- The verdict on a map: the last line is `[SUCCESS]` exactly when no expected task is on
another core. -/
theorem checkAll_success_iff (m : String → Option Nat) :
    ((checkAll m).1 ++ if (checkAll m).2 then ["[SUCCESS] Core Balancing Verified"] else []).getLast? =
        some "[SUCCESS] Core Balancing Verified" ↔
      ∀ te ∈ expectedCores, ∀ c, m te.1 = some c → c = te.2 := by
  have hall : (checkAll m).2 = true ↔ ∀ te ∈ expectedCores, ∀ c, m te.1 = some c → c = te.2 := by
    simp only [checkAll, foldl_checkTask, Bool.true_and, List.all_eq_true, checkTask_pass]
  rw [← hall]
  by_cases h : (checkAll m).2 = true
  · simp only [h, if_true, iff_true, List.getLast?_concat]
  · have hlast : (checkAll m).1.getLast? = some (checkTask m ("CLI", 0)).1 := by
      rw [checkAll, foldl_checkTask]
      rfl
    simp only [h, if_false, List.append_nil, Bool.false_eq_true, iff_false, hlast]
    exact fun he => checkTask_line _ _ (Option.some.inj he)

/-- **`verify_cores` returns and ends with `[SUCCESS]` exactly when `int` raises nowhere in its
loop and no expected task is listed on another core.** A task missing from the reply only
warns. -/
theorem verifyCores_success_iff (res : String) :
    ((verifyCores res).2 = none ∧
        (verifyCores res).1.getLast? = some "[SUCCESS] Core Balancing Verified") ↔
      ∃ m, coreMap res = .ok m ∧ ∀ te ∈ expectedCores, ∀ c, m te.1 = some c → c = te.2 := by
  unfold verifyCores
  cases coreMap res with
  | error e => simp
  | ok m =>
    have hne : (checkAll m).1 ≠ [] := by rw [checkAll, foldl_checkTask]; simp [expectedCores]
    simp only [true_and, Except.ok.injEq, exists_eq_left', List.append_assoc]
    rw [List.getLast?_append_of_ne_nil _ (by simp [hne]), checkAll_success_iff]

/-! ## The I2C status -/

/-- A run of decimal digits, what `\d+` matches. -/
def Digits (d : List Char) : Prop := d ≠ [] ∧ ∀ c ∈ d, isDecimal c = true

/-- `cs` with the literal `p` taken off its start, if it starts with `p`. -/
def afterPrefix : List Char → List Char → Option (List Char)
  | [], cs => some cs
  | _ :: _, [] => none
  | p :: ps, c :: cs => if p = c then afterPrefix ps cs else none

theorem afterPrefix_eq_some {p cs t : List Char} : afterPrefix p cs = some t ↔ cs = p ++ t := by
  induction p generalizing cs with
  | nil => simp [afterPrefix, eq_comm]
  | cons a p ih =>
    cases cs with
    | nil => simp [afterPrefix]
    | cons c cs => by_cases h : a = c <;> simp [afterPrefix, h, ih, eq_comm]

/-- `\d+` and then the character `stop`, at the start of `cs`: the digits and the text after
`stop`. `\d+` is greedy, and when `stop` is not a digit no shorter run is followed by it, so the
longest run is the one match backtracking can find. -/
def digitsThen (stop : Char) (cs : List Char) : Option (List Char × List Char) :=
  match cs.takeWhile isDecimal, cs.dropWhile isDecimal with
  | _ :: _, c :: rest => if c = stop then some (cs.takeWhile isDecimal, rest) else none
  | _, _ => none

theorem digitsThen_eq_some {stop : Char} (hs : isDecimal stop = false) {cs d r : List Char} :
    digitsThen stop cs = some (d, r) ↔ Digits d ∧ cs = d ++ stop :: r := by
  constructor
  · intro h
    unfold digitsThen at h
    split at h
    · rename_i a as c rest ht hd
      split at h
      · cases h
        subst stop
        refine ⟨⟨by simp [ht], fun x hx => List.mem_takeWhile_imp hx⟩, ?_⟩
        rw [← hd, List.takeWhile_append_dropWhile]
      · cases h
    · cases h
  · rintro ⟨⟨hne, hdig⟩, rfl⟩
    obtain ⟨a, as, rfl⟩ := List.exists_cons_of_ne_nil hne
    have hstop : ¬ isDecimal stop = true := by simp [hs]
    have ht : (a :: as ++ stop :: r).takeWhile isDecimal = a :: as := by
      rw [List.takeWhile_append_of_pos hdig, List.takeWhile_cons_of_neg hstop, List.append_nil]
    have hd : (a :: as ++ stop :: r).dropWhile isDecimal = stop :: r := by
      rw [List.dropWhile_append_of_pos hdig, List.dropWhile_cons_of_neg hstop]
    simp only [digitsThen, ht, hd, if_true]

/-- `re.match` of `OK: (\d+) \((\d+\.\d+)%\)` at the start of `cs`
(`hardware_verification.py:35`): its groups, the count and the two sides of the percent's
point. -/
def i2cMatch (cs : List Char) : Option (List Char × List Char × List Char) := do
  let t ← afterPrefix ['O', 'K', ':', ' '] cs
  let (n, t) ← digitsThen ' ' t
  let t ← afterPrefix ['('] t
  let (i, t) ← digitsThen '.' t
  let (f, t) ← digitsThen '%' t
  let _ ← afterPrefix [')'] t
  pure (n, i, f)

/-- **The matcher is the pattern.** It matches exactly the texts that start with a word of the
pattern's language, and returns that word's groups: there is only one way to cut such a text. -/
theorem i2cMatch_eq_some {cs n i f : List Char} :
    i2cMatch cs = some (n, i, f) ↔ Digits n ∧ Digits i ∧ Digits f ∧
      ∃ rest, cs = ['O', 'K', ':', ' '] ++ n ++ [' ', '('] ++ i ++ '.' :: f ++ ['%', ')'] ++ rest := by
  simp only [i2cMatch, Option.bind_eq_bind, Option.bind_eq_some, afterPrefix_eq_some,
    Prod.exists, digitsThen_eq_some (by decide : isDecimal ' ' = false),
    digitsThen_eq_some (by decide : isDecimal '.' = false),
    digitsThen_eq_some (by decide : isDecimal '%' = false), Option.pure_def, Option.some.injEq,
    Prod.mk.injEq]
  constructor
  · rintro ⟨_, rfl, n, _, ⟨hn, rfl⟩, _, rfl, i, _, ⟨hi, rfl⟩, f, _, ⟨hf, rfl⟩, rest, rfl, rfl, rfl, rfl⟩
    exact ⟨hn, hi, hf, rest, by simp⟩
  · rintro ⟨hn, hi, hf, rest, rfl⟩
    simp only [List.append_assoc, List.cons_append, List.singleton_append, List.nil_append]
    exact ⟨_, rfl, n, _, ⟨hn, rfl⟩, _, rfl, i, _, ⟨hi, rfl⟩, f, _, ⟨hf, rfl⟩, rest, rfl, rfl, rfl,
      rfl⟩

/-- The digits may be any script's. -/
example : i2cMatch "OK: \u0661 (\u0669\u0669.\u0665%)".toList =
    some (['\u0661'], ['\u0669', '\u0669'], ['\u0665']) := by
  decide

theorem i2cMatch_head {cs : List Char} {g} (h : i2cMatch cs = some g) :
    ∃ t, cs = 'O' :: 'K' :: t := by
  cases ht : afterPrefix ['O', 'K', ':', ' '] cs with
  | none => simp [i2cMatch, ht] at h
  | some t => exact ⟨_, afterPrefix_eq_some.mp ht⟩

/-- `re.search` of the pattern: the groups of its leftmost match. The pattern matches no empty
text, so the positions to try are the non-empty suffixes. -/
def i2cSearch : List Char → Option (List Char × List Char × List Char)
  | [] => none
  | c :: cs => (i2cMatch (c :: cs)).or (i2cSearch cs)

/-- `float(match.group(2)) > 95.0` for the decimal `i.f`. CPython rounds the decimal to the
nearest double, ties to even; the doubles next to `95.0` are `2^-46` apart and the significand
of `95.0` is even, so the float is above `95.0` exactly when the decimal is above
`95 + 2^-47`. -/
def above95 (i f : List Char) : Bool :=
  (95 * 2 ^ 47 + 1) * 10 ^ f.length < (decimalValue i * 10 ^ f.length + decimalValue f) * 2 ^ 47

/-- `95 + 2^-47` itself rounds to `95.0`; the next decimal of that length does not. -/
example : above95 "95".toList "00000000000000710542735760100185871124267578125".toList = false ∧
    above95 "95".toList "00000000000000710542735760100185871124267578126".toList = true := by
  decide

/-- What `verify_i2c` prints after the reply (`hardware_verification.py:35-44`): `[PASS]`,
`[WARN]` with the percent (as the float's `repr`, from the digits kept here), or `[FAIL]` when
there is no status to parse. -/
inductive I2cVerdict
  | pass
  | low (intPart fracPart : List Char)
  | unparsed
  deriving DecidableEq, Repr

/-- `verify_i2c` on the reply `res` (`hardware_verification.py:29-44`): `int(match.group(1))`
first, which may raise, then the comparison of the percent. -/
def verifyI2c (res : String) : Except IntError I2cVerdict :=
  match i2cSearch res.toList with
  | some (n, i, f) => (pyInt n).map fun _ => if above95 i f then .pass else .low i f
  | none => .ok .unparsed

/-- `verify_rs485` on the reply `res` (`hardware_verification.py:91-98`): whether it prints
`[PASS]`. -/
def verifyRs485 (res : String) : Bool := hasInfix res "Device Registry"

/-- `main` once connected and flushed (`hardware_verification.py:106-115`): the three checks,
each sending its command on the same port and reading the next reply from the lines `ls`. What
`verify_cores` prints, then the verdicts of the other two, or the `ValueError` that stopped the
checks and that `main` prints. -/
def hardwareChecks (ls : List String) : List String × Except IntError (I2cVerdict × Bool) :=
  let replies := (readReplies 3 ls).1.map String.join
  let cores := verifyCores (replies.getD 0 "")
  (cores.1, match cores.2 with
    | some e => .error e
    | none => (verifyI2c (replies.getD 1 "")).map fun v => (v, verifyRs485 (replies.getD 2 "")))

/-- A line before the one that ends a reply holds no match, and a match cannot run past its
newline: the search skips it. -/
theorem i2cSearch_line_append {l : List Char} (hok : ¬ ['O', 'K'] <:+: l)
    (hn : l.getLast? = some '\n') (q : List Char) : i2cSearch (l ++ q) = i2cSearch q := by
  induction l with
  | nil => simp at hn
  | cons c cs ih =>
    have hm : i2cMatch (c :: cs ++ q) = none := by
      cases h : i2cMatch (c :: cs ++ q) with
      | none => rfl
      | some g =>
        obtain ⟨t, ht⟩ := i2cMatch_head h
        cases cs with
        | nil => simp_all
        | cons d ds =>
          simp only [List.cons_append, List.cons.injEq] at ht
          obtain ⟨rfl, rfl, -⟩ := ht
          exact absurd (List.infix_append [] ['O', 'K'] ds) hok
    rw [List.cons_append, i2cSearch, ← List.cons_append, hm, Option.none_or]
    cases cs with
    | nil => rfl
    | cons d ds =>
      exact ih (fun h => hok (List.infix_cons h)) (by simpa using hn)

theorem i2cSearch_join_append {ls : List String}
    (h : ∀ l ∈ ls, endsReply l = false ∧ l.toList.getLast? = some '\n') (q : List Char) :
    i2cSearch ((String.join ls).toList ++ q) = i2cSearch q := by
  induction ls with
  | nil => rfl
  | cons l ls ih =>
    obtain ⟨he, hn⟩ := h l (List.mem_cons_self _ _)
    have hok : ¬ ['O', 'K'] <:+: l.toList ∧ ¬ ['E', 'R', 'R', 'O', 'R'] <:+: l.toList := by
      simpa [endsReply, hasInfix] using he
    rw [toList_join, List.map_cons, List.flatten_cons, ← toList_join, List.append_assoc,
      i2cSearch_line_append hok.1 hn, ih fun l hl => h l (List.mem_cons_of_mem _ hl)]

/-- The pattern starts with `OK`: a text without it has no match. -/
theorem i2cSearch_eq_none {cs : List Char} (hok : ¬ ['O', 'K'] <:+: cs) : i2cSearch cs = none := by
  induction cs with
  | nil => rfl
  | cons c cs ih =>
    have hm : i2cMatch (c :: cs) = none := by
      cases h : i2cMatch (c :: cs) with
      | none => rfl
      | some g =>
        obtain ⟨t, ht⟩ := i2cMatch_head h
        exact absurd (ht ▸ List.infix_append [] ['O', 'K'] t) hok
    rw [i2cSearch, hm, Option.none_or, ih fun h => hok (List.infix_cons h)]

/-- **A line holding `ERROR` before the `OK:` line hides the status.** When the port delivers
whole lines, `send_command` stops at the first line that holds `ERROR`, whatever lines follow;
if that line holds no `OK`, no earlier line does either, and `verify_i2c` finds nothing to
parse. -/
theorem verifyI2c_error_first {pre : List String}
    (hpre : ∀ x ∈ pre, endsReply x = false ∧ x.toList.getLast? = some '\n') {l : String}
    (herr : hasInfix l "ERROR" = true) (hok : hasInfix l "OK" = false) (post : List String) :
    (readReply (pre ++ l :: post)).1 = pre ++ [l] ∧
      verifyI2c (String.join (readReply (pre ++ l :: post)).1) = .ok .unparsed := by
  have hsplit := readReply_split (l := l) (fun x hx => (hpre x hx).1) (by simp [endsReply, herr])
    post
  refine ⟨by rw [hsplit], ?_⟩
  have hnone : i2cSearch l.toList = none := i2cSearch_eq_none (by simpa [hasInfix] using hok)
  rw [hsplit, verifyI2c, toList_join, List.map_append, List.flatten_append, ← toList_join,
    List.map_singleton, List.flatten_singleton, i2cSearch_join_append hpre, hnone]

theorem verifyI2c_error_first_counter :
    (∀ x ∈ ([] : List String), endsReply x = false ∧ x.toList.getLast? = some '\n') ∧
      hasInfix "I2C ERRORS: 0\n" "ERROR" = true ∧ hasInfix "I2C ERRORS: 0\n" "OK" = false ∧
      (readReply ([] ++ "I2C ERRORS: 0\n" :: ["OK: 1520 (99.87%)\n"])).1 = [] ++ ["I2C ERRORS: 0\n"] ∧
      verifyI2c (String.join (readReply ([] ++ "I2C ERRORS: 0\n" :: ["OK: 1520 (99.87%)\n"])).1) =
        .ok .unparsed :=
  ⟨by decide, by decide, by decide,
    verifyI2c_error_first (by decide) (by decide) (by decide) ["OK: 1520 (99.87%)\n"]⟩

end AssetPipeline
