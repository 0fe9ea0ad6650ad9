import Mathlib.Data.List.Infix
import Mathlib.Data.String.Basic

/-!
# The Python string operations the scripts use

The scripts decide almost everything on file names: `str.endswith` with one suffix or a
tuple of them, the slice `s[:-3]`, `s.replace(".gz", "")`, `s.replace(":", "")`, the
substring test `sub in s`, and `s.strip()`. Each is modelled on the list of code points,
which is what a Python `str` is, so every definition here is structurally recursive and
evaluates by `decide`.

`strip` removes the characters Python's `str.isspace` accepts (`isSpace`), which is more
than ASCII blank: the unbundler's round trip (`Unbundle.lean`) depends on exactly which.
-/

namespace AssetPipeline

/-- `s.endswith(suffixes)`, for a tuple of suffixes (one suffix is a one-element tuple). -/
def endswith (s : String) (suffixes : List String) : Bool :=
  suffixes.any fun suf => suf.toList.isSuffixOf s.toList

/-- The slice `s[:-3]`: `s` without its last three characters (empty if it is shorter). -/
def dropLast3 (s : String) : String :=
  ⟨s.toList.take (s.length - 3)⟩

/-- `s.replace(".gz", "")`, on the code points: every `.gz`, left to right, is removed. -/
def replaceGzAux : List Char → List Char
  | '.' :: 'g' :: 'z' :: rest => replaceGzAux rest
  | c :: rest => c :: replaceGzAux rest
  | [] => []

/-- `s.replace(".gz", "")`. -/
def replaceGz (s : String) : String := ⟨replaceGzAux s.toList⟩

/-- `sub in s` for strings: `sub` occurs in `s`. -/
def hasInfix (s sub : String) : Bool := decide (sub.toList <:+: s.toList)

/-- `s.replace(":", "")`. -/
def dropColons (s : String) : String := ⟨s.toList.filter (· != ':')⟩

/-- `str.isspace` on one code point: the characters `str.strip()` removes. -/
def isSpace (c : Char) : Bool :=
  let n := c.toNat
  (0x09 ≤ n && n ≤ 0x0D) || (0x1C ≤ n && n ≤ 0x20) || n == 0x85 || n == 0xA0 ||
    n == 0x1680 || (0x2000 ≤ n && n ≤ 0x200A) || n == 0x2028 || n == 0x2029 ||
    n == 0x202F || n == 0x205F || n == 0x3000

/-- `s.strip()` on the code points: leading and trailing `isSpace` characters removed. -/
def stripList (l : List Char) : List Char :=
  ((l.dropWhile isSpace).reverse.dropWhile isSpace).reverse

/-- `s.strip()`. -/
def strip (s : String) : String := ⟨stripList s.toList⟩

/-! ## Lemmas -/

theorem endswith_cons (s suf : String) (sufs : List String) :
    endswith s (suf :: sufs) = (suf.toList.isSuffixOf s.toList || endswith s sufs) := rfl

theorem endswith_iff (s : String) (sufs : List String) :
    endswith s sufs = true ↔ ∃ suf ∈ sufs, suf.toList <:+ s.toList := by
  simp [endswith, List.isSuffixOf_iff_suffix]

@[simp] theorem toList_append (s t : String) : (s ++ t).toList = s.toList ++ t.toList := rfl

theorem data_intercalate_go (acc s : String) (l : List String) :
    (String.intercalate.go acc s l).data = acc.data ++ (l.map fun a => s.data ++ a.data).flatten := by
  induction l generalizing acc with
  | nil => simp [String.intercalate.go]
  | cons a l ih => simp [String.intercalate.go, ih]

/-- `String.data_join` in the `toList` spelling the model uses. -/
theorem toList_join (l : List String) : (String.join l).toList = (l.map String.toList).flatten :=
  String.data_join l

/-- A suffix test is a prefix test on the reversed code points. -/
theorem endswith_rev (s : String) (sufs : List String) :
    endswith s sufs = sufs.any fun suf => suf.toList.reverse.isPrefixOf s.toList.reverse := rfl

theorem endswith_one (s suf : String) :
    endswith s [suf] = suf.toList.reverse.isPrefixOf s.toList.reverse := by
  simp [endswith, List.isSuffixOf]

@[simp] theorem dropLast3_append_gz (x : String) : dropLast3 (x ++ ".gz") = x := by
  obtain ⟨l⟩ := x
  simp [dropLast3, show ".gz".length = 3 from rfl]

theorem endswith_gz_iff (s : String) : endswith s [".gz"] = true ↔ ∃ x, s = x ++ ".gz" := by
  constructor
  · intro h
    rw [endswith_one] at h
    obtain ⟨r, hr⟩ := List.isPrefixOf_iff_prefix.mp h
    refine ⟨⟨r.reverse⟩, String.ext ?_⟩
    show s.toList = r.reverse ++ ".gz".toList
    rw [← List.reverse_reverse s.toList, ← hr]
    simp
  · rintro ⟨x, rfl⟩
    simp [endswith_one, List.reverse_append, List.isPrefixOf]

/-- An `.html` name is no script or style name, and neither is its `.gz`. -/
theorem endswith_html {x : String} (h : endswith x [".html"] = true) :
    endswith x [".js", ".js.gz", ".css", ".css.gz"] = false ∧
      endswith (x ++ ".gz") [".js", ".js.gz", ".css", ".css.gz"] = false ∧
      endswith (x ++ ".gz") [".html"] = false := by
  rw [endswith_one] at h
  obtain ⟨r, hr⟩ := List.isPrefixOf_iff_prefix.mp h
  simp only [endswith_rev, toList_append, List.reverse_append, ← hr]
  exact ⟨rfl, rfl, rfl⟩

/-- A trailing `.gz` is removed on its own: no occurrence runs into it, since it starts with
a dot. -/
theorem replaceGzAux_append_gz (l : List Char) :
    replaceGzAux (l ++ ['.', 'g', 'z']) = replaceGzAux l := by
  induction l using replaceGzAux.induct with
  | case1 rest ih => simpa [replaceGzAux] using ih
  | case2 c rest hne ih =>
    rw [replaceGzAux.eq_2 c rest hne, List.cons_append, replaceGzAux.eq_2, ih]
    intro rest' hc hr
    rcases rest with _ | ⟨x, _ | ⟨y, rest⟩⟩ <;> simp_all
  | case3 => rfl

@[simp] theorem replaceGz_append_gz (s : String) : replaceGz (s ++ ".gz") = replaceGz s := by
  simp only [replaceGz, toList_append]
  exact congrArg String.mk (replaceGzAux_append_gz s.toList)

/-- A page name ends in none of the suffixes the movers and bundlers look for. -/
theorem endswith_html_plain {x : String} (h : endswith x [".html"] = true) :
    endswith x [".js", ".css"] = false ∧ endswith x [".js"] = false ∧
      endswith x [".css"] = false ∧ endswith x [".gz"] = false := by
  rw [endswith_one] at h
  obtain ⟨r, hr⟩ := List.isPrefixOf_iff_prefix.mp h
  simp only [endswith_rev, ← hr]
  exact ⟨rfl, rfl, rfl, rfl⟩

/-- Stripping ignores blank padding on either side. -/
theorem stripList_pad {l m r : List Char} (hl : ∀ c ∈ l, isSpace c = true)
    (hr : ∀ c ∈ r, isSpace c = true) : stripList (l ++ m ++ r) = stripList m := by
  unfold stripList
  rw [List.append_assoc, List.dropWhile_append_of_pos hl]
  congr 1
  rcases hm : m.dropWhile isSpace with _ | ⟨c, m'⟩
  · have hall : ∀ c ∈ m, isSpace c = true := List.dropWhile_eq_nil_iff.mp hm
    rw [List.dropWhile_append_of_pos hall, List.dropWhile_eq_nil_iff.mpr hr]
  · rw [List.dropWhile_append, hm, List.isEmpty_cons, if_neg Bool.false_ne_true,
      List.reverse_append, List.dropWhile_append_of_pos (by simpa using hr)]

end AssetPipeline
