import Mathlib.Data.List.Basic

/-!
# `strings.Trim`, `filepath.Clean` and `filepath.Join` (Unix)

Every path argument of `BitBucketFS` goes through `filepath.Clean`, and `vfs.CleanPath`
adds `strings.Trim(path, " \t")` and `~/` expansion through `filepath.Join`. These are
Go library functions; they are modelled from their documentation, on the characters of
the string (every character they test is ASCII, so bytes and characters agree).

`filepath.Clean` applies, until nothing changes: collapse repeated separators, drop
`.` elements, drop each inner `..` with the non-`..` element before it, drop `..` at the
start of a rooted path; the empty result becomes `.`. The model splits the path at `/`
and runs the elements through a stack of kept elements (last kept first).

Results:
* `filepathClean_filepathClean`: `filepath.Clean` is idempotent.
* `filepathClean_head_of_head`: `filepath.Clean` keeps a rooted path rooted.
* `filepathJoin_eq`: `filepath.Join` returns `""` or a cleaned path.
-/

namespace BitBucketFs.Go

/-! ## `strings.Trim` -/

/-- `strings.Trim(s, cutset)`: drop leading and trailing characters of `cutset`. -/
def stringsTrim (s cutset : String) : String :=
  ⟨((s.data.dropWhile (· ∈ cutset.data)).reverse.dropWhile (· ∈ cutset.data)).reverse⟩

theorem length_eq_zero_iff_eq_empty (s : String) : s.length = 0 ↔ s = "" := by
  cases s; simp [String.length, String.ext_iff]

/-! ## `filepath.Clean` -/

/-- The path element `..`. -/
def dotDot : List Char := ['.', '.']

/-- One path element through `filepath.Clean`'s loop, on the stack `kept` of kept
    elements: empty and `.` elements vanish; `..` pops a kept name, is dropped at the
    root of a rooted path, and is kept otherwise; a name is kept. -/
def cleanStep (rooted : Bool) (kept : List (List Char)) (elem : List Char) :
    List (List Char) :=
  if elem = [] ∨ elem = ['.'] then kept
  else if elem = dotDot then
    match kept with
    | e :: rest => if e = dotDot then elem :: kept else rest
    | [] => if rooted then [] else [elem]
  else elem :: kept

/-- The output of `filepath.Clean` from the kept elements: `/` first on a rooted path,
    and `.` for an empty result. -/
def renderClean (rooted : Bool) (kept : List (List Char)) : List Char :=
  let body := ['/'].intercalate kept.reverse
  if rooted then '/' :: body else if body = [] then ['.'] else body

/-- `filepath.Clean` on the characters of a path. -/
def cleanChars : List Char → List Char
  | [] => ['.']
  | c :: cs =>
    let rooted := c == '/'
    renderClean rooted (((c :: cs).splitOn '/').foldl (cleanStep rooted) [])

/-- `filepath.Clean(path)` on Unix. -/
def filepathClean (path : String) : String := ⟨cleanChars path.data⟩

/-- `filepath.Join(elem...)` on Unix: the cleaned `/`-join of the elements from the
    first non-empty one on, or `""` when all are empty. -/
def filepathJoin : List String → String
  | [] => ""
  | e :: es => if e = "" then filepathJoin es else filepathClean ("/".intercalate (e :: es))

example : filepathClean "a/../.." = ".." := by decide
example : filepathClean "/tmp//x/./../y/" = "/tmp/y" := by decide

/-! ## The kept stack -/

/-- An element `filepath.Clean` keeps as a name: not empty, not `.`, not `..`, no `/`. -/
def NameElem (e : List Char) : Prop := e ≠ [] ∧ e ≠ ['.'] ∧ e ≠ dotDot ∧ '/' ∉ e

/-- The shape of the kept stack: names on top of `..` elements, and no `..` on a
    rooted path. -/
def KeptStack (rooted : Bool) (kept : List (List Char)) : Prop :=
  ∃ m k, kept = m ++ List.replicate k dotDot ∧ (∀ e ∈ m, NameElem e) ∧ (rooted → k = 0)

theorem nameElem_of {e : List Char} (h0 : ¬(e = [] ∨ e = ['.'])) (h1 : e ≠ dotDot)
    (h2 : '/' ∉ e) : NameElem e := by
  push_neg at h0; exact ⟨h0.1, h0.2, h1, h2⟩

theorem keptStack_nil (rooted : Bool) : KeptStack rooted [] :=
  ⟨[], 0, rfl, by simp, fun _ => rfl⟩

theorem keptStack_cleanStep {rooted : Bool} {kept : List (List Char)} {elem : List Char}
    (hk : KeptStack rooted kept) (he : '/' ∉ elem) :
    KeptStack rooted (cleanStep rooted kept elem) := by
  obtain ⟨m, k, rfl, hm, hr⟩ := hk
  unfold cleanStep
  by_cases h0 : elem = [] ∨ elem = ['.']
  · rw [if_pos h0]; exact ⟨m, k, rfl, hm, hr⟩
  rw [if_neg h0]
  by_cases h1 : elem = dotDot
  · subst h1
    rw [if_pos rfl]
    cases m with
    | cons e m =>
      have he' := hm e (List.mem_cons_self _ _)
      simp only [List.cons_append, if_neg he'.2.2.1]
      exact ⟨m, k, rfl, fun x hx => hm x (List.mem_cons_of_mem _ hx), hr⟩
    | nil =>
      cases k with
      | zero =>
        cases rooted
        · exact ⟨[], 1, rfl, by simp, nofun⟩
        · exact keptStack_nil _
      | succ k =>
        simp only [List.nil_append, List.replicate_succ, if_true]
        exact ⟨[], k + 2, rfl, by simp, fun h => absurd (hr h) k.succ_ne_zero⟩
  · rw [if_neg h1]
    refine ⟨elem :: m, k, rfl, ?_, hr⟩
    simp only [List.mem_cons, forall_eq_or_imp]
    exact ⟨nameElem_of h0 h1 he, hm⟩

theorem not_mem_of_mem_splitOn {l s : List Char} (h : s ∈ l.splitOn '/') : '/' ∉ s := by
  induction l generalizing s with
  | nil => simp_all
  | cons c l ih =>
    simp only [List.splitOn, List.splitOnP_cons] at h ih
    split_ifs at h with hc
    · rcases List.mem_cons.1 h with rfl | h
      · simp
      · exact ih h
    · obtain ⟨t, ts, ht⟩ := List.exists_cons_of_ne_nil (List.splitOnP_ne_nil (· == '/') l)
      rw [ht] at h ih
      simp only [List.modifyHead, List.mem_cons] at h ih
      rcases h with rfl | h
      · simp only [List.mem_cons, not_or]
        exact ⟨fun h => hc (by subst h; decide), ih (.inl rfl)⟩
      · exact ih (.inr h)

theorem keptStack_foldl {rooted : Bool} (elems : List (List Char))
    (he : ∀ e ∈ elems, '/' ∉ e) {kept : List (List Char)} (hk : KeptStack rooted kept) :
    KeptStack rooted (elems.foldl (cleanStep rooted) kept) := by
  induction elems generalizing kept with
  | nil => exact hk
  | cons e es ih =>
    exact ih (fun x hx => he x (List.mem_cons_of_mem _ hx))
      (keptStack_cleanStep hk (he e (List.mem_cons_self _ _)))

/-! ## Replaying a kept stack -/

theorem foldl_cleanStep_names {rooted : Bool} (m : List (List Char)) (hm : ∀ e ∈ m, NameElem e)
    (kept : List (List Char)) : m.foldl (cleanStep rooted) kept = m.reverse ++ kept := by
  induction m generalizing kept with
  | nil => rfl
  | cons e m ih =>
    have he := hm e (List.mem_cons_self _ _)
    simp only [List.foldl_cons, cleanStep, he.1, he.2.1, he.2.2.1, or_self, if_false,
      ih (fun x hx => hm x (List.mem_cons_of_mem _ hx))]
    simp

theorem foldl_cleanStep_dotDots (j k : ℕ) :
    (List.replicate k dotDot).foldl (cleanStep false) (List.replicate j dotDot) =
      List.replicate (j + k) dotDot := by
  induction k generalizing j with
  | zero => rfl
  | succ k ih =>
    rw [List.replicate_succ, List.foldl_cons]
    have : cleanStep false (List.replicate j dotDot) dotDot = List.replicate (j + 1) dotDot := by
      cases j <;> simp [cleanStep, dotDot, List.replicate_succ]
    rw [this, ih]; congr 1; omega

/-- The elements of a kept stack, replayed in path order, rebuild the stack. -/
theorem foldl_cleanStep_reverse {rooted : Bool} {kept : List (List Char)}
    (hk : KeptStack rooted kept) : kept.reverse.foldl (cleanStep rooted) [] = kept := by
  obtain ⟨m, k, rfl, hm, hr⟩ := hk
  rw [List.reverse_append, List.foldl_append, List.reverse_replicate,
    foldl_cleanStep_names _ (by simpa using hm), List.reverse_reverse]
  cases rooted
  · simpa using foldl_cleanStep_dotDots 0 k
  · simp [hr rfl]

/-! ## Idempotence -/

theorem mem_keptStack {rooted : Bool} {kept : List (List Char)} (hk : KeptStack rooted kept)
    {e : List Char} (he : e ∈ kept) : e ≠ [] ∧ '/' ∉ e := by
  obtain ⟨m, k, rfl, hm, -⟩ := hk
  rcases List.mem_append.1 he with he | he
  · exact ⟨(hm e he).1, (hm e he).2.2.2⟩
  · rw [List.eq_of_mem_replicate he]; simp [dotDot]

theorem splitOn_intercalate_reverse {rooted : Bool} {kept : List (List Char)}
    (hk : KeptStack rooted kept) (hne : kept ≠ []) :
    (['/'].intercalate kept.reverse).splitOn '/' = kept.reverse :=
  List.splitOn_intercalate _ _ (fun _ hl => (mem_keptStack hk (List.mem_reverse.1 hl)).2)
    (by simpa using hne)

theorem intercalate_cons_eq_append (sep e : List Char) (es : List (List Char)) :
    ∃ t, sep.intercalate (e :: es) = e ++ t := by
  cases es <;> exact ⟨_, by simp [List.intercalate]; rfl⟩

theorem head_intercalate_ne_slash {rooted : Bool} {kept : List (List Char)}
    (hk : KeptStack rooted kept) {c : Char} {cs : List Char}
    (h : ['/'].intercalate kept.reverse = c :: cs) : c ≠ '/' := by
  cases hr : kept.reverse with
  | nil => simp [hr, List.intercalate] at h
  | cons e es =>
    have he := mem_keptStack hk (List.mem_reverse.1 (hr ▸ List.mem_cons_self e es))
    obtain ⟨t, ht⟩ := intercalate_cons_eq_append ['/'] e es
    rw [hr, ht] at h
    obtain ⟨d, ds, rfl⟩ := List.exists_cons_of_ne_nil he.1
    obtain ⟨rfl, -⟩ := List.cons_eq_cons.1 h
    exact fun hd => he.2 (hd ▸ List.mem_cons_self _ _)

theorem cleanChars_renderClean {rooted : Bool} {kept : List (List Char)}
    (hk : KeptStack rooted kept) :
    cleanChars (renderClean rooted kept) = renderClean rooted kept := by
  cases rooted with
  | true =>
    simp only [renderClean, if_true, cleanChars, beq_self_eq_true, List.splitOn,
      List.splitOnP_cons, List.foldl_cons]
    rcases eq_or_ne kept [] with rfl | hne
    · rfl
    · rw [cleanStep, if_pos (.inl rfl), ← List.splitOn, splitOn_intercalate_reverse hk hne,
        foldl_cleanStep_reverse hk]
  | false =>
    simp only [renderClean, Bool.false_eq_true, if_false]
    split_ifs with hb
    · rfl
    · obtain ⟨c, cs, hc⟩ := List.exists_cons_of_ne_nil hb
      have hne : kept ≠ [] := by rintro rfl; simp [List.intercalate] at hb
      have hc' : (c == '/') = false := by simpa using head_intercalate_ne_slash hk hc
      rw [hc, cleanChars, hc', ← hc, splitOn_intercalate_reverse hk hne,
        foldl_cleanStep_reverse hk]
      simp [renderClean, hb]

/-- `filepath.Clean` on characters is idempotent. -/
theorem cleanChars_cleanChars (p : List Char) : cleanChars (cleanChars p) = cleanChars p := by
  cases p with
  | nil => rfl
  | cons c cs =>
    exact cleanChars_renderClean (keptStack_foldl _ (fun _ => not_mem_of_mem_splitOn)
      (keptStack_nil _))

theorem filepathClean_filepathClean (p : String) :
    filepathClean (filepathClean p) = filepathClean p := by
  simp [filepathClean, cleanChars_cleanChars]

theorem filepathClean_head_of_head {s : String} (h : s.data.head? = some '/') :
    (filepathClean s).data.head? = some '/' := by
  obtain ⟨c, cs, hs⟩ : ∃ c cs, s.data = c :: cs :=
    List.exists_cons_of_ne_nil (by rintro h'; simp [h'] at h)
  obtain rfl : c = '/' := by simpa [hs] using h
  simp [filepathClean, hs, cleanChars, renderClean]

/-- `filepath.Join` returns `""` or a cleaned path. -/
theorem filepathJoin_eq (es : List String) :
    filepathJoin es = "" ∨ ∃ x, filepathJoin es = filepathClean x := by
  induction es with
  | nil => exact .inl rfl
  | cons e es ih =>
    rw [filepathJoin]
    split_ifs
    · exact ih
    · exact .inr ⟨_, rfl⟩

end BitBucketFs.Go
