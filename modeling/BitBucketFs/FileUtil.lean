import BitBucketFs.Go.Errors
import BitBucketFs.Go.Filepath

/-!
# `vfs` helpers: `CleanPath`, `HasModeFlag`, `HasFileModeFlag`

`fileutil.go` of the `vfs` package, with the Go types and constants the bit-bucket
filesystem passes to it: `os.FileMode` is a `uint32` (`BitVec 32`), Go's `int` is 64-bit
(`BitVec 64`).

`CleanPath` is applied only by `findNode` (so by `Stat` and link following); every other
operation applies `filepath.Clean` alone.

Results:
* `filepathClean_of_cleanPath_eq`: a path that `CleanPath` fixes is also fixed by
  `filepath.Clean`.
* `stringsTrim_ne_empty_of_cleanPath_eq`: a path that `CleanPath` fixes is not blank.
* `cleanPath_cleanPath`: with a rooted home directory, `CleanPath` is idempotent on every
  path whose result has no space or tab at either end.
* `cleanPath_trailing_space`: `filepath.Clean` can leave a space at the end
  (`"a /b/.."` gives `"a "`), which the second `CleanPath` trims.
-/

namespace BitBucketFs

open Go

/-- `os.FileMode`. -/
abbrev FileMode := BitVec 32

/-- Go's `int` and `int64` on a 64-bit platform. -/
abbrev GoInt := BitVec 64

/-- `os.ModeDir = 1 << 31`. -/
def modeDir : FileMode := 0x80000000

/-- `os.ModeSymlink = 1 << 27`. -/
def modeSymlink : FileMode := 0x8000000

/-- `os.ModePerm = 0777`. -/
def modePerm : FileMode := 0o777

/-- `os.O_RDONLY`. -/
def oRdonly : GoInt := 0

/-- `os.O_CREATE` (`syscall.O_CREAT` on Linux). -/
def oCreate : GoInt := 0x40

/-- `vfs.ErrIsDirectory`. Modelled from the spec: declared in the `vfs` package outside
    src/; only its identity as the "Is-Directory" kind is used. -/
def errIsDirectory : GoError := .errorString "is a directory"

/-- `vfs.ErrNotDirectory`. Modelled from the spec: declared in the `vfs` package outside
    src/; only its identity as the "Not-Directory" kind is used. -/
def errNotDirectory : GoError := .errorString "not a directory"

/-- `CleanPath` (`fileutil.go` lines 25–33): trim spaces and tabs, `filepath.Clean`,
    then expand a leading `~/` with `filepath.Join(home, path[2:])`. `home` is what
    `os.UserHomeDir()` returns (`""` on error). -/
def cleanPath (home path : String) : String :=
  let path := filepathClean (stringsTrim path " \t")
  match path.data with
  | '~' :: '/' :: rest => filepathJoin [home, ⟨rest⟩]
  | _ => path

/-- `HasModeFlag` (`fileutil.go` lines 36–38): `flags&flag == flag`. -/
def hasModeFlag (flag flags : GoInt) : Bool := flags &&& flag == flag

/-- `HasFileModeFlag` (`fileutil.go` lines 42–44): `flags&flag == flag`. -/
def hasFileModeFlag (flag flags : FileMode) : Bool := flags &&& flag == flag

theorem hasFileModeFlag_or_self (flag mode : FileMode) :
    hasFileModeFlag flag (flag ||| mode) = true := by
  have : (flag ||| mode) &&& flag = flag := by ext i; simp; exact Or.inl
  simp [hasFileModeFlag, this]

/-! ## Fixed points of `CleanPath` -/

/-- `CleanPath` only reads the trimmed path. -/
theorem cleanPath_of_stringsTrim {home p q : String}
    (h : stringsTrim p " \t" = stringsTrim q " \t") : cleanPath home p = cleanPath home q := by
  simp only [cleanPath, h]

theorem cleanPath_eq (home p : String) :
    cleanPath home p = "" ∨ ∃ x, cleanPath home p = filepathClean x := by
  unfold cleanPath
  dsimp only
  split
  · exact filepathJoin_eq _
  · exact .inr ⟨_, rfl⟩

theorem cleanPath_empty (home : String) : cleanPath home "" = "." := rfl

theorem filepathClean_of_cleanPath_eq {home p : String} (h : cleanPath home p = p) :
    filepathClean p = p := by
  rcases cleanPath_eq home p with h' | ⟨x, hx⟩
  · rw [h'] at h; subst h; exact absurd h' (by rw [cleanPath_empty]; decide)
  · rw [← h, hx, filepathClean_filepathClean]

theorem stringsTrim_ne_empty_of_cleanPath_eq {home p : String} (h : cleanPath home p = p) :
    stringsTrim p " \t" ≠ "" := by
  intro ht
  have : cleanPath home p = "." := by
    rw [cleanPath_of_stringsTrim (q := "") (by rw [ht]; rfl)]; rfl
  rw [h] at this; subst this
  exact absurd ht (by decide)

/-! ## Idempotence -/

/-- A trimmed, cleaned path that does not start with `~/` is its own `CleanPath`. -/
theorem cleanPath_of_fixed {home q : String} (ht : stringsTrim q " \t" = q)
    (hc : filepathClean q = q) (hn : ∀ rest, q.data ≠ '~' :: '/' :: rest) :
    cleanPath home q = q := by
  unfold cleanPath
  rw [ht, hc]
  dsimp only
  split
  · exact absurd ‹_› (hn _)
  · rfl

/-- With a rooted home directory, `CleanPath` returns a cleaned path that does not start
    with `~/`: the expansion `filepath.Join(home, rest)` starts with `/`. -/
theorem cleanPath_clean_of_rooted {home : String} (hhome : home.data.head? = some '/')
    (p : String) : ∃ x, cleanPath home p = filepathClean x ∧
      ∀ rest, (cleanPath home p).data ≠ '~' :: '/' :: rest := by
  unfold cleanPath
  dsimp only
  split
  · rename_i rest _
    have hne : home ≠ "" := by rintro rfl; simp at hhome
    have hj : filepathJoin [home, ⟨rest⟩] = filepathClean ("/".intercalate [home, ⟨rest⟩]) :=
      if_neg hne
    have hh : ("/".intercalate [home, ⟨rest⟩]).data.head? = some '/' := by
      obtain ⟨c, cs, hc⟩ : ∃ c cs, home.data = c :: cs :=
        List.exists_cons_of_ne_nil (by rintro h'; simp [h'] at hhome)
      obtain rfl : c = '/' := by simpa [hc] using hhome
      simp [String.intercalate, String.intercalate.go, hc]
    refine ⟨_, hj, fun r hr => ?_⟩
    have hroot := filepathClean_head_of_head hh
    rw [← hj, hr] at hroot
    simp at hroot
  · exact ⟨_, rfl, ‹_›⟩

/-- `CleanPath` is idempotent, for a rooted home directory, on every path whose
    `CleanPath` has no space or tab at either end. -/
theorem cleanPath_cleanPath {home : String} (hhome : home.data.head? = some '/') (p : String)
    (hp : stringsTrim (cleanPath home p) " \t" = cleanPath home p) :
    cleanPath home (cleanPath home p) = cleanPath home p := by
  obtain ⟨x, hx, hn⟩ := cleanPath_clean_of_rooted hhome p
  refine cleanPath_of_fixed hp ?_ hn
  rw [hx, filepathClean_filepathClean]

theorem cleanPath_cleanPath_tilde :
    "/home/user".data.head? = some '/' ∧
      stringsTrim (cleanPath "/home/user" "~/x/../y") " \t" = cleanPath "/home/user" "~/x/../y" ∧
      cleanPath "/home/user" (cleanPath "/home/user" "~/x/../y") =
        cleanPath "/home/user" "~/x/../y" :=
  ⟨by decide, by decide, cleanPath_cleanPath (by decide) "~/x/../y" (by decide)⟩

/-- `"a /b/.."` trims to itself and cleans to `"a "`; the second `CleanPath` trims the
    space. -/
theorem cleanPath_trailing_space :
    cleanPath "/home/user" "a /b/.." = "a " ∧
      cleanPath "/home/user" (cleanPath "/home/user" "a /b/..") = "a" := by decide

end BitBucketFs
