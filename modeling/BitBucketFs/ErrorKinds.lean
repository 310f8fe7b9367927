import BitBucketFs.Namespace

/-!
# Which errors wrap the injected error

The spec asks every hybrid-mode error to wrap the injected error `E` and, where its kind
has one, the kind's sentinel. The code builds its errors three ways: a `*PathError` or
`*LinkError` around `E` (not-found, and the link conflicts of `Rename` and `Symlink`), a
`*PathError` around `errors.Join(E, kind)` (the existence conflicts of `Mkdir`, `Open` on
a directory, `ReadDir` on a file), and, in `Stat` and `dereferenceSymLink`, a
`*PathError` around `fs.ErrNotExist` alone. `WithError` accepts a nil error.

Results:
* `exec_error_wraps`: every error of a call other than `Stat` wraps the injected error.
* `stat_error_drops_injected`: `Stat`'s not-found error does not wrap `E`, `Remove`'s
  does not wrap `fs.ErrNotExist`, and `WithError(nil)` gives hybrid mode with no error.
-/

namespace BitBucketFs

open Go BitBucketFS

/-- `err` is nil or `errors.Is(err, E)`. -/
def WrapsOrNil (E err : GoError) : Prop := err = .nil ∨ errorsIs err E = true

section Wraps

variable {E : GoError}

@[simp] theorem wrapsOrNil_nil : WrapsOrNil E .nil := .inl rfl

variable (hE : E ≠ .nil)
include hE

@[simp] theorem wrapsOrNil_pathError (op p : String) : WrapsOrNil E (.pathError op p E) :=
  .inr (by simp [hE])

@[simp] theorem wrapsOrNil_pathError_join (op p : String) (k : GoError) :
    WrapsOrNil E (.pathError op p (errorsJoin E k)) :=
  .inr (by simp [hE, isChain_errorsJoin hE])

@[simp] theorem wrapsOrNil_linkError (op o n msg : String) :
    WrapsOrNil E (.linkError op o n (.wrapError msg E)) :=
  .inr (by simp [errorsIs, hE, isChain])

end Wraps

theorem exists_of_map_eq_ok {α β : Type} {f : α → β} {x : Except Fault α} {y : β}
    (h : x.map f = .ok y) : ∃ a, x = .ok a ∧ f a = y := by
  cases x <;> cases h; exact ⟨_, rfl, rfl⟩

/-- In hybrid mode every error a call other than `Stat` returns wraps the injected error:
    a `*PathError` or `*LinkError` around it, or around `errors.Join` of it and a kind. -/
theorem exec_error_wraps {N : Type} [IBucketNode N] (home : String) (fuel : ℕ)
    {bfs : BitBucketFS N} (hE : bfs.err ≠ .nil) {c : Call} (hc : ∀ p, c ≠ .stat p)
    {r : Reply} {bfs' : BitBucketFS N} (h : bfs.exec home fuel c = .ok (r, bfs')) :
    WrapsOrNil bfs.err r.error := by
  cases c <;> simp only [exec] at h
  case stat p => exact absurd rfl (hc p)
  case withFakeDirectories | withFakeFiles | withError => cases h; exact wrapsOrNil_nil
  all_goals
    obtain ⟨⟨_, _⟩, hx, ⟨⟩⟩ := exists_of_map_eq_ok h
    simp only [remove, executePath, rename, symlink, mkdir, openFile, lstat, internalStat,
      readDir] at hx
    (repeat' split at hx) <;> cases hx <;> simp [Reply.error, hE]

/-- With `E = errors.New("Any BitBucket error")` on an empty store: `Stat("/x")` returns
    `&PathError{"Stat", "/x", fs.ErrNotExist}`, which does not wrap `E`;
    `Remove("/x")` returns `&PathError{"Remove", "/x", E}`, which does not wrap
    `fs.ErrNotExist`; and `Create().WithError(nil)` is in hybrid mode with a nil error. -/
theorem stat_error_drops_injected (home : String) (fuel : ℕ) :
    (((createWithError (.errorString "Any BitBucket error") :
        Except Fault (BitBucketFS BucketNode)).bind fun bfs => bfs.exec home fuel (.stat "/x")).map
        fun (r, _) => (r.error, errorsIs r.error (.errorString "Any BitBucket error"))) =
      .ok (.pathError "Stat" "/x" errNotExist, false) ∧
    (((createWithError (.errorString "Any BitBucket error") :
        Except Fault (BitBucketFS BucketNode)).bind fun bfs => bfs.exec home fuel (.remove "/x")).map
        fun (r, _) => (r.error, errorsIs r.error errNotExist)) =
      .ok (.pathError "Remove" "/x" (.errorString "Any BitBucket error"), false) ∧
    ((create : BitBucketFS BucketNode).withError .nil).silent = false ∧
    ((create : BitBucketFS BucketNode).withError .nil).err = .nil :=
  ⟨rfl, rfl, rfl, rfl⟩

end BitBucketFs
