import BitBucketFs.Filesystem

/-!
# Silent mode

An instance made by `Create()` stays silent until `WithError` is called. In silent mode
every operation takes its first branch: it prints, returns a nil error, and leaves the
filesystem as it was; `WithFakeDirectories` and `WithFakeFiles` do nothing. So the entries
map stays empty, and `Lstat`, which still looks the name up, finds nothing and returns
the default projection.

Results:
* `exec_silent`: one call other than `WithError` on a silent, empty filesystem succeeds
  and leaves it unchanged.
* `silent_run`: every call sequence without `WithError` from `Create()` never fails,
  `Stat`/`Lstat` return a zero-size non-directory projection, and the filesystem stays
  `Create()` throughout.
-/

namespace BitBucketFs

open Go

/-- `WithError` is the only call that leaves silent mode. -/
def Call.isWithError : Call → Bool
  | .withError _ => true
  | _ => false

/-- A reply silent mode promises: a nil error, and for `Stat`/`Lstat` a projection of
    size 0 that is not a directory. -/
def Reply.SilentOk : Reply → Prop
  | .info fi e => e = .nil ∧ ∃ f, fi = some f ∧ f.iSize = 0 ∧ f.iDir = false
  | r => r.error = .nil

namespace BitBucketFS

variable {N : Type} [IBucketNode N] (home : String) (fuel : ℕ)

theorem exec_silent (bfs : BitBucketFS N) (hs : bfs.silent = true) (he : bfs.entries = ∅)
    {c : Call} (hc : c.isWithError = false) :
    ∃ r, bfs.exec home fuel c = .ok (r, bfs) ∧ r.SilentOk := by
  cases c <;> simp_all [Call.isWithError, exec, withFakeDirectories, withFakeFiles, withFakes,
    remove, executePath, rename, symlink, mkdir, openFile, stat, lstat, internalStat,
    readDir, Reply.SilentOk, Reply.error, Except.map, AList.lookup_empty, defaultFileInfo]

/-- Silent mode never fails and never touches the store. -/
theorem silent_run (cs : List Call) (hcs : ∀ c ∈ cs, c.isWithError = false) :
    ∃ rs, (create : BitBucketFS N).run home fuel cs = .ok (rs, create) ∧ ∀ r ∈ rs, r.SilentOk := by
  induction cs with
  | nil => exact ⟨[], rfl, by simp⟩
  | cons c cs ih =>
    obtain ⟨rs, hrun, hrs⟩ := ih fun c' h => hcs c' (List.mem_cons_of_mem _ h)
    obtain ⟨r, hr, hok⟩ := exec_silent home fuel (create : BitBucketFS N) rfl rfl
      (hcs c (List.mem_cons_self _ _))
    refine ⟨r :: rs, by rw [run_cons home fuel cs hr, hrun]; rfl, ?_⟩
    simp only [List.mem_cons, forall_eq_or_imp]
    exact ⟨hok, hrs⟩

theorem silent_run_remove_stat :
    ∃ rs, (create : BitBucketFS BucketNode).run "/home/user" 0
        [.withFakeFiles ["/a"], .remove "/a", .stat "/a"] = .ok (rs, create) ∧
      ∀ r ∈ rs, r.SilentOk :=
  silent_run "/home/user" 0 _ (by decide)

end BitBucketFS

end BitBucketFs
