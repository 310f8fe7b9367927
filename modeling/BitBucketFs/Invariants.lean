import BitBucketFs.Commute
import BitBucketFs.Deref

/-!
# Invariants of reachable filesystems

A program holds a `*BitBucketFS` made by `Create()` or `CreateWithError(E)` and then
changed by calls, each with whatever Go stack it has (`Reachable`). Every such
filesystem keeps two invariants, and along every run without `WithError` the injected
error stays the one every error but `Stat`'s wraps.

Every key of the map is a cleaned path: each call that inserts a key inserts
`filepath.Clean` of its argument, and `Stat` only rewrites the client data of a key
that is already there. So every entry can be named by the calls, which all clean
their argument.

No call makes a node of non-zero size: `createNode` and `LinkTo` give size 0 and
nothing changes a size. The constant `BITBUCKET_FILE_SIZE = 512`
(`bitbucket_filesystem.go` line 24) is read by no code.

Results:
* `Reachable.keysClean`: every key of a reachable filesystem is a cleaned path.
* `Reachable.info_size_zero`: on a reachable filesystem of functional nodes, every
  `os.FileInfo` that `Stat` or `Lstat` returns has size 0.
* `run_error_wraps`: along a run without `WithError` from an injected error `E` that is
  not nil, every error of a call other than `Stat` is nil or wraps `E`.
-/

namespace BitBucketFs

open Go

namespace BitBucketFS

variable {N : Type} [IBucketNode N] (home : String)

/-- The filesystems a program can hold: made by `Create()` or `CreateWithError(E)`,
    then changed by calls, each run with any stack depth. -/
inductive Reachable : BitBucketFS N → Prop
  | create : Reachable create
  | createWithError {E : GoError} {b : BitBucketFS N} : createWithError E = .ok b → Reachable b
  | exec {b b' : BitBucketFS N} {fuel : ℕ} {c : Call} {r : Reply} :
      Reachable b → b.exec home fuel c = .ok (r, b') → Reachable b'

/-- An invariant that `Create()` and `CreateWithError(E)` establish and every call
    keeps holds of every reachable filesystem. -/
theorem reachable_induction {P : BitBucketFS N → Prop} (hc : P BitBucketFS.create)
    (hce : ∀ E (b : BitBucketFS N), BitBucketFS.createWithError E = .ok b → P b)
    (hs : ∀ (b b' : BitBucketFS N) fuel c r, P b → b.exec home fuel c = .ok (r, b') → P b')
    {b : BitBucketFS N} (h : Reachable home b) : P b := by
  induction h with
  | create => exact hc
  | createWithError h => exact hce _ _ h
  | exec _ h ih => exact hs _ _ _ _ _ ih h

/-- A run from a reachable filesystem ends in a reachable filesystem. -/
theorem Reachable.of_run {fuel : ℕ} :
    ∀ (cs : List Call) {b b' : BitBucketFS N} {rs : List Reply},
      Reachable home b → b.run home fuel cs = .ok (rs, b') → Reachable home b'
  | [], _, _, _, hb, h => by cases h; exact hb
  | _ :: cs, _, _, _, hb, h => by
    obtain ⟨_, _, _, hc, hr, -⟩ := run_cons_eq_ok home fuel h
    exact Reachable.of_run cs (hb.exec hc) hr

omit [IBucketNode N] in
theorem entries_of_createWithError {E : GoError} {b : BitBucketFS N}
    (h : createWithError E = .ok b) : b.entries = ∅ := by
  unfold createWithError at h
  split_ifs at h
  cases h; rfl

/-! ## Keys are cleaned paths -/

/-- Every key of the map is its own `filepath.Clean`. -/
def KeysClean (b : BitBucketFS N) : Prop := ∀ k ∈ b.entries, filepathClean k = k

theorem filepathClean_of_mem_writes {c : Call} {k : String} (h : k ∈ c.writes) :
    filepathClean k = k := by
  cases c <;> simp only [Call.writes, List.mem_map, List.mem_cons, List.mem_singleton,
    List.not_mem_nil, or_false] at h
  case withFakeDirectories | withFakeFiles =>
    obtain ⟨p, -, rfl⟩ := h
    exact filepathClean_filepathClean p
  case rename => rcases h with rfl | rfl <;> exact filepathClean_filepathClean _
  all_goals subst h; exact filepathClean_filepathClean _

/-- Every call keeps the keys cleaned: it inserts only cleaned keys, and `Stat` keeps
    the key set. -/
theorem exec_keysClean {b b' : BitBucketFS N} (hb : KeysClean b) (fuel : ℕ) (c : Call)
    {r : Reply} (h : b.exec home fuel c = .ok (r, b')) : KeysClean b' := by
  intro k hk
  cases hc : c.isLocal
  · cases c <;> simp only [Call.isLocal, Bool.true_eq_false] at hc
    case withError => cases h; exact hb k hk
    case stat p =>
      obtain ⟨⟨_, _⟩, hx, ⟨⟩⟩ := exists_of_map_eq_ok h
      exact hb k (((stat_frame home fuel b p hx).mem_iff k).mp hk)
  · by_cases hw : k ∈ c.writes
    · exact filepathClean_of_mem_writes hw
    · obtain ⟨-, -, hf⟩ := exec_frame home fuel hc h
      exact hb k ((mem_iff_of_lookup_eq (hf k hw)).mp hk)

/-- Every key of a reachable filesystem is a cleaned path. -/
theorem Reachable.keysClean {b : BitBucketFS N} (h : Reachable home b) :
    ∀ k ∈ b.entries, filepathClean k = k := by
  refine reachable_induction home (P := KeysClean) ?_ ?_ ?_ h
  · intro k hk; exact absurd hk (AList.not_mem_empty k)
  · intro E b hb k hk
    rw [entries_of_createWithError hb] at hk
    exact absurd hk (AList.not_mem_empty k)
  · intro b b' fuel c r hb hs
    exact exec_keysClean home hb fuel c hs

theorem keysClean_withFakeFiles :
    Reachable "/home/user" ((⟨false, .errorString "E", ∅⟩ : BitBucketFS BucketNode).withFakeFiles
      ["/a/../b", "c//d"]) ∧
    ∀ k ∈ ((⟨false, .errorString "E", ∅⟩ : BitBucketFS BucketNode).withFakeFiles
      ["/a/../b", "c//d"]).entries, filepathClean k = k :=
  have h := @Reachable.exec BucketNode _ "/home/user" _ _ 0 (.withFakeFiles ["/a/../b", "c//d"]) _
    (.createWithError (E := .errorString "E") rfl) rfl
  ⟨h, Reachable.keysClean "/home/user" h⟩

/-! ## Where a projection comes from -/

/-- Every `os.FileInfo` a call returns is the default projection, or what
    `internalStat` returns on a filesystem that differs from the one called at most in
    client data. -/
theorem exec_info {b b' : BitBucketFS N} {fuel : ℕ} {c : Call} {fi : BitBucketFileInfo}
    {e : GoError} (h : b.exec home fuel c = .ok (.info (some fi) e, b')) :
    fi = defaultFileInfo ∨
      ∃ op k, b'.internalStat op k = .ok (some fi, e) ∧ ClientDataOnly b b' := by
  cases c <;> simp only [exec] at h
  case lstat p =>
    obtain ⟨⟨_, _⟩, hx, ⟨⟩⟩ := exists_of_map_eq_ok h
    exact .inr ⟨_, _, hx, .inl rfl⟩
  case stat p =>
    obtain ⟨⟨⟨_, _⟩, _⟩, hx, ⟨⟩⟩ := exists_of_map_eq_ok h
    have hcd := stat_frame home fuel b p hx
    unfold stat at hx
    split at hx
    · cases hx; exact .inl rfl
    split at hx
    · cases hx
    · cases hx
    split at hx
    · split at hx
      · cases hx
      · cases hx
      split at hx
      · cases hx
      · obtain ⟨_, hi, ⟨⟩⟩ := exists_of_map_eq_ok hx
        exact .inr ⟨_, _, hi, hcd⟩
    · obtain ⟨_, hi, ⟨⟩⟩ := exists_of_map_eq_ok hx
      exact .inr ⟨_, _, hi, hcd⟩
  all_goals first
    | cases h
    | obtain ⟨⟨_, _⟩, -, hr⟩ := exists_of_map_eq_ok h; cases hr

/-! ## Sizes -/

/-- Every node in the map has size 0. -/
def SizesZero (b : BitBucketFS BucketNode) : Prop :=
  ∀ k n, b.entries.lookup k = some (some n) → n.fsize = 0

theorem fsize_of_linkTo {key : String} {n : BucketNode} (h : linkTo key = some n) :
    n.fsize = 0 := by
  by_cases hk : stringsTrim key " \t" = ""
  · rw [(BucketNode.linkTo_eq_none_iff key).2 hk] at h; cases h
  · rw [BucketNode.linkTo_of_ne hk] at h; cases h; rfl

/-- No call makes a node of non-zero size. -/
theorem exec_sizesZero {b b' : BitBucketFS BucketNode} (hb : SizesZero b) (fuel : ℕ) (c : Call)
    {r : Reply} (h : b.exec home fuel c = .ok (r, b')) : SizesZero b' := by
  cases hc : c.isLocal
  · cases c <;> simp only [Call.isLocal, Bool.true_eq_false] at hc
    case withError => cases h; exact hb
    case stat p =>
      obtain ⟨⟨_, _⟩, hx, ⟨⟩⟩ := exists_of_map_eq_ok h
      rcases stat_frame home fuel b p hx with rfl | ⟨k', n', hk', rfl⟩
      · exact hb
      · intro k n hk
        simp only [lookup_insert_ite] at hk
        split_ifs at hk
        · cases hk; exact hb k' n' hk'
        · exact hb k n hk
  · intro k n hk
    cases exec_localStep home fuel hc h with
    | keep => exact hb k n hk
    | withFakeDirectories | withFakeFiles | mkdir =>
      simp only [lookup_insertNodes, lookup_insert_ite] at hk
      split_ifs at hk
      · cases hk; rfl
      · exact hb k n hk
    | remove =>
      rw [lookup_erase_ite] at hk
      split_ifs at hk
      exact hb k n hk
    | rename hl =>
      rw [lookup_insert_ite, lookup_erase_ite] at hk
      split_ifs at hk
      · cases hk; exact hb _ _ hl
      · exact hb k n hk
    | symlink =>
      rw [lookup_insert_ite] at hk
      split_ifs at hk
      · exact fsize_of_linkTo (Option.some.inj hk)
      · exact hb k n hk

theorem Reachable.sizesZero {b : BitBucketFS BucketNode} (h : Reachable home b) : SizesZero b :=
  reachable_induction home (P := SizesZero) (fun _ _ hk => by cases hk)
    (fun _ _ hb _ _ hk => by rw [entries_of_createWithError hb] at hk; cases hk)
    (fun _ _ fuel c _ hb hs => exec_sizesZero home hb fuel c hs) h

theorem internalStat_size {b : BitBucketFS BucketNode} (hb : SizesZero b) {op name : String}
    {fi : BitBucketFileInfo} {e : GoError} (h : b.internalStat op name = .ok (some fi, e)) :
    fi.iSize = 0 := by
  unfold internalStat at h
  rcases hl : b.entries.lookup (filepathClean name) with _ | _ | node <;> simp only [hl] at h
  · split at h <;> cases h; rfl
  · cases h
  · cases h
    have := hb _ _ hl
    split_ifs <;> simpa [newBitBucketDirInfo, newBitBucketFileInfo]

/-- On a reachable filesystem of functional nodes, every `os.FileInfo` that `Stat` or
    `Lstat` returns has size 0. -/
theorem Reachable.info_size_zero {b b' : BitBucketFS BucketNode} (hr : Reachable home b)
    {fuel : ℕ} {c : Call} {fi : BitBucketFileInfo} {e : GoError}
    (h : b.exec home fuel c = .ok (.info (some fi) e, b')) : fi.iSize = 0 := by
  rcases exec_info home h with rfl | ⟨_, _, hi, -⟩
  · rfl
  · exact internalStat_size (exec_sizesZero home hr.sizesZero fuel c h) hi

theorem info_size_zero_lstat :
    ∃ fi e b', Reachable "/home/user"
        ((⟨false, .errorString "E", ∅⟩ : BitBucketFS BucketNode).withFakeFiles ["/a"]) ∧
      ((⟨false, .errorString "E", ∅⟩ : BitBucketFS BucketNode).withFakeFiles ["/a"]).exec
        "/home/user" 0 (.lstat "/a") = .ok (.info (some fi) e, b') ∧ fi.iSize = 0 :=
  have hr := @Reachable.exec BucketNode _ "/home/user" _ _ 0 (.withFakeFiles ["/a"]) _
    (.createWithError (E := .errorString "E") rfl) rfl
  ⟨_, _, _, hr, rfl, @Reachable.info_size_zero "/home/user" _ _ hr 0 (.lstat "/a") _ _ rfl⟩

/-! ## Errors along a run -/

/-- Every call but `WithError` keeps the injected error. -/
theorem exec_err {b b' : BitBucketFS N} {fuel : ℕ} {c : Call} (hc : c.isWithError = false)
    {r : Reply} (h : b.exec home fuel c = .ok (r, b')) : b'.err = b.err := by
  cases hl : c.isLocal
  · cases c <;> simp only [Call.isLocal, Call.isWithError, Bool.true_eq_false] at hl hc
    obtain ⟨⟨_, _⟩, hx, ⟨⟩⟩ := exists_of_map_eq_ok h
    rcases stat_frame home fuel b _ hx with rfl | ⟨_, _, -, rfl⟩ <;> rfl
  · exact (exec_frame home fuel hl h).2.1

/-- Along a run without `WithError` from a filesystem whose injected error `E` is not
    nil, every error of a call other than `Stat` is nil or wraps `E`: `Stat` is the one
    call whose errors can drop it. -/
theorem run_error_wraps {fuel : ℕ} :
    ∀ (cs : List Call) {b b' : BitBucketFS N} {rs : List Reply}, b.err ≠ .nil →
      (∀ c ∈ cs, c.isWithError = false) → b.run home fuel cs = .ok (rs, b') →
        ∀ q ∈ cs.zip rs, (∀ p, q.1 ≠ .stat p) → WrapsOrNil b.err q.2.error
  | [], _, _, _, _, _, h, q, hq => by cases h; cases hq
  | c :: cs, b, b', rs, hE, hcs, h, q, hq => by
    obtain ⟨r, b₁, rs', hc, hr, rfl⟩ := run_cons_eq_ok home fuel h
    have he := exec_err home (hcs c (.head _)) hc
    rcases List.mem_cons.mp hq with rfl | hq
    · exact fun hp => exec_error_wraps home fuel hE hp hc
    · rw [← he]
      exact run_error_wraps cs (he ▸ hE) (fun c' h' => hcs c' (.tail _ h')) hr q hq

theorem run_error_wraps_remove_missing :
    (⟨false, .errorString "E", ∅⟩ : BitBucketFS BucketNode).err ≠ .nil ∧
      (∀ c ∈ [Call.withFakeFiles ["/a"], .mkdir "/a" 0o755, .remove "/b", .stat "/b"],
        c.isWithError = false) ∧
      ∃ rs b', (⟨false, .errorString "E", ∅⟩ : BitBucketFS BucketNode).run "/home/user" 0
          [.withFakeFiles ["/a"], .mkdir "/a" 0o755, .remove "/b", .stat "/b"] = .ok (rs, b') ∧
        ∀ q ∈ [Call.withFakeFiles ["/a"], .mkdir "/a" 0o755, .remove "/b", .stat "/b"].zip rs,
          (∀ p, q.1 ≠ .stat p) → WrapsOrNil (.errorString "E") q.2.error :=
  ⟨by decide, by decide, _, _, rfl,
    @run_error_wraps BucketNode _ "/home/user" 0 _ ⟨false, .errorString "E", ∅⟩ _ _ (by decide)
      (by decide) rfl⟩

end BitBucketFS

end BitBucketFs
