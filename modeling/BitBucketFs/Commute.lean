import BitBucketFs.ErrorKinds

/-!
# Calls on disjoint keys commute

Every call but `WithError` and `Stat` cleans its path arguments with `filepath.Clean`
and then reads and writes the entries map only under those keys (`Call.keys`,
`Call.writes`). Two such calls where neither writes a key the other one touches can be
run in either order: each returns the same reply, and the two final filesystems have
the same mode, the same error and the same entry under every key.

A Go map has no order, and no operation ranges over the map: two filesystems with the
same entry under every key (`Equiv`) answer every call sequence alike. The model's
association list does have an order, which the two orders of a swap leave different.

`LocalStep` lists once what such a call can do to the filesystem when it succeeds
(`exec_localStep`); the invariants of `Invariants` and `Faults` are read off it.

Results:
* `exec_frame`: a call other than `WithError` and `Stat` keeps the mode and the error,
  and changes no entry outside the keys it writes.
* `exec_local`: its reply, and what it writes, depend only on the entries under its
  own keys.
* `run_equiv`: filesystems with the same entries answer every call sequence alike.
* `run_swap`: inside any run, two adjacent independent calls can be swapped.
-/

namespace BitBucketFs

open Go

/-! ## The keys of a call -/

namespace Call

/-- The calls whose keys are known before they run: all but `WithError`, which changes
    the mode and the error every call reads, and `Stat`, which follows links. -/
def isLocal : Call → Bool
  | .withError _ | .stat _ => false
  | _ => true

/-- The keys a call may insert or delete. -/
def writes : Call → List String
  | .withFakeDirectories ps | .withFakeFiles ps => ps.map filepathClean
  | .remove p | .mkdir p _ => [filepathClean p]
  | .rename o n => [filepathClean o, filepathClean n]
  | .symlink _ l => [filepathClean l]
  | _ => []

/-- The keys a call may read or write. -/
def keys : Call → List String
  | .symlink t l => [filepathClean t, filepathClean l]
  | .openFile p _ _ | .lstat p | .readDir p => [filepathClean p]
  | c => c.writes

theorem mem_keys_of_mem_writes {c : Call} {k : String} (h : k ∈ c.writes) : k ∈ c.keys := by
  cases c <;> simp_all [writes, keys]

/-- Neither call writes a key the other one reads or writes. -/
def Independent (c₁ c₂ : Call) : Prop :=
  c₁.isLocal = true ∧ c₂.isLocal = true ∧ (∀ k ∈ c₁.writes, k ∉ c₂.keys) ∧
    ∀ k ∈ c₂.writes, k ∉ c₁.keys

instance (c₁ c₂ : Call) : Decidable (Independent c₁ c₂) :=
  inferInstanceAs (Decidable (_ ∧ _ ∧ _ ∧ _))

end Call

namespace BitBucketFS

variable {N : Type}

/-! ## Entries under a key -/

theorem lookup_insert_ite (e : Entries N) (k k' : String) (v : Option N) :
    (e.insert k v).lookup k' = if k' = k then some v else e.lookup k' := by
  split_ifs with h
  · subst h; exact AList.lookup_insert e
  · exact AList.lookup_insert_ne h

theorem lookup_erase_ite (e : Entries N) (k k' : String) :
    (e.erase k).lookup k' = if k' = k then none else e.lookup k' := by
  split_ifs with h
  · subst h; exact AList.lookup_erase k' e
  · exact AList.lookup_erase_ne h

theorem mem_iff_of_lookup_eq {e e' : Entries N} {k : String} (h : e.lookup k = e'.lookup k) :
    k ∈ e ↔ k ∈ e' := by
  rw [← AList.lookup_isSome, ← AList.lookup_isSome, h]

/-! ## Filesystems that agree -/

/-- `b` and `b'` have the same mode, the same error and the same entry under each key
    of `ks`. -/
structure AgreeOn (ks : List String) (b b' : BitBucketFS N) : Prop where
  silent : b.silent = b'.silent
  err : b.err = b'.err
  lookup : ∀ k ∈ ks, b.entries.lookup k = b'.entries.lookup k

/-- Filesystems no call tells apart: the same mode, the same error and the same entry
    under every key. -/
structure Equiv (b b' : BitBucketFS N) : Prop where
  silent : b.silent = b'.silent
  err : b.err = b'.err
  lookup : ∀ k, b.entries.lookup k = b'.entries.lookup k

namespace Equiv

theorem refl (b : BitBucketFS N) : Equiv b b := ⟨rfl, rfl, fun _ => rfl⟩

theorem agreeOn {b b' : BitBucketFS N} (h : Equiv b b') (ks : List String) : AgreeOn ks b b' :=
  ⟨h.silent, h.err, fun k _ => h.lookup k⟩

theorem insert {b b' : BitBucketFS N} (h : Equiv b b') (k : String) (v : Option N) :
    Equiv { b with entries := b.entries.insert k v } { b' with entries := b'.entries.insert k v } :=
  ⟨h.silent, h.err, fun k' => by simp only [lookup_insert_ite, h.lookup]⟩

end Equiv

/-! ## The frame of a call -/

variable [IBucketNode N] (home : String) (fuel : ℕ)

theorem lookup_insertNodes (e : Entries N) (mode : FileMode) (names : List String) (k : String) :
    (insertNodes e mode names).lookup k =
      if k ∈ names then some (some (createNode mode)) else e.lookup k := by
  induction names generalizing e with
  | nil => simp [insertNodes]
  | cons name names ih =>
    simp only [insertNodes, List.foldl_cons] at ih ⊢
    rw [ih, lookup_insert_ite]
    by_cases h : k = name <;> simp [h]

/-- What a local call that succeeds can do: keep the filesystem, or make one edit of its
    entries under the keys the call writes, in the state the call checked. -/
inductive LocalStep : Call → BitBucketFS N → BitBucketFS N → Prop
  | keep {c : Call} {b : BitBucketFS N} : LocalStep c b b
  | withFakeDirectories {b : BitBucketFS N} (dirs : List String) :
      LocalStep (.withFakeDirectories dirs) b { b with
        entries := insertNodes b.entries (modeDir ||| allPerms)
          ((dirs.map filepathClean).insertionSort (· ≤ ·)) }
  | withFakeFiles {b : BitBucketFS N} (files : List String) :
      LocalStep (.withFakeFiles files) b { b with
        entries := insertNodes b.entries allRwPerms
          ((files.map filepathClean).insertionSort (· ≤ ·)) }
  | remove {b : BitBucketFS N} {name : String} {n : N}
      (hl : b.entries.lookup (filepathClean name) = some (some n)) :
      LocalStep (.remove name) b { b with entries := b.entries.erase (filepathClean name) }
  | rename {b : BitBucketFS N} {oldPath newPath : String} {n : N}
      (hl : b.entries.lookup (filepathClean oldPath) = some (some n))
      (hm : filepathClean newPath ∉ b.entries) :
      LocalStep (.rename oldPath newPath) b { b with
        entries := (b.entries.erase (filepathClean oldPath)).insert (filepathClean newPath)
          (some n) }
  | symlink {b : BitBucketFS N} {oldName newName : String} {n : N}
      (hl : b.entries.lookup (filepathClean oldName) = some (some n))
      (hm : filepathClean newName ∉ b.entries) :
      LocalStep (.symlink oldName newName) b { b with
        entries := b.entries.insert (filepathClean newName) (linkTo (filepathClean oldName)) }
  | mkdir {b : BitBucketFS N} {name : String} {perm : FileMode}
      (hl : b.entries.lookup (filepathClean name) = none) :
      LocalStep (.mkdir name perm) b { b with
        entries := b.entries.insert (filepathClean name) (some (createNode (modeDir ||| perm))) }

/-- Every local call that succeeds takes a `LocalStep`. -/
theorem exec_localStep {b b' : BitBucketFS N} {c : Call} (hc : c.isLocal = true) {r : Reply}
    (h : b.exec home fuel c = .ok (r, b')) : LocalStep c b b' := by
  cases c <;> simp only [Call.isLocal, Bool.false_eq_true] at hc <;> simp only [exec] at h
  case withFakeDirectories dirs =>
    cases h
    simp only [withFakeDirectories, withFakes]
    split_ifs
    exacts [.keep, .withFakeDirectories dirs]
  case withFakeFiles files =>
    cases h
    simp only [withFakeFiles, withFakes]
    split_ifs
    exacts [.keep, .withFakeFiles files]
  all_goals
    obtain ⟨⟨_, _⟩, hx, ⟨⟩⟩ := exists_of_map_eq_ok h
    simp only [remove, executePath, rename, symlink, mkdir, openFile, lstat, internalStat,
      readDir] at hx
    (repeat' split at hx) <;> cases hx
    all_goals first | exact .keep | exact .remove ‹_› | exact .rename ‹_› ‹_› |
      exact .symlink ‹_› ‹_› | exact .mkdir ‹_›

/-- A call other than `WithError` and `Stat` keeps the mode and the error and changes no
    entry outside the keys it writes. -/
theorem exec_frame {b b' : BitBucketFS N} {c : Call} (hc : c.isLocal = true) {r : Reply}
    (h : b.exec home fuel c = .ok (r, b')) :
    b'.silent = b.silent ∧ b'.err = b.err ∧
      ∀ k ∉ c.writes, b'.entries.lookup k = b.entries.lookup k := by
  refine ⟨?_, ?_, fun k hk => ?_⟩ <;> cases exec_localStep home fuel hc h <;> try rfl
  all_goals simp only [Call.writes, List.mem_map, List.mem_cons, List.mem_singleton,
    List.not_mem_nil, or_false, not_or, not_exists, not_and] at hk
  case withFakeDirectories | withFakeFiles =>
    simp only [lookup_insertNodes, List.mem_insertionSort, List.mem_map]
    rw [if_neg (fun ⟨p, hp, he⟩ => hk p hp he)]
  all_goals simp only [lookup_insert_ite, lookup_erase_ite, hk, if_false]

/-! ## Locality -/

section Local

variable {b₁ b₂ b₁' : BitBucketFS N}

omit [IBucketNode N] in
theorem remove_local {name : String} (hag : AgreeOn (Call.remove name).keys b₁ b₂)
    {e : GoError} (h : b₁.remove name = .ok (e, b₁')) :
    ∃ b₂', b₂.remove name = .ok (e, b₂') ∧
      ∀ k ∈ (Call.remove name).writes, b₁'.entries.lookup k = b₂'.entries.lookup k := by
  have hk := hag.lookup _ (List.mem_singleton_self _)
  unfold remove executePath at h ⊢
  dsimp only at h ⊢
  rw [← hag.silent, ← hag.err, ← hk]
  by_cases hs : b₁.silent = true
  · rw [if_pos hs] at h ⊢; cases h; exact ⟨_, rfl, hag.lookup⟩
  rw [if_neg hs] at h ⊢
  rcases hl : b₁.entries.lookup (filepathClean name) with _ | _ | n <;> simp only [hl] at h ⊢ <;>
    cases h
  · exact ⟨_, rfl, hag.lookup⟩
  · refine ⟨_, rfl, fun k hk => ?_⟩
    rw [List.mem_singleton.mp hk, AList.lookup_erase, AList.lookup_erase]

omit [IBucketNode N] in
theorem rename_local {oldPath newPath : String}
    (hag : AgreeOn (Call.rename oldPath newPath).keys b₁ b₂) {e : GoError}
    (h : b₁.rename oldPath newPath = .ok (e, b₁')) :
    ∃ b₂', b₂.rename oldPath newPath = .ok (e, b₂') ∧
      ∀ k ∈ (Call.rename oldPath newPath).writes,
        b₁'.entries.lookup k = b₂'.entries.lookup k := by
  have hm := mem_iff_of_lookup_eq (hag.lookup _ (List.mem_cons_of_mem _ (List.mem_singleton_self _)))
  unfold rename at h ⊢
  dsimp only at h ⊢
  rw [← hag.silent, ← hag.err, ← hag.lookup _ (List.mem_cons_self _ _)]
  by_cases hs : b₁.silent = true
  · rw [if_pos hs] at h ⊢; cases h; exact ⟨_, rfl, hag.lookup⟩
  rw [if_neg hs] at h ⊢
  rcases hl : b₁.entries.lookup (filepathClean oldPath) with _ | node <;> simp only [hl] at h ⊢
  · cases h; exact ⟨_, rfl, hag.lookup⟩
  by_cases hn : filepathClean newPath ∈ b₁.entries
  · rw [if_pos hn] at h; rw [if_pos (hm.mp hn)]; cases h; exact ⟨_, rfl, hag.lookup⟩
  rw [if_neg hn] at h; rw [if_neg (mt hm.mpr hn)]
  cases node with
  | none => cases h
  | some x =>
    cases h
    refine ⟨_, rfl, fun k hk => ?_⟩
    simp only [lookup_insert_ite, lookup_erase_ite]
    split_ifs
    · rfl
    · rfl
    · exact hag.lookup k hk

theorem symlink_local {oldName newName : String}
    (hag : AgreeOn (Call.symlink oldName newName).keys b₁ b₂) {e : GoError}
    (h : b₁.symlink oldName newName = .ok (e, b₁')) :
    ∃ b₂', b₂.symlink oldName newName = .ok (e, b₂') ∧
      ∀ k ∈ (Call.symlink oldName newName).writes,
        b₁'.entries.lookup k = b₂'.entries.lookup k := by
  have hw := hag.lookup _ (List.mem_cons_of_mem _ (List.mem_singleton_self _))
  have hw' : ∀ k ∈ (Call.symlink oldName newName).writes,
      b₁.entries.lookup k = b₂.entries.lookup k := fun k hk => List.mem_singleton.mp hk ▸ hw
  unfold symlink at h ⊢
  dsimp only at h ⊢
  rw [← hag.silent, ← hag.err, ← hag.lookup _ (List.mem_cons_self _ _)]
  by_cases hs : b₁.silent = true
  · rw [if_pos hs] at h ⊢; cases h; exact ⟨_, rfl, hw'⟩
  rw [if_neg hs] at h ⊢
  rcases hl : b₁.entries.lookup (filepathClean oldName) with _ | node <;> simp only [hl] at h ⊢
  · cases h; exact ⟨_, rfl, hw'⟩
  by_cases hn : filepathClean newName ∈ b₁.entries
  · rw [if_pos hn] at h; rw [if_pos ((mem_iff_of_lookup_eq hw).mp hn)]; cases h
    exact ⟨_, rfl, hw'⟩
  rw [if_neg hn] at h; rw [if_neg (mt (mem_iff_of_lookup_eq hw).mpr hn)]
  cases node with
  | none => cases h
  | some x =>
    cases h
    refine ⟨_, rfl, fun k hk => ?_⟩
    rw [List.mem_singleton.mp hk, AList.lookup_insert, AList.lookup_insert]

theorem mkdir_local {name : String} {perm : FileMode}
    (hag : AgreeOn (Call.mkdir name perm).keys b₁ b₂) {e : GoError}
    (h : b₁.mkdir name perm = .ok (e, b₁')) :
    ∃ b₂', b₂.mkdir name perm = .ok (e, b₂') ∧
      ∀ k ∈ (Call.mkdir name perm).writes, b₁'.entries.lookup k = b₂'.entries.lookup k := by
  have hk := hag.lookup _ (List.mem_singleton_self _)
  unfold mkdir at h ⊢
  dsimp only at h ⊢
  rw [← hag.silent, ← hag.err, ← hk]
  by_cases hs : b₁.silent = true
  · rw [if_pos hs] at h ⊢; cases h; exact ⟨_, rfl, hag.lookup⟩
  rw [if_neg hs] at h ⊢
  rcases hl : b₁.entries.lookup (filepathClean name) with _ | _ | n <;> simp only [hl] at h ⊢ <;>
    cases h
  · refine ⟨_, rfl, fun k hk => ?_⟩
    rw [List.mem_singleton.mp hk, AList.lookup_insert, AList.lookup_insert]
  · exact ⟨_, rfl, hag.lookup⟩

theorem openFile_local {name : String} {flag : GoInt} {perm : FileMode}
    (hag : AgreeOn (Call.openFile name flag perm).keys b₁ b₂) :
    b₁.openFile name flag perm = b₂.openFile name flag perm := by
  simp only [openFile, hag.silent, hag.err, hag.lookup _ (List.mem_singleton_self _)]

theorem internalStat_local {op name : String} (hag : AgreeOn [filepathClean name] b₁ b₂) :
    b₁.internalStat op name = b₂.internalStat op name := by
  simp only [internalStat, hag.silent, hag.err, hag.lookup _ (List.mem_singleton_self _)]

theorem readDir_local {path : String} (hag : AgreeOn (Call.readDir path).keys b₁ b₂) :
    b₁.readDir path = b₂.readDir path := by
  simp only [readDir, hag.silent, hag.err, hag.lookup _ (List.mem_singleton_self _)]

omit [IBucketNode N] in
/-- The reply of a call that returns an error and a filesystem. -/
theorem exists_map_err {x : Except Fault (GoError × BitBucketFS N)} {e : GoError}
    {P : BitBucketFS N → Prop} (h : ∃ b, x = .ok (e, b) ∧ P b) :
    ∃ b, x.map (fun (e, b) => (Reply.err e, b)) = .ok (.err e, b) ∧ P b := by
  obtain ⟨b, rfl, hp⟩ := h
  exact ⟨b, rfl, hp⟩

end Local

/-- A call other than `WithError` and `Stat` answers alike on filesystems that agree on
    its keys, and writes the same entries under them. -/
theorem exec_local {c : Call} (hc : c.isLocal = true) {b₁ b₂ b₁' : BitBucketFS N} {r : Reply}
    (hag : AgreeOn c.keys b₁ b₂) (h : b₁.exec home fuel c = .ok (r, b₁')) :
    ∃ b₂', b₂.exec home fuel c = .ok (r, b₂') ∧
      ∀ k ∈ c.writes, b₁'.entries.lookup k = b₂'.entries.lookup k := by
  cases c <;> simp only [Call.isLocal, Bool.false_eq_true] at hc <;> simp only [exec] at h ⊢
  case withFakeDirectories | withFakeFiles =>
    cases h
    refine ⟨_, rfl, ?_⟩
    simp only [withFakeDirectories, withFakeFiles, withFakes, ← hag.silent]
    split_ifs
    · exact hag.lookup
    · intro k hk
      simp only [lookup_insertNodes, hag.lookup k hk]
  case remove | rename | symlink | mkdir =>
    obtain ⟨⟨_, _⟩, hx, ⟨⟩⟩ := exists_of_map_eq_ok h
    first
      | exact exists_map_err (remove_local hag hx)
      | exact exists_map_err (rename_local hag hx)
      | exact exists_map_err (symlink_local hag hx)
      | exact exists_map_err (mkdir_local hag hx)
  all_goals
    obtain ⟨_, hx, ⟨⟩⟩ := exists_of_map_eq_ok h
    refine ⟨b₂, ?_, nofun⟩
    first
      | rw [← openFile_local hag, hx]; rfl
      | rw [lstat, ← internalStat_local hag, ← lstat, hx]; rfl
      | rw [← readDir_local hag, hx]; rfl

/-! ## Filesystems with the same entries -/

section Equiv

variable {b b' : BitBucketFS N} (he : Equiv b b')
include he

theorem internalStat_equiv (op name : String) : b.internalStat op name = b'.internalStat op name := by
  simp only [internalStat, he.silent, he.err, he.lookup]

omit [IBucketNode N] in
theorem findNode_equiv (name : String) : b.findNode home name = b'.findNode home name := by
  simp only [findNode, he.lookup]

omit he in
theorem dereferenceSymLink_equiv (op : String) :
    ∀ (fuel : ℕ) {b b' : BitBucketFS N}, Equiv b b' → ∀ (name : String) {r : Except GoError N}
      {b₁ : BitBucketFS N}, b.dereferenceSymLink home op fuel name = .ok (r, b₁) →
        ∃ b₁', b'.dereferenceSymLink home op fuel name = .ok (r, b₁') ∧ Equiv b₁ b₁'
  | 0, _, _, _, _, _, _, h => by cases h
  | fuel + 1, b, b', he, name, r, b₁, h => by
    rw [dereferenceSymLink, findNode_equiv home he] at h
    rw [dereferenceSymLink]
    rcases hf : b'.findNode home name with ⟨_ | _ | node, cname⟩ <;> simp only [hf] at h ⊢
    · cases h; exact ⟨_, rfl, he⟩
    · cases h
    by_cases hl : isLink node <;> simp only [hl, if_true, if_false, Bool.false_eq_true] at h ⊢
    · rcases hd : b.dereferenceSymLink home op fuel (target node) with _ | ⟨_ | _, bd⟩ <;>
        simp only [hd] at h <;> cases h <;>
        obtain ⟨bd', hd', he'⟩ := dereferenceSymLink_equiv op fuel he _ hd <;>
        exact ⟨bd', by rw [hd'], he'⟩
    · cases h; exact ⟨_, rfl, he.insert _ _⟩

theorem stat_equiv (name : String) {r : Option BitBucketFileInfo × GoError} {b₁ : BitBucketFS N}
    (h : b.stat home fuel name = .ok (r, b₁)) :
    ∃ b₁', b'.stat home fuel name = .ok (r, b₁') ∧ Equiv b₁ b₁' := by
  rw [stat, findNode_equiv home he, he.silent] at h
  rw [stat]
  cases hs : b'.silent <;> simp only [hs, Bool.false_eq_true, ↓reduceIte] at h ⊢
  case true => cases h; exact ⟨_, rfl, he⟩
  rcases hf : b'.findNode home name with ⟨_ | _ | node, cleaned⟩ <;> simp only [hf] at h ⊢
  · cases h; exact ⟨_, rfl, he⟩
  · cases h
  by_cases hl : isLink node <;> simp only [hl, if_true, if_false, Bool.false_eq_true] at h ⊢
  · rcases hd : b.dereferenceSymLink home "Stat" fuel (target node) with _ | ⟨_ | n, bd⟩ <;>
      simp only [hd] at h
    · cases h
    · cases h
      obtain ⟨bd', hd', he'⟩ := dereferenceSymLink_equiv home "Stat" fuel he _ hd
      exact ⟨bd', by rw [hd'], he'⟩
    · obtain ⟨bd', hd', he'⟩ := dereferenceSymLink_equiv home "Stat" fuel he _ hd
      rw [hd']
      split at h
      · cases h
      · rw [internalStat_equiv he'] at h
        obtain ⟨_, hx, ⟨⟩⟩ := exists_of_map_eq_ok h
        exact ⟨bd', by simp [‹clientData n = _›, hx, Except.map], he'⟩
  · rw [internalStat_equiv he] at h
    obtain ⟨_, hx, ⟨⟩⟩ := exists_of_map_eq_ok h
    exact ⟨b', by simp [hx, Except.map], he⟩

/-- Filesystems with the same mode, error and entries answer every call alike. -/
theorem exec_equiv (c : Call) {r : Reply} {b₁ : BitBucketFS N}
    (h : b.exec home fuel c = .ok (r, b₁)) :
    ∃ b₁', b'.exec home fuel c = .ok (r, b₁') ∧ Equiv b₁ b₁' := by
  cases hc : c.isLocal
  · cases c <;> simp only [Call.isLocal, Bool.true_eq_false] at hc
    case withError e =>
      cases h; exact ⟨_, rfl, rfl, rfl, he.lookup⟩
    case stat p =>
      obtain ⟨⟨_, _⟩, hx, ⟨⟩⟩ := exists_of_map_eq_ok h
      obtain ⟨b₁', h', he'⟩ := stat_equiv home fuel he p hx
      exact ⟨b₁', by simp [exec, h', Except.map], he'⟩
  · obtain ⟨b₁', h', hw⟩ := exec_local home fuel hc (he.agreeOn _) h
    obtain ⟨hs, hr, hf⟩ := exec_frame home fuel hc h
    obtain ⟨hs', hr', hf'⟩ := exec_frame home fuel hc h'
    refine ⟨b₁', h', ⟨?_, ?_, fun k => ?_⟩⟩
    · rw [hs, hs', he.silent]
    · rw [hr, hr', he.err]
    · by_cases hk : k ∈ c.writes
      · exact hw k hk
      · rw [hf k hk, hf' k hk, he.lookup]

end Equiv

/-! ## Runs -/

theorem run_cons_eq_ok {b b₂ : BitBucketFS N} {c : Call} {cs : List Call} {rs : List Reply}
    (h : b.run home fuel (c :: cs) = .ok (rs, b₂)) :
    ∃ r b₁ rs', b.exec home fuel c = .ok (r, b₁) ∧ b₁.run home fuel cs = .ok (rs', b₂) ∧
      rs = r :: rs' := by
  rcases hc : b.exec home fuel c with _ | ⟨r, b₁⟩
  · simp [run, hc, bind, Except.bind] at h
  · rw [run_cons home fuel cs hc] at h
    obtain ⟨⟨rs', _⟩, hr, ⟨⟩⟩ := exists_of_map_eq_ok h
    exact ⟨r, b₁, rs', rfl, hr, rfl⟩

theorem run_append_eq_ok {b b₂ : BitBucketFS N} :
    ∀ (xs : List Call) {ys : List Call} {rs : List Reply},
      b.run home fuel (xs ++ ys) = .ok (rs, b₂) →
        ∃ rs₁ b₁ rs₂, b.run home fuel xs = .ok (rs₁, b₁) ∧ b₁.run home fuel ys = .ok (rs₂, b₂) ∧
          rs = rs₁ ++ rs₂
  | [], _, _, h => ⟨[], b, _, rfl, h, rfl⟩
  | c :: xs, _, _, h => by
    obtain ⟨r, b₁, rs', hc, hr, rfl⟩ := run_cons_eq_ok home fuel h
    obtain ⟨rs₁, b₁', rs₂, h₁, h₂, rfl⟩ := run_append_eq_ok xs hr
    exact ⟨r :: rs₁, b₁', rs₂, by rw [run_cons home fuel xs hc, h₁]; rfl, h₂, rfl⟩

theorem run_append_of_ok {b b₁ : BitBucketFS N} :
    ∀ (xs : List Call) {ys : List Call} {rs₁ : List Reply},
      b.run home fuel xs = .ok (rs₁, b₁) →
        b.run home fuel (xs ++ ys) = (b₁.run home fuel ys).map fun (rs₂, b₂) => (rs₁ ++ rs₂, b₂)
  | [], ys, _, h => by
    cases h
    rw [List.nil_append]
    rcases b.run home fuel ys with _ | ⟨_, _⟩ <;> rfl
  | c :: xs, ys, _, h => by
    obtain ⟨r, b', rs', hc, hr, rfl⟩ := run_cons_eq_ok home fuel h
    rw [List.cons_append, run_cons home fuel _ hc, run_append_of_ok xs hr]
    cases b₁.run home fuel ys <;> rfl

theorem run_length {b b₁ : BitBucketFS N} :
    ∀ (cs : List Call) {rs : List Reply}, b.run home fuel cs = .ok (rs, b₁) → rs.length = cs.length
  | [], _, h => by cases h; rfl
  | _ :: cs, _, h => by
    obtain ⟨_, _, _, _, hr, rfl⟩ := run_cons_eq_ok home fuel h
    simp [run_length cs hr]

/-- Filesystems with the same mode, error and entries answer every call sequence alike. -/
theorem run_equiv :
    ∀ (cs : List Call) {b b' : BitBucketFS N}, Equiv b b' → ∀ {rs : List Reply}
      {b₁ : BitBucketFS N}, b.run home fuel cs = .ok (rs, b₁) →
        ∃ b₁', b'.run home fuel cs = .ok (rs, b₁') ∧ Equiv b₁ b₁'
  | [], _, _, he, _, _, h => by cases h; exact ⟨_, rfl, he⟩
  | c :: cs, _, _, he, _, _, h => by
    obtain ⟨r, b₂, rs', hc, hr, rfl⟩ := run_cons_eq_ok home fuel h
    obtain ⟨b₂', hc', he₂⟩ := exec_equiv home fuel he c hc
    obtain ⟨b₁', hr', he₁⟩ := run_equiv cs he₂ hr
    exact ⟨b₁', by rw [run_cons home fuel cs hc', hr']; rfl, he₁⟩

/-! ## Swapping independent calls -/

/-- Two independent calls in either order: the same replies and the same entries. -/
theorem exec_swap {c₁ c₂ : Call} (hi : c₁.Independent c₂) {b b₁ b₁₂ : BitBucketFS N}
    {r₁ r₂ : Reply} (h₁ : b.exec home fuel c₁ = .ok (r₁, b₁))
    (h₁₂ : b₁.exec home fuel c₂ = .ok (r₂, b₁₂)) :
    ∃ b₂ b₂₁, b.exec home fuel c₂ = .ok (r₂, b₂) ∧ b₂.exec home fuel c₁ = .ok (r₁, b₂₁) ∧
      Equiv b₁₂ b₂₁ := by
  obtain ⟨hl₁, hl₂, h₁₂k, h₂₁k⟩ := hi
  obtain ⟨hs₁, he₁, hf₁⟩ := exec_frame home fuel hl₁ h₁
  -- `c₁` left the keys of `c₂` alone, so `c₂` runs on `b` as it ran on `b₁`
  obtain ⟨b₂, h₂, hw₂⟩ := exec_local home fuel hl₂
    ⟨hs₁, he₁, fun k hk => hf₁ k fun hk' => h₁₂k k hk' hk⟩ h₁₂
  obtain ⟨hs₂, he₂, hf₂⟩ := exec_frame home fuel hl₂ h₂
  obtain ⟨b₂₁, h₂₁, hw₁⟩ := exec_local home fuel hl₁
    ⟨hs₂.symm, he₂.symm, fun k hk => (hf₂ k fun hk' => h₂₁k k hk' hk).symm⟩ h₁
  obtain ⟨hs₂₁, he₂₁, hf₂₁⟩ := exec_frame home fuel hl₁ h₂₁
  obtain ⟨hs₁₂, he₁₂, hf₁₂⟩ := exec_frame home fuel hl₂ h₁₂
  refine ⟨b₂, b₂₁, h₂, h₂₁, ⟨by rw [hs₁₂, hs₁, hs₂₁, hs₂], by rw [he₁₂, he₁, he₂₁, he₂], fun k => ?_⟩⟩
  by_cases hk₁ : k ∈ c₁.writes
  · have hk₂ : k ∉ c₂.writes := fun hk₂ => h₁₂k k hk₁ (Call.mem_keys_of_mem_writes hk₂)
    rw [hf₁₂ k hk₂, hw₁ k hk₁]
  by_cases hk₂ : k ∈ c₂.writes
  · rw [hf₂₁ k hk₁, hw₂ k hk₂]
  · rw [hf₁₂ k hk₂, hf₁ k hk₁, hf₂₁ k hk₁, hf₂ k hk₂]

/-- Inside any run, two adjacent independent calls can be swapped: every call answers
    as before, and the run ends with the same mode, error and entries. -/
theorem run_swap {c₁ c₂ : Call} (hi : c₁.Independent c₂) (pre post : List Call)
    {b b' : BitBucketFS N} {rs : List Reply}
    (h : b.run home fuel (pre ++ c₁ :: c₂ :: post) = .ok (rs, b')) :
    ∃ rs₁ r₁ r₂ rs₂ b'', rs = rs₁ ++ r₁ :: r₂ :: rs₂ ∧ rs₁.length = pre.length ∧
      b.run home fuel (pre ++ c₂ :: c₁ :: post) = .ok (rs₁ ++ r₂ :: r₁ :: rs₂, b'') ∧
      Equiv b' b'' := by
  obtain ⟨rs₁, bp, rest, hp, hrest, rfl⟩ := run_append_eq_ok home fuel pre h
  obtain ⟨r₁, b₁, rest', h₁, hrest', rfl⟩ := run_cons_eq_ok home fuel hrest
  obtain ⟨r₂, b₁₂, rs₂, h₁₂, hpost, rfl⟩ := run_cons_eq_ok home fuel hrest'
  obtain ⟨b₂, b₂₁, h₂, h₂₁, he⟩ := exec_swap home fuel hi h₁ h₁₂
  obtain ⟨b'', hpost', he'⟩ := run_equiv home fuel post he hpost
  refine ⟨rs₁, r₁, r₂, rs₂, b'', rfl, run_length home fuel pre hp, ?_, he'⟩
  rw [run_append_of_ok home fuel pre hp, run_cons home fuel _ h₂, run_cons home fuel _ h₂₁, hpost']
  rfl

theorem run_swap_remove_mkdir :
    ∃ rs b', (⟨false, .errorString "E", ∅⟩ : BitBucketFS BucketNode).run "/home/user" 0
        ([.withFakeFiles ["/a"]] ++ .remove "/a" :: .mkdir "/c" 0 :: [.lstat "/c"]) =
          .ok (rs, b') ∧
      (Call.remove "/a").Independent (.mkdir "/c" 0) ∧
      ∃ rs₁ r₁ r₂ rs₂ b'', rs = rs₁ ++ r₁ :: r₂ :: rs₂ ∧ rs₁.length = 1 ∧
        (⟨false, .errorString "E", ∅⟩ : BitBucketFS BucketNode).run "/home/user" 0
          ([.withFakeFiles ["/a"]] ++ .mkdir "/c" 0 :: .remove "/a" :: [.lstat "/c"]) =
            .ok (rs₁ ++ r₂ :: r₁ :: rs₂, b'') ∧ Equiv b' b'' :=
  ⟨_, _, rfl, by decide, @run_swap BucketNode _ "/home/user" 0 (.remove "/a") (.mkdir "/c" 0)
    (by decide) [.withFakeFiles ["/a"]] [.lstat "/c"] ⟨false, .errorString "E", ∅⟩ _ _ rfl⟩

end BitBucketFS

end BitBucketFs
