import BitBucketFs.Silent

/-!
# Hybrid mode implements the namespace table

The specification describes hybrid mode by a table: for each operation, when it succeeds
(a precondition on which paths are present and of which kind) and what it does to the
namespace. The table's namespace is a map from a path to a kind: a file, a directory, or
a link with its target. `absEntries` reads that map off the entries of the code, and
`TableCall.pre`/`TableCall.post` are the table.

For calls whose path arguments are already normalized (`CleanPath(p) = p`), every call
of the table takes exactly the branch the table predicts, on every state reachable from
`CreateWithError(E)`: the only way off the table would be a nil node in the map, and a
nil node comes only from `LinkTo` on a blank target, which a normalized path never is.

Results:
* `exec_table`: one call of the table, on a hybrid filesystem without nil nodes,
  succeeds exactly when the table's precondition holds and moves the abstraction by the
  table's side effect.
* `hybrid_table_run`: every sequence of normalized table calls from `CreateWithError(E)`
  runs without a fault, succeeds call by call as the table predicts, and ends in the
  table's namespace.
* `cleanPath_twins_differ`: without normalized arguments the operations disagree on
  which key a path names.
-/

namespace BitBucketFs

open Go

/-- The kind of a namespace entry in the spec's table. -/
inductive Kind where
  | file
  | dir
  | link (target : String)
  deriving DecidableEq, Repr

/-- The spec's namespace: a path's kind, if present. -/
abbrev AbsStore := String → Option Kind

variable {N : Type} [IBucketNode N]

/-- The kind of a node: a directory, else a link to its target, else a file. -/
def kindOf (n : N) : Kind :=
  if isDir n then .dir else if isLink n then .link (target n) else .file

/-- The namespace of an entries map; a nil node is not an entry of the table. -/
def absEntries (e : Entries N) : AbsStore := fun k =>
  match e.lookup k with
  | some (some n) => some (kindOf n)
  | _ => none

/-- No value of the map is a nil node. -/
def NoNilNode (e : Entries N) : Prop := ∀ k, e.lookup k ≠ some none

/-- Hybrid mode, with no nil node in the map. -/
structure Hybrid (bfs : BitBucketFS N) : Prop where
  silent : bfs.silent = false
  noNil : NoNilNode bfs.entries

/-! ## The table -/

/-- The calls of the spec's table. -/
inductive TableCall where
  | withFakeDirectories (dirs : List String)
  | withFakeFiles (files : List String)
  | mkdir (name : String) (perm : FileMode)
  | remove (name : String)
  | rename (oldPath newPath : String)
  | symlink (oldName newName : String)
  | openFile (name : String) (flag : GoInt) (perm : FileMode)
  | lstat (name : String)
  | readDir (path : String)

namespace TableCall

/-- The filesystem call. -/
def toCall : TableCall → Call
  | withFakeDirectories dirs => .withFakeDirectories dirs
  | withFakeFiles files => .withFakeFiles files
  | mkdir name perm => .mkdir name perm
  | remove name => .remove name
  | rename o n => .rename o n
  | symlink o n => .symlink o n
  | openFile name flag perm => .openFile name flag perm
  | lstat name => .lstat name
  | readDir path => .readDir path

/-- The path arguments of a call. -/
def paths : TableCall → List String
  | withFakeDirectories dirs => dirs
  | withFakeFiles files => files
  | mkdir name _ | remove name | openFile name _ _ | lstat name | readDir name => [name]
  | rename o n | symlink o n => [o, n]

/-- Every path argument is fixed by `CleanPath`. -/
def Normalized (home : String) (c : TableCall) : Prop := ∀ p ∈ c.paths, cleanPath home p = p

instance (home : String) (c : TableCall) : Decidable (c.Normalized home) :=
  inferInstanceAs (Decidable (∀ p ∈ c.paths, _))

/-- The table's precondition for success. -/
def pre (m : AbsStore) : TableCall → Bool
  | withFakeDirectories _ | withFakeFiles _ => true
  | mkdir p _ => (m p).isNone
  | remove p | lstat p => (m p).isSome
  | rename o n | symlink o n => (m o).isSome && (m n).isNone
  | openFile p flag _ =>
    match m p with
    | some .dir => false
    | some _ => true
    | none => hasModeFlag oCreate flag
  | readDir p => m p == some .dir

/-- The table's side effect on success. -/
def post (m : AbsStore) : TableCall → AbsStore
  | withFakeDirectories ps => fun k => if k ∈ ps then some .dir else m k
  | withFakeFiles ps => fun k => if k ∈ ps then some .file else m k
  | mkdir p _ => Function.update m p (some .dir)
  | remove p => Function.update m p none
  | rename o n => Function.update (Function.update m o none) n (m o)
  | symlink t l => Function.update m l (some (.link t))
  | openFile .. | lstat _ | readDir _ => m

end TableCall

/-- The table run on a sequence of calls: each call's success, and the final namespace.
    A failed call leaves the namespace as it was. -/
def absRun : AbsStore → List TableCall → List Bool × AbsStore
  | m, [] => ([], m)
  | m, c :: cs =>
    let m' := if c.pre m then c.post m else m
    ((c.pre m) :: (absRun m' cs).1, (absRun m' cs).2)

/-- One call agrees with the table: the reply's success is the precondition, the new
    namespace is the side effect (or the old one on failure), and the filesystem stays
    hybrid without nil nodes. -/
def TableStep (bfs : BitBucketFS N) (c : TableCall) (r : Reply) (bfs' : BitBucketFS N) : Prop :=
  r.succeeded = c.pre (absEntries bfs.entries) ∧
    absEntries bfs'.entries =
      (if c.pre (absEntries bfs.entries) then c.post (absEntries bfs.entries)
        else absEntries bfs.entries) ∧
    Hybrid bfs'

/-! ## The abstraction -/

section Abstraction

variable {e : Entries N} {k : String}

omit [IBucketNode N] in
theorem lookup_cases (hn : NoNilNode e) (k : String) :
    e.lookup k = none ∨ ∃ n, e.lookup k = some (some n) := by
  rcases h : e.lookup k with _ | _ | n
  · exact .inl rfl
  · exact absurd h (hn k)
  · exact .inr ⟨n, rfl⟩

theorem absEntries_of_none (h : e.lookup k = none) : absEntries e k = none := by
  simp [absEntries, h]

theorem absEntries_of_some {n : N} (h : e.lookup k = some (some n)) :
    absEntries e k = some (kindOf n) := by
  simp [absEntries, h]

theorem absEntries_erase (e : Entries N) (k : String) :
    absEntries (e.erase k) = Function.update (absEntries e) k none := by
  funext j
  by_cases hj : j = k
  · subst hj; simp [absEntries, AList.lookup_erase]
  · simp [absEntries, AList.lookup_erase_ne hj, Function.update_noteq hj]

theorem absEntries_insert (e : Entries N) (k : String) (n : N) :
    absEntries (e.insert k (some n)) = Function.update (absEntries e) k (some (kindOf n)) := by
  funext j
  by_cases hj : j = k
  · subst hj; simp [absEntries, AList.lookup_insert]
  · simp [absEntries, AList.lookup_insert_ne hj, Function.update_noteq hj]

omit [IBucketNode N] in
theorem noNil_erase (hn : NoNilNode e) (k : String) : NoNilNode (e.erase k) := by
  intro j
  by_cases hj : j = k
  · subst hj; simp [AList.lookup_erase]
  · rw [AList.lookup_erase_ne hj]; exact hn j

omit [IBucketNode N] in
theorem noNil_insert (hn : NoNilNode e) (k : String) (n : N) :
    NoNilNode (e.insert k (some n)) := by
  intro j
  by_cases hj : j = k
  · subst hj; simp [AList.lookup_insert]
  · rw [AList.lookup_insert_ne hj]; exact hn j

theorem absEntries_insertNodes (e : Entries N) (mode : FileMode) (names : List String) :
    absEntries (BitBucketFS.insertNodes e mode names) =
      fun k => if k ∈ names then some (kindOf (createNode mode : N)) else absEntries e k := by
  induction names generalizing e with
  | nil => rfl
  | cons name names ih =>
    funext k
    simp only [BitBucketFS.insertNodes, List.foldl_cons] at ih ⊢
    rw [ih, absEntries_insert]
    by_cases hk : k = name
    · subst hk; simp
    · simp [hk, Function.update_noteq hk]

theorem noNil_insertNodes (hn : NoNilNode e) (mode : FileMode) (names : List String) :
    NoNilNode (BitBucketFS.insertNodes e mode names) := by
  induction names generalizing e with
  | nil => exact hn
  | cons name names ih => exact ih (noNil_insert hn name _)

theorem mem_iff_absEntries (hn : NoNilNode e) : k ∈ e ↔ (absEntries e k).isSome := by
  rw [← AList.lookup_isSome]
  rcases lookup_cases hn k with h | ⟨n, h⟩ <;> simp [absEntries, h]

theorem mem_sortedNames {ps : List String} (hps : ∀ p ∈ ps, filepathClean p = p) :
    k ∈ (ps.map filepathClean).insertionSort (· ≤ ·) ↔ k ∈ ps := by
  rw [List.mem_insertionSort, List.map_congr_left hps, List.map_id']

end Abstraction

/-! ## One call -/

section Step

variable {bfs bfs' : BitBucketFS N} {c : TableCall} {r : Reply}

theorem tableStep_fail (hh : Hybrid bfs) (hr : r.succeeded = false)
    (hpre : c.pre (absEntries bfs.entries) = false) : TableStep bfs c r bfs :=
  ⟨hr.trans hpre.symm, by rw [hpre]; rfl, hh⟩

theorem tableStep_ok (hr : r.succeeded = true) (hpre : c.pre (absEntries bfs.entries) = true)
    (habs : absEntries bfs'.entries = c.post (absEntries bfs.entries)) (hh : Hybrid bfs') :
    TableStep bfs c r bfs' :=
  ⟨hr.trans hpre.symm, by rw [hpre, habs]; rfl, hh⟩

/-- A successful call the table does not let change the namespace. -/
theorem tableStep_read (hh : Hybrid bfs) (hr : r.succeeded = true)
    (hpre : c.pre (absEntries bfs.entries) = true)
    (hpost : c.post (absEntries bfs.entries) = absEntries bfs.entries) : TableStep bfs c r bfs :=
  tableStep_ok hr hpre hpost.symm hh

theorem withFakes_step (hh : Hybrid bfs) (mode : FileMode) {ps : List String}
    (hps : ∀ p ∈ ps, filepathClean p = p) :
    absEntries (bfs.withFakes mode ps).entries =
      (fun k => if k ∈ ps then some (kindOf (createNode mode : N))
        else absEntries bfs.entries k) ∧
    Hybrid (bfs.withFakes mode ps) := by
  simp only [BitBucketFS.withFakes, hh.silent, Bool.false_eq_true, if_false,
    absEntries_insertNodes, mem_sortedNames hps]
  exact ⟨trivial, rfl, noNil_insertNodes hh.noNil _ _⟩

theorem kindOf_eq_dir_iff (n : N) : kindOf n = .dir ↔ isDir n = true := by
  unfold kindOf; split_ifs <;> simp_all

end Step

/-! ## The functional node -/

section Functional

variable (home : String) (fuel : ℕ) {bfs : BitBucketFS BucketNode}

open BitBucketFS TableCall

theorem kindOf_createNode_dir (perm : FileMode) :
    kindOf (createNode (modeDir ||| perm) : BucketNode) = .dir := by
  rw [kindOf, if_pos (isDir_createNode_modeDir perm)]

theorem kindOf_createNode_file : kindOf (createNode allRwPerms : BucketNode) = .file := by decide

theorem linkTo_normalized {t : String} (ht : cleanPath home t = t) :
    ∃ n : BucketNode, linkTo t = some n ∧ kindOf n = .link t := by
  refine ⟨_, BucketNode.linkTo_of_ne (stringsTrim_ne_empty_of_cleanPath_eq ht), ?_⟩
  have h1 : hasFileModeFlag modeDir (modeSymlink ||| allPerms) = false := by decide
  have h2 : hasFileModeFlag modeSymlink (modeSymlink ||| allPerms) = true := by decide
  simp [kindOf, h1, h2]

theorem exec_remove_table (hh : Hybrid bfs) {p : String} (hp : filepathClean p = p) :
    ∃ r bfs', bfs.exec home fuel (remove p).toCall = .ok (r, bfs') ∧
      TableStep bfs (remove p) r bfs' := by
  rcases lookup_cases hh.noNil p with h | ⟨n, h⟩
  · refine ⟨_, _, ?_, tableStep_fail hh (r := .err (.pathError "Remove" p bfs.err)) rfl
      (by simp [pre, absEntries_of_none h])⟩
    simp [toCall, exec, BitBucketFS.remove, executePath, hh.silent, hp ▸ h, hp, Except.map]
  · refine ⟨_, { bfs with entries := bfs.entries.erase p }, ?_,
      tableStep_ok (r := .err .nil) rfl (by simp [pre, absEntries_of_some h])
        (by simp [post, absEntries_erase]) ⟨hh.silent, noNil_erase hh.noNil p⟩⟩
    simp [toCall, exec, BitBucketFS.remove, executePath, hh.silent, hp ▸ h, hp, Except.map]

theorem absEntries_of_not_mem (hh : Hybrid bfs) {k : String} (hk : k ∉ bfs.entries) :
    absEntries bfs.entries k = none := by
  simpa using (mem_iff_absEntries hh.noNil).not.1 hk

theorem exec_rename_table (hh : Hybrid bfs) {o n : String} (ho : filepathClean o = o)
    (hn : filepathClean n = n) :
    ∃ r bfs', bfs.exec home fuel (rename o n).toCall = .ok (r, bfs') ∧
      TableStep bfs (rename o n) r bfs' := by
  rcases lookup_cases hh.noNil o with h | ⟨x, h⟩
  · refine ⟨_, _, ?_, tableStep_fail hh (r := .err (.linkError "Rename" o n
      (.wrapError "OldPath does not exist. %w" bfs.err))) rfl
        (by simp [pre, absEntries_of_none h])⟩
    simp [toCall, exec, BitBucketFS.rename, hh.silent, ho ▸ h, ho, hn, Except.map]
  by_cases hm : n ∈ bfs.entries
  · refine ⟨_, _, ?_, tableStep_fail hh (r := .err (.linkError "Rename" o n
      (.wrapError "NewPath exists. %w" bfs.err))) rfl ?_⟩
    · simp [toCall, exec, BitBucketFS.rename, hh.silent, ho ▸ h, ho, hn, hm, Except.map]
    · simp [pre, (mem_iff_absEntries hh.noNil).1 hm]
  · refine ⟨_, { bfs with entries := (bfs.entries.erase o).insert n (some x) }, ?_,
      tableStep_ok (r := .err .nil) rfl ?_ ?_
        ⟨hh.silent, noNil_insert (noNil_erase hh.noNil o) n x⟩⟩
    · simp [toCall, exec, BitBucketFS.rename, hh.silent, ho ▸ h, ho, hn, hm, Except.map]
    · simp [pre, absEntries_of_some h, absEntries_of_not_mem hh hm]
    · rw [absEntries_insert, absEntries_erase, post, absEntries_of_some h]

theorem exec_symlink_table (hh : Hybrid bfs) {t l : String} (ht : cleanPath home t = t)
    (hl : filepathClean l = l) :
    ∃ r bfs', bfs.exec home fuel (symlink t l).toCall = .ok (r, bfs') ∧
      TableStep bfs (symlink t l) r bfs' := by
  have ht' := filepathClean_of_cleanPath_eq ht
  rcases lookup_cases hh.noNil t with h | ⟨x, h⟩
  · refine ⟨_, _, ?_, tableStep_fail hh (r := .err (.linkError "Symlink" t l
      (.wrapError "OldName (target) does not exist. %w" bfs.err))) rfl
        (by simp [pre, absEntries_of_none h])⟩
    simp [toCall, exec, BitBucketFS.symlink, hh.silent, ht' ▸ h, ht', hl, Except.map]
  by_cases hm : l ∈ bfs.entries
  · refine ⟨_, _, ?_, tableStep_fail hh (r := .err (.linkError "Symlink" t l
      (.wrapError "NewName exists. %w" bfs.err))) rfl ?_⟩
    · simp [toCall, exec, BitBucketFS.symlink, hh.silent, ht' ▸ h, ht', hl, hm, Except.map]
    · simp [pre, (mem_iff_absEntries hh.noNil).1 hm]
  · obtain ⟨y, hy, hky⟩ := linkTo_normalized home ht
    refine ⟨_, { bfs with entries := bfs.entries.insert l (some y) }, ?_,
      tableStep_ok (r := .err .nil) rfl ?_ ?_ ⟨hh.silent, noNil_insert hh.noNil l y⟩⟩
    · simp [toCall, exec, BitBucketFS.symlink, hh.silent, ht' ▸ h, ht', hl, hm, hy, Except.map]
    · simp [pre, absEntries_of_some h, absEntries_of_not_mem hh hm]
    · rw [absEntries_insert, post, hky]

theorem exec_mkdir_table (hh : Hybrid bfs) {p : String} (perm : FileMode)
    (hp : filepathClean p = p) :
    ∃ r bfs', bfs.exec home fuel (mkdir p perm).toCall = .ok (r, bfs') ∧
      TableStep bfs (mkdir p perm) r bfs' := by
  rcases lookup_cases hh.noNil p with h | ⟨x, h⟩
  · refine ⟨_,
      { bfs with entries := bfs.entries.insert p (some (createNode (modeDir ||| perm))) }, ?_,
      tableStep_ok (r := .err .nil) rfl (by simp [pre, absEntries_of_none h]) ?_
        ⟨hh.silent, noNil_insert hh.noNil p _⟩⟩
    · simp [toCall, exec, BitBucketFS.mkdir, hh.silent, hp ▸ h, hp, Except.map]
    · rw [absEntries_insert, post, kindOf_createNode_dir]
  · refine ⟨_, _, ?_, tableStep_fail hh (r := .err (.pathError "Mkdir" p (errorsJoin bfs.err
      (if isDir x then errDirExists else errFileExists)))) rfl
        (by simp [pre, absEntries_of_some h])⟩
    simp [toCall, exec, BitBucketFS.mkdir, hh.silent, hp ▸ h, hp, Except.map]

theorem exec_openFile_table (hh : Hybrid bfs) {p : String} (flag : GoInt) (perm : FileMode)
    (hp : filepathClean p = p) :
    ∃ r bfs', bfs.exec home fuel (openFile p flag perm).toCall = .ok (r, bfs') ∧
      TableStep bfs (openFile p flag perm) r bfs' := by
  rcases lookup_cases hh.noNil p with h | ⟨x, h⟩
  · by_cases hc : hasModeFlag oCreate flag
    · refine ⟨_, _, ?_, tableStep_read hh
        (r := .file (some (newBitBucketFile p flag perm bfs.err)) .nil) rfl
          (by simp [pre, absEntries_of_none h, hc]) rfl⟩
      simp [toCall, exec, BitBucketFS.openFile, hh.silent, hp ▸ h, hp, hc, Except.map]
    · refine ⟨_, _, ?_, tableStep_fail hh (r := .file none
        (.pathError "Open/OpenFile" p bfs.err)) rfl (by simp [pre, absEntries_of_none h, hc])⟩
      simp [toCall, exec, BitBucketFS.openFile, hh.silent, hp ▸ h, hp, hc, Except.map]
  · by_cases hd : isDir x
    · refine ⟨_, _, ?_, tableStep_fail hh (r := .file none (.pathError "Open/OpenFile" p
        (errorsJoin bfs.err errIsDirectory))) rfl
          (by simp [pre, absEntries_of_some h, (kindOf_eq_dir_iff x).2 hd])⟩
      simp [toCall, exec, BitBucketFS.openFile, hh.silent, hp ▸ h, hp, hd, Except.map]
    · refine ⟨_, _, ?_, tableStep_read hh
        (r := .file (some (newBitBucketFile p flag perm bfs.err)) .nil) rfl ?_ rfl⟩
      · simp [toCall, exec, BitBucketFS.openFile, hh.silent, hp ▸ h, hp, hd, Except.map]
      · cases hl : isLink x <;> simp [pre, absEntries_of_some h, kindOf, hd, hl]

theorem exec_lstat_table (hh : Hybrid bfs) {p : String} (hp : filepathClean p = p) :
    ∃ r bfs', bfs.exec home fuel (lstat p).toCall = .ok (r, bfs') ∧
      TableStep bfs (lstat p) r bfs' := by
  rcases lookup_cases hh.noNil p with h | ⟨x, h⟩
  · refine ⟨_, _, ?_, tableStep_fail hh (r := .info none (.pathError "Stat" p bfs.err)) rfl
      (by simp [pre, absEntries_of_none h])⟩
    simp [toCall, exec, BitBucketFS.lstat, internalStat, hh.silent, hp ▸ h, hp, Except.map]
  · refine ⟨_, _, ?_, tableStep_read hh (r := .info (some (if isDir x
      then newBitBucketDirInfo p (size x) (mode x) else newBitBucketFileInfo p (size x) (mode x)))
        .nil) rfl (by simp [pre, absEntries_of_some h]) rfl⟩
    simp [toCall, exec, BitBucketFS.lstat, internalStat, hp ▸ h, hp, Except.map]

theorem exec_readDir_table (hh : Hybrid bfs) {p : String} (hp : filepathClean p = p) :
    ∃ r bfs', bfs.exec home fuel (readDir p).toCall = .ok (r, bfs') ∧
      TableStep bfs (readDir p) r bfs' := by
  rcases lookup_cases hh.noNil p with h | ⟨x, h⟩
  · refine ⟨_, _, ?_, tableStep_fail hh (r := .dir [] (.pathError "ReadDir" p bfs.err)) rfl
      (by simp [pre, absEntries_of_none h])⟩
    simp [toCall, exec, BitBucketFS.readDir, hh.silent, hp ▸ h, hp, Except.map]
  · by_cases hd : isDir x
    · refine ⟨_, _, ?_, tableStep_read hh (r := .dir [] .nil) rfl
        (by simp [pre, absEntries_of_some h, (kindOf_eq_dir_iff x).2 hd]) rfl⟩
      simp [toCall, exec, BitBucketFS.readDir, hh.silent, hp ▸ h, hp, hd, Except.map]
    · refine ⟨_, _, ?_, tableStep_fail hh (r := .dir [] (.pathError "ReadDir" p
        (errorsJoin bfs.err errNotDirectory))) rfl ?_⟩
      · simp [toCall, exec, BitBucketFS.readDir, hh.silent, hp ▸ h, hp, hd, Except.map]
      · simpa [pre, absEntries_of_some h] using (kindOf_eq_dir_iff x).not.2 (by simpa using hd)

theorem exec_withFakes_table (hh : Hybrid bfs) {c : TableCall} (mode : FileMode) (κ : Kind)
    (ps : List String) (hps : ∀ p ∈ ps, filepathClean p = p)
    (hk : kindOf (createNode mode : BucketNode) = κ)
    (hpre : c.pre (absEntries bfs.entries) = true)
    (hpost : c.post (absEntries bfs.entries) =
      fun k => if k ∈ ps then some κ else absEntries bfs.entries k) :
    TableStep bfs c .fs (bfs.withFakes mode ps) := by
  obtain ⟨habs, hh'⟩ := withFakes_step hh mode hps
  exact tableStep_ok rfl hpre (by rw [habs, hpost, hk]) hh'

/-- One call of the table with normalized paths, on a hybrid filesystem without nil
    nodes, does what the table says. -/
theorem exec_table (hh : Hybrid bfs) {c : TableCall} (hc : c.Normalized home) :
    ∃ r bfs', bfs.exec home fuel c.toCall = .ok (r, bfs') ∧ TableStep bfs c r bfs' := by
  have hp : ∀ p ∈ c.paths, filepathClean p = p :=
    fun p hp => filepathClean_of_cleanPath_eq (hc p hp)
  cases c with
  | withFakeDirectories ps => exact ⟨_, _, rfl, exec_withFakes_table hh (modeDir ||| allPerms)
      .dir ps hp (kindOf_createNode_dir _) rfl rfl⟩
  | withFakeFiles ps => exact ⟨_, _, rfl, exec_withFakes_table hh allRwPerms
      .file ps hp kindOf_createNode_file rfl rfl⟩
  | mkdir p perm => exact exec_mkdir_table home fuel hh perm (hp p (by simp [paths]))
  | remove p => exact exec_remove_table home fuel hh (hp p (by simp [paths]))
  | rename o n =>
    exact exec_rename_table home fuel hh (hp o (by simp [paths])) (hp n (by simp [paths]))
  | symlink t l =>
    exact exec_symlink_table home fuel hh (hc t (by simp [paths])) (hp l (by simp [paths]))
  | openFile p flag perm =>
    exact exec_openFile_table home fuel hh flag perm (hp p (by simp [paths]))
  | lstat p => exact exec_lstat_table home fuel hh (hp p (by simp [paths]))
  | readDir p => exact exec_readDir_table home fuel hh (hp p (by simp [paths]))

/-- From any hybrid filesystem without nil nodes, a run of normalized table calls follows
    the table call by call. -/
theorem run_table (cs : List TableCall) (hcs : ∀ c ∈ cs, c.Normalized home) (hh : Hybrid bfs) :
    ∃ rs bfs', bfs.run home fuel (cs.map toCall) = .ok (rs, bfs') ∧
      rs.map Reply.succeeded = (absRun (absEntries bfs.entries) cs).1 ∧
      absEntries bfs'.entries = (absRun (absEntries bfs.entries) cs).2 := by
  induction cs generalizing bfs with
  | nil => exact ⟨[], bfs, rfl, rfl, rfl⟩
  | cons c cs ih =>
    obtain ⟨r, b, hex, hr, habs, hh'⟩ :=
      exec_table home fuel hh (hcs c (List.mem_cons_self _ _))
    obtain ⟨rs, b', hrun, hrs, habs'⟩ := ih (fun c' h => hcs c' (List.mem_cons_of_mem _ h)) hh'
    refine ⟨r :: rs, b', by rw [List.map_cons, run_cons home fuel _ hex, hrun]; rfl, ?_, ?_⟩
    · rw [List.map_cons, hr, hrs, habs]; rfl
    · rw [habs', habs]; rfl

/-- Hybrid mode implements the spec's namespace table: from `CreateWithError(E)`, every
    sequence of table calls with normalized paths runs without a fault, each call
    succeeds exactly when the table's precondition holds in the namespace just before
    it, and the namespace ends as the table's side effects leave it. -/
theorem hybrid_table_run {E : GoError} (hE : E ≠ .nil) (cs : List TableCall)
    (hcs : ∀ c ∈ cs, c.Normalized home) :
    ∃ rs bfs', ((createWithError E : Except Fault (BitBucketFS BucketNode)).bind
        fun bfs => bfs.run home fuel (cs.map toCall)) = .ok (rs, bfs') ∧
      rs.map Reply.succeeded = (absRun (fun _ => none) cs).1 ∧
      absEntries bfs'.entries = (absRun (fun _ => none) cs).2 := by
  have hh : Hybrid (⟨false, E, ∅⟩ : BitBucketFS BucketNode) :=
    ⟨rfl, fun k => by simp [AList.lookup_empty]⟩
  have habs : absEntries (∅ : Entries BucketNode) = fun _ => none := by
    funext k; simp [absEntries, AList.lookup_empty]
  obtain ⟨rs, b, hrun, hrs, hb⟩ := run_table home fuel cs hcs hh
  refine ⟨rs, b, ?_, habs ▸ hrs, habs ▸ hb⟩
  simpa [createWithError, hE] using hrun

theorem hybrid_table_run_remove_twice :
    ∃ rs bfs', ((createWithError (.errorString "Any BitBucket error") :
        Except Fault (BitBucketFS BucketNode)).bind fun bfs => bfs.run "/home/user" 0
          ([.withFakeFiles ["/a"], .remove "/a", .remove "/a"].map toCall)) = .ok (rs, bfs') ∧
      rs.map Reply.succeeded =
        (absRun (fun _ => none) [.withFakeFiles ["/a"], .remove "/a", .remove "/a"]).1 ∧
      absEntries bfs'.entries =
        (absRun (fun _ => none) [.withFakeFiles ["/a"], .remove "/a", .remove "/a"]).2 :=
  hybrid_table_run "/home/user" 0 (by decide) _ (by decide)

end Functional

/-! ## Paths that are not normalized

Only `findNode` (so `Stat`) applies `CleanPath`; every other operation and both setup
calls apply `filepath.Clean` alone, which neither trims blanks nor expands `~/`. -/

/-- `CleanPath` maps `" /a"` and `"/a"` to the same path, yet after
    `WithFakeFiles(["/a"])` the two spellings reach different keys: `Stat(" /a")`
    succeeds, `Lstat(" /a")` and `Remove(" /a")` fail, `Lstat("/a")` and `Remove("/a")`
    succeed. -/
theorem cleanPath_twins_differ (home : String) (fuel : ℕ) :
    cleanPath home " /a" = cleanPath home "/a" ∧
      (((BitBucketFS.createWithError (.errorString "Any BitBucket error") :
        Except Fault (BitBucketFS BucketNode)).bind fun bfs =>
          (bfs.withFakeFiles ["/a"]).run home fuel
            [.stat " /a", .lstat " /a", .lstat "/a", .remove " /a", .remove "/a"]).map
        (·.1.map Reply.succeeded)) = .ok [true, false, true, false, true] :=
  ⟨rfl, rfl⟩

end BitBucketFs
