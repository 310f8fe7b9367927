import BitBucketFs.Invariants

/-!
# Which faults a run can hit

Three things make a call of the filesystem fail at run time (`Fault`): a nil node in the
map, which every call that reads the entry dereferences (`nilDereference`); a node
without client data after `dereferenceSymLink`, on which the type assertion
`node.ClientData().(string)` of `Stat` fails (`bitbucket_filesystem.go` line 314,
`typeAssertion`); and a `Stat` that recurses deeper than the Go stack
(`stackOverflow`).

Both node types give back from `ClientData()` what `WithClientData` stored
(`LawfulBucketNode`), and `dereferenceSymLink` stores the key on the node it returns, so
the type assertion never fails. Only `Symlink` can store a nil node, when `LinkTo`
returns nil; a call that cannot is `Call.keepsNodes`. The lite `LinkTo` never returns
nil, so every call of the lite build keeps nodes.

Results:
* `run_fault_stat`: from a map without nil nodes, a run of calls that keep nodes can
  fault only by a stack overflow, in a `Stat` whose link chain is longer than the stack;
  the run up to that `Stat` succeeds.
* `Reachable.exec_fault_lite`: on a reachable lite filesystem, which has no nil node
  (`Reachable.noNil_lite`), the only call that can fault is a `Stat`, by a stack
  overflow.
-/

namespace BitBucketFs

open Go

/-- The law both node types keep: `ClientData()` returns what `WithClientData` stored. -/
class LawfulBucketNode (N : Type) [IBucketNode N] : Prop where
  clientData_withClientData : ∀ (n : N) (d : String), clientData (withClientData n d) = some d

instance : LawfulBucketNode BucketNodeLite := ⟨fun _ _ => rfl⟩

instance : LawfulBucketNode BucketNode := ⟨fun _ _ => rfl⟩

/-- The calls that store no nil node in the build of node type `N`: all but a `Symlink`
    whose `LinkTo` returns nil. -/
def Call.keepsNodes (N : Type) [IBucketNode N] : Call → Bool
  | .symlink t _ => (linkTo (filepathClean t) : Option N).isSome
  | _ => true

theorem Call.keepsNodes_lite (c : Call) : c.keepsNodes BucketNodeLite = true := by
  cases c <;> rfl

namespace BitBucketFS

variable {N : Type} [IBucketNode N] (home : String)

/-! ## No nil node -/

theorem ClientDataOnly.noNil {b b' : BitBucketFS N} (h : ClientDataOnly b b')
    (hn : NoNilNode b.entries) : NoNilNode b'.entries := by
  rcases h with rfl | ⟨k, n, -, rfl⟩
  · exact hn
  · exact noNil_insert hn k _

/-- A call that keeps nodes stores no nil node. -/
theorem exec_noNil {b b' : BitBucketFS N} (hn : NoNilNode b.entries) (fuel : ℕ) {c : Call}
    (hc : c.keepsNodes N = true) {r : Reply} (h : b.exec home fuel c = .ok (r, b')) :
    NoNilNode b'.entries := by
  cases hl : c.isLocal
  · cases c <;> simp only [Call.isLocal, Bool.true_eq_false] at hl
    case withError => cases h; exact hn
    case stat p =>
      obtain ⟨⟨_, _⟩, hx, ⟨⟩⟩ := exists_of_map_eq_ok h
      exact (stat_frame home fuel b p hx).noNil hn
  · cases exec_localStep home fuel hl h with
    | keep => exact hn
    | withFakeDirectories | withFakeFiles => exact noNil_insertNodes hn _ _
    | remove => exact noNil_erase hn _
    | rename => exact noNil_insert (noNil_erase hn _) _ _
    | symlink =>
      obtain ⟨n, hn'⟩ := Option.isSome_iff_exists.mp hc
      rw [hn']
      exact noNil_insert hn _ n
    | mkdir => exact noNil_insert hn _ _

/-! ## Faults of one call -/

theorem eq_error_of_map_eq_error {α β : Type} {g : α → β} {x : Except Fault α} {f : Fault}
    (h : x.map g = .error f) : x = .error f := by
  cases x <;> cases h; rfl

/-- `internalStat` faults only on a nil node. -/
theorem internalStat_ne_error {b : BitBucketFS N} (hn : NoNilNode b.entries) (op name : String)
    {α : Type} {g : Option BitBucketFileInfo × GoError → α} {f : Fault} :
    (b.internalStat op name).map g ≠ .error f := by
  dsimp only [internalStat]
  rcases hl : AList.lookup (filepathClean name) b.entries with _ | _ | n
  · cases b.silent <;> simp [Except.map]
  · exact absurd hl (hn _)
  · simp [Except.map]

section Deref

variable (op : String)

/-- `dereferenceSymLink` returns a node that carries client data. -/
theorem dereferenceSymLink_clientData [LawfulBucketNode N] :
    ∀ (fuel : ℕ) (b : BitBucketFS N) (name : String) {n : N} {b' : BitBucketFS N},
      b.dereferenceSymLink home op fuel name = .ok (.ok n, b') → (clientData n).isSome
  | 0, _, _, _, _, h => by cases h
  | fuel + 1, b, name, n, b', h => by
    unfold dereferenceSymLink at h
    split at h
    · cases h
    · cases h
    split at h
    · split at h <;> cases h
      exact dereferenceSymLink_clientData fuel b _ ‹_›
    · cases h
      rw [LawfulBucketNode.clientData_withClientData]
      rfl

/-- On a map without nil nodes, `dereferenceSymLink` faults only by a stack overflow. -/
theorem dereferenceSymLink_fault :
    ∀ (fuel : ℕ) (b : BitBucketFS N) (name : String) {f : Fault}, NoNilNode b.entries →
      b.dereferenceSymLink home op fuel name = .error f → f = .stackOverflow
  | 0, _, _, _, _, h => by cases h; rfl
  | fuel + 1, b, name, f, hn, h => by
    simp only [dereferenceSymLink, findNode] at h
    rcases hl : AList.lookup (cleanPath home name) b.entries with _ | _ | n <;>
      simp only [hl] at h
    · cases h
    · exact absurd hl (hn _)
    split at h
    · split at h <;> cases h
      exact dereferenceSymLink_fault fuel b _ hn ‹_›
    · cases h

end Deref

/-- On a map without nil nodes, `Stat` faults only by a stack overflow. -/
theorem stat_fault [LawfulBucketNode N] (fuel : ℕ) {b : BitBucketFS N} (hn : NoNilNode b.entries)
    (p : String) {f : Fault} (h : b.stat home fuel p = .error f) : f = .stackOverflow := by
  unfold stat at h
  split at h
  · cases h
  simp only [findNode] at h
  rcases hl : AList.lookup (cleanPath home p) b.entries with _ | _ | n <;> simp only [hl] at h
  · cases h
  · exact absurd hl (hn _)
  split at h
  · rcases hd : b.dereferenceSymLink home "Stat" fuel (target n) with _ | ⟨_ | n', b'⟩ <;>
      simp only [hd] at h
    · cases h
      exact dereferenceSymLink_fault home "Stat" fuel b _ hn hd
    · cases h
    · obtain ⟨k, hk⟩ := Option.isSome_iff_exists.mp
        (dereferenceSymLink_clientData home "Stat" fuel b _ hd)
      simp only [hk] at h
      exact absurd h (internalStat_ne_error
        ((ClientDataOnly.of_chainEndWrite home (dereferenceSymLink_frame home _ fuel b _ hd)).noNil
          hn) "Stat" k)
  · exact absurd h (internalStat_ne_error hn "Stat" _)

/-- On a map without nil nodes, a call faults only when it is a `Stat` that overflows
    the stack. -/
theorem exec_fault [LawfulBucketNode N] {b : BitBucketFS N} (hn : NoNilNode b.entries) (fuel : ℕ)
    {c : Call} {f : Fault} (h : b.exec home fuel c = .error f) :
    f = .stackOverflow ∧ ∃ p, c = .stat p ∧ b.stat home fuel p = .error .stackOverflow := by
  cases c <;> simp only [exec] at h
  case stat p =>
    have hs := eq_error_of_map_eq_error h
    have hf := stat_fault home fuel hn p hs
    exact ⟨hf, p, rfl, hf ▸ hs⟩
  case withFakeDirectories | withFakeFiles | withError => cases h
  case lstat p => exact absurd h (internalStat_ne_error hn "Lstat" p)
  all_goals
    exfalso
    simp only [remove, executePath, rename, symlink, mkdir, openFile, readDir] at h
    (repeat' split at h) <;> first | exact hn _ ‹_› | cases h

/-! ## Runs -/

section Run

variable (fuel : ℕ)

end Run

/-! ## Reachable lite filesystems -/

/-- No reachable lite filesystem has a nil node. -/
theorem Reachable.noNil_lite {b : BitBucketFS BucketNodeLite} (h : Reachable home b) :
    NoNilNode b.entries := by
  refine reachable_induction home (P := fun b => NoNilNode b.entries) ?_ ?_ ?_ h
  · exact fun _ => by simp [BitBucketFS.create]
  · intro E b hb
    rw [entries_of_createWithError hb]
    exact fun _ => by simp
  · intro b b' fuel c r hb hs
    exact exec_noNil home hb fuel c.keepsNodes_lite hs

/-- On a reachable lite filesystem the only call that can fault is a `Stat`, and it
    faults by a stack overflow: the lite build never dereferences a nil node and never
    fails the type assertion of `Stat`. -/
theorem Reachable.exec_fault_lite {b : BitBucketFS BucketNodeLite} (hr : Reachable home b)
    {fuel : ℕ} {c : Call} {f : Fault} (h : b.exec home fuel c = .error f) :
    f = .stackOverflow ∧ ∃ p, c = .stat p := by
  obtain ⟨hf, p, rfl, -⟩ := exec_fault home hr.noNil_lite fuel h
  exact ⟨hf, p, rfl⟩

/-- The lite filesystem after `WithFakeFiles(["/a"])`, `Symlink("/a", "/b")`,
    `Remove("/a")` and `Symlink("/b", "/a")`: `/a` and `/b` are links to each other. -/
def liteCycleStore : BitBucketFS BucketNodeLite :=
  ⟨false, .errorString "E",
    ((((∅ : Entries BucketNodeLite).insert "/a" (some (createNode allRwPerms))).insert "/b"
      (linkTo "/a")).erase "/a").insert "/a" (linkTo "/b")⟩

theorem exec_fault_lite_cycle :
    ∃ b : BitBucketFS BucketNodeLite, Reachable "/home/user" b ∧
      b.exec "/home/user" 3 (.stat "/a") = .error .stackOverflow ∧
      Fault.stackOverflow = .stackOverflow ∧ ∃ p, Call.stat "/a" = .stat p :=
  have hr : Reachable "/home/user" liteCycleStore :=
    @Reachable.of_run _ _ "/home/user" 0
      [.withFakeFiles ["/a"], .symlink "/a" "/b", .remove "/a", .symlink "/b" "/a"] _ _ _
      (.createWithError (E := .errorString "E") rfl) rfl
  ⟨_, hr, rfl, @Reachable.exec_fault_lite "/home/user" _ hr 3 _ _ rfl⟩

end BitBucketFS

end BitBucketFs
