import BitBucketFs.Faults

/-!
# Undoing a call

`Mkdir(name, perm)` and `Symlink(oldName, newName)` add one key, which `Remove` takes
away again; `Rename(oldPath, newPath)` moves one node, which `Rename(newPath, oldPath)`
moves back (`Call.undo`). When the first call succeeds, its undo succeeds too and gives
back the filesystem the first call started from, up to the order of the map (`Equiv`),
so no later call can tell that the pair ran (`run_equiv`). In silent mode both calls do
nothing.

The undo of a `Symlink` needs the new entry to hold a node: a nil node from the
functional `LinkTo` makes `Remove` dereference it (`Call.keepsNodes`).

Results:
* `exec_undo`: a call that succeeds is taken back by its undo.
-/

namespace BitBucketFs

open Go

/-- The call that takes back a call adding or moving one entry: `Remove` of the key that
    `Mkdir` or `Symlink` added, and the `Rename` back. -/
def Call.undo : Call → Option Call
  | .mkdir name _ => some (.remove name)
  | .symlink _ newName => some (.remove newName)
  | .rename oldPath newPath => some (.rename newPath oldPath)
  | _ => none

namespace BitBucketFS

variable {N : Type} [IBucketNode N]

omit [IBucketNode N] in
theorem lookup_erase_insert_of_none {e : Entries N} {k : String} (hk : e.lookup k = none)
    (v : Option N) (k' : String) : ((e.insert k v).erase k).lookup k' = e.lookup k' := by
  rw [lookup_erase_ite, lookup_insert_ite]
  split_ifs with h
  · rw [h, hk]
  · rfl

/-! ## The undoing calls on a present entry -/

section Present

variable {b : BitBucketFS N} (hs : b.silent = false)
include hs

omit [IBucketNode N] in
theorem remove_of_lookup {name : String} {n : N}
    (hl : b.entries.lookup (filepathClean name) = some (some n)) :
    b.remove name = .ok (.nil, { b with entries := b.entries.erase (filepathClean name) }) := by
  simp only [remove, executePath, hs, hl, Bool.false_eq_true, if_false]

omit [IBucketNode N] in
theorem rename_of_lookup {oldPath newPath : String} {n : N}
    (hl : b.entries.lookup (filepathClean oldPath) = some (some n))
    (hm : filepathClean newPath ∉ b.entries) :
    b.rename oldPath newPath = .ok (.nil, { b with entries :=
      (b.entries.erase (filepathClean oldPath)).insert (filepathClean newPath) (some n) }) := by
  simp only [rename, hs, hl, hm, Bool.false_eq_true, if_false]

end Present

/-! ## One lemma per undone call -/

variable {b b₁ : BitBucketFS N}

theorem mkdir_undo {name : String} {perm : FileMode} (h : b.mkdir name perm = .ok (.nil, b₁)) :
    ∃ b₂, b₁.remove name = .ok (.nil, b₂) ∧ Equiv b₂ b := by
  unfold mkdir at h
  dsimp only at h
  by_cases hs : b.silent = true
  · rw [if_pos hs] at h
    cases h
    exact ⟨b, by simp [remove, executePath, hs], Equiv.refl b⟩
  rw [if_neg hs] at h
  have hf : b.silent = false := by simpa using hs
  rcases hl : b.entries.lookup (filepathClean name) with _ | _ | node <;> simp only [hl] at h
  · cases h
    refine ⟨_, remove_of_lookup (n := createNode (modeDir ||| perm)) ?_ ?_, rfl, rfl,
      lookup_erase_insert_of_none hl _⟩
    exacts [hf, AList.lookup_insert _]
  all_goals cases h

theorem symlink_undo {oldName newName : String}
    (hc : (linkTo (filepathClean oldName) : Option N).isSome)
    (h : b.symlink oldName newName = .ok (.nil, b₁)) :
    ∃ b₂, b₁.remove newName = .ok (.nil, b₂) ∧ Equiv b₂ b := by
  obtain ⟨n, hn⟩ := Option.isSome_iff_exists.mp hc
  unfold symlink at h
  dsimp only at h
  by_cases hs : b.silent = true
  · rw [if_pos hs] at h
    cases h
    exact ⟨b, by simp [remove, executePath, hs], Equiv.refl b⟩
  rw [if_neg hs] at h
  have hf : b.silent = false := by simpa using hs
  rcases hl : b.entries.lookup (filepathClean oldName) with _ | node <;> simp only [hl] at h
  · cases h
  split_ifs at h with hm
  · cases h
  cases node with
  | none => cases h
  | some _ =>
    cases h
    rw [hn]
    refine ⟨_, remove_of_lookup (n := n) ?_ ?_, rfl, rfl,
      lookup_erase_insert_of_none (AList.lookup_eq_none.mpr hm) _⟩
    exacts [hf, AList.lookup_insert _]

omit [IBucketNode N] in
theorem rename_undo {oldPath newPath : String} (h : b.rename oldPath newPath = .ok (.nil, b₁)) :
    ∃ b₂, b₁.rename newPath oldPath = .ok (.nil, b₂) ∧ Equiv b₂ b := by
  unfold rename at h
  dsimp only at h
  by_cases hs : b.silent = true
  · rw [if_pos hs] at h
    cases h
    exact ⟨b, by simp [rename, hs], Equiv.refl b⟩
  rw [if_neg hs] at h
  have hf : b.silent = false := by simpa using hs
  rcases hl : b.entries.lookup (filepathClean oldPath) with _ | node <;> simp only [hl] at h
  · cases h
  split_ifs at h with hm
  · cases h
  cases node with
  | none => cases h
  | some x =>
  cases h
  have hne : filepathClean oldPath ≠ filepathClean newPath := fun he =>
    hm (he ▸ AList.lookup_isSome.mp (by simp [hl]))
  have hn : b.entries.lookup (filepathClean newPath) = none := AList.lookup_eq_none.mpr hm
  refine ⟨_, rename_of_lookup (n := x) ?_ ?_ ?_, rfl, rfl, fun k => ?_⟩
  · exact hf
  · exact AList.lookup_insert _
  · simp [AList.mem_insert, AList.mem_erase, hne]
  · simp only [lookup_insert_ite, lookup_erase_ite]
    split_ifs with h₁ h₂
    · rw [h₁, hl]
    · rw [h₂, hn]
    · rfl

/-- A call that succeeds is taken back by its undo: the undo succeeds as well and leaves
    a filesystem that no call tells apart from the one the call started from. -/
theorem exec_undo (home : String) (fuel : ℕ) {c u : Call} (hu : c.undo = some u)
    (hc : c.keepsNodes N = true) (h : b.exec home fuel c = .ok (.err .nil, b₁)) :
    ∃ b₂, b₁.exec home fuel u = .ok (.err .nil, b₂) ∧ Equiv b₂ b := by
  cases c <;> simp only [Call.undo, reduceCtorEq, Option.some.injEq] at hu <;> subst hu <;>
    simp only [exec] at h ⊢ <;> obtain ⟨⟨_, _⟩, hx, ⟨⟩⟩ := exists_of_map_eq_ok h
  case mkdir =>
    obtain ⟨b₂, hr, he⟩ := mkdir_undo hx
    exact ⟨b₂, by rw [hr]; rfl, he⟩
  case symlink =>
    obtain ⟨b₂, hr, he⟩ := symlink_undo hc hx
    exact ⟨b₂, by rw [hr]; rfl, he⟩
  case rename =>
    obtain ⟨b₂, hr, he⟩ := rename_undo hx
    exact ⟨b₂, by rw [hr]; rfl, he⟩

/-- `/a` a file, in hybrid mode. -/
def fileAStore : BitBucketFS BucketNode :=
  ⟨false, .errorString "E", (∅ : Entries BucketNode).insert "/a" (some (createNode allRwPerms))⟩

theorem exec_undo_rename :
    (Call.rename "/a" "/b").undo = some (.rename "/b" "/a") ∧
      (Call.rename "/a" "/b").keepsNodes BucketNode = true ∧
      ∃ b₁, fileAStore.exec "/home/user" 0 (.rename "/a" "/b") = .ok (.err .nil, b₁) ∧
        ∃ b₂, b₁.exec "/home/user" 0 (.rename "/b" "/a") = .ok (.err .nil, b₂) ∧
          Equiv b₂ fileAStore :=
  ⟨rfl, rfl, _, rfl, @exec_undo BucketNode _ fileAStore _ "/home/user" 0 (.rename "/a" "/b") _
    rfl rfl rfl⟩

end BitBucketFS

end BitBucketFs
