import BitBucketFs.Deref

/-!
# `Stat` along a link chain

`Stat(p)` looks up `CleanPath(p)` and, on a link, calls `dereferenceSymLink` on the
link's target, which recurses along the chain of targets (`chainKey`). The chain ends
at a node that is not a link, and then `Stat` answers what `Lstat` answers for that
node's key, or at an absent key. In the second case each level of
`dereferenceSymLink` drops the error it gets back and builds a new `*PathError` on its
own key (lines 417–419), so the error `Stat` returns names the first target of the
chain, whichever key is missing.

Results:
* `dereferenceSymLink_of_chain_node`, `dereferenceSymLink_of_chain_absent`: the
  dereference along a chain of any length.
* `stat_of_not_link`: `Stat(p)` answers `Lstat(CleanPath(p))` when `p` is not a link.
* `stat_of_chain_node`: `Stat(p)` answers `Lstat` of the last key of the chain, and
  writes that key's client data when the chain makes a hop.
* `stat_of_chain_absent`: a chain that ends at an absent key fails with the first
  target as the error's `Path`.
* `stat_error_names_first_hop`: two hops to a removed key.
-/

namespace BitBucketFs

open Go

namespace BitBucketFS

variable {N : Type} [IBucketNode N] (home : String)

/-! ## The dereference of a chain -/

section Deref

variable (op : String) {bfs : BitBucketFS N} {kn : String}

/-- A chain that ends, within the stack, at a node that is not a link: the node comes
    back with its key stored in its client data, in the map as well. -/
theorem dereferenceSymLink_of_chain_node {node : N}
    (hk : bfs.entries.lookup kn = some (some node)) (hl : isLink node = false) :
    ∀ {n fuel : ℕ} {name : String}, n < fuel →
      chainKey home bfs.entries n (cleanPath home name) = some kn →
      bfs.dereferenceSymLink home op fuel name =
        .ok (.ok (withClientData node kn),
          { bfs with entries := bfs.entries.insert kn (some (withClientData node kn)) })
  | _, 0, _, hn, _ => absurd hn (Nat.not_lt_zero _)
  | 0, fuel + 1, name, _, hc => by
    cases hc
    simp [dereferenceSymLink, findNode, hk, hl]
  | n + 1, fuel + 1, name, hn, hc => by
    obtain ⟨k1, h1, hc⟩ := Option.bind_eq_some.mp hc
    obtain ⟨m, hm, hml, rfl⟩ := (nextKey_eq_some home).mp h1
    simp only [dereferenceSymLink, findNode, hm, hml, if_true]
    rw [dereferenceSymLink_of_chain_node hk hl (by omega) hc]

/-- A chain that ends, within the stack, at an absent key: the error names the key the
    dereference started from, not the missing one. -/
theorem dereferenceSymLink_of_chain_absent (hk : bfs.entries.lookup kn = none) :
    ∀ {n fuel : ℕ} {name : String}, n < fuel →
      chainKey home bfs.entries n (cleanPath home name) = some kn →
      bfs.dereferenceSymLink home op fuel name =
        .ok (.error (.pathError op (cleanPath home name) errNotExist), bfs)
  | _, 0, _, hn, _ => absurd hn (Nat.not_lt_zero _)
  | 0, fuel + 1, name, _, hc => by
    cases hc
    simp [dereferenceSymLink, findNode, hk]
  | n + 1, fuel + 1, name, hn, hc => by
    obtain ⟨k1, h1, hc⟩ := Option.bind_eq_some.mp hc
    obtain ⟨m, hm, hml, rfl⟩ := (nextKey_eq_some home).mp h1
    simp only [dereferenceSymLink, findNode, hm, hml, if_true]
    rw [dereferenceSymLink_of_chain_absent hk (by omega) hc]

end Deref

/-! ## `Stat` -/

section Stat

variable {bfs : BitBucketFS N} (hs : bfs.silent = false)
include hs

/-- `Stat(p)` on a path that is not a link answers `Lstat(CleanPath(p))`. -/
theorem stat_of_not_link (fuel : ℕ) {p : String} {node : N}
    (hk : bfs.entries.lookup (cleanPath home p) = some (some node)) (hl : isLink node = false) :
    bfs.stat home fuel p = (bfs.lstat (cleanPath home p)).map (·, bfs) := by
  simp [stat, hs, findNode, hk, hl]
  rfl

/-- A chain that makes `n + 1` hops from `CleanPath(p)` to an absent key, within the
    stack: `Stat(p)` fails with a not-found error on the first target `k1`. -/
theorem stat_of_chain_absent {n fuel : ℕ} (hn : n < fuel) {p k1 kn : String}
    (h1 : chainKey home bfs.entries 1 (cleanPath home p) = some k1)
    (hc : chainKey home bfs.entries (n + 1) (cleanPath home p) = some kn)
    (hk : bfs.entries.lookup kn = none) :
    bfs.stat home fuel p = .ok ((none, .pathError "Stat" k1 errNotExist), bfs) := by
  obtain ⟨k1', h1', hc⟩ := Option.bind_eq_some.mp hc
  obtain ⟨m, hm, hml, rfl⟩ := (nextKey_eq_some home).mp h1'
  have : k1 = cleanPath home (target m) := by simpa [chainKey, h1'] using h1.symm
  subst this
  simp [stat, hs, findNode, hm, hml, dereferenceSymLink_of_chain_absent home "Stat" hk hn hc]

end Stat

/-- `/c` a link to `/b`, and `/b` a link to the absent `/a`, in hybrid mode. -/
def danglingChainStore : BitBucketFS BucketNode :=
  ⟨false, .errorString "E", ((∅ : Entries BucketNode).insert "/b" (linkTo "/a")).insert "/c"
    (linkTo "/b")⟩

theorem stat_of_chain_absent_two_hops :
    ∃ bfs : BitBucketFS BucketNode, bfs.silent = false ∧
      chainKey "/home/user" bfs.entries 1 (cleanPath "/home/user" "/c") = some "/b" ∧
      chainKey "/home/user" bfs.entries 2 (cleanPath "/home/user" "/c") = some "/a" ∧
      bfs.entries.lookup "/a" = none ∧
      bfs.stat "/home/user" 2 "/c" = .ok ((none, .pathError "Stat" "/b" errNotExist), bfs) :=
  ⟨danglingChainStore, rfl, rfl, rfl, rfl,
    @stat_of_chain_absent BucketNode _ "/home/user" danglingChainStore rfl 1 2 (by decide) "/c"
      "/b" "/a" rfl rfl rfl⟩

/-! ## The functional node -/

section Functional

variable {bfs : BitBucketFS BucketNode}

/-- The projection of a key does not see client data. -/
theorem internalStat_withClientData {k : String} {node : BucketNode}
    (hk : bfs.entries.lookup k = some (some node)) (op op' name : String) :
    ({ bfs with entries := bfs.entries.insert k (some (withClientData node k)) }).internalStat
      op name = bfs.internalStat op' name := by
  by_cases h : filepathClean name = k
  · subst h
    simp [internalStat, hk, AList.lookup_insert]
  · simp [internalStat, AList.lookup_insert_ne h]

/-- A chain that makes `n` hops from `CleanPath(p)` to a node that is not a link, within
    the stack: `Stat(p)` answers `Lstat` of that node's key. After at least one hop it
    leaves the key in the node's client data; with no hop it changes nothing. -/
theorem stat_of_chain_node (hs : bfs.silent = false) {n fuel : ℕ} (hn : n ≤ fuel)
    {p kn : String} {node : BucketNode}
    (hc : chainKey home bfs.entries n (cleanPath home p) = some kn)
    (hk : bfs.entries.lookup kn = some (some node)) (hl : isLink node = false) :
    bfs.stat home fuel p = (bfs.lstat kn).map (·, if n = 0 then bfs
      else { bfs with entries := bfs.entries.insert kn (some (withClientData node kn)) }) := by
  cases n with
  | zero =>
    cases hc
    exact stat_of_not_link home hs fuel hk hl
  | succ n =>
    obtain ⟨k1, h1, hc⟩ := Option.bind_eq_some.mp hc
    obtain ⟨m, hm, hml, rfl⟩ := (nextKey_eq_some home).mp h1
    have hcd : clientData (withClientData node kn) = some kn := rfl
    rw [stat, if_neg (by simp [hs])]
    simp only [findNode, hm, hml, if_true,
      dereferenceSymLink_of_chain_node home "Stat" hk hl (Nat.lt_of_succ_le hn) hc, hcd]
    rw [internalStat_withClientData hk "Stat" "Lstat"]
    rfl

end Functional

theorem stat_of_chain_node_one_hop :
    linkedStore.silent = false ∧ 1 ≤ 1 ∧
      chainKey "/home/user" linkedStore.entries 1 (cleanPath "/home/user" "/b") = some "/a" ∧
      linkedStore.entries.lookup "/a" = some (some (createNode allRwPerms)) ∧
      isLink (createNode allRwPerms : BucketNode) = false ∧
      linkedStore.stat "/home/user" 1 "/b" = (linkedStore.lstat "/a").map (·,
        if 1 = 0 then linkedStore
        else { linkedStore with
          entries := linkedStore.entries.insert "/a"
            (some (withClientData (createNode allRwPerms) "/a")) }) :=
  ⟨rfl, le_refl 1, rfl, rfl, by decide,
    stat_of_chain_node "/home/user" rfl (le_refl 1) rfl rfl (by decide)⟩

/-- The chain `/c → /b → /a` with `/a` removed: `Stat("/c")` fails with `Path` `/b`,
    the first target, where the last path visited is `/a`. -/
theorem stat_error_names_first_hop (home : String) (fuel : ℕ) :
    ((createWithError (.errorString "Any BitBucket error") :
        Except Fault (BitBucketFS BucketNode)).bind fun bfs =>
          bfs.run home (fuel + 2) [.withFakeFiles ["/a"], .symlink "/a" "/b",
            .symlink "/b" "/c", .remove "/a", .stat "/c"]).map (·.1.getLast?) =
      .ok (some (.info none (.pathError "Stat" "/b" errNotExist))) :=
  rfl

end BitBucketFS

end BitBucketFs
