import Mathlib.Data.Finset.Card
import BitBucketFs.Filesystem

/-!
# Following links: termination and what `Stat` writes

`Stat` and `dereferenceSymLink` follow the chain of link targets from a path: each
hop looks up `CleanPath` of the previous link's target. `chainKey n k` is the key
reached after `n` hops from the key `k`, defined while every key before it holds a
link node.

The recursion has no depth bound and no cycle check, so `Stat` overflows Go's stack
exactly when the chain from its path is longer than the stack. The map has finitely
many keys, so a chain that makes more hops than there are keys has come back to a key
it visited and goes round for ever.

At the end of the chain `dereferenceSymLink` stores the node's own key in the node's
client data. The node is the one in the map, so that write outlives the call: `Stat` is
the one read that changes the store.

Results:
* `stat_overflow_iff`: `Stat(p)` overflows the stack at depth `fuel` exactly when the
  filesystem is in hybrid mode and the chain from `CleanPath(p)` makes `fuel + 1` hops.
* `stat_bounded_or_cycle`: either `Stat(p)` returns at every depth from the number of
  keys on, or the chain from `p` never ends and `Stat(p)` overflows at every depth.
* `self_link_overflows`: a run of four calls makes `/a` a link to itself.
* `reads_change_client_data_only`: `Lstat`, `ReadDir` and `Open`/`OpenFile` leave the
  filesystem as it was; `Stat(p)` changes at most the client data of the node that the
  link chain from `CleanPath(p)` ends at (`ChainEndWrite`), after at least one hop.
* `stat_writes_client_data`: `Stat` through a link sets the target entry's client data.
-/

namespace BitBucketFs

open Go

namespace BitBucketFS

variable {N : Type} [IBucketNode N] (home : String)

/-! ## Link chains -/

/-- The key `dereferenceSymLink` looks up after the key `k`: the cleaned target of the
    link node stored under `k`; `none` if `k` is absent or holds a nil node or a node
    that is not a link. -/
def nextKey (e : Entries N) (k : String) : Option String :=
  match e.lookup k with
  | some (some n) => if isLink n then some (cleanPath home (target n)) else none
  | _ => none

/-- The key reached from `k` after `i` link hops. -/
def chainKey (e : Entries N) : ℕ → String → Option String
  | 0, k => some k
  | i + 1, k => (nextKey home e k).bind (chainKey e i)

section Chain

variable {e : Entries N}

/-- The one way a chain makes a hop: a link node under the key, and the cleaned target. -/
theorem nextKey_eq_some {k k' : String} :
    nextKey home e k = some k' ↔
      ∃ m, e.lookup k = some (some m) ∧ isLink m = true ∧ cleanPath home (target m) = k' := by
  unfold nextKey
  split
  · rename_i m hm
    by_cases hl : isLink m <;> simp [hm, hl]
  · rename_i hm
    constructor
    · rintro ⟨⟩
    · rintro ⟨m, h, -⟩; exact absurd h (hm m)

theorem mem_of_nextKey {k k' : String} (h : nextKey home e k = some k') : k ∈ e := by
  unfold nextKey at h
  split at h
  · exact AList.lookup_isSome.mp (by simp [*])
  · cases h

theorem chainKey_add (a b : ℕ) (k : String) :
    chainKey home e (a + b) k = (chainKey home e a k).bind (chainKey home e b) := by
  induction a generalizing k with
  | zero => simp [chainKey]
  | succ a ih =>
    rw [Nat.add_right_comm, chainKey, chainKey, Option.bind_assoc]
    simp only [ih]

/-- A chain that makes `m` hops makes every shorter number of hops. -/
theorem chainKey_isSome_of_le {m n : ℕ} {k : String} (h : (chainKey home e m k).isSome)
    (hnm : n ≤ m) : (chainKey home e n k).isSome := by
  obtain ⟨d, rfl⟩ := Nat.exists_eq_add_of_le hnm
  rw [chainKey_add] at h
  cases hc : chainKey home e n k <;> simp_all

/-- Every key a chain leaves from holds a link, so it is a key of the map. -/
theorem chainKey_mem {i : ℕ} {k : String} (h : (chainKey home e (i + 1) k).isSome) :
    ∃ k', chainKey home e i k = some k' ∧ k' ∈ e := by
  rw [chainKey_add] at h
  cases hc : chainKey home e i k with
  | none => simp [hc] at h
  | some k' =>
    cases hn : nextKey home e k' with
    | none => simp [hc, chainKey, hn] at h
    | some _ => exact ⟨k', rfl, mem_of_nextKey home hn⟩

/-- A chain that comes back to its start after `d` hops goes round for ever. -/
theorem chainKey_loop {d : ℕ} {k : String} (h : chainKey home e d k = some k) :
    ∀ j, chainKey home e (j * d) k = some k
  | 0 => by rw [Nat.zero_mul]; rfl
  | j + 1 => by rw [Nat.succ_mul, chainKey_add, chainKey_loop h j, Option.some_bind, h]

/-- A chain that makes one hop more than the map has keys never ends: two of its first
    keys coincide, so it is a cycle. -/
theorem chainKey_cycle {k : String} (h : (chainKey home e (e.keys.length + 1) k).isSome) :
    ∀ m, (chainKey home e m k).isSome := by
  have hsome : ∀ i ≤ e.keys.length + 1, ∃ k', chainKey home e i k = some k' :=
    fun i hi => Option.isSome_iff_exists.mp (chainKey_isSome_of_le home h hi)
  have hmem : ∀ i ∈ Finset.range (e.keys.length + 1),
      (chainKey home e i k).getD "" ∈ e.keys.toFinset := by
    intro i hi
    obtain ⟨k', hk', hm⟩ := chainKey_mem home
      (chainKey_isSome_of_le home h (Finset.mem_range.mp hi))
    simpa [hk'] using AList.mem_keys.mpr hm
  obtain ⟨i, hi, j, hj, hne, heq⟩ := Finset.exists_ne_map_eq_of_card_lt_of_maps_to
    (by simpa using Nat.lt_succ_of_le (List.toFinset_card_le e.keys)) hmem
  wlog hij : i < j generalizing i j
  · exact this j hj i hi hne.symm heq.symm (by omega)
  simp only [Finset.mem_range] at hi hj
  -- after `i` hops the chain is at `ka`, and `j - i` hops later at `ka` again
  obtain ⟨ka, hka⟩ := hsome i (by omega)
  obtain ⟨kj, hkj⟩ := hsome j (by omega)
  have hback : chainKey home e (j - i) ka = some ka := by
    have : ka = kj := by simpa [hka, hkj] using heq
    rwa [← Nat.add_sub_cancel' hij.le, chainKey_add, hka, Option.some_bind, ← this] at hkj
  intro m
  apply chainKey_isSome_of_le home (m := i + m * (j - i)) _
    (le_trans (Nat.le_mul_of_pos_right m (by omega)) (Nat.le_add_left _ i))
  rw [chainKey_add, hka, Option.some_bind, chainKey_loop home hback]
  rfl

end Chain

/-! ## `dereferenceSymLink` and `Stat` -/

section Deref

variable (op : String)

/-- `dereferenceSymLink` overflows the stack exactly when the chain from the cleaned name
    makes as many hops as there are stack frames. -/
theorem dereferenceSymLink_overflow_iff :
    ∀ (fuel : ℕ) (bfs : BitBucketFS N) (name : String),
      bfs.dereferenceSymLink home op fuel name = .error .stackOverflow ↔
        (chainKey home bfs.entries fuel (cleanPath home name)).isSome
  | 0, _, _ => by simp [dereferenceSymLink, chainKey]
  | fuel + 1, bfs, name => by
    simp only [dereferenceSymLink, findNode, chainKey, nextKey]
    rcases AList.lookup (cleanPath home name) bfs.entries with _ | _ | n
    · simp
    · simp
    · by_cases hl : isLink n
      · simp only [hl, if_true, Option.some_bind,
          ← dereferenceSymLink_overflow_iff fuel bfs (target n)]
        rcases bfs.dereferenceSymLink home op fuel (target n) with _ | ⟨_ | _, _⟩ <;> simp
      · simp [hl]

/-- `internalStat` faults only on a nil node, never by recursion. -/
theorem internalStat_ne_overflow {α : Type} (bfs : BitBucketFS N) (name : String)
    (f : Option BitBucketFileInfo × GoError → α) :
    (bfs.internalStat op name).map f ≠ .error .stackOverflow := by
  dsimp only [internalStat]
  rcases AList.lookup (filepathClean name) bfs.entries with _ | _ | n <;>
    cases bfs.silent <;> simp [Except.map]

theorem stat_overflow_iff (fuel : ℕ) (bfs : BitBucketFS N) (p : String) :
    bfs.stat home fuel p = .error .stackOverflow ↔
      bfs.silent = false ∧ (chainKey home bfs.entries (fuel + 1) (cleanPath home p)).isSome := by
  unfold stat
  cases bfs.silent
  · simp only [findNode, chainKey, nextKey, Bool.false_eq_true, if_false, true_and]
    rcases AList.lookup (cleanPath home p) bfs.entries with _ | _ | n
    · simp
    · simp
    · by_cases hl : isLink n
      · simp only [hl, if_true, Option.some_bind,
          ← dereferenceSymLink_overflow_iff home "Stat" fuel bfs (target n)]
        rcases bfs.dereferenceSymLink home "Stat" fuel (target n) with _ | ⟨_ | n', b⟩
        · simp
        · simp
        · rcases h : clientData n' <;> simp [h, internalStat_ne_overflow]
      · simp [hl, internalStat_ne_overflow]
  · simp

end Deref

/-- Link following ends within as many hops as the map has keys, or never: `Stat(p)`
    returns at every stack depth from the number of keys on, or the chain from
    `CleanPath(p)` goes on for ever and `Stat(p)` overflows at every depth. -/
theorem stat_bounded_or_cycle (bfs : BitBucketFS N) (p : String) :
    (∀ fuel, bfs.entries.keys.length ≤ fuel → bfs.stat home fuel p ≠ .error .stackOverflow) ∨
      (bfs.silent = false ∧ (∀ n, (chainKey home bfs.entries n (cleanPath home p)).isSome) ∧
        ∀ fuel, bfs.stat home fuel p = .error .stackOverflow) := by
  by_cases h : bfs.silent = false ∧
      (chainKey home bfs.entries (bfs.entries.keys.length + 1) (cleanPath home p)).isSome
  · have hall := chainKey_cycle home h.2
    exact .inr ⟨h.1, hall, fun fuel => (stat_overflow_iff home fuel bfs p).2 ⟨h.1, hall _⟩⟩
  · refine .inl fun fuel hf ho => h ?_
    obtain ⟨hs, hc⟩ := (stat_overflow_iff home fuel bfs p).1 ho
    exact ⟨hs, chainKey_isSome_of_le home hc (by omega)⟩

/-- `/a` a link to itself, in hybrid mode. -/
def loopedStore : BitBucketFS BucketNode :=
  ⟨false, .errorString "Any BitBucket error",
    (∅ : Entries BucketNode).insert "/a" (some ⟨modeSymlink ||| allPerms, 0, "/a", none⟩)⟩

/-- `WithFakeFiles(["/a"])`, `Symlink("/a", "/b")`, `Remove("/a")`, `Rename("/b", "/a")`
    leave `/a` a link to itself, and `Stat("/a")` then overflows at every stack depth. -/
theorem self_link_overflows :
    ∃ bfs : BitBucketFS BucketNode,
      ((createWithError (.errorString "Any BitBucket error") :
          Except Fault (BitBucketFS BucketNode)).bind fun b =>
            b.run "/home/user" 0 [.withFakeFiles ["/a"], .symlink "/a" "/b", .remove "/a",
              .rename "/b" "/a"]).map (·.2) = .ok bfs ∧
        ∀ fuel, bfs.stat "/home/user" fuel "/a" = .error .stackOverflow := by
  have hloop : chainKey "/home/user" loopedStore.entries 1 "/a" = some "/a" := rfl
  refine ⟨loopedStore, rfl, fun fuel => (stat_overflow_iff _ fuel loopedStore "/a").2 ⟨rfl, ?_⟩⟩
  have h := chainKey_loop _ hloop (fuel + 1)
  rw [Nat.mul_one] at h
  exact Option.isSome_iff_exists.mpr ⟨_, h⟩

/-! ## What the reads change -/

/-- `bfs'` is `bfs`, or `bfs` with the client data of one non-nil entry set to the
    entry's own key. -/
def ClientDataOnly (bfs bfs' : BitBucketFS N) : Prop :=
  bfs' = bfs ∨ ∃ k n, bfs.entries.lookup k = some (some n) ∧
    bfs' = { bfs with entries := bfs.entries.insert k (some (withClientData n k)) }

/-- A change of client data keeps the key set. -/
theorem ClientDataOnly.mem_iff {bfs bfs' : BitBucketFS N} (h : ClientDataOnly bfs bfs')
    (k : String) : k ∈ bfs'.entries ↔ k ∈ bfs.entries := by
  rcases h with rfl | ⟨k', n, hk', rfl⟩
  · rfl
  · have : k' ∈ bfs.entries := AList.lookup_isSome.mp (by simp [hk'])
    simp only [AList.mem_insert]
    exact ⟨fun h => h.elim (· ▸ this) id, Or.inr⟩

/-- `bfs'` is `bfs` after the one write of `dereferenceSymLink`: the link chain from the
    key `k` ends, after some hops, at a node that is not a link, and that node's client
    data is set to its own key. The mode, the error and every other entry are kept. -/
def ChainEndWrite (bfs : BitBucketFS N) (k : String) (bfs' : BitBucketFS N) : Prop :=
  ∃ i kn n, chainKey home bfs.entries i k = some kn ∧ bfs.entries.lookup kn = some (some n) ∧
    isLink n = false ∧
      bfs' = { bfs with entries := bfs.entries.insert kn (some (withClientData n kn)) }

section Frame

variable {bfs bfs' : BitBucketFS N}

/-- A write at the end of the chain from the key a link points to is a write at the end
    of the chain from the link. -/
theorem ChainEndWrite.of_nextKey {k k' : String} (hn : nextKey home bfs.entries k = some k')
    (h : ChainEndWrite home bfs k' bfs') : ChainEndWrite home bfs k bfs' := by
  obtain ⟨i, kn, n, hc, hrest⟩ := h
  exact ⟨i + 1, kn, n, by rw [chainKey, hn, Option.some_bind, hc], hrest⟩

theorem ClientDataOnly.of_chainEndWrite {k : String}
    (h : bfs' = bfs ∨ ChainEndWrite home bfs k bfs') : ClientDataOnly bfs bfs' := by
  rcases h with rfl | ⟨-, kn, n, -, hk, -, rfl⟩
  · exact .inl rfl
  · exact .inr ⟨kn, n, hk, rfl⟩

/-- The hop `dereferenceSymLink` and `Stat` make from a link node. -/
theorem nextKey_of_link {k : String} {n : N} (hl : bfs.entries.lookup k = some (some n))
    (hlk : isLink n = true) : nextKey home bfs.entries k = some (cleanPath home (target n)) := by
  simp [nextKey, hl, hlk]

variable (op : String)

/-- `dereferenceSymLink(name)` leaves the filesystem as it was, or writes the end of the
    link chain from `CleanPath(name)`. -/
theorem dereferenceSymLink_frame :
    ∀ (fuel : ℕ) (bfs : BitBucketFS N) (name : String) {r : Except GoError N}
      {bfs' : BitBucketFS N}, bfs.dereferenceSymLink home op fuel name = .ok (r, bfs') →
        bfs' = bfs ∨ ChainEndWrite home bfs (cleanPath home name) bfs'
  | 0, _, _, _, _, h => by cases h
  | fuel + 1, bfs, name, r, bfs', h => by
    simp only [dereferenceSymLink, findNode] at h
    rcases hl : AList.lookup (cleanPath home name) bfs.entries with _ | _ | n <;>
      simp only [hl] at h
    · cases h; exact .inl rfl
    · cases h
    by_cases hlk : isLink n = true
    · rw [if_pos hlk] at h
      split at h <;> cases h <;>
        exact (dereferenceSymLink_frame fuel bfs _ ‹_›).imp_right
          (·.of_nextKey home (nextKey_of_link home hl hlk))
    · rw [if_neg hlk] at h
      cases h
      exact .inr ⟨0, _, n, rfl, hl, by simpa using hlk, rfl⟩

omit [IBucketNode N] in
theorem eq_of_map_pair {α : Type} {x : Except Fault α} {b b' : BitBucketFS N} {r : α}
    (h : x.map (·, b) = .ok (r, b')) : b' = b := by
  cases x <;> cases h; rfl

/-- `Stat(p)` leaves the filesystem as it was, or writes the end of the link chain that
    starts with a hop from `CleanPath(p)` to `k`. -/
theorem stat_chainEndWrite (fuel : ℕ) (bfs : BitBucketFS N) (p : String)
    {r : Option BitBucketFileInfo × GoError} {bfs' : BitBucketFS N}
    (h : bfs.stat home fuel p = .ok (r, bfs')) :
    bfs' = bfs ∨ ∃ k, nextKey home bfs.entries (cleanPath home p) = some k ∧
      ChainEndWrite home bfs k bfs' := by
  unfold stat at h
  split at h
  · cases h; exact .inl rfl
  simp only [findNode] at h
  rcases hl : AList.lookup (cleanPath home p) bfs.entries with _ | _ | n <;> simp only [hl] at h
  · cases h; exact .inl rfl
  · cases h
  by_cases hlk : isLink n = true
  · rw [if_pos hlk] at h
    have hw : ∀ {d : Except GoError N} {b' : BitBucketFS N},
        bfs.dereferenceSymLink home "Stat" fuel (target n) = .ok (d, b') →
          b' = bfs ∨ ∃ k, nextKey home bfs.entries (cleanPath home p) = some k ∧
            ChainEndWrite home bfs k b' := fun hd =>
      (dereferenceSymLink_frame home "Stat" fuel bfs _ hd).imp_right fun hw =>
        ⟨_, nextKey_of_link home hl hlk, hw⟩
    rcases hd : bfs.dereferenceSymLink home "Stat" fuel (target n) with _ | ⟨_ | n', b'⟩ <;>
      simp only [hd] at h
    · cases h
    · cases h; exact hw hd
    · split at h
      · cases h
      · rw [eq_of_map_pair h]; exact hw hd
  · rw [if_neg hlk] at h
    exact .inl (eq_of_map_pair h)

theorem stat_frame (fuel : ℕ) (bfs : BitBucketFS N) (p : String)
    {r : Option BitBucketFileInfo × GoError} {bfs' : BitBucketFS N}
    (h : bfs.stat home fuel p = .ok (r, bfs')) : ClientDataOnly bfs bfs' := by
  rcases stat_chainEndWrite home fuel bfs p h with rfl | ⟨_, -, hw⟩
  · exact .inl rfl
  · exact ClientDataOnly.of_chainEndWrite home (.inr hw)

end Frame

end BitBucketFS

/-- The calls that only read: `Stat`, `Lstat`, `ReadDir` and `Open`/`OpenFile`. -/
def Call.isRead : Call → Bool
  | .stat _ | .lstat _ | .readDir _ | .openFile _ _ _ => true
  | _ => false

namespace BitBucketFS

variable {N : Type} [IBucketNode N] (home : String)

/-- `Lstat`, `ReadDir` and `Open`/`OpenFile`, with any flag, return the filesystem they
    were given. So does `Stat(p)`, or it makes one write: the link chain from
    `CleanPath(p)` hops to a key `k` and ends from `k` at a node that is not a link, whose
    client data is set to its own key; the mode, the error, the key set and every other
    entry are kept. -/
theorem reads_change_client_data_only (fuel : ℕ) (bfs : BitBucketFS N) {c : Call}
    (hc : c.isRead = true) {r : Reply} {bfs' : BitBucketFS N}
    (h : bfs.exec home fuel c = .ok (r, bfs')) :
    bfs' = bfs ∨ ∃ p k, c = .stat p ∧ nextKey home bfs.entries (cleanPath home p) = some k ∧
      ChainEndWrite home bfs k bfs' := by
  cases c <;> simp only [Call.isRead, Bool.false_eq_true] at hc <;>
    simp only [exec, Except.map] at h <;> split at h <;> cases h
  case stat =>
    exact (stat_chainEndWrite home fuel bfs _ ‹_›).imp_right fun ⟨k, hk, hw⟩ => ⟨_, k, rfl, hk, hw⟩
  all_goals exact .inl rfl

/-- `/a` a file and `/b` a link to it, in hybrid mode. -/
def linkedStore : BitBucketFS BucketNode :=
  ⟨false, .errorString "Any BitBucket error",
    ((∅ : Entries BucketNode).insert "/a" (some (createNode allRwPerms))).insert "/b"
      (linkTo "/a")⟩

theorem stat_through_link_frame :
    ∃ r bfs', linkedStore.exec "/home/user" 1 (.stat "/b") = .ok (r, bfs') ∧
      (bfs' = linkedStore ∨ ∃ p k, Call.stat "/b" = .stat p ∧
        nextKey "/home/user" linkedStore.entries (cleanPath "/home/user" p) = some k ∧
          ChainEndWrite "/home/user" linkedStore k bfs') :=
  ⟨_, _, rfl, reads_change_client_data_only "/home/user" 1 linkedStore (c := .stat "/b") rfl rfl⟩

/-- After `WithFakeFiles(["/a"])` and `Symlink("/a", "/b")` the entry `/a` has no client
    data; a `Stat("/b")` stores `"/a"` in it. -/
theorem stat_writes_client_data :
    ((createWithError (.errorString "Any BitBucket error") :
        Except Fault (BitBucketFS BucketNode)).bind fun bfs =>
          bfs.run "/home/user" 1 [.withFakeFiles ["/a"], .symlink "/a" "/b"]).map
        (fun (_, b) => (b.entries.lookup "/a").map (Option.map clientData)) =
      .ok (some (some none)) ∧
    ((createWithError (.errorString "Any BitBucket error") :
        Except Fault (BitBucketFS BucketNode)).bind fun bfs =>
          bfs.run "/home/user" 1 [.withFakeFiles ["/a"], .symlink "/a" "/b", .stat "/b"]).map
        (fun (_, b) => (b.entries.lookup "/a").map (Option.map clientData)) =
      .ok (some (some (some "/a"))) :=
  ⟨rfl, rfl⟩

end BitBucketFS

end BitBucketFs
