import BitBucketFs.Commute

/-!
# The lite build and the functional build agree on safe calls

`createNode` selects the node type at build time (`bitbucket_node.go` lines 108–115).
The filesystem reads a node only through `IsDir`, `IsLink`, `Target`, `Size`, `Mode` and
`ClientData`, and makes nodes only with `createNode` and `LinkTo`. The lite node keeps
only a directory flag and a link flag, and its `Mode` is `ALL_PERMS` with those two
flags. So the two implementations answer all of these alike, `Mode` up to its
permission bits, as long as no node gets a mode bit beyond the directory flag, the link
flag and the permission bits, no node gets the link flag without a target, and no
`LinkTo` returns nil. Two calls break that: a `Mkdir` whose permission has another bit,
such as `os.ModeSymlink` or `os.ModeNamedPipe`, and a `Symlink` to a target that is
blank after trimming; `lite_functional_differ` shows the builds answering both
differently. Every other call is `Call.safe`.

`NodeRel` relates a lite node and a functional node that answer alike; `FsRel` relates
two filesystems whose entries are related key by key. On related filesystems every safe
call faults alike or returns the same reply up to the permission bits (`os.ModePerm`)
of the `os.FileInfo` it returns (`Reply.eraseMode`), and leaves related filesystems.

Results:
* `exec_sim`: one safe call on related filesystems.
* `run_sim`: a safe call sequence on related filesystems, such as the two builds'
  `CreateWithError(E)` (`fsRel_createWithError`), gets the same replies from both
  builds up to the permission bits of the projections, or the same fault.
* `lite_functional_differ`: the two calls that are not safe make the builds answer
  differently.
-/

namespace BitBucketFs

open Go

/-- The calls on which the builds agree: a `Mkdir` whose node mode `os.ModeDir | perm`
    has no bit but the directory flag and the permission bits, and a `Symlink` target
    that is not blank after cleaning and trimming. -/
def Call.safe : Call → Bool
  | .mkdir _ perm => (modeDir ||| perm) &&& ~~~(modeDir ||| modePerm) == 0
  | .symlink t _ => stringsTrim (filepathClean t) " \t" != ""
  | _ => true

/-- The lite build and the functional build disagree: after
    `Mkdir("/d", os.ModeSymlink|0755)`, `Stat("/d")` succeeds on lite nodes (not a link:
    no target) and fails on functional nodes (a link to `""`, cleaned to the absent `.`);
    after `WithFakeFiles([" "])` and `Symlink(" ", "/l")`, `Stat("/l")` fails on lite nodes
    and faults on functional ones. -/
theorem lite_functional_differ (home : String) (fuel : ℕ) :
    (((BitBucketFS.createWithError (.errorString "Any BitBucket error") :
        Except Fault (BitBucketFS BucketNodeLite)).bind fun bfs =>
          bfs.run home (fuel + 1) [.mkdir "/d" (modeSymlink ||| 0o755), .stat "/d"]).map
        (·.1.map Reply.succeeded)) = .ok [true, true] ∧
    (((BitBucketFS.createWithError (.errorString "Any BitBucket error") :
        Except Fault (BitBucketFS BucketNode)).bind fun bfs =>
          bfs.run home (fuel + 1) [.mkdir "/d" (modeSymlink ||| 0o755), .stat "/d"]).map
        (·.1.map Reply.succeeded)) = .ok [true, false] ∧
    (((BitBucketFS.createWithError (.errorString "Any BitBucket error") :
        Except Fault (BitBucketFS BucketNodeLite)).bind fun bfs =>
          bfs.run home (fuel + 1) [.withFakeFiles [" "], .symlink " " "/l", .stat "/l"]).map
        (·.1.map Reply.succeeded)) = .ok [true, true, false] ∧
    (((BitBucketFS.createWithError (.errorString "Any BitBucket error") :
        Except Fault (BitBucketFS BucketNode)).bind fun bfs =>
          bfs.run home (fuel + 1) [.withFakeFiles [" "], .symlink " " "/l", .stat "/l"]).map
        (·.1.map Reply.succeeded)) = .error .nilDereference :=
  ⟨rfl, rfl, rfl, rfl⟩

/-- A projection with its permission bits (`os.ModePerm`) cleared. -/
def BitBucketFileInfo.eraseMode (fi : BitBucketFileInfo) : BitBucketFileInfo :=
  { fi with iMode := fi.iMode &&& ~~~modePerm }

/-- A reply with the permission bits of its `os.FileInfo` cleared. -/
def Reply.eraseMode : Reply → Reply
  | .info fi e => .info (fi.map BitBucketFileInfo.eraseMode) e
  | r => r

namespace BitBucketFS

/-! ## The relations -/

/-- A lite node and a functional node that answer every method the filesystem calls
    alike, `Mode` up to its permission bits. -/
structure NodeRel (nl : BucketNodeLite) (nf : BucketNode) : Prop where
  isDir : isDir nl = isDir nf
  isLink : isLink nl = isLink nf
  target : target nl = target nf
  size : size nl = size nf
  clientData : clientData nl = clientData nf
  mode : mode nl &&& ~~~modePerm = mode nf &&& ~~~modePerm

/-- Map entries that hold related nodes; neither holds a nil node. -/
def EntryRel : Option (Option BucketNodeLite) → Option (Option BucketNode) → Prop
  | none, none => True
  | some (some nl), some (some nf) => NodeRel nl nf
  | _, _ => False

/-- A lite and a functional filesystem in the same mode, with the same error, and
    related entries under every key. -/
structure FsRel (bl : BitBucketFS BucketNodeLite) (bf : BitBucketFS BucketNode) : Prop where
  silent : bl.silent = bf.silent
  err : bl.err = bf.err
  lookup : ∀ k, EntryRel (bl.entries.lookup k) (bf.entries.lookup k)

/-- Results of the two builds that agree: the same fault, or related values and related
    filesystems. -/
def ResultRel {α β : Type} (R : α → β → Prop) :
    Except Fault (α × BitBucketFS BucketNodeLite) → Except Fault (β × BitBucketFS BucketNode) →
      Prop
  | .error f, .error f' => f = f'
  | .ok (a, bl), .ok (b, bf) => R a b ∧ FsRel bl bf
  | _, _ => False

theorem EntryRel.cases {a : Option (Option BucketNodeLite)} {b : Option (Option BucketNode)}
    (h : EntryRel a b) :
    (a = none ∧ b = none) ∨ ∃ nl nf, a = some (some nl) ∧ b = some (some nf) ∧ NodeRel nl nf := by
  rcases a with _ | _ | nl <;> rcases b with _ | _ | nf <;> simp only [EntryRel] at h
  · exact .inl ⟨rfl, rfl⟩
  · exact .inr ⟨nl, nf, rfl, rfl, h⟩

variable {bl : BitBucketFS BucketNodeLite} {bf : BitBucketFS BucketNode}

namespace FsRel

theorem mem_iff (h : FsRel bl bf) (k : String) : k ∈ bl.entries ↔ k ∈ bf.entries := by
  rw [← AList.lookup_isSome, ← AList.lookup_isSome]
  rcases (h.lookup k).cases with ⟨ha, hb⟩ | ⟨_, _, ha, hb, -⟩ <;> simp [ha, hb]

theorem insert (h : FsRel bl bf) (k : String) {nl : BucketNodeLite} {nf : BucketNode}
    (hn : NodeRel nl nf) :
    FsRel { bl with entries := bl.entries.insert k (some nl) }
      { bf with entries := bf.entries.insert k (some nf) } :=
  ⟨h.silent, h.err, fun k' => by
    simp only [lookup_insert_ite]
    split_ifs
    · exact hn
    · exact h.lookup k'⟩

theorem erase (h : FsRel bl bf) (k : String) :
    FsRel { bl with entries := bl.entries.erase k } { bf with entries := bf.entries.erase k } :=
  ⟨h.silent, h.err, fun k' => by
    simp only [lookup_erase_ite]
    split_ifs
    · trivial
    · exact h.lookup k'⟩

end FsRel

/-! ## Modes up to the permission bits -/

theorem and_or_distrib_left (x y z : FileMode) : x &&& (y ||| z) = x &&& y ||| x &&& z := by
  ext i; simp [Bool.and_or_distrib_left]

theorem and_or_distrib_right (x y z : FileMode) : (x ||| y) &&& z = x &&& z ||| y &&& z := by
  ext i; simp [Bool.and_or_distrib_right]

/-- The directory flag is not a permission bit. -/
theorem hasFileModeFlag_modeDir_mask (m : FileMode) :
    hasFileModeFlag modeDir (m &&& ~~~modePerm) = hasFileModeFlag modeDir m := by
  simp only [hasFileModeFlag, BitVec.and_assoc, show ~~~modePerm &&& modeDir = modeDir by decide]

section Projection

variable {ml mf : FileMode} (h : ml &&& ~~~modePerm = mf &&& ~~~modePerm) (name : String)
  (s : GoInt)
include h

/-- Modes equal up to the permission bits give file projections equal up to them. -/
theorem eraseMode_fileInfo :
    (newBitBucketFileInfo name s ml).eraseMode = (newBitBucketFileInfo name s mf).eraseMode := by
  have hd : hasFileModeFlag modeDir ml = hasFileModeFlag modeDir mf := by
    rw [← hasFileModeFlag_modeDir_mask ml, h, hasFileModeFlag_modeDir_mask]
  simp only [newBitBucketFileInfo, BitBucketFileInfo.eraseMode, hd]
  split_ifs <;> simp only [BitVec.and_assoc, h]

theorem eraseMode_dirInfo :
    (newBitBucketDirInfo name s ml).eraseMode = (newBitBucketDirInfo name s mf).eraseMode := by
  simp only [newBitBucketDirInfo, BitBucketFileInfo.eraseMode, and_or_distrib_right, h]

end Projection

/-! ## The nodes the filesystem makes -/

/-- A node made from a directory mode with no bit but the directory flag and the
    permission bits: the lite node's mode is `os.ModeDir | ALL_PERMS`, the functional
    node's the mode itself. -/
theorem nodeRel_createNode {m : FileMode} (hd : hasFileModeFlag modeDir m = true)
    (hm : m &&& ~~~(modeDir ||| modePerm) = 0) : NodeRel (createNode m) (createNode m) := by
  have hs : hasFileModeFlag modeSymlink m = false := by
    have : m &&& modeSymlink = 0 := by
      rw [show modeSymlink = ~~~(modeDir ||| modePerm) &&& modeSymlink by decide,
        ← BitVec.and_assoc, hm]
      rfl
    simp only [hasFileModeFlag, this]
    decide
  have hmode : m &&& ~~~modePerm = modeDir := by
    rw [show ~~~modePerm = modeDir ||| ~~~(modeDir ||| modePerm) by decide, and_or_distrib_left, hm]
    simpa [hasFileModeFlag] using hd
  refine ⟨rfl, by simp [newBucketNodeLite, newBucketNode, hs], rfl, rfl, rfl, ?_⟩
  show ((if hasFileModeFlag modeSymlink m then modeSymlink else 0) |||
    ((if hasFileModeFlag modeDir m then modeDir else 0) ||| allPerms)) &&& ~~~modePerm =
      m &&& ~~~modePerm
  rw [hs, hd, hmode]
  decide

/-- The node of `WithFakeFiles`. -/
theorem nodeRel_createNode_allRwPerms : NodeRel (createNode allRwPerms) (createNode allRwPerms) :=
  ⟨rfl, by decide, rfl, rfl, rfl, by decide⟩

theorem nodeRel_linkTo {key : String} (hk : stringsTrim key " \t" ≠ "") :
    ∃ nf, (linkTo key : Option BucketNode) = some nf ∧
      NodeRel { newBucketNodeLite (modeSymlink ||| allPerms) with target := key } nf := by
  refine ⟨_, BucketNode.linkTo_of_ne hk, rfl, ?_, rfl, rfl, rfl, ?_⟩
  · have hl : 0 < key.length := Nat.pos_of_ne_zero fun h0 =>
      hk (by rw [(length_eq_zero_iff_eq_empty key).mp h0]; rfl)
    simp [newBucketNodeLite, hl]
  · show mode (newBucketNodeLite (modeSymlink ||| allPerms)) &&& ~~~modePerm =
      (modeSymlink ||| allPerms) &&& ~~~modePerm
    decide

theorem NodeRel.withClientData {nl : BucketNodeLite} {nf : BucketNode} (h : NodeRel nl nf)
    (d : String) : NodeRel (withClientData nl d) (withClientData nf d) :=
  ⟨h.isDir, h.isLink, h.target, h.size, rfl, h.mode⟩

/-! ## Results -/

theorem ResultRel.ok {α β : Type} {R : α → β → Prop} {a : α} {b : β} (hr : R a b)
    (h : FsRel bl bf) : ResultRel R (.ok (a, bl)) (.ok (b, bf)) :=
  And.intro hr h

/-- Mapping the values of two related results keeps them related. -/
theorem ResultRel.map {α β α' β' : Type} {R : α → β → Prop} {S : α' → β' → Prop}
    {f : α → α'} {g : β → β'} {x y} (h : ResultRel R x y)
    (hfg : ∀ {a b}, R a b → S (f a) (g b)) :
    ResultRel S (x.map fun p => (f p.1, p.2)) (y.map fun p => (g p.1, p.2)) := by
  rcases x with _ | ⟨_, _⟩ <;> rcases y with _ | ⟨_, _⟩ <;>
    simp only [ResultRel, Except.map, false_and] at h ⊢
  · exact h
  · exact ⟨hfg h.1, h.2⟩

/-- Two results of an operation that reads the filesystem without changing it, equal up
    to `e`, paired with related filesystems. -/
theorem ResultRel.of_map_eq {α γ α' β' : Type} {e : α → γ} {x y : Except Fault α}
    (hxy : x.map e = y.map e) {R : α' → β' → Prop} {f : α → α'} {g : α → β'}
    (hfg : ∀ {a b}, e a = e b → R (f a) (g b)) (h : FsRel bl bf) :
    ResultRel R (x.map fun a => (f a, bl)) (y.map fun b => (g b, bf)) := by
  rcases x with _ | _ <;> rcases y with _ | _ <;>
    simp only [Except.map, Except.error.injEq, Except.ok.injEq, reduceCtorEq] at hxy ⊢
  · exact hxy
  · exact ResultRel.ok (hfg hxy) h

theorem FsRel.silent_true (h : FsRel bl bf) : bl.silent = true ↔ bf.silent = true := by
  rw [h.silent]

/-- A stat result with the permission bits of its projection cleared. -/
def eraseStat (r : Option BitBucketFileInfo × GoError) : Option BitBucketFileInfo × GoError :=
  (r.1.map BitBucketFileInfo.eraseMode, r.2)

/-- Results of `dereferenceSymLink` on the two builds: the same error, or related nodes. -/
def DerefRel : Except GoError BucketNodeLite → Except GoError BucketNode → Prop
  | .error e, .error e' => e = e'
  | .ok nl, .ok nf => NodeRel nl nf
  | _, _ => False

/-! ## One operation -/

theorem FsRel.withFakes (h : FsRel bl bf) {m : FileMode} (hm : NodeRel (createNode m) (createNode m))
    (names : List String) : FsRel (bl.withFakes m names) (bf.withFakes m names) := by
  unfold BitBucketFS.withFakes
  dsimp only
  by_cases hs : bl.silent = true
  · rw [if_pos hs, if_pos (h.silent_true.mp hs)]; exact h
  rw [if_neg hs, if_neg (mt h.silent_true.mpr hs)]
  refine ⟨h.silent, h.err, fun k => ?_⟩
  simp only [lookup_insertNodes]
  split_ifs
  · exact hm
  · exact h.lookup k

theorem remove_sim (h : FsRel bl bf) (name : String) :
    ResultRel Eq (bl.remove name) (bf.remove name) := by
  unfold remove executePath
  dsimp only
  by_cases hs : bl.silent = true
  · rw [if_pos hs, if_pos (h.silent_true.mp hs)]; exact ResultRel.ok rfl h
  rw [if_neg hs, if_neg (mt h.silent_true.mpr hs)]
  rcases (h.lookup (filepathClean name)).cases with ⟨ha, hb⟩ | ⟨nl, nf, ha, hb, -⟩ <;>
    simp only [ha, hb]
  · exact ResultRel.ok (by rw [h.err]) h
  · exact ResultRel.ok rfl (h.erase _)

theorem rename_sim (h : FsRel bl bf) (oldPath newPath : String) :
    ResultRel Eq (bl.rename oldPath newPath) (bf.rename oldPath newPath) := by
  unfold rename
  dsimp only
  by_cases hs : bl.silent = true
  · rw [if_pos hs, if_pos (h.silent_true.mp hs)]; exact ResultRel.ok rfl h
  rw [if_neg hs, if_neg (mt h.silent_true.mpr hs)]
  rcases (h.lookup (filepathClean oldPath)).cases with ⟨ha, hb⟩ | ⟨nl, nf, ha, hb, hn⟩ <;>
    simp only [ha, hb]
  · exact ResultRel.ok (by rw [h.err]) h
  by_cases hm : filepathClean newPath ∈ bl.entries
  · rw [if_pos hm, if_pos ((h.mem_iff _).mp hm)]; exact ResultRel.ok (by rw [h.err]) h
  · rw [if_neg hm, if_neg (mt (h.mem_iff _).mpr hm)]
    exact ResultRel.ok rfl ((h.erase _).insert _ hn)

theorem symlink_sim (h : FsRel bl bf) {oldName : String}
    (ht : stringsTrim (filepathClean oldName) " \t" ≠ "") (newName : String) :
    ResultRel Eq (bl.symlink oldName newName) (bf.symlink oldName newName) := by
  unfold symlink
  dsimp only
  by_cases hs : bl.silent = true
  · rw [if_pos hs, if_pos (h.silent_true.mp hs)]; exact ResultRel.ok rfl h
  rw [if_neg hs, if_neg (mt h.silent_true.mpr hs)]
  rcases (h.lookup (filepathClean oldName)).cases with ⟨ha, hb⟩ | ⟨nl, nf, ha, hb, -⟩ <;>
    simp only [ha, hb]
  · exact ResultRel.ok (by rw [h.err]) h
  by_cases hm : filepathClean newName ∈ bl.entries
  · rw [if_pos hm, if_pos ((h.mem_iff _).mp hm)]; exact ResultRel.ok (by rw [h.err]) h
  · obtain ⟨nf', hf, hn'⟩ := nodeRel_linkTo ht
    rw [if_neg hm, if_neg (mt (h.mem_iff _).mpr hm), hf]
    exact ResultRel.ok rfl (h.insert _ hn')

theorem mkdir_sim (h : FsRel bl bf) (name : String) {perm : FileMode}
    (hp : (modeDir ||| perm) &&& ~~~(modeDir ||| modePerm) = 0) :
    ResultRel Eq (bl.mkdir name perm) (bf.mkdir name perm) := by
  unfold mkdir
  dsimp only
  by_cases hs : bl.silent = true
  · rw [if_pos hs, if_pos (h.silent_true.mp hs)]; exact ResultRel.ok rfl h
  rw [if_neg hs, if_neg (mt h.silent_true.mpr hs)]
  rcases (h.lookup (filepathClean name)).cases with ⟨ha, hb⟩ | ⟨nl, nf, ha, hb, hn⟩ <;>
    simp only [ha, hb]
  · exact ResultRel.ok rfl (h.insert _ (nodeRel_createNode (hasFileModeFlag_or_self _ _) hp))
  · exact ResultRel.ok (by rw [h.err, hn.isDir]) h

theorem openFile_sim (h : FsRel bl bf) (name : String) (flag : GoInt) (perm : FileMode) :
    bl.openFile name flag perm = bf.openFile name flag perm := by
  unfold openFile
  dsimp only
  rw [h.silent, h.err]
  rcases (h.lookup (filepathClean name)).cases with ⟨ha, hb⟩ | ⟨nl, nf, ha, hb, hn⟩
  · simp only [ha, hb]
  · simp only [ha, hb, hn.isDir]

theorem readDir_sim (h : FsRel bl bf) (path : String) : bl.readDir path = bf.readDir path := by
  unfold readDir
  dsimp only
  rw [h.silent, h.err]
  rcases (h.lookup (filepathClean path)).cases with ⟨ha, hb⟩ | ⟨nl, nf, ha, hb, hn⟩
  · simp only [ha, hb]
  · simp only [ha, hb, hn.isDir]

theorem internalStat_sim (h : FsRel bl bf) (op name : String) :
    (bl.internalStat op name).map eraseStat = (bf.internalStat op name).map eraseStat := by
  unfold internalStat
  dsimp only
  rcases (h.lookup (filepathClean name)).cases with ⟨ha, hb⟩ | ⟨nl, nf, ha, hb, hn⟩ <;>
    simp only [ha, hb]
  · rw [h.silent, h.err]
  · rw [hn.isDir, hn.size]
    cases isDir nf <;> simp only [Except.map, eraseStat, Option.map_some', Bool.false_eq_true,
      if_true, if_false, eraseMode_fileInfo hn.mode, eraseMode_dirInfo hn.mode]

section Stat

variable (home : String)

theorem dereferenceSymLink_sim (op : String) :
    ∀ fuel {bl : BitBucketFS BucketNodeLite} {bf : BitBucketFS BucketNode}, FsRel bl bf →
      ∀ name, ResultRel DerefRel (bl.dereferenceSymLink home op fuel name)
        (bf.dereferenceSymLink home op fuel name)
  | 0, _, _, _, _ => rfl
  | fuel + 1, bl, bf, h, name => by
    simp only [dereferenceSymLink, findNode]
    rcases (h.lookup (cleanPath home name)).cases with ⟨ha, hb⟩ | ⟨nl, nf, ha, hb, hn⟩ <;>
      simp only [ha, hb]
    · exact ResultRel.ok rfl h
    rw [hn.isLink, hn.target]
    by_cases hl : isLink nf = true
    · rw [if_pos hl, if_pos hl]
      have ih := dereferenceSymLink_sim op fuel h (target nf)
      revert ih
      rcases bl.dereferenceSymLink home op fuel (target nf) with _ | ⟨_ | _, _⟩ <;>
        rcases bf.dereferenceSymLink home op fuel (target nf) with _ | ⟨_ | _, _⟩ <;>
        intro ih <;> simp only [ResultRel, DerefRel, false_and, true_and] at ih ⊢ <;>
        first | exact ih | exact ih.2
    · rw [if_neg hl, if_neg hl]
      exact ResultRel.ok (hn.withClientData _) (h.insert _ (hn.withClientData _))

theorem stat_sim (fuel : ℕ) (h : FsRel bl bf) (name : String) :
    ResultRel (fun a b => eraseStat a = eraseStat b) (bl.stat home fuel name)
      (bf.stat home fuel name) := by
  have hint : ∀ {bl bf} (h : FsRel bl bf) (key : String),
      ResultRel (fun a b => eraseStat a = eraseStat b)
        ((bl.internalStat "Stat" key).map (·, bl)) ((bf.internalStat "Stat" key).map (·, bf)) :=
    fun h key => ResultRel.of_map_eq (f := id) (g := id) (internalStat_sim h "Stat" key) id h
  unfold stat findNode
  by_cases hs : bl.silent = true
  · rw [if_pos hs, if_pos (h.silent_true.mp hs)]; exact ResultRel.ok rfl h
  rw [if_neg hs, if_neg (mt h.silent_true.mpr hs)]
  rcases (h.lookup (cleanPath home name)).cases with ⟨ha, hb⟩ | ⟨nl, nf, ha, hb, hn⟩ <;>
    simp only [ha, hb]
  · exact ResultRel.ok rfl h
  rw [hn.isLink, hn.target]
  by_cases hl : isLink nf = true
  · rw [if_pos hl, if_pos hl]
    have hd := dereferenceSymLink_sim home "Stat" fuel h (target nf)
    revert hd
    rcases bl.dereferenceSymLink home "Stat" fuel (target nf) with _ | ⟨_ | nl', bl'⟩ <;>
      rcases bf.dereferenceSymLink home "Stat" fuel (target nf) with _ | ⟨_ | nf', bf'⟩ <;>
      intro hd <;> simp only [ResultRel, DerefRel, false_and] at hd ⊢
    · exact hd
    · exact ⟨by rw [hd.1], hd.2⟩
    · rw [hd.1.clientData]
      cases clientData nf'
      · rfl
      · exact hint hd.2 _
  · rw [if_neg hl, if_neg hl]
    exact hint h _

end Stat

/-! ## Calls and runs -/

section Run

variable (home : String) (fuel : ℕ)

/-- One safe call on related filesystems faults alike in both builds, or returns the same
    reply up to the permission bits (`os.ModePerm`) of a projection and leaves related
    filesystems. -/
theorem exec_sim (h : FsRel bl bf) {c : Call} (hc : c.safe = true) :
    ResultRel (fun r r' : Reply => r.eraseMode = r'.eraseMode) (bl.exec home fuel c)
      (bf.exec home fuel c) := by
  have herr : ∀ {e e' : GoError}, e = e' → (Reply.err e).eraseMode = (Reply.err e').eraseMode :=
    fun he => by rw [he]
  have hinfo : ∀ {a b : Option BitBucketFileInfo × GoError}, eraseStat a = eraseStat b →
      (Reply.info a.1 a.2).eraseMode = (Reply.info b.1 b.2).eraseMode :=
    congrArg fun q : Option BitBucketFileInfo × GoError => Reply.info q.1 q.2
  cases c with
  | withFakeDirectories dirs =>
    exact ResultRel.ok rfl (h.withFakes (nodeRel_createNode (by decide) (by decide)) dirs)
  | withFakeFiles files => exact ResultRel.ok rfl (h.withFakes nodeRel_createNode_allRwPerms files)
  | withError e => exact ResultRel.ok rfl ⟨rfl, rfl, h.lookup⟩
  | remove name => exact (remove_sim h name).map herr
  | rename oldPath newPath => exact (rename_sim h oldPath newPath).map herr
  | symlink oldName newName =>
    exact (symlink_sim h (by simpa only [Call.safe, bne_iff_ne] using hc) newName).map herr
  | mkdir name perm =>
    exact (mkdir_sim h name (by simpa only [Call.safe, beq_iff_eq] using hc)).map herr
  | openFile name flag perm =>
    exact ResultRel.of_map_eq (e := id) (congrArg _ (openFile_sim h name flag perm))
      (congrArg fun q : Option BitBucketFile × GoError => (Reply.file q.1 q.2).eraseMode) h
  | stat name =>
    exact (stat_sim home fuel h name).map (S := fun r r' : Reply => r.eraseMode = r'.eraseMode)
      (f := fun q => Reply.info q.1 q.2) (g := fun q => Reply.info q.1 q.2) hinfo
  | lstat name => exact ResultRel.of_map_eq (internalStat_sim h "Lstat" name) hinfo h
  | readDir path =>
    exact ResultRel.of_map_eq (e := id) (congrArg _ (readDir_sim h path))
      (congrArg fun q : List BitBucketFileInfo × GoError => (Reply.dir q.1 q.2).eraseMode) h

/-- A safe call sequence on related filesystems faults alike in both builds, or returns
    the same replies up to the permission bits (`os.ModePerm`) of the projections and
    leaves related filesystems. -/
theorem run_sim : ∀ (cs : List Call) {bl : BitBucketFS BucketNodeLite}
    {bf : BitBucketFS BucketNode}, FsRel bl bf → (∀ c ∈ cs, c.safe = true) →
    ResultRel (fun rs rs' : List Reply => rs.map Reply.eraseMode = rs'.map Reply.eraseMode)
      (bl.run home fuel cs) (bf.run home fuel cs)
  | [], _, _, h, _ => ResultRel.ok rfl h
  | c :: cs, bl, bf, h, hcs => by
    have hx := exec_sim home fuel h (hcs c (.head _))
    revert hx
    rcases hl : bl.exec home fuel c with _ | ⟨r, bl'⟩ <;>
      rcases hf : bf.exec home fuel c with _ | ⟨r', bf'⟩ <;>
      intro hx <;> simp only [ResultRel, false_and] at hx
    · simp only [run, hl, hf, bind, Except.bind]
      exact hx
    · rw [run_cons home fuel cs hl, run_cons home fuel cs hf]
      exact (run_sim cs hx.2 fun c hc => hcs c (.tail _ hc)).map fun hrs => by
        simp only [List.map_cons, hx.1, hrs]

theorem fsRel_createWithError {E : GoError} (hl : createWithError E = .ok bl)
    (hf : createWithError E = .ok bf) : FsRel bl bf := by
  unfold createWithError at hl hf
  split_ifs at hl hf
  cases hl; cases hf
  exact ⟨rfl, rfl, fun _ => trivial⟩

theorem run_sim_link_stat :
    FsRel (⟨false, .errorString "E", ∅⟩ : BitBucketFS BucketNodeLite) ⟨false, .errorString "E", ∅⟩ ∧
      (∀ c ∈ [Call.withFakeFiles ["/a"], .mkdir "/d" 0o755, .symlink "/a" "/l", .stat "/l",
        .lstat "/d"], c.safe = true) ∧
      ResultRel (fun rs rs' : List Reply => rs.map Reply.eraseMode = rs'.map Reply.eraseMode)
        ((⟨false, .errorString "E", ∅⟩ : BitBucketFS BucketNodeLite).run "/home/user" 1
          [.withFakeFiles ["/a"], .mkdir "/d" 0o755, .symlink "/a" "/l", .stat "/l", .lstat "/d"])
        ((⟨false, .errorString "E", ∅⟩ : BitBucketFS BucketNode).run "/home/user" 1
          [.withFakeFiles ["/a"], .mkdir "/d" 0o755, .symlink "/a" "/l", .stat "/l", .lstat "/d"]) :=
  ⟨fsRel_createWithError (E := .errorString "E") rfl rfl, by decide,
    run_sim "/home/user" 1 _ (fsRel_createWithError (E := .errorString "E") rfl rfl) (by decide)⟩

end Run

end BitBucketFS

end BitBucketFs
