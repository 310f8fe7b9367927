import BitBucketFs.FileUtil

/-!
# Bit-bucket nodes and info projections

`bitbucket_node.go` has one internal interface `iBucketNode` and two implementations,
chosen at build time inside `createNode`: the lite node `bucketNodeLite` (a directory
flag, a link flag and a target) and the functional node `bucketNode` (the whole
`os.FileMode`, a size and a target). The build in src/ uses `bucketNode`.

The class `IBucketNode` holds the methods the filesystem calls, and the constructor
`createNode` selects. Nodes are stored behind pointers; `LinkTo` of `bucketNode` can
return a nil pointer, so `linkTo` returns an `Option`.

`bitbucket_fileinfo.go` builds the `os.FileInfo` projection from a node's size and mode.

Results:
* `isDir_createNode_modeDir`: every functional node made from `os.ModeDir | perm` is a
  directory.
* `linkTo_eq_none_iff`: the functional `LinkTo` returns nil exactly on a target that
  is blank after trimming spaces and tabs.
-/

namespace BitBucketFs

open Go

/-- `ALL_PERMS os.FileMode = 0777`. -/
def allPerms : FileMode := 0o777

/-- `ALL_RW_PERMS os.FileMode = 0666`. -/
def allRwPerms : FileMode := 0o666

/-- The methods of `iBucketNode` that `BitBucketFS` calls (`bitbucket_node.go`
    lines 41–64), and the constructor `createNode` selects. Client data is `any` in Go;
    the filesystem only ever stores a path string in it. Neither `LinkTo` reads its
    receiver, so `linkTo` takes none. `WithLink`, `Perms` and `String` are not called by
    the filesystem. -/
class IBucketNode (N : Type) where
  create : FileMode → N
  withClientData : N → String → N
  isDir : N → Bool
  isLink : N → Bool
  size : N → GoInt
  mode : N → FileMode
  target : N → String
  linkTo : String → Option N
  clientData : N → Option String

export IBucketNode (withClientData isDir isLink size mode target linkTo clientData)

/-- `createNode(mode)` (`bitbucket_node.go` lines 108–115). -/
def createNode {N : Type} [IBucketNode N] (mode : FileMode) : N := IBucketNode.create mode

/-! ## `bucketNodeLite` -/

/-- `bucketNodeLite` (`bitbucket_node.go` lines 73–78). -/
structure BucketNodeLite where
  isDir : Bool
  isLink : Bool
  target : String
  extra : Option String
  deriving DecidableEq, Repr

/-- `newBucketNodeLite(mode)` (lines 95–99). -/
def newBucketNodeLite (mode : FileMode) : BucketNodeLite :=
  ⟨hasFileModeFlag modeDir mode, hasFileModeFlag modeSymlink mode, "", none⟩

/-- The methods of `*bucketNodeLite` (lines 121–174). `IsLink` asks for a non-empty
    target; `Mode` is `ALL_PERMS` with the directory and link flags; `Size` is 0. -/
instance : IBucketNode BucketNodeLite where
  create := newBucketNodeLite
  withClientData min data := { min with extra := some data }
  isDir min := min.isDir
  isLink min := min.isLink && 0 < min.target.length
  size _ := 0
  mode min := (if min.isLink then modeSymlink else 0) |||
    ((if min.isDir then modeDir else 0) ||| allPerms)
  target min := min.target
  linkTo key := some { newBucketNodeLite (modeSymlink ||| allPerms) with target := key }
  clientData min := min.extra

/-! ## `bucketNode` -/

/-- `bucketNode` (`bitbucket_node.go` lines 83–88). -/
structure BucketNode where
  fmode : FileMode
  fsize : GoInt
  target : String
  extra : Option String
  deriving DecidableEq, Repr

/-- `newBucketNode(mode)` (lines 102–104). -/
def newBucketNode (mode : FileMode) : BucketNode := ⟨mode, 0, "", none⟩

/-- The methods of `*bucketNode` (lines 187–237). `IsDir` and `IsLink` read the mode
    bits; `LinkTo` returns a nil `*bucketNode` for a key that is blank after
    `strings.Trim(key, " \t")`. -/
instance : IBucketNode BucketNode where
  create := newBucketNode
  withClientData b data := { b with extra := some data }
  isDir b := hasFileModeFlag modeDir b.fmode
  isLink b := hasFileModeFlag modeSymlink b.fmode
  size b := b.fsize
  mode b := b.fmode
  target b := b.target
  linkTo key :=
    if 0 < (stringsTrim key " \t").length then
      some { newBucketNode (modeSymlink ||| allPerms) with fsize := 0, target := key }
    else none
  clientData b := b.extra

section Lemmas

@[simp] theorem BucketNodeLite.isDir_eq (n : BucketNodeLite) : IBucketNode.isDir n = n.isDir :=
  rfl
@[simp] theorem BucketNodeLite.isLink_eq (n : BucketNodeLite) :
    IBucketNode.isLink n = (n.isLink && 0 < n.target.length) := rfl
@[simp] theorem BucketNodeLite.target_eq (n : BucketNodeLite) : IBucketNode.target n = n.target :=
  rfl
@[simp] theorem BucketNodeLite.size_eq (n : BucketNodeLite) : size n = 0 := rfl
@[simp] theorem BucketNodeLite.clientData_eq (n : BucketNodeLite) : clientData n = n.extra := rfl
@[simp] theorem BucketNodeLite.withClientData_eq (n : BucketNodeLite) (d : String) :
    withClientData n d = { n with extra := some d } := rfl
@[simp] theorem BucketNodeLite.createNode_eq (m : FileMode) :
    (createNode m : BucketNodeLite) = newBucketNodeLite m := rfl
@[simp] theorem BucketNodeLite.linkTo_eq (key : String) :
    (linkTo key : Option BucketNodeLite) =
      some { newBucketNodeLite (modeSymlink ||| allPerms) with target := key } := rfl

@[simp] theorem BucketNode.isDir_eq (n : BucketNode) :
    isDir n = hasFileModeFlag modeDir n.fmode := rfl
@[simp] theorem BucketNode.isLink_eq (n : BucketNode) :
    isLink n = hasFileModeFlag modeSymlink n.fmode := rfl
@[simp] theorem BucketNode.target_eq (n : BucketNode) : IBucketNode.target n = n.target := rfl
@[simp] theorem BucketNode.size_eq (n : BucketNode) : size n = n.fsize := rfl
@[simp] theorem BucketNode.mode_eq (n : BucketNode) : mode n = n.fmode := rfl
@[simp] theorem BucketNode.clientData_eq (n : BucketNode) : clientData n = n.extra := rfl
@[simp] theorem BucketNode.withClientData_eq (n : BucketNode) (d : String) :
    withClientData n d = { n with extra := some d } := rfl
@[simp] theorem BucketNode.createNode_eq (m : FileMode) :
    (createNode m : BucketNode) = newBucketNode m := rfl

theorem BucketNode.linkTo_eq_none_iff (key : String) :
    (linkTo key : Option BucketNode) = none ↔ stringsTrim key " \t" = "" := by
  show (if _ then _ else _) = none ↔ _
  rw [ite_eq_right_iff, ← length_eq_zero_iff_eq_empty]
  simp [Nat.pos_iff_ne_zero]

theorem BucketNode.linkTo_of_ne {key : String} (h : stringsTrim key " \t" ≠ "") :
    (linkTo key : Option BucketNode) = some ⟨modeSymlink ||| allPerms, 0, key, none⟩ := by
  have : 0 < (stringsTrim key " \t").length := by
    rwa [Nat.pos_iff_ne_zero, Ne, length_eq_zero_iff_eq_empty]
  show (if _ then _ else _) = _
  rw [if_pos this]; rfl

theorem isDir_createNode_modeDir (perm : FileMode) :
    isDir (createNode (modeDir ||| perm) : BucketNode) = true :=
  hasFileModeFlag_or_self _ _

end Lemmas

/-! ## Info projection -/

/-- `BitBucketFileInfo` (`bitbucket_fileinfo.go` lines 37–44) without `IModTime`
    (`time.Now()`, read by no operation) and `ISys` (always nil). -/
structure BitBucketFileInfo where
  iName : String
  iSize : GoInt
  iMode : FileMode
  iDir : Bool
  deriving DecidableEq, Repr

/-- `newBitBucketFileInfo` (lines 51–56): the directory bit is cleared. -/
def newBitBucketFileInfo (name : String) (size : GoInt) (fmode : FileMode) : BitBucketFileInfo :=
  let fmode := if hasFileModeFlag modeDir fmode then ~~~modeDir &&& fmode else fmode
  ⟨name, size, fmode, false⟩

/-- `newBitBucketDirInfo` (lines 59–61). -/
def newBitBucketDirInfo (name : String) (size : GoInt) (fmode : FileMode) : BitBucketFileInfo :=
  ⟨name, size, modeDir ||| fmode, true⟩

/-- `defaultFileInfo` (line 27). -/
def defaultFileInfo : BitBucketFileInfo := ⟨"", 0, allPerms, false⟩

/-- The symbolic-link flag of a projection's mode. -/
def BitBucketFileInfo.isSymlink (fi : BitBucketFileInfo) : Bool :=
  hasFileModeFlag modeSymlink fi.iMode

end BitBucketFs
