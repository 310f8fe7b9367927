import Mathlib.Data.List.AList
import Mathlib.Data.List.Sort
import Mathlib.Data.String.Basic
import BitBucketFs.File

/-!
# The filesystem façade `BitBucketFS`

`bitbucket_filesystem.go`. The state is the mode (`silent`), the injected error and the
entries map from a cleaned path to a node pointer. The map is an `AList`: one value per
key, as in a Go map; a value `none` is a nil node pointer, which only the functional
`LinkTo` can produce. Every operation is a function of the state returning its result
and the next state, or a `Fault`. A fault ends the program, so no state follows it.

The diagnostics the operations print are not modelled; where an argument of such a
`fmt.Printf` calls `node.IsDir()` on a nil node, the call faults with
`Fault.nilDereference`. `Open(name)` is `OpenFile(name, os.O_RDONLY, 0)` (lines
253–255) and is modelled as that call. The mutex is not modelled: the model is the
sequential semantics of the calls.

`Stat` follows links through the recursive `dereferenceSymLink`, which has no depth
bound. It is modelled with a `fuel` argument, the depth of Go's stack: on a chain
longer than the fuel it faults with `Fault.stackOverflow`. `home` is the result of
`os.UserHomeDir()`, read by `CleanPath`.

`exec` runs one call and `run` a sequence of calls.

Results:
* `blank_target_stores_nil`: `Symlink` to a blank target stores the nil node the
  functional `LinkTo` returns, which a later `Stat` dereferences, and `Mkdir` with
  `os.ModeSymlink` in `perm` stores a link with an empty target.
-/

namespace BitBucketFs

open Go

/-- `ErrFileExists` (`bitbucket_filesystem.go` line 34). -/
def errFileExists : GoError := .errorString "File exists"

/-- `ErrDirExists` (`bitbucket_filesystem.go` line 35). -/
def errDirExists : GoError := .errorString "Directory exists"

/-- The entries map `map[string]iBucketNode`; `none` is a nil node pointer. -/
abbrev Entries (N : Type) := AList (fun _ : String => Option N)

/-- `BitBucketFS` (`bitbucket_filesystem.go` lines 60–65), without the mutex. -/
structure BitBucketFS (N : Type) where
  silent : Bool
  err : GoError
  entries : Entries N

namespace BitBucketFS

variable {N : Type} [IBucketNode N]

/-- `Create()` (lines 74–76): silent mode, no error, no entries. -/
def create : BitBucketFS N := ⟨true, .nil, ∅⟩

/-- `CreateWithError(err)` (lines 83–88): hybrid mode; panics on a nil error. -/
def createWithError (err : GoError) : Except Fault (BitBucketFS N) :=
  if err = .nil then .error .panicCall else .ok ⟨false, err, ∅⟩

/-- Insert a fresh node built by `createNode(mode)` under each name, in order. -/
def insertNodes (entries : Entries N) (mode : FileMode) (names : List String) : Entries N :=
  names.foldl (fun e name => e.insert name (some (createNode mode))) entries

/-- The loop of `WithFakeDirectories`/`WithFakeFiles`: clean each name, sort them
    (`sort.Strings`), insert a node of the given mode under each. -/
def withFakes (bfs : BitBucketFS N) (mode : FileMode) (names : List String) : BitBucketFS N :=
  let names := (names.map filepathClean).insertionSort (· ≤ ·)
  if bfs.silent then bfs else { bfs with entries := insertNodes bfs.entries mode names }

/-- `WithFakeDirectories(dirs)` (lines 97–113): nodes of mode `os.ModeDir | ALL_PERMS`. -/
def withFakeDirectories (bfs : BitBucketFS N) (dirs : List String) : BitBucketFS N :=
  bfs.withFakes (modeDir ||| allPerms) dirs

/-- `WithFakeFiles(files)` (lines 118–135): nodes of mode `ALL_RW_PERMS`. -/
def withFakeFiles (bfs : BitBucketFS N) (files : List String) : BitBucketFS N :=
  bfs.withFakes allRwPerms files

/-- `WithError(customError)` (lines 139–147): hybrid mode with any error, nil included. -/
def withError (bfs : BitBucketFS N) (customError : GoError) : BitBucketFS N :=
  { bfs with silent := false, err := customError }

/-- `executePath(op, name)` (lines 435–452), which is `Remove(name)` with
    `op = "Remove"` (lines 156–158). -/
def executePath (bfs : BitBucketFS N) (op name : String) :
    Except Fault (GoError × BitBucketFS N) :=
  let name := filepathClean name
  if bfs.silent then .ok (.nil, bfs)
  else match bfs.entries.lookup name with
    | some (some _) => .ok (.nil, { bfs with entries := bfs.entries.erase name })
    | some none => .error .nilDereference
    | none => .ok (.pathError op name bfs.err, bfs)

/-- `Remove(name)` (lines 156–158). -/
def remove (bfs : BitBucketFS N) (name : String) : Except Fault (GoError × BitBucketFS N) :=
  bfs.executePath "Remove" name

/-- `Rename(oldPath, newPath)` (lines 162–191). The entry moves under the new key and
    then `node.IsDir()` is printed. `fmt.Errorf` wrappers keep their format string. -/
def rename (bfs : BitBucketFS N) (oldPath newPath : String) :
    Except Fault (GoError × BitBucketFS N) :=
  let oldPath := filepathClean oldPath
  let newPath := filepathClean newPath
  if bfs.silent then .ok (.nil, bfs)
  else match bfs.entries.lookup oldPath with
    | none => .ok (.linkError "Rename" oldPath newPath
        (.wrapError "OldPath does not exist. %w" bfs.err), bfs)
    | some node =>
      if newPath ∈ bfs.entries then
        .ok (.linkError "Rename" oldPath newPath (.wrapError "NewPath exists. %w" bfs.err), bfs)
      else match node with
        | none => .error .nilDereference
        | some _ => .ok (.nil, { bfs with entries := (bfs.entries.erase oldPath).insert newPath node })

/-- `Symlink(oldName, newName)` (lines 195–222): the new key gets `node.LinkTo(oldName)`,
    then the target's `node.IsDir()` is printed. -/
def symlink (bfs : BitBucketFS N) (oldName newName : String) :
    Except Fault (GoError × BitBucketFS N) :=
  let oldName := filepathClean oldName
  let newName := filepathClean newName
  if bfs.silent then .ok (.nil, bfs)
  else match bfs.entries.lookup oldName with
    | none => .ok (.linkError "Symlink" oldName newName
        (.wrapError "OldName (target) does not exist. %w" bfs.err), bfs)
    | some node =>
      if newName ∈ bfs.entries then
        .ok (.linkError "Symlink" oldName newName (.wrapError "NewName exists. %w" bfs.err), bfs)
      else match node with
        | none => .error .nilDereference
        | some _ => .ok (.nil, { bfs with entries := bfs.entries.insert newName (linkTo oldName) })

/-- `Mkdir(name, perm)` (lines 226–249): a new node of mode `os.ModeDir | perm`. -/
def mkdir (bfs : BitBucketFS N) (name : String) (perm : FileMode) :
    Except Fault (GoError × BitBucketFS N) :=
  let name := filepathClean name
  if bfs.silent then .ok (.nil, bfs)
  else match bfs.entries.lookup name with
    | some (some node) => .ok (.pathError "Mkdir" name
        (errorsJoin bfs.err (if isDir node then errDirExists else errFileExists)), bfs)
    | some none => .error .nilDereference
    | none =>
      let node : N := createNode (modeDir ||| perm)
      .ok (.nil, { bfs with entries := bfs.entries.insert name (some node) })

/-- `OpenFile(name, flag, perm)` (lines 259–288): never changes the store. -/
def openFile (bfs : BitBucketFS N) (name : String) (flag : GoInt) (perm : FileMode) :
    Except Fault (Option BitBucketFile × GoError) :=
  let name := filepathClean name
  let opened := some (newBitBucketFile name flag perm bfs.err)
  if bfs.silent then .ok (opened, .nil)
  else match bfs.entries.lookup name with
    | some (some node) =>
      if isDir node then .ok (none, .pathError "Open/OpenFile" name (errorsJoin bfs.err errIsDirectory))
      else .ok (opened, .nil)
    | some none => .error .nilDereference
    | none =>
      if hasModeFlag oCreate flag then .ok (opened, .nil)
      else .ok (none, .pathError "Open/OpenFile" name bfs.err)

/-- `internalStat(operation, name)` (lines 358–387): the projection of the node under
    the cleaned name; the error's `Op` is always `"Stat"`. -/
def internalStat (bfs : BitBucketFS N) (_operation name : String) :
    Except Fault (Option BitBucketFileInfo × GoError) :=
  let name := filepathClean name
  match bfs.entries.lookup name with
  | some (some node) =>
    .ok (some (if isDir node then newBitBucketDirInfo name (size node) (mode node)
      else newBitBucketFileInfo name (size node) (mode node)), .nil)
  | some none => .error .nilDereference
  | none =>
    if bfs.silent then .ok (some { defaultFileInfo with iName := name }, .nil)
    else .ok (none, .pathError "Stat" name bfs.err)

/-- `Lstat(name)` (lines 324–326). -/
def lstat (bfs : BitBucketFS N) (name : String) : Except Fault (Option BitBucketFileInfo × GoError) :=
  bfs.internalStat "Lstat" name

/-- `ReadDir(path)` (lines 329–349): the listing is always empty. -/
def readDir (bfs : BitBucketFS N) (path : String) :
    Except Fault (List BitBucketFileInfo × GoError) :=
  let path := filepathClean path
  if bfs.silent then .ok ([], .nil)
  else match bfs.entries.lookup path with
    | some (some node) =>
      if isDir node then .ok ([], .nil)
      else .ok ([], .pathError "ReadDir" path (errorsJoin bfs.err errNotDirectory))
    | some none => .error .nilDereference
    | none => .ok ([], .pathError "ReadDir" path bfs.err)

section Stat

variable (home : String)

/-- `findNode(name)` (lines 391–401): the entry under `CleanPath(name)`, and that key. -/
def findNode (bfs : BitBucketFS N) (name : String) : Option (Option N) × String :=
  (bfs.entries.lookup (cleanPath home name), cleanPath home name)

/-- `dereferenceSymLink(operation, name)` (lines 407–426) with at most `fuel` nested
    calls. At the first non-link node it stores the node's key in the node's client
    data (the node is shared with the map, so the map sees it) and returns the node.
    A missing key fails with `ErrNotExist` under the key of each level on the way back. -/
def dereferenceSymLink (operation : String) :
    ℕ → BitBucketFS N → String → Except Fault (Except GoError N × BitBucketFS N)
  | 0, _, _ => .error .stackOverflow
  | fuel + 1, bfs, name =>
    match bfs.findNode home name with
    | (none, cname) => .ok (.error (.pathError operation cname errNotExist), bfs)
    | (some none, _) => .error .nilDereference
    | (some (some node), cname) =>
      if isLink node then
        match dereferenceSymLink operation fuel bfs (target node) with
        | .error f => .error f
        | .ok (.error _, bfs') => .ok (.error (.pathError operation cname errNotExist), bfs')
        | .ok (.ok node', bfs') => .ok (.ok node', bfs')
      else
        let node := withClientData node cname
        .ok (.ok node, { bfs with entries := bfs.entries.insert cname (some node) })

/-- `Stat(name)` (lines 294–319): follows links, then projects the node found under the
    key stored in its client data. -/
def stat (fuel : ℕ) (bfs : BitBucketFS N) (name : String) :
    Except Fault ((Option BitBucketFileInfo × GoError) × BitBucketFS N) :=
  if bfs.silent then .ok ((some defaultFileInfo, .nil), bfs)
  else match bfs.findNode home name with
    | (none, cleaned) => .ok ((none, .pathError "Stat" cleaned errNotExist), bfs)
    | (some none, _) => .error .nilDereference
    | (some (some node), cleaned) =>
      if isLink node then
        match bfs.dereferenceSymLink home "Stat" fuel (target node) with
        | .error f => .error f
        | .ok (.error err, bfs') => .ok ((none, err), bfs')
        | .ok (.ok node, bfs') =>
          match clientData node with
          | none => .error .typeAssertion
          | some cleaned => (bfs'.internalStat "Stat" cleaned).map (·, bfs')
      else (bfs.internalStat "Stat" cleaned).map (·, bfs)

end Stat

end BitBucketFS

/-! ## Calls and runs -/

/-- A call on the filesystem: the fluent configuration calls and the operations of
    `vfs.Filesystem` (`Open` is `OpenFile` with `os.O_RDONLY` and mode 0). -/
inductive Call where
  | withFakeDirectories (dirs : List String)
  | withFakeFiles (files : List String)
  | withError (customError : GoError)
  | remove (name : String)
  | rename (oldPath newPath : String)
  | symlink (oldName newName : String)
  | mkdir (name : String) (perm : FileMode)
  | openFile (name : String) (flag : GoInt) (perm : FileMode)
  | stat (name : String)
  | lstat (name : String)
  | readDir (path : String)

/-- What a call returns. The fluent calls return the filesystem itself. -/
inductive Reply where
  | fs
  | err (e : GoError)
  | file (f : Option BitBucketFile) (e : GoError)
  | info (fi : Option BitBucketFileInfo) (e : GoError)
  | dir (infos : List BitBucketFileInfo) (e : GoError)
  deriving DecidableEq, Repr

/-- The error a call returns (`nil` for the fluent calls). -/
def Reply.error : Reply → GoError
  | .fs => .nil
  | .err e | .file _ e | .info _ e | .dir _ e => e

/-- A call succeeded: it returned a nil error. -/
def Reply.succeeded (r : Reply) : Bool := r.error == .nil

namespace BitBucketFS

variable {N : Type} [IBucketNode N] (home : String) (fuel : ℕ)

/-- One call. -/
def exec (bfs : BitBucketFS N) : Call → Except Fault (Reply × BitBucketFS N)
  | .withFakeDirectories dirs => .ok (.fs, bfs.withFakeDirectories dirs)
  | .withFakeFiles files => .ok (.fs, bfs.withFakeFiles files)
  | .withError e => .ok (.fs, bfs.withError e)
  | .remove name => (bfs.remove name).map fun (e, b) => (.err e, b)
  | .rename o n => (bfs.rename o n).map fun (e, b) => (.err e, b)
  | .symlink o n => (bfs.symlink o n).map fun (e, b) => (.err e, b)
  | .mkdir name perm => (bfs.mkdir name perm).map fun (e, b) => (.err e, b)
  | .openFile name flag perm => (bfs.openFile name flag perm).map fun (f, e) => (.file f e, bfs)
  | .stat name => (bfs.stat home fuel name).map fun ((fi, e), b) => (.info fi e, b)
  | .lstat name => (bfs.lstat name).map fun (fi, e) => (.info fi e, bfs)
  | .readDir path => (bfs.readDir path).map fun (l, e) => (.dir l e, bfs)

/-- A sequence of calls; a fault ends it. -/
def run : BitBucketFS N → List Call → Except Fault (List Reply × BitBucketFS N)
  | bfs, [] => .ok ([], bfs)
  | bfs, c :: cs => do
    let (r, bfs') ← bfs.exec home fuel c
    let (rs, bfs'') ← run bfs' cs
    pure (r :: rs, bfs'')

@[simp] theorem run_nil (bfs : BitBucketFS N) : bfs.run home fuel [] = .ok ([], bfs) := rfl

theorem run_cons {bfs bfs' : BitBucketFS N} {c : Call} {r : Reply} (cs : List Call)
    (h : bfs.exec home fuel c = .ok (r, bfs')) :
    bfs.run home fuel (c :: cs) = (bfs'.run home fuel cs).map fun (rs, b) => (r :: rs, b) := by
  simp only [run, h, bind, Except.bind]
  cases bfs'.run home fuel cs <;> rfl

end BitBucketFS

/-- `WithFakeFiles([" "])` then `Symlink(" ", "/l")` stores a nil node under `/l`, since
    the functional `LinkTo` returns nil on a blank key and `Symlink` stores it unchecked,
    and a later `Stat("/l")` dereferences it; `Mkdir("/d", os.ModeSymlink|0755)` keeps
    every bit of `perm` and stores a link node whose target is empty. -/
theorem blank_target_stores_nil (home : String) (fuel : ℕ) :
    (((BitBucketFS.createWithError (.errorString "Any BitBucket error") :
        Except Fault (BitBucketFS BucketNode)).bind fun bfs =>
          bfs.run home fuel [.withFakeFiles [" "], .symlink " " "/l"]).map
        fun (rs, bfs) => (rs.map Reply.succeeded, bfs.entries.lookup "/l")) =
      .ok ([true, true], some none) ∧
    (((BitBucketFS.createWithError (.errorString "Any BitBucket error") :
        Except Fault (BitBucketFS BucketNode)).bind fun bfs =>
          bfs.run home fuel [.withFakeFiles [" "], .symlink " " "/l", .stat "/l"]).map
        (·.1)) = .error .nilDereference ∧
    (((BitBucketFS.createWithError (.errorString "Any BitBucket error") :
        Except Fault (BitBucketFS BucketNode)).bind fun bfs =>
          bfs.mkdir "/d" (modeSymlink ||| 0o755)).map
        fun (_, bfs) => (bfs.entries.lookup "/d").map (Option.map fun n => (isLink n, target n))) =
      .ok (some (some (true, ""))) :=
  ⟨rfl, rfl, rfl⟩

end BitBucketFs
