import BitBucketFs.Node

/-!
# The fake open-file descriptor `BitBucketFile`

`bitbucket_file.go`. A descriptor carries a name, a fake `size`, a read pointer `at`,
the open flags and permission, and the filesystem's error. Every method has a value
receiver: it runs on a copy of the descriptor, and what it assigns to the copy is lost
when it returns. Each method is modelled by its body: the result, and the receiver as
the body leaves it. `callSeq` runs calls the way a caller holding the `vfs.File`
interface value does.

`ReadAt` locks the descriptor's `*sync.RWMutex` and, when `offset < f.size`, calls
`f.Read`, which locks the same mutex again: the call blocks forever (`Fault.deadlock`).

`Spec.Descriptor` is the descriptor state machine of the specification (§4.3), a
second definition written from the spec's words to be compared with the code.

Results:
* `read_empty_cursor`: `Read` on an empty descriptor leaves the read pointer at `-1`.
-/

namespace BitBucketFs

open Go

/-- `ErrSeek` (`bitbucket_file.go` line 24). -/
def errSeek : GoError := .errorString "Seek error"

/-- `BitBucketFile` (`bitbucket_file.go` lines 50–58). The Go field `at` is `cursor`;
    the mutex is left out. -/
structure BitBucketFile where
  name : String
  size : GoInt
  cursor : GoInt
  mode : GoInt
  perm : FileMode
  err : GoError
  deriving DecidableEq, Repr

/-- `newBitBucketFile(name, flag, perm, err)` (lines 64–66). -/
def newBitBucketFile (name : String) (flag : GoInt) (perm : FileMode) (err : GoError) :
    BitBucketFile :=
  ⟨name, 0, 0, flag, perm &&& modePerm, err⟩

namespace BitBucketFile

/-- `Sync` (lines 82–84). -/
def sync (f : BitBucketFile) : GoError := f.err

/-- `Truncate(size)` (lines 88–96): `if size < f.size { f.size = size }`. -/
def truncate (f : BitBucketFile) (size : GoInt) : GoError × BitBucketFile :=
  (.nil, if size.slt f.size then { f with size := size } else f)

/-- `Close` (lines 100–106): `f.at = 0`. -/
def close (f : BitBucketFile) : GoError × BitBucketFile := (.nil, { f with cursor := 0 })

/-- `Write(p)` (lines 110–118): `f.size += int64(len(p))`, returns `len(p), nil`. A nil
    slice and an empty one add the same 0. -/
def write (f : BitBucketFile) (p : List UInt8) : (GoInt × GoError) × BitBucketFile :=
  let n : GoInt := BitVec.ofNat 64 p.length
  ((n, .nil), { f with size := f.size + n })

/-- `Read(p)` (lines 122–139). `remains := f.size - f.at`; a shorter buffer advances
    `f.at`; otherwise `f.at = f.size - 1` and `make([]byte, int(remains))`, which
    panics on a negative length. -/
def read (f : BitBucketFile) (p : List UInt8) :
    Except Fault ((GoInt × GoError) × BitBucketFile) :=
  let remains := f.size - f.cursor
  let len : GoInt := BitVec.ofNat 64 p.length
  if len.slt remains then .ok ((len, .nil), { f with cursor := f.cursor + len })
  else if remains.slt 0 then .error .makeSliceLen
  else .ok ((remains, errorsJoin eof f.err), { f with cursor := f.size - 1 })

/-- `ReadAt(p, offset)` (lines 143–155): below `f.size` it re-locks the mutex it holds;
    otherwise it returns `0, f.err` (the `io.EOF` it builds is dropped). -/
def readAt (f : BitBucketFile) (_p : List UInt8) (offset : GoInt) :
    Except Fault ((GoInt × GoError) × BitBucketFile) :=
  if offset.slt f.size then .error .deadlock else .ok ((0, f.err), f)

/-- `Seek(offset, whence)` (lines 159–180) with wrapping `int64` arithmetic. -/
def seek (f : BitBucketFile) (offset whence : GoInt) : (GoInt × GoError) × BitBucketFile :=
  let newOffset : Option GoInt :=
    if whence = 0 then some offset
    else if whence = 1 then some (f.cursor + offset)
    else if whence = 2 then some (f.size - offset)
    else none
  match newOffset with
  | none => ((0, f.err), f)
  | some newOffset =>
    if newOffset.slt 0 || f.size.sle newOffset then ((0, errorsJoin f.err errSeek), f)
    else ((newOffset, .nil), { f with cursor := newOffset })

end BitBucketFile

/-- A call on a descriptor. -/
inductive FileCall where
  | write (p : List UInt8)
  | read (p : List UInt8)
  | readAt (p : List UInt8) (offset : GoInt)
  | seek (offset whence : GoInt)
  | truncate (size : GoInt)
  | close
  | sync
  deriving DecidableEq, Repr

/-- The body of a call on `f`: the count or offset (0 where the method returns none),
    the error, and the receiver as the body leaves it. -/
def FileCall.body (f : BitBucketFile) : FileCall →
    Except Fault ((GoInt × GoError) × BitBucketFile)
  | .write p => .ok (f.write p)
  | .read p => f.read p
  | .readAt p offset => f.readAt p offset
  | .seek offset whence => .ok (f.seek offset whence)
  | .truncate size => .ok ((0, (f.truncate size).1), (f.truncate size).2)
  | .close => .ok ((0, f.close.1), f.close.2)
  | .sync => .ok ((0, f.sync), f)

/-- Calls made through the `vfs.File` interface value: each method gets a copy of the
    stored `BitBucketFile`, so every call runs on the descriptor as it was opened. A
    fault ends the sequence. -/
def callSeq (f : BitBucketFile) : List FileCall → Except Fault (List (GoInt × GoError))
  | [] => .ok []
  | c :: cs => do
    let (r, _) ← c.body f
    let rs ← callSeq f cs
    pure (r :: rs)

/-- `Read` on an empty descriptor assigns `-1` to the read pointer of its receiver. -/
theorem read_empty_cursor (name : String) (flag : GoInt) (perm : FileMode) (err : GoError) :
    ((newBitBucketFile name flag perm err).read []).map (·.2.cursor.toInt) = .ok (-1) := by
  have h1 : (BitVec.ofNat 64 ([] : List UInt8).length).slt (0 - 0) = false := by decide
  have h2 : ((0 : GoInt) - 0).slt 0 = false := by decide
  simp only [BitBucketFile.read, newBitBucketFile, h1, h2, Bool.false_eq_true, if_false]
  exact congrArg Except.ok (show ((0 : GoInt) - 1).toInt = -1 by decide)

/-! ## The specification's descriptor -/

namespace Spec

/-- The error kinds a descriptor reports (spec §7). -/
inductive ErrKind where
  | none
  | endOfData
  | seekOutOfRange
  | other
  deriving DecidableEq, Repr

/-- The kind of an error the code returns. -/
def errKind (e : GoError) : ErrKind :=
  if e = .nil then .none
  else if errorsIs e eof then .endOfData
  else if errorsIs e errSeek then .seekOutOfRange
  else .other

/-- The descriptor of spec §4.3: a size and a cursor, both unbounded integers, and the
    injected error carried from the filesystem. -/
structure Descriptor where
  size : ℤ
  cursor : ℤ
  err : GoError
  deriving DecidableEq, Repr

/-- One call on the spec's descriptor (§4.3): `Write` adds the length to `size`; `Read`
    advances the cursor by a buffer shorter than the remaining bytes, else returns the
    remaining count with end-of-data and leaves the cursor on the last byte; `ReadAt`
    below `size` moves the cursor and reads; `Seek` needs `0 ≤ t < size`; `Truncate(k)`
    sets `size` to `min size k` and clamps the cursor; `Close` resets the cursor; `Sync`
    reports the injected error. -/
def Descriptor.step (d : Descriptor) : FileCall → (ℤ × ErrKind) × Descriptor
  | .write p => ((p.length, .none), { d with size := d.size + p.length })
  | .read p => readSpec d p
  | .readAt p offset =>
    if offset.toInt < d.size then readSpec { d with cursor := offset.toInt } p
    else ((0, .endOfData), d)
  | .seek offset whence =>
    let t : Option ℤ :=
      if whence = 0 then some offset.toInt
      else if whence = 1 then some (d.cursor + offset.toInt)
      else if whence = 2 then some (d.size - offset.toInt)
      else none
    match t with
    | some t => if 0 ≤ t ∧ t < d.size then ((t, .none), { d with cursor := t })
      else ((0, .seekOutOfRange), d)
    | none => ((0, .other), d)
  | .truncate k =>
    let size := min d.size k.toInt
    ((0, .none), { d with size := size, cursor := min d.cursor size })
  | .close => ((0, .none), { d with cursor := 0 })
  | .sync => ((0, errKind d.err), d)
where
  readSpec (d : Descriptor) (p : List UInt8) : (ℤ × ErrKind) × Descriptor :=
    let remaining := d.size - d.cursor
    if p.length < remaining then ((p.length, .none), { d with cursor := d.cursor + p.length })
    else ((remaining, .endOfData), { d with cursor := max (d.size - 1) 0 })

/-- The spec's descriptor run on a call sequence. -/
def Descriptor.run (d : Descriptor) : List FileCall → List (ℤ × ErrKind)
  | [] => []
  | c :: cs => (d.step c).1 :: (d.step c).2.run cs

end Spec

end BitBucketFs
