import BitBucketFs.Namespace

/-!
# Descriptors returned by `Open`

`OpenFile` returns `newBitBucketFile(name, flag, perm, bfs.err)` as a `vfs.File`
interface value: a `BitBucketFile` struct with size 0 and read pointer 0. Every method of
`BitBucketFile` has a value receiver, so a call works on a copy and the descriptor the
caller holds keeps size 0 and read pointer 0 whatever was written, read or sought before.
The spec's descriptor (`Spec.Descriptor`) keeps what each call does.

Results:
* `exec_openFile_fresh`: every descriptor `Open`/`OpenFile` returns is fresh.
* `read_fresh`, `readAt_fresh`: what `Read` and `ReadAt` answer on it.
* `write_then_seek`: after `Write` of one byte, `Seek(0, 0)` fails on the code's
  descriptor and succeeds on the spec's.
* `readAt_short_without_eof`: `ReadAt` reads nothing without reporting `io.EOF`, and
  faults on a negative offset.
* `callSeq_opened`: on every descriptor `OpenFile` hands out, from any filesystem, every
  call sequence gets the answers `freshReply` lists: `Read` always reports
  `io.EOF`, and `Seek` never succeeds for `whence` 0, 1 or 2.
-/

namespace BitBucketFs

open Go BitBucketFS

/-- `OpenFile` hands out `newBitBucketFile(filepath.Clean(name), flag, perm, bfs.err)`. -/
theorem exec_openFile_fresh {N : Type} [IBucketNode N] (home : String) (fuel : ℕ)
    {bfs bfs' : BitBucketFS N} {name : String} {flag : GoInt} {perm : FileMode}
    {f : BitBucketFile} {e : GoError}
    (h : bfs.exec home fuel (.openFile name flag perm) = .ok (.file (some f) e, bfs')) :
    f = newBitBucketFile (filepathClean name) flag perm bfs.err := by
  simp only [exec] at h
  rcases hx : bfs.openFile name flag perm with _ | ⟨o, e'⟩ <;> rw [hx] at h <;> cases h
  simp only [openFile] at hx
  (repeat' split at hx) <;> cases hx <;> rfl

section Fresh

variable (name : String) (flag : GoInt) (perm : FileMode) (err : GoError)

/-- `Read(p)` on a fresh descriptor: no byte remains, so it answers
    `0, errors.Join(io.EOF, err)`. A Go slice is shorter than `2^63`. -/
theorem read_fresh {p : List UInt8} (hp : p.length < 2 ^ 63) :
    ((newBitBucketFile name flag perm err).read p).map (·.1) = .ok (0, errorsJoin eof err) := by
  have hlen : ¬ (BitVec.ofNat 64 p.length).toInt < 0 := by
    rw [BitVec.toInt_eq_toNat_cond, BitVec.toNat_ofNat]
    split_ifs <;> omega
  have h0 : (BitVec.ofNat 64 0).toInt = 0 := rfl
  simp only [BitBucketFile.read, newBitBucketFile, BitVec.sub_self, BitVec.slt, h0, hlen,
    decide_False, Bool.false_eq_true, if_false, lt_irrefl]
  rfl

/-- `ReadAt(p, offset)` on a fresh descriptor: below size 0, that is on a negative
    offset, it locks the mutex it holds; otherwise it answers `0, err`. -/
theorem readAt_fresh (p : List UInt8) (offset : GoInt) :
    ((newBitBucketFile name flag perm err).readAt p offset).map (·.1) =
      if offset.toInt < 0 then .error .deadlock else .ok (0, err) := by
  have h0 : (0 : GoInt).toInt = 0 := rfl
  by_cases h : offset.toInt < 0 <;>
    simp only [BitBucketFile.readAt, newBitBucketFile, BitVec.slt, h0, h, decide_True,
      decide_False, if_true, if_false] <;> rfl

/-- `Seek(offset, whence)` on a fresh descriptor: the size is 0, so no target is in
    range. -/
theorem seek_fresh (offset whence : GoInt) :
    ((newBitBucketFile name flag perm err).seek offset whence).1 =
      (0, if whence = 0 ∨ whence = 1 ∨ whence = 2 then errorsJoin err errSeek else err) := by
  have hout : ∀ x : GoInt, (x.slt 0 || BitVec.sle 0 x) = true := fun x => by
    have h0 : (0 : GoInt).toInt = 0 := rfl
    simp only [BitVec.slt, BitVec.sle, h0, Bool.or_eq_true, decide_eq_true_eq]
    omega
  simp only [BitBucketFile.seek, newBitBucketFile]
  by_cases h0 : whence = 0
  · simp only [h0, ↓reduceIte, hout, true_or]
  by_cases h1 : whence = 1
  · rw [if_neg h0, if_pos h1]
    simp only [h1, ↓reduceIte, hout, true_or, or_true]
  by_cases h2 : whence = 2
  · rw [if_neg h0, if_neg h1, if_pos h2]
    simp only [h2, ↓reduceIte, hout, or_true]
  · rw [if_neg h0, if_neg h1, if_neg h2]
    simp only [h0, h1, h2, ↓reduceIte, or_self]

/-- A call whose buffer a Go slice can hold: a slice is shorter than `2^63`. -/
def FileCall.sized : FileCall → Bool
  | .write p | .read p | .readAt p _ => p.length < 2 ^ 63
  | _ => true

/-- What a descriptor fresh from `newBitBucketFile(name, flag, perm, E)` answers to a call.
    Every method has a value receiver, so the descriptor the caller holds stays fresh
    whatever was called before: `Read` reports `io.EOF`, `Seek` finds no target in range,
    and `ReadAt` at a negative offset locks the mutex it holds. -/
def freshReply (E : GoError) : FileCall → Except Fault (GoInt × GoError)
  | .write p => .ok (BitVec.ofNat 64 p.length, .nil)
  | .read _ => .ok (0, errorsJoin eof E)
  | .readAt _ offset => if offset.toInt < 0 then .error .deadlock else .ok (0, E)
  | .seek _ whence =>
    .ok (0, if whence = 0 ∨ whence = 1 ∨ whence = 2 then errorsJoin E errSeek else E)
  | .truncate _ | .close => .ok (0, .nil)
  | .sync => .ok (0, E)

theorem body_fresh {c : FileCall} (hc : c.sized = true) :
    (FileCall.body (newBitBucketFile name flag perm err) c).map (·.1) = freshReply err c := by
  cases c with
  | read p => exact read_fresh name flag perm err (by simpa [FileCall.sized] using hc)
  | readAt p offset => exact readAt_fresh name flag perm err p offset
  | seek offset whence =>
    simp only [FileCall.body, Except.map, seek_fresh, freshReply]
  | write | truncate | close | sync => rfl

theorem callSeq_fresh (cs : List FileCall) (hcs : ∀ c ∈ cs, c.sized = true) :
    callSeq (newBitBucketFile name flag perm err) cs = cs.mapM (freshReply err) := by
  induction cs with
  | nil => rfl
  | cons c cs ih =>
    rw [callSeq, List.mapM_cons, ih fun c' h => hcs c' (List.mem_cons_of_mem _ h),
      ← body_fresh name flag perm err (hcs c (List.mem_cons_self _ _))]
    rcases FileCall.body _ c with _ | ⟨⟨_, _⟩, _⟩ <;> rfl

end Fresh

/-- Every descriptor `OpenFile` hands out, from any filesystem, answers every call
    sequence as `freshReply` says, whatever the calls before it were. -/
theorem callSeq_opened {N : Type} [IBucketNode N] (home : String) (fuel : ℕ)
    {bfs bfs' : BitBucketFS N} {name : String} {flag : GoInt} {perm : FileMode}
    {f : BitBucketFile} {e : GoError}
    (h : bfs.exec home fuel (.openFile name flag perm) = .ok (.file (some f) e, bfs'))
    {cs : List FileCall} (hcs : ∀ c ∈ cs, c.sized = true) :
    callSeq f cs = cs.mapM (freshReply bfs.err) := by
  rw [exec_openFile_fresh home fuel h]
  exact callSeq_fresh _ _ _ _ cs hcs

/-- `/f` a file, in hybrid mode. -/
def fileFStore : BitBucketFS BucketNode :=
  ⟨false, .errorString "E", (∅ : Entries BucketNode).insert "/f" (some (createNode allRwPerms))⟩

theorem callSeq_opened_write_seek :
    fileFStore.exec "/home/user" 0 (.openFile "/f" oRdonly 0) =
      .ok (.file (some (newBitBucketFile "/f" oRdonly 0 (.errorString "E"))) .nil, fileFStore) ∧
    (∀ c ∈ [FileCall.write [0], .seek 0 0, .read [0]], c.sized = true) ∧
    callSeq (newBitBucketFile "/f" oRdonly 0 (.errorString "E")) [.write [0], .seek 0 0, .read [0]] =
      [FileCall.write [0], .seek 0 0, .read [0]].mapM (freshReply (.errorString "E")) :=
  ⟨rfl, by decide, @callSeq_opened BucketNode inferInstance "/home/user" 0 fileFStore
    _ "/f" oRdonly 0 _ _ rfl _ (by decide)⟩

/-- `Open("/f")` after `WithFakeFiles(["/f"])` returns the fresh descriptor; on it,
    `Write([0])` reports one byte and `Seek(0, 0)` then fails with `ErrSeek`, while the
    spec's descriptor run from size 0 and cursor 0 answers `(1, nil)` and `(0, nil)`. -/
theorem write_then_seek (home : String) (fuel : ℕ) :
    (((createWithError (.errorString "Any BitBucket error") :
        Except Fault (BitBucketFS BucketNode)).bind fun bfs =>
          (bfs.withFakeFiles ["/f"]).exec home fuel (.openFile "/f" oRdonly 0)).map (·.1)) =
      .ok (.file (some (newBitBucketFile "/f" oRdonly 0 (.errorString "Any BitBucket error"))) .nil) ∧
    ((callSeq (newBitBucketFile "/f" oRdonly 0 (.errorString "Any BitBucket error"))
        [.write [0], .seek 0 0]).map (·.map fun (n, e) => (n.toInt, Spec.errKind e))) =
      .ok [(1, .none), (0, .seekOutOfRange)] ∧
    Spec.Descriptor.run ⟨0, 0, .errorString "Any BitBucket error"⟩ [.write [0], .seek 0 0] =
      [(1, .none), (0, .none)] :=
  ⟨rfl, rfl, rfl⟩

/-- `Open("/f")` after `WithFakeFiles(["/f"])` returns the fresh descriptor. On it
    `ReadAt([0], 0)` reads no byte and answers the injected error, which does not wrap
    `io.EOF`, and `ReadAt([0], -1)` locks the mutex it already holds. -/
theorem readAt_short_without_eof (home : String) (fuel : ℕ) :
    (((createWithError (.errorString "Any BitBucket error") :
        Except Fault (BitBucketFS BucketNode)).bind fun bfs =>
          (bfs.withFakeFiles ["/f"]).exec home fuel (.openFile "/f" oRdonly 0)).map (·.1)) =
      .ok (.file (some (newBitBucketFile "/f" oRdonly 0 (.errorString "Any BitBucket error")))
        .nil) ∧
    callSeq (newBitBucketFile "/f" oRdonly 0 (.errorString "Any BitBucket error"))
        [.readAt [0] 0] = .ok [(0, .errorString "Any BitBucket error")] ∧
    errorsIs (.errorString "Any BitBucket error") eof = false ∧
    callSeq (newBitBucketFile "/f" oRdonly 0 (.errorString "Any BitBucket error"))
        [.readAt [0] (-1)] = .error .deadlock :=
  ⟨rfl, rfl, rfl, rfl⟩

end BitBucketFs
