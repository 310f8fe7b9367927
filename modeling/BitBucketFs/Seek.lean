import Mathlib.Algebra.Group.Int
import BitBucketFs.File

/-!
# `Seek` and `int64` arithmetic

`Seek(offset, whence)` (`bitbucket_file.go` lines 159–180) computes its target in
`int64`: `offset`, `f.at + offset` or `f.size - offset`, each wrapping modulo `2^64`,
and accepts it when `0 ≤ newOffset < f.size`. Any other `whence` returns `0, f.err`,
the error the filesystem was built with, which is nil in silent mode.

The exact target `t` (`Spec.seekTarget`) and the wrapped one differ only when `t`
leaves the `int64` range. Above the range the wrapped value is negative and the check
fails, as it does for `t`. Below the range, which takes `f.at + offset` with a negative
read pointer, the wrapped value can land in `[0, f.size)`.

Results:
* `toInt_add_wrap`, `toInt_sub_wrap`: `int64` addition and subtraction against the
  exact result.
* `seek_exact`: with `size ≥ 0`, `Seek` succeeds exactly when `whence` is 0, 1 or 2 and
  `0 ≤ t < size` for an exact target `t ≥ -2^63`, returning `t` and moving the cursor
  there; it fails with `ErrSeek` otherwise; another `whence` answers `0, f.err`.
* `seek_nil_err_or_wrap`: a silent-mode descriptor accepts `whence = 3`, and a target
  below `-2^63` wraps into range.
-/

namespace BitBucketFs

open Go

/-! ## `int64` arithmetic -/

theorem toInt_bounds (x : GoInt) : -2 ^ 63 ≤ x.toInt ∧ x.toInt < 2 ^ 63 := by
  have := x.isLt
  rw [BitVec.toInt_eq_toNat_cond]
  split_ifs <;> omega

/-- `int64` addition: the exact sum, moved back into range by `2^64` when it leaves it. -/
theorem toInt_add_wrap (x y : GoInt) :
    (x + y).toInt = if x.toInt + y.toInt < -2 ^ 63 then x.toInt + y.toInt + 2 ^ 64
      else if 2 ^ 63 ≤ x.toInt + y.toInt then x.toInt + y.toInt - 2 ^ 64
      else x.toInt + y.toInt := by
  have hx := toInt_bounds x
  have hy := toInt_bounds y
  rw [BitVec.toInt_add, Int.bmod_def]
  split_ifs <;> omega

/-- `int64` subtraction: the exact difference, moved back into range by `2^64`. -/
theorem toInt_sub_wrap (x y : GoInt) :
    (x - y).toInt = if x.toInt - y.toInt < -2 ^ 63 then x.toInt - y.toInt + 2 ^ 64
      else if 2 ^ 63 ≤ x.toInt - y.toInt then x.toInt - y.toInt - 2 ^ 64
      else x.toInt - y.toInt := by
  have hx := toInt_bounds x
  have hy := toInt_bounds y
  rw [BitVec.toInt_sub, Int.bmod_def]
  split_ifs <;> omega

theorem errorsIs_join_errSeek (e : GoError) : errorsIs (errorsJoin e errSeek) errSeek = true := by
  have hs : errSeek ≠ .nil := by decide
  rw [errorsJoin_of_ne_nil_right e hs, errorsIs_of_ne_nil (by simp) hs]
  simp [isChain, errSeek]

/-! ## The exact target -/

/-- The target of `Seek(offset, whence)` in unbounded integers (spec §4.3): `offset`,
    `at + offset` or `size - offset`; `none` for any other `whence`. -/
def Spec.seekTarget (size cursor offset : ℤ) (whence : GoInt) : Option ℤ :=
  if whence = 0 then some offset
  else if whence = 1 then some (cursor + offset)
  else if whence = 2 then some (size - offset)
  else none

namespace BitBucketFile

/-- What `Seek(offset, whence)` on `f` does against the exact target `t`: for a
    `whence` other than 0, 1 and 2 it answers `0, f.err`; for a target `t ≥ -2^63`
    it succeeds exactly when `0 ≤ t < size`, returns `t` and moves the cursor to it,
    and otherwise fails with `ErrSeek` and leaves `f` as it was. -/
def SeekExact (f : BitBucketFile) (offset whence : GoInt) : Prop :=
  match Spec.seekTarget f.size.toInt f.cursor.toInt offset.toInt whence with
  | none => f.seek offset whence = ((0, f.err), f)
  | some t => -2 ^ 63 ≤ t →
    if 0 ≤ t ∧ t < f.size.toInt then
      (f.seek offset whence).1.1.toInt = t ∧ (f.seek offset whence).1.2 = .nil ∧
        (f.seek offset whence).2 = { f with cursor := (f.seek offset whence).1.1 }
    else
      (f.seek offset whence).1.1 = 0 ∧ errorsIs (f.seek offset whence).1.2 errSeek = true ∧
        (f.seek offset whence).2 = f

/-- The check `Seek` makes on its `int64` target `x`, when `x` is the exact target `t`
    or, for `t` above the range, `t - 2^64`. -/
theorem seek_check (f : BitBucketFile) {x : GoInt} {t : ℤ} (hsize : 0 ≤ f.size.toInt)
    (hx : x.toInt = t ∨ 2 ^ 63 ≤ t ∧ t < 2 ^ 64 ∧ x.toInt = t - 2 ^ 64) :
    let r : (GoInt × GoError) × BitBucketFile :=
      if x.slt 0 || f.size.sle x then ((0, errorsJoin f.err errSeek), f)
      else ((x, .nil), { f with cursor := x })
    if 0 ≤ t ∧ t < f.size.toInt then
      r.1.1.toInt = t ∧ r.1.2 = .nil ∧ r.2 = { f with cursor := r.1.1 }
    else r.1.1 = 0 ∧ errorsIs r.1.2 errSeek = true ∧ r.2 = f := by
  have hs := toInt_bounds f.size
  have h0 : (0 : GoInt).toInt = 0 := rfl
  simp only [BitVec.slt, BitVec.sle, h0, Bool.or_eq_true, decide_eq_true_eq]
  generalize hxi : x.toInt = xi at hx ⊢
  generalize f.size.toInt = si at hs hsize ⊢
  split_ifs with ht hc hc
  · omega -- in range, rejected
  · exact ⟨hxi.trans (by omega), rfl, rfl⟩
  · exact ⟨rfl, errorsIs_join_errSeek _, rfl⟩
  · omega -- out of range, accepted

/-- `Seek` on a descriptor of non-negative size checks the exact target, as long as the
    target does not fall below the `int64` range. -/
theorem seek_exact (f : BitBucketFile) (offset whence : GoInt) (hsize : 0 ≤ f.size.toInt) :
    f.SeekExact offset whence := by
  have hs := toInt_bounds f.size
  have hc := toInt_bounds f.cursor
  have ho := toInt_bounds offset
  unfold SeekExact Spec.seekTarget seek
  by_cases h0 : whence = 0
  · simp only [h0, if_true]
    exact fun _ => seek_check f hsize (.inl rfl)
  by_cases h1 : whence = 1
  · simp only [h0, h1, if_true, if_false]
    exact fun _ => seek_check f hsize (by rw [toInt_add_wrap]; split_ifs <;> omega)
  by_cases h2 : whence = 2
  · simp only [h0, h1, h2, if_true, if_false]
    exact fun _ => seek_check f hsize (by rw [toInt_sub_wrap]; split_ifs <;> omega)
  simp only [h0, h1, h2, if_false]

theorem seek_exact_size_five :
    0 ≤ (({ newBitBucketFile "/f" oRdonly 0 .nil with size := 5 } : BitBucketFile).size).toInt ∧
      ({ newBitBucketFile "/f" oRdonly 0 .nil with size := 5 } : BitBucketFile).SeekExact 3 1 :=
  ⟨by decide, seek_exact _ 3 1 (by decide)⟩

/-- Two ways `Seek` succeeds without a valid target. On the descriptor `Create().Open("/f")`
    hands out (no error), `Seek(0, 3)` succeeds; and with the read pointer at `-2^63` and
    size 1, `Seek(-2^63, 1)` has exact target `-2^64` but wraps to 0 and succeeds. -/
theorem seek_nil_err_or_wrap :
    (newBitBucketFile "/f" oRdonly 0 .nil).seek 0 3 =
      ((0, .nil), newBitBucketFile "/f" oRdonly 0 .nil) ∧
    ({ newBitBucketFile "/f" oRdonly 0 .nil with size := 1, cursor := BitVec.ofInt 64 (-2 ^ 63) }
      |>.seek (BitVec.ofInt 64 (-2 ^ 63)) 1).1 = (0, .nil) :=
  ⟨rfl, rfl⟩

end BitBucketFile

end BitBucketFs
