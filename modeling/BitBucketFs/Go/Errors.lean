import Mathlib.Data.List.Basic

/-!
# Go error values, `errors.Join` and `errors.Is`

The filesystem returns `*fs.PathError`, `*os.LinkError`, `fmt.Errorf("… %w", e)`
wrappers and `errors.Join` lists, and callers match them with `errors.Is`. An `error`
is modelled by the tree `errors.Is` walks; the nil interface is the constructor `nil`.

Go compares the error interface by pointer identity. Every composite error below is
freshly allocated by the code, so it never equals an earlier value; the sentinels
(`errors.New`) have pairwise different texts here and compare by text.

Runtime failures that end a call without a return value are `Fault`s: an explicit
`panic(…)`, a nil pointer dereference, a failed type assertion, a `make` with a
negative length, a goroutine blocked on a mutex it already holds, and unbounded
recursion.
-/

namespace BitBucketFs.Go

/-- A Go `error` value. `joinError a b` is the `*errors.joinError` of
    `errors.Join(a, b)`; a `nil` child stands for an argument `Join` dropped. -/
inductive GoError where
  | nil
  | errorString (text : String)
  | pathError (op path : String) (err : GoError)
  | linkError (op old new : String) (err : GoError)
  | wrapError (msg : String) (err : GoError)
  | joinError (a b : GoError)
  deriving DecidableEq, Repr

/-- How a Go call ends without returning. -/
inductive Fault where
  | panicCall
  | nilDereference
  | typeAssertion
  | makeSliceLen
  | deadlock
  | stackOverflow
  deriving DecidableEq, Repr

/-- `errors.Join(a, b)`: `nil` when both are `nil`, else a `*joinError` of the
    non-nil arguments. -/
def errorsJoin : GoError → GoError → GoError
  | .nil, .nil => .nil
  | a, b => .joinError a b

/-- The loop of `errors.is`: compare, then follow `Unwrap() error` or every element of
    `Unwrap() []error`. A nil child is never visited. -/
def isChain (target : GoError) : GoError → Bool
  | .nil => false
  | e@(.errorString _) => e == target
  | e@(.pathError _ _ inner) => e == target || isChain target inner
  | e@(.linkError _ _ _ inner) => e == target || isChain target inner
  | e@(.wrapError _ inner) => e == target || isChain target inner
  | e@(.joinError a b) => e == target || isChain target a || isChain target b

/-- `errors.Is(err, target)`: if either is nil, whether both are. -/
def errorsIs (err target : GoError) : Bool :=
  if err = .nil ∨ target = .nil then err == target else isChain target err

/-- `fs.ErrNotExist` (`io/fs`, `errors.New("file does not exist")`). -/
def errNotExist : GoError := .errorString "file does not exist"

/-- `io.EOF` (`errors.New("EOF")`). -/
def eof : GoError := .errorString "EOF"

@[simp] theorem errorsJoin_nil_nil : errorsJoin .nil .nil = .nil := rfl

theorem errorsJoin_of_ne_nil_right (a : GoError) {b : GoError} (h : b ≠ .nil) :
    errorsJoin a b = .joinError a b := by
  cases a <;> cases b <;> first | exact absurd rfl h | rfl

@[simp] theorem isChain_self {e : GoError} (h : e ≠ .nil) : isChain e e = true := by
  cases e <;> simp_all [isChain]

theorem errorsIs_of_ne_nil {err target : GoError} (he : err ≠ .nil) (ht : target ≠ .nil) :
    errorsIs err target = isChain target err := by
  simp [errorsIs, he, ht]

/-- `errors.Is` sees through one `*PathError` layer. -/
@[simp] theorem errorsIs_pathError {op path : String} {inner target : GoError}
    (ht : target ≠ .nil) :
    errorsIs (.pathError op path inner) target =
      (.pathError op path inner == target || isChain target inner) := by
  simp [errorsIs, ht, isChain]

/-- `errors.Is` sees both arguments of a two-element `errors.Join`. -/
theorem isChain_errorsJoin {a b target : GoError} (ht : target ≠ .nil) :
    isChain target (errorsJoin a b) =
      (errorsJoin a b == target || isChain target a || isChain target b) := by
  cases a <;> cases b <;> simp_all [errorsJoin, isChain, Ne.symm ht]

end BitBucketFs.Go
