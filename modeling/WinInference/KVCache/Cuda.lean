import WinInference.Utils.Basic

/-!
# Device memory behind the CUDA runtime

The part of the CUDA runtime that the KV allocators call.  Whether a call
succeeds is not up to the program: a `Cuda` state carries the answers the
coming calls will get, `some text` for an error that `cudaGetErrorString`
renders as `text`, and calls beyond the last answer succeed.

A successful `cudaMalloc` of a positive size hands out a block never handed out
before; of size zero it hands out the null pointer.  Every block given to
`cudaFree` is recorded, so freeing a block twice shows.
-/

namespace Qwen

/-- An address inside a device block. -/
structure DevicePtr where
  block : Nat
  offset : Nat
deriving DecidableEq

/-- A `void*` to device memory; `none` is `nullptr`. -/
abbrev Ptr := Option DevicePtr

/-- Pointer arithmetic inside a block. -/
def Ptr.shift (p : Ptr) (bytes : Nat) : Ptr :=
  p.map (fun q => { q with offset := q.offset + bytes })

/-- The blocks a pointer keeps alive: its own, or none for null. -/
def Ptr.blocks : Ptr → List Nat
  | none => []
  | some p => [p.block]

/-- The state of device memory. -/
structure Cuda where
  answers : List (Option String) := []
  next : Nat := 0
  outstanding : List Nat := []
  freed : List Nat := []
deriving DecidableEq

namespace Cuda

/-- Load the answers of the coming calls. -/
def withAnswers (c : Cuda) (answers : List (Option String)) : Cuda :=
  { c with answers := answers }

/-- The next answer: `none` is `cudaSuccess`. -/
def answer (c : Cuda) : Option String × Cuda :=
  match c.answers with
  | [] => (none, c)
  | a :: rest => (a, { c with answers := rest })

/-- `cudaSetDevice`: the next answer decides whether it fails. -/
def cudaSetDevice (c : Cuda) (_deviceId : Int) : Option String × Cuda :=
  c.answer

/-- `cudaMalloc`: the next answer decides whether it fails; a size of zero gives null. -/
def cudaMalloc (c : Cuda) (size : Nat) : Except String Ptr × Cuda :=
  match c.answer with
  | (some err, c') => (.error err, c')
  | (none, c') =>
      if size = 0 then (.ok none, c')
      else
        (.ok (some ⟨c'.next, 0⟩),
          { c' with next := c'.next + 1, outstanding := c'.next :: c'.outstanding })

/-- `cudaFree`: null is ignored, a block is given back once. -/
def cudaFree (c : Cuda) : Ptr → Cuda
  | none => c
  | some p =>
      { c with
        outstanding := c.outstanding.erase p.block
        freed := p.block :: c.freed }

/-- New answers leave the block counter alone. -/
@[simp] theorem withAnswers_next (c : Cuda) (a : List (Option String)) :
    (c.withAnswers a).next = c.next := rfl

/-- New answers leave the outstanding blocks alone. -/
@[simp] theorem withAnswers_outstanding (c : Cuda) (a : List (Option String)) :
    (c.withAnswers a).outstanding = c.outstanding := rfl

/-- New answers leave the record of frees alone. -/
@[simp] theorem withAnswers_freed (c : Cuda) (a : List (Option String)) :
    (c.withAnswers a).freed = c.freed := rfl

/-- Taking an answer leaves the block counter alone. -/
@[simp] theorem answer_next (c : Cuda) : c.answer.2.next = c.next := by
  unfold answer; split <;> rfl

/-- Taking an answer leaves the outstanding blocks alone. -/
@[simp] theorem answer_outstanding (c : Cuda) :
    c.answer.2.outstanding = c.outstanding := by
  unfold answer; split <;> rfl

/-- Taking an answer leaves the record of frees alone. -/
@[simp] theorem answer_freed (c : Cuda) : c.answer.2.freed = c.freed := by
  unfold answer; split <;> rfl

end Cuda

end Qwen
