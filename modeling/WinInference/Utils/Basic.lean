import WinInference.Numeric.Wrapping

/-!
# Errors, results and the fixed-width types

`Error` and `Result` of `utils/result.hpp`, and the widths of the C++ types:
`size_t` and `uint64_t` have 64 bits, `uint32_t` and `int32_t` have 32.
-/

namespace Qwen

/-- Error information for failed operations. -/
structure Error where
  code : String
  message : String
deriving DecidableEq

namespace Error

/-- `Error::internal`. -/
def internal (msg : String) : Error := ⟨"internal_error", msg⟩

/-- `Error::invalid_request`. -/
def invalidRequest (msg : String) : Error := ⟨"invalid_request_error", msg⟩

/-- `Error::resource_exhausted`. -/
def resourceExhausted (msg : String) : Error := ⟨"resource_exhausted", msg⟩

/-- `Error::timeout`. -/
def timeout (msg : String) : Error := ⟨"timeout", msg⟩

end Error

/-- Result type for operations that can fail. -/
abbrev Result (α : Type) := Except Error α

/-- A sequence of steps that succeeds has steps that succeed. -/
theorem Except.bind_eq_ok {ε α β : Type} {first : Except ε α} {next : α → Except ε β} {b : β}
    (h : (first >>= next) = .ok b) : ∃ a, first = .ok a ∧ next a = .ok b := by
  cases first with
  | error e => cases h
  | ok a => exact ⟨a, rfl, h⟩

/-- Addition of `size_t`. -/
abbrev sizeAdd (a b : Nat) : Nat := Wrapping.add 64 a b

/-- Subtraction of `size_t`. -/
abbrev sizeSub (a b : Nat) : Nat := Wrapping.sub 64 a b

/-- Multiplication of `size_t`. -/
abbrev sizeMul (a b : Nat) : Nat := Wrapping.mul 64 a b

/-- `static_cast<size_t>` of a signed integer. -/
abbrev toSize (x : Int) : Nat := Wrapping.ofInt 64 x

/-- `static_cast<int32_t>`. -/
abbrev toInt32 (x : Int) : Int := Wrapping.toSigned 32 x

/-- `++` on a `uint32_t`. -/
abbrev uint32Inc (n : Nat) : Nat := Wrapping.add 32 n 1

/-- `--` on a `uint32_t`. -/
abbrev uint32Dec (n : Nat) : Nat := Wrapping.sub 32 n 1

end Qwen
