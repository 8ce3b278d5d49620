import Metamalloc.Library.Tiling

/-! The address space of a process, as calls that map and unmap ranges of bytes leave it. -/
namespace Metamalloc.Library.AddressSpace
open Tiling

abbrev Mapped := Nat → Bool

inductive SystemCall where
  | map (b : Block)
  | unmap (b : Block)
  deriving DecidableEq

def SystemCall.perform (mapped : Mapped) : SystemCall → Mapped
  | .map b => fun x => if b.start ≤ x ∧ x < b.start + b.size then true else mapped x
  | .unmap b => fun x => if b.start ≤ x ∧ x < b.start + b.size then false else mapped x

def performAll (mapped : Mapped) (calls : List SystemCall) : Mapped := calls.foldl SystemCall.perform mapped

/-- The system maps whole ranges of free addresses, at multiples of its page size. -/
def Grants (pageSize : Nat) : Mapped → List SystemCall → Prop
  | _, [] => True
  | mapped, .map b :: calls =>
    (pageSize ∣ b.start ∧ b.start + b.size < 2^64 ∧ ∀ x, b.Holds x → mapped x = false) ∧
      Grants pageSize (SystemCall.perform mapped (.map b)) calls
  | mapped, .unmap b :: calls => Grants pageSize (SystemCall.perform mapped (.unmap b)) calls

def mappings : List SystemCall → List Block
  | [] => []
  | .map b :: calls => mappings calls ++ [b]
  | .unmap _ :: calls => mappings calls

variable {mapped : Mapped} {calls calls' : List SystemCall} {pageSize x : Nat} {b : Block}

theorem performAll_append : performAll mapped (calls ++ calls') = performAll (performAll mapped calls) calls' :=
  List.foldl_append

theorem mappings_append : mappings (calls ++ calls') = mappings calls' ++ mappings calls := by
  induction calls with
  | nil => simp [mappings]
  | cons call calls ih => cases call <;> simp [mappings, ih]

theorem Grants.append (h : Grants pageSize mapped (calls ++ calls')) :
    Grants pageSize (performAll mapped calls) calls' := by
  induction calls generalizing mapped with
  | nil => exact h
  | cons call calls ih =>
    cases call with
    | map b => exact ih h.2
    | unmap b => exact ih h

theorem performAll_of_mapped (hx : mapped x = true) (h : ∀ b, .unmap b ∈ calls → ¬ b.Holds x) :
    performAll mapped calls x = true := by
  induction calls generalizing mapped with
  | nil => exact hx
  | cons call calls ih =>
    refine ih ?_ fun b hb => h b (List.mem_cons_of_mem _ hb)
    cases call with
    | map b => simp [SystemCall.perform, hx]
    | unmap b =>
      have hb : ¬ (b.start ≤ x ∧ x < b.start + b.size) := h b List.mem_cons_self
      simp [SystemCall.perform, hb, hx]

end Metamalloc.Library.AddressSpace
