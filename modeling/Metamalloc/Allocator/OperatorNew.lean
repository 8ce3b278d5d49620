import Metamalloc.Allocator.FailedCreations

/-! The wrappers behind the operators `new`. When no memory is left they call the handler that is
installed, and throw when there is none. -/
namespace Metamalloc.Allocator
open Library.Word64 Pages Segments Heaps

/-- The allocator, and whatever else the program of the handlers reads and writes. -/
structure NewState (ω : Type) where
  world : ω
  allocator : ScalableAllocator
  memory : Memory

inductive HandlerOutcome (ω : Type) where
  | returns (s : NewState ω)
  | throws (s : NewState ω)
  | doesNotReturn

inductive NewOutcome (ω : Type) where
  | pointer (ret : Nat) (s : NewState ω)
  | throws (s : NewState ω)
  | doesNotReturn

/-- What `get_new_handler` finds; a handler may do anything to the state. -/
abbrev NewHandler (ω : Type) := ω → Option (NewState ω → HandlerOutcome ω)

abbrev AllocationCall := ScalableAllocator → Memory → Option (Nat × Bool × ScalableAllocator × Memory)

section
variable {ω : Type}

def handleOperatorNewFailure (newHandler : NewHandler ω) (s : NewState ω) : HandlerOutcome ω :=
  match newHandler s.world with
  | some handler => handler s
  | none => .throws s

/-- `operator_new` and `operator_new_aligned`, for the allocation of either. -/
def operatorNewFrom (allocation : AllocationCall) (newHandler : NewHandler ω) (s : NewState ω) :
    Option (NewOutcome ω) :=
  match allocation s.allocator s.memory with
  | none => none
  | some (ret, _, a, mem) =>
    if ret = 0 then
      match handleOperatorNewFailure newHandler { s with allocator := a, memory := mem } with
      -- the result is the one of before the handler was called
      | .returns s => some (.pointer ret s)
      | .throws s => some (.throws s)
      | .doesNotReturn => some .doesNotReturn
    else some (.pointer ret { s with allocator := a, memory := mem })

def operatorNew (A : AllocatorType) (answers : CallAnswers) (thread size : Nat) (newHandler : NewHandler ω)
    (s : NewState ω) : Option (NewOutcome ω) :=
  operatorNewFrom (ScalableAllocator.allocate A answers thread size) newHandler s

def operatorNewAligned (A : AllocatorType) (answers : CallAnswers) (thread size alignment : Nat)
    (newHandler : NewHandler ω) (s : NewState ω) : Option (NewOutcome ω) :=
  operatorNewFrom (ScalableAllocator.allocateAligned A answers thread size alignment) newHandler s

/-- What an operator `new` is for: it returns a pointer, throws, or does not return, and it allocates again
after each handler that returns. -/
inductive StandardNew (allocation : CallAnswers → AllocationCall) (newHandler : NewHandler ω) :
    NewState ω → NewOutcome ω → Prop
  | served {s : NewState ω} {answers : CallAnswers} {ret : Nat} {central : Bool} {a : ScalableAllocator}
      {mem : Memory} (h : allocation answers s.allocator s.memory = some (ret, central, a, mem)) (hret : ret ≠ 0) :
      StandardNew allocation newHandler s (.pointer ret { s with allocator := a, memory := mem })
  | thrown {s s' : NewState ω} {answers : CallAnswers} {central : Bool} {a : ScalableAllocator} {mem : Memory}
      (h : allocation answers s.allocator s.memory = some (0, central, a, mem))
      (hh : handleOperatorNewFailure newHandler { s with allocator := a, memory := mem } = .throws s') :
      StandardNew allocation newHandler s (.throws s')
  | notReturned {s : NewState ω} {answers : CallAnswers} {central : Bool} {a : ScalableAllocator} {mem : Memory}
      (h : allocation answers s.allocator s.memory = some (0, central, a, mem))
      (hh : handleOperatorNewFailure newHandler { s with allocator := a, memory := mem } = .doesNotReturn) :
      StandardNew allocation newHandler s .doesNotReturn
  | retried {s s' : NewState ω} {answers : CallAnswers} {central : Bool} {a : ScalableAllocator} {mem : Memory}
      {out : NewOutcome ω} (h : allocation answers s.allocator s.memory = some (0, central, a, mem))
      (hh : handleOperatorNewFailure newHandler { s with allocator := a, memory := mem } = .returns s')
      (hagain : StandardNew allocation newHandler s' out) : StandardNew allocation newHandler s out

def HandlerReturns (allocation : AllocationCall) (newHandler : NewHandler ω) (s : NewState ω) : Prop :=
  ∃ central a mem handler s', allocation s.allocator s.memory = some (0, central, a, mem) ∧
    newHandler s.world = some handler ∧ handler { s with allocator := a, memory := mem } = .returns s'

variable {allocation : CallAnswers → AllocationCall} {answers : CallAnswers} {newHandler : NewHandler ω}
  {s s' : NewState ω} {out : NewOutcome ω} {ret : Nat}

/-- No null pointer, however often the allocation is tried. -/
theorem StandardNew.pointer_ne_zero (h : StandardNew allocation newHandler s out) :
    ∀ ret s', out = .pointer ret s' → ret ≠ 0 := by
  induction h with
  | served _ hret =>
    intro ret s' heq
    cases heq
    exact hret
  | thrown => simp
  | notReturned => simp
  | retried _ _ _ ih => exact ih

/-- After a failed allocation the outcome of the handler decides. -/
theorem handlerReturns_iff {allocation : AllocationCall} {central : Bool} {a : ScalableAllocator} {mem : Memory}
    (h : allocation s.allocator s.memory = some (0, central, a, mem)) :
    HandlerReturns allocation newHandler s ↔
      ∃ s', handleOperatorNewFailure newHandler { s with allocator := a, memory := mem } = .returns s' := by
  unfold HandlerReturns handleOperatorNewFailure
  cases hinstalled : newHandler s.world with
  | none => simp
  | some handler =>
    constructor
    · rintro ⟨_, _, _, _, s', hcall, heq, hreturns⟩
      cases h.symm.trans hcall
      cases heq
      exact ⟨s', hreturns⟩
    · rintro ⟨s', hreturns⟩
      exact ⟨central, a, mem, handler, s', h, rfl, hreturns⟩

/-- A wrapper does what an operator `new` is for, unless a handler has returned. -/
theorem operatorNewFrom_standard_iff
    (h : operatorNewFrom (allocation answers) newHandler s = some out) :
    StandardNew allocation newHandler s out ↔ ¬ HandlerReturns (allocation answers) newHandler s := by
  unfold operatorNewFrom at h
  rcases hcall : allocation answers s.allocator s.memory with _ | ⟨ret, central, a, mem⟩
  · rw [hcall] at h
    cases h
  rw [hcall] at h
  dsimp only at h
  by_cases hret : ret = 0
  · subst hret
    rw [if_pos rfl] at h
    rw [handlerReturns_iff hcall]
    cases hfailure : handleOperatorNewFailure newHandler { s with allocator := a, memory := mem } with
    | returns s' =>
      rw [hfailure] at h
      cases h
      refine ⟨fun hstandard => absurd rfl (hstandard.pointer_ne_zero 0 s' rfl), fun hnot => absurd ⟨s', rfl⟩ hnot⟩
    | throws s' =>
      rw [hfailure] at h
      cases h
      exact ⟨by simp, fun _ => .thrown hcall hfailure⟩
    | doesNotReturn =>
      rw [hfailure] at h
      cases h
      exact ⟨by simp, fun _ => .notReturned hcall hfailure⟩
  · rw [if_neg hret] at h
    cases h
    refine ⟨?_, fun _ => .served hcall hret⟩
    rintro - ⟨_, a', mem', handler, s'', hcall', -, -⟩
    cases hcall.symm.trans hcall'
    exact hret rfl

/-- Both operators, on every outcome: as the standard has them exactly when no handler has returned. -/
theorem operatorNew_standard_iff (A : AllocatorType) (answers : CallAnswers) (thread size alignment : Nat)
    (newHandler : NewHandler ω) (s : NewState ω) :
    (∀ out, operatorNew A answers thread size newHandler s = some out →
      (StandardNew (fun answers => ScalableAllocator.allocate A answers thread size) newHandler s out ↔
        ¬ HandlerReturns (ScalableAllocator.allocate A answers thread size) newHandler s)) ∧
    (∀ out, operatorNewAligned A answers thread size alignment newHandler s = some out →
      (StandardNew (fun answers => ScalableAllocator.allocateAligned A answers thread size alignment) newHandler s out ↔
        ¬ HandlerReturns (ScalableAllocator.allocateAligned A answers thread size alignment) newHandler s)) :=
  ⟨fun _ h => operatorNewFrom_standard_iff h, fun _ h => operatorNewFrom_standard_iff h⟩

end

/-- The allocator of one thread, with no handler installed. -/
theorem operatorNew_standard_of_served : ∃ (s : NewState Unit) (out : NewOutcome Unit),
    operatorNew oneThreadAllocator oneThreadAnswers 7 16 (fun _ => none) s = some out ∧
    StandardNew (fun answers => ScalableAllocator.allocate oneThreadAllocator answers 7 16) (fun _ => none) s out := by
  have hcall : createOneThread.bind (fun r =>
      (ScalableAllocator.allocate oneThreadAllocator oneThreadAnswers 7 16 r.2.1 r.2.2).map fun c =>
        decide (c.1 ≠ 0)) = some true := by decide +kernel
  obtain ⟨⟨ok, a, mem⟩, -, hcall⟩ := Option.bind_eq_some_iff.mp hcall
  obtain ⟨⟨ret, central, a', mem'⟩, hcall, hret⟩ := Option.map_eq_some_iff.mp hcall
  have hnew : operatorNew oneThreadAllocator oneThreadAnswers 7 16 (fun _ => none) ⟨(), a, mem⟩ =
      some (.pointer ret ⟨(), a', mem'⟩) := by
    rw [operatorNew, operatorNewFrom, hcall]
    exact if_neg (of_decide_eq_true hret)
  refine ⟨_, _, hnew, ((operatorNew_standard_iff oneThreadAllocator oneThreadAnswers 7 16 0 _ _).1 _ hnew).mpr ?_⟩
  rintro ⟨_, _, _, handler, _, -, hinstalled, -⟩
  cases hinstalled

/-- The handler returns without having freed anything, and the operator returns null. -/
theorem operatorNew_returns_null : ∃ s s' : NewState Unit,
    operatorNew oneThreadAllocator exhaustedAnswers 7 (2^40) (fun _ => some .returns) s = some (.pointer 0 s') ∧
    ¬ StandardNew (fun answers => ScalableAllocator.allocate oneThreadAllocator answers 7 (2^40))
      (fun _ => some .returns) s (.pointer 0 s') := by
  have hcall : createOneThread.bind (fun r =>
      (ScalableAllocator.allocate oneThreadAllocator exhaustedAnswers 7 (2^40) r.2.1 r.2.2).map (·.1)) = some 0 := by
    decide +kernel
  obtain ⟨⟨ok, a, mem⟩, -, hcall⟩ := Option.bind_eq_some_iff.mp hcall
  obtain ⟨⟨ret, central, a', mem'⟩, hcall, rfl⟩ := Option.map_eq_some_iff.mp hcall
  refine ⟨⟨(), a, mem⟩, ⟨(), a', mem'⟩, ?_, fun hstandard => hstandard.pointer_ne_zero 0 _ rfl rfl⟩
  rw [operatorNew, operatorNewFrom, hcall]
  rfl

end Metamalloc.Allocator
