import Metamalloc.Segments.DeallocationQueue

/-! The pages a deallocation queue starts with. The loop that links them keeps its iterator at
the first page, so that its last iteration takes the first link back. -/
namespace Metamalloc.Segments
open Library.Word64 Library.ByteMemory Library.LinkedList
open PointerPage

namespace DeallocationQueue

/-- The destructor: the calls of `deallocate`, with the address and the size of each. -/
def destroyPages (m : Mem) : (fuel iter : Nat) → Option (List (Nat × Nat))
  | 0, _ => none
  | fuel+1, iter =>
    if iter = 0 then some []
    else (destroyPages m fuel (getNext m iter)).map ((iter, pointerPageSize) :: ·)

def destroy (q : DeallocationQueue) (m : Mem) : Option (List (Nat × Nat)) := destroyPages m walkLimit q.head

/-- A push asks the allocator for a page. -/
def asksForPage (q : DeallocationQueue) (m : Mem) : Bool :=
  q.activePageUsedCount == pointerCapacity && getNext m q.activePage == 0

/-- Pushes one after the other, each with the page the allocator would give it. The first result
counts the pages the allocator was asked for. -/
def pushAll : List (Nat × Nat) → DeallocationQueue → Mem → Option (Nat × DeallocationQueue × Mem)
  | [], q, m => some (0, q, m)
  | (newPage, pointer) :: rest, q, m =>
    match push newPage pointer q m with
    | none => none
    | some (q', m') => (pushAll rest q' m').map fun r => (r.1 + (asksForPage q m).toNat, r.2)

def initialPages (buffer count : Nat) : List Nat := (List.range count).map fun i => buffer + i * pointerPageSize

/-- The initial pages are all in the queue. -/
structure LinksInitialPages (count : Nat) (q : DeallocationQueue) (m : Mem) : Prop where
  next : Path (getNext m) q.head (initialPages q.head count) 0
  previous : ∀ i, i + 1 < count →
    getPrev m (q.head + (i + 1) * pointerPageSize) = q.head + i * pointerPageSize
  first : getPrev m q.head = 0
  /-- No push asks for a page before the initial ones are full, and all of them are given back once. -/
  pushes : ∀ requests, requests.length ≤ pointerCapacity * count →
    ∃ q' m', pushAll requests q m = some (0, q', m') ∧
      destroy q' m' = some ((initialPages q.head count).map fun a => (a, pointerPageSize))

section
variable {q q' : DeallocationQueue} {m m' : Mem} {l full unused : List Nat} {requests : List (Nat × Nat)}
  {fuel iter count newPage pointer : Nat}

theorem destroyPages_eq (hpath : Path (getNext m) iter l 0) (h0 : 0 ∉ l) (hfuel : l.length < fuel) :
    destroyPages m fuel iter = some (l.map fun a => (a, pointerPageSize)) := by
  induction l generalizing fuel iter with
  | nil =>
    obtain ⟨fuel, rfl⟩ := Nat.exists_eq_succ_of_ne_zero (by omega : fuel ≠ 0)
    rw [destroyPages, if_pos (path_nil.mp hpath)]
    rfl
  | cons a l ih =>
    obtain ⟨fuel, rfl⟩ := Nat.exists_eq_succ_of_ne_zero (by omega : fuel ≠ 0)
    obtain ⟨rfl, hpath⟩ := hpath
    obtain ⟨hne, hl⟩ := List.ne_and_not_mem_of_not_mem_cons h0
    rw [destroyPages, if_neg hne.symm, ih hpath hl (by simpa using hfuel)]
    rfl

/-- The destructor gives back every page of a chain once. -/
theorem Chain.destroy (h : Chain q m full unused) :
    destroy q m = some ((full ++ q.activePage :: unused).map fun a => (a, pointerPageSize)) := by
  obtain ⟨hpath, h0⟩ := h.lists
  refine destroyPages_eq hpath h0 ?_
  have hnodup : (0 :: (full ++ q.activePage :: unused)).Nodup := by
    refine List.nodup_cons.mpr ⟨h0, h.apart.imp fun {a b} hab he => ?_⟩
    subst he
    unfold PagesApart pointerPageSize at hab
    omega
  have haddress : ∀ a ∈ full ++ q.activePage :: unused, a < 2^64 := by
    intro a ha
    have hin := (h.inside a ha).2
    unfold pointerPageSize at hin
    omega
  unfold walkLimit
  exact length_lt_of_nodup hnodup haddress

theorem push_of_room (hroom : q.activePageUsedCount < pointerCapacity) :
    push newPage pointer q m = some ({ q with activePageUsedCount := q.activePageUsedCount + 1 },
        setPointer m q.activePage q.activePageUsedCount pointer) ∧ asksForPage q m = false := by
  have hne : q.activePageUsedCount ≠ pointerCapacity := Nat.ne_of_lt hroom
  refine ⟨?_, ?_⟩
  · rw [push]
    dsimp only
    rw [if_neg hne]
  · simp [asksForPage, hne]

theorem Chain.pushAll (h : Chain q m full unused)
    (hroom : q.activePageUsedCount + requests.length ≤ pointerCapacity) :
    ∃ q' m', pushAll requests q m = some (0, q', m') ∧ Chain q' m' full unused ∧
      q'.activePage = q.activePage := by
  induction requests generalizing q m with
  | nil => exact ⟨q, m, rfl, h, rfl⟩
  | cons request requests ih =>
    obtain ⟨newPage, pointer⟩ := request
    rw [List.length_cons] at hroom
    have hlt : q.activePageUsedCount < pointerCapacity := by omega
    obtain ⟨hpush, hasks⟩ := @push_of_room q m newPage pointer hlt
    have hchain := h.stored (v := pointer) hlt
    obtain ⟨q', m', he, hchain', hactive⟩ := ih hchain (by dsimp only; omega)
    refine ⟨q', m', ?_, hchain', hactive⟩
    rw [DeallocationQueue.pushAll, hpush]
    dsimp only
    rw [he, hasks]
    rfl

theorem getPrev_create {allocate : Nat → Nat} {externalBuffer : Nat}
    (h : create allocate 1 externalBuffer {} m = (true, q, m')) : getPrev m' q.head = 0 := by
  unfold create at h
  rw [if_neg (by decide)] at h
  dsimp only at h
  generalize (if externalBuffer = 0 then allocate (mul64 1 pointerPageSize) else externalBuffer) = buffer at h
  split at h
  · cases h
  · cases h
    exact (word_setWord_of_ne (by decide)).trans (word_setWord_same (by decide))

end

/-- The initial pages are in the queue exactly when there is one of them. -/
theorem create_linksInitialPages_iff {allocate : Nat → Nat} {count externalBuffer : Nat}
    {q : DeallocationQueue} {m m' : Mem} (hroom : q.head + count * pointerPageSize ≤ 2^64)
    (h : create allocate count externalBuffer {} m = (true, q, m')) :
    LinksInitialPages count q m' ↔ count = 1 := by
  have hcount : count ≠ 0 := by
    rintro rfl
    cases h
  have hpage : pointerPageSize ≤ count * pointerPageSize := Nat.le_mul_of_pos_left _ (Nat.pos_of_ne_zero hcount)
  obtain ⟨hchain, hused, hactive⟩ := create_chain (by omega) h
  have hnext : getNext m' q.head = 0 := hchain.last _ (by rw [hactive]; rfl)
  constructor
  · intro hlinks
    by_contra hne
    -- the second page would be behind the first one
    obtain ⟨n, rfl⟩ : ∃ n, count = n + 2 := ⟨count - 2, by omega⟩
    have hpages : initialPages q.head (n + 2) = (q.head + 0 * pointerPageSize) ::
        (q.head + 1 * pointerPageSize) :: (List.range' 2 n).map fun i => q.head + i * pointerPageSize := by
      rw [initialPages, List.range_eq_range', List.range'_succ, List.range'_succ]
      rfl
    have hpath := hlinks.next
    rw [hpages] at hpath
    obtain ⟨_, hsecond, _⟩ := hpath
    rw [Nat.zero_mul, Nat.add_zero, hnext] at hsecond
    unfold pointerPageSize at hsecond
    omega
  · rintro rfl
    have hpages : initialPages q.head 1 = [q.head] := by
      rw [initialPages, List.range_one, List.map_singleton, Nat.zero_mul, Nat.add_zero]
    refine ⟨?_, fun i hi => absurd hi (by omega), getPrev_create h, fun requests hlen => ?_⟩
    · rw [hpages]
      exact ⟨rfl, hnext⟩
    · have hlength : q.activePageUsedCount + requests.length ≤ pointerCapacity := by omega
      obtain ⟨q', m'', he, hchain', hsame⟩ := hchain.pushAll hlength
      refine ⟨q', m'', he, ?_⟩
      rw [hchain'.destroy, hpages, ← hactive, ← hsame]
      rfl

theorem create_at_65536 (count : Nat) (h0 : count ≠ 0) : ∃ q m',
    create (fun _ => 65536) count 0 {} (fun _ => 0) = (true, q, m') ∧ q.head = 65536 ∧ getNext m' 65536 = 0 := by
  rw [create, if_neg h0]
  exact ⟨_, _, rfl, rfl, getNext_linkInitialPages h0⟩

theorem create_linksInitialPages_iff_of_one : ∃ q m',
    create (fun _ => 65536) 1 0 {} (fun _ => 0) = (true, q, m') ∧ (LinksInitialPages 1 q m' ↔ 1 = 1) := by
  obtain ⟨q, m', he, hhead, _⟩ := create_at_65536 1 (by decide)
  exact ⟨q, m', he, create_linksInitialPages_iff (by rw [hhead]; decide) he⟩

/-- Of two pages the second is not linked, and the destructor does not give it back. -/
theorem second_page_not_linked : ∃ q m', create (fun _ => 65536) 2 0 {} (fun _ => 0) = (true, q, m') ∧
    initialPages q.head 2 = [65536, 131072] ∧ getNext m' 65536 = 0 ∧ destroy q m' = some [(65536, 65536)] ∧
    ¬ LinksInitialPages 2 q m' := by
  obtain ⟨q, m', he, hhead, hnext⟩ := create_at_65536 2 (by decide)
  have hpages : initialPages q.head 2 = [65536, 131072] := by
    rw [hhead]
    decide
  refine ⟨q, m', he, hpages, hnext, ?_, fun hlinks => ?_⟩
  · exact destroyPages_eq (l := [65536]) ⟨hhead, hnext⟩ (by decide) (by unfold walkLimit; decide)
  · have hpath := hlinks.next
    rw [hpages] at hpath
    obtain ⟨_, hsecond, _⟩ := hpath
    rw [hnext] at hsecond
    exact absurd hsecond (by decide)

end DeallocationQueue
end Metamalloc.Segments
