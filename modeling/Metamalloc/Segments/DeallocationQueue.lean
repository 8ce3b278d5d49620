import Metamalloc.Segments.SegmentInvariant

/-! The queue behind a thread-local segment: a stack of pointers, spread over a doubly
linked chain of pages. Every call runs under the lock of the queue and is one step. -/
namespace Metamalloc.Segments
open Library.Word64 Library.ByteMemory Library.LinkedList

namespace PointerPage
def pointerCapacity : Nat := 8190

def word (m : Mem) (page k : Nat) : Nat := read64 m (page + 8 * k)
def setWord (m : Mem) (page k value : Nat) : Mem := write64 m (page + 8 * k) value

def getNext (m : Mem) (page : Nat) : Nat := word m page 0
def getPrev (m : Mem) (page : Nat) : Nat := word m page 1
def getPointer (m : Mem) (page i : Nat) : Nat := word m page (2 + i)

def setNext (m : Mem) (page value : Nat) : Mem := setWord m page 0 value
def setPrev (m : Mem) (page value : Nat) : Mem := setWord m page 1 value
def setPointer (m : Mem) (page i value : Nat) : Mem := setWord m page (2 + i) value

def pointers (m : Mem) (count page : Nat) : List Nat := (List.range count).map (getPointer m page)

end PointerPage

open PointerPage

structure DeallocationQueue where
  head : Nat := 0
  activePage : Nat := 0
  activePageUsedCount : Nat := 0

namespace DeallocationQueue

/-- The loop of `create`. Its iterator stays at the first page. -/
def linkInitialPages (buffer count : Nat) (m : Mem) : Mem :=
  (List.range count).foldl (fun m i =>
    if i + 1 < count then
      let next := add64 buffer (mul64 (i + 1) pointerPageSize)
      setPrev (setNext m buffer next) next buffer
    else setNext m buffer 0) m

/-- The memory comes from the allocator, or from the caller when the external buffer is not null. -/
def create (allocate : Nat → Nat) (initialPointerPageCount externalBuffer : Nat)
    (q : DeallocationQueue) (m : Mem) : Bool × DeallocationQueue × Mem :=
  if initialPointerPageCount = 0 then (false, q, m)
  else
    let size := mul64 initialPointerPageCount pointerPageSize
    let buffer := if externalBuffer = 0 then allocate size else externalBuffer
    if buffer = 0 then (false, q, m)
    else
      let m := setPrev (setNext (fill m buffer size 0) buffer 0) buffer 0
      (true, { q with head := buffer, activePage := buffer },
        linkInitialPages buffer initialPointerPageCount m)

/-- A new page is the allocator's answer, used only when the chain has no further page; null is followed. -/
def push (newPage pointer : Nat) (q : DeallocationQueue) (m : Mem) : Option (DeallocationQueue × Mem) :=
  let store (q : DeallocationQueue) (m : Mem) :=
    ({ q with activePageUsedCount := q.activePageUsedCount + 1 },
      setPointer m q.activePage q.activePageUsedCount pointer)
  if q.activePageUsedCount = pointerCapacity then
    if getNext m q.activePage = 0 then
      if newPage = 0 then none
      else
        let m := setNext m newPage 0
        let m := setNext m q.activePage newPage
        let m := setPrev m newPage q.activePage
        some (store { q with activePage := newPage, activePageUsedCount := 0 } m)
    else some (store { q with activePage := getNext m q.activePage, activePageUsedCount := 0 } m)
  else some (store q m)

/-- Null when the queue is empty. -/
def pop (q : DeallocationQueue) (m : Mem) : Nat × DeallocationQueue :=
  let take (q : DeallocationQueue) :=
    (getPointer m q.activePage (q.activePageUsedCount - 1),
      { q with activePageUsedCount := q.activePageUsedCount - 1 })
  if q.activePageUsedCount = 0 then
    if q.head = q.activePage then (0, q)
    else take { q with activePage := getPrev m q.activePage, activePageUsedCount := pointerCapacity }
  else take q

end DeallocationQueue

section
variable {m : Mem} {page page' k k' v : Nat}

theorem word_setWord_same (hv : v < 2^64) : word (setWord m page k v) page k = v :=
  read64_write64_same hv

theorem word_setWord_of_apart (hk : k < 8192) (hk' : k' < 8192)
    (h : PagesApart pointerPageSize page' page) :
    word (setWord m page k v) page' k' = word m page' k' := by
  unfold PagesApart pointerPageSize at h
  apply read64_write64_of_disjoint
  omega

theorem word_setWord_of_ne (h : k' ≠ k) : word (setWord m page k v) page k' = word m page k' := by
  apply read64_write64_of_disjoint
  omega

theorem pointers_setWord_of_apart {n : Nat} (hn : n ≤ pointerCapacity) (hk : k < 8192)
    (h : PagesApart pointerPageSize page' page) :
    pointers (setWord m page k v) n page' = pointers m n page' := by
  apply List.map_congr_left
  intro i hi
  unfold pointerCapacity at hn
  have hi := List.mem_range.mp hi
  exact word_setWord_of_apart hk (by omega) h

theorem pointers_succ (n : Nat) : pointers m (n + 1) page = pointers m n page ++ [getPointer m page n] := by
  rw [pointers, List.range_succ, List.map_append]
  rfl

theorem pointers_setPointer (n : Nat) : pointers (setPointer m page n v) n page = pointers m n page := by
  apply List.map_congr_left
  intro i hi
  have hi := List.mem_range.mp hi
  exact word_setWord_of_ne (by omega)

end

namespace DeallocationQueue

/-- The pages of the chain: the ones in front of the active page are full, the ones behind
it are not in use. -/
structure Chain (q : DeallocationQueue) (m : Mem) (full unused : List Nat) : Prop where
  first : (full ++ [q.activePage]).head? = some q.head
  links : Links (getNext m) (getPrev m) (full ++ q.activePage :: unused)
  last : ∀ a, (q.activePage :: unused).getLast? = some a → getNext m a = 0
  apart : (full ++ q.activePage :: unused).Pairwise (PagesApart pointerPageSize)
  inside : ∀ a ∈ full ++ q.activePage :: unused, a ≠ 0 ∧ a + pointerPageSize ≤ 2^64
  used : q.activePageUsedCount ≤ pointerCapacity

/-- The pointers in the queue, the next one to be popped first. -/
def contents (q : DeallocationQueue) (m : Mem) (full : List Nat) : List Nat :=
  (full.flatMap (pointers m pointerCapacity) ++ pointers m q.activePageUsedCount q.activePage).reverse

def Represents (q : DeallocationQueue) (m : Mem) (l : List Nat) : Prop :=
  ∃ full unused, Chain q m full unused ∧ l = contents q m full

section
variable {q : DeallocationQueue} {m : Mem} {full unused : List Nat} {a b i v : Nat}

theorem Chain.apart_of_ne (h : Chain q m full unused) (ha : a ∈ full ++ q.activePage :: unused)
    (hb : b ∈ full ++ q.activePage :: unused) (hne : a ≠ b) : PagesApart pointerPageSize a b := by
  have hsymm : Std.Symm (PagesApart pointerPageSize) := ⟨fun _ _ => PagesApart.symm⟩
  exact h.apart.forall ha hb hne

theorem Chain.activePage_mem (h : Chain q m full unused) :
    q.activePage ∈ full ++ q.activePage :: unused ∧ q.activePage ∉ full ++ unused := by
  refine ⟨by simp, fun hmem => ?_⟩
  have hself : PagesApart pointerPageSize q.activePage q.activePage := by
    have hapart := h.apart
    rw [List.pairwise_append, List.pairwise_cons] at hapart
    rcases List.mem_append.mp hmem with hfull | hunused
    · exact hapart.2.2 _ hfull _ List.mem_cons_self
    · exact hapart.2.1.1 _ hunused
  unfold PagesApart pointerPageSize at hself
  omega

theorem Chain.setPointer (h : Chain q m full unused) (hi : i < pointerCapacity) :
    Chain q (setPointer m q.activePage i v) full unused := by
  have hword : ∀ a ∈ full ++ q.activePage :: unused, ∀ k < 2,
      word (PointerPage.setPointer m q.activePage i v) a k = word m a k := by
    intro a ha k hk
    unfold pointerCapacity at hi
    by_cases he : a = q.activePage
    · rw [he]
      exact word_setWord_of_ne (by omega)
    · exact word_setWord_of_apart (by omega) (by omega)
        (h.apart_of_ne ha h.activePage_mem.1 he)
  refine ⟨h.first, h.links.congr ?_ ?_, ?_, h.apart, h.inside, h.used⟩
  · intro a ha
    exact hword a (List.mem_of_mem_dropLast ha) 0 (by decide)
  · intro a ha
    exact hword a (List.mem_of_mem_tail ha) 1 (by decide)
  · intro a ha
    exact (hword a (List.mem_append_right _ (List.mem_of_getLast? ha)) 0 (by decide)).trans (h.last a ha)

theorem Chain.pointers_full (h : Chain q m full unused) (hi : i < pointerCapacity) :
    full.flatMap (pointers (PointerPage.setPointer m q.activePage i v) pointerCapacity) =
      full.flatMap (pointers m pointerCapacity) := by
  apply List.flatMap_congr
  intro a ha
  unfold pointerCapacity at hi
  have hne : a ≠ q.activePage := by
    rintro rfl
    exact h.activePage_mem.2 (List.mem_append_left _ ha)
  exact pointers_setWord_of_apart le_rfl (by omega)
    (h.apart_of_ne (List.mem_append_left _ ha) h.activePage_mem.1 hne)

theorem Chain.stored (h : Chain q m full unused) (hused : q.activePageUsedCount < pointerCapacity) :
    Chain { q with activePageUsedCount := q.activePageUsedCount + 1 }
      (PointerPage.setPointer m q.activePage q.activePageUsedCount v) full unused := by
  have hchain := h.setPointer (v := v) hused
  exact ⟨hchain.first, hchain.links, hchain.last, hchain.apart, hchain.inside, hused⟩

theorem Chain.store (h : Chain q m full unused) (hused : q.activePageUsedCount < pointerCapacity)
    (hv : v < 2^64) :
    Represents { q with activePageUsedCount := q.activePageUsedCount + 1 }
      (PointerPage.setPointer m q.activePage q.activePageUsedCount v) (v :: contents q m full) := by
  refine ⟨full, unused, h.stored hused, ?_⟩
  have hpointer : getPointer (PointerPage.setPointer m q.activePage q.activePageUsedCount v) q.activePage
      q.activePageUsedCount = v := word_setWord_same hv
  rw [contents, contents, h.pointers_full hused, pointers_succ, pointers_setPointer, hpointer]
  simp

theorem Chain.advance (h : Chain q m full (b :: unused)) (hused : q.activePageUsedCount = pointerCapacity) :
    Chain { q with activePage := b, activePageUsedCount := 0 } m (full ++ [q.activePage]) unused ∧
      contents { q with activePage := b, activePageUsedCount := 0 } m (full ++ [q.activePage]) =
        contents q m full := by
  have hpages : full ++ q.activePage :: b :: unused = full ++ [q.activePage] ++ b :: unused := by simp
  refine ⟨⟨?_, hpages ▸ h.links, ?_, hpages ▸ h.apart, hpages ▸ h.inside, Nat.zero_le _⟩, ?_⟩
  · rw [← h.first]
    cases full <;> rfl
  · intro a ha
    apply h.last a
    rw [List.getLast?_cons_cons]
    exact ha
  · rw [contents, contents, hused, List.flatMap_append]
    simp [pointers]

theorem Chain.retreat (h : Chain q m (full ++ [b]) unused) (hused : q.activePageUsedCount = 0) :
    getPrev m q.activePage = b ∧
      Chain { q with activePage := b, activePageUsedCount := pointerCapacity } m full
        (q.activePage :: unused) ∧
      contents { q with activePage := b, activePageUsedCount := pointerCapacity } m full =
        contents q m (full ++ [b]) := by
  have hpages : full ++ [b] ++ q.activePage :: unused = full ++ b :: q.activePage :: unused := by simp
  have hlinks := h.links
  rw [hpages] at hlinks
  refine ⟨(links_append.mp hlinks).2.2.1, ⟨?_, hlinks, ?_, hpages ▸ h.apart, hpages ▸ h.inside, le_rfl⟩, ?_⟩
  · rw [← h.first]
    cases full <;> rfl
  · intro a ha
    apply h.last a
    rw [List.getLast?_cons_cons] at ha
    exact ha
  · rw [contents, contents, hused, List.flatMap_append]
    simp [pointers]

theorem Chain.extend (h : Chain q m full []) (hfresh : b ≠ 0 ∧ b + pointerPageSize ≤ 2^64)
    (hapart : ∀ a ∈ full ++ [q.activePage], PagesApart pointerPageSize a b) :
    let m' := setPrev (setNext (setNext m b 0) q.activePage b) b q.activePage
    Chain q m' full [b] ∧ contents q m' full = contents q m full ∧ getNext m' q.activePage = b := by
  intro m'
  have hactive := h.activePage_mem
  have hab : PagesApart pointerPageSize q.activePage b := hapart _ (by simp)
  have hb64 : b < 2^64 := by
    have := hfresh.2
    unfold pointerPageSize at this
    omega
  have ha64 : q.activePage < 2^64 := by
    have := (h.inside _ hactive.1).2
    unfold pointerPageSize at this
    omega
  -- Only the next link of the active page changes on the pages of the chain.
  have hword : ∀ a ∈ full ++ [q.activePage], ∀ k < 8192, (a ≠ q.activePage ∨ k ≠ 0) →
      word m' a k = word m a k := by
    intro a ha k hk hne
    have h₁ : word m' a k = word (setNext (setNext m b 0) q.activePage b) a k :=
      word_setWord_of_apart (by decide) hk (hapart a ha)
    have h₂ : word (setNext (setNext m b 0) q.activePage b) a k = word (setNext m b 0) a k := by
      by_cases he : a = q.activePage
      · rw [he]
        exact word_setWord_of_ne (hne.resolve_left (not_not.mpr he))
      · exact word_setWord_of_apart (by decide) hk (h.apart_of_ne ha hactive.1 he)
    exact h₁.trans (h₂.trans (word_setWord_of_apart (by decide) hk (hapart a ha)))
  have hnext : getNext m' q.activePage = b :=
    (word_setWord_of_apart (by decide) (by decide) hab).trans (word_setWord_same hb64)
  have hprev : getPrev m' b = q.activePage := word_setWord_same ha64
  have hnull : getNext m' b = 0 :=
    (word_setWord_of_ne (by decide)).trans
      ((word_setWord_of_apart (by decide) (by decide) hab.symm).trans (word_setWord_same (by decide)))
  have hfull : ∀ a ∈ full, a ≠ q.activePage := by
    rintro a ha rfl
    exact hactive.2 (List.mem_append_left _ ha)
  refine ⟨⟨h.first, ?_, ?_, ?_, ?_, h.used⟩, ?_, hnext⟩
  · refine links_append.mpr ⟨h.links.congr ?_ ?_, hnext, hprev, trivial⟩
    · intro a ha
      rw [List.dropLast_concat] at ha
      exact hword a (List.mem_append_left _ ha) 0 (by decide) (.inl (hfull a ha))
    · intro a ha
      exact hword a (List.mem_of_mem_tail ha) 1 (by decide) (.inr (by decide))
  · intro a ha
    obtain rfl : b = a := by simpa using ha
    exact hnull
  · rw [show full ++ [q.activePage, b] = full ++ [q.activePage] ++ [b] by simp, List.pairwise_append]
    refine ⟨h.apart, List.pairwise_singleton _ _, fun a ha c hc => ?_⟩
    rw [List.mem_singleton.mp hc]
    exact hapart a ha
  · intro a ha
    rw [show full ++ [q.activePage, b] = full ++ [q.activePage] ++ [b] by simp, List.mem_append] at ha
    rcases ha with ha | ha
    · exact h.inside a ha
    · rw [List.mem_singleton.mp ha]
      exact hfresh
  · have hpointers : ∀ a ∈ full ++ [q.activePage], ∀ n ≤ pointerCapacity,
        pointers m' n a = pointers m n a := by
      intro a ha n hn
      apply List.map_congr_left
      intro i hi
      have hi := List.mem_range.mp hi
      unfold pointerCapacity at hn
      exact hword a ha _ (by omega) (.inr (by omega))
    rw [contents, contents, hpointers _ (by simp) _ h.used, List.flatMap_congr fun a ha =>
      hpointers a (List.mem_append_left _ ha) _ le_rfl]

def Lists (q : DeallocationQueue) (m : Mem) (l : List Nat) : Prop :=
  Path (getNext m) q.head l 0 ∧ 0 ∉ l

/-- What the allocator promises for a new page. -/
structure FreshPointerPage (q : DeallocationQueue) (m : Mem) (newPage : Nat) : Prop where
  ne_zero : newPage ≠ 0
  inside : newPage + pointerPageSize ≤ 2^64
  apart : ∀ l, Lists q m l → ∀ a ∈ l, PagesApart pointerPageSize a newPage

theorem Chain.lists (h : Chain q m full unused) : Lists q m (full ++ q.activePage :: unused) := by
  refine ⟨?_, fun h0 => (h.inside 0 h0).1 rfl⟩
  obtain ⟨c, rest, hrest⟩ : ∃ c rest, full ++ q.activePage :: unused = c :: rest :=
    ⟨_, _, (List.cons_head_tail (by simp)).symm⟩
  have hhead : q.head = c := by
    have hfirst := h.first
    have hc := congrArg List.head? hrest
    cases full <;> simp_all
  have hlinks := h.links
  have hlast : ∀ a, (full ++ q.activePage :: unused).getLast? = some a → getNext m a = 0 := by
    intro a ha
    apply h.last a
    rw [List.getLast?_append_cons] at ha
    exact ha
  rw [hrest] at hlinks hlast ⊢
  rw [hhead]
  clear hrest hhead
  induction rest generalizing c with
  | nil => exact ⟨rfl, hlast c rfl⟩
  | cons d rest ih =>
    refine ⟨rfl, ?_⟩
    rw [hlinks.1]
    exact ih d hlinks.2.2 fun a ha => hlast a (by rwa [List.getLast?_cons_cons])

variable {l : List Nat} {newPage pointer : Nat}

theorem Represents.push (h : Represents q m l) (hp : pointer < 2^64) (hn : FreshPointerPage q m newPage) :
    ∃ q' m', push newPage pointer q m = some (q', m') ∧ Represents q' m' (pointer :: l) := by
  obtain ⟨full, unused, hchain, rfl⟩ := h
  unfold DeallocationQueue.push
  split
  · rename_i hused
    cases unused with
    | nil =>
      have hnext : getNext m q.activePage = 0 := hchain.last _ rfl
      rw [if_pos hnext, if_neg hn.ne_zero]
      refine ⟨_, _, rfl, ?_⟩
      obtain ⟨hextended, hcontents, _⟩ := hchain.extend ⟨hn.ne_zero, hn.inside⟩ (hn.apart _ hchain.lists)
      obtain ⟨hadvanced, hsame⟩ := hextended.advance hused
      rw [← hcontents, ← hsame]
      exact hadvanced.store (show 0 < pointerCapacity by decide) hp
    | cons b unused =>
      have hnext : getNext m q.activePage = b := (links_append.mp hchain.links).2.1
      have hb : b ≠ 0 := (hchain.inside b (by simp)).1
      rw [hnext, if_neg hb]
      refine ⟨_, _, rfl, ?_⟩
      obtain ⟨hadvanced, hsame⟩ := hchain.advance hused
      rw [← hsame]
      exact hadvanced.store (show 0 < pointerCapacity by decide) hp
  · rename_i hused
    exact ⟨_, _, rfl, hchain.store (lt_of_le_of_ne hchain.used hused) hp⟩

theorem Chain.take (h : Chain q m full unused) (hused : q.activePageUsedCount ≠ 0) :
    ∃ l, contents q m full = getPointer m q.activePage (q.activePageUsedCount - 1) :: l ∧
      Represents { q with activePageUsedCount := q.activePageUsedCount - 1 } m l := by
  refine ⟨contents { q with activePageUsedCount := q.activePageUsedCount - 1 } m full, ?_, full, unused,
    ⟨h.first, h.links, h.last, h.apart, h.inside, (Nat.sub_le _ _).trans h.used⟩, rfl⟩
  obtain ⟨n, hn⟩ := Nat.exists_eq_succ_of_ne_zero hused
  rw [contents, contents, hn, pointers_succ, Nat.succ_sub_one]
  simp

/-- An empty queue answers null, any other queue the last pointer that was pushed. -/
theorem Represents.pop (h : Represents q m l) :
    (pop q m).1 = l.headD 0 ∧ Represents (pop q m).2 m l.tail := by
  obtain ⟨full, unused, hchain, rfl⟩ := h
  unfold DeallocationQueue.pop
  split
  · rename_i hused
    rcases List.eq_nil_or_concat full with rfl | ⟨before, b, rfl⟩
    · have hhead : q.head = q.activePage := by simpa using hchain.first.symm
      rw [if_pos hhead, contents, hused]
      exact ⟨rfl, [], unused, hchain, by rw [contents, hused]; rfl⟩
    · rw [List.concat_eq_append] at hchain ⊢
      have hhead : q.head ≠ q.activePage := by
        intro he
        refine hchain.activePage_mem.2 (List.mem_append_left _ ?_)
        rw [← he]
        have hfirst := hchain.first
        cases before <;> simp_all
      obtain ⟨hprev, hretreated, hsame⟩ := hchain.retreat hused
      rw [if_neg hhead, ← hsame, hprev]
      obtain ⟨l, hl, hrest⟩ := hretreated.take (show pointerCapacity ≠ 0 by decide)
      rw [hl]
      exact ⟨rfl, hrest⟩
  · rename_i hused
    obtain ⟨l, hl, hrest⟩ := hchain.take hused
    rw [hl]
    exact ⟨rfl, hrest⟩

/-- The last iteration of the loop undoes the links of the ones before it. -/
theorem getNext_linkInitialPages {buffer count : Nat} (hcount : count ≠ 0) :
    getNext (linkInitialPages buffer count m) buffer = 0 := by
  obtain ⟨n, rfl⟩ := Nat.exists_eq_succ_of_ne_zero hcount
  rw [linkInitialPages, List.range_succ, List.foldl_append, List.foldl_cons, List.foldl_nil,
    if_neg (lt_irrefl _)]
  exact word_setWord_same (by decide)

/-- A new queue is a chain of one page, however many pages there is memory for. -/
theorem create_chain {allocate : Nat → Nat} {count externalBuffer : Nat} {q' : DeallocationQueue}
    {m' : Mem} (hinside : q'.head + pointerPageSize ≤ 2^64)
    (h : create allocate count externalBuffer {} m = (true, q', m')) :
    Chain q' m' [] [] ∧ q'.activePageUsedCount = 0 ∧ q'.activePage = q'.head := by
  unfold create at h
  split at h
  · cases h
  · rename_i hcount
    dsimp only at h
    generalize (if externalBuffer = 0 then allocate (mul64 count pointerPageSize)
      else externalBuffer) = buffer at h
    split at h
    · cases h
    · rename_i hbuffer
      cases h
      refine ⟨⟨rfl, trivial, ?_, by simp, ?_, Nat.zero_le _⟩, rfl, rfl⟩
      · intro a ha
        obtain rfl := Option.some.inj ha
        exact getNext_linkInitialPages hcount
      · intro a ha
        rw [List.mem_singleton.mp ha]
        exact ⟨hbuffer, hinside⟩

theorem create_represents {allocate : Nat → Nat} {count externalBuffer : Nat} {q' : DeallocationQueue}
    {m' : Mem} (hinside : q'.head + pointerPageSize ≤ 2^64)
    (h : create allocate count externalBuffer {} m = (true, q', m')) : Represents q' m' [] := by
  obtain ⟨hchain, hused, _⟩ := create_chain hinside h
  exact ⟨[], [], hchain, by rw [contents, hused]; rfl⟩

theorem Represents.congr {m' : Mem} (h : Represents q m l)
    (hm : ∀ pages, Lists q m pages → ∀ a ∈ pages, AgreeOn m m' a (a + pointerPageSize)) :
    Represents q m' l := by
  obtain ⟨full, unused, hchain, rfl⟩ := h
  have hword : ∀ a ∈ full ++ q.activePage :: unused, ∀ k < 8192, word m' a k = word m a k := by
    intro a ha k hk
    apply AgreeOn.read64_eq
    apply (hm _ hchain.lists a ha).mono (by omega)
    unfold pointerPageSize
    omega
  have hpointers : ∀ a ∈ full ++ q.activePage :: unused, ∀ n ≤ pointerCapacity,
      pointers m' n a = pointers m n a := by
    intro a ha n hn
    apply List.map_congr_left
    intro i hi
    have hi := List.mem_range.mp hi
    unfold pointerCapacity at hn
    exact hword a ha _ (by omega)
  refine ⟨full, unused, ⟨hchain.first, hchain.links.congr ?_ ?_, ?_, hchain.apart, hchain.inside,
    hchain.used⟩, ?_⟩
  · intro a ha
    exact hword a (List.mem_of_mem_dropLast ha) 0 (by decide)
  · intro a ha
    exact hword a (List.mem_of_mem_tail ha) 1 (by decide)
  · intro a ha
    exact (hword a (List.mem_append_right _ (List.mem_of_getLast? ha)) 0 (by decide)).trans
      (hchain.last a ha)
  · rw [contents, contents, hpointers _ (by simp) _ hchain.used, List.flatMap_congr fun a ha =>
      hpointers a (List.mem_append_left _ ha) _ le_rfl]

end

theorem pushDeallocationQueue_refines {q : DeallocationQueue} {m : Mem} {s : Segment} {newPage ptr : Nat}
    (h : Represents q m s.deallocationQueue) (hp : ptr < 2^64) (hn : FreshPointerPage q m newPage) :
    ∃ q' m', push newPage ptr q m = some (q', m') ∧
      Represents q' m' (Segment.pushDeallocationQueue ptr s).deallocationQueue :=
  h.push hp hn

theorem popDeallocationQueue_refines {q : DeallocationQueue} {m : Mem} {s : Segment}
    (h : Represents q m s.deallocationQueue) :
    (pop q m).1 = (Segment.popDeallocationQueue s).1 ∧
      Represents (pop q m).2 m (Segment.popDeallocationQueue s).2.deallocationQueue := by
  obtain ⟨hret, hrest⟩ := h.pop
  unfold Segment.popDeallocationQueue
  cases hq : s.deallocationQueue with
  | nil =>
    rw [hq] at hret hrest
    refine ⟨hret, ?_⟩
    change Represents _ m s.deallocationQueue
    rw [hq]
    exact hrest
  | cons ptr rest =>
    rw [hq] at hret hrest
    exact ⟨hret, hrest⟩

inductive Event where
  | push (pointer : Nat)
  | pop (result : Nat)
  /-- A byte outside the pages of the queue was written. -/
  | store
  deriving DecidableEq

def Event.pushed : Event → Option Nat
  | .push pointer => some pointer
  | _ => none

/-- A pop that returned null has taken nothing. -/
def Event.popped : Event → Option Nat
  | .pop result => if result = 0 then none else some result
  | _ => none

/-- The pointers pushed and not yet popped, the most recent one first, after a history whose
last event comes first. -/
def unpopped : List Event → List Nat
  | [] => []
  | .push pointer :: history => pointer :: unpopped history
  | .pop _ :: history => (unpopped history).tail
  | .store :: history => unpopped history

inductive QueueReachable : List Event → DeallocationQueue → Mem → Prop
  | create {allocate : Nat → Nat} {count externalBuffer : Nat} {q : DeallocationQueue} {m m' : Mem}
      (hinside : q.head + pointerPageSize ≤ 2^64)
      (h : DeallocationQueue.create allocate count externalBuffer {} m = (true, q, m')) :
      QueueReachable [] q m'
  | push {history : List Event} {q q' : DeallocationQueue} {m m' : Mem} {newPage pointer : Nat}
      (h : QueueReachable history q m) (h0 : pointer ≠ 0) (hp : pointer < 2^64)
      (hn : FreshPointerPage q m newPage)
      (hpush : DeallocationQueue.push newPage pointer q m = some (q', m')) :
      QueueReachable (.push pointer :: history) q' m'
  | pop {history : List Event} {q : DeallocationQueue} {m : Mem} (h : QueueReachable history q m) :
      QueueReachable (.pop (DeallocationQueue.pop q m).1 :: history) (DeallocationQueue.pop q m).2 m
  | store {history : List Event} {q : DeallocationQueue} {m : Mem} {address : Nat} {value : UInt8}
      (h : QueueReachable history q m)
      (hout : ∀ l, Lists q m l → ∀ a ∈ l, address < a ∨ a + pointerPageSize ≤ address) :
      QueueReachable (.store :: history) q (Function.update m address value)

section
variable {history : List Event} {q : DeallocationQueue} {m : Mem}

theorem QueueReachable.represents (h : QueueReachable history q m) : Represents q m (unpopped history) := by
  induction h with
  | create hinside h => exact create_represents hinside h
  | push _ _ hp hn hpush ih =>
    obtain ⟨_, _, heq, hrep⟩ := ih.push hp hn
    cases hpush.symm.trans heq
    exact hrep
  | pop _ ih => exact ih.pop.2
  | store _ hout ih =>
    refine ih.congr fun l hl a ha x hlo hhi => Function.update_of_ne ?_ _ _
    have := hout l hl a ha
    omega

theorem QueueReachable.unpopped_ne_zero (h : QueueReachable history q m) : 0 ∉ unpopped history := by
  induction h with
  | create => exact List.not_mem_nil
  | push _ h0 _ _ _ ih => exact List.not_mem_cons_of_ne_of_not_mem h0.symm ih
  | pop _ ih => exact fun hmem => ih (List.mem_of_mem_tail hmem)
  | store _ _ ih => exact ih

/-- Every pointer pushed was popped or is still to be popped, as often as it was pushed. -/
theorem QueueReachable.conserves (h : QueueReachable history q m) :
    (history.filterMap Event.popped ++ unpopped history).Perm (history.filterMap Event.pushed) := by
  induction h with
  | create => exact .nil
  | push _ _ _ _ _ ih =>
    simp only [unpopped, List.filterMap_cons, Event.popped, Event.pushed]
    exact List.perm_middle.trans (ih.cons _)
  | @pop history q m h ih =>
    have hret := h.represents.pop.1
    have h0 := h.unpopped_ne_zero
    simp only [unpopped, List.filterMap_cons, Event.popped, Event.pushed]
    cases hu : unpopped history with
    | nil =>
      rw [hu] at hret ih
      simpa [hret] using ih
    | cons pointer rest =>
      rw [hu] at hret ih h0
      have hne : pointer ≠ 0 := fun he => h0 (by simp [he])
      simp only [hret, List.headD_cons, hne, ↓reduceIte, List.tail_cons, List.cons_append]
      exact List.perm_middle.symm.trans ih
  | store _ _ ih => exact ih

/-- In every run of pushes and pops the queue is a stack: no pointer is lost, duplicated or
reordered, over any number of pages. -/
theorem queue_is_lossless_stack (h : QueueReachable history q m) :
    ((pop q m).1 = 0 ↔
      (history.filterMap Event.popped).length = (history.filterMap Event.pushed).length) ∧
    ((pop q m).1 ≠ 0 → (unpopped history).head? = some (pop q m).1) ∧
    (history.filterMap Event.popped ++ unpopped history).Perm (history.filterMap Event.pushed) ∧
    ∀ newPage pointer, FreshPointerPage q m newPage → pointer < 2^64 → (push newPage pointer q m).isSome := by
  have hrep := h.represents
  have hret := hrep.pop.1
  have h0 := h.unpopped_ne_zero
  have hlength := h.conserves.length_eq
  rw [List.length_append] at hlength
  refine ⟨?_, ?_, h.conserves, fun newPage pointer hn hp => ?_⟩
  · rw [hret, ← hlength]
    cases hu : unpopped history with
    | nil => simp
    | cons pointer rest =>
      rw [hu] at h0
      have hne : pointer ≠ 0 := fun he => h0 (by simp [he])
      simp [hne]
  · intro hne
    rw [hret] at hne ⊢
    cases hu : unpopped history with
    | nil => simp [hu] at hne
    | cons pointer rest => rfl
  · obtain ⟨_, _, hpush, _⟩ := hrep.push hp hn
    rw [hpush]
    rfl

theorem freshPointerPage_of_last {newPage : Nat} (hlast : getNext m q.head = 0)
    (hpage : newPage ≠ 0 ∧ newPage + pointerPageSize ≤ 2^64)
    (hapart : PagesApart pointerPageSize q.head newPage) : FreshPointerPage q m newPage := by
  refine ⟨hpage.1, hpage.2, fun l ⟨hpath, h0⟩ a ha => ?_⟩
  cases l with
  | nil => cases ha
  | cons b l =>
    obtain ⟨rfl, hpath⟩ := hpath
    rw [hlast] at hpath
    rw [hpath.eq_of_end (fun hmem => h0 (List.mem_cons_of_mem _ hmem)), List.mem_singleton] at ha
    rw [ha]
    exact hapart

end

theorem queue_is_lossless_stack_of_two :
    ∃ q m, QueueReachable [.pop 16, .push 16, .push 8] q m ∧ (pop q m).1 = 8 ∧
      (unpopped [.pop 16, .push 16, .push 8]).head? = some (pop q m).1 := by
  have hfresh : ∀ q m, q.head = 65536 → getNext m q.head = 0 → FreshPointerPage q m 1048576 := by
    intro q m hhead hlast
    exact freshPointerPage_of_last hlast (by decide) (.inl (by rw [hhead]; decide))
  have h₀ := @QueueReachable.create (fun _ => 65536) 2 0 _ (fun _ => 0) _ (by decide) rfl
  have h₁ := @QueueReachable.push _ _ _ _ _ 1048576 8 h₀ (by decide) (by decide)
    (hfresh _ _ rfl (by decide +kernel)) rfl
  have h₂ := @QueueReachable.push _ _ _ _ _ 1048576 16 h₁ (by decide) (by decide)
    (hfresh _ _ rfl (by decide +kernel)) rfl
  have h₃ := h₂.pop
  have hlossless := queue_is_lossless_stack h₃
  refine ⟨_, _, h₃, by decide +kernel, ?_⟩
  exact hlossless.2.1 (by decide +kernel)

end DeallocationQueue
end Metamalloc.Segments
