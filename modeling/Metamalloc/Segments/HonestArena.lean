import Metamalloc.Segments.RecyclableFlag

/-! Runs over an arena that does no more than an arena has to: what it hands out is unused and
as long as it was asked for. A segment grows by the desired number of pages whichever of its
two requests was granted, so not every answer of such an arena has room for them. -/
namespace Metamalloc.Segments
open Library.Word64 Library.ByteMemory Library.LinkedList Pages

/-- Bytes behind an address that no listed page takes up. -/
structure FreshBytes (T : SegmentType) (c : SegmentConfig) (l : List Nat) (b length : Nat) : Prop where
  inside : b + length < 2^64
  apart : ∀ a ∈ l, a + c.logicalPageSize ≤ b ∨ b + length ≤ a
  aligned : T.bufferAlignedToLogicalPageSize = true → c.logicalPageSize ∣ b

/-- Both answers, where they are not refusals, are fresh for the bytes asked for. -/
structure ArenaHonest (T : SegmentType) (s : Segment) (l : List Nat) (arena : ArenaAnswers)
    (size : Nat) : Prop where
  request : ∀ n m, Segment.calculateQuantities T size s = some (n, m) →
    arena.request (mul64 s.logicalPageSize n) ≠ 0 →
    FreshBytes T s.toSegmentConfig l (arena.request (mul64 s.logicalPageSize n)) (mul64 s.logicalPageSize n)
  retry : ∀ n m, Segment.calculateQuantities T size s = some (n, m) →
    arena.retry (mul64 s.logicalPageSize m) ≠ 0 →
    FreshBytes T s.toSegmentConfig l (arena.retry (mul64 s.logicalPageSize m)) (mul64 s.logicalPageSize m)

/-- A growth is granted by its first request, whose size did not wrap, or not at all. -/
structure GrantedInFull (T : SegmentType) (s : Segment) (arena : ArenaAnswers) (size : Nat) : Prop where
  no_wrap : ∀ n m, Segment.calculateQuantities T size s = some (n, m) →
    arena.request (mul64 s.logicalPageSize n) ≠ 0 → s.logicalPageSize * n < 2^64
  no_retry : ∀ n m, Segment.calculateQuantities T size s = some (n, m) → m < n →
    arena.request (mul64 s.logicalPageSize n) = 0 →
    arena.retry (mul64 s.logicalPageSize m) = 0

def System.HonestAnswersFor (T : SegmentType) (sys : System) (size : Nat) (arena : ArenaAnswers) : Prop :=
  T.concurrency ≠ .threadLocal → ∃ l, sys.Lists l ∧ ArenaHonest T sys.segment l arena size

/-- What the threads may do, next to such an arena. -/
def System.MayDo (T : SegmentType) (sys : System) : Action → Prop
  | .allocate size arena =>
    T.concurrency ≠ .threadLocal ∧ sys.control = .idle ∧ sys.HonestAnswersFor T size arena
  | .finish arena => ∃ goal ret, sys.control = .drained goal ret ∧
      ∀ size, goal = .allocate size → sys.HonestAnswersFor T size arena
  | action => sys.Allowed T action

/-- Wherever the step can grow the segment, the growth is granted in full. -/
def GrowsInFull (T : SegmentType) (sys : System) : Action → Prop
  | .allocate size arena => GrantedInFull T sys.segment arena size
  | .finish arena => T.concurrency ≠ .threadLocal →
      ∀ size ret, sys.control = .drained (.allocate size) ret → GrantedInFull T sys.segment arena size
  | _ => True

/-- The states of runs over an honest arena, from a segment that was just created. -/
inductive HonestRun (T : SegmentType) (L : PageLaws T.page) (condition : System → Action → Prop) :
    System → Prop
  | created {sys : System} (h : Reachable T L (fun _ _ => False) sys) : HonestRun T L condition sys
  | step {sys sys' : System} {action : Action} (h : HonestRun T L condition sys)
      (ha : sys.MayDo T action) (hc : condition sys action)
      (hp : sys.perform T L action = some sys') : HonestRun T L condition sys'

section
variable {T : SegmentType} {L : PageLaws T.page} {s : Segment} {l : List Nat} {arena : ArenaAnswers}
  {size : Nat} {sys : System} {action : Action} {condition : System → Action → Prop}

theorem ArenaHonest.promise (h : ArenaHonest T s l arena size) (hfull : GrantedInFull T s arena size) :
    ArenaPromise T s l arena size := by
  refine ⟨fun n m hq hb => ?_, hfull.no_retry⟩
  have hfresh := h.request n m hq hb
  have hlength : mul64 s.logicalPageSize n = n * s.logicalPageSize := by
    rw [mul64_of_lt (hfull.no_wrap n m hq hb), Nat.mul_comm]
  refine ⟨hb, ?_, ?_, hfresh.aligned⟩
  · have hinside := hfresh.inside
    rwa [hlength] at hinside ⊢
  · have hapart := hfresh.apart
    rwa [hlength] at hapart ⊢

/-- An arena that refuses everything is honest, and grants nothing by halves. -/
theorem refusingArena_honest : ArenaHonest T s l refusingArena size :=
  ⟨fun _ _ _ hb => absurd rfl hb, fun _ _ _ hb => absurd rfl hb⟩

theorem refusingArena_grantedInFull : GrantedInFull T s refusingArena size :=
  ⟨fun _ _ _ hb => absurd rfl hb, fun _ _ _ _ _ => rfl⟩

theorem System.HonestAnswersFor.promised (h : sys.HonestAnswersFor T size arena)
    (hfull : T.concurrency ≠ .threadLocal → GrantedInFull T sys.segment arena size) :
    sys.ArenaAnswersFor T size arena := by
  intro hdirect
  obtain ⟨l, hl, hhonest⟩ := h hdirect
  exact ⟨l, hl, hhonest.promise (hfull hdirect)⟩

theorem System.MayDo.allowed (h : sys.MayDo T action) (hfull : GrowsInFull T sys action) :
    sys.Allowed T action := by
  cases action with
  | allocate size arena =>
    obtain ⟨hdirect, hidle, hanswers⟩ := h
    exact ⟨hdirect, hidle, hanswers.promised fun _ => hfull⟩
  | finish arena =>
    obtain ⟨goal, ret, hcontrol, hanswers⟩ := h
    refine ⟨goal, ret, hcontrol, fun size hgoal => (hanswers size hgoal).promised fun hdirect => ?_⟩
    subst hgoal
    exact hfull hdirect size ret hcontrol
  | _ => exact h

/-- Runs over an honest arena that always grants in full are runs over one that keeps its promise. -/
theorem HonestRun.reachable (hfull : ∀ sys action, condition sys action → GrowsInFull T sys action)
    (h : HonestRun T L condition sys) : Reachable T L condition sys := by
  induction h with
  | created h => exact h.mono fun _ _ _ hf => hf.elim
  | step _ ha hc hp ih => exact ih.step (ha.allowed (hfull _ _ hc)) hc hp

end

/-- A thread-local run is a run over any arena, which it never asks. -/
theorem Reachable.honestRun_local {T : SegmentType} {L : PageLaws T.page} {sys : System}
    {condition condition' : System → Action → Prop} (hlocal : T.concurrency = .threadLocal)
    (hmono : ∀ sys action, condition sys action → condition' sys action)
    (h : Reachable T L condition sys) : HonestRun T L condition' sys := by
  induction h with
  | create hword hb hp hlog h => exact .created (.create hword hb hp hlog h)
  | @step sys sys' action _ ha hc hp ih =>
    refine ih.step ?_ (hmono _ _ hc) hp
    cases action with
    | allocate size arena => exact absurd hlocal ha.1
    | finish arena =>
      obtain ⟨goal, ret, hdrained, _⟩ := ha
      exact ⟨goal, ret, hdrained, fun _ _ hne => absurd hlocal hne⟩
    | _ => exact ha

/-- A page of one chunk, and a growth that doubles the number of pages. -/
def oneChunk : SegmentCreationParameters :=
  { logicalPageSize := 4096, logicalPageCount := 1, sizeClass := 4032, growCoefficient := ⟨true, (2 * ·)⟩ }

def oneChunkType : SegmentType := ⟨.singleThread, LogicalPage.pageType, .immediate, true⟩

def onePageArena : ArenaAnswers := ⟨fun n => if n = 4096 then 8192 else 0, fun n => if n = 4096 then 8192 else 0⟩

/-- The segment over the page at 12288, after its chunk was given out. -/
def oneChunkTaken : Option System :=
  (Segment.create oneChunkType 12288 true oneChunk {} ⟨fun _ => 0, fun _ => {}, [], []⟩).bind fun (_, s, mem) =>
    System.perform oneChunkType LogicalPage.laws ⟨s, mem, [], [], .idle⟩ (.allocate 4032 refusingArena)

/-- Two pages are made in the room for one; the second is made over the page in use. -/
def grownOverPage : Option System :=
  oneChunkTaken.bind fun sys => sys.perform oneChunkType LogicalPage.laws (.allocate 4032 onePageArena)

theorem honestRun_oneChunkTaken {condition : System → Action → Prop} {sys : System}
    (hc : ∀ sys, condition sys (.allocate 4032 refusingArena)) (h : oneChunkTaken = some sys) :
    HonestRun oneChunkType LogicalPage.laws condition sys := by
  have hok : (Segment.create oneChunkType 12288 true oneChunk {} ⟨fun _ => 0, fun _ => {}, [], []⟩).map Prod.fst =
      some true := by decide +kernel
  obtain ⟨⟨ok, s, mem⟩, hcreate, rfl⟩ := Option.map_eq_some_iff.mp hok
  have hrun : Reachable oneChunkType LogicalPage.laws (fun _ _ => False) ⟨s, mem, [], [], .idle⟩ :=
    .create (by decide) ⟨by decide, by decide, by simp, by decide⟩ (fun _ => ⟨12, by decide, rfl⟩) ⟨rfl, rfl⟩
      hcreate
  obtain ⟨g, hg⟩ := hrun.inv fun _ _ hf => hf.elim
  rw [oneChunkTaken, hcreate] at h
  refine .step (.created hrun) ?_ (hc _) h
  exact ⟨by decide, rfl, fun _ => ⟨g.pages, hg.lists, refusingArena_honest⟩⟩

theorem oneChunkTaken_lists {sys : System} (h : oneChunkTaken = some sys) : sys.Lists [12288] := by
  have hlist : oneChunkTaken.map (fun sys => (sys.segment.head, sys.memory.getNext 12288)) =
      some (12288, 0) := by decide +kernel
  rw [h] at hlist
  simp only [Option.map_some, Option.some.injEq, Prod.mk.injEq] at hlist
  exact ⟨hlist, by decide⟩

theorem onePageArena_honest {sys : System} (h : oneChunkTaken = some sys) :
    ArenaHonest oneChunkType sys.segment [12288] onePageArena 4032 := by
  have hstate : oneChunkTaken.map (fun sys => (Segment.calculateQuantities oneChunkType 4032 sys.segment,
      sys.segment.logicalPageSize)) = some (some (2, 1), 4096) := by decide +kernel
  rw [h] at hstate
  simp only [Option.map_some, Option.some.injEq, Prod.mk.injEq] at hstate
  obtain ⟨hquantities, hsize⟩ := hstate
  constructor
  · intro n m hq hb
    rw [hquantities] at hq
    cases hq
    rw [hsize] at hb
    exact absurd (by decide +kernel) hb
  · intro n m hq _
    rw [hquantities] at hq
    cases hq
    rw [hsize]
    have hb : onePageArena.retry (mul64 4096 1) = 8192 ∧ mul64 4096 1 = 4096 := by decide +kernel
    rw [hb.1, hb.2]
    exact ⟨by decide, by simp [hsize], fun _ => hsize ▸ by decide⟩

theorem honestRun_grownOverPage {condition : System → Action → Prop} {sys : System}
    (hc : ∀ sys arena, condition sys (.allocate 4032 arena)) (h : grownOverPage = some sys) :
    HonestRun oneChunkType LogicalPage.laws condition sys := by
  obtain ⟨sys₁, h₁, h₂⟩ := Option.bind_eq_some_iff.mp h
  have hidle : oneChunkTaken.map (fun sys => decide (sys.control = .idle)) = some true := by decide +kernel
  rw [h₁] at hidle
  simp only [Option.map_some, Option.some.injEq, decide_eq_true_eq] at hidle
  refine .step (honestRun_oneChunkTaken (fun sys => hc sys _) h₁) ?_ (hc _ _) h₂
  exact ⟨by decide, hidle, fun _ => ⟨[12288], oneChunkTaken_lists h₁, onePageArena_honest h₁⟩⟩

end Metamalloc.Segments
