import Metamalloc.Segments.HonestArena
import Metamalloc.Segments.SegmentCalls

/-! The leak report that `destroy` writes when it is compiled with `ENABLE_REPORT_LEAKS`. -/
namespace Metamalloc.Segments
open Library.Word64 Library.ByteMemory Library.LinkedList Pages

/-- A line of `leaks.txt`: what is in use on one page, as a count of chunks or in bytes. -/
inductive LeakLine where
  | ofSizeClass (sizeClass count : Nat)
  | ofTotalSize (size : Nat)
  deriving DecidableEq

/-- The number of pointers a line speaks of, where it names one. -/
def LeakLine.count : LeakLine → Nat
  | .ofSizeClass _ count => count
  | .ofTotalSize _ => 0

def leakLine (sizeClass usedSize : Nat) : LeakLine :=
  if sizeClass ≠ 0 then .ofSizeClass sizeClass (usedSize / sizeClass) else .ofTotalSize usedSize

namespace Segment
variable (T : SegmentType)

/-- The sweep over the pages; each line comes with the page it is about. -/
def sweepReporting (sizeClass logicalPageSize : Nat) : (fuel iter : Nat) → Memory →
    Option (List (Nat × LeakLine) × Memory)
  | 0, _, _ => none
  | fuel+1, iter, mem =>
    if iter = 0 then some ([], mem)
    else
      let next := mem.getNext iter
      let usedSize := (mem.pages iter).usedSize
      let lines := if usedSize ≠ 0 then [(iter, leakLine sizeClass usedSize)] else []
      (sweepReporting sizeClass logicalPageSize fuel next (if usedSize = 0 then
        mem.releaseToSystem iter logicalPageSize else mem)).map fun (rest, mem) => (lines ++ rest, mem)

def releasePagesReporting (s : Segment) (mem : Memory) :
    Option (List (Nat × LeakLine) × Segment × Memory) :=
  (sweepReporting s.sizeClass s.logicalPageSize walkLimit s.head mem).map fun (report, mem) =>
    (report, { s with head := 0, tail := 0 }, mem)

def destroyReporting (s : Segment) (mem : Memory) :
    Option (List (Nat × LeakLine) × Segment × Memory) :=
  if T.concurrency = .threadLocal then
    match processDeallocationQueue T false s mem with
    | none => none
    | some (_, s, mem) => releasePagesReporting s mem
  else releasePagesReporting s mem

end Segment

def leakLines (sizeClass : Nat) (mem : Memory) (l : List Nat) : List (Nat × LeakLine) :=
  (l.filter fun a => (mem.pages a).usedSize ≠ 0).map fun a => (a, leakLine sizeClass (mem.pages a).usedSize)

section
variable {T : SegmentType} {s : Segment} {mem : Memory} {l : List Nat} {owned : Nat → List Allocation}
  {fuel iter sizeClass n : Nat}

theorem sweepReporting_snd : (Segment.sweepReporting sizeClass n fuel iter mem).map Prod.snd =
    Segment.sweep n fuel iter mem := by
  induction fuel generalizing iter mem with
  | zero => rfl
  | succ fuel ih =>
    rw [Segment.sweepReporting, Segment.sweep]
    split
    · rfl
    · rw [← ih, Option.map_map]
      rfl

theorem releasePagesReporting_snd :
    (Segment.releasePagesReporting s mem).map Prod.snd = Segment.releasePages s mem := by
  rw [Segment.releasePagesReporting, Segment.releasePages, ← @sweepReporting_snd mem walkLimit s.head s.sizeClass,
    Option.map_map, Option.map_map]
  rfl

/-- The report changes nothing of what `destroy` does. -/
theorem destroyReporting_snd :
    (Segment.destroyReporting T s mem).map Prod.snd = Segment.destroy T s mem := by
  rw [Segment.destroyReporting, Segment.destroy]
  split
  · cases Segment.processDeallocationQueue T false s mem with
    | none => rfl
    | some r => exact releasePagesReporting_snd
  · exact releasePagesReporting_snd

theorem sweepReporting_spec (hpath : Path mem.getNext iter l 0) (h0 : 0 ∉ l) (hf : l.length < fuel) :
    Segment.sweepReporting sizeClass n fuel iter mem =
      (Segment.sweep n fuel iter mem).map fun mem' => (leakLines sizeClass mem l, mem') := by
  induction l generalizing fuel iter mem with
  | nil =>
    obtain ⟨fuel, rfl⟩ : ∃ k, fuel = k + 1 := ⟨fuel - 1, by simp at hf; omega⟩
    rw [Segment.sweepReporting, Segment.sweep, if_pos (path_nil.mp hpath), if_pos (path_nil.mp hpath)]
    rfl
  | cons b l ih =>
    obtain ⟨fuel, rfl⟩ : ∃ k, fuel = k + 1 := ⟨fuel - 1, by simp at hf; omega⟩
    obtain ⟨rfl, hpath⟩ := hpath
    have hb : iter ≠ 0 := fun e => h0 (e ▸ List.mem_cons_self)
    have hl : 0 ∉ l := fun hm => h0 (List.mem_cons_of_mem _ hm)
    have hlen : l.length < fuel := by simpa using hf
    rw [Segment.sweepReporting, Segment.sweep, if_neg hb, if_neg hb]
    by_cases hu : (mem.pages iter).usedSize = 0
    · have hpath' : Path (mem.releaseToSystem iter n).getNext (mem.getNext iter) l 0 := hpath
      have hlines : leakLines sizeClass mem (iter :: l) = leakLines sizeClass mem l := by
        rw [leakLines, List.filter_cons_of_neg (by simpa using hu)]
        rfl
      dsimp only
      rw [if_pos hu, ih hpath' hl hlen, hlines, Option.map_map, if_neg (not_not.mpr hu)]
      rfl
    · have hlines : leakLines sizeClass mem (iter :: l) =
          (iter, leakLine sizeClass (mem.pages iter).usedSize) :: leakLines sizeClass mem l := by
        rw [leakLines, List.filter_cons_of_pos (by simpa using hu)]
        rfl
      dsimp only
      rw [if_neg hu, ih hpath hl hlen, hlines, Option.map_map, if_pos hu]
      rfl

theorem sum_count_leakLines (hcount : ∀ a ∈ l, (leakLine sizeClass (mem.pages a).usedSize).count = (owned a).length)
    (hused : ∀ a ∈ l, (mem.pages a).usedSize = 0 ↔ owned a = []) :
    ((leakLines sizeClass mem l).map fun line => line.2.count).sum = (l.flatMap owned).length := by
  induction l with
  | nil => rfl
  | cons a l ih =>
    have hrest := ih (fun b hb => hcount b (List.mem_cons_of_mem _ hb)) fun b hb =>
      hused b (List.mem_cons_of_mem _ hb)
    rw [List.flatMap_cons, List.length_append, ← hrest]
    by_cases hu : (mem.pages a).usedSize = 0
    · rw [(hused a List.mem_cons_self).mp hu, leakLines, List.filter_cons_of_neg (by simpa using hu)]
      simp [leakLines]
    · rw [← hcount a List.mem_cons_self, leakLines, List.filter_cons_of_pos (by simpa using hu)]
      simp [leakLines]

end

/-- What is reported of a segment whose clients hold these allocations and which lists these pages. -/
structure ExactReport (s : Segment) (mem : Memory) (l : List Nat) (live : List Allocation)
    (report : List (Nat × LeakLine)) (mem' : Memory) : Prop where
  total : (report.map fun line => line.2.count).sum = live.length
  lines : ∀ line ∈ report, ∃ count, line.2 = .ofSizeClass s.sizeClass count ∧ 0 < count
  released : ∃ released, Releases s.logicalPageSize mem l mem' (report.map Prod.fst) released

theorem ExactReport.nil {s : Segment} {mem mem' : Memory} {l : List Nat} {report : List (Nat × LeakLine)}
    (h : ExactReport s mem l [] report mem') : report = [] := by
  have htotal := h.total
  cases report with
  | nil => rfl
  | cons line rest =>
    obtain ⟨count, he, hpos⟩ := h.lines line List.mem_cons_self
    rw [List.map_cons, List.sum_cons, he, LeakLine.count, List.length_nil] at htotal
    omega

section
variable {concurrency : ConcurrencyPolicy} {recycling : PageRecyclingPolicy} {aligned : Bool} {sys : System}
  {g : Ghost} {a : Nat}

theorem SystemInv.leakLine
    (h : SystemInv ⟨concurrency, LogicalPage.pageType, recycling, aligned⟩ LogicalPage.laws sys g)
    (ha : a ∈ g.pages) :
    leakLine sys.segment.sizeClass (sys.memory.pages a).usedSize =
      .ofSizeClass sys.segment.sizeClass (g.owned a).length := by
  have hinv : LogicalPage.Inv (sys.memory.page a) (g.owned a) := h.segment.page a ha
  have hclass : (sys.memory.pages a).sizeClass = sys.segment.sizeClass := (h.segment.frame a ha).2.2
  have hused : (sys.memory.pages a).usedSize = sys.segment.sizeClass * (g.owned a).length :=
    hinv.used.trans (congrArg (· * _) hclass)
  have height : 8 ≤ sys.segment.sizeClass := hclass ▸ hinv.eight_le
  rw [Segments.leakLine, if_pos (by omega), hused, Nat.mul_div_cancel_left _ (by omega)]

/-- The sweep over a segment that has nothing in its queue and in its hands. -/
theorem SystemInv.releasePagesReporting
    (h : SystemInv ⟨concurrency, LogicalPage.pageType, recycling, aligned⟩ LogicalPage.laws sys g)
    (hout : sys.pointersOut = sys.live.map Allocation.ptr) :
    ∃ report s' mem', Segment.releasePagesReporting sys.segment sys.memory = some (report, s', mem') ∧
      ExactReport sys.segment sys.memory g.pages sys.live report mem' := by
  have hsweep := @sweep_spec sys.segment.logicalPageSize _ _ _ _ h.lists.1 h.lists.2
    h.segment.length_lt_walkLimit
  have hreport := @sweepReporting_spec _ _ _ _ sys.segment.sizeClass sys.segment.logicalPageSize h.lists.1
    h.lists.2 h.segment.length_lt_walkLimit
  rw [hsweep] at hreport
  have hlength : (g.pages.flatMap g.owned).length = sys.live.length := by
    have hperm := h.out_perm.length_eq
    rwa [hout, List.length_map, List.length_map] at hperm
  refine ⟨_, _, _, by rw [Segment.releasePagesReporting, hreport]; rfl, ?_, fun line hline => ?_, ?_⟩
  · rw [← hlength]
    refine sum_count_leakLines (fun a ha => ?_) fun a ha => h.segment.used_eq_zero ha
    rw [h.leakLine ha, LeakLine.count]
  · obtain ⟨a, ha, rfl⟩ := List.mem_map.mp hline
    obtain ⟨hal, hused⟩ := List.mem_filter.mp ha
    refine ⟨_, h.leakLine hal, List.length_pos_iff.mpr fun hempty => ?_⟩
    exact of_decide_eq_true hused ((h.segment.used_eq_zero hal).mpr hempty)
  · refine ⟨_, rfl, ?_⟩
    have hfst : (leakLines sys.segment.sizeClass sys.memory g.pages).map Prod.fst =
        g.pages.filter fun a => !decide ((sys.memory.pages a).usedSize = 0) := by
      simp [leakLines, List.map_map, Function.comp_def]
    rw [hfst]
    exact ((List.filter_append_perm _ g.pages).symm.trans List.perm_append_comm).trans
      ((List.reverse_perm _).symm.append_left _)

end

section
variable {T : SegmentType} {L : PageLaws T.page} {sys sys' : System} {g : Ghost} {action : Action}

end

end Metamalloc.Segments
