import Metamalloc.Library.DecimalScan
import Metamalloc.Library.SeparatedText
import Metamalloc.Profiling.Profiler

/-! The answer of the live profiler to a post request, as its reactor thread writes it into the
buffer and as the script of the page takes it apart. -/
namespace Metamalloc.Profiling
open Library.Word64 Library.SeparatedText Library.DecimalScan

abbrev maxPostResponseBufferSize : Nat := 4096
abbrev maxPostResponseDigits : Nat := 16
abbrev statsNumberPerSizeClass : Nat := 3

abbrev numeral (count : Nat) : List Char := Nat.toDigits 10 count

/-- `%zd` prints a word as a signed number. -/
def formatZd (v : Nat) : List Char :=
  if v < 2 ^ 63 then numeral v else '-' :: numeral (2 ^ 64 - v)

/-- What stands before the terminator when `size` bytes may be written. -/
def snprintf (size : Nat) (text : List Char) : List Char := text.take (size - 1)

/-- One count behind the text in the buffer; none when the terminator would lie outside. -/
def appendCount (buffer : List Char) (count : Nat) : Option (List Char) :=
  let written := snprintf maxPostResponseDigits (formatZd count ++ [','])
  if buffer.length + written.length < maxPostResponseBufferSize then some (buffer ++ written) else none

def appendSizeClass (buffer : List Char) (s : SizeClassStats) : Option (List Char) := do
  let buffer ← appendCount buffer s.allocCount
  let buffer ← appendCount buffer s.freeCount
  appendCount buffer s.peakUsageCount

def postResponseHeader (threadCount : Nat) : List Char :=
  snprintf maxPostResponseBufferSize
    (formatZd (sub64 threadCount 1) ++ [','] ++ formatZd maxSizeClassCount ++ [','])

namespace Profiler

def observedThreads (p : Profiler) : List (Fin maxThreadCount) :=
  (List.finRange maxThreadCount).take p.observedThreadCount

/-- The reactor thread is told apart by the id its entry has stored. -/
def updatePostResponse (reactorId : Nat) (p : Profiler) : Option (List Char) :=
  p.observedThreads.foldlM (fun buffer i =>
    if (p.stats i).tlsId ≠ reactorId then
      (List.finRange maxSizeClassCount).foldlM
        (fun buffer j => appendSizeClass buffer ((p.stats i).sizeClassStats j)) buffer
    else some buffer) (postResponseHeader p.observedThreadCount)

end Profiler

def csvDataTokens (csvData : List Char) : List (List Char) := csvData.splitOn ','

def getThreadCount (tokens : List (List Char)) : Option (List Char) := tokens[0]?
def getSizeClassCount (tokens : List (List Char)) : Option (List Char) := tokens[1]?

def getStatistic (k : Nat) (tokens : List (List Char)) (thread sizeClass : Nat) : Option (List Char) := do
  let sizeClassCount ← getSizeClassCount tokens
  tokens[2 + thread * Nat.ofDigitChars 10 sizeClassCount 0 * statsNumberPerSizeClass +
    sizeClass * statsNumberPerSizeClass + k]?

def getAllocationCount := getStatistic 0
def getDeallocationCount := getStatistic 1
def getPeakUsageCount := getStatistic 2

namespace Profiler

/-- The observed threads but the one with entry `r`, in the order of their entries. -/
def otherThreads (r : Fin maxThreadCount) (p : Profiler) : List (Fin maxThreadCount) :=
  p.observedThreads.filter (· ≠ r)

/-- What the script finds for a thread and a size class are these counts. -/
def Reads (tokens : List (List Char)) (thread sizeClass : Nat) (s : SizeClassStats) : Prop :=
  getAllocationCount tokens thread sizeClass = some (numeral s.allocCount) ∧
  getDeallocationCount tokens thread sizeClass = some (numeral s.freeCount) ∧
  getPeakUsageCount tokens thread sizeClass = some (numeral s.peakUsageCount)

/-- The text fits, and the script reads the counts of the other threads out of it. -/
def SurvivesWire (reactorId : Nat) (r : Fin maxThreadCount) (p : Profiler) : Prop :=
  ∃ text, p.updatePostResponse reactorId = some text ∧
    text.length + 1 ≤ maxPostResponseBufferSize ∧
    getThreadCount (csvDataTokens text) = some (numeral (p.otherThreads r).length) ∧
    getSizeClassCount (csvDataTokens text) = some (numeral maxSizeClassCount) ∧
    ∀ i t, (p.otherThreads r)[i]? = some t → ∀ j : Fin maxSizeClassCount,
      Reads (csvDataTokens text) i j ((p.stats t).sizeClassStats j)

end Profiler

def SizeClassStats.counts (s : SizeClassStats) : List Nat := [s.allocCount, s.freeCount, s.peakUsageCount]

def ThreadStats.counts (t : ThreadStats) : List Nat :=
  (List.finRange maxSizeClassCount).flatMap fun j => (t.sizeClassStats j).counts

namespace Profiler

def countsOf (p : Profiler) (threads : List (Fin maxThreadCount)) : List Nat :=
  threads.flatMap fun i => (p.stats i).counts

def fieldWidth (count : Nat) : Nat := min ((numeral count).length + 1) (maxPostResponseDigits - 1)

/-- No other thread shares the id of the reactor, a field keeps its digits and its separator
(the last one only its digits), and the fields together leave room for the terminator. -/
structure FitsWire (reactorId : Nat) (r : Fin maxThreadCount) (p : Profiler) : Prop where
  own : ∀ i ∈ p.otherThreads r, (p.stats i).tlsId ≠ reactorId
  short : ∀ c ∈ (p.countsOf (p.otherThreads r)).dropLast, c < 10 ^ 14
  last : ∀ c ∈ (p.countsOf (p.otherThreads r)).getLast?, c < 10 ^ 15
  room : (numeral (p.otherThreads r).length).length + 4 +
    ((p.countsOf (p.otherThreads r)).map fieldWidth).sum < maxPostResponseBufferSize

end Profiler

section
variable {c n : Nat} {cs : List Nat} {buffer : List Char}

theorem formatZd_of_lt (h : c < 2 ^ 63) : formatZd c = numeral c := if_pos h

theorem length_numeral_lt_iff {k : Nat} (hk : 1 < k) : (numeral c).length < k ↔ c < 10 ^ (k - 1) := by
  rw [← Nat.length_toDigits_le_iff (by decide) (by omega)]
  exact (Nat.le_sub_one_iff_lt (by omega)).symm

theorem comma_not_mem_numeral : ',' ∉ numeral c := not_mem_toDigits rfl

theorem comma_not_mem_formatZd : ',' ∉ formatZd c := by
  unfold formatZd
  split
  · exact comma_not_mem_numeral
  · rw [List.mem_cons, not_or]
    exact ⟨by decide, comma_not_mem_numeral⟩

/-- The text of fields of at most 15 bytes. -/
def wireText (xs : List (List Char)) : List Char := cutText (maxPostResponseDigits - 1) ',' xs

theorem foldlM_appendCount (hb : buffer.length < maxPostResponseBufferSize) :
    cs.foldlM appendCount buffer =
      if (buffer ++ wireText (cs.map formatZd)).length < maxPostResponseBufferSize
      then some (buffer ++ wireText (cs.map formatZd)) else none := by
  induction cs generalizing buffer with
  | nil => simpa [wireText, cutText] using hb
  | cons c cs ih =>
    have htext : wireText ((c :: cs).map formatZd) =
        snprintf maxPostResponseDigits (formatZd c ++ [',']) ++ wireText (cs.map formatZd) := rfl
    rw [List.foldlM_cons, appendCount, htext, ← List.append_assoc]
    split
    case isTrue hlt =>
      rw [Option.bind_eq_bind, Option.bind_some, ih (by simpa using hlt)]
    case isFalse hge =>
      rw [Option.bind_eq_bind, Option.bind_none, if_neg]
      simp only [List.length_append] at hge ⊢
      omega

theorem foldlM_flatMap {α β γ : Type*} {f : α → List β} {g : γ → β → Option γ} {xs : List α} {z : γ} :
    (xs.flatMap f).foldlM g z = xs.foldlM (fun z x => (f x).foldlM g z) z := by
  induction xs generalizing z with
  | nil => rfl
  | cons x xs ih =>
    rw [List.flatMap_cons, List.foldlM_append, List.foldlM_cons]
    exact bind_congr fun z => ih

theorem appendSizeClass_eq_foldlM (buffer : List Char) (s : SizeClassStats) :
    appendSizeClass buffer s = s.counts.foldlM appendCount buffer := by
  simp [appendSizeClass, SizeClassStats.counts]

/-- The fields of the whole text: the two of the header and the counts. -/
def wireFields (threadCount : Nat) (cs : List Nat) : List (List Char) :=
  numeral threadCount :: numeral maxSizeClassCount :: cs.map formatZd

theorem comma_not_mem_wireFields : ∀ x ∈ wireFields n cs, ',' ∉ x := by
  intro x hx
  simp only [wireFields, List.mem_cons, List.mem_map] at hx
  rcases hx with rfl | rfl | ⟨c, -, rfl⟩
  · exact comma_not_mem_numeral
  · exact comma_not_mem_numeral
  · exact comma_not_mem_formatZd

theorem postResponseHeader_eq (hn : n < maxThreadCount) :
    postResponseHeader (n + 1) = wireText [numeral n, numeral maxSizeClassCount] := by
  have hn' : n < 10 ^ (3 - 1) := hn.trans (by decide)
  have hlen := (length_numeral_lt_iff (by decide)).mpr hn'
  have hlen' : (numeral maxSizeClassCount).length = 2 := by decide +kernel
  have htext : wireText [numeral n, numeral maxSizeClassCount] =
      numeral n ++ [','] ++ (numeral maxSizeClassCount ++ [',']) := by
    rw [wireText, cutText_cons, cutText_cons, cutField_of_lt (hlen.trans (by decide)),
      cutField_of_lt (by decide +kernel)]
    simp [cutText]
  rw [htext, postResponseHeader, sub64_of_le (by omega) (by omega), Nat.add_sub_cancel,
    formatZd_of_lt (by omega), formatZd_of_lt (by decide), snprintf, List.take_of_length_le]
  · simp
  · simp only [List.length_append, List.length_singleton, maxPostResponseBufferSize]
    omega

end

namespace Profiler
variable {p : Profiler} {reactorId : Nat} {r : Fin maxThreadCount}

def writtenThreads (reactorId : Nat) (p : Profiler) : List (Fin maxThreadCount) :=
  p.observedThreads.filter fun i => (p.stats i).tlsId ≠ reactorId

theorem updatePostResponse_eq_foldlM :
    p.updatePostResponse reactorId =
      (p.countsOf (p.writtenThreads reactorId)).foldlM appendCount
        (postResponseHeader p.observedThreadCount) := by
  rw [countsOf, writtenThreads, foldlM_flatMap, List.foldlM_filter, updatePostResponse]
  congr 1
  funext buffer i
  simp only [ThreadStats.counts, foldlM_flatMap, ← appendSizeClass_eq_foldlM, decide_eq_true_eq]
  rfl

theorem nodup_observedThreads : p.observedThreads.Nodup :=
  (List.nodup_finRange maxThreadCount).sublist (List.take_sublist _ _)

theorem length_observedThreads : p.observedThreads.length = p.observedThreadCount := by
  rw [observedThreads, List.length_take, List.length_finRange]
  exact Nat.min_eq_left p.observed_le

theorem length_otherThreads (hr : r ∈ p.observedThreads) :
    (p.otherThreads r).length + 1 = p.observedThreadCount := by
  have hfilter : p.otherThreads r = p.observedThreads.erase r := by
    rw [nodup_observedThreads.erase_eq_filter, otherThreads]
    congr 1
    funext i
    exact Bool.eq_iff_iff.mpr (by simp)
  rw [hfilter, ← length_observedThreads, List.length_erase_of_mem hr]
  have := List.length_pos_of_mem hr
  omega

theorem length_otherThreads_lt (hr : r ∈ p.observedThreads) : (p.otherThreads r).length < maxThreadCount :=
  Nat.lt_of_succ_le ((length_otherThreads hr).trans_le p.observed_le)

/-- The text is there just when it leaves room for the terminator. -/
theorem updatePostResponse_eq (hr : r ∈ p.observedThreads) :
    let text := wireText (wireFields (p.otherThreads r).length (p.countsOf (p.writtenThreads reactorId)))
    p.updatePostResponse reactorId = if text.length < maxPostResponseBufferSize then some text else none := by
  intro text
  rw [updatePostResponse_eq_foldlM, ← length_otherThreads hr,
    postResponseHeader_eq (length_otherThreads_lt hr), foldlM_appendCount]
  · have htext : text = wireText [numeral (p.otherThreads r).length, numeral maxSizeClassCount] ++
        wireText ((p.countsOf (p.writtenThreads reactorId)).map formatZd) := by
      simp [text, wireText, cutText, wireFields]
    rw [← htext]
  · simp only [wireText, cutText, cutField, List.flatMap_cons, List.flatMap_nil, List.length_append,
      List.length_take, List.length_nil, maxPostResponseBufferSize, maxPostResponseDigits]
    omega

end Profiler

section
variable {c i j k n : Nat} {cs : List Nat} {tokens : List (List Char)}

theorem take_numeral (h : c < 10 ^ 15) : (numeral c).take (maxPostResponseDigits - 1) = numeral c :=
  List.take_of_length_le (Nat.le_of_lt_succ ((length_numeral_lt_iff (by decide)).mpr h))

theorem take_formatZd_eq_iff : (formatZd c).take (maxPostResponseDigits - 1) = numeral c ↔ c < 10 ^ 15 := by
  constructor
  · intro h
    unfold formatZd at h
    split at h
    · have hlen := congrArg List.length h
      rw [List.length_take] at hlen
      refine (length_numeral_lt_iff (k := 16) (by decide)).mp ?_
      rw [← hlen]
      exact Nat.lt_succ_of_le (Nat.min_le_left _ _)
    · have hmem : '-' ∈ numeral c := by
        rw [← h]
        exact List.mem_cons_self
      have hd := Nat.isDigit_of_mem_toDigits (by decide) (by decide) hmem
      exact absurd hd (by decide)
  · intro h
    rw [formatZd_of_lt (by omega), take_numeral h]

/-- The header never loses a separator. -/
theorem short_wireFields_iff (hn : n < maxThreadCount) :
    (∀ x ∈ (wireFields n cs).dropLast, x.length < maxPostResponseDigits - 1) ↔
      ∀ c ∈ cs.dropLast, (formatZd c).length < maxPostResponseDigits - 1 := by
  have hlen := (length_numeral_lt_iff (k := 3) (by decide)).mpr (hn.trans (by decide))
  rcases eq_or_ne cs [] with rfl | hne
  · simp only [wireFields, List.map_nil, List.dropLast_cons_cons, List.dropLast_singleton, List.mem_singleton,
      forall_eq, List.dropLast_nil, List.not_mem_nil, false_imp_iff, implies_true, iff_true]
    exact hlen.trans (by decide)
  · have hne' : cs.map formatZd ≠ [] := by simpa using hne
    rw [wireFields, List.dropLast_cons_cons, List.dropLast_cons_of_ne_nil hne', ← List.map_dropLast]
    simp only [List.mem_cons, List.mem_map, forall_eq_or_imp, forall_exists_index, and_imp,
      forall_apply_eq_imp_iff₂]
    exact ⟨fun h => h.2.2, fun h => ⟨hlen.trans (by decide), by decide +kernel, h⟩⟩

/-- The header comes back whenever the fields keep their separators. -/
theorem header_of_short (hn : n < maxThreadCount)
    (hs : ∀ c ∈ cs.dropLast, (formatZd c).length < maxPostResponseDigits - 1) :
    getThreadCount (csvDataTokens (wireText (wireFields n cs))) = some (numeral n) ∧
      getSizeClassCount (csvDataTokens (wireText (wireFields n cs))) = some (numeral maxSizeClassCount) := by
  have hshort := (short_wireFields_iff hn).mpr hs
  constructor
  · have h0 := token_of_uncut comma_not_mem_wireFields hshort (n := 0) rfl
    rwa [take_numeral (hn.trans (by decide))] at h0
  · have h1 := token_of_uncut comma_not_mem_wireFields hshort (n := 1) rfl
    rwa [take_numeral (by decide)] at h1

theorem getStatistic_eq (h : getSizeClassCount tokens = some (numeral maxSizeClassCount)) :
    getStatistic k tokens i j = tokens[2 + (i * 63 + (j * 3 + k))]? := by
  rw [getStatistic, h, Option.bind_eq_bind, Option.bind_some, Nat.ofDigitChars_ten_toDigits]
  congr 1
  simp only [maxSizeClassCount, statsNumberPerSizeClass]
  omega

end

theorem SizeClassStats.length_counts (s : SizeClassStats) : s.counts.length = 3 := rfl

theorem ThreadStats.length_counts (t : ThreadStats) : t.counts.length = 63 := by
  rw [counts, length_flatMap_of_length fun j => (t.sizeClassStats j).length_counts, List.length_finRange]
  rfl

namespace Profiler
variable {p : Profiler} {threads : List (Fin maxThreadCount)}

theorem reads_iff {tokens : List (List Char)} {i j : Nat} {s : SizeClassStats} :
    Reads tokens i j s ↔ ∀ k c, s.counts[k]? = some c → getStatistic k tokens i j = some (numeral c) := by
  constructor
  · rintro ⟨halloc, hfree, hpeak⟩ k c hk
    match k, hk with
    | 0, rfl => exact halloc
    | 1, rfl => exact hfree
    | 2, rfl => exact hpeak
  · intro h
    exact ⟨h 0 _ rfl, h 1 _ rfl, h 2 _ rfl⟩

theorem length_countsOf (threads : List (Fin maxThreadCount)) :
    (p.countsOf threads).length = threads.length * 63 :=
  length_flatMap_of_length (fun i => (p.stats i).length_counts) threads

theorem getElem?_countsOf {i k : Nat} {t : Fin maxThreadCount} (ht : threads[i]? = some t)
    (j : Fin maxSizeClassCount) (hk : k < 3) :
    (p.countsOf threads)[i * 63 + (j * 3 + k)]? = ((p.stats t).sizeClassStats j).counts[k]? := by
  have hj : j.val < 21 := j.isLt
  rw [countsOf, getElem?_flatMap_of_length (fun i => (p.stats i).length_counts) ht (by omega),
    ThreadStats.counts, getElem?_flatMap_of_length
      (fun j => ((p.stats t).sizeClassStats j).length_counts) (x := j) (by simp) hk]

/-- What each count is printed as is the token the script looks up for it. -/
theorem getStatistic_of_short {n i k c : Nat} {t : Fin maxThreadCount} {j : Fin maxSizeClassCount}
    (hn : n < maxThreadCount)
    (hs : ∀ c ∈ (p.countsOf threads).dropLast, (formatZd c).length < maxPostResponseDigits - 1)
    (ht : threads[i]? = some t) (hc : ((p.stats t).sizeClassStats j).counts[k]? = some c) :
    getStatistic k (csvDataTokens (wireText (wireFields n (p.countsOf threads)))) i j =
      some ((formatZd c).take (maxPostResponseDigits - 1)) := by
  have hshort := (short_wireFields_iff hn).mpr hs
  have hk : k < 3 := (List.getElem?_eq_some_iff.mp hc).1
  rw [getStatistic_eq (header_of_short hn hs).2]
  refine token_of_uncut comma_not_mem_wireFields hshort ?_
  have hat := getElem?_countsOf (p := p) ht j hk
  rw [hc] at hat
  rw [wireFields, Nat.add_comm 2, List.getElem?_cons_succ, List.getElem?_cons_succ, List.getElem?_map, hat]
  rfl

variable {reactorId : Nat} {r : Fin maxThreadCount}

theorem writtenThreads_sublist (hid : (p.stats r).tlsId = reactorId) :
    (p.writtenThreads reactorId).Sublist (p.otherThreads r) := by
  apply List.monotone_filter_right
  intro i hi
  rw [decide_eq_true_eq] at hi ⊢
  rintro rfl
  exact hi hid

theorem writtenThreads_eq_iff (hid : (p.stats r).tlsId = reactorId) :
    p.writtenThreads reactorId = p.otherThreads r ↔
      ∀ i ∈ p.otherThreads r, (p.stats i).tlsId ≠ reactorId := by
  constructor
  · intro h i hi
    rw [← h, writtenThreads, List.mem_filter, decide_eq_true_eq] at hi
    exact hi.2
  · intro h
    apply List.filter_congr
    intro i hi
    rw [decide_eq_decide]
    constructor
    · rintro hne rfl
      exact hne hid
    · intro hne
      exact h i (List.mem_filter.mpr ⟨hi, decide_eq_true hne⟩)

theorem mem_countsOf {c : Nat} (h : c ∈ p.countsOf threads) :
    ∃ (i : Nat) (t : Fin maxThreadCount) (j : Fin maxSizeClassCount) (k : Nat),
      threads[i]? = some t ∧ ((p.stats t).sizeClassStats j).counts[k]? = some c := by
  obtain ⟨t, ht, hc⟩ := List.mem_flatMap.mp h
  obtain ⟨j, -, hj⟩ := List.mem_flatMap.mp hc
  obtain ⟨i, hi⟩ := List.mem_iff_getElem?.mp ht
  obtain ⟨k, hk⟩ := List.mem_iff_getElem?.mp hj
  exact ⟨i, t, j, k, hi, hk⟩

/-- The last count alone tells that no thread and no separator before it is missing. -/
theorem written_of_last (hid : (p.stats r).tlsId = reactorId) (hn : (p.otherThreads r).length < maxThreadCount)
    {tokens : List (List Char)}
    (htok : tokens = csvDataTokens (wireText (wireFields (p.otherThreads r).length
      (p.countsOf (p.writtenThreads reactorId)))))
    (hclass : getSizeClassCount tokens = some (numeral maxSizeClassCount))
    (hlast : ∀ t, (p.otherThreads r)[(p.otherThreads r).length - 1]? = some t →
      getPeakUsageCount tokens ((p.otherThreads r).length - 1) 20 =
        some (numeral ((p.stats t).sizeClassStats 20).peakUsageCount))
    (hne : p.otherThreads r ≠ []) :
    p.writtenThreads reactorId = p.otherThreads r ∧
      ∀ c ∈ (p.countsOf (p.otherThreads r)).dropLast, (formatZd c).length < maxPostResponseDigits - 1 := by
  have hpos := List.length_pos_of_ne_nil hne
  have hat := List.getElem?_eq_getElem (Nat.sub_lt hpos Nat.one_pos)
  have htoken := hlast _ hat
  have hle := (writtenThreads_sublist hid).length_le
  have hlen : (wireFields (p.otherThreads r).length (p.countsOf (p.writtenThreads reactorId))).length =
      (p.writtenThreads reactorId).length * 63 + 2 := by
    rw [wireFields, List.length_cons, List.length_cons, List.length_map, length_countsOf]
  rw [getPeakUsageCount, getStatistic_eq hclass, htok] at htoken
  obtain ⟨hall, hshort⟩ := uncut_of_token comma_not_mem_wireFields (by omega) htoken Nat.toDigits_ne_nil
  have heq := (writtenThreads_sublist hid).eq_of_length (by omega)
  rw [heq] at hshort
  exact ⟨heq, (short_wireFields_iff hn).mp hshort⟩

theorem length_wireText {n : Nat} {cs : List Nat} (hn : n < maxThreadCount) (h : ∀ c ∈ cs, c < 2 ^ 63) :
    (wireText (wireFields n cs)).length = (numeral n).length + 4 + (cs.map fieldWidth).sum := by
  have hlen := (length_numeral_lt_iff (k := 3) (by decide)).mpr (hn.trans (by decide))
  have hclass : (cutField (maxPostResponseDigits - 1) ',' (numeral maxSizeClassCount)).length = 3 := by
    decide +kernel
  have hcounts : (cutText (maxPostResponseDigits - 1) ',' (cs.map formatZd)).length =
      (cs.map fieldWidth).sum := by
    rw [cutText, List.flatMap_map, List.length_flatMap]
    congr 1
    apply List.map_congr_left
    intro c hc
    rw [formatZd_of_lt (h c hc), cutField, List.length_take, List.length_append, fieldWidth, Nat.min_comm]
    rfl
  rw [wireText, wireFields, cutText_cons, cutText_cons, List.length_append, List.length_append, hcounts,
    hclass, cutField_of_lt (hlen.trans (by decide)), List.length_append, List.length_singleton]
  omega

theorem mem_dropLast_or_getLast? {α : Type*} {c : α} {cs : List α} (h : c ∈ cs) :
    c ∈ cs.dropLast ∨ c ∈ cs.getLast? := by
  have hne := List.ne_nil_of_mem h
  rw [← List.dropLast_append_getLast hne, List.mem_append, List.mem_singleton] at h
  refine h.imp_right ?_
  rintro rfl
  exact List.getLast?_eq_some_getLast hne

theorem FitsWire.lt (h : p.FitsWire reactorId r) {c : Nat} (hc : c ∈ p.countsOf (p.otherThreads r)) :
    c < 10 ^ 15 := by
  rcases mem_dropLast_or_getLast? hc with hd | hl
  · exact (h.short c hd).trans (by decide)
  · exact h.last c hl

theorem survivesWire_of_fitsWire (hr : r ∈ p.observedThreads) (hid : (p.stats r).tlsId = reactorId)
    (h : p.FitsWire reactorId r) : p.SurvivesWire reactorId r := by
  have hn := length_otherThreads_lt hr
  have hs : ∀ c ∈ (p.countsOf (p.otherThreads r)).dropLast,
      (formatZd c).length < maxPostResponseDigits - 1 := by
    intro c hc
    have hlt := h.short c hc
    rw [formatZd_of_lt (by omega)]
    exact (length_numeral_lt_iff (by decide)).mpr hlt
  have hroom := h.room
  rw [← length_wireText hn fun c hc => (h.lt hc).trans (by decide)] at hroom
  have hwritten := @updatePostResponse_eq p reactorId r hr
  rw [(writtenThreads_eq_iff hid).mpr h.own] at hwritten
  refine ⟨_, hwritten.trans (if_pos hroom), hroom, (header_of_short hn hs).1, (header_of_short hn hs).2, ?_⟩
  intro i t ht j
  refine reads_iff.mpr fun k c hc => ?_
  have hmem : c ∈ p.countsOf (p.otherThreads r) := by
    have hat := getElem?_countsOf (p := p) ht j (List.getElem?_eq_some_iff.mp hc).1
    exact List.mem_of_getElem? (hat.trans hc)
  rw [getStatistic_of_short hn hs ht hc, take_formatZd_eq_iff.mpr (h.lt hmem)]

theorem fitsWire_of_survivesWire (hr : r ∈ p.observedThreads) (hid : (p.stats r).tlsId = reactorId)
    (h : p.SurvivesWire reactorId r) : p.FitsWire reactorId r := by
  have hn := length_otherThreads_lt hr
  obtain ⟨text, hwritten, hfits, -, hclass, hcounts⟩ := h
  rw [updatePostResponse_eq hr, Option.ite_none_right_eq_some] at hwritten
  obtain ⟨hroom, htext⟩ := hwritten
  obtain rfl := Option.some.inj htext
  rcases eq_or_ne (p.otherThreads r) [] with hnil | hne
  · have hcs : p.countsOf (p.otherThreads r) = [] := by rw [hnil, countsOf, List.flatMap_nil]
    constructor
    case own => simp [hnil]
    case short => simp [hcs]
    case last => simp [hcs]
    case room =>
      rw [hcs, hnil]
      decide
  · obtain ⟨heq, hs⟩ := written_of_last hid hn rfl hclass (fun t ht => (hcounts _ t ht 20).2.2) hne
    rw [heq] at hroom hcounts
    have hlt : ∀ c ∈ p.countsOf (p.otherThreads r), c < 10 ^ 15 := by
      intro c hc
      obtain ⟨i, t, j, k, ht, hk⟩ := mem_countsOf hc
      have hread := reads_iff.mp (hcounts i t ht j) k c hk
      rw [getStatistic_of_short hn hs ht hk] at hread
      exact take_formatZd_eq_iff.mp (Option.some.inj hread)
    refine ⟨(writtenThreads_eq_iff hid).mp heq, ?_, fun c hc => hlt c (List.mem_of_getLast? hc), ?_⟩
    · intro c hc
      have hlen := hs c hc
      rw [formatZd_of_lt ((hlt c (List.mem_of_mem_dropLast hc)).trans (by decide))] at hlen
      exact (length_numeral_lt_iff (by decide)).mp hlen
    · rwa [length_wireText hn fun c hc => (hlt c hc).trans (by decide)] at hroom

/-- With the reactor thread observed under its id, the statistics survive the wire just when the
fields fit. -/
theorem survivesWire_iff_fitsWire (hr : r ∈ p.observedThreads) (hid : (p.stats r).tlsId = reactorId) :
    p.SurvivesWire reactorId r ↔ p.FitsWire reactorId r :=
  ⟨fitsWire_of_survivesWire hr hid, survivesWire_of_fitsWire hr hid⟩

def observing (n : Nat) (hn : n ≤ maxThreadCount) : Profiler :=
  { observedThreadCount := n, stats := fun i => { tlsId := i + 1 }, observed_le := hn }

def counting : Profiler :=
  { observing 3 (by decide) with
    stats := fun i =>
      { tlsId := i + 1
        sizeClassStats := fun j =>
          { allocCount := 123456789 + 1000 * i + j
            freeCount := 98765 * i + j
            peakUsageCount := 4321 + j } } }

theorem survivesWire_of_three_threads :
    0 ∈ counting.observedThreads ∧ (counting.stats 0).tlsId = 1 ∧ counting.SurvivesWire 1 0 ∧
      ((counting.stats 2).sizeClassStats 20).allocCount = 123458809 := by
  have hr : 0 ∈ counting.observedThreads := by decide +kernel
  refine ⟨hr, rfl, (survivesWire_iff_fitsWire hr rfl).mpr ?_, rfl⟩
  constructor
  case own => decide +kernel
  case short => decide +kernel
  case last =>
    have hlast : (counting.countsOf (counting.otherThreads 0)).getLast? = some 4341 := by decide +kernel
    simp [hlast]
  case room => decide +kernel

/-- Two bytes for each count of 33 threads are too many. -/
theorem not_survivesWire_of_34_threads :
    0 ∈ (observing 34 (by decide)).observedThreads ∧ ((observing 34 (by decide)).stats 0).tlsId = 1 ∧
      ¬ (observing 34 (by decide)).SurvivesWire 1 0 := by
  have hr : 0 ∈ (observing 34 (by decide)).observedThreads := by decide +kernel
  refine ⟨hr, rfl, fun h => ?_⟩
  have hroom := (fitsWire_of_survivesWire hr rfl h).room
  exact absurd hroom (by decide +kernel)

end Profiler
end Metamalloc.Profiling
