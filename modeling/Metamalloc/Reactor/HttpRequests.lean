import Mathlib.Logic.Function.Iterate
import Metamalloc.Library.TextSearch

/-! The reactor of the live profiler as far as it takes requests apart: the text it has received, and the loop over
the requests in it. -/
namespace Metamalloc.Reactor
open Library.TextSearch

abbrev receiveSize : Nat := 4096
abbrev maxIncomingHttpRequestCount : Nat := 32

inductive HTTPVerb where
  | none | post | get | put | del
  deriving DecidableEq

structure HttpRequest where
  verb : HTTPVerb := .none
  body : List Char := []
  deriving DecidableEq

def hostAttribute : List Char := ['H', 'o', 's', 't', ':', ' ']
def newline : List Char := ['\r', '\n']
def doubleNewline : List Char := ['\r', '\n', '\r', '\n']

def HTTPVerb.text : HTTPVerb → List Char
  | none => []
  | post => ['P', 'O', 'S', 'T']
  | get => ['G', 'E', 'T']
  | put => ['P', 'U', 'T']
  | del => ['D', 'E', 'L']

/-- Without a space the view on the verb has the length `npos`, and it is equal to none of them. -/
def extractVerb (verbLine : List Char) : HTTPVerb :=
  match find [' '] verbLine with
  | none => .none
  | some verbEnd =>
    let verb := verbLine.take verbEnd
    if verb = HTTPVerb.text .get then .get
    else if verb = HTTPVerb.text .post then .post
    else if verb = HTTPVerb.text .put then .put
    else if verb = HTTPVerb.text .del then .del
    else .none

/-- How far a request reaches, its blank line included. Where there is none, `npos + 4` wraps around to 3. -/
def processedCharacters (buffer : List Char) : Nat :=
  match find doubleNewline buffer with
  | none => 3
  | some bodyStart => bodyStart + 4

/-- What is behind a request: it is the body of the request, and the next requests are looked for in it. -/
def behindRequest (buffer : List Char) : List Char := buffer.drop (processedCharacters buffer)

theorem length_behindRequest_lt {buffer : List Char} (h : hostAttribute <:+: buffer) :
    (behindRequest buffer).length < buffer.length := by
  have hlength := h.length_le
  have hpos : 0 < processedCharacters buffer := by
    rw [processedCharacters]
    split <;> omega
  rw [behindRequest, List.length_drop]
  simp only [hostAttribute, List.length_cons] at hlength
  omega

/-- The loop of `parse_http_request`, with what it writes into the array of requests at which index. -/
def parseRequests (buffer : List Char) (requestCount : Nat) : Bool × List (Nat × HttpRequest) :=
  if _hhost : hostAttribute <:+: buffer then
    match find newline buffer with
    | none => (false, [])
    | some verbLineEnd =>
      let request : HttpRequest := ⟨extractVerb (buffer.take verbLineEnd), behindRequest buffer⟩
      let (result, requests) := parseRequests (behindRequest buffer) (requestCount + 1)
      (result, (requestCount, request) :: requests)
  else (true, [])
termination_by buffer.length
decreasing_by exact length_behindRequest_lt _hhost

/-- All connections share the cache; the characters in front of the index have been consumed. -/
structure HTTPCPRReactor where
  cache : List Char := []
  cacheIndex : Nat := 0
  cacheIndex_le : cacheIndex ≤ cache.length := by exact Nat.zero_le _

namespace HTTPCPRReactor

def unconsumed (r : HTTPCPRReactor) : List Char := r.cache.drop r.cacheIndex

/-- The buffer is appended as a C string. -/
def append (bytes : List Char) (r : HTTPCPRReactor) : HTTPCPRReactor where
  cache := r.cache ++ bytes.takeWhile (· ≠ '\x00')
  cacheIndex := r.cacheIndex
  cacheIndex_le := by
    rw [List.length_append]
    exact Nat.le_add_right_of_le r.cacheIndex_le

def parseHttpRequest (r : HTTPCPRReactor) : (Bool × List (Nat × HttpRequest)) × HTTPCPRReactor :=
  let (result, requests) := parseRequests r.unconsumed 0
  -- the index is only moved where the loop ends with `break`
  ((result, requests), if result then ⟨r.cache, r.cacheIndex + (r.cache.length - r.cacheIndex), by
    rw [Nat.add_sub_cancel' r.cacheIndex_le]⟩ else r)

end HTTPCPRReactor

/-- What `on_data_ready` does: where it writes into the buffer, what the parser returns and writes. -/
structure DataHandling where
  readBufferWrites : List Nat := []
  parsed : Option (Bool × List (Nat × HttpRequest)) := none
  reactor : HTTPCPRReactor

/-- No write leaves the buffer or the array of requests. -/
def DataHandling.InBounds (h : DataHandling) : Prop :=
  (∀ i ∈ h.readBufferWrites, i < receiveSize) ∧
    ∀ parsed ∈ h.parsed, ∀ w ∈ parsed.2, w.1 < maxIncomingHttpRequestCount

instance : DecidablePred DataHandling.InBounds := fun h =>
  inferInstanceAs (Decidable ((∀ i ∈ h.readBufferWrites, i < receiveSize) ∧
    ∀ parsed ∈ h.parsed, ∀ w ∈ parsed.2, w.1 < maxIncomingHttpRequestCount))

/-- The bytes are those that `receive` has put at the start of the buffer; there are none at the end of the stream
and where it fails. -/
def onDataReady (read : List Char) (r : HTTPCPRReactor) : DataHandling :=
  if 0 < read.length ∧ read.length ≤ receiveSize then
    let (parsed, r) := (r.append read).parseHttpRequest
    -- the terminator is written behind the bytes
    { readBufferWrites := List.range read.length ++ [read.length], parsed := some parsed, reactor := r }
  else { reactor := r }

section
variable {buffer : List Char} {requestCount n : Nat} {r : HTTPCPRReactor}

theorem parseRequests_of_no_host (h : ¬ hostAttribute <:+: buffer) :
    parseRequests buffer requestCount = (true, []) := by
  rw [parseRequests, dif_neg h]

theorem parseRequests_of_no_newline (h : hostAttribute <:+: buffer) (hn : ¬ newline <:+: buffer) :
    parseRequests buffer requestCount = (false, []) := by
  rw [parseRequests, dif_pos h, find_eq_none_iff.mpr hn]

theorem parseRequests_of_newline (h : hostAttribute <:+: buffer) (hn : newline <:+: buffer) :
    parseRequests buffer requestCount =
      ((parseRequests (behindRequest buffer) (requestCount + 1)).1,
        (requestCount, ⟨extractVerb (buffer.take ((find newline buffer).getD 0)), behindRequest buffer⟩) ::
          (parseRequests (behindRequest buffer) (requestCount + 1)).2) := by
  obtain ⟨verbLineEnd, hfind⟩ := exists_find_iff.mpr hn
  rw [parseRequests, dif_pos h, hfind]
  rfl

theorem parseRequests_eq_nothing_iff :
    parseRequests buffer requestCount = (true, []) ↔ ¬ hostAttribute <:+: buffer := by
  refine ⟨fun h hhost => ?_, parseRequests_of_no_host⟩
  by_cases hn : newline <:+: buffer
  · rw [parseRequests_of_newline hhost hn] at h
    exact List.cons_ne_nil _ _ (Prod.ext_iff.mp h).2
  · rw [parseRequests_of_no_newline hhost hn] at h
    exact Bool.false_ne_true (Prod.ext_iff.mp h).1

/-- One request is found, and all that is behind it is its body. -/
theorem parseRequests_eq_single_iff (buffer : List Char) (requestCount : Nat) (request : HttpRequest) :
    parseRequests buffer requestCount = (true, [(requestCount, request)]) ↔
      hostAttribute <:+: buffer ∧ newline <:+: buffer ∧ ¬ hostAttribute <:+: behindRequest buffer ∧
        request = ⟨extractVerb (buffer.take ((find newline buffer).getD 0)), behindRequest buffer⟩ := by
  by_cases h : hostAttribute <:+: buffer
  · by_cases hn : newline <:+: buffer
    · rw [parseRequests_of_newline h hn, and_iff_right h, and_iff_right hn,
        ← @parseRequests_eq_nothing_iff _ (requestCount + 1)]
      constructor
      · intro heq
        obtain ⟨hresult, hrequests⟩ := Prod.ext_iff.mp heq
        obtain ⟨hfirst, hrest⟩ := List.cons_eq_cons.mp hrequests
        exact ⟨Prod.ext hresult hrest, (Prod.ext_iff.mp hfirst).2.symm⟩
      · rintro ⟨hrest, rfl⟩
        rw [hrest]
    · rw [parseRequests_of_no_newline h hn]
      exact iff_of_false (by simp) fun hc => hn hc.2.1
  · rw [parseRequests_of_no_host h]
    exact iff_of_false (by simp) fun hc => h hc.1

def HoldsRequest (buffer : List Char) : Prop := hostAttribute <:+: buffer ∧ newline <:+: buffer

theorem parseRequests_of_not_holdsRequest (h : ¬ HoldsRequest buffer) :
    (parseRequests buffer requestCount).2 = [] := by
  by_cases hhost : hostAttribute <:+: buffer
  · rw [parseRequests_of_no_newline hhost fun hn => h ⟨hhost, hn⟩]
  · rw [parseRequests_of_no_host hhost]

theorem behindRequest_suffix : behindRequest buffer <:+ buffer := List.drop_suffix _ _

theorem HoldsRequest.of_behind (h : HoldsRequest (behindRequest buffer)) : HoldsRequest buffer :=
  ⟨h.1.trans behindRequest_suffix.isInfix, h.2.trans behindRequest_suffix.isInfix⟩

theorem iterate_behindRequest_suffix : behindRequest^[n] buffer <:+ buffer := by
  induction n with
  | zero => exact List.suffix_rfl
  | succ n ih =>
    rw [Function.iterate_succ_apply']
    exact behindRequest_suffix.trans ih

/-- There are more than `n` requests just when the text behind the first `n` is taken for another one. -/
theorem lt_length_parseRequests_iff :
    n < (parseRequests buffer requestCount).2.length ↔ HoldsRequest (behindRequest^[n] buffer) := by
  induction n generalizing buffer requestCount with
  | zero =>
    rw [Function.iterate_zero_apply]
    by_cases h : HoldsRequest buffer
    · simp [parseRequests_of_newline h.1 h.2, h]
    · simp [parseRequests_of_not_holdsRequest h, h]
  | succ n ih =>
    rw [Function.iterate_succ_apply, ← @ih (behindRequest buffer) (requestCount + 1)]
    by_cases h : HoldsRequest buffer
    · rw [parseRequests_of_newline h.1 h.2, List.length_cons, Nat.add_lt_add_iff_right]
    · rw [parseRequests_of_not_holdsRequest h, parseRequests_of_not_holdsRequest (mt HoldsRequest.of_behind h)]
      simp

theorem map_fst_parseRequests : (parseRequests buffer requestCount).2.map Prod.fst =
    List.range' requestCount (parseRequests buffer requestCount).2.length := by
  induction buffer, requestCount using parseRequests.induct with
  | case1 buffer requestCount h hfind =>
    rw [parseRequests_of_no_newline h (find_eq_none_iff.mp hfind)]
    rfl
  | case2 buffer requestCount h verbLineEnd hfind result requests hrest ih =>
    rw [parseRequests_of_newline h (exists_find_iff.mp ⟨_, hfind⟩), List.map_cons, ih, List.length_cons,
      List.range'_succ]
  | case3 buffer requestCount h =>
    rw [parseRequests_of_no_host h]
    rfl

theorem forall_lt_of_length_le (h : (parseRequests buffer 0).2.length ≤ n) :
    ∀ w ∈ (parseRequests buffer 0).2, w.1 < n := by
  intro w hw
  have hfst := List.mem_map_of_mem (f := Prod.fst) hw
  rw [map_fst_parseRequests, List.mem_range'_1, Nat.zero_add] at hfst
  exact hfst.2.trans_le h

/-- The array is left just when the text behind as many requests as it has room for is taken for another one. -/
theorem parseRequests_in_bounds_iff : (∀ w ∈ (parseRequests buffer 0).2, w.1 < n) ↔
    ¬ HoldsRequest (behindRequest^[n] buffer) := by
  rw [← @lt_length_parseRequests_iff buffer 0 n, not_lt]
  have hindex : (∀ w ∈ (parseRequests buffer 0).2, w.1 < n) ↔
      ∀ i ∈ (parseRequests buffer 0).2.map Prod.fst, i < n := by
    rw [List.forall_mem_map]
  rw [hindex, map_fst_parseRequests, ← List.range_eq_range']
  simp only [List.mem_range]
  constructor
  · intro h
    by_contra hlt
    exact absurd (h n (by omega)) (lt_irrefl n)
  · intro h i hi
    omega

theorem unconsumed_append (bytes : List Char) :
    (r.append bytes).unconsumed = r.unconsumed ++ bytes.takeWhile (· ≠ '\x00') :=
  List.drop_append_of_le_length r.cacheIndex_le

theorem onDataReady_of_empty : onDataReady [] r = { reactor := r } := if_neg (by simp)

theorem onDataReady_of_ne_nil {read : List Char} (hne : read ≠ []) (hle : read.length ≤ receiveSize) :
    onDataReady read r = ⟨List.range read.length ++ [read.length],
      some (parseRequests (r.unconsumed ++ read.takeWhile (· ≠ '\x00')) 0),
      (r.append read).parseHttpRequest.2⟩ := by
  rw [onDataReady, if_pos ⟨List.length_pos_of_ne_nil hne, hle⟩, ← unconsumed_append]
  rfl

/-- Nothing happens but to bytes that fit the buffer. -/
theorem onDataReady_cases (read : List Char) :
    (∀ r, onDataReady read r = { reactor := r }) ∨ (read ≠ [] ∧ read.length ≤ receiveSize) := by
  by_cases h : 0 < read.length ∧ read.length ≤ receiveSize
  · exact .inr ⟨List.ne_nil_of_length_pos h.1, h.2⟩
  · exact .inl fun r => if_neg h

theorem inBounds_of_lt {result : Bool} {requests : List (Nat × HttpRequest)} {reactor : HTTPCPRReactor}
    (hlt : n < receiveSize) (hrequests : ∀ w ∈ requests, w.1 < maxIncomingHttpRequestCount) :
    DataHandling.InBounds ⟨List.range n ++ [n], some (result, requests), reactor⟩ := by
  constructor
  · intro i hi
    rw [← List.range_succ, List.mem_range] at hi
    exact (Nat.le_of_lt_succ hi).trans_lt hlt
  · intro parsed hparsed
    cases Option.mem_some.mp hparsed
    exact hrequests

/-- Handling data stays within both arrays just when the buffer has room for the terminator and the text behind
32 requests is not taken for another one, or there is no data. -/
theorem onDataReady_in_bounds_iff (read : List Char) (hle : read.length ≤ receiveSize) (r : HTTPCPRReactor) :
    ((∀ i ∈ (onDataReady read r).readBufferWrites, i < receiveSize) ∧
      ∀ parsed ∈ (onDataReady read r).parsed, ∀ w ∈ parsed.2, w.1 < maxIncomingHttpRequestCount) ↔
    read = [] ∨ (read.length < receiveSize ∧
      ¬ (hostAttribute <:+: behindRequest^[32] (r.unconsumed ++ read.takeWhile (· ≠ '\x00')) ∧
        newline <:+: behindRequest^[32] (r.unconsumed ++ read.takeWhile (· ≠ '\x00')))) := by
  rcases eq_or_ne read [] with rfl | hne
  · rw [onDataReady_of_empty]
    simp
  · rw [onDataReady_of_ne_nil hne hle, or_iff_right hne]
    refine and_congr ?_ ?_
    · constructor
      · intro h
        exact h read.length (by simp)
      · intro h i hi
        have hi' : i ≤ read.length := by
          rcases List.mem_append.mp hi with hi | hi
          · exact (List.mem_range.mp hi).le
          · exact (List.mem_singleton.mp hi).le
        omega
    · rw [← HoldsRequest, ← parseRequests_in_bounds_iff]
      simp

end

def exampleRequest : List Char :=
  ['G', 'E', 'T', ' ', '/', ' ', 'H', 'T', 'T', 'P', '/', '1', '.', '1'] ++ newline ++ hostAttribute ++ ['a'] ++
    doubleNewline

theorem onDataReady_in_bounds_of_example :
    (∀ i ∈ (onDataReady exampleRequest {}).readBufferWrites, i < receiveSize) ∧
      ∀ parsed ∈ (onDataReady exampleRequest {}).parsed, ∀ w ∈ parsed.2, w.1 < maxIncomingHttpRequestCount :=
  (onDataReady_in_bounds_iff exampleRequest (by decide) {}).mpr (.inr ⟨by decide, by decide +kernel⟩)

/-- The terminator of a full buffer is written behind it, and 33 blank lines in front of a `Host: ` are taken for
that many requests. -/
theorem onDataReady_out_of_bounds :
    receiveSize ∈ (onDataReady (List.replicate 4096 'a') {}).readBufferWrites ∧
    ∃ read : List Char, read.length < receiveSize ∧ ∃ parsed ∈ (onDataReady read {}).parsed, ∃ w ∈ parsed.2,
      maxIncomingHttpRequestCount ≤ w.1 := by
  constructor
  · have hlength : (List.replicate 4096 'a').length = receiveSize := List.length_replicate
    have hne : List.replicate 4096 'a' ≠ [] := List.ne_nil_of_length_eq_add_one hlength
    rw [onDataReady_of_ne_nil hne hlength.le, hlength]
    exact List.mem_append_right _ (List.mem_singleton.mpr rfl)
  · let read : List Char := (List.replicate 33 doubleNewline).flatten ++ hostAttribute
    have hparse : ¬ ∀ w ∈ (parseRequests read 0).2, w.1 < maxIncomingHttpRequestCount := by
      rw [parseRequests_in_bounds_iff, not_not]
      exact ⟨by decide +kernel, by decide +kernel⟩
    have hread : onDataReady read {} = ⟨_, some (parseRequests read 0), _⟩ :=
      onDataReady_of_ne_nil (by decide +kernel) (by decide +kernel)
    refine ⟨read, by decide +kernel, parseRequests read 0, by rw [hread]; rfl, ?_⟩
    simpa using hparse

end Metamalloc.Reactor
