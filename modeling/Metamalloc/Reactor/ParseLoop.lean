import Metamalloc.Library.FueledLoops
import Metamalloc.Library.Word64
import Metamalloc.Reactor.HttpRequests

/-! The loop of `parse_http_request` with the arithmetic of the machine: positions and lengths are 64-bit words, and a
search that finds nothing returns `npos`. -/
namespace Metamalloc.Reactor
open Library.Word64 Library.TextSearch Library.FueledLoops

abbrev npos : Nat := 2^64 - 1

def findPosition (pattern text : List Char) : Nat := (find pattern text).getD npos

def view (cache : List Char) (start length : Nat) : List Char := (cache.drop start).take length

/-- The local variables of the loop, with what has been written into the array of requests at which index. -/
structure ParseState where
  numProcessedCharacters : Nat := 0
  httpRequestCount : Nat := 0
  httpRequests : List (Nat × HttpRequest) := []

/-- One round of the loop; a result is that of `break` or of the early return. -/
def parseIteration (cache : List Char) (cacheIndex : Nat) (st : ParseState) :
    ParseState ⊕ (Bool × List (Nat × HttpRequest)) :=
  let bufferStart := add64 cacheIndex st.numProcessedCharacters
  let bufferLength := sub64 (sub64 cache.length cacheIndex) st.numProcessedCharacters
  let buffer := view cache bufferStart bufferLength
  if findPosition hostAttribute buffer = npos then .inr (true, st.httpRequests)
  else
    let verbLineEndPosition := findPosition newline buffer
    if verbLineEndPosition = npos then .inr (false, st.httpRequests)
    else
      let verbLine := view cache bufferStart verbLineEndPosition
      let bodyStartPosition := findPosition doubleNewline buffer
      let body := view cache (add64 (add64 bufferStart bodyStartPosition) 4)
        (sub64 (sub64 bufferLength bodyStartPosition) 4)
      .inl
        { numProcessedCharacters := add64 st.numProcessedCharacters (add64 bodyStartPosition 4)
          httpRequestCount := add64 st.httpRequestCount 1
          httpRequests := st.httpRequests ++ [(st.httpRequestCount, ⟨extractVerb verbLine, body⟩)] }

section
variable {cache pattern text : List Char} {cacheIndex : Nat} {st st' : ParseState}

theorem findPosition_eq_npos_iff (hpattern : pattern ≠ []) (htext : text.length < 2^64) :
    findPosition pattern text = npos ↔ ¬ pattern <:+: text := by
  rw [findPosition, ← find_eq_none_iff]
  cases hfind : find pattern text with
  | none => exact iff_of_true rfl rfl
  | some n =>
    have hle := find_add_length_le hfind
    have hpos := List.length_pos_of_ne_nil hpattern
    refine iff_of_false ?_ (Option.some_ne_none n)
    rw [Option.getD_some, npos]
    omega

/-- The position is inside the cache, and there are at most a third as many requests as characters behind it. -/
structure Inside (cache : List Char) (cacheIndex : Nat) (st : ParseState) : Prop where
  position_le : cacheIndex + st.numProcessedCharacters ≤ cache.length
  count_le : 3 * st.httpRequestCount ≤ st.numProcessedCharacters

def remaining (cache : List Char) (cacheIndex : Nat) (st : ParseState) : List Char :=
  cache.drop (cacheIndex + st.numProcessedCharacters)

/-- The advance of a round: the sum with `npos` wraps around to the 3 characters that a `Host: ` leaves room for. -/
theorem add64_findPosition (htext : text.length < 2^64) (hhost : hostAttribute <:+: text) :
    add64 (findPosition doubleNewline text) 4 = processedCharacters text ∧
      3 ≤ processedCharacters text ∧ processedCharacters text ≤ text.length := by
  rw [findPosition, processedCharacters]
  cases hfind : find doubleNewline text with
  | none =>
    have hlength : 6 ≤ text.length := hhost.length_le
    exact ⟨by decide +kernel, le_rfl, by dsimp only; omega⟩
  | some n =>
    have hle : n + 4 ≤ text.length := find_add_length_le hfind
    exact ⟨add64_of_lt (by rw [Option.getD_some]; omega), by dsimp only; omega, hle⟩

theorem add64_assoc (a b c : Nat) : add64 (add64 a b) c = add64 a (add64 b c) := by
  unfold add64
  rw [Nat.mod_add_mod, Nat.add_mod_mod, Nat.add_assoc]

/-- The two subtractions for the length of the body take off the advance at once. -/
theorem sub64_sub64 (a b c : Nat) : sub64 (sub64 a b) c = sub64 a (add64 b c) := by
  unfold sub64 add64
  omega

theorem view_remaining (hcache : cache.length < 2^64) (h : Inside cache cacheIndex st) :
    add64 cacheIndex st.numProcessedCharacters = cacheIndex + st.numProcessedCharacters ∧
    sub64 (sub64 cache.length cacheIndex) st.numProcessedCharacters = (remaining cache cacheIndex st).length ∧
    view cache (add64 cacheIndex st.numProcessedCharacters)
      (sub64 (sub64 cache.length cacheIndex) st.numProcessedCharacters) = remaining cache cacheIndex st := by
  have hle := h.position_le
  have hstart : add64 cacheIndex st.numProcessedCharacters = cacheIndex + st.numProcessedCharacters :=
    add64_of_lt (by omega)
  have hlength : sub64 (sub64 cache.length cacheIndex) st.numProcessedCharacters =
      (remaining cache cacheIndex st).length := by
    rw [sub64_sub64, hstart, sub64_of_le hle hcache, remaining, List.length_drop]
  refine ⟨hstart, hlength, ?_⟩
  rw [hlength, hstart, view, remaining, List.take_length]

/-- The loop goes on where the rest of the cache is taken for another request. -/
theorem parseIteration_of_holdsRequest (hcache : cache.length < 2^64) (h : Inside cache cacheIndex st)
    (hholds : HoldsRequest (remaining cache cacheIndex st)) :
    parseIteration cache cacheIndex st = .inl
      { numProcessedCharacters := st.numProcessedCharacters + processedCharacters (remaining cache cacheIndex st)
        httpRequestCount := st.httpRequestCount + 1
        httpRequests := st.httpRequests ++ [(st.httpRequestCount,
          ⟨extractVerb ((remaining cache cacheIndex st).take ((find newline (remaining cache cacheIndex st)).getD 0)),
            behindRequest (remaining cache cacheIndex st)⟩)] } := by
  obtain ⟨hstart, hlength, hview⟩ := view_remaining hcache h
  obtain ⟨hhost, hnewline⟩ := hholds
  have hle := h.position_le
  have hcount := h.count_le
  have hremaining : (remaining cache cacheIndex st).length = cache.length - (cacheIndex + st.numProcessedCharacters) :=
    List.length_drop
  obtain ⟨hadvance, h3, hprocessed⟩ := add64_findPosition (by omega) hhost
  have hbody : view cache (add64 (add64 (add64 cacheIndex st.numProcessedCharacters)
      (findPosition doubleNewline (remaining cache cacheIndex st))) 4)
      (sub64 (sub64 (remaining cache cacheIndex st).length (findPosition doubleNewline (remaining cache cacheIndex st)))
        4) = behindRequest (remaining cache cacheIndex st) := by
    rw [add64_assoc, sub64_sub64, hadvance, hstart, add64_of_lt (by omega), sub64_of_le hprocessed (by omega), view,
      ← List.drop_drop]
    exact List.take_of_length_le List.length_drop.le
  have hverb : view cache (add64 cacheIndex st.numProcessedCharacters)
      (findPosition newline (remaining cache cacheIndex st)) =
      (remaining cache cacheIndex st).take ((find newline (remaining cache cacheIndex st)).getD 0) := by
    obtain ⟨n, hn⟩ := exists_find_iff.mpr hnewline
    rw [hstart, view, findPosition, hn]
    rfl
  have hhost' : findPosition hostAttribute (remaining cache cacheIndex st) ≠ npos :=
    fun hc => (findPosition_eq_npos_iff (by decide) (by omega)).mp hc hhost
  have hnewline' : findPosition newline (remaining cache cacheIndex st) ≠ npos :=
    fun hc => (findPosition_eq_npos_iff (by decide) (by omega)).mp hc hnewline
  rw [parseIteration]
  dsimp only
  rw [hview, hlength, if_neg hhost', if_neg hnewline', hverb, hbody, hadvance, add64_of_lt (by omega),
    add64_of_lt (by omega)]

/-- Where it does not go on, it ends as the loop over the texts does. -/
theorem parseIteration_of_not_holdsRequest (hcache : cache.length < 2^64) (h : Inside cache cacheIndex st)
    (hholds : ¬ HoldsRequest (remaining cache cacheIndex st)) :
    parseIteration cache cacheIndex st =
      .inr ((parseRequests (remaining cache cacheIndex st) st.httpRequestCount).1, st.httpRequests) := by
  obtain ⟨-, -, hview⟩ := view_remaining hcache h
  have hlength : (remaining cache cacheIndex st).length < 2^64 :=
    (List.length_drop.trans_le (Nat.sub_le _ _)).trans_lt hcache
  rw [parseIteration]
  dsimp only
  rw [hview]
  by_cases hhost : hostAttribute <:+: remaining cache cacheIndex st
  · have hnewline : ¬ newline <:+: remaining cache cacheIndex st := fun hn => hholds ⟨hhost, hn⟩
    rw [if_neg fun hc => (findPosition_eq_npos_iff (by decide) hlength).mp hc hhost,
      if_pos ((findPosition_eq_npos_iff (by decide) hlength).mpr hnewline), parseRequests_of_no_newline hhost hnewline]
  · rw [if_pos ((findPosition_eq_npos_iff (by decide) hlength).mpr hhost), parseRequests_of_no_host hhost]

theorem parseIteration_inl (hcache : cache.length < 2^64) (h : Inside cache cacheIndex st)
    (hgo : parseIteration cache cacheIndex st = .inl st') :
    HoldsRequest (remaining cache cacheIndex st) ∧
      st'.numProcessedCharacters = st.numProcessedCharacters + processedCharacters (remaining cache cacheIndex st) ∧
      st.numProcessedCharacters + 3 ≤ st'.numProcessedCharacters ∧ Inside cache cacheIndex st' := by
  by_cases hholds : HoldsRequest (remaining cache cacheIndex st)
  · rw [parseIteration_of_holdsRequest hcache h hholds] at hgo
    cases hgo
    have hlength : (remaining cache cacheIndex st).length = cache.length - (cacheIndex + st.numProcessedCharacters) :=
      List.length_drop
    obtain ⟨-, h3, hle⟩ := add64_findPosition (by omega) hholds.1
    have hposition := h.position_le
    have hcount := h.count_le
    exact ⟨hholds, rfl, by dsimp only; omega, by dsimp only; omega, by dsimp only; omega⟩
  · rw [parseIteration_of_not_holdsRequest hcache h hholds] at hgo
    cases hgo

def outcome (cache : List Char) (cacheIndex : Nat) (st : ParseState) : Bool × List (Nat × HttpRequest) :=
  let (result, requests) := parseRequests (remaining cache cacheIndex st) st.httpRequestCount
  (result, st.httpRequests ++ requests)

theorem outcome_of_inl (hcache : cache.length < 2^64) (h : Inside cache cacheIndex st)
    (hgo : parseIteration cache cacheIndex st = .inl st') :
    outcome cache cacheIndex st' = outcome cache cacheIndex st := by
  obtain ⟨hholds, -⟩ := parseIteration_inl hcache h hgo
  rw [parseIteration_of_holdsRequest hcache h hholds] at hgo
  cases hgo
  have hrest (count : Nat) (requests : List (Nat × HttpRequest)) : remaining cache cacheIndex
      ⟨st.numProcessedCharacters + processedCharacters (remaining cache cacheIndex st), count, requests⟩ =
        behindRequest (remaining cache cacheIndex st) := by
    rw [behindRequest, remaining, ← Nat.add_assoc, ← List.drop_drop]
    rfl
  rw [outcome, outcome, hrest, parseRequests_of_newline hholds.1 hholds.2]
  dsimp only
  rw [List.append_assoc]
  rfl

/-- The loop ends with what the loop over the texts finds. In every round the position is inside the cache, where no
sum has wrapped around, and the round moves it on by 3 characters at least. -/
theorem parseHttpRequest_terminates_inside (r : HTTPCPRReactor) (hcache : r.cache.length < 2^64) :
    (∀ fuel, (r.cache.length - r.cacheIndex) / 3 < fuel →
      run (parseIteration r.cache r.cacheIndex) fuel {} = some r.parseHttpRequest.1) ∧
    ∀ st, Reaches (parseIteration r.cache r.cacheIndex) {} st →
      add64 r.cacheIndex st.numProcessedCharacters = r.cacheIndex + st.numProcessedCharacters ∧
      r.cacheIndex + st.numProcessedCharacters ≤ r.cache.length ∧
      ∀ st', parseIteration r.cache r.cacheIndex st = .inl st' →
        st.numProcessedCharacters + 3 ≤ st'.numProcessedCharacters := by
  have hstart : Inside r.cache r.cacheIndex {} := ⟨r.cacheIndex_le, le_rfl⟩
  constructor
  · intro fuel hfuel
    refine run_eq (P := Inside r.cache r.cacheIndex)
      (μ := fun st => (r.cache.length - (r.cacheIndex + st.numProcessedCharacters)) / 3)
      (f := outcome r.cache r.cacheIndex) hstart (fun st st' h hgo => ?_) (fun st result h hend => ?_) hfuel
    · obtain ⟨-, -, h3, hinside⟩ := parseIteration_inl hcache h hgo
      have hle := hinside.position_le
      exact ⟨hinside, by omega, outcome_of_inl hcache h hgo⟩
    · have hholds : ¬ HoldsRequest (remaining r.cache r.cacheIndex st) := by
        intro hholds
        rw [parseIteration_of_holdsRequest hcache h hholds] at hend
        cases hend
      rw [parseIteration_of_not_holdsRequest hcache h hholds] at hend
      cases hend
      rw [outcome]
      dsimp only
      rw [parseRequests_of_not_holdsRequest hholds, List.append_nil]
  · intro st hst
    have hinside : Inside r.cache r.cacheIndex st :=
      hst.invariant hstart fun y z hy hz => (parseIteration_inl hcache hy hz).2.2.2
    exact ⟨(view_remaining hcache hinside).1, hinside.position_le,
      fun st' hgo => (parseIteration_inl hcache hinside hgo).2.2.1⟩

end

/-- A `Host: ` line without a blank line behind it: the position moves on by the 3 of `npos + 4`. -/
theorem parseHttpRequest_terminates_without_blank_line : ∃ r : HTTPCPRReactor, r.cache = hostAttribute ++ newline ∧
    run (parseIteration r.cache r.cacheIndex) 3 {} = some r.parseHttpRequest.1 := by
  let r : HTTPCPRReactor := { cache := hostAttribute ++ newline }
  exact ⟨r, rfl, (parseHttpRequest_terminates_inside r (by decide)).1 3 (by decide)⟩

end Metamalloc.Reactor
