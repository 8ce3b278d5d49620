import Metamalloc.Reactor.HttpRequests

/-! What one connection leaves in the cache for the next. -/
namespace Metamalloc.Reactor
open Library.TextSearch

section
variable {buffer : List Char} {requestCount : Nat} {r : HTTPCPRReactor} {connections : List (List Char)}

/-- Wherever the loop finds a `Host: `, it also finds the end of a line. -/
def Complete (buffer : List Char) : Prop :=
  ∀ n, hostAttribute <:+: behindRequest^[n] buffer → newline <:+: behindRequest^[n] buffer

theorem complete_iff_of_holdsRequest (h : HoldsRequest buffer) :
    Complete buffer ↔ Complete (behindRequest buffer) := by
  constructor
  · intro hc n
    exact hc (n + 1)
  · rintro hc (_ | n)
    · exact fun _ => h.2
    · exact hc n

theorem parseRequests_fst_iff : (parseRequests buffer requestCount).1 = true ↔ Complete buffer := by
  induction buffer, requestCount using parseRequests.induct with
  | case1 buffer requestCount h hfind =>
    have hn := find_eq_none_iff.mp hfind
    rw [parseRequests_of_no_newline h hn]
    exact iff_of_false (by decide) fun hc => hn (hc 0 h)
  | case2 buffer requestCount h verbLineEnd hfind result requests hrest ih =>
    have hholds : HoldsRequest buffer := ⟨h, exists_find_iff.mp ⟨_, hfind⟩⟩
    rw [parseRequests_of_newline hholds.1 hholds.2, complete_iff_of_holdsRequest hholds]
    exact ih
  | case3 buffer requestCount h =>
    rw [parseRequests_of_no_host h]
    refine iff_of_true rfl fun n hhost => ?_
    exact absurd (hhost.trans iterate_behindRequest_suffix.isInfix) h

theorem unconsumed_parseHttpRequest :
    r.parseHttpRequest.2.unconsumed = if (parseRequests r.unconsumed 0).1 then [] else r.unconsumed := by
  rw [HTTPCPRReactor.parseHttpRequest]
  cases hresult : (parseRequests r.unconsumed 0).1 with
  | true =>
    simp only [hresult, if_true]
    rw [HTTPCPRReactor.unconsumed]
    exact List.drop_of_length_le (Nat.add_sub_cancel' r.cacheIndex_le).ge
  | false => simp [hresult]

def handled (connections : List (List Char)) : HTTPCPRReactor :=
  connections.foldl (fun r read => (onDataReady read r).reactor) {}

/-- The text is consumed if it is complete, else all of it is left in the cache. -/
theorem unconsumed_onDataReady (read : List Char) (r : HTTPCPRReactor) :
    (onDataReady read r).reactor.unconsumed = r.unconsumed ∨
    (Complete (r.unconsumed ++ read.takeWhile (· ≠ '\x00')) ∧ (onDataReady read r).reactor.unconsumed = []) ∨
    (¬ Complete (r.unconsumed ++ read.takeWhile (· ≠ '\x00')) ∧
      (onDataReady read r).reactor.unconsumed = r.unconsumed ++ read.takeWhile (· ≠ '\x00')) := by
  rcases onDataReady_cases read with hnone | ⟨hne, hle⟩
  · exact .inl (by rw [hnone])
  · rw [onDataReady_of_ne_nil hne hle]
    dsimp only
    rw [unconsumed_parseHttpRequest, unconsumed_append, ← @parseRequests_fst_iff _ 0]
    split
    · next h => exact .inr (.inl ⟨h, rfl⟩)
    · next h => exact .inr (.inr ⟨h, rfl⟩)

theorem unconsumed_handled :
    (handled connections).unconsumed = [] ∨ ¬ Complete (handled connections).unconsumed := by
  induction connections using List.reverseRecOn with
  | nil => exact .inl rfl
  | append_singleton connections read ih =>
    rw [handled, List.foldl_concat, ← handled]
    rcases unconsumed_onDataReady read (handled connections) with h | ⟨-, h⟩ | ⟨hc, h⟩
    · rw [h]
      exact ih
    · exact .inl h
    · rw [h]
      exact .inr hc

theorem unconsumed_handled_of_complete (h : ∀ read ∈ connections, Complete (read.takeWhile (· ≠ '\x00'))) :
    (handled connections).unconsumed = [] := by
  induction connections using List.reverseRecOn with
  | nil => rfl
  | append_singleton connections read ih =>
    rw [List.forall_mem_append, List.forall_mem_singleton] at h
    have hempty := ih h.1
    have hcases := unconsumed_onDataReady read (handled connections)
    rw [hempty, List.nil_append] at hcases
    rw [handled, List.foldl_concat, ← handled]
    rcases hcases with hsame | ⟨-, hnew⟩ | ⟨hc, -⟩
    · exact hsame
    · exact hnew
    · exact absurd h.2 hc

theorem host_infix_of_not_complete (h : ¬ Complete buffer) : hostAttribute <:+: buffer := by
  rw [Complete, not_forall] at h
  obtain ⟨n, hn⟩ := h
  exact (Classical.not_imp.mp hn).1.trans iterate_behindRequest_suffix.isInfix

theorem onDataReady_parsed_congr (h : r.unconsumed = []) (read : List Char) :
    (onDataReady read r).parsed = (onDataReady read {}).parsed := by
  rcases onDataReady_cases read with hnone | ⟨hne, hle⟩
  · rw [hnone, hnone]
  · rw [onDataReady_of_ne_nil hne hle, onDataReady_of_ne_nil hne hle, h]
    rfl

/-- After any connections, what the next one sends is parsed as by a fresh reactor, whatever it is, just when nothing
is left in the cache. This is so where the text of each of the connections was complete. -/
theorem next_connection_alone_iff (connections : List (List Char)) :
    ((∀ read, (onDataReady read (handled connections)).parsed = (onDataReady read {}).parsed) ↔
      (handled connections).unconsumed = []) ∧
    ((∀ read ∈ connections, Complete (read.takeWhile (· ≠ '\x00'))) → (handled connections).unconsumed = []) := by
  refine ⟨⟨fun h => ?_, onDataReady_parsed_congr⟩, unconsumed_handled_of_complete⟩
  refine unconsumed_handled.resolve_right fun hc => ?_
  have hread := h ['x']
  have hfresh : parseRequests ['x'] 0 = (true, []) := parseRequests_eq_nothing_iff.mpr (by decide)
  rw [onDataReady_of_ne_nil (by decide) (by decide), onDataReady_of_ne_nil (by decide) (by decide)] at hread
  have hnothing := (Option.some.inj hread).trans hfresh
  exact parseRequests_eq_nothing_iff.mp hnothing
    ((host_infix_of_not_complete hc).trans (List.infix_append' [] _ _))

end

/-- One connection sends `Host: ` and no line end. The next one sends a whole request, and the parser takes what
both have sent for one text: its verb is none. -/
theorem unfinished_text_reaches_next_connection :
    (onDataReady exampleRequest (handled [hostAttribute])).parsed = some (true, [(0, ⟨.none, []⟩)]) ∧
    (onDataReady exampleRequest {}).parsed = some (true, [(0, ⟨.get, []⟩)]) := by
  have hleft : (handled [hostAttribute]).unconsumed = hostAttribute := by
    have hparse : parseRequests hostAttribute 0 = (false, []) :=
      parseRequests_of_no_newline (by decide) (by decide)
    change (onDataReady hostAttribute {}).reactor.unconsumed = _
    rw [onDataReady_of_ne_nil (by decide) (by decide)]
    dsimp only
    rw [unconsumed_parseHttpRequest, unconsumed_append]
    change (if (parseRequests hostAttribute 0).1 then _ else hostAttribute) = _
    rw [hparse]
    rfl
  rw [onDataReady_of_ne_nil (by decide) (by decide), onDataReady_of_ne_nil (by decide) (by decide), hleft]
  constructor
  · refine congrArg some ((parseRequests_eq_single_iff ..).mpr ?_)
    decide +kernel
  · refine congrArg some ((parseRequests_eq_single_iff ..).mpr ?_)
    decide +kernel

end Metamalloc.Reactor
