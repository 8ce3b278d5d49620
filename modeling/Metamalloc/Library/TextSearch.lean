import Mathlib.Data.List.Infix

/-! The first place at which a pattern stands in a text. -/
namespace Metamalloc.Library.TextSearch

variable {α : Type*} [DecidableEq α] {a : α} {n : Nat} {pattern text more l : List α}

/-- The position of the first occurrence of the pattern. -/
def find (pattern : List α) : List α → Option Nat
  | [] => if pattern = [] then some 0 else none
  | a :: text => if pattern <+: a :: text then some 0 else (find pattern text).map (· + 1)

theorem find_eq_none_iff : find pattern text = none ↔ ¬ pattern <:+: text := by
  induction text with
  | nil => simp [find]
  | cons b text ih =>
    rw [find, List.infix_cons_iff]
    split
    · next h => simp [h]
    · next h => simp [h, ih]

theorem exists_find_iff : (∃ n, find pattern text = some n) ↔ pattern <:+: text := by
  rw [← Option.ne_none_iff_exists', Ne, find_eq_none_iff, not_not]

theorem find_eq_zero (h : pattern <+: text) : find pattern text = some 0 := by
  cases text with
  | nil => exact if_pos (List.prefix_nil.mp h)
  | cons b text => exact if_pos h

theorem find_cons_succ (h : ¬ pattern <+: a :: text) :
    find pattern (a :: text) = (find pattern text).map (· + 1) :=
  if_neg h

/-- The pattern cannot begin where its first letter does not stand. -/
theorem find_append_of_not_mem (h : a ∉ l) :
    find (a :: pattern) (l ++ text) = (find (a :: pattern) text).map (· + l.length) := by
  induction l with
  | nil => simp
  | cons b l ih =>
    rw [List.mem_cons, not_or] at h
    rw [List.cons_append, find_cons_succ, ih h.2, Option.map_map]
    · rfl
    · rw [List.cons_prefix_cons]
      exact fun hp => h.1 hp.1

theorem find_add_length_le (h : find pattern text = some n) : n + pattern.length ≤ text.length := by
  induction text generalizing n with
  | nil =>
    rw [find] at h
    split at h
    · next hp =>
      cases h
      simp [hp]
    · cases h
  | cons b text ih =>
    rw [find] at h
    split at h
    · next hp =>
      cases h
      have hle := hp.length_le
      omega
    · obtain ⟨m, hm, rfl⟩ := Option.map_eq_some_iff.mp h
      have hle := ih hm
      rw [List.length_cons]
      omega

/-- An occurrence stays the first one when the text goes on. -/
theorem find_append_of_eq_some (h : find pattern text = some n) : find pattern (text ++ more) = some n := by
  induction text generalizing n with
  | nil =>
    rw [find] at h
    split at h
    · next hp =>
      cases h
      exact find_eq_zero (by simp [hp])
    · cases h
  | cons b text ih =>
    have hle := find_add_length_le h
    rw [find] at h
    split at h
    · next hp =>
      cases h
      exact find_eq_zero (hp.trans (List.prefix_append _ _))
    · next hp =>
      obtain ⟨m, hm, rfl⟩ := Option.map_eq_some_iff.mp h
      rw [List.cons_append, find_cons_succ, ih hm]
      · rfl
      · intro hmore
        refine hp (List.prefix_of_prefix_length_le hmore (List.prefix_append (b :: text) more) ?_)
        omega

omit [DecidableEq α] in
/-- What stands in front of the first stop ends before any part that has a stop in it. -/
theorem length_takeWhile_append_lt {go : α → Bool} (ha : a ∈ l) (hgo : go a = false) :
    ((l ++ text).takeWhile go).length < l.length := by
  induction l with
  | nil => cases ha
  | cons b l ih =>
    rw [List.cons_append, List.takeWhile_cons]
    split
    · next hb =>
      have hmem : a ∈ l := by
        rcases List.mem_cons.mp ha with rfl | hmem
        · rw [hgo] at hb
          cases hb
        · exact hmem
      exact Nat.succ_lt_succ (ih hmem)
    · exact Nat.zero_lt_succ _

end Metamalloc.Library.TextSearch
