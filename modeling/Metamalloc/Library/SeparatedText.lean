import Mathlib.Algebra.BigOperators.Group.List.Basic
import Mathlib.Algebra.Ring.Nat
import Mathlib.Data.List.Basic

/-! Texts whose fields each end in a separator, and the tokens a split at the separator finds.
A field may be cut at a fixed width, its separator with it. -/
namespace Metamalloc.Library.SeparatedText

variable {α β : Type*}

section
variable {a : α} {k n : Nat} {x y : List α} {xs : List (List α)}

/-- The field and its separator, as far as the width `k` holds them. -/
def cutField (k : Nat) (a : α) (x : List α) : List α := (x ++ [a]).take k

def cutText (k : Nat) (a : α) (xs : List (List α)) : List α := xs.flatMap (cutField k a)

theorem cutField_of_lt (h : x.length < k) : cutField k a x = x ++ [a] :=
  List.take_of_length_le (by rw [List.length_append]; exact h)

theorem cutField_of_le (h : k ≤ x.length) : cutField k a x = x.take k :=
  List.take_append_of_le_length h

theorem not_mem_take (h : a ∉ x) : a ∉ x.take k := fun hm => h (List.mem_of_mem_take hm)

@[simp] theorem cutText_cons : cutText k a (x :: xs) = cutField k a x ++ cutText k a xs := rfl

theorem length_intercalate (hne : xs ≠ []) :
    ([a].intercalate xs).length + 1 = (xs.map fun x => x.length + 1).sum := by
  induction xs with
  | nil => exact absurd rfl hne
  | cons x xs ih =>
    cases xs with
    | nil => simp
    | cons y xs =>
      have hxs := ih (List.cons_ne_nil y xs)
      rw [List.intercalate_cons_cons, List.length_append, List.length_append, List.length_singleton, List.map_cons,
        List.sum_cons, ← hxs]
      omega

variable [DecidableEq α]

theorem length_splitOn (l : List α) : (l.splitOn a).length = l.count a + 1 := by
  induction l with
  | nil => rfl
  | cons b l ih =>
    rw [List.splitOn_cons_eq_if_modifyHead, List.count_cons]
    split
    · simp [ih]
    · simp [ih]

theorem count_cutField_le (h : a ∉ x) : (cutField k a x).count a ≤ 1 := by
  have hsub := (List.take_sublist k (x ++ [a])).count_le a
  rw [List.count_append, List.count_eq_zero_of_not_mem h] at hsub
  simpa [cutField] using hsub

theorem count_cutText_le (h : ∀ x ∈ xs, a ∉ x) : (cutText k a xs).count a ≤ xs.length := by
  induction xs with
  | nil => exact Nat.le_refl 0
  | cons x xs ih =>
    rw [List.forall_mem_cons] at h
    rw [cutText_cons, List.count_append, List.length_cons]
    have hx := count_cutField_le (k := k) h.1
    have hxs := ih h.2
    omega

/-- With as many separators as fields, the text ends in one. -/
theorem cutText_eq_append_of_count (h : ∀ x ∈ xs, a ∉ x) (hne : xs ≠ [])
    (hc : (cutText k a xs).count a = xs.length) : ∃ l, cutText k a xs = l ++ [a] := by
  induction xs with
  | nil => exact absurd rfl hne
  | cons x xs ih =>
    rw [List.forall_mem_cons] at h
    rw [cutText_cons, List.count_append, List.length_cons] at hc
    have hx := count_cutField_le (k := k) h.1
    have hxs := count_cutText_le (k := k) h.2
    rw [cutText_cons]
    rcases eq_or_ne xs [] with rfl | hne'
    · rcases Nat.lt_or_ge x.length k with hlt | hle
      · exact ⟨x, by rw [cutField_of_lt hlt]; simp [cutText]⟩
      · rw [cutField_of_le hle, List.count_eq_zero_of_not_mem (not_mem_take h.1)] at hc
        simp [cutText] at hc
    · obtain ⟨l, hl⟩ := ih h.2 hne' (by omega)
      exact ⟨cutField k a x ++ l, by rw [hl, List.append_assoc]⟩

theorem splitOn_append_singleton (l : List α) : (l ++ [a]).splitOn a = l.splitOn a ++ [[]] := by
  rw [List.splitOn_append_cons_self, List.splitOn_nil]

theorem count_intercalate (h : ∀ x ∈ xs, a ∉ x) (hne : xs ≠ []) : ([a].intercalate xs).count a + 1 = xs.length := by
  rw [← length_splitOn, List.splitOn_intercalate a h hne]

/-- A token where the last field belongs that is not empty: no field is missing, and no field
but the last has lost its separator. -/
theorem uncut_of_token (h : ∀ x ∈ xs, a ∉ x) (hn : xs.length ≤ n + 1)
    (ht : ((cutText k a xs).splitOn a)[n]? = some y) (hy : y ≠ []) :
    xs.length = n + 1 ∧ ∀ x ∈ xs.dropLast, x.length < k := by
  induction xs generalizing n with
  | nil =>
    rw [cutText, List.flatMap_nil, List.splitOn_nil, List.getElem?_singleton] at ht
    split at ht
    · exact absurd (Option.some.inj ht).symm hy
    · exact absurd ht (by simp)
  | cons x xs ih =>
    rw [List.forall_mem_cons] at h
    rw [cutText_cons] at ht
    rcases Nat.lt_or_ge x.length k with hlt | hle
    · rw [cutField_of_lt hlt, List.append_assoc, List.singleton_append,
        List.splitOn_append_cons_self_of_not_mem h.1] at ht
      cases n with
      | zero =>
        obtain rfl : xs = [] := List.length_eq_zero_iff.mp (by simpa using hn)
        simp
      | succ n =>
        obtain ⟨hlen, hshort⟩ := ih h.2 (by simpa using hn) (by simpa using ht)
        have hne : xs ≠ [] := List.ne_nil_of_length_eq_add_one hlen
        refine ⟨by simp [hlen], ?_⟩
        rw [List.dropLast_cons_of_ne_nil hne, List.forall_mem_cons]
        exact ⟨hlt, hshort⟩
    · -- a separator is gone, so all the others must be there, and the last token is empty
      rw [cutField_of_le hle] at ht
      have hx := List.count_eq_zero_of_not_mem (not_mem_take (k := k) h.1)
      have hxs := count_cutText_le (k := k) h.2
      have hlen := (List.getElem?_eq_some_iff.mp ht).1
      rw [length_splitOn, List.count_append, hx] at hlen
      rw [List.length_cons] at hn
      rcases eq_or_ne xs [] with rfl | hne
      · obtain rfl : n = 0 := by simpa [cutText] using hlen
        simp
      · have hc : (cutText k a xs).count a = xs.length := by omega
        obtain ⟨l, hl⟩ := cutText_eq_append_of_count h.2 hne hc
        have hl' := congrArg (List.count a) hl
        rw [List.count_append, List.count_singleton_self] at hl'
        have hend : n = ((x.take k ++ l).splitOn a).length := by
          rw [length_splitOn, List.count_append, hx]
          omega
        rw [hl, ← List.append_assoc, splitOn_append_singleton,
          List.getElem?_append_right (Nat.le_of_eq hend.symm), ← hend, Nat.sub_self] at ht
        exact absurd (Option.some.inj ht).symm hy

/-- Where no field but the last has lost its separator, the tokens are the fields. -/
theorem token_of_uncut (h : ∀ x ∈ xs, a ∉ x) (hs : ∀ x ∈ xs.dropLast, x.length < k)
    (hx : xs[n]? = some x) : ((cutText k a xs).splitOn a)[n]? = some (x.take k) := by
  induction xs generalizing n with
  | nil => simp at hx
  | cons z xs ih =>
    rw [List.forall_mem_cons] at h
    rw [cutText_cons]
    rcases eq_or_ne xs [] with rfl | hne
    · have hn : n = 0 := by simpa using (List.getElem?_eq_some_iff.mp hx).1
      subst hn
      obtain rfl : z = x := by simpa using hx
      rw [cutText, List.flatMap_nil, List.append_nil]
      rcases Nat.lt_or_ge z.length k with hlt | hle
      · rw [cutField_of_lt hlt, splitOn_append_singleton, List.splitOn_eq_singleton h.1,
          List.take_of_length_le (Nat.le_of_lt hlt)]
        rfl
      · rw [cutField_of_le hle, List.splitOn_eq_singleton (not_mem_take h.1)]
        rfl
    · rw [List.dropLast_cons_of_ne_nil hne, List.forall_mem_cons] at hs
      rw [cutField_of_lt hs.1, List.append_assoc, List.singleton_append,
        List.splitOn_append_cons_self_of_not_mem h.1]
      cases n with
      | zero =>
        obtain rfl : z = x := by simpa using hx
        rw [List.take_of_length_le (Nat.le_of_lt hs.1)]
        rfl
      | succ n => exact ih h.2 hs.2 hx

end

/-- Blocks of one length: the block and the place in it give the place in the whole. -/
theorem getElem?_flatMap_of_length {f : α → List β} {m : Nat} (hf : ∀ a, (f a).length = m)
    {xs : List α} {i j : Nat} {x : α} (hx : xs[i]? = some x) (hj : j < m) :
    (xs.flatMap f)[i * m + j]? = (f x)[j]? := by
  induction xs generalizing i with
  | nil => simp at hx
  | cons z xs ih =>
    rw [List.flatMap_cons]
    cases i with
    | zero =>
      obtain rfl : z = x := by simpa using hx
      rw [List.getElem?_append_left (by rw [hf]; omega)]
      simp
    | succ i =>
      rw [List.getElem?_append_right (by rw [hf, Nat.succ_mul]; omega), hf,
        ← ih (i := i) (by simpa using hx)]
      congr 1
      rw [Nat.succ_mul]
      omega

theorem length_flatMap_of_length {f : α → List β} {m : Nat} (hf : ∀ a, (f a).length = m)
    (xs : List α) : (xs.flatMap f).length = xs.length * m := by
  rw [List.length_flatMap, List.map_congr_left (fun a _ => hf a), List.map_const', List.sum_replicate_nat]

end Metamalloc.Library.SeparatedText
