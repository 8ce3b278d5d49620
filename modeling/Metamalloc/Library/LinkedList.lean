import Mathlib.Data.List.Nodup
import Mathlib.Logic.Function.Basic

/-! Linked lists as pointer functions. `Path` is a singly linked list; `Ring` is
a doubly linked list closed through one sentinel, so that its ends need no cases. -/
namespace Metamalloc.Library.LinkedList
variable {α : Type*} {next next' prev prev' : α → α} {a b o x z : α} {l l₁ l₂ : List α}

/-- Following `next` from the first node visits the list and arrives at the last argument. -/
def Path (next : α → α) : α → List α → α → Prop
  | a, [], z => a = z
  | a, x :: l, z => a = x ∧ Path next (next x) l z

@[simp] theorem path_nil : Path next a [] z ↔ a = z := Iff.rfl
@[simp] theorem path_cons : Path next a (x :: l) z ↔ a = x ∧ Path next (next x) l z := Iff.rfl

theorem path_append : Path next a (l₁ ++ l₂) z ↔ ∃ b, Path next a l₁ b ∧ Path next b l₂ z := by
  induction l₁ generalizing a with
  | nil => simp
  | cons x l ih => simp [ih, and_assoc]

theorem Path.congr (h : Path next a l z) (he : ∀ x ∈ l, next' x = next x) : Path next' a l z := by
  induction l generalizing a with
  | nil => exact h
  | cons x l ih =>
    obtain ⟨rfl, h⟩ := h
    refine ⟨rfl, ?_⟩
    rw [he a List.mem_cons_self]
    exact ih h fun y hy => he y (List.mem_cons_of_mem _ hy)

theorem Path.eq_of_end (h : Path next z l z) (hz : z ∉ l) : l = [] := by
  cases l with
  | nil => rfl
  | cons x l =>
    obtain ⟨rfl, _⟩ := h
    exact absurd List.mem_cons_self hz

theorem Path.ne_nil (h : Path next a l z) (ha : a ≠ z) : ∃ l', l = a :: l' := by
  cases l with
  | nil => exact absurd h ha
  | cons x l' =>
    obtain ⟨rfl, _⟩ := h
    exact ⟨l', rfl⟩

/-- Redirecting one pointer through a new node inserts the node. -/
theorem Path.insert_after {n : α} (h : Path next a (l₁ ++ x :: l₂) z) (hx : next' x = n)
    (hn : next' n = next x) (he : ∀ y ∈ l₁ ++ l₂, next' y = next y) :
    Path next' a (l₁ ++ x :: n :: l₂) z := by
  obtain ⟨b, h₁, rfl, h₂⟩ := path_append.mp h
  refine path_append.mpr ⟨b, h₁.congr fun y hy => he y (List.mem_append_left _ hy), rfl, hx, ?_⟩
  rw [hn]
  exact h₂.congr fun y hy => he y (List.mem_append_right _ hy)

/-- Redirecting one pointer past its successor removes the successor. -/
theorem Path.remove_after {d : α} (h : Path next a (l₁ ++ x :: d :: l₂) z) (hx : next' x = next d)
    (he : ∀ y ∈ l₁ ++ l₂, next' y = next y) : Path next' a (l₁ ++ x :: l₂) z := by
  obtain ⟨b, h₁, rfl, rfl, h₂⟩ := path_append.mp h
  refine path_append.mpr ⟨b, h₁.congr fun y hy => he y (List.mem_append_left _ hy), rfl, ?_⟩
  rw [hx]
  exact h₂.congr fun y hy => he y (List.mem_append_right _ hy)

theorem Path.unique (h : Path next a l₁ z) (h' : Path next a l₂ z) (h₁ : z ∉ l₁) (h₂ : z ∉ l₂) :
    l₁ = l₂ := by
  induction l₁ generalizing a l₂ with
  | nil =>
    obtain rfl := path_nil.mp h
    exact (h'.eq_of_end h₂).symm
  | cons x l ih =>
    obtain ⟨rfl, h⟩ := h
    obtain ⟨l', rfl⟩ := h'.ne_nil (fun e => h₁ (by simp [e]))
    rw [ih h h'.2 (fun hm => h₁ (List.mem_cons_of_mem _ hm))
      (fun hm => h₂ (List.mem_cons_of_mem _ hm))]

/-- Consecutive nodes are linked both ways. -/
def Links (next prev : α → α) : List α → Prop
  | x :: y :: l => next x = y ∧ prev y = x ∧ Links next prev (y :: l)
  | _ => True

@[simp] theorem links_nil : Links next prev [] := trivial
@[simp] theorem links_singleton : Links next prev [x] := trivial
@[simp] theorem links_cons_cons :
    Links next prev (a :: b :: l) ↔ next a = b ∧ prev b = a ∧ Links next prev (b :: l) := Iff.rfl

/-- The two halves of a linked sequence share their seam node. -/
theorem links_append :
    Links next prev (l₁ ++ x :: l₂) ↔ Links next prev (l₁ ++ [x]) ∧ Links next prev (x :: l₂) := by
  induction l₁ with
  | nil => simp
  | cons a l ih =>
    cases l with
    | nil => simp [and_assoc]
    | cons b l => simpa [and_assoc] using fun _ _ => ih

theorem Links.congr (h : Links next prev l) (hn : ∀ x ∈ l.dropLast, next' x = next x)
    (hp : ∀ x ∈ l.tail, prev' x = prev x) : Links next' prev' l := by
  induction l with
  | nil => trivial
  | cons a l ih =>
    cases l with
    | nil => trivial
    | cons b l =>
      obtain ⟨hab, hba, h⟩ := h
      refine ⟨(hn a (by simp)).trans hab, (hp b (by simp)).trans hba, ih h ?_ ?_⟩
      · intro x hx
        exact hn x (by simp [hx])
      · intro x hx
        exact hp x (List.mem_cons_of_mem _ hx)

theorem Links.reverse (h : Links next prev l) : Links prev next l.reverse := by
  induction l with
  | nil => trivial
  | cons a l ih =>
    cases l with
    | nil => trivial
    | cons b l =>
      obtain ⟨hab, hba, h⟩ := h
      have hr := ih h
      rw [List.reverse_cons] at hr
      rw [List.reverse_cons, List.reverse_cons, List.append_assoc, List.singleton_append,
        links_append]
      exact ⟨hr, hba, hab, trivial⟩

theorem Links.path (h : Links next prev (a :: (l ++ [z]))) : Path next (next a) l z := by
  induction l generalizing a with
  | nil => exact h.1
  | cons x l ih =>
    obtain ⟨hax, _, h⟩ := h
    exact ⟨hax, ih h⟩

/-- A doubly linked list through the sentinel `o`, whose two pointers are the ends. -/
structure Ring (next prev : α → α) (o : α) (l : List α) : Prop where
  links : Links next prev (o :: (l ++ [o]))
  nodup : (o :: l).Nodup

namespace Ring

theorem sentinel_not_mem (h : Ring next prev o l) : o ∉ l := (List.nodup_cons.mp h.nodup).1
theorem nodup_list (h : Ring next prev o l) : l.Nodup := (List.nodup_cons.mp h.nodup).2

theorem forward (h : Ring next prev o l) : Path next (next o) l o := h.links.path

theorem reverse (h : Ring next prev o l) : Ring prev next o l.reverse := by
  refine ⟨by simpa using h.links.reverse, ?_⟩
  rw [List.nodup_cons, List.mem_reverse, List.nodup_reverse]
  exact List.nodup_cons.mp h.nodup

theorem backward (h : Ring next prev o l) : Path prev (prev o) l.reverse o := h.reverse.forward

/-- Around the ring the two pointers of neighbours undo each other. -/
theorem prev_next (h : Ring next prev o l) (hx : x ∈ o :: l) :
    next x ∈ o :: l ∧ prev (next x) = x := by
  obtain ⟨p, q, hq⟩ := List.append_of_mem hx
  obtain ⟨b, q', hb⟩ : ∃ b q', q ++ [o] = b :: q' :=
    ⟨_, _, (List.cons_head_tail (List.append_ne_nil_of_right_ne_nil q (List.cons_ne_nil o []))).symm⟩
  have hl := h.links
  rw [← List.cons_append, hq, List.append_assoc, List.cons_append, hb, links_append] at hl
  obtain ⟨_, hxb, hbx, _⟩ := hl
  refine ⟨?_, by rw [hxb, hbx]⟩
  have hmem : b ∈ q ++ [o] := by simp [hb]
  rw [hxb, hq]
  rcases List.mem_append.mp hmem with hm | hm
  · exact List.mem_append_right _ (List.mem_cons_of_mem _ hm)
  · rw [List.mem_singleton.mp hm, ← hq]
    exact List.mem_cons_self

theorem next_prev (h : Ring next prev o l) (hx : x ∈ o :: l) :
    prev x ∈ o :: l ∧ next (prev x) = x := by
  have hr := h.reverse.prev_next (x := x) (by simpa using hx)
  simpa using hr

theorem empty (hn : next o = o) (hp : prev o = o) : Ring next prev o [] :=
  ⟨⟨hn, hp, trivial⟩, by simp⟩

theorem congr (h : Ring next prev o l) (hn : ∀ x ∈ o :: l, next' x = next x)
    (hp : ∀ x ∈ o :: l, prev' x = prev x) : Ring next' prev' o l := by
  refine ⟨h.links.congr ?_ ?_, h.nodup⟩
  · intro x hx
    rw [← List.cons_append, List.dropLast_concat] at hx
    exact hn x hx
  · intro x hx
    simp only [List.tail_cons, List.mem_append, List.mem_singleton] at hx
    exact hp x (by simpa [or_comm] using hx)

/-- The neighbours of a node, read off the pointers around it. -/
theorem split (h : Ring next prev o (l₁ ++ x :: l₂)) :
    ∃ p q, o :: l₁ = p ++ [prev x] ∧ l₂ ++ [o] = next x :: q := by
  have hl := h.links
  obtain ⟨q, hq⟩ : ∃ q, l₂ ++ [o] = (l₂ ++ [o]).head (by simp) :: q := ⟨_, (List.cons_head_tail _).symm⟩
  obtain ⟨p, hp⟩ : ∃ p, o :: l₁ = p ++ [(o :: l₁).getLast (by simp)] :=
    ⟨_, (List.dropLast_append_getLast _).symm⟩
  rw [List.append_assoc, List.cons_append, ← List.cons_append, hp, hq, List.append_assoc,
    List.singleton_append, links_append] at hl
  obtain ⟨_, hax, hxa, hxb, _⟩ := hl
  refine ⟨p, q, ?_, ?_⟩
  · rw [hxa]
    exact hp
  · rw [hxb]
    exact hq

variable [DecidableEq α]

/-- Unlinking a node joins its neighbours; an end is joined to the sentinel. -/
theorem unlink (h : Ring next prev o (l₁ ++ x :: l₂)) :
    Ring (Function.update next (prev x) (next x)) (Function.update prev (next x) (prev x))
      o (l₁ ++ l₂) := by
  obtain ⟨p, q, hp, hq⟩ := h.split
  have hnd := h.nodup
  have hl := h.links
  have hx : x ∉ o :: (l₁ ++ l₂) := by
    intro hm
    simp only [List.nodup_cons, List.mem_append, List.mem_cons, List.nodup_append, not_or] at hnd hm
    grind
  rw [List.append_assoc, List.cons_append, ← List.cons_append, hp, hq, List.append_assoc,
    List.singleton_append, links_append] at hl
  obtain ⟨hleft, hax, hxa, hxb, hbx, hright⟩ := hl
  refine ⟨?_, ?_⟩
  · rw [List.append_assoc, ← List.cons_append, hp, hq, List.append_assoc, List.singleton_append,
      links_append]
    have hpa : prev x ∉ p := by
      have : (p ++ [prev x]).Nodup := by
        rw [← hp]
        exact hnd.sublist (by simp)
      exact fun hm => (List.nodup_append.mp this).2.2 _ hm _ (by simp) rfl
    have hbl : next x ∉ l₁ := by
      intro hm
      have hb : next x ∈ l₂ ++ [o] := by simp [hq]
      simp only [List.nodup_cons, List.mem_append, List.mem_cons, List.nodup_append, not_or,
        List.not_mem_nil, or_false] at hnd hb
      grind
    have hbq : next x ∉ q := by
      have : (next x :: q).Nodup := by
        rw [← hq]
        have := hnd
        simp only [List.nodup_cons, List.mem_append, List.mem_cons, List.nodup_append, not_or] at this ⊢
        grind
      exact (List.nodup_cons.mp this).1
    have haq : prev x ∉ (next x :: q).dropLast := by
      rw [← hq, List.dropLast_concat]
      intro hm
      have ha : prev x ∈ o :: l₁ := by simp [hp]
      simp only [List.nodup_cons, List.mem_append, List.mem_cons, List.nodup_append, not_or] at hnd ha
      grind
    refine ⟨hleft.congr ?_ ?_, Function.update_self .., Function.update_self .., hright.congr ?_ ?_⟩
    · intro y hy
      rw [List.dropLast_concat] at hy
      exact Function.update_of_ne (ne_of_mem_of_not_mem hy hpa) _ _
    · intro y hy
      rw [← hp] at hy
      exact Function.update_of_ne (ne_of_mem_of_not_mem hy hbl) _ _
    · intro y hy
      exact Function.update_of_ne (ne_of_mem_of_not_mem hy haq) _ _
    · intro y hy
      exact Function.update_of_ne (ne_of_mem_of_not_mem hy hbq) _ _
  · exact hnd.sublist (by simp)

/-- Linking a fresh node in front of the sentinel appends it. -/
theorem link (h : Ring next prev o l) (hx : x ∉ o :: l) :
    Ring (Function.update (Function.update next x o) (prev o) x)
      (Function.update (Function.update prev o x) x (prev o)) o (l ++ [x]) := by
  obtain ⟨p, t, hp⟩ : ∃ p t, o :: l = p ++ [t] :=
    ⟨_, _, (List.dropLast_append_getLast (List.cons_ne_nil o l)).symm⟩
  have hnd := h.nodup
  have hl := h.links
  rw [← List.cons_append, hp, List.append_assoc, List.singleton_append, links_append] at hl
  obtain ⟨hleft, hto, hot, _⟩ := hl
  have htp : t ∉ p := by
    rw [hp] at hnd
    exact fun hm => (List.nodup_append.mp hnd).2.2 _ hm _ (by simp) rfl
  have hxt : x ≠ t := by
    rintro rfl
    exact hx (by simp [hp])
  have hxo : x ≠ o := fun e => hx (by simp [e])
  have hxp : x ∉ p := fun hm => hx (by rw [hp]; simp [hm])
  refine ⟨?_, ?_⟩
  · rw [List.append_assoc, ← List.cons_append, hp, List.append_assoc, List.singleton_append,
      List.singleton_append, links_append, hot]
    refine ⟨hleft.congr ?_ ?_, Function.update_self .., Function.update_self .., ?_, ?_, trivial⟩
    · intro y hy
      rw [List.dropLast_concat] at hy
      rw [Function.update_of_ne (ne_of_mem_of_not_mem hy htp), Function.update_of_ne (ne_of_mem_of_not_mem hy hxp)]
    · intro y hy
      rw [← hp, List.tail_cons] at hy
      rw [Function.update_of_ne (ne_of_mem_of_not_mem (List.mem_cons_of_mem _ hy) hx),
        Function.update_of_ne (ne_of_mem_of_not_mem hy h.sentinel_not_mem)]
    · rw [Function.update_of_ne hxt, Function.update_self]
    · rw [Function.update_of_ne hxo.symm, Function.update_self]
  · rw [← List.cons_append]
    exact List.nodup_append.mpr ⟨hnd, by simp, by
      intro y hy z hz e
      rw [List.mem_singleton.mp hz] at e
      exact hx (e ▸ hy)⟩

end Ring
end Metamalloc.Library.LinkedList
