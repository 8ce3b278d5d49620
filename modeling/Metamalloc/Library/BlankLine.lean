import Metamalloc.Library.TextSearch

/-! Messages of some lines, a blank line and a body behind it. -/
namespace Metamalloc.Library.BlankLine
open TextSearch

variable {α : Type*} {newline : α} {line body text : List α} {lines : List (List α)}

/-- The lines with an end between any two of them, the blank line, and the body. -/
def joinMessage (newline : α) (lines : List (List α)) (body : List α) : List α :=
  [newline].intercalate lines ++ ([newline, newline] ++ body)

variable [DecidableEq α]

def splitMessage (newline : α) (text : List α) : Option (List (List α) × List α) :=
  (find [newline, newline] text).map fun n => ((text.take n).splitOn newline, text.drop (n + 2))

/-- Behind a line and its end there is no blank line where another line begins. -/
theorem find_blank_of_line (hline : newline ∉ line) (htext : ¬ [newline] <+: text) :
    find [newline, newline] (line ++ newline :: text) =
      (find [newline, newline] text).map (· + (line.length + 1)) := by
  have hblank : ¬ [newline, newline] <+: newline :: text := by
    rw [List.cons_prefix_cons]
    exact fun hp => htext hp.2
  rw [find_append_of_not_mem hline, find_cons_succ hblank, Option.map_map]
  apply Option.map_congr
  intro n _
  simp only [Function.comp_apply]
  omega

/-- The blank line stands behind the last line. -/
theorem find_blank_joinMessage (hlines : lines ≠ []) (hline : ∀ line ∈ lines, newline ∉ line)
    (hne : ∀ line ∈ lines, line ≠ []) :
    find [newline, newline] (joinMessage newline lines body) = some ([newline].intercalate lines).length := by
  induction lines with
  | nil => exact absurd rfl hlines
  | cons line lines ih =>
    rw [List.forall_mem_cons] at hline hne
    cases lines with
    | nil =>
      rw [joinMessage, List.intercalate_singleton, find_append_of_not_mem hline.1,
        find_eq_zero (List.prefix_append _ _), Option.map_some, Nat.zero_add]
    | cons next lines =>
      have hnext : ¬ [newline] <+: joinMessage newline (next :: lines) body := by
        intro hp
        have hhead := hline.2 next List.mem_cons_self
        cases next with
        | nil => exact hne.2 [] List.mem_cons_self rfl
        | cons c next =>
          have hc : newline = c := by
            cases lines <;> simpa [joinMessage, List.intercalate_cons_cons] using hp
          exact hhead (hc ▸ List.mem_cons_self)
      have hsplit : joinMessage newline (line :: next :: lines) body =
          line ++ newline :: joinMessage newline (next :: lines) body := by
        rw [joinMessage, List.intercalate_cons_cons, joinMessage]
        simp
      rw [hsplit, find_blank_of_line hline.1 hnext, ih (List.cons_ne_nil _ _) hline.2 hne.2, Option.map_some,
        List.intercalate_cons_cons]
      simp
      omega

/-- The message comes apart into its lines and its body. -/
theorem splitMessage_joinMessage (hlines : lines ≠ []) (hline : ∀ line ∈ lines, newline ∉ line)
    (hne : ∀ line ∈ lines, line ≠ []) :
    splitMessage newline (joinMessage newline lines body) = some (lines, body) := by
  rw [splitMessage, find_blank_joinMessage hlines hline hne, Option.map_some, joinMessage, List.take_left,
    List.splitOn_intercalate newline hline hlines]
  simp

end Metamalloc.Library.BlankLine
