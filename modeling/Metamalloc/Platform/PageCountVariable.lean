import Mathlib.Algebra.BigOperators.Fin
import Mathlib.Algebra.Order.BigOperators.Group.Finset
import Mathlib.Data.List.OfFn
import Metamalloc.Heaps.SizeClasses
import Metamalloc.Library.DecimalScan
import Metamalloc.Library.SeparatedText

/-! The page counts of the small object bins, taken from an environment variable with comma separated values. -/
namespace Metamalloc.Platform
open Library.DecimalScan Library.SeparatedText Heaps

abbrev maxStringLen : Nat := 64
abbrev maxTokenLen : Nat := 8

abbrev PageCounts := Fin smallObjectBinCount → Nat

/-- `atoi`, for a token within the range of `int`, and its conversion to `std::size_t`. -/
def atoi (token : List Char) : Nat :=
  let (negative, number) := scanNumber token
  if negative then (2^64 - number) % 2^64 else number

/-- One token: none where it or its terminator does not fit its array, or there is no element left for its value. -/
def storeToken (token : List Char) (counter : Nat) (target : PageCounts) : Option PageCounts :=
  if token.length < maxTokenLen then
    if h : counter < smallObjectBinCount then some (Function.update target ⟨counter, h⟩ (atoi token)) else none
  else none

/-- The loop, with the number of rounds that are left until the end of the longest text is reached. -/
def readTokens (str : List Char) : (rounds start last counter : Nat) → PageCounts → Option PageCounts
  | 0, _, _, _, target => some target
  | rounds + 1, start, last, counter, target =>
    if last ≤ str.length then
      if str[last]? = some ',' ∨ (start < last ∧ last = str.length) then
        match storeToken ((str.drop start).take (last - start)) counter target with
        | none => none
        | some target => readTokens str rounds (last + 1) (last + 1) (counter + 1) target
      else readTokens str rounds start (last + 1) counter target
    else some target

/-- The array after the call; none where something outside of the arrays is written. -/
def setNumericArrayFromCommaSeparatedValueString (target : PageCounts) (str : List Char) : Option PageCounts :=
  readTokens str (maxStringLen - 1) 0 0 0 target

/-- The tokens end at the commas among the first 63 characters; a text that is not longer has its end for the end of
the last, unless that is empty. -/
def tokens (str : List Char) : List (List Char) :=
  let pieces := (str.take (maxStringLen - 1)).splitOn ','
  if str.length < maxStringLen - 1 ∧ pieces.getLast? ≠ some [] then pieces else pieces.dropLast

/-- The loop, on what has been read of the token and the rest of the text. -/
def scanTokens : (rounds : Nat) → (token rest : List Char) → List (List Char)
  | 0, _, _ => []
  | _ + 1, token, [] => if token = [] then [] else [token]
  | rounds + 1, token, c :: rest =>
    if c = ',' then token :: scanTokens rounds [] rest else scanTokens rounds (token ++ [c]) rest

def storeTokens : List (List Char) → Nat → PageCounts → Option PageCounts
  | [], _, target => some target
  | token :: rest, counter, target =>
    match storeToken token counter target with
    | none => none
    | some target => storeTokens rest (counter + 1) target

section
variable {str token rest : List Char} {rounds start last counter : Nat} {target : PageCounts}

theorem readTokens_of_length_lt (h : str.length < last) :
    readTokens str rounds start last counter target = some target := by
  cases rounds with
  | zero => rfl
  | succ rounds => exact if_neg (Nat.not_le.mpr h)

theorem readTokens_eq (hstart : start ≤ last) (hlast : last ≤ str.length) :
    readTokens str rounds start last counter target =
      storeTokens (scanTokens rounds ((str.drop start).take (last - start)) (str.drop last)) counter target := by
  induction rounds generalizing start last counter target with
  | zero => rfl
  | succ rounds ih =>
    rw [readTokens, if_pos hlast]
    cases hrest : str.drop last with
    | nil =>
      -- the end of the text: a token that is not empty ends here
      have hend : last = str.length := Nat.le_antisymm hlast (List.drop_eq_nil_iff.mp hrest)
      have hnone : str[last]? = none := List.getElem?_eq_none hend.ge
      have hlength : ((str.drop start).take (last - start)).length = last - start := by
        rw [List.length_take, List.length_drop]
        omega
      rw [hnone, scanTokens]
      by_cases hlt : start < last
      · rw [if_pos (.inr ⟨hlt, hend⟩), if_neg (List.ne_nil_of_length_pos (by omega)), storeTokens]
        cases storeToken ((str.drop start).take (last - start)) counter target with
        | none => rfl
        | some target => exact readTokens_of_length_lt (by omega)
      · rw [if_neg (by simp [hlt]), if_pos (List.eq_nil_of_length_eq_zero (by omega))]
        exact readTokens_of_length_lt (by omega)
    | cons c rest =>
      have hc : str[last]? = some c := by
        rw [← Nat.add_zero last, ← List.getElem?_drop, hrest]
        rfl
      have hlt : last < str.length := (List.getElem?_eq_some_iff.mp hc).1
      have htail : str.drop (last + 1) = rest := by
        rw [← List.drop_drop, hrest]
        rfl
      have hcond : (str[last]? = some ',' ∨ (start < last ∧ last = str.length)) ↔ c = ',' := by
        rw [hc, or_iff_left fun h => hlt.ne h.2, Option.some.injEq]
      rw [scanTokens, if_congr hcond rfl rfl]
      split
      · rw [storeTokens]
        cases storeToken ((str.drop start).take (last - start)) counter target with
        | none => rfl
        | some target =>
          dsimp only
          rw [ih le_rfl hlt, htail, Nat.sub_self, List.take_zero]
      · have htoken : (str.drop start).take (last + 1 - start) = (str.drop start).take (last - start) ++ [c] := by
          rw [Nat.sub_add_comm hstart, List.take_add_one, List.getElem?_drop, Nat.add_sub_cancel' hstart, hc]
          rfl
        rw [ih (Nat.le_succ_of_le hstart) hlt, htail, htoken]

theorem scanTokens_eq (htoken : ',' ∉ token) : scanTokens rounds token rest =
    if rest.length < rounds ∧ ((token ++ rest.take rounds).splitOn ',').getLast? ≠ some [] then
      (token ++ rest.take rounds).splitOn ','
    else ((token ++ rest.take rounds).splitOn ',').dropLast := by
  induction rounds generalizing token rest with
  | zero => simp [scanTokens, List.splitOn_eq_singleton htoken]
  | succ rounds ih =>
    cases rest with
    | nil =>
      rw [List.take_nil, List.append_nil, List.splitOn_eq_singleton htoken, scanTokens]
      by_cases ht : token = []
      · simp [ht]
      · simp [ht]
    | cons c rest =>
      rw [scanTokens, List.take_succ_cons, List.length_cons]
      simp only [Nat.add_lt_add_iff_right]
      split
      · next hc =>
        subst hc
        have hne : (rest.take rounds).splitOn ',' ≠ [] := List.splitOn_ne_nil _ _
        rw [List.splitOn_append_cons_self_of_not_mem htoken, List.getLast?_cons_of_ne_nil hne,
          List.dropLast_cons_of_ne_nil hne, ih List.not_mem_nil, List.nil_append]
        exact apply_ite (List.cons token) _ _ _
      · next hc =>
        have htoken' : ',' ∉ token ++ [c] := by
          rw [List.mem_append, List.mem_singleton, not_or]
          exact ⟨htoken, Ne.symm hc⟩
        rw [ih htoken', List.append_assoc, List.singleton_append]

theorem storeTokens_eq {pieces : List (List Char)} (hcounter : counter ≤ smallObjectBinCount) :
    storeTokens pieces counter target =
      if counter + pieces.length ≤ smallObjectBinCount ∧ ∀ piece ∈ pieces, piece.length < maxTokenLen then
        some fun i : Fin smallObjectBinCount =>
          if counter ≤ i.val then (pieces[i.val - counter]?.map atoi).getD (target i) else target i
      else none := by
  induction pieces generalizing counter target with
  | nil => simp [storeTokens, hcounter]
  | cons piece pieces ih =>
    rw [storeTokens, storeToken]
    by_cases hlength : piece.length < maxTokenLen
    · by_cases hlt : counter < smallObjectBinCount
      · rw [if_pos hlength, dif_pos hlt]
        dsimp only
        rw [@ih (counter + 1) _ hlt]
        refine if_congr ?_ (congrArg some (funext fun i => ?_)) rfl
        · rw [List.forall_mem_cons, and_iff_right hlength, List.length_cons, Nat.add_right_comm counter 1,
            Nat.add_assoc]
        · rcases Nat.lt_trichotomy i.val counter with hi | hi | hi
          · have hne : i ≠ ⟨counter, hlt⟩ := fun h => hi.ne (congrArg Fin.val h)
            rw [if_neg (by omega), if_neg (by omega), Function.update_of_ne hne]
          · have heq : i = ⟨counter, hlt⟩ := Fin.ext hi
            rw [if_neg (by omega), if_pos hi.ge, heq, Function.update_self, Nat.sub_self]
            rfl
          · have hne : i ≠ ⟨counter, hlt⟩ := fun h => hi.ne' (congrArg Fin.val h)
            have hindex : i.val - counter = i.val - (counter + 1) + 1 := by omega
            rw [if_pos (Nat.succ_le_of_lt hi), if_pos hi.le, Function.update_of_ne hne, hindex, List.getElem?_cons_succ]
      · rw [if_pos hlength, dif_neg hlt]
        refine (if_neg fun h => hlt ?_).symm
        have hle := h.1
        rw [List.length_cons] at hle
        omega
    · rw [if_neg hlength]
      exact (if_neg fun h => hlength (h.2 piece List.mem_cons_self)).symm

/-- The call stores the tokens, each as a number, unless one is too long or there are too many. -/
theorem setNumericArray_eq : setNumericArrayFromCommaSeparatedValueString target str =
    if (tokens str).length ≤ smallObjectBinCount ∧ ∀ token ∈ tokens str, token.length < maxTokenLen then
      some fun i : Fin smallObjectBinCount => ((tokens str)[i.val]?.map atoi).getD (target i)
    else none := by
  have hscan : scanTokens (maxStringLen - 1) [] str = tokens str := scanTokens_eq List.not_mem_nil
  rw [setNumericArrayFromCommaSeparatedValueString, readTokens_eq le_rfl (Nat.zero_le _), Nat.sub_self,
    List.take_zero, List.drop_zero, hscan, storeTokens_eq (Nat.zero_le _), Nat.zero_add]
  simp

end

section
variable {values : List (List Char)}

/-- Where the last value ends at one of the first 63 characters, the tokens are the values. -/
theorem tokens_intercalate (hne : values ≠ []) (hvalue : ∀ value ∈ values, value ≠ [] ∧ ',' ∉ value)
    (hlength : ([','].intercalate values).length < maxStringLen - 1) :
    tokens ([','].intercalate values) = values ∧ tokens ([','].intercalate values ++ [',']) = values := by
  have hsplit := List.splitOn_intercalate ',' (fun value h => (hvalue value h).2) hne
  constructor
  · rw [tokens, List.take_of_length_le hlength.le, hsplit]
    refine if_pos ⟨hlength, fun hlast => ?_⟩
    exact (hvalue [] (List.mem_of_getLast? hlast)).1 rfl
  · have hle : ([','].intercalate values ++ [',']).length ≤ maxStringLen - 1 := by
      rw [List.length_append, List.length_singleton]
      exact hlength
    rw [tokens, List.take_of_length_le hle, splitOn_append_singleton, hsplit]
    simp

/-- Else the last of them is not found. -/
theorem length_tokens_lt (hne : values ≠ []) (hvalue : ∀ value ∈ values, ',' ∉ value)
    (hlength : maxStringLen - 1 ≤ ([','].intercalate values).length) :
    (tokens ([','].intercalate values)).length < values.length ∧
      (tokens ([','].intercalate values ++ [','])).length < values.length := by
  have hcount := count_intercalate hvalue hne
  have hcut : (([','].intercalate values).take (maxStringLen - 1)).count ',' ≤ ([','].intercalate values).count ',' :=
    (List.take_sublist _ _).count_le _
  have hdrop := length_splitOn (a := ',') (([','].intercalate values).take (maxStringLen - 1))
  constructor
  · rw [tokens, if_neg fun h => absurd h.1 (Nat.not_lt.mpr hlength), List.length_dropLast, hdrop]
    omega
  · rw [tokens, List.take_append_of_le_length hlength, if_neg, List.length_dropLast, hdrop]
    · omega
    · rw [List.length_append]
      intro h
      omega

end

section
variable {numbers : PageCounts}

def numerals (numbers : PageCounts) : List (List Char) := List.ofFn fun i => Nat.toDigits 10 (numbers i)

def commaJoined (numbers : PageCounts) : List Char := [','].intercalate (numerals numbers)

theorem numerals_ne_nil : numerals numbers ≠ [] := by simp [numerals]

theorem numerals_value : ∀ value ∈ numerals numbers, value ≠ [] ∧ ',' ∉ value := by
  intro value h
  obtain ⟨i, rfl⟩ := List.mem_ofFn.mp h
  exact ⟨Nat.toDigits_ne_nil, not_mem_toDigits rfl⟩

theorem length_commaJoined :
    (commaJoined numbers).length + 1 = ∑ i, ((Nat.toDigits 10 (numbers i)).length + 1) := by
  rw [commaJoined, length_intercalate numerals_ne_nil, numerals, List.map_ofFn, List.sum_ofFn]
  rfl

theorem length_numeral_le_iff {n k : Nat} (hk : 0 < k) : (Nat.toDigits 10 n).length ≤ k ↔ n < 10^k :=
  Nat.length_toDigits_le_iff (by decide) hk

/-- With at most seven digits each, the numbers fit unless all of them have seven. -/
theorem length_commaJoined_lt_iff (hdigits : ∀ i, numbers i < 10^7) :
    (commaJoined numbers).length < maxStringLen - 1 ↔ ∃ i, numbers i < 10^6 := by
  change (commaJoined numbers).length < 63 ↔ _
  have hsum := @length_commaJoined numbers
  have hseven : ∑ _i : Fin smallObjectBinCount, 8 = 64 := by decide
  have hle (i : Fin smallObjectBinCount) : (Nat.toDigits 10 (numbers i)).length + 1 ≤ 8 :=
    Nat.succ_le_succ ((length_numeral_le_iff (by decide)).mpr (hdigits i))
  constructor
  · intro hlt
    by_contra hall
    have heq (i : Fin smallObjectBinCount) : (Nat.toDigits 10 (numbers i)).length + 1 = 8 := by
      have hnot := mt (length_numeral_le_iff (by decide)).mp fun h => hall ⟨i, h⟩
      have := hle i
      omega
    rw [Finset.sum_congr rfl fun i _ => heq i, hseven] at hsum
    omega
  · rintro ⟨i, hi⟩
    have hlt : ∑ i, ((Nat.toDigits 10 (numbers i)).length + 1) < ∑ _i : Fin smallObjectBinCount, 8 :=
      Finset.sum_lt_sum (fun j _ => hle j) ⟨i, Finset.mem_univ i,
        Nat.succ_lt_succ (Nat.lt_succ_of_le ((length_numeral_le_iff (by decide)).mpr hi))⟩
    rw [hseven] at hlt
    omega

theorem atoi_toDigits (n : Nat) : atoi (Nat.toDigits 10 n) = n := by
  rw [atoi, scanNumber_toDigits]
  rfl

theorem numerals_short_iff : (∀ value ∈ numerals numbers, value.length < maxTokenLen) ↔ ∀ i, numbers i < 10^7 := by
  rw [numerals, List.forall_mem_ofFn_iff]
  exact forall_congr' fun i => Nat.lt_succ_iff.trans (length_numeral_le_iff (by decide))

/-- A text whose tokens are the numerals of the numbers, or fewer where it is too long, gives the numbers, whatever
is in the array before, just when they are short. -/
theorem setNumericArray_eq_iff {str : List Char}
    (hfound : (commaJoined numbers).length < maxStringLen - 1 → tokens str = numerals numbers)
    (hlost : maxStringLen - 1 ≤ (commaJoined numbers).length → (tokens str).length < (numerals numbers).length) :
    (∀ target, setNumericArrayFromCommaSeparatedValueString target str = some numbers) ↔
      (∀ i, numbers i < 10^7) ∧ ∃ i, numbers i < 10^6 := by
  have hlength : (numerals numbers).length = smallObjectBinCount := List.length_ofFn
  constructor
  · intro h
    -- an array with another last number must be overwritten up to its end
    have hstored := h fun _ => numbers 7 + 1
    rw [setNumericArray_eq] at hstored
    split at hstored
    · next hc =>
      have hlast : ((tokens str)[7]?.map atoi).getD (numbers 7 + 1) = numbers 7 :=
        congrFun (Option.some.inj hstored) 7
      have hall : 7 < (tokens str).length := by
        by_contra hlt
        rw [List.getElem?_eq_none (Nat.not_lt.mp hlt)] at hlast
        exact absurd hlast (Nat.succ_ne_self _)
      rcases Nat.lt_or_ge (commaJoined numbers).length (maxStringLen - 1) with hlt | hge
      · have hshort := hc.2
        rw [hfound hlt, numerals_short_iff] at hshort
        exact ⟨hshort, (length_commaJoined_lt_iff hshort).mp hlt⟩
      · have := hlost hge
        rw [hlength] at this
        exact absurd hall (Nat.not_lt.mpr (Nat.le_of_lt_succ this))
    · cases hstored
  · rintro ⟨hshort, hfits⟩ target
    rw [setNumericArray_eq, hfound ((length_commaJoined_lt_iff hshort).mpr hfits),
      if_pos ⟨hlength.le, numerals_short_iff.mpr hshort⟩]
    congr 1
    funext i
    have hi : (numerals numbers)[i.val]? = some (Nat.toDigits 10 (numbers i)) := by
      rw [numerals, List.getElem?_ofFn]
      exact dif_pos i.isLt
    rw [hi, Option.map_some, Option.getD_some, atoi_toDigits]

/-- For every text, what is written is within the arrays just when there are at most eight tokens with at most seven
characters each. For any eight numbers, their joined text gives them back, with or without a comma at its end, just
when each has at most seven digits and one has fewer. -/
theorem pageCounts_parsed_iff (target : PageCounts) (str : List Char) (numbers : PageCounts) :
    ((setNumericArrayFromCommaSeparatedValueString target str).isSome ↔
      (tokens str).length ≤ smallObjectBinCount ∧ ∀ token ∈ tokens str, token.length < maxTokenLen) ∧
    ((∀ target, setNumericArrayFromCommaSeparatedValueString target (commaJoined numbers) = some numbers) ↔
      (∀ i, numbers i < 10^7) ∧ ∃ i, numbers i < 10^6) ∧
    ((∀ target, setNumericArrayFromCommaSeparatedValueString target (commaJoined numbers ++ [',']) = some numbers) ↔
      (∀ i, numbers i < 10^7) ∧ ∃ i, numbers i < 10^6) := by
  have hcomma : ∀ value ∈ numerals numbers, ',' ∉ value := fun value h => (numerals_value value h).2
  refine ⟨?_, ?_, ?_⟩
  · rw [setNumericArray_eq]
    split
    · next h => exact iff_of_true rfl h
    · next h => exact iff_of_false (by simp) h
  · exact setNumericArray_eq_iff (fun h => (tokens_intercalate numerals_ne_nil numerals_value h).1)
      fun h => (length_tokens_lt numerals_ne_nil hcomma h).1
  · exact setNumericArray_eq_iff (fun h => (tokens_intercalate numerals_ne_nil numerals_value h).2)
      fun h => (length_tokens_lt numerals_ne_nil hcomma h).2

end

/-- The default of the page counts of the local heaps. -/
example : setNumericArrayFromCommaSeparatedValueString (fun _ => 1) (commaJoined fun _ => 50) = some fun _ => 50 := by
  decide +kernel

/-- A token of eight characters, nine tokens, and eight numbers of seven digits. -/
theorem pageCounts_out_of_bounds :
    setNumericArrayFromCommaSeparatedValueString (fun _ => 1) (Nat.toDigits 10 12345678) = none ∧
    setNumericArrayFromCommaSeparatedValueString (fun _ => 1) (commaJoined (fun _ => 1) ++ [',', '1']) = none ∧
    setNumericArrayFromCommaSeparatedValueString (fun _ => 1) (commaJoined fun _ => 1000000) =
      some (Function.update (fun _ => 1000000) 7 1) := by
  decide +kernel

end Metamalloc.Platform
