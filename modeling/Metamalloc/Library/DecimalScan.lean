import Mathlib.Data.List.TakeWhile

/-! Numbers at the start of a text, as the C library reads them: white space, a sign, and decimal digits. -/
namespace Metamalloc.Library.DecimalScan

variable {text more : List Char}

def isSpace (c : Char) : Bool := c = ' ' || (9 ≤ c.toNat && c.toNat ≤ 13)

/-- Whether there is a minus sign, and what follows the sign. -/
def afterSign : List Char → Bool × List Char
  | '-' :: text => (true, text)
  | '+' :: text => (false, text)
  | text => (false, text)

/-- Whether there is a minus sign, and the number that the digits make; without a digit it is 0. -/
def scanNumber (text : List Char) : Bool × Nat :=
  let (negative, text) := afterSign (text.dropWhile isSpace)
  (negative, Nat.ofDigitChars 10 (text.takeWhile Char.isDigit) 0)

theorem afterSign_cons_of_isDigit {c : Char} (h : c.isDigit) : afterSign (c :: text) = (false, c :: text) := by
  rw [afterSign]
  · rintro _ ⟨⟩
    cases h
  · rintro _ ⟨⟩
    cases h

theorem isSpace_of_isDigit {c : Char} (h : c.isDigit) : isSpace c = false := by
  have hle : 48 ≤ c.toNat := by
    rw [Char.isDigit, Bool.and_eq_true, decide_eq_true_eq] at h
    exact h.1
  have hne : c ≠ ' ' := by
    rintro rfl
    cases h
  simp only [isSpace, hne, decide_false, Bool.false_or, Bool.and_eq_false_iff, decide_eq_false_iff_not]
  omega

theorem not_mem_toDigits {c : Char} {n : Nat} (hc : c.isDigit = false) : c ∉ Nat.toDigits 10 n := by
  intro h
  have hd := Nat.isDigit_of_mem_toDigits (by decide) (by decide) h
  rw [hc] at hd
  cases hd

theorem scanNumber_toDigits (n : Nat) : scanNumber (Nat.toDigits 10 n) = (false, n) := by
  have hdigit : ∀ c ∈ Nat.toDigits 10 n, c.isDigit := fun c hc =>
    Nat.isDigit_of_mem_toDigits (by decide) (by decide) hc
  have hnumber := @Nat.ofDigitChars_ten_toDigits n
  cases htext : Nat.toDigits 10 n with
  | nil => exact absurd htext Nat.toDigits_ne_nil
  | cons c text =>
    rw [htext] at hdigit hnumber
    have hc := hdigit c List.mem_cons_self
    have hspace : (c :: text).dropWhile isSpace = c :: text := by
      rw [List.dropWhile_cons, isSpace_of_isDigit hc]
      rfl
    rw [scanNumber, hspace, afterSign_cons_of_isDigit hc]
    dsimp only
    rw [List.takeWhile_eq_self_iff.mpr hdigit, hnumber]

/-- The number is followed by something in the text, so that what comes behind the text is not looked at. -/
def NumberEnds (text : List Char) : Prop := (afterSign (text.dropWhile isSpace)).2.dropWhile Char.isDigit ≠ []

instance : DecidablePred NumberEnds := fun _ => inferInstanceAs (Decidable (_ ≠ _))

theorem afterSign_append (h : text ≠ []) :
    afterSign (text ++ more) = ((afterSign text).1, (afterSign text).2 ++ more) := by
  cases text with
  | nil => exact absurd rfl h
  | cons c text =>
    rw [List.cons_append]
    by_cases hminus : c = '-'
    · subst hminus
      rfl
    · by_cases hplus : c = '+'
      · subst hplus
        rfl
      · have hsign (l : List Char) : afterSign (c :: l) = (false, c :: l) := by
          rw [afterSign]
          · rintro _ ⟨⟩
            exact hminus rfl
          · rintro _ ⟨⟩
            exact hplus rfl
        rw [hsign, hsign]
        rfl

theorem scanNumber_append (h : NumberEnds text) : scanNumber (text ++ more) = scanNumber text := by
  have hne : text.dropWhile isSpace ≠ [] := by
    intro hnil
    rw [NumberEnds, hnil] at h
    exact h rfl
  have hspace : (text ++ more).dropWhile isSpace = text.dropWhile isSpace ++ more := by
    rw [List.dropWhile_append, if_neg (by rwa [List.isEmpty_iff])]
  have hdigits (l : List Char) (hl : l.dropWhile Char.isDigit ≠ []) :
      (l ++ more).takeWhile Char.isDigit = l.takeWhile Char.isDigit := by
    rw [List.takeWhile_append, if_neg]
    intro hlength
    have hall := congrArg List.length (@List.takeWhile_append_dropWhile _ Char.isDigit l)
    rw [List.length_append, hlength] at hall
    exact hl (List.eq_nil_of_length_eq_zero (by omega))
  rw [scanNumber, hspace, afterSign_append hne, scanNumber]
  dsimp only
  rw [hdigits _ h]

end Metamalloc.Library.DecimalScan
