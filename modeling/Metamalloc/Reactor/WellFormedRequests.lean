import Mathlib.Data.List.TakeWhile
import Metamalloc.Reactor.HttpRequests

/-! A single well-formed request on a fresh reactor. -/
namespace Metamalloc.Reactor
open Library.TextSearch

/-- A line of the header: it is not empty, and no line end is inside. -/
structure HeaderLine (line : List Char) : Prop where
  ne_nil : line ≠ []
  no_newline : ¬ newline <:+: line

def requestHead (verb : HTTPVerb) (rest : List Char) (headers : List (List Char)) : List Char :=
  (verb.text ++ ' ' :: rest) ++ newline ++ headers.flatMap (· ++ newline)

def requestText (verb : HTTPVerb) (rest : List Char) (headers : List (List Char)) (body : List Char) : List Char :=
  requestHead verb rest headers ++ newline ++ body

section
variable {line tail body : List Char} {headers : List (List Char)}

/-- There is no line end in front of that of the line. -/
theorem newline_not_at_start (hline : ¬ newline <:+: line) (hne : line ≠ []) :
    ¬ newline <+: line ++ newline ++ tail := by
  intro hp
  match line, hne with
  | [c], _ => simp [newline] at hp
  | c :: d :: line, _ =>
    refine hline (List.IsPrefix.isInfix ?_)
    simpa [newline] using hp

/-- A blank line cannot begin inside a line. -/
theorem find_doubleNewline_cons {c : Char} (hline : ¬ newline <:+: c :: line) :
    find doubleNewline (c :: line ++ newline ++ tail) =
      (find doubleNewline (line ++ newline ++ tail)).map (· + 1) ∧ ¬ newline <:+: line := by
  refine ⟨find_cons_succ fun hp => ?_, fun h => hline (h.trans (List.suffix_cons c line).isInfix)⟩
  exact newline_not_at_start hline (List.cons_ne_nil c line) ((List.prefix_append newline newline).trans hp)

/-- Nor at the end of a line that another one follows. -/
theorem find_doubleNewline_line (hline : ¬ newline <:+: line) (htail : ¬ newline <+: tail) :
    find doubleNewline (line ++ newline ++ tail) =
      (find doubleNewline tail).map (· + (line.length + 2)) := by
  induction line with
  | nil =>
    have hskip : ¬ doubleNewline <+: '\r' :: '\n' :: tail := by
      simpa [doubleNewline, newline] using htail
    change find doubleNewline ('\r' :: '\n' :: tail) = _
    rw [find_cons_succ hskip, find_cons_succ (by simp [doubleNewline]), Option.map_map]
    rfl
  | cons c line ih =>
    obtain ⟨hstart, hrest⟩ := find_doubleNewline_cons hline
    rw [hstart, ih hrest, Option.map_map]
    rfl

theorem find_doubleNewline_end (hline : ¬ newline <:+: line) :
    find doubleNewline (line ++ newline ++ (newline ++ body)) = some line.length := by
  induction line with
  | nil => exact find_eq_zero (List.prefix_append doubleNewline body)
  | cons c line ih =>
    obtain ⟨hstart, hrest⟩ := find_doubleNewline_cons hline
    rw [hstart, ih hrest]
    rfl

/-- The blank line stands behind the last of the lines. -/
theorem find_doubleNewline_lines (body : List Char) (hline : ¬ newline <:+: line)
    (hheaders : ∀ h ∈ headers, HeaderLine h) :
    find doubleNewline (line ++ newline ++ (headers.flatMap (· ++ newline) ++ (newline ++ body))) =
      some (line.length + (headers.flatMap (· ++ newline)).length) := by
  induction headers generalizing line with
  | nil => exact find_doubleNewline_end hline
  | cons h headers ih =>
    rw [List.forall_mem_cons] at hheaders
    obtain ⟨hne, hno⟩ := hheaders.1
    rw [List.flatMap_cons, List.append_assoc (h ++ newline),
      find_doubleNewline_line hline (newline_not_at_start hno hne), ih hno hheaders.2, Option.map_some,
      List.length_append, List.length_append]
    congr 1
    simp only [newline, List.length_cons, List.length_nil]
    omega

end

section
variable {verb : HTTPVerb} {rest body : List Char} {headers : List (List Char)}

theorem not_newline_infix_of_not_mem {l : List Char} (h : '\r' ∉ l) : ¬ newline <:+: l :=
  fun hi => h (hi.subset (by simp [newline]))

theorem return_not_mem_requestLine (verb : HTTPVerb) (hrest : '\r' ∉ rest) : '\r' ∉ verb.text ++ ' ' :: rest := by
  rw [List.mem_append, List.mem_cons, not_or, not_or]
  exact ⟨by cases verb <;> decide, by decide, hrest⟩

theorem find_doubleNewline_requestText (hrest : '\r' ∉ rest) (hheaders : ∀ h ∈ headers, HeaderLine h) :
    find doubleNewline (requestText verb rest headers body) = some ((requestHead verb rest headers).length - 2) := by
  have hline := not_newline_infix_of_not_mem (return_not_mem_requestLine verb hrest)
  have hfind := find_doubleNewline_lines body hline hheaders
  rw [requestText, requestHead, List.append_assoc, List.append_assoc, hfind]
  congr 1
  simp only [List.length_append, newline, List.length_cons, List.length_nil]
  omega

theorem behindRequest_requestText (hrest : '\r' ∉ rest) (hheaders : ∀ h ∈ headers, HeaderLine h) :
    behindRequest (requestText verb rest headers body) = body := by
  have hlength : (requestHead verb rest headers).length - 2 + 4 =
      (requestHead verb rest headers ++ newline).length := by
    simp only [requestHead, List.length_append, newline, List.length_cons, List.length_nil]
    omega
  rw [behindRequest, processedCharacters, find_doubleNewline_requestText hrest hheaders]
  dsimp only
  rw [hlength]
  exact List.drop_left

/-- The verb line ends at the first line end, and its verb at the first space. -/
theorem extractVerb_requestText (hverb : verb ≠ .none) (hrest : '\r' ∉ rest) (tail : List Char) :
    extractVerb (((verb.text ++ ' ' :: rest) ++ newline ++ tail).take
      ((find newline ((verb.text ++ ' ' :: rest) ++ newline ++ tail)).getD 0)) = verb := by
  have hfind : find newline ((verb.text ++ ' ' :: rest) ++ newline ++ tail) =
      some (verb.text ++ ' ' :: rest).length := by
    have happend := @find_append_of_not_mem _ _ '\r' ['\n'] (newline ++ tail) _
      (return_not_mem_requestLine verb hrest)
    have hstart : find ['\r', '\n'] (newline ++ tail) = some 0 := find_eq_zero (List.prefix_append _ _)
    rw [hstart, Option.map_some, Nat.zero_add, ← List.append_assoc] at happend
    exact happend
  have hspace : find [' '] (verb.text ++ ' ' :: rest) = some verb.text.length := by
    have hverb : ' ' ∉ verb.text := by cases verb <;> decide
    rw [find_append_of_not_mem hverb, find_eq_zero (by simp), Option.map_some, Nat.zero_add]
  rw [hfind, Option.getD_some, List.append_assoc, List.take_left, extractVerb, hspace]
  dsimp only
  rw [List.take_left]
  cases verb with
  | none => exact absurd rfl hverb
  | post | get | put | del => rfl

theorem host_infix_requestText (hhost : ∃ h ∈ headers, hostAttribute <+: h) :
    hostAttribute <:+: requestText verb rest headers body := by
  obtain ⟨h, hmem, hbegins⟩ := hhost
  have hline : h <:+: headers.flatMap (· ++ newline) := by
    obtain ⟨before, after, rfl⟩ := List.append_of_mem hmem
    rw [List.flatMap_append, List.flatMap_cons, List.append_assoc h]
    exact List.infix_append' _ _ _
  have hhead : headers.flatMap (· ++ newline) <:+: requestHead verb rest headers :=
    (List.suffix_append _ _).isInfix
  exact (hbegins.isInfix.trans (hline.trans hhead)).trans
    ((List.prefix_append _ _).trans (List.prefix_append _ _)).isInfix

theorem newline_infix_requestText : newline <:+: requestText verb rest headers body :=
  List.infix_append _ _ _

/-- Where nothing is lost, one request is found just when its body has no `Host: `. -/
theorem parseRequests_requestText (hverb : verb ≠ .none) (hrest : '\r' ∉ rest)
    (hheaders : ∀ h ∈ headers, HeaderLine h) (hhost : ∃ h ∈ headers, hostAttribute <+: h) :
    parseRequests (requestText verb rest headers body) 0 = (true, [(0, ⟨verb, body⟩)]) ↔
      ¬ hostAttribute <:+: body := by
  have htext : requestText verb rest headers body = (verb.text ++ ' ' :: rest) ++ newline ++
      (headers.flatMap (· ++ newline) ++ (newline ++ body)) := by
    rw [requestText, requestHead, List.append_assoc, List.append_assoc]
  have hextract := extractVerb_requestText hverb hrest (headers.flatMap (· ++ newline) ++ (newline ++ body))
  rw [← htext] at hextract
  rw [parseRequests_eq_single_iff, behindRequest_requestText hrest hheaders, hextract,
    and_iff_right (host_infix_requestText hhost), and_iff_right newline_infix_requestText, and_iff_left rfl]

/-- No verb begins like the attribute. -/
theorem host_infix_behind_verb {tail : List Char} (hverb : verb ≠ .none)
    (h : hostAttribute <:+: verb.text ++ tail) : hostAttribute <:+: (verb.text ++ tail).drop 3 := by
  cases verb with
  | none => exact absurd rfl hverb
  | post | get | put | del =>
    simpa [HTTPVerb.text, hostAttribute, List.infix_cons_iff] using h

/-- A NUL in the request line or the header cuts the text in front of its blank line. -/
theorem not_single_of_cut (hverb : verb ≠ .none) (hrest : '\r' ∉ rest) (hheaders : ∀ h ∈ headers, HeaderLine h)
    (hnul : '\x00' ∈ rest ∨ ∃ h ∈ headers, '\x00' ∈ h) (request : HttpRequest) :
    parseRequests ((requestText verb rest headers body).takeWhile (· ≠ '\x00')) 0 ≠ (true, [(0, request)]) := by
  rw [Ne, parseRequests_eq_single_iff]
  rintro ⟨hhost, -, hbehind, -⟩
  have hmem : '\x00' ∈ requestHead verb rest headers := by
    rw [requestHead]
    rcases hnul with h | ⟨line, hline, h⟩
    · simp [h]
    · refine List.mem_append_right _ (List.mem_flatMap.mpr ⟨line, hline, List.mem_append_left _ h⟩)
  have hlength : ((requestText verb rest headers body).takeWhile (· ≠ '\x00')).length <
      (requestHead verb rest headers).length := by
    rw [requestText, List.append_assoc]
    exact length_takeWhile_append_lt hmem rfl
  -- a blank line in the cut text would be the first one of the whole text
  have hblank : find doubleNewline ((requestText verb rest headers body).takeWhile (· ≠ '\x00')) = none := by
    obtain ⟨more, hmore⟩ := List.takeWhile_prefix (l := requestText verb rest headers body) (· ≠ '\x00')
    have hwhole := @find_doubleNewline_requestText verb rest body headers hrest hheaders
    rw [← hmore] at hwhole
    by_contra hne
    obtain ⟨n, hn⟩ := Option.ne_none_iff_exists'.mp hne
    have hle := find_add_length_le hn
    have heq := Option.some.inj ((find_append_of_eq_some hn).symm.trans hwhole)
    simp only [doubleNewline, List.length_cons, List.length_nil] at hle
    omega
  have hstart : (requestText verb rest headers body).takeWhile (· ≠ '\x00') = verb.text ++
      (' ' :: rest ++ newline ++ headers.flatMap (· ++ newline) ++ newline ++ body).takeWhile (· ≠ '\x00') := by
    have hverb : ∀ c ∈ verb.text, decide (c ≠ '\x00') := by cases verb <;> simp [HTTPVerb.text]
    rw [← List.takeWhile_append_of_pos hverb]
    simp only [requestText, requestHead, List.append_assoc]
  rw [behindRequest, processedCharacters, hblank] at hbehind
  rw [hstart] at hhost hbehind
  exact hbehind (host_infix_behind_verb hverb hhost)

/-- A well-formed request on a fresh reactor is found as one request, with its verb and its body, just when the body
has no `Host: ` in it and the request line and the header have no NUL. -/
theorem wellFormed_request_alone_iff (hverb : verb ≠ .none) (hrest : '\r' ∉ rest)
    (hheaders : ∀ h ∈ headers, HeaderLine h) (hhost : ∃ h ∈ headers, hostAttribute <+: h)
    (hbody : '\x00' ∉ body) :
    (HTTPCPRReactor.append (requestText verb rest headers body) {}).parseHttpRequest.1 =
        (true, [(0, ⟨verb, body⟩)]) ↔
      ¬ hostAttribute <:+: body ∧ '\x00' ∉ rest ∧ ∀ h ∈ headers, '\x00' ∉ h := by
  have hparse : (HTTPCPRReactor.append (requestText verb rest headers body) {}).parseHttpRequest.1 =
      parseRequests ((requestText verb rest headers body).takeWhile (· ≠ '\x00')) 0 := rfl
  rw [hparse]
  by_cases hnul : '\x00' ∈ rest ∨ ∃ h ∈ headers, '\x00' ∈ h
  · refine iff_of_false (not_single_of_cut hverb hrest hheaders hnul _) ?_
    rintro ⟨-, hline, hall⟩
    rcases hnul with h | ⟨h, hmem, hn⟩
    · exact hline h
    · exact hall h hmem hn
  · have hline : '\x00' ∉ rest := fun h => hnul (.inl h)
    have hall : ∀ h ∈ headers, '\x00' ∉ h := fun h hmem hn => hnul (.inr ⟨h, hmem, hn⟩)
    have htext : '\x00' ∉ requestText verb rest headers body := by
      have hverb : '\x00' ∉ verb.text := by cases verb <;> decide
      simpa [requestText, requestHead, newline, hverb, hline, hbody] using hall
    have hwhole : (requestText verb rest headers body).takeWhile (· ≠ '\x00') =
        requestText verb rest headers body := by
      rw [List.takeWhile_eq_self_iff]
      exact fun c hc => decide_eq_true fun h => htext (h ▸ hc)
    rw [hwhole, parseRequests_requestText hverb hrest hheaders hhost]
    exact (and_iff_left ⟨hline, hall⟩).symm

end

/-- A `POST` with a `Host: ` header and the body `a`. -/
theorem wellFormed_post_alone :
    (HTTPCPRReactor.append (requestText .post ['/'] [hostAttribute] ['a']) {}).parseHttpRequest.1 =
      (true, [(0, ⟨.post, ['a']⟩)]) := by
  have hheaders : ∀ h ∈ [hostAttribute], HeaderLine h := by
    rw [List.forall_mem_singleton]
    exact ⟨by decide, by decide⟩
  have hhost : ∃ h ∈ [hostAttribute], hostAttribute <+: h := ⟨_, List.mem_singleton.mpr rfl, List.prefix_rfl⟩
  exact (wellFormed_request_alone_iff (by decide) (by decide) hheaders hhost (by decide)).mpr (by decide)

/-- The same with a `Host: ` line for its body: a second request is found in the body. -/
theorem host_in_body_is_another_request :
    (HTTPCPRReactor.append (requestText .post ['/'] [hostAttribute] (hostAttribute ++ newline)) {}).parseHttpRequest.1 =
      (true, [(0, ⟨.post, hostAttribute ++ newline⟩), (1, ⟨.none, ['t', ':', ' '] ++ newline⟩)]) := by
  have hsecond : parseRequests (hostAttribute ++ newline) 1 = (true, [(1, ⟨.none, ['t', ':', ' '] ++ newline⟩)]) :=
    (parseRequests_eq_single_iff ..).mpr (by decide)
  change parseRequests _ 0 = _
  rw [parseRequests_of_newline (by decide +kernel) (by decide +kernel)]
  have hbehind : behindRequest (HTTPCPRReactor.append (requestText .post ['/'] [hostAttribute]
      (hostAttribute ++ newline)) {}).unconsumed = hostAttribute ++ newline := by decide +kernel
  rw [hbehind, hsecond]
  decide +kernel

end Metamalloc.Reactor
