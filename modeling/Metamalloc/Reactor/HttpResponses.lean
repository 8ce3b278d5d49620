import Metamalloc.Library.BlankLine
import Metamalloc.Library.DecimalScan
import Metamalloc.Reactor.SharedCache
import Metamalloc.Reactor.WellFormedRequests

/-! The responses of the reactor as texts, and what is sent for the requests of one connection. -/
namespace Metamalloc.Reactor
open Library.TextSearch Library.BlankLine Library.DecimalScan

structure HttpResponse where
  responseCodeWithText : List Char := []
  connectionAlive : Bool := true
  httpVersion : List Char := ['1', '.', '1']
  contentType : List Char := ['t', 'e', 'x', 't', '/', 'h', 't', 'm', 'l']
  body : List Char := []

namespace HttpResponse

def connectionText (alive : Bool) : List Char :=
  if alive then ['k', 'e', 'e', 'p', '-', 'a', 'l', 'i', 'v', 'e'] else ['C', 'l', 'o', 's', 'e', 'd']

def getAsText (r : HttpResponse) : List Char :=
  ['H', 'T', 'T', 'P', '/'] ++ r.httpVersion ++ [' '] ++ r.responseCodeWithText ++
    ['\n', 'C', 'o', 'n', 'n', 'e', 'c', 't', 'i', 'o', 'n', ':', ' '] ++ connectionText r.connectionAlive ++
    ['\n', 'C', 'o', 'n', 't', 'e', 'n', 't', '-', 'T', 'y', 'p', 'e', ':', ' '] ++ r.contentType ++
    ['\n', 'C', 'o', 'n', 't', 'e', 'n', 't', ' ', 'l', 'e', 'n', 'g', 't', 'h', ':', ' '] ++
    Nat.toDigits 10 r.body.length ++ ['\n', '\n'] ++ r.body

/-- What stands in front of the blank line. The length has a name of its own, which is not that of the protocol. -/
def lines (r : HttpResponse) : List (List Char) :=
  [['H', 'T', 'T', 'P', '/'] ++ r.httpVersion ++ [' '] ++ r.responseCodeWithText,
    ['C', 'o', 'n', 'n', 'e', 'c', 't', 'i', 'o', 'n', ':', ' '] ++ connectionText r.connectionAlive,
    ['C', 'o', 'n', 't', 'e', 'n', 't', '-', 'T', 'y', 'p', 'e', ':', ' '] ++ r.contentType,
    ['C', 'o', 'n', 't', 'e', 'n', 't', ' ', 'l', 'e', 'n', 'g', 't', 'h', ':', ' '] ++
      Nat.toDigits 10 r.body.length]

/-- Nothing that is put into a line ends it. -/
structure OneLineFields (r : HttpResponse) : Prop where
  version : '\n' ∉ r.httpVersion
  code : '\n' ∉ r.responseCodeWithText
  contentType : '\n' ∉ r.contentType

theorem getAsText_eq (r : HttpResponse) : r.getAsText = joinMessage '\n' r.lines r.body := by
  simp [getAsText, joinMessage, lines, List.intercalate_cons_cons]

/-- The text of a response comes apart into its lines and its body, whatever the body is. -/
theorem splitMessage_getAsText {r : HttpResponse} (h : r.OneLineFields) :
    splitMessage '\n' r.getAsText = some (r.lines, r.body) := by
  have hdigits : '\n' ∉ Nat.toDigits 10 r.body.length := not_mem_toDigits rfl
  have hconnection : '\n' ∉ connectionText r.connectionAlive := by cases r.connectionAlive <;> decide
  rw [getAsText_eq]
  refine splitMessage_joinMessage (List.cons_ne_nil _ _) ?_ ?_
  · simp [lines, h.version, h.code, h.contentType, hdigits, hconnection]
  · simp [lines]

end HttpResponse

/-- What the implementation sends for a request with a verb; none where it cannot answer. -/
abbrev Answers := HttpRequest → Option (List (List Char))

/-- A request without a verb fails an assertion. -/
def dispatch (onGet onPut onPost onDelete : Answers) (request : HttpRequest) : Option (List (List Char)) :=
  match request.verb with
  | .none => none
  | .get => onGet request
  | .put => onPut request
  | .post => onPost request
  | .del => onDelete request

def dispatchAll (dispatch : Answers) (requests : List HttpRequest) : Option (List (List Char)) :=
  (requests.mapM dispatch).map List.flatten

/-- The part of `on_data_ready` between the receive and the close. A write behind the buffer or behind the array of
requests is no result. -/
def serve (dispatch : Answers) (read : List Char) (r : HTTPCPRReactor) :
    Option (List (List Char) × HTTPCPRReactor) :=
  let handling := onDataReady read r
  if handling.InBounds then
    match handling.parsed with
    | some (true, requests) => (dispatchAll dispatch (requests.map Prod.snd)).map fun sent => (sent, handling.reactor)
    | _ => some ([], handling.reactor)
  else none

/-- One connection after the other. Each comes with what the implementation answers at its time. -/
def serveAll : List (Answers × List Char) → HTTPCPRReactor → Option (List (List (List Char)) × HTTPCPRReactor)
  | [], r => some ([], r)
  | (dispatch, read) :: connections, r =>
    match serve dispatch read r with
    | none => none
    | some (sent, r) => (serveAll connections r).map fun (rest, r) => (sent :: rest, r)

/-- A request as the parser expects it, small enough for one receive. -/
structure WholeRequest (verb : HTTPVerb) (rest : List Char) (headers : List (List Char)) (body : List Char) : Prop where
  verb_ne : verb ≠ .none
  line : '\r' ∉ rest ∧ '\x00' ∉ rest
  header : ∀ h ∈ headers, HeaderLine h ∧ '\x00' ∉ h
  host : ∃ h ∈ headers, hostAttribute <+: h
  plain : ¬ hostAttribute <:+: body ∧ '\x00' ∉ body
  fits : (requestText verb rest headers body).length < receiveSize

section
variable {d : Answers} {verb : HTTPVerb} {rest body read : List Char} {headers : List (List Char)} {r : HTTPCPRReactor}

/-- A text that the parser takes apart completely leaves nothing behind for the next connection. -/
theorem serve_of_parsed {requests : List (Nat × HttpRequest)} (hempty : r.unconsumed = [])
    (hne : read ≠ []) (hlt : read.length < receiveSize) (hcount : requests.length ≤ maxIncomingHttpRequestCount)
    (hparse : parseRequests (read.takeWhile (· ≠ '\x00')) 0 = (true, requests)) :
    ∃ r', serve d read r = (dispatchAll d (requests.map Prod.snd)).map (fun sent => (sent, r')) ∧
      r'.unconsumed = [] := by
  have hhandling := onDataReady_of_ne_nil (r := r) hne hlt.le
  rw [hempty, List.nil_append, hparse] at hhandling
  refine ⟨(onDataReady read r).reactor, ?_, ?_⟩
  · have hrequests : ∀ w ∈ requests, w.1 < maxIncomingHttpRequestCount := by
      have hindex := @forall_lt_of_length_le (read.takeWhile (· ≠ '\x00')) maxIncomingHttpRequestCount
      rw [hparse] at hindex
      exact hindex hcount
    have hinBounds : (onDataReady read r).InBounds := by
      rw [hhandling]
      exact inBounds_of_lt hlt hrequests
    rw [serve, if_pos hinBounds, hhandling]
  · rw [onDataReady_of_ne_nil hne hlt.le]
    dsimp only
    rw [unconsumed_parseHttpRequest, unconsumed_append, hempty, List.nil_append, hparse, if_pos rfl]

/-- A whole request is answered as the implementation answers it. -/
theorem WholeRequest.serve (h : WholeRequest verb rest headers body) (hempty : r.unconsumed = []) :
    ∃ r', serve d (requestText verb rest headers body) r =
        (d ⟨verb, body⟩).map (fun sent => (sent, r')) ∧ r'.unconsumed = [] := by
  have htext : '\x00' ∉ requestText verb rest headers body := by
    have hverb : '\x00' ∉ verb.text := by cases verb <;> decide
    have hheaders : ∀ h ∈ headers, '\x00' ∉ h := fun line hline => (h.header line hline).2
    simpa [requestText, requestHead, newline, hverb, h.line.2, h.plain.2] using hheaders
  have hwhole : (requestText verb rest headers body).takeWhile (· ≠ '\x00') = requestText verb rest headers body :=
    List.takeWhile_eq_self_iff.mpr fun c hc => decide_eq_true fun he => htext (he ▸ hc)
  have hparse := (parseRequests_requestText h.verb_ne h.line.1 (fun line hline => (h.header line hline).1) h.host).mpr
    h.plain.1
  have hne : requestText verb rest headers body ≠ [] := by simp [requestText, newline]
  obtain ⟨r', he, hr'⟩ := serve_of_parsed (d := d) hempty hne h.fits (Nat.le_of_ble_eq_true rfl) (hwhole.symm ▸ hparse)
  refine ⟨r', he.trans ?_, hr'⟩
  cases hd : d ⟨verb, body⟩ <;> simp [dispatchAll, hd]

theorem serve_of_no_host (hempty : r.unconsumed = []) (hlt : read.length < receiveSize)
    (hhost : ¬ hostAttribute <:+: read.takeWhile (· ≠ '\x00')) :
    ∃ r', serve d read r = some ([], r') ∧ r'.unconsumed = [] := by
  rcases eq_or_ne read [] with rfl | hne
  · refine ⟨r, ?_, hempty⟩
    rw [Reactor.serve, onDataReady_of_empty]
    exact if_pos ⟨List.forall_mem_nil _, by simp⟩
  · exact serve_of_parsed hempty hne hlt (Nat.zero_le _) (parseRequests_of_no_host hhost)

end
end Metamalloc.Reactor
