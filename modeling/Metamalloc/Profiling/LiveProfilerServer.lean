import Metamalloc.Profiling.PostResponse
import Metamalloc.Reactor.HttpResponses

/-! The live profiler behind its reactor: what the browser gets for the page, and for the statistics that the
script of the page asks for. -/
namespace Metamalloc.Profiling
open Library.BlankLine Reactor

namespace HTTPLiveProfiler

def okResponse (source : List Char) : HttpResponse where
  responseCodeWithText := ['2', '0', '0', ' ', 'O', 'K']
  connectionAlive := false
  body := source

def createdResponse (statistics : List Char) : HttpResponse where
  responseCodeWithText := ['2', '0', '1', ' ', 'C', 'r', 'e', 'a', 't', 'e', 'd']
  connectionAlive := false
  body := statistics

def onHttpGetRequest (source : List Char) : Answers := fun _ => some [(okResponse source).getAsText]

def onHttpPostRequest (reactorId : Nat) (p : Profiler) : Answers := fun _ =>
  (p.updatePostResponse reactorId).map fun statistics => [(createdResponse statistics).getAsText]

def onHttpPutRequest : Answers := fun _ => some []
def onHttpDeleteRequest : Answers := fun _ => some []

/-- The page is a constant of the program; the statistics are those at the time of the request. -/
def answers (source : List Char) (reactorId : Nat) (p : Profiler) : Answers :=
  dispatch (onHttpGetRequest source) onHttpPutRequest (onHttpPostRequest reactorId p) onHttpDeleteRequest

end HTTPLiveProfiler
open HTTPLiveProfiler

/-- What a peer sends on one connection, and the statistics at that time. -/
inductive Connection where
  | request (verb : HTTPVerb) (rest : List Char) (headers : List (List Char)) (body : List Char) (stats : Profiler)
  | other (text : List Char) (stats : Profiler)

namespace Connection

def stats : Connection → Profiler
  | request _ _ _ _ stats => stats
  | other _ stats => stats

def read : Connection → List Char
  | request verb rest headers body _ => requestText verb rest headers body
  | other text _ => text

/-- Whole requests, of which a `POST` finds statistics that fit the wire, and texts without a `Host: `. -/
def Sound (reactorId : Nat) (r : Fin maxThreadCount) : Connection → Prop
  | request verb rest headers body stats => WholeRequest verb rest headers body ∧
      (verb = .post → r ∈ stats.observedThreads ∧ (stats.stats r).tlsId = reactorId ∧ stats.FitsWire reactorId r)
  | other text _ => text.length < receiveSize ∧ ¬ hostAttribute <:+: text.takeWhile (· ≠ '\x00')

/-- The client reads these lines and this body out of the one text that was sent. -/
def Receives (sent : List (List Char)) (response : HttpResponse) : Prop :=
  ∃ text, sent = [text] ∧ splitMessage '\n' text = some (response.lines, response.body)

/-- The page for a `GET`, for a `POST` a text out of which its script reads the statistics, and nothing else. -/
def Answered (source : List Char) (reactorId : Nat) (r : Fin maxThreadCount) (c : Connection)
    (sent : List (List Char)) : Prop :=
  match c with
  | request .get _ _ _ _ => Receives sent (okResponse source)
  | request .post _ _ _ stats => stats.SurvivesWire reactorId r ∧
      ∃ statistics, stats.updatePostResponse reactorId = some statistics ∧ Receives sent (createdResponse statistics)
  | _ => sent = []

variable {source : List Char} {reactorId : Nat} {r : Fin maxThreadCount} {c : Connection}
  {reactor : HTTPCPRReactor}

theorem receives_ok : Receives [(okResponse source).getAsText] (okResponse source) :=
  ⟨_, rfl, HttpResponse.splitMessage_getAsText ⟨by simp [okResponse], by simp [okResponse], by simp [okResponse]⟩⟩

theorem receives_created : Receives [(createdResponse source).getAsText] (createdResponse source) :=
  ⟨_, rfl, HttpResponse.splitMessage_getAsText
    ⟨by simp [createdResponse], by simp [createdResponse], by simp [createdResponse]⟩⟩

variable (source) in
/-- One connection on a reactor that has consumed all it has received. -/
theorem serve_answered (h : c.Sound reactorId r) (hempty : reactor.unconsumed = []) :
    ∃ sent reactor', serve (answers source reactorId c.stats) c.read reactor = some (sent, reactor') ∧
      reactor'.unconsumed = [] ∧ c.Answered source reactorId r sent := by
  cases c with
  | other text stats =>
    obtain ⟨reactor', he, hempty'⟩ := serve_of_no_host hempty h.1 h.2
    exact ⟨[], reactor', he, hempty', rfl⟩
  | request verb rest headers body stats =>
    obtain ⟨hwhole, hpost⟩ := h
    obtain ⟨reactor', he, hempty'⟩ := hwhole.serve (d := answers source reactorId stats) hempty
    have hne := hwhole.verb_ne
    cases verb with
    | none => exact absurd rfl hne
    | get => exact ⟨_, reactor', he, hempty', receives_ok⟩
    | put => exact ⟨_, reactor', he, hempty', rfl⟩
    | del => exact ⟨_, reactor', he, hempty', rfl⟩
    | post =>
      obtain ⟨hr, hid, hfits⟩ := hpost rfl
      have hsurvives := Profiler.survivesWire_of_fitsWire hr hid hfits
      have ⟨statistics, hstatistics, _⟩ := hsurvives
      have hanswer : answers source reactorId stats ⟨.post, body⟩ =
          some [(createdResponse statistics).getAsText] := by
        rw [answers, dispatch]
        dsimp only
        rw [onHttpPostRequest, hstatistics]
        rfl
      rw [hanswer] at he
      exact ⟨_, reactor', he, hempty', hsurvives, statistics, hstatistics, receives_created⟩

end Connection
open Connection

/-- However many connections there are and whatever their order, every request is answered as if it were the only
one: the page comes back whole, and the script reads the statistics of that time. -/
theorem live_profiler_answers {source : List Char} {reactorId : Nat} {r : Fin maxThreadCount}
    {connections : List Connection} (h : ∀ c ∈ connections, c.Sound reactorId r) :
    ∃ sent reactor, serveAll (connections.map fun c => (answers source reactorId c.stats, c.read)) {} =
        some (sent, reactor) ∧ List.Forall₂ (Answered source reactorId r) connections sent := by
  suffices hall : ∀ reactor : HTTPCPRReactor, reactor.unconsumed = [] → ∃ sent reactor',
      serveAll (connections.map fun c => (answers source reactorId c.stats, c.read)) reactor =
        some (sent, reactor') ∧ List.Forall₂ (Answered source reactorId r) connections sent from
    hall {} rfl
  induction connections with
  | nil => exact fun reactor _ => ⟨[], reactor, rfl, .nil⟩
  | cons c connections ih =>
    intro reactor hempty
    rw [List.forall_mem_cons] at h
    obtain ⟨sent, reactor₁, he, hempty₁, hanswered⟩ := serve_answered source h.1 hempty
    obtain ⟨rest, reactor', he', hrest⟩ := ih h.2 reactor₁ hempty₁
    refine ⟨sent :: rest, reactor', ?_, .cons hanswered hrest⟩
    rw [List.map_cons, serveAll, he]
    dsimp only
    rw [he']
    rfl

/-- A page, an empty connection, a text that is no request, and the statistics of one thread besides the reactor. -/
def pageThenStatistics : List Connection :=
  [.request .get ['/'] [hostAttribute] [] (Profiler.observing 2 (by decide)),
    .other [] (Profiler.observing 2 (by decide)), .other ['x'] (Profiler.observing 2 (by decide)),
    .request .post ['/'] [hostAttribute] ['a'] (Profiler.observing 2 (by decide))]

theorem live_profiler_answers_pageThenStatistics : ∃ sent reactor,
    serveAll (pageThenStatistics.map fun c => (answers ['p', '\n', '\n', 'q'] 1 c.stats, c.read)) {} =
      some (sent, reactor) ∧
    List.Forall₂ (Answered ['p', '\n', '\n', 'q'] 1 0) pageThenStatistics sent := by
  have hheader : ∀ h ∈ [hostAttribute], HeaderLine h ∧ '\x00' ∉ h := by
    rw [List.forall_mem_singleton]
    exact ⟨⟨by decide, by decide⟩, by decide⟩
  have hhost : ∃ h ∈ [hostAttribute], hostAttribute <+: h := ⟨_, List.mem_singleton_self _, List.prefix_rfl⟩
  have hwhole : ∀ verb body, verb = .get ∧ body = [] ∨ verb = .post ∧ body = ['a'] →
      WholeRequest verb ['/'] [hostAttribute] body := by
    rintro verb body (⟨rfl, rfl⟩ | ⟨rfl, rfl⟩) <;>
      exact ⟨by decide, by decide, hheader, hhost, by decide, by decide⟩
  have hfits : (Profiler.observing 2 (by decide)).FitsWire 1 0 := by
    have hlast : ((Profiler.observing 2 (by decide)).countsOf
        ((Profiler.observing 2 (by decide)).otherThreads 0)).getLast? = some 0 := by decide +kernel
    exact ⟨by decide +kernel, by decide +kernel, by simp [hlast], by decide +kernel⟩
  refine live_profiler_answers ?_
  simp only [pageThenStatistics, List.forall_mem_cons]
  refine ⟨⟨hwhole _ _ (.inl ⟨rfl, rfl⟩), fun hne => by cases hne⟩, ⟨by decide, by decide⟩, ⟨by decide, by decide⟩,
    ⟨hwhole _ _ (.inr ⟨rfl, rfl⟩), fun _ => ⟨by decide +kernel, rfl, hfits⟩⟩, by simp⟩

end Metamalloc.Profiling
