import Metamalloc.Reactor.TcpReactor

/-! How often the reactor closes the sockets it has accepted. -/
namespace Metamalloc.Reactor

/-- The receive found that the connection is lost. -/
def Received.lost : Received → Bool
  | .failed errorCode => Socket.connectionLost errorCode
  | _ => false

section
variable {r : TcpReactor} {index : Nat} {s : Socket} {received : Received}

/-- Handling a connection closes its descriptor: the classification of the error has not disconnected the socket, and
the descriptor is not that of the standard input. -/
def closesDescriptor (s : Socket) (received : Received) : Bool := 0 < s.descriptor && !received.lost

def System.afterHandling (s : Socket) (received : Received) (os : System) : System where
  opened := if closesDescriptor s received then os.opened.erase s.descriptor else os.opened
  polled := os.polled.erase s.descriptor
  closes := if closesDescriptor s received then (s.connection, s.descriptor) :: os.closes else os.closes

def TcpReactor.put (index : Nat) (p : Socket × System) (r : TcpReactor) : TcpReactor :=
  { r with
    connectors := { r.connectors with sockets := r.connectors.sockets.set index p.1 }
    system := p.2 }

def TcpReactor.clearFlag (index : Nat) (r : TcpReactor) : TcpReactor :=
  { r with connectors := { r.connectors with connectionFlags := r.connectors.connectionFlags.set index false } }

theorem put_put (p q : Socket × System) : (r.put index p).put index q = r.put index q := by
  simp [TcpReactor.put]

theorem clearFlag_put (p : Socket × System) : (r.put index p).clearFlag index = (r.clearFlag index).put index p := rfl

theorem clearFlag_clearFlag : (r.clearFlag index).clearFlag index = r.clearFlag index := by
  simp [TcpReactor.clearFlag]

theorem sockets_put (p : Socket × System) (hi : index < r.connectors.sockets.length) :
    (r.put index p).connectors.sockets[index]? = some p.1 :=
  List.getElem?_set_self hi

theorem closeSocket_eq (h : r.connectors.sockets[index]? = some s) :
    r.closeSocket index = some (r.put index (s.close r.system)) := by
  rw [TcpReactor.closeSocket, h]
  rfl

theorem onClientDisconnected_eq (h : r.connectors.sockets[index]? = some s) :
    r.onClientDisconnected index =
      some ((r.clearFlag index).put index (s.close (r.system.removeDescriptor s.descriptor))) := by
  rw [TcpReactor.onClientDisconnected, h]
  exact @closeSocket_eq { r.clearFlag index with system := r.system.removeDescriptor s.descriptor } index s h

/-- The end of `on_data_ready`, for a socket and the system as they are then. -/
def closeTwice (p : Socket × System) : Socket × System :=
  let q := p.1.close p.2
  q.1.close (q.2.removeDescriptor q.1.descriptor)

theorem close_then_disconnect (p : Socket × System) (hi : index < r.connectors.sockets.length) :
    ((r.put index p).closeSocket index).bind (TcpReactor.onClientDisconnected index) =
      some ((r.clearFlag index).put index (closeTwice p)) := by
  rw [closeSocket_eq (sockets_put p hi), Option.bind_some, put_put,
    onClientDisconnected_eq (sockets_put _ hi), clearFlag_put, put_put]
  rfl

theorem put_self (h : r.connectors.sockets[index]? = some s) : r.put index (s, r.system) = r := by
  obtain ⟨hi, rfl⟩ := List.getElem?_eq_some_iff.mp h
  simp [TcpReactor.put]

theorem close_disconnected {os : System} (hs : s.state = .disconnected) : s.close os = (s, os) :=
  if_neg (not_not.mpr hs)

theorem closeTwice_of_disconnected {p : Socket × System} (hp : p.1.state = .disconnected) :
    closeTwice p = (p.1, p.2.removeDescriptor p.1.descriptor) := by
  rw [closeTwice, close_disconnected hp]
  exact close_disconnected hp

theorem close_connected {os : System} (hs : s.state = .connected) : s.close os =
    ({ s with state := .disconnected }, if 0 < s.descriptor then os.close s.connection s.descriptor else os) :=
  if_pos (by rw [hs]; decide)

theorem closeTwice_connected (os : System) (hs : s.state = .connected) (hlost : received.lost = false) :
    closeTwice (s, os) = ({ s with state := .disconnected }, os.afterHandling s received) := by
  rw [closeTwice, close_connected hs, close_disconnected rfl]
  by_cases hd : 0 < s.descriptor
  · simp [System.afterHandling, closesDescriptor, System.close, System.removeDescriptor, hd, hlost]
  · simp [System.afterHandling, closesDescriptor, System.removeDescriptor, hd]

theorem closeTwice_disconnect (os : System) (hs : s.state = .connected) (hlost : received.lost = false) :
    closeTwice (s.close (os.removeDescriptor s.descriptor)) =
      ({ s with state := .disconnected }, os.afterHandling s received) := by
  rw [close_connected hs, closeTwice_of_disconnected rfl]
  by_cases hd : 0 < s.descriptor
  · simp [System.afterHandling, closesDescriptor, System.close, System.removeDescriptor, hd, hlost]
  · simp [System.afterHandling, closesDescriptor, System.removeDescriptor, hd]

theorem closeTwice_lost (os : System) (hlost : received.lost = true) :
    closeTwice (Socket.close { s with state := .disconnected } (os.removeDescriptor s.descriptor)) =
      ({ s with state := .disconnected }, os.afterHandling s received) := by
  rw [close_disconnected rfl, closeTwice_of_disconnected rfl]
  simp [System.afterHandling, closesDescriptor, System.removeDescriptor, hlost]

/-- A socket that is disconnected first, then closed and disconnected once more. -/
theorem disconnect_then_close (h : r.connectors.sockets[index]? = some s) :
    ((r.onClientDisconnected index).bind fun r => (r.closeSocket index).bind (TcpReactor.onClientDisconnected index)) =
      some ((r.clearFlag index).put index (closeTwice (s.close (r.system.removeDescriptor s.descriptor)))) := by
  have hi : index < r.connectors.sockets.length := (List.getElem?_eq_some_iff.mp h).1
  rw [onClientDisconnected_eq h, Option.bind_some, close_then_disconnect (r := r.clearFlag index) _ hi,
    clearFlag_clearFlag]

def TcpReactor.afterHandling (index : Nat) (s : Socket) (received : Received) (r : TcpReactor) : TcpReactor where
  connectors := { r.connectors with
    sockets := r.connectors.sockets.set index { s with state := .disconnected }
    connectionFlags := r.connectors.connectionFlags.set index false }
  system := r.system.afterHandling s received
  accepted := r.accepted
  handled := (s.connection, received) :: r.handled

theorem onDataReady_eq (h : r.connectors.sockets[index]? = some s) (hs : s.state = .connected) :
    r.onDataReady index received = some (r.afterHandling index s received) := by
  have hi : index < r.connectors.sockets.length := (List.getElem?_eq_some_iff.mp h).1
  let r' : TcpReactor := { r with handled := (s.connection, received) :: r.handled }
  have hself : r'.put index (s, r.system) = r' := put_self (r := r') h
  have hopen (hlost : received.lost = false) :
      (r'.closeSocket index).bind (TcpReactor.onClientDisconnected index) =
        some ((r'.clearFlag index).put index
          ({ s with state := .disconnected }, r.system.afterHandling s received)) := by
    rw [← closeTwice_connected r.system hs hlost, ← close_then_disconnect (r := r') (s, r.system) hi, hself]
  rw [TcpReactor.onDataReady, h]
  cases received with
  | data bytes => exact hopen rfl
  | endOfStream =>
    refine (disconnect_then_close (r := r') h).trans ?_
    rw [@closeTwice_disconnect s .endOfStream r.system hs rfl]
    rfl
  | failed errorCode =>
    by_cases hlost : Socket.connectionLost errorCode
    · have hput : (r'.put index ({ s with state := .disconnected }, r.system)).connectors.sockets[index]? =
          some { s with state := .disconnected } := sockets_put _ hi
      have hend := disconnect_then_close hput
      rw [clearFlag_put, put_put] at hend
      simp only [Option.bind_eq_bind, Option.bind_some, Socket.isConnectionLostDuringReceive, if_pos hlost]
      refine hend.trans ?_
      exact congrArg (fun p => some ((r'.clearFlag index).put index p))
        (@closeTwice_lost s (.failed errorCode) r.system hlost)
    · simp only [Option.bind_eq_bind, Option.bind_some, Socket.isConnectionLostDuringReceive, if_neg hlost]
      have hsame := hopen (by simpa [Received.lost] using hlost)
      rw [← congrArg (TcpReactor.closeSocket index) hself] at hsame
      exact hsame

end

theorem getElem?_concat_eq_ite {α : Type*} (l : List α) (a : α) (j : Nat) :
    (l ++ [a])[j]? = if j = l.length then some a else l[j]? := by
  by_cases hj : j = l.length
  · rw [if_pos hj, hj, List.getElem?_concat_length]
  · rw [if_neg hj]
    rcases Nat.lt_or_ge j l.length with hlt | hge
    · exact List.getElem?_append_left hlt
    · rw [List.getElem?_eq_none hge, List.getElem?_eq_none (by rw [List.length_append, List.length_singleton]; omega)]

theorem getElem?_set_eq_ite {α : Type*} {l : List α} {i : Nat} (a : α) (hi : i < l.length) (j : Nat) :
    (l.set i a)[j]? = if j = i then some a else l[j]? := by
  by_cases hj : j = i
  · rw [if_pos hj, hj, List.getElem?_set_self hi]
  · rw [if_neg hj, List.getElem?_set_ne (Ne.symm hj)]

/-- One slot has been written, and the others are as they were. -/
structure SlotWritten (slot : Nat) (s : Socket) (flag : Bool) (c c' : Connectors) : Prop where
  length_eq : c'.connectionFlags.length = c'.sockets.length
  sockets : ∀ j, c'.sockets[j]? = if j = slot then some s else c.sockets[j]?
  flags : ∀ j, c'.connectionFlags[j]? = if j = slot then some flag else c.connectionFlags[j]?

/-- The slot of a new connector is a new one, or it was not in use. -/
theorem addConnector_spec {c : Connectors} (connector : Socket)
    (hlength : c.connectionFlags.length = c.sockets.length) :
    ∃ slot c', c.addConnector connector = (slot, c.sockets[slot]?, c') ∧ c.connectionFlags[slot]? ≠ some true ∧
      SlotWritten slot connector true c c' ∧
      c'.indexTable = Function.update c.indexTable connector.descriptor (some slot) := by
  rw [Connectors.addConnector]
  cases hfind : (List.range c.sockets.length).find? fun i => c.connectionFlags[i]? = some false with
  | none =>
    refine ⟨c.sockets.length, _, by rw [List.getElem?_eq_none le_rfl], ?_, ⟨?_, ?_, ?_⟩, rfl⟩
    · rw [← hlength, List.getElem?_eq_none le_rfl]
      simp
    · simp [hlength]
    · exact getElem?_concat_eq_ite _ _
    · rw [← hlength]
      exact getElem?_concat_eq_ite _ _
  | some slot =>
    have hflag : c.connectionFlags[slot]? = some false := by simpa using List.find?_some hfind
    have hlt : slot < c.sockets.length := List.mem_range.mp (List.mem_of_find?_eq_some hfind)
    refine ⟨slot, _, rfl, by simp [hflag], ⟨by simpa using hlength, ?_, ?_⟩, rfl⟩
    · exact getElem?_set_eq_ite _ hlt
    · exact getElem?_set_eq_ite _ (hlength ▸ hlt)

theorem slotWritten_afterHandling {r : TcpReactor} {i : Nat} (s : Socket) (received : Received)
    (hlength : r.connectors.connectionFlags.length = r.connectors.sockets.length)
    (hi : i < r.connectors.sockets.length) :
    SlotWritten i { s with state := .disconnected } false r.connectors (r.afterHandling i s received).connectors where
  length_eq := by simpa [TcpReactor.afterHandling] using hlength
  sockets := getElem?_set_eq_ite _ hi
  flags := getElem?_set_eq_ite _ (hlength ▸ hi)

/-- The states of the reactor, with the descriptors whose events are still to be handled. The system returns a
descriptor from `accept` that is not open, and reports descriptors that are polled, each once. -/
inductive ReactorRun : TcpReactor → List Nat → Prop
  | start : ReactorRun {} []
  | poll {r : TcpReactor} {batch : List Nat} (hr : ReactorRun r []) (hnodup : batch.Nodup)
      (hpolled : ∀ d ∈ batch, d ∈ r.system.polled) : ReactorRun r batch
  | accept {r : TcpReactor} {batch : List Nat} {d : Nat} (hr : ReactorRun r batch) (hd : d ∉ r.system.opened) :
      ReactorRun (r.acceptNewConnection d) batch
  | ready {r r' : TcpReactor} {batch : List Nat} {d : Nat} {received : Received} (hr : ReactorRun r (d :: batch))
      (h : r.handleReady d received = some r') : ReactorRun r' batch

/-- The descriptors that the socket of a connection has passed to the system to be closed. -/
def closesOf (k : Nat) (os : System) : List Nat := (os.closes.filter fun c => c.1 = k).map Prod.snd

structure Active (r : TcpReactor) (i : Nat) (s : Socket) : Prop where
  socket : r.connectors.sockets[i]? = some s
  flag : r.connectors.connectionFlags[i]? = some true

def Handled (r : TcpReactor) (k : Nat) : Prop := ∃ received, (k, received) ∈ r.handled

structure SocketsInv (r : TcpReactor) : Prop where
  length_eq : r.connectors.connectionFlags.length = r.connectors.sockets.length
  accepted : ∀ (i : Nat) (s : Socket), r.connectors.sockets[i]? = some s → r.accepted[s.connection]? = some s.descriptor
  distinct : ∀ (i j : Nat) (s t : Socket), r.connectors.sockets[i]? = some s → r.connectors.sockets[j]? = some t →
    s.connection = t.connection → i = j
  active : ∀ i s, Active r i s → s.state = .connected ∧ ¬ Handled r s.connection ∧ s.descriptor ∈ r.system.opened
  unique : ∀ i j s t, Active r i s → Active r j t → s.descriptor = t.descriptor → i = j
  inactive : ∀ (i : Nat) (s : Socket), r.connectors.sockets[i]? = some s →
    r.connectors.connectionFlags[i]? ≠ some true → s.state = .disconnected
  polled : ∀ d ∈ r.system.polled, ∃ i s, r.connectors.indexTable d = some i ∧ Active r i s ∧ s.descriptor = d
  unhandled : ∀ k, ¬ Handled r k → closesOf k r.system = []
  closed : ∀ k received, (k, received) ∈ r.handled → ∃ d, r.accepted[k]? = some d ∧
    closesOf k r.system = if 0 < d ∧ received.lost = false then [d] else []

section
variable {r r' : TcpReactor} {batch : List Nat} {d : Nat} {received : Received}

theorem SocketsInv.connection_lt (h : SocketsInv r) {i : Nat} {s : Socket}
    (hs : r.connectors.sockets[i]? = some s) : s.connection < r.accepted.length :=
  (List.getElem?_eq_some_iff.mp (h.accepted i s hs)).1

theorem SocketsInv.handled_lt (h : SocketsInv r) {k : Nat} (hk : Handled r k) : k < r.accepted.length := by
  obtain ⟨received, hmem⟩ := hk
  obtain ⟨d, hd, -⟩ := h.closed k received hmem
  exact (List.getElem?_eq_some_iff.mp hd).1

section
variable {slot i : Nat} {s t : Socket} {flag : Bool}

theorem SlotWritten.socket_cases {c c' : Connectors} (hw : SlotWritten slot s flag c c')
    (ht : c'.sockets[i]? = some t) : (i = slot ∧ t = s) ∨ (i ≠ slot ∧ c.sockets[i]? = some t) := by
  rw [hw.sockets] at ht
  split at ht
  · next hi => exact .inl ⟨hi, (Option.some.inj ht).symm⟩
  · next hi => exact .inr ⟨hi, ht⟩

theorem SlotWritten.active_cases (hw : SlotWritten slot s flag r.connectors r'.connectors) (ht : Active r' i t) :
    (i = slot ∧ t = s ∧ flag = true) ∨ (i ≠ slot ∧ Active r i t) := by
  have hf := ht.flag
  rw [hw.flags] at hf
  rcases hw.socket_cases ht.socket with ⟨hi, rfl⟩ | ⟨hi, hs⟩
  · rw [if_pos hi] at hf
    exact .inl ⟨hi, rfl, Option.some.inj hf⟩
  · rw [if_neg hi] at hf
    exact .inr ⟨hi, hs, hf⟩

theorem SlotWritten.active_of_ne (hw : SlotWritten slot s flag r.connectors r'.connectors) (hi : i ≠ slot)
    (ht : Active r i t) : Active r' i t :=
  ⟨(hw.sockets i).trans ((if_neg hi).trans ht.socket), (hw.flags i).trans ((if_neg hi).trans ht.flag)⟩

end

/-- A slot that is not in use is disconnected, so nothing is closed when it is used again. -/
theorem SocketsInv.acceptNewConnection_spec (h : SocketsInv r) (d : Nat) :
    ∃ slot c', r.acceptNewConnection d = { r with
        connectors := c'
        system := { r.system with opened := insert d r.system.opened, polled := insert d r.system.polled }
        accepted := r.accepted ++ [d] } ∧
      r.connectors.connectionFlags[slot]? ≠ some true ∧
      SlotWritten slot ⟨r.accepted.length, d, .connected⟩ true r.connectors c' ∧
      c'.indexTable = Function.update r.connectors.indexTable d (some slot) := by
  obtain ⟨slot, c', hadd, hflag, hw, htable⟩ :=
    addConnector_spec ⟨r.accepted.length, d, .connected⟩ h.length_eq
  have hdestroyed : Socket.destroy r.connectors.sockets[slot]? r.system = r.system := by
    cases hs : r.connectors.sockets[slot]? with
    | none => rfl
    | some s => rw [Socket.destroy, close_disconnected (h.inactive slot s hs hflag)]
  refine ⟨slot, c', ?_, hflag, hw, htable⟩
  rw [TcpReactor.acceptNewConnection, hadd]
  dsimp only
  rw [hdestroyed]
  rfl

theorem SocketsInv.accept (h : SocketsInv r) (hd : d ∉ r.system.opened) :
    SocketsInv (r.acceptNewConnection d) ∧
      (r.acceptNewConnection d).system.polled = insert d r.system.polled := by
  obtain ⟨slot, c', he, hflag, hw, htable⟩ := h.acceptNewConnection_spec d
  have hnew (s : Socket) (i : Nat) (hs : Active r i s) : s.descriptor ≠ d := by
    intro heq
    rw [← heq] at hd
    exact hd (h.active i s hs).2.2
  rw [he]
  refine ⟨?_, rfl⟩
  constructor
  case length_eq => exact hw.length_eq
  case accepted =>
    intro i s hs
    rcases hw.socket_cases hs with ⟨-, rfl⟩ | ⟨-, hs⟩
    · exact List.getElem?_concat_length
    · exact (List.getElem?_append_left (h.connection_lt hs)).trans (h.accepted i s hs)
  case distinct =>
    intro i j s t hs ht heq
    rcases hw.socket_cases hs with ⟨hi, rfl⟩ | ⟨-, hs⟩
    · rcases hw.socket_cases ht with ⟨hj, rfl⟩ | ⟨-, ht⟩
      · rw [hi, hj]
      · exact absurd heq (h.connection_lt ht).ne'
    · rcases hw.socket_cases ht with ⟨-, rfl⟩ | ⟨-, ht⟩
      · exact absurd heq (h.connection_lt hs).ne
      · exact h.distinct i j s t hs ht heq
  case active =>
    intro i s hs
    rcases SlotWritten.active_cases hw hs with ⟨-, rfl, -⟩ | ⟨-, hs⟩
    · exact ⟨rfl, fun hk => lt_irrefl _ (h.handled_lt hk), Finset.mem_insert_self _ _⟩
    · obtain ⟨hstate, hunhandled, hopened⟩ := h.active i s hs
      exact ⟨hstate, hunhandled, Finset.mem_insert_of_mem hopened⟩
  case unique =>
    intro i j s t hs ht heq
    rcases SlotWritten.active_cases hw hs with ⟨hi, rfl, -⟩ | ⟨-, hs⟩
    · rcases SlotWritten.active_cases hw ht with ⟨hj, rfl, -⟩ | ⟨-, ht⟩
      · rw [hi, hj]
      · exact absurd heq.symm (hnew t j ht)
    · rcases SlotWritten.active_cases hw ht with ⟨-, rfl, -⟩ | ⟨-, ht⟩
      · exact absurd heq (hnew s i hs)
      · exact h.unique i j s t hs ht heq
  case inactive =>
    intro i s hs hf
    rw [hw.flags] at hf
    rcases hw.socket_cases hs with ⟨hi, -⟩ | ⟨hi, hs⟩
    · exact absurd (if_pos hi) hf
    · exact h.inactive i s hs (by rwa [if_neg hi] at hf)
  case polled =>
    intro e hmem
    rw [htable]
    rcases Finset.mem_insert.mp hmem with rfl | hmem
    · refine ⟨slot, ⟨r.accepted.length, e, .connected⟩, Function.update_self _ _ _, ⟨?_, ?_⟩, rfl⟩
      · exact (hw.sockets slot).trans (if_pos rfl)
      · exact (hw.flags slot).trans (if_pos rfl)
    · obtain ⟨i, s, hi, hs, rfl⟩ := h.polled e hmem
      have hne : i ≠ slot := by
        rintro rfl
        exact hflag hs.flag
      refine ⟨i, s, ?_, SlotWritten.active_of_ne hw hne hs, rfl⟩
      rw [Function.update_of_ne (hnew s i hs)]
      exact hi
  case unhandled => exact h.unhandled
  case closed =>
    intro k received hmem
    obtain ⟨e, he, hcloses⟩ := h.closed k received hmem
    exact ⟨e, (List.getElem?_append_left (List.getElem?_eq_some_iff.mp he).1).trans he, hcloses⟩

theorem closesOf_afterHandling (s : Socket) (k : Nat) (os : System) :
    closesOf k (os.afterHandling s received) =
      if s.connection = k ∧ closesDescriptor s received then s.descriptor :: closesOf k os else closesOf k os := by
  rw [closesOf, closesOf, System.afterHandling]
  cases closesDescriptor s received with
  | false => simp
  | true =>
    by_cases hk : s.connection = k
    · simp [hk]
    · simp [hk]

theorem SocketsInv.afterHandling {i : Nat} {s : Socket} (h : SocketsInv r) (hs : Active r i s) :
    SocketsInv (r.afterHandling i s received) := by
  obtain ⟨-, hunhandled, -⟩ := h.active i s hs
  have hw := slotWritten_afterHandling s received h.length_eq (List.getElem?_eq_some_iff.mp hs.socket).1
  -- the slot keeps its connection and its descriptor
  have hsocket (j : Nat) (t : Socket) (ht : (r.afterHandling i s received).connectors.sockets[j]? = some t) :
      ∃ t', r.connectors.sockets[j]? = some t' ∧ t.connection = t'.connection ∧ t.descriptor = t'.descriptor := by
    rcases hw.socket_cases ht with ⟨hj, rfl⟩ | ⟨-, ht⟩
    · exact ⟨s, hj ▸ hs.socket, rfl, rfl⟩
    · exact ⟨t, ht, rfl, rfl⟩
  have hactive (j : Nat) (t : Socket) (ht : Active (r.afterHandling i s received) j t) : j ≠ i ∧ Active r j t :=
    (hw.active_cases ht).resolve_left fun hc => Bool.false_ne_true hc.2.2
  have hother (j : Nat) (t : Socket) (hj : j ≠ i) (ht : Active r j t) : t.descriptor ≠ s.descriptor :=
    fun heq => hj (h.unique j i t s ht hs heq)
  constructor
  case length_eq => exact hw.length_eq
  case accepted =>
    intro j t ht
    obtain ⟨t', ht', hk, he⟩ := hsocket j t ht
    rw [hk, he]
    exact h.accepted j t' ht'
  case distinct =>
    intro j l t u ht hu heq
    obtain ⟨t', ht', hk, -⟩ := hsocket j t ht
    obtain ⟨u', hu', hl, -⟩ := hsocket l u hu
    exact h.distinct j l t' u' ht' hu' (by rw [← hk, ← hl, heq])
  case active =>
    intro j t ht
    obtain ⟨hj, ht⟩ := hactive j t ht
    obtain ⟨htstate, htunhandled, htopened⟩ := h.active j t ht
    refine ⟨htstate, ?_, ?_⟩
    · rintro ⟨e, he⟩
      rcases List.mem_cons.mp he with he | he
      · exact hj (h.distinct j i t s ht.socket hs.socket (Prod.ext_iff.mp he).1)
      · exact htunhandled ⟨e, he⟩
    · change t.descriptor ∈ if _ then _ else _
      split
      · exact Finset.mem_erase.mpr ⟨hother j t hj ht, htopened⟩
      · exact htopened
  case unique =>
    intro j l t u ht hu heq
    exact h.unique j l t u (hactive j t ht).2 (hactive l u hu).2 heq
  case inactive =>
    intro j t ht hf
    rw [hw.flags] at hf
    rcases hw.socket_cases ht with ⟨-, rfl⟩ | ⟨hj, ht⟩
    · rfl
    · exact h.inactive j t ht (by rwa [if_neg hj] at hf)
  case polled =>
    intro e he
    obtain ⟨hne, he⟩ := Finset.mem_erase.mp he
    obtain ⟨j, t, hj, ht, rfl⟩ := h.polled e he
    have hji : j ≠ i := by
      rintro rfl
      exact hne (congrArg Socket.descriptor (Option.some.inj (ht.socket.symm.trans hs.socket)))
    exact ⟨j, t, hj, hw.active_of_ne hji ht, rfl⟩
  case unhandled =>
    intro k hk
    have hne : s.connection ≠ k := by
      rintro rfl
      exact hk ⟨received, List.mem_cons_self⟩
    refine (closesOf_afterHandling s k r.system).trans ?_
    rw [if_neg fun hc => hne hc.1]
    exact h.unhandled k fun ⟨e, he⟩ => hk ⟨e, List.mem_cons_of_mem _ he⟩
  case closed =>
    intro k e hmem
    rw [show (r.afterHandling i s received).system = r.system.afterHandling s received from rfl,
      closesOf_afterHandling]
    rcases List.mem_cons.mp hmem with heq | hmem
    · cases heq
      refine ⟨s.descriptor, h.accepted i s hs.socket, ?_⟩
      rw [h.unhandled s.connection hunhandled]
      exact if_congr (by simp [closesDescriptor]) rfl rfl
    · have hne : s.connection ≠ k := by
        rintro rfl
        exact hunhandled ⟨e, hmem⟩
      rw [if_neg fun hc => hne hc.1]
      exact h.closed k e hmem

/-- The event of a descriptor that is polled is handled for its own connection. -/
theorem SocketsInv.handleReady_eq (h : SocketsInv r) (hd : d ∈ r.system.polled) (received : Received) :
    ∃ i s, Active r i s ∧ s.descriptor = d ∧ r.handleReady d received = some (r.afterHandling i s received) := by
  obtain ⟨i, s, hi, hs, rfl⟩ := h.polled d hd
  refine ⟨i, s, hs, rfl, ?_⟩
  rw [TcpReactor.handleReady, Connectors.getConnectorIndexFromDescriptor, hi]
  exact onDataReady_eq hs.socket (h.active i s hs).1

theorem SocketsInv.ready (h : SocketsInv r) (hd : d ∈ r.system.polled) :
    ∃ r', r.handleReady d received = some r' ∧ SocketsInv r' ∧ r'.system.polled = r.system.polled.erase d := by
  obtain ⟨i, s, hs, rfl, heq⟩ := h.handleReady_eq hd received
  exact ⟨r.afterHandling i s received, heq, h.afterHandling hs, rfl⟩

theorem socketsInv_start : SocketsInv {} := by
  constructor
  case polled => simp
  case closed => simp
  case unhandled => exact fun k _ => rfl
  case active => exact fun i s hs => absurd hs.socket (by simp)
  case unique => exact fun i j s t hs _ _ => absurd hs.socket (by simp)
  all_goals simp

theorem ReactorRun.inv (h : ReactorRun r batch) :
    SocketsInv r ∧ batch.Nodup ∧ ∀ d ∈ batch, d ∈ r.system.polled := by
  induction h with
  | start => exact ⟨socketsInv_start, List.nodup_nil, by simp⟩
  | poll hr hnodup hpolled ih => exact ⟨ih.1, hnodup, hpolled⟩
  | accept hr hd ih =>
    obtain ⟨hinv, hpolled⟩ := ih.1.accept hd
    refine ⟨hinv, ih.2.1, fun e he => ?_⟩
    rw [hpolled]
    exact Finset.mem_insert_of_mem (ih.2.2 e he)
  | @ready r r' batch d received hr h ih =>
    obtain ⟨hinv, hnodup, hpolled⟩ := ih
    obtain ⟨r'', hr'', hinv', hpolled'⟩ := hinv.ready (hpolled d List.mem_cons_self)
    obtain rfl := Option.some.inj (h.symm.trans hr'')
    obtain ⟨hd, hnodup⟩ := List.nodup_cons.mp hnodup
    refine ⟨hinv', hnodup, fun e he => ?_⟩
    rw [hpolled']
    exact Finset.mem_erase.mpr ⟨fun heq => hd (heq ▸ he), hpolled e (List.mem_cons_of_mem _ he)⟩

/-- In every run no connection has its socket closed twice, the next event of the batch can be handled, and a
connection that has been handled is closed just when its descriptor is not 0 and the receive did not find the
connection lost. -/
theorem accepted_socket_closed_once_iff (h : ReactorRun r batch) :
    (∀ k received, (k, received) ∈ r.handled → ∃ d, r.accepted[k]? = some d ∧
      (closesOf k r.system = [d] ↔ 0 < d ∧ received.lost = false)) ∧
    (∀ k, (closesOf k r.system).length ≤ 1) ∧
    ∀ d ∈ batch.head?, ∀ received, (r.handleReady d received).isSome := by
  obtain ⟨hinv, -, hpolled⟩ := h.inv
  refine ⟨fun k received hmem => ?_, fun k => ?_, fun d hd received => ?_⟩
  · obtain ⟨d, hd, hcloses⟩ := hinv.closed k received hmem
    refine ⟨d, hd, ?_⟩
    rw [hcloses]
    split
    · next hc => exact iff_of_true rfl hc
    · next hc => exact iff_of_false (by simp) hc
  · by_cases hk : Handled r k
    · obtain ⟨received, hmem⟩ := hk
      obtain ⟨d, -, hcloses⟩ := hinv.closed k received hmem
      rw [hcloses]
      split <;> simp
    · rw [hinv.unhandled k hk]
      exact Nat.zero_le 1
  · obtain ⟨r', hr', -⟩ := @SocketsInv.ready r d received hinv (hpolled d (List.mem_of_mem_head? hd))
    rw [hr']
    rfl

end

/-- A connection that sends something and a second one in the same slot. -/
theorem accepted_socket_closed_once_of_two : ∃ r, ReactorRun r [] ∧ r.accepted = [5, 6] ∧
    closesOf 0 r.system = [5] := by
  have haccept : ReactorRun (TcpReactor.acceptNewConnection 5 {}) [5] :=
    (ReactorRun.start.accept (by decide)).poll (by decide) (by decide)
  have hdata : ReactorRun ((TcpReactor.acceptNewConnection 5 {}).afterHandling 0 ⟨0, 5, .connected⟩ (.data ['a'])) [] :=
    haccept.ready (onDataReady_eq rfl rfl)
  have hrun := hdata.accept (d := 6) (by decide)
  obtain ⟨d, hd, hcloses⟩ := (accepted_socket_closed_once_iff hrun).1 0 (.data ['a']) List.mem_cons_self
  cases hd
  exact ⟨_, hrun, rfl, hcloses.mpr (by decide)⟩

/-- The peer resets the connection: its descriptor stays open, also when the slot is used again. -/
theorem reset_connection_never_closed : ∃ r, ReactorRun r [] ∧ r.accepted = [5, 6] ∧
    r.handled = [(0, .failed 104)] ∧ closesOf 0 r.system = [] ∧ 5 ∈ r.system.opened := by
  have haccept : ReactorRun (TcpReactor.acceptNewConnection 5 {}) [5] :=
    (ReactorRun.start.accept (by decide)).poll (by decide) (by decide)
  have hreset : ReactorRun
      ((TcpReactor.acceptNewConnection 5 {}).afterHandling 0 ⟨0, 5, .connected⟩ (.failed 104)) [] :=
    haccept.ready (onDataReady_eq rfl rfl)
  exact ⟨_, hreset.accept (d := 6) (by decide), rfl, rfl, rfl, by decide⟩

end Metamalloc.Reactor
