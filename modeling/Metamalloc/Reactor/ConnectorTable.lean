import Mathlib.Algebra.Ring.Nat
import Mathlib.Data.Finset.Card
import Mathlib.Order.Bounds.Basic
import Mathlib.Order.Nat
import Metamalloc.Reactor.AcceptedSockets

/-! The slots of the connectors, and the table of their descriptors, whose entries are never erased. -/
namespace Metamalloc.Reactor

/-- `non_used_connector_index`, an `int` that is -1 when every slot is in use. -/
def Connectors.nonUsedConnectorIndex (c : Connectors) : Int :=
  match (List.range c.sockets.length).find? fun i => c.connectionFlags[i]? = some false with
  | none => -1
  | some i => Int.bmod i (2^32)

/-- The socket that the slot of the connector held before is destroyed. -/
def TcpReactor.addConnector (connector : Socket) (r : TcpReactor) : TcpReactor :=
  let (_, destroyed, connectors) := r.connectors.addConnector connector
  { r with
    connectors := connectors
    system := Socket.destroy destroyed r.system }

section
variable {c : Connectors} {slot : Nat}

theorem find_unused_of_isLeast (hlength : c.connectionFlags.length = c.sockets.length)
    (hslot : IsLeast {i | c.connectionFlags[i]? = some false} slot) :
    (List.range c.sockets.length).find? (fun i => c.connectionFlags[i]? = some false) = some slot := by
  rw [List.find?_range_eq_some]
  refine ⟨by simpa using hslot.1, ?_, fun j hj => ?_⟩
  · rw [List.mem_range, ← hlength]
    exact (List.getElem?_eq_some_iff.mp hslot.1).1
  · have hused : c.connectionFlags[j]? ≠ some false := fun hfree => absurd (hslot.2 hfree) (not_le.mpr hj)
    simpa using hused

theorem find_unused_of_forall (hused : ∀ i : Nat, c.connectionFlags[i]? ≠ some false) :
    (List.range c.sockets.length).find? (fun i => c.connectionFlags[i]? = some false) = none := by
  rw [List.find?_range_eq_none]
  intro i _
  simpa using hused i

theorem addConnector_of_isLeast (connector : Socket) (hlength : c.connectionFlags.length = c.sockets.length)
    (hslot : IsLeast {i | c.connectionFlags[i]? = some false} slot) :
    (c.addConnector connector).1 = slot ∧
      (c.addConnector connector).2.2.sockets.length = c.sockets.length := by
  rw [Connectors.addConnector, find_unused_of_isLeast hlength hslot]
  exact ⟨rfl, List.length_set⟩

theorem addConnector_of_forall (connector : Socket) (hused : ∀ i : Nat, c.connectionFlags[i]? ≠ some false) :
    (c.addConnector connector).1 = c.sockets.length ∧
      (c.addConnector connector).2.2.sockets.length = c.sockets.length + 1 := by
  rw [Connectors.addConnector, find_unused_of_forall hused]
  exact ⟨rfl, List.length_append⟩

end

/-- Every slot is in use when a connector has been added and no other slot is free. -/
theorem SlotWritten.flag_eq_true {c c' : Connectors} {slot i : Nat} {s : Socket} (hw : SlotWritten slot s true c c')
    (hused : ∀ i : Nat, c.connectionFlags[i]? ≠ some false) (hi : i < c'.sockets.length) :
    c'.connectionFlags[i]? = some true := by
  rw [← hw.length_eq] at hi
  have hflag := hw.flags i
  rw [List.getElem?_eq_getElem hi] at hflag ⊢
  cases hb : c'.connectionFlags[i] with
  | true => rfl
  | false =>
    rw [hb] at hflag
    split at hflag
    · cases hflag
    · exact absurd hflag.symm (hused i)

/-- The reactor adds and removes connectors, and does in between what leaves the connectors as they are. A descriptor
is an `int`, and the system gives a socket one that no slot in use has. -/
inductive ConnectorsRun : TcpReactor → Prop
  | start : ConnectorsRun {}
  | add {r : TcpReactor} {connector : Socket} (hr : ConnectorsRun r) (hint : connector.descriptor < 2^31)
      (hnew : ∀ i s, Active r i s → s.descriptor ≠ connector.descriptor) : ConnectorsRun (r.addConnector connector)
  | remove {r r' : TcpReactor} {index : Nat} (hr : ConnectorsRun r) (h : r.removeConnector index = some r') :
      ConnectorsRun r'
  | other {r r' : TcpReactor} (hr : ConnectorsRun r) (h : r'.connectors = r.connectors) : ConnectorsRun r'

/-- The entry of a descriptor in use is its slot, so the slots in use have different descriptors. -/
structure TableInv (r : TcpReactor) : Prop where
  length_eq : r.connectors.connectionFlags.length = r.connectors.sockets.length
  indexed : ∀ i s, Active r i s → r.connectors.indexTable s.descriptor = some i
  descriptor_lt : ∀ i s, Active r i s → s.descriptor < 2^31
  length_le : r.connectors.sockets.length ≤ 2^31

section
variable {r r' : TcpReactor} {index : Nat}

/-- There are no more slots than descriptors when all the slots are in use. -/
theorem length_le_of_all_active
    (hflags : ∀ i < r.connectors.sockets.length, r.connectors.connectionFlags[i]? = some true)
    (hindexed : ∀ i s, Active r i s → r.connectors.indexTable s.descriptor = some i)
    (hlt : ∀ i s, Active r i s → s.descriptor < 2^31) : r.connectors.sockets.length ≤ 2^31 := by
  have hactive (i : Nat) (hi : i < r.connectors.sockets.length) : Active r i r.connectors.sockets[i] :=
    ⟨List.getElem?_eq_getElem hi, hflags i hi⟩
  -- the table maps the descriptors to the slots, in order
  have hmap : (r.connectors.sockets.map Socket.descriptor).map r.connectors.indexTable =
      (List.range r.connectors.sockets.length).map some := by
    refine List.ext_getElem (by simp) fun i hi _ => ?_
    have hi : i < r.connectors.sockets.length := by simpa using hi
    simpa using hindexed i _ (hactive i hi)
  have hnodup : (r.connectors.sockets.map Socket.descriptor).Nodup := by
    refine List.Nodup.of_map r.connectors.indexTable ?_
    rw [hmap]
    exact List.nodup_range.map (Option.some_injective Nat)
  calc r.connectors.sockets.length
      = (r.connectors.sockets.map Socket.descriptor).toFinset.card := by
        rw [List.toFinset_card_of_nodup hnodup, List.length_map]
    _ ≤ (Finset.range (2^31)).card := by
        refine Finset.card_le_card fun d hd => ?_
        obtain ⟨s, hs, rfl⟩ := List.mem_map.mp (List.mem_toFinset.mp hd)
        obtain ⟨i, hi, rfl⟩ := List.getElem_of_mem hs
        exact Finset.mem_range.mpr (hlt i _ (hactive i hi))
    _ = 2^31 := Finset.card_range _

theorem tableInv_start : TableInv {} where
  length_eq := rfl
  indexed := fun i s hs => absurd hs.socket (by simp)
  descriptor_lt := fun i s hs => absurd hs.socket (by simp)
  length_le := Nat.zero_le _

theorem TableInv.add {connector : Socket} (h : TableInv r) (hint : connector.descriptor < 2^31)
    (hnew : ∀ i s, Active r i s → s.descriptor ≠ connector.descriptor) : TableInv (r.addConnector connector) := by
  obtain ⟨slot, c', hadd, hflag, hw, htable⟩ := addConnector_spec connector h.length_eq
  have hconnectors : (r.addConnector connector).connectors = c' := by rw [TcpReactor.addConnector, hadd]
  rw [← hconnectors] at hw htable
  have hindexed : ∀ i s, Active (r.addConnector connector) i s →
      (r.addConnector connector).connectors.indexTable s.descriptor = some i := by
    intro i s hs
    rw [htable]
    rcases hw.active_cases hs with ⟨rfl, rfl, -⟩ | ⟨-, hs⟩
    · exact Function.update_self _ _ _
    · rw [Function.update_of_ne (hnew i s hs)]
      exact h.indexed i s hs
  have hlt : ∀ i s, Active (r.addConnector connector) i s → s.descriptor < 2^31 := by
    intro i s hs
    rcases hw.active_cases hs with ⟨-, rfl, -⟩ | ⟨-, hs⟩
    · exact hint
    · exact h.descriptor_lt i s hs
  refine ⟨hw.length_eq, hindexed, hlt, ?_⟩
  by_cases hfree : ∃ i : Nat, r.connectors.connectionFlags[i]? = some false
  · have hsame := (addConnector_of_isLeast connector h.length_eq (Nat.isLeast_find hfree)).2
    rw [hadd] at hsame
    rw [hconnectors, hsame]
    exact h.length_le
  · -- a slot is appended: they are all in use now
    have hused (i : Nat) : r.connectors.connectionFlags[i]? ≠ some false := fun hi => hfree ⟨i, hi⟩
    exact length_le_of_all_active (fun i hi => hw.flag_eq_true hused hi) hindexed hlt

theorem close_fst (s : Socket) (os : System) : (s.close os).1 = { s with state := .disconnected } := by
  rw [Socket.close]
  split
  · rfl
  · next hstate => rw [← not_not.mp hstate]

theorem removeConnector_eq {s : Socket} (h : r.connectors.sockets[index]? = some s) :
    r.removeConnector index = some ((r.clearFlag index).put index (s.close r.system)) :=
  @closeSocket_eq (r.clearFlag index) index s h

/-- The slot keeps its descriptor. -/
theorem removeConnector_spec (hlength : r.connectors.connectionFlags.length = r.connectors.sockets.length)
    (h : r.removeConnector index = some r') :
    ∃ s : Socket, SlotWritten index { s with state := .disconnected } false r.connectors r'.connectors ∧
      r'.connectors.sockets.length = r.connectors.sockets.length ∧
      r'.connectors.indexTable = r.connectors.indexTable := by
  cases hs : r.connectors.sockets[index]? with
  | none =>
    rw [TcpReactor.removeConnector, TcpReactor.closeSocket, hs] at h
    cases h
  | some s =>
    have hi : index < r.connectors.sockets.length := (List.getElem?_eq_some_iff.mp hs).1
    rw [removeConnector_eq hs] at h
    cases h
    refine ⟨s, ⟨?_, ?_, ?_⟩, List.length_set, rfl⟩
    · simpa [TcpReactor.put, TcpReactor.clearFlag] using hlength
    · rw [← close_fst s r.system]
      exact getElem?_set_eq_ite _ hi
    · exact getElem?_set_eq_ite _ (hlength ▸ hi)

theorem TableInv.remove (h : TableInv r) (hr : r.removeConnector index = some r') : TableInv r' := by
  obtain ⟨s, hw, hsame, htable⟩ := removeConnector_spec h.length_eq hr
  have hactive (i : Nat) (t : Socket) (ht : Active r' i t) : Active r i t :=
    ((hw.active_cases ht).resolve_left fun hc => Bool.false_ne_true hc.2.2).2
  refine ⟨hw.length_eq, fun i t ht => ?_, fun i t ht => h.descriptor_lt i t (hactive i t ht), ?_⟩
  · rw [htable]
    exact h.indexed i t (hactive i t ht)
  · rw [hsame]
    exact h.length_le

theorem ConnectorsRun.inv (h : ConnectorsRun r) : TableInv r := by
  induction h with
  | start => exact tableInv_start
  | add hr hint hnew ih => exact ih.add hint hnew
  | remove hr h ih => exact ih.remove h
  | @other r r' hr h ih =>
    have hactive (i : Nat) (s : Socket) (hs : Active r' i s) : Active r i s :=
      ⟨h ▸ hs.socket, h ▸ hs.flag⟩
    constructor
    case length_eq => rw [h, ih.length_eq]
    case indexed => exact fun i s hs => h ▸ ih.indexed i s (hactive i s hs)
    case descriptor_lt => exact fun i s hs => ih.descriptor_lt i s (hactive i s hs)
    case length_le => exact h ▸ ih.length_le

/-- What the reactor does with the connectors is such a sequence: the system returns a descriptor from `accept` that
is not open, and those of the slots in use are. -/
theorem ReactorRun.connectorsRun {batch : List Nat} (h : ReactorRun r batch) (hint : ∀ d ∈ r.accepted, d < 2^31) :
    ConnectorsRun r := by
  induction h with
  | start => exact .start
  | poll hr hnodup hpolled ih => exact ih hint
  | @accept r batch d hr hd ih =>
    have hrun := ih fun e he => hint e (List.mem_append_left _ he)
    have hnew (i : Nat) (s : Socket) (hs : Active r i s) : s.descriptor ≠ d := by
      rintro rfl
      exact hd (hr.inv.1.active i s hs).2.2
    have hadd : ConnectorsRun (r.addConnector ⟨r.accepted.length, d, .connected⟩) :=
      hrun.add (hint d (List.mem_append_right _ List.mem_cons_self)) hnew
    exact hadd.other rfl
  | @ready r r' batch d received hr h ih =>
    obtain ⟨hinv, -, hpolled⟩ := hr.inv
    obtain ⟨i, s, hs, -, heq⟩ := hinv.handleReady_eq (hpolled d List.mem_cons_self) received
    obtain rfl := Option.some.inj (h.symm.trans heq)
    refine ((ih hint).remove (removeConnector_eq hs.socket)).other ?_
    rw [TcpReactor.put, close_fst]
    rfl

/-- After every sequence of calls the slots and the flags have equal length, the first slot that is not in use is
taken before one is appended, also through the cast of its index to `int`, and the table leads from the descriptor of
every slot in use to that slot. -/
theorem connector_table_consistent (h : ConnectorsRun r) :
    r.connectors.connectionFlags.length = r.connectors.sockets.length ∧
    (∀ connector (slot : Nat), IsLeast {i | r.connectors.connectionFlags[i]? = some false} slot →
      r.connectors.nonUsedConnectorIndex = slot ∧ (r.connectors.addConnector connector).1 = slot ∧
      (r.addConnector connector).connectors.sockets.length = r.connectors.sockets.length) ∧
    (∀ connector, (∀ i : Nat, r.connectors.connectionFlags[i]? ≠ some false) →
      r.connectors.nonUsedConnectorIndex = -1 ∧
      (r.connectors.addConnector connector).1 = r.connectors.sockets.length ∧
      (r.addConnector connector).connectors.sockets.length = r.connectors.sockets.length + 1) ∧
    ∀ i s, Active r i s → r.connectors.getConnectorIndexFromDescriptor s.descriptor = i := by
  have hinv := h.inv
  refine ⟨hinv.length_eq, fun connector slot hslot => ⟨?_, ?_⟩, fun connector hused => ⟨?_, ?_⟩, fun i s hs => ?_⟩
  · rw [Connectors.nonUsedConnectorIndex, find_unused_of_isLeast hinv.length_eq hslot]
    have hlt : slot < r.connectors.sockets.length := hinv.length_eq ▸ (List.getElem?_eq_some_iff.mp hslot.1).1
    have hle := hinv.length_le
    dsimp only
    exact Int.bmod_eq_of_le (by omega) (by omega)
  · exact addConnector_of_isLeast connector hinv.length_eq hslot
  · rw [Connectors.nonUsedConnectorIndex, find_unused_of_forall hused]
  · exact addConnector_of_forall connector hused
  · rw [Connectors.getConnectorIndexFromDescriptor, hinv.indexed i s hs]
    rfl

end

/-- The slot of the first connection is taken by the third one. The entry of the first descriptor stays, and leads to
the slot as well. -/
theorem connector_table_consistent_of_reuse : ∃ r, ConnectorsRun r ∧ r.accepted = [5, 6, 7] ∧
    Active r 0 ⟨2, 7, .connected⟩ ∧ r.connectors.getConnectorIndexFromDescriptor 7 = 0 ∧
    r.connectors.indexTable 5 = some 0 := by
  let r := (TcpReactor.acceptNewConnection 5 {}).acceptNewConnection 6
  have hpoll : ReactorRun r [5] :=
    ((ReactorRun.start.accept (by decide)).accept (by decide)).poll (by decide) (by decide)
  have hdata : ReactorRun (r.afterHandling 0 ⟨0, 5, .connected⟩ (.data ['a'])) [] :=
    hpoll.ready (onDataReady_eq rfl rfl)
  have hrun := (hdata.accept (d := 7) (by decide)).connectorsRun (by decide)
  exact ⟨_, hrun, rfl, ⟨rfl, rfl⟩, (connector_table_consistent hrun).2.2.2 0 ⟨2, 7, .connected⟩ ⟨rfl, rfl⟩, rfl⟩

end Metamalloc.Reactor
