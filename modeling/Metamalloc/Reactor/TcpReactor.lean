import Mathlib.Data.Finset.Basic
import Mathlib.Data.Nat.Notation

/-! The sockets of the reactor: the slots of the connectors, and what the handling of an event asks of the system. -/
namespace Metamalloc.Reactor

inductive SocketState where
  | disconnected | bound | connected | listening | accepted
  deriving DecidableEq

/-- A socket that `accept` has made, with the number of the connection it is for. -/
structure Socket where
  connection : Nat
  descriptor : Nat
  state : SocketState
  deriving DecidableEq

structure System where
  /-- The descriptors that `accept` has returned and that have not been closed. -/
  opened : Finset Nat := ∅
  polled : Finset Nat := ∅
  /-- The calls of `close`: the connection whose socket makes the call, and the descriptor. -/
  closes : List (Nat × Nat) := []

namespace System

/-- A descriptor that is closed is no longer polled. -/
def close (connection descriptor : Nat) (os : System) : System where
  opened := os.opened.erase descriptor
  polled := os.polled.erase descriptor
  closes := (connection, descriptor) :: os.closes

def addDescriptor (descriptor : Nat) (os : System) : System :=
  { os with polled := insert descriptor os.polled }

def removeDescriptor (descriptor : Nat) (os : System) : System :=
  { os with polled := os.polled.erase descriptor }

end System

namespace Socket

def close (s : Socket) (os : System) : Socket × System :=
  if s.state ≠ .disconnected then
    ({ s with state := .disconnected }, if 0 < s.descriptor then os.close s.connection s.descriptor else os)
  else (s, os)

def destroy : Option Socket → System → System
  | some s, os => (s.close os).2
  | none, os => os

def connectionLost (errorCode : Nat) : Bool := errorCode = 107 || errorCode = 104 || errorCode = 111

/-- The socket is disconnected by the classification of the error, with its descriptor open. -/
def isConnectionLostDuringReceive (errorCode : Nat) (s : Socket) : Bool × Socket :=
  if connectionLost errorCode then (true, { s with state := .disconnected }) else (false, s)

end Socket

structure Connectors where
  sockets : List Socket := []
  connectionFlags : List Bool := []
  indexTable : Nat → Option Nat := fun _ => none

namespace Connectors

/-- The slot of the connector, and the socket that is destroyed where a slot is reused. -/
def addConnector (connector : Socket) (c : Connectors) : Nat × Option Socket × Connectors :=
  match (List.range c.sockets.length).find? fun i => c.connectionFlags[i]? = some false with
  | none =>
    let ret := c.sockets.length
    (ret, none,
      { sockets := c.sockets ++ [connector]
        connectionFlags := c.connectionFlags ++ [true]
        indexTable := Function.update c.indexTable connector.descriptor (some ret) })
  | some ret =>
    (ret, c.sockets[ret]?,
      { sockets := c.sockets.set ret connector
        connectionFlags := c.connectionFlags.set ret true
        indexTable := Function.update c.indexTable connector.descriptor (some ret) })

/-- A descriptor that is not in the table gets the entry 0. -/
def getConnectorIndexFromDescriptor (descriptor : Nat) (c : Connectors) : Nat :=
  (c.indexTable descriptor).getD 0

end Connectors

/-- What `receive` returns: some bytes, none at the end of the stream, or an error. -/
inductive Received where
  | data (bytes : List Char) | endOfStream | failed (errorCode : Nat)
  deriving DecidableEq

structure TcpReactor where
  connectors : Connectors := {}
  system : System := {}
  /-- The descriptors that `accept` has returned, by connection. -/
  accepted : List Nat := []
  /-- The connections that `on_data_ready` has handled, with what was received. -/
  handled : List (Nat × Received) := []

namespace TcpReactor

def closeSocket (index : Nat) (r : TcpReactor) : Option TcpReactor := do
  let socket ← r.connectors.sockets[index]?
  let (socket, system) := socket.close r.system
  return { r with
    connectors := { r.connectors with sockets := r.connectors.sockets.set index socket }
    system := system }

def removeConnector (index : Nat) (r : TcpReactor) : Option TcpReactor :=
  closeSocket index
    { r with connectors := { r.connectors with connectionFlags := r.connectors.connectionFlags.set index false } }

def onClientDisconnected (index : Nat) (r : TcpReactor) : Option TcpReactor := do
  let socket ← r.connectors.sockets[index]?
  removeConnector index { r with system := r.system.removeDescriptor socket.descriptor }

/-- The socket that the slot held before is destroyed. -/
def acceptNewConnection (descriptor : Nat) (r : TcpReactor) : TcpReactor :=
  let connector : Socket := ⟨r.accepted.length, descriptor, .connected⟩
  let (_, destroyed, connectors) := r.connectors.addConnector connector
  let system := Socket.destroy destroyed r.system
  { r with
    connectors := connectors
    system := { system.addDescriptor descriptor with opened := insert descriptor system.opened }
    accepted := r.accepted ++ [descriptor] }

/-- The reactor closes the socket whatever has been received. -/
def onDataReady (index : Nat) (received : Received) (r : TcpReactor) : Option TcpReactor := do
  let socket ← r.connectors.sockets[index]?
  let r := { r with handled := (socket.connection, received) :: r.handled }
  let r ← match received with
    | .data _ => some r
    | .endOfStream => r.onClientDisconnected index
    | .failed errorCode =>
      let (lost, socket) := socket.isConnectionLostDuringReceive errorCode
      let r := { r with connectors := { r.connectors with sockets := r.connectors.sockets.set index socket } }
      if lost then r.onClientDisconnected index else some r
  let r ← r.closeSocket index
  r.onClientDisconnected index

def handleReady (descriptor : Nat) (received : Received) (r : TcpReactor) : Option TcpReactor :=
  r.onDataReady (r.connectors.getConnectorIndexFromDescriptor descriptor) received

end TcpReactor
end Metamalloc.Reactor
