import Strongroom.Wire.Connection
/-!
# The server

The server listens at one address, serves so many clients at a time, and sends away those that
come while all places are taken.
-/

namespace Strongroom

/-! ## Addresses -/

/-- The network of a host: the addresses it has, and the sockets that are listened at. -/
structure Network where
  addresses : List String
  listening : List String
deriving DecidableEq, Repr

/-- A host without a network. -/
def Network.none : Network := ⟨[], []⟩

/-- Starts to listen at a socket. -/
def Network.listen (n : Network) (startup : Startup) : Except HostFault Network :=
  if n.addresses.contains startup.bindAddress = false then .error .addressUnavailable
  else if n.listening.contains startup.listenSocket then .error .addressInUse
  else .ok { n with listening := startup.listenSocket :: n.listening }

/-! ## Clients -/

/-- A client that has a place, with what it has sent of a line that is not complete. -/
structure Client where
  id : String
  pending : Bytes

/-- A server with the clients that have a place. -/
structure Server where
  maxClients : UInt64
  maxRequestBytes : UInt64
  vault : Vault
  clients : List Client

/-- What a client receives. -/
inductive Delivery
  | response (response : Response)
  | closed

/-- Why a server does not start. -/
inductive BindFault
  | host (fault : HostFault)
  | tooManyPlaces
deriving DecidableEq, Repr

namespace Server

/-- The greatest number of places that a server can keep. -/
def mostPlaces : UInt64 := 2305843009213693951

/-- A server that listens at the address of its settings and keeps a place for each client that
they allow. -/
def bind (n : Network) (startup : Startup) (v : Vault) : Except BindFault (Network × Server) :=
  match n.listen startup with
  | .error fault => .error (.host fault)
  | .ok n =>
    if mostPlaces < startup.maxClients then .error .tooManyPlaces
    else .ok (n, ⟨startup.maxClients, startup.maxRequestBytes, v, []⟩)

/-- What a client is told for whom there is no place. -/
def crowded : Response :=
  .error .unavailable "too many connections, try again later"

/-- A new client: it gets a place, or is told that there is none. -/
def accept (s : Server) (id : String) : List Delivery × Server :=
  if s.clients.length < s.maxClients.toNat then ([], { s with clients := ⟨id, []⟩ :: s.clients })
  else ([.response crowded, .closed], s)

/-- The complete lines of some bytes, and what follows the last of them. -/
def completeLines (bytes : Bytes) : Bytes × Bytes :=
  let rest := (bytes.reverse.takeWhile fun b => b != Connection.newline).reverse
  (bytes.take (bytes.length - rest.length), rest)

/-- Bytes from a client: the lines that they complete are answered. -/
def receive (s : Server) (id : String) (bytes : Bytes) : List Delivery × Server :=
  match s.clients.find? fun client => client.id == id with
  | none => ([], s)
  | some client =>
    let (lines, pending) := completeLines (client.pending ++ bytes)
    let (responses, vault) := Connection.serve s.maxRequestBytes s.vault [lines]
    let clients := s.clients.map fun c => if c.id == id then ⟨id, pending⟩ else c
    (responses.map .response, { s with vault, clients })

/-- The end of what a client sends: its last line is answered, and its place is free again. -/
def finish (s : Server) (id : String) : List Delivery × Server :=
  match s.clients.find? fun client => client.id == id with
  | none => ([], s)
  | some client =>
    let (responses, vault) := Connection.serve s.maxRequestBytes s.vault [client.pending]
    let clients := s.clients.filter fun c => c.id != id
    (responses.map .response ++ [.closed], { s with vault, clients })

end Server

end Strongroom
