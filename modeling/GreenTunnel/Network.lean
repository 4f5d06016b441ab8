import GreenTunnel.ShortWrites
import GreenTunnel.Sockets

/-! # The proxy's surroundings

`Network` fixes everything a connection of the proxy depends on and does not
decide: what the sockets do, what the resolvers answer, how the client's bytes
are divided into reads, and the random numbers.  `Event` is what the proxy does
to its surroundings, and what it hears from a resolver.  A statement about every
`Network` is about every such connection.
-/
namespace GreenTunnel

/-- What a UDP receive call yields before its timeout. -/
inductive Reception where
  | timeout
  | error
  | datagram (src : SocketAddr) (data : Bytes)

/-- The random numbers drawn while the first read is sent on. -/
structure HelloDraws where
  cut : Nat
  delay : Nat
  chunks : Nat → Nat

/-- What a connection depends on. -/
structure Network where
  /-- The UDP socket can be bound. -/
  udpBound : Bool
  /-- The send call of the `i`th attempt succeeds, to an address of the socket's family. -/
  udpSent : Nat → Bool
  /-- What the receive call of the `i`th attempt yields. -/
  udpReceived : Nat → Reception
  /-- The system resolver's answer to the `i`th lookup; `none` is an error. -/
  lookupHost : Nat → Str → Option (List SocketAddr)
  /-- Which calls on the sockets of the tunnel succeed. -/
  sockets : SocketCall → Bool
  /-- The connection of the probe succeeds. -/
  probeConnects : Bool
  client : Nat → WriteOutcome
  remote : Nat → WriteOutcome
  probe : Nat → WriteOutcome
  /-- How many bytes the first and the second read from the client want to yield;
  `none` is an error. -/
  firstRead : Option Nat
  helloRead : Option Nat
  draws : HelloDraws

/-- The send call of an attempt succeeds: a socket sends to addresses of its own family
only. -/
def Network.udpSends (net : Network) (bindAddr target : SocketAddr) (attempt : Nat) : Bool :=
  bindAddr.isIpv6 == target.isIpv6 && net.udpSent attempt

/-- Surroundings in which no DNS server can be asked, the system resolver knows
`answer` only, and everything else succeeds. -/
def Network.answering (answer : SocketAddr) : Network where
  udpBound := false
  udpSent _ := true
  udpReceived _ := .timeout
  lookupHost _ _ := some [answer]
  sockets _ := true
  probeConnects := true
  client _ := .accepts 65536
  remote _ := .accepts 65536
  probe _ := .accepts 65536
  firstRead := some 65536
  helloRead := some 65536
  draws := ⟨0, 0, fun _ => 0⟩

/-- What the proxy does to its surroundings or hears from them. -/
inductive Event where
  /-- The bytes of a response that the client has taken. -/
  | replied (bs : Bytes)
  /-- The resolver is asked for the host. -/
  | resolve (host : Str)
  /-- A call to send a UDP query, and whether it is sent. -/
  | query (server : SocketAddr) (msg : Bytes) (sent : Bool)
  /-- A received datagram. -/
  | datagram (src : SocketAddr) (data : Bytes)
  /-- A lookup by the system resolver, and its answer. -/
  | lookupHost (name : Str) (answer : Option (List SocketAddr))
  /-- The remote is to be connected to. -/
  | connect (addr : SocketAddr)
  /-- The probe is to connect. -/
  | probe (addr : SocketAddr)
  /-- The bytes the probe's peer has taken. -/
  | probed (bs : Bytes)
  /-- The first bytes of the tunnel are read from the client. -/
  | readHello (bs : Bytes)
  /-- The bytes of them that the remote has taken. -/
  | forwarded (bs : Bytes)
  /-- Copying in both directions starts; the client still sends `rest`. -/
  | tunnel (rest : Bytes)
  deriving DecidableEq

/-- Why a connection was given up. -/
inductive Stop where
  /-- A read or a write failed. -/
  | io
  /-- The proxy panicked. -/
  | fault (f : Fault)
  deriving DecidableEq

/-- What the proxy does on a connection. -/
abbrev Act (α : Type) := Trace Event Stop α

/-- A computation that may panic. -/
def Act.check {α : Type} (r : Checked α) : Act α := Trace.ofExcept (r.mapError Stop.fault)

/-- How writing ended. -/
def Act.written (r : Except WriteError Unit) : Act Unit :=
  Trace.ofExcept <| r.mapError fun e =>
    match e with
    | .fault f => .fault f
    | _ => .io

@[simp] theorem Act.check_ok {α : Type} (a : α) : Act.check (.ok a) = pure a := rfl

/-- How many bytes a read into a buffer of `cap` bytes yields when `stream` is
what the peer still sends: at least one, unless nothing is left. -/
def readLength (cap : Nat) (stream : Bytes) (want : Nat) : Nat :=
  min (max 1 want) (min cap stream.length)

theorem readLength_le (cap : Nat) (stream : Bytes) (want : Nat) :
    readLength cap stream want ≤ stream.length :=
  Nat.le_trans (Nat.min_le_right _ _) (Nat.min_le_right _ _)

theorem readLength_le_cap (cap : Nat) (stream : Bytes) (want : Nat) :
    readLength cap stream want ≤ cap :=
  Nat.le_trans (Nat.min_le_right _ _) (Nat.min_le_left _ _)

/-- A read into a buffer yields nothing only if nothing is left. -/
theorem readLength_eq_zero {cap want : Nat} {stream : Bytes} (hcap : 0 < cap)
    (h : readLength cap stream want = 0) : stream = [] := by
  unfold readLength at h
  apply List.eq_nil_of_length_eq_zero
  omega

/-- Every length a read can have is one it wants. -/
theorem readLength_eq {cap n : Nat} {stream : Bytes} (h1 : 1 ≤ n) (hcap : n ≤ cap)
    (hlen : n ≤ stream.length) : readLength cap stream n = n := by
  unfold readLength
  omega

end GreenTunnel
