import GreenTunnel.NetAddr
import GreenTunnel.Trace

/-! # Calls on sockets

A socket is made, prepared and bound or connected by calls in a row.  Some of them must
not fail, and one of these that fails ends the row; the results of the others are thrown
away (`.ok()`).  So what a row comes to depends on the calls that must not fail only
(`Calls.require_bind`, `Calls.attempt_bind_result`).
-/
namespace GreenTunnel
open Trace

/-- A call on a socket, or one that makes it. -/
inductive SocketCall where
  | new (ipv6 : Bool)
  | setReuseAddress
  | setReusePort
  | setNonblocking
  | bind (addr : SocketAddr)
  | listen (backlog : Nat)
  | fromStd
  | connect (addr : SocketAddr)
  | setNodelay
  | setTcpKeepalive (ofClient : Bool) (seconds : Nat)
  | setRecvBufferSize (size : Nat)
  | setSendBufferSize (size : Nat)
  deriving DecidableEq

/-- Calls in a row; one that must not fail ends it. -/
abbrev Calls (α : Type) := Trace SocketCall Unit α

namespace Calls

/-- A call that must not fail. -/
def require (os : SocketCall → Bool) (call : SocketCall) : Calls Unit := do
  emit call
  ofExcept (if os call then .ok () else .error ())

/-- A call that may fail. -/
def attempt (call : SocketCall) : Calls Unit := emit call

/-- The row came to its end. -/
def succeeded (calls : Calls Unit) : Bool := calls.result.toBool

variable {os : SocketCall → Bool} {call : SocketCall}

theorem succeeded_iff {calls : Calls Unit} : calls.succeeded = true ↔ calls.result = .ok () := by
  rw [succeeded]
  cases calls.result with
  | ok u => exact iff_of_true rfl rfl
  | error e => exact iff_of_false (fun h => by cases h) fun h => by cases h

theorem require_bind {α : Type} {f : Unit → Calls α} {a : α} :
    (require os call >>= f).result = .ok a ↔ os call = true ∧ (f ()).result = .ok a := by
  have hresult : (require os call).result = if os call then .ok () else .error () := rfl
  rw [result_bind_eq_ok, hresult]
  cases os call with
  | true => exact ⟨fun ⟨_, _, h⟩ => ⟨rfl, h⟩, fun h => ⟨(), rfl, h.2⟩⟩
  | false =>
    constructor
    · rintro ⟨_, h, -⟩
      cases h
    · rintro ⟨h, -⟩
      cases h

theorem attempt_result : (attempt call).result = .ok () := rfl

theorem attempt_bind_result {α : Type} {f : Unit → Calls α} :
    (attempt call >>= f).result = (f ()).result := rfl

end Calls
end GreenTunnel
