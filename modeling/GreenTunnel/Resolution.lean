import GreenTunnel.DnsResponse
import GreenTunnel.DnsServer
import GreenTunnel.Tunnel

/-! # What a name resolves to (`dns/resolver.rs`, `proxy.rs`)

`DnsResolver.finds` says which address a name has in given surroundings: the one it
spells, or else the one in the first datagram that can be used, or else the first one
the system resolver knows.  That is what `resolve` computes, without fail
(`resolve_finds`), and who is asked on the way is said by `resolve_refines`: a query goes
out only to an IPv4 server, and the system resolver is asked exactly when the other two
ways have yielded nothing.

A server that answers every query it hears with one message is believed for the first
address in the message, whichever attempt it hears (`resolve_honest`).
-/
namespace GreenTunnel
open Trace Dns

/-- The address a lookup yields. -/
def firstAddress (answer : Option (List SocketAddr)) : Option IpAddr :=
  (answer.bind List.head?).map SocketAddr.ip

/-- The address a datagram is believed for. -/
def believed (data : Bytes) : Option IpAddr :=
  (parseDnsResponse (data.take dnsBufSize)).toOption.bind id

def Reception.data : Reception → Option Bytes
  | .datagram _ data => some data
  | .timeout | .error => none

/-- The address that the `i`th attempt hears of. -/
def heard (net : Network) (server : SocketAddr) (i : Nat) : Option IpAddr :=
  if net.udpSends udpBindAddr server i then (net.udpReceived i).data.bind believed else none

/-- The address that the query yields. -/
def DnsResolver.hears (r : DnsResolver) (net : Network) : Option IpAddr :=
  if net.udpBound then
    (parseSocketAddr r.dnsAddr).bind fun server => (List.range' 0 2).findSome? (heard net server)
  else none

/-- The address of a name. -/
def DnsResolver.finds (r : DnsResolver) (net : Network) (name : Str) : Option IpAddr :=
  (parseIpAddr name).or <|
    if (utf8Bytes name).length ≤ 100 then
      (r.hears net).or (firstAddress (net.lookupHost 0 (name ++ ":443".toList)))
    else none

/-- The address of the target of a tunnel. -/
def targetAddress (cfg : ProxyServerConfig) (net : Network) (host : Str) (port : Nat) :
    Option IpAddr :=
  ((DnsResolver.new cfg.dnsAddr).finds net (trimEndMatches '.' host)).or
    (firstAddress (net.lookupHost 1 (host ++ [':'] ++ Nat.toDigits 10 port)))

/-! ## Each way -/

section
variable {r : DnsResolver} {net : Network} {name domain : Str} {server : SocketAddr} {msg : Bytes}

/-- Two ways, of which the second is taken if the first yields nothing. -/
theorem result_orTry_or {x y : Act (Option IpAddr)} {a b : Option IpAddr} (hx : x.result = .ok a)
    (hy : y.result = .ok b) : (orTry x y).result = .ok (a.or b) := by
  rw [orTry, bind_of_ok hx]
  cases a with
  | none => exact hy
  | some a => rfl

theorem lookupHost_result (i : Nat) :
    (lookupHost net i name).result = .ok (firstAddress (net.lookupHost i name)) := by
  unfold lookupHost
  rw [emit_bind_result]
  rcases net.lookupHost i name with _ | _ | ⟨addr, rest⟩
  · rfl
  · rfl
  · rfl

/-- **The attempts** yield the first address that one of them hears of. -/
theorem queryAttempts_result (left i : Nat) :
    (queryAttempts net server msg left i).result =
      .ok ((List.range' i left).findSome? (heard net server)) := by
  induction left generalizing i with
  | zero => rfl
  | succ left ih =>
    rw [queryAttempts, emit_bind_result, List.range'_succ, List.findSome?_cons]
    cases hsent : net.udpSends udpBindAddr server i with
    | false =>
      have hnone : heard net server i = none := by rw [heard, hsent]; rfl
      rw [hnone]
      exact ih (i + 1)
    | true =>
      have hheard : heard net server i = (net.udpReceived i).data.bind believed := by
        rw [heard, hsent]; rfl
      rw [hheard]
      cases net.udpReceived i with
      | timeout => exact ih (i + 1)
      | error => exact ih (i + 1)
      | datagram src data =>
        obtain ⟨ip, hparse, -⟩ := parseDnsResponse_spec (data.take dnsBufSize)
        have hbelieved : (Reception.datagram src data).data.bind believed = ip := by
          show believed data = ip
          rw [believed, hparse]
          rfl
        rw [hbelieved]
        simp only [hparse, Act.check_ok, value_bind]
        cases ip with
        | none => exact ih (i + 1)
        | some ip => rfl

theorem queryUdp_result : (r.queryUdp net msg).result = .ok (r.hears net) := by
  unfold DnsResolver.queryUdp DnsResolver.hears
  cases net.udpBound with
  | false => rfl
  | true =>
    cases parseSocketAddr r.dnsAddr with
    | none => rfl
    | some server => exact queryAttempts_result 2 0

/-- **What `resolve` computes**: the address of the name, and never a panic. -/
theorem resolve_finds :
    (r.resolve net domain).result = .ok (r.finds net (trimEndMatches '.' domain)) := by
  rw [DnsResolver.finds]
  cases hip : parseIpAddr (trimEndMatches '.' domain) with
  | some ip => exact resolve_literal hip
  | none =>
    rw [Option.none_or]
    by_cases hlen : (utf8Bytes (trimEndMatches '.' domain)).length ≤ 100
    · rw [if_pos hlen, resolve_name hip hlen]
      exact result_orTry_or queryUdp_result (lookupHost_result 0)
    · rw [if_neg hlen]
      exact resolve_long hip (Nat.lt_of_not_le hlen)

theorem remoteAddress_finds {cfg : ProxyServerConfig} {host : Str} {port : Nat} :
    (remoteAddress cfg net host port).result = .ok (targetAddress cfg net host port) :=
  result_orTry_or resolve_finds (lookupHost_result 1)

/-! ## Who is asked -/

theorem resolve_of_literal {ip : IpAddr} (h : parseIpAddr (trimEndMatches '.' domain) = some ip) :
    (r.resolve net domain).events = [.resolve domain] := by
  unfold DnsResolver.resolve
  rw [emit_bind_events]
  dsimp only
  rw [h]
  rfl

theorem resolve_of_long (h : parseIpAddr (trimEndMatches '.' domain) = none)
    (hlen : ¬ (utf8Bytes (trimEndMatches '.' domain)).length ≤ 100) :
    (r.resolve net domain).events = [.resolve domain] := by
  unfold DnsResolver.resolve
  rw [emit_bind_events]
  dsimp only
  rw [h, buildDnsQuery_of_gt (Nat.lt_of_not_le hlen)]
  rfl

theorem resolve_of_name (h : parseIpAddr (trimEndMatches '.' domain) = none)
    (hlen : (utf8Bytes (trimEndMatches '.' domain)).length ≤ 100) :
    (r.resolve net domain).events = .resolve domain ::
      (orTry (r.queryUdp net (queryMessage (trimEndMatches '.' domain)))
        (lookupHost net 0 (trimEndMatches '.' domain ++ ":443".toList))).events := by
  unfold DnsResolver.resolve
  rw [emit_bind_events]
  dsimp only
  rw [h, buildDnsQuery_of_le hlen, Act.check_ok]
  dsimp only
  rw [value_bind, if_neg (queryMessage_length_pos _), slice_queryBuffer, Act.check_ok, value_bind]

/-- The name is one that is asked for. -/
def IsAsked (name : Str) : Prop := parseIpAddr name = none ∧ (utf8Bytes name).length ≤ 100

theorem mem_resolve_events {e : Event} (he : e ≠ .resolve domain) :
    e ∈ (r.resolve net domain).events ↔ IsAsked (trimEndMatches '.' domain) ∧
      (e ∈ (r.queryUdp net (queryMessage (trimEndMatches '.' domain))).events ∨
        r.hears net = none ∧
          e ∈ (lookupHost net 0 (trimEndMatches '.' domain ++ ":443".toList)).events) := by
  have hsingle : e ∉ [Event.resolve domain] := fun h => he (List.mem_singleton.mp h)
  rw [IsAsked]
  cases hip : parseIpAddr (trimEndMatches '.' domain) with
  | some ip =>
    rw [resolve_of_literal hip]
    exact iff_of_false hsingle fun h => by cases h.1.1
  | none =>
    by_cases hlen : (utf8Bytes (trimEndMatches '.' domain)).length ≤ 100
    · rw [resolve_of_name hip hlen, List.mem_cons, mem_events_orTry, queryUdp_result,
        Except.ok.injEq]
      exact ⟨fun h => ⟨⟨rfl, hlen⟩, h.resolve_left he⟩, fun h => Or.inr h.2⟩
    · rw [resolve_of_long hip hlen]
      exact iff_of_false hsingle fun h => hlen h.1.2

/-- It is tried to send a query if there is a socket and a server. -/
theorem query_mem_queryUdp :
    (∃ server query sent, .query server query sent ∈ (r.queryUdp net msg).events) ↔
      net.udpBound = true ∧ ∃ server, parseSocketAddr r.dnsAddr = some server := by
  unfold DnsResolver.queryUdp
  cases net.udpBound with
  | false => simp
  | true =>
    cases parseSocketAddr r.dnsAddr with
    | none => simp
    | some server =>
      exact iff_of_true ⟨server, msg, _, List.mem_cons_self⟩ ⟨rfl, server, rfl⟩

/-- The attempts send a query if one of their send calls succeeds. -/
theorem sent_mem_queryAttempts (left i : Nat) :
    (∃ target query, .query target query true ∈ (queryAttempts net server msg left i).events) ↔
      ∃ j ∈ List.range' i left, net.udpSends udpBindAddr server j = true := by
  induction left generalizing i with
  | zero => simp [queryAttempts]
  | succ left ih =>
    rw [queryAttempts, emit_bind_events, List.range'_succ, List.exists_mem_cons_iff]
    cases hsent : net.udpSends udpBindAddr server i with
    | true => exact iff_of_true ⟨server, msg, List.mem_cons_self⟩ (Or.inl rfl)
    | false =>
      -- the call is not the one looked for, and the other attempts follow
      rw [← ih (i + 1)]
      simp

/-- A query is sent if there is a socket and an IPv4 server, and a send call succeeds. -/
theorem sent_mem_queryUdp :
    (∃ target query, .query target query true ∈ (r.queryUdp net msg).events) ↔
      net.udpBound = true ∧ ∃ server, parseSocketAddr r.dnsAddr = some server ∧
        server.isIpv6 = false ∧ ∃ i < 2, net.udpSent i = true := by
  unfold DnsResolver.queryUdp
  cases net.udpBound with
  | false => simp
  | true =>
    cases parseSocketAddr r.dnsAddr with
    | none => simp
    | some server =>
      refine (sent_mem_queryAttempts 2 0).trans ?_
      constructor
      · rintro ⟨i, hi, hsends⟩
        have hfamily := udpSends_family hsends
        rw [udpSends_of_family hfamily] at hsends
        exact ⟨rfl, server, rfl, hfamily, i, by simpa using hi, hsends⟩
      · rintro ⟨-, _, hserver, hfamily, i, hi, hsent⟩
        cases hserver
        exact ⟨i, by simpa using hi, (udpSends_of_family hfamily).trans hsent⟩

theorem lookup_notMem_queryUdp {answer : Option (List SocketAddr)} :
    .lookupHost name answer ∉ (r.queryUdp net msg).events := by
  intro h
  have hno : (r.queryUdp net msg).Always fun e => ∀ name answer, e ≠ .lookupHost name answer := by
    apply queryUdp_always
    · exact fun _ _ _ _ _ _ h => by cases h
    · exact fun _ _ _ _ h => by cases h
  exact hno _ h name answer rfl

theorem mem_lookupHost {i : Nat} {e : Event} :
    e ∈ (lookupHost net i name).events ↔ e = .lookupHost name (net.lookupHost i name) := by
  unfold lookupHost
  rw [emit_bind_events]
  rcases net.lookupHost i name with _ | _ | ⟨addr, rest⟩ <;> exact List.mem_singleton

/-- While a name is resolved, queries are those of `queryUdp`. -/
theorem query_mem_resolve {query : Bytes} {sent : Bool} :
    .query server query sent ∈ (r.resolve net domain).events ↔
      IsAsked (trimEndMatches '.' domain) ∧
        .query server query sent ∈
          (r.queryUdp net (queryMessage (trimEndMatches '.' domain))).events := by
  rw [mem_resolve_events (by simp)]
  refine and_congr_right fun _ => or_iff_left fun h => ?_
  cases mem_lookupHost.mp h.2

/-- **Resolving a name, as a whole.**  It yields the address of the name, and never
panics.  For a name that is no literal and not too long, and no other, it is tried to send
a query if there is a socket and a server, and a query is sent if the server is an IPv4
address too and one of two send calls succeeds; and the system resolver is asked exactly
for such a name of which no datagram says anything. -/
theorem resolve_refines (r : DnsResolver) (net : Network) (domain : Str) :
    (r.resolve net domain).result = .ok (r.finds net (trimEndMatches '.' domain)) ∧
    ((∃ server query sent, .query server query sent ∈ (r.resolve net domain).events) ↔
      IsAsked (trimEndMatches '.' domain) ∧ net.udpBound = true ∧
        ∃ server, parseSocketAddr r.dnsAddr = some server) ∧
    ((∃ server query, .query server query true ∈ (r.resolve net domain).events) ↔
      IsAsked (trimEndMatches '.' domain) ∧ net.udpBound = true ∧
        ∃ server, parseSocketAddr r.dnsAddr = some server ∧ server.isIpv6 = false ∧
          ∃ i < 2, net.udpSent i = true) ∧
    ((∃ name answer, .lookupHost name answer ∈ (r.resolve net domain).events) ↔
      IsAsked (trimEndMatches '.' domain) ∧ r.hears net = none) := by
  refine ⟨resolve_finds, ?_, ?_, ?_⟩
  · simp only [query_mem_resolve, exists_and_left, query_mem_queryUdp]
  · simp only [query_mem_resolve, exists_and_left, sent_mem_queryUdp]
  · constructor
    · rintro ⟨name, answer, h⟩
      obtain ⟨hasked, h | ⟨hears, -⟩⟩ := (mem_resolve_events (by simp)).mp h
      · exact absurd h lookup_notMem_queryUdp
      · exact ⟨hasked, hears⟩
    · rintro ⟨hasked, hears⟩
      exact ⟨_, _, (mem_resolve_events (by simp)).mpr
        ⟨hasked, Or.inr ⟨hears, mem_lookupHost.mpr rfl⟩⟩⟩

end
/-! ## A server that answers -/

/-- **A server that answers with `m`**: there is a socket, one of the two queries is sent to
it and answered, and nothing but `m` is heard in answer to them. -/
structure AnswersWith (net : Network) (server : SocketAddr) (m : Message) : Prop where
  bound : net.udpBound = true
  some : ∃ i < 2, net.udpSends udpBindAddr server i = true ∧
    ∃ src, net.udpReceived i = .datagram src m.encode
  only : ∀ i < 2, ∀ src data, net.udpReceived i = .datagram src data → data = m.encode

section
variable {net : Network} {m : Message}

/-- A message that fits into the buffer is believed for its first address. -/
theorem believed_encode (hfits : m.encode.length ≤ dnsBufSize) (hrcode : m.rcode = 0) :
    believed m.encode = (m.answers.findSome? ResourceRecord.address).map .v4 := by
  rw [believed, List.take_of_length_le hfits, parseDnsResponse_message, if_pos hrcode]
  rfl

/-- The first thing found is the one thing there is to find. -/
theorem findSome_of_agree {α β : Type} {l : List α} {f : α → Option β} {v : Option β}
    (hall : ∀ a ∈ l, f a = none ∨ f a = v) (hone : ∃ a ∈ l, f a = v) : l.findSome? f = v := by
  cases hfound : l.findSome? f with
  | none =>
    obtain ⟨a, ha, hv⟩ := hone
    rw [← hv, List.findSome?_eq_none_iff.mp hfound a ha]
  | some b =>
    obtain ⟨a, ha, hb⟩ := List.exists_of_findSome?_eq_some hfound
    rcases hall a ha with h | h
    · cases hb.symm.trans h
    · rw [← h, hb]

/-- Whichever attempts are answered, the query yields what the message is believed for. -/
theorem AnswersWith.hears {r : DnsResolver} {server : SocketAddr} (h : AnswersWith net server m)
    (hserver : parseSocketAddr r.dnsAddr = .some server) : r.hears net = believed m.encode := by
  rw [DnsResolver.hears, h.bound, if_pos rfl, hserver, Option.bind_some]
  apply findSome_of_agree
  · intro i hi
    rw [heard]
    split
    · cases hr : net.udpReceived i with
      | timeout => exact Or.inl rfl
      | error => exact Or.inl rfl
      | datagram src data =>
        right
        rw [h.only i (by simpa using hi) src data hr]
        rfl
    · exact Or.inl rfl
  · obtain ⟨i, hi, hsent, src, hr⟩ := h.some
    refine ⟨i, by simpa using hi, ?_⟩
    rw [heard, if_pos hsent, hr]
    rfl

/-- **A name is resolved to what the server says.**  With a server that answers with a
message without an error, a name that is asked for has the first address in the answers
of the message, whichever of the two queries is heard and whatever other records there
are; only if there is none is the system resolver believed. -/
theorem resolve_honest {r : DnsResolver} {domain : Str} {server : SocketAddr}
    (hserver : parseSocketAddr r.dnsAddr = some server)
    (hasked : IsAsked (trimEndMatches '.' domain)) (h : AnswersWith net server m)
    (hfits : m.encode.length ≤ dnsBufSize) (hrcode : m.rcode = 0) :
    (r.resolve net domain).result =
      .ok (((m.answers.findSome? ResourceRecord.address).map .v4).or
        (firstAddress (net.lookupHost 0 (trimEndMatches '.' domain ++ ":443".toList)))) := by
  rw [resolve_finds, DnsResolver.finds, hasked.1, Option.none_or, if_pos hasked.2,
    h.hears hserver, believed_encode hfits hrcode]

/-- The first query is lost, and the second one is answered. -/
def secondTime : Network :=
  { Network.answering ⟨.v4 ⟨93, 184, 216, 34⟩, 443⟩ with
    udpBound := true
    udpSent := fun i => i == 1
    udpReceived := fun _ => .datagram ⟨.v4 ⟨8, 8, 8, 8⟩, 53⟩ filteredResponse.encode }

theorem resolve_honest_example :
    ((DnsResolver.new "8.8.8.8".toList).resolve secondTime "example.com.".toList).result =
      .ok (some (.v4 ⟨1, 1, 1, 1⟩)) :=
  @resolve_honest secondTime filteredResponse (.new "8.8.8.8".toList) "example.com.".toList
    ⟨.v4 ⟨8, 8, 8, 8⟩, 53⟩ (by decide +kernel) ⟨by decide +kernel, by decide⟩
    ⟨rfl, ⟨1, by decide, rfl, _, rfl⟩, fun _ _ _ _ h => (Reception.datagram.inj h).2.symm⟩
    (by decide) rfl

end
end GreenTunnel
