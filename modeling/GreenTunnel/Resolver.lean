import GreenTunnel.DnsQuery
import GreenTunnel.Network

/-! # Resolving a name (`dns/resolver.rs`)

A host is resolved to an address as a literal, by a UDP query to the configured
server in two attempts, or by the system resolver.  `QueryRun` says what the
attempts can do, and `Resolves` where an address comes from.

What is sent to the server is the query for the name (`resolve_sends`), a message
of the DNS format when the parts of the name are labels.  It is sent from an IPv4
socket, so that a server with an IPv6 address never gets it.  A datagram is believed
for what it says (`queryUdp_answers`): nothing in it or about it is compared with
the query or the server.
-/
namespace GreenTunnel
open Trace Dns

def defaultDnsAddr : Str := "127.0.0.1:53".toList

/-- Length of the receive buffer. -/
def dnsBufSize : Nat := 512

structure DnsResolver where
  dnsAddr : Str

def DnsResolver.new (dnsAddr : Str) : DnsResolver :=
  if dnsAddr = [] then ⟨defaultDnsAddr⟩
  else if ':' ∉ dnsAddr then ⟨dnsAddr ++ ":53".toList⟩
  else ⟨dnsAddr⟩

/-- The address of the socket that queries are sent from. -/
def udpBindAddr : SocketAddr := ⟨.v4 ⟨0, 0, 0, 0⟩, 0⟩

example : parseSocketAddr "0.0.0.0:0".toList = some udpBindAddr := by decide +kernel

/-- `left` attempts, of which the first is the `attempt`th. -/
def queryAttempts (net : Network) (targetAddr : SocketAddr) (queryMsg : Bytes) :
    (left attempt : Nat) → Act (Option IpAddr)
  | 0, _ => pure none
  | left + 1, attempt => do
    let sent := net.udpSends udpBindAddr targetAddr attempt
    emit (.query targetAddr queryMsg sent)
    if !sent then queryAttempts net targetAddr queryMsg left (attempt + 1)
    else
      match net.udpReceived attempt with
      | .datagram src data => do
        emit (.datagram src data)
        match ← Act.check (parseDnsResponse (data.take dnsBufSize)) with
        | some ip => pure (some ip)
        | none => queryAttempts net targetAddr queryMsg left (attempt + 1)
      | .timeout => queryAttempts net targetAddr queryMsg left (attempt + 1)
      | .error => queryAttempts net targetAddr queryMsg left (attempt + 1)

def DnsResolver.queryUdp (r : DnsResolver) (net : Network) (queryMsg : Bytes) :
    Act (Option IpAddr) :=
  if !net.udpBound then pure none
  else
    match parseSocketAddr r.dnsAddr with
    | some targetAddr => queryAttempts net targetAddr queryMsg 2 0
    | none => pure none

/-- The first address that the `i`th lookup by the system resolver yields. -/
def lookupHost (net : Network) (i : Nat) (name : Str) : Act (Option IpAddr) := do
  emit (.lookupHost name (net.lookupHost i name))
  match net.lookupHost i name with
  | some (addr :: _) => pure (some addr.ip)
  | _ => pure none

def DnsResolver.resolve (r : DnsResolver) (net : Network) (domain : Str) : Act (Option IpAddr) := do
  emit (.resolve domain)
  let cleanDomain := trimEndMatches '.' domain
  match parseIpAddr cleanDomain with
  | some ip => pure (some ip)
  | none => do
    let (queryBuf, queryLen) ← Act.check (buildDnsQuery cleanDomain)
    if queryLen = 0 then pure none
    else do
      let queryMsg ← Act.check (Checked.slice queryBuf 0 queryLen)
      orTry (r.queryUdp net queryMsg) (lookupHost net 0 (cleanDomain ++ ":443".toList))

/-! ## The three ways -/

section
variable {r : DnsResolver} {net : Network} {domain : Str}

/-- A literal is its own address. -/
theorem resolve_literal {ip : IpAddr} (h : parseIpAddr (trimEndMatches '.' domain) = some ip) :
    (r.resolve net domain).result = .ok (some ip) := by
  unfold DnsResolver.resolve
  rw [emit_bind_result]
  dsimp only
  rw [h]
  rfl

/-- A name too long for a query is not resolved. -/
theorem resolve_long (h : parseIpAddr (trimEndMatches '.' domain) = none)
    (hlen : 100 < (utf8Bytes (trimEndMatches '.' domain)).length) :
    (r.resolve net domain).result = .ok none := by
  unfold DnsResolver.resolve
  rw [emit_bind_result]
  dsimp only
  rw [h, buildDnsQuery_of_gt hlen]
  rfl

/-- Any other name is asked for, first by a DNS query and then of the system. -/
theorem resolve_name (h : parseIpAddr (trimEndMatches '.' domain) = none)
    (hlen : (utf8Bytes (trimEndMatches '.' domain)).length ≤ 100) :
    (r.resolve net domain).result =
      (orTry (r.queryUdp net (queryMessage (trimEndMatches '.' domain)))
        (lookupHost net 0 (trimEndMatches '.' domain ++ ":443".toList))).result := by
  unfold DnsResolver.resolve
  rw [emit_bind_result]
  dsimp only
  rw [h, buildDnsQuery_of_le hlen, Act.check_ok]
  dsimp only
  rw [value_bind, if_neg (queryMessage_length_pos _), slice_queryBuffer, Act.check_ok, value_bind]

end

/-! ## The attempts -/

/-- A query is sent to an IPv4 address only. -/
theorem udpSends_family {net : Network} {target : SocketAddr} {i : Nat}
    (h : net.udpSends udpBindAddr target i = true) : target.isIpv6 = false :=
  (eq_of_beq (Bool.and_eq_true_iff.mp h).1).symm

/-- To an IPv4 address it is sent whenever the call succeeds. -/
theorem udpSends_of_family {net : Network} {target : SocketAddr} {i : Nat}
    (h : target.isIpv6 = false) : net.udpSends udpBindAddr target i = net.udpSent i := by
  rw [Network.udpSends, h]
  exact Bool.true_and _

/-- **A run of the attempts**: each tries to send the query, which fails if the target is
an IPv6 address; and either an address is read in the datagram it receives, or it is left
to the attempts that follow. -/
inductive QueryRun (target : SocketAddr) (msg : Bytes) : Act (Option IpAddr) → Prop where
  | exhausted : QueryRun target msg (pure none)
  | unsent {x : Act (Option IpAddr)} (next : QueryRun target msg x) :
      QueryRun target msg (emit (.query target msg false) >>= fun _ => x)
  | lost {x : Act (Option IpAddr)} (family : target.isIpv6 = false)
      (next : QueryRun target msg x) :
      QueryRun target msg (emit (.query target msg true) >>= fun _ => x)
  | useless {x : Act (Option IpAddr)} (family : target.isIpv6 = false) (src : SocketAddr)
      (data : Bytes) (next : QueryRun target msg x) :
      QueryRun target msg (emit (.query target msg true) >>= fun _ =>
        emit (.datagram src data) >>= fun _ => x)
  | answered {v4 : Ipv4Addr} (family : target.isIpv6 = false) (src : SocketAddr) (data : Bytes)
      (answers : Answers (data.take dnsBufSize) v4) :
      QueryRun target msg (emit (.query target msg true) >>= fun _ =>
        emit (.datagram src data) >>= fun _ => pure (some (.v4 v4)))

theorem queryAttempts_run (net : Network) (target : SocketAddr) (msg : Bytes) (left i : Nat) :
    QueryRun target msg (queryAttempts net target msg left i) := by
  induction left generalizing i with
  | zero => exact QueryRun.exhausted
  | succ left ih =>
    rw [queryAttempts]
    cases hsent : net.udpSends udpBindAddr target i with
    | false => exact QueryRun.unsent (ih (i + 1))
    | true =>
      have hfamily := udpSends_family hsent
      cases net.udpReceived i with
      | timeout => exact QueryRun.lost hfamily (ih (i + 1))
      | error => exact QueryRun.lost hfamily (ih (i + 1))
      | datagram src data =>
        obtain ⟨r, hparse, hiff⟩ := parseDnsResponse_spec (data.take dnsBufSize)
        simp only [hparse, Act.check_ok]
        cases r with
        | none => exact QueryRun.useless hfamily src data (ih (i + 1))
        | some ip =>
          obtain ⟨v4, rfl, hans⟩ := (hiff ip).mp rfl
          exact QueryRun.answered hfamily src data hans

/-! ## What is sent -/

/-- The event sends nothing but `msg` to the server. -/
def Event.Sends (msg : Bytes) : Event → Prop
  | .query _ text _ => text = msg
  | _ => True

section
variable {P : Event → Prop} {r : DnsResolver} {net : Network} {target : SocketAddr} {msg : Bytes}
  {domain : Str}

/-- The attempts try to send a query each and receive datagrams. -/
theorem QueryRun.always {x : Act (Option IpAddr)} (h : QueryRun target msg x)
    (hquery : ∀ sent, (sent = true → target.isIpv6 = false) → P (.query target msg sent))
    (hdatagram : ∀ src data, P (.datagram src data)) : x.Always P := by
  induction h with
  | exhausted => exact Always.pure _
  | unsent _ ih =>
    exact Always.bind (Always.emit (hquery false fun h => by cases h)) fun _ _ => ih
  | lost family _ ih => exact Always.bind (Always.emit (hquery true fun _ => family)) fun _ _ => ih
  | useless family src data _ ih =>
    exact Always.bind (Always.emit (hquery true fun _ => family)) fun _ _ =>
      Always.bind (Always.emit (hdatagram src data)) fun _ _ => ih
  | answered family src data _ =>
    exact Always.bind (Always.emit (hquery true fun _ => family)) fun _ _ =>
      Always.bind (Always.emit (hdatagram src data)) fun _ _ => Always.pure _

/-- A query goes to the address that the resolver's text is read as, or nowhere if that is
an IPv6 address. -/
theorem queryUdp_always
    (hquery : ∀ target sent, parseSocketAddr r.dnsAddr = some target →
      (sent = true → target.isIpv6 = false) → P (.query target msg sent))
    (hdatagram : ∀ src data, P (.datagram src data)) : (r.queryUdp net msg).Always P := by
  unfold DnsResolver.queryUdp
  cases net.udpBound with
  | false => exact Always.pure _
  | true =>
    cases hparse : parseSocketAddr r.dnsAddr with
    | none => exact Always.pure _
    | some target =>
      exact (queryAttempts_run net target msg 2 0).always
        (fun sent => hquery target sent hparse) hdatagram

/-- **What happens while a name is resolved**: the queries are for the name without
its trailing dots, and go to the address that the resolver's text is read as, or nowhere
if that is an IPv6 address. -/
theorem resolve_always (hresolve : P (.resolve domain))
    (hquery : ∀ target sent, parseSocketAddr r.dnsAddr = some target →
      (sent = true → target.isIpv6 = false) →
      P (.query target (queryMessage (trimEndMatches '.' domain)) sent))
    (hdatagram : ∀ src data, P (.datagram src data))
    (hlookup : ∀ name answer, P (.lookupHost name answer)) : (r.resolve net domain).Always P := by
  unfold DnsResolver.resolve
  refine Always.bind (Always.emit hresolve) fun _ _ => ?_
  dsimp only
  cases parseIpAddr (trimEndMatches '.' domain) with
  | some ip => exact Always.pure _
  | none =>
    by_cases hlen : (utf8Bytes (trimEndMatches '.' domain)).length ≤ 100
    · rw [buildDnsQuery_of_le hlen, Act.check_ok]
      dsimp only
      rw [value_bind, if_neg (queryMessage_length_pos _), slice_queryBuffer, Act.check_ok,
        value_bind]
      apply (queryUdp_always hquery hdatagram).orTry
      unfold lookupHost
      refine Always.bind (Always.emit (hlookup _ _)) fun _ _ => ?_
      split
      · exact Always.pure _
      · exact Always.pure _
    · rw [buildDnsQuery_of_gt (Nat.lt_of_not_le hlen), Act.check_ok]
      exact Always.pure _

end

/-- **Every query sent is the query for the name**, without its trailing dots. -/
theorem resolve_sends (r : DnsResolver) (net : Network) (domain : Str) :
    (r.resolve net domain).Always (Event.Sends (queryMessage (trimEndMatches '.' domain))) := by
  apply resolve_always
  · trivial
  · exact fun _ _ _ _ => rfl
  · exact fun _ _ => trivial
  · exact fun _ _ => trivial

/-- For a name whose parts are labels every query sent is a message of the DNS
format that asks for these labels. -/
theorem resolve_sends_message {r : DnsResolver} {net : Network} {domain : Str}
    {labels : List Label} {server : SocketAddr} {msg : Bytes} {sent : Bool}
    (h : labels.map Label.bytes = (nameParts (trimEndMatches '.' domain)).filter (· ≠ []))
    (hsent : .query server msg sent ∈ (r.resolve net domain).events) :
    msg = (queryFor labels).encode := by
  have hmsg : msg = queryMessage (trimEndMatches '.' domain) := resolve_sends r net domain _ hsent
  rw [hmsg]
  exact queryMessage_eq_encode h

/-! ## The UDP query -/

/-- **A datagram is believed for what it says.**  When the query yields an
address, one of the datagrams received reports no error and has that address in
the first A record of its answer section. -/
theorem QueryRun.answers {target : SocketAddr} {msg : Bytes} {x : Act (Option IpAddr)}
    (h : QueryRun target msg x) {ip : IpAddr} (hres : x.result = .ok (some ip)) :
    ∃ src data v4, Event.datagram src data ∈ x.events ∧ ip = .v4 v4 ∧
      Answers (data.take dnsBufSize) v4 := by
  induction h with
  | exhausted => cases hres
  | unsent _ ih =>
    obtain ⟨src, data, v4, hmem, hip, hans⟩ := ih hres
    exact ⟨src, data, v4, List.mem_cons_of_mem _ hmem, hip, hans⟩
  | lost _ _ ih =>
    obtain ⟨src, data, v4, hmem, hip, hans⟩ := ih hres
    exact ⟨src, data, v4, List.mem_cons_of_mem _ hmem, hip, hans⟩
  | useless _ _ _ _ ih =>
    obtain ⟨src, data, v4, hmem, hip, hans⟩ := ih hres
    exact ⟨src, data, v4, List.mem_cons_of_mem _ (List.mem_cons_of_mem _ hmem), hip, hans⟩
  | @answered v4 _ src data hans =>
    cases hres
    exact ⟨src, data, v4, List.mem_cons_of_mem _ List.mem_cons_self, rfl, hans⟩

theorem queryUdp_answers {r : DnsResolver} {net : Network} {msg : Bytes} {ip : IpAddr}
    (h : (r.queryUdp net msg).result = .ok (some ip)) :
    ∃ src data v4, Event.datagram src data ∈ (r.queryUdp net msg).events ∧ ip = .v4 v4 ∧
      Answers (data.take dnsBufSize) v4 := by
  unfold DnsResolver.queryUdp at h ⊢
  cases hb : net.udpBound with
  | false =>
    rw [hb] at h
    cases h
  | true =>
    rw [hb] at h
    cases hp : parseSocketAddr r.dnsAddr with
    | none =>
      rw [hp] at h
      cases h
    | some target =>
      rw [hp] at h
      exact (queryAttempts_run net target msg 2 0).answers h

/-- A message with another identifier than a query has, not marked as a response,
without a question, and with an address in a record of class CH. -/
def strayMessage : Bytes :=
  [0x99, 0x99, 0, 0, 0, 0, 0, 1, 0, 0, 0, 0, 0, 0, 1, 0, 3, 0, 0, 0, 0, 0, 4, 6, 6, 6, 6]

/-- Surroundings in which `strayMessage` arrives from a host that is not asked. -/
def straySender : Network :=
  { Network.answering ⟨.v4 ⟨6, 6, 6, 6⟩, 443⟩ with
    udpBound := true
    udpReceived := fun _ => .datagram ⟨.v4 ⟨6, 6, 6, 6⟩, 4242⟩ strayMessage }

theorem queryUdp_answers_example :
    ∃ src data v4, Event.datagram src data ∈ ((DnsResolver.new "8.8.8.8".toList).queryUdp
        straySender (queryMessage "example.com".toList)).events ∧
      IpAddr.v4 ⟨6, 6, 6, 6⟩ = .v4 v4 ∧ Answers (data.take dnsBufSize) v4 :=
  queryUdp_answers (by decide +kernel)

/-- **An answer to nothing is believed.**  The only datagram received comes from
another address than the server's, has another identifier than the query, is not
marked as a response, repeats no question, and its record is not of class IN. -/
theorem queryUdp_believes_stray :
    ((DnsResolver.new "8.8.8.8".toList).queryUdp straySender
      (queryMessage "example.com".toList)).result = .ok (some (.v4 ⟨6, 6, 6, 6⟩)) ∧
    ((DnsResolver.new "8.8.8.8".toList).queryUdp straySender
      (queryMessage "example.com".toList)).events =
        [.query ⟨.v4 ⟨8, 8, 8, 8⟩, 53⟩ (queryMessage "example.com".toList) true,
          .datagram ⟨.v4 ⟨6, 6, 6, 6⟩, 4242⟩ strayMessage] ∧
    (⟨.v4 ⟨6, 6, 6, 6⟩, 4242⟩ : SocketAddr) ≠ ⟨.v4 ⟨8, 8, 8, 8⟩, 53⟩ ∧
    strayMessage.take 2 ≠ (queryMessage "example.com".toList).take 2 ∧
    strayMessage[2]? = some 0 ∧ be16At strayMessage 4 = some 0 ∧
    RecordAt strayMessage 12 dnsTypeA 23 4 ∧ be16At strayMessage 15 = some 3 := by
  refine ⟨by decide +kernel, by decide +kernel, by decide, by decide, by decide, by decide, ?_,
    by decide⟩
  exact RecordAt.intro (NameEnds.root (by decide)) (by decide) (by decide) (by decide)

/-! ## Where an address comes from -/

/-- The event is a lookup by the system resolver, and `ip` the first address of
its answer. -/
def Event.LookedUp (ip : IpAddr) (e : Event) : Prop :=
  ∃ name addr rest, e = .lookupHost name (some (addr :: rest)) ∧ addr.ip = ip

/-- The event is part of resolving the name `domain`. -/
def Event.Resolving (domain : Str) : Event → Prop
  | .resolve name => name = domain
  | .query _ _ _ | .datagram _ _ | .lookupHost _ _ => True
  | _ => False

/-- What a part of resolving `domain` owes the rest: an address that is not an IPv4
address comes from a lookup, and a lookup that yields an address decides it. -/
structure Resolves (domain : Str) (x : Act (Option IpAddr)) : Prop where
  events : x.Always (Event.Resolving domain)
  source : ∀ ip, x.result = .ok (some ip) → (∃ v4, ip = .v4 v4) ∨ ∃ e ∈ x.events, e.LookedUp ip
  used : ∀ e ∈ x.events, ∀ ip, e.LookedUp ip → x.result = .ok (some ip)

namespace Resolves
variable {domain : Str}

theorem nothing : Resolves domain (pure none) where
  events := Always.pure _
  source ip h := by cases h
  used e h := absurd h List.not_mem_nil

theorem v4 (addr : Ipv4Addr) : Resolves domain (pure (some (.v4 addr))) where
  events := Always.pure _
  source ip h := by
    cases h
    exact Or.inl ⟨addr, rfl⟩
  used e h := absurd h List.not_mem_nil

/-- An event that is not a lookup changes nothing. -/
theorem emit {e : Event} (he : e.Resolving domain) (hne : ∀ ip, ¬ e.LookedUp ip)
    {x : Act (Option IpAddr)} (hx : Resolves domain x) :
    Resolves domain (Trace.emit e >>= fun _ => x) where
  events := Always.bind (Always.emit he) fun _ _ => hx.events
  source ip h := by
    rcases hx.source ip h with h4 | ⟨e', he', hl⟩
    · exact Or.inl h4
    · exact Or.inr ⟨e', List.mem_cons_of_mem _ he', hl⟩
  used e' he' ip hl := by
    rcases List.mem_cons.mp he' with rfl | he'
    · exact absurd hl (hne ip)
    · exact hx.used e' he' ip hl

/-- A computation that panics does not resolve anything. -/
theorem check {α : Type} {r : Checked α} {f : α → Act (Option IpAddr)}
    (hf : ∀ a, Resolves domain (f a)) : Resolves domain (Act.check r >>= f) := by
  cases r with
  | ok a => exact hf a
  | error e =>
    refine ⟨fun _ he => absurd he List.not_mem_nil, fun ip h => ?_,
      fun _ he => absurd he List.not_mem_nil⟩
    cases h

theorem orTry {x y : Act (Option IpAddr)} (hx : Resolves domain x) (hy : Resolves domain y) :
    Resolves domain (Trace.orTry x y) where
  events := hx.events.orTry hy.events
  source ip h := by
    rcases result_orTry.mp h with h | ⟨hn, h⟩
    · rcases hx.source ip h with h4 | ⟨e, he, hl⟩
      · exact Or.inl h4
      · exact Or.inr ⟨e, mem_events_orTry.mpr (Or.inl he), hl⟩
    · rcases hy.source ip h with h4 | ⟨e, he, hl⟩
      · exact Or.inl h4
      · exact Or.inr ⟨e, mem_events_orTry.mpr (Or.inr ⟨hn, he⟩), hl⟩
  used e he ip hl := by
    rcases mem_events_orTry.mp he with h | ⟨hn, h⟩
    · exact result_orTry.mpr (Or.inl (hx.used e h ip hl))
    · exact result_orTry.mpr (Or.inr ⟨hn, hy.used e h ip hl⟩)

theorem lookupHost (net : Network) (i : Nat) (name : Str) :
    Resolves domain (GreenTunnel.lookupHost net i name) := by
  unfold GreenTunnel.lookupHost
  cases hl : net.lookupHost i name with
  | none => exact emit (by trivial) (fun ip h => by obtain ⟨_, _, _, h, -⟩ := h; cases h) nothing
  | some addrs =>
    cases addrs with
    | nil => exact emit (by trivial) (fun ip h => by obtain ⟨_, _, _, h, -⟩ := h; cases h) nothing
    | cons addr rest =>
      refine ⟨Always.bind (Always.emit (by trivial)) fun _ _ => Always.pure _, fun ip h => ?_,
        fun e he ip hu => ?_⟩
      · cases h
        exact Or.inr ⟨_, List.mem_singleton_self _, name, addr, rest, rfl, rfl⟩
      · rw [List.mem_singleton.mp he] at hu
        obtain ⟨_, _, _, h, rfl⟩ := hu
        cases h
        rfl

theorem attempts {target : SocketAddr} {msg : Bytes} {x : Act (Option IpAddr)}
    (h : QueryRun target msg x) : Resolves domain x := by
  have hno : ∀ e : Event, (∀ name answer, e ≠ .lookupHost name answer) → ∀ ip, ¬ e.LookedUp ip := by
    rintro e hne ip ⟨name, addr, rest, rfl, -⟩
    exact hne _ _ rfl
  have hquery : ∀ {x} (sent), Resolves domain x →
      Resolves domain (Trace.emit (.query target msg sent) >>= fun _ => x) := fun _ =>
    emit (by trivial) (hno _ fun _ _ h => by cases h)
  have hdatagram : ∀ {x} (src data), Resolves domain x →
      Resolves domain (Trace.emit (.datagram src data) >>= fun _ => x) := fun _ _ =>
    emit (by trivial) (hno _ fun _ _ h => by cases h)
  induction h with
  | exhausted => exact nothing
  | unsent _ ih => exact hquery false ih
  | lost _ _ ih => exact hquery true ih
  | useless _ src data _ ih => exact hquery true (hdatagram src data ih)
  | answered _ src data _ => exact hquery true (hdatagram src data (v4 _))

theorem queryUdp (r : DnsResolver) (net : Network) (msg : Bytes) :
    Resolves domain (r.queryUdp net msg) := by
  unfold DnsResolver.queryUdp
  cases net.udpBound with
  | false => exact nothing
  | true =>
    cases parseSocketAddr r.dnsAddr with
    | none => exact nothing
    | some target => exact attempts (queryAttempts_run net target msg 2 0)

/-- **Resolving a host without a colon**, as every CONNECT host is. -/
theorem resolve (r : DnsResolver) (net : Network) (h : ':' ∉ domain) :
    Resolves domain (r.resolve net domain) := by
  have hclean : ':' ∉ trimEndMatches '.' domain := fun hc =>
    h ((List.rdropWhile_prefix _ domain).subset hc)
  unfold DnsResolver.resolve
  refine emit (e := .resolve domain) rfl
    (fun ip hl => by obtain ⟨_, _, _, hl, -⟩ := hl; cases hl) ?_
  dsimp only
  cases hip : parseIpAddr (trimEndMatches '.' domain) with
  | some ip =>
    obtain ⟨addr, rfl⟩ := parseIpAddr_no_colon hclean hip
    exact v4 addr
  | none =>
    refine check fun p => ?_
    split
    · exact nothing
    · exact check fun msg => (queryUdp r net msg).orTry (lookupHost net 0 _)

end Resolves
end GreenTunnel
