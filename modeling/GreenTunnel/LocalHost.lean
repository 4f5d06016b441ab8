import GreenTunnel.Tunnel

/-! # The local host (`proxy.rs`)

The tunnel refuses hosts and addresses that denote the local host before it
connects.  The check on addresses asks an IPv6 address only whether it is `::1`
or `::`, so an IPv4-mapped form of a local address passes it.  Such an address
can come from the system resolver and from nowhere else: a literal host has no
colon, and a DNS answer carries an IPv4 address.  So a tunnel stays away from the
local host exactly when the system resolver does not answer with a mapped local
address (`tunnel_avoids_local_iff`).
-/
namespace GreenTunnel
open Trace

/-- The IPv4-mapped form of a loopback or unspecified IPv4 address. -/
def IpAddr.isMappedLocal : IpAddr → Bool
  | .v4 _ => false
  | .v6 ip => ip.toIpv4Mapped.any fun v4 => v4.isLoopback || v4.isUnspecified

/-- The address denotes the local host. -/
def IpAddr.denotesLocalHost (ip : IpAddr) : Bool :=
  ip.isLoopback || ip.isUnspecified || ip.isMappedLocal

/-- The check on IPv6 addresses does not see through the mapped form. -/
theorem not_local_of_mapped {ip : IpAddr} (h : ip.isMappedLocal = true) :
    ip.isLoopback = false ∧ ip.isUnspecified = false := by
  cases ip with
  | v4 _ => cases h
  | v6 ip =>
    obtain ⟨segments, size⟩ := ip
    have hmapped : ∃ ab cd, segments = [0, 0, 0, 0, 0, 0xffff, ab, cd] := by
      simp only [IpAddr.isMappedLocal, Ipv6Addr.toIpv4Mapped] at h
      split at h
      · exact ⟨_, _, rfl⟩
      · cases h
    obtain ⟨ab, cd, rfl⟩ := hmapped
    exact ⟨rfl, rfl⟩

/-- **The tunnel and the local host.**  No address that a tunnel connects or sends
its probe to denotes the local host exactly when no lookup by the system resolver
answers with a mapped local address first. -/
theorem tunnel_avoids_local_iff (cfg : ProxyServerConfig) (net : Network) (stream : Bytes)
    (request : Str) :
    (∀ e ∈ (handleConnectTunnel cfg net stream request).events, ∀ addr, e.contact = some addr →
      addr.ip.denotesLocalHost = false) ↔
    ∀ name addr rest, .lookupHost name (some (addr :: rest)) ∈
      (handleConnectTunnel cfg net stream request).events → addr.ip.isMappedLocal = false := by
  constructor
  · intro hsafe name addr rest hmem
    rcases connectTunnel_events hmem with ⟨_, h⟩ | ⟨rawHost, port, hp, hr, hcase⟩
    · cases h
    have hres := remoteAddress_resolves cfg net port
      (colon_notMem_resolvedHost cfg (colon_notMem_of_target hp))
    rcases hcase with hlookup | ⟨ip, -, -, -, h | ⟨isMeta, h⟩⟩
    · -- a lookup that answers decides the address, and a mapped one is connected to
      have hresult := hres.used _ hlookup addr.ip ⟨name, addr, rest, rfl, rfl⟩
      refine Bool.eq_false_iff.mpr fun hmapped => ?_
      obtain ⟨hl, hu⟩ := not_local_of_mapped hmapped
      have hconnect := @connectTunnel_connects cfg net stream _ _ _ _ hp hr hresult hl hu
      have := hsafe _ hconnect _ rfl
      rw [IpAddr.denotesLocalHost, hmapped, Bool.or_true] at this
      cases this
    · cases h
    · exact False.elim (serveTunnel_events cfg net stream _ isMeta _ _ h)
  · intro hanswers e he addr hcontact
    rcases connectTunnel_events he with ⟨_, rfl⟩ | ⟨rawHost, port, hp, hr, hcase⟩
    · cases hcontact
    have hres := remoteAddress_resolves cfg net port
      (colon_notMem_resolvedHost cfg (colon_notMem_of_target hp))
    rcases hcase with h | ⟨ip, hip, hl, hu, h⟩
    · rw [Event.contact_of_resolving (hres.events e h)] at hcontact
      cases hcontact
    -- what is contacted is the address the target is resolved to
    have hcontact' : addr = ⟨ip, port⟩ := by
      rcases h with rfl | ⟨isMeta, h⟩
      · exact (Option.some.inj hcontact).symm
      · exact Event.contact_of_serving (serveTunnel_events cfg net stream _ isMeta _ e h) hcontact
    subst hcontact'
    rw [IpAddr.denotesLocalHost, hl, hu, Bool.false_or, Bool.false_or]
    rcases hres.source ip hip with ⟨v4, rfl⟩ | ⟨e', he', name, addr, rest, rfl, rfl⟩
    · rfl
    · exact hanswers name addr rest (connectTunnel_resolves hp hr he')

/-- A request for a name that the system resolver answers with `::ffff:127.0.0.1`. -/
theorem tunnel_avoids_local_fails :
    .connect ⟨.v6 ⟨[0, 0, 0, 0, 0, 0xffff, 0x7f00, 1], rfl⟩, 443⟩ ∈
      (handleConnectTunnel noOptions
        (.answering ⟨.v6 ⟨[0, 0, 0, 0, 0, 0xffff, 0x7f00, 1], rfl⟩, 443⟩) []
        "CONNECT example.com:443 HTTP/1.1\r\n\r\n".toList).events ∧
    IpAddr.denotesLocalHost (.v6 ⟨[0, 0, 0, 0, 0, 0xffff, 0x7f00, 1], rfl⟩) = true := by
  decide +kernel

end GreenTunnel
