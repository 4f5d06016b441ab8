import GreenTunnel.HelloForward
import GreenTunnel.HttpText
import GreenTunnel.Resolver
import GreenTunnel.Utf8

/-! # A connection of the proxy (`proxy.rs`)

`handleClient` is what the proxy does with a connection: it reads once, takes
what it has read for the whole request, and serves it as a CONNECT tunnel, a
redirect or a probe.  `handleConnectTunnel` finds the target of the tunnel,
refuses the local host, resolves the target, connects to it, answers the client,
reads once more, sends that on, and copies.

`connectTunnel_events` says all that can happen in a tunnel, up to the part after
the connection stands; that part is `serveTunnel`, of which `serveTunnel_events`
says the same.
-/
namespace GreenTunnel
open Trace

def clientBufSize : Nat := 2048
def clientHelloBufSize : Nat := 4096

def http200Established : Bytes := utf8Bytes "HTTP/1.1 200 Connection Established\r\n\r\n".toList
def http400BadRequest : Bytes := utf8Bytes "HTTP/1.1 400 Bad Request\r\n\r\n".toList
def http403Forbidden : Bytes := utf8Bytes "HTTP/1.1 403 Forbidden\r\n\r\n".toList
def http502BadGateway : Bytes := utf8Bytes "HTTP/1.1 502 Bad Gateway\r\n\r\n".toList

def benignNginx404Response : Bytes :=
  utf8Bytes ("HTTP/1.1 404 Not Found\r\nServer: nginx\r\nContent-Type: text/html\r\n" ++
    "Content-Length: 153\r\nConnection: close\r\n\r\n<html>\r\n" ++
    "<head><title>404 Not Found</title></head>\r\n<body>\r\n" ++
    "<center><h1>404 Not Found</h1></center>\r\n<hr><center>nginx</center>\r\n" ++
    "</body>\r\n</html>\r\n").toList

def http301Prefix : Bytes :=
  utf8Bytes "HTTP/1.1 301 Moved Permanently\r\nLocation: https://".toList
def http301Suffix : Bytes :=
  utf8Bytes "\r\nContent-Length: 0\r\nConnection: close\r\n\r\n".toList

/-- The options a connection depends on. -/
structure ProxyServerConfig where
  dnsAddr : Str
  fakeTtl : Nat
  fakeSni : Str
  windowShrink : Nat
  httpSpace : Bool
  mixHeaderCase : Bool
  portRotate : Bool
  trailingDot : Bool

/-- No option is given a value or is on. -/
def noOptions : ProxyServerConfig := ⟨[], 0, [], 0, false, false, false, false⟩

def bindZeroV4 : SocketAddr := ⟨.v4 ⟨0, 0, 0, 0⟩, 0⟩

def bindZeroV6 : SocketAddr := ⟨.v6 ⟨[0, 0, 0, 0, 0, 0, 0, 0], rfl⟩, 0⟩

def connectRemoteSocket (os : SocketCall → Bool) (remoteAddr : SocketAddr)
    (config : ProxyServerConfig) : Calls Unit := do
  Calls.require os (.new remoteAddr.isIpv6)
  Calls.attempt .setReuseAddress
  if config.portRotate then
    Calls.attempt (.bind (if remoteAddr.isIpv6 then bindZeroV6 else bindZeroV4))
  Calls.require os (.connect remoteAddr)
  Calls.attempt .setNodelay
  Calls.attempt (.setTcpKeepalive true 60)
  Calls.attempt (.setTcpKeepalive false 60)
  if config.windowShrink > 0 then
    let safeWin := max config.windowShrink 4096
    Calls.attempt (.setRecvBufferSize safeWin)
    Calls.attempt (.setSendBufferSize safeWin)

/-- The connection to the remote succeeds. -/
def Network.connects (net : Network) (config : ProxyServerConfig) (remoteAddr : SocketAddr) :
    Bool :=
  (connectRemoteSocket net.sockets remoteAddr config).succeeded

/-- **What a tunnel's socket depends on**: the calls that make and connect it.  Whether the
port can be rotated and the buffers can be shrunk does not matter. -/
theorem Network.connects_iff {net : Network} {config : ProxyServerConfig}
    {remoteAddr : SocketAddr} :
    net.connects config remoteAddr = true ↔
      net.sockets (.new remoteAddr.isIpv6) = true ∧ net.sockets (.connect remoteAddr) = true := by
  rw [Network.connects, Calls.succeeded_iff, connectRemoteSocket, Calls.require_bind,
    Calls.attempt_bind_result]
  refine and_congr_right fun _ => ?_
  by_cases hrotate : config.portRotate = true <;> by_cases hshrink : config.windowShrink > 0 <;>
    simp [hrotate, hshrink, Calls.require_bind, Calls.attempt_bind_result, Calls.attempt_result]

/-- `client.write_all(bs)`. -/
def reply (net : Network) (bs : Bytes) : Act Unit := do
  let w := (Socket.fresh net.client).writeAll bs
  emit (.replied w.2.received)
  Act.written w.1

/-- Hosts that are refused before they are resolved. -/
def isRefusedHost (rawHost : Str) : Bool :=
  let cleanRaw := trimEndMatches '.' rawHost
  eqIgnoreAsciiCase cleanRaw "localhost".toList ||
    ((parseIpAddr cleanRaw).map fun ip => ip.isLoopback || ip.isUnspecified).getD false

/-- The host as it is resolved. -/
def resolvedHost (cfg : ProxyServerConfig) (rawHost : Str) : Str :=
  if cfg.trailingDot then ensureTrailingDot rawHost else rawHost

/-- The address of the target: from the resolver, or else from the system
resolver. -/
def remoteAddress (cfg : ProxyServerConfig) (net : Network) (host : Str) (port : Nat) :
    Act (Option IpAddr) :=
  orTry ((DnsResolver.new cfg.dnsAddr).resolve net host)
    (lookupHost net 1 (host ++ [':'] ++ Nat.toDigits 10 port))

def injectFakeTtlProbe (net : Network) (peerAddr : SocketAddr) (fakeSni : Str) : Act Unit := do
  emit (.probe peerAddr)
  if net.probeConnects then
    emit (.probed ((Socket.fresh net.probe).writeAll
      (buildSyntheticClientHello (some fakeSni) false)).2.received)
  else pure ()

/-- What is done with a first read that is not empty. -/
def sendHello (cfg : ProxyServerConfig) (net : Network) (rawBytes : Bytes) (host : Str)
    (isMeta : Bool) (remoteAddr : SocketAddr) : Act Unit := do
  let starts ← Act.check (isClientHello rawBytes)
  (if cfg.fakeTtl > 0 ∧ cfg.fakeSni ≠ [] ∧ !isMeta ∧ starts then
    injectFakeTtlProbe net remoteAddr cfg.fakeSni
  else pure ())
  let w := forwardHello rawBytes host isMeta net.draws (Socket.fresh net.remote)
  emit (.forwarded w.2.received)
  Act.written w.1

/-- What follows the answer to the client; `stream` is what the client still
sends. -/
def serveTunnel (cfg : ProxyServerConfig) (net : Network) (stream : Bytes) (host : Str)
    (isMeta : Bool) (remoteAddr : SocketAddr) : Act Unit :=
  match net.helloRead with
  | none => Trace.ofExcept (.error .io)
  | some want => do
    let helloLen := readLength clientHelloBufSize stream want
    let rawBytes := stream.take helloLen
    emit (.readHello rawBytes)
    (if helloLen > 0 then sendHello cfg net rawBytes host isMeta remoteAddr else pure ())
    emit (.tunnel (stream.drop helloLen))

def handleConnectTunnel (cfg : ProxyServerConfig) (net : Network) (stream : Bytes)
    (cleanedRequest : Str) : Act Unit :=
  match parseConnectTarget cleanedRequest with
  | none => reply net http400BadRequest
  | some (rawHost, port) =>
    if isRefusedHost rawHost then reply net http403Forbidden
    else do
      let host := resolvedHost cfg rawHost
      let isMeta := isPaddingIncompatibleDomain host
      match ← remoteAddress cfg net host port with
      | none => reply net http502BadGateway
      | some remoteIp =>
        if remoteIp.isLoopback || remoteIp.isUnspecified then reply net http403Forbidden
        else do
          let remoteAddr : SocketAddr := ⟨remoteIp, port⟩
          emit (.connect remoteAddr)
          if !net.connects cfg remoteAddr then reply net http502BadGateway
          else do
            reply net http200Established
            serveTunnel cfg net stream host isMeta remoteAddr

def handlePlaintextRedirect (net : Network) (requestStr : Str) : Act Unit := do
  let firstLine := (lines requestStr).head?.getD []
  let targetPath := (splitWhitespace firstLine)[1]?.getD []
  let hostVal :=
    if "http://".toList <+: targetPath then targetPath.drop "http://".length else targetPath
  let cleanHost := (hostVal.splitOn '/').head?.getD hostVal
  let w := writeAllVectored (Socket.fresh net.client)
    [http301Prefix, utf8Bytes cleanHost, http301Suffix]
  emit (.replied w.2.received)
  Act.written w.1

/-- The answer to a scanner; that it cannot be written changes nothing. -/
def handleActiveProbeDefense (net : Network) : Act Unit :=
  emit (.replied ((Socket.fresh net.client).writeAll benignNginx404Response).2.received)

/-- A connection on which the client sends `stream`. -/
def handleClient (cfg : ProxyServerConfig) (net : Network) (stream : Bytes) : Act Unit :=
  match net.firstRead with
  | none => Trace.ofExcept (.error .io)
  | some want =>
    let n := readLength clientBufSize stream want
    if n = 0 then pure ()
    else
      let requestStr := fromUtf8Lossy (stream.take n)
      let cleanedRequest := preprocessHttpRequest requestStr cfg.httpSpace cfg.mixHeaderCase
      if isHttpConnect cleanedRequest then
        handleConnectTunnel cfg net (stream.drop n) cleanedRequest
      else if "GET ".toList <+: requestStr ∨ "POST ".toList <+: requestStr then
        handlePlaintextRedirect net requestStr
      else handleActiveProbeDefense net

/-! ## What happens in a tunnel -/

/-- The address that the event connects to. -/
def Event.contact : Event → Option SocketAddr
  | .connect addr => some addr
  | .probe addr => some addr
  | _ => none

theorem Event.contact_of_resolving {host : Str} {e : Event} (h : e.Resolving host) :
    e.contact = none := by
  cases e <;> first | rfl | exact False.elim h

theorem colon_notMem_resolvedHost (cfg : ProxyServerConfig) {rawHost : Str} (h : ':' ∉ rawHost) :
    ':' ∉ resolvedHost cfg rawHost := by
  unfold resolvedHost ensureTrailingDot
  split
  · split
    · exact h
    · simpa using h
  · exact h

theorem remoteAddress_resolves (cfg : ProxyServerConfig) (net : Network) {host : Str} (port : Nat)
    (h : ':' ∉ host) : Resolves host (remoteAddress cfg net host port) :=
  (Resolves.resolve _ net h).orTry (Resolves.lookupHost net 1 _)

/-- An answer to the client is all that replying does. -/
theorem reply_events (net : Network) (bs : Bytes) :
    (reply net bs).Always fun e => ∃ taken, e = .replied taken :=
  Always.bind (Always.emit ⟨_, rfl⟩) fun _ _ => Always.ofExcept _

/-- The event is part of serving a tunnel to `addr`: the client's bytes are read,
the probe and the sockets are written to, and copying starts. -/
def Event.Serving (addr : SocketAddr) : Event → Prop
  | .probe peer => peer = addr
  | .probed _ | .readHello _ | .forwarded _ | .tunnel _ => True
  | _ => False

theorem Event.contact_of_serving {addr peer : SocketAddr} {e : Event} (h : e.Serving addr)
    (hc : e.contact = some peer) : peer = addr := by
  cases e with
  | probe a => exact (Option.some.inj hc).symm.trans h
  | connect a => exact False.elim h
  | _ => cases hc

/-- What sending the first read does: the probe, and writing to sockets. -/
theorem sendHello_events (cfg : ProxyServerConfig) (net : Network) (rawBytes : Bytes) (host : Str)
    (isMeta : Bool) (remoteAddr : SocketAddr) :
    (sendHello cfg net rawBytes host isMeta remoteAddr).Always fun e =>
      e = .probe remoteAddr ∨ (∃ bs, e = .probed bs) ∨ ∃ bs, e = .forwarded bs := by
  have hprobe : (injectFakeTtlProbe net remoteAddr cfg.fakeSni).Always fun e =>
      e = .probe remoteAddr ∨ (∃ bs, e = .probed bs) ∨ ∃ bs, e = .forwarded bs := by
    refine Always.bind (Always.emit (Or.inl rfl)) fun _ _ => ?_
    split
    · exact Always.emit (Or.inr (Or.inl ⟨_, rfl⟩))
    · exact Always.pure _
  refine Always.bind (Always.ofExcept _) fun starts _ => Always.bind ?_ fun _ _ =>
    Always.bind (Always.emit (Or.inr (Or.inr ⟨_, rfl⟩))) fun _ _ => Always.ofExcept _
  split
  · exact hprobe
  · exact Always.pure _

theorem serveTunnel_events (cfg : ProxyServerConfig) (net : Network) (stream : Bytes) (host : Str)
    (isMeta : Bool) (remoteAddr : SocketAddr) :
    (serveTunnel cfg net stream host isMeta remoteAddr).Always (Event.Serving remoteAddr) := by
  unfold serveTunnel
  cases net.helloRead with
  | none => exact Always.ofExcept _
  | some want =>
    refine Always.bind (Always.emit trivial) fun _ _ => Always.bind ?_ fun _ _ =>
      Always.emit trivial
    split
    · intro e he
      rcases sendHello_events cfg net _ host isMeta remoteAddr e he with rfl | ⟨_, rfl⟩ | ⟨_, rfl⟩
      · rfl
      · trivial
      · trivial
    · exact Always.pure _

/-- **All that can happen in a tunnel.**  The client is answered; or the target of
the request, which is not refused, is resolved; or the address it is resolved to,
which is not refused either, is connected to and the tunnel is served. -/
theorem connectTunnel_events {cfg : ProxyServerConfig} {net : Network} {stream : Bytes}
    {request : Str} {e : Event} (h : e ∈ (handleConnectTunnel cfg net stream request).events) :
    (∃ taken, e = .replied taken) ∨
    ∃ rawHost port, parseConnectTarget request = some (rawHost, port) ∧
      isRefusedHost rawHost = false ∧
      (e ∈ (remoteAddress cfg net (resolvedHost cfg rawHost) port).events ∨
        ∃ ip, (remoteAddress cfg net (resolvedHost cfg rawHost) port).result = .ok (some ip) ∧
          ip.isLoopback = false ∧ ip.isUnspecified = false ∧
          (e = .connect ⟨ip, port⟩ ∨
            ∃ isMeta, e ∈ (serveTunnel cfg net stream (resolvedHost cfg rawHost) isMeta
              ⟨ip, port⟩).events)) := by
  unfold handleConnectTunnel at h
  cases hp : parseConnectTarget request with
  | none =>
    rw [hp] at h
    exact Or.inl (reply_events _ _ e h)
  | some target =>
    obtain ⟨rawHost, port⟩ := target
    rw [hp] at h
    dsimp only at h
    cases hr : isRefusedHost rawHost with
    | true =>
      rw [hr] at h
      exact Or.inl (reply_events _ _ e h)
    | false =>
      rw [hr] at h
      rcases mem_events_bind.mp h with h | ⟨a, ha, h⟩
      · exact Or.inr ⟨rawHost, port, rfl, hr, Or.inl h⟩
      · cases a with
        | none => exact Or.inl (reply_events _ _ e h)
        | some ip =>
          dsimp only at h
          cases hlocal : ip.isLoopback || ip.isUnspecified with
          | true =>
            rw [hlocal] at h
            exact Or.inl (reply_events _ _ e h)
          | false =>
            rw [hlocal] at h
            obtain ⟨hl, hu⟩ := Bool.or_eq_false_iff.mp hlocal
            rcases List.mem_cons.mp h with h | h
            · exact Or.inr ⟨rawHost, port, rfl, hr, Or.inr ⟨ip, ha, hl, hu, Or.inl h⟩⟩
            · cases hc : net.connects cfg ⟨ip, port⟩ with
              | false =>
                rw [hc] at h
                exact Or.inl (reply_events _ _ e h)
              | true =>
                rw [hc] at h
                rcases mem_events_bind.mp h with h | ⟨_, -, h⟩
                · exact Or.inl (reply_events _ _ e h)
                · exact Or.inr ⟨rawHost, port, rfl, hr, Or.inr ⟨ip, ha, hl, hu, Or.inr ⟨_, h⟩⟩⟩

/-- Resolving the target of an accepted request is part of the tunnel. -/
theorem connectTunnel_resolves {cfg : ProxyServerConfig} {net : Network} {stream : Bytes}
    {request rawHost : Str} {port : Nat} {e : Event}
    (hp : parseConnectTarget request = some (rawHost, port)) (hr : isRefusedHost rawHost = false)
    (he : e ∈ (remoteAddress cfg net (resolvedHost cfg rawHost) port).events) :
    e ∈ (handleConnectTunnel cfg net stream request).events := by
  unfold handleConnectTunnel
  rw [hp]
  dsimp only
  rw [hr]
  exact mem_events_bind.mpr (Or.inl he)

/-- An address that is not refused is connected to. -/
theorem connectTunnel_connects {cfg : ProxyServerConfig} {net : Network} {stream : Bytes}
    {request rawHost : Str} {port : Nat} {ip : IpAddr}
    (hp : parseConnectTarget request = some (rawHost, port)) (hr : isRefusedHost rawHost = false)
    (hip : (remoteAddress cfg net (resolvedHost cfg rawHost) port).result = .ok (some ip))
    (hl : ip.isLoopback = false) (hu : ip.isUnspecified = false) :
    .connect ⟨ip, port⟩ ∈ (handleConnectTunnel cfg net stream request).events := by
  unfold handleConnectTunnel
  rw [hp]
  dsimp only
  rw [hr]
  refine mem_events_bind.mpr (Or.inr ⟨some ip, hip, ?_⟩)
  dsimp only
  rw [hl, hu]
  exact List.mem_cons_self

end GreenTunnel
