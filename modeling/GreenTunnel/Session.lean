import GreenTunnel.Protocol
import GreenTunnel.Redirect
import GreenTunnel.Resolution

/-! # The session protocol (`proxy.rs`)

A connection of the proxy as its peers see it: what the client is told, what the DNS
server and the system resolver are asked, and what the remote and the probe's peer are
sent.  `Session.Step` says which of these may happen in which phase, with what data,
and nothing of how the proxy decides: a request is answered at once or its target is
resolved; only an address that has been found, and is not local, is connected to; only
after the whole of the 200 response is the hello read, probed for and sent; and the
bytes behind it are copied last.

Every run of `handleClient` follows the protocol (`handleClient_follows`), whatever the
sockets, the resolvers and the client do.
-/
namespace GreenTunnel
open Trace

/-- What the first read asks for. -/
inductive ClientRequest where
  /-- A tunnel to the target, or to none that can be read. -/
  | connect (target : Option (Str × Nat))
  /-- A resource, on what is taken for its host. -/
  | plain (host : Str)
  | other

/-- What the proxy takes its first read for. -/
def clientRequest (cfg : ProxyServerConfig) (first : Bytes) : ClientRequest :=
  let text := fromUtf8Lossy first
  let cleaned := preprocessHttpRequest text cfg.httpSpace cfg.mixHeaderCase
  if isHttpConnect cleaned then .connect (parseConnectTarget cleaned)
  else if "GET ".toList <+: text ∨ "POST ".toList <+: text then
    .plain (redirectHost ((requestTarget text).getD []))
  else .other

/-- The response to a request that is not let through. -/
def ClientRequest.answer : ClientRequest → Option Bytes
  | .connect none => some http400BadRequest
  | .connect (some (rawHost, _)) => if isRefusedHost rawHost then some http403Forbidden else none
  | .plain host => some (redirectResponse ("https://".toList ++ host))
  | .other => some benignNginx404Response

/-- Where a tunnel is to lead. -/
structure Target where
  host : Str
  port : Nat

/-- The name that is asked for. -/
def Target.name (t : Target) : Str := trimEndMatches '.' t.host

/-- How far the probe has come. -/
inductive ProbeState where
  | unsent
  | connected
  | done

/-- How far a session has come. -/
inductive Phase where
  /-- Nothing has happened. -/
  | fresh
  /-- The name is being asked for; `left` queries may still be tried, and if `waiting` is
  set the last one was sent and may be answered. -/
  | resolving (t : Target) (left : Nat) (waiting : Bool)
  /-- The name has not been found. -/
  | missed (t : Target)
  | located (t : Target) (ip : IpAddr)
  /-- Nobody knows the host. -/
  | unknown
  | connecting (t : Target) (addr : SocketAddr)
  /-- The client knows that the tunnel stands. -/
  | opened (t : Target) (addr : SocketAddr)
  /-- The hello has been read, and the client still sends `rest`. -/
  | heard (t : Target) (addr : SocketAddr) (hello rest : Bytes) (probe : ProbeState)
  /-- The hello has been sent on. -/
  | sent (rest : Bytes)
  | copying
  /-- The remote did not take the hello. -/
  | broken
  /-- The client has been answered, and has taken `taken` of it. -/
  | closed (response taken : Bytes)

/-- Where a lookup leads. -/
def Phase.found (t : Target) (otherwise : Phase) (ip : Option IpAddr) : Phase :=
  ip.elim otherwise (Phase.located t)

/-- Where resolving starts: at the address itself for a literal, and behind the queries
for a name that is too long for them. -/
def Phase.asked (t : Target) : Phase :=
  Phase.found t (if (utf8Bytes t.name).length ≤ 100 then .resolving t 2 false else .missed t)
    (parseIpAddr t.name)

/-- What a session depends on: the options, what the first read asks for, and what the
client sends after it. -/
structure Session where
  cfg : ProxyServerConfig
  request : ClientRequest
  stream : Bytes

/-- **What may happen in a session.** -/
inductive Session.Step (s : Session) : Phase → Event → Phase → Prop where
  | answer {response taken : Bytes} (unserved : s.request.answer = some response)
      (part : taken <+: response) : Step s .fresh (.replied taken) (.closed response taken)
  | resolve {rawHost : Str} {port : Nat} (asks : s.request = .connect (some (rawHost, port)))
      (served : isRefusedHost rawHost = false) :
      Step s .fresh (.resolve (resolvedHost s.cfg rawHost))
        (.asked ⟨resolvedHost s.cfg rawHost, port⟩)
  | query {t : Target} {left : Nat} {waiting sent : Bool} {server : SocketAddr}
      (configured : parseSocketAddr (DnsResolver.new s.cfg.dnsAddr).dnsAddr = some server)
      (family : sent = true → server.isIpv6 = false) :
      Step s (.resolving t (left + 1) waiting) (.query server (queryMessage t.name) sent)
        (.resolving t left sent)
  | datagram {t : Target} {left : Nat} {src : SocketAddr} {data : Bytes} {ip : Option IpAddr}
      (answers : parseDnsResponse (data.take dnsBufSize) = .ok ip) :
      Step s (.resolving t left true) (.datagram src data) (.found t (.resolving t left false) ip)
  /-- Either both queries have been sent, or none can be. -/
  | lookup {t : Target} {left : Nat} {waiting : Bool} {answer : Option (List SocketAddr)}
      (exhausted : left ≠ 1) :
      Step s (.resolving t left waiting) (.lookupHost (t.name ++ ":443".toList) answer)
        (.found t (.missed t) (firstAddress answer))
  | lookupTarget {t : Target} {answer : Option (List SocketAddr)} :
      Step s (.missed t) (.lookupHost (t.host ++ [':'] ++ Nat.toDigits 10 t.port) answer)
        (.found t .unknown (firstAddress answer))
  | refuse {t : Target} {ip : IpAddr} {taken : Bytes}
      (isLocal : (ip.isLoopback || ip.isUnspecified) = true) (part : taken <+: http403Forbidden) :
      Step s (.located t ip) (.replied taken) (.closed http403Forbidden taken)
  | giveUp {taken : Bytes} (part : taken <+: http502BadGateway) :
      Step s .unknown (.replied taken) (.closed http502BadGateway taken)
  | connect {t : Target} {ip : IpAddr} (notLocal : (ip.isLoopback || ip.isUnspecified) = false) :
      Step s (.located t ip) (.connect ⟨ip, t.port⟩) (.connecting t ⟨ip, t.port⟩)
  | unreachable {t : Target} {addr : SocketAddr} {taken : Bytes}
      (part : taken <+: http502BadGateway) :
      Step s (.connecting t addr) (.replied taken) (.closed http502BadGateway taken)
  | establish {t : Target} {addr : SocketAddr} :
      Step s (.connecting t addr) (.replied http200Established) (.opened t addr)
  | abandon {t : Target} {addr : SocketAddr} {taken : Bytes} (part : taken <+: http200Established)
      (short : taken ≠ http200Established) :
      Step s (.connecting t addr) (.replied taken) (.closed http200Established taken)
  /-- The client sends nothing more. -/
  | silence {t : Target} {addr : SocketAddr} (empty : s.stream = []) :
      Step s (.opened t addr) (.readHello []) (.sent [])
  | hear {t : Target} {addr : SocketAddr} {hello rest : Bytes} (splits : hello ++ rest = s.stream)
      (nonempty : hello ≠ []) (fits : hello.length ≤ clientHelloBufSize) :
      Step s (.opened t addr) (.readHello hello) (.heard t addr hello rest .unsent)
  | probe {t : Target} {addr : SocketAddr} {hello rest : Bytes} (enabled : 0 < s.cfg.fakeTtl)
      (named : s.cfg.fakeSni ≠ []) (padded : isPaddingIncompatibleDomain t.host = false)
      (starts : StartsClientHello hello) :
      Step s (.heard t addr hello rest .unsent) (.probe addr) (.heard t addr hello rest .connected)
  | probed {t : Target} {addr : SocketAddr} {hello rest taken : Bytes}
      (part : taken <+: buildSyntheticClientHello (some s.cfg.fakeSni) false) :
      Step s (.heard t addr hello rest .connected) (.probed taken) (.heard t addr hello rest .done)
  | forward {t : Target} {addr : SocketAddr} {hello rest : Bytes} {probe : ProbeState} {draw : Nat}
      {plan : HelloPlan} (planned : planHello hello t.host draw = .ok plan) :
      Step s (.heard t addr hello rest probe) (.forwarded plan.bytes) (.sent rest)
  | lose {t : Target} {addr : SocketAddr} {hello rest taken : Bytes} {probe : ProbeState}
      {draw : Nat} {plan : HelloPlan} (planned : planHello hello t.host draw = .ok plan)
      (part : taken <+: plan.bytes) (short : taken ≠ plan.bytes) :
      Step s (.heard t addr hello rest probe) (.forwarded taken) .broken
  | tunnel {rest : Bytes} : Step s (.sent rest) (.tunnel rest) .copying

/-- How a session ends that is not given up: nothing was asked, or the client has taken
the whole answer, or copying has started.  A scanner may leave before it has taken its
answer. -/
def Phase.Ended : Phase → Prop
  | .fresh | .copying => True
  | .closed response taken => taken = response ∨ response = benignNginx404Response
  | _ => False

/-- A session is given up when a read or a write fails, and for no other reason. -/
def IoOnly (stop : Stop) (_ : Phase) : Prop := stop = .io

/-! ## Writing -/

section
variable {net : Network} {s : Session} {p : Phase} {t : Target}

/-- What a fresh connection has taken of what was written. -/
theorem Delivers.fresh {outcomes : Nat → WriteOutcome} {bs : Bytes} {w : Written}
    (h : Delivers (.fresh outcomes) bs w) :
    w.2.received <+: bs ∧ (w.1 = .ok () → w.2.received = bs) := by
  have hok : w.1 = .ok () → w.2.received = bs := fun hw => by simpa using h.ok hw
  refine ⟨?_, hok⟩
  cases hr : w.1 with
  | ok => rw [hok hr]
  | error e =>
    obtain ⟨q, hq, hrec⟩ := h.error e hr
    rw [hrec]
    simpa using hq

/-- Writing stops a session as a failed write only. -/
theorem Act.written_ioOnly {r : Except WriteError Unit} {stop : Stop}
    (hf : ∀ f, r ≠ .error (.fault f)) (h : (Act.written r).result = .error stop) : stop = .io := by
  cases r with
  | ok => cases h
  | error e =>
    cases e with
    | fault f => exact absurd rfl (hf f)
    | os => exact (Except.error.inj h).symm
    | writeZero => exact (Except.error.inj h).symm

/-- An event that says what a fresh connection has taken, and how writing ended. -/
theorem written_follows {outcomes : Nat → WriteOutcome} {bs : Bytes} {w : Written}
    {event : Bytes → Event} {next : Bytes → Phase} (h : Delivers (.fresh outcomes) bs w)
    (hstep : ∀ taken, taken <+: bs → s.Step p (event taken) (next taken)) :
    Follows s.Step p (emit (event w.2.received) >>= fun _ => Act.written w.1)
      (fun _ q => q = next bs) IoOnly := by
  obtain ⟨hpart, hall⟩ := h.fresh
  refine Follows.emit_bind (hstep _ hpart) (Follows.ofExcept (fun _ hok => ?_) fun stop hstop => ?_)
  · rw [hall (Act.written_result.mp hok)]
  · exact Act.written_ioOnly h.noFault hstop

theorem reply_follows {bs : Bytes} {next : Bytes → Phase}
    (hstep : ∀ taken, taken <+: bs → s.Step p (.replied taken) (next taken)) :
    Follows s.Step p (reply net bs) (fun _ q => q = next bs) IoOnly :=
  written_follows (Socket.writeAll_delivers _ bs) hstep

/-- An answer that ends the session. -/
theorem reply_ends {bs : Bytes}
    (hstep : ∀ taken, taken <+: bs → s.Step p (.replied taken) (.closed bs taken)) :
    Follows s.Step p (reply net bs) (fun _ q => q.Ended) IoOnly := by
  refine (reply_follows hstep).mono (fun _ q hq => ?_) fun _ _ hstop => hstop
  rw [hq]
  exact Or.inl rfl

/-! ## Resolving -/

theorem lookupHost_follows {i : Nat} {name : Str} {otherwise : Phase}
    (hstep : ∀ answer,
      s.Step p (.lookupHost name answer) (.found t otherwise (firstAddress answer))) :
    Follows s.Step p (lookupHost net i name) (fun ip q => q = .found t otherwise ip) IoOnly := by
  unfold lookupHost
  refine Follows.emit_bind (hstep _) ?_
  rcases net.lookupHost i name with _ | _ | ⟨addr, rest⟩
  · exact Follows.pure rfl
  · exact Follows.pure rfl
  · exact Follows.pure rfl

/-- The attempts: each sends the query, and may hear of an address. -/
theorem queryAttempts_follows {server : SocketAddr} {left i : Nat} {waiting : Bool}
    (hserver : parseSocketAddr (DnsResolver.new s.cfg.dnsAddr).dnsAddr = some server) :
    Follows s.Step (.resolving t left waiting)
      (queryAttempts net server (queryMessage t.name) left i)
      (fun ip q => ∃ waiting', q = .found t (.resolving t 0 waiting') ip) IoOnly := by
  induction left generalizing i waiting with
  | zero => exact Follows.pure ⟨waiting, rfl⟩
  | succ left ih =>
    rw [queryAttempts]
    refine Follows.emit_bind (Session.Step.query hserver udpSends_family) ?_
    cases net.udpSends udpBindAddr server i with
    | false => exact ih
    | true =>
      cases net.udpReceived i with
      | timeout => exact ih
      | error => exact ih
      | datagram src data =>
        obtain ⟨ip, hparse, -⟩ := parseDnsResponse_spec (data.take dnsBufSize)
        refine Follows.emit_bind (Session.Step.datagram hparse) ?_
        rw [hparse, Act.check_ok, value_bind]
        cases ip with
        | none => exact ih
        | some ip => exact Follows.pure ⟨false, rfl⟩

theorem queryUdp_follows :
    Follows s.Step (.resolving t 2 false)
      ((DnsResolver.new s.cfg.dnsAddr).queryUdp net (queryMessage t.name))
      (fun ip q => ∃ left waiting, left ≠ 1 ∧ q = .found t (.resolving t left waiting) ip)
      IoOnly := by
  have hnone : Follows s.Step (.resolving t 2 false) (Pure.pure none : Act (Option IpAddr))
      (fun ip q => ∃ left waiting, left ≠ 1 ∧ q = .found t (.resolving t left waiting) ip)
      IoOnly := Follows.pure ⟨2, false, by decide, rfl⟩
  unfold DnsResolver.queryUdp
  cases net.udpBound with
  | false => exact hnone
  | true =>
    cases hserver : parseSocketAddr (DnsResolver.new s.cfg.dnsAddr).dnsAddr with
    | none => exact hnone
    | some server =>
      refine (queryAttempts_follows hserver).mono (fun ip q hq => ?_) fun _ _ hstop => hstop
      obtain ⟨waiting, hq⟩ := hq
      exact ⟨0, waiting, by decide, hq⟩

theorem resolve_follows (hstep : s.Step p (.resolve t.host) (.asked t)) :
    Follows s.Step p ((DnsResolver.new s.cfg.dnsAddr).resolve net t.host)
      (fun ip q => q = .found t (.missed t) ip) IoOnly := by
  unfold DnsResolver.resolve
  refine Follows.emit_bind hstep ?_
  dsimp only
  rw [Phase.asked, ← Target.name]
  cases parseIpAddr t.name with
  | some ip => exact Follows.pure rfl
  | none =>
    dsimp only
    by_cases hlen : (utf8Bytes t.name).length ≤ 100
    · rw [if_pos hlen, buildDnsQuery_of_le hlen, Act.check_ok, value_bind]
      dsimp only
      rw [if_neg (queryMessage_length_pos _), slice_queryBuffer, Act.check_ok, value_bind]
      refine Follows.bind queryUdp_follows fun ip q hq => ?_
      obtain ⟨left, waiting, hleft, rfl⟩ := hq
      cases ip with
      | some ip => exact Follows.pure rfl
      | none => exact lookupHost_follows fun _ => Session.Step.lookup hleft
    · rw [if_neg hlen, buildDnsQuery_of_gt (Nat.lt_of_not_le hlen), Act.check_ok, value_bind]
      exact Follows.pure rfl

theorem remoteAddress_follows (hstep : s.Step p (.resolve t.host) (.asked t)) :
    Follows s.Step p (remoteAddress s.cfg net t.host t.port)
      (fun ip q => q = .found t .unknown ip) IoOnly := by
  unfold remoteAddress orTry
  refine Follows.bind (resolve_follows hstep) fun ip q hq => ?_
  subst hq
  cases ip with
  | some ip => exact Follows.pure rfl
  | none => exact lookupHost_follows fun _ => Session.Step.lookupTarget

/-! ## The tunnel -/

section
variable {addr : SocketAddr} {hello rest : Bytes}

theorem injectFakeTtlProbe_follows (enabled : 0 < s.cfg.fakeTtl) (named : s.cfg.fakeSni ≠ [])
    (padded : isPaddingIncompatibleDomain t.host = false) (starts : StartsClientHello hello) :
    Follows s.Step (.heard t addr hello rest .unsent)
      (injectFakeTtlProbe net addr s.cfg.fakeSni)
      (fun _ q => ∃ probe, q = .heard t addr hello rest probe) IoOnly := by
  unfold injectFakeTtlProbe
  refine Follows.emit_bind (Session.Step.probe enabled named padded starts) ?_
  split
  · exact Follows.emit (Session.Step.probed (Socket.writeAll_delivers _ _).fresh.1) ⟨.done, rfl⟩
  · exact Follows.pure ⟨.connected, rfl⟩

theorem sendHello_follows :
    Follows s.Step (.heard t addr hello rest .unsent)
      (sendHello s.cfg net hello t.host (isPaddingIncompatibleDomain t.host) addr)
      (fun _ q => q = .sent rest) IoOnly := by
  unfold sendHello
  rw [isClientHello_eq, Act.check_ok, value_bind]
  refine Follows.bind (Q := fun _ q => ∃ probe, q = .heard t addr hello rest probe) ?_ ?_
  · split
    · rename_i h
      obtain ⟨enabled, named, padded, starts⟩ := h
      exact injectFakeTtlProbe_follows enabled named (by simpa using padded)
        (of_decide_eq_true starts)
    · exact Follows.pure ⟨.unsent, rfl⟩
  · rintro _ _ ⟨probe, rfl⟩
    -- whatever has become of the probe, the plan for the hello is sent
    obtain ⟨plan, hplan⟩ := planHello_total hello t.host net.draws.cut
    have hstep : ∀ taken, taken <+: plan.bytes → s.Step (.heard t addr hello rest probe)
        (.forwarded taken) (if taken = plan.bytes then .sent rest else .broken) := by
      intro taken part
      by_cases hall : taken = plan.bytes
      · rw [if_pos hall, hall]
        exact Session.Step.forward hplan
      · rw [if_neg hall]
        exact Session.Step.lose hplan part hall
    refine (written_follows (forwardHello_delivers hplan _ (.fresh net.remote)) hstep).mono
      (fun _ q hq => ?_) fun _ _ hstop => hstop
    rw [hq, if_pos rfl]

theorem serveTunnel_follows :
    Follows s.Step (.opened t addr)
      (serveTunnel s.cfg net s.stream t.host (isPaddingIncompatibleDomain t.host) addr)
      (fun _ q => q = .copying) IoOnly := by
  unfold serveTunnel
  cases net.helloRead with
  | none =>
    refine Follows.ofExcept (fun _ hok => ?_) fun stop hstop => ?_
    · cases hok
    · exact (Except.error.inj hstop).symm
  | some want =>
    dsimp only
    generalize hn : readLength clientHelloBufSize s.stream want = n
    by_cases hpos : n > 0
    · rw [if_pos hpos]
      have hle := readLength_le clientHelloBufSize s.stream want
      have hfits : (s.stream.take n).length ≤ clientHelloBufSize := by
        have := readLength_le_cap clientHelloBufSize s.stream want
        rw [List.length_take]
        omega
      have hne : s.stream.take n ≠ [] := by
        apply List.ne_nil_of_length_pos
        rw [List.length_take]
        omega
      refine Follows.emit_bind
        (Session.Step.hear (List.take_append_drop n s.stream) hne hfits) ?_
      refine Follows.bind sendHello_follows ?_
      rintro _ _ rfl
      exact Follows.emit Session.Step.tunnel rfl
    · -- a read that yields nothing means that the client sends nothing more
      obtain rfl : n = 0 := Nat.eq_zero_of_not_pos hpos
      have hempty := readLength_eq_zero (by decide) hn
      rw [if_neg hpos, hempty]
      refine Follows.emit_bind (Session.Step.silence hempty) ?_
      exact Follows.emit Session.Step.tunnel rfl

end

/-- The tunnel from the request on. -/
theorem handleConnectTunnel_follows {request : Str}
    (hreq : s.request = .connect (parseConnectTarget request)) :
    Follows s.Step .fresh (handleConnectTunnel s.cfg net s.stream request)
      (fun _ q => q.Ended) IoOnly := by
  unfold handleConnectTunnel
  cases htarget : parseConnectTarget request with
  | none =>
    rw [htarget] at hreq
    exact reply_ends fun taken part => Session.Step.answer (by rw [hreq]; rfl) part
  | some target =>
    obtain ⟨rawHost, port⟩ := target
    rw [htarget] at hreq
    dsimp only
    cases hrefused : isRefusedHost rawHost with
    | true =>
      have hanswer : s.request.answer = some http403Forbidden := by
        rw [hreq, ClientRequest.answer, hrefused]
        rfl
      exact reply_ends fun taken part => Session.Step.answer hanswer part
    | false =>
      rw [if_neg Bool.false_ne_true]
      refine Follows.bind (remoteAddress_follows (t := ⟨resolvedHost s.cfg rawHost, port⟩)
        (Session.Step.resolve hreq hrefused)) ?_
      rintro ip _ rfl
      cases ip with
      | none => exact reply_ends fun taken part => Session.Step.giveUp part
      | some ip =>
        dsimp only
        cases hlocal : ip.isLoopback || ip.isUnspecified with
        | true => exact reply_ends fun taken part => Session.Step.refuse hlocal part
        | false =>
          rw [if_neg Bool.false_ne_true]
          refine Follows.emit_bind (Session.Step.connect hlocal) ?_
          cases net.connects s.cfg ⟨ip, port⟩ with
          | false => exact reply_ends fun taken part => Session.Step.unreachable part
          | true =>
            -- the session goes on only if the client has taken the whole response
            have hstep : ∀ taken, taken <+: http200Established →
                s.Step (.connecting ⟨resolvedHost s.cfg rawHost, port⟩ ⟨ip, port⟩) (.replied taken)
                  (if taken = http200Established
                    then .opened ⟨resolvedHost s.cfg rawHost, port⟩ ⟨ip, port⟩
                    else .closed http200Established taken) := by
              intro taken part
              by_cases hall : taken = http200Established
              · rw [if_pos hall, hall]
                exact Session.Step.establish
              · rw [if_neg hall]
                exact Session.Step.abandon part hall
            refine Follows.bind (reply_follows hstep) ?_
            rintro _ _ rfl
            rw [if_pos rfl]
            refine serveTunnel_follows.mono (fun _ q hq => ?_) fun _ _ hstop => hstop
            rw [hq]
            trivial

end

/-! ## The connection -/

/-- How many bytes the first read yields. -/
def firstReadLength (net : Network) (stream : Bytes) : Nat :=
  net.firstRead.elim 0 (readLength clientBufSize stream)

/-- The session of a connection on which the client sends `stream`. -/
def sessionOf (cfg : ProxyServerConfig) (net : Network) (stream : Bytes) : Session where
  cfg := cfg
  request := clientRequest cfg (stream.take (firstReadLength net stream))
  stream := stream.drop (firstReadLength net stream)

/-- **Every connection follows the session protocol**, whatever the options, the
surroundings and the client's bytes are.  It ends of its own accord, or because a read
or a write failed; the proxy never panics. -/
theorem handleClient_follows (cfg : ProxyServerConfig) (net : Network) (stream : Bytes) :
    Follows (sessionOf cfg net stream).Step .fresh (handleClient cfg net stream)
      (fun _ q => q.Ended) IoOnly := by
  unfold handleClient
  cases hread : net.firstRead with
  | none =>
    refine Follows.ofExcept (fun _ hok => ?_) fun stop hstop => ?_
    · cases hok
    · exact (Except.error.inj hstop).symm
  | some want =>
    dsimp only
    have hn : firstReadLength net stream = readLength clientBufSize stream want := by
      rw [firstReadLength, hread]
      rfl
    rw [← hn]
    by_cases hzero : firstReadLength net stream = 0
    · rw [if_pos hzero]
      exact Follows.pure trivial
    · rw [if_neg hzero]
      have hreq : (sessionOf cfg net stream).request =
          clientRequest cfg (stream.take (firstReadLength net stream)) := rfl
      unfold clientRequest at hreq
      generalize fromUtf8Lossy (stream.take (firstReadLength net stream)) = text at *
      dsimp only at hreq ⊢
      by_cases hconnect : isHttpConnect
          (preprocessHttpRequest text cfg.httpSpace cfg.mixHeaderCase) = true
      · rw [if_pos hconnect] at hreq ⊢
        exact handleConnectTunnel_follows hreq
      · rw [if_neg hconnect] at hreq ⊢
        by_cases hplain : "GET ".toList <+: text ∨ "POST ".toList <+: text
        · rw [if_pos hplain] at hreq ⊢
          obtain ⟨w, heq, hdel, -⟩ := handlePlaintextRedirect_eq net text
          rw [heq]
          refine (written_follows hdel fun taken part =>
            Session.Step.answer (by rw [hreq]; rfl) part).mono (fun _ q hq => ?_)
            fun _ _ hstop => hstop
          rw [hq]
          exact Or.inl rfl
        · rw [if_neg hplain] at hreq ⊢
          have hdel := Socket.writeAll_delivers (.fresh net.client) benignNginx404Response
          exact Follows.emit (Session.Step.answer (by rw [hreq]; rfl) hdel.fresh.1) (Or.inr rfl)

end GreenTunnel
