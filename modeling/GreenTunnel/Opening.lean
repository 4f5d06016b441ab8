import GreenTunnel.ConnectTarget
import GreenTunnel.Resolution
import GreenTunnel.WriteCalls

/-! # When a tunnel is opened (`proxy.rs`)

A request line that has arrived whole decides what the proxy does, whatever stands
behind it in the first read: header fields, bytes that are no text, or data of the tunnel
(`parse_requestLine`).  In surroundings in which nothing fails the connection then ends
without an error, and a tunnel to an address is opened exactly when the host is not
refused and the address is the one it resolves to, and not a local one
(`handleClient_opens_iff`).
-/
namespace GreenTunnel
open Trace

/-- Sockets that do not fail: both always take something, and the hello can be read. -/
structure Network.Works (net : Network) : Prop where
  client : (Socket.fresh net.client).Accepting
  remote : (Socket.fresh net.remote).Accepting
  hello : ∃ want, net.helloRead = some want

/-- Surroundings in which nothing fails: the remote is reached, too. -/
structure Network.Sound (net : Network) : Prop extends Network.Works net where
  connects : ∀ config remoteAddr, net.connects config remoteAddr = true

/-! ## The request line -/

namespace ConnectRequest
variable {req : ConnectRequest}

/-- The request line and the line end, as bytes. -/
def lineBytes (req : ConnectRequest) : Bytes := utf8Bytes (req.requestLine ++ crlf)

theorem firstWords_requestLine (junk : Bytes) {n : Nat} (h : req.lineBytes.length ≤ n) :
    firstWords (fromUtf8Lossy ((req.lineBytes ++ junk).take n)) =
      splitWhitespace req.requestLine := by
  have hline : '\n' ∉ req.requestLine := fun h => (req.requestLine_ascii _ h).2 rfl
  rw [List.take_append, List.take_of_length_le h, lineBytes, fromUtf8Lossy_utf8Bytes_append,
    firstWords_append_crlf hline]

/-- **The request line decides the target**, whatever stands behind it. -/
theorem parse_requestLine (hc : ':' ∉ req.host) (junk : Bytes) {n : Nat}
    (h : req.lineBytes.length ≤ n) (httpSpace mixHeaderCase : Bool) :
    parseConnectTarget (preprocessHttpRequest (fromUtf8Lossy ((req.lineBytes ++ junk).take n))
      httpSpace mixHeaderCase) = some (req.host, decimal req.port) := by
  have hlen : req.requestLine.length = 10 + req.host.length + req.port.length +
      req.version.length := by
    have hmethod : req.requestLine.length = (req.target ++ ' ' :: req.version).length + 8 := rfl
    rw [List.length_append, List.length_cons, target, List.length_append, List.length_cons]
      at hmethod
    omega
  have hport : req.port.take (req.requestLine.length - (9 + req.host.length)) = req.port :=
    List.take_of_length_le (by omega)
  have htarget : req.targetAfter req.requestLine.length = some (req.host, decimal req.port) := by
    rw [targetAfter_port hc (by omega), parseU16_port_take (by omega), hport]
    rfl
  have hwhole := req.parse_prefix req.requestLine.length httpSpace mixHeaderCase
  rw [parseConnectTarget_preprocess, parseConnectTarget_eq, req.firstWords_take,
    List.take_length, htarget] at hwhole
  rw [parseConnectTarget_preprocess, parseConnectTarget_eq, firstWords_requestLine junk h, hwhole]

end ConnectRequest

/-! ## Nothing fails -/

section
variable {cfg : ProxyServerConfig} {net : Network} {stream : Bytes} {host : Str} {isMeta : Bool}
  {addr : SocketAddr}

theorem reply_ok (h : (Socket.fresh net.client).Accepting) (bs : Bytes) :
    (reply net bs).result = .ok () := by
  unfold reply
  rw [emit_bind_result, Socket.writeAll_of_accepting h]
  rfl

theorem sendHello_ok (h : (Socket.fresh net.remote).Accepting) (hello : Bytes) :
    (sendHello cfg net hello host isMeta addr).result = .ok () := by
  unfold sendHello
  rw [isClientHello_eq, Act.check_ok, value_bind]
  refine result_bind_eq_ok.mpr ⟨(), ?_, ?_⟩
  · split
    · unfold injectFakeTtlProbe
      rw [emit_bind_result]
      split <;> rfl
    · rfl
  · rw [emit_bind_result, forwardHello_of_accepting h]
    rfl

/-- A tunnel that stands is served until copying starts. -/
theorem serveTunnel_ok (h : net.Works) :
    (serveTunnel cfg net stream host isMeta addr).result = .ok () ∧
      ∃ rest, .tunnel rest ∈ (serveTunnel cfg net stream host isMeta addr).events := by
  obtain ⟨want, hwant⟩ := h.hello
  unfold serveTunnel
  rw [hwant]
  dsimp only
  have hsend : ∀ hello (b : Prop) [Decidable b],
      (if b then sendHello cfg net hello host isMeta addr else pure ()).result = .ok () := by
    intro hello b _
    split
    · exact sendHello_ok h.remote hello
    · rfl
  constructor
  · exact result_bind_eq_ok.mpr ⟨(), rfl, result_bind_eq_ok.mpr ⟨(), hsend _ _, rfl⟩⟩
  · exact ⟨_, mem_events_bind.mpr (Or.inr ⟨(), rfl,
      mem_events_bind.mpr (Or.inr ⟨(), hsend _ _, List.mem_cons_self⟩)⟩)⟩

/-- An answer opens nothing. -/
theorem reply_opens_nothing {bs : Bytes} {rest : Bytes} :
    .tunnel rest ∉ (reply net bs).events := by
  intro h
  obtain ⟨taken, htaken⟩ := reply_events net bs _ h
  cases htaken

/-- **When a target is connected to**, in surroundings in which nothing fails. -/
theorem handleConnectTunnel_opens_iff {request rawHost : Str} {port : Nat} (hsound : net.Sound)
    (hparse : parseConnectTarget request = some (rawHost, port)) :
    (handleConnectTunnel cfg net stream request).result = .ok () ∧
    (((∃ rest, .tunnel rest ∈ (handleConnectTunnel cfg net stream request).events) ∧
        .connect addr ∈ (handleConnectTunnel cfg net stream request).events) ↔
      isRefusedHost rawHost = false ∧ addr.port = port ∧
        targetAddress cfg net (resolvedHost cfg rawHost) port = some addr.ip ∧
        (addr.ip.isLoopback || addr.ip.isUnspecified) = false) := by
  have hreply : ∀ bs, (reply net bs).result = .ok () := reply_ok hsound.client
  have hresolves := remoteAddress_resolves cfg net port
    (colon_notMem_resolvedHost cfg (colon_notMem_of_target hparse))
  unfold handleConnectTunnel
  rw [hparse]
  dsimp only
  cases hrefused : isRefusedHost rawHost with
  | true =>
    rw [if_pos rfl]
    refine ⟨hreply _, iff_of_false ?_ fun h => by cases h.1⟩
    exact fun h => h.1.elim fun _ h => reply_opens_nothing h
  | false =>
    rw [if_neg Bool.false_ne_true, bind_of_ok remoteAddress_finds]
    -- resolving neither connects nor opens anything
    have hbehind : ∀ {e : Event} {es : List Event}, ¬ e.Resolving (resolvedHost cfg rawHost) →
        (e ∈ (remoteAddress cfg net (resolvedHost cfg rawHost) port).events ++ es ↔ e ∈ es) :=
      fun he => List.mem_append.trans (or_iff_right fun h => he (hresolves.events _ h))
    dsimp only
    simp only [hbehind (show ¬ (Event.tunnel _).Resolving _ from id),
      hbehind (show ¬ (Event.connect _).Resolving _ from id)]
    cases targetAddress cfg net (resolvedHost cfg rawHost) port with
    | none =>
      refine ⟨hreply _, iff_of_false ?_ fun h => by cases h.2.2.1⟩
      exact fun h => h.1.elim fun _ h => reply_opens_nothing h
    | some ip =>
      dsimp only
      cases hlocal : ip.isLoopback || ip.isUnspecified with
      | true =>
        rw [if_pos rfl]
        refine ⟨hreply _, iff_of_false ?_ fun h => ?_⟩
        · exact fun h => h.1.elim fun _ h => reply_opens_nothing h
        · obtain ⟨-, -, hip, hnot⟩ := h
          rw [← Option.some.inj hip, hlocal] at hnot
          cases hnot
      | false =>
        rw [if_neg Bool.false_ne_true, hsound.connects _ _, if_neg (by simp)]
        have hserve := @serveTunnel_ok cfg net stream (resolvedHost cfg rawHost)
          (isPaddingIncompatibleDomain (resolvedHost cfg rawHost)) ⟨ip, port⟩ hsound.toWorks
        have hserving := serveTunnel_events cfg net stream (resolvedHost cfg rawHost)
          (isPaddingIncompatibleDomain (resolvedHost cfg rawHost)) ⟨ip, port⟩
        generalize serveTunnel cfg net stream (resolvedHost cfg rawHost)
          (isPaddingIncompatibleDomain (resolvedHost cfg rawHost)) ⟨ip, port⟩ = serve at *
        obtain ⟨hok, rest, hopen⟩ := hserve
        refine ⟨result_bind_eq_ok.mpr ⟨(), rfl, result_bind_eq_ok.mpr ⟨(), hreply _, hok⟩⟩, ?_⟩
        rw [emit_bind_events, bind_of_ok (hreply _)]
        -- the one connection is to the address that was found
        have hconnect : .connect addr ∈ Event.connect ⟨ip, port⟩ ::
            ((reply net http200Established).events ++ serve.events) ↔ addr = ⟨ip, port⟩ := by
          rw [List.mem_cons, List.mem_append, Event.connect.injEq]
          refine or_iff_left ?_
          rintro (h | h)
          · obtain ⟨taken, htaken⟩ := reply_events net _ _ h
            cases htaken
          · exact hserving _ h
        rw [hconnect]
        constructor
        · rintro ⟨-, rfl⟩
          exact ⟨trivial, rfl, rfl, hlocal⟩
        · rintro ⟨-, rfl, hip, -⟩
          refine ⟨⟨rest, List.mem_cons_of_mem _ (List.mem_append_right _ hopen)⟩, ?_⟩
          rw [Option.some.inj hip]

/-- A connection whose first read holds the request line is one for a tunnel. -/
theorem handleClient_of_requestLine {req : ConnectRequest} {junk : Bytes} {n : Nat}
    (hread : net.firstRead = some n) (hcap : n ≤ clientBufSize) (hline : req.lineBytes.length ≤ n)
    (hlen : n ≤ (req.lineBytes ++ junk).length) (hc : ':' ∉ req.host) :
    ∃ request, parseConnectTarget request = some (req.host, decimal req.port) ∧
      handleClient cfg net (req.lineBytes ++ junk) =
        handleConnectTunnel cfg net ((req.lineBytes ++ junk).drop n) request := by
  have hpos : 1 ≤ n := by
    refine Nat.le_trans ?_ hline
    rw [ConnectRequest.lineBytes, utf8Bytes, List.flatMap_append, List.length_append]
    exact Nat.le_trans (show 1 ≤ (utf8Bytes crlf).length by decide) (Nat.le_add_left _ _)
  have hparse := req.parse_requestLine hc junk hline cfg.httpSpace cfg.mixHeaderCase
  refine ⟨_, hparse, ?_⟩
  unfold handleClient
  rw [hread]
  dsimp only
  rw [readLength_eq hpos hcap hlen, if_neg (Nat.ne_of_gt hpos),
    if_pos (isHttpConnect_of_target hparse)]

/-- The request line of `exampleRequest` and two bytes more are read, with every option
that changes the request. -/
def lineAndMore : Network :=
  { Network.answering ⟨.v4 ⟨93, 184, 216, 34⟩, 443⟩ with firstRead := some 36 }

def allOptions : ProxyServerConfig := ⟨[], 0, [], 0, true, true, true, true⟩

end
end GreenTunnel
