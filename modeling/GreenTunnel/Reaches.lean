import GreenTunnel.Responses
import GreenTunnel.Uplink

/-! # A client reaches its server

What the parts say of each other is put together: a request line that has arrived whole, a
DNS server that answers, and sockets that do not fail.  The options change how the request,
the name and the hello look, and not where the tunnel leads: the client is told that it
stands, the remote is the first address in the answer of the DNS server, with the port of
the request, and what the client sends behind the first read arrives there as the same
stream (`handleClient_reaches`).
-/
namespace GreenTunnel
open Dns

/-- **A DNS server that answers with `m`**: it is the configured one, and `m` is a message
that it can send. -/
structure HonestDns (cfg : ProxyServerConfig) (net : Network) (m : Message) : Prop where
  answers : ∃ server, parseSocketAddr (DnsResolver.new cfg.dnsAddr).dnsAddr = some server ∧
    AnswersWith net server m
  fits : m.encode.length ≤ dnsBufSize
  noError : m.rcode = 0

section
variable {cfg : ProxyServerConfig} {net : Network} {m : Message} {ip : Ipv4Addr}

/-- The target is where the message says it is, with a dot behind its name or without. -/
theorem HonestDns.targetAddress (h : HonestDns cfg net m) {host : Str}
    (hasked : IsAsked (trimEndMatches '.' host))
    (hip : m.answers.findSome? ResourceRecord.address = some ip) (port : Nat) :
    GreenTunnel.targetAddress cfg net (resolvedHost cfg host) port = some (.v4 ip) := by
  obtain ⟨server, hserver, hanswers⟩ := h.answers
  have hbelieved : believed m.encode = some (.v4 ip) := by
    rw [believed_encode h.fits h.noError, hip]
    rfl
  rw [GreenTunnel.targetAddress, trim_resolvedHost, DnsResolver.finds, hasked.1, Option.none_or,
    if_pos hasked.2, hanswers.hears hserver, hbelieved]
  rfl

/-- **A client reaches its server.**  With sockets that do not fail and a DNS server that
answers, a client whose first read holds the request line of a CONNECT to a name is told
that the tunnel stands, and nothing else; the remote is the address in the answer; and if
its hello is read whole, what it sends behind the first read arrives there as the same
stream. -/
theorem handleClient_reaches {req : ConnectRequest} {junk : Bytes} {n : Nat}
    (hsound : net.Sound) (hdns : HonestDns cfg net m) (hread : net.firstRead = some n)
    (hcap : n ≤ clientBufSize) (hline : req.lineBytes.length ≤ n)
    (hlen : n ≤ (req.lineBytes ++ junk).length) (hc : ':' ∉ req.host)
    (hserved : isRefusedHost req.host = false) (hasked : IsAsked (trimEndMatches '.' req.host))
    (hip : m.answers.findSome? ResourceRecord.address = some ip)
    (hremote : (ip.isLoopback || ip.isUnspecified) = false) :
    (handleClient cfg net (req.lineBytes ++ junk)).Answers http200Established ∧
      (∀ peer, .connect peer ∈ (handleClient cfg net (req.lineBytes ++ junk)).events ↔
        peer = ⟨.v4 ip, decimal req.port⟩) ∧
      ∀ hello, .readHello hello ∈ (handleClient cfg net (req.lineBytes ++ junk)).events →
        ReadWhole hello →
        SameStream (uplink (handleClient cfg net (req.lineBytes ++ junk)).events)
          ((req.lineBytes ++ junk).drop (firstReadLength net (req.lineBytes ++ junk))) := by
  obtain ⟨_, hlead, -, -⟩ := handleClient_follows cfg net (req.lineBytes ++ junk)
  obtain ⟨request, hparse, heq⟩ :=
    @handleClient_of_requestLine cfg net req junk n hread hcap hline hlen hc
  have htarget := hdns.targetAddress hasked hip (decimal req.port)
  have hlocal : ((IpAddr.v4 ip).isLoopback || (IpAddr.v4 ip).isUnspecified) = false := hremote
  have hanswers : (handleClient cfg net (req.lineBytes ++ junk)).Answers http200Established := by
    have hresponse : (ClientRequest.connect (some (req.host, decimal req.port))).response cfg net =
        http200Established := by
      rw [ClientRequest.response, ClientRequest.answer, hserved, if_neg Bool.false_ne_true,
        Option.getD_none, htarget, foundAnswer, hlocal, if_neg Bool.false_ne_true, 
        if_pos (hsound.connects _ _)]
    have := @handleConnectTunnel_answers cfg net ((req.lineBytes ++ junk).drop n) hsound.toWorks
      request
    rwa [hparse, hresponse, ← heq] at this
  have hopen := hanswers.copies.mpr rfl
  refine ⟨hanswers, fun peer => ?_, fun hello hhello hwhole => ?_⟩
  · have hopens := (@handleConnectTunnel_opens_iff cfg net ((req.lineBytes ++ junk).drop n) peer
      request _ _ hsound hparse).2
    rw [← heq, and_iff_right hopen, htarget] at hopens
    rw [hopens]
    constructor
    · rintro ⟨-, hport, hfound, -⟩
      rw [← hport, Option.some.inj hfound]
    · rintro rfl
      exact ⟨hserved, rfl, rfl, hlocal⟩
  · obtain ⟨rest, htunnel⟩ := hopen
    exact uplink_sameStream hlead hhello htunnel hwhole

/-- The request line is read alone, the first query is lost, and the second is answered. -/
def answeredLate : Network := { secondTime with firstRead := some 35 }

def lateOptions : ProxyServerConfig := ⟨"8.8.8.8".toList, 0, [], 0, true, true, true, true⟩

theorem handleClient_reaches_example :
    (handleClient lateOptions answeredLate (exampleRequest.lineBytes ++ helloThenThree)).Answers
        http200Established ∧
      (∀ peer, .connect peer ∈ (handleClient lateOptions answeredLate
          (exampleRequest.lineBytes ++ helloThenThree)).events ↔
        peer = ⟨.v4 ⟨1, 1, 1, 1⟩, decimal exampleRequest.port⟩) ∧
      ∀ hello, .readHello hello ∈ (handleClient lateOptions answeredLate
          (exampleRequest.lineBytes ++ helloThenThree)).events → ReadWhole hello →
        SameStream (uplink (handleClient lateOptions answeredLate
            (exampleRequest.lineBytes ++ helloThenThree)).events)
          ((exampleRequest.lineBytes ++ helloThenThree).drop
            (firstReadLength answeredLate (exampleRequest.lineBytes ++ helloThenThree))) :=
  @handleClient_reaches lateOptions answeredLate filteredResponse ⟨1, 1, 1, 1⟩ exampleRequest
    helloThenThree 35 ⟨⟨fun _ => ⟨65535, rfl⟩, fun _ => ⟨65535, rfl⟩, _, rfl⟩,
      fun _ _ => Network.connects_iff.mpr ⟨rfl, rfl⟩⟩
    ⟨⟨⟨.v4 ⟨8, 8, 8, 8⟩, 53⟩, by decide +kernel,
      ⟨rfl, ⟨1, by decide, rfl, _, rfl⟩, fun _ _ _ _ h => (Reception.datagram.inj h).2.symm⟩⟩,
      by decide, rfl⟩
    rfl (by decide) (by decide) (by decide) (by decide) (by decide +kernel)
    ⟨by decide +kernel, by decide⟩ rfl (by decide)

end
end GreenTunnel
