import GreenTunnel.Tunnel

/-! # Where the tunnel's data start (`proxy.rs`)

The proxy takes its first read for the request and everything after it for the
tunnel's data; nothing looks for the empty line that ends the request.  So the
data handed on are what the client sends after the first read
(`handleClient_handsOn`), and they are the bytes behind the request exactly when
the first read ends where the request ends (`tunnelData_eq_payload_iff`).
-/
namespace GreenTunnel
open Trace

/-- The bytes of the tunnel's data that an event takes from the client. -/
def Event.tunnelBytes : Event → Bytes
  | .readHello bs => bs
  | .tunnel rest => rest
  | _ => []

/-- The tunnel's data. -/
def tunnelData (events : List Event) : Bytes := events.flatMap Event.tunnelBytes

/-- The event takes nothing of the tunnel's data. -/
def Event.Quiet (e : Event) : Prop := e.tunnelBytes = [] ∧ ∀ rest, e ≠ .tunnel rest

/-- If copying starts, the tunnel's data are `stream`. -/
def HandsOn (stream : Bytes) (x : Act Unit) : Prop :=
  (∃ rest, .tunnel rest ∈ x.events) → tunnelData x.events = stream

theorem tunnelData_quiet {α : Type} {x : Act α} (h : x.Always Event.Quiet) :
    tunnelData x.events = [] := List.flatMap_eq_nil_iff.mpr fun e he => (h e he).1

theorem HandsOn.of_quiet {stream : Bytes} {x : Act Unit} (h : x.Always Event.Quiet) :
    HandsOn stream x := by
  rintro ⟨rest, hmem⟩
  exact absurd rfl ((h _ hmem).2 rest)

theorem HandsOn.bind {α : Type} {stream : Bytes} {x : Act α} {f : α → Act Unit}
    (hx : x.Always Event.Quiet) (hf : ∀ a, HandsOn stream (f a)) : HandsOn stream (x >>= f) := by
  rintro ⟨rest, hmem⟩
  rcases mem_events_bind.mp hmem with h | ⟨a, ha, h⟩
  · exact absurd rfl ((hx _ h).2 rest)
  · rw [bind_of_ok ha, tunnelData, List.flatMap_append]
    exact (congrArg (· ++ _) (tunnelData_quiet hx)).trans (hf a ⟨rest, h⟩)

theorem quiet_of_resolving {host : Str} {e : Event} (h : e.Resolving host) : e.Quiet := by
  cases e <;> first | exact ⟨rfl, fun _ h => by cases h⟩ | exact False.elim h

theorem reply_quiet (net : Network) (bs : Bytes) : (reply net bs).Always Event.Quiet := by
  intro e he
  obtain ⟨taken, rfl⟩ := reply_events net bs e he
  exact ⟨rfl, fun _ h => by cases h⟩

/-- The hello that is read and what the client sends after it are all the client
sends. -/
theorem serveTunnel_handsOn (cfg : ProxyServerConfig) (net : Network) (stream : Bytes) (host : Str)
    (isMeta : Bool) (remoteAddr : SocketAddr) :
    HandsOn stream (serveTunnel cfg net stream host isMeta remoteAddr) := by
  unfold serveTunnel
  cases net.helloRead with
  | none => exact HandsOn.of_quiet (Always.ofExcept _)
  | some want =>
    dsimp only
    generalize readLength clientHelloBufSize stream want = n
    have hsend : (if n > 0 then sendHello cfg net (stream.take n) host isMeta remoteAddr
        else pure ()).Always Event.Quiet := by
      split
      · intro e he
        rcases sendHello_events cfg net _ host isMeta remoteAddr e he with rfl | ⟨_, rfl⟩ | ⟨_, rfl⟩
          <;> exact ⟨rfl, fun _ h => by cases h⟩
      · exact Always.pure _
    rintro ⟨rest, hmem⟩
    rcases List.mem_cons.mp hmem with h | h
    · cases h
    -- copying starts, so sending the hello ended with a value
    rcases mem_events_bind.mp h with h | ⟨a, ha, -⟩
    · exact absurd rfl ((hsend _ h).2 rest)
    · rw [emit_bind_events, bind_of_ok ha]
      show stream.take n ++ tunnelData (_ ++ [Event.tunnel (stream.drop n)]) = stream
      rw [tunnelData, List.flatMap_append]
      have hquiet := tunnelData_quiet hsend
      rw [tunnelData] at hquiet
      rw [hquiet, List.nil_append, List.flatMap_singleton]
      exact List.take_append_drop n stream

theorem handleConnectTunnel_handsOn (cfg : ProxyServerConfig) (net : Network) (stream : Bytes)
    (request : Str) : HandsOn stream (handleConnectTunnel cfg net stream request) := by
  have hreply : ∀ bs, HandsOn stream (reply net bs) := fun bs =>
    HandsOn.of_quiet (reply_quiet net bs)
  unfold handleConnectTunnel
  cases hp : parseConnectTarget request with
  | none => exact hreply _
  | some target =>
    obtain ⟨rawHost, port⟩ := target
    dsimp only
    split
    · exact hreply _
    have hres := remoteAddress_resolves cfg net port
      (colon_notMem_resolvedHost cfg (colon_notMem_of_target hp))
    refine HandsOn.bind (fun e he => quiet_of_resolving (hres.events e he)) fun a => ?_
    cases a with
    | none => exact hreply _
    | some ip =>
      dsimp only
      split
      · exact hreply _
      refine HandsOn.bind (Always.emit ⟨rfl, fun _ h => by cases h⟩) fun _ => ?_
      split
      · exact hreply _
      · exact HandsOn.bind (reply_quiet net _) fun _ => serveTunnel_handsOn cfg net stream _ _ _

/-- **What is handed on** is what the client sends after the first read. -/
theorem handleClient_handsOn {cfg : ProxyServerConfig} {net : Network} {want : Nat}
    (hread : net.firstRead = some want) (stream : Bytes) :
    HandsOn (stream.drop (readLength clientBufSize stream want)) (handleClient cfg net stream) := by
  unfold handleClient
  rw [hread]
  dsimp only
  split
  · exact HandsOn.of_quiet (Always.pure _)
  split
  · exact handleConnectTunnel_handsOn cfg net _ _
  split
  · refine HandsOn.of_quiet (Always.bind (Always.emit ⟨rfl, fun _ h => by cases h⟩) fun _ _ => ?_)
    exact Always.ofExcept _
  · exact HandsOn.of_quiet (Always.emit ⟨rfl, fun _ h => by cases h⟩)

/-- **The tunnel's data and the payload.**  On a connection that opens a tunnel,
the data handed on are the bytes the client sends after the request exactly when
the first read ends with the request. -/
theorem tunnelData_eq_payload_iff {cfg : ProxyServerConfig} {net : Network}
    {header payload rest : Bytes} {want : Nat} (hread : net.firstRead = some want)
    (hopen : .tunnel rest ∈ (handleClient cfg net (header ++ payload)).events) :
    tunnelData (handleClient cfg net (header ++ payload)).events = payload ↔
      readLength clientBufSize (header ++ payload) want = header.length := by
  rw [handleClient_handsOn hread _ ⟨rest, hopen⟩]
  have hle := readLength_le clientBufSize (header ++ payload) want
  constructor
  · intro h
    have hlen := congrArg List.length h
    rw [List.length_drop, List.length_append] at hlen
    rw [List.length_append] at hle
    omega
  · intro h
    rw [h, List.drop_left]

/-- A request without further header lines. -/
def shortRequest : Bytes := utf8Bytes "CONNECT example.com:443 HTTP/1.1\r\n\r\n".toList

theorem tunnelData_eq_payload_example :
    tunnelData (handleClient noOptions
        { Network.answering ⟨.v4 ⟨93, 184, 216, 34⟩, 443⟩ with firstRead := some 36 }
        (shortRequest ++ [0x16, 3, 1])).events = [0x16, 3, 1] ↔
      readLength clientBufSize (shortRequest ++ [0x16, 3, 1]) 36 = shortRequest.length :=
  @tunnelData_eq_payload_iff noOptions
    { Network.answering ⟨.v4 ⟨93, 184, 216, 34⟩, 443⟩ with firstRead := some 36 }
    shortRequest [0x16, 3, 1] [] 36 rfl (by decide +kernel)

/-- The request and the first bytes behind it arrive in one read: the tunnel is
opened, and these bytes are not handed on. -/
theorem tunnelData_eq_payload_fails :
    .tunnel [] ∈ (handleClient noOptions
      (.answering ⟨.v4 ⟨93, 184, 216, 34⟩, 443⟩) (shortRequest ++ [0x16, 3, 1])).events ∧
    tunnelData (handleClient noOptions
      (.answering ⟨.v4 ⟨93, 184, 216, 34⟩, 443⟩) (shortRequest ++ [0x16, 3, 1])).events ≠
        [0x16, 3, 1] := by
  decide +kernel

end GreenTunnel
