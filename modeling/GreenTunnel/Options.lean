import GreenTunnel.Opening
import GreenTunnel.Session

/-! # What the options change (`proxy.rs`)

Two connections with the same client and the same surroundings are compared, which differ in
their options.  The decoy is seen by nobody but its peer: everything else happens as it
would without it (`handleClient_unprobed`).  The options that change the text of the
request change nothing outside the proxy, since that text is never sent on; only a client
whose first line is blank may be told something else (`handleClient_requestText`).  How the
socket of the tunnel is prepared changes nothing at all (`handleClient_withSocket`).
-/
namespace GreenTunnel
open Trace

/-! ## The decoy -/

/-- Everything but the decoy. -/
def Event.genuine : Event → Bool
  | .probe _ | .probed _ => false
  | _ => true

/-- The options with another decoy, or without. -/
def ProxyServerConfig.withDecoy (cfg : ProxyServerConfig) (fakeTtl : Nat) (fakeSni : Str) :
    ProxyServerConfig :=
  { cfg with fakeTtl := fakeTtl, fakeSni := fakeSni }

/-- The surroundings with another fate of the decoy's connection. -/
def Network.withProbe (net : Network) (connects : Bool) (probe : Nat → WriteOutcome) : Network :=
  { net with probeConnects := connects, probe := probe }

section
variable (cfg : ProxyServerConfig) (net : Network) (stream : Bytes) (fakeTtl : Nat) (fakeSni : Str)
  (connects : Bool) (probe : Nat → WriteOutcome)

theorem injectFakeTtlProbe_unseen (addr : SocketAddr) :
    Alike Event.genuine (injectFakeTtlProbe net addr fakeSni) (pure ()) := by
  refine Alike.of_unseen (fun e he => ?_) (fun e he => absurd he List.not_mem_nil) ?_
  · unfold injectFakeTtlProbe at he
    rcases List.mem_cons.mp he with rfl | he
    · rfl
    · split at he
      · rw [List.mem_singleton.mp he]
        rfl
      · cases he
  · unfold injectFakeTtlProbe
    rw [emit_bind_result]
    split <;> rfl

theorem sendHello_alike (hello : Bytes) (host : Str) (isMeta : Bool) (addr : SocketAddr) :
    Alike Event.genuine
      (sendHello (cfg.withDecoy fakeTtl fakeSni) (net.withProbe connects probe) hello host isMeta
        addr)
      (sendHello cfg net hello host isMeta addr) := by
  unfold sendHello
  refine (Alike.refl _).bind fun starts _ => Alike.bind ?_ fun _ _ => Alike.refl _
  have hprobe : ∀ (cfg : ProxyServerConfig) (net : Network), Alike Event.genuine
      (if cfg.fakeTtl > 0 ∧ cfg.fakeSni ≠ [] ∧ (!isMeta) = true ∧ starts = true then
        injectFakeTtlProbe net addr cfg.fakeSni else pure ()) (pure ()) := by
    intro cfg net
    split
    · exact injectFakeTtlProbe_unseen net cfg.fakeSni addr
    · exact Alike.refl _
  exact (hprobe _ _).trans (hprobe _ _).symm

theorem serveTunnel_alike (host : Str) (isMeta : Bool) (addr : SocketAddr) :
    Alike Event.genuine
      (serveTunnel (cfg.withDecoy fakeTtl fakeSni) (net.withProbe connects probe) stream host isMeta
        addr)
      (serveTunnel cfg net stream host isMeta addr) := by
  unfold serveTunnel
  have hread : (net.withProbe connects probe).helloRead = net.helloRead := rfl
  rw [hread]
  cases net.helloRead with
  | none => exact Alike.refl _
  | some want =>
    refine (Alike.refl _).bind fun _ _ => Alike.bind ?_ fun _ _ => Alike.refl _
    split
    · exact sendHello_alike cfg net fakeTtl fakeSni connects probe _ host isMeta addr
    · exact Alike.refl _

theorem handleConnectTunnel_alike (request : Str) :
    Alike Event.genuine
      (handleConnectTunnel (cfg.withDecoy fakeTtl fakeSni) (net.withProbe connects probe) stream
        request)
      (handleConnectTunnel cfg net stream request) := by
  unfold handleConnectTunnel
  cases parseConnectTarget request with
  | none => exact Alike.refl _
  | some target =>
    obtain ⟨rawHost, port⟩ := target
    dsimp only
    split
    · exact Alike.refl _
    · refine (Alike.refl _).bind fun found _ => ?_
      cases found with
      | none => exact Alike.refl _
      | some ip =>
        dsimp only
        split
        · exact Alike.refl _
        · refine (Alike.refl _).bind fun _ _ => ?_
          have hconnects : (net.withProbe connects probe).connects (cfg.withDecoy fakeTtl fakeSni) =
              net.connects cfg := rfl
          rw [hconnects]
          split
          · exact Alike.refl _
          · refine (Alike.refl _).bind fun _ _ => ?_
            exact serveTunnel_alike cfg net stream fakeTtl fakeSni connects probe _ _ _

/-- **The decoy changes nothing else.**  With another TTL or name to fake, or none, and
whatever becomes of the second connection, the same happens on every connection but for
the decoy, in the same order, and it ends in the same way. -/
theorem handleClient_unprobed :
    Alike Event.genuine
      (handleClient (cfg.withDecoy fakeTtl fakeSni) (net.withProbe connects probe) stream)
      (handleClient cfg net stream) := by
  unfold handleClient
  have hfirst : (net.withProbe connects probe).firstRead = net.firstRead := rfl
  rw [hfirst]
  cases net.firstRead with
  | none => exact Alike.refl _
  | some want =>
    dsimp only
    split
    · exact Alike.refl _
    · have hspace : (cfg.withDecoy fakeTtl fakeSni).httpSpace = cfg.httpSpace := rfl
      have hmix : (cfg.withDecoy fakeTtl fakeSni).mixHeaderCase = cfg.mixHeaderCase := rfl
      rw [hspace, hmix]
      split
      · exact handleConnectTunnel_alike cfg net _ fakeTtl fakeSni connects probe _
      · exact Alike.refl _

end

/-! ## The text of the request -/

/-- The options with another treatment of the request's text. -/
def ProxyServerConfig.withRequestText (cfg : ProxyServerConfig) (httpSpace mixHeaderCase : Bool) :
    ProxyServerConfig :=
  { cfg with httpSpace := httpSpace, mixHeaderCase := mixHeaderCase }

/-- The event is not an answer to the client. -/
def Event.unreplied : Event → Bool
  | .replied _ => false
  | _ => true

section
variable {cfg : ProxyServerConfig} {net : Network} {stream : Bytes}

/-- Only the target of a request decides what is done for it. -/
theorem handleConnectTunnel_congr {request request' : Str}
    (h : parseConnectTarget request = parseConnectTarget request') :
    handleConnectTunnel cfg net stream request = handleConnectTunnel cfg net stream request' := by
  unfold handleConnectTunnel
  rw [h]

/-- What is done for a text that starts with a blank line: the client is answered. -/
theorem answered_of_blank {text : Str} (h : firstWords text = []) :
    ((if isHttpConnect (preprocessHttpRequest text cfg.httpSpace cfg.mixHeaderCase) then
        handleConnectTunnel cfg net stream
          (preprocessHttpRequest text cfg.httpSpace cfg.mixHeaderCase)
      else if "GET ".toList <+: text ∨ "POST ".toList <+: text then
        handlePlaintextRedirect net text
      else handleActiveProbeDefense net).events.filter Event.unreplied) = [] := by
  have hreplied : ∀ {x : Act Unit}, (∀ e ∈ x.events, ∃ taken, e = .replied taken) →
      x.events.filter Event.unreplied = [] := by
    intro x hx
    refine List.filter_eq_nil_iff.mpr fun e he => ?_
    obtain ⟨taken, rfl⟩ := hx e he
    exact Bool.false_ne_true
  have htarget : parseConnectTarget
      (preprocessHttpRequest text cfg.httpSpace cfg.mixHeaderCase) = none := by
    rw [parseConnectTarget_preprocess, parseConnectTarget_eq, h]
    rfl
  refine hreplied fun e he => ?_
  split at he
  · unfold handleConnectTunnel at he
    rw [htarget] at he
    exact reply_events net _ e he
  · split at he
    · obtain ⟨w, heq, -, -⟩ := handlePlaintextRedirect_eq net text
      rw [heq] at he
      exact ⟨_, List.mem_singleton.mp he⟩
    · exact ⟨_, List.mem_singleton.mp he⟩

variable (cfg net stream) (httpSpace mixHeaderCase : Bool)

/-- **The text of the request stays inside.**  Whatever the proxy makes of the text, it
does the same on a connection but for its answer; and the answer, too, is the same if the
first line is not blank. -/
theorem handleClient_requestText :
    (handleClient (cfg.withRequestText httpSpace mixHeaderCase) net stream).events.filter
        Event.unreplied = (handleClient cfg net stream).events.filter Event.unreplied ∧
    (firstWords (fromUtf8Lossy (stream.take (firstReadLength net stream))) ≠ [] →
      handleClient (cfg.withRequestText httpSpace mixHeaderCase) net stream =
        handleClient cfg net stream) := by
  unfold handleClient firstReadLength
  cases net.firstRead with
  | none => exact ⟨rfl, fun _ => rfl⟩
  | some want =>
    simp only [Option.elim_some]
    generalize readLength clientBufSize stream want = n
    by_cases hzero : n = 0
    · rw [if_pos hzero, if_pos hzero]
      exact ⟨rfl, fun _ => rfl⟩
    · rw [if_neg hzero, if_neg hzero]
      generalize fromUtf8Lossy (stream.take n) = text
      cases hwords : firstWords text with
      | nil =>
        refine ⟨?_, fun h => absurd rfl h⟩
        exact (answered_of_blank hwords).trans (answered_of_blank hwords).symm
      | cons w ws =>
        have hsame : ∀ a b, isHttpConnect (preprocessHttpRequest text a b) =
            eqIgnoreAsciiCase w "CONNECT".toList := isHttpConnect_preprocess hwords
        have htunnel : handleConnectTunnel (cfg.withRequestText httpSpace mixHeaderCase) net
            (stream.drop n) (preprocessHttpRequest text httpSpace mixHeaderCase) =
            handleConnectTunnel cfg net (stream.drop n)
              (preprocessHttpRequest text cfg.httpSpace cfg.mixHeaderCase) :=
          @handleConnectTunnel_congr cfg net _ _ _ (by simp only [parseConnectTarget_preprocess])
        refine (fun heq => ⟨congrArg (·.events.filter Event.unreplied) heq, fun _ => heq⟩) ?_
        rw [hsame, hsame]
        exact if_congr Iff.rfl htunnel rfl

/-- Behind a blank line, a key that is a method is no longer one with its letters in other
cases. -/
example : isHttpConnect (preprocessHttpRequest "\r\nCONNECT :".toList false false) = true ∧
    isHttpConnect (preprocessHttpRequest "\r\nCONNECT :".toList false true) = false := by
  decide +kernel

/-- Without the spaces, and with the keys as they came. -/
theorem handleClient_requestText_example :
    handleClient (allOptions.withRequestText false false) lineAndMore
        (exampleRequest.lineBytes ++ [0xFF, 0xFE, 10]) =
      handleClient allOptions lineAndMore (exampleRequest.lineBytes ++ [0xFF, 0xFE, 10]) :=
  (handleClient_requestText allOptions lineAndMore (exampleRequest.lineBytes ++ [0xFF, 0xFE, 10])
    false false).2 (by decide +kernel)

end

/-! ## The socket of the tunnel -/

/-- The options with another treatment of the tunnel's socket. -/
def ProxyServerConfig.withSocket (cfg : ProxyServerConfig) (windowShrink : Nat)
    (portRotate : Bool) : ProxyServerConfig :=
  { cfg with windowShrink := windowShrink, portRotate := portRotate }

section
variable (cfg : ProxyServerConfig) (net : Network) (windowShrink : Nat) (portRotate : Bool)

theorem Network.connects_withSocket :
    net.connects (cfg.withSocket windowShrink portRotate) = net.connects cfg := by
  funext addr
  rw [Bool.eq_iff_iff, Network.connects_iff, Network.connects_iff]

/-- **A port for each connection and small buffers** change nothing but the socket: the
same happens on the connection, whether they can be had or not. -/
theorem handleClient_withSocket (stream : Bytes) :
    handleClient (cfg.withSocket windowShrink portRotate) net stream =
      handleClient cfg net stream := by
  have htunnel : ∀ stream request,
      handleConnectTunnel (cfg.withSocket windowShrink portRotate) net stream request =
        handleConnectTunnel cfg net stream request := by
    intro stream request
    unfold handleConnectTunnel
    rw [Network.connects_withSocket]
    rfl
  unfold handleClient
  simp only [htunnel]
  rfl

end
end GreenTunnel
