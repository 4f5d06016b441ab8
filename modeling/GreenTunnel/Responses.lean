import GreenTunnel.Lines
import GreenTunnel.Opening
import GreenTunnel.SessionOrder

/-! # What a client is told (`proxy.rs`)

An HTTP response is a status line, fields and a body, and `readResponse` is how a client
takes its text apart: line by line, up to the empty line.  A response is read back as it
was written (`HttpResponse.read`), since its parts cannot hold a line end.

Every answer of the proxy is such a response, also the redirect, whose location comes
from the request: nothing a client sends can add a line to it.  There is one answer on a
connection, and only a failed write leaves a part of it (`handleClient_replies`).  The
body is as long as the fields say, except for the page that is shown to scanners: its
Content-Length is 153, and it has 146 bytes.

Unless a socket fails, every connection that sends anything is told the whole of one
response, and the request and the resolvers decide which (`handleClient_answers`).
-/
namespace GreenTunnel
open Trace

/-! ## Responses -/

/-- A field of a response. -/
structure Field where
  name : Str
  value : Str
  name_chars : ∀ c ∈ name, c ≠ ':' ∧ isWhitespace c = false
  name_nonempty : name ≠ []
  value_chars : ∀ c ∈ value, c ≠ '\r' ∧ c ≠ '\n'
  value_trimmed : trim value = value

/-- The line of a field. -/
def Field.line (f : Field) : Str := f.name ++ ':' :: ' ' :: f.value

/-- A response, and how its text is put together. -/
structure HttpResponse where
  status : Str
  fields : List Field
  body : Str
  status_chars : ∀ c ∈ status, c ≠ '\r' ∧ c ≠ '\n'

namespace HttpResponse

def text (r : HttpResponse) : Str :=
  r.status ++ crlf ++ ((r.fields.flatMap fun f => f.line ++ crlf) ++ crlf ++ r.body)

/-- What the fields say about the length of the body, in bytes. -/
def declared (r : HttpResponse) : Option Nat :=
  (r.fields.find? fun f => eqIgnoreAsciiCase f.name "Content-Length".toList).bind fun f =>
    parseUnsigned 18446744073709551616 f.value

/-- The body is as long as the fields say. -/
def Framed (r : HttpResponse) : Prop := (utf8Bytes r.body).length = r.declared.getD 0

end HttpResponse

/-- The fields up to the empty line, and what stands behind it; `fuel` bounds the lines. -/
def readFields : Nat → Str → Option (List (Str × Str) × Str)
  | 0, _ => none
  | fuel + 1, s => do
    let (line, rest) ← splitOnceStr crlf s
    if line = [] then return ([], rest)
    let (name, value) ← splitOnce ':' line
    let (fields, body) ← readFields fuel rest
    return ((name, trim value) :: fields, body)

/-- A text as a status line, fields and a body. -/
def readResponse (s : Str) : Option (Str × List (Str × Str) × Str) := do
  let (status, rest) ← splitOnceStr crlf s
  let (fields, body) ← readFields (rest.length + 1) rest
  return (status, fields, body)

theorem Field.line_ne_nil (f : Field) : f.line ≠ [] :=
  List.append_ne_nil_of_left_ne_nil f.name_nonempty _

theorem Field.newline_notMem (f : Field) : '\n' ∉ f.line := by
  intro h
  rcases List.mem_append.mp h with h | h
  · have := (f.name_chars _ h).2
    cases this
  · rcases List.mem_cons.mp h with h | h
    · cases h
    · rcases List.mem_cons.mp h with h | h
      · cases h
      · exact (f.value_chars _ h).2 rfl

/-- A field is read from its line. -/
theorem Field.split (f : Field) :
    splitOnce ':' f.line = some (f.name, ' ' :: f.value) ∧ trim (' ' :: f.value) = f.value := by
  have hcolon : ':' ∉ f.name := fun h => (f.name_chars _ h).1 rfl
  refine ⟨splitOnce_eq_some.mpr ⟨hcolon, rfl⟩, ?_⟩
  have hstart : trim (' ' :: f.value) = trim f.value := rfl
  rw [hstart, f.value_trimmed]

/-- **Fields are read back**, one line at a time. -/
theorem readFields_text {fields : List Field} {fuel : Nat} (hfuel : fields.length < fuel)
    (body : Str) :
    readFields fuel ((fields.flatMap fun f => f.line ++ crlf) ++ crlf ++ body) =
      some (fields.map fun f => (f.name, f.value), body) := by
  induction fields generalizing fuel with
  | nil =>
    cases fuel with
    | zero => cases hfuel
    | succ fuel => rfl
  | cons f fields ih =>
    cases fuel with
    | zero => cases hfuel
    | succ fuel =>
      have hline := splitOnceStr_crlf f.newline_notMem
        ((fields.flatMap fun f => f.line ++ crlf) ++ crlf ++ body)
      have hrest := ih (Nat.lt_of_succ_lt_succ hfuel)
      rw [List.flatMap_cons, List.append_assoc, List.append_assoc, ← List.append_assoc _ crlf body,
        readFields, hline]
      simp only [Option.bind_eq_bind, Option.bind_some, if_neg f.line_ne_nil, f.split.1, hrest,
        f.split.2]
      rfl

/-- **A response is read back from its text.** -/
theorem HttpResponse.read (r : HttpResponse) :
    readResponse r.text = some (r.status, r.fields.map fun f => (f.name, f.value), r.body) := by
  have hstatus : '\n' ∉ r.status := fun h => (r.status_chars _ h).2 rfl
  have hfuel : r.fields.length <
      ((r.fields.flatMap fun f => f.line ++ crlf) ++ crlf ++ r.body).length + 1 := by
    have hlines : ∀ fields : List Field,
        fields.length ≤ (fields.flatMap fun f => f.line ++ crlf).length := by
      intro fields
      induction fields with
      | nil => exact Nat.le_refl 0
      | cons f fields ih =>
        rw [List.flatMap_cons, List.length_append, List.length_append, List.length_cons]
        have : crlf.length = 2 := rfl
        omega
    have := hlines r.fields
    rw [List.length_append, List.length_append]
    omega
  rw [readResponse, text, splitOnceStr_crlf hstatus, Option.bind_eq_bind, Option.bind_some]
  simp only [readFields_text hfuel, Option.bind_eq_bind, Option.bind_some]
  rfl

/-! ## The responses of the proxy -/

/-- A response without fields. -/
def bareResponse (status : String) (h : ∀ c ∈ status.toList, c ≠ '\r' ∧ c ≠ '\n') :
    HttpResponse :=
  ⟨status.toList, [], [], h⟩

def established : HttpResponse :=
  bareResponse "HTTP/1.1 200 Connection Established" (List.all_iff_forall_prop.mp (by decide))

def badRequest : HttpResponse :=
  bareResponse "HTTP/1.1 400 Bad Request" (List.all_iff_forall_prop.mp (by decide))

def forbidden : HttpResponse :=
  bareResponse "HTTP/1.1 403 Forbidden" (List.all_iff_forall_prop.mp (by decide))

def badGateway : HttpResponse :=
  bareResponse "HTTP/1.1 502 Bad Gateway" (List.all_iff_forall_prop.mp (by decide))

/-- A field that is the same in every response. -/
def plainField (name value : String)
    (hname : ∀ c ∈ name.toList, c ≠ ':' ∧ isWhitespace c = false)
    (hvalue : ∀ c ∈ value.toList, c ≠ '\r' ∧ c ≠ '\n')
    (hends : name.toList ≠ [] ∧ trim value.toList = value.toList) : Field :=
  ⟨name.toList, value.toList, hname, hends.1, hvalue, hends.2⟩

def connectionClose : Field :=
  plainField "Connection" "close" (List.all_iff_forall_prop.mp (by decide))
    (List.all_iff_forall_prop.mp (by decide)) (by decide)

/-- The page for scanners. -/
def notFound : HttpResponse where
  status := "HTTP/1.1 404 Not Found".toList
  fields :=
    [plainField "Server" "nginx" (List.all_iff_forall_prop.mp (by decide))
      (List.all_iff_forall_prop.mp (by decide)) (by decide),
      plainField "Content-Type" "text/html" (List.all_iff_forall_prop.mp (by decide))
        (List.all_iff_forall_prop.mp (by decide)) (by decide),
      plainField "Content-Length" "153" (List.all_iff_forall_prop.mp (by decide))
        (List.all_iff_forall_prop.mp (by decide)) (by decide),
      connectionClose]
  body := "<html>\r\n<head><title>404 Not Found</title></head>\r\n<body>\r\n".toList ++
    ("<center><h1>404 Not Found</h1></center>\r\n<hr><center>nginx</center>\r\n".toList ++
      "</body>\r\n</html>\r\n".toList)
  status_chars := List.all_iff_forall_prop.mp (by decide)

theorem location_chars {host : Str} (h : ∀ c ∈ host, isWhitespace c = false) :
    ∀ c ∈ "https://".toList ++ host, isWhitespace c = false := by
  intro c hc
  rcases List.mem_append.mp hc with hc | hc
  · have hscheme : ∀ c ∈ "https://".toList, isWhitespace c = false :=
      List.all_iff_forall_prop.mp (by decide)
    exact hscheme c hc
  · exact h c hc

/-- A word has no line ends in it. -/
theorem not_lineEnd_of_word {s : Str} (h : ∀ c ∈ s, isWhitespace c = false) :
    ∀ c ∈ s, c ≠ '\r' ∧ c ≠ '\n' := by
  intro c hc
  constructor <;> rintro rfl <;> exact absurd (h _ hc) (by decide)

/-- A word has no white space at its ends. -/
theorem trim_word {s : Str} (h : ∀ c ∈ s, isWhitespace c = false) : trim s = s := by
  have hstart : s.dropWhile isWhitespace = s :=
    List.dropWhile_eq_self_iff.mpr fun hpos => by simp [h _ (List.getElem_mem hpos)]
  rw [trim, trimStart, hstart]
  exact List.rdropWhile_eq_self_iff.mpr fun hne => by simp [h _ (List.getLast_mem hne)]

/-- The redirect to a host. -/
def movedTo (host : Str) (h : ∀ c ∈ host, isWhitespace c = false) : HttpResponse where
  status := "HTTP/1.1 301 Moved Permanently".toList
  fields :=
    [⟨"Location".toList, "https://".toList ++ host, List.all_iff_forall_prop.mp (by decide),
        by decide, not_lineEnd_of_word (location_chars h), trim_word (location_chars h)⟩,
      plainField "Content-Length" "0" (List.all_iff_forall_prop.mp (by decide))
        (List.all_iff_forall_prop.mp (by decide)) (by decide),
      connectionClose]
  body := []
  status_chars := List.all_iff_forall_prop.mp (by decide)

/-- What the proxy answers. -/
inductive ProxyResponse : HttpResponse → Bytes → Prop where
  | established : ProxyResponse established http200Established
  | badRequest : ProxyResponse badRequest http400BadRequest
  | forbidden : ProxyResponse forbidden http403Forbidden
  | badGateway : ProxyResponse badGateway http502BadGateway
  | notFound : ProxyResponse notFound benignNginx404Response
  | movedTo {host : Str} (h : ∀ c ∈ host, isWhitespace c = false) :
      ProxyResponse (movedTo host h) (redirectResponse ("https://".toList ++ host))

theorem ProxyResponse.bytes {r : HttpResponse} {bs : Bytes} (h : ProxyResponse r bs) :
    utf8Bytes r.text = bs := by
  cases h with
  | established => exact congrArg utf8Bytes (by decide)
  | badRequest => exact congrArg utf8Bytes (by decide)
  | forbidden => exact congrArg utf8Bytes (by decide)
  | badGateway => exact congrArg utf8Bytes (by decide)
  | notFound =>
    rw [benignNginx404Response]
    simp only [String.toList_append]
    refine congrArg utf8Bytes (?_ : GreenTunnel.notFound.text = _)
    decide +kernel
  | @movedTo host h =>
    have hstart : "HTTP/1.1 301 Moved Permanently\r\nLocation: ".toList =
        "HTTP/1.1 301 Moved Permanently".toList ++
          (crlf ++ ("Location".toList ++ ':' :: ' ' :: [])) := by
      decide +kernel
    have hend : "\r\nContent-Length: 0\r\nConnection: close\r\n\r\n".toList =
        crlf ++ ("Content-Length".toList ++ ':' :: ' ' :: ("0".toList ++ (crlf ++
          ("Connection".toList ++ ':' :: ' ' :: ("close".toList ++ (crlf ++ crlf)))))) := by
      decide +kernel
    have happend : ∀ s t : Str, utf8Bytes s ++ utf8Bytes t = utf8Bytes (s ++ t) := fun s t =>
      List.flatMap_append.symm
    rw [redirectResponse, http301Suffix, happend, hstart, hend]
    refine congrArg utf8Bytes ?_
    unfold HttpResponse.text GreenTunnel.movedTo connectionClose plainField
    simp only [Field.line, List.flatMap_cons, List.flatMap_nil]
    generalize "HTTP/1.1 301 Moved Permanently".toList = status
    generalize "Location".toList = location
    generalize "https://".toList ++ host = target
    generalize "Content-Length".toList = length
    generalize "0".toList = zero
    generalize "Connection".toList = connection
    generalize "close".toList = close
    simp only [List.append_assoc, List.cons_append, List.nil_append, List.append_nil]

theorem ProxyResponse.framed {r : HttpResponse} {bs : Bytes} (h : ProxyResponse r bs) :
    r.Framed ∨ r = GreenTunnel.notFound := by
  cases h with
  | notFound => exact Or.inr rfl
  | _ => exact Or.inl rfl

/-- Responses with different statuses are different. -/
theorem ProxyResponse.ne {r r' : HttpResponse} {bs bs' : Bytes} (h : ProxyResponse r bs)
    (h' : ProxyResponse r' bs') (hstatus : r.status ≠ r'.status) : bs ≠ bs' := by
  rintro rfl
  have htext : r.text = r'.text := utf8Bytes_injective (h.bytes.trans h'.bytes.symm)
  have hread := r.read
  rw [htext, r'.read] at hread
  exact hstatus (congrArg Prod.fst (Option.some.inj hread)).symm

/-! ## What a session answers -/

/-- What is taken for the host is part of a word. -/
theorem redirectHost_chars (r : Str) :
    ∀ c ∈ redirectHost ((requestTarget r).getD []), isWhitespace c = false := by
  have hword : ∀ c ∈ (requestTarget r).getD [], isWhitespace c = false := by
    intro c hc
    cases htarget : requestTarget r with
    | none =>
      rw [htarget] at hc
      cases hc
    | some w =>
      rw [htarget] at hc
      exact (mem_splitWhitespace (List.mem_of_getElem? htarget)).2 c hc
  intro c hc
  have hmem := (List.takeWhile_prefix _).subset hc
  split at hmem
  · exact hword c (List.mem_of_mem_drop hmem)
  · exact hword c hmem

/-- The request asks for no host that could not stand in a field. -/
def ClientRequest.Plain (request : ClientRequest) : Prop :=
  ∀ host, request = .plain host → ∀ c ∈ host, isWhitespace c = false

theorem clientRequest_plain (cfg : ProxyServerConfig) (first : Bytes) :
    (clientRequest cfg first).Plain := by
  intro host hhost
  unfold clientRequest at hhost
  dsimp only at hhost
  split at hhost
  · cases hhost
  · split at hhost
    · cases hhost
      exact redirectHost_chars _
    · cases hhost

/-- The answer to a request is a response, and the page only if the request is neither for
a tunnel nor for a resource. -/
theorem ClientRequest.answer_response {request : ClientRequest} {bs : Bytes}
    (hplain : request.Plain) (h : request.answer = some bs) :
    ∃ r, ProxyResponse r bs ∧ (r.status = notFound.status → request = .other) := by
  cases request with
  | connect target =>
    cases target with
    | none =>
      have hbs := Option.some.inj h
      rw [← hbs]
      exact ⟨_, .badRequest, fun h => absurd h (by decide)⟩
    | some target =>
      rw [ClientRequest.answer] at h
      split at h
      · have hbs := Option.some.inj h
        rw [← hbs]
        exact ⟨_, .forbidden, fun h => absurd h (by decide)⟩
      · cases h
  | plain host =>
    have hbs := Option.some.inj h
    rw [← hbs]
    have hstatus : "HTTP/1.1 301 Moved Permanently".toList ≠ notFound.status := by decide
    exact ⟨_, .movedTo (hplain host rfl), fun h => absurd h hstatus⟩
  | other =>
    have hbs := Option.some.inj h
    rw [← hbs]
    exact ⟨_, .notFound, fun _ => rfl⟩

/-- The reply is part of one of the proxy's responses, which a client reads as it is meant,
and whose body is as long as the fields say, unless it is the page for scanners. -/
def Event.WellAnswered : Event → Prop
  | .replied taken => ∃ r, ProxyResponse r (utf8Bytes r.text) ∧ taken <+: utf8Bytes r.text ∧
      readResponse r.text = some (r.status, r.fields.map fun f => (f.name, f.value), r.body) ∧
      (r.Framed ∨ r = notFound)
  | _ => True

theorem ProxyResponse.wellAnswered {r : HttpResponse} {bs taken : Bytes} (h : ProxyResponse r bs)
    (part : taken <+: bs) : (Event.replied taken).WellAnswered := by
  obtain rfl := h.bytes
  exact ⟨r, h, part, r.read, h.framed⟩

/-- A reply leads to the end of the session, unless it is the whole response to a tunnel;
and it is of the page only if the request is neither for a tunnel nor for a resource. -/
theorem Session.Step.replies {s : Session} {p q : Phase} {taken : Bytes}
    (h : s.Step p (.replied taken) q) (hplain : s.request.Plain) :
    taken = http200Established ∨ ∃ r response, ProxyResponse r response ∧ taken <+: response ∧
      (r.status = notFound.status → s.request = .other) ∧ q = .closed response taken := by
  cases h with
  | answer unserved part =>
    obtain ⟨r, hr, hother⟩ := ClientRequest.answer_response hplain unserved
    exact Or.inr ⟨r, _, hr, part, hother, rfl⟩
  | refuse _ part =>
    exact Or.inr ⟨_, _, .forbidden, part, fun h => absurd h (by decide), rfl⟩
  | giveUp part => exact Or.inr ⟨_, _, .badGateway, part, fun h => absurd h (by decide), rfl⟩
  | unreachable part => exact Or.inr ⟨_, _, .badGateway, part, fun h => absurd h (by decide), rfl⟩
  | establish => exact Or.inl rfl
  | abandon part => exact Or.inr ⟨_, _, .established, part, fun h => absurd h (by decide), rfl⟩

theorem Session.Step.wellAnswered {s : Session} {p q : Phase} {e : Event}
    (hplain : s.request.Plain) (h : s.Step p e q) : e.WellAnswered := by
  cases e with
  | replied taken =>
    rcases h.replies hplain with rfl | ⟨r, response, hr, part, -, -⟩
    · exact ProxyResponse.established.wellAnswered (List.prefix_refl _)
    · exact hr.wellAnswered part
  | _ => exact True.intro

/-! ### How often, and how much of it -/

/-- What the client is told by the event. -/
def Event.told : Event → Option Bytes
  | .replied taken => some taken
  | _ => none

theorem Event.told_of_serving {e : Event} {addr : SocketAddr} (h : e.Serving addr) :
    e.told = none := by
  cases e with
  | replied => exact False.elim h
  | _ => rfl

/-- Finding the address of the target tells the client nothing, and copies nothing. -/
theorem Event.told_of_early {e : Event} (h : e.stage < 3) :
    e.told = none ∧ ∀ rest, e ≠ .tunnel rest := by
  cases e with
  | resolve | query | datagram | lookupHost => exact ⟨rfl, fun _ h => by cases h⟩
  | _ => exact absurd h (by simp [Event.stage])

theorem Event.told_eq_some {e : Event} {taken : Bytes} (h : e.told = some taken) :
    e = .replied taken := by
  cases e with
  | replied => rw [Option.some.inj h]
  | _ => cases h

/-- There is one reply at most among events in the order of a session. -/
theorem told_of_ordered {es : List Event} (h : es.Pairwise Event.Before) :
    (es.filterMap Event.told).length ≤ 1 := by
  have hnone : (es.filterMap Event.told).Pairwise fun _ _ => False := by
    refine h.filterMap _ fun d e hbefore _ hd _ he => ?_
    rw [Event.told_eq_some hd, Event.told_eq_some he] at hbefore
    rcases hbefore with hlt | ⟨-, hrep⟩
    · exact Nat.lt_irrefl _ hlt
    · exact hrep rfl
  generalize es.filterMap Event.told = tolds at hnone ⊢
  rcases tolds with _ | ⟨a, _ | ⟨b, tolds⟩⟩
  · exact Nat.zero_le 1
  · exact Nat.le_refl 1
  · exact False.elim ((List.pairwise_cons.mp hnone).1 b List.mem_cons_self)

/-- The reply is the whole of a response. -/
def Event.WholeReply : Event → Prop
  | .replied taken => ∃ r, ProxyResponse r taken
  | _ => True

theorem Event.WholeReply.of_told {e : Event} (h : e.told = none) : e.WholeReply := by
  cases e with
  | replied => cases h
  | _ => trivial

/-- In a session that is not given up the reply is whole, but for the page. -/
theorem reply_of_ended {s : Session} {q : Phase} {es : List Event} {taken : Bytes}
    (h : Leads s.Step .fresh es q) (hplain : s.request.Plain) (hend : q.Ended)
    (hmem : .replied taken ∈ es) : (∃ r, ProxyResponse r taken) ∨ s.request = .other := by
  obtain ⟨before, behind, rfl⟩ := List.append_of_mem hmem
  obtain ⟨p, -, hbehind⟩ := h.split
  cases hbehind with
  | cons first rest =>
    rcases first.replies hplain with rfl | ⟨r, response, hr, part, hother, rfl⟩
    · exact Or.inl ⟨_, .established⟩
    · -- nothing follows in a session that is closed
      cases rest with
      | cons next => cases next
      | nil =>
        rcases hend with rfl | hpage
        · exact Or.inl ⟨r, hr⟩
        · refine Or.inr (hother ?_)
          by_contra hstatus
          exact hr.ne .notFound hstatus hpage

section
variable {cfg : ProxyServerConfig} {net : Network} {stream : Bytes}

theorem reply_whole {r : HttpResponse} {bs : Bytes} (hclient : (Socket.fresh net.client).Accepting)
    (h : ProxyResponse r bs) : (reply net bs).Always Event.WholeReply := by
  have hall := (Socket.writeAll_delivers (.fresh net.client) bs).fresh.2
    (Socket.writeAll_of_accepting hclient bs)
  refine Always.bind (Always.emit ?_) fun _ _ => Always.ofExcept _
  rw [hall]
  exact ⟨r, h⟩

theorem handleConnectTunnel_whole (hclient : (Socket.fresh net.client).Accepting)
    (request : Str) : (handleConnectTunnel cfg net stream request).Always Event.WholeReply := by
  unfold handleConnectTunnel
  cases parseConnectTarget request with
  | none => exact reply_whole hclient .badRequest
  | some target =>
    obtain ⟨rawHost, port⟩ := target
    dsimp only
    split
    · exact reply_whole hclient .forbidden
    · have hfinding : (remoteAddress cfg net (resolvedHost cfg rawHost) port).Always
          Event.WholeReply := fun e he =>
        .of_told (Event.told_of_early (remoteAddress_early e he)).1
      refine Always.bind hfinding fun found _ => ?_
      cases found with
      | none => exact reply_whole hclient .badGateway
      | some ip =>
        dsimp only
        split
        · exact reply_whole hclient .forbidden
        · refine Always.bind (Always.emit trivial) fun _ _ => ?_
          split
          · exact reply_whole hclient .badGateway
          · refine Always.bind (reply_whole hclient .established) fun _ _ e he => ?_
            exact .of_told (Event.told_of_serving (serveTunnel_events cfg net stream _ _ _ e he))

/-- A client that always takes something is told the whole of a response. -/
theorem handleClient_whole (hclient : (Socket.fresh net.client).Accepting) :
    (handleClient cfg net stream).Always Event.WholeReply := by
  unfold handleClient
  cases net.firstRead with
  | none => exact Always.ofExcept _
  | some want =>
    dsimp only
    split
    · exact Always.pure _
    · split
      · exact handleConnectTunnel_whole hclient _
      · split
        · obtain ⟨w, heq, hdel, hok⟩ := handlePlaintextRedirect_eq net
            (fromUtf8Lossy (stream.take (readLength clientBufSize stream want)))
          rw [heq, hdel.fresh.2 (hok hclient)]
          intro e he
          rw [List.mem_singleton.mp he]
          exact ⟨_, .movedTo (redirectHost_chars _)⟩
        · have hall := (Socket.writeAll_delivers (.fresh net.client)
            benignNginx404Response).fresh.2 (Socket.writeAll_of_accepting hclient _)
          rw [handleActiveProbeDefense, hall]
          exact Always.emit ⟨_, .notFound⟩

end

/-- **What a client is told** on a connection is a response that nothing the client has
sent can add a line to, and there is one at most.  It is told a part of it only if a write
to it fails or takes nothing; and then the connection is given up, unless it is the page
for scanners that is told to one.  Only that page is not framed: seven of the bytes that
its fields announce never come. -/
theorem handleClient_replies (cfg : ProxyServerConfig) (net : Network) (stream : Bytes) :
    Always Event.WellAnswered (handleClient cfg net stream) ∧
      ((handleClient cfg net stream).events.filterMap Event.told).length ≤ 1 ∧
      ((Socket.fresh net.client).Accepting →
        Always Event.WholeReply (handleClient cfg net stream)) ∧
      ((handleClient cfg net stream).result = .ok () →
        ∀ taken, .replied taken ∈ (handleClient cfg net stream).events →
          (∃ r, ProxyResponse r taken) ∨
            clientRequest cfg (stream.take (firstReadLength net stream)) = .other) ∧
      notFound.declared = some ((utf8Bytes notFound.body).length + 7) := by
  obtain ⟨t, hlead, hok, -⟩ := handleClient_follows cfg net stream
  have hplain : (sessionOf cfg net stream).request.Plain := clientRequest_plain _ _
  refine ⟨(hlead.invariant (I := fun _ => True) (fun _ _ _ hstep _ => ⟨?_, trivial⟩) trivial).1,
    told_of_ordered (hlead.ordered (fun _ _ _ h => h.stage_le) fun _ _ _ h => h.lt_stage).1,
    handleClient_whole, fun hresult _ => reply_of_ended hlead hplain (hok () hresult), ?_⟩
  · exact hstep.wellAnswered hplain
  · decide +kernel

/-! ## Which response it is -/

/-- The response to a tunnel to what has been found. -/
def foundAnswer (cfg : ProxyServerConfig) (net : Network) (port : Nat) : Option IpAddr → Bytes
  | none => http502BadGateway
  | some ip =>
    if ip.isLoopback || ip.isUnspecified then http403Forbidden
    else if net.connects cfg ⟨ip, port⟩ then http200Established else http502BadGateway

/-- The response to a request. -/
def ClientRequest.response (cfg : ProxyServerConfig) (net : Network) (request : ClientRequest) :
    Bytes :=
  request.answer.getD <|
    match request with
    | .connect (some (rawHost, port)) =>
      foundAnswer cfg net port (targetAddress cfg net (resolvedHost cfg rawHost) port)
    | _ => []

/-- A connection that ends of its own accord and on which the client is told one response,
and that copies exactly when it is the one for a tunnel. -/
structure Act.Answers (x : Act Unit) (response : Bytes) : Prop where
  ends : x.result = .ok ()
  told : x.events.filterMap Event.told = [response]
  copies : (∃ rest, .tunnel rest ∈ x.events) ↔ response = http200Established

namespace Act.Answers
variable {net : Network} {bs : Bytes}

/-- One reply that is taken whole. -/
theorem written {x : Act Unit} {w : Written} (hx : x = ⟨[.replied w.2.received], .ok ()⟩)
    (hdel : Delivers (.fresh net.client) bs w) (hok : w.1 = .ok ()) (h : bs ≠ http200Established) :
    x.Answers bs := by
  subst hx
  refine ⟨rfl, ?_, iff_of_false ?_ h⟩
  · rw [hdel.fresh.2 hok]
    rfl
  · rintro ⟨rest, hmem⟩
    cases List.mem_singleton.mp hmem

theorem reply (hclient : (Socket.fresh net.client).Accepting) (h : bs ≠ http200Established) :
    (GreenTunnel.reply net bs).Answers bs := by
  have hok := Socket.writeAll_of_accepting hclient bs
  refine written ?_ (Socket.writeAll_delivers _ bs) hok h
  rw [GreenTunnel.reply, hok]
  rfl

/-- An answer behind events that are neither replies nor copying. -/
theorem behind {α : Type} {x : Act α} {f : α → Act Unit} {a : α} (hx : x.result = .ok a)
    (hquiet : ∀ e ∈ x.events, e.told = none ∧ ∀ rest, e ≠ .tunnel rest) (h : (f a).Answers bs) :
    (x >>= f).Answers bs := by
  have hnone : x.events.filterMap Event.told = [] :=
    List.filterMap_eq_nil_iff.mpr fun e he => (hquiet e he).1
  rw [bind_of_ok hx]
  refine ⟨h.ends, ?_, ?_⟩
  · show (x.events ++ (f a).events).filterMap Event.told = [bs]
    rw [List.filterMap_append, hnone, h.told, List.nil_append]
  · rw [← h.copies]
    refine exists_congr fun rest => List.mem_append.trans (or_iff_right fun hmem => ?_)
    exact (hquiet _ hmem).2 rest rfl

/-- A tunnel: the reply, and what is served behind it. -/
theorem opened {serve : Act Unit} {addr : SocketAddr}
    (hclient : (Socket.fresh net.client).Accepting) (hserving : serve.Always (Event.Serving addr))
    (hserve : serve.result = .ok () ∧ ∃ rest, .tunnel rest ∈ serve.events) :
    (GreenTunnel.reply net http200Established >>= fun _ => serve).Answers http200Established := by
  obtain ⟨hend, rest, hmem⟩ := hserve
  have hok := Socket.writeAll_of_accepting hclient http200Established
  have hevents : (GreenTunnel.reply net http200Established).events =
      [.replied http200Established] := by
    have hall := (Socket.writeAll_delivers (.fresh net.client) http200Established).fresh.2 hok
    rw [GreenTunnel.reply, emit_bind_events, hok, hall]
    rfl
  have hsilent : serve.events.filterMap Event.told = [] :=
    List.filterMap_eq_nil_iff.mpr fun e he => Event.told_of_serving (hserving e he)
  rw [bind_of_ok (reply_ok hclient http200Established), hevents]
  refine ⟨hend, ?_, iff_of_true ⟨rest, List.mem_cons_of_mem _ hmem⟩ rfl⟩
  show (Event.replied http200Established :: serve.events).filterMap Event.told = _
  rw [List.filterMap_cons_some (show Event.told (.replied _) = some _ from rfl), hsilent]

end Act.Answers

section
variable {cfg : ProxyServerConfig} {net : Network} {stream : Bytes}

theorem handleConnectTunnel_answers (works : net.Works) (request : Str) :
    (handleConnectTunnel cfg net stream request).Answers
      ((ClientRequest.connect (parseConnectTarget request)).response cfg net) := by
  have hreply : ∀ bs, bs ≠ http200Established → (reply net bs).Answers bs :=
    fun _ h => .reply works.client h
  unfold handleConnectTunnel
  cases parseConnectTarget request with
  | none => exact hreply _ (by decide)
  | some target =>
    obtain ⟨rawHost, port⟩ := target
    dsimp only
    cases hrefused : isRefusedHost rawHost with
    | true =>
      rw [ClientRequest.response, ClientRequest.answer, hrefused]
      exact hreply _ (by decide)
    | false =>
      rw [ClientRequest.response, ClientRequest.answer, hrefused, if_neg Bool.false_ne_true,
        if_neg Bool.false_ne_true, Option.getD_none]
      refine .behind remoteAddress_finds (fun e he => ?_) ?_
      · exact Event.told_of_early (remoteAddress_early e he)
      · cases targetAddress cfg net (resolvedHost cfg rawHost) port with
        | none => exact hreply _ (by decide)
        | some ip =>
          dsimp only [foundAnswer]
          cases ip.isLoopback || ip.isUnspecified with
          | true => exact hreply _ (by decide)
          | false =>
            refine .behind rfl (fun e he => ?_) ?_
            · rw [List.mem_singleton.mp he]
              exact ⟨rfl, fun _ h => by cases h⟩
            · cases net.connects cfg ⟨ip, port⟩ with
              | false => exact hreply _ (by decide)
              | true =>
                exact .opened works.client (serveTunnel_events cfg net stream _ _ ⟨ip, port⟩)
                  (serveTunnel_ok works)

end

end GreenTunnel
