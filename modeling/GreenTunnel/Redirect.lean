import GreenTunnel.HeaderRewrite
import GreenTunnel.Tunnel

/-! # Where a plaintext request is redirected (`proxy.rs`)

A GET or a POST asks for a resource by its URI, or by a path and a Host header, and is
redirected (`handleClient_redirects`).  The redirect sends the client to what stands in
the target behind a `http://`, up to the next slash (`redirectHost`).  That is the same
resource for a URI that ends there, and for no other request: the path is lost, a scheme
in capitals is taken for the host, and in front of a path there is no host at all
(`redirectsTo_iff`).
-/
namespace GreenTunnel
open Trace

/-- A URI of the scheme `http` without a port: what it consists of behind the scheme. -/
structure HttpUri where
  authority : Str
  path : Str
  query : Str
  authority_chars : ∀ c ∈ authority, isWhitespace c = false ∧ c ≠ '/' ∧ c ≠ '?' ∧ c ≠ '#'
  no_port : ∀ host port, authority = host ++ ':' :: port → ∃ c ∈ port, c.isDigit = false
  path_chars : ∀ c ∈ path, isWhitespace c = false ∧ c ≠ '?' ∧ c ≠ '#'
  path_rooted : path = [] ∨ path.head? = some '/'
  query_chars : ∀ c ∈ query, isWhitespace c = false ∧ c ≠ '#'
  query_marked : query = [] ∨ query.head? = some '?'

/-- The URI behind its scheme. -/
def HttpUri.hierPart (u : HttpUri) : Str := u.authority ++ (u.path ++ u.query)

/-- The target of a request: the second word of its first line. -/
def requestTarget (r : Str) : Option Str := (firstWords r)[1]?

/-- The two forms in which a request asks for a resource. -/
inductive RequestsFor (r : Str) (u : HttpUri) : Prop
  | absoluteForm {scheme : Str} (hscheme : eqIgnoreAsciiCase scheme "http".toList = true)
      (htarget : requestTarget r = some (scheme ++ "://".toList ++ u.hierPart)) : RequestsFor r u
  | originForm {line name val : Str} (hline : line ∈ headerLines r)
      (hfield : splitOnce ':' line = some (name, val))
      (hname : eqIgnoreAsciiCase (trim name) "host".toList = true)
      (hval : trim val = u.authority) (hpath : u.path ≠ [])
      (htarget : requestTarget r = some (u.path ++ u.query)) : RequestsFor r u

/-- A request that is answered with a redirect. -/
structure PlaintextRequest (r : Str) (u : HttpUri) : Prop where
  method : "GET ".toList <+: r ∨ "POST ".toList <+: r
  asks : RequestsFor r u

/-- The response that redirects to `location`. -/
def redirectResponse (location : Str) : Bytes :=
  utf8Bytes ("HTTP/1.1 301 Moved Permanently\r\nLocation: ".toList ++ location) ++ http301Suffix

/-- Whatever the sockets do, a response that is written redirects to the resource under
`https`. -/
def RedirectsTo (r : Str) (u : HttpUri) : Prop :=
  ∀ net, (handlePlaintextRedirect net r).result = .ok () →
    (handlePlaintextRedirect net r).events =
      [.replied (redirectResponse ("https://".toList ++ u.hierPart))]

/-! ## The dispatch -/

/-- A request that starts with a word is dispatched by that word. -/
theorem isHttpConnect_preprocess_of_method {method r : Str} (h : method ++ [' '] <+: r)
    (hne : method ≠ []) (hword : ∀ c ∈ method, isWhitespace c = false)
    (httpSpace mixHeaderCase : Bool) :
    isHttpConnect (preprocessHttpRequest r httpSpace mixHeaderCase) =
      eqIgnoreAsciiCase method "CONNECT".toList := by
  obtain ⟨rest, rfl⟩ := h
  have hline : '\n' ∉ method := fun hmem => absurd (hword _ hmem) (by decide)
  have hgap : ∀ c, (' ' :: rest).head? = some c → isWhitespace c = true := by
    rintro c ⟨⟩
    decide
  obtain ⟨more, hwords⟩ := firstWords_append hline hgap
  rw [splitWhitespace_word hword hne] at hwords
  rw [List.append_assoc]
  exact isHttpConnect_preprocess hwords httpSpace mixHeaderCase

/-- **A GET or a POST is redirected**, whatever the options. -/
theorem handleClient_redirects {cfg : ProxyServerConfig} {net : Network} {stream : Bytes}
    {want : Nat} {r : Str} {u : HttpUri} (hread : net.firstRead = some want)
    (htext : fromUtf8Lossy (stream.take (readLength clientBufSize stream want)) = r)
    (h : PlaintextRequest r u) : handleClient cfg net stream = handlePlaintextRedirect net r := by
  have hconnect : isHttpConnect (preprocessHttpRequest r cfg.httpSpace cfg.mixHeaderCase) =
      false := by
    rcases h.method with hget | hpost
    · exact @isHttpConnect_preprocess_of_method "GET".toList _ hget (by decide)
        (List.all_iff_forall_prop.mp (by decide)) _ _
    · exact @isHttpConnect_preprocess_of_method "POST".toList _ hpost (by decide)
        (List.all_iff_forall_prop.mp (by decide)) _ _
  have hne : readLength clientBufSize stream want ≠ 0 := by
    intro hzero
    rw [hzero] at htext
    obtain rfl : [] = r := htext
    rcases h.method with hget | hpost
    · exact absurd (List.prefix_nil.mp hget) (by decide)
    · exact absurd (List.prefix_nil.mp hpost) (by decide)
  unfold handleClient
  rw [hread]
  dsimp only
  rw [if_neg hne, htext, hconnect, if_neg Bool.false_ne_true, if_pos h.method]

/-! ## The response -/

/-- What the redirect takes for the host. -/
def redirectHost (targetPath : Str) : Str :=
  (if "http://".toList <+: targetPath then targetPath.drop "http://".length
    else targetPath).takeWhile (· ≠ '/')

theorem redirect_slices (host : Str) :
    [http301Prefix, utf8Bytes host, http301Suffix].flatten =
      redirectResponse ("https://".toList ++ host) := by
  have hstart : http301Prefix =
      utf8Bytes ("HTTP/1.1 301 Moved Permanently\r\nLocation: ".toList ++ "https://".toList) := by
    rw [http301Prefix]
    decide +kernel
  simp only [hstart, redirectResponse, utf8Bytes, List.flatMap_append, List.flatten_cons,
    List.flatten_nil, List.append_nil, List.append_assoc]

/-- **A redirect** writes one response, to what it takes for the host. -/
theorem handlePlaintextRedirect_eq (net : Network) (r : Str) :
    ∃ w, handlePlaintextRedirect net r = ⟨[.replied w.2.received], (Act.written w.1).result⟩ ∧
      Delivers (Socket.fresh net.client)
        (redirectResponse ("https://".toList ++ redirectHost ((requestTarget r).getD []))) w ∧
      ((Socket.fresh net.client).Accepting → w.1 = .ok ()) := by
  have hact : handlePlaintextRedirect net r =
      let w := writeAllVectored (Socket.fresh net.client)
        [http301Prefix, utf8Bytes (redirectHost ((requestTarget r).getD [])), http301Suffix]
      emit (.replied w.2.received) >>= fun _ => Act.written w.1 := by
    unfold handlePlaintextRedirect redirectHost requestTarget firstWords
    simp only [List.head?_eq_getElem?, splitOn_zero, Option.getD_some]
  have hdel := writeAllVectored_delivers (Socket.fresh net.client)
    [http301Prefix, utf8Bytes (redirectHost ((requestTarget r).getD [])), http301Suffix]
  rw [redirect_slices] at hdel
  exact ⟨_, hact, hdel, fun h => writeAllVectored_of_accepting h _⟩

theorem Act.written_result {r : Except WriteError Unit} :
    (Act.written r).result = .ok () ↔ r = .ok () := by
  cases r with
  | ok => exact iff_of_true rfl rfl
  | error e => cases e <;> exact iff_of_false (by intro h; cases h) (by intro h; cases h)

theorem redirectResponse_injective {a b : Str} (h : redirectResponse a = redirectResponse b) :
    a = b := by
  have := utf8Bytes_injective (List.append_cancel_right h)
  exact List.append_cancel_left this

/-- The response redirects to the resource exactly when what it takes for the host is the
whole of the URI. -/
theorem redirectsTo_iff_host {r : Str} {u : HttpUri} :
    RedirectsTo r u ↔ redirectHost ((requestTarget r).getD []) = u.hierPart := by
  constructor
  · intro h
    let net := Network.answering ⟨.v4 ⟨0, 0, 0, 0⟩, 0⟩
    obtain ⟨w, heq, hdel, hok⟩ := handlePlaintextRedirect_eq net r
    have hw : w.1 = .ok () := hok fun _ => ⟨65535, rfl⟩
    have hevents := h net
    rw [heq] at hevents
    have hsent := hevents (Act.written_result.mpr hw)
    rw [hdel.ok hw, List.cons.injEq, Event.replied.injEq] at hsent
    exact List.append_cancel_left (redirectResponse_injective hsent.1)
  · intro h net hresult
    obtain ⟨w, heq, hdel, -⟩ := handlePlaintextRedirect_eq net r
    rw [heq] at hresult ⊢
    rw [hdel.ok (Act.written_result.mp hresult), h]
    rfl

/-! ## The location -/

theorem HttpUri.slash_iff (u : HttpUri) : '/' ∈ u.hierPart ↔ '/' ∈ u.path ++ u.query := by
  have hauth : '/' ∉ u.authority := fun h => (u.authority_chars _ h).2.1 rfl
  rw [hierPart, List.mem_append]
  exact ⟨fun h => h.resolve_left hauth, Or.inr⟩

/-- No URI without a port is a text and a colon. -/
theorem HttpUri.ne_append_colon (u : HttpUri) {s : Str} (hs : '?' ∉ s) (hslash : '/' ∉ s) :
    u.hierPart ≠ s ++ [':'] := by
  intro h
  have hsub : ∀ c ∈ u.path ++ u.query, c ∈ s ++ [':'] := fun c hc => by
    rw [← h]
    exact List.mem_append_right _ hc
  have hpath : u.path = [] := by
    rcases u.path_rooted with hnil | hhead
    · exact hnil
    · have hmem := hsub '/' (List.mem_append_left _ (List.mem_of_head? hhead))
      exact absurd hmem (by simp [hslash])
  have hquery : u.query = [] := by
    rcases u.query_marked with hnil | hhead
    · exact hnil
    · have hmem := hsub '?' (List.mem_append_right _ (List.mem_of_head? hhead))
      exact absurd hmem (by simp [hs])
  rw [hierPart, hpath, hquery, List.append_nil, List.append_nil] at h
  obtain ⟨c, hc, -⟩ := u.no_port s [] h
  exact List.not_mem_nil hc

/-- Behind `http://` the host ends at the first slash. -/
theorem redirectHost_http (s : Str) :
    redirectHost ("http://".toList ++ s) = s.takeWhile (· ≠ '/') := by
  rw [redirectHost, if_pos (List.prefix_append _ _)]
  rfl

theorem redirectHost_other {s : Str} (h : ¬ "http://".toList <+: s) :
    redirectHost s = s.takeWhile (· ≠ '/') := by
  rw [redirectHost, if_neg h]

/-- A scheme in capitals is taken for the host, together with its colon. -/
theorem redirectHost_scheme {scheme : Str} (hs : eqIgnoreAsciiCase scheme "http".toList = true)
    (hne : scheme ≠ "http".toList) (s : Str) :
    redirectHost (scheme ++ "://".toList ++ s) = scheme ++ [':'] := by
  have hother : ¬ "http://".toList <+: scheme ++ "://".toList ++ s := by
    rintro ⟨t, ht⟩
    rw [show "http://".toList = "http".toList ++ "://".toList by decide, List.append_assoc,
      List.append_assoc] at ht
    exact hne (List.append_inj ht (eqIgnoreAsciiCase_length hs).symm).1.symm
  have hslash : ∀ c ∈ scheme ++ [':'], decide (c ≠ '/') = true := by
    intro c hc
    rcases List.mem_append.mp hc with hc | hc
    · refine decide_eq_true fun hcs => ?_
      rw [hcs] at hc
      exact absurd ((mem_iff_of_eqIgnoreAsciiCase hs (by decide)).mp hc) (by decide)
    · rw [List.mem_singleton.mp hc]
      decide
  rw [redirectHost_other hother, show "://".toList = [':'] ++ ['/', '/'] by decide,
    ← List.append_assoc, List.append_assoc, List.takeWhile_append_of_pos hslash,
    List.cons_append, List.takeWhile_cons_of_neg (by decide), List.append_nil]

/-- In front of a path there is no host. -/
theorem redirectHost_path {s rest : Str} (h : s = '/' :: rest) : redirectHost s = [] := by
  rw [redirectHost_other, h, List.takeWhile_cons_of_neg (by decide)]
  rintro ⟨t, ht⟩
  rw [h] at ht
  cases ht

theorem HttpUri.hierPart_ne_nil {u : HttpUri} (h : u.path ≠ []) : u.hierPart ≠ [] :=
  List.append_ne_nil_of_right_ne_nil _ (List.append_ne_nil_of_left_ne_nil h _)

theorem eq_of_append_hierPart {scheme s : Str}
    (hs : eqIgnoreAsciiCase scheme "http".toList = true)
    (h : scheme ++ "://".toList ++ s = "http://".toList ++ s) : scheme = "http".toList := by
  rw [show "http://".toList = "http".toList ++ "://".toList by decide, List.append_assoc,
    List.append_assoc] at h
  exact (List.append_inj h (eqIgnoreAsciiCase_length hs)).1

/-- A URI is redirected as a whole if its scheme is written `http` and no slash follows
the authority. -/
theorem redirectHost_absolute_iff {scheme : Str} (u : HttpUri)
    (hs : eqIgnoreAsciiCase scheme "http".toList = true) :
    redirectHost (scheme ++ "://".toList ++ u.hierPart) = u.hierPart ↔
      scheme ++ "://".toList ++ u.hierPart = "http://".toList ++ u.hierPart ∧
        '/' ∉ u.path ++ u.query := by
  by_cases hlower : scheme = "http".toList
  · have hhttp : scheme ++ "://".toList = "http://".toList := by
      rw [hlower]
      decide
    rw [hhttp, redirectHost_http, takeWhile_ne_eq_self_iff, u.slash_iff]
    exact ⟨fun hslash => ⟨rfl, hslash⟩, And.right⟩
  · rw [redirectHost_scheme hs hlower]
    have hmark : ∀ c : Char, c.isAlpha = false → c ∉ "http".toList → c ∉ scheme :=
      fun c hc hn h => hn ((mem_iff_of_eqIgnoreAsciiCase hs hc).mp h)
    refine iff_of_false (fun heq => ?_) fun hall => hlower (eq_of_append_hierPart hs hall.1)
    exact u.ne_append_colon (hmark '?' (by decide) (by decide))
      (hmark '/' (by decide) (by decide)) heq.symm

/-- **When the redirect points at the same resource**: when the request names it by a URI
whose scheme is written `http` and which has no slash behind the authority. -/
theorem redirectsTo_iff (r : Str) (u : HttpUri) (h : PlaintextRequest r u) :
    RedirectsTo r u ↔
      requestTarget r = some ("http://".toList ++ u.hierPart) ∧ '/' ∉ u.path ++ u.query := by
  rw [redirectsTo_iff_host]
  cases h.asks with
  | absoluteForm hscheme htarget =>
    rw [htarget, Option.getD_some, Option.some.injEq]
    exact redirectHost_absolute_iff u hscheme
  | originForm _ _ _ _ hpath htarget =>
    rw [htarget, Option.getD_some, Option.some.injEq]
    obtain ⟨rest, hrest⟩ : ∃ rest, u.path = '/' :: rest := by
      rcases u.path_rooted with hnil | hhead
      · exact absurd hnil hpath
      · exact ⟨_, (List.cons_head?_tail hhead).symm⟩
    have hslash : u.path ++ u.query = '/' :: (rest ++ u.query) := by
      rw [hrest, List.cons_append]
    rw [redirectHost_path hslash]
    refine iff_of_false (fun heq => HttpUri.hierPart_ne_nil hpath heq.symm) fun hall => ?_
    have heq := hall.1
    rw [hslash] at heq
    cases heq

/-- The authority `a.b` with a path. -/
def uriAt (path : Str) (hchars : ∀ c ∈ path, isWhitespace c = false ∧ c ≠ '?' ∧ c ≠ '#')
    (hrooted : path = [] ∨ path.head? = some '/') : HttpUri where
  authority := "a.b".toList
  path := path
  query := []
  authority_chars := List.all_iff_forall_prop.mp (by decide +kernel)
  no_port host port h := by
    have hcolon : ':' ∈ "a.b".toList := h ▸ List.mem_append_right host List.mem_cons_self
    exact absurd hcolon (by decide)
  path_chars := hchars
  path_rooted := hrooted
  query_chars := by simp
  query_marked := Or.inl rfl

theorem redirectsTo_example :
    RedirectsTo "GET http://a.b HTTP/1.1\r\n\r\n".toList (uriAt [] (by simp) (Or.inl rfl)) ↔
      requestTarget "GET http://a.b HTTP/1.1\r\n\r\n".toList =
        some ("http://".toList ++ "a.b".toList) ∧ '/' ∉ ([] : Str) :=
  redirectsTo_iff "GET http://a.b HTTP/1.1\r\n\r\n".toList (uriAt [] (by simp) (Or.inl rfl))
    ⟨Or.inl (by decide +kernel),
      @RequestsFor.absoluteForm _ _ "http".toList (by decide) (by decide +kernel)⟩

/-- A request for `/x` on `a.b` is redirected to `https://`. -/
theorem redirectsTo_fails : ¬ ∀ r u, PlaintextRequest r u → RedirectsTo r u := by
  intro h
  have hasks : PlaintextRequest "GET /x HTTP/1.1\r\nHost: a.b\r\n\r\n".toList
      (uriAt "/x".toList (List.all_iff_forall_prop.mp (by decide +kernel)) (Or.inr rfl)) :=
    ⟨Or.inl (by decide +kernel),
      @RequestsFor.originForm _ _ "Host: a.b".toList "Host".toList " a.b".toList (by decide +kernel)
        (by decide +kernel) (by decide) (by decide +kernel) (by decide) (by decide +kernel)⟩
  have hhost := redirectsTo_iff_host.mp (h _ _ hasks)
  exact absurd hhost (by decide +kernel)

end GreenTunnel
