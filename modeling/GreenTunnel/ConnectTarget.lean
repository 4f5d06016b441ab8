import GreenTunnel.Tunnel

/-! # A CONNECT request that arrives in parts (`proxy.rs`, `utils.rs`)

The proxy parses whatever its first read yields as a whole request.  A
`ConnectRequest` is a well-formed header block, and `parse_prefix` says what
target the proxy takes from its first `n` bytes: the part of the target word
among them, with port 443 when no colon has arrived.

`HarmlessCut` lists the cuts after which the proxy refuses the connection or
still goes for the host and port of the complete request; after every other cut
it goes for another one (`target_of_cut_iff`).
-/
namespace GreenTunnel
open Trace

/-- A visible ASCII character. -/
def isVisible (c : Char) : Bool := 0x21 ≤ c.toNat && c.toNat ≤ 0x7E

/-- What stands for the host in the target of a CONNECT: a registered name or an
IPv4 address, or an IPv6 address in brackets. -/
inductive HostForm : Str → Prop
  | name {host : Str} (hne : host ≠ [])
      (hc : ∀ c ∈ host, isVisible c = true ∧ c ≠ ':' ∧ c ≠ '[') : HostForm host
  | bracketed {addr : Str} {ip : Ipv6Addr} (h : parseIpv6Addr addr = some ip) :
      HostForm ('[' :: addr ++ [']'])

/-- A well-formed header block of a CONNECT request. -/
structure ConnectRequest where
  host : Str
  port : Str
  version : Str
  fields : List Bytes
  host_form : HostForm host
  port_ne : port ≠ []
  port_digit : ∀ c ∈ port, c.isDigit = true
  port_lt : decimal port < 65536
  version_visible : ∀ c ∈ version, isVisible c = true
  fields_line : ∀ f ∈ fields, f ≠ [] ∧ 10 ∉ f

namespace ConnectRequest

/-- The host that the request names, in brackets or without them. -/
def Names (req : ConnectRequest) (name : Str) : Prop :=
  name = req.host ∨ req.host = '[' :: name ++ [']']

def target (req : ConnectRequest) : Str := req.host ++ ':' :: req.port

def requestLine (req : ConnectRequest) : Str :=
  "CONNECT ".toList ++ (req.target ++ ' ' :: req.version)

/-- The request line, the header lines and the empty line. -/
def bytes (req : ConnectRequest) : Bytes :=
  utf8Bytes (req.requestLine ++ crlf) ++ (req.fields.flatMap (· ++ [13, 10]) ++ [13, 10])

end ConnectRequest

theorem visible_of_isDigit {c : Char} (h : c.isDigit = true) : isVisible c = true := by
  obtain ⟨hlo, hhi⟩ := Char.isDigit_iff_toNat.mp h
  have h0 : '0'.toNat = 48 := rfl
  have h9 : '9'.toNat = 57 := rfl
  simp only [isVisible, Bool.and_eq_true, decide_eq_true_eq]
  omega

theorem visible_of_addrChar {c : Char} (h : isAddrChar c = true) : isVisible c = true := by
  have hall : ∀ n < 128, isAddrChar (Char.ofNat n) = true → isVisible (Char.ofNat n) = true := by
    decide +kernel
  have := hall c.toNat (isAddrChar_ascii h)
  rw [Char.ofNat_toNat] at this
  exact this h

theorem ascii_of_visible {c : Char} (h : isVisible c = true) : c.toNat < 128 := by
  simp only [isVisible, Bool.and_eq_true, decide_eq_true_eq] at h
  omega

theorem not_whitespace_of_visible {c : Char} (h : isVisible c = true) : isWhitespace c = false := by
  apply Bool.eq_false_iff.mpr
  intro hw
  have hcode := toNat_of_whitespace hw
  simp only [isVisible, Bool.and_eq_true, decide_eq_true_eq] at h
  omega

theorem HostForm.visible {host : Str} (h : HostForm host) :
    host ≠ [] ∧ ∀ c ∈ host, isVisible c = true := by
  cases h with
  | name hne hc => exact ⟨hne, fun c hc' => (hc c hc').1⟩
  | @bracketed addr ip h =>
    refine ⟨List.cons_ne_nil _ _, fun c hc => ?_⟩
    rcases List.mem_append.mp hc with hc | hc
    · rcases List.mem_cons.mp hc with rfl | hc
      · decide
      · exact visible_of_addrChar ((parseIpv6Addr_chars h).1 c hc)
    · rw [List.mem_singleton.mp hc]
      decide

namespace ConnectRequest
variable (req : ConnectRequest)

theorem target_visible : ∀ c ∈ req.target, isVisible c = true := by
  intro c hc
  rcases List.mem_append.mp hc with h | h
  · exact req.host_form.visible.2 c h
  · rcases List.mem_cons.mp h with rfl | h
    · decide
    · exact visible_of_isDigit (req.port_digit c h)

theorem requestLine_ascii : ∀ c ∈ req.requestLine, c.toNat < 128 ∧ c ≠ '\n' := by
  intro c hc
  have hvis : ∀ c, isVisible c = true → c.toNat < 128 ∧ c ≠ '\n' := by
    intro c h
    refine ⟨ascii_of_visible h, ?_⟩
    rintro rfl
    exact absurd h (by decide)
  have hmethod : ∀ c ∈ "CONNECT ".toList, c.toNat < 128 ∧ c ≠ '\n' :=
    List.all_iff_forall_prop.mp (by decide)
  rcases List.mem_append.mp hc with h | h
  · exact hmethod c h
  · rcases List.mem_append.mp h with h | h
    · exact hvis c (req.target_visible c h)
    · rcases List.mem_cons.mp h with rfl | h
      · decide
      · exact hvis c (req.version_visible c h)

/-! ## What is read of a request -/

/-- The first line of what is read has the words of the part of the request line
that is read. -/
theorem firstWords_take (n : Nat) :
    firstWords (fromUtf8Lossy (req.bytes.take n)) = splitWhitespace (req.requestLine.take n) := by
  have hline : '\n' ∉ req.requestLine := fun h => (req.requestLine_ascii _ h).2 rfl
  have hascii : ∀ c ∈ req.requestLine ++ crlf, c.toNat < 128 := by
    intro c hc
    rcases List.mem_append.mp hc with h | h
    · exact (req.requestLine_ascii c h).1
    · have hall : ∀ c ∈ crlf, c.toNat < 128 := List.all_iff_forall_prop.mp (by decide)
      exact hall c h
  have hlen : (utf8Bytes (req.requestLine ++ crlf)).length = req.requestLine.length + 2 := by
    rw [utf8Bytes_length hascii, List.length_append]
    rfl
  unfold bytes
  by_cases hn : n ≤ req.requestLine.length + 1
  · -- no line feed has arrived
    rw [List.take_append_of_le_length (by omega), utf8Bytes_take hascii, fromUtf8Lossy_utf8Bytes,
      List.take_append]
    have htake : '\n' ∉ req.requestLine.take n := fun h => hline (List.mem_of_mem_take h)
    have hk : n - req.requestLine.length = 0 ∨ n - req.requestLine.length = 1 := by omega
    rcases hk with hk | hk
    · rw [hk, List.take_zero, List.append_nil]
      exact firstWords_of_no_newline htake
    · rw [hk, show crlf.take 1 = ['\r'] from rfl, firstWords_of_no_newline (by simpa using htake),
        splitWhitespace_append_cons (by decide), splitWhitespace_nil, List.append_nil]
  · rw [List.take_append, List.take_of_length_le (by omega), fromUtf8Lossy_utf8Bytes_append,
      firstWords_append_crlf hline, List.take_of_length_le (by omega)]

/-- What the first `n` bytes name: the part of the target word among them. -/
def targetAfter (n : Nat) : Option (Str × Nat) :=
  if n ≤ 8 then none else targetOfWord (req.target.take (n - 8))

/-- **The target taken from the first `n` bytes.** -/
theorem parse_prefix (n : Nat) (httpSpace mixHeaderCase : Bool) :
    parseConnectTarget (preprocessHttpRequest (fromUtf8Lossy (req.bytes.take n)) httpSpace
      mixHeaderCase) = req.targetAfter n := by
  unfold targetAfter
  have hsplit : req.requestLine.take n =
      "CONNECT ".toList.take n ++ (req.target ++ ' ' :: req.version).take (n - 8) :=
    @List.take_append _ "CONNECT ".toList (req.target ++ ' ' :: req.version) n
  rw [parseConnectTarget_preprocess, parseConnectTarget_eq, req.firstWords_take, hsplit]
  by_cases hn : n ≤ 8
  · -- there is no second word
    rw [if_pos hn, Nat.sub_eq_zero_of_le hn, List.take_zero, List.append_nil]
    have hall : ∀ n ≤ 8, targetOfWords (splitWhitespace ("CONNECT ".toList.take n)) = none := by
      decide
    exact hall n hn
  · -- the part of the target word that has arrived is the second word
    have hne : req.target.take (n - 8) ≠ [] := by
      intro h
      rcases List.take_eq_nil_iff.mp h with h | h
      · omega
      · exact List.append_ne_nil_of_left_ne_nil req.host_form.visible.1 _ h
    have hword : splitWhitespace (req.target.take (n - 8)) = [req.target.take (n - 8)] :=
      splitWhitespace_word (fun c hc => not_whitespace_of_visible
        (req.target_visible c (List.mem_of_mem_take hc))) hne
    have hline : ∃ more, splitWhitespace ((req.target ++ ' ' :: req.version).take (n - 8)) =
        req.target.take (n - 8) :: more := by
      rw [List.take_append]
      cases n - 8 - req.target.length with
      | zero => exact ⟨[], by rw [List.take_zero, List.append_nil, hword]⟩
      | succ k =>
        refine ⟨splitWhitespace (req.version.take k), ?_⟩
        rw [List.take_succ_cons, splitWhitespace_append_cons (by decide), hword]
        rfl
    obtain ⟨more, hmore⟩ := hline
    have hconnect : splitWhitespace "CONNECT".toList = ["CONNECT".toList] := by decide
    have hspace : "CONNECT ".toList = "CONNECT".toList ++ [' '] := by decide
    have hall : "CONNECT ".toList.take n = "CONNECT ".toList :=
      List.take_of_length_le (Nat.le_of_not_le hn)
    rw [if_neg hn, hall, hspace, List.append_assoc, List.singleton_append,
      splitWhitespace_append_cons (by decide), hconnect, hmore, List.singleton_append,
      targetOfWords, if_pos (by decide)]

end ConnectRequest

/-! ## Which target a run goes for -/

/-- The event goes for a host that is `named` and for `port`, if for any. -/
def Event.Concerns (named : Str → Prop) (port : Nat) : Event → Prop
  | .resolve host => named host
  | .connect addr => addr.port = port
  | .probe addr => addr.port = port
  | _ => True

theorem trimEndMatches_concat (c : Char) (s : Str) :
    trimEndMatches c (s ++ [c]) = trimEndMatches c s := by
  exact List.rdropWhile_concat_pos (· == c) s c (beq_self_eq_true c)

theorem trim_resolvedHost (cfg : ProxyServerConfig) (rawHost : Str) :
    trimEndMatches '.' (resolvedHost cfg rawHost) = trimEndMatches '.' rawHost := by
  unfold resolvedHost ensureTrailingDot
  split
  · split
    · rfl
    · exact trimEndMatches_concat '.' rawHost
  · rfl

/-- The first event of resolving the target. -/
theorem resolve_mem_remoteAddress (cfg : ProxyServerConfig) (net : Network) (host : Str)
    (port : Nat) : .resolve host ∈ (remoteAddress cfg net host port).events :=
  mem_events_orTry.mpr (Or.inl List.mem_cons_self)

/-- When the system resolver knows `answer` only and no DNS server can be asked,
a target that is not refused has an address that is not refused. -/
theorem remoteAddress_answering {cfg : ProxyServerConfig} {net : Network} {rawHost : Str}
    (port : Nat) (hudp : net.udpBound = false)
    (hlookup : ∀ i name, net.lookupHost i name = some [⟨.v4 ⟨93, 184, 216, 34⟩, 443⟩])
    (hr : isRefusedHost rawHost = false) :
    ∃ ip, (remoteAddress cfg net (resolvedHost cfg rawHost) port).result = .ok (some ip) ∧
      ip.isLoopback = false ∧ ip.isUnspecified = false := by
  have hfound : ∀ i name,
      (lookupHost net i name).result = .ok (some (.v4 ⟨93, 184, 216, 34⟩)) := by
    intro i name
    unfold lookupHost
    rw [hlookup]
    rfl
  have hclean := trim_resolvedHost cfg rawHost
  cases hip : parseIpAddr (trimEndMatches '.' rawHost) with
  | some ip =>
    simp only [isRefusedHost, hip, Option.map_some, Option.getD_some, Bool.or_eq_false_iff] at hr
    exact ⟨ip, result_orTry.mpr (Or.inl (resolve_literal (hclean ▸ hip))), hr.2⟩
  | none =>
    refine ⟨.v4 ⟨93, 184, 216, 34⟩, result_orTry.mpr ?_, rfl, rfl⟩
    rw [← hclean] at hip
    by_cases hlen : (utf8Bytes (trimEndMatches '.' (resolvedHost cfg rawHost))).length ≤ 100
    · refine Or.inl ((resolve_name hip hlen).trans (result_orTry.mpr (Or.inr ⟨?_, hfound _ _⟩)))
      unfold DnsResolver.queryUdp
      rw [hudp]
      rfl
    · exact Or.inr ⟨resolve_long hip (Nat.lt_of_not_le hlen), hfound _ _⟩

/-- **A tunnel goes for its target**: every event concerns the host as it is
resolved and the port. -/
theorem connectTunnel_concerns {cfg : ProxyServerConfig} {named : Str → Prop} {port : Nat}
    {request : Str} (h : ∀ rawHost p, parseConnectTarget request = some (rawHost, p) →
      isRefusedHost rawHost = false → named (resolvedHost cfg rawHost) ∧ p = port)
    (net : Network) (stream : Bytes) :
    (handleConnectTunnel cfg net stream request).Always (Event.Concerns named port) := by
  intro e he
  rcases connectTunnel_events he with ⟨_, rfl⟩ | ⟨rawHost, p, hp, hr, hcase⟩
  · trivial
  obtain ⟨hname, rfl⟩ := h rawHost p hp hr
  rcases hcase with h | ⟨ip, -, -, -, rfl | ⟨isMeta, h⟩⟩
  · have hres := (remoteAddress_resolves cfg net p
      (colon_notMem_resolvedHost cfg (colon_notMem_of_target hp))).events e h
    cases e with
    | resolve name =>
      obtain rfl : name = resolvedHost cfg rawHost := hres
      exact hname
    | connect _ | probe _ => exact False.elim hres
    | _ => trivial
  · rfl
  · have hserve := serveTunnel_events cfg net stream _ isMeta _ e h
    cases e with
    | probe addr => exact congrArg SocketAddr.port hserve
    | connect _ | resolve _ => exact False.elim hserve
    | _ => trivial

/-- **A connection goes for its target** exactly when every tunnel does that its
first read can open. -/
theorem handleClient_concerns_iff {cfg : ProxyServerConfig} {named : Str → Prop} {port n : Nat}
    (req : ConnectRequest) (h1 : 1 ≤ n) (hlen : n ≤ req.bytes.length) (hcap : n ≤ clientBufSize) :
    (∀ net payload, net.firstRead = some n →
      (handleClient cfg net (req.bytes ++ payload)).Always (Event.Concerns named port)) ↔
    ∀ rawHost p, req.targetAfter n = some (rawHost, p) → isRefusedHost rawHost = false →
      named (resolvedHost cfg rawHost) ∧ p = port := by
  have hread : ∀ payload : Bytes, readLength clientBufSize (req.bytes ++ payload) n = n := fun _ =>
    readLength_eq h1 hcap (Nat.le_trans hlen (by simp))
  have htake : ∀ payload : Bytes, (req.bytes ++ payload).take n = req.bytes.take n := fun _ =>
    List.take_append_of_le_length hlen
  constructor
  · intro hall rawHost p ht hr
    have hparse := (req.parse_prefix n cfg.httpSpace cfg.mixHeaderCase).trans ht
    -- everything succeeds, and the resolver knows one address, which is not refused
    let net : Network :=
      { Network.answering ⟨.v4 ⟨93, 184, 216, 34⟩, 443⟩ with firstRead := some n }
    have hconcerns := hall net [] rfl
    unfold handleClient at hconcerns
    dsimp only [net] at hconcerns
    rw [hread [], htake [], if_neg (Nat.ne_of_gt h1), if_pos (isHttpConnect_of_target hparse)]
      at hconcerns
    obtain ⟨ip, hip, hl, hu⟩ := @remoteAddress_answering cfg net rawHost p rfl (fun _ _ => rfl) hr
    exact ⟨hconcerns _ (connectTunnel_resolves hparse hr (resolve_mem_remoteAddress cfg _ _ _)),
      hconcerns _ (connectTunnel_connects hparse hr hip hl hu)⟩
  · intro htarget net payload hfirst
    unfold handleClient
    rw [hfirst]
    dsimp only
    rw [hread payload, htake payload, if_neg (Nat.ne_of_gt h1)]
    split
    · refine connectTunnel_concerns (fun rawHost p hp hr => htarget rawHost p ?_ hr) net _
      exact (req.parse_prefix n cfg.httpSpace cfg.mixHeaderCase).symm.trans hp
    · split
      · exact Always.bind (Always.emit trivial) fun _ _ => Always.ofExcept _
      · exact Always.emit trivial

/-! ## What a part of the target names -/

namespace ConnectRequest
variable {req : ConnectRequest}

/-- Up to the colon the part of the target is a part of the host, and the port is
443. -/
theorem targetAfter_host (hc : ':' ∉ req.host) {n : Nat} (hn : 8 < n)
    (hle : n ≤ 8 + req.host.length) :
    req.targetAfter n = some (req.host.take (n - 8), 443) := by
  have htake : req.target.take (n - 8) = req.host.take (n - 8) :=
    List.take_append_of_le_length (by omega)
  rw [targetAfter, if_neg (Nat.not_le_of_lt hn), htake]
  exact targetOfWord_of_no_colon fun h => hc (List.mem_of_mem_take h)

/-- With the colon the port is what has arrived of it, and has to be a number. -/
theorem targetAfter_port (hc : ':' ∉ req.host) {n : Nat} (hn : 8 + req.host.length < n) :
    req.targetAfter n =
      (parseU16 (req.port.take (n - (9 + req.host.length)))).map fun p => (req.host, p) := by
  have htake : req.target.take (n - 8) =
      req.host ++ ':' :: req.port.take (n - (9 + req.host.length)) := by
    rw [target, List.take_append, List.take_of_length_le (by omega),
      show n - 8 - req.host.length = n - (9 + req.host.length) + 1 by omega, List.take_succ_cons]
  have hdigits : ∀ c ∈ req.port.take (n - (9 + req.host.length)), decide (c ≠ ':') = true :=
    fun c h => decide_eq_true fun heq =>
      absurd (heq ▸ req.port_digit c (List.mem_of_mem_take h)) (by decide)
  rw [targetAfter, if_neg (by omega), htake, targetOfWord_append_colon hc,
    List.takeWhile_eq_self_iff.mpr hdigits]

/-- The digits of the port that have arrived are a port. -/
theorem parseU16_port_take {k : Nat} (hk : k ≠ 0) :
    parseU16 (req.port.take k) = some (decimal (req.port.take k)) := by
  refine parseU16_digits (fun h => ?_) (fun c h => req.port_digit c (List.mem_of_mem_take h))
    (Nat.lt_of_le_of_lt (decimal_take_le _ _) req.port_lt)
  rcases List.take_eq_nil_iff.mp h with h | h
  · exact hk h
  · exact req.port_ne h

/-- The host is as much of the request's host as has arrived. -/
theorem host_of_targetAfter (hc : ':' ∉ req.host) {n p : Nat} {rawHost : Str}
    (h : req.targetAfter n = some (rawHost, p)) : rawHost = req.host.take (n - 8) := by
  by_cases hn : n ≤ 8
  · rw [targetAfter, if_pos hn] at h
    cases h
  by_cases hle : n ≤ 8 + req.host.length
  · rw [targetAfter_host hc (by omega) hle] at h
    cases h
    rfl
  · rw [targetAfter_port hc (by omega)] at h
    obtain ⟨_, _, heq⟩ := Option.map_eq_some_iff.mp h
    cases heq
    rw [List.take_of_length_le (by omega)]

/-- A host without a colon is its only name. -/
theorem names_iff (hc : ':' ∉ req.host) {name : Str} : req.Names name ↔ name = req.host := by
  refine ⟨fun h => ?_, Or.inl⟩
  rcases h with h | h
  · exact h
  · have hform := req.host_form
    have hmem : '[' ∈ req.host := h ▸ List.mem_cons_self
    generalize req.host = host at hform hc hmem
    cases hform with
    | name _ hall => exact absurd rfl (hall '[' hmem).2.2
    | bracketed hip => exact absurd (by simp [(parseIpv6Addr_chars hip).2]) hc

/-- A host with a colon starts with a bracket. -/
theorem target_bracketed (hc : ':' ∈ req.host) : ∃ t, req.target = '[' :: t := by
  have hform := req.host_form
  unfold target
  generalize req.host = host at hform hc
  cases hform with
  | name _ hall => exact absurd rfl (hall ':' hc).2.1
  | @bracketed addr ip hip => exact ⟨addr ++ [']'] ++ ':' :: req.port, rfl⟩

/-- Every name of a host with a colon has one. -/
theorem colon_mem_of_names (hc : ':' ∈ req.host) {name : Str} (h : req.Names name) :
    ':' ∈ name := by
  rcases h with rfl | h
  · exact hc
  · rw [h] at hc
    simpa using hc

end ConnectRequest

/-! ## Hosts that are the same -/

theorem ensureTrailingDot_cases (s : Str) :
    ensureTrailingDot s = s ∨ ensureTrailingDot s = s ++ ['.'] := by
  unfold ensureTrailingDot
  split
  · exact Or.inl rfl
  · exact Or.inr rfl

theorem ensureTrailingDot_concat (s : Str) : ensureTrailingDot (s ++ ['.']) = s ++ ['.'] := by
  rw [ensureTrailingDot, if_pos (Or.inr (Or.inl List.getLast?_concat))]

/-- **A proper prefix of a host** is resolved as the host only when the final dot is
missing, and is put there again. -/
theorem resolvedHost_prefix {cfg : ProxyServerConfig} {p q : Str} :
    resolvedHost cfg p = resolvedHost cfg (p ++ q) ↔
      q = [] ∨ q = ['.'] ∧ cfg.trailingDot = true ∧ ensureTrailingDot p = p ++ ['.'] := by
  unfold resolvedHost
  cases cfg.trailingDot with
  | false => simp
  | true =>
    simp only [if_true, true_and]
    constructor
    · intro h
      rcases ensureTrailingDot_cases p with hp | hp
      · rcases ensureTrailingDot_cases (p ++ q) with hq | hq <;> rw [hp, hq] at h
        · exact Or.inl (List.self_eq_append_right.mp h)
        · rw [List.append_assoc] at h
          exact absurd (List.self_eq_append_right.mp h) (by simp)
      · rcases ensureTrailingDot_cases (p ++ q) with hq | hq <;> rw [hp, hq] at h
        · exact Or.inr ⟨(List.append_cancel_left h).symm, hp⟩
        · rw [List.append_assoc] at h
          exact Or.inl (List.self_eq_append_left.mp (List.append_cancel_left h))
    · rintro (rfl | ⟨rfl, hp⟩)
      · rw [List.append_nil]
      · rw [hp, ensureTrailingDot_concat]

theorem mem_resolvedHost (cfg : ProxyServerConfig) {host : Str} {c : Char} (h : c ∈ host) :
    c ∈ resolvedHost cfg host := by
  unfold resolvedHost
  split
  · rcases ensureTrailingDot_cases host with heq | heq <;> rw [heq]
    · exact h
    · exact List.mem_append_left _ h
  · exact h

/-- What starts with a bracket is no host that is refused. -/
theorem not_refused_of_bracket (t : Str) : isRefusedHost ('[' :: t) = false := by
  have hclean : ∃ t', trimEndMatches '.' ('[' :: t) = '[' :: t' := by
    have hne : trimEndMatches '.' ('[' :: t) ≠ [] := fun h =>
      absurd (List.rdropWhile_eq_nil_iff.mp h '[' List.mem_cons_self) (by decide)
    obtain ⟨d, t', hd⟩ := List.exists_cons_of_ne_nil hne
    have hprefix := List.rdropWhile_prefix (· == '.') ('[' :: t)
    rw [trimEndMatches] at hd
    rw [hd] at hprefix
    exact ⟨t', by rw [trimEndMatches, hd, (List.cons_prefix_cons.mp hprefix).1]⟩
  obtain ⟨t', ht'⟩ := hclean
  have hip : parseIpAddr ('[' :: t') = none := by
    cases hp : parseIpAddr ('[' :: t') with
    | none => rfl
    | some ip => exact absurd (parseIpAddr_chars hp '[' List.mem_cons_self) (by decide)
  have hname : eqIgnoreAsciiCase ('[' :: t') "localhost".toList = false := by
    rw [eqIgnoreAsciiCase, beq_eq_false_iff_ne]
    intro h
    rw [List.map_cons] at h
    exact absurd (List.cons.inj h).1 (by decide)
  simp only [isRefusedHost, ht', hip, hname, Option.map_none, Option.getD_none, Bool.or_false]

/-! ## The harmless cuts -/

/-- The request may be cut after `n` bytes. -/
inductive HarmlessCut (cfg : ProxyServerConfig) (req : ConnectRequest) (n : Nat) : Prop
  /-- Nothing of the target word has arrived. -/
  | beforeTarget (hn : n ≤ 8)
  /-- What has arrived of the host is refused. -/
  | refused (hc : ':' ∉ req.host) (hr : isRefusedHost (req.host.take (n - 8)) = true)
  /-- The host has arrived, and the port is the standard one. -/
  | standardPort (hc : ':' ∉ req.host) (hn : n = 8 + req.host.length)
      (hp : decimal req.port = 443)
  /-- The host has arrived but for its final dot, which is put there again, and the
  port is the standard one. -/
  | finalDot {name : Str} (hc : ':' ∉ req.host) (hhost : req.host = name ++ ['.'])
      (hn : n = 8 + name.length) (hdot : cfg.trailingDot = true)
      (hadd : ensureTrailingDot name = req.host) (hp : decimal req.port = 443)
  /-- The colon has arrived and nothing of the port. -/
  | noPort (hc : ':' ∉ req.host) (hn : n = 9 + req.host.length)
  /-- What has arrived of the port denotes the port. -/
  | samePort (hc : ':' ∉ req.host) (hn : 9 + req.host.length < n)
      (hp : decimal (req.port.take (n - (9 + req.host.length))) = decimal req.port)
  /-- What stands between the first two colons of an IPv6 address is no port. -/
  | noGroup {first rest : Str} (hc : ':' ∈ req.host)
      (hseen : req.target.take (n - 8) = first ++ ':' :: rest) (hfirst : ':' ∉ first)
      (hgroup : parseU16 (rest.takeWhile (· ≠ ':')) = none)

/-- The target that the first `n` bytes name is refused or is the request's. -/
def TargetKept (cfg : ProxyServerConfig) (req : ConnectRequest) (n : Nat) : Prop :=
  ∀ rawHost p, req.targetAfter n = some (rawHost, p) → isRefusedHost rawHost = false →
    (∃ name, req.Names name ∧ resolvedHost cfg rawHost = resolvedHost cfg name) ∧
      p = decimal req.port

section
variable {cfg : ProxyServerConfig} {req : ConnectRequest} {n : Nat}

theorem targetKept_of_none (h : req.targetAfter n = none) : TargetKept cfg req n := by
  intro rawHost p ht
  rw [h] at ht
  cases ht

/-- The target of a cut in a host without a colon, of which `p` has arrived. -/
theorem targetKept_host_iff (hc : ':' ∉ req.host) {p q : Str} (hhost : req.host = p ++ q)
    (hne : p ≠ []) (hn : n = 8 + p.length) :
    TargetKept cfg req n ↔ (isRefusedHost p = false →
      (q = [] ∨ q = ['.'] ∧ cfg.trailingDot = true ∧ ensureTrailingDot p = p ++ ['.']) ∧
        decimal req.port = 443) := by
  have hpos : 0 < p.length := List.length_pos_iff.mpr hne
  have hlen : req.host.length = p.length + q.length := by rw [hhost, List.length_append]
  have htake : req.host.take (n - 8) = p := by
    rw [hn, Nat.add_sub_cancel_left, hhost, List.take_left]
  rw [TargetKept, ConnectRequest.targetAfter_host hc (by omega) (by omega), htake,
    ← resolvedHost_prefix, ← hhost]
  constructor
  · intro h hr
    obtain ⟨⟨name, hname, heq⟩, hp⟩ := h _ _ rfl hr
    rw [(ConnectRequest.names_iff hc).mp hname] at heq
    exact ⟨heq, hp.symm⟩
  · intro h rawHost port ht hr
    cases ht
    obtain ⟨heq, hp⟩ := h hr
    exact ⟨⟨req.host, Or.inl rfl, heq⟩, hp.symm⟩

/-- The target of a cut behind the colon. -/
theorem targetKept_port_iff (hc : ':' ∉ req.host) (hn : 9 + req.host.length < n) :
    TargetKept cfg req n ↔ (isRefusedHost req.host = false →
      decimal (req.port.take (n - (9 + req.host.length))) = decimal req.port) := by
  rw [TargetKept, ConnectRequest.targetAfter_port hc (by omega),
    ConnectRequest.parseU16_port_take (by omega), Option.map_some]
  constructor
  · intro h hr
    exact (h _ _ rfl hr).2
  · intro h rawHost p ht hr
    cases ht
    exact ⟨⟨req.host, Or.inl rfl, rfl⟩, h hr⟩

/-- What has arrived of the target of an IPv6 address is kept only if it is no
target. -/
theorem targetKept_bracketed_iff (hc : ':' ∈ req.host) :
    TargetKept cfg req n ↔ req.targetAfter n = none := by
  refine ⟨fun h => ?_, targetKept_of_none⟩
  cases ht : req.targetAfter n with
  | none => rfl
  | some target =>
    obtain ⟨rawHost, p⟩ := target
    have hword := ht
    unfold ConnectRequest.targetAfter at hword
    split at hword
    · cases hword
    rename_i hn
    obtain ⟨hcolon, hhost⟩ := targetOfWord_eq_some hword
    obtain ⟨t, ht'⟩ := ConnectRequest.target_bracketed hc
    have hseen : req.target.take (n - 8) = '[' :: t.take (n - 9) := by
      rw [ht', show n - 8 = n - 9 + 1 by omega, List.take_succ_cons]
    have hbracket : ∃ t', rawHost = '[' :: t' := by
      rcases hhost with h | ⟨rest, h⟩ <;> rw [hseen] at h
      · exact ⟨_, h.symm⟩
      · cases rawHost with
        | nil => exact absurd (List.cons.inj h).1 (by decide)
        | cons d t' => exact ⟨t', by rw [(List.cons.inj h).1]⟩
    obtain ⟨t', rfl⟩ := hbracket
    -- the host that is resolved has no colon, and every name of the request has one
    obtain ⟨⟨name, hname, heq⟩, -⟩ := h _ p ht (not_refused_of_bracket t')
    exact absurd (heq ▸ mem_resolvedHost cfg (ConnectRequest.colon_mem_of_names hc hname))
      (colon_notMem_resolvedHost cfg hcolon)

/-- A cut that keeps the target is harmless. -/
theorem harmless_of_targetKept (h : TargetKept cfg req n) : HarmlessCut cfg req n := by
  by_cases hn : n ≤ 8
  · exact .beforeTarget hn
  by_cases hc : ':' ∈ req.host
  · -- an IPv6 address is kept only by naming no target, so a colon has arrived
    have hnone := (targetKept_bracketed_iff hc).mp h
    rw [ConnectRequest.targetAfter, if_neg hn] at hnone
    by_cases hseen : ':' ∈ req.target.take (n - 8)
    · obtain ⟨first, rest, heq, hfirst⟩ := List.eq_append_cons_of_mem hseen
      rw [heq, targetOfWord_append_colon hfirst, Option.map_eq_none_iff] at hnone
      exact .noGroup hc heq hfirst hnone
    · rw [targetOfWord_of_no_colon hseen] at hnone
      cases hnone
  cases hr : isRefusedHost (req.host.take (n - 8)) with
  | true => exact .refused hc hr
  | false =>
    by_cases hle : n ≤ 8 + req.host.length
    · -- cut in the host: it is kept when nothing or the final dot is missing
      have hlen : (req.host.take (n - 8)).length = n - 8 := List.length_take_of_le (by omega)
      have hne : req.host.take (n - 8) ≠ [] := List.length_pos_iff.mp (by omega)
      have hhost := (List.take_append_drop (n - 8) req.host).symm
      have hlast := congrArg List.length hhost
      rw [List.length_append] at hlast
      obtain ⟨hq, hp⟩ := (targetKept_host_iff hc hhost hne (by omega)).mp h hr
      rcases hq with hq | ⟨hq, hdot, hadd⟩ <;> rw [hq] at hhost hlast
      · exact .standardPort hc (by rw [List.length_nil] at hlast; omega) hp
      · exact .finalDot hc hhost (by omega) hdot (hadd.trans hhost.symm) hp
    · -- cut behind the host
      by_cases hlast : n = 9 + req.host.length
      · exact .noPort hc hlast
      · rw [List.take_of_length_le (by omega)] at hr
        exact .samePort hc (by omega) ((targetKept_port_iff hc (by omega)).mp h hr)

theorem targetKept_of_harmless (h : HarmlessCut cfg req n) : TargetKept cfg req n := by
  cases h with
  | beforeTarget hn => exact targetKept_of_none (if_pos hn)
  | refused hc hr =>
    intro rawHost p ht hr'
    rw [ConnectRequest.host_of_targetAfter hc ht, hr] at hr'
    cases hr'
  | standardPort hc hn hp =>
    exact (targetKept_host_iff hc (List.append_nil _).symm req.host_form.visible.1 hn).mpr
      fun _ => ⟨Or.inl rfl, hp⟩
  | finalDot hc hhost hn hdot hadd hp =>
    refine (targetKept_host_iff hc hhost ?_ hn).mpr
      fun _ => ⟨Or.inr ⟨rfl, hdot, hadd.trans hhost⟩, hp⟩
    -- no dot is put behind an empty host
    rintro rfl
    rw [hhost] at hadd
    cases hadd
  | noPort hc hn =>
    apply targetKept_of_none
    rw [ConnectRequest.targetAfter_port hc (by omega), hn, Nat.sub_self, List.take_zero]
    rfl
  | samePort hc hn hp => exact (targetKept_port_iff hc hn).mpr fun _ => hp
  | noGroup hc hseen hfirst hgroup =>
    apply targetKept_of_none
    rw [ConnectRequest.targetAfter, hseen, targetOfWord_append_colon hfirst, hgroup]
    exact ite_self _

/-- **The target is kept** exactly by the harmless cuts. -/
theorem targetKept_iff : TargetKept cfg req n ↔ HarmlessCut cfg req n :=
  ⟨harmless_of_targetKept, targetKept_of_harmless⟩

end

/-- **The target and the cut.**  A connection whose first read yields the first `n`
bytes of a request goes for the host and port of the request, if for any, exactly
when the cut is harmless. -/
theorem target_of_cut_iff (cfg : ProxyServerConfig) (req : ConnectRequest) {n : Nat}
    (h1 : 1 ≤ n) (hlen : n ≤ req.bytes.length) (hcap : n ≤ clientBufSize) :
    (∀ net payload, net.firstRead = some n →
      (handleClient cfg net (req.bytes ++ payload)).Always
        (Event.Concerns (fun host => ∃ name, req.Names name ∧ host = resolvedHost cfg name)
          (decimal req.port))) ↔
      HarmlessCut cfg req n :=
  (handleClient_concerns_iff req h1 hlen hcap).trans targetKept_iff

/-- A request for `example.com` and port 8443. -/
def exampleRequest : ConnectRequest where
  host := "example.com".toList
  port := "8443".toList
  version := "HTTP/1.1".toList
  fields := []
  host_form := .name (by decide) (List.all_iff_forall_prop.mp (by decide))
  port_ne := by decide
  port_digit := List.all_iff_forall_prop.mp (by decide)
  port_lt := by decide
  version_visible := List.all_iff_forall_prop.mp (by decide)
  fields_line := fun _ h => absurd h List.not_mem_nil

theorem target_of_cut_example :
    (∀ net payload, net.firstRead = some 24 →
      (handleClient noOptions net
        (exampleRequest.bytes ++ payload)).Always
        (Event.Concerns (fun host => ∃ name, exampleRequest.Names name ∧
          host = resolvedHost noOptions name)
          (decimal exampleRequest.port))) ↔
      HarmlessCut noOptions exampleRequest 24 :=
  target_of_cut_iff _ exampleRequest (by decide) (by decide +kernel) (by decide)

/-- Cut inside the host, `CONNECT example.co` sends the tunnel to another host; cut
inside the port, `CONNECT example.com:84` sends it to another port. -/
theorem target_of_cut_fails :
    .resolve "example.co".toList ∈ (handleClient noOptions
      { Network.answering ⟨.v4 ⟨93, 184, 216, 34⟩, 443⟩ with firstRead := some 18 }
      exampleRequest.bytes).events ∧
    .connect ⟨.v4 ⟨93, 184, 216, 34⟩, 443⟩ ∈ (handleClient noOptions
      { Network.answering ⟨.v4 ⟨93, 184, 216, 34⟩, 443⟩ with firstRead := some 18 }
      exampleRequest.bytes).events ∧
    .connect ⟨.v4 ⟨93, 184, 216, 34⟩, 84⟩ ∈ (handleClient noOptions
      { Network.answering ⟨.v4 ⟨93, 184, 216, 34⟩, 443⟩ with firstRead := some 22 }
      exampleRequest.bytes).events := by
  decide +kernel

end GreenTunnel
