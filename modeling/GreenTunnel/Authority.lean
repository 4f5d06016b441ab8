import GreenTunnel.ConnectTarget

/-! # The authority of a CONNECT (`utils.rs`)

A CONNECT names its target as an authority: a host, a colon and a port.  The
parser cuts the target at its first colon, so it understands a registered name
and an IPv4 address, and does not understand an IPv6 address, which has colons of
its own and stands in brackets (`understood_iff`).
-/
namespace GreenTunnel

/-- The host of an authority; a registered name may be empty. -/
def UriHost (host : Str) : Prop := host = [] ∨ HostForm host

/-- A CONNECT request: the method in some case, the authority, and whatever else
the request line and the request have. -/
structure AuthorityRequest where
  method : Str
  host : Str
  port : Str
  rest : Str
  method_connect : eqIgnoreAsciiCase method "CONNECT".toList = true
  host_form : UriHost host
  port_ne : port ≠ []
  port_digit : ∀ c ∈ port, c.isDigit = true
  port_lt : decimal port < 65536
  rest_apart : ∀ c, rest.head? = some c → isWhitespace c = true

namespace AuthorityRequest
variable (req : AuthorityRequest)

def authority : Str := req.host ++ ':' :: req.port

def text : Str := req.method ++ ' ' :: req.authority ++ req.rest

/-- The parser returns the host of the request, in its brackets or without them,
and the port. -/
def Understood : Prop :=
  ∃ name, parseConnectTarget req.text = some (name, decimal req.port) ∧
    (name = req.host ∨ req.host = '[' :: name ++ [']'])

/-! ## The words of the request line -/

theorem method_word : req.method ≠ [] ∧ ∀ c ∈ req.method, isWhitespace c = false := by
  constructor
  · intro hnil
    have := req.method_connect
    rw [hnil] at this
    exact absurd this (by decide)
  · apply not_whitespace_of_eqIgnoreAsciiCase req.method_connect
    exact List.all_iff_forall_prop.mp (by decide)

theorem authority_word : req.authority ≠ [] ∧ ∀ c ∈ req.authority, isWhitespace c = false := by
  constructor
  · rw [authority]
    intro hnil
    exact absurd (List.append_eq_nil_iff.mp hnil).2 (List.cons_ne_nil _ _)
  · intro c hc
    rcases List.mem_append.mp hc with hhost | hport
    · apply not_whitespace_of_visible
      rcases req.host_form with hnil | hform
      · rw [hnil] at hhost
        exact absurd hhost List.not_mem_nil
      · exact hform.visible.2 c hhost
    · rcases List.mem_cons.mp hport with rfl | hport
      · decide
      · exact not_whitespace_of_visible (visible_of_isDigit (req.port_digit c hport))

/-- The target is the authority. -/
theorem parseConnectTarget_text : parseConnectTarget req.text = targetOfWord req.authority := by
  obtain ⟨hmethod, hmethod'⟩ := req.method_word
  obtain ⟨hauth, hauth'⟩ := req.authority_word
  have hline : '\n' ∉ req.method ++ ' ' :: req.authority := by
    intro hmem
    have hnl : isWhitespace '\n' = true := by decide
    rcases List.mem_append.mp hmem with hm | hm
    · rw [hmethod' _ hm] at hnl
      cases hnl
    · rcases List.mem_cons.mp hm with heq | hm
      · exact absurd heq (by decide)
      · rw [hauth' _ hm] at hnl
        cases hnl
  obtain ⟨more, hwords⟩ := firstWords_append hline req.rest_apart
  rw [parseConnectTarget_eq, text, hwords, splitWhitespace_append_cons (by decide),
    splitWhitespace_word hmethod' hmethod, splitWhitespace_word hauth' hauth]
  show targetOfWords (req.method :: req.authority :: more) = _
  rw [targetOfWords, if_pos req.method_connect]

/-! ## The host -/

theorem colon_iff_bracket : ':' ∈ req.host ↔ '[' ∈ req.host := by
  rcases req.host_form with hnil | hform
  · rw [hnil]
    constructor
    · intro h
      cases h
    · intro h
      cases h
  · generalize req.host = host at hform
    cases hform with
    | name _ hc =>
      constructor
      · intro h
        exact absurd rfl (hc _ h).2.1
      · intro h
        exact absurd rfl (hc _ h).2.2
    | bracketed h =>
      constructor
      · intro _
        exact List.mem_cons_self
      · intro _
        apply List.mem_cons_of_mem
        exact List.mem_append_left _ (parseIpv6Addr_chars h).2

/-- A host without a colon is understood. -/
theorem understood_of_no_colon (hc : ':' ∉ req.host) : req.Understood := by
  have hdigits : ∀ c ∈ req.port, decide (c ≠ ':') = true := by
    intro c hmem
    apply decide_eq_true
    rintro rfl
    exact absurd (req.port_digit _ hmem) (by decide)
  refine ⟨req.host, ?_, Or.inl rfl⟩
  rw [parseConnectTarget_text, authority, targetOfWord_append_colon hc,
    List.takeWhile_eq_self_iff.mpr hdigits,
    parseU16_digits req.port_ne req.port_digit req.port_lt]
  rfl

/-- A host with a colon is cut at it. -/
theorem not_understood_of_colon (hc : ':' ∈ req.host) : ¬ req.Understood := by
  rintro ⟨name, hparse, hname⟩
  apply colon_notMem_of_target hparse
  rcases hname with rfl | hname
  · exact hc
  · rw [hname] at hc
    rcases List.mem_append.mp hc with h | h
    · rcases List.mem_cons.mp h with h | h
      · exact absurd h (by decide)
      · exact h
    · exact absurd (List.mem_singleton.mp h) (by decide)

end AuthorityRequest

/-- **When an authority is understood**: when its host is not an address in
brackets. -/
theorem understood_iff (req : AuthorityRequest) : req.Understood ↔ '[' ∉ req.host := by
  rw [← req.colon_iff_bracket]
  constructor
  · intro h hc
    exact req.not_understood_of_colon hc h
  · exact req.understood_of_no_colon

/-- A CONNECT to port 443 of `2001:db8::1`. -/
def ipv6Request : AuthorityRequest where
  method := "CONNECT".toList
  host := '[' :: "2001:db8::1".toList ++ [']']
  port := "443".toList
  rest := " HTTP/1.1\r\nHost: [2001:db8::1]:443\r\n\r\n".toList
  method_connect := by decide
  host_form := by
    right
    apply HostForm.bracketed
    show parseIpv6Addr "2001:db8::1".toList = some ⟨[0x2001, 0xdb8, 0, 0, 0, 0, 0, 1], rfl⟩
    decide
  port_ne := by decide
  port_digit := List.all_iff_forall_prop.mp (by decide)
  port_lt := by decide
  rest_apart := by
    intro c hc
    cases hc
    decide

/-- The request is refused. -/
theorem understood_fails :
    parseConnectTarget ipv6Request.text = none ∧ ¬ ipv6Request.Understood := by
  constructor
  · decide
  · exact ipv6Request.not_understood_of_colon (by decide)

end GreenTunnel
