import GreenTunnel.LowerCase
import GreenTunnel.NetAddr
import Mathlib.Data.List.Infix

/-! # Requests as text (`utils.rs`)

The proxy reads a request as text, edits its header lines and takes the target of
a CONNECT from its first line.  The two edits that go through the header lines
are `editHeaderLines` of what is done to one line.

The target is read off the words of the first line (`parseConnectTarget_eq`), and
editing keeps these words (`firstWords_preprocess`), and with them the target and
that the request is a CONNECT (`preprocessHttpRequest_keeps_connect`).
-/
namespace GreenTunnel

/-- The headers that identify a proxy. -/
def proxyHeadersToRemove : List Str :=
  ["client-ip", "x-forwarded-for", "x-forwarded-host", "x-forwarded-proto", "x-real-ip",
    "forwarded", "via", "proxy-authorization", "proxy-connection"].map String.toList

/-- The domains whose TLS stack rejects padding extensions. -/
def paddingIncompatibleDomains : List Str :=
  ["instagram.com", "facebook.com", "fbcdn.net", "cdninstagram.com", "messenger.com",
    "whatsapp.net", "whatsapp.com"].map String.toList

def isHttpConnect (headerLine : Str) : Bool :=
  let trimmed := trimStart headerLine
  let firstWord := (splitWhitespace trimmed).head?.getD []
  eqIgnoreAsciiCase firstWord "CONNECT".toList

def isPaddingIncompatibleDomain (host : Str) : Bool :=
  let lower := toLowercase host
  paddingIncompatibleDomains.any fun domain => domain.isSuffixOf lower

def parseConnectTarget (requestStr : Str) : Option (Str × Nat) := do
  let firstLine ← (lines requestStr).head?
  match splitWhitespace firstLine with
  | method :: target :: _ =>
    if !eqIgnoreAsciiCase method "CONNECT".toList then none
    let hostPort := target.splitOn ':'
    let host ← hostPort[0]?
    let port ← parseU16 (hostPort[1]?.getD "443".toList)
    some (host, port)
  | _ => none

/-- The lines after the first, up to the empty line that ends the header, with
`edit` applied to each; an edit that yields nothing drops the line. -/
def editFollowing (edit : Str → Option Str) : List Str → List Str
  | [] => []
  | line :: rest =>
    if line = [] then [line] else (edit line).toList ++ editFollowing edit rest

/-- The first line as it is and the header lines edited. -/
def editHeaderLines (edit : Str → Option Str) (requestStr : Str) : Str :=
  crlf.intercalate <|
    match lines requestStr with
    | [] => []
    | first :: rest => first :: editFollowing edit rest

def stripProxyHeaders (requestStr : Str) : Str :=
  editHeaderLines (fun line =>
    match splitOnce ':' line with
    | some (key, _) =>
      if proxyHeadersToRemove.any (eqIgnoreAsciiCase · (trim key)) then none else some line
    | none => some line) requestStr

def applyConnectSpaceInsertion (requestLine : Str) : Str :=
  match splitWhitespace requestLine with
  | a :: b :: c :: _ => a ++ "   ".toList ++ b ++ "   ".toList ++ c
  | [a, b] => a ++ "   ".toList ++ b
  | _ => requestLine

def mixCase (s : Str) : Str :=
  s.zipIdx.map fun (c, i) => if i % 2 = 0 then c.toLower else c.toUpper

def applyHeaderCaseMixing (requestStr : Str) : Str :=
  editHeaderLines (fun line =>
    match splitOnce ':' line with
    | some (key, val) => some (mixCase (trim key) ++ ':' :: val)
    | none => some line) requestStr

def preprocessHttpRequest (requestStr : Str) (httpSpace mixHeaderCase : Bool) : Str :=
  let processed := stripProxyHeaders requestStr
  let processed :=
    if httpSpace then
      let firstLine := (lines processed).head?.getD []
      let modifiedLine := applyConnectSpaceInsertion firstLine
      let rest :=
        if crlf <:+: processed then ((splitOnceStr crlf processed).map (·.2)).getD []
        else if '\n' ∈ processed then ((splitOnce '\n' processed).map (·.2)).getD []
        else []
      if rest = [] then modifiedLine else modifiedLine ++ crlf ++ rest
    else processed
  if mixHeaderCase then applyHeaderCaseMixing processed else processed

def ensureTrailingDot (host : Str) : Str :=
  if host = [] ∨ host.getLast? = some '.' ∨ (parseIpAddr host).isSome then host else host ++ ['.']

/-! ## The target -/

/-- The words of the first line. -/
def firstWords (requestStr : Str) : List Str := splitWhitespace ((lines requestStr).head?.getD [])

/-- The host and port that one word names. -/
def targetOfWord (target : Str) : Option (Str × Nat) := do
  let hostPort := target.splitOn ':'
  let host ← hostPort[0]?
  let port ← parseU16 (hostPort[1]?.getD "443".toList)
  some (host, port)

/-- The host and port that the words of a request line name. -/
def targetOfWords : List Str → Option (Str × Nat)
  | method :: target :: _ =>
    if eqIgnoreAsciiCase method "CONNECT".toList then targetOfWord target else none
  | _ => none

/-- **The target is read off the words of the first line.** -/
theorem parseConnectTarget_eq (s : Str) : parseConnectTarget s = targetOfWords (firstWords s) := by
  unfold parseConnectTarget firstWords
  cases (lines s).head? with
  | none => rfl
  | some l =>
    simp only [Option.bind_eq_bind, Option.bind_some, Option.getD_some]
    match splitWhitespace l with
    | [] => rfl
    | [_] => rfl
    | method :: target :: _ =>
      simp only [targetOfWords]
      cases eqIgnoreAsciiCase method "CONNECT".toList with
      | true => rfl
      | false => rfl

/-- A target without a colon is a host, and the port is 443. -/
theorem targetOfWord_of_no_colon {w : Str} (h : ':' ∉ w) : targetOfWord w = some (w, 443) := by
  rw [targetOfWord, List.splitOn_eq_singleton h]
  rfl

/-- The port stands between the first colon and the next. -/
theorem targetOfWord_append_colon {host : Str} (h : ':' ∉ host) (rest : Str) :
    targetOfWord (host ++ ':' :: rest) =
      (parseU16 (rest.takeWhile (· ≠ ':'))).map fun port => (host, port) := by
  rw [targetOfWord, List.splitOn_append_cons_self_of_not_mem h]
  simp only [List.getElem?_cons_zero, List.getElem?_cons_succ, splitOn_zero,
    Option.getD_some]
  cases parseU16 (rest.takeWhile (· ≠ ':')) <;> rfl

/-- The host ends at the first colon, if there is one. -/
theorem targetOfWord_eq_some {w host : Str} {port : Nat}
    (h : targetOfWord w = some (host, port)) :
    ':' ∉ host ∧ (w = host ∨ ∃ rest, w = host ++ ':' :: rest) := by
  by_cases hc : ':' ∈ w
  · obtain ⟨p, rest, rfl, hp⟩ := List.eq_append_cons_of_mem hc
    rw [targetOfWord_append_colon hp] at h
    obtain ⟨_, _, heq⟩ := Option.map_eq_some_iff.mp h
    cases heq
    exact ⟨hp, Or.inr ⟨rest, rfl⟩⟩
  · rw [targetOfWord_of_no_colon hc] at h
    cases h
    exact ⟨hc, Or.inl rfl⟩

/-- A request with a target is a CONNECT with at least two words. -/
theorem words_of_target {s host : Str} {port : Nat}
    (h : parseConnectTarget s = some (host, port)) :
    ∃ method word more, firstWords s = method :: word :: more ∧
      eqIgnoreAsciiCase method "CONNECT".toList = true ∧ targetOfWord word = some (host, port) := by
  rw [parseConnectTarget_eq] at h
  cases hw : firstWords s with
  | nil =>
    rw [hw] at h
    cases h
  | cons method words =>
    cases words with
    | nil =>
      rw [hw] at h
      cases h
    | cons word more =>
      rw [hw] at h
      cases hm : eqIgnoreAsciiCase method "CONNECT".toList with
      | false =>
        simp only [targetOfWords, hm] at h
        cases h
      | true =>
        rw [targetOfWords, if_pos hm] at h
        exact ⟨method, word, more, rfl, hm, h⟩

/-- No host has a colon in it. -/
theorem colon_notMem_of_target {s host : Str} {port : Nat}
    (h : parseConnectTarget s = some (host, port)) : ':' ∉ host := by
  obtain ⟨_, _, _, -, -, htarget⟩ := words_of_target h
  exact (targetOfWord_eq_some htarget).1

/-- A request whose first line has words is a CONNECT if the first of them is. -/
theorem isHttpConnect_of_firstWords {s w : Str} {ws : List Str} (h : firstWords s = w :: ws) :
    isHttpConnect s = eqIgnoreAsciiCase w "CONNECT".toList := by
  rw [firstWords] at h
  cases hl : (lines s).head? with
  | none =>
    rw [hl] at h
    cases h
  | some l =>
    rw [hl, Option.getD_some] at h
    obtain ⟨more, hmore⟩ := splitWhitespace_of_lines hl
    rw [isHttpConnect, splitWhitespace_trimStart, hmore, h]
    rfl

/-- A request with a target is a CONNECT. -/
theorem isHttpConnect_of_target {s : Str} {t : Str × Nat} (h : parseConnectTarget s = some t) :
    isHttpConnect s = true := by
  obtain ⟨method, word, more, hwords, hmethod, -⟩ := words_of_target h
  rw [isHttpConnect_of_firstWords hwords, hmethod]

/-! ## Preprocessing keeps the target -/

theorem firstWords_of_no_newline {s : Str} (h : '\n' ∉ s) : firstWords s = splitWhitespace s := by
  by_cases hne : s = []
  · rw [hne]
    rfl
  · rw [firstWords, lines_of_no_newline h hne]
    rfl

theorem firstWords_append_crlf {s : Str} (h : '\n' ∉ s) (t : Str) :
    firstWords (s ++ crlf ++ t) = splitWhitespace s := by
  rw [firstWords, lines_append_crlf h]
  rfl

/-- What follows a white space character adds words behind those of the text
before it. -/
theorem firstWords_append {a rest : Str} (h : '\n' ∉ a)
    (hrest : ∀ c, rest.head? = some c → isWhitespace c = true) :
    ∃ more, firstWords (a ++ rest) = splitWhitespace a ++ more := by
  have hwords : ∀ p, (∀ c, p.head? = some c → isWhitespace c = true) →
      ∃ more, splitWhitespace (a ++ p) = splitWhitespace a ++ more := by
    intro p hp
    rcases p with _ | ⟨c, p⟩
    · refine ⟨[], ?_⟩
      rw [List.append_nil, List.append_nil]
    · exact ⟨splitWhitespace p, splitWhitespace_append_cons (hp c rfl) p⟩
  by_cases hn : '\n' ∈ rest
  · obtain ⟨p, q, rfl, hp⟩ := List.eq_append_cons_of_mem hn
    have hline : '\n' ∉ a ++ p := by
      rw [List.mem_append, not_or]
      exact ⟨h, hp⟩
    rw [← List.append_assoc, firstWords, lines_append_newline hline]
    show ∃ more, splitWhitespace (stripCr (a ++ p)) = splitWhitespace a ++ more
    rw [splitWhitespace_stripCr]
    apply hwords
    intro c hc
    apply hrest
    rw [List.head?_append, hc]
    rfl
  · have hline : '\n' ∉ a ++ rest := by
      rw [List.mem_append, not_or]
      exact ⟨h, hn⟩
    rw [firstWords_of_no_newline hline]
    exact hwords rest hrest

theorem firstWords_editHeaderLines (edit : Str → Option Str) (s : Str) :
    firstWords (editHeaderLines edit s) = firstWords s := by
  unfold editHeaderLines
  cases hl : lines s with
  | nil =>
    rw [firstWords, firstWords, hl]
    rfl
  | cons first rest =>
    have hn : '\n' ∉ first := newline_notMem_of_lines (by rw [hl, List.head?_cons])
    have hs : firstWords s = splitWhitespace first := by
      rw [firstWords, hl]
      rfl
    rw [hs]
    show firstWords (crlf.intercalate (first :: editFollowing edit rest)) = splitWhitespace first
    cases editFollowing edit rest with
    | nil =>
      rw [show crlf.intercalate [first] = first by simp [List.intercalate]]
      exact firstWords_of_no_newline hn
    | cons x xs =>
      have hjoin : crlf.intercalate (first :: x :: xs) =
          first ++ crlf ++ crlf.intercalate (x :: xs) := by simp [List.intercalate]
      rw [hjoin, firstWords_append_crlf hn]

/-- Space insertion makes a line of a line, of its first three words. -/
theorem applyConnectSpaceInsertion_spec {line : Str} (h : '\n' ∉ line) :
    '\n' ∉ applyConnectSpaceInsertion line ∧
      splitWhitespace (applyConnectSpaceInsertion line) = (splitWhitespace line).take 3 := by
  have hno : ∀ w ∈ splitWhitespace line, '\n' ∉ w := fun w hw hmem =>
    absurd ((mem_splitWhitespace hw).2 _ hmem) (by decide)
  have hlast : ∀ w ∈ splitWhitespace line, splitWhitespace w = [w] := fun w hw =>
    splitWhitespace_word (mem_splitWhitespace hw).2 (mem_splitWhitespace hw).1
  have hnext : ∀ w ∈ splitWhitespace line, ∀ s,
      splitWhitespace (w ++ ("   ".toList ++ s)) = w :: splitWhitespace s := by
    intro w hw s
    show splitWhitespace (w ++ ' ' :: ' ' :: ' ' :: s) = _
    rw [splitWhitespace_append_cons (by decide), hlast w hw, splitWhitespace_cons (by decide),
      splitWhitespace_cons (by decide)]
    rfl
  have hgap : '\n' ∉ "   ".toList := by decide
  unfold applyConnectSpaceInsertion
  split
  · rename_i a b c more hw
    rw [hw] at hno hnext hlast ⊢
    simp only [List.append_assoc, List.mem_append, not_or]
    refine ⟨⟨hno a (by simp), hgap, hno b (by simp), hgap, hno c (by simp)⟩, ?_⟩
    rw [hnext a (by simp), hnext b (by simp), hlast c (by simp)]
    rfl
  · rename_i a b hw
    rw [hw] at hno hnext hlast ⊢
    simp only [List.append_assoc, List.mem_append, not_or]
    refine ⟨⟨hno a (by simp), hgap, hno b (by simp)⟩, ?_⟩
    rw [hnext a (by simp), hlast b (by simp)]
    rfl
  · rename_i hthree htwo
    refine ⟨h, (List.take_of_length_le ?_).symm⟩
    rcases hw : splitWhitespace line with _ | ⟨a, _ | ⟨b, _ | ⟨c, more⟩⟩⟩
    · exact Nat.zero_le _
    · exact Nat.le_add_left _ _
    · exact absurd hw (htwo a b)
    · exact absurd hw (hthree a b c more)

/-- A request whose first line has spaces inserted keeps the first three words of that
line, whatever follows it. -/
theorem firstWords_insertion (s rest : Str) :
    let line := applyConnectSpaceInsertion ((lines s).head?.getD [])
    firstWords (if rest = [] then line else line ++ crlf ++ rest) = (firstWords s).take 3 := by
  have hn : '\n' ∉ (lines s).head?.getD [] := by
    cases hl : (lines s).head? with
    | none => exact List.not_mem_nil
    | some l => exact newline_notMem_of_lines hl
  obtain ⟨hline, hwords⟩ := applyConnectSpaceInsertion_spec hn
  show _ = (splitWhitespace ((lines s).head?.getD [])).take 3
  rw [← hwords]
  split
  · exact firstWords_of_no_newline hline
  · exact firstWords_append_crlf hline _

/-- **Preprocessing keeps the words** of the first line, the first three of them where
spaces are inserted. -/
theorem firstWords_preprocess (s : Str) (httpSpace mixHeaderCase : Bool) :
    firstWords (preprocessHttpRequest s httpSpace mixHeaderCase) =
      if httpSpace then (firstWords s).take 3 else firstWords s := by
  -- the headers are stripped, the spaces inserted and the cases mixed, one after another
  unfold preprocessHttpRequest stripProxyHeaders applyHeaderCaseMixing
  cases httpSpace <;> cases mixHeaderCase
  · exact firstWords_editHeaderLines _ _
  · exact (firstWords_editHeaderLines _ _).trans (firstWords_editHeaderLines _ _)
  · exact (firstWords_insertion _ _).trans (congrArg _ (firstWords_editHeaderLines _ _))
  · exact (firstWords_editHeaderLines _ _).trans
      ((firstWords_insertion _ _).trans (congrArg _ (firstWords_editHeaderLines _ _)))

theorem targetOfWords_take (ws : List Str) : targetOfWords (ws.take 3) = targetOfWords ws := by
  rcases ws with _ | ⟨a, _ | ⟨b, more⟩⟩ <;> rfl

/-- **Preprocessing keeps the target.** -/
theorem parseConnectTarget_preprocess (s : Str) (httpSpace mixHeaderCase : Bool) :
    parseConnectTarget (preprocessHttpRequest s httpSpace mixHeaderCase) =
      parseConnectTarget s := by
  rw [parseConnectTarget_eq, parseConnectTarget_eq, firstWords_preprocess]
  cases httpSpace with
  | false => rfl
  | true => exact targetOfWords_take _

/-- A request whose first line starts with a word is a CONNECT after preprocessing if that
word is. -/
theorem isHttpConnect_preprocess {s w : Str} {ws : List Str} (h : firstWords s = w :: ws)
    (httpSpace mixHeaderCase : Bool) :
    isHttpConnect (preprocessHttpRequest s httpSpace mixHeaderCase) =
      eqIgnoreAsciiCase w "CONNECT".toList := by
  have hwords := firstWords_preprocess s httpSpace mixHeaderCase
  rw [h] at hwords
  cases httpSpace with
  | false => exact isHttpConnect_of_firstWords hwords
  | true => exact isHttpConnect_of_firstWords hwords

/-- **Preprocessing keeps a CONNECT what it is**: the target of the request, and
that the request is a CONNECT whenever it has one. -/
theorem preprocessHttpRequest_keeps_connect (r : Str) (httpSpace mixHeaderCase : Bool) :
    parseConnectTarget (preprocessHttpRequest r httpSpace mixHeaderCase) = parseConnectTarget r ∧
      ∀ target, parseConnectTarget r = some target →
        isHttpConnect r = true ∧
          isHttpConnect (preprocessHttpRequest r httpSpace mixHeaderCase) = true := by
  have hkeep := parseConnectTarget_preprocess r httpSpace mixHeaderCase
  refine ⟨hkeep, ?_⟩
  intro target htarget
  constructor
  · exact isHttpConnect_of_target htarget
  · apply isHttpConnect_of_target
    rw [hkeep, htarget]

/-! ## The trailing dot and the listed domains -/

/-- The classification does not depend on how a `Σ` at the end of a word is written
in lower case. -/
theorem isPaddingIncompatibleDomain_lowercaseWith (wordEnd : Str → Str → Bool) (host : Str) :
    (paddingIncompatibleDomains.any fun domain =>
      domain.isSuffixOf (lowercaseWith wordEnd [] host)) = isPaddingIncompatibleDomain host := by
  have hall : ∀ d ∈ paddingIncompatibleDomains, d.all fun c => c.toNat < 128 := by decide
  have hascii : ∀ d ∈ paddingIncompatibleDomains, ∀ c ∈ d, c.toNat < 128 := fun d hd =>
    List.all_iff_forall_prop.mp (hall d hd)
  rw [isPaddingIncompatibleDomain, Bool.eq_iff_iff, List.any_eq_true, List.any_eq_true]
  simp only [List.isSuffixOf_iff_suffix]
  exact exists_congr fun d => and_congr_right fun hd =>
    suffix_lowercaseWith (hascii d hd) wordEnd host

/-- The last character of a string in lower case, if it is ASCII. -/
theorem toLowercase_concat {c : Char} (h : c.toNat < 128) (s : Str) :
    toLowercase (s ++ [c]) = toLowercase s ++ [c.toLower] := by
  have hc : ∀ d ∈ [c], d.toNat < 128 := fun d hd => by rwa [List.mem_singleton.mp hd]
  rw [toLowercase_append, toLowercase_ascii hc, List.map_singleton]

/-- No listed domain ends in a character of addresses. -/
theorem getLast_of_listed {domain : Str} (h : domain ∈ paddingIncompatibleDomains) :
    domain.getLast? = some 'm' ∨ domain.getLast? = some 't' := by
  have hall : ∀ d ∈ paddingIncompatibleDomains, d.getLast? = some 'm' ∨ d.getLast? = some 't' := by
    decide
  exact hall domain h

/-- **A host that ends in a character of addresses**, the dot among them, is not
classified as a listed domain. -/
theorem not_incompatible_of_addrChar {c : Char} (h : isAddrChar c = true) (s : Str) :
    isPaddingIncompatibleDomain (s ++ [c]) = false := by
  have hascii : c.toNat < 128 := isAddrChar_ascii h
  have hlower : c.toLower ≠ 'm' ∧ c.toLower ≠ 't' := by
    have hall : ∀ n < 128, isAddrChar (Char.ofNat n) = true →
        (Char.ofNat n).toLower ≠ 'm' ∧ (Char.ofNat n).toLower ≠ 't' := by decide +kernel
    have := hall c.toNat hascii
    rw [Char.ofNat_toNat] at this
    exact this h
  rw [isPaddingIncompatibleDomain, List.any_eq_false]
  intro domain hd hsuffix
  rw [List.isSuffixOf_iff_suffix, toLowercase_concat hascii] at hsuffix
  obtain ⟨t, ht⟩ := hsuffix
  have hlast : ∀ e, domain.getLast? = some e → e = c.toLower := by
    intro e he
    have := congrArg List.getLast? ht
    rwa [List.getLast?_append, he, Option.some_or, List.getLast?_concat, Option.some.injEq] at this
  rcases getLast_of_listed hd with hm | hm
  · exact hlower.1 (hlast _ hm).symm
  · exact hlower.2 (hlast _ hm).symm

/-- With the trailing dot no host is classified as a listed domain. -/
theorem not_incompatible_ensureTrailingDot (host : Str) :
    isPaddingIncompatibleDomain (ensureTrailingDot host) = false := by
  unfold ensureTrailingDot
  split
  · rename_i h
    -- a host that is left alone is empty, or ends in a dot or in a character of addresses
    rcases h with rfl | h | h
    · decide
    · obtain ⟨s, rfl⟩ := List.getLast?_eq_some_iff.mp h
      exact not_incompatible_of_addrChar (by decide) s
    · obtain ⟨ip, hip⟩ := Option.isSome_iff_exists.mp h
      cases host using List.reverseRecOn with
      | nil => decide
      | append_singleton s c =>
        exact not_incompatible_of_addrChar (parseIpAddr_chars hip c (by simp)) s
  · exact not_incompatible_of_addrChar (by decide) host

/-- **The trailing dot changes the classification** of exactly the hosts that end
in a listed domain. -/
theorem trailingDot_keeps_classification (rawHost : Str) :
    isPaddingIncompatibleDomain (ensureTrailingDot rawHost) = isPaddingIncompatibleDomain rawHost ↔
      ∀ domain ∈ paddingIncompatibleDomains, ¬ domain <:+ toLowercase rawHost := by
  rw [not_incompatible_ensureTrailingDot, eq_comm, isPaddingIncompatibleDomain, List.any_eq_false]
  simp only [List.isSuffixOf_iff_suffix]

theorem trailingDot_keeps_classification_fails :
    parseConnectTarget "CONNECT instagram.com:443 HTTP/1.1\r\n\r\n".toList =
      some ("instagram.com".toList, 443) ∧
    isPaddingIncompatibleDomain (ensureTrailingDot "instagram.com".toList) ≠
      isPaddingIncompatibleDomain "instagram.com".toList := by
  decide +kernel

end GreenTunnel
