import GreenTunnel.HttpText
import GreenTunnel.Lines

/-! # Which requests name a target (`utils.rs`)

`parseConnectTarget` takes more for a target than it should: it cuts the second
word at its colons and looks at the first two pieces, so a third piece is ignored,
the host may be empty and the port may have a `+` (`accepts_only_targets_iff`).

And it looks at less than it should: `isHttpConnect` skips blank lines in front of a
CONNECT and `parseConnectTarget` does not, so the two agree exactly when the first
line that is not blank is the first (`agree_iff`).
-/
namespace GreenTunnel

/-! ## What is accepted -/

/-- The word is the host, which is not empty, or the host, a colon and the port in
decimal digits; without a port the port is 443. -/
def NamesTarget (word host : Str) (port : Nat) : Prop :=
  host ≠ [] ∧ (word = host ∧ port = 443 ∨
    ∃ digits, word = host ++ ':' :: digits ∧ digits ≠ [] ∧ (∀ c ∈ digits, c.isDigit = true) ∧
      decimal digits = port)

/-- What is taken from the request for its target is all of the second word of its
first line. -/
def AcceptsOnlyTargets (request : Str) : Prop :=
  ∀ host port, parseConnectTarget request = some (host, port) →
    ∃ method word more, firstWords request = method :: word :: more ∧ NamesTarget word host port

/-- A CONNECT whose second word has a number between its first colon and the next
has nothing in that word that is ignored: something stands in front of the colon, no
other colon follows, and the number has no `+`. -/
def NothingIgnored (request : Str) : Prop :=
  ∀ method word more, firstWords request = method :: word :: more →
    eqIgnoreAsciiCase method "CONNECT".toList = true →
    ∀ host rest, word = host ++ ':' :: rest → ':' ∉ host →
      (parseU16 (rest.takeWhile (· ≠ ':'))).isSome = true →
        host ≠ [] ∧ ':' ∉ rest ∧ rest.head? ≠ some '+'

theorem no_colon_of_digits {s : Str} (h : ∀ c ∈ s, c.isDigit = true) :
    ':' ∉ s ∧ s.head? ≠ some '+' := by
  constructor
  · intro hc
    exact absurd (h ':' hc) (by decide)
  · intro hp
    exact absurd (h '+' (List.mem_of_mem_head? hp)) (by decide)

/-- **When only targets are accepted**: when nothing in the second word is ignored. -/
theorem accepts_only_targets_iff (request : Str) :
    AcceptsOnlyTargets request ↔ NothingIgnored request := by
  constructor
  · rintro h method word more hwords hmethod host rest rfl hhost hport
    obtain ⟨port, hport⟩ := Option.isSome_iff_exists.mp hport
    have hparse : parseConnectTarget request = some (host, port) := by
      rw [parseConnectTarget_eq, hwords, targetOfWords, if_pos hmethod,
        targetOfWord_append_colon hhost, hport]
      rfl
    obtain ⟨method', word', more', hwords', hne, hform⟩ := h host port hparse
    rw [hwords] at hwords'
    cases hwords'
    rcases hform with ⟨hword, -⟩ | ⟨digits, hword, -, hdigits, -⟩
    · exact absurd (List.self_eq_append_right.mp hword.symm) (List.cons_ne_nil _ _)
    · obtain rfl : rest = digits := (List.cons_eq_cons.mp (List.append_cancel_left hword)).2
      exact ⟨hne, no_colon_of_digits hdigits⟩
  · intro h host port hparse
    obtain ⟨method, word, more, hwords, hmethod, htarget⟩ := words_of_target hparse
    refine ⟨method, word, more, hwords, ?_⟩
    by_cases hc : ':' ∈ word
    · obtain ⟨front, rest, rfl, hfront⟩ := List.eq_append_cons_of_mem hc
      rw [targetOfWord_append_colon hfront] at htarget
      obtain ⟨n, hn, heq⟩ := Option.map_eq_some_iff.mp htarget
      cases heq
      obtain ⟨hne, hcolon, hplus⟩ :=
        h method _ more hwords hmethod _ rest rfl hfront (by rw [hn]; rfl)
      rw [takeWhile_ne_eq_self_iff.mpr hcolon, parseU16] at hn
      obtain ⟨digits, hdigits, hdne, hd, hdec, -⟩ := parseUnsigned_eq_some.mp hn
      rcases hdigits with rfl | rfl
      · exact ⟨hne, Or.inr ⟨rest, rfl, hdne, hd, hdec⟩⟩
      · exact absurd rfl hplus
    · -- without a colon the word is the host
      rw [targetOfWord_of_no_colon hc] at htarget
      cases htarget
      have hmem : host ∈ splitWhitespace ((lines request).head?.getD []) := by
        rw [← firstWords, hwords]
        exact List.mem_cons_of_mem _ List.mem_cons_self
      exact ⟨(mem_splitWhitespace hmem).1, Or.inl ⟨rfl, rfl⟩⟩

/-- A third piece is ignored, an empty host is taken, and so is a `+`. -/
theorem accepts_only_targets_fails :
    ¬ AcceptsOnlyTargets "CONNECT a.b:443:junk HTTP/1.1\r\n\r\n".toList ∧
      ¬ AcceptsOnlyTargets "CONNECT :443 HTTP/1.1\r\n\r\n".toList ∧
      ¬ AcceptsOnlyTargets "CONNECT a.b:+443 HTTP/1.1\r\n\r\n".toList := by
  have hport : ∀ (request port : Str) (c : Char),
      parseConnectTarget request = some ("a.b".toList, 443) →
      firstWords request = ["CONNECT".toList, "a.b".toList ++ ':' :: port, "HTTP/1.1".toList] →
      c ∈ port → c.isDigit = false → ¬ AcceptsOnlyTargets request := by
    intro request port c hparse hwords hc hdigit h
    obtain ⟨method, word, more, hwords', -, hform⟩ := h _ _ hparse
    rw [hwords] at hwords'
    cases hwords'
    rcases hform with ⟨hword, -⟩ | ⟨digits, hword, -, hd, -⟩
    · exact absurd (List.self_eq_append_right.mp hword.symm) (List.cons_ne_nil _ _)
    · obtain rfl : port = digits := (List.cons_eq_cons.mp (List.append_cancel_left hword)).2
      rw [hd c hc] at hdigit
      cases hdigit
  refine ⟨?_, ?_, ?_⟩
  · exact hport _ "443:junk".toList ':' (by decide) (by decide) (by decide) rfl
  · intro h
    obtain ⟨_, _, _, -, hne, -⟩ := h [] 443 (by decide)
    exact hne rfl
  · exact hport _ "+443".toList '+' (by decide) (by decide) (by decide) rfl

/-! ## Where the method is looked for -/

/-- The first line that has a word in it. -/
def firstNonBlankLine (s : Str) : Option Str := (lines s).find? fun l => splitWhitespace l ≠ []

/-- A CONNECT is one for the parser of the target too: the target is that of the
first line that is not blank, and what has a target is a CONNECT. -/
def AgreeOnConnect (s : Str) : Prop :=
  (∀ line target, isHttpConnect s = true → firstNonBlankLine s = some line →
    parseConnectTarget line = some target → parseConnectTarget s = some target) ∧
  ∀ target, parseConnectTarget s = some target → isHttpConnect s = true

/-- A line is parsed like a request that starts with it. -/
theorem parseConnectTarget_line {s line : Str} (h : (lines s).head? = some line) :
    parseConnectTarget line = parseConnectTarget s := by
  rw [parseConnectTarget_eq, parseConnectTarget_eq,
    firstWords_of_no_newline (newline_notMem_of_lines h), firstWords, h, Option.getD_some]

/-- The words of a text are those of its first line that is not blank, and more. -/
theorem splitWhitespace_of_firstNonBlank {s line : Str} (h : firstNonBlankLine s = some line) :
    ∃ more, splitWhitespace s = splitWhitespace line ++ more := by
  obtain ⟨-, blank, rest, hlines, hblank⟩ := List.find?_eq_some_iff_append.mp h
  have hnil : blank.flatMap splitWhitespace = [] := by
    rw [List.flatMap_eq_nil_iff]
    intro l hl
    simpa using hblank l hl
  refine ⟨rest.flatMap splitWhitespace, ?_⟩
  rw [splitWhitespace_lines, hlines, List.flatMap_append, hnil, List.nil_append, List.flatMap_cons]

/-- Whether a text is a CONNECT is decided by its first line that is not blank. -/
theorem isHttpConnect_of_firstNonBlank {s line : Str} (h : firstNonBlankLine s = some line) :
    isHttpConnect s = isHttpConnect line := by
  obtain ⟨more, hmore⟩ := splitWhitespace_of_firstNonBlank h
  have hne : splitWhitespace line ≠ [] := by simpa using List.find?_some h
  obtain ⟨w, ws, hw⟩ := List.exists_cons_of_ne_nil hne
  unfold isHttpConnect
  simp only [splitWhitespace_trimStart]
  rw [hmore, hw]
  rfl

/-- A text with a target has it in the first line that is not blank. -/
theorem firstNonBlank_of_target {s : Str} {target : Str × Nat}
    (h : parseConnectTarget s = some target) : firstNonBlankLine s = (lines s).head? := by
  obtain ⟨host, port⟩ := target
  obtain ⟨method, word, more, hwords, -, -⟩ := words_of_target h
  unfold firstNonBlankLine
  cases hl : lines s with
  | nil => rfl
  | cons line rest =>
    rw [firstWords, hl] at hwords
    have hne : splitWhitespace line ≠ [] := by
      rw [show splitWhitespace line = method :: word :: more from hwords]
      exact List.cons_ne_nil _ _
    simp only [List.find?_cons, decide_eq_true hne, List.head?_cons]

/-- **When the two agree**: when a CONNECT that stands in the first line that is not
blank stands in the first line. -/
theorem agree_iff (s : Str) :
    AgreeOnConnect s ↔ ∀ line target, firstNonBlankLine s = some line →
      parseConnectTarget line = some target → (lines s).head? = some line := by
  constructor
  · rintro ⟨h, -⟩ line target hfirst htarget
    have hconnect : isHttpConnect s = true := by
      rw [isHttpConnect_of_firstNonBlank hfirst]
      exact isHttpConnect_of_target htarget
    rw [← firstNonBlank_of_target (h line target hconnect hfirst htarget), hfirst]
  · intro h
    refine ⟨?_, fun target => isHttpConnect_of_target⟩
    intro line target _ hfirst htarget
    rw [← parseConnectTarget_line (h line target hfirst htarget), htarget]

/-- A blank line in front of a CONNECT. -/
theorem agree_fails :
    isHttpConnect "\r\nCONNECT a.b:443 HTTP/1.1\r\n\r\n".toList = true ∧
      parseConnectTarget "\r\nCONNECT a.b:443 HTTP/1.1\r\n\r\n".toList = none ∧
      ¬ AgreeOnConnect "\r\nCONNECT a.b:443 HTTP/1.1\r\n\r\n".toList := by
  refine ⟨by decide, by decide, ?_⟩
  intro h
  have hparse := h.1 "CONNECT a.b:443 HTTP/1.1".toList ("a.b".toList, 443) (by decide) (by decide)
    (by decide)
  exact absurd hparse (by decide)

end GreenTunnel
