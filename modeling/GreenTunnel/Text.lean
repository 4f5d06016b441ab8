import GreenTunnel.Bytes
import Mathlib.Data.Bool.AllAny
import Mathlib.Data.List.DropRight
import Mathlib.Data.List.TakeWhile

/-! # Text

Strings as lists of characters, with the standard library operations a text
protocol is parsed with: lines, words, splitting at a separator, trimming,
comparison ignoring ASCII case, and decimal numbers.  `Char.toLower` and
`Char.toUpper` are the ASCII case mappings.

The lemmas say how `lines` and `splitWhitespace` take a text apart from the
front, one line or one word at a time; with them a parser is run on a text of
which only the beginning is known.
-/
namespace GreenTunnel

/-- A string of characters. -/
abbrev Str := List Char

/-- The characters with the Unicode property White_Space. -/
def isWhitespace (c : Char) : Bool :=
  let n := c.toNat
  (9 ≤ n && n ≤ 13) || n == 0x20 || n == 0x85 || n == 0xA0 || n == 0x1680 ||
    (0x2000 ≤ n && n ≤ 0x200A) || n == 0x2028 || n == 0x2029 || n == 0x202F ||
    n == 0x205F || n == 0x3000

/-- The string in UTF-8. -/
def utf8Bytes (s : Str) : Bytes := s.flatMap String.utf8EncodeChar

/-- The prefix of `n` bytes, if `n` is a character boundary of the string. -/
def bytePrefix (n : Nat) : Str → Option Str
  | [] => if n = 0 then some [] else none
  | c :: cs =>
    if n = 0 then some []
    else if c.utf8Size ≤ n then (bytePrefix (n - c.utf8Size) cs).map (c :: ·)
    else none

/-- Equality ignoring ASCII case. -/
def eqIgnoreAsciiCase (a b : Str) : Bool := a.map Char.toLower == b.map Char.toLower

/-- The line ending `\r\n`. -/
def crlf : Str := ['\r', '\n']

/-- A line without the `\r` of its `\r\n` ending. -/
def stripCr (line : Str) : Str := if line.getLast? = some '\r' then line.dropLast else line

/-- The lines of a string whose current line starts with `cur`. -/
def linesFrom (cur : Str) : Str → List Str
  | [] => if cur = [] then [] else [cur]
  | c :: cs => if c = '\n' then stripCr cur :: linesFrom [] cs else linesFrom (cur ++ [c]) cs

/-- The lines of a string: `\n` and `\r\n` end a line, and the end of the string
ends a last line that is not empty. -/
def lines (s : Str) : List Str := linesFrom [] s

/-- The words of a string: its longest pieces without white space. -/
def splitWhitespace (s : Str) : List Str := (s.splitOnP isWhitespace).filter (· ≠ [])

/-- The text before and after the first `c`. -/
def splitOnce (c : Char) (s : Str) : Option (Str × Str) :=
  if c ∈ s then some (s.takeWhile (· ≠ c), (s.dropWhile (· ≠ c)).tail) else none

/-- The text before and after the first `pat`. -/
def splitOnceStr (pat : Str) : Str → Option (Str × Str)
  | [] => if pat = [] then some ([], []) else none
  | c :: cs =>
    if pat <+: c :: cs then some ([], (c :: cs).drop pat.length)
    else (splitOnceStr pat cs).map fun p => (c :: p.1, p.2)

/-- A string without the white space at its start. -/
def trimStart (s : Str) : Str := s.dropWhile isWhitespace

/-- A string without the white space at either end. -/
def trim (s : Str) : Str := (trimStart s).rdropWhile isWhitespace

/-- A string without the `c`s at its end. -/
def trimEndMatches (c : Char) (s : Str) : Str := s.rdropWhile (· == c)

/-- The number a string of decimal digits denotes. -/
def decimal (s : Str) : Nat := s.foldl (fun n c => n * 10 + (c.toNat - 48)) 0

/-- A decimal number below `bound`; a `+` may stand in front. -/
def parseUnsigned (bound : Nat) (s : Str) : Option Nat :=
  let digits := if s.head? = some '+' then s.tail else s
  if digits ≠ [] ∧ digits.all Char.isDigit ∧ decimal digits < bound then some (decimal digits)
  else none

/-- A decimal number of 16 bits. -/
def parseU16 (s : Str) : Option Nat := parseUnsigned 65536 s

/-! ### ASCII -/

/-- A string of ASCII characters has a byte for each of them. -/
theorem utf8Bytes_ascii {s : Str} (h : ∀ c ∈ s, c.toNat < 128) :
    utf8Bytes s = s.map fun c => UInt8.ofNat c.toNat := by
  induction s with
  | nil => rfl
  | cons c s ih =>
    have hc : String.utf8EncodeChar c = [UInt8.ofNat c.toNat] := by
      have hle : c.val.toNat ≤ 0x7f := Nat.le_of_lt_succ (h c List.mem_cons_self)
      rw [String.utf8EncodeChar, if_pos hle]
      rfl
    have hs := ih fun d hd => h d (List.mem_cons_of_mem _ hd)
    rw [utf8Bytes] at hs ⊢
    rw [List.flatMap_cons, hc, hs]
    rfl

/-- The first bytes of a string of ASCII characters are its first characters. -/
theorem utf8Bytes_take {s : Str} (h : ∀ c ∈ s, c.toNat < 128) (n : Nat) :
    (utf8Bytes s).take n = utf8Bytes (s.take n) := by
  rw [utf8Bytes_ascii h, utf8Bytes_ascii fun c hc => h c (List.mem_of_mem_take hc), List.map_take]

theorem utf8Bytes_length {s : Str} (h : ∀ c ∈ s, c.toNat < 128) :
    (utf8Bytes s).length = s.length := by
  rw [utf8Bytes_ascii h, List.length_map]

/-! ### Decimal numbers -/

/-- Digits behind a number do not make it smaller. -/
theorem decimal_take_le (s : Str) (n : Nat) : decimal (s.take n) ≤ decimal s := by
  have hfold : ∀ (t : Str) (m : Nat), m ≤ t.foldl (fun n c => n * 10 + (c.toNat - 48)) m := by
    intro t
    induction t with
    | nil => exact fun m => Nat.le_refl m
    | cons c t ih => exact fun m => Nat.le_trans (by omega) (ih (m * 10 + (c.toNat - 48)))
  conv_rhs => rw [← List.take_append_drop n s, decimal, List.foldl_append]
  exact hfold _ _

/-- **What is read as a number**: digits, with or without a `+` in front. -/
theorem parseUnsigned_eq_some {bound n : Nat} {s : Str} :
    parseUnsigned bound s = some n ↔ ∃ digits, (s = digits ∨ s = '+' :: digits) ∧ digits ≠ [] ∧
      (∀ c ∈ digits, c.isDigit = true) ∧ decimal digits = n ∧ n < bound := by
  unfold parseUnsigned
  dsimp only
  constructor
  · intro h
    generalize hdigits : (if s.head? = some '+' then s.tail else s) = digits at h
    have hs : s = digits ∨ s = '+' :: digits := by
      rw [← hdigits]
      split
      · rename_i hplus
        obtain ⟨t, rfl⟩ := List.head?_eq_some_iff.mp hplus
        exact Or.inr rfl
      · exact Or.inl rfl
    split at h
    · rename_i hnum
      cases h
      exact ⟨digits, hs, hnum.1, List.all_eq_true.mp hnum.2.1, rfl, hnum.2.2⟩
    · cases h
  · rintro ⟨digits, hs, hne, hd, rfl, hlt⟩
    have hdigits : (if s.head? = some '+' then s.tail else s) = digits := by
      rcases hs with rfl | rfl
      · rw [if_neg]
        intro hplus
        exact absurd (hd '+' (List.mem_of_mem_head? hplus)) (by decide)
      · rfl
    rw [hdigits, if_pos ⟨hne, List.all_eq_true.mpr hd, hlt⟩]

/-- A string of digits is read as the number it denotes, if that fits. -/
theorem parseU16_digits {s : Str} (hne : s ≠ []) (hd : ∀ c ∈ s, c.isDigit = true)
    (hlt : decimal s < 65536) : parseU16 s = some (decimal s) :=
  parseUnsigned_eq_some.mpr ⟨s, Or.inl rfl, hne, hd, rfl, hlt⟩

/-! ### Splitting at a separator -/

theorem splitOnce_eq_some {c : Char} {s a b : Str} :
    splitOnce c s = some (a, b) ↔ c ∉ a ∧ s = a ++ c :: b := by
  have hcons : ∀ {a b : Str}, c ∉ a → splitOnce c (a ++ c :: b) = some (a, b) := by
    intro a b ha
    have hpos : ∀ d ∈ a, decide (d ≠ c) = true := fun d hd =>
      decide_eq_true fun h => ha (h ▸ hd)
    rw [splitOnce, if_pos (by simp), List.takeWhile_append_of_pos hpos,
      List.dropWhile_append_of_pos hpos]
    simp
  constructor
  · intro h
    by_cases hc : c ∈ s
    · obtain ⟨x, y, rfl, hx⟩ := List.eq_append_cons_of_mem hc
      rw [hcons hx, Option.some.injEq, Prod.mk.injEq] at h
      obtain ⟨rfl, rfl⟩ := h
      exact ⟨hx, rfl⟩
    · rw [splitOnce, if_neg hc] at h
      cases h
  · rintro ⟨ha, rfl⟩
    exact hcons ha

theorem splitOnce_eq_none {c : Char} {s : Str} : splitOnce c s = none ↔ c ∉ s := by
  unfold splitOnce
  by_cases h : c ∈ s
  · simp [h]
  · simp [h]

/-! ### Trimming -/

/-- What stands in front of the first `c` is all of a text without a `c`. -/
theorem takeWhile_ne_eq_self_iff {c : Char} {s : Str} : s.takeWhile (· ≠ c) = s ↔ c ∉ s := by
  rw [List.takeWhile_eq_self_iff]
  constructor
  · intro h hc
    exact of_decide_eq_true (h c hc) rfl
  · intro h d hd
    exact decide_eq_true fun hdc => h (hdc ▸ hd)

/-- The first piece of a text ends where the separator first stands. -/
theorem splitOn_zero (c : Char) (s : Str) : (s.splitOn c)[0]? = some (s.takeWhile (· ≠ c)) := by
  by_cases hc : c ∈ s
  · obtain ⟨a, b, rfl, ha⟩ := List.eq_append_cons_of_mem hc
    rw [List.splitOn_append_cons_self_of_not_mem ha, List.takeWhile_append_of_pos]
    · simp
    · intro d hd
      exact decide_eq_true fun h => ha (h ▸ hd)
  · rw [List.splitOn_eq_singleton hc, takeWhile_ne_eq_self_iff.mpr hc]
    rfl

theorem mem_of_mem_trim {c : Char} {s : Str} (h : c ∈ trim s) : c ∈ s :=
  (List.dropWhile_sublist isWhitespace).subset
    ((List.rdropWhile_prefix isWhitespace (trimStart s)).subset h)

theorem trim_trim (s : Str) : trim (trim s) = trim s := by
  have hstart : trimStart (trim s) = trim s := by
    unfold trim
    cases ht : trimStart s with
    | nil => rfl
    | cons c t =>
      have hc : isWhitespace c = false := by
        have := List.head?_dropWhile_not isWhitespace s
        rw [show s.dropWhile isWhitespace = c :: t from ht] at this
        exact Bool.eq_false_iff.mpr (by simpa using this)
      -- what is left at the end is no white space at the front
      obtain ⟨u, hu⟩ := List.rdropWhile_prefix isWhitespace (c :: t)
      cases hr : (c :: t).rdropWhile isWhitespace with
      | nil =>
        have hall := List.rdropWhile_eq_nil_iff.mp hr
        rw [hall c List.mem_cons_self] at hc
        cases hc
      | cons d r =>
        rw [hr] at hu
        obtain ⟨rfl, -⟩ := List.cons_eq_cons.mp hu
        rw [trimStart, List.dropWhile_cons_of_neg (by simp [hc])]
  conv_lhs => rw [trim, hstart]
  exact List.rdropWhile_idempotent isWhitespace (trimStart s)

/-! ### Lines -/

theorem linesFrom_append_newline {cur l : Str} (h : '\n' ∉ l) (s : Str) :
    linesFrom cur (l ++ '\n' :: s) = stripCr (cur ++ l) :: linesFrom [] s := by
  induction l generalizing cur with
  | nil => simp [linesFrom]
  | cons c l ih =>
    have hc : '\n' ≠ c := List.ne_of_not_mem_cons h
    have hl : '\n' ∉ l := List.not_mem_of_not_mem_cons h
    rw [List.cons_append, linesFrom, if_neg (Ne.symm hc), ih hl, List.append_assoc]
    rfl

theorem linesFrom_of_no_newline {cur l : Str} (h : '\n' ∉ l) :
    linesFrom cur l = if cur ++ l = [] then [] else [cur ++ l] := by
  induction l generalizing cur with
  | nil => simp [linesFrom]
  | cons c l ih =>
    have hc : '\n' ≠ c := List.ne_of_not_mem_cons h
    have hl : '\n' ∉ l := List.not_mem_of_not_mem_cons h
    rw [linesFrom, if_neg (Ne.symm hc), ih hl, List.append_assoc]
    rfl

/-- The first line ends at the first `\n`. -/
theorem lines_append_newline {l : Str} (h : '\n' ∉ l) (s : Str) :
    lines (l ++ '\n' :: s) = stripCr l :: lines s := linesFrom_append_newline h s

/-- A string without `\n` is its only line. -/
theorem lines_of_no_newline {l : Str} (h : '\n' ∉ l) (hne : l ≠ []) : lines l = [l] := by
  rw [lines, linesFrom_of_no_newline h, List.nil_append, if_neg hne]

theorem stripCr_append_cr (l : Str) : stripCr (l ++ ['\r']) = l := by
  simp [stripCr]

/-- A first line that `\r\n` ends. -/
theorem lines_append_crlf {l : Str} (h : '\n' ∉ l) (s : Str) :
    lines (l ++ crlf ++ s) = l :: lines s := by
  have hl : '\n' ∉ l ++ ['\r'] := by simp [h]
  have := lines_append_newline hl s
  rw [stripCr_append_cr] at this
  rw [← this]
  simp [crlf]

/-- A string that is not empty has a first line: all of it, or what stands in
front of its first `\n`. -/
theorem lines_cases (s : Str) :
    s = [] ∨ ('\n' ∉ s ∧ lines s = [s]) ∨
      ∃ l rest, s = l ++ '\n' :: rest ∧ '\n' ∉ l ∧ lines s = stripCr l :: lines rest := by
  by_cases h : '\n' ∈ s
  · obtain ⟨l, rest, rfl, hl⟩ := List.eq_append_cons_of_mem h
    exact Or.inr (Or.inr ⟨l, rest, rfl, hl, lines_append_newline hl rest⟩)
  · by_cases hne : s = []
    · exact Or.inl hne
    · exact Or.inr (Or.inl ⟨h, lines_of_no_newline h hne⟩)

theorem stripCr_cases (l : Str) : stripCr l = l ∨ l = stripCr l ++ ['\r'] := by
  unfold stripCr
  split
  · rename_i h
    obtain ⟨m, rfl⟩ := List.getLast?_eq_some_iff.mp h
    exact Or.inr (by rw [List.dropLast_concat])
  · exact Or.inl rfl

/-- The first line has no line ending in it. -/
theorem newline_notMem_of_lines {s l : Str} (h : (lines s).head? = some l) : '\n' ∉ l := by
  rcases lines_cases s with rfl | ⟨hs, hl⟩ | ⟨l', rest, -, hl', hl⟩
  · cases h
  · rw [hl, List.head?_cons, Option.some.injEq] at h
    exact h ▸ hs
  · rw [hl, List.head?_cons, Option.some.injEq] at h
    subst h
    intro hmem
    rcases stripCr_cases l' with heq | heq
    · exact hl' (heq ▸ hmem)
    · exact hl' (heq ▸ List.mem_append_left _ hmem)

/-! ### Words -/

theorem splitWhitespace_nil : splitWhitespace [] = [] := rfl

/-- A text is its first word, up to a white space character, and what follows. -/
theorem splitWhitespace_append_cons {w : Str} {c : Char} (hc : isWhitespace c = true) (s : Str) :
    splitWhitespace (w ++ c :: s) = splitWhitespace w ++ splitWhitespace s := by
  rw [splitWhitespace, List.splitOnP_append_cons w s hc, List.filter_append]
  rfl

theorem splitWhitespace_cons {c : Char} (hc : isWhitespace c = true) (s : Str) :
    splitWhitespace (c :: s) = splitWhitespace s := splitWhitespace_append_cons (w := []) hc s

/-- A non-empty text without white space is its only word. -/
theorem splitWhitespace_word {w : Str} (hw : ∀ c ∈ w, isWhitespace c = false) (hne : w ≠ []) :
    splitWhitespace w = [w] := by
  rw [splitWhitespace, List.splitOnP_eq_singleton hw]
  simp [hne]

/-- A word is not empty and has no white space in it. -/
theorem mem_splitWhitespace {w s : Str} (h : w ∈ splitWhitespace s) :
    w ≠ [] ∧ ∀ c ∈ w, isWhitespace c = false := by
  obtain ⟨hw, hne⟩ := List.mem_filter.mp h
  refine ⟨of_decide_eq_true hne, ?_⟩
  clear h hne
  induction s generalizing w with
  | nil =>
    rw [List.splitOnP_nil, List.mem_singleton] at hw
    rw [hw]
    exact fun c hc => absurd hc List.not_mem_nil
  | cons c s ih =>
    rw [List.splitOnP_cons_eq_if_modifyHead] at hw
    split at hw
    · rcases List.mem_cons.mp hw with rfl | hw
      · exact fun d hd => absurd hd List.not_mem_nil
      · exact ih hw
    · rename_i hc
      cases hs : s.splitOnP isWhitespace with
      | nil => exact absurd hs (List.splitOnP_ne_nil _ _)
      | cons w' ws =>
        rw [hs, List.modifyHead_cons] at hw
        rcases List.mem_cons.mp hw with rfl | hw
        · intro d hd
          rcases List.mem_cons.mp hd with rfl | hd
          · exact Bool.eq_false_iff.mpr hc
          · exact ih (hs ▸ List.mem_cons_self) d hd
        · exact ih (hs ▸ List.mem_cons_of_mem _ hw)

/-- White space lies before and behind the letters. -/
theorem toNat_of_whitespace {c : Char} (h : isWhitespace c = true) :
    c.toNat ≤ 32 ∨ 128 ≤ c.toNat := by
  simp only [isWhitespace, Bool.or_eq_true, Bool.and_eq_true, decide_eq_true_eq,
    beq_iff_eq] at h
  omega

/-- ASCII case leaves white space alone. -/
theorem toLower_of_whitespace {c : Char} (h : isWhitespace c = true) : c.toLower = c := by
  have hcode := toNat_of_whitespace h
  have hupper : ¬(c.val ≥ 'A'.val ∧ c.val ≤ 'Z'.val) := by
    rintro ⟨hlo, hhi⟩
    have hlo' : 65 ≤ c.toNat := hlo
    have hhi' : c.toNat ≤ 90 := hhi
    omega
  exact dif_neg hupper

/-- What equals a word ignoring ASCII case has no white space in it either. -/
theorem not_whitespace_of_eqIgnoreAsciiCase {a b : Str} (h : eqIgnoreAsciiCase a b = true)
    (hb : ∀ c ∈ b.map Char.toLower, isWhitespace c = false) : ∀ c ∈ a, isWhitespace c = false := by
  intro c hc
  rw [eqIgnoreAsciiCase, beq_iff_eq] at h
  by_cases hw : isWhitespace c = true
  · have hmem := List.mem_map_of_mem (f := Char.toLower) hc
    rw [h, toLower_of_whitespace hw] at hmem
    exact hb c hmem
  · exact Bool.eq_false_iff.mpr hw

theorem splitWhitespace_stripCr (l : Str) : splitWhitespace (stripCr l) = splitWhitespace l := by
  rcases stripCr_cases l with h | h
  · rw [h]
  · conv_rhs => rw [h, splitWhitespace_append_cons (by decide), splitWhitespace_nil,
      List.append_nil]

theorem splitWhitespace_trimStart (s : Str) :
    splitWhitespace (trimStart s) = splitWhitespace s := by
  induction s with
  | nil => rfl
  | cons c s ih =>
    by_cases hc : isWhitespace c = true
    · rw [splitWhitespace_cons hc, ← ih, trimStart, trimStart, List.dropWhile_cons_of_pos hc]
    · rw [trimStart, List.dropWhile_cons_of_neg hc]

/-- The words of a string start with those of its first line. -/
theorem splitWhitespace_of_lines {s l : Str} (h : (lines s).head? = some l) :
    ∃ ws, splitWhitespace s = splitWhitespace l ++ ws := by
  rcases lines_cases s with rfl | ⟨-, hl⟩ | ⟨l', rest, rfl, -, hl⟩
  · cases h
  · rw [hl, List.head?_cons, Option.some.injEq] at h
    exact ⟨[], by rw [h, List.append_nil]⟩
  · rw [hl, List.head?_cons, Option.some.injEq] at h
    exact ⟨splitWhitespace rest, by
      rw [← h, splitWhitespace_stripCr, splitWhitespace_append_cons (by decide)]⟩

end GreenTunnel
