import GreenTunnel.AsciiCase
import GreenTunnel.HttpText
import GreenTunnel.Lines

/-! # What preprocessing does to the header lines (`utils.rs`)

Stripping the proxy headers, inserting spaces and mixing the case of the names are
three passes over the text, each of which takes it apart into lines and joins them
again.  The passes compose: the lines behind the first of what they make are the
header lines of the request, edited (`lines_tail_preprocess`).  So every header
line is kept unless it names a proxy header, in order and with its value
(`preprocessHttpRequest_headers`).

The empty line that ends a header is kept as a line and lost as a text: the lines
are joined without an end of line behind the last, which is the empty one.  None of
the passes leaves a header that is ended (`framing_lost`).
-/
namespace GreenTunnel

/-- The lines of the header: those behind the first line, up to an empty one. -/
def headerLines (s : Str) : List Str := (lines s).tail.takeWhile (· ≠ [])

/-- The line is a field, and its name one of the headers that identify a proxy. -/
def namesProxy (line : Str) : Bool :=
  match splitOnce ':' line with
  | some (key, _) => proxyHeadersToRemove.any (eqIgnoreAsciiCase · (trim key))
  | none => false

/-- The line with its name trimmed and in mixed case, if it is a field. -/
def mixName (line : Str) : Str :=
  match splitOnce ':' line with
  | some (key, val) => mixCase (trim key) ++ ':' :: val
  | none => line

/-- The pass that inserts spaces. -/
def insertSpaces (processed : Str) : Str :=
  let firstLine := (lines processed).head?.getD []
  let modifiedLine := applyConnectSpaceInsertion firstLine
  let rest :=
    if crlf <:+: processed then ((splitOnceStr crlf processed).map (·.2)).getD []
    else if '\n' ∈ processed then ((splitOnce '\n' processed).map (·.2)).getD []
    else []
  if rest = [] then modifiedLine else modifiedLine ++ crlf ++ rest

/-! ## The passes -/

theorem stripProxyHeaders_eq (s : Str) : stripProxyHeaders s =
    editHeaderLines (fun line => if namesProxy line then none else some line) s := by
  unfold stripProxyHeaders namesProxy
  congr 1
  funext line
  cases splitOnce ':' line <;> rfl

theorem applyHeaderCaseMixing_eq (s : Str) :
    applyHeaderCaseMixing s = editHeaderLines (fun line => some (mixName line)) s := by
  unfold applyHeaderCaseMixing mixName
  congr 1
  funext line
  cases splitOnce ':' line <;> rfl

theorem preprocessHttpRequest_eq (s : Str) (httpSpace mixHeaderCase : Bool) :
    preprocessHttpRequest s httpSpace mixHeaderCase =
      let processed :=
        if httpSpace then insertSpaces (stripProxyHeaders s) else stripProxyHeaders s
      if mixHeaderCase then applyHeaderCaseMixing processed else processed := rfl

/-- The edit makes a line that is not empty of such a line. -/
def KeepsLines (edit : Str → Option Str) : Prop :=
  ∀ line line', line ≠ [] → '\n' ∉ line → edit line = some line' → line' ≠ [] ∧ '\n' ∉ line'

theorem keepsLines_strip :
    KeepsLines fun line => if namesProxy line then none else some line := by
  intro line line' hne hn h
  dsimp only at h
  split at h
  · cases h
  · cases h
    exact ⟨hne, hn⟩

theorem eqIgnoreAsciiCase_mixCase (s : Str) : eqIgnoreAsciiCase (mixCase s) s = true := by
  have hchar : (fun p : Char × Nat => (if p.2 % 2 = 0 then p.1.toLower else p.1.toUpper).toLower) =
      Char.toLower ∘ Prod.fst := by
    funext p
    dsimp only [Function.comp]
    split
    · exact Char.toLower_toLower_eq_toLower p.1
    · exact Char.toLower_toUpper_eq_toLower p.1
  rw [eqIgnoreAsciiCase_iff, mixCase, List.map_map]
  show s.zipIdx.map (fun p : Char × Nat =>
    (if p.2 % 2 = 0 then p.1.toLower else p.1.toUpper).toLower) = _
  rw [hchar, ← List.map_map, List.zipIdx_map_fst]

theorem keepsLines_mix : KeepsLines fun line => some (mixName line) := by
  intro line line' hne hn h
  cases h
  unfold mixName
  cases hs : splitOnce ':' line with
  | none => exact ⟨hne, hn⟩
  | some p =>
    obtain ⟨key, val⟩ := p
    obtain ⟨-, rfl⟩ := splitOnce_eq_some.mp hs
    rw [List.mem_append, not_or] at hn
    refine ⟨List.append_ne_nil_of_right_ne_nil _ (List.cons_ne_nil _ _), ?_⟩
    rw [List.mem_append, not_or]
    refine ⟨?_, hn.2⟩
    rw [mem_iff_of_eqIgnoreAsciiCase (eqIgnoreAsciiCase_mixCase _) (by decide)]
    exact fun hmem => hn.1 (mem_of_mem_trim hmem)

/-! ## The lines of an edited text -/

theorem mem_headerLines {s line : Str} (h : line ∈ headerLines s) : line ≠ [] ∧ '\n' ∉ line := by
  have hne : decide (line ≠ []) = true :=
    List.mem_takeWhile_imp (p := fun l : Str => decide (l ≠ [])) h
  refine ⟨of_decide_eq_true hne, ?_⟩
  exact newline_notMem_of_mem_lines (List.mem_of_mem_tail ((List.takeWhile_sublist _).subset h))

/-- The header lines are edited, and the empty line behind them stays. -/
theorem editFollowing_eq (edit : Str → Option Str) (ls : List Str) :
    editFollowing edit ls =
      (ls.takeWhile (· ≠ [])).filterMap edit ++ if [] ∈ ls then [[]] else [] := by
  induction ls with
  | nil => rfl
  | cons line ls ih =>
    by_cases hl : line = []
    · simp [editFollowing, hl]
    · have hne : ([] : Str) ≠ line := Ne.symm hl
      have htake : (line :: ls).takeWhile (· ≠ []) = line :: ls.takeWhile (· ≠ []) :=
        List.takeWhile_cons_of_pos (decide_eq_true hl)
      rw [editFollowing, if_neg hl, ih, htake, List.filterMap_cons]
      simp only [List.mem_cons, hne, false_or]
      cases edit line <;> rfl

section
variable {edit : Str → Option Str} {s : Str}

/-- What the edit leaves of the header lines are lines that are not empty. -/
theorem mem_edited (hedit : KeepsLines edit) {line : Str}
    (h : line ∈ (headerLines s).filterMap edit) : line ≠ [] ∧ '\n' ∉ line := by
  obtain ⟨l, hl, hline⟩ := List.mem_filterMap.mp h
  obtain ⟨hne, hn⟩ := mem_headerLines hl
  exact hedit l line hne hn hline

/-- **An edited text**: its lines joined, and one end of line more if an empty line
ended the header. -/
theorem editHeaderLines_eq (edit : Str → Option Str) {first : Str} {rest : List Str}
    (h : lines s = first :: rest) :
    editHeaderLines edit s = crlf.intercalate (first :: (headerLines s).filterMap edit) ++
      if [] ∈ rest then crlf else [] := by
  have hheader : headerLines s = rest.takeWhile (· ≠ []) := by
    rw [headerLines, h, List.tail_cons]
  unfold editHeaderLines
  rw [h, hheader]
  dsimp only
  rw [editFollowing_eq]
  split
  · rw [← intercalate_concat_nil (List.cons_ne_nil _ _), List.cons_append]
  · rw [List.append_nil, List.append_nil]

/-- **The lines of an edited text** are the first line and the header lines, edited,
unless there is nothing but an empty first line. -/
theorem lines_editHeaderLines (hedit : KeepsLines edit) {first : Str} {rest : List Str}
    (h : lines s = first :: rest) :
    lines (editHeaderLines edit s) = first :: (headerLines s).filterMap edit ∨
      editHeaderLines edit s = [] ∧ first = [] ∧ (headerLines s).filterMap edit = [] := by
  have hfirst : '\n' ∉ first := newline_notMem_of_mem_lines (h ▸ List.mem_cons_self)
  have hedited : ∀ l ∈ (headerLines s).filterMap edit, l ≠ [] ∧ '\n' ∉ l := fun l =>
    mem_edited hedit
  rw [editHeaderLines_eq edit h]
  generalize (headerLines s).filterMap edit = edited at hedited
  have hall : ∀ l ∈ first :: edited, '\n' ∉ l := by
    intro l hmem
    rcases List.mem_cons.mp hmem with rfl | hmem
    · exact hfirst
    · exact (hedited l hmem).2
  by_cases hend : [] ∈ rest
  · left
    rw [if_pos hend, ← intercalate_concat_nil (List.cons_ne_nil _ _), lines_join_concat_nil hall]
  · rw [if_neg hend, List.append_nil]
    by_cases hlast : (first :: edited).getLast? = some []
    · -- only the first line can be empty
      right
      cases edited with
      | nil =>
        obtain rfl : first = [] := Option.some.inj hlast
        exact ⟨rfl, rfl, rfl⟩
      | cons l edited =>
        rw [List.getLast?_cons_cons] at hlast
        exact absurd rfl (hedited [] (List.mem_of_getLast? hlast)).1
    · left
      exact lines_join_of_ne hall hlast

/-- The lines behind the first are the header lines, edited. -/
theorem lines_tail_editHeaderLines (hedit : KeepsLines edit) :
    (lines (editHeaderLines edit s)).tail = (headerLines s).filterMap edit := by
  cases hl : lines s with
  | nil =>
    unfold editHeaderLines headerLines
    rw [hl]
    rfl
  | cons first rest =>
    rcases lines_editHeaderLines hedit hl with h | ⟨h, -, hnil⟩
    · rw [h, List.tail_cons]
    · rw [h, hnil]
      rfl

end

theorem lines_tail_of_no_newline {s : Str} (h : '\n' ∉ s) : (lines s).tail = [] := by
  by_cases hne : s = []
  · rw [hne]
    rfl
  · rw [lines_of_no_newline h hne]
    rfl

/-- Inserting spaces leaves the lines behind the first of an edited text alone. -/
theorem lines_tail_insertSpaces (edit : Str → Option Str) (s : Str) :
    (lines (insertSpaces (editHeaderLines edit s))).tail =
      (lines (editHeaderLines edit s)).tail := by
  cases hl : lines s with
  | nil =>
    unfold editHeaderLines
    rw [hl]
    rfl
  | cons first rest =>
    have hfirst : '\n' ∉ first := newline_notMem_of_mem_lines (hl ▸ List.mem_cons_self)
    -- the text is its first line, or its first line and more behind an end of line
    have hform : editHeaderLines edit s = first ∨
        ∃ more, editHeaderLines edit s = first ++ crlf ++ more := by
      unfold editHeaderLines
      rw [hl]
      dsimp only
      cases editFollowing edit rest with
      | nil => exact Or.inl List.intercalate_singleton
      | cons x xs => exact Or.inr ⟨_, List.intercalate_cons_cons⟩
    rcases hform with heq | ⟨more, heq⟩
    · have hline : '\n' ∉ (lines first).head?.getD [] := by
        cases hh : (lines first).head? with
        | none => exact List.not_mem_nil
        | some l => exact newline_notMem_of_lines hh
      have hcrlf : ¬ crlf <:+: first := by
        intro h
        exact hfirst (h.subset (List.mem_cons_of_mem _ List.mem_cons_self))
      rw [heq, insertSpaces]
      simp only [if_neg hcrlf, if_neg hfirst, if_true]
      rw [lines_tail_of_no_newline (applyConnectSpaceInsertion_spec hline).1,
        lines_tail_of_no_newline hfirst]
    · have hcrlf : crlf <:+: first ++ crlf ++ more := ⟨first, more, rfl⟩
      have hhead : (lines (first ++ crlf ++ more)).head?.getD [] = first := by
        rw [lines_append_crlf hfirst]
        rfl
      have hline := (applyConnectSpaceInsertion_spec hfirst).1
      rw [heq, insertSpaces]
      simp only [if_pos hcrlf, splitOnceStr_crlf hfirst, hhead, Option.map_some, Option.getD_some]
      rw [lines_append_crlf hfirst, List.tail_cons]
      split
      · rename_i hmore
        rw [lines_tail_of_no_newline hline, hmore]
        rfl
      · rw [lines_append_crlf hline, List.tail_cons]

/-! ## The header lines of the result -/

theorem filterMap_strip (ls : List Str) :
    ls.filterMap (fun line => if namesProxy line then none else some line) =
      ls.filter (!namesProxy ·) := by
  induction ls with
  | nil => rfl
  | cons line ls ih =>
    rw [List.filterMap_cons, List.filter_cons, ih]
    cases namesProxy line <;> rfl

theorem lines_tail_strip (s : Str) :
    (lines (stripProxyHeaders s)).tail = (headerLines s).filter (!namesProxy ·) := by
  rw [stripProxyHeaders_eq, lines_tail_editHeaderLines keepsLines_strip, filterMap_strip]

theorem lines_tail_mix (s : Str) :
    (lines (applyHeaderCaseMixing s)).tail = (headerLines s).map mixName := by
  rw [applyHeaderCaseMixing_eq, lines_tail_editHeaderLines keepsLines_mix, List.filterMap_eq_map']

/-- A text in which no line behind the first is empty has these for its header. -/
theorem headerLines_of_tail {s : Str} {ls : List Str} (h : (lines s).tail = ls)
    (hne : ∀ l ∈ ls, l ≠ []) : headerLines s = ls := by
  rw [headerLines, h, List.takeWhile_eq_self_iff.mpr fun l hl => decide_eq_true (hne l hl)]

/-- **The lines behind the first** of a preprocessed request are the header lines
that name no proxy header, with their names in mixed case if that is asked for. -/
theorem lines_tail_preprocess (s : Str) (httpSpace mixHeaderCase : Bool) :
    (lines (preprocessHttpRequest s httpSpace mixHeaderCase)).tail =
      ((headerLines s).filter (!namesProxy ·)).map (if mixHeaderCase then mixName else id) := by
  rw [preprocessHttpRequest_eq]
  dsimp only
  have hinsert : (lines (if httpSpace then insertSpaces (stripProxyHeaders s)
      else stripProxyHeaders s)).tail = (headerLines s).filter (!namesProxy ·) := by
    cases httpSpace with
    | false => exact lines_tail_strip s
    | true =>
      rw [if_pos rfl, stripProxyHeaders_eq, lines_tail_insertSpaces, ← stripProxyHeaders_eq]
      exact lines_tail_strip s
  cases mixHeaderCase with
  | false =>
    rw [if_neg Bool.false_ne_true, if_neg Bool.false_ne_true, List.map_id]
    exact hinsert
  | true =>
    have hheader := headerLines_of_tail hinsert fun l hl =>
      (mem_headerLines (List.mem_of_mem_filter hl)).1
    rw [if_pos rfl, if_pos rfl, lines_tail_mix, hheader]

/-- A mixed name is trimmed, and names what it named. -/
theorem namesProxy_mixName (line : Str) : namesProxy (mixName line) = namesProxy line := by
  unfold mixName
  cases hs : splitOnce ':' line with
  | none => rfl
  | some p =>
    obtain ⟨key, val⟩ := p
    obtain ⟨hkey, rfl⟩ := splitOnce_eq_some.mp hs
    have hmixed := eqIgnoreAsciiCase_mixCase (trim key)
    have hcolon : ':' ∉ mixCase (trim key) := by
      rw [mem_iff_of_eqIgnoreAsciiCase hmixed (by decide)]
      exact fun hmem => hkey (mem_of_mem_trim hmem)
    have htrim : eqIgnoreAsciiCase (trim (mixCase (trim key))) (trim key) = true := by
      have := eqIgnoreAsciiCase_trim hmixed
      rwa [trim_trim] at this
    have hsame : ∀ h : Str, eqIgnoreAsciiCase h (trim (mixCase (trim key))) =
        eqIgnoreAsciiCase h (trim key) := by
      intro h
      rw [Bool.eq_iff_iff]
      constructor
      · intro hh
        exact eqIgnoreAsciiCase_trans hh htrim
      · intro hh
        exact eqIgnoreAsciiCase_trans hh (eqIgnoreAsciiCase_symm htrim)
    unfold namesProxy
    rw [splitOnce_eq_some.mpr ⟨hcolon, rfl⟩, hs]
    simp only [hsame]

/-- `line'` is `line`, with its name in another case if it is a field, and trimmed if
the case is `mixed`. -/
inductive Respelled (mixed : Bool) : Str → Str → Prop where
  | plain {line : Str} : ':' ∉ line → Respelled mixed line line
  | field {name name' value : Str} :
      ':' ∉ name →
      eqIgnoreAsciiCase name' (if mixed then trim name else name) = true →
      Respelled mixed (name ++ ':' :: value) (name' ++ ':' :: value)

theorem respelled_self (line : Str) : Respelled false line line := by
  cases hs : splitOnce ':' line with
  | none => exact Respelled.plain (splitOnce_eq_none.mp hs)
  | some p =>
    obtain ⟨name, value⟩ := p
    obtain ⟨hname, rfl⟩ := splitOnce_eq_some.mp hs
    exact Respelled.field hname (eqIgnoreAsciiCase_refl name)

theorem respelled_mixName (line : Str) : Respelled true line (mixName line) := by
  unfold mixName
  cases hs : splitOnce ':' line with
  | none => exact Respelled.plain (splitOnce_eq_none.mp hs)
  | some p =>
    obtain ⟨name, value⟩ := p
    obtain ⟨hname, rfl⟩ := splitOnce_eq_some.mp hs
    exact Respelled.field hname (eqIgnoreAsciiCase_mixCase (trim name))

/-- **Preprocessing touches only what it should.**  The lines of the result behind
its first that are not empty are the header lines of the request that name no proxy
header, in order, each as it was but for the case of its name; and none of them
names a proxy header. -/
theorem preprocessHttpRequest_headers (r : Str) (httpSpace mixHeaderCase : Bool) :
    List.Forall₂ (Respelled mixHeaderCase) ((headerLines r).filter (!namesProxy ·))
      ((lines (preprocessHttpRequest r httpSpace mixHeaderCase)).tail.filter (· ≠ [])) ∧
    ∀ line ∈ (lines (preprocessHttpRequest r httpSpace mixHeaderCase)).tail,
      namesProxy line = false := by
  have hkept : ∀ line ∈ (headerLines r).filter (!namesProxy ·),
      line ≠ [] ∧ '\n' ∉ line ∧ namesProxy line = false := by
    intro line hline
    obtain ⟨hmem, hproxy⟩ := List.mem_filter.mp hline
    obtain ⟨hne, hn⟩ := mem_headerLines hmem
    exact ⟨hne, hn, by simpa using hproxy⟩
  rw [lines_tail_preprocess]
  generalize (headerLines r).filter (!namesProxy ·) = kept at hkept
  cases mixHeaderCase with
  | false =>
    rw [if_neg Bool.false_ne_true, List.map_id, List.filter_eq_self.mpr fun l hl =>
      decide_eq_true (hkept l hl).1]
    constructor
    · exact List.forall₂_same.mpr fun line _ => respelled_self line
    · exact fun line hline => (hkept line hline).2.2
  | true =>
    have hmixed : ∀ line ∈ kept.map mixName, line ≠ [] := by
      intro line hline
      obtain ⟨l, hl, rfl⟩ := List.mem_map.mp hline
      exact (keepsLines_mix l _ (hkept l hl).1 (hkept l hl).2.1 rfl).1
    rw [if_pos rfl, List.filter_eq_self.mpr fun l hl => decide_eq_true (hmixed l hl)]
    constructor
    · rw [List.forall₂_map_right_iff]
      exact List.forall₂_same.mpr fun line _ => respelled_mixName line
    · intro line hline
      obtain ⟨l, hl, rfl⟩ := List.mem_map.mp hline
      rw [namesProxy_mixName]
      exact (hkept l hl).2.2

/-! ## The end of the header -/

/-- Stripping twice joins the lines that stripping once has kept. -/
theorem stripProxyHeaders_twice {s first : Str} {rest : List Str} (h : lines s = first :: rest) :
    stripProxyHeaders (stripProxyHeaders s) =
      crlf.intercalate (first :: (headerLines s).filter (!namesProxy ·)) := by
  have hne : ∀ l ∈ (headerLines s).filter (!namesProxy ·), l ≠ [] := fun l hl =>
    (mem_headerLines (List.mem_of_mem_filter hl)).1
  have hheader := headerLines_of_tail (lines_tail_strip s) hne
  rcases lines_editHeaderLines keepsLines_strip h with hlines | ⟨hnil, rfl, hkept⟩
  · rw [← stripProxyHeaders_eq, filterMap_strip] at hlines
    have hend : [] ∉ (headerLines s).filter (!namesProxy ·) := fun hmem => hne [] hmem rfl
    rw [stripProxyHeaders_eq (stripProxyHeaders s), editHeaderLines_eq _ hlines, filterMap_strip,
      hheader, List.filter_filter, if_neg hend, List.append_nil]
    simp only [Bool.and_self]
  · rw [← stripProxyHeaders_eq] at hnil
    rw [filterMap_strip] at hkept
    rw [hnil, hkept]
    rfl

/-- **Stripping again changes nothing** exactly when no empty line ended the header. -/
theorem stripProxyHeaders_idempotent_iff (s : Str) :
    stripProxyHeaders (stripProxyHeaders s) = stripProxyHeaders s ↔ [] ∉ (lines s).tail := by
  cases hl : lines s with
  | nil =>
    have hnil : stripProxyHeaders s = [] := by
      rw [stripProxyHeaders_eq]
      unfold editHeaderLines
      rw [hl]
      rfl
    rw [hnil]
    exact iff_of_true rfl List.not_mem_nil
  | cons first rest =>
    rw [stripProxyHeaders_twice hl, stripProxyHeaders_eq, editHeaderLines_eq _ hl,
      filterMap_strip, List.tail_cons]
    by_cases hend : [] ∈ rest
    · rw [if_pos hend]
      refine iff_of_false ?_ (not_not_intro hend)
      intro h
      exact absurd (List.self_eq_append_right.mp h) (by decide)
    · rw [if_neg hend, List.append_nil]
      exact iff_of_true rfl hend

/-- A text of which no line behind the first is empty is not ended. -/
theorem not_terminated_of_tail {s : Str} (h : ∀ l ∈ (lines s).tail, l ≠ []) : ¬ Terminated s :=
  fun ht => h [] (nil_mem_of_terminated ht) rfl

/-- **The framing is lost.**  Of a request whose header an empty line ends, none of
the passes makes a text whose header is ended, nor do all of them together; and
stripping again takes one more end of line away, as it does exactly when an empty
line is behind the first. -/
theorem framing_lost (r : Str) :
    (Terminated r →
      ¬ Terminated (stripProxyHeaders r) ∧ ¬ Terminated (applyHeaderCaseMixing r) ∧
      (∀ httpSpace mixHeaderCase,
        ¬ Terminated (preprocessHttpRequest r httpSpace mixHeaderCase)) ∧
      stripProxyHeaders (stripProxyHeaders r) ≠ stripProxyHeaders r) ∧
    (stripProxyHeaders (stripProxyHeaders r) = stripProxyHeaders r ↔ [] ∉ (lines r).tail) := by
  refine ⟨fun h => ⟨?_, ?_, ?_, ?_⟩, stripProxyHeaders_idempotent_iff r⟩
  · apply not_terminated_of_tail
    rw [lines_tail_strip]
    exact fun l hl => (mem_headerLines (List.mem_of_mem_filter hl)).1
  · apply not_terminated_of_tail
    rw [lines_tail_mix]
    intro line hline
    obtain ⟨l, hl, rfl⟩ := List.mem_map.mp hline
    exact (keepsLines_mix l _ (mem_headerLines hl).1 (mem_headerLines hl).2 rfl).1
  · intro httpSpace mixHeaderCase
    apply not_terminated_of_tail
    rw [lines_tail_preprocess]
    intro line hline
    obtain ⟨l, hl, rfl⟩ := List.mem_map.mp hline
    obtain ⟨hne, hn⟩ := mem_headerLines (List.mem_of_mem_filter hl)
    cases mixHeaderCase with
    | false => exact hne
    | true => exact (keepsLines_mix l _ hne hn rfl).1
  · intro hsame
    exact (stripProxyHeaders_idempotent_iff r).mp hsame (nil_mem_of_terminated h)

/-- A CONNECT with one header. -/
def endedRequest : Str := "CONNECT a:443 HTTP/1.1\r\nHost: a:443\r\n\r\n".toList

theorem framing_lost_example :
    ¬ Terminated (applyHeaderCaseMixing endedRequest) ∧
      stripProxyHeaders (stripProxyHeaders endedRequest) ≠ stripProxyHeaders endedRequest :=
  have hlost := (framing_lost endedRequest).1 (by decide)
  ⟨hlost.2.1, hlost.2.2.2⟩

theorem framing_lost_fails :
    Terminated endedRequest ∧ ¬ Terminated (stripProxyHeaders endedRequest) ∧
      ¬ Terminated (preprocessHttpRequest endedRequest true true) ∧
      stripProxyHeaders (stripProxyHeaders endedRequest) ≠ stripProxyHeaders endedRequest := by
  decide

end GreenTunnel
