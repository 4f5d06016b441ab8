import GreenTunnel.Text
import Mathlib.Data.List.Infix

/-! # Lines read and joined

A text is read into its lines, the lines are edited, and the lines are joined
again.  Reading what was joined yields the lines that were joined, except for an
empty last one (`lines_join`): that one is an end of line too few.

A text in which an empty line follows another line has an empty line behind its
first (`nil_mem_of_terminated`), and the words of a text are those of its lines
(`splitWhitespace_lines`).
-/
namespace GreenTunnel

/-! ## Reading -/

/-- What stands behind a line feed is read by itself. -/
theorem lines_append_of_newline (s t : Str) :
    lines (s ++ '\n' :: t) = lines (s ++ ['\n']) ++ lines t := by
  have hfrom : ∀ cur, linesFrom cur (s ++ '\n' :: t) =
      linesFrom cur (s ++ ['\n']) ++ linesFrom [] t := by
    induction s with
    | nil =>
      intro cur
      simp [linesFrom]
    | cons c s ih =>
      intro cur
      simp only [List.cons_append, linesFrom]
      split
      · rw [ih, List.cons_append]
      · exact ih _
  exact hfrom []

theorem newline_notMem_of_mem_lines {s l : Str} (h : l ∈ lines s) : '\n' ∉ l := by
  have hfrom : ∀ cur, '\n' ∉ cur → l ∈ linesFrom cur s → '\n' ∉ l := by
    clear h
    induction s with
    | nil =>
      intro cur hcur hl
      rw [linesFrom] at hl
      split at hl
      · cases hl
      · rwa [List.mem_singleton.mp hl]
    | cons c s ih =>
      intro cur hcur hl
      rw [linesFrom] at hl
      split at hl
      · rcases List.mem_cons.mp hl with rfl | hl
        · rcases stripCr_cases cur with heq | heq
          · rwa [heq]
          · intro hmem
            apply hcur
            rw [heq]
            exact List.mem_append_left _ hmem
        · exact ih [] List.not_mem_nil hl
      · rename_i hc
        apply ih (cur ++ [c]) _ hl
        simp only [List.mem_append, List.mem_singleton, not_or]
        exact ⟨hcur, Ne.symm hc⟩
  exact hfrom [] List.not_mem_nil h

/-- The words of a text are the words of its lines. -/
theorem splitWhitespace_lines (s : Str) : splitWhitespace s = (lines s).flatMap splitWhitespace := by
  generalize hn : s.length = n
  induction n using Nat.strong_induction_on generalizing s with
  | _ n ih =>
    rcases lines_cases s with rfl | ⟨-, hl⟩ | ⟨l, rest, rfl, -, hl⟩
    · rfl
    · rw [hl, List.flatMap_singleton]
    · have hlt : rest.length < n := by
        rw [← hn, List.length_append, List.length_cons]
        omega
      rw [hl, List.flatMap_cons, splitWhitespace_append_cons (by decide), splitWhitespace_stripCr,
        ih _ hlt rest rfl]

/-! ## Joining -/

/-- **Lines that were joined are read back**, except for an empty last line. -/
theorem lines_join {ls : List Str} (h : ∀ l ∈ ls, '\n' ∉ l) :
    lines (crlf.intercalate ls) = if ls.getLast? = some [] then ls.dropLast else ls := by
  induction ls with
  | nil => rfl
  | cons l ls ih =>
    have hl : '\n' ∉ l := h l List.mem_cons_self
    cases ls with
    | nil =>
      rw [List.intercalate_singleton]
      by_cases hne : l = []
      · rw [hne]
        rfl
      · rw [lines_of_no_newline hl hne, if_neg]
        intro hlast
        exact hne (Option.some.inj hlast)
    | cons m ls =>
      have hrest := ih fun x hx => h x (List.mem_cons_of_mem _ hx)
      rw [List.intercalate_cons_cons, lines_append_crlf hl, hrest, List.getLast?_cons_cons,
        List.dropLast_cons_cons]
      split
      · rfl
      · rfl

/-- Lines of which the last is not empty are read back. -/
theorem lines_join_of_ne {ls : List Str} (h : ∀ l ∈ ls, '\n' ∉ l) (hlast : ls.getLast? ≠ some []) :
    lines (crlf.intercalate ls) = ls := by
  rw [lines_join h, if_neg hlast]

/-- Lines joined with an empty last line are read back without it. -/
theorem lines_join_concat_nil {ls : List Str} (h : ∀ l ∈ ls, '\n' ∉ l) :
    lines (crlf.intercalate (ls ++ [[]])) = ls := by
  have hall : ∀ l ∈ ls ++ [[]], '\n' ∉ l := by
    intro l hl
    rcases List.mem_append.mp hl with hl | hl
    · exact h l hl
    · rw [List.mem_singleton.mp hl]
      exact List.not_mem_nil
  rw [lines_join hall, if_pos List.getLast?_concat, List.dropLast_concat]

theorem intercalate_concat_nil {ls : List Str} (hne : ls ≠ []) :
    crlf.intercalate (ls ++ [[]]) = crlf.intercalate ls ++ crlf := by
  induction ls with
  | nil => exact absurd rfl hne
  | cons l ls ih =>
    cases ls with
    | nil => simp [List.intercalate]
    | cons m ls =>
      rw [List.cons_append, List.cons_append, List.intercalate_cons_cons, ← List.cons_append,
        ih (List.cons_ne_nil _ _), List.intercalate_cons_cons]
      simp only [List.append_assoc]

/-- The first end of line of a text whose first line is known. -/
theorem splitOnceStr_crlf {l : Str} (h : '\n' ∉ l) (t : Str) :
    splitOnceStr crlf (l ++ crlf ++ t) = some (l, t) := by
  induction l with
  | nil => rfl
  | cons c l ih =>
    have hl : '\n' ∉ l := List.not_mem_of_not_mem_cons h
    have hnext : ¬ crlf <+: c :: l ++ crlf ++ t := by
      rintro ⟨r, hr⟩
      cases l with
      | nil => cases hr
      | cons d l =>
        obtain ⟨-, hd⟩ := List.cons_eq_cons.mp hr
        obtain ⟨hd, -⟩ := List.cons_eq_cons.mp hd
        exact hl (hd ▸ List.mem_cons_self)
    rw [List.cons_append, List.cons_append] at hnext ⊢
    rw [splitOnceStr, if_neg hnext, ih hl]
    rfl

/-! ## The end of a header -/

/-- An empty line ends the header of the text: two ends of line stand side by
side. -/
def Terminated (s : Str) : Prop := crlf ++ crlf <:+: s

instance (s : Str) : Decidable (Terminated s) := inferInstanceAs (Decidable (_ <:+: _))

/-- The empty line is behind the first line. -/
theorem nil_mem_of_terminated {s : Str} (h : Terminated s) : [] ∈ (lines s).tail := by
  obtain ⟨a, b, rfl⟩ := h
  have hsplit : a ++ (crlf ++ crlf) ++ b = a ++ ['\r'] ++ '\n' :: (crlf ++ b) := by
    simp [crlf]
  have hfirst : lines (crlf ++ b) = [] :: lines b := lines_append_crlf List.not_mem_nil b
  have hne : lines (a ++ ['\r'] ++ ['\n']) ≠ [] := by
    rcases lines_cases (a ++ ['\r'] ++ ['\n']) with hnil | ⟨-, hl⟩ | ⟨l, rest, -, -, hl⟩
    · exact absurd (List.append_eq_nil_iff.mp hnil).2 (List.cons_ne_nil _ _)
    · rw [hl]
      exact List.cons_ne_nil _ _
    · rw [hl]
      exact List.cons_ne_nil _ _
  rw [hsplit, lines_append_of_newline, hfirst, List.tail_append_of_ne_nil hne]
  exact List.mem_append_right _ List.mem_cons_self

end GreenTunnel
