import GreenTunnel.Text
import Mathlib

/-! # Equality ignoring ASCII case

Texts that are equal ignoring ASCII case have the same length, and have the same
characters that are no letters in the same places.  Splitting one of them splits
the other (`eqIgnoreAsciiCase_append`).
-/
namespace GreenTunnel

theorem eqIgnoreAsciiCase_iff {a b : Str} :
    eqIgnoreAsciiCase a b = true ↔ a.map Char.toLower = b.map Char.toLower := by
  rw [eqIgnoreAsciiCase, beq_iff_eq]

theorem eqIgnoreAsciiCase_refl (a : Str) : eqIgnoreAsciiCase a a = true :=
  eqIgnoreAsciiCase_iff.mpr rfl

theorem eqIgnoreAsciiCase_symm {a b : Str} (h : eqIgnoreAsciiCase a b = true) :
    eqIgnoreAsciiCase b a = true := eqIgnoreAsciiCase_iff.mpr (eqIgnoreAsciiCase_iff.mp h).symm

theorem eqIgnoreAsciiCase_trans {a b c : Str} (hab : eqIgnoreAsciiCase a b = true)
    (hbc : eqIgnoreAsciiCase b c = true) : eqIgnoreAsciiCase a c = true :=
  eqIgnoreAsciiCase_iff.mpr
    ((eqIgnoreAsciiCase_iff.mp hab).trans (eqIgnoreAsciiCase_iff.mp hbc))

theorem eqIgnoreAsciiCase_length {a b : Str} (h : eqIgnoreAsciiCase a b = true) :
    a.length = b.length := by
  have := congrArg List.length (eqIgnoreAsciiCase_iff.mp h)
  rwa [List.length_map, List.length_map] at this

theorem eqIgnoreAsciiCase_append {a b c d : Str} (h : a.length = c.length) :
    eqIgnoreAsciiCase (a ++ b) (c ++ d) = true ↔
      eqIgnoreAsciiCase a c = true ∧ eqIgnoreAsciiCase b d = true := by
  simp only [eqIgnoreAsciiCase_iff, List.map_append]
  constructor
  · intro heq
    apply List.append_inj heq
    rw [List.length_map, List.length_map, h]
  · rintro ⟨hac, hbd⟩
    rw [hac, hbd]

theorem toLower_of_not_alpha {c : Char} (h : c.isAlpha = false) : c.toLower = c := by
  apply Char.toLower_eq_of_not_isUpper
  rw [(Bool.or_eq_false_iff.mp h).1]
  exact Bool.false_ne_true

/-- A character whose lower case is no letter is its own lower case. -/
theorem eq_of_toLower {c d : Char} (h : c.toLower = d) (hd : d.isAlpha = false) : c = d := by
  have hc : c.isAlpha = false := by
    rw [← Char.isAlpha_toLower_eq_isAlpha, h, hd]
  rw [← h, toLower_of_not_alpha hc]

/-- A character that is no letter stands in both texts or in neither. -/
theorem mem_iff_of_eqIgnoreAsciiCase {a b : Str} {c : Char} (h : eqIgnoreAsciiCase a b = true)
    (hc : c.isAlpha = false) : c ∈ a ↔ c ∈ b := by
  have hmap : ∀ s : Str, c ∈ s ↔ c ∈ s.map Char.toLower := by
    intro s
    constructor
    · intro hs
      exact List.mem_map.mpr ⟨c, hs, toLower_of_not_alpha hc⟩
    · intro hs
      obtain ⟨d, hd, hlower⟩ := List.mem_map.mp hs
      rwa [← eq_of_toLower hlower hc]
  rw [hmap a, hmap b, eqIgnoreAsciiCase_iff.mp h]

/-! ## Trimming -/

theorem not_alpha_of_whitespace {c : Char} (h : isWhitespace c = true) : c.isAlpha = false := by
  have hcode := toNat_of_whitespace h
  have hlower : c.isLower = false := by
    apply Bool.eq_false_iff.mpr
    intro hl
    obtain ⟨hlo, hhi⟩ := Bool.and_eq_true_iff.mp hl
    have hlo' : 97 ≤ c.toNat := of_decide_eq_true hlo
    have hhi' : c.toNat ≤ 122 := of_decide_eq_true hhi
    omega
  have hupper : c.isUpper = false := by
    apply decide_eq_false
    rintro ⟨hlo, hhi⟩
    have hlo' : 65 ≤ c.toNat := hlo
    have hhi' : c.toNat ≤ 90 := hhi
    omega
  exact Bool.or_eq_false_iff.mpr ⟨hupper, hlower⟩

theorem isWhitespace_toLower (c : Char) : isWhitespace c.toLower = isWhitespace c := by
  rw [Bool.eq_iff_iff]
  constructor
  · intro h
    rwa [eq_of_toLower rfl (not_alpha_of_whitespace h)]
  · intro h
    rwa [toLower_of_whitespace h]

theorem trim_map_toLower (s : Str) : trim (s.map Char.toLower) = (trim s).map Char.toLower := by
  have hcomp : isWhitespace ∘ Char.toLower = isWhitespace := funext isWhitespace_toLower
  simp only [trim, trimStart, List.rdropWhile, List.dropWhile_map, ← List.map_reverse, hcomp]

/-- Trimming takes the same from both texts. -/
theorem eqIgnoreAsciiCase_trim {a b : Str} (h : eqIgnoreAsciiCase a b = true) :
    eqIgnoreAsciiCase (trim a) (trim b) = true := by
  rw [eqIgnoreAsciiCase_iff, ← trim_map_toLower, ← trim_map_toLower, eqIgnoreAsciiCase_iff.mp h]

/-! ## ASCII -/

/-- A character whose lower case is ASCII is ASCII. -/
theorem ascii_of_toLower {c : Char} (h : c.toLower.toNat < 128) : c.toNat < 128 := by
  by_cases hu : c.isUpper = true
  · have hle : c.toNat ≤ 90 := by
      exact (of_decide_eq_true hu).2
    omega
  · rwa [Char.toLower_eq_of_not_isUpper hu] at h

end GreenTunnel
