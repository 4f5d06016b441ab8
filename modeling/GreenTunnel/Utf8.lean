import GreenTunnel.Text

/-! # Decoding UTF-8

`fromUtf8Lossy` reads bytes as UTF-8 and writes U+FFFD for each longest beginning
of a character that is not continued, and for each byte that cannot begin one.
It is a machine over the bytes whose state is the character begun
(`Utf8Partial`).  Of valid UTF-8 it is the inverse of the encoding
(`fromUtf8Lossy_utf8Bytes`), so a program that decodes valid bytes one way and
invalid ones the other way computes this function.
-/
namespace GreenTunnel

/-- A character of which the first bytes have been read: the bytes still to come,
the bits so far, and the bounds of the next byte. -/
structure Utf8Partial where
  left : Nat
  acc : Nat
  lo : Nat := 0x80
  hi : Nat := 0xBF

/-- U+FFFD. -/
def replacementChar : Char := Char.ofNat 0xFFFD

/-- A byte that begins a character. -/
def utf8Start (b : UInt8) : Str × Option Utf8Partial :=
  let n := b.toNat
  if n < 0x80 then ([Char.ofNat n], none)
  else if n < 0xC2 then ([replacementChar], none)
  else if n < 0xE0 then ([], some { left := 0, acc := n - 0xC0 })
  else if n < 0xF0 then
    -- no overlong forms and no surrogates
    ([], some { left := 1, acc := n - 0xE0, lo := if n = 0xE0 then 0xA0 else 0x80,
                hi := if n = 0xED then 0x9F else 0xBF })
  else if n < 0xF5 then
    -- no overlong forms and nothing past U+10FFFF
    ([], some { left := 2, acc := n - 0xF0, lo := if n = 0xF0 then 0x90 else 0x80,
                hi := if n = 0xF4 then 0x8F else 0xBF })
  else ([replacementChar], none)

/-- The next byte. -/
def utf8Step (p : Option Utf8Partial) (b : UInt8) : Str × Option Utf8Partial :=
  match p with
  | none => utf8Start b
  | some p =>
    if p.lo ≤ b.toNat ∧ b.toNat ≤ p.hi then
      let acc := p.acc * 64 + (b.toNat - 0x80)
      match p.left with
      | 0 => ([Char.ofNat acc], none)
      | left + 1 => ([], some { left, acc })
    else (replacementChar :: (utf8Start b).1, (utf8Start b).2)

/-- What the bytes say after the character begun in `p`. -/
def lossyFrom (p : Option Utf8Partial) : Bytes → Str
  | [] => if p.isSome then [replacementChar] else []
  | b :: bs => (utf8Step p b).1 ++ lossyFrom (utf8Step p b).2 bs

/-- Bytes as UTF-8, with U+FFFD for what is not. -/
def fromUtf8Lossy (bs : Bytes) : Str := lossyFrom none bs

/-- A byte of ASCII is its own character. -/
theorem fromUtf8Lossy_cons_ascii {b : UInt8} (h : b.toNat < 0x80) (bs : Bytes) :
    fromUtf8Lossy (b :: bs) = Char.ofNat b.toNat :: fromUtf8Lossy bs := by
  simp [fromUtf8Lossy, lossyFrom, utf8Step, utf8Start, h]

/-! ## Valid UTF-8 -/

theorem lossyFrom_start {b : UInt8} {p : Utf8Partial} (h : utf8Start b = ([], some p))
    (bs : Bytes) : fromUtf8Lossy (b :: bs) = lossyFrom (some p) bs := by
  simp [fromUtf8Lossy, lossyFrom, utf8Step, h]

theorem lossyFrom_more {left acc lo hi : Nat} {b : UInt8} (hlo : lo ≤ b.toNat) (hhi : b.toNat ≤ hi)
    (bs : Bytes) : lossyFrom (some ⟨left + 1, acc, lo, hi⟩) (b :: bs) =
      lossyFrom (some ⟨left, acc * 64 + (b.toNat - 0x80), 0x80, 0xBF⟩) bs := by
  simp [lossyFrom, utf8Step, hlo, hhi]

theorem lossyFrom_last {acc lo hi : Nat} {b : UInt8} (hlo : lo ≤ b.toNat) (hhi : b.toNat ≤ hi)
    (bs : Bytes) : lossyFrom (some ⟨0, acc, lo, hi⟩) (b :: bs) =
      Char.ofNat (acc * 64 + (b.toNat - 0x80)) :: fromUtf8Lossy bs := by
  simp [lossyFrom, utf8Step, hlo, hhi, fromUtf8Lossy]

theorem toNat_continuation (n : Nat) : (UInt8.ofNat (n % 0x40 + 0x80)).toNat = n % 64 + 0x80 := by
  rw [UInt8.toNat_ofNat']
  omega

/-- A character of two bytes. -/
theorem fromUtf8Lossy_two {v : Nat} (hlo : 0x7f < v) (hhi : v ≤ 0x7ff) (bs : Bytes) :
    fromUtf8Lossy (UInt8.ofNat (v / 64 % 0x20 + 0xc0) :: UInt8.ofNat (v % 0x40 + 0x80) :: bs) =
      Char.ofNat v :: fromUtf8Lossy bs := by
  have hb : (UInt8.ofNat (v / 64 % 0x20 + 0xc0)).toNat = v / 64 + 0xc0 := by
    rw [UInt8.toNat_ofNat']
    omega
  have hstart : utf8Start (UInt8.ofNat (v / 64 % 0x20 + 0xc0)) =
      ([], some ⟨0, v / 64, 0x80, 0xBF⟩) := by
    simp only [utf8Start, hb]
    rw [if_neg (by omega), if_neg (by omega), if_pos (by omega), Nat.add_sub_cancel]
  have hlast := toNat_continuation v
  rw [lossyFrom_start hstart, lossyFrom_last (by omega) (by omega), hlast,
    show v / 64 * 64 + (v % 64 + 0x80 - 0x80) = v by omega]

/-- A character of three bytes, which is no surrogate. -/
theorem fromUtf8Lossy_three {v : Nat} (hlo : 0x7ff < v) (hhi : v ≤ 0xffff)
    (hvalid : v < 0xD800 ∨ 0xDFFF < v) (bs : Bytes) :
    fromUtf8Lossy (UInt8.ofNat (v / 4096 % 0x10 + 0xe0) :: UInt8.ofNat (v / 64 % 0x40 + 0x80) ::
      UInt8.ofNat (v % 0x40 + 0x80) :: bs) = Char.ofNat v :: fromUtf8Lossy bs := by
  have hb : (UInt8.ofNat (v / 4096 % 0x10 + 0xe0)).toNat = v / 4096 + 0xe0 := by
    rw [UInt8.toNat_ofNat']
    omega
  have hstart : utf8Start (UInt8.ofNat (v / 4096 % 0x10 + 0xe0)) =
      ([], some ⟨1, v / 4096, if v / 4096 = 0 then 0xA0 else 0x80,
        if v / 4096 = 13 then 0x9F else 0xBF⟩) := by
    simp only [utf8Start, hb]
    rw [if_neg (by omega), if_neg (by omega), if_neg (by omega), if_pos (by omega),
      Nat.add_sub_cancel]
    simp only [Nat.add_eq_right, show v / 4096 + 0xe0 = 0xED ↔ v / 4096 = 13 by omega]
  have hmid := toNat_continuation (v / 64)
  have hlast := toNat_continuation v
  rw [lossyFrom_start hstart, lossyFrom_more (by split <;> omega) (by split <;> omega),
    lossyFrom_last (by omega) (by omega), hmid, hlast,
    show (v / 4096 * 64 + (v / 64 % 64 + 0x80 - 0x80)) * 64 + (v % 64 + 0x80 - 0x80) = v by omega]

/-- A character of four bytes. -/
theorem fromUtf8Lossy_four {v : Nat} (hlo : 0xffff < v) (hhi : v < 0x110000) (bs : Bytes) :
    fromUtf8Lossy (UInt8.ofNat (v / 262144 % 0x08 + 0xf0) ::
      UInt8.ofNat (v / 4096 % 0x40 + 0x80) :: UInt8.ofNat (v / 64 % 0x40 + 0x80) ::
      UInt8.ofNat (v % 0x40 + 0x80) :: bs) = Char.ofNat v :: fromUtf8Lossy bs := by
  have hb : (UInt8.ofNat (v / 262144 % 0x08 + 0xf0)).toNat = v / 262144 + 0xf0 := by
    rw [UInt8.toNat_ofNat']
    omega
  have hstart : utf8Start (UInt8.ofNat (v / 262144 % 0x08 + 0xf0)) =
      ([], some ⟨2, v / 262144, if v / 262144 = 0 then 0x90 else 0x80,
        if v / 262144 = 4 then 0x8F else 0xBF⟩) := by
    simp only [utf8Start, hb]
    rw [if_neg (by omega), if_neg (by omega), if_neg (by omega), if_neg (by omega),
      if_pos (by omega), Nat.add_sub_cancel]
    simp only [Nat.add_eq_right, show v / 262144 + 0xf0 = 0xF4 ↔ v / 262144 = 4 by omega]
  have hhigh := toNat_continuation (v / 4096)
  have hmid := toNat_continuation (v / 64)
  have hlast := toNat_continuation v
  rw [lossyFrom_start hstart, lossyFrom_more (by split <;> omega) (by split <;> omega),
    lossyFrom_more (by omega) (by omega), lossyFrom_last (by omega) (by omega), hhigh, hmid, hlast,
    show ((v / 262144 * 64 + (v / 4096 % 64 + 0x80 - 0x80)) * 64 +
      (v / 64 % 64 + 0x80 - 0x80)) * 64 + (v % 64 + 0x80 - 0x80) = v by omega]

/-- A character is decoded from its one, two, three or four bytes. -/
theorem fromUtf8Lossy_encodeChar_append (c : Char) (bs : Bytes) :
    fromUtf8Lossy (String.utf8EncodeChar c ++ bs) = c :: fromUtf8Lossy bs := by
  have hvalid : c.val.toNat < 0xD800 ∨ 0xDFFF < c.val.toNat ∧ c.val.toNat < 0x110000 := c.valid
  have hc : Char.ofNat c.val.toNat = c := Char.ofNat_toNat c
  unfold String.utf8EncodeChar
  generalize c.val.toNat = v at *
  rw [← hc]
  by_cases h1 : v ≤ 0x7f
  · have hb : (UInt8.ofNat v).toNat = v := by
      rw [UInt8.toNat_ofNat']
      omega
    simp only [if_pos h1]
    rw [List.singleton_append, fromUtf8Lossy_cons_ascii (by omega), hb]
  by_cases h2 : v ≤ 0x7ff
  · simp only [if_neg h1, if_pos h2]
    exact fromUtf8Lossy_two (by omega) h2 bs
  by_cases h3 : v ≤ 0xffff
  · simp only [if_neg h1, if_neg h2, if_pos h3]
    exact fromUtf8Lossy_three (by omega) h3 (by omega) bs
  · simp only [if_neg h1, if_neg h2, if_neg h3]
    exact fromUtf8Lossy_four (by omega) (by omega) bs

/-- **Decoding what was encoded**, whatever follows it. -/
theorem fromUtf8Lossy_utf8Bytes_append (s : Str) (bs : Bytes) :
    fromUtf8Lossy (utf8Bytes s ++ bs) = s ++ fromUtf8Lossy bs := by
  induction s with
  | nil => rfl
  | cons c s ih =>
    rw [utf8Bytes] at ih ⊢
    rw [List.flatMap_cons, List.append_assoc, fromUtf8Lossy_encodeChar_append, ih,
      List.cons_append]

theorem fromUtf8Lossy_utf8Bytes (s : Str) : fromUtf8Lossy (utf8Bytes s) = s := by
  have h := fromUtf8Lossy_utf8Bytes_append s []
  rwa [List.append_nil, show fromUtf8Lossy [] = [] from rfl, List.append_nil] at h

theorem utf8Bytes_injective : Function.Injective utf8Bytes :=
  Function.LeftInverse.injective fromUtf8Lossy_utf8Bytes

end GreenTunnel
