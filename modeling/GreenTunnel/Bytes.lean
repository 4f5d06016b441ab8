import Mathlib.Data.List.Basic

/-! # Byte strings and big-endian 16-bit numbers

Wire formats store 16-bit numbers high byte first.  `be16Bytes` is the cast to
16 bits followed by the two bytes, so it wraps at `65536`; `be16At` reads such a
number at an offset, and is `none` when it would leave the byte string.

`BytesAt` says what stands at an offset.  A format puts a byte string together
front to back and a walk over it reads at offsets; `BytesAt.left`, `BytesAt.right`
and `BytesAt.tail` go from the one to the other.
-/
namespace GreenTunnel

/-- A string of bytes. -/
abbrev Bytes := List UInt8

/-- The 16-bit number with the given high and low bytes. -/
def be16 (hi lo : UInt8) : Nat := hi.toNat * 256 + lo.toNat

/-- The two bytes of `n`, reduced to 16 bits. -/
def be16Bytes (n : Nat) : Bytes := [UInt8.ofNat (n / 256), UInt8.ofNat n]

/-- The 16-bit number at offset `i`. -/
def be16At (data : Bytes) (i : Nat) : Option Nat := do
  let hi ← data[i]?
  let lo ← data[i + 1]?
  some (be16 hi lo)

/-- The first five bytes of a string that has as many. -/
theorem eq_five_cons_of_le {bs : Bytes} (h : 5 ≤ bs.length) :
    ∃ a b c d e rest, bs = a :: b :: c :: d :: e :: rest := by
  rcases bs with _ | ⟨a, _ | ⟨b, _ | ⟨c, _ | ⟨d, _ | ⟨e, rest⟩⟩⟩⟩⟩
  case cons.cons.cons.cons.cons => exact ⟨a, b, c, d, e, rest, rfl⟩
  all_goals
    simp only [List.length_cons, List.length_nil] at h
    omega

theorem be16_lt (hi lo : UInt8) : be16 hi lo < 65536 := by
  have := hi.toNat_lt
  have := lo.toNat_lt
  unfold be16
  omega

@[simp] theorem be16_ofNat {n : Nat} (h : n < 65536) :
    be16 (UInt8.ofNat (n / 256)) (UInt8.ofNat n) = n := by
  simp only [be16, UInt8.toNat_ofNat']
  omega

/-- The two bytes of the number they denote. -/
theorem be16Bytes_be16 (hi lo : UInt8) : be16Bytes (be16 hi lo) = [hi, lo] := by
  have hhi := hi.toNat_lt
  have hlo := lo.toNat_lt
  have h1 : UInt8.ofNat (be16 hi lo / 256) = hi := by
    apply UInt8.toNat_inj.mp
    rw [be16, UInt8.toNat_ofNat']
    omega
  have h2 : UInt8.ofNat (be16 hi lo) = lo := by
    apply UInt8.toNat_inj.mp
    rw [be16, UInt8.toNat_ofNat']
    omega
  rw [be16Bytes, h1, h2]

@[simp] theorem be16Bytes_length (n : Nat) : (be16Bytes n).length = 2 := rfl

theorem be16At_eq_some {data : Bytes} {i v : Nat} :
    be16At data i = some v ↔
      ∃ hi lo, data[i]? = some hi ∧ data[i + 1]? = some lo ∧ be16 hi lo = v := by
  simp [be16At, Option.bind_eq_some_iff]

theorem be16At_lt_length {data : Bytes} {i v : Nat} (h : be16At data i = some v) :
    i + 2 ≤ data.length := by
  obtain ⟨_, lo, _, hlo, _⟩ := be16At_eq_some.mp h
  have := (List.getElem?_eq_some_iff.mp hlo).1
  omega

theorem be16At_eq_none {data : Bytes} {i : Nat} :
    be16At data i = none ↔ data.length < i + 2 := by
  constructor
  · intro h
    apply Classical.byContradiction
    intro hlt
    have hi : i < data.length := by omega
    have hlo : i + 1 < data.length := by omega
    simp [be16At, List.getElem?_eq_getElem hi, List.getElem?_eq_getElem hlo] at h
  · intro h
    cases hv : be16At data i with
    | none => rfl
    | some v => exact absurd (be16At_lt_length hv) (by omega)

theorem be16At_of_le {data : Bytes} {i : Nat} (h : i + 2 ≤ data.length) :
    ∃ v, be16At data i = some v := by
  cases hv : be16At data i with
  | none => exact absurd (be16At_eq_none.mp hv) (by omega)
  | some v => exact ⟨v, rfl⟩

/-- Reading a 16-bit number looks at its two bytes only. -/
theorem be16At_congr {data data' : Bytes} {i : Nat} (h0 : data'[i]? = data[i]?)
    (h1 : data'[i + 1]? = data[i + 1]?) : be16At data' i = be16At data i := by
  simp only [be16At, h0, h1]

theorem getElem?_take_eq_some {α : Type} {xs : List α} {n i : Nat} {x : α} :
    (xs.take n)[i]? = some x ↔ xs[i]? = some x ∧ i < n := by
  by_cases h : i < n
  · simp [List.getElem?_take_of_lt h, h]
  · rw [List.getElem?_take_eq_none (Nat.le_of_not_lt h)]
    simp [h]

/-- A number read from a prefix is the number the whole string has there. -/
theorem be16At_take {data : Bytes} {n i v : Nat} :
    be16At (data.take n) i = some v ↔ be16At data i = some v ∧ i + 2 ≤ n := by
  constructor
  · intro h
    have hle := be16At_lt_length h
    have hn : i + 2 ≤ n := by
      rw [List.length_take] at hle
      omega
    refine ⟨?_, hn⟩
    rw [← h]
    exact be16At_congr (List.getElem?_take_of_lt (by omega)).symm
      (List.getElem?_take_of_lt (by omega)).symm
  · rintro ⟨h, hn⟩
    rw [← h]
    exact be16At_congr (List.getElem?_take_of_lt (by omega))
      (List.getElem?_take_of_lt (by omega))

/-! ## Bytes at an offset -/

/-- The bytes `bs` stand at offset `pos`. -/
def BytesAt (data : Bytes) (pos : Nat) (bs : Bytes) : Prop :=
  ∃ lead tail, data = lead ++ bs ++ tail ∧ lead.length = pos

theorem bytesAt_of_eq {data bs : Bytes} (h : data = bs) : BytesAt data 0 bs :=
  ⟨[], [], by rw [h, List.nil_append, List.append_nil], rfl⟩

namespace BytesAt
variable {data : Bytes} {pos : Nat} {as bs : Bytes}

theorem le (h : BytesAt data pos bs) : pos + bs.length ≤ data.length := by
  obtain ⟨lead, tail, rfl, rfl⟩ := h
  rw [List.length_append, List.length_append]
  exact Nat.le_add_right _ _

theorem left (h : BytesAt data pos (as ++ bs)) : BytesAt data pos as := by
  obtain ⟨lead, tail, rfl, rfl⟩ := h
  refine ⟨lead, bs ++ tail, ?_, rfl⟩
  simp only [List.append_assoc]

theorem right (h : BytesAt data pos (as ++ bs)) : BytesAt data (pos + as.length) bs := by
  obtain ⟨lead, tail, rfl, rfl⟩ := h
  refine ⟨lead ++ as, tail, ?_, List.length_append⟩
  simp only [List.append_assoc]

theorem head {b : UInt8} (h : BytesAt data pos (b :: bs)) : data[pos]? = some b := by
  obtain ⟨lead, tail, rfl, rfl⟩ := h
  rw [List.append_assoc, List.getElem?_append_right (Nat.le_refl _), Nat.sub_self]
  rfl

theorem tail {b : UInt8} (h : BytesAt data pos (b :: bs)) : BytesAt data (pos + 1) bs :=
  @right data pos [b] bs h

theorem be16At {n : Nat} (h : BytesAt data pos (be16Bytes n)) (hn : n < 65536) :
    be16At data pos = some n := by
  apply be16At_eq_some.mpr
  exact ⟨_, _, h.head, h.tail.head, be16_ofNat hn⟩

/-- The slice of the bytes. -/
theorem take_drop (h : BytesAt data pos bs) : (data.drop pos).take bs.length = bs := by
  obtain ⟨lead, tail, rfl, rfl⟩ := h
  rw [List.append_assoc, List.drop_left, List.take_left]

/-- Bytes that stand at the end are what is left. -/
theorem drop_eq (h : BytesAt data pos bs) (hend : pos + bs.length = data.length) :
    data.drop pos = bs := by
  have hle : (data.drop pos).length ≤ bs.length := by
    rw [List.length_drop]
    omega
  rw [← h.take_drop, List.take_of_length_le hle]

end BytesAt

end GreenTunnel
