import GreenTunnel.Bytes

/-! # Computations that may panic

A systems program indexes buffers, slices them and subtracts lengths; each of
these either yields a value or aborts.  `Checked α` keeps the abort as a value,
so that "never panics" is the statement that a computation is `.ok`.  A loop
given by a step budget reports `stuck` when the budget runs out, so that its
termination is part of the same statement.
-/
namespace GreenTunnel

/-- What makes a computation abort. -/
inductive Fault where
  /-- `xs[i]` with `i` past the end. -/
  | outOfBounds
  /-- `xs[a..b]` with `b < a` or `b` past the end. -/
  | badSlice
  /-- `a - b` on unsigned numbers with `a < b`. -/
  | underflow
  /-- A random draw from an empty range. -/
  | emptyRange
  /-- A loop that used up its step budget. -/
  | stuck
  deriving DecidableEq

/-- A computation that yields a value or aborts. -/
abbrev Checked (α : Type) := Except Fault α

namespace Checked
variable {α : Type}

/-- `xs[i]`. -/
def index (xs : List α) (i : Nat) : Checked α :=
  match xs[i]? with
  | some x => .ok x
  | none => .error .outOfBounds

/-- `xs[a..b]`. -/
def slice (xs : List α) (a b : Nat) : Checked (List α) :=
  if a ≤ b ∧ b ≤ xs.length then .ok ((xs.take b).drop a) else .error .badSlice

/-- `xs[i..i + ys.len()].copy_from_slice(ys)`. -/
def put (xs : List α) (i : Nat) (ys : List α) : Checked (List α) :=
  if i + ys.length ≤ xs.length then .ok (xs.take i ++ ys ++ xs.drop (i + ys.length))
  else .error .badSlice

/-- `a - b` on unsigned numbers. -/
def sub (a b : Nat) : Checked Nat :=
  if b ≤ a then .ok (a - b) else .error .underflow

/-- A draw from the inclusive range `lo..=hi`.  `draw` is the random source's
number; every value of the range is the result for some `draw`. -/
def drawIn (lo hi draw : Nat) : Checked Nat :=
  if lo ≤ hi then .ok (lo + draw % (hi - lo + 1)) else .error .emptyRange

theorem index_of_getElem? {xs : List α} {i : Nat} {x : α} (h : xs[i]? = some x) :
    index xs i = .ok x := by
  simp [index, h]

theorem index_of_lt {xs : List α} {i : Nat} (h : i < xs.length) : index xs i = .ok xs[i] :=
  index_of_getElem? (List.getElem?_eq_getElem h)

/-- Reading a 16-bit number byte by byte. -/
theorem index_of_be16At {xs : Bytes} {i v : Nat} (h : be16At xs i = some v) :
    ∃ hi lo, index xs i = .ok hi ∧ index xs (i + 1) = .ok lo ∧ be16 hi lo = v := by
  obtain ⟨hi, lo, h0, h1, hv⟩ := be16At_eq_some.mp h
  exact ⟨hi, lo, index_of_getElem? h0, index_of_getElem? h1, hv⟩

theorem slice_of_le {xs : List α} {a b : Nat} (hab : a ≤ b) (hb : b ≤ xs.length) :
    slice xs a b = .ok ((xs.take b).drop a) := by
  simp [slice, hab, hb]

theorem slice_to_end {xs : List α} {a : Nat} (ha : a ≤ xs.length) :
    slice xs a xs.length = .ok (xs.drop a) := by
  rw [slice_of_le ha (Nat.le_refl _), List.take_length]

theorem sub_of_le {a b : Nat} (h : b ≤ a) : sub a b = .ok (a - b) := by
  simp [sub, h]

theorem drawIn_of_le {lo hi : Nat} (h : lo ≤ hi) (draw : Nat) :
    ∃ v, drawIn lo hi draw = .ok v ∧ lo ≤ v ∧ v ≤ hi := by
  refine ⟨lo + draw % (hi - lo + 1), by simp [drawIn, h], Nat.le_add_right _ _, ?_⟩
  have := Nat.mod_lt draw (show 0 < hi - lo + 1 by omega)
  omega

/-- What holds of every draw holds of the whole range. -/
theorem drawIn_forall {lo hi : Nat} (h : lo ≤ hi) {p : Nat → Prop} :
    (∀ draw, ∃ v, drawIn lo hi draw = .ok v ∧ p v) ↔ ∀ v, lo ≤ v → v ≤ hi → p v := by
  constructor
  · intro hall v hlo hhi
    obtain ⟨w, hw, hp⟩ := hall (v - lo)
    rw [drawIn, if_pos h, Nat.mod_eq_of_lt (by omega), Nat.add_sub_cancel' hlo] at hw
    cases hw
    exact hp
  · intro hall draw
    obtain ⟨v, hv, hlo, hhi⟩ := drawIn_of_le h draw
    exact ⟨v, hv, hall v hlo hhi⟩

end Checked
end GreenTunnel
