import Mathlib.Data.List.Basic

/-! # Computations with events

A `Trace` is what a run of a program leaves behind: the events it performed, in
order, and the value it ended with or the reason it stopped short.  Programs are
composed with `do`; the events of the parts follow one another, and a part that
stops short ends the whole (`mem_events_bind`).

`Always P` says that every event of a run satisfies `P`, and `Alike p` that two runs
look the same to an observer who sees the events in `p` only, each with one rule for
each way a run is put together.
-/
namespace GreenTunnel

/-- The events of a run and how it ended. -/
structure Trace (ε σ α : Type) where
  events : List ε
  result : Except σ α

namespace Trace
variable {ε σ α β : Type}

/-- What follows `x`, unless `x` stopped short. -/
def andThen (x : Trace ε σ α) (f : α → Trace ε σ β) : Trace ε σ β :=
  match x.result with
  | .ok a => ⟨x.events ++ (f a).events, (f a).result⟩
  | .error s => ⟨x.events, .error s⟩

instance : Monad (Trace ε σ) where
  pure a := ⟨[], .ok a⟩
  bind := andThen

/-- An event. -/
def emit (e : ε) : Trace ε σ Unit := ⟨[e], .ok ()⟩

/-- A computation without events. -/
def ofExcept (r : Except σ α) : Trace ε σ α := ⟨[], r⟩

/-- The value of `x`, or that of `y` if `x` ended without one. -/
def orTry (x y : Trace ε σ (Option α)) : Trace ε σ (Option α) := do
  match ← x with
  | some a => pure (some a)
  | none => y

@[simp] theorem pure_events (a : α) : (pure a : Trace ε σ α).events = [] := rfl

@[simp] theorem pure_result (a : α) : (pure a : Trace ε σ α).result = .ok a := rfl

@[simp] theorem ofExcept_events (r : Except σ α) : (ofExcept r : Trace ε σ α).events = [] := rfl

@[simp] theorem ofExcept_result (r : Except σ α) : (ofExcept r : Trace ε σ α).result = r := rfl

@[simp] theorem emit_bind_events (e : ε) (f : Unit → Trace ε σ α) :
    (emit e >>= f).events = e :: (f ()).events := rfl

@[simp] theorem emit_bind_result (e : ε) (f : Unit → Trace ε σ α) :
    (emit e >>= f).result = (f ()).result := rfl

theorem bind_of_ok {x : Trace ε σ α} {f : α → Trace ε σ β} {a : α} (h : x.result = .ok a) :
    x >>= f = ⟨x.events ++ (f a).events, (f a).result⟩ := by
  show andThen x f = _
  rw [andThen, h]

theorem bind_of_error {x : Trace ε σ α} {f : α → Trace ε σ β} {s : σ} (h : x.result = .error s) :
    x >>= f = ⟨x.events, .error s⟩ := by
  show andThen x f = _
  rw [andThen, h]

/-- A value is handed on. -/
theorem value_bind (a : α) (f : α → Trace ε σ β) : (pure a : Trace ε σ α) >>= f = f a := rfl

/-- An event of a sequence is one of its parts. -/
theorem mem_events_bind {x : Trace ε σ α} {f : α → Trace ε σ β} {e : ε} :
    e ∈ (x >>= f).events ↔ e ∈ x.events ∨ ∃ a, x.result = .ok a ∧ e ∈ (f a).events := by
  cases h : x.result with
  | ok a => simp [bind_of_ok h]
  | error s => simp [bind_of_error h]

/-- A sequence that ends with a value went through both parts. -/
theorem result_bind_eq_ok {x : Trace ε σ α} {f : α → Trace ε σ β} {b : β} :
    (x >>= f).result = .ok b ↔ ∃ a, x.result = .ok a ∧ (f a).result = .ok b := by
  cases h : x.result with
  | ok a => simp [bind_of_ok h]
  | error s => simp [bind_of_error h]

theorem mem_events_orTry {x y : Trace ε σ (Option α)} {e : ε} :
    e ∈ (orTry x y).events ↔ e ∈ x.events ∨ x.result = .ok none ∧ e ∈ y.events := by
  rw [orTry, mem_events_bind]
  constructor
  · rintro (h | ⟨a, ha, h⟩)
    · exact Or.inl h
    · cases a with
      | none => exact Or.inr ⟨ha, h⟩
      | some a => cases h
  · rintro (h | ⟨ha, h⟩)
    · exact Or.inl h
    · exact Or.inr ⟨none, ha, h⟩

theorem result_orTry {x y : Trace ε σ (Option α)} {a : α} :
    (orTry x y).result = .ok (some a) ↔
      x.result = .ok (some a) ∨ x.result = .ok none ∧ y.result = .ok (some a) := by
  rw [orTry, result_bind_eq_ok]
  constructor
  · rintro ⟨v, hv, h⟩
    cases v with
    | none => exact Or.inr ⟨hv, h⟩
    | some b =>
      cases h
      exact Or.inl hv
  · rintro (h | ⟨hx, hy⟩)
    · exact ⟨some a, h, rfl⟩
    · exact ⟨none, hx, hy⟩

/-! ## What holds of every event -/

/-- Every event of the run satisfies `P`. -/
def Always (P : ε → Prop) (x : Trace ε σ α) : Prop := ∀ e ∈ x.events, P e

namespace Always
variable {P : ε → Prop}

theorem pure (a : α) : Always P (Pure.pure a : Trace ε σ α) :=
  fun _ he => absurd he List.not_mem_nil

theorem ofExcept (r : Except σ α) : Always P (Trace.ofExcept r : Trace ε σ α) :=
  fun _ he => absurd he List.not_mem_nil

theorem emit {e : ε} (h : P e) : Always P (Trace.emit e : Trace ε σ Unit) :=
  fun _ he => List.mem_singleton.mp he ▸ h

theorem bind {x : Trace ε σ α} {f : α → Trace ε σ β} (hx : Always P x)
    (hf : ∀ a, x.result = .ok a → Always P (f a)) : Always P (x >>= f) := by
  intro e he
  rcases mem_events_bind.mp he with h | ⟨a, ha, h⟩
  · exact hx e h
  · exact hf a ha e h

theorem orTry {x y : Trace ε σ (Option α)} (hx : Always P x) (hy : Always P y) :
    Always P (Trace.orTry x y) := by
  intro e he
  rcases mem_events_orTry.mp he with h | ⟨-, h⟩
  · exact hx e h
  · exact hy e h

end Always

/-! ## What is seen of two runs -/

/-- The runs end alike, and look alike when only the events in `p` are seen. -/
structure Alike (p : ε → Bool) (x y : Trace ε σ α) : Prop where
  events : x.events.filter p = y.events.filter p
  result : x.result = y.result

namespace Alike
variable {p : ε → Bool} {x y : Trace ε σ α}

theorem refl (x : Trace ε σ α) : Alike p x x := ⟨rfl, rfl⟩

theorem symm (h : Alike p x y) : Alike p y x := ⟨h.events.symm, h.result.symm⟩

theorem trans {z : Trace ε σ α} (h : Alike p x y) (h' : Alike p y z) : Alike p x z :=
  ⟨h.events.trans h'.events, h.result.trans h'.result⟩

/-- Events that are not seen leave no difference. -/
theorem of_unseen (hx : ∀ e ∈ x.events, p e = false) (hy : ∀ e ∈ y.events, p e = false)
    (h : x.result = y.result) : Alike p x y := by
  refine ⟨?_, h⟩
  rw [List.filter_eq_nil_iff.mpr fun e he => by simp [hx e he],
    List.filter_eq_nil_iff.mpr fun e he => by simp [hy e he]]

theorem bind {f g : α → Trace ε σ β} (h : Alike p x y)
    (hf : ∀ a, x.result = .ok a → Alike p (f a) (g a)) : Alike p (x >>= f) (y >>= g) := by
  cases hx : x.result with
  | ok a =>
    rw [bind_of_ok hx, bind_of_ok (h.result.symm.trans hx)]
    obtain ⟨hevents, hresult⟩ := hf a hx
    refine ⟨?_, hresult⟩
    rw [List.filter_append, List.filter_append, h.events, hevents]
  | error s =>
    rw [bind_of_error hx, bind_of_error (h.result.symm.trans hx)]
    exact ⟨h.events, rfl⟩

end Alike
end Trace
end GreenTunnel
