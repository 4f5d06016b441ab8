import GreenTunnel.Trace

/-! # Protocols and the runs that follow them

A protocol is a step relation: which event may happen in which state, and the state
it leads to.  `Leads` is a run of steps.  What holds of every run is read off one step:
an invariant (`Leads.invariant`), a bound on how often something happens
(`Leads.countP_le`), an order in which things happen (`Leads.ordered`), and an event that
must have happened before a state is reached (`Leads.exists_before`).

`Follows` says that a program keeps to the protocol: its events are a run of steps, and
the state they lead to suits how the program ended.  There is a rule for each way a
program is put together.

Programs that run next to each other are `Tasks`: in any order of their events, what a
task was started with is what it has done and then what it has left (`Tasks.started_eq`).
-/
namespace GreenTunnel
variable {S ε : Type}

/-- The events lead from one state to another. -/
inductive Leads (step : S → ε → S → Prop) : S → List ε → S → Prop where
  | nil (s : S) : Leads step s [] s
  | cons {s s' t : S} {e : ε} {es : List ε} (first : step s e s') (rest : Leads step s' es t) :
      Leads step s (e :: es) t

namespace Leads
variable {step : S → ε → S → Prop} {s t u : S} {e : ε} {es fs : List ε}

theorem single (h : step s e t) : Leads step s [e] t := cons h (nil t)

theorem append (h : Leads step s es t) (h' : Leads step t fs u) : Leads step s (es ++ fs) u := by
  induction h with
  | nil => exact h'
  | cons first _ ih => exact cons first (ih h')

/-- A run stops at every event on its way. -/
theorem split (h : Leads step s (es ++ fs) u) : ∃ t, Leads step s es t ∧ Leads step t fs u := by
  induction es generalizing s with
  | nil => exact ⟨s, nil s, h⟩
  | cons e es ih =>
    cases h with
    | cons first rest =>
      obtain ⟨t, hes, hfs⟩ := ih rest
      exact ⟨t, cons first hes, hfs⟩

/-- A run that gets somewhere has a last step. -/
theorem last (h : Leads step s es t) (hne : s ≠ t) :
    ∃ fs e u, es = fs ++ [e] ∧ Leads step s fs u ∧ step u e t := by
  rcases List.eq_nil_or_concat es with rfl | ⟨fs, e, rfl⟩
  · cases h
    exact absurd rfl hne
  · rw [List.concat_eq_append] at h ⊢
    obtain ⟨u, hfs, hlast⟩ := h.split
    cases hlast with
    | cons first rest =>
      cases rest
      exact ⟨fs, e, u, rfl, hfs, first⟩

/-- **An invariant**: what every step keeps holds at the end of a run, and what it makes
of every event holds of all of them. -/
theorem invariant {I : S → Prop} {P : ε → Prop} (hstep : ∀ s e t, step s e t → I s → P e ∧ I t)
    (h : Leads step s es t) (hs : I s) : (∀ e ∈ es, P e) ∧ I t := by
  induction h with
  | nil => exact ⟨fun _ he => absurd he List.not_mem_nil, hs⟩
  | cons first _ ih =>
    obtain ⟨he, hnext⟩ := hstep _ _ _ first hs
    obtain ⟨hall, ht⟩ := ih hnext
    exact ⟨List.forall_mem_cons.mpr ⟨he, hall⟩, ht⟩

/-- **A bound on a kind of event**: if each such event takes one from `f`, and nothing adds
to it, a run has no more of them than `f` had at the start. -/
theorem countP_le {p : ε → Bool} {f : S → Nat}
    (hstep : ∀ s e t, step s e t → f t + (if p e then 1 else 0) ≤ f s)
    (h : Leads step s es t) : f t + es.countP p ≤ f s := by
  induction h with
  | nil s => exact Nat.le_refl (f s)
  | @cons s s' t e es first _ ih =>
    have := hstep s e s' first
    rw [List.countP_cons]
    omega

/-- **An order of events**: if a state admits no event of a stage below its own, and an
event leads beyond its stage, or only as far when it may be repeated, the events of a
run come in the order of their stages, and none of them is beyond the state they lead
to. -/
theorem ordered {level : S → Nat} {stage : ε → Nat} {Repeats : ε → Prop}
    (hfrom : ∀ s e t, step s e t → level s ≤ stage e)
    (hto : ∀ s e t, step s e t → stage e < level t ∨ stage e = level t ∧ Repeats e)
    (h : Leads step s es t) :
    es.Pairwise (fun d e => stage d < stage e ∨ stage d = stage e ∧ Repeats d) ∧
      level s ≤ level t ∧
      ∀ e ∈ es, level s ≤ stage e ∧ (stage e < level t ∨ stage e = level t ∧ Repeats e) := by
  induction h with
  | nil => exact ⟨List.Pairwise.nil, Nat.le_refl _, fun _ he => absurd he List.not_mem_nil⟩
  | @cons s s' t e es first _ ih =>
    obtain ⟨hpair, hle, hall⟩ := ih
    have hs := hfrom s e s' first
    -- what is reached from `e` on is not below where `e` leads
    have hreach : ∀ n, level s' ≤ n → stage e < n ∨ stage e = n ∧ Repeats e := by
      intro n hn
      rcases hto s e s' first with hlt | ⟨heq, hrep⟩
      · exact Or.inl (by omega)
      · rcases Nat.lt_or_eq_of_le hn with hlt | heq'
        · exact Or.inl (by omega)
        · exact Or.inr ⟨heq.trans heq', hrep⟩
    have hle' : level s ≤ level s' := by
      rcases hto s e s' first with hlt | ⟨heq, -⟩ <;> omega
    refine ⟨List.Pairwise.cons (fun d hd => hreach _ (hall d hd).1) hpair, Nat.le_trans hle' hle,
      List.forall_mem_cons.mpr ⟨⟨hs, hreach _ hle⟩, fun d hd => ?_⟩⟩
    exact ⟨Nat.le_trans hle' (hall d hd).1, (hall d hd).2⟩

/-- **An event on the way**: what only a step with a certain event can bring about has
been preceded by such an event. -/
theorem exists_before {I : S → Prop} {P : S → ε → S → Prop}
    (hstep : ∀ s e t, step s e t → ¬ I s → I t → P s e t) (h : Leads step s es t) (hs : ¬ I s)
    (ht : I t) : ∃ a e b u v, es = a ++ e :: b ∧ Leads step s a u ∧ step u e v ∧
      P u e v ∧ Leads step v b t := by
  induction h with
  | nil => exact absurd ht hs
  | @cons s s' t e es first rest ih =>
    by_cases hs' : I s'
    · exact ⟨[], e, es, s, s', rfl, nil s, first, hstep s e s' first hs hs', rest⟩
    · obtain ⟨a, d, b, u, v, rfl, ha, hd, hp, hb⟩ := ih hs' ht
      exact ⟨e :: a, d, b, u, v, rfl, cons first ha, hd, hp, hb⟩

/-- **A run as it is seen**: if every step is seen as a step with the event that `g` makes
of its own, or is not seen at all when `g` makes none, the run is seen as a run. -/
theorem view {T δ : Type} {step' : T → δ → T → Prop} {f : S → T} {g : ε → Option δ}
    (hseen : ∀ s e t, step s e t → ∀ d, g e = some d → step' (f s) d (f t))
    (hunseen : ∀ s e t, step s e t → g e = none → f s = f t) (h : Leads step s es t) :
    Leads step' (f s) (es.filterMap g) (f t) := by
  induction h with
  | nil s => exact nil (f s)
  | @cons s s' t e es first _ ih =>
    cases hg : g e with
    | none =>
      rw [List.filterMap_cons_none hg, hunseen s e s' first hg]
      exact ih
    | some d =>
      rw [List.filterMap_cons_some hg]
      exact cons (hseen s e s' first d hg) ih

end Leads

/-! ## Programs that keep to a protocol -/

variable {σ α β : Type}

/-- **The program keeps to the protocol** when it starts in `s`: its events lead to a
state that satisfies `Q` with the value it ended with, or `E` with the reason it
stopped. -/
def Follows (step : S → ε → S → Prop) (s : S) (x : Trace ε σ α) (Q : α → S → Prop)
    (E : σ → S → Prop) : Prop :=
  ∃ t, Leads step s x.events t ∧ (∀ a, x.result = .ok a → Q a t) ∧
    ∀ stop, x.result = .error stop → E stop t

namespace Follows
variable {step : S → ε → S → Prop} {s t : S} {e : ε} {Q : α → S → Prop} {R : β → S → Prop}
  {E : σ → S → Prop}

theorem pure {a : α} (h : Q a s) : Follows step s (Pure.pure a : Trace ε σ α) Q E := by
  refine ⟨s, Leads.nil s, fun b hb => ?_, fun stop hstop => ?_⟩
  · cases hb
    exact h
  · cases hstop

theorem ofExcept {r : Except σ α} (hok : ∀ a, r = .ok a → Q a s)
    (herror : ∀ stop, r = .error stop → E stop s) : Follows step s (Trace.ofExcept r) Q E :=
  ⟨s, Leads.nil s, hok, herror⟩

theorem emit {Q : Unit → S → Prop} (hstep : step s e t) (h : Q () t) :
    Follows step s (Trace.emit e : Trace ε σ Unit) Q E :=
  ⟨t, Leads.single hstep, fun _ _ => h, fun _ hstop => by cases hstop⟩

theorem bind {x : Trace ε σ α} {f : α → Trace ε σ β} (hx : Follows step s x Q E)
    (hf : ∀ a t, Q a t → Follows step t (f a) R E) : Follows step s (x >>= f) R E := by
  obtain ⟨t, hlead, hok, herror⟩ := hx
  cases hr : x.result with
  | ok a =>
    obtain ⟨u, hlead', hok', herror'⟩ := hf a t (hok a hr)
    rw [Trace.bind_of_ok hr]
    exact ⟨u, hlead.append hlead', hok', herror'⟩
  | error stop =>
    rw [Trace.bind_of_error hr]
    refine ⟨t, hlead, fun a ha => ?_, fun stop' hstop => ?_⟩
    · cases ha
    · cases hstop
      exact herror stop hr

/-- An event, and what follows it. -/
theorem emit_bind {f : Unit → Trace ε σ β} (hstep : step s e t)
    (hf : Follows step t (f ()) R E) : Follows step s (Trace.emit e >>= f) R E :=
  bind (Q := fun _ u => u = t) (emit hstep rfl) fun _ u hu => by rwa [hu]

theorem mono {Q' : α → S → Prop} {E' : σ → S → Prop} {x : Trace ε σ α}
    (h : Follows step s x Q E) (hQ : ∀ a t, Q a t → Q' a t) (hE : ∀ stop t, E stop t → E' stop t) :
    Follows step s x Q' E' := by
  obtain ⟨t, hlead, hok, herror⟩ := h
  exact ⟨t, hlead, fun a ha => hQ a t (hok a ha), fun stop hstop => hE stop t (herror stop hstop)⟩

end Follows

/-! ## Programs next to each other -/

/-- What happens among tasks: one more of them is started, with all that it is to do, or
a task does what is next. -/
inductive TaskEvent (ε : Type) where
  | started (todo : List ε)
  | did (task : Nat) (e : ε)

namespace TaskEvent

def todo : TaskEvent ε → Option (List ε)
  | started todo => some todo
  | did _ _ => none

/-- What the task does. -/
def of (i : Nat) : TaskEvent ε → Option ε
  | started _ => none
  | did j e => if j = i then some e else none

theorem of_self (i : Nat) (e : ε) : of i (did i e) = some e := if_pos rfl

theorem of_ne {i j : Nat} (h : j ≠ i) (e : ε) : of i (did j e) = none := if_neg h

end TaskEvent

namespace Tasks

/-- Each task has a list of what it has left to do. -/
inductive Step : List (List ε) → TaskEvent ε → List (List ε) → Prop where
  | start (ts : List (List ε)) (todo : List ε) : Step ts (.started todo) (ts ++ [todo])
  | go {ts : List (List ε)} {i : Nat} {e : ε} {rest : List ε} (next : ts[i]? = some (e :: rest)) :
      Step ts (.did i e) (ts.set i rest)

variable {ts us : List (List ε)} {es : List (TaskEvent ε)}

/-- **No event is lost, doubled or moved**: whatever the order in which the tasks go on,
what a task was started with is what it has done and then what it has left. -/
theorem started_eq (h : Leads Step ts es us) (i : Nat) :
    (ts ++ es.filterMap TaskEvent.todo)[i]? =
      us[i]?.map fun left => es.filterMap (TaskEvent.of i) ++ left := by
  induction h with
  | nil ts => simp
  | @cons ts ts' us d es first _ ih =>
    cases first with
    | start todo =>
      have htodo : TaskEvent.todo (.started todo) = some todo := rfl
      have hof : TaskEvent.of i (.started todo) = none := rfl
      rw [List.filterMap_cons_some htodo, List.filterMap_cons_none hof, ← ih, List.append_assoc]
      rfl
    | @go j e rest next =>
      have hj := (List.getElem?_eq_some_iff.mp next).1
      rw [List.filterMap_cons_none rfl]
      by_cases hij : j = i
      · subst hij
        rw [List.getElem?_append_left (by simpa using hj), List.getElem?_set_self hj] at ih
        rw [List.getElem?_append_left hj, next]
        obtain ⟨left, hleft, hrest⟩ := Option.map_eq_some_iff.mp ih.symm
        rw [hleft, Option.map_some, List.filterMap_cons_some (TaskEvent.of_self j e),
          List.cons_append, hrest]
      · rw [List.filterMap_cons_none (TaskEvent.of_ne hij e), ← ih, List.getElem?_append,
          List.getElem?_append, List.length_set, List.getElem?_set_ne hij]

/-- Tasks only become more. -/
theorem length_le (h : Leads Step ts es us) : ts.length ≤ us.length := by
  induction h with
  | nil => exact Nat.le_refl _
  | cons first _ ih =>
    cases first with
    | start todo =>
      rw [List.length_append] at ih
      exact Nat.le_of_add_right_le ih
    | go next =>
      rw [List.length_set] at ih
      exact ih

/-- Only a task that has been started does anything. -/
theorem did_lt (h : Leads Step ts es us) {i : Nat} {e : ε} (hdid : .did i e ∈ es) :
    i < us.length := by
  obtain ⟨a, b, rfl⟩ := List.append_of_mem hdid
  obtain ⟨t, -, hb⟩ := h.split
  have hle := length_le hb
  cases hb with
  | cons first _ =>
    cases first with
    | go next => exact Nat.lt_of_lt_of_le (List.getElem?_eq_some_iff.mp next).1 hle

end Tasks
end GreenTunnel
