import Mathlib.Data.List.Basic

/-! Runs of an event-driven system, over any state and event type.

    A *guarded* system is a partial step `S → E → Option S` (`none`: the event cannot happen there);
    `Reach` collects the states of its runs, with a side condition `ok` that every step taken must
    meet. A *filter* is a total step that also emits a list of outputs; `outputs` is the output
    stream of a run. An invariant of the step is one of the run, two filters in a simulation emit the
    same stream, and what one observer sees of a run is the stream of its own filter. -/

namespace SeeedMote.Lib

variable {S E O : Type*}

/-! ### Guarded systems -/

/-- The states reached from `s₀` by steps that all meet `ok`. -/
inductive Reach (step : S → E → Option S) (ok : S → E → Prop) (s₀ : S) : S → Prop
  | start : Reach step ok s₀ s₀
  | next {s s' : S} {e : E} : Reach step ok s₀ s → ok s e → step s e = some s' →
      Reach step ok s₀ s'

/-- No side condition: every run counts. -/
def anyStep : S → E → Prop := fun _ _ => True

instance (s : S) (e : E) : Decidable (anyStep s e) := inferInstanceAs (Decidable True)

/-- Execute a list of events; `none` as soon as one of them cannot happen. -/
def exec (step : S → E → Option S) : S → List E → Option S
  | s, [] => some s
  | s, e :: es => (step s e).bind fun s' => exec step s' es

theorem Reach.invariant {step : S → E → Option S} {ok : S → E → Prop} {Inv : S → Prop} {s₀ s : S}
    (h : Reach step ok s₀ s) (h0 : Inv s₀)
    (hstep : ∀ s e s', Inv s → ok s e → step s e = some s' → Inv s') : Inv s := by
  induction h with
  | start => exact h0
  | next _ hok hs ih => exact hstep _ _ _ ih hok hs

/-- A run under a side condition is a run. -/
theorem Reach.forget {step : S → E → Option S} {ok : S → E → Prop} {s₀ s : S}
    (h : Reach step ok s₀ s) : Reach step anyStep s₀ s := by
  induction h with
  | start => exact .start
  | next _ _ hs ih => exact .next ih trivial hs

/-- The step with the side condition checked. -/
def guarded (ok : S → E → Prop) [∀ s e, Decidable (ok s e)] (step : S → E → Option S) (s : S)
    (e : E) : Option S := if ok s e then step s e else none

/-- Executing a list of events with the side condition checked reaches the last state. -/
theorem Reach.of_exec {step : S → E → Option S} {ok : S → E → Prop} [∀ s e, Decidable (ok s e)]
    {s₀ : S} : ∀ {s : S} (es : List E) {s' : S}, Reach step ok s₀ s →
      exec (guarded ok step) s es = some s' → Reach step ok s₀ s'
  | s, [], s', h, he => by
      obtain rfl : s = s' := by simpa [exec] using he
      exact h
  | s, e :: es, s', h, he => by
      rw [exec, Option.bind_eq_some_iff] at he
      obtain ⟨t, ht, he⟩ := he
      rw [guarded] at ht
      split at ht
      · next hok => exact Reach.of_exec es (.next h hok ht) he
      · simp at ht

/-! ### Filters -/

/-- Final state of a run of a filter. -/
def finalState (step : S → E → S × List O) : S → List E → S
  | s, [] => s
  | s, e :: es => finalState step (step s e).1 es

/-- Output stream of a run of a filter. -/
def outputs (step : S → E → S × List O) : S → List E → List O
  | _, [] => []
  | s, e :: es => (step s e).2 ++ outputs step (step s e).1 es

theorem outputs_append (step : S → E → S × List O) :
    ∀ (s : S) (es fs : List E),
      outputs step s (es ++ fs) = outputs step s es ++ outputs step (finalState step s es) fs := by
  intro s es fs
  induction es generalizing s with
  | nil => rfl
  | cons e es ih =>
    simp only [List.cons_append, outputs, finalState, List.append_assoc]
    rw [ih]

theorem finalState_append (step : S → E → S × List O) :
    ∀ (s : S) (es fs : List E),
      finalState step s (es ++ fs) = finalState step (finalState step s es) fs := by
  intro s es fs
  induction es generalizing s with
  | nil => rfl
  | cons e es ih => exact ih (step s e).1

theorem outputs_concat (step : S → E → S × List O) (s : S) (es : List E) (e : E) :
    outputs step s (es ++ [e]) = outputs step s es ++ (step (finalState step s es) e).2 := by
  rw [outputs_append, outputs, outputs, List.append_nil]

theorem finalState_concat (step : S → E → S × List O) (s : S) (es : List E) (e : E) :
    finalState step s (es ++ [e]) = (step (finalState step s es) e).1 := by
  rw [finalState_append]
  rfl

/-- What a filter emits does not matter to its state. -/
theorem finalState_congr {O' : Type*} (step : S → E → S × List O) (step' : S → E → S × List O')
    (h : ∀ s e, (step s e).1 = (step' s e).1) :
    ∀ (s : S) (es : List E), finalState step s es = finalState step' s es := by
  intro s es
  induction es generalizing s with
  | nil => rfl
  | cons e es ih => rw [finalState, finalState, h, ih]

/-- Every output has its event, and the state it was emitted in. -/
theorem mem_outputs_iff (step : S → E → S × List O) {o : O} :
    ∀ {s : S} {es : List E}, o ∈ outputs step s es ↔
      ∃ pre e post, es = pre ++ e :: post ∧ o ∈ (step (finalState step s pre) e).2 := by
  intro s es
  induction es generalizing s with
  | nil => simp [outputs]
  | cons a es ih =>
    rw [outputs, List.mem_append, ih]
    constructor
    · rintro (h | ⟨pre, e, post, rfl, h⟩)
      · exact ⟨[], a, es, rfl, h⟩
      · exact ⟨a :: pre, e, post, rfl, h⟩
    · rintro ⟨pre, e, post, hes, h⟩
      cases pre with
      | nil =>
        obtain ⟨rfl, rfl⟩ := List.cons.inj hes
        exact .inl h
      | cons b pre =>
        obtain ⟨rfl, rfl⟩ := List.cons.inj hes
        exact .inr ⟨pre, e, post, rfl, h⟩

theorem finalState_invariant {step : S → E → S × List O} (Inv : S → Prop)
    (hstep : ∀ s e, Inv s → Inv (step s e).1) :
    ∀ {s : S} (es : List E), Inv s → Inv (finalState step s es) := by
  intro s es h
  induction es generalizing s with
  | nil => exact h
  | cons e es ih => exact ih (hstep s e h)

/-- What a step guarantees of its outputs under an invariant holds of all outputs of a run. -/
theorem forall_mem_outputs {step : S → E → S × List O} (Inv : S → Prop) (Q : O → Prop)
    (hstep : ∀ s e, Inv s → Inv (step s e).1 ∧ ∀ o ∈ (step s e).2, Q o) :
    ∀ {s : S} (es : List E), Inv s → ∀ o ∈ outputs step s es, Q o := by
  intro s es h o ho
  obtain ⟨pre, e, post, -, ho⟩ := (mem_outputs_iff step).mp ho
  have hpre : Inv (finalState step s pre) :=
    finalState_invariant Inv (fun s e hs => (hstep s e hs).1) pre h
  exact (hstep _ e hpre).2 o ho

/-- Two filters whose steps preserve `R` and emit the same outputs up to `f` emit the same stream up to
    `f`. `P` is what every event of the run is known to satisfy. -/
theorem outputs_eq_map_of_simulation {T O' : Type*} {step : S → E → S × List O}
    {step' : T → E → T × List O'} (f : O' → O) {R : S → T → Prop} {P : E → Prop}
    (hsim : ∀ s t e, R s t → P e →
      (step s e).2 = (step' t e).2.map f ∧ R (step s e).1 (step' t e).1) :
    ∀ {s : S} {t : T} (es : List E), R s t → (∀ e ∈ es, P e) →
      outputs step s es = (outputs step' t es).map f := by
  intro s t es hR hP
  induction es generalizing s t with
  | nil => rfl
  | cons e es ih =>
    obtain ⟨he, hes⟩ := List.forall_mem_cons.mp hP
    obtain ⟨ho, hR'⟩ := hsim s t e hR he
    rw [outputs, outputs, List.map_append, ho, ih hR' hes]

/-- Unwinding. The filter `step'` sees of each run only the events `vis` marks. If a marked event acts
    alike on both, as far as outputs that satisfy `p` go, and any other one emits none of these and
    stays invisible to `R`, then these outputs of a run depend on its marked events alone. -/
theorem outputs_unwinding {T O' : Type*} {step : S → E → S × List O} {step' : T → E → T × List O'}
    {R : S → T → Prop} (vis : E → Bool) (p : O → Bool) (f : O' → O)
    (hvis : ∀ s t e, R s t → vis e = true →
      (step s e).2.filter p = (step' t e).2.map f ∧ R (step s e).1 (step' t e).1)
    (hhid : ∀ s t e, R s t → vis e = false → (step s e).2.filter p = [] ∧ R (step s e).1 t) :
    ∀ {s : S} {t : T} (es : List E), R s t →
      (outputs step s es).filter p = (outputs step' t (es.filter vis)).map f ∧
        R (finalState step s es) (finalState step' t (es.filter vis)) := by
  intro s t es hR
  induction es generalizing s t with
  | nil => exact ⟨rfl, hR⟩
  | cons e es ih =>
    rw [outputs, List.filter_append, finalState]
    cases he : vis e with
    | true =>
      obtain ⟨hout, hR'⟩ := hvis s t e hR he
      obtain ⟨hrest, hfinal⟩ := ih hR'
      rw [List.filter_cons_of_pos he, outputs, finalState, List.map_append, hout, hrest]
      exact ⟨rfl, hfinal⟩
    | false =>
      obtain ⟨hout, hR'⟩ := hhid s t e hR he
      rw [List.filter_cons_of_neg (by simp [he]), hout, List.nil_append]
      exact ih hR'

end SeeedMote.Lib
