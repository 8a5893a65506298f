import ShaderBuild.Driver.Call

/-!
This module contains the traces of drivers: the calls that a client makes, each together with the
answer that the driver gave to it.
-/

namespace ShaderBuild

variable {σ α β : Type}

theorem run_bind_of_run {x : StateM σ α} {f : α → StateM σ β} {s s' : σ} {a : α}
    (h : x.run s = (a, s')) : (x >>= f).run s = (f a).run s' := by
  rw [StateT.run_bind, h]
  rfl

theorem run_bind_eq_iff {x : StateM σ α} {f : α → StateM σ β} {s s' : σ} {b : β} :
    (x >>= f).run s = (b, s')
      ↔
    ∃ a s₁, x.run s = (a, s₁) ∧ (f a).run s₁ = (b, s') := by
  constructor
  . intro h
    exact ⟨_, _, rfl, h⟩
  . rintro ⟨a, s₁, hx, hf⟩
    rw [run_bind_of_run hx]
    exact hf

theorem run_pure_eq_iff {s s' : σ} {a b : α} :
    (pure a : StateM σ α).run s = (b, s') ↔ a = b ∧ s = s' := by
  constructor
  . intro h
    cases h
    exact ⟨rfl, rfl⟩
  . rintro ⟨ha, hs⟩
    rw [ha, hs]
    rfl

/--
The driver takes the calls of a trace one after the other, gives the answers of the trace to them,
and is in the second state afterwards.
-/
inductive Replays (driver : Driver (StateM σ)) : σ → List Event → σ → Prop
  | nil (s : σ) : Replays driver s [] s
  | cons {s₁ s₂ s₃ : σ} {event : Event} {trace : List Event} :
      (driver event.call).run s₁ = (event.answer, s₂) → Replays driver s₂ trace s₃ →
        Replays driver s₁ (event :: trace) s₃

namespace Replays

variable {driver : Driver (StateM σ)} {s₁ s₂ s₃ : σ}

@[simp]
theorem nil_iff : Replays driver s₁ [] s₂ ↔ s₁ = s₂ := by
  constructor
  . intro h
    cases h
    rfl
  . intro h
    rw [h]
    apply Replays.nil

@[simp]
theorem cons_iff {event : Event} {trace : List Event} :
    Replays driver s₁ (event :: trace) s₃
      ↔
    ∃ s₂, (driver event.call).run s₁ = (event.answer, s₂) ∧ Replays driver s₂ trace s₃ := by
  constructor
  . intro h
    cases h with
    | cons hcall htrace => exact ⟨_, hcall, htrace⟩
  . rintro ⟨_, hcall, htrace⟩
    exact Replays.cons hcall htrace

theorem singleton_iff {event : Event} :
    Replays driver s₁ [event] s₂ ↔ (driver event.call).run s₁ = (event.answer, s₂) := by
  simp

theorem append_iff {first second : List Event} :
    Replays driver s₁ (first ++ second) s₃
      ↔
    ∃ s₂, Replays driver s₁ first s₂ ∧ Replays driver s₂ second s₃ := by
  induction first generalizing s₁ with
  | nil => simp
  | cons event rest ih =>
    simp only [List.cons_append, cons_iff, ih]
    constructor
    . rintro ⟨s, hcall, s', hrest, hsecond⟩
      exact ⟨s', ⟨s, hcall, hrest⟩, hsecond⟩
    . rintro ⟨s', ⟨s, hcall, hrest⟩, hsecond⟩
      exact ⟨s, hcall, s', hrest, hsecond⟩

theorem append {first second : List Event} (hfirst : Replays driver s₁ first s₂)
    (hsecond : Replays driver s₂ second s₃) : Replays driver s₁ (first ++ second) s₃ := by
  rw [append_iff]
  exact ⟨s₂, hfirst, hsecond⟩

end Replays

/--
The driver that answers like the given one and puts every call on record.
-/
def recorded (driver : Driver (StateM σ)) : Driver (StateM (σ × List Event)) :=
  fun call (s, trace) =>
    let (answer, s) := (driver call).run s
    (answer, s, trace ++ [⟨call, answer⟩])

variable {driver : Driver (StateM σ)}

theorem recorded_run_iff {s₁ s₂ : σ} {before after : List Event} {event : Event} :
    (recorded driver event.call).run (s₁, before) = (event.answer, s₂, after)
      ↔
    (driver event.call).run s₁ = (event.answer, s₂) ∧ after = before ++ [event] := by
  rcases event with ⟨call, answer⟩
  have : (recorded driver call).run (s₁, before) =
      (((driver call).run s₁).1, ((driver call).run s₁).2,
        before ++ [⟨call, ((driver call).run s₁).1⟩]) := rfl
  rw [this]
  generalize (driver call).run s₁ = result
  rcases result with ⟨answer', s⟩
  constructor
  . intro h
    cases h
    exact ⟨rfl, rfl⟩
  . rintro ⟨h, htrace⟩
    cases h
    rw [htrace]

theorem replays_recorded_iff {s₁ s₂ : σ} {before after trace : List Event} :
    Replays (recorded driver) (s₁, before) trace (s₂, after)
      ↔
    Replays driver s₁ trace s₂ ∧ after = before ++ trace := by
  induction trace generalizing s₁ before with
  | nil => simp [eq_comm]
  | cons event rest ih =>
    simp only [Replays.cons_iff]
    constructor
    . rintro ⟨⟨s, _⟩, hcall, hrest⟩
      rw [recorded_run_iff] at hcall
      rw [hcall.2, ih] at hrest
      refine ⟨⟨s, hcall.1, hrest.1⟩, ?_⟩
      rw [hrest.2, List.append_assoc, List.singleton_append]
    . rintro ⟨⟨s, hcall, hrest⟩, hafter⟩
      refine ⟨(s, before ++ [event]), recorded_run_iff.mpr ⟨hcall, rfl⟩, ?_⟩
      rw [ih, List.append_assoc, List.singleton_append]
      exact ⟨hrest, hafter⟩

end ShaderBuild
