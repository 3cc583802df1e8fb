import Mathlib.Data.List.Infix

/-!
# Runs of a step function

A system is a function `step : σ → ι → σ`; a run folds it over a list of inputs.
`Throughout` is a property of every state a run reaches, `AllSteps` one of every
step in the state it starts from. Where a property survives a step just when the
step meets a condition, it holds throughout just when every step meets it.
-/

namespace Run

universe u v

variable {σ : Type u} {ι : Type v} (step : σ → ι → σ)

/-- Every step of a run meets `P`, in the state it starts from. -/
def AllSteps (P : σ → ι → Prop) : σ → List ι → Prop
  | _, [] => True
  | s, i :: is => P s i ∧ AllSteps P (step s i) is

instance decidableAllSteps (P : σ → ι → Prop) [∀ s i, Decidable (P s i)] :
    ∀ s is, Decidable (AllSteps step P s is)
  | _, [] => .isTrue trivial
  | s, i :: is =>
    have := decidableAllSteps P (step s i) is
    inferInstanceAs (Decidable (P s i ∧ AllSteps step P (step s i) is))

/-- Every state of a run meets `I`, the first and the last included. -/
def Throughout (I : σ → Prop) : σ → List ι → Prop
  | s, [] => I s
  | s, i :: is => I s ∧ Throughout I (step s i) is

/-- What every step keeps, every run keeps. -/
theorem foldl_keeps (I : σ → Prop) (hstep : ∀ s i, I s → I (step s i)) {s : σ} (hs : I s)
    (is : List ι) : I (is.foldl step s) := by
  induction is generalizing s with
  | nil => exact hs
  | cons i is ih => exact ih (hstep s i hs)

variable {step} {I : σ → Prop} {P : σ → ι → Prop} {s : σ} {is : List ι}

theorem Throughout.start (h : Throughout step I s is) : I s := by
  cases is with
  | nil => exact h
  | cons i is => exact h.1

theorem Throughout.final (h : Throughout step I s is) : I (is.foldl step s) := by
  induction is generalizing s with
  | nil => exact h
  | cons i is ih => exact ih h.2

theorem Throughout.imp {J : σ → Prop} (himp : ∀ s, I s → J s) (h : Throughout step I s is) :
    Throughout step J s is := by
  induction is generalizing s with
  | nil => exact himp s h
  | cons i is ih => exact ⟨himp s h.1, ih h.2⟩

/-- An invariant of every step may be assumed of the states of a run. -/
theorem Throughout.with_invariant {J : σ → Prop} (hstep : ∀ s i, J s → J (step s i)) (hs : J s)
    (h : Throughout step I s is) : Throughout step (fun s => J s ∧ I s) s is := by
  induction is generalizing s with
  | nil => exact ⟨hs, h⟩
  | cons i is ih => exact ⟨⟨hs, h.1⟩, ih (hstep s i hs) h.2⟩

theorem AllSteps.of_forall_mem (h : ∀ i ∈ is, ∀ s, P s i) : AllSteps step P s is := by
  induction is generalizing s with
  | nil => trivial
  | cons i is ih => exact ⟨h i (.head _) s, ih fun j hj => h j (.tail _ hj)⟩

theorem AllSteps.trivial (s : σ) (is : List ι) : AllSteps step (fun _ _ => True) s is :=
  .of_forall_mem fun _ _ _ => True.intro

theorem AllSteps.and {Q : σ → ι → Prop} (hp : AllSteps step P s is) (hq : AllSteps step Q s is) :
    AllSteps step (fun s i => P s i ∧ Q s i) s is := by
  induction is generalizing s with
  | nil => trivial
  | cons i is ih => exact ⟨⟨hp.1, hq.1⟩, ih hp.2 hq.2⟩

/-- A property that each step of a kind keeps. -/
theorem Throughout.of_allSteps (hstep : ∀ s i, I s → P s i → I (step s i)) (hs : I s)
    (h : AllSteps step P s is) : Throughout step I s is := by
  induction is generalizing s with
  | nil => exact hs
  | cons i is ih => exact ⟨hs, ih (hstep s i hs h.1) h.2⟩

/-- A property that a step of a kind keeps when it leads to a `C`. -/
theorem AllSteps.final {C : σ → Prop} (hstep : ∀ s i, I s → P s i → C (step s i) → I (step s i))
    (hs : I s) (h : AllSteps step P s is) (hc : Throughout step C s is) : I (is.foldl step s) := by
  induction is generalizing s with
  | nil => exact hs
  | cons i is ih => exact ih (hstep s i hs h.1 hc.2.start) h.2 hc.2

/-- An invariant that the steps of one kind keep makes them of another kind. -/
theorem AllSteps.of_invariant {Q : σ → ι → Prop} (hstep : ∀ s i, I s → P s i → I (step s i))
    (himp : ∀ s i, I s → P s i → Q s i) (hs : I s) (h : AllSteps step P s is) : AllSteps step Q s is := by
  induction is generalizing s with
  | nil => trivial
  | cons i is ih => exact ⟨himp s i hs h.1, ih (hstep s i hs h.1) h.2⟩

/-- Steps that lead to a property throughout are of the kind that it takes to lead there. -/
theorem AllSteps.of_throughout {J : σ → Prop} (hinv : ∀ s i, J s → J (step s i))
    (hstep : ∀ s i, J s → I (step s i) → P s i) (hs : J s) (h : Throughout step I s is) :
    AllSteps step P s is := by
  induction is generalizing s with
  | nil => trivial
  | cons i is ih => exact ⟨hstep s i hs h.2.start, ih (hinv s i hs) h.2⟩

/-- A property that the steps of a kind keep, and no other. -/
theorem throughout_iff_allSteps (hstep : ∀ s i, I s → (I (step s i) ↔ P s i)) (hs : I s) :
    Throughout step I s is ↔ AllSteps step P s is := by
  induction is generalizing s with
  | nil => exact iff_of_true hs trivial
  | cons i is ih =>
    constructor
    · rintro ⟨-, hrest⟩
      have hnext : I (step s i) := hrest.start
      exact ⟨(hstep s i hs).1 hnext, (ih hnext).1 hrest⟩
    · rintro ⟨hp, hrest⟩
      have hnext : I (step s i) := (hstep s i hs).2 hp
      exact ⟨hs, (ih hnext).2 hrest⟩

end Run
