import Mathlib.Data.List.Basic

/-!
# What a stateful program does to one part of its state

`Shifts part f m`: whatever it returns, `m` leaves `f` of the part it found. A program that
keeps the part shifts it by `id`. The rules follow the program: sequencing composes the
shifts, and both branches of a conditional shift alike. `Ensures pre m post` is a triple; its
rules follow the program in the same way.
-/

namespace StateShift

variable {σ δ α β : Type}

theorem run_bind (m : StateM σ α) (k : α → StateM σ β) (s : σ) :
    (m >>= k) s = k (m s).1 (m s).2 := rfl

theorem run_ite (c : Prop) [Decidable c] (m m' : StateM σ α) (s : σ) :
    (if c then m else m') s = if c then m s else m' s := by
  split
  · rfl
  · rfl

def Shifts (part : σ → δ) (f : δ → δ) (m : StateM σ α) : Prop :=
  ∀ s, part (m s).2 = f (part s)

abbrev Keeps (part : σ → δ) (m : StateM σ α) : Prop := Shifts part id m

variable {part : σ → δ} {f g : δ → δ} {m : StateM σ α} {k : α → StateM σ β}

theorem Shifts.pure (a : α) : Keeps part (Pure.pure a : StateM σ α) := fun _ => rfl

theorem Keeps.get : Keeps part (MonadState.get : StateM σ σ) := fun _ => rfl

/-- A program that keeps the part, then one that shifts it. -/
theorem Keeps.bind (hm : Keeps part m) (hk : ∀ a, Shifts part f (k a)) :
    Shifts part f (m >>= k) := fun s =>
  (hk _ _).trans (congrArg f (hm s))

/-- A program that shifts the part, then one that keeps it. -/
theorem Shifts.then (hm : Shifts part f m) (hk : ∀ a, Keeps part (k a)) :
    Shifts part f (m >>= k) := fun s =>
  (hk _ _).trans (hm s)

theorem Shifts.ite {c : Prop} [Decidable c] {m m' : StateM σ α} (hm : Shifts part f m)
    (hm' : Shifts part f m') : Shifts part f (if c then m else m') := by
  split
  · exact hm
  · exact hm'

/-- A program that takes something only when it says so, and gives it back in the branch where
it has it. -/
theorem Keeps.bracket {take : StateM σ Bool} {failed body : StateM σ α} {acquire : δ → δ}
    (htake : ∀ s, part (take s).2 = if (take s).1 then acquire (part s) else part s)
    (hback : ∀ d, f (acquire d) = d) (hfailed : Keeps part failed) (hbody : Shifts part f body) :
    Keeps part (take >>= fun got => if !got then failed else body) := by
  intro s
  have hpart := htake s
  show part ((if !(take s).1 then failed else body) (take s).2).2 = part s
  cases hgot : (take s).1 with
  | true =>
    rw [hgot, if_pos rfl] at hpart
    exact (hbody _).trans (by rw [hpart, hback])
  | false =>
    rw [hgot, if_neg Bool.false_ne_true] at hpart
    exact (hfailed _).trans hpart

/-! ## Triples -/

/-- From a state in `pre`, `post` holds of what `m` returns and of the state it leaves. -/
def Ensures (pre : σ → Prop) (m : StateM σ α) (post : α → σ → Prop) : Prop :=
  ∀ s, pre s → post (m s).1 (m s).2

section

variable {pre : σ → Prop} {post : β → σ → Prop} {mid : α → σ → Prop}

theorem Ensures.bind (hm : Ensures pre m mid) (hk : ∀ a, Ensures (mid a) (k a) post) :
    Ensures pre (m >>= k) post := fun s hs =>
  hk _ _ (hm s hs)

theorem Ensures.ite {c : Prop} [Decidable c] {m m' : StateM σ β}
    (hm : c → Ensures pre m post) (hm' : ¬c → Ensures pre m' post) :
    Ensures pre (if c then m else m') post := by
  split
  · rename_i hc
    exact hm hc
  · rename_i hc
    exact hm' hc

/-- A program that only reads. -/
theorem Ensures.reads (hm : ∀ s, (m s).2 = s) : Ensures pre m fun _ => pre := fun s hs => by
  rwa [hm s]

theorem Keeps.ensures (hm : Keeps part m) (holds : δ → Prop) :
    Ensures (fun s => holds (part s)) m fun _ s => holds (part s) := by
  intro s hs
  show holds (part (m s).2)
  rwa [hm s]

/-- What is known of values only may be assumed. -/
theorem Ensures.of_fact {c : Prop} {m : StateM σ β} (h : c → Ensures pre m post) :
    Ensures (fun s => c ∧ pre s) m post := fun s hs => h hs.1 s hs.2

theorem Ensures.of_post {m : StateM σ β} (h : ∀ s, post (m s).1 (m s).2) : Ensures pre m post :=
  fun s _ => h s

end

end StateShift
