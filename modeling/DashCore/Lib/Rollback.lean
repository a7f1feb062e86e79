import Mathlib.Logic.Basic

/-! Checked writes of one field of a state, rolled back as a whole. A sequence of
writes starts from a checkpoint of the field; the first write that reports failure
restores the checkpoint and throws. The run of such a sequence is the fold of its
writes over the field, and a failure leaves the field at the checkpoint. -/
namespace Rollback

variable {ε σ M : Type}

structure Field (σ M : Type) where
  view : σ → M
  update : M → σ → σ
  view_update : ∀ m s, view (update m s) = m
  update_update : ∀ m m' s, update m' (update m s) = update m' s
  update_view : ∀ s, update (view s) s = s

abbrev Write (M : Type) := M → Bool × M

/-- One checked write: on failure the checkpoint `saved` is written back and `err` thrown. -/
def step (F : Field σ M) (saved : M) (w : Write M) (err : ε) : EStateM ε σ Unit := do
  let s ← get
  let r := w (F.view s)
  set (F.update r.2 s)
  if !r.1 then
    modify (F.update saved)
    throw err

def steps (F : Field σ M) (saved : M) : List (Write M × ε) → EStateM ε σ Unit
  | [] => pure ()
  | (w, e) :: rest => do
    step F saved w e
    steps F saved rest

def result : List (Write M × ε) → M → Except ε M
  | [], m => .ok m
  | (w, e) :: rest, m => if (w m).1 then result rest (w m).2 else .error e

@[simp] theorem result_nil (m : M) : result ([] : List (Write M × ε)) m = .ok m := rfl

theorem result_cons (w : Write M) (e : ε) (rest : List (Write M × ε)) (m : M) :
    result ((w, e) :: rest) m = if (w m).1 then result rest (w m).2 else .error e := rfl

theorem run_step (F : Field σ M) (saved : M) (w : Write M) (err : ε) (s : σ) :
    (step F saved w err).run s =
      if (w (F.view s)).1 then .ok () (F.update (w (F.view s)).2 s)
      else .error err (F.update saved s) := by
  by_cases h : (w (F.view s)).1 <;> simp [step, h, F.update_update]

theorem run_steps (F : Field σ M) (saved : M) (ws : List (Write M × ε)) (s : σ) :
    (steps F saved ws).run s =
      match result ws (F.view s) with
      | .ok m => .ok () (F.update m s)
      | .error e => .error e (F.update saved s) := by
  induction ws generalizing s with
  | nil => simp [steps, F.update_view]
  | cons we rest ih =>
    obtain ⟨w, e⟩ := we
    have hstep := run_step F saved w e s
    simp only [steps, result_cons, EStateM.run_bind]
    by_cases h : (w (F.view s)).1
    · rw [if_pos h] at hstep ⊢
      rw [hstep]
      simp only [ih, F.view_update, F.update_update]
    · rw [if_neg h] at hstep ⊢
      rw [hstep]

/-- The run of a call that either fails and leaves the state as it was, or succeeds with a
new state. -/
def outcome (r : Except ε σ) (s : σ) : EStateM.Result ε σ Unit :=
  match r with
  | .ok s' => .ok () s'
  | .error e => .error e s

@[simp] theorem outcome_ok (s s' : σ) : outcome (.ok s' : Except ε σ) s = .ok () s' := rfl

@[simp] theorem outcome_error (e : ε) (s : σ) : outcome (.error e : Except ε σ) s = .error e s :=
  rfl

theorem outcome_eq_error {r : Except ε σ} {s s' : σ} {e : ε} (h : outcome r s = .error e s') :
    s' = s ∧ r = .error e := by
  cases r with
  | ok s'' => cases h
  | error e' =>
    cases h
    exact ⟨rfl, rfl⟩

/-- The list a call returns, or the exception it throws; the state at the throw is lost. -/
def toExcept {α : Type} : EStateM.Result ε σ α → Except ε σ
  | .ok _ s => .ok s
  | .error e _ => .error e

theorem toExcept_run_bind {α : Type} (x : EStateM ε σ PUnit) (f : PUnit → EStateM ε σ α)
    (s : σ) :
    toExcept ((x >>= f).run s) = (toExcept (x.run s)).bind fun s' => toExcept ((f ⟨⟩).run s') := by
  rw [EStateM.run_bind]
  cases x.run s <;> rfl

theorem toExcept_run_forM {β : Type} (f : β → σ → Except ε σ) (g : β → EStateM ε σ PUnit)
    (hg : ∀ b s, (g b).run s = outcome (f b s) s) (l : List β) (s : σ) :
    toExcept ((l.forM g).run s) = l.foldlM (fun s b => f b s) s := by
  induction l generalizing s with
  | nil => rfl
  | cons b rest ih =>
    simp only [List.forM, EStateM.run_bind, hg, List.foldlM_cons]
    cases f b s with
    | error e => rfl
    | ok s' => exact ih s'

theorem foldlM_invariant {β : Type} {I : σ → Prop} (f : σ → β → Except ε σ) (l : List β)
    (hf : ∀ b ∈ l, ∀ s s', I s → f s b = .ok s' → I s') {s s' : σ} (hs : I s)
    (h : l.foldlM f s = .ok s') : I s' := by
  induction l generalizing s with
  | nil =>
    cases h
    exact hs
  | cons b rest ih =>
    rw [List.foldlM_cons] at h
    cases hb : f s b with
    | error e =>
      rw [hb] at h
      cases h
    | ok s1 =>
      rw [hb] at h
      exact ih (fun b' hb' => hf b' (List.mem_cons_of_mem b hb'))
        (hf b List.mem_cons_self s s1 hs hb) h

@[simp] theorem throw_eq_error {α : Type} (e : ε) : (throw e : Except ε α) = .error e := rfl

@[simp] theorem error_bind {α β : Type} (e : ε) (f : α → Except ε β) :
    (Except.error e >>= f) = .error e := rfl

@[simp] theorem ok_bind {α β : Type} (a : α) (f : α → Except ε β) :
    (Except.ok a >>= f) = f a := rfl

@[simp] theorem ite_error_eq_ok {α : Type} {c : Prop} [Decidable c] {e : ε} {x : Except ε α}
    {a : α} : ((if c then .error e else x) = .ok a) ↔ ¬c ∧ x = .ok a := by
  by_cases hc : c <;> simp [hc]

theorem bind_eq_ok {α β : Type} {x : Except ε α} {f : α → Except ε β} {b : β}
    (h : x >>= f = .ok b) : ∃ a, x = .ok a ∧ f a = .ok b := by
  cases x with
  | error e => cases h
  | ok a => exact ⟨a, rfl, h⟩

theorem foldlM_invariant_keyed {β κ : Type} {I : σ → Prop} (view : σ → κ → Option β)
    (key : β → κ) (f : σ → β → Except ε σ)
    (hf : ∀ s b s', I s → view s (key b) = some b → f s b = .ok s' →
      I s' ∧ ∀ k, k ≠ key b → view s' k = view s k) (l : List β) {s s' : σ}
    (hnd : (l.map key).Nodup) (hl : ∀ b ∈ l, view s (key b) = some b) (hs : I s)
    (h : l.foldlM f s = .ok s') : I s' := by
  induction l generalizing s with
  | nil =>
    cases h
    exact hs
  | cons b rest ih =>
    rw [List.foldlM_cons] at h
    obtain ⟨s1, hb, h⟩ := bind_eq_ok h
    obtain ⟨hs1, hframe⟩ := hf s b s1 hs (hl b List.mem_cons_self) hb
    rw [List.map_cons, List.nodup_cons] at hnd
    refine ih hnd.2 (fun b' hb' => ?_) hs1 h
    have hne : key b' ≠ key b := fun heq => hnd.1 (heq ▸ List.mem_map_of_mem hb')
    rw [hframe _ hne]
    exact hl b' (List.mem_cons_of_mem b hb')

def resultState {α : Type} : EStateM.Result ε σ α → σ
  | .ok _ s => s
  | .error _ s => s

def resultValue {α : Type} : EStateM.Result ε σ α → Except ε α
  | .ok a _ => .ok a
  | .error e _ => .error e

@[simp] theorem resultValue_error {α : Type} (e : ε) (s : σ) :
    resultValue (.error e s : EStateM.Result ε σ α) = .error e := rfl

/-- A call keeps `I`: from a state in `I` it ends, normally or not, in a state in `I`. -/
def Keeps {α : Type} (I : σ → Prop) (x : EStateM ε σ α) : Prop :=
  ∀ s, I s → I (resultState (x.run s))

theorem outcome_keeps {I : σ → Prop} {r : Except ε σ} {s : σ} (hs : I s)
    (hr : ∀ s', r = .ok s' → I s') : I (resultState (outcome r s)) := by
  cases r with
  | error e => exact hs
  | ok s' => exact hr s' rfl

theorem keeps_of_outcome {I : σ → Prop} (x : EStateM ε σ PUnit) (f : σ → Except ε σ)
    (hx : ∀ s, x.run s = outcome (f s) s) (hf : ∀ s s', I s → f s = .ok s' → I s') :
    Keeps I x := by
  intro s hs
  rw [hx]
  cases hr : f s with
  | error e => exact hs
  | ok s' => exact hf s s' hs hr

theorem keeps_bind {α β : Type} {I : σ → Prop} {x : EStateM ε σ α} {f : α → EStateM ε σ β}
    (hx : Keeps I x) (hf : ∀ a, Keeps I (f a)) : Keeps I (x >>= f) := by
  intro s hs
  have h := hx s hs
  rw [EStateM.run_bind]
  cases hr : x.run s with
  | ok a s' =>
    rw [hr] at h
    exact hf a s' h
  | error e s' =>
    rw [hr] at h
    exact h

theorem keeps_forM {β : Type} {I : σ → Prop} (g : β → EStateM ε σ PUnit) (l : List β)
    (hg : ∀ b ∈ l, Keeps I (g b)) : Keeps I (l.forM g) := by
  induction l with
  | nil => intro s hs; exact hs
  | cons b rest ih =>
    simp only [List.forM]
    exact keeps_bind (hg b List.mem_cons_self)
      (fun _ => ih (fun b' hb' => hg b' (List.mem_cons_of_mem b hb')))

end Rollback
