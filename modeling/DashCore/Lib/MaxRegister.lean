import Mathlib.Order.MinMax
import Mathlib.Data.List.Basic

/-! A register that keeps the greatest key written to it. Its value after a list of writes is
the fold of `max` over their keys from the initial key: it is above the initial key and every
written key, and the order of the writes does not change it. -/
namespace MaxRegister

variable {α β : Type} [LinearOrder α] (key : β → α)

def run (init : α) (l : List β) : α := l.foldl (fun k b => max k (key b)) init

@[simp] theorem run_nil (init : α) : run key init [] = init := rfl

@[simp] theorem run_append_singleton (init : α) (l : List β) (b : β) :
    run key init (l ++ [b]) = max (run key init l) (key b) := by
  simp [run]

theorem init_le_run (init : α) (l : List β) : init ≤ run key init l := by
  induction l generalizing init with
  | nil => exact le_rfl
  | cons b l ih => exact (le_max_left init (key b)).trans (ih _)

theorem le_run_of_mem (init : α) {l : List β} {b : β} (hb : b ∈ l) : key b ≤ run key init l := by
  induction l generalizing init with
  | nil => cases hb
  | cons c l ih =>
    rcases List.mem_cons.mp hb with rfl | hb
    · exact (le_max_right init (key b)).trans (init_le_run key _ l)
    · exact ih _ hb

theorem run_perm {l₁ l₂ : List β} (hp : l₁.Perm l₂) (init : α) :
    run key init l₁ = run key init l₂ :=
  hp.foldl_eq' (fun _ _ _ _ z => by rw [max_assoc, max_comm (key _), ← max_assoc]) init

end MaxRegister
