import Mathlib.Data.List.AList

/-! A map whose values live in nodes of their own, as those of a node-based map do: a reference
to a value is the address of its node, it stays valid while the entry is in the map, and the
node is destroyed when the entry is erased. `view` is what the map holds for each key; a
well-formed map (`WF`) sends distinct keys to distinct live nodes below the allocator's next
address, and then each operation changes `view` at one key only. -/

/-- The entries of the map, each key with the address of its node, and the live nodes. -/
structure NodeMap (K β : Type) where
  index : AList (fun _ : K => Nat)
  nodes : AList (fun _ : Nat => β)

namespace NodeMap

section Nodes

variable {K β : Type}

def get (m : NodeMap K β) (a : Nat) : Option β := m.nodes.lookup a

def set (m : NodeMap K β) (a : Nat) (b : β) : NodeMap K β :=
  { m with nodes := m.nodes.insert a b }

theorem get_set_self (m : NodeMap K β) (a : Nat) (b : β) : get (set m a b) a = some b :=
  AList.lookup_insert _

@[simp] theorem index_set (m : NodeMap K β) (a : Nat) (b : β) : (set m a b).index = m.index := rfl

end Nodes

variable {K β : Type} [DecidableEq K]

def view (m : NodeMap K β) (k : K) : Option β :=
  (m.index.lookup k).bind m.nodes.lookup

/-- `emplace(k, b)` with the node at the fresh address `a`; nothing changes when `k` is there. -/
def emplace (m : NodeMap K β) (k : K) (b : β) (a : Nat) : NodeMap K β :=
  if k ∈ m.index then m else ⟨m.index.insert k a, m.nodes.insert a b⟩

def erase (m : NodeMap K β) (k : K) : NodeMap K β :=
  match m.index.lookup k with
  | some a => ⟨m.index.erase k, m.nodes.erase a⟩
  | none => m

def empty : NodeMap K β := ⟨∅, ∅⟩

structure WF (m : NodeMap K β) (next : Nat) : Prop where
  live : ∀ k a, m.index.lookup k = some a → a ∈ m.nodes
  inj : ∀ k₁ k₂ a, m.index.lookup k₁ = some a → m.index.lookup k₂ = some a → k₁ = k₂
  lt : ∀ a ∈ m.nodes, a < next

theorem wf_empty (next : Nat) : WF (empty : NodeMap K β) next where
  live _ _ h := by simp [empty, AList.lookup_empty] at h
  inj _ _ _ h := by simp [empty, AList.lookup_empty] at h
  lt _ h := absurd h (AList.notMem_empty _)

theorem WF.mono {m : NodeMap K β} {next next' : Nat} (h : WF m next) (hle : next ≤ next') :
    WF m next' :=
  ⟨h.live, h.inj, fun a ha => Nat.lt_of_lt_of_le (h.lt a ha) hle⟩

theorem view_eq_get {m : NodeMap K β} {k : K} {a : Nat} (h : m.index.lookup k = some a) :
    view m k = get m a := by
  rw [view, h, Option.bind_some, get]

theorem view_isSome_iff {m : NodeMap K β} {next : Nat} (hm : WF m next) (k : K) :
    (view m k).isSome ↔ k ∈ m.index := by
  rw [← AList.lookup_isSome, view]
  cases h : m.index.lookup k with
  | none => simp
  | some a =>
    have ha := AList.lookup_isSome.mpr (hm.live k a h)
    simpa using ha

section Set

variable {m : NodeMap K β} {next : Nat} {k : K} {a : Nat}

theorem view_set (hm : WF m next) (hk : m.index.lookup k = some a) (b : β) (k' : K) :
    view (set m a b) k' = if k' = k then some b else view m k' := by
  simp only [view, set]
  by_cases h : k' = k
  · rw [if_pos h, h, hk, Option.bind_some, AList.lookup_insert]
  · rw [if_neg h]
    cases hk' : m.index.lookup k' with
    | none => rfl
    | some a' =>
      have hne : a' ≠ a := fun heq => h (hm.inj k' k a (heq ▸ hk') hk)
      simp only [Option.bind_some]
      exact AList.lookup_insert_ne hne

theorem WF.set (hm : WF m next) (hk : m.index.lookup k = some a) (b : β) : WF (set m a b) next where
  live k' a' h := (AList.mem_insert _).mpr (.inr (hm.live k' a' h))
  inj := hm.inj
  lt a' ha' := by
    rcases (AList.mem_insert _).mp ha' with rfl | ha'
    · exact hm.lt _ (hm.live k _ hk)
    · exact hm.lt a' ha'

end Set

section Emplace

variable {m : NodeMap K β} {next : Nat} {k : K}

theorem view_emplace (hm : WF m next) (hk : k ∉ m.index) (b : β) (k' : K) :
    view (emplace m k b next) k' = if k' = k then some b else view m k' := by
  rw [emplace, if_neg hk]
  by_cases h : k' = k
  · rw [if_pos h, h, view, AList.lookup_insert, Option.bind_some, AList.lookup_insert]
  · rw [if_neg h, view, view, AList.lookup_insert_ne h]
    cases hk' : m.index.lookup k' with
    | none => rfl
    | some a' =>
      have hne : a' ≠ next := Nat.ne_of_lt (hm.lt a' (hm.live k' a' hk'))
      simp only [Option.bind_some]
      exact AList.lookup_insert_ne hne

theorem WF.emplace (hm : WF m next) (hk : k ∉ m.index) (b : β) : WF (emplace m k b next) (next + 1) := by
  rw [NodeMap.emplace, if_neg hk]
  refine ⟨fun k' a' h => ?_, fun k₁ k₂ a' h₁ h₂ => ?_, fun a' ha' => ?_⟩
  · by_cases hk' : k' = k
    · rw [hk', AList.lookup_insert] at h
      cases h
      exact (AList.mem_insert _).mpr (.inl rfl)
    · rw [AList.lookup_insert_ne hk'] at h
      exact (AList.mem_insert _).mpr (.inr (hm.live k' a' h))
  · have hfresh : ∀ k'', k'' ≠ k → m.index.lookup k'' ≠ some next := fun k'' _ h =>
      Nat.lt_irrefl _ (hm.lt _ (hm.live k'' next h))
    by_cases e₁ : k₁ = k <;> by_cases e₂ : k₂ = k
    · rw [e₁, e₂]
    · rw [e₁, AList.lookup_insert] at h₁
      rw [AList.lookup_insert_ne e₂, ← h₁] at h₂
      exact absurd h₂ (hfresh k₂ e₂)
    · rw [e₂, AList.lookup_insert] at h₂
      rw [AList.lookup_insert_ne e₁, ← h₂] at h₁
      exact absurd h₁ (hfresh k₁ e₁)
    · rw [AList.lookup_insert_ne e₁] at h₁
      rw [AList.lookup_insert_ne e₂] at h₂
      exact hm.inj k₁ k₂ a' h₁ h₂
  · rcases (AList.mem_insert _).mp ha' with rfl | ha'
    · exact Nat.lt_succ_self _
    · exact Nat.lt_succ_of_lt (hm.lt a' ha')

theorem index_lookup_emplace (hk : k ∉ m.index) (b : β) : (emplace m k b next).index.lookup k = some next := by
  rw [emplace, if_neg hk, AList.lookup_insert]

end Emplace

section Erase

variable {m : NodeMap K β} {next : Nat} {k : K}

theorem view_erase (hm : WF m next) (k : K) (k' : K) :
    view (erase m k) k' = if k' = k then none else view m k' := by
  unfold erase
  split
  · rename_i a hk
    by_cases h : k' = k
    · rw [if_pos h, h, view, AList.lookup_erase, Option.bind_none]
    · rw [if_neg h, view, view, AList.lookup_erase_ne h]
      cases hk' : m.index.lookup k' with
      | none => rfl
      | some a' =>
        have hne : a' ≠ a := fun heq => h (hm.inj k' k a (heq ▸ hk') hk)
        simp only [Option.bind_some]
        exact AList.lookup_erase_ne hne
  · rename_i hk
    by_cases h : k' = k
    · rw [if_pos h, h, view, hk, Option.bind_none]
    · rw [if_neg h]

theorem WF.erase (hm : WF m next) (k : K) : WF (erase m k) next := by
  unfold NodeMap.erase
  split
  · rename_i a hk
    refine ⟨fun k' a' h => ?_, fun k₁ k₂ a' h₁ h₂ => ?_, fun a' ha' => hm.lt a' (AList.mem_erase.mp ha').2⟩
    · have hk' : k' ≠ k := fun heq => by rw [heq, AList.lookup_erase] at h; cases h
      rw [AList.lookup_erase_ne hk'] at h
      refine AList.mem_erase.mpr ⟨fun heq => hk' (hm.inj k' k a (heq ▸ h) hk), hm.live k' a' h⟩
    · have e₁ : k₁ ≠ k := fun heq => by rw [heq, AList.lookup_erase] at h₁; cases h₁
      have e₂ : k₂ ≠ k := fun heq => by rw [heq, AList.lookup_erase] at h₂; cases h₂
      rw [AList.lookup_erase_ne e₁] at h₁
      rw [AList.lookup_erase_ne e₂] at h₂
      exact hm.inj k₁ k₂ a' h₁ h₂
  · exact hm

theorem get_erase_self {a : Nat} (hk : m.index.lookup k = some a) : get (erase m k) a = none := by
  rw [erase, hk, get, AList.lookup_erase]

theorem mem_index_erase {k' : K} : k' ∈ (erase m k).index ↔ k' ≠ k ∧ k' ∈ m.index := by
  unfold erase
  split
  · exact AList.mem_erase
  · rename_i hk
    constructor
    · intro h
      exact ⟨fun heq => (by rw [← AList.lookup_isSome, heq, hk] at h; cases h), h⟩
    · exact fun h => h.2

end Erase

end NodeMap
