import Mathlib.Data.List.AList
import Mathlib.Data.Multiset.AddSub
import Mathlib.Algebra.BigOperators.Group.Multiset.Basic
import Mathlib.Tactic.Abel

/-! A reference-counted ownership index. Each key of the index belongs to one
owner and records how many claims that owner holds on it. The index is read
against the multiset of claims it stands for; it does not store them. -/
namespace OwnerIndex

variable {K O : Type} [DecidableEq K] [DecidableEq O]

abbrev Index (K O : Type) := AList (fun _ : K => O × ℕ)

/-- One more claim of `o` on `k`: a fresh entry, or a larger count on `o`'s own
entry. Another owner's entry refuses the claim. -/
def claim (m : Index K O) (k : K) (o : O) : Option (Index K O) :=
  match m.lookup k with
  | some (o', n) => if o' = o then some (m.insert k (o, n + 1)) else none
  | none => some (m.insert k (o, 1))

def release (m : Index K O) (k : K) (o : O) : Option (Index K O) :=
  match m.lookup k with
  | some (o', n) => if o' ≠ o then none else if n = 1 then some (m.erase k) else some (m.insert k (o, n - 1))
  | none => none

/-- `m` stands for the claims `c`: a key is absent iff nobody claims it, and
otherwise maps to its only claimant with the number of its claims. -/
def Represents (m : Index K O) (c : Multiset (K × O)) : Prop :=
  ∀ k, match m.lookup k with
    | none => ∀ o, (k, o) ∉ c
    | some (o, n) => 0 < n ∧ c.count (k, o) = n ∧ ∀ o', (k, o') ∈ c → o' = o

def Consistent (c : Multiset (K × O)) : Prop :=
  ∀ k o o', (k, o) ∈ c → (k, o') ∈ c → o = o'

theorem represents_empty : Represents (∅ : Index K O) 0 := by
  intro k
  simp [AList.lookup_empty]

theorem Represents.consistent {m : Index K O} {c : Multiset (K × O)} (h : Represents m c) :
    Consistent c := by
  intro k o o' ho ho'
  have hk := h k
  split at hk
  · exact absurd ho (hk o)
  · exact (hk.2.2 o ho).trans (hk.2.2 o' ho').symm

theorem Represents.lookup_of_mem {m : Index K O} {c : Multiset (K × O)} (h : Represents m c)
    {k : K} {o : O} (hmem : (k, o) ∈ c) : ∃ n, m.lookup k = some (o, n) := by
  have hk := h k
  split at hk
  · exact absurd hmem (hk o)
  · rename_i o' n _
    exact ⟨n, by rw [hk.2.2 o hmem]; assumption⟩

theorem Represents.entry {m : Index K O} {c : Multiset (K × O)} (h : Represents m c) {k : K}
    {o : O} {n : ℕ} (hl : m.lookup k = some (o, n)) :
    0 < n ∧ c.count (k, o) = n ∧ ∀ o', (k, o') ∈ c → o' = o := by
  have hk := h k
  rwa [hl] at hk

theorem Represents.mem_of_lookup {m : Index K O} {c : Multiset (K × O)} (h : Represents m c)
    {k : K} {o : O} {n : ℕ} (hl : m.lookup k = some (o, n)) : (k, o) ∈ c := by
  have hk := h.entry hl
  exact Multiset.count_pos.mp (hk.2.1 ▸ hk.1)

theorem Represents.lookup_eq_none {m : Index K O} {c : Multiset (K × O)} (h : Represents m c)
    {k : K} : m.lookup k = none ↔ ∀ o, (k, o) ∉ c := by
  constructor
  · intro hl
    have hk := h k
    rwa [hl] at hk
  · intro hno
    cases hl : m.lookup k with
    | none => rfl
    | some p => exact absurd (h.mem_of_lookup (n := p.2) hl) (hno p.1)

theorem count_cons_ne {c : Multiset (K × O)} {k k' : K} {o o' : O} (hne : k' ≠ k) :
    ((k, o) ::ₘ c).count (k', o') = c.count (k', o') := by
  rw [Multiset.count_cons_of_ne]
  intro heq
  exact hne (Prod.mk.inj heq).1

section Claim

variable {m m' : Index K O} {c : Multiset (K × O)} {k : K} {o : O}

theorem lookup_claim_ne (hc : claim m k o = some m') {k' : K} (hne : k' ≠ k) :
    m'.lookup k' = m.lookup k' := by
  unfold claim at hc
  split at hc
  · split at hc
    · cases hc
      exact AList.lookup_insert_ne hne
    · cases hc
  · cases hc
    exact AList.lookup_insert_ne hne

theorem claim_eq_none_iff (h : Represents m c) :
    claim m k o = none ↔ ∃ o', (k, o') ∈ c ∧ o' ≠ o := by
  unfold claim
  split
  · rename_i o' n hl
    have hmem := h.mem_of_lookup hl
    constructor
    · intro hc
      split at hc
      · cases hc
      · rename_i hne
        exact ⟨o', hmem, hne⟩
    · rintro ⟨o'', hmem', hne⟩
      have heq : o'' = o' := (h.entry hl).2.2 o'' hmem'
      subst heq
      simp [hne]
  · rename_i hl
    simp only [reduceCtorEq, false_iff, not_exists, not_and]
    intro o' hmem
    exact absurd hmem ((h.lookup_eq_none).mp hl o')

theorem represents_claim (h : Represents m c) (hc : claim m k o = some m') :
    Represents m' ((k, o) ::ₘ c) := by
  intro k'
  by_cases hk : k' = k
  · subst hk
    unfold claim at hc
    split at hc
    · rename_i o' n hl
      split at hc
      · rename_i heq
        subst heq
        cases hc
        have hk := h.entry hl
        rw [AList.lookup_insert]
        refine ⟨Nat.succ_pos n, ?_, ?_⟩
        · rw [Multiset.count_cons_self, hk.2.1]
        · intro o'' hmem
          rcases Multiset.mem_cons.mp hmem with heq | hmem
          · exact (Prod.mk.inj heq).2
          · exact hk.2.2 o'' hmem
      · cases hc
    · rename_i hl
      cases hc
      have hno := (h.lookup_eq_none).mp hl
      rw [AList.lookup_insert]
      refine ⟨Nat.one_pos, ?_, ?_⟩
      · rw [Multiset.count_cons_self, Multiset.count_eq_zero.mpr (hno o)]
      · intro o'' hmem
        rcases Multiset.mem_cons.mp hmem with heq | hmem
        · exact (Prod.mk.inj heq).2
        · exact absurd hmem (hno o'')
  · have hk' := h k'
    rw [lookup_claim_ne hc hk]
    split at hk'
    · intro o'' hmem
      rcases Multiset.mem_cons.mp hmem with heq | hmem
      · exact hk (Prod.mk.inj heq).1
      · exact hk' o'' hmem
    · refine ⟨hk'.1, by rw [count_cons_ne hk, hk'.2.1], ?_⟩
      intro o'' hmem
      rcases Multiset.mem_cons.mp hmem with heq | hmem
      · exact absurd (Prod.mk.inj heq).1 hk
      · exact hk'.2.2 o'' hmem

theorem represents_claim_add (h : Represents m c) (hc : claim m k o = some m') :
    Represents m' (c + {(k, o)}) := by
  rw [add_comm, Multiset.singleton_add]
  exact represents_claim h hc

theorem claim_isSome (h : Represents m c) (hfree : ∀ o', (k, o') ∈ c → o' = o) :
    ∃ m', claim m k o = some m' := by
  cases hc : claim m k o with
  | none =>
    obtain ⟨o', hmem, hne⟩ := (claim_eq_none_iff h).mp hc
    exact absurd (hfree o' hmem) hne
  | some m' => exact ⟨m', rfl⟩

end Claim

section Release

variable {m m' : Index K O} {c : Multiset (K × O)} {k : K} {o : O}

theorem lookup_release_ne (hr : release m k o = some m') {k' : K} (hne : k' ≠ k) :
    m'.lookup k' = m.lookup k' := by
  unfold release at hr
  split at hr
  · split at hr
    · cases hr
    · split at hr
      · cases hr
        exact AList.lookup_erase_ne hne
      · cases hr
        exact AList.lookup_insert_ne hne
  · cases hr

theorem release_eq_none_iff (h : Represents m c) : release m k o = none ↔ (k, o) ∉ c := by
  unfold release
  split
  · rename_i o' n hl
    have hk := h.entry hl
    by_cases ho : o' = o
    · subst ho
      have hmem : (k, o') ∈ c := h.mem_of_lookup hl
      split_ifs with hne <;> simp_all
    · have hnot : (k, o) ∉ c := fun hmem => ho (hk.2.2 o hmem).symm
      simp [ho, hnot]
  · rename_i hl
    simp [(h.lookup_eq_none).mp hl o]

theorem represents_release (h : Represents m c) (hr : release m k o = some m') :
    Represents m' (c.erase (k, o)) := by
  intro k'
  by_cases hk : k' = k
  · subst hk
    unfold release at hr
    split at hr
    · rename_i o' n hl
      have hk := h.entry hl
      split at hr
      · cases hr
      · rename_i ho
        have ho : o' = o := not_not.mp ho
        subst ho
        have hsub : ∀ o'', (k', o'') ∈ c.erase (k', o') → o'' = o' :=
          fun o'' hmem => hk.2.2 o'' (Multiset.mem_of_mem_erase hmem)
        split at hr
        · rename_i hn
          cases hr
          rw [AList.lookup_erase]
          intro o'' hmem
          have heq := hsub o'' hmem
          subst heq
          have hcount : (c.erase (k', o'')).count (k', o'') = 0 := by
            rw [Multiset.count_erase_self, hk.2.1, hn]
          exact absurd hmem (Multiset.count_eq_zero.mp hcount)
        · rename_i hn
          cases hr
          rw [AList.lookup_insert]
          refine ⟨by omega, by rw [Multiset.count_erase_self, hk.2.1], hsub⟩
    · cases hr
  · have hk' := h k'
    rw [lookup_release_ne hr hk]
    have hne : ∀ o'', (k', o'') ≠ (k, o) := fun o'' heq => hk (Prod.mk.inj heq).1
    split at hk'
    · intro o'' hmem
      exact hk' o'' (Multiset.mem_of_mem_erase hmem)
    · refine ⟨hk'.1, by rw [Multiset.count_erase_of_ne (hne _), hk'.2.1], ?_⟩
      intro o'' hmem
      exact hk'.2.2 o'' (Multiset.mem_of_mem_erase hmem)

theorem release_isSome (h : Represents m c) (hmem : (k, o) ∈ c) :
    ∃ m', release m k o = some m' := by
  cases hr : release m k o with
  | none => exact absurd hmem ((release_eq_none_iff h).mp hr)
  | some m' => exact ⟨m', rfl⟩

theorem represents_release_add {A B : Multiset (K × O)} (h : Represents m (A + {(k, o)} + B))
    (hr : release m k o = some m') : Represents m' (A + B) := by
  have hrep := represents_release h hr
  have hsum : A + {(k, o)} + B = (k, o) ::ₘ (A + B) := by
    rw [← Multiset.singleton_add]
    abel
  rwa [hsum, Multiset.erase_cons_head] at hrep

end Release

section Sum

/-! The claims of a whole map of owners are the sum of the claims of its entries. -/

variable {α : Type} {β : α → Type} {M : Type} [AddCommMonoid M]

def mapSum (s : AList β) (f : (a : α) → β a → M) : M :=
  (s.entries.map fun e => f e.1 e.2).sum

theorem mapSum_insert [DecidableEq α] (s : AList β) (a : α) (b : β a) (f : (a : α) → β a → M) :
    mapSum (s.insert a b) f = f a b + mapSum (s.erase a) f := by
  simp only [mapSum, AList.entries_insert, List.map_cons, List.sum_cons]
  rfl

theorem mapSum_of_lookup [DecidableEq α] {s : AList β} {a : α} {b : β a} (h : s.lookup a = some b)
    (f : (a : α) → β a → M) : mapSum s f = f a b + mapSum (s.erase a) f := by
  have hmem : a ∈ s.entries.keys := AList.mem_keys.mp (AList.lookup_isSome.mp (by simp [h]))
  obtain ⟨b', l₁, l₂, -, hl, hker⟩ := List.exists_of_kerase hmem
  have hb : b' = b := by
    have hl' := h
    simp only [AList.lookup, hl] at hl'
    rw [List.dlookup_append, List.dlookup_cons_eq] at hl'
    have hnot : a ∉ l₁.keys := by
      intro ha
      have := s.nodupKeys
      rw [hl, List.NodupKeys, List.keys_append, List.keys_cons] at this
      exact (List.nodup_append.mp this).2.2 a ha a List.mem_cons_self rfl
    rw [List.dlookup_eq_none.mpr hnot] at hl'
    exact Option.some_injective _ hl'
  subst hb
  have herase : (s.erase a).entries = l₁ ++ l₂ := hker
  simp only [mapSum, herase, hl, List.map_append, List.map_cons, List.sum_append, List.sum_cons]
  abel

theorem mapSum_erase_of_lookup_none [DecidableEq α] {s : AList β} {a : α} (h : s.lookup a = none)
    (f : (a : α) → β a → M) : mapSum (s.erase a) f = mapSum s f := by
  have hnot : a ∉ s := AList.lookup_eq_none.mp h
  have herase : (s.erase a).entries = s.entries :=
    List.kerase_of_notMem_keys (AList.mem_keys.not.mp hnot)
  simp only [mapSum, herase]

theorem mapSum_congr_lookup [DecidableEq α] {s₁ s₂ : AList β} (f : (a : α) → β a → M)
    (h : ∀ a, (s₁.lookup a).map (f a) = (s₂.lookup a).map (f a)) : mapSum s₁ f = mapSum s₂ f := by
  have hmem : ∀ (s : AList β) (a : α) (m : M),
      (a, m) ∈ s.entries.map (fun e => (e.1, f e.1 e.2)) ↔ (s.lookup a).map (f a) = some m := by
    intro s a m
    simp only [List.mem_map, Prod.mk.injEq, Option.map_eq_some_iff]
    constructor
    · rintro ⟨e, he, rfl, rfl⟩
      exact ⟨e.2, AList.mem_lookup_iff.mpr he, rfl⟩
    · rintro ⟨b, hb, rfl⟩
      exact ⟨⟨a, b⟩, AList.mem_lookup_iff.mp hb, rfl, rfl⟩
  have hnodup : ∀ s : AList β, (s.entries.map (fun e => (e.1, f e.1 e.2))).Nodup := fun s =>
    List.Nodup.of_map Prod.fst (by rw [List.map_map]; exact s.nodupKeys)
  have hperm : (s₁.entries.map (fun e => (e.1, f e.1 e.2))).Perm
      (s₂.entries.map (fun e => (e.1, f e.1 e.2))) := by
    rw [List.perm_ext_iff_of_nodup (hnodup s₁) (hnodup s₂)]
    rintro ⟨a, m⟩
    rw [hmem, hmem, h]
  have hsum := (hperm.map Prod.snd).sum_eq
  rw [List.map_map, List.map_map] at hsum
  exact hsum

theorem foldl_eq_add_sum {γ : Type} (F : M → γ → M) (g : γ → M) (hF : ∀ m c, F m c = m + g c)
    (l : List γ) (init : M) : l.foldl F init = init + (l.map g).sum := by
  induction l generalizing init with
  | nil => simp
  | cons c l ih => rw [List.foldl_cons, ih, hF, List.map_cons, List.sum_cons, add_assoc]

theorem exists_of_mem_mapSum {γ : Type} {s : AList β} {f : (a : α) → β a → Multiset γ} {y : γ}
    (hy : y ∈ mapSum s f) : ∃ e ∈ s.entries, y ∈ f e.1 e.2 := by
  unfold mapSum at hy
  generalize s.entries = l at hy ⊢
  induction l with
  | nil => simp at hy
  | cons e rest ih =>
    rw [List.map_cons, List.sum_cons, Multiset.mem_add] at hy
    rcases hy with hy | hy
    · exact ⟨e, List.mem_cons_self, hy⟩
    · obtain ⟨e', he', hy'⟩ := ih hy
      exact ⟨e', List.mem_cons_of_mem e he', hy'⟩

end Sum

end OwnerIndex
