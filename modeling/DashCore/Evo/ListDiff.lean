import DashCore.Evo.MNList

/-! The difference of two masternode lists (`CDeterministicMNListDiff`,
`CDeterministicMNList::BuildDiff` and `ApplyDiff`, evo/deterministicmns.cpp). Maps are
iterated in the order of their entries; where the source iterates a hash map, the
results below hold for every order. -/
namespace DashCore

structure CDeterministicMNListDiff where
  nHeight : Int := -1
  addedMNs : List CDeterministicMN := []
  /-- An `unordered_map` keyed by internal id; the list order is its iteration order. -/
  updatedMNs : List (UInt64 × CDeterministicMNStateDiff) := []
  /-- A `std::set`: ascending and without repetition. -/
  removedMns : List UInt64 := []

def CDeterministicMNListDiff.HasChanges (d : CDeterministicMNListDiff) : Bool :=
  !d.addedMNs.isEmpty || !d.updatedMNs.isEmpty || !d.removedMns.isEmpty

def sortedIdSet (ids : List UInt64) : List UInt64 :=
  ids.dedup.mergeSort fun a b => a ≤ b

def emplace {β : Type} (m : List (UInt64 × β)) (k : UInt64) (v : β) : List (UInt64 × β) :=
  if m.any (·.1 == k) then m else m ++ [(k, v)]

section Emplace

variable {β : Type}

theorem mem_emplace {m : List (UInt64 × β)} {k : UInt64} {v : β} {p : UInt64 × β}
    (hp : p ∈ emplace m k v) : p ∈ m ∨ p = (k, v) := by
  unfold emplace at hp
  split at hp
  · exact Or.inl hp
  · rcases List.mem_append.mp hp with hp | hp
    · exact Or.inl hp
    · exact Or.inr (List.mem_singleton.mp hp)

theorem key_mem_emplace (m : List (UInt64 × β)) (k : UInt64) (v : β) :
    k ∈ (emplace m k v).map Prod.fst := by
  unfold emplace
  split
  · rename_i hk
    obtain ⟨p, hp, hpk⟩ := List.any_eq_true.mp hk
    exact List.mem_map.mpr ⟨p, hp, by simpa using hpk⟩
  · simp

theorem keys_subset_emplace {m : List (UInt64 × β)} {k' : UInt64} (hk : k' ∈ m.map Prod.fst)
    (k : UInt64) (v : β) : k' ∈ (emplace m k v).map Prod.fst := by
  unfold emplace
  split
  · exact hk
  · rw [List.map_append]
    exact List.mem_append_left _ hk

theorem emplace_keys_nodup {m : List (UInt64 × β)} (hm : (m.map Prod.fst).Nodup) (k : UInt64)
    (v : β) : ((emplace m k v).map Prod.fst).Nodup := by
  unfold emplace
  split
  · exact hm
  · rename_i hk
    rw [List.map_append, List.map_singleton]
    refine hm.append (List.nodup_singleton k) (List.disjoint_singleton.mpr ?_)
    intro hmem
    obtain ⟨p, hp, rfl⟩ := List.mem_map.mp hmem
    exact hk (List.any_eq_true.mpr ⟨p, hp, by simp⟩)

end Emplace

section Primitives

variable (P : Primitives)

namespace CDeterministicMNList

/-- The callback BuildDiff runs on each masternode of `to`: a new one is added, and a common
one whose state differs gets the difference of its states. -/
def diffOfMN (s : CDeterministicMNList) (d : CDeterministicMNListDiff) (toDmn : CDeterministicMN) :
    CDeterministicMNListDiff :=
  match s.GetMN toDmn.proTxHash with
  | none => { d with addedMNs := d.addedMNs ++ [toDmn] }
  | some fromDmn =>
    let stateDiff := CDeterministicMNStateDiff.ofStates fromDmn.pdmnState toDmn.pdmnState
    if stateDiff.fields != 0 then
      { d with updatedMNs := emplace d.updatedMNs toDmn.internalId stateDiff }
    else d

/-- BuildDiff: masternodes of `to` only are added, those of `this` only are removed, and a
common one whose state differs gets the difference of its states. -/
def BuildDiff (s toList : CDeterministicMNList) : CDeterministicMNListDiff :=
  let d := (toList.mnMap.entries.map (·.2)).foldl (diffOfMN s) {}
  let removed := (s.mnMap.entries.map (·.2)).filter fun fromDmn =>
    (toList.GetMN fromDmn.proTxHash).isNone
  -- added masternodes are sorted by internal id, so that ids match when the diff is applied
  { d with
    addedMNs := d.addedMNs.mergeSort fun a b => a.internalId ≤ b.internalId
    removedMns := sortedIdSet (removed.map (·.internalId)) }

theorem foldl_diffOfMN_addedMNs (s : CDeterministicMNList) (ts : List CDeterministicMN)
    (d0 : CDeterministicMNListDiff) :
    (ts.foldl (diffOfMN s) d0).addedMNs =
      d0.addedMNs ++ ts.filter fun t => (s.GetMN t.proTxHash).isNone := by
  induction ts generalizing d0 with
  | nil => simp
  | cons t rest ih =>
    rw [List.foldl_cons, ih, List.filter_cons]
    unfold diffOfMN
    cases hs : s.GetMN t.proTxHash with
    | none => simp
    | some f =>
      by_cases hc : (CDeterministicMNStateDiff.ofStates f.pdmnState t.pdmnState).fields != 0 <;>
        simp [hc]

theorem foldl_diffOfMN_updatedMNs (s : CDeterministicMNList)
    (Q : UInt64 × CDeterministicMNStateDiff → Prop) (ts : List CDeterministicMN)
    (hQ : ∀ t ∈ ts, ∀ f, s.GetMN t.proTxHash = some f →
      Q (t.internalId, CDeterministicMNStateDiff.ofStates f.pdmnState t.pdmnState))
    (d0 : CDeterministicMNListDiff) (h0 : ∀ p ∈ d0.updatedMNs, Q p)
    (hnd0 : (d0.updatedMNs.map Prod.fst).Nodup) :
    (∀ p ∈ (ts.foldl (diffOfMN s) d0).updatedMNs, Q p) ∧
      ((ts.foldl (diffOfMN s) d0).updatedMNs.map Prod.fst).Nodup ∧
      (∀ k ∈ d0.updatedMNs.map Prod.fst, k ∈ (ts.foldl (diffOfMN s) d0).updatedMNs.map Prod.fst) ∧
      ∀ t ∈ ts, ∀ f, s.GetMN t.proTxHash = some f → f.pdmnState ≠ t.pdmnState →
        t.internalId ∈ (ts.foldl (diffOfMN s) d0).updatedMNs.map Prod.fst := by
  induction ts generalizing d0 with
  | nil => exact ⟨h0, hnd0, fun k hk => hk, fun t ht => by simp at ht⟩
  | cons t rest ih =>
    have hstep : (∀ p ∈ (diffOfMN s d0 t).updatedMNs, Q p) ∧
        ((diffOfMN s d0 t).updatedMNs.map Prod.fst).Nodup ∧
        (∀ k ∈ d0.updatedMNs.map Prod.fst, k ∈ (diffOfMN s d0 t).updatedMNs.map Prod.fst) ∧
        ∀ f, s.GetMN t.proTxHash = some f → f.pdmnState ≠ t.pdmnState →
          t.internalId ∈ (diffOfMN s d0 t).updatedMNs.map Prod.fst := by
      unfold diffOfMN
      cases hs : s.GetMN t.proTxHash with
      | none => exact ⟨h0, hnd0, fun k hk => hk, fun f hf => by cases hf⟩
      | some f =>
        dsimp only
        by_cases hc : (CDeterministicMNStateDiff.ofStates f.pdmnState t.pdmnState).fields != 0
        · rw [if_pos hc]
          refine ⟨?_, emplace_keys_nodup hnd0 _ _, fun k hk => keys_subset_emplace hk _ _,
            fun _ _ _ => key_mem_emplace _ _ _⟩
          intro p hp
          rcases mem_emplace hp with hp | rfl
          · exact h0 p hp
          · exact hQ t List.mem_cons_self f hs
        · rw [if_neg hc]
          refine ⟨h0, hnd0, fun k hk => hk, ?_⟩
          intro f' hf' hne
          cases hf'
          have hne0 := CDeterministicMNStateDiff.ofStates_fields_ne_zero hne
          exact absurd (by simpa using hne0) hc
    obtain ⟨hQ1, hnd1, hsub1, hself⟩ := hstep
    obtain ⟨hQ2, hnd2, hsub2, hcomp2⟩ :=
      ih (fun t' ht' => hQ t' (List.mem_cons_of_mem _ ht')) _ hQ1 hnd1
    rw [List.foldl_cons]
    refine ⟨hQ2, hnd2, fun k hk => hsub2 k (hsub1 k hk), ?_⟩
    intro t' ht' f hf hne
    rcases List.mem_cons.mp ht' with rfl | ht'
    · exact hsub2 _ (hself f hf hne)
    · exact hcomp2 t' ht' f hf hne

def ApplyRemoved (id : UInt64) : MNListM Unit := do
  match (← get).GetMNByInternalId id with
  | none => throw (.removedNotFound id)
  | some dmn => RemoveMN P dmn.proTxHash

/-- One update of ApplyDiff: a missing id dereferences a null pointer. -/
def ApplyUpdated (p : UInt64 × CDeterministicMNStateDiff) : MNListM Unit := do
  match (← get).GetMNByInternalId p.1 with
  | none => throw .abort
  | some dmn => UpdateMNByDiff P dmn p.2

/-- ApplyDiff works on a copy stamped with the block; an exception leaves `this` alone. -/
def ApplyDiff (s : CDeterministicMNList) (pindexHash : uint256) (pindexHeight : Int)
    (diff : CDeterministicMNListDiff) : Except MNListError CDeterministicMNList :=
  let result := { s with blockHash := pindexHash, nHeight := pindexHeight }
  let run : MNListM Unit := do
    diff.removedMns.forM (ApplyRemoved P)
    diff.addedMNs.forM fun dmn => AddMN P dmn
    diff.updatedMNs.forM (ApplyUpdated P)
  Rollback.toExcept (run.run result)

/-! ApplyDiff as a fold of the list functions' results. -/

def ApplyRemovedResult (id : UInt64) (s : CDeterministicMNList) :
    Except MNListError CDeterministicMNList :=
  match s.GetMNByInternalId id with
  | none => .error (.removedNotFound id)
  | some dmn => RemoveMNResult P dmn.proTxHash s

def ApplyUpdatedResult (p : UInt64 × CDeterministicMNStateDiff) (s : CDeterministicMNList) :
    Except MNListError CDeterministicMNList :=
  match s.GetMNByInternalId p.1 with
  | none => .error .abort
  | some dmn => UpdateMNResult P dmn (p.2.ApplyToState dmn.pdmnState) s

theorem run_ApplyRemoved (id : UInt64) (s : CDeterministicMNList) :
    (ApplyRemoved P id).run s = Rollback.outcome (ApplyRemovedResult P id s) s := by
  unfold ApplyRemoved ApplyRemovedResult
  cases hmn : s.GetMNByInternalId id with
  | none => simp [hmn]
  | some dmn => simp [hmn, run_RemoveMN]

theorem run_ApplyUpdated (p : UInt64 × CDeterministicMNStateDiff) (s : CDeterministicMNList) :
    (ApplyUpdated P p).run s = Rollback.outcome (ApplyUpdatedResult P p s) s := by
  unfold ApplyUpdated ApplyUpdatedResult
  cases hmn : s.GetMNByInternalId p.1 with
  | none => simp [hmn]
  | some dmn => simp [hmn, UpdateMNByDiff, run_UpdateMN]

theorem ApplyDiff_eq (s : CDeterministicMNList) (pindexHash : uint256) (pindexHeight : Int)
    (diff : CDeterministicMNListDiff) :
    ApplyDiff P s pindexHash pindexHeight diff =
      (diff.removedMns.foldlM (fun s id => ApplyRemovedResult P id s)
          { s with blockHash := pindexHash, nHeight := pindexHeight }).bind fun s1 =>
        (diff.addedMNs.foldlM (fun s dmn => AddMNResult P dmn true s) s1).bind fun s2 =>
          diff.updatedMNs.foldlM (fun s p => ApplyUpdatedResult P p s) s2 := by
  unfold ApplyDiff
  rw [Rollback.toExcept_run_bind, Rollback.toExcept_run_forM _ _ (run_ApplyRemoved P)]
  congr 1
  funext s1
  rw [Rollback.toExcept_run_bind,
    Rollback.toExcept_run_forM _ _ (fun dmn s => run_AddMN P dmn true s)]
  congr 1
  funext s2
  exact Rollback.toExcept_run_forM _ _ (run_ApplyUpdated P) diff.updatedMNs s2

end CDeterministicMNList

end Primitives

end DashCore
