import DashCore.Evo.UniqueIndex

/-! Replaying the difference of two lists: ApplyDiff of `L.BuildDiff L'` on `L`. ApplyDiff
removes, then adds, then updates, and every member function it calls checks the unique
properties again against the list rebuilt so far. Each list it passes through lies between
`L` and `L'`: every masternode in it is as `L` or as `L'` has it. On such a list every call
succeeds, as long as no masternode of `L'` took a property that a masternode kept from `L`
held in `L`. -/
namespace DashCore

section Primitives

variable (P : Primitives)

namespace CDeterministicMNList

/-- AddUniqueProperty refuses the null value, so a masternode AddMN accepted has a collateral
and an owner key. -/
def RegisteredMN (dmn : CDeterministicMN) : Prop :=
  dmn.collateralOutpoint ≠ default ∧ dmn.pdmnState.keyIDOwner ≠ 0

def Registered (s : CDeterministicMNList) : Prop :=
  ∀ h dmn, s.GetMN h = some dmn → RegisteredMN dmn

/-- The representation invariant of the list: the index invariant, the operator keys, and
every masternode as AddMN accepts it. -/
structure Valid (s : CDeterministicMNList) : Prop where
  sound : Sound P s
  registered : Registered s

def SameIdentity (L L' : CDeterministicMNList) : Prop :=
  ∀ h d d', L.GetMN h = some d → L'.GetMN h = some d' → d' = { d with pdmnState := d'.pdmnState }

/-- No masternode of `L'` holds a hash that another masternode, still in `L'`, held in `L`. -/
def NoStealing (L L' : CDeterministicMNList) : Prop :=
  ∀ x a b, (x, a) ∈ ListClaims P L → (x, b) ∈ ListClaims P L' → a ≠ b → L'.GetMN a = none

/-- A list on the way from `L` to `L'`: valid, and each of its masternodes is as `L` has it,
under a key `L'` keeps, or as `L'` has it. -/
structure Between (L L' S : CDeterministicMNList) : Prop where
  valid : Valid P S
  mem : ∀ h d, S.GetMN h = some d → (L.GetMN h = some d ∧ (L'.GetMN h).isSome) ∨ L'.GetMN h = some d

section Lookup

variable {P} {s : CDeterministicMNList}

theorem GetMNByInternalId_of_GetMN (hs : Inv P s) {h : uint256} {d : CDeterministicMN}
    (hd : s.GetMN h = some d) : s.GetMNByInternalId d.internalId = some d := by
  have hid := (hs.internalIds d.internalId h).mpr ⟨d, hd, rfl⟩
  simp only [GetMNByInternalId, hid, Option.bind_some]
  exact hd

theorem internalId_inj (hs : Inv P s) {h₁ h₂ : uint256} {d₁ d₂ : CDeterministicMN}
    (hd₁ : s.GetMN h₁ = some d₁) (hd₂ : s.GetMN h₂ = some d₂) (heq : d₁.internalId = d₂.internalId) :
    h₁ = h₂ := by
  have e₁ := (hs.internalIds d₁.internalId h₁).mpr ⟨d₁, hd₁, rfl⟩
  have e₂ := (hs.internalIds d₁.internalId h₂).mpr ⟨d₂, hd₂, heq.symm⟩
  rw [e₁] at e₂
  exact Option.some.inj e₂

theorem lookup_internalId_eq_none (hs : Inv P s) {id : UInt64}
    (hno : ∀ h d, s.GetMN h = some d → d.internalId ≠ id) : s.mnInternalIdMap.lookup id = none := by
  cases hl : s.mnInternalIdMap.lookup id with
  | none => rfl
  | some h =>
    obtain ⟨d, hd, hdid⟩ := (hs.internalIds id h).mp hl
    exact absurd hdid (hno h d hd)

theorem lookup_internalId_of_GetMN_eq {s' : CDeterministicMNList} (hs : Inv P s) (hs' : Inv P s')
    (hget : ∀ h, s.GetMN h = s'.GetMN h) (id : UInt64) :
    s.mnInternalIdMap.lookup id = s'.mnInternalIdMap.lookup id := by
  cases hl : s.mnInternalIdMap.lookup id with
  | none =>
    apply (lookup_internalId_eq_none hs' _).symm
    intro h d hd hdid
    have hin := (hs.internalIds id h).mpr ⟨d, (hget h).trans hd, hdid⟩
    rw [hl] at hin
    cases hin
  | some h =>
    obtain ⟨d, hd, hdid⟩ := (hs.internalIds id h).mp hl
    exact ((hs'.internalIds id h).mpr ⟨d, (hget h).symm.trans hd, hdid⟩).symm

theorem exists_of_mem_ListClaims (hs : Inv P s) {y : uint256 × uint256} (hy : y ∈ ListClaims P s) :
    ∃ d, s.GetMN y.2 = some d ∧ y ∈ PropertyClaims P d := by
  obtain ⟨e, he, hye⟩ := OwnerIndex.exists_of_mem_mapSum hy
  have hlookup : s.GetMN e.1 = some e.2 := AList.mem_lookup_iff.mpr he
  have howner : y.2 = e.1 := (mem_claims_owner _ hye).trans (hs.key_eq e.1 e.2 hlookup)
  rw [howner]
  exact ⟨e.2, hlookup, hye⟩

theorem mem_values {d : CDeterministicMN} :
    d ∈ s.mnMap.entries.map (·.2) ↔ ∃ h, s.GetMN h = some d := by
  simp only [List.mem_map, GetMN]
  constructor
  · rintro ⟨⟨h, d'⟩, he, rfl⟩
    exact ⟨h, AList.mem_lookup_iff.mpr he⟩
  · rintro ⟨h, hd⟩
    exact ⟨⟨h, d⟩, AList.mem_lookup_iff.mp hd, rfl⟩

theorem values_proTxHash_nodup (hs : Inv P s) :
    ((s.mnMap.entries.map (·.2)).map (·.proTxHash)).Nodup := by
  have hkeys : (s.mnMap.entries.map (·.2)).map (·.proTxHash) = s.mnMap.entries.keys := by
    rw [List.map_map, List.keys]
    apply List.map_congr_left
    intro e he
    exact hs.key_eq e.1 e.2 (AList.mem_lookup_iff.mpr he)
  rw [hkeys]
  exact s.mnMap.nodupKeys

end Lookup

/-! When AddMN, RemoveMN and UpdateMN succeed, and with which list. -/

section Success

variable {P}

theorem claimOf_owner {h : uint256} {v : UniqueProperty} {x : uint256 × uint256}
    (hx : x ∈ claimOf P h v) : x.2 = h := by
  unfold claimOf at hx
  split at hx
  · simp at hx
  · rw [Multiset.mem_singleton] at hx
    rw [hx]

theorem StateClaims_owner {nType : MnType} {h : uint256} {st : CDeterministicMNState}
    {x : uint256 × uint256} (hx : x ∈ StateClaims P nType h st) : x.2 = h := by
  unfold StateClaims at hx
  simp only [Multiset.mem_add] at hx
  rcases hx with ((hx | hx) | hx) | hx
  · exact claimOf_owner hx
  · exact claimOf_owner hx
  · exact claimOf_owner hx
  · split at hx
    · exact claimOf_owner hx
    · simp at hx

theorem mem_sum_claimOf {α : Type} {h : uint256} {f : α → UniqueProperty} {l : List α} {a : α}
    (ha : a ∈ l) (hnull : (f a).IsNull P = false) :
    ((f a).Hash P, h) ∈ (l.map fun p => claimOf P h (f p)).sum := by
  induction l with
  | nil => simp at ha
  | cons b rest ih =>
    rw [List.map_cons, List.sum_cons, Multiset.mem_add]
    rcases List.mem_cons.mp ha with rfl | ha
    · left
      rw [claimOf_of_not_null hnull, Multiset.mem_singleton]
    · exact Or.inr (ih ha)

theorem RegisteredMN.collateral_not_null {dmn : CDeterministicMN} (hreg : RegisteredMN dmn) :
    (UniqueProperty.outPoint dmn.collateralOutpoint).IsNull P = false := by
  simpa [UniqueProperty.IsNull] using hreg.1

theorem RegisteredMN.owner_not_null {dmn : CDeterministicMN} (hreg : RegisteredMN dmn) :
    (UniqueProperty.uint160 dmn.pdmnState.keyIDOwner).IsNull P = false := by
  simpa [UniqueProperty.IsNull] using hreg.2

theorem GuardedProperties_not_null {dmn : CDeterministicMN} (hreg : RegisteredMN dmn)
    (hk : KeyOk P dmn.pdmnState) : ∀ p ∈ GuardedProperties P dmn, p.1.IsNull P = false := by
  intro p hp
  simp only [GuardedProperties, UniqueProperties, List.mem_filterMap, List.mem_cons,
    List.not_mem_nil, or_false] at hp
  obtain ⟨q, hq, hqp⟩ := hp
  rcases hq with rfl | rfl | rfl | rfl | rfl <;>
    simp only [Option.ite_none_right_eq_some, Option.some.injEq] at hqp <;>
    obtain ⟨hg, rfl⟩ := hqp
  · exact hreg.collateral_not_null
  · simpa [UniqueProperty.IsNull] using hg
  · exact hreg.owner_not_null
  · rw [UniqueProperty.IsNull_blsPublicKey hk]
    simpa [CBLSLazyPublicKey.IsValid] using hg
  · simp only [Bool.and_eq_true, bne_iff_ne, ne_eq] at hg
    simpa [UniqueProperty.IsNull] using hg.2

theorem mem_PropertyClaims {dmn : CDeterministicMN} {p : UniqueProperty × PropertyKind}
    (hp : p ∈ GuardedProperties P dmn) (hnull : p.1.IsNull P = false) :
    (p.1.Hash P, dmn.proTxHash) ∈ PropertyClaims P dmn :=
  mem_sum_claimOf (f := Prod.fst) hp hnull

theorem addWrites_ok (dmn : CDeterministicMN) (l : List (UniqueProperty × PropertyKind))
    {m : MnUniquePropertyMap} {c : Multiset (uint256 × uint256)} (hm : OwnerIndex.Represents m c)
    (hnull : ∀ p ∈ l, p.1.IsNull P = false)
    (hfree : ∀ p ∈ l, ∀ o, (p.1.Hash P, o) ∈ c → o = dmn.proTxHash) :
    ∃ m', Rollback.result (l.map fun p => (AddUniqueProperty P dmn p.1,
      MNListError.addDuplicate dmn.proTxHash p.2)) m = .ok m' := by
  induction l generalizing m c with
  | nil => exact ⟨m, rfl⟩
  | cons p rest ih =>
    have hp := hnull p List.mem_cons_self
    obtain ⟨m1, hc⟩ := OwnerIndex.claim_isSome hm (hfree p List.mem_cons_self)
    have hw : AddUniqueProperty P dmn p.1 m = (true, m1) := by
      simp [AddUniqueProperty, hp, hc]
    simp only [List.map_cons, Rollback.result_cons, hw, if_true]
    refine ih (OwnerIndex.represents_claim_add hm hc)
      (fun q hq => hnull q (List.mem_cons_of_mem p hq)) ?_
    intro q hq o ho
    rcases Multiset.mem_add.mp ho with ho | ho
    · exact hfree q (List.mem_cons_of_mem p hq) o ho
    · exact (Prod.mk.inj (Multiset.mem_singleton.mp ho)).2

theorem deleteWrites_ok (proTxHash : uint256) (dmn : CDeterministicMN)
    (l : List (UniqueProperty × PropertyKind)) {m : MnUniquePropertyMap}
    {c : Multiset (uint256 × uint256)}
    (hm : OwnerIndex.Represents m (c + (l.map fun p => claimOf P dmn.proTxHash p.1).sum))
    (hnull : ∀ p ∈ l, p.1.IsNull P = false) :
    ∃ m', Rollback.result (l.map fun p => (DeleteUniqueProperty P dmn p.1,
      MNListError.deleteFailed proTxHash p.2)) m = .ok m' := by
  induction l generalizing m with
  | nil => exact ⟨m, rfl⟩
  | cons p rest ih =>
    have hp := hnull p List.mem_cons_self
    rw [List.map_cons, List.sum_cons, claimOf_of_not_null hp, ← add_assoc] at hm
    have hmem : (p.1.Hash P, dmn.proTxHash) ∈ c + {(p.1.Hash P, dmn.proTxHash)} +
        (rest.map fun p => claimOf P dmn.proTxHash p.1).sum := by
      simp
    obtain ⟨m1, hr⟩ := OwnerIndex.release_isSome hm hmem
    have hw : DeleteUniqueProperty P dmn p.1 m = (true, m1) := by
      simp [DeleteUniqueProperty, hp, hr]
    simp only [List.map_cons, Rollback.result_cons, hw, if_true]
    exact ih (OwnerIndex.represents_release_add hm hr)
      (fun q hq => hnull q (List.mem_cons_of_mem p hq))

theorem updateWrite_true (dmn : CDeterministicMN) (o n : UniqueProperty)
    {m : MnUniquePropertyMap} {R N : Multiset (uint256 × uint256)}
    (hm : OwnerIndex.Represents m (R + claimOf P dmn.proTxHash o + N))
    (hfree : n.IsNull P = false → ∀ o', (n.Hash P, o') ∈ R + N → o' = dmn.proTxHash) :
    (UpdateUniqueProperty P dmn o n m).1 = true := by
  unfold UpdateUniqueProperty
  by_cases heq : o.Equals P n = true
  · simp [heq]
  simp only [heq, Bool.false_eq_true, if_false]
  have hdel : ∃ m1, (if !o.IsNull P then DeleteUniqueProperty P dmn o m else (true, m)) = (true, m1) ∧
      OwnerIndex.Represents m1 (R + N) := by
    by_cases ho : o.IsNull P
    · rw [claimOf_of_null ho, add_zero] at hm
      exact ⟨m, by simp [ho], hm⟩
    · have ho' : o.IsNull P = false := by simpa using ho
      rw [claimOf_of_not_null ho'] at hm
      have hmem : (o.Hash P, dmn.proTxHash) ∈ R + {(o.Hash P, dmn.proTxHash)} + N := by simp
      obtain ⟨m1, hr⟩ := OwnerIndex.release_isSome hm hmem
      refine ⟨m1, by simp [ho', DeleteUniqueProperty, hr], ?_⟩
      exact OwnerIndex.represents_release_add hm hr
  obtain ⟨m1, hr, hrep⟩ := hdel
  rw [hr]
  by_cases hn : n.IsNull P
  · simp [hn]
  · have hn' : n.IsNull P = false := by simpa using hn
    obtain ⟨m2, hc⟩ := OwnerIndex.claim_isSome hrep (hfree hn')
    simp [hn', AddUniqueProperty, hc]

theorem updateWrites_ok (dmn : CDeterministicMN) (k : PropertyKind → MNListError)
    (l : List (UniqueProperty × UniqueProperty × PropertyKind))
    (hc : ∀ t ∈ l, t.1.Canonical P = true ∧ t.2.1.Canonical P = true) {m : MnUniquePropertyMap}
    {R N : Multiset (uint256 × uint256)}
    (hm : OwnerIndex.Represents m (R + (l.map fun t => claimOf P dmn.proTxHash t.1).sum + N))
    (hN : ∀ x ∈ N, x.2 = dmn.proTxHash)
    (hfree : ∀ t ∈ l, t.2.1.IsNull P = false → ∀ o, (t.2.1.Hash P, o) ∈ R → o = dmn.proTxHash) :
    ∃ m', Rollback.result (l.map fun t => (UpdateUniqueProperty P dmn t.1 t.2.1, k t.2.2)) m =
      .ok m' := by
  induction l generalizing m N with
  | nil => exact ⟨m, rfl⟩
  | cons t rest ih =>
    have hm' : OwnerIndex.Represents m
        ((R + (rest.map fun t => claimOf P dmn.proTxHash t.1).sum) +
          claimOf P dmn.proTxHash t.1 + N) := by
      convert hm using 1
      simp only [List.map_cons, List.sum_cons]
      abel
    have hw := updateWrite_true dmn t.1 t.2.1 hm' (by
      intro hn o ho
      rcases Multiset.mem_add.mp ho with ho | ho
      · rcases Multiset.mem_add.mp ho with ho | ho
        · exact hfree t List.mem_cons_self hn o ho
        · exact mem_claims_owner rest ho
      · exact hN _ ho)
    have hct := hc t List.mem_cons_self
    have hstep := represents_updateWrite dmn hct.1 hct.2 hm' hw
    rw [List.map_cons, Rollback.result_cons, if_pos hw]
    refine ih (fun t' ht' => hc t' (List.mem_cons_of_mem t ht')) (N := N + claimOf P dmn.proTxHash t.2.1)
      (by convert hstep using 1; abel) ?_ (fun t' ht' => hfree t' (List.mem_cons_of_mem t ht'))
    intro x hx
    rcases Multiset.mem_add.mp hx with hx | hx
    · exact hN x hx
    · exact claimOf_owner hx

theorem AddMNResult_ok {s : CDeterministicMNList} {dmn : CDeterministicMN} (b : Bool)
    (hs : Inv P s) (hkey : s.GetMN dmn.proTxHash = none)
    (hid : s.mnInternalIdMap.lookup dmn.internalId = none) (hreg : RegisteredMN dmn)
    (hk : KeyOk P dmn.pdmnState)
    (hfree : ∀ x ∈ PropertyClaims P dmn, ∀ o, (x.1, o) ∈ ListClaims P s → o = dmn.proTxHash) :
    ∃ m, AddMNResult P dmn b s = .ok { s with
      mnUniquePropertyMap := m
      mnMap := s.mnMap.insert dmn.proTxHash dmn
      mnInternalIdMap := s.mnInternalIdMap.insert dmn.internalId dmn.proTxHash
      nTotalRegisteredCount :=
        if b then bumpedTotalCount dmn.internalId s.nTotalRegisteredCount
        else s.nTotalRegisteredCount } := by
  have hnull := GuardedProperties_not_null hreg hk
  obtain ⟨m, hm⟩ := addWrites_ok dmn (GuardedProperties P dmn) hs.unique hnull
    (fun p hp o ho => hfree _ (mem_PropertyClaims hp (hnull p hp)) o ho)
  have hk : (s.mnMap.lookup dmn.proTxHash).isSome = false := by simpa [GetMN] using hkey
  have hi : (s.mnInternalIdMap.lookup dmn.internalId).isSome = false := by simp [hid]
  refine ⟨m, ?_⟩
  simp only [AddMNResult, hk, hi, Bool.false_eq_true, if_false]
  rw [AddMNWrites] at *
  rw [hm]

theorem RemoveMNResult_ok {s : CDeterministicMNList} {h : uint256} {dmn : CDeterministicMN}
    (hs : Inv P s) (hreg : RegisteredMN dmn) (hk : KeyOk P dmn.pdmnState)
    (hdmn : s.GetMN h = some dmn) :
    ∃ m, RemoveMNResult P h s = .ok { s with
      mnUniquePropertyMap := m
      mnMap := s.mnMap.erase h
      mnInternalIdMap := s.mnInternalIdMap.erase dmn.internalId } := by
  have hrep := hs.unique
  rw [ListClaims, OwnerIndex.mapSum_of_lookup hdmn, add_comm] at hrep
  obtain ⟨m, hm⟩ := deleteWrites_ok h dmn (GuardedProperties P dmn) hrep
    (GuardedProperties_not_null hreg hk)
  refine ⟨m, ?_⟩
  simp only [RemoveMNResult, hdmn]
  rw [RemoveMNWrites] at *
  rw [hm]

theorem UpdateMNResult_ok {s : CDeterministicMNList} {oldDmn : CDeterministicMN}
    {pdmnState : CDeterministicMNState} (hs : Inv P s)
    (hcur : s.GetMN oldDmn.proTxHash = some oldDmn) (hko : KeyOk P oldDmn.pdmnState)
    (hkn : KeyOk P pdmnState)
    (hfree : ∀ x ∈ StateClaims P oldDmn.nType oldDmn.proTxHash pdmnState, ∀ o,
      (x.1, o) ∈ ListClaims P s → o = oldDmn.proTxHash) :
    ∃ m, UpdateMNResult P oldDmn pdmnState s = .ok { s with
      mnUniquePropertyMap := m
      mnMap := s.mnMap.insert oldDmn.proTxHash { oldDmn with pdmnState := pdmnState } } := by
  have hrep := hs.unique
  rw [ListClaims, OwnerIndex.mapSum_of_lookup hcur, PropertyClaims_eq hko,
    ← UpdatedProperties_old_claims oldDmn.nType oldDmn.proTxHash oldDmn.pdmnState pdmnState]
    at hrep
  have hRsub : ∀ y ∈ claimOf P oldDmn.proTxHash (.outPoint oldDmn.collateralOutpoint) +
      OwnerIndex.mapSum (s.mnMap.erase oldDmn.proTxHash) (fun _ d => PropertyClaims P d),
      y ∈ ListClaims P s := by
    intro y hy
    rw [ListClaims, OwnerIndex.mapSum_of_lookup hcur, PropertyClaims_eq hko]
    rcases Multiset.mem_add.mp hy with hy | hy
    · exact Multiset.mem_add.mpr (Or.inl (Multiset.mem_add.mpr (Or.inl hy)))
    · exact Multiset.mem_add.mpr (Or.inr hy)
  obtain ⟨m, hm⟩ := updateWrites_ok (N := 0)
    (R := claimOf P oldDmn.proTxHash (.outPoint oldDmn.collateralOutpoint) +
      OwnerIndex.mapSum (s.mnMap.erase oldDmn.proTxHash) (fun _ d => PropertyClaims P d))
    { oldDmn with pdmnState := pdmnState }
    (.updateDuplicate oldDmn.proTxHash)
    (UpdatedProperties oldDmn.nType oldDmn.pdmnState pdmnState)
    (UpdatedProperties_canonical hko hkn) (by convert hrep using 1; abel) (by simp) (by
      intro t ht hn o ho
      have hx : (t.2.1.Hash P, oldDmn.proTxHash) ∈
          StateClaims P oldDmn.nType oldDmn.proTxHash pdmnState := by
        rw [← UpdatedProperties_new_claims oldDmn.nType oldDmn.proTxHash oldDmn.pdmnState]
        exact mem_sum_claimOf (f := fun t => t.2.1) ht hn
      exact hfree _ hx o (hRsub _ ho))
  refine ⟨m, ?_⟩
  simp only [UpdateMNResult]
  rw [UpdateMNWrites] at *
  rw [hm]

end Success

/-! The three phases of ApplyDiff, each on a list between `L` and `L'`. -/

section Phases

variable {P} {L L' : CDeterministicMNList}

theorem Registered.of_lookup {s s' : CDeterministicMNList} (hs : Registered s)
    (h' : ∀ k d, s'.GetMN k = some d → s.GetMN k = some d ∨ RegisteredMN d) : Registered s' := by
  intro k d hd
  rcases h' k d hd with hd | hreg
  · exact hs k d hd
  · exact hreg

theorem Between.claims_free {S : CDeterministicMNList} (hS : Between P L L' S) (hL' : Valid P L')
    (hsteal : NoStealing P L L') {x : uint256 × uint256} (hx : x ∈ ListClaims P L')
    {o : uint256} (ho : (x.1, o) ∈ ListClaims P S) : o = x.2 := by
  obtain ⟨d, hd, hmem⟩ := exists_of_mem_ListClaims hS.valid.sound.inv ho
  rcases hS.mem o d hd with ⟨hLd, hkeep⟩ | hL'd
  · -- a masternode kept from `L` holds nothing another masternode of `L'` holds
    by_contra hne
    have hgone := hsteal x.1 o x.2 (mem_ListClaims hLd hmem) hx hne
    rw [hgone] at hkeep
    cases hkeep
  · exact hL'.sound.inv.unique.consistent x.1 o x.2 (mem_ListClaims hL'd hmem) hx

theorem Between.lookup_internalId {S : CDeterministicMNList} (hS : Between P L L' S)
    (hL' : Valid P L') (hid : SameIdentity L L') {h : uint256} {d : CDeterministicMN}
    (hd : L'.GetMN h = some d) (hnone : S.GetMN h = none) :
    S.mnInternalIdMap.lookup d.internalId = none := by
  apply lookup_internalId_eq_none hS.valid.sound.inv
  intro k d0 hk hkid
  have hk' : ∃ d0', L'.GetMN k = some d0' ∧ d0'.internalId = d0.internalId := by
    rcases hS.mem k d0 hk with ⟨hLk, hkeep⟩ | hL'k
    · obtain ⟨d0', hd0'⟩ := Option.isSome_iff_exists.mp hkeep
      exact ⟨d0', hd0', by rw [hid k d0 d0' hLk hd0']⟩
    · exact ⟨d0, hL'k, rfl⟩
  obtain ⟨d0', hd0', hid0⟩ := hk'
  have hkh := internalId_inj hL'.sound.inv hd0' hd (hid0.trans hkid)
  rw [hkh, hnone] at hk
  cases hk

theorem removals_ok {rs : List UInt64} (hnd : rs.Nodup) :
    ∀ {S : CDeterministicMNList}, Valid P S →
      (∀ id ∈ rs, ∃ h d, S.GetMN h = some d ∧ d.internalId = id) →
      ∃ S', rs.foldlM (fun s id => ApplyRemovedResult P id s) S = .ok S' ∧ Valid P S' ∧
        S'.blockHash = S.blockHash ∧ S'.nHeight = S.nHeight ∧
        ∀ h, S'.GetMN h = (S.GetMN h).filter fun d => decide (d.internalId ∉ rs) := by
  induction rs with
  | nil =>
    intro S hS _
    refine ⟨S, rfl, hS, rfl, rfl, fun h => ?_⟩
    cases S.GetMN h <;> simp [Option.filter_some]
  | cons id rest ih =>
    intro S hS hfound
    obtain ⟨hnotin, hnd'⟩ := List.nodup_cons.mp hnd
    obtain ⟨h, d, hd, hdid⟩ := hfound id List.mem_cons_self
    subst hdid
    have hinv := hS.sound.inv
    have hkey := hinv.key_eq h d hd
    obtain ⟨m, hr⟩ := RemoveMNResult_ok hinv (hS.registered h d hd) (hS.sound.keys h d hd) hd
    have happ : ApplyRemovedResult P d.internalId S = RemoveMNResult P h S := by
      simp only [ApplyRemovedResult, GetMNByInternalId_of_GetMN hinv hd, hkey]
    set S1 : CDeterministicMNList := { S with
      mnUniquePropertyMap := m
      mnMap := S.mnMap.erase h
      mnInternalIdMap := S.mnInternalIdMap.erase d.internalId }
    have hget1 : ∀ k, S1.GetMN k = if k = h then none else S.GetMN k :=
      GetMN_of_mnMap_erase rfl
    have hS1 : Valid P S1 := by
      refine ⟨Sound_RemoveMNResult hS.sound hr, hS.registered.of_lookup ?_⟩
      intro k d' hk
      rw [hget1] at hk
      split at hk
      · cases hk
      · exact Or.inl hk
    have hfound1 : ∀ id' ∈ rest, ∃ h' d', S1.GetMN h' = some d' ∧ d'.internalId = id' := by
      intro id' hid'
      obtain ⟨h', d', hd', rfl⟩ := hfound id' (List.mem_cons_of_mem _ hid')
      have hne : h' ≠ h := by
        rintro rfl
        rw [hd] at hd'
        cases hd'
        exact hnotin hid'
      exact ⟨h', d', by rw [hget1, if_neg hne]; exact hd', rfl⟩
    obtain ⟨S', hfold, hS', hb, hn, hget⟩ := ih hnd' hS1 hfound1
    refine ⟨S', ?_, hS', hb, hn, ?_⟩
    · rw [List.foldlM_cons, happ, hr]
      exact hfold
    · intro k
      rw [hget, hget1]
      by_cases hk : k = h
      · subst hk
        simp [hd, Option.filter_some]
      · rw [if_neg hk]
        cases hk' : S.GetMN k with
        | none => rfl
        | some d' =>
          have hid' : d'.internalId ≠ d.internalId :=
            fun heq => hk (internalId_inj hinv hk' hd heq)
          simp [hid', Option.filter_some]

theorem additions_ok (hL' : Valid P L') (hid : SameIdentity L L') (hsteal : NoStealing P L L')
    {as : List CDeterministicMN} (hnd : (as.map (·.proTxHash)).Nodup)
    (has : ∀ d ∈ as, L'.GetMN d.proTxHash = some d) :
    ∀ {S : CDeterministicMNList}, Between P L L' S → (∀ d ∈ as, S.GetMN d.proTxHash = none) →
      ∃ S', as.foldlM (fun s dmn => AddMNResult P dmn true s) S = .ok S' ∧ Between P L L' S' ∧
        S'.blockHash = S.blockHash ∧ S'.nHeight = S.nHeight ∧
        ∀ h, S'.GetMN h = if h ∈ as.map (·.proTxHash) then L'.GetMN h else S.GetMN h := by
  induction as with
  | nil =>
    intro S hS _
    exact ⟨S, rfl, hS, rfl, rfl, fun h => by simp⟩
  | cons d rest ih =>
    intro S hS hfresh
    obtain ⟨hnotin, hnd'⟩ := List.nodup_cons.mp hnd
    have hd := has d List.mem_cons_self
    have hnone := hfresh d List.mem_cons_self
    have hinv := hS.valid.sound.inv
    have hfree : ∀ x ∈ PropertyClaims P d, ∀ o, (x.1, o) ∈ ListClaims P S → o = d.proTxHash := by
      intro x hx o ho
      rw [hS.claims_free hL' hsteal (mem_ListClaims hd hx) ho]
      exact mem_claims_owner _ hx
    obtain ⟨m, hr⟩ := AddMNResult_ok true hinv hnone (hS.lookup_internalId hL' hid hd hnone)
      (hL'.registered _ d hd) (hL'.sound.keys _ d hd) hfree
    set S1 : CDeterministicMNList := { S with
      mnUniquePropertyMap := m
      mnMap := S.mnMap.insert d.proTxHash d
      mnInternalIdMap := S.mnInternalIdMap.insert d.internalId d.proTxHash
      nTotalRegisteredCount := bumpedTotalCount d.internalId S.nTotalRegisteredCount }
    have hget1 : ∀ k, S1.GetMN k = if k = d.proTxHash then some d else S.GetMN k :=
      GetMN_of_mnMap_insert rfl
    have hS1 : Between P L L' S1 := by
      refine ⟨⟨Sound_AddMNResult hS.valid.sound (hL'.sound.keys _ d hd) hr,
        hS.valid.registered.of_lookup ?_⟩, ?_⟩
      · intro k d' hk
        rw [hget1] at hk
        split at hk
        · cases hk
          exact Or.inr (hL'.registered _ _ hd)
        · exact Or.inl hk
      · intro k d' hk
        rw [hget1] at hk
        split at hk
        · rename_i hkd
          cases hk
          rw [hkd]
          exact Or.inr hd
        · exact hS.mem k d' hk
    have hfresh1 : ∀ d' ∈ rest, S1.GetMN d'.proTxHash = none := by
      intro d' hd'
      have hne : d'.proTxHash ≠ d.proTxHash := by
        intro heq
        have hmem := List.mem_map_of_mem (f := (·.proTxHash)) hd'
        rw [heq] at hmem
        exact hnotin hmem
      rw [hget1, if_neg hne]
      exact hfresh d' (List.mem_cons_of_mem _ hd')
    obtain ⟨S', hfold, hS', hb, hn, hget⟩ :=
      ih hnd' (fun d' hd' => has d' (List.mem_cons_of_mem _ hd')) hS1 hfresh1
    refine ⟨S', ?_, hS', hb, hn, ?_⟩
    · rw [List.foldlM_cons, hr]
      exact hfold
    · intro k
      rw [hget, hget1]
      by_cases hk : k = d.proTxHash
      · subst hk
        simp [hnotin, hd]
      · by_cases hkr : k ∈ rest.map (·.proTxHash) <;> simp [hk, hkr]

theorem updates_ok (hL : Valid P L) (hL' : Valid P L') (hid : SameIdentity L L')
    (hsteal : NoStealing P L L') {us : List (UInt64 × CDeterministicMNStateDiff)}
    (hnd : (us.map Prod.fst).Nodup)
    (hus : ∀ p ∈ us, ∃ h d d', L.GetMN h = some d ∧ L'.GetMN h = some d' ∧
      d.internalId = p.1 ∧ p.2 = CDeterministicMNStateDiff.ofStates d.pdmnState d'.pdmnState) :
    ∀ {S : CDeterministicMNList}, Between P L L' S →
      (∀ p ∈ us, ∀ h d, L.GetMN h = some d → d.internalId = p.1 → S.GetMN h = some d) →
      ∃ S', us.foldlM (fun s p => ApplyUpdatedResult P p s) S = .ok S' ∧ Between P L L' S' ∧
        S'.blockHash = S.blockHash ∧ S'.nHeight = S.nHeight ∧
        (∀ h d, L.GetMN h = some d → d.internalId ∈ us.map Prod.fst → S'.GetMN h = L'.GetMN h) ∧
        (∀ h, (∀ d, L.GetMN h = some d → d.internalId ∉ us.map Prod.fst) →
          S'.GetMN h = S.GetMN h) := by
  induction us with
  | nil =>
    intro S hS _
    exact ⟨S, rfl, hS, rfl, rfl, fun _ _ _ hmem => by simp at hmem, fun _ _ => rfl⟩
  | cons p rest ih =>
    intro S hS hpending
    obtain ⟨hnotin, hnd'⟩ := List.nodup_cons.mp hnd
    obtain ⟨h, d, d', hLd, hL'd, hdid, hp2⟩ := hus p List.mem_cons_self
    have hSd := hpending p List.mem_cons_self h d hLd hdid
    have hinv := hS.valid.sound.inv
    have hkey : d.proTxHash = h := hL.sound.inv.key_eq h d hLd
    have hd' : { d with pdmnState := d'.pdmnState } = d' := (hid h d d' hLd hL'd).symm
    have happ : ApplyUpdatedResult P p S = UpdateMNResult P d d'.pdmnState S := by
      rw [ApplyUpdatedResult, ← hdid, GetMNByInternalId_of_GetMN hinv hSd]
      simp only [hp2, CDeterministicMNStateDiff.ApplyToState_ofStates]
    have hfree : ∀ x ∈ StateClaims P d.nType d.proTxHash d'.pdmnState, ∀ o,
        (x.1, o) ∈ ListClaims P S → o = d.proTxHash := by
      intro x hx o ho
      have hx' : x ∈ PropertyClaims P d' := by
        rw [PropertyClaims_eq (hL'.sound.keys h d' hL'd), ← hd']
        exact Multiset.mem_add.mpr (Or.inr hx)
      rw [hS.claims_free hL' hsteal (mem_ListClaims hL'd hx') ho]
      exact StateClaims_owner hx
    obtain ⟨m, hr⟩ := UpdateMNResult_ok hinv (hkey ▸ hSd) (hL.sound.keys h d hLd)
      (hL'.sound.keys h d' hL'd) hfree
    rw [hd', hkey] at hr
    set S1 : CDeterministicMNList := { S with
      mnUniquePropertyMap := m
      mnMap := S.mnMap.insert h d' }
    have hget1 : ∀ k, S1.GetMN k = if k = h then some d' else S.GetMN k :=
      GetMN_of_mnMap_insert rfl
    have hS1 : Between P L L' S1 := by
      refine ⟨⟨Sound_UpdateMNResult hS.valid.sound (hkey ▸ hSd) (hL'.sound.keys h d' hL'd) hr,
        hS.valid.registered.of_lookup ?_⟩, ?_⟩
      · intro k d0 hk
        rw [hget1] at hk
        split at hk
        · cases hk
          exact Or.inr (hL'.registered h _ hL'd)
        · exact Or.inl hk
      · intro k d0 hk
        rw [hget1] at hk
        split at hk
        · rename_i hkh
          cases hk
          rw [hkh]
          exact Or.inr hL'd
        · exact hS.mem k d0 hk
    have hpending1 : ∀ p' ∈ rest, ∀ h0 d0, L.GetMN h0 = some d0 → d0.internalId = p'.1 →
        S1.GetMN h0 = some d0 := by
      intro p' hp' h0 d0 hL0 hid0
      have hne : h0 ≠ h := by
        rintro rfl
        rw [hLd] at hL0
        cases hL0
        exact hnotin (hdid ▸ hid0 ▸ List.mem_map_of_mem hp')
      rw [hget1, if_neg hne]
      exact hpending p' (List.mem_cons_of_mem _ hp') h0 d0 hL0 hid0
    obtain ⟨S', hfold, hS', hb, hn, hdone, hkept⟩ :=
      ih hnd' (fun p' hp' => hus p' (List.mem_cons_of_mem _ hp')) hS1 hpending1
    refine ⟨S', ?_, hS', hb, hn, ?_, ?_⟩
    · rw [List.foldlM_cons, happ, hr]
      exact hfold
    · intro k d0 hL0 hmem
      rw [List.map_cons, List.mem_cons] at hmem
      rcases hmem with hmem | hmem
      · have hkh : k = h := internalId_inj hL.sound.inv hL0 hLd (hmem.trans hdid.symm)
        have hnot : ∀ d1, L.GetMN h = some d1 → d1.internalId ∉ rest.map Prod.fst := by
          intro d1 hd1
          rw [hLd] at hd1
          cases hd1
          rw [hdid]
          exact hnotin
        rw [hkh, hkept h hnot, hget1, if_pos rfl, hL'd]
      · exact hdone k d0 hL0 hmem
    · intro k hk
      have hne : k ≠ h := by
        rintro rfl
        exact hk d hLd (by rw [hdid]; exact List.mem_cons_self)
      rw [hkept k (fun d0 hd0 hmem => hk d0 hd0 (List.mem_cons_of_mem _ hmem)), hget1,
        if_neg hne]

end Phases

/-! What BuildDiff records, read against the two lists. -/

section Diff

variable {P} {L L' : CDeterministicMNList}

theorem SameIdentity.internalId (hid : SameIdentity L L') {h : uint256} {d d' : CDeterministicMN}
    (hd : L.GetMN h = some d) (hd' : L'.GetMN h = some d') : d'.internalId = d.internalId := by
  rw [hid h d d' hd hd']

theorem BuildDiff_removedMns (hL : Inv P L) :
    (BuildDiff L L').removedMns.Nodup ∧ ∀ id, id ∈ (BuildDiff L L').removedMns ↔
      ∃ h d, L.GetMN h = some d ∧ L'.GetMN h = none ∧ d.internalId = id := by
  simp only [BuildDiff, sortedIdSet]
  refine ⟨(List.mergeSort_perm _ _).nodup_iff.mpr (List.nodup_dedup _), fun id => ?_⟩
  rw [List.mem_mergeSort, List.mem_dedup, List.mem_map]
  simp only [List.mem_filter, mem_values, Option.isNone_iff_eq_none]
  constructor
  · rintro ⟨d, ⟨⟨h, hd⟩, hnone⟩, rfl⟩
    rw [hL.key_eq h d hd] at hnone
    exact ⟨h, d, hd, hnone, rfl⟩
  · rintro ⟨h, d, hd, hnone, rfl⟩
    exact ⟨d, ⟨⟨h, hd⟩, by rw [hL.key_eq h d hd]; exact hnone⟩, rfl⟩

theorem BuildDiff_addedMNs (hL' : Inv P L') :
    ((BuildDiff L L').addedMNs.map (·.proTxHash)).Nodup ∧
      (∀ d ∈ (BuildDiff L L').addedMNs, L'.GetMN d.proTxHash = some d ∧ L.GetMN d.proTxHash = none) ∧
      ∀ h d, L'.GetMN h = some d → L.GetMN h = none → h ∈ (BuildDiff L L').addedMNs.map (·.proTxHash) := by
  simp only [BuildDiff, foldl_diffOfMN_addedMNs, List.nil_append]
  refine ⟨?_, ?_, ?_⟩
  · refine ((List.mergeSort_perm _ _).map _).nodup_iff.mpr ?_
    exact (values_proTxHash_nodup hL').sublist (List.filter_sublist.map _)
  · intro d hd
    rw [List.mem_mergeSort, List.mem_filter, mem_values, Option.isNone_iff_eq_none] at hd
    obtain ⟨⟨h, hdh⟩, hnone⟩ := hd
    rw [hL'.key_eq h d hdh] at hnone ⊢
    exact ⟨hdh, hnone⟩
  · intro h d hd hnone
    have hkey := hL'.key_eq h d hd
    refine List.mem_map.mpr ⟨d, ?_, hkey⟩
    rw [List.mem_mergeSort, List.mem_filter, mem_values, hkey, hnone]
    exact ⟨⟨h, hd⟩, rfl⟩

theorem BuildDiff_updatedMNs (hL' : Inv P L') :
    ((BuildDiff L L').updatedMNs.map Prod.fst).Nodup ∧
      (∀ p ∈ (BuildDiff L L').updatedMNs, ∃ h d d', L.GetMN h = some d ∧ L'.GetMN h = some d' ∧
        d'.internalId = p.1 ∧ p.2 = CDeterministicMNStateDiff.ofStates d.pdmnState d'.pdmnState) ∧
      ∀ h d d', L.GetMN h = some d → L'.GetMN h = some d' → d.pdmnState ≠ d'.pdmnState →
        d'.internalId ∈ (BuildDiff L L').updatedMNs.map Prod.fst := by
  obtain ⟨hQ, hnd, -, hcomp⟩ := foldl_diffOfMN_updatedMNs L
    (fun p => ∃ h d d', L.GetMN h = some d ∧ L'.GetMN h = some d' ∧
      d'.internalId = p.1 ∧ p.2 = CDeterministicMNStateDiff.ofStates d.pdmnState d'.pdmnState)
    (L'.mnMap.entries.map (·.2))
    (by
      intro t ht f hf
      obtain ⟨h, hth⟩ := mem_values.mp ht
      rw [hL'.key_eq h t hth] at hf
      exact ⟨h, f, t, hf, hth, rfl, rfl⟩)
    {} (by simp) (by simp)
  refine ⟨hnd, hQ, ?_⟩
  intro h d d' hd hd' hne
  have hkey := hL'.key_eq h d' hd'
  exact hcomp d' (mem_values.mpr ⟨h, hd'⟩) d (by rw [hkey]; exact hd) hne

end Diff

theorem ApplyDiff_BuildDiff {L L' : CDeterministicMNList} (hL : Valid P L) (hL' : Valid P L')
    (hid : SameIdentity L L') (hsteal : NoStealing P L L') (pindexHash : uint256)
    (pindexHeight : Int) {us : List (UInt64 × CDeterministicMNStateDiff)}
    (hus : us.Perm (BuildDiff L L').updatedMNs) :
    ∃ R, ApplyDiff P L pindexHash pindexHeight { BuildDiff L L' with updatedMNs := us } = .ok R ∧
      R.blockHash = pindexHash ∧ R.nHeight = pindexHeight ∧ Valid P R ∧
      (∀ h, R.GetMN h = L'.GetMN h) ∧
      ∀ id, R.mnInternalIdMap.lookup id = L'.mnInternalIdMap.lookup id := by
  rw [ApplyDiff_eq]
  dsimp only
  have hS0 : Valid P { L with blockHash := pindexHash, nHeight := pindexHeight } :=
    ⟨⟨⟨hL.sound.inv.key_eq, hL.sound.inv.internalIds, hL.sound.inv.unique⟩, hL.sound.keys⟩,
      hL.registered⟩
  -- removals: what stays is what `L'` keeps
  obtain ⟨hrnd, hrmem⟩ := @BuildDiff_removedMns P L L' hL.sound.inv
  obtain ⟨S1, h1, hS1v, hb1, hn1, hget1⟩ := removals_ok hrnd hS0 (fun id hid' => by
    obtain ⟨h, d, hd, -, hdid⟩ := (hrmem id).mp hid'
    exact ⟨h, d, hd, hdid⟩)
  have hget1' : ∀ h, S1.GetMN h = if (L'.GetMN h).isSome then L.GetMN h else none := by
    intro h
    rw [hget1]
    change Option.filter _ (L.GetMN h) = _
    cases hLh : L.GetMN h with
    | none => simp
    | some d =>
      cases hL'h : L'.GetMN h with
      | none =>
        have hin : d.internalId ∈ (BuildDiff L L').removedMns := (hrmem _).mpr ⟨h, d, hLh, hL'h, rfl⟩
        simp [Option.filter_some, hin]
      | some d' =>
        have hnot : d.internalId ∉ (BuildDiff L L').removedMns := by
          intro hin
          obtain ⟨h2, d2, hd2, hnone2, hid2⟩ := (hrmem _).mp hin
          rw [internalId_inj hL.sound.inv hd2 hLh hid2, hL'h] at hnone2
          cases hnone2
        simp [Option.filter_some, hnot]
  have hS1 : Between P L L' S1 := by
    refine ⟨hS1v, fun h d hd => Or.inl ?_⟩
    rw [hget1'] at hd
    split at hd
    · exact ⟨hd, by assumption⟩
    · cases hd
  -- additions: the masternodes `L'` adds
  obtain ⟨hand, hamem, hacomp⟩ := BuildDiff_addedMNs (L := L) hL'.sound.inv
  obtain ⟨S2, h2, hS2, hb2, hn2, hget2⟩ := additions_ok hL' hid hsteal hand
    (fun d hd => (hamem d hd).1) hS1 (fun d hd => by
      rw [hget1', (hamem d hd).2]
      split <;> rfl)
  -- updates: every pending one finds its masternode as `L` has it
  obtain ⟨hund, humem, hucomp⟩ := BuildDiff_updatedMNs (L := L) hL'.sound.inv
  have hus' : ∀ p ∈ us, ∃ h d d', L.GetMN h = some d ∧ L'.GetMN h = some d' ∧
      d.internalId = p.1 ∧ p.2 = CDeterministicMNStateDiff.ofStates d.pdmnState d'.pdmnState := by
    intro p hp
    obtain ⟨h, d, d', hd, hd', hid', hp2⟩ := humem p (hus.mem_iff.mp hp)
    exact ⟨h, d, d', hd, hd', (hid.internalId hd hd').symm.trans hid', hp2⟩
  have hpending : ∀ p ∈ us, ∀ h d, L.GetMN h = some d → d.internalId = p.1 →
      S2.GetMN h = some d := by
    intro p hp h d hd hdid
    obtain ⟨h0, d0, d0', hd0, hd0', hid0, -⟩ := hus' p hp
    have hh0 : h = h0 := internalId_inj hL.sound.inv hd hd0 (hdid.trans hid0.symm)
    subst hh0
    have hnotadded : h ∉ (BuildDiff L L').addedMNs.map (·.proTxHash) := by
      intro hmem
      obtain ⟨d1, hd1, rfl⟩ := List.mem_map.mp hmem
      rw [(hamem d1 hd1).2] at hd
      cases hd
    rw [hget2, if_neg hnotadded, hget1', hd0', Option.isSome_some, if_pos rfl]
    exact hd
  obtain ⟨S3, h3, hS3, hb3, hn3, hdone, hkept⟩ :=
    updates_ok hL hL' hid hsteal ((hus.map Prod.fst).nodup_iff.mpr hund) hus' hS2 hpending
  -- every masternode ends as `L'` has it
  have hget3 : ∀ h, S3.GetMN h = L'.GetMN h := by
    intro h
    by_cases hupd : ∃ d, L.GetMN h = some d ∧ d.internalId ∈ us.map Prod.fst
    · obtain ⟨d, hd, hmem⟩ := hupd
      exact hdone h d hd hmem
    simp only [not_exists, not_and] at hupd
    rw [hkept h hupd, hget2]
    split
    · rfl
    rename_i hnotadded
    rw [hget1']
    cases hLh : L.GetMN h with
    | none =>
      cases hL'h : L'.GetMN h with
      | none => simp
      | some d' => exact absurd (hacomp h d' hL'h hLh) hnotadded
    | some d =>
      cases hL'h : L'.GetMN h with
      | none => simp
      | some d' =>
        have hstate : d.pdmnState = d'.pdmnState := by
          by_contra hne
          apply hupd d hLh
          rw [← hid.internalId hLh hL'h]
          exact (hus.map Prod.fst).mem_iff.mpr (hucomp h d d' hLh hL'h hne)
        rw [Option.isSome_some, if_pos rfl, hid h d d' hLh hL'h, ← hstate]
  refine ⟨S3, ?_, by rw [hb3, hb2, hb1], by rw [hn3, hn2, hn1], hS3.valid, hget3,
    lookup_internalId_of_GetMN_eq hS3.valid.sound.inv hL'.sound.inv hget3⟩
  rw [h1]
  simp only [Except.bind]
  rw [h2]
  exact h3

end CDeterministicMNList

end Primitives

end DashCore
