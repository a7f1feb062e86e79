import DashCore.Evo.ListDiff

/-! The unique-property index of the masternode list. `ListClaims` is what
`mnUniquePropertyMap` should stand for: one entry for every non-null unique property
of every masternode. The writes of AddMN, RemoveMN and UpdateMN keep the index in step
with it, and so does every operation whose arguments keep the callers' promises. -/
namespace DashCore

section Primitives

variable (P : Primitives)

namespace CDeterministicMNList

/-- The entry a value makes in the index for masternode `h`; a null value makes none. -/
def claimOf (h : uint256) (v : UniqueProperty) : Multiset (uint256 × uint256) :=
  if v.IsNull P then 0 else {(v.Hash P, h)}

def PropertyClaims (dmn : CDeterministicMN) : Multiset (uint256 × uint256) :=
  ((GuardedProperties P dmn).map fun p => claimOf P dmn.proTxHash p.1).sum

def ListClaims (s : CDeterministicMNList) : Multiset (uint256 × uint256) :=
  OwnerIndex.mapSum s.mnMap fun _ dmn => PropertyClaims P dmn

/-- (a) and (b) of the index: each masternode sits under its own proTxHash, the id map
holds exactly the ids of the masternodes, and the unique-property map stands for
`ListClaims`. -/
structure Inv (s : CDeterministicMNList) : Prop where
  key_eq : ∀ h dmn, s.GetMN h = some dmn → dmn.proTxHash = h
  internalIds : ∀ id h,
    s.mnInternalIdMap.lookup id = some h ↔ ∃ dmn, s.GetMN h = some dmn ∧ dmn.internalId = id
  unique : OwnerIndex.Represents s.mnUniquePropertyMap (ListClaims P s)

/-- The operator key is held as `Get` finds it: where a ProRegTx, a ProUpRegTx or a reset
leaves it. -/
def KeyOk (st : CDeterministicMNState) : Prop :=
  st.pubKeyOperator.Canonical P = true

def KeysOk (s : CDeterministicMNList) : Prop :=
  ∀ h dmn, s.GetMN h = some dmn → KeyOk P dmn.pdmnState

structure Sound (s : CDeterministicMNList) : Prop where
  inv : Inv P s
  keys : KeysOk P s

/-! The writes of the member functions, against the claims. -/

section Writes

variable {P}

theorem AddUniqueProperty_true {dmn : CDeterministicMN} {v : UniqueProperty}
    {m : MnUniquePropertyMap} (h : (AddUniqueProperty P dmn v m).1 = true) :
    v.IsNull P = false ∧
      OwnerIndex.claim m (v.Hash P) dmn.proTxHash = some (AddUniqueProperty P dmn v m).2 := by
  unfold AddUniqueProperty at h ⊢
  split at h
  · cases h
  · rename_i hnull
    refine ⟨by simpa using hnull, ?_⟩
    split at h
    · rename_i m' hc
      simp [hnull, hc]
    · cases h

theorem DeleteUniqueProperty_true {dmn : CDeterministicMN} {v : UniqueProperty}
    {m : MnUniquePropertyMap} (h : (DeleteUniqueProperty P dmn v m).1 = true) :
    v.IsNull P = false ∧
      OwnerIndex.release m (v.Hash P) dmn.proTxHash = some (DeleteUniqueProperty P dmn v m).2 := by
  unfold DeleteUniqueProperty at h ⊢
  split at h
  · cases h
  · rename_i hnull
    refine ⟨by simpa using hnull, ?_⟩
    split at h
    · rename_i m' hc
      simp [hnull, hc]
    · cases h

theorem claimOf_of_not_null {h : uint256} {v : UniqueProperty} (hv : v.IsNull P = false) :
    claimOf P h v = {(v.Hash P, h)} := by
  simp [claimOf, hv]

theorem claimOf_of_null {h : uint256} {v : UniqueProperty} (hv : v.IsNull P = true) :
    claimOf P h v = 0 := by
  simp [claimOf, hv]

theorem represents_addWrites (dmn : CDeterministicMN) (l : List (UniqueProperty × PropertyKind))
    {m m' : MnUniquePropertyMap} {c : Multiset (uint256 × uint256)}
    (hm : OwnerIndex.Represents m c)
    (hr : Rollback.result (l.map fun p => (AddUniqueProperty P dmn p.1,
      MNListError.addDuplicate dmn.proTxHash p.2)) m = .ok m') :
    OwnerIndex.Represents m' (c + (l.map fun p => claimOf P dmn.proTxHash p.1).sum) := by
  induction l generalizing m c with
  | nil =>
    cases hr
    simpa using hm
  | cons p rest ih =>
    rw [List.map_cons, Rollback.result_cons] at hr
    split at hr
    · rename_i hw
      obtain ⟨hnull, hclaim⟩ := AddUniqueProperty_true hw
      have hstep := ih (OwnerIndex.represents_claim_add hm hclaim) hr
      rw [List.map_cons, List.sum_cons, claimOf_of_not_null hnull]
      convert hstep using 1
      abel
    · cases hr

theorem represents_deleteWrites (proTxHash : uint256) (dmn : CDeterministicMN)
    (l : List (UniqueProperty × PropertyKind)) {m m' : MnUniquePropertyMap}
    {c : Multiset (uint256 × uint256)}
    (hm : OwnerIndex.Represents m (c + (l.map fun p => claimOf P dmn.proTxHash p.1).sum))
    (hr : Rollback.result (l.map fun p => (DeleteUniqueProperty P dmn p.1,
      MNListError.deleteFailed proTxHash p.2)) m = .ok m') :
    OwnerIndex.Represents m' c := by
  induction l generalizing m with
  | nil =>
    cases hr
    simpa using hm
  | cons p rest ih =>
    rw [List.map_cons, Rollback.result_cons] at hr
    split at hr
    · rename_i hw
      obtain ⟨hnull, hrel⟩ := DeleteUniqueProperty_true hw
      rw [List.map_cons, List.sum_cons, claimOf_of_not_null hnull, ← add_assoc] at hm
      exact ih (OwnerIndex.represents_release_add hm hrel) hr
    · cases hr

theorem claimOf_eq_of_Equals {h : uint256} {o n : UniqueProperty} (hco : o.Canonical P = true)
    (hcn : n.Canonical P = true) (heq : o.Equals P n = true) : claimOf P h o = claimOf P h n := by
  obtain ⟨hnull, hhash⟩ := UniqueProperty.IsNull_Hash_eq_of_Equals hco hcn heq
  simp only [claimOf, hnull, hhash]

theorem represents_updateWrite (dmn : CDeterministicMN) {o n : UniqueProperty}
    (hco : o.Canonical P = true) (hcn : n.Canonical P = true)
    {m : MnUniquePropertyMap} {R N : Multiset (uint256 × uint256)}
    (hm : OwnerIndex.Represents m (R + claimOf P dmn.proTxHash o + N))
    (hw : (UpdateUniqueProperty P dmn o n m).1 = true) :
    OwnerIndex.Represents (UpdateUniqueProperty P dmn o n m).2
      (R + N + claimOf P dmn.proTxHash n) := by
  unfold UpdateUniqueProperty at hw ⊢
  by_cases heq : o.Equals P n = true
  · -- a value `==` the old one is not touched, and makes the same entry
    simp only [heq, if_true]
    rw [← claimOf_eq_of_Equals hco hcn heq]
    convert hm using 1
    abel
  simp only [heq, Bool.false_eq_true, if_false] at hw ⊢
  have hdel : ∀ r : Bool × MnUniquePropertyMap,
      r = (if !o.IsNull P then DeleteUniqueProperty P dmn o m else (true, m)) → r.1 = true →
      OwnerIndex.Represents r.2 (R + N) := by
    rintro r rfl hr1
    by_cases ho : o.IsNull P
    · simp only [ho, Bool.not_true, Bool.false_eq_true, if_false]
      rw [claimOf_of_null ho, add_zero] at hm
      exact hm
    · have ho' : o.IsNull P = false := by simpa using ho
      simp only [ho', Bool.not_false, if_true] at hr1 ⊢
      obtain ⟨-, hrel⟩ := DeleteUniqueProperty_true hr1
      rw [claimOf_of_not_null ho'] at hm
      exact OwnerIndex.represents_release_add hm hrel
  generalize hr : (if !o.IsNull P then DeleteUniqueProperty P dmn o m else (true, m)) = r at hw ⊢
  by_cases hr1 : r.1 = true
  · have hrep := hdel r hr.symm hr1
    simp only [hr1, Bool.not_true, Bool.false_eq_true, if_false] at hw ⊢
    by_cases hn : n.IsNull P
    · simp only [hn, Bool.not_true, Bool.false_eq_true, if_false]
      rw [claimOf_of_null hn, add_zero]
      exact hrep
    · have hn' : n.IsNull P = false := by simpa using hn
      simp only [hn', Bool.not_false, if_true] at hw ⊢
      obtain ⟨-, hclaim⟩ := AddUniqueProperty_true hw
      rw [claimOf_of_not_null hn']
      exact OwnerIndex.represents_claim_add hrep hclaim
  · simp [hr1] at hw

theorem represents_updateWrites (dmn : CDeterministicMN) (k : PropertyKind → MNListError)
    (l : List (UniqueProperty × UniqueProperty × PropertyKind))
    (hc : ∀ t ∈ l, t.1.Canonical P = true ∧ t.2.1.Canonical P = true)
    {m m' : MnUniquePropertyMap} {R N : Multiset (uint256 × uint256)}
    (hm : OwnerIndex.Represents m
      (R + (l.map fun t => claimOf P dmn.proTxHash t.1).sum + N))
    (hr : Rollback.result (l.map fun t => (UpdateUniqueProperty P dmn t.1 t.2.1, k t.2.2)) m =
      .ok m') :
    OwnerIndex.Represents m' (R + N + (l.map fun t => claimOf P dmn.proTxHash t.2.1).sum) := by
  induction l generalizing m N with
  | nil =>
    cases hr
    simpa using hm
  | cons t rest ih =>
    rw [List.map_cons, Rollback.result_cons] at hr
    split at hr
    · rename_i hw
      have hm' : OwnerIndex.Represents m
          ((R + (rest.map fun t => claimOf P dmn.proTxHash t.1).sum) +
            claimOf P dmn.proTxHash t.1 + N) := by
        convert hm using 1
        simp only [List.map_cons, List.sum_cons]
        abel
      have hct := hc t List.mem_cons_self
      have hstep := represents_updateWrite dmn hct.1 hct.2 hm' hw
      have hrest := ih (fun t' ht' => hc t' (List.mem_cons_of_mem _ ht'))
        (N := N + claimOf P dmn.proTxHash t.2.1) (by convert hstep using 1; abel) hr
      simp only [List.map_cons, List.sum_cons]
      convert hrest using 1
      abel
    · cases hr

end Writes

def StateClaims (nType : MnType) (h : uint256) (st : CDeterministicMNState) :
    Multiset (uint256 × uint256) :=
  claimOf P h (.service st.addr) + claimOf P h (.uint160 st.keyIDOwner) +
    claimOf P h (.blsPublicKey st.pubKeyOperator) +
    if nType == .HighPerformance then claimOf P h (.uint160 st.platformNodeID) else 0

section Claims

variable {P}

theorem PropertyClaims_eq {dmn : CDeterministicMN} (hk : KeyOk P dmn.pdmnState) :
    PropertyClaims P dmn = claimOf P dmn.proTxHash (.outPoint dmn.collateralOutpoint) +
      StateClaims P dmn.nType dmn.proTxHash dmn.pdmnState := by
  have haddr : (if dmn.pdmnState.addr != default then
      claimOf P dmn.proTxHash (.service dmn.pdmnState.addr) else 0) =
      claimOf P dmn.proTxHash (.service dmn.pdmnState.addr) := by
    by_cases ha : dmn.pdmnState.addr = default <;> simp [ha, claimOf, UniqueProperty.IsNull]
  have hkey : (if dmn.pdmnState.pubKeyOperator.IsValid P then
      claimOf P dmn.proTxHash (.blsPublicKey dmn.pdmnState.pubKeyOperator) else 0) =
      claimOf P dmn.proTxHash (.blsPublicKey dmn.pdmnState.pubKeyOperator) := by
    simp only [claimOf, UniqueProperty.IsNull_blsPublicKey hk, CBLSLazyPublicKey.IsValid]
    cases (CBLSLazyPublicKey.Get P dmn.pdmnState.pubKeyOperator).1 <;> simp
  have hplat : (if (dmn.nType == .HighPerformance && dmn.pdmnState.platformNodeID != 0) then
      claimOf P dmn.proTxHash (.uint160 dmn.pdmnState.platformNodeID) else 0) =
      if dmn.nType == .HighPerformance then
        claimOf P dmn.proTxHash (.uint160 dmn.pdmnState.platformNodeID) else 0 := by
    by_cases hp : dmn.pdmnState.platformNodeID = 0 <;>
      cases dmn.nType <;> simp [hp, claimOf, UniqueProperty.IsNull]
  rw [StateClaims, ← haddr, ← hkey, ← hplat]
  unfold PropertyClaims GuardedProperties UniqueProperties
  cases hA : (dmn.pdmnState.addr != default) <;>
    cases hK : dmn.pdmnState.pubKeyOperator.IsValid P <;>
    cases hH : (dmn.nType == .HighPerformance && dmn.pdmnState.platformNodeID != 0) <;>
    simp <;> abel

theorem UpdatedProperties_canonical {nType : MnType} {a b : CDeterministicMNState}
    (ha : KeyOk P a) (hb : KeyOk P b) :
    ∀ t ∈ UpdatedProperties nType a b, t.1.Canonical P = true ∧ t.2.1.Canonical P = true := by
  intro t ht
  unfold KeyOk at ha hb
  cases nType <;> simp [UpdatedProperties] at ht <;>
    rcases ht with rfl | rfl | rfl | rfl <;> simp [UniqueProperty.Canonical, ha, hb]

theorem UpdatedProperties_old_claims (nType : MnType) (h : uint256)
    (a b : CDeterministicMNState) :
    ((UpdatedProperties nType a b).map fun t => claimOf P h t.1).sum = StateClaims P nType h a := by
  cases nType <;> simp [UpdatedProperties, StateClaims] <;> abel

theorem UpdatedProperties_new_claims (nType : MnType) (h : uint256)
    (a b : CDeterministicMNState) :
    ((UpdatedProperties nType a b).map fun t => claimOf P h t.2.1).sum =
      StateClaims P nType h b := by
  cases nType <;> simp [UpdatedProperties, StateClaims] <;> abel

end Claims

/-! What one member function does to the invariant. -/

section Steps

variable {P}

theorem ListClaims_insert (s : CDeterministicMNList) (h : uint256) (dmn : CDeterministicMN) :
    OwnerIndex.mapSum (s.mnMap.insert h dmn) (fun _ d => PropertyClaims P d) =
      PropertyClaims P dmn + OwnerIndex.mapSum (s.mnMap.erase h) (fun _ d => PropertyClaims P d) :=
  OwnerIndex.mapSum_insert _ _ _ _

theorem Inv_AddMNResult {s s' : CDeterministicMNList} {dmn : CDeterministicMN}
    {fBumpTotalCount : Bool} (hs : Inv P s) (hr : AddMNResult P dmn fBumpTotalCount s = .ok s') :
    Inv P s' := by
  unfold AddMNResult at hr
  split at hr
  · cases hr
  rename_i hdup
  split at hr
  · cases hr
  rename_i hid
  have hdup' : s.mnMap.lookup dmn.proTxHash = none := by simpa using hdup
  have hid' : s.mnInternalIdMap.lookup dmn.internalId = none := by simpa using hid
  split at hr
  · cases hr
  rename_i m hw
  cases hr
  -- the masternode is new: its key, its id and its entries are all fresh
  refine ⟨?_, ?_, ?_⟩
  · intro h d hd
    rw [GetMN_of_mnMap_insert rfl] at hd
    split_ifs at hd with hh
    · cases hd
      exact hh.symm
    · exact hs.key_eq h d hd
  · intro id h
    simp only [GetMN]
    by_cases hi : id = dmn.internalId
    · subst hi
      rw [AList.lookup_insert]
      constructor
      · rintro ⟨⟩
        exact ⟨dmn, AList.lookup_insert _, rfl⟩
      · rintro ⟨d, hd, hdid⟩
        by_cases hh : h = dmn.proTxHash
        · rw [hh]
        · rw [AList.lookup_insert_ne hh] at hd
          have hold := (hs.internalIds d.internalId h).mpr ⟨d, hd, rfl⟩
          rw [hdid, hid'] at hold
          cases hold
    · rw [AList.lookup_insert_ne hi, hs.internalIds]
      by_cases hh : h = dmn.proTxHash
      · subst hh
        simp only [GetMN, hdup', AList.lookup_insert]
        constructor
        · rintro ⟨d, hd, -⟩
          cases hd
        · rintro ⟨d, hd, hdid⟩
          cases hd
          exact absurd hdid.symm hi
      · simp only [GetMN, AList.lookup_insert_ne hh]
  · have hadd := represents_addWrites dmn (GuardedProperties P dmn) hs.unique hw
    have herase := OwnerIndex.mapSum_erase_of_lookup_none hdup' (fun _ d => PropertyClaims P d)
    show OwnerIndex.Represents m (ListClaims P _)
    rw [ListClaims, ListClaims_insert, herase, add_comm]
    exact hadd

theorem Inv_RemoveMNResult {s s' : CDeterministicMNList} {proTxHash : uint256} (hs : Inv P s)
    (hr : RemoveMNResult P proTxHash s = .ok s') : Inv P s' := by
  unfold RemoveMNResult at hr
  split at hr
  · cases hr
  rename_i dmn hdmn
  split at hr
  · cases hr
  rename_i m hw
  cases hr
  have hown : s.mnInternalIdMap.lookup dmn.internalId = some proTxHash :=
    (hs.internalIds dmn.internalId proTxHash).mpr ⟨dmn, hdmn, rfl⟩
  refine ⟨?_, ?_, ?_⟩
  · intro h d hd
    rw [GetMN_of_mnMap_erase rfl] at hd
    split_ifs at hd
    exact hs.key_eq h d hd
  · intro id h
    simp only [GetMN]
    by_cases hi : id = dmn.internalId
    · subst hi
      rw [AList.lookup_erase]
      constructor
      · rintro ⟨⟩
      · rintro ⟨d, hd, hdid⟩
        by_cases hh : h = proTxHash
        · subst hh
          rw [AList.lookup_erase] at hd
          cases hd
        · rw [AList.lookup_erase_ne hh] at hd
          have hold := (hs.internalIds d.internalId h).mpr ⟨d, hd, rfl⟩
          rw [hdid, hown] at hold
          cases hold
          exact absurd rfl hh
    · rw [AList.lookup_erase_ne hi, hs.internalIds]
      by_cases hh : h = proTxHash
      · subst hh
        simp only [GetMN] at hdmn
        simp only [GetMN, AList.lookup_erase, hdmn]
        constructor
        · rintro ⟨d, hd, hdid⟩
          cases hd
          exact absurd hdid.symm hi
        · rintro ⟨d, hd, -⟩
          cases hd
      · simp only [GetMN, AList.lookup_erase_ne hh]
  · have hsplit := OwnerIndex.mapSum_of_lookup hdmn (fun _ d => PropertyClaims P d)
    have hrep := hs.unique
    rw [ListClaims, hsplit, add_comm] at hrep
    exact represents_deleteWrites proTxHash dmn (GuardedProperties P dmn) hrep hw

theorem Inv_UpdateMNResult {s s' : CDeterministicMNList} {oldDmn : CDeterministicMN}
    {pdmnState : CDeterministicMNState} (hs : Inv P s)
    (hcur : s.GetMN oldDmn.proTxHash = some oldDmn) (hko : KeyOk P oldDmn.pdmnState)
    (hkn : KeyOk P pdmnState) (hr : UpdateMNResult P oldDmn pdmnState s = .ok s') :
    Inv P s' := by
  unfold UpdateMNResult at hr
  split at hr
  · cases hr
  rename_i m hw
  cases hr
  refine ⟨?_, ?_, ?_⟩
  · intro h d hd
    rw [GetMN_of_mnMap_insert rfl] at hd
    split_ifs at hd with hh
    · cases hd
      exact hh.symm
    · exact hs.key_eq h d hd
  · intro id h
    rw [hs.internalIds]
    by_cases hh : h = oldDmn.proTxHash
    · subst hh
      simp only [GetMN, AList.lookup_insert]
      simp only [GetMN] at hcur
      simp [hcur]
    · simp only [GetMN, AList.lookup_insert_ne hh]
  · have hsplit := OwnerIndex.mapSum_of_lookup hcur (fun _ d => PropertyClaims P d)
    have hrep := hs.unique
    rw [ListClaims, hsplit, PropertyClaims_eq hko,
      ← UpdatedProperties_old_claims oldDmn.nType oldDmn.proTxHash oldDmn.pdmnState pdmnState]
      at hrep
    have hnew := represents_updateWrites (N := 0)
      (R := claimOf P oldDmn.proTxHash (.outPoint oldDmn.collateralOutpoint) +
        OwnerIndex.mapSum (s.mnMap.erase oldDmn.proTxHash) (fun _ d => PropertyClaims P d))
      { oldDmn with pdmnState := pdmnState } (.updateDuplicate oldDmn.proTxHash)
      (UpdatedProperties oldDmn.nType oldDmn.pdmnState pdmnState)
      (UpdatedProperties_canonical hko hkn) (by convert hrep using 1; abel) hw
    show OwnerIndex.Represents m (ListClaims P _)
    rw [ListClaims, ListClaims_insert]
    rw [UpdatedProperties_new_claims] at hnew
    have hnewClaims : PropertyClaims P { oldDmn with pdmnState := pdmnState } = _ :=
      PropertyClaims_eq hkn
    rw [hnewClaims]
    convert hnew using 1
    abel

theorem KeyOk_of_key_eq {st st' : CDeterministicMNState}
    (h : st'.pubKeyOperator = st.pubKeyOperator) (hk : KeyOk P st) : KeyOk P st' := by
  unfold KeyOk
  rw [h]
  exact hk

theorem KeyOk_of_set {st : CDeterministicMNState} {k : Option (BitVec 384)}
    (h : st.pubKeyOperator = .set k) : KeyOk P st := by
  rw [KeyOk, h]
  rfl

theorem PunishedState_pubKeyOperator (st : CDeterministicMNState) (penalty maxPenalty nHeight : Int) :
    (PunishedState st penalty maxPenalty nHeight).pubKeyOperator = st.pubKeyOperator := by
  unfold PunishedState CDeterministicMNState.BanIfNotBanned
  dsimp only
  split_ifs <;> rfl

theorem KeysOk_insert {s : CDeterministicMNList} {h : uint256} {dmn : CDeterministicMN}
    (hs : KeysOk P s) (hk : KeyOk P dmn.pdmnState) : KeysOk P { s with
      mnMap := s.mnMap.insert h dmn } := by
  intro h' d hd
  rw [GetMN_of_mnMap_insert (s := s) rfl] at hd
  split_ifs at hd
  · cases hd
    exact hk
  · exact hs h' d hd

theorem Sound_AddMNResult {s s' : CDeterministicMNList} {dmn : CDeterministicMN}
    {fBumpTotalCount : Bool} (hs : Sound P s) (hk : KeyOk P dmn.pdmnState)
    (hr : AddMNResult P dmn fBumpTotalCount s = .ok s') : Sound P s' := by
  refine ⟨Inv_AddMNResult hs.inv hr, ?_⟩
  unfold AddMNResult at hr
  split at hr
  · cases hr
  split at hr
  · cases hr
  split at hr
  · cases hr
  cases hr
  exact KeysOk_insert (s := { s with mnUniquePropertyMap := _ }) hs.keys hk

theorem Sound_RemoveMNResult {s s' : CDeterministicMNList} {proTxHash : uint256}
    (hs : Sound P s) (hr : RemoveMNResult P proTxHash s = .ok s') : Sound P s' := by
  refine ⟨Inv_RemoveMNResult hs.inv hr, ?_⟩
  unfold RemoveMNResult at hr
  split at hr
  · cases hr
  split at hr
  · cases hr
  cases hr
  intro h d hd
  rw [GetMN_of_mnMap_erase (s := s) rfl] at hd
  split_ifs at hd
  exact hs.keys h d hd

theorem Sound_UpdateMNResult {s s' : CDeterministicMNList} {oldDmn : CDeterministicMN}
    {pdmnState : CDeterministicMNState} (hs : Sound P s)
    (hcur : s.GetMN oldDmn.proTxHash = some oldDmn) (hk : KeyOk P pdmnState)
    (hr : UpdateMNResult P oldDmn pdmnState s = .ok s') : Sound P s' := by
  refine ⟨Inv_UpdateMNResult hs.inv hcur (hs.keys _ _ hcur) hk hr, ?_⟩
  unfold UpdateMNResult at hr
  split at hr
  · cases hr
  cases hr
  exact KeysOk_insert (s := { s with mnUniquePropertyMap := _ }) hs.keys hk

theorem Sound_UpdateMNByProTxHashResult {s s' : CDeterministicMNList} {proTxHash : uint256}
    {pdmnState : CDeterministicMNState} (hs : Sound P s) (hk : KeyOk P pdmnState)
    (hr : UpdateMNByProTxHashResult P proTxHash pdmnState s = .ok s') : Sound P s' := by
  unfold UpdateMNByProTxHashResult at hr
  split at hr
  · cases hr
  rename_i oldDmn hold
  have hkey := hs.inv.key_eq proTxHash oldDmn hold
  rw [← hkey] at hold
  exact Sound_UpdateMNResult hs hold hk hr

theorem Sound_PoSePunishResult {s s' : CDeterministicMNList} {proTxHash : uint256}
    {penalty : Int} (hs : Sound P s) (hr : PoSePunishResult P proTxHash penalty s = .ok s') :
    Sound P s' := by
  unfold PoSePunishResult at hr
  split at hr
  · cases hr
  split at hr
  · cases hr
  rename_i dmn hdmn
  have hk : KeyOk P (PunishedState dmn.pdmnState penalty s.CalcMaxPoSePenalty s.nHeight) :=
    KeyOk_of_key_eq (PunishedState_pubKeyOperator _ _ _ _) (hs.keys proTxHash dmn hdmn)
  exact Sound_UpdateMNByProTxHashResult hs hk hr

theorem Sound_PoSeDecreaseResult {s s' : CDeterministicMNList} {proTxHash : uint256}
    (hs : Sound P s) (hr : PoSeDecreaseResult P proTxHash s = .ok s') : Sound P s' := by
  unfold PoSeDecreaseResult at hr
  split at hr
  · cases hr
  rename_i dmn hdmn
  split at hr
  · cases hr
  refine Sound_UpdateMNByProTxHashResult hs ?_ hr
  exact KeyOk_of_key_eq rfl (hs.keys proTxHash dmn hdmn)

theorem Sound_of_empty_maps (blockHash : uint256) (nHeight : Int) (nTotalRegisteredCount : UInt32) :
    Sound P { blockHash := blockHash, nHeight := nHeight,
              nTotalRegisteredCount := nTotalRegisteredCount } := by
  refine ⟨⟨?_, ?_, ?_⟩, ?_⟩
  · intro h d hd
    simp [GetMN, AList.lookup_empty] at hd
  · intro id h
    simp [GetMN, AList.lookup_empty]
  · exact OwnerIndex.represents_empty
  · intro h d hd
    simp [GetMN, AList.lookup_empty] at hd

theorem GetMNByInternalId_current {s : CDeterministicMNList} {id : UInt64}
    {dmn : CDeterministicMN} (hs : Inv P s) (h : s.GetMNByInternalId id = some dmn) :
    s.GetMN dmn.proTxHash = some dmn := by
  unfold GetMNByInternalId at h
  cases hl : s.mnInternalIdMap.lookup id with
  | none => simp [hl] at h
  | some h' =>
    simp only [hl, Option.bind_some] at h
    rw [hs.key_eq h' dmn h]
    exact h

theorem Sound_ApplyRemovedResult {s s' : CDeterministicMNList} {id : UInt64} (hs : Sound P s)
    (hr : ApplyRemovedResult P id s = .ok s') : Sound P s' := by
  unfold ApplyRemovedResult at hr
  split at hr
  · cases hr
  exact Sound_RemoveMNResult hs hr

theorem Sound_ApplyUpdatedResult {s s' : CDeterministicMNList}
    {p : UInt64 × CDeterministicMNStateDiff} (hs : Sound P s)
    (hflag : p.2.Flagged .pubKeyOperator → KeyOk P p.2.state)
    (hr : ApplyUpdatedResult P p s = .ok s') : Sound P s' := by
  unfold ApplyUpdatedResult at hr
  split at hr
  · cases hr
  rename_i dmn hdmn
  have hcur := GetMNByInternalId_current hs.inv hdmn
  have hk : KeyOk P (p.2.ApplyToState dmn.pdmnState) := by
    have hget := CDeterministicMNStateDiff.get_ApplyToState p.2 dmn.pdmnState .pubKeyOperator
    by_cases hf : p.2.Flagged .pubKeyOperator
    · rw [if_pos hf] at hget
      exact KeyOk_of_key_eq hget (hflag hf)
    · rw [if_neg hf] at hget
      exact KeyOk_of_key_eq hget (hs.keys _ _ hcur)
  exact Sound_UpdateMNResult hs hcur hk hr

theorem Sound_ApplyDiff {s s' : CDeterministicMNList} {pindexHash : uint256} {pindexHeight : Int}
    {diff : CDeterministicMNListDiff} (hs : Sound P s)
    (hadded : ∀ dmn ∈ diff.addedMNs, KeyOk P dmn.pdmnState)
    (hupdated : ∀ p ∈ diff.updatedMNs, p.2.Flagged .pubKeyOperator → KeyOk P p.2.state)
    (hr : ApplyDiff P s pindexHash pindexHeight diff = .ok s') : Sound P s' := by
  rw [ApplyDiff_eq] at hr
  have hstamp : Sound P { s with blockHash := pindexHash, nHeight := pindexHeight } :=
    ⟨⟨hs.inv.key_eq, hs.inv.internalIds, hs.inv.unique⟩, hs.keys⟩
  cases h1 : diff.removedMns.foldlM (fun s id => ApplyRemovedResult P id s)
      { s with blockHash := pindexHash, nHeight := pindexHeight } with
  | error e => simp [h1, Except.bind] at hr
  | ok s1 =>
    have hs1 : Sound P s1 := Rollback.foldlM_invariant _ _
      (fun _ _ _ _ hs' hr' => Sound_ApplyRemovedResult hs' hr') hstamp h1
    simp only [h1, Except.bind] at hr
    cases h2 : diff.addedMNs.foldlM (fun s dmn => AddMNResult P dmn true s) s1 with
    | error e => simp [h2] at hr
    | ok s2 =>
      have hs2 : Sound P s2 := Rollback.foldlM_invariant _ _
        (fun dmn hdmn _ _ hs' hr' => Sound_AddMNResult hs' (hadded dmn hdmn) hr') hs1 h2
      simp only [h2] at hr
      exact Rollback.foldlM_invariant _ _
        (fun p hp _ _ hs' hr' => Sound_ApplyUpdatedResult hs' (hupdated p hp) hr') hs2 hr

theorem Sound_Unserialize (stream : SerializedMNList) {format_version : UInt8}
    (hfmt : format_version ≠ CURRENT_MN_FORMAT)
    (hk : ∀ dmn ∈ stream.mns, KeyOk P dmn.pdmnState) (s : CDeterministicMNList) :
    Sound P (Rollback.resultState ((Unserialize P stream format_version).run s)) := by
  unfold Unserialize
  have hmig : (format_version == CURRENT_MN_FORMAT) = false := by simpa using hfmt
  simp only [EStateM.run_bind, EStateM.run_set, hmig, Bool.false_eq_true, if_false]
  have hkeeps : Rollback.Keeps (Sound P) (stream.mns.forM fun dmn => AddMN P dmn false) :=
    Rollback.keeps_forM _ _ fun dmn hdmn =>
      Rollback.keeps_of_outcome _ _ (run_AddMN P dmn false)
        (fun _ _ hs hr => Sound_AddMNResult hs (hk dmn hdmn) hr)
  exact hkeeps _ (Sound_of_empty_maps _ _ _)

end Steps

/-- Masternodes under different keys share no unique property: no hash is claimed twice. -/
def NoSharedProperty (s : CDeterministicMNList) : Prop :=
  ∀ h₁ h₂ d₁ d₂, s.GetMN h₁ = some d₁ → s.GetMN h₂ = some d₂ → h₁ ≠ h₂ →
    ∀ x ∈ PropertyClaims P d₁, ∀ y ∈ PropertyClaims P d₂, x.1 ≠ y.1

section Sharing

variable {P}

theorem mem_claims_owner {α : Type} {h : uint256} {f : α → UniqueProperty} {x : uint256 × uint256}
    (l : List α) (hx : x ∈ (l.map fun p => claimOf P h (f p)).sum) : x.2 = h := by
  induction l with
  | nil => simp at hx
  | cons p rest ih =>
    rw [List.map_cons, List.sum_cons, Multiset.mem_add] at hx
    rcases hx with hx | hx
    · unfold claimOf at hx
      split at hx
      · simp at hx
      · rw [Multiset.mem_singleton] at hx
        rw [hx]
    · exact ih hx

theorem mem_ListClaims {s : CDeterministicMNList} {h : uint256} {dmn : CDeterministicMN}
    (hdmn : s.GetMN h = some dmn) {x : uint256 × uint256} (hx : x ∈ PropertyClaims P dmn) :
    x ∈ ListClaims P s := by
  rw [ListClaims, OwnerIndex.mapSum_of_lookup hdmn]
  exact Multiset.mem_add.mpr (Or.inl hx)

theorem NoSharedProperty_of_Inv {s : CDeterministicMNList} (hs : Inv P s) :
    NoSharedProperty P s := by
  intro h₁ h₂ d₁ d₂ hd₁ hd₂ hne x hx y hy hxy
  have hx2 : x.2 = h₁ := (mem_claims_owner _ hx).trans (hs.key_eq h₁ d₁ hd₁)
  have hy2 : y.2 = h₂ := (mem_claims_owner _ hy).trans (hs.key_eq h₂ d₂ hd₂)
  have hcons := hs.unique.consistent x.1 x.2 y.2 (mem_ListClaims hd₁ hx)
    (hxy ▸ mem_ListClaims hd₂ hy)
  exact hne (hx2.symm.trans (hcons.trans hy2))

end Sharing

end CDeterministicMNList

inductive ListOp where
  | AddMN (dmn : CDeterministicMN) (fBumpTotalCount : Bool)
  | UpdateMN (oldDmn : CDeterministicMN) (pdmnState : CDeterministicMNState)
  | UpdateMNByProTxHash (proTxHash : uint256) (pdmnState : CDeterministicMNState)
  | UpdateMNByDiff (oldDmn : CDeterministicMN) (stateDiff : CDeterministicMNStateDiff)
  | RemoveMN (proTxHash : uint256)
  | PoSePunish (proTxHash : uint256) (penalty : Int)
  | PoSeDecrease (proTxHash : uint256)
  | ApplyDiff (pindexHash : uint256) (pindexHeight : Int) (diff : CDeterministicMNListDiff)
  | Unserialize (stream : SerializedMNList) (format_version : UInt8)

namespace ListOp

open CDeterministicMNList

/-- The list after the call, returned or thrown out of. ApplyDiff is `const`: it yields a
new list, or throws and yields none. -/
def apply : ListOp → CDeterministicMNList → CDeterministicMNList
  | AddMN dmn b, s => Rollback.resultState ((CDeterministicMNList.AddMN P dmn b).run s)
  | UpdateMN oldDmn st, s =>
    Rollback.resultState ((CDeterministicMNList.UpdateMN P oldDmn st).run s)
  | UpdateMNByProTxHash h st, s =>
    Rollback.resultState ((CDeterministicMNList.UpdateMNByProTxHash P h st).run s)
  | UpdateMNByDiff oldDmn d, s =>
    Rollback.resultState ((CDeterministicMNList.UpdateMNByDiff P oldDmn d).run s)
  | RemoveMN h, s => Rollback.resultState ((CDeterministicMNList.RemoveMN P h).run s)
  | PoSePunish h penalty, s =>
    Rollback.resultState ((CDeterministicMNList.PoSePunish P h penalty).run s)
  | PoSeDecrease h, s => Rollback.resultState ((CDeterministicMNList.PoSeDecrease P h).run s)
  | ApplyDiff h n d, s =>
    match CDeterministicMNList.ApplyDiff P s h n d with
    | .ok s' => s'
    | .error _ => s
  | Unserialize stream fmt, s =>
    Rollback.resultState ((CDeterministicMNList.Unserialize P stream fmt).run s)

/-- What the callers promise: UpdateMN gets the masternode as the list holds it, operator
keys entering the list are held canonically, and lists are read in the current format. -/
def Admissible (s : CDeterministicMNList) : ListOp → Prop
  | AddMN dmn _ => KeyOk P dmn.pdmnState
  | UpdateMN oldDmn st => s.GetMN oldDmn.proTxHash = some oldDmn ∧ KeyOk P st
  | UpdateMNByProTxHash _ st => KeyOk P st
  | UpdateMNByDiff oldDmn d =>
    s.GetMN oldDmn.proTxHash = some oldDmn ∧ KeyOk P (d.ApplyToState oldDmn.pdmnState)
  | RemoveMN _ => True
  | PoSePunish _ _ => True
  | PoSeDecrease _ => True
  | ApplyDiff _ _ d => (∀ dmn ∈ d.addedMNs, KeyOk P dmn.pdmnState) ∧
      ∀ p ∈ d.updatedMNs, p.2.Flagged .pubKeyOperator → KeyOk P p.2.state
  | Unserialize stream fmt => fmt ≠ CURRENT_MN_FORMAT ∧ ∀ dmn ∈ stream.mns, KeyOk P dmn.pdmnState

end ListOp

inductive ReachableBy (allowed : CDeterministicMNList → ListOp → Prop) :
    CDeterministicMNList → Prop where
  | empty : ReachableBy allowed {}
  | step {s : CDeterministicMNList} (op : ListOp) :
      ReachableBy allowed s → allowed s op → ReachableBy allowed (op.apply P s)

namespace CDeterministicMNList

section Runs

variable {P}

theorem Sound_apply {s : CDeterministicMNList} {op : ListOp} (hs : Sound P s)
    (hadm : op.Admissible P s) : Sound P (op.apply P s) := by
  cases op with
  | AddMN dmn b =>
    simp only [ListOp.apply, run_AddMN]
    exact Rollback.outcome_keeps hs fun _ hr => Sound_AddMNResult hs hadm hr
  | UpdateMN oldDmn st =>
    simp only [ListOp.apply, run_UpdateMN]
    exact Rollback.outcome_keeps hs fun _ hr => Sound_UpdateMNResult hs hadm.1 hadm.2 hr
  | UpdateMNByProTxHash h st =>
    simp only [ListOp.apply, run_UpdateMNByProTxHash]
    exact Rollback.outcome_keeps hs fun _ hr => Sound_UpdateMNByProTxHashResult hs hadm hr
  | UpdateMNByDiff oldDmn d =>
    simp only [ListOp.apply, UpdateMNByDiff, run_UpdateMN]
    exact Rollback.outcome_keeps hs fun _ hr => Sound_UpdateMNResult hs hadm.1 hadm.2 hr
  | RemoveMN h =>
    simp only [ListOp.apply, run_RemoveMN]
    exact Rollback.outcome_keeps hs fun _ hr => Sound_RemoveMNResult hs hr
  | PoSePunish h penalty =>
    simp only [ListOp.apply, run_PoSePunish]
    exact Rollback.outcome_keeps hs fun _ hr => Sound_PoSePunishResult hs hr
  | PoSeDecrease h =>
    simp only [ListOp.apply, run_PoSeDecrease]
    exact Rollback.outcome_keeps hs fun _ hr => Sound_PoSeDecreaseResult hs hr
  | ApplyDiff h n d =>
    simp only [ListOp.apply]
    split
    · rename_i s' hr
      exact Sound_ApplyDiff hs hadm.1 hadm.2 hr
    · exact hs
  | Unserialize stream fmt =>
    exact Sound_Unserialize stream hadm.1 hadm.2 s

theorem Sound_of_reachable {s : CDeterministicMNList}
    (h : ReachableBy P (ListOp.Admissible P) s) : Sound P s := by
  induction h with
  | empty => exact Sound_of_empty_maps 0 (-1) 0
  | step op _ hadm ih => exact Sound_apply ih hadm

end Runs

/-- (a) and (b) hold, and no two masternodes share a unique property, on every list the
member functions reach when their callers keep their promises. -/
theorem admissible_reachable_unique_index (s : CDeterministicMNList)
    (h : ReachableBy P (ListOp.Admissible P) s) : Inv P s ∧ NoSharedProperty P s := by
  have hsound := Sound_of_reachable h
  exact ⟨hsound.inv, NoSharedProperty_of_Inv hsound.inv⟩

set_option maxRecDepth 2000 in
/-- The list after adding masternodes `1` and `2`: both are in it, and they share no property. -/
theorem admissible_reachable_unique_index_of_two_masternodes :
    twoMNs.GetMN 1 = some (keyedMN 1) ∧ twoMNs.GetMN 2 = some (keyedMN 2) ∧
      Inv bytesPrimitives twoMNs ∧ NoSharedProperty bytesPrimitives twoMNs := by
  have hreach : ReachableBy bytesPrimitives (ListOp.Admissible bytesPrimitives) twoMNs :=
    .step (.AddMN (keyedMN 2) true) (.step (.AddMN (keyedMN 1) true) .empty rfl) rfl
  obtain ⟨hinv, hshared⟩ := admissible_reachable_unique_index bytesPrimitives twoMNs hreach
  exact ⟨rfl, rfl, hinv, hshared⟩

/-- Reading a one-masternode list in the migration format leaves its id unindexed. -/
theorem migration_unserialize_breaks_id_index :
    let P := bytesPrimitives
    let s := (ListOp.Unserialize
      ⟨0, 0, 0, [{ internalId := 0, proTxHash := 1, collateralOutpoint := default,
                   pdmnState := default }]⟩ CURRENT_MN_FORMAT).apply P {}
    ReachableBy P (fun _ _ => True) s ∧ ¬ Inv P s := by
  intro P s
  refine ⟨ReachableBy.step _ ReachableBy.empty trivial, ?_⟩
  intro hinv
  have hmn : s.GetMN 1 =
      some { internalId := 0, proTxHash := 1, collateralOutpoint := default,
             pdmnState := default } := by
    rfl
  have hid : s.mnInternalIdMap.lookup 0 = none := by
    rfl
  have hindexed := (hinv.internalIds 0 1).mpr ⟨_, hmn, rfl⟩
  rw [hid] at hindexed
  cases hindexed

end CDeterministicMNList

end Primitives

end DashCore
