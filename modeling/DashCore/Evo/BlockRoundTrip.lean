import DashCore.Evo.BuildList
import DashCore.Evo.DiffRoundTrip

/-! The list of a block and the difference the node stores for it. BuildNewListFromBlock gives
the list `L'` of a block from the list `L` of the block before; the node keeps `L.BuildDiff L'`
and later rebuilds `L'` with ApplyDiff. Every list BuildNewListFromBlock passes through tracks
`L`: its masternodes keep their identity, and none of them holds a hash that another
masternode, still in the list, held in `L`. The provider transactions keep that only because
CheckSpecialTx has checked them against `L` first. -/
namespace DashCore

section Primitives

variable (P : Primitives)

/-- The hash of an outpoint is the hash of no value of another kind: the double SHA-256 of the
36 bytes of an outpoint does not collide with that of an address or a key. -/
def OutPointHashesApart : Prop :=
  ∀ (o : COutPoint) (v : UniqueProperty), (UniqueProperty.outPoint o).Hash P = v.Hash P →
    ∃ o', v = .outPoint o'

theorem bytesPrimitives_fold_lt (bs : List UInt8) {a : Nat} (ha : a < 2 ^ 255) :
    bs.foldl (fun a b => (a * 256 + b.toNat) % (2 ^ 255 - 19)) a < 2 ^ 255 := by
  induction bs generalizing a with
  | nil => exact ha
  | cons b rest ih => exact ih (lt_of_lt_of_le (Nat.mod_lt _ (by decide)) (by decide))

theorem bytesPrimitives_top_bit (bs : List UInt8) :
    2 ^ 255 ≤ (bytesPrimitives.SerializeHash bs).toNat ↔ bs.length = 36 := by
  have hv := bytesPrimitives_fold_lt bs (a := 0) (by decide)
  simp only [bytesPrimitives]
  split
  · rename_i h
    rw [BitVec.toNat_ofNat, Nat.mod_eq_of_lt (by omega)]
    simp [h]
  · rename_i h
    rw [BitVec.toNat_ofNat, Nat.mod_eq_of_lt (by omega)]
    simp only [h, iff_false, not_le]
    exact hv

theorem bytesPrimitives_outPointHashesApart : OutPointHashesApart bytesPrimitives := by
  intro o v hv
  have htop := (bytesPrimitives_top_bit ((UniqueProperty.outPoint o).Serialize bytesPrimitives)).mpr
    (by simp [UniqueProperty.Serialize, UniqueProperty.Serialize.leBytes])
  rw [UniqueProperty.Hash, UniqueProperty.Hash] at hv
  rw [hv, bytesPrimitives_top_bit] at htop
  cases v with
  | outPoint o' => exact ⟨o', rfl⟩
  | service a => simp [UniqueProperty.Serialize, UniqueProperty.Serialize.beBytes] at htop
  | uint160 k => simp [UniqueProperty.Serialize, UniqueProperty.Serialize.leBytes] at htop
  | blsPublicKey k => simp [UniqueProperty.Serialize, UniqueProperty.Serialize.beBytes] at htop

namespace CDeterministicMNList

/-- A list on the way from `L` through the block: valid, with the masternodes of `L` it keeps
changed in their state only, and with no hash taken from a masternode it keeps. -/
structure Tracks (L S : CDeterministicMNList) : Prop where
  valid : Valid P S
  identity : SameIdentity L S
  nosteal : NoStealing P L S

/-! What each member function leaves in the list, read off a successful call. -/

section Inversion

variable {P} {s s' : CDeterministicMNList}

theorem addWrites_not_null (dmn : CDeterministicMN) (l : List (UniqueProperty × PropertyKind))
    {m m' : MnUniquePropertyMap}
    (h : Rollback.result (l.map fun p => (AddUniqueProperty P dmn p.1,
      MNListError.addDuplicate dmn.proTxHash p.2)) m = .ok m') :
    ∀ p ∈ l, p.1.IsNull P = false := by
  induction l generalizing m with
  | nil => simp
  | cons p rest ih =>
    rw [List.map_cons, Rollback.result_cons] at h
    split at h
    · rename_i hw
      intro q hq
      rcases List.mem_cons.mp hq with rfl | hq
      · exact (AddUniqueProperty_true hw).1
      · exact ih h q hq
    · cases h

theorem AddMNResult_eq_ok {dmn : CDeterministicMN} {b : Bool}
    (hr : AddMNResult P dmn b s = .ok s') :
    s.GetMN dmn.proTxHash = none ∧ RegisteredMN dmn ∧
      ∀ k, s'.GetMN k = if k = dmn.proTxHash then some dmn else s.GetMN k := by
  unfold AddMNResult at hr
  split at hr
  · cases hr
  rename_i hdup
  split at hr
  · cases hr
  split at hr
  · cases hr
  rename_i m hw
  cases hr
  rw [AddMNWrites] at hw
  have hnull := addWrites_not_null dmn (GuardedProperties P dmn) hw
  refine ⟨by simpa [GetMN] using hdup, ⟨?_, ?_⟩, GetMN_of_mnMap_insert rfl⟩
  · simpa [UniqueProperty.IsNull] using hnull (.outPoint dmn.collateralOutpoint, .collateralOutpoint)
      (by simp [GuardedProperties, UniqueProperties])
  · simpa [UniqueProperty.IsNull] using hnull (.uint160 dmn.pdmnState.keyIDOwner, .keyIDOwner)
      (by simp [GuardedProperties, UniqueProperties])

theorem RemoveMNResult_eq_ok {h : uint256} (hr : RemoveMNResult P h s = .ok s') :
    (s.GetMN h).isSome ∧ ∀ k, s'.GetMN k = if k = h then none else s.GetMN k := by
  unfold RemoveMNResult at hr
  split at hr
  · cases hr
  rename_i dmn hdmn
  split at hr
  · cases hr
  cases hr
  exact ⟨by simp [hdmn], GetMN_of_mnMap_erase rfl⟩

theorem UpdateMNByProTxHashResult_eq_ok (hs : Inv P s) {h : uint256}
    {st : CDeterministicMNState} (hr : UpdateMNByProTxHashResult P h st s = .ok s') :
    ∃ d, s.GetMN h = some d ∧
      ∀ k, s'.GetMN k = if k = h then some { d with pdmnState := st } else s.GetMN k := by
  unfold UpdateMNByProTxHashResult at hr
  split at hr
  · cases hr
  rename_i d hd
  refine ⟨d, hd, ?_⟩
  unfold UpdateMNResult at hr
  split at hr
  · cases hr
  cases hr
  rw [hs.key_eq h d hd]
  exact GetMN_of_mnMap_insert rfl

theorem UpdateMNByProTxHashResult_frame (hs : Inv P s) {h : uint256}
    {st : CDeterministicMNState} (hr : UpdateMNByProTxHashResult P h st s = .ok s') {k : uint256}
    (hk : k ≠ h) : s'.GetMN k = s.GetMN k := by
  obtain ⟨d, -, hget⟩ := UpdateMNByProTxHashResult_eq_ok hs hr
  rw [hget, if_neg hk]

theorem PoSePunishResult_eq_ok {h : uint256} {penalty : Int}
    (hr : PoSePunishResult P h penalty s = .ok s') :
    ∃ d, s.GetMN h = some d ∧ UpdateMNByProTxHashResult P h
      (PunishedState d.pdmnState penalty s.CalcMaxPoSePenalty s.nHeight) s = .ok s' := by
  unfold PoSePunishResult at hr
  split at hr
  · cases hr
  split at hr
  · cases hr
  rename_i d hd
  exact ⟨d, hd, hr⟩

theorem PoSeDecreaseResult_eq_ok {h : uint256} (hr : PoSeDecreaseResult P h s = .ok s') :
    ∃ d, s.GetMN h = some d ∧ UpdateMNByProTxHashResult P h
      { d.pdmnState with nPoSePenalty := d.pdmnState.nPoSePenalty - 1 } s = .ok s' := by
  unfold PoSeDecreaseResult at hr
  split at hr
  · cases hr
  rename_i d hd
  split at hr
  · cases hr
  exact ⟨d, hd, hr⟩

end Inversion

/-! Who holds a hash: the claims of a masternode, and what HasUniqueProperty and
GetUniquePropertyMN read of the claims of a list. -/

section Holders

variable {P} {L : CDeterministicMNList}

theorem mem_claimOf {h : uint256} {v : UniqueProperty} {y : uint256 × uint256} :
    y ∈ claimOf P h v ↔ v.IsNull P = false ∧ y = (v.Hash P, h) := by
  unfold claimOf
  split <;> simp [*]

theorem mem_StateClaims {nType : MnType} {h : uint256} {st : CDeterministicMNState}
    {y : uint256 × uint256} :
    y ∈ StateClaims P nType h st ↔ y ∈ claimOf P h (.service st.addr) ∨
      y ∈ claimOf P h (.uint160 st.keyIDOwner) ∨
      y ∈ claimOf P h (.blsPublicKey st.pubKeyOperator) ∨
      (nType = .HighPerformance ∧ y ∈ claimOf P h (.uint160 st.platformNodeID)) := by
  unfold StateClaims
  cases nType <;> simp [or_assoc]

theorem exists_of_mem_sum_claimOf {α : Type} {h : uint256} {f : α → UniqueProperty}
    {y : uint256 × uint256} (l : List α) (hy : y ∈ (l.map fun p => claimOf P h (f p)).sum) :
    ∃ a ∈ l, (f a).IsNull P = false ∧ y = ((f a).Hash P, h) := by
  induction l with
  | nil => simp at hy
  | cons b rest ih =>
    rw [List.map_cons, List.sum_cons, Multiset.mem_add] at hy
    rcases hy with hy | hy
    · exact ⟨b, List.mem_cons_self, mem_claimOf.mp hy⟩
    · obtain ⟨a, ha, hrest⟩ := ih hy
      exact ⟨a, List.mem_cons_of_mem b ha, hrest⟩

theorem exists_of_mem_PropertyClaims {dmn : CDeterministicMN} {y : uint256 × uint256}
    (hy : y ∈ PropertyClaims P dmn) :
    ∃ p ∈ GuardedProperties P dmn, p.1.IsNull P = false ∧ y = (p.1.Hash P, dmn.proTxHash) :=
  exists_of_mem_sum_claimOf (f := Prod.fst) _ hy

theorem outPoint_mem_GuardedProperties {dmn : CDeterministicMN} {o : COutPoint}
    {k : PropertyKind} (hp : (UniqueProperty.outPoint o, k) ∈ GuardedProperties P dmn) :
    o = dmn.collateralOutpoint := by
  simp only [GuardedProperties, UniqueProperties, List.mem_filterMap, List.mem_cons,
    List.not_mem_nil, or_false] at hp
  obtain ⟨q, hq, hqp⟩ := hp
  rcases hq with rfl | rfl | rfl | rfl | rfl <;>
    simp only [Option.ite_none_right_eq_some, Option.some.injEq, Prod.mk.injEq,
      reduceCtorEq, false_and, and_false] at hqp
  obtain ⟨-, ho, -⟩ := hqp
  cases ho
  rfl

theorem not_mem_of_HasUniqueProperty (hL : Inv P L) {v : UniqueProperty}
    (hv : L.HasUniqueProperty P v = false) (a : uint256) : (v.Hash P, a) ∉ ListClaims P L := by
  intro hmem
  obtain ⟨n, hn⟩ := hL.unique.lookup_of_mem hmem
  simp [HasUniqueProperty, hn] at hv

theorem GetUniquePropertyMN_of_mem (hL : Inv P L) {v : UniqueProperty} {a : uint256}
    (hmem : (v.Hash P, a) ∈ ListClaims P L) :
    ∃ d, L.GetMN a = some d ∧ L.HasUniqueProperty P v = true ∧
      L.GetUniquePropertyMN P v = some d := by
  obtain ⟨n, hn⟩ := hL.unique.lookup_of_mem hmem
  obtain ⟨d, hd, -⟩ := exists_of_mem_ListClaims hL hmem
  exact ⟨d, hd, by simp [HasUniqueProperty, hn], by simp [GetUniquePropertyMN, hn, hd]⟩

theorem HasUniqueProperty_of_GetUniquePropertyMN {v : UniqueProperty} {d : CDeterministicMN}
    (hget : L.GetUniquePropertyMN P v = some d) : L.HasUniqueProperty P v = true := by
  unfold GetUniquePropertyMN at hget
  unfold HasUniqueProperty
  cases hl : L.mnUniquePropertyMap.lookup (v.Hash P) with
  | none => rw [hl] at hget; cases hget
  | some p => rfl

theorem eq_of_otherHolds (hL : Inv P L) {v : UniqueProperty} {h a : uint256}
    (ho : otherHolds P L v h = false) (hmem : (v.Hash P, a) ∈ ListClaims P L) : a = h := by
  obtain ⟨d, hd, hhas, hget⟩ := GetUniquePropertyMN_of_mem hL hmem
  simp only [otherHolds, hhas, hget, Bool.true_and, Option.any_some, bne_eq_false_iff_eq] at ho
  rw [← hL.key_eq a d hd, ho]

end Holders

/-- Two states with the same unique properties: what the block's bookkeeping updates keep. -/
structure SameKeys (st st' : CDeterministicMNState) : Prop where
  addr : st'.addr = st.addr
  keyIDOwner : st'.keyIDOwner = st.keyIDOwner
  pubKeyOperator : st'.pubKeyOperator = st.pubKeyOperator
  platformNodeID : st'.platformNodeID = st.platformNodeID

theorem sameKeys_PunishedState (st : CDeterministicMNState) (penalty maxPenalty nHeight : Int) :
    SameKeys st (PunishedState st penalty maxPenalty nHeight) := by
  unfold PunishedState CDeterministicMNState.BanIfNotBanned
  dsimp only
  split_ifs <;> exact ⟨rfl, rfl, rfl, rfl⟩

/-- A unique property an update sets: kept from the old state, null, or held in `L` by no other
masternode. -/
def Settles (L : CDeterministicMNList) (h : uint256) (old new : UniqueProperty) : Prop :=
  new = old ∨ new.IsNull P = true ∨ ∀ a, (new.Hash P, a) ∈ ListClaims P L → a = h

section Tracking

variable {P} {L S S' : CDeterministicMNList}

theorem StateClaims_mem_ListClaims {s : CDeterministicMNList} (hs : Sound P s) {h : uint256}
    {d : CDeterministicMN} (hd : s.GetMN h = some d) {y : uint256 × uint256}
    (hy : y ∈ StateClaims P d.nType h d.pdmnState) : y ∈ ListClaims P s := by
  apply mem_ListClaims hd
  rw [PropertyClaims_eq (hs.keys h d hd), hs.inv.key_eq h d hd]
  exact Multiset.mem_add.mpr (Or.inr hy)

theorem Tracks.init (hL : Valid P L) (blockHash : uint256) (nHeight : Int) :
    Tracks P L { L with blockHash := blockHash, nHeight := nHeight } := by
  refine ⟨⟨⟨⟨hL.sound.inv.key_eq, hL.sound.inv.internalIds, hL.sound.inv.unique⟩,
    hL.sound.keys⟩, hL.registered⟩, ?_, ?_⟩
  · intro h d d' hd hd'
    have hdd : d' = d := Option.some.inj (hd'.symm.trans hd)
    subst hdd
    rfl
  · intro x a b ha hb hab
    exact absurd (hL.sound.inv.unique.consistent x a b ha hb) hab

theorem Tracks.step (hS : Tracks P L S) (hL : Inv P L) (hS' : Valid P S')
    (hback : ∀ a, (L.GetMN a).isSome → S.GetMN a = none → S'.GetMN a = none)
    (hnew : ∀ k d', S'.GetMN k = some d' → S.GetMN k ≠ some d' →
      (∀ d, L.GetMN k = some d → d' = { d with pdmnState := d'.pdmnState }) ∧
      ∀ y ∈ PropertyClaims P d', ∀ a, (y.1, a) ∈ ListClaims P L → a ≠ k → S'.GetMN a = none) :
    Tracks P L S' := by
  refine ⟨hS', ?_, ?_⟩
  · intro k d d' hd hd'
    by_cases hold : S.GetMN k = some d'
    · exact hS.identity k d d' hd hold
    · exact (hnew k d' hd' hold).1 d hd
  · intro x a b ha hb hab
    obtain ⟨db, hdb, hmem⟩ := exists_of_mem_ListClaims hS'.sound.inv hb
    by_cases hold : S.GetMN b = some db
    · have hgone := hS.nosteal x a b ha (mem_ListClaims hold hmem) hab
      obtain ⟨da, hda, -⟩ := exists_of_mem_ListClaims hL ha
      exact hback a (by simp only at hda; simp [hda]) hgone
    · exact (hnew b db hdb hold).2 (x, b) hmem a ha hab

theorem Tracks.remove (hS : Tracks P L S) (hL : Inv P L) {h : uint256}
    (hr : RemoveMNResult P h S = .ok S') : Tracks P L S' := by
  obtain ⟨-, hget⟩ := RemoveMNResult_eq_ok hr
  have hsub : ∀ k d, S'.GetMN k = some d → S.GetMN k = some d := by
    intro k d hd
    rw [hget] at hd
    split at hd
    · cases hd
    · exact hd
  have hS' : Valid P S' :=
    ⟨Sound_RemoveMNResult hS.valid.sound hr,
      hS.valid.registered.of_lookup fun k d hd => Or.inl (hsub k d hd)⟩
  refine hS.step hL hS' (fun a _ ha => ?_) (fun k d' hd' hne => absurd (hsub k d' hd') hne)
  rw [hget]
  split <;> simp [ha]

theorem Tracks.update (hS : Tracks P L S) (hL : Inv P L) {h : uint256} {d : CDeterministicMN}
    {st : CDeterministicMNState} (hd : S.GetMN h = some d) (hk : KeyOk P st)
    (hown : st.keyIDOwner ≠ 0)
    (hfree : ∀ y ∈ StateClaims P d.nType h st, ∀ a, (y.1, a) ∈ ListClaims P L → a ≠ h →
      S.GetMN a = none)
    (hr : UpdateMNByProTxHashResult P h st S = .ok S') : Tracks P L S' := by
  obtain ⟨d0, hd0, hget⟩ := UpdateMNByProTxHashResult_eq_ok hS.valid.sound.inv hr
  rw [hd] at hd0
  cases hd0
  have hkey := hS.valid.sound.inv.key_eq h d hd
  have hother : ∀ a, a ≠ h → S'.GetMN a = S.GetMN a := fun a ha => by rw [hget, if_neg ha]
  have hS' : Valid P S' := by
    refine ⟨Sound_UpdateMNByProTxHashResult hS.valid.sound hk hr,
      hS.valid.registered.of_lookup fun k d' hd' => ?_⟩
    rw [hget] at hd'
    split at hd'
    · cases hd'
      exact Or.inr ⟨(hS.valid.registered h d hd).1, hown⟩
    · exact Or.inl hd'
  refine hS.step hL hS' (fun a _ ha => ?_) (fun k d' hd' hne => ?_)
  · have hah : a ≠ h := fun hah => by rw [hah, hd] at ha; cases ha
    rw [hother a hah, ha]
  rw [hget] at hd'
  split at hd'
  · rename_i hkh
    subst hkh
    cases hd'
    refine ⟨fun d0 hd0 => ?_, fun y hy a ha hne => ?_⟩
    · rw [hS.identity k d0 d hd0 hd]
    · rw [hother a hne]
      rw [PropertyClaims_eq hk, Multiset.mem_add] at hy
      rcases hy with hy | hy
      · have hyS : y ∈ ListClaims P S := by
          apply mem_ListClaims hd
          rw [PropertyClaims_eq (hS.valid.sound.keys k d hd)]
          exact Multiset.mem_add.mpr (Or.inl hy)
        have hy2 : y.2 = k := (claimOf_owner hy).trans hkey
        exact hS.nosteal y.1 a k ha (hy2 ▸ hyS) hne
      · exact hfree y (hkey ▸ hy) a ha hne
  · exact absurd hd' hne

theorem Settles.free (hS : Tracks P L S) {h : uint256} {d : CDeterministicMN}
    (hd : S.GetMN h = some d) {old new : UniqueProperty} (hset : Settles P L h old new)
    (hold : ∀ y ∈ claimOf P h old, y ∈ StateClaims P d.nType h d.pdmnState)
    {y : uint256 × uint256} (hy : y ∈ claimOf P h new) :
    ∀ a, (y.1, a) ∈ ListClaims P L → a ≠ h → S.GetMN a = none := by
  intro a ha hne
  rcases hset with rfl | hnull | hfree
  · have hyS := StateClaims_mem_ListClaims hS.valid.sound hd (hold y hy)
    have hy2 : y.2 = h := claimOf_owner hy
    exact hS.nosteal y.1 a h ha (hy2 ▸ hyS) hne
  · rw [claimOf_of_null hnull] at hy
    simp at hy
  · obtain ⟨-, rfl⟩ := mem_claimOf.mp hy
    exact absurd (hfree a ha) hne

theorem Tracks.update_settled (hS : Tracks P L S) (hL : Inv P L) {h : uint256}
    {d : CDeterministicMN} {st : CDeterministicMNState} (hd : S.GetMN h = some d)
    (hk : KeyOk P st) (hown : st.keyIDOwner = d.pdmnState.keyIDOwner)
    (haddr : Settles P L h (.service d.pdmnState.addr) (.service st.addr))
    (hkey : Settles P L h (.blsPublicKey d.pdmnState.pubKeyOperator) (.blsPublicKey st.pubKeyOperator))
    (hplat : d.nType = .HighPerformance →
      Settles P L h (.uint160 d.pdmnState.platformNodeID) (.uint160 st.platformNodeID))
    (hr : UpdateMNByProTxHashResult P h st S = .ok S') : Tracks P L S' := by
  refine hS.update hL hd hk (hown ▸ (hS.valid.registered h d hd).2) (fun y hy => ?_) hr
  rcases mem_StateClaims.mp hy with hy | hy | hy | ⟨hhp, hy⟩
  · exact Settles.free hS hd haddr (fun y hy => mem_StateClaims.mpr (Or.inl hy)) hy
  · exact Settles.free hS hd (Or.inl (by rw [hown])) (fun y hy => mem_StateClaims.mpr
      (Or.inr (Or.inl hy))) hy
  · exact Settles.free hS hd hkey (fun y hy => mem_StateClaims.mpr (Or.inr (Or.inr (Or.inl hy))))
      hy
  · exact Settles.free hS hd (hplat hhp) (fun y hy => mem_StateClaims.mpr
      (Or.inr (Or.inr (Or.inr ⟨hhp, hy⟩)))) hy

theorem Tracks.update_sameKeys (hS : Tracks P L S) (hL : Inv P L) {h : uint256}
    {d : CDeterministicMN} {st : CDeterministicMNState} (hd : S.GetMN h = some d)
    (hr : UpdateMNByProTxHashResult P h st S = .ok S') (hkeys : SameKeys d.pdmnState st) :
    Tracks P L S' :=
  hS.update_settled hL hd (KeyOk_of_key_eq hkeys.pubKeyOperator (hS.valid.sound.keys h d hd))
    hkeys.keyIDOwner (Or.inl (by rw [hkeys.addr])) (Or.inl (by rw [hkeys.pubKeyOperator]))
    (fun _ => Or.inl (by rw [hkeys.platformNodeID])) hr

theorem Valid_empty : Valid P ({} : CDeterministicMNList) :=
  ⟨Sound_of_empty_maps 0 (-1) 0, fun h d hd => by simp [GetMN, AList.lookup_empty] at hd⟩

theorem Valid_AddMNResult {dmn : CDeterministicMN} {b : Bool} (hs : Valid P S)
    (hk : KeyOk P dmn.pdmnState) (hr : AddMNResult P dmn b S = .ok S') : Valid P S' := by
  obtain ⟨-, hreg, hget⟩ := AddMNResult_eq_ok hr
  refine ⟨Sound_AddMNResult hs.sound hk hr, hs.registered.of_lookup fun k d' hd' => ?_⟩
  rw [hget] at hd'
  split at hd'
  · cases hd'
    exact Or.inr hreg
  · exact Or.inl hd'

theorem Tracks.add (hS : Tracks P L S) (hL : Inv P L) {dmn : CDeterministicMN} {b : Bool}
    (hk : KeyOk P dmn.pdmnState) (hnew : L.GetMN dmn.proTxHash = none)
    (hfree : ∀ y ∈ PropertyClaims P dmn, ∀ a, (y.1, a) ∈ ListClaims P L → a ≠ dmn.proTxHash →
      S.GetMN a = none)
    (hr : AddMNResult P dmn b S = .ok S') : Tracks P L S' := by
  obtain ⟨-, -, hget⟩ := AddMNResult_eq_ok hr
  have hother : ∀ a, a ≠ dmn.proTxHash → S'.GetMN a = S.GetMN a := fun a ha => by
    rw [hget, if_neg ha]
  refine hS.step hL (Valid_AddMNResult hS.valid hk hr) (fun a ha hnone => ?_)
    (fun k d' hd' hne => ?_)
  · have hane : a ≠ dmn.proTxHash := fun hae => by rw [hae, hnew] at ha; cases ha
    rw [hother a hane, hnone]
  rw [hget] at hd'
  split at hd'
  · rename_i hk'
    subst hk'
    cases hd'
    refine ⟨fun d0 hd0 => (by rw [hnew] at hd0; cases hd0), fun y hy a ha hne => ?_⟩
    rw [hother a hne]
    exact hfree y hy a ha hne
  · exact absurd hd' hne

end Tracking

end CDeterministicMNList

/-! The steps of BuildNewListFromBlock, each keeping the list tracking `L`. -/

namespace CDeterministicMNManager

open CDeterministicMNList

section States

variable {P} {env : BlockEnv}

@[simp] theorem call_eq_ok {r : Except MNListError CDeterministicMNList}
    {s : CDeterministicMNList} : call r = .ok s ↔ r = .ok s := by
  cases r <;> simp [call, Except.mapError]

theorem sameKeys_PaidState (env : BlockEnv) (dmn : CDeterministicMN) : SameKeys dmn.pdmnState (PaidState env dmn) := by
  unfold PaidState
  split <;> exact ⟨rfl, rfl, rfl, rfl⟩

theorem ProRegTxMN_keys (env : BlockEnv) (tx : CTransaction) (proTx : CProRegTx) (internalId : UInt64) :
    (ProRegTxMN env tx proTx internalId).pdmnState.addr = proTx.addr ∧
      (ProRegTxMN env tx proTx internalId).pdmnState.keyIDOwner = proTx.keyIDOwner ∧
      (ProRegTxMN env tx proTx internalId).pdmnState.pubKeyOperator = .set proTx.pubKeyOperator ∧
      (ProRegTxMN env tx proTx internalId).pdmnState.platformNodeID = proTx.platformNodeID := by
  unfold ProRegTxMN CDeterministicMNState.BanIfNotBanned
  dsimp only
  split_ifs <;> exact ⟨rfl, rfl, rfl, rfl⟩

theorem ProUpServState_keys (env : BlockEnv) (proTx : CProUpServTx) (st : CDeterministicMNState) :
    (ProUpServState P env proTx st).addr = proTx.addr ∧
      (ProUpServState P env proTx st).keyIDOwner = st.keyIDOwner ∧
      (ProUpServState P env proTx st).pubKeyOperator = st.pubKeyOperator ∧
      (ProUpServState P env proTx st).platformNodeID =
        if proTx.nType = .HighPerformance then proTx.platformNodeID else st.platformNodeID := by
  unfold ProUpServState CDeterministicMNState.Revive
  by_cases hp : proTx.nType = .HighPerformance <;>
    simp only [hp, beq_self_eq_true, if_true, if_false, beq_iff_eq] <;>
    split_ifs <;> exact ⟨rfl, rfl, rfl, rfl⟩

theorem ProUpRegState_keys (env : BlockEnv) (proTx : CProUpRegTx) (st : CDeterministicMNState) :
    (ProUpRegState P env proTx st).pubKeyOperator = .set proTx.pubKeyOperator ∧
      (ProUpRegState P env proTx st).keyIDOwner = st.keyIDOwner ∧
      ((ProUpRegState P env proTx st).addr = st.addr ∧
          (ProUpRegState P env proTx st).platformNodeID = st.platformNodeID ∨
        (ProUpRegState P env proTx st).addr = default ∧
          (ProUpRegState P env proTx st).platformNodeID = 0) := by
  unfold ProUpRegState CDeterministicMNState.ResetOperatorFields
    CDeterministicMNState.BanIfNotBanned
  split_ifs
  · exact ⟨rfl, rfl, Or.inr ⟨rfl, rfl⟩⟩
  · exact ⟨rfl, rfl, Or.inr ⟨rfl, rfl⟩⟩
  · exact ⟨rfl, rfl, Or.inl ⟨rfl, rfl⟩⟩

theorem ProUpRevState_keys (env : BlockEnv) (proTx : CProUpRevTx) (st : CDeterministicMNState) :
    (ProUpRevState env proTx st).addr = default ∧
      (ProUpRevState env proTx st).keyIDOwner = st.keyIDOwner ∧
      (ProUpRevState env proTx st).pubKeyOperator = .set none ∧
      (ProUpRevState env proTx st).platformNodeID = 0 := by
  unfold ProUpRevState CDeterministicMNState.ResetOperatorFields
    CDeterministicMNState.BanIfNotBanned
  split_ifs <;> exact ⟨rfl, rfl, rfl, rfl⟩

theorem CheckProRegTx_eq_ok {L : CDeterministicMNList} {tx : CTransaction} {ptx : CProRegTx}
    (h : CheckProRegTx P L tx ptx = .ok ()) :
    (∀ dmn, L.GetUniquePropertyMN P (.service ptx.addr) = some dmn →
        dmn.collateralOutpoint = ptx.collateralOf tx.hash) ∧
      L.HasUniqueProperty P (.uint160 ptx.keyIDOwner) = false ∧
      L.HasUniqueProperty P (.blsPublicKey (.set ptx.pubKeyOperator)) = false ∧
      (ptx.nType = .HighPerformance → L.HasUniqueProperty P (.uint160 ptx.platformNodeID) = false) := by
  simp [CheckProRegTx] at h
  obtain ⟨-, haddr, ⟨howner, hop⟩, hplat, -⟩ := h
  refine ⟨fun dmn hget => ?_, howner, hop, hplat⟩
  have hany := haddr (HasUniqueProperty_of_GetUniquePropertyMN hget)
  rw [hget] at hany
  simpa using hany

theorem CheckProUpServTx_eq_ok {L : CDeterministicMNList} {ptx : CProUpServTx}
    (h : CheckProUpServTx P L ptx = .ok ()) :
    otherHolds P L (.service ptx.addr) ptx.proTxHash = false ∧
      (ptx.nType = .HighPerformance →
        otherHolds P L (.uint160 ptx.platformNodeID) ptx.proTxHash = false) := by
  simp [CheckProUpServTx] at h
  exact ⟨h.2.1, h.2.2.1⟩

theorem CheckProUpRegTx_eq_ok {L : CDeterministicMNList} {ptx : CProUpRegTx}
    (h : CheckProUpRegTx P L ptx = .ok ()) :
    otherHolds P L (.blsPublicKey (.set ptx.pubKeyOperator)) ptx.proTxHash = false := by
  simp [CheckProUpRegTx] at h
  exact h.2.2.1

theorem ProcessProRegTx_eq_ok {S S' : CDeterministicMNList} {tx : CTransaction} {ptx : CProRegTx}
    (h : ProcessProRegTx P env tx ptx S = .ok S') :
    ∃ Smid, (S.GetMNByCollateral P (ptx.collateralOf tx.hash) = none ∧ Smid = S ∨
        ∃ r, S.GetMNByCollateral P (ptx.collateralOf tx.hash) = some r ∧
          RemoveMNResult P r.proTxHash S = .ok Smid) ∧
      AddMNResult P (ProRegTxMN env tx ptx S.nTotalRegisteredCount.toUInt64) true Smid = .ok S' := by
  simp [ProcessProRegTx] at h
  obtain ⟨-, -, h⟩ := h
  split at h
  · rename_i r hr
    obtain ⟨Smid, hrem, hadd⟩ := Rollback.bind_eq_ok h
    simp at hrem hadd
    exact ⟨Smid, Or.inr ⟨r, hr, hrem⟩, hadd.2.2⟩
  · rename_i hr
    simp at h
    exact ⟨S, Or.inl ⟨hr, rfl⟩, h.2.2⟩

theorem ProcessProUpServTx_eq_ok {S S' : CDeterministicMNList} {ptx : CProUpServTx}
    (h : ProcessProUpServTx P env ptx S = .ok S') :
    ∃ d, S.GetMN ptx.proTxHash = some d ∧ ptx.nType = d.nType ∧
      UpdateMNByProTxHashResult P ptx.proTxHash (ProUpServState P env ptx d.pdmnState) S =
        .ok S' := by
  cases hd : S.GetMN ptx.proTxHash with
  | none =>
    simp [ProcessProUpServTx, hd] at h
    obtain ⟨-, h⟩ := h
    split at h
    · split at h
      · split at h <;> cases h
      · cases h
    · cases h
  | some d =>
    simp [ProcessProUpServTx, hd] at h
    obtain ⟨-, h⟩ := h
    split at h
    · split at h
      · split at h
        · split at h
          · exact ⟨d, rfl, by assumption, call_eq_ok.mp h⟩
          · cases h
        · cases h
      · cases h
    · split at h
      · exact ⟨d, rfl, by assumption, call_eq_ok.mp h⟩
      · cases h

theorem ProcessProUpRegTx_eq_ok {S S' : CDeterministicMNList} {ptx : CProUpRegTx}
    (h : ProcessProUpRegTx P env ptx S = .ok S') :
    ∃ d, S.GetMN ptx.proTxHash = some d ∧
      UpdateMNByProTxHashResult P ptx.proTxHash (ProUpRegState P env ptx d.pdmnState) S = .ok S' := by
  cases hd : S.GetMN ptx.proTxHash with
  | none => simp [ProcessProUpRegTx, hd] at h
  | some d =>
    simp [ProcessProUpRegTx, hd] at h
    exact ⟨d, rfl, h⟩

theorem ProcessProUpRevTx_eq_ok {S S' : CDeterministicMNList} {ptx : CProUpRevTx}
    (h : ProcessProUpRevTx P env ptx S = .ok S') :
    ∃ d, S.GetMN ptx.proTxHash = some d ∧
      UpdateMNByProTxHashResult P ptx.proTxHash (ProUpRevState env ptx d.pdmnState) S = .ok S' := by
  cases hd : S.GetMN ptx.proTxHash with
  | none => simp [ProcessProUpRevTx, hd] at h
  | some d =>
    simp [ProcessProUpRevTx, hd] at h
    exact ⟨d, rfl, h⟩

end States

section Steps

variable {P} {env : BlockEnv} {L S S' : CDeterministicMNList}

theorem Tracks_ConfirmMN (hL : Inv P L) {dmn : CDeterministicMN} (hS : Tracks P L S)
    (hd : S.GetMN dmn.proTxHash = some dmn) (h : ConfirmMN P env S dmn = .ok S') :
    Tracks P L S' ∧ ∀ k, k ≠ dmn.proTxHash → S'.GetMN k = S.GetMN k := by
  unfold ConfirmMN at h
  split at h
  · cases h
    exact ⟨hS, fun _ _ => rfl⟩
  split at h
  · rw [call_eq_ok] at h
    exact ⟨hS.update_sameKeys hL hd h ⟨rfl, rfl, rfl, rfl⟩,
      fun k hk => UpdateMNByProTxHashResult_frame hS.valid.sound.inv h hk⟩
  · cases h
    exact ⟨hS, fun _ _ => rfl⟩

theorem Tracks_ResetConsecutivePayments (hL : Inv P L) {dmn : CDeterministicMN}
    (hS : Tracks P L S) (hd : S.GetMN dmn.proTxHash = some dmn)
    (h : ResetConsecutivePayments P env S dmn = .ok S') :
    Tracks P L S' ∧ ∀ k, k ≠ dmn.proTxHash → S'.GetMN k = S.GetMN k := by
  unfold ResetConsecutivePayments at h
  split at h
  · cases h
    exact ⟨hS, fun _ _ => rfl⟩
  split at h
  · cases h
    exact ⟨hS, fun _ _ => rfl⟩
  split at h
  · cases h
    exact ⟨hS, fun _ _ => rfl⟩
  rw [call_eq_ok] at h
  exact ⟨hS.update_sameKeys hL hd h ⟨rfl, rfl, rfl, rfl⟩,
    fun k hk => UpdateMNByProTxHashResult_frame hS.valid.sound.inv h hk⟩

theorem Tracks_DecreasePoSePenalties (hL : Inv P L) (hS : Tracks P L S)
    (h : DecreasePoSePenalties P S = .ok S') : Tracks P L S' := by
  unfold DecreasePoSePenalties at h
  refine Rollback.foldlM_invariant _ _ (fun k _ s s' hs hr => ?_) hS h
  obtain ⟨d, hd, hupd⟩ := PoSeDecreaseResult_eq_ok (call_eq_ok.mp hr)
  exact hs.update_sameKeys hL hd hupd ⟨rfl, rfl, rfl, rfl⟩

theorem Tracks_HandleQuorumCommitment (hL : Inv P L) {qc : CFinalCommitment}
    (hS : Tracks P L S) (h : HandleQuorumCommitment P env qc S = .ok S') : Tracks P L S' := by
  unfold HandleQuorumCommitment at h
  refine Rollback.foldlM_invariant _ _ (fun m _ s s' hs hr => ?_) hS h
  obtain ⟨proTxHash, i⟩ := m
  simp only at hr
  split at hr
  · cases hr
    exact hs
  split at hr
  · obtain ⟨d, hd, hupd⟩ := PoSePunishResult_eq_ok (call_eq_ok.mp hr)
    exact hs.update_sameKeys hL hd hupd (sameKeys_PunishedState _ _ _ _)
  · cases hr
    exact hs

theorem Tracks_ProcessQuorumCommitment (hL : Inv P L) {qc : CFinalCommitmentTxPayload}
    (hS : Tracks P L S) (h : ProcessQuorumCommitment P env qc S = .ok S') : Tracks P L S' := by
  simp [ProcessQuorumCommitment] at h
  split at h
  · cases h
    exact hS
  split at h
  · split at h
    · exact Tracks_HandleQuorumCommitment hL hS h
    · cases h
  · cases h

theorem Tracks_SpendCollateral (hL : Inv P L) {prevout : COutPoint} (hS : Tracks P L S)
    (h : SpendCollateral P S prevout = .ok S') : Tracks P L S' := by
  unfold SpendCollateral at h
  split at h
  · split at h
    · exact hS.remove hL (call_eq_ok.mp h)
    · cases h
      exact hS
  · cases h
    exact hS

theorem Tracks_PayPayee (hL : Inv P L) (hS : Tracks P L S) (h : PayPayee P env S = .ok S') :
    Tracks P L S' := by
  unfold PayPayee at h
  split at h
  · cases h
    exact hS
  split at h
  · cases h
    exact hS
  rename_i d hd
  exact hS.update_sameKeys hL hd (call_eq_ok.mp h) (sameKeys_PaidState env d)

theorem Tracks_ProcessProUpServTx (hL : Inv P L) {ptx : CProUpServTx} (hS : Tracks P L S)
    (hc : CheckProUpServTx P L ptx = .ok ()) (h : ProcessProUpServTx P env ptx S = .ok S') :
    Tracks P L S' := by
  obtain ⟨d, hd, hty, hupd⟩ := ProcessProUpServTx_eq_ok h
  obtain ⟨haddr, hplat⟩ := CheckProUpServTx_eq_ok hc
  obtain ⟨ha, ho, hk, hp⟩ := ProUpServState_keys (P := P) env ptx d.pdmnState
  refine hS.update_settled hL hd (KeyOk_of_key_eq hk (hS.valid.sound.keys _ d hd)) ho ?_
    (Or.inl (by rw [hk])) ?_ hupd
  · refine Or.inr (Or.inr fun a hmem => ?_)
    rw [ha] at hmem
    exact eq_of_otherHolds hL haddr hmem
  · intro hhp
    have hpt : ptx.nType = .HighPerformance := hty.trans hhp
    refine Or.inr (Or.inr fun a hmem => ?_)
    rw [hp, if_pos hpt] at hmem
    exact eq_of_otherHolds hL (hplat hpt) hmem

theorem Tracks_ProcessProUpRegTx (hL : Inv P L) {ptx : CProUpRegTx} (hS : Tracks P L S)
    (hc : CheckProUpRegTx P L ptx = .ok ()) (h : ProcessProUpRegTx P env ptx S = .ok S') :
    Tracks P L S' := by
  obtain ⟨d, hd, hupd⟩ := ProcessProUpRegTx_eq_ok h
  have hkey := CheckProUpRegTx_eq_ok hc
  obtain ⟨hk, ho, hrest⟩ := ProUpRegState_keys env ptx d.pdmnState
  refine hS.update_settled hL hd (KeyOk_of_set hk) ho ?_ ?_ (fun _ => ?_) hupd
  · rcases hrest with ⟨ha, -⟩ | ⟨ha, -⟩
    · exact Or.inl (by rw [ha])
    · exact Or.inr (Or.inl (by rw [ha]; rfl))
  · refine Or.inr (Or.inr fun a hmem => ?_)
    rw [hk] at hmem
    exact eq_of_otherHolds hL hkey hmem
  · rcases hrest with ⟨-, hp⟩ | ⟨-, hp⟩
    · exact Or.inl (by rw [hp])
    · exact Or.inr (Or.inl (by rw [hp]; rfl))

theorem Tracks_ProcessProUpRevTx (hL : Inv P L) {ptx : CProUpRevTx} (hS : Tracks P L S)
    (h : ProcessProUpRevTx P env ptx S = .ok S') : Tracks P L S' := by
  obtain ⟨d, hd, hupd⟩ := ProcessProUpRevTx_eq_ok h
  obtain ⟨ha, ho, hk, hp⟩ := ProUpRevState_keys env ptx d.pdmnState
  refine hS.update_settled hL hd (KeyOk_of_set hk) ho (Or.inr (Or.inl (by rw [ha]; rfl)))
    (Or.inr (Or.inl (by rw [hk, UniqueProperty.IsNull_blsPublicKey rfl]; rfl)))
    (fun _ => Or.inr (Or.inl (by rw [hp]; rfl))) hupd

theorem Tracks_ProcessProRegTx (hL : Valid P L) (hsep : OutPointHashesApart P)
    {tx : CTransaction} {ptx : CProRegTx} (hS : Tracks P L S)
    (hc : CheckProRegTx P L tx ptx = .ok ()) (hfresh : L.GetMN tx.hash = none)
    (h : ProcessProRegTx P env tx ptx S = .ok S') : Tracks P L S' := by
  obtain ⟨Smid, hrepl, hadd⟩ := ProcessProRegTx_eq_ok h
  obtain ⟨haddr, howner, hop, hplat⟩ := CheckProRegTx_eq_ok hc
  have hinv := hS.valid.sound.inv
  have hmid : Tracks P L Smid := by
    rcases hrepl with ⟨-, rfl⟩ | ⟨r, -, hrem⟩
    · exact hS
    · exact hS.remove hL.sound.inv hrem
  have hsub : ∀ a, S.GetMN a = none → Smid.GetMN a = none := by
    intro a ha
    rcases hrepl with ⟨-, rfl⟩ | ⟨r, -, hrem⟩
    · exact ha
    · rw [(RemoveMNResult_eq_ok hrem).2]
      split <;> simp [ha]
  -- a masternode of `L` with a collateral of the same hash is gone after the replacement
  have hgone : ∀ a da, L.GetMN a = some da →
      (UniqueProperty.outPoint da.collateralOutpoint).Hash P =
        (UniqueProperty.outPoint (ptx.collateralOf tx.hash)).Hash P → Smid.GetMN a = none := by
    intro a da hda hhash
    cases hSa : S.GetMN a with
    | none => exact hsub a hSa
    | some dS =>
      have hcoll : dS.collateralOutpoint = da.collateralOutpoint := by
        rw [hS.identity a da dS hda hSa]
      have hclaim : ((UniqueProperty.outPoint (ptx.collateralOf tx.hash)).Hash P, a) ∈
          ListClaims P S := by
        have hg : ((.outPoint dS.collateralOutpoint, .collateralOutpoint) :
            UniqueProperty × PropertyKind) ∈ GuardedProperties P dS := by
          simp [GuardedProperties, UniqueProperties]
        have hmem := mem_PropertyClaims hg (hS.valid.registered a dS hSa).collateral_not_null
        rw [hinv.key_eq a dS hSa, hcoll, hhash] at hmem
        exact mem_ListClaims hSa hmem
      obtain ⟨d1, hd1, -, hget⟩ := GetUniquePropertyMN_of_mem hinv hclaim
      rw [hSa] at hd1
      cases hd1
      rcases hrepl with ⟨hnone, -⟩ | ⟨r, hr, hrem⟩
      · rw [GetMNByCollateral, hget] at hnone
        cases hnone
      · rw [GetMNByCollateral, hget] at hr
        cases hr
        rw [(RemoveMNResult_eq_ok hrem).2, hinv.key_eq a dS hSa, if_pos rfl]
  obtain ⟨hka, hko, hkk, hkp⟩ := ProRegTxMN_keys env tx ptx S.nTotalRegisteredCount.toUInt64
  have hk : KeyOk P (ProRegTxMN env tx ptx S.nTotalRegisteredCount.toUInt64).pdmnState :=
    KeyOk_of_set hkk
  refine hmid.add hL.sound.inv hk hfresh (fun y hy a ha hne => ?_) hadd
  rw [PropertyClaims_eq hk, Multiset.mem_add] at hy
  rcases hy with hy | hy
  · -- the collateral: by the separation of hashes, `a` held it as its own collateral
    obtain ⟨-, rfl⟩ := mem_claimOf.mp hy
    obtain ⟨da, hda, hmem⟩ := exists_of_mem_ListClaims hL.sound.inv ha
    obtain ⟨p, hp, -, hpy⟩ := exists_of_mem_PropertyClaims hmem
    have hhash : (UniqueProperty.outPoint (ptx.collateralOf tx.hash)).Hash P = p.1.Hash P :=
      (Prod.mk.inj hpy).1
    obtain ⟨o', ho'⟩ := hsep _ _ hhash
    have hcoll : o' = da.collateralOutpoint := by
      obtain ⟨p1, p2⟩ := p
      simp only at ho'
      subst ho'
      exact outPoint_mem_GuardedProperties hp
    exact hgone a da hda (by rw [← hcoll, ← ho', hhash])
  · rcases mem_StateClaims.mp hy with hy | hy | hy | ⟨hhp, hy⟩ <;>
      obtain ⟨-, rfl⟩ := mem_claimOf.mp hy <;> dsimp only at ha
    · -- the address: only the masternode with the new collateral held it
      rw [hka] at ha
      obtain ⟨da, hda, -, hget⟩ := GetUniquePropertyMN_of_mem hL.sound.inv ha
      exact hgone a da hda (by rw [haddr da hget])
    · rw [hko] at ha
      exact absurd ha (not_mem_of_HasUniqueProperty hL.sound.inv howner a)
    · rw [hkk] at ha
      exact absurd ha (not_mem_of_HasUniqueProperty hL.sound.inv hop a)
    · rw [hkp] at ha
      exact absurd ha (not_mem_of_HasUniqueProperty hL.sound.inv (hplat hhp) a)

theorem Tracks_ProcessTx (hL : Valid P L) (hsep : OutPointHashesApart P) {tx : CTransaction}
    (hS : Tracks P L S) (hc : CheckSpecialTx P L tx = .ok ()) (hfresh : L.GetMN tx.hash = none)
    (h : ProcessTx P env S tx = .ok S') : Tracks P L S' := by
  have hinv := hL.sound.inv
  unfold ProcessTx at h
  split at h
  · cases h
    exact hS
  rename_i hv
  simp only [bne_iff_ne, ne_eq, Decidable.not_not] at hv
  simp only [CheckSpecialTx, CTransaction.IsNotSpecial, hv, bne_self_eq_false,
    Bool.false_or] at hc
  split at h
  · rename_i hty
    simp only [beq_iff_eq] at hty
    split at h
    · rename_i ptx hp
      simp [hty, hp, TRANSACTION_NORMAL, TRANSACTION_PROVIDER_REGISTER] at hc
      exact Tracks_ProcessProRegTx hL hsep hS hc hfresh h
    · cases h
  split at h
  · rename_i hty
    simp only [beq_iff_eq] at hty
    split at h
    · rename_i ptx hp
      simp [hty, hp, TRANSACTION_NORMAL, TRANSACTION_PROVIDER_REGISTER,
        TRANSACTION_PROVIDER_UPDATE_SERVICE] at hc
      exact Tracks_ProcessProUpServTx hinv hS hc h
    · cases h
  split at h
  · rename_i hty
    simp only [beq_iff_eq] at hty
    split at h
    · rename_i ptx hp
      simp [hty, hp, TRANSACTION_NORMAL, TRANSACTION_PROVIDER_REGISTER,
        TRANSACTION_PROVIDER_UPDATE_SERVICE, TRANSACTION_PROVIDER_UPDATE_REGISTRAR] at hc
      exact Tracks_ProcessProUpRegTx hinv hS hc h
    · cases h
  split at h
  · split at h
    · exact Tracks_ProcessProUpRevTx hinv hS h
    · cases h
  split at h
  · split at h
    · exact Tracks_ProcessQuorumCommitment hinv hS h
    · cases h
  · cases h
    exact hS

theorem BuildNewListFromBlock_tracks (hL : Valid P L) (hsep : OutPointHashesApart P)
    {block : CBlock} (hchecked : ∀ tx ∈ block.vtx, CheckSpecialTx P L tx = .ok ())
    (hfresh : ∀ tx ∈ block.vtx, L.GetMN tx.hash = none)
    (h : BuildNewListFromBlock P env block L = .ok S') : Tracks P L S' := by
  have hinv := hL.sound.inv
  unfold BuildNewListFromBlock at h
  obtain ⟨S1, h1, h⟩ := Rollback.bind_eq_ok h
  obtain ⟨S2, h2, h⟩ := Rollback.bind_eq_ok h
  obtain ⟨S3, h3, h⟩ := Rollback.bind_eq_ok h
  obtain ⟨S4, h4, h⟩ := Rollback.bind_eq_ok h
  obtain ⟨S5, h5, h⟩ := Rollback.bind_eq_ok h
  have hvalues : ∀ {s : CDeterministicMNList}, Inv P s →
      ∀ d ∈ s.mnMap.entries.map (·.2), s.GetMN d.proTxHash = some d := by
    intro s hs d hd
    obtain ⟨k, hk⟩ := mem_values.mp hd
    rw [hs.key_eq k d hk]
    exact hk
  have hT1 : Tracks P L S1 :=
    Rollback.foldlM_invariant_keyed (fun s k => s.GetMN k) (·.proTxHash) (ConfirmMN P env)
      (fun _ _ _ hs hd hr => Tracks_ConfirmMN hinv hs hd hr) (L.mnMap.entries.map (·.2))
      (values_proTxHash_nodup hinv)
      (hvalues hinv) (Tracks.init hL 0 (newHeight env)) h1
  have hT2 := Tracks_DecreasePoSePenalties hinv hT1 h2
  have hT3 : Tracks P L S3 :=
    Rollback.foldlM_invariant _ _ (fun tx htx _ _ hs hr =>
      Tracks_ProcessTx hL hsep hs (hchecked tx (List.mem_of_mem_tail htx))
        (hfresh tx (List.mem_of_mem_tail htx)) hr) hT2 h3
  have hT4 : Tracks P L S4 :=
    Rollback.foldlM_invariant _ _ (fun tx _ _ _ hs hr =>
      Rollback.foldlM_invariant _ _ (fun _ _ _ _ hs' hr' => Tracks_SpendCollateral hinv hs' hr')
        hs hr) hT3 h4
  have hT5 := Tracks_PayPayee hinv hT4 h5
  exact Rollback.foldlM_invariant_keyed (fun s k => s.GetMN k) (·.proTxHash)
    (ResetConsecutivePayments P env)
    (fun _ _ _ hs hd hr => Tracks_ResetConsecutivePayments hinv hs hd hr)
    (S5.mnMap.entries.map (·.2))
    (values_proTxHash_nodup hT5.valid.sound.inv) (hvalues hT5.valid.sound.inv) hT5 h

end Steps

/-! GetListForBlock rebuilds the list of a block from the nearest snapshot before it and the
stored difference of each block after the snapshot, applied in turn. -/

/-- The loop of `GetListForBlock` over the blocks after the snapshot, each given by its hash and
height and its stored difference. A difference without changes only stamps the list with its
block. -/
def ApplyDiffs (snapshot : CDeterministicMNList) :
    List ((uint256 × Int) × CDeterministicMNListDiff) → Except MNListError CDeterministicMNList
  | [] => pure snapshot
  | ((blockHash, nHeight), diff) :: rest =>
    if diff.HasChanges then
      match ApplyDiff P snapshot blockHash nHeight diff with
      | .ok snapshot => ApplyDiffs snapshot rest
      | .error e => throw e
    else ApplyDiffs { snapshot with blockHash := blockHash, nHeight := nHeight } rest

section Replay

variable {P}

end Replay

/-- The list of a block whose special transactions passed CheckSpecialTx against the list `L`
of the block before is rebuilt from `L` and the stored difference: ApplyDiff succeeds, with the
updates in any order, and gives the masternodes and the id map of the block's list. -/
theorem ApplyDiff_BuildDiff_of_checked_block {env : BlockEnv} {L L' : CDeterministicMNList}
    {block : CBlock}
    (hL : Valid P L) (hsep : OutPointHashesApart P)
    (hchecked : ∀ tx ∈ block.vtx, CheckSpecialTx P L tx = .ok ())
    (hfresh : ∀ tx ∈ block.vtx, L.GetMN tx.hash = none)
    (hbuild : BuildNewListFromBlock P env block L = .ok L') (pindexHash : uint256)
    (pindexHeight : Int) {us : List (UInt64 × CDeterministicMNStateDiff)}
    (hus : us.Perm (BuildDiff L L').updatedMNs) :
    ∃ R, ApplyDiff P L pindexHash pindexHeight { BuildDiff L L' with updatedMNs := us } = .ok R ∧
      R.blockHash = pindexHash ∧ R.nHeight = pindexHeight ∧
      (∀ h, R.GetMN h = L'.GetMN h) ∧
      ∀ id, R.mnInternalIdMap.lookup id = L'.mnInternalIdMap.lookup id := by
  have hT := BuildNewListFromBlock_tracks hL hsep hchecked hfresh hbuild
  obtain ⟨R, hR, hb, hn, -, hget, hid⟩ :=
    ApplyDiff_BuildDiff P hL hT.valid hT.identity hT.nosteal pindexHash pindexHeight hus
  exact ⟨R, hR, hb, hn, hget, hid⟩

/-- A list of one masternode and a block with a ProUpServTx that moves it to a new address. -/
theorem ApplyDiff_BuildDiff_of_checked_block_ProUpServTx :
    let P := bytesPrimitives
    let A : CDeterministicMN :=
      { internalId := 0, proTxHash := 1, collateralOutpoint := ⟨5, 0⟩,
        pdmnState := { keyIDOwner := 11, pubKeyOperator := .set (some 21), keyIDVoting := 11,
                       addr := ⟨1, 9999⟩, confirmedHash := 1 } }
    let env : BlockEnv :=
      { prevHeight := 100, prevHash := 77, v19Active := true,
        nMasternodeMinimumConfirmations := 15, payee := none,
        coinValue := fun _ => some (collat_amount .Regular), dkgInterval := fun _ => none,
        ancestorHash := fun _ => none, quorumMembers := fun _ _ => [],
        sha256Pair := fun a b => a + b, DecodesSig := fun _ => true }
    let block : CBlock :=
      ⟨[{ hash := 100 },
        { hash := 101, nType := TRANSACTION_PROVIDER_UPDATE_SERVICE,
          payload := some (.ProUpServTx { proTxHash := 1, addr := ⟨2, 9999⟩ }) }]⟩
    ∃ L L', AddMNResult P A true {} = .ok L ∧ BuildNewListFromBlock P env block L = .ok L' ∧
      ∃ R, ApplyDiff P L 0 101 (BuildDiff L L') = .ok R ∧ R.blockHash = 0 ∧ R.nHeight = 101 ∧
        (∀ h, R.GetMN h = L'.GetMN h) ∧
        ∀ id, R.mnInternalIdMap.lookup id = L'.mnInternalIdMap.lookup id := by
  intro P A env block
  have hrun : (match AddMNResult P A true {} with
      | .ok L => (block.vtx.all fun tx =>
          (CheckSpecialTx P L tx).toBool && (L.GetMN tx.hash).isNone) &&
          (BuildNewListFromBlock P env block L).toBool
      | .error _ => false) = true := by
    decide +kernel
  have hA : KeyOk P A.pdmnState := KeyOk_of_set rfl
  cases hL : AddMNResult P A true {} with
  | error e =>
    rw [hL] at hrun
    cases hrun
  | ok L =>
    rw [hL] at hrun
    dsimp only at hrun
    rw [Bool.and_eq_true, List.all_eq_true] at hrun
    obtain ⟨htxs, hbuild⟩ := hrun
    cases hL' : BuildNewListFromBlock P env block L with
    | error e =>
      rw [hL'] at hbuild
      cases hbuild
    | ok L' =>
      have hchecked : ∀ tx ∈ block.vtx, CheckSpecialTx P L tx = .ok () := by
        intro tx htx
        have hc := ((Bool.and_eq_true _ _).mp (htxs tx htx)).1
        cases hct : CheckSpecialTx P L tx with
        | error r =>
          rw [hct] at hc
          cases hc
        | ok u => rfl
      have hfresh : ∀ tx ∈ block.vtx, L.GetMN tx.hash = none := fun tx htx =>
        Option.isNone_iff_eq_none.mp ((Bool.and_eq_true _ _).mp (htxs tx htx)).2
      exact ⟨L, L', rfl, hL', ApplyDiff_BuildDiff_of_checked_block P
        (Valid_AddMNResult Valid_empty hA hL) bytesPrimitives_outPointHashesApart hchecked hfresh hL' 0 101
        (List.Perm.refl _)⟩

/-- Without the checks of CheckSpecialTx, BuildNewListFromBlock accepts a block in which a
masternode moves to a new address and a new masternode takes its old one. ApplyDiff adds the
new masternode before it updates the old one, and throws; CheckSpecialTx against the list
rejects the ProRegTx. -/
theorem ApplyDiff_throws_after_unchecked_block :
    let P := bytesPrimitives
    let A : CDeterministicMN :=
      { internalId := 0, proTxHash := 1, collateralOutpoint := ⟨5, 0⟩,
        pdmnState := { keyIDOwner := 11, pubKeyOperator := .set (some 21), keyIDVoting := 11,
                       addr := ⟨1, 9999⟩, confirmedHash := 1 } }
    let env : BlockEnv :=
      { prevHeight := 100, prevHash := 77, v19Active := true,
        nMasternodeMinimumConfirmations := 15, payee := none,
        coinValue := fun _ => some (collat_amount .Regular), dkgInterval := fun _ => none,
        ancestorHash := fun _ => none, quorumMembers := fun _ _ => [],
        sha256Pair := fun a b => a + b, DecodesSig := fun _ => true }
    let tx : CTransaction :=
      { hash := 102, nType := TRANSACTION_PROVIDER_REGISTER,
        payload := some (.ProRegTx { collateralOutpoint := ⟨7, 0⟩, addr := ⟨1, 9999⟩,
                                     keyIDOwner := 12, pubKeyOperator := some 22,
                                     keyIDVoting := 12 }) }
    let block : CBlock :=
      ⟨[{ hash := 100 },
        { hash := 101, nType := TRANSACTION_PROVIDER_UPDATE_SERVICE,
          payload := some (.ProUpServTx { proTxHash := 1, addr := ⟨2, 9999⟩ }) },
        tx]⟩
    ∃ L L', AddMNResult P A true {} = .ok L ∧ Valid P L ∧
      BuildNewListFromBlock P env block L = .ok L' ∧
      ApplyDiff P L 0 101 (BuildDiff L L') = .error (.addDuplicate 102 .addr) ∧
      CheckSpecialTx P L tx = .error "bad-protx-dup-addr" := by
  intro P A env tx block
  have hrun : (match AddMNResult P A true {} with
      | .ok L => match BuildNewListFromBlock P env block L with
        | .ok L' => (match ApplyDiff P L 0 101 (BuildDiff L L') with
            | .error e => e == .addDuplicate 102 .addr
            | .ok _ => false) &&
          (match CheckSpecialTx P L tx with
            | .error r => r == "bad-protx-dup-addr"
            | .ok _ => false)
        | .error _ => false
      | .error _ => false) = true := by
    decide +kernel
  have hA : KeyOk P A.pdmnState := KeyOk_of_set rfl
  cases hL : AddMNResult P A true {} with
  | error e =>
    rw [hL] at hrun
    cases hrun
  | ok L =>
    rw [hL] at hrun
    dsimp only at hrun
    cases hL' : BuildNewListFromBlock P env block L with
    | error e =>
      rw [hL'] at hrun
      cases hrun
    | ok L' =>
      rw [hL'] at hrun
      dsimp only at hrun
      rw [Bool.and_eq_true] at hrun
      obtain ⟨happly, hcheck⟩ := hrun
      refine ⟨L, L', rfl, Valid_AddMNResult Valid_empty hA hL, hL', ?_, ?_⟩
      · cases hR : ApplyDiff P L 0 101 (BuildDiff L L') with
        | ok R =>
          rw [hR] at happly
          cases happly
        | error e =>
          rw [hR] at happly
          rw [beq_iff_eq.mp happly]
      · cases hC : CheckSpecialTx P L tx with
        | ok u =>
          rw [hC] at hcheck
          cases hcheck
        | error r =>
          rw [hC] at hcheck
          rw [beq_iff_eq.mp hcheck]

end CDeterministicMNManager

end Primitives

end DashCore
