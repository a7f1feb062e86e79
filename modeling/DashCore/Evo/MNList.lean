import DashCore.Lib.OwnerIndex
import DashCore.Lib.Rollback
import DashCore.Evo.StateDiff

/-! The deterministic masternode list and its member functions (evo/deterministicmns.h,
evo/deterministicmns.cpp). A member function that changes the list runs in `MNListM`: a
thrown `std::runtime_error` is an error result, which keeps the list as it was at the
throw, as the object is after the exception leaves the call. -/
namespace DashCore

abbrev MnMap := AList (fun _ : uint256 => CDeterministicMN)
abbrev MnInternalIdMap := AList (fun _ : UInt64 => uint256)
abbrev MnUniquePropertyMap := OwnerIndex.Index uint256 uint256

structure CDeterministicMNList where
  blockHash : uint256 := 0
  nHeight : Int := -1
  nTotalRegisteredCount : UInt32 := 0
  mnMap : MnMap := ∅
  mnInternalIdMap : MnInternalIdMap := ∅
  mnUniquePropertyMap : MnUniquePropertyMap := ∅

inductive ListFunc where
  | UpdateMN
  | RemoveMN
  | PoSePunish
  | PoSeDecrease
deriving DecidableEq, Repr

inductive MNListError where
  | duplicateProTxHash (proTxHash : uint256)
  | duplicateInternalId (internalId : UInt64)
  | addDuplicate (proTxHash : uint256) (kind : PropertyKind)
  | updateDuplicate (proTxHash : uint256) (kind : PropertyKind)
  | deleteFailed (proTxHash : uint256) (kind : PropertyKind)
  | notFound (func : ListFunc) (proTxHash : uint256)
  | removedNotFound (internalId : UInt64)
  /-- A failed `assert` or a dereference of a null pointer: the process stops. -/
  | abort
deriving DecidableEq, Repr

namespace PropertyKind

def what : PropertyKind → String
  | collateralOutpoint => "collateralOutpoint"
  | addr => "address"
  | keyIDOwner => "keyIDOwner"
  | pubKeyOperator => "pubKeyOperator"
  | platformNodeID => "platformNodeID"

end PropertyKind

namespace ListFunc

def name : ListFunc → String
  | UpdateMN => "UpdateMN"
  | RemoveMN => "RemoveMN"
  | PoSePunish => "PoSePunish"
  | PoSeDecrease => "PoSeDecrease"

end ListFunc

namespace MNListError

def what : MNListError → String
  | duplicateProTxHash _ => "AddMN: Can't add a masternode with a duplicate proTxHash"
  | duplicateInternalId _ => "AddMN: Can't add a masternode with a duplicate internalId"
  | addDuplicate _ k => "AddMN: Can't add a masternode with a duplicate " ++ k.what
  | updateDuplicate _ k => "UpdateMN: Can't update a masternode with a duplicate " ++ k.what
  | deleteFailed _ .addr => "RemoveMN: Can't delete a masternode with a address"
  | deleteFailed _ .platformNodeID =>
    "RemoveMN: Can't delete a masternode with a duplicate platformNodeID"
  | deleteFailed _ k => "RemoveMN: Can't delete a masternode with a " ++ k.what
  | notFound f _ => f.name ++ ": Can't find a masternode with proTxHash"
  | removedNotFound _ => "ApplyDiff: can't find a removed masternode"
  | abort => "abort"

end MNListError

abbrev MNListM := EStateM MNListError CDeterministicMNList

section Primitives

variable (P : Primitives)

namespace CDeterministicMNList

def uniquePropertyMapField : Rollback.Field CDeterministicMNList MnUniquePropertyMap where
  view s := s.mnUniquePropertyMap
  update m s := { s with mnUniquePropertyMap := m }
  view_update _ _ := rfl
  update_update _ _ _ := rfl
  update_view _ := rfl

def GetMN (s : CDeterministicMNList) (proTxHash : uint256) : Option CDeterministicMN :=
  s.mnMap.lookup proTxHash

theorem GetMN_of_mnMap_insert {s s' : CDeterministicMNList} {h : uint256} {d : CDeterministicMN}
    (hm : s'.mnMap = s.mnMap.insert h d) (k : uint256) :
    s'.GetMN k = if k = h then some d else s.GetMN k := by
  rw [GetMN, GetMN, hm]
  split_ifs with hk
  · rw [hk, AList.lookup_insert]
  · exact AList.lookup_insert_ne hk

theorem GetMN_of_mnMap_erase {s s' : CDeterministicMNList} {h : uint256}
    (hm : s'.mnMap = s.mnMap.erase h) (k : uint256) :
    s'.GetMN k = if k = h then none else s.GetMN k := by
  rw [GetMN, GetMN, hm]
  split_ifs with hk
  · rw [hk, AList.lookup_erase]
  · exact AList.lookup_erase_ne hk

def GetMNByInternalId (s : CDeterministicMNList) (internalId : UInt64) :
    Option CDeterministicMN :=
  (s.mnInternalIdMap.lookup internalId).bind s.GetMN

def GetUniquePropertyMN (s : CDeterministicMNList) (v : UniqueProperty) :
    Option CDeterministicMN :=
  (s.mnUniquePropertyMap.lookup (v.Hash P)).bind fun p => s.GetMN p.1

def HasUniqueProperty (s : CDeterministicMNList) (v : UniqueProperty) : Bool :=
  (s.mnUniquePropertyMap.lookup (v.Hash P)).isSome

def GetMNByCollateral (s : CDeterministicMNList) (collateralOutpoint : COutPoint) :
    Option CDeterministicMN :=
  s.GetUniquePropertyMN P (.outPoint collateralOutpoint)

def GetAllMNsCount (s : CDeterministicMNList) : Nat := s.mnMap.entries.length

def CalcMaxPoSePenalty (s : CDeterministicMNList) : Int := max 100 (s.GetAllMNsCount : Int)

def CalcPenalty (s : CDeterministicMNList) (percent : Int) : Int :=
  (s.CalcMaxPoSePenalty * percent) / 100

def AddUniqueProperty (dmn : CDeterministicMN) (v : UniqueProperty) :
    Rollback.Write MnUniquePropertyMap := fun m =>
  if v.IsNull P then (false, m)
  else match OwnerIndex.claim m (v.Hash P) dmn.proTxHash with
    | some m' => (true, m')
    | none => (false, m)

/-- DeleteUniqueProperty: a null value or one not held by this masternode is refused. -/
def DeleteUniqueProperty (dmn : CDeterministicMN) (oldValue : UniqueProperty) :
    Rollback.Write MnUniquePropertyMap := fun m =>
  if oldValue.IsNull P then (false, m)
  else match OwnerIndex.release m (oldValue.Hash P) dmn.proTxHash with
    | some m' => (true, m')
    | none => (false, m)

/-- UpdateUniqueProperty compares with the default value, not with validity; a failed add
after a successful delete reports failure with the delete done. -/
def UpdateUniqueProperty (dmn : CDeterministicMN) (oldValue newValue : UniqueProperty) :
    Rollback.Write MnUniquePropertyMap := fun m =>
  if oldValue.Equals P newValue then (true, m)
  else
    let r := if !oldValue.IsNull P then DeleteUniqueProperty P dmn oldValue m else (true, m)
    if !r.1 then (false, r.2)
    else if !newValue.IsNull P then AddUniqueProperty P dmn newValue r.2
    else (true, r.2)

/-- The unique properties in the order AddMN and RemoveMN visit them, each with the
condition the source tests before it. -/
def UniqueProperties (dmn : CDeterministicMN) : List (Bool × UniqueProperty × PropertyKind) :=
  [(true, .outPoint dmn.collateralOutpoint, .collateralOutpoint),
   (dmn.pdmnState.addr != default, .service dmn.pdmnState.addr, .addr),
   (true, .uint160 dmn.pdmnState.keyIDOwner, .keyIDOwner),
   (dmn.pdmnState.pubKeyOperator.IsValid P, .blsPublicKey dmn.pdmnState.pubKeyOperator,
     .pubKeyOperator),
   (dmn.nType == .HighPerformance && dmn.pdmnState.platformNodeID != 0,
     .uint160 dmn.pdmnState.platformNodeID, .platformNodeID)]

def GuardedProperties (dmn : CDeterministicMN) : List (UniqueProperty × PropertyKind) :=
  (UniqueProperties P dmn).filterMap fun (g, v, k) => if g then some (v, k) else none

def UpdatedProperties (nType : MnType) (oldState newState : CDeterministicMNState) :
    List (UniqueProperty × UniqueProperty × PropertyKind) :=
  [(.service oldState.addr, .service newState.addr, .addr),
   (.uint160 oldState.keyIDOwner, .uint160 newState.keyIDOwner, .keyIDOwner),
   (.blsPublicKey oldState.pubKeyOperator, .blsPublicKey newState.pubKeyOperator,
     .pubKeyOperator)] ++
  if nType == .HighPerformance then
    [(.uint160 oldState.platformNodeID, .uint160 newState.platformNodeID, .platformNodeID)]
  else []

def AddMNWrites (dmn : CDeterministicMN) :
    List (Rollback.Write MnUniquePropertyMap × MNListError) :=
  (GuardedProperties P dmn).map fun (v, k) =>
    (AddUniqueProperty P dmn v, .addDuplicate dmn.proTxHash k)

def RemoveMNWrites (proTxHash : uint256) (dmn : CDeterministicMN) :
    List (Rollback.Write MnUniquePropertyMap × MNListError) :=
  (GuardedProperties P dmn).map fun (v, k) =>
    (DeleteUniqueProperty P dmn v, .deleteFailed proTxHash k)

def UpdateMNWrites (oldDmn : CDeterministicMN) (pdmnState : CDeterministicMNState) :
    List (Rollback.Write MnUniquePropertyMap × MNListError) :=
  (UpdatedProperties oldDmn.nType oldDmn.pdmnState pdmnState).map fun (o, n, k) =>
    (UpdateUniqueProperty P { oldDmn with pdmnState := pdmnState } o n,
      .updateDuplicate oldDmn.proTxHash k)

/-- The new total count: the id after the new one, if that is larger, cut to 32 bits. -/
def bumpedTotalCount (internalId : UInt64) (nTotalRegisteredCount : UInt32) : UInt32 :=
  (max (internalId + 1) nTotalRegisteredCount.toUInt64).toUInt32

def AddMN (dmn : CDeterministicMN) (fBumpTotalCount : Bool := true) : MNListM Unit := do
  let s ← get
  if (s.mnMap.lookup dmn.proTxHash).isSome then
    throw (.duplicateProTxHash dmn.proTxHash)
  if (s.mnInternalIdMap.lookup dmn.internalId).isSome then
    throw (.duplicateInternalId dmn.internalId)
  -- all updates of the unique-property map are rolled back together
  Rollback.steps uniquePropertyMapField s.mnUniquePropertyMap (AddMNWrites P dmn)
  modify fun s => { s with
    mnMap := s.mnMap.insert dmn.proTxHash dmn
    mnInternalIdMap := s.mnInternalIdMap.insert dmn.internalId dmn.proTxHash
    nTotalRegisteredCount :=
      if fBumpTotalCount then bumpedTotalCount dmn.internalId s.nTotalRegisteredCount
      else s.nTotalRegisteredCount }

/-- UpdateMN(oldDmn, pdmnState): it does not look `oldDmn` up in the list. -/
def UpdateMN (oldDmn : CDeterministicMN) (pdmnState : CDeterministicMNState) :
    MNListM Unit := do
  let s ← get
  Rollback.steps uniquePropertyMapField s.mnUniquePropertyMap (UpdateMNWrites P oldDmn pdmnState)
  modify fun s => { s with
    mnMap := s.mnMap.insert oldDmn.proTxHash { oldDmn with pdmnState := pdmnState } }

def UpdateMNByProTxHash (proTxHash : uint256) (pdmnState : CDeterministicMNState) :
    MNListM Unit := do
  match (← get).GetMN proTxHash with
  | none => throw (.notFound .UpdateMN proTxHash)
  | some oldDmn => UpdateMN P oldDmn pdmnState

def UpdateMNByDiff (oldDmn : CDeterministicMN) (stateDiff : CDeterministicMNStateDiff) :
    MNListM Unit :=
  UpdateMN P oldDmn (stateDiff.ApplyToState oldDmn.pdmnState)

def RemoveMN (proTxHash : uint256) : MNListM Unit := do
  let s ← get
  match s.GetMN proTxHash with
  | none => throw (.notFound .RemoveMN proTxHash)
  | some dmn =>
    Rollback.steps uniquePropertyMapField s.mnUniquePropertyMap (RemoveMNWrites P proTxHash dmn)
    modify fun s => { s with
      mnMap := s.mnMap.erase proTxHash
      mnInternalIdMap := s.mnInternalIdMap.erase dmn.internalId }

def PunishedState (state : CDeterministicMNState) (penalty maxPenalty nHeight : Int) :
    CDeterministicMNState :=
  let newState := { state with nPoSePenalty := min maxPenalty (state.nPoSePenalty + penalty) }
  if newState.nPoSePenalty ≥ maxPenalty && !newState.IsBanned then newState.BanIfNotBanned nHeight
  else newState

def PoSePunish (proTxHash : uint256) (penalty : Int) : MNListM Unit := do
  if !(penalty > 0) then throw .abort
  let s ← get
  match s.GetMN proTxHash with
  | none => throw (.notFound .PoSePunish proTxHash)
  | some dmn =>
    UpdateMNByProTxHash P proTxHash (PunishedState dmn.pdmnState penalty s.CalcMaxPoSePenalty s.nHeight)

def PoSeDecrease (proTxHash : uint256) : MNListM Unit := do
  let s ← get
  match s.GetMN proTxHash with
  | none => throw (.notFound .PoSeDecrease proTxHash)
  | some dmn =>
    if !(dmn.pdmnState.nPoSePenalty > 0 && !dmn.pdmnState.IsBanned) then throw .abort
    UpdateMNByProTxHash P proTxHash
      { dmn.pdmnState with nPoSePenalty := dmn.pdmnState.nPoSePenalty - 1 }

end CDeterministicMNList

def CURRENT_MN_FORMAT : UInt8 := 0
def MN_TYPE_FORMAT : UInt8 := 1

structure SerializedMNList where
  blockHash : uint256
  nHeight : Int
  nTotalRegisteredCount : UInt32
  mns : List CDeterministicMN

namespace CDeterministicMNList

/-- Unserialize clears the maps; the evodb migration format fills only `mnMap`. -/
def Unserialize (stream : SerializedMNList) (format_version : UInt8 := MN_TYPE_FORMAT) :
    MNListM Unit := do
  set ({ blockHash := stream.blockHash, nHeight := stream.nHeight,
         nTotalRegisteredCount := stream.nTotalRegisteredCount } : CDeterministicMNList)
  let evodb_migration := format_version == CURRENT_MN_FORMAT
  stream.mns.forM fun dmn =>
    if evodb_migration then
      modify fun s => { s with mnMap := s.mnMap.insert dmn.proTxHash dmn }
    else AddMN P dmn false

/-! What each member function does to the list, as a function of the list: the run of
the member function fails with the list untouched, or succeeds with this list. -/

def AddMNResult (dmn : CDeterministicMN) (fBumpTotalCount : Bool) (s : CDeterministicMNList) :
    Except MNListError CDeterministicMNList :=
  if (s.mnMap.lookup dmn.proTxHash).isSome then .error (.duplicateProTxHash dmn.proTxHash)
  else if (s.mnInternalIdMap.lookup dmn.internalId).isSome then
    .error (.duplicateInternalId dmn.internalId)
  else match Rollback.result (AddMNWrites P dmn) s.mnUniquePropertyMap with
    | .error e => .error e
    | .ok m => .ok { s with
        mnUniquePropertyMap := m
        mnMap := s.mnMap.insert dmn.proTxHash dmn
        mnInternalIdMap := s.mnInternalIdMap.insert dmn.internalId dmn.proTxHash
        nTotalRegisteredCount :=
          if fBumpTotalCount then bumpedTotalCount dmn.internalId s.nTotalRegisteredCount
          else s.nTotalRegisteredCount }

def UpdateMNResult (oldDmn : CDeterministicMN) (pdmnState : CDeterministicMNState)
    (s : CDeterministicMNList) : Except MNListError CDeterministicMNList :=
  match Rollback.result (UpdateMNWrites P oldDmn pdmnState) s.mnUniquePropertyMap with
  | .error e => .error e
  | .ok m => .ok { s with
      mnUniquePropertyMap := m
      mnMap := s.mnMap.insert oldDmn.proTxHash { oldDmn with pdmnState := pdmnState } }

def RemoveMNResult (proTxHash : uint256) (s : CDeterministicMNList) :
    Except MNListError CDeterministicMNList :=
  match s.GetMN proTxHash with
  | none => .error (.notFound .RemoveMN proTxHash)
  | some dmn =>
    match Rollback.result (RemoveMNWrites P proTxHash dmn) s.mnUniquePropertyMap with
    | .error e => .error e
    | .ok m => .ok { s with
        mnUniquePropertyMap := m
        mnMap := s.mnMap.erase proTxHash
        mnInternalIdMap := s.mnInternalIdMap.erase dmn.internalId }

def UpdateMNByProTxHashResult (proTxHash : uint256) (pdmnState : CDeterministicMNState)
    (s : CDeterministicMNList) : Except MNListError CDeterministicMNList :=
  match s.GetMN proTxHash with
  | none => .error (.notFound .UpdateMN proTxHash)
  | some oldDmn => UpdateMNResult P oldDmn pdmnState s

theorem run_uniqueSteps (saved : MnUniquePropertyMap)
    (ws : List (Rollback.Write MnUniquePropertyMap × MNListError)) (s : CDeterministicMNList) :
    (Rollback.steps uniquePropertyMapField saved ws).run s =
      match Rollback.result ws s.mnUniquePropertyMap with
      | .ok m => .ok () { s with mnUniquePropertyMap := m }
      | .error e => .error e { s with mnUniquePropertyMap := saved } := by
  rw [Rollback.run_steps]
  simp only [uniquePropertyMapField]
  cases Rollback.result ws s.mnUniquePropertyMap <;> rfl

def PoSePunishResult (proTxHash : uint256) (penalty : Int) (s : CDeterministicMNList) :
    Except MNListError CDeterministicMNList :=
  if !(penalty > 0) then .error .abort
  else match s.GetMN proTxHash with
    | none => .error (.notFound .PoSePunish proTxHash)
    | some dmn => UpdateMNByProTxHashResult P proTxHash
        (PunishedState dmn.pdmnState penalty s.CalcMaxPoSePenalty s.nHeight) s

def PoSeDecreaseResult (proTxHash : uint256) (s : CDeterministicMNList) :
    Except MNListError CDeterministicMNList :=
  match s.GetMN proTxHash with
  | none => .error (.notFound .PoSeDecrease proTxHash)
  | some dmn =>
    if !(dmn.pdmnState.nPoSePenalty > 0 && !dmn.pdmnState.IsBanned) then .error .abort
    else UpdateMNByProTxHashResult P proTxHash
      { dmn.pdmnState with nPoSePenalty := dmn.pdmnState.nPoSePenalty - 1 } s

theorem run_AddMN (dmn : CDeterministicMN) (fBumpTotalCount : Bool) (s : CDeterministicMNList) :
    (AddMN P dmn fBumpTotalCount).run s = Rollback.outcome (AddMNResult P dmn fBumpTotalCount s) s := by
  unfold AddMN AddMNResult
  by_cases hdup : (s.mnMap.lookup dmn.proTxHash).isSome
  · simp [hdup]
  by_cases hid : (s.mnInternalIdMap.lookup dmn.internalId).isSome
  · simp [hdup, hid]
  simp only [hdup, hid, EStateM.run_bind, EStateM.run_get, if_false, Bool.false_eq_true]
  cases hr : Rollback.result (AddMNWrites P dmn) s.mnUniquePropertyMap with
  | error e => simp [run_uniqueSteps, hr]
  | ok m => simp [run_uniqueSteps, hr]

theorem run_UpdateMN (oldDmn : CDeterministicMN) (pdmnState : CDeterministicMNState)
    (s : CDeterministicMNList) :
    (UpdateMN P oldDmn pdmnState).run s = Rollback.outcome (UpdateMNResult P oldDmn pdmnState s) s := by
  unfold UpdateMN UpdateMNResult
  simp only [EStateM.run_bind, EStateM.run_get]
  cases hr : Rollback.result (UpdateMNWrites P oldDmn pdmnState) s.mnUniquePropertyMap with
  | error e => simp [run_uniqueSteps, hr]
  | ok m => simp [run_uniqueSteps, hr]

theorem run_UpdateMNByProTxHash (proTxHash : uint256) (pdmnState : CDeterministicMNState)
    (s : CDeterministicMNList) :
    (UpdateMNByProTxHash P proTxHash pdmnState).run s =
      Rollback.outcome (UpdateMNByProTxHashResult P proTxHash pdmnState s) s := by
  unfold UpdateMNByProTxHash UpdateMNByProTxHashResult
  cases hmn : s.GetMN proTxHash with
  | none => simp [hmn]
  | some oldDmn => simp [hmn, run_UpdateMN]

theorem run_RemoveMN (proTxHash : uint256) (s : CDeterministicMNList) :
    (RemoveMN P proTxHash).run s = Rollback.outcome (RemoveMNResult P proTxHash s) s := by
  unfold RemoveMN RemoveMNResult
  cases hmn : s.GetMN proTxHash with
  | none => simp [hmn]
  | some dmn =>
    simp only [EStateM.run_bind, EStateM.run_get, hmn]
    cases hr : Rollback.result (RemoveMNWrites P proTxHash dmn) s.mnUniquePropertyMap with
    | error e => simp [run_uniqueSteps, hr]
    | ok m => simp [run_uniqueSteps, hr]

theorem run_PoSePunish (proTxHash : uint256) (penalty : Int) (s : CDeterministicMNList) :
    (PoSePunish P proTxHash penalty).run s =
      Rollback.outcome (PoSePunishResult P proTxHash penalty s) s := by
  unfold PoSePunish PoSePunishResult
  by_cases hp : penalty > 0
  · cases hmn : s.GetMN proTxHash with
    | none => simp [hp, hmn]
    | some dmn => simp [hp, hmn, run_UpdateMNByProTxHash]
  · simp [hp]

theorem run_PoSeDecrease (proTxHash : uint256) (s : CDeterministicMNList) :
    (PoSeDecrease P proTxHash).run s = Rollback.outcome (PoSeDecreaseResult P proTxHash s) s := by
  unfold PoSeDecrease PoSeDecreaseResult
  cases hmn : s.GetMN proTxHash with
  | none => simp [hmn]
  | some dmn =>
    by_cases hpen : dmn.pdmnState.nPoSePenalty ≤ 0 <;>
      by_cases hban : dmn.pdmnState.IsBanned = true <;>
      simp [hmn, hpen, hban, run_UpdateMNByProTxHash]

section Atomicity

variable {P} {s s' : CDeterministicMNList} {e : MNListError}

theorem AddMN_error_state {dmn : CDeterministicMN} {fBumpTotalCount : Bool}
    (h : (AddMN P dmn fBumpTotalCount).run s = .error e s') : s' = s := by
  rw [run_AddMN] at h
  exact (Rollback.outcome_eq_error h).1

theorem UpdateMN_error_state {oldDmn : CDeterministicMN} {pdmnState : CDeterministicMNState}
    (h : (UpdateMN P oldDmn pdmnState).run s = .error e s') : s' = s := by
  rw [run_UpdateMN] at h
  exact (Rollback.outcome_eq_error h).1

theorem UpdateMNByProTxHash_error_state {proTxHash : uint256} {pdmnState : CDeterministicMNState}
    (h : (UpdateMNByProTxHash P proTxHash pdmnState).run s = .error e s') : s' = s := by
  rw [run_UpdateMNByProTxHash] at h
  exact (Rollback.outcome_eq_error h).1

theorem RemoveMN_error_state {proTxHash : uint256}
    (h : (RemoveMN P proTxHash).run s = .error e s') : s' = s := by
  rw [run_RemoveMN] at h
  exact (Rollback.outcome_eq_error h).1

end Atomicity

/-- A throw from AddMN, any UpdateMN or RemoveMN leaves the whole list as it was. -/
theorem AddMN_UpdateMN_RemoveMN_throw_unchanged :
    (∀ dmn fBumpTotalCount s e s',
      (AddMN P dmn fBumpTotalCount).run s = .error e s' → s' = s) ∧
    (∀ oldDmn pdmnState s e s', (UpdateMN P oldDmn pdmnState).run s = .error e s' → s' = s) ∧
    (∀ proTxHash pdmnState s e s',
      (UpdateMNByProTxHash P proTxHash pdmnState).run s = .error e s' → s' = s) ∧
    (∀ oldDmn stateDiff s e s',
      (UpdateMNByDiff P oldDmn stateDiff).run s = .error e s' → s' = s) ∧
    (∀ proTxHash s e s', (RemoveMN P proTxHash).run s = .error e s' → s' = s) := by
  refine ⟨?_, ?_, ?_, ?_, ?_⟩
  · intro dmn fBumpTotalCount s e s' h
    exact AddMN_error_state h
  · intro oldDmn pdmnState s e s' h
    exact UpdateMN_error_state h
  · intro proTxHash pdmnState s e s' h
    exact UpdateMNByProTxHash_error_state h
  · intro oldDmn stateDiff s e s' h
    exact UpdateMN_error_state h
  · intro proTxHash s e s' h
    exact RemoveMN_error_state h

end CDeterministicMNList

end Primitives

/-- Bytes hashed as the number they spell modulo the prime `2 ^ 255 - 19`, the top bit marking
the 36 bytes of an outpoint; and a key library whose keys are their own bytes in either scheme. -/
def bytesPrimitives : Primitives where
  SerializeHash bs :=
    let v := bs.foldl (fun a b => (a * 256 + b.toNat) % (2 ^ 255 - 19)) 0
    BitVec.ofNat 256 (if bs.length = 36 then 2 ^ 255 + v else v)
  PubKeyFromBytes b _ := some b
  PubKeyToBytes k _ := k
  bls_legacy_scheme := true

namespace CDeterministicMNList

/-- A masternode whose ids, collateral, address and keys are all `k`, its operator key as read
from disk. -/
def keyedMN (k : Nat) : CDeterministicMN :=
  { internalId := UInt64.ofNat k, proTxHash := BitVec.ofNat 256 k,
    collateralOutpoint := ⟨BitVec.ofNat 256 k, 0⟩,
    pdmnState := { keyIDOwner := BitVec.ofNat 160 k, addr := ⟨BitVec.ofNat 128 k, 9999⟩,
                   pubKeyOperator := .buffer (BitVec.ofNat 384 k) true } }

def twoMNs : CDeterministicMNList :=
  Rollback.resultState ((AddMN bytesPrimitives (keyedMN 2)).run
    (Rollback.resultState ((AddMN bytesPrimitives (keyedMN 1)).run {})))

def ownerClashState : CDeterministicMNState :=
  { (keyedMN 2).pdmnState with addr := ⟨3, 9999⟩, keyIDOwner := 1 }

set_option maxRecDepth 2000 in
/-- Each member function throwing on `twoMNs`: AddMN of a masternode with the owner key of `1`
after adding its collateral and address, the three UpdateMN after moving the address of `2`, and
RemoveMN of an unknown masternode. Each leaves the list as it was. -/
theorem AddMN_UpdateMN_RemoveMN_throw_unchanged_on_owner_clash :
    (∃ s', (AddMN bytesPrimitives { keyedMN 3 with pdmnState.keyIDOwner := 1 }).run twoMNs =
      .error (.addDuplicate 3 .keyIDOwner) s' ∧ s' = twoMNs) ∧
    (∃ s', (UpdateMN bytesPrimitives (keyedMN 2) ownerClashState).run twoMNs =
      .error (.updateDuplicate 2 .keyIDOwner) s' ∧ s' = twoMNs) ∧
    (∃ s', (UpdateMNByProTxHash bytesPrimitives 2 ownerClashState).run twoMNs =
      .error (.updateDuplicate 2 .keyIDOwner) s' ∧ s' = twoMNs) ∧
    (∃ s', (UpdateMNByDiff bytesPrimitives (keyedMN 2)
        ⟨StateField.addr.bit ||| StateField.keyIDOwner.bit, ownerClashState⟩).run twoMNs =
      .error (.updateDuplicate 2 .keyIDOwner) s' ∧ s' = twoMNs) ∧
    (∃ s', (RemoveMN bytesPrimitives 7).run twoMNs = .error (.notFound .RemoveMN 7) s' ∧
      s' = twoMNs) := by
  obtain ⟨hadd, hupd, hupdHash, hupdDiff, hrem⟩ := AddMN_UpdateMN_RemoveMN_throw_unchanged bytesPrimitives
  refine ⟨⟨_, rfl, hadd { keyedMN 3 with pdmnState.keyIDOwner := 1 } true twoMNs _ _ rfl⟩,
    ⟨_, rfl, hupd (keyedMN 2) ownerClashState twoMNs _ _ rfl⟩,
    ⟨_, rfl, hupdHash 2 ownerClashState twoMNs _ _ rfl⟩,
    ⟨_, rfl, hupdDiff (keyedMN 2) ⟨StateField.addr.bit ||| StateField.keyIDOwner.bit, ownerClashState⟩
      twoMNs _ _ rfl⟩,
    ⟨_, rfl, hrem 7 twoMNs _ _ rfl⟩⟩

end CDeterministicMNList

end DashCore
