import Mathlib.Data.List.Sort
import DashCore.Evo.MNList
import DashCore.Llmq.Snapshot

/-! The new quarters of rotating quorums (llmq/utils.cpp). `BuildNewQuorumQuarterMembers` picks
each quorum's new quarter from the masternodes of the work block, eight blocks below the cycle's
base block, and stores what it did as a `CQuorumSnapshot`; `GetQuorumQuarterMembersBySnapshot`
picks the quarters again from that snapshot, as a node does that did not build them. Both are
given the work block's list, `GetListForBlock(pWorkBlockIndex)`, and the modifier, the hash of the
LLMQ type and the work block's hash. -/
namespace DashCore

structure LLMQParams where
  size : Nat
  signingActiveQuorumCount : Nat

structure PreviousQuorumQuarters where
  quarterHMinusC : List (List CDeterministicMN)
  quarterHMinus2C : List (List CDeterministicMN)
  quarterHMinus3C : List (List CDeterministicMN)

inductive SnapshotSkipMode where
  | MODE_NO_SKIPPING
  | MODE_SKIPPING_ENTRIES
  | MODE_NO_SKIPPING_ENTRIES
  | MODE_ALL_SKIPPED

def SnapshotSkipMode.toInt32 : SnapshotSkipMode → Int32
  | .MODE_NO_SKIPPING => 0
  | .MODE_SKIPPING_ENTRIES => 1
  | .MODE_NO_SKIPPING_ENTRIES => 2
  | .MODE_ALL_SKIPPED => 3

instance : Inhabited CDeterministicMN :=
  ⟨{ internalId := 0, proTxHash := 0, collateralOutpoint := {}, pdmnState := {} }⟩

/-- `base_blob::operator<`: `memcmp` over the little-endian bytes. -/
def uint256Less (a b : uint256) : Bool :=
  decide (UniqueProperty.Serialize.leBytes a 32 < UniqueProperty.Serialize.leBytes b 32)

def COutPoint.Less (a b : COutPoint) : Bool :=
  uint256Less a.hash b.hash || (a.hash == b.hash && a.n < b.n)

def ScoreLess (a b : uint256 × CDeterministicMN) : Bool :=
  if a.1 = b.1 then a.2.collateralOutpoint.Less b.2.collateralOutpoint else decide (a.1 < b.1)

namespace CDeterministicMNList

def IsMNValid (dmn : CDeterministicMN) : Bool := !dmn.pdmnState.IsBanned

def HasMN (s : CDeterministicMNList) (proTxHash : uint256) : Bool := (s.GetMN proTxHash).isSome

def IsMNPoSeBanned (s : CDeterministicMNList) (proTxHash : uint256) : Bool :=
  match s.GetMN proTxHash with
  | some dmn => dmn.pdmnState.IsBanned
  | none => false

def GetValidMNsCount (s : CDeterministicMNList) : Nat :=
  s.mnMap.entries.countP fun p => IsMNValid p.2

def ForEachMNShared (s : CDeterministicMNList) (onlyValid : Bool) : List CDeterministicMN :=
  (s.mnMap.entries.map (·.2)).filter fun dmn => !onlyValid || IsMNValid dmn

section Scores

variable (ScoreHash : uint256 → uint256 → uint256)

/-- `CalculateScores(modifier, onlyHighPerformanceMasternodes)`: each valid masternode with a
confirmed hash, of the high-performance type where only those count, scored by the SHA-256 of
its `confirmedHashWithProRegTxHash` and the modifier, `ScoreHash`. -/
def CalculateScores (s : CDeterministicMNList) (modifier : uint256)
    (onlyHighPerformanceMasternodes : Bool) : List (uint256 × CDeterministicMN) :=
  (s.ForEachMNShared true).filterMap fun dmn =>
    if dmn.pdmnState.confirmedHash = 0 then none
    else if onlyHighPerformanceMasternodes && dmn.nType != .HighPerformance then none
    else some (ScoreHash dmn.pdmnState.confirmedHashWithProRegTxHash modifier, dmn)

/-- `CalculateQuorum(maxSize, modifier, onlyHighPerformanceMasternodes)`: the `maxSize` highest
scores, highest first. The source sorts the reversed range with `std::sort`; no two masternodes
of a list share a collateral, so every sort gives this order. -/
def CalculateQuorum (s : CDeterministicMNList) (maxSize : Nat) (modifier : uint256)
    (onlyHighPerformanceMasternodes : Bool := false) : List CDeterministicMN :=
  (((s.CalculateScores ScoreHash modifier onlyHighPerformanceMasternodes).insertionSort
    fun a b => ¬ ScoreLess a b).take maxSize).map (·.2)

end Scores

end CDeterministicMNList

open CDeterministicMNList

section Rotation

variable (P : Primitives) (ScoreHash : uint256 → uint256 → uint256)

/-- `try { list.AddMN(dmn); } catch (const std::runtime_error& e) {}`: the list as the call
leaves it. -/
def TryAddMN (dmn : CDeterministicMN) (s : CDeterministicMNList) : CDeterministicMNList :=
  match (AddMN P dmn).run s with
  | .ok _ s' => s'
  | .error _ s' => s'

/-- The body of the loops over quorum `i`'s quarters at H-C, H-2C and H-3C: a masternode gone
from the list (where removed ones are skipped) or PoSe-banned in it is passed over, and any other
goes into `MnsUsedAtH` and `MnsUsedAtHIndexed[i]`. -/
def AddUsedMN (allMns : CDeterministicMNList) (skipRemovedMNs : Bool)
    (lists : CDeterministicMNList × CDeterministicMNList) (mn : CDeterministicMN) :
    CDeterministicMNList × CDeterministicMNList :=
  if skipRemovedMNs && !allMns.HasMN mn.proTxHash then lists
  else if allMns.IsMNPoSeBanned mn.proTxHash then lists
  else (TryAddMN P mn lists.1, TryAddMN P mn lists.2)

/-- `MnsUsedAtH` and `MnsUsedAtHIndexed`, a list for each of the `nQuorums` quorums. -/
def BuildMnsUsedAtH (allMns : CDeterministicMNList) (skipRemovedMNs : Bool)
    (previousQuarters : PreviousQuorumQuarters) (nQuorums : Nat) :
    CDeterministicMNList × List CDeterministicMNList :=
  (List.range nQuorums).foldl (fun (MnsUsedAtH, MnsUsedAtHIndexed) i =>
    let quarters := previousQuarters.quarterHMinusC.getD i [] ++
      previousQuarters.quarterHMinus2C.getD i [] ++ previousQuarters.quarterHMinus3C.getD i []
    let (MnsUsedAtH, usedAtHi) :=
      quarters.foldl (AddUsedMN P allMns skipRemovedMNs) (MnsUsedAtH, {})
    (MnsUsedAtH, MnsUsedAtHIndexed ++ [usedAtHi])) ({}, [])

def BuildMnsNotUsedAtH (allMns MnsUsedAtH : CDeterministicMNList) : CDeterministicMNList :=
  (allMns.ForEachMNShared false).foldl (fun MnsNotUsedAtH dmn =>
    if !MnsUsedAtH.HasMN dmn.proTxHash && !dmn.pdmnState.IsBanned then
      TryAddMN P dmn MnsNotUsedAtH
    else MnsNotUsedAtH) {}

structure QuarterLoopState where
  /-- `MnsUsedAtHIndexed[i]` -/
  used : CDeterministicMNList
  /-- `quarterQuorumMembers[i]` -/
  members : List CDeterministicMN
  idx : Nat
  updated : Bool
  skipList : List Int32
  firstSkippedIndex : Nat

/-- One iteration up to the test for a full turn: the masternode at `idx` joins the quarter, or
its index goes on the skip list, the first one as it is and the later ones relative to it; then
`idx` moves on round the list. -/
def QuarterVisit (sorted : List CDeterministicMN) (st : QuarterLoopState) : QuarterLoopState :=
  let dmn := sorted.getD st.idx default
  let (used, added) :=
    if st.used.HasMN dmn.proTxHash then (st.used, false)
    else match (AddMN P dmn).run st.used with
      | .ok _ used => (used, true)
      | .error _ used => (used, false)
  -- the skips are `size_t` values pushed into a `std::vector<int>`
  let (firstSkippedIndex, skipList) :=
    if added then (st.firstSkippedIndex, st.skipList)
    else if st.firstSkippedIndex = 0 then (st.idx, st.skipList ++ [Int32.ofNat st.idx])
    else (st.firstSkippedIndex,
      st.skipList ++ [Int32.ofInt ((st.idx : Int) - st.firstSkippedIndex)])
  { used, firstSkippedIndex, skipList
    members := if added then st.members ++ [dmn] else st.members
    updated := st.updated || added
    idx := if st.idx + 1 = sorted.length then 0 else st.idx + 1 }

/-- The `while` loop for one quorum, an iteration for each unit of fuel. `none` is the return of
empty quarters after a turn round the list that added nobody; the fuel
`BuildNewQuorumQuarterMembers` gives is more than the loop uses (`QuarterLoop_fuel_add`). -/
def QuarterLoop (sorted : List CDeterministicMN) (quarterSize usedMNsCount initial : Nat) :
    Nat → QuarterLoopState → Option QuarterLoopState
  | 0, _ => none
  | fuel + 1, st =>
    if st.members.length < quarterSize ∧ usedMNsCount + st.members.length < sorted.length then
      let st := QuarterVisit P sorted st
      if st.idx = initial then
        if st.updated then
          QuarterLoop sorted quarterSize usedMNsCount initial fuel { st with updated := false }
        else none
      else QuarterLoop sorted quarterSize usedMNsCount initial fuel st
    else some st

/-- What one visit changes: `idx` moves on round the list, and either a member joins and the turn
is marked updated, or neither. -/
def VisitStep (n : Nat) (st st' : QuarterLoopState) : Prop :=
  st'.idx = (if st.idx + 1 = n then 0 else st.idx + 1) ∧
    ((st'.members.length = st.members.length + 1 ∧ st'.updated = true) ∨
      (st'.members.length = st.members.length ∧ st'.updated = st.updated))

theorem QuarterVisit_step (sorted : List CDeterministicMN) (st : QuarterLoopState) :
    VisitStep sorted.length st (QuarterVisit P sorted st) := by
  simp only [VisitStep, QuarterVisit]
  split
  · simp
  · split <;> simp

theorem VisitStep.idx_lt {n : Nat} {st st' : QuarterLoopState} (h : VisitStep n st st')
    (hidx : st.idx < n) : st'.idx < n := by
  rw [h.1]
  split_ifs <;> omega

def turnLeft (n initial idx : Nat) : Nat :=
  if idx < initial then initial - idx else initial + n - idx

theorem turnLeft_initial (n initial : Nat) : turnLeft n initial initial = n := by
  simp [turnLeft]

theorem turnLeft_step {n initial idx : Nat} (hidx : idx < n) (hinit : initial < n) :
    let idx' := if idx + 1 = n then 0 else idx + 1
    (idx' ≠ initial → turnLeft n initial idx' + 1 = turnLeft n initial idx) ∧
      (idx' = initial → turnLeft n initial idx = 1) := by
  intro idx'
  unfold turnLeft
  constructor <;> intro h <;> by_cases hw : idx + 1 = n <;>
    simp only [idx', hw, if_true, if_false] at h ⊢ <;> split_ifs <;> omega

/-- What is left of the loop: `2n` for each member still missing, `n` while the turn in progress
has added one, and the iterations to the end of the turn. -/
def QuarterLoopState.remaining (st : QuarterLoopState) (quarterSize n initial : Nat) : Nat :=
  (quarterSize - st.members.length) * (2 * n) + (if st.updated then n else 0) +
    turnLeft n initial st.idx

theorem remaining_lt_of_VisitStep {n quarterSize initial : Nat} {st st' : QuarterLoopState}
    (h : VisitStep n st st') (hidx : st.idx < n) (hinit : initial < n)
    (hm : st.members.length < quarterSize) :
    (st'.idx ≠ initial →
        st'.remaining quarterSize n initial < st.remaining quarterSize n initial) ∧
      (st'.idx = initial → st'.updated = true →
        { st' with updated := false }.remaining quarterSize n initial <
          st.remaining quarterSize n initial) := by
  obtain ⟨hidx', hcase⟩ := h
  obtain ⟨hnext, hlast⟩ := turnLeft_step hidx hinit
  rw [← hidx'] at hnext hlast
  obtain ⟨a, ha⟩ : ∃ a, quarterSize - st.members.length = a + 1 :=
    ⟨_, (Nat.succ_pred_eq_of_pos (by omega)).symm⟩
  have hmul : (a + 1) * (2 * n) = a * (2 * n) + 2 * n := Nat.succ_mul _ _
  simp only [QuarterLoopState.remaining]
  rcases hcase with ⟨hlen, hupd⟩ | ⟨hlen, hupd⟩
  · -- a member joined: the `2n` it was missing pays for the rest of the turn
    have ha' : quarterSize - st'.members.length = a := by omega
    rw [ha, ha', hmul, hupd]
    constructor
    · intro hb
      have := hnext hb
      split_ifs <;> omega
    · intro hb _
      rw [hb, turnLeft_initial]
      have := hlast hb
      split_ifs <;> omega
  · rw [hlen, ha, hmul, hupd]
    constructor
    · intro hb
      have := hnext hb
      omega
    · -- a turn ends that had added a member: its `n` pays for the next turn
      intro hb hu
      rw [hb, turnLeft_initial, hu]
      have := hlast hb
      simp only [if_true, Bool.false_eq_true, if_false]
      omega

theorem QuarterLoop_fuel_add (sorted : List CDeterministicMN)
    (quarterSize usedMNsCount initial : Nat) (hinit : initial < sorted.length) :
    ∀ fuel k st, st.idx < sorted.length →
      st.remaining quarterSize sorted.length initial < fuel →
      QuarterLoop P sorted quarterSize usedMNsCount initial (fuel + k) st =
        QuarterLoop P sorted quarterSize usedMNsCount initial fuel st := by
  intro fuel
  induction fuel with
  | zero => intro k st _ h; omega
  | succ fuel ih =>
    intro k st hidx hfuel
    have hstep := QuarterVisit_step P sorted st
    rw [show fuel + 1 + k = fuel + k + 1 by omega]
    simp only [QuarterLoop]
    split_ifs with hloop hb hu
    · have hlt := (remaining_lt_of_VisitStep hstep hidx hinit hloop.1).2 hb hu
      exact ih k _ (hstep.idx_lt hidx) (by omega)
    · rfl
    · have hlt := (remaining_lt_of_VisitStep hstep hidx hinit hloop.1).1 hb
      exact ih k _ (hstep.idx_lt hidx) (by omega)
    · rfl

theorem QuarterLoop_short {sorted : List CDeterministicMN} {quarterSize usedMNsCount initial : Nat} :
    ∀ fuel st st', QuarterLoop P sorted quarterSize usedMNsCount initial fuel st = some st' →
      st'.members.length < quarterSize → sorted.length ≤ usedMNsCount + st'.members.length := by
  intro fuel
  induction fuel with
  | zero => intro st st' h; simp [QuarterLoop] at h
  | succ fuel ih =>
    intro st st' h hshort
    simp only [QuarterLoop] at h
    split_ifs at h with hloop hb hu
    · exact ih _ _ h hshort
    · exact ih _ _ h hshort
    · cases h
      omega

/-- More iterations than the loop of one quorum makes: each adds a member or moves `idx` on, and
a turn round the list that adds nobody ends it. -/
def quarterLoopFuel (quarterSize n : Nat) : Nat := (2 * quarterSize + 1) * n + 1

theorem QuarterLoop_quarterLoopFuel {sorted : List CDeterministicMN}
    {quarterSize usedMNsCount : Nat} {st : QuarterLoopState} (hidx : st.idx < sorted.length)
    (hm : st.members = []) (hu : st.updated = false) (k : Nat) :
    QuarterLoop P sorted quarterSize usedMNsCount st.idx
        (quarterLoopFuel quarterSize sorted.length + k) st =
      QuarterLoop P sorted quarterSize usedMNsCount st.idx
        (quarterLoopFuel quarterSize sorted.length) st := by
  apply QuarterLoop_fuel_add P sorted quarterSize usedMNsCount st.idx hidx _ k st hidx
  have hfuel : (2 * quarterSize + 1) * sorted.length =
      quarterSize * (2 * sorted.length) + sorted.length := by
    rw [Nat.add_mul, Nat.one_mul, Nat.mul_assoc, Nat.mul_left_comm]
  simp only [QuarterLoopState.remaining, quarterLoopFuel, hm, hu, turnLeft_initial, hfuel,
    List.length_nil, Nat.sub_zero, Bool.false_eq_true, if_false]
  omega

/-- The `for` loop over the quorums: `idx` and the skip list run on from one quorum to the next,
and `none` is the early return of empty quarters. -/
def NewQuarters (sorted : List CDeterministicMN) (quarterSize : Nat) :
    List CDeterministicMNList → QuarterLoopState →
      Option (List (List CDeterministicMN) × QuarterLoopState)
  | [], st => some ([], st)
  | usedAtHi :: MnsUsedAtHIndexed, st =>
    match QuarterLoop P sorted quarterSize usedAtHi.GetAllMNsCount st.idx
        (quarterLoopFuel quarterSize sorted.length)
        { st with used := usedAtHi, members := [], updated := false } with
    | none => none
    | some st =>
      (NewQuarters sorted quarterSize MnsUsedAtHIndexed st).map fun (quarters, st') =>
        (st.members :: quarters, st')

def BuildQuorumSnapshot (allMns mnUsedAtH : CDeterministicMNList) (modifier : uint256)
    (skipList : List Int32) : CQuorumSnapshot :=
  let sortedAllMns := allMns.CalculateQuorum ScoreHash allMns.GetAllMNsCount modifier
  let activeQuorumMembers := (List.range allMns.GetAllMNsCount).map fun index =>
    match sortedAllMns[index]? with
    | some dmn => mnUsedAtH.HasMN dmn.proTxHash
    | none => false
  if skipList.isEmpty then
    { activeQuorumMembers, mnSkipListMode := SnapshotSkipMode.MODE_NO_SKIPPING.toInt32 }
  else
    { activeQuorumMembers, mnSkipListMode := SnapshotSkipMode.MODE_SKIPPING_ENTRIES.toInt32,
      mnSkipList := skipList }

/-- `BuildNewQuorumQuarterMembers`: the new quarter of each quorum, and the snapshot it stores for
the base block; none is stored where it returns empty quarters early. -/
def BuildNewQuorumQuarterMembers (llmqParams : LLMQParams) (allMns : CDeterministicMNList)
    (modifier : uint256) (skipRemovedMNs : Bool) (previousQuarters : PreviousQuorumQuarters) :
    List (List CDeterministicMN) × Option CQuorumSnapshot :=
  let nQuorums := llmqParams.signingActiveQuorumCount
  let quarterSize := llmqParams.size / 4
  if allMns.GetValidMNsCount < quarterSize then (List.replicate nQuorums [], none)
  else
    let (MnsUsedAtH, MnsUsedAtHIndexed) :=
      BuildMnsUsedAtH P allMns skipRemovedMNs previousQuarters nQuorums
    let MnsNotUsedAtH := BuildMnsNotUsedAtH P allMns MnsUsedAtH
    let sortedCombinedMnsList :=
      MnsNotUsedAtH.CalculateQuorum ScoreHash MnsNotUsedAtH.GetAllMNsCount modifier ++
        MnsUsedAtH.CalculateQuorum ScoreHash MnsUsedAtH.GetAllMNsCount modifier
    match NewQuarters P sortedCombinedMnsList quarterSize MnsUsedAtHIndexed
        ⟨{}, [], 0, false, [], 0⟩ with
    | none => (List.replicate nQuorums [], none)
    | some (quarterQuorumMembers, st) =>
      (quarterQuorumMembers,
        some (BuildQuorumSnapshot ScoreHash allMns MnsUsedAtH modifier st.skipList))

/-- `GetMNUsageBySnapshot`: the masternodes the snapshot marks active, and the unbanned rest. -/
def GetMNUsageBySnapshot (allMns : CDeterministicMNList) (modifier : uint256)
    (snapshot : CQuorumSnapshot) : CDeterministicMNList × CDeterministicMNList :=
  let sortedAllMns := allMns.CalculateQuorum ScoreHash allMns.GetAllMNsCount modifier
  sortedAllMns.zipIdx.foldl (fun (usedMNs, nonUsedMNs) (dmn, i) =>
    if snapshot.activeQuorumMembers.getD i false then (TryAddMN P dmn usedMNs, nonUsedMNs)
    else if !dmn.pdmnState.IsBanned then (usedMNs, TryAddMN P dmn nonUsedMNs)
    else (usedMNs, nonUsedMNs)) ({}, {})

/-- `MODE_NO_SKIPPING` for one quorum: `n` masternodes from `itm` on, round the list. -/
def TakeRound (sorted : List CDeterministicMN) : Nat → Nat → List CDeterministicMN × Nat
  | 0, itm => ([], itm)
  | n + 1, itm =>
    let (quarter, itm') := TakeRound sorted n (if itm + 1 = sorted.length then 0 else itm + 1)
    (sorted.getD itm default :: quarter, itm')

def QuartersNoSkipping (sorted : List CDeterministicMN) (quarterSize : Nat) :
    Nat → Nat → List (List CDeterministicMN)
  | 0, _ => []
  | numQuorums + 1, itm =>
    let (quarter, itm) := TakeRound sorted quarterSize itm
    quarter :: QuartersNoSkipping sorted quarterSize numQuorums itm

/-- The skip list back in absolute indexes: the first entry is one, and the later ones are
relative to it. The `size_t` sums are pushed as `int`, which keeps their low 32 bits. -/
def ProcessSkipList (mnSkipList : List Int32) : List Int32 :=
  (mnSkipList.foldl (fun (first_entry_index, processed) s =>
    if first_entry_index = 0 then (s, processed ++ [s])
    else (first_entry_index, processed ++ [first_entry_index + s])) ((0 : Int32), [])).2

def PassSkipped (n : Nat) : Nat → List Int32 → Nat × List Int32
  | idx, s :: skips =>
    if (idx : Int) = s.toInt then PassSkipped n (if idx + 1 = n then 0 else idx + 1) skips
    else (idx, s :: skips)
  | idx, [] => (idx, [])

/-- `MODE_SKIPPING_ENTRIES` for one quorum: the loop either passes over the entry the skip list
names next or takes it; here the entries passed over before each one taken are passed together. -/
def TakeRoundSkipping (sorted : List CDeterministicMN) :
    Nat → Nat → List Int32 → List CDeterministicMN × Nat × List Int32
  | 0, idx, skips => ([], idx, skips)
  | n + 1, idx, skips =>
    let (idx, skips) := PassSkipped sorted.length idx skips
    let (quarter, idx', skips') :=
      TakeRoundSkipping sorted n (if idx + 1 = sorted.length then 0 else idx + 1) skips
    (sorted.getD idx default :: quarter, idx', skips')

def QuartersSkipping (sorted : List CDeterministicMN) (quarterSize : Nat) :
    Nat → Nat → List Int32 → List (List CDeterministicMN)
  | 0, _, _ => []
  | numQuorums + 1, idx, skips =>
    let (quarter, idx, skips) := TakeRoundSkipping sorted quarterSize idx skips
    quarter :: QuartersSkipping sorted quarterSize numQuorums idx skips

/-- The list `GetQuorumQuarterMembersBySnapshot` takes the quarters from: the masternodes the
snapshot marks unused, then the used ones, each part by score. -/
def SortedCombinedMnsBySnapshot (allMns : CDeterministicMNList) (modifier : uint256)
    (snapshot : CQuorumSnapshot) : List CDeterministicMN :=
  let (MnsUsedAtH, MnsNotUsedAtH) := GetMNUsageBySnapshot P ScoreHash allMns modifier snapshot
  MnsNotUsedAtH.CalculateQuorum ScoreHash MnsNotUsedAtH.GetAllMNsCount modifier ++
    MnsUsedAtH.CalculateQuorum ScoreHash MnsUsedAtH.GetAllMNsCount modifier

/-- `GetQuorumQuarterMembersBySnapshot`: the quarters again, from the list of the work block and
the snapshot. -/
def GetQuorumQuarterMembersBySnapshot (llmqParams : LLMQParams) (allMns : CDeterministicMNList)
    (modifier : uint256) (snapshot : CQuorumSnapshot) : List (List CDeterministicMN) :=
  let sortedCombinedMns := SortedCombinedMnsBySnapshot P ScoreHash allMns modifier snapshot
  let numQuorums := llmqParams.signingActiveQuorumCount
  let quarterSize := llmqParams.size / 4
  if sortedCombinedMns.isEmpty then List.replicate numQuorums []
  else if snapshot.mnSkipListMode = SnapshotSkipMode.MODE_NO_SKIPPING.toInt32 then
    QuartersNoSkipping sortedCombinedMns quarterSize numQuorums 0
  else if snapshot.mnSkipListMode = SnapshotSkipMode.MODE_SKIPPING_ENTRIES.toInt32 then
    QuartersSkipping sortedCombinedMns quarterSize numQuorums 0
      (ProcessSkipList snapshot.mnSkipList)
  else List.replicate numQuorums []

/-- A cycle before the one being built: the snapshot stored for its base block, if any, and the
list and modifier of its work block. -/
structure PastCycle where
  snapshot : Option CQuorumSnapshot
  allMns : CDeterministicMNList
  modifier : uint256

/-- `GetPreviousQuorumQuarterMembers`: the quarters of the cycles at H-C, H-2C and H-3C from their
snapshots; the search stops at the first cycle without one. -/
def GetPreviousQuorumQuarterMembers (llmqParams : LLMQParams)
    (hMinusC hMinus2C hMinus3C : PastCycle) : PreviousQuorumQuarters :=
  let empty := List.replicate llmqParams.signingActiveQuorumCount []
  let bySnapshot (c : PastCycle) (snapshot : CQuorumSnapshot) :=
    GetQuorumQuarterMembersBySnapshot P ScoreHash llmqParams c.allMns c.modifier snapshot
  match hMinusC.snapshot, hMinus2C.snapshot, hMinus3C.snapshot with
  | none, _, _ => ⟨empty, empty, empty⟩
  | some s, none, _ => ⟨bySnapshot hMinusC s, empty, empty⟩
  | some s, some s2, none => ⟨bySnapshot hMinusC s, bySnapshot hMinus2C s2, empty⟩
  | some s, some s2, some s3 =>
    ⟨bySnapshot hMinusC s, bySnapshot hMinus2C s2, bySnapshot hMinus3C s3⟩

/-- `ComputeQuorumMembersByQuarterRotation`: each quorum's members, its quarters at H-3C, H-2C and
H-C and then its new quarter. -/
def ComputeQuorumMembersByQuarterRotation (llmqParams : LLMQParams)
    (allMns : CDeterministicMNList) (modifier : uint256) (skipRemovedMNs : Bool)
    (hMinusC hMinus2C hMinus3C : PastCycle) : List (List CDeterministicMN) :=
  let previousQuarters := GetPreviousQuorumQuarterMembers P ScoreHash llmqParams hMinusC hMinus2C
    hMinus3C
  let newQuarterMembers := (BuildNewQuorumQuarterMembers P ScoreHash llmqParams allMns modifier
    skipRemovedMNs previousQuarters).1
  (List.range llmqParams.signingActiveQuorumCount).map fun i =>
    previousQuarters.quarterHMinus3C.getD i [] ++ previousQuarters.quarterHMinus2C.getD i [] ++
      previousQuarters.quarterHMinusC.getD i [] ++ newQuarterMembers.getD i []

theorem length_TakeRound {sorted : List CDeterministicMN} (n itm : Nat) :
    (TakeRound sorted n itm).1.length = n := by
  induction n generalizing itm with
  | zero => rfl
  | succ n ih => simp [TakeRound, ih]

theorem length_TakeRoundSkipping {sorted : List CDeterministicMN} (n idx : Nat)
    (skips : List Int32) : (TakeRoundSkipping sorted n idx skips).1.length = n := by
  induction n generalizing idx skips with
  | zero => rfl
  | succ n ih => simp [TakeRoundSkipping, ih]

theorem length_of_mem_QuartersNoSkipping {sorted q : List CDeterministicMN}
    {quarterSize numQuorums itm : Nat} (h : q ∈ QuartersNoSkipping sorted quarterSize numQuorums itm) :
    q.length = quarterSize := by
  induction numQuorums generalizing itm with
  | zero => simp [QuartersNoSkipping] at h
  | succ k ih =>
    simp only [QuartersNoSkipping, List.mem_cons] at h
    rcases h with rfl | h
    · exact length_TakeRound _ _
    · exact ih h

theorem length_of_mem_QuartersSkipping {sorted q : List CDeterministicMN}
    {quarterSize numQuorums idx : Nat} {skips : List Int32}
    (h : q ∈ QuartersSkipping sorted quarterSize numQuorums idx skips) :
    q.length = quarterSize := by
  induction numQuorums generalizing idx skips with
  | zero => simp [QuartersSkipping] at h
  | succ k ih =>
    simp only [QuartersSkipping, List.mem_cons] at h
    rcases h with rfl | h
    · exact length_TakeRoundSkipping _ _ _
    · exact ih h

theorem TakeRound_succ (sorted : List CDeterministicMN) (n itm : Nat) :
    TakeRound sorted (n + 1) itm =
      let next := if itm + 1 = sorted.length then 0 else itm + 1
      (sorted.getD itm default :: (TakeRound sorted n next).1, (TakeRound sorted n next).2) := rfl

theorem TakeRoundSkipping_succ (sorted : List CDeterministicMN) (n idx : Nat) (skips : List Int32) :
    TakeRoundSkipping sorted (n + 1) idx skips =
      let p := PassSkipped sorted.length idx skips
      let next := if p.1 + 1 = sorted.length then 0 else p.1 + 1
      (sorted.getD p.1 default :: (TakeRoundSkipping sorted n next p.2).1,
        (TakeRoundSkipping sorted n next p.2).2) := rfl

theorem getD_mem {sorted : List CDeterministicMN} {i : Nat} (h : i < sorted.length) :
    sorted.getD i default ∈ sorted := by
  rw [List.getD_eq_getElem _ _ h]
  exact List.getElem_mem h

theorem next_lt {n i : Nat} (h : i < n) : (if i + 1 = n then 0 else i + 1) < n := by
  split_ifs <;> omega

theorem PassSkipped_lt {n idx : Nat} {skips : List Int32} (h : idx < n) :
    (PassSkipped n idx skips).1 < n := by
  induction skips generalizing idx with
  | nil => exact h
  | cons s skips ih =>
    by_cases hs : (idx : Int) = s.toInt
    · rw [PassSkipped, if_pos hs]
      exact ih (next_lt h)
    · rw [PassSkipped, if_neg hs]
      exact h

theorem TakeRound_mem {sorted : List CDeterministicMN} {n itm : Nat} (hitm : itm < sorted.length) :
    (∀ x ∈ (TakeRound sorted n itm).1, x ∈ sorted) ∧ (TakeRound sorted n itm).2 < sorted.length := by
  induction n generalizing itm with
  | zero => exact ⟨by simp [TakeRound], hitm⟩
  | succ n ih =>
    obtain ⟨hmem, hlt⟩ := ih (next_lt hitm)
    refine ⟨?_, hlt⟩
    intro x hx
    rw [TakeRound_succ, List.mem_cons] at hx
    rcases hx with rfl | hx
    · exact getD_mem hitm
    · exact hmem x hx

theorem TakeRoundSkipping_mem {sorted : List CDeterministicMN} {n idx : Nat} {skips : List Int32}
    (hidx : idx < sorted.length) :
    (∀ x ∈ (TakeRoundSkipping sorted n idx skips).1, x ∈ sorted) ∧
      (TakeRoundSkipping sorted n idx skips).2.1 < sorted.length := by
  induction n generalizing idx skips with
  | zero => exact ⟨by simp [TakeRoundSkipping], hidx⟩
  | succ n ih =>
    have hpass := @PassSkipped_lt sorted.length idx skips hidx
    obtain ⟨hmem, hlt⟩ := @ih _ (PassSkipped sorted.length idx skips).2 (next_lt hpass)
    refine ⟨?_, hlt⟩
    intro x hx
    rw [TakeRoundSkipping_succ, List.mem_cons] at hx
    rcases hx with rfl | hx
    · exact getD_mem hpass
    · exact hmem x hx

theorem QuartersNoSkipping_succ (sorted : List CDeterministicMN) (quarterSize k itm : Nat) :
    QuartersNoSkipping sorted quarterSize (k + 1) itm =
      (TakeRound sorted quarterSize itm).1 ::
        QuartersNoSkipping sorted quarterSize k (TakeRound sorted quarterSize itm).2 := rfl

theorem QuartersSkipping_succ (sorted : List CDeterministicMN) (quarterSize k idx : Nat)
    (skips : List Int32) :
    QuartersSkipping sorted quarterSize (k + 1) idx skips =
      (TakeRoundSkipping sorted quarterSize idx skips).1 ::
        QuartersSkipping sorted quarterSize k (TakeRoundSkipping sorted quarterSize idx skips).2.1
          (TakeRoundSkipping sorted quarterSize idx skips).2.2 := rfl

theorem QuartersNoSkipping_mem {sorted : List CDeterministicMN} {quarterSize k itm : Nat}
    (hitm : itm < sorted.length) :
    (QuartersNoSkipping sorted quarterSize k itm).length = k ∧
      ∀ q ∈ QuartersNoSkipping sorted quarterSize k itm, ∀ x ∈ q, x ∈ sorted := by
  induction k generalizing itm with
  | zero => simp [QuartersNoSkipping]
  | succ k ih =>
    obtain ⟨hmem, hlt⟩ := @TakeRound_mem sorted quarterSize itm hitm
    obtain ⟨hlen, hrest⟩ := ih hlt
    rw [QuartersNoSkipping_succ]
    refine ⟨by rw [List.length_cons, hlen], ?_⟩
    intro q hq x hx
    rcases List.mem_cons.mp hq with rfl | hq
    · exact hmem x hx
    · exact hrest q hq x hx

theorem QuartersSkipping_mem {sorted : List CDeterministicMN} {quarterSize k idx : Nat}
    {skips : List Int32} (hidx : idx < sorted.length) :
    (QuartersSkipping sorted quarterSize k idx skips).length = k ∧
      ∀ q ∈ QuartersSkipping sorted quarterSize k idx skips, ∀ x ∈ q, x ∈ sorted := by
  induction k generalizing idx skips with
  | zero => simp [QuartersSkipping]
  | succ k ih =>
    obtain ⟨hmem, hlt⟩ := @TakeRoundSkipping_mem sorted quarterSize idx skips hidx
    obtain ⟨hlen, hrest⟩ := @ih _ (TakeRoundSkipping sorted quarterSize idx skips).2.2 hlt
    rw [QuartersSkipping_succ]
    refine ⟨by rw [List.length_cons, hlen], ?_⟩
    intro q hq x hx
    rcases List.mem_cons.mp hq with rfl | hq
    · exact hmem x hx
    · exact hrest q hq x hx

theorem GetQuorumQuarterMembersBySnapshot_quarters (llmqParams : LLMQParams)
    (allMns : CDeterministicMNList) (modifier : uint256) (snapshot : CQuorumSnapshot)
    (hmode : snapshot.mnSkipListMode = SnapshotSkipMode.MODE_NO_SKIPPING.toInt32 ∨
      snapshot.mnSkipListMode = SnapshotSkipMode.MODE_SKIPPING_ENTRIES.toInt32)
    (hpos : 0 < (SortedCombinedMnsBySnapshot P ScoreHash allMns modifier snapshot).length) :
    (GetQuorumQuarterMembersBySnapshot P ScoreHash llmqParams allMns modifier snapshot).length =
        llmqParams.signingActiveQuorumCount ∧
      ∀ q ∈ GetQuorumQuarterMembersBySnapshot P ScoreHash llmqParams allMns modifier snapshot,
        q.length = llmqParams.size / 4 ∧
          ∀ x ∈ q, x ∈ SortedCombinedMnsBySnapshot P ScoreHash allMns modifier snapshot := by
  have hne : (SortedCombinedMnsBySnapshot P ScoreHash allMns modifier snapshot).isEmpty = false := by
    rw [List.isEmpty_eq_false_iff_exists_mem]
    exact ⟨_, List.getElem_mem hpos⟩
  simp only [GetQuorumQuarterMembersBySnapshot, hne, Bool.false_eq_true, if_false]
  rcases hmode with h0 | h1
  · rw [if_pos h0]
    obtain ⟨hlen, hmem⟩ := @QuartersNoSkipping_mem _ (llmqParams.size / 4)
      llmqParams.signingActiveQuorumCount 0 hpos
    exact ⟨hlen, fun q hq => ⟨length_of_mem_QuartersNoSkipping hq, hmem q hq⟩⟩
  · rw [if_neg (by rw [h1]; decide), if_pos h1]
    obtain ⟨hlen, hmem⟩ := @QuartersSkipping_mem _ (llmqParams.size / 4)
      llmqParams.signingActiveQuorumCount 0 (ProcessSkipList snapshot.mnSkipList) hpos
    exact ⟨hlen, fun q hq => ⟨length_of_mem_QuartersSkipping hq, hmem q hq⟩⟩

theorem GetPreviousQuorumQuarterMembers_quarterHMinusC (llmqParams : LLMQParams)
    (hMinusC hMinus2C hMinus3C : PastCycle) {snapshot : CQuorumSnapshot}
    (hsnap : hMinusC.snapshot = some snapshot) :
    (GetPreviousQuorumQuarterMembers P ScoreHash llmqParams hMinusC hMinus2C hMinus3C).quarterHMinusC =
      GetQuorumQuarterMembersBySnapshot P ScoreHash llmqParams hMinusC.allMns hMinusC.modifier
        snapshot := by
  unfold GetPreviousQuorumQuarterMembers
  rw [hsnap]
  cases hMinus2C.snapshot <;> cases hMinus3C.snapshot <;> rfl

/-- Where the list the H-C snapshot is read against holds fewer masternodes than a quarter, the
H-C quarter of each quorum goes round it more than once, and each quorum has a masternode twice. -/
theorem ComputeQuorumMembersByQuarterRotation_repeats_member (llmqParams : LLMQParams)
    (allMns : CDeterministicMNList) (modifier : uint256) (skipRemovedMNs : Bool)
    (hMinusC hMinus2C hMinus3C : PastCycle) (snapshot : CQuorumSnapshot)
    (hsnap : hMinusC.snapshot = some snapshot)
    (hmode : snapshot.mnSkipListMode = SnapshotSkipMode.MODE_NO_SKIPPING.toInt32 ∨
      snapshot.mnSkipListMode = SnapshotSkipMode.MODE_SKIPPING_ENTRIES.toInt32)
    (hpos : 0 < (SortedCombinedMnsBySnapshot P ScoreHash hMinusC.allMns hMinusC.modifier
      snapshot).length)
    (hlt : (SortedCombinedMnsBySnapshot P ScoreHash hMinusC.allMns hMinusC.modifier
      snapshot).length < llmqParams.size / 4)
    (i : Nat) (hi : i < llmqParams.signingActiveQuorumCount) :
    ¬ (((ComputeQuorumMembersByQuarterRotation P ScoreHash llmqParams allMns modifier
      skipRemovedMNs hMinusC hMinus2C hMinus3C).getD i []).map (·.proTxHash)).Nodup := by
  intro hnodup
  obtain ⟨hlenC, hquarters⟩ := GetQuorumQuarterMembersBySnapshot_quarters P ScoreHash llmqParams
    hMinusC.allMns hMinusC.modifier snapshot hmode hpos
  set quartersC := GetQuorumQuarterMembersBySnapshot P ScoreHash llmqParams hMinusC.allMns
    hMinusC.modifier snapshot
  have hq : quartersC.getD i [] ∈ quartersC := by
    rw [List.getD_eq_getElem _ _ (by omega)]
    exact List.getElem_mem _
  obtain ⟨hqlen, hqmem⟩ := hquarters _ hq
  have hsub : List.Sublist ((quartersC.getD i []).map (·.proTxHash))
      (((ComputeQuorumMembersByQuarterRotation P ScoreHash llmqParams allMns modifier
        skipRemovedMNs hMinusC hMinus2C hMinus3C).getD i []).map (·.proTxHash)) := by
    simp only [ComputeQuorumMembersByQuarterRotation, List.getD_eq_getElem?_getD,
      List.getElem?_map, List.getElem?_range hi, Option.map_some, Option.getD_some,
      GetPreviousQuorumQuarterMembers_quarterHMinusC P ScoreHash llmqParams hMinusC hMinus2C
        hMinus3C hsnap]
    exact List.Sublist.map _ ((List.sublist_append_right _ _).trans (List.sublist_append_left _ _))
  have hsubset : (quartersC.getD i []).map (·.proTxHash) ⊆
      (SortedCombinedMnsBySnapshot P ScoreHash hMinusC.allMns hMinusC.modifier snapshot).map
        (·.proTxHash) := by
    intro h hh
    obtain ⟨x, hx, rfl⟩ := List.mem_map.mp hh
    exact List.mem_map_of_mem (hqmem x hx)
  have hle := (List.subperm_of_subset (hnodup.sublist hsub) hsubset).length_le
  rw [List.length_map, List.length_map, hqlen] at hle
  omega

theorem GetQuorumQuarterMembersBySnapshot_full_or_empty (llmqParams : LLMQParams)
    (allMns : CDeterministicMNList) (modifier : uint256) (snapshot : CQuorumSnapshot) :
    (∀ q ∈ GetQuorumQuarterMembersBySnapshot P ScoreHash llmqParams allMns modifier snapshot,
        q.length = llmqParams.size / 4) ∨
      ∀ q ∈ GetQuorumQuarterMembersBySnapshot P ScoreHash llmqParams allMns modifier snapshot,
        q = [] := by
  simp only [GetQuorumQuarterMembersBySnapshot]
  split_ifs
  · exact .inr fun q hq => List.eq_of_mem_replicate hq
  · exact .inl fun q hq => length_of_mem_QuartersNoSkipping hq
  · exact .inl fun q hq => length_of_mem_QuartersSkipping hq
  · exact .inr fun q hq => List.eq_of_mem_replicate hq

/-- The quarters a snapshot gives never hold one with members but fewer than `quarterSize`, so by
proTxHash they differ from all quarters that do. `BuildNewQuorumQuarterMembers` returns such
quarters where a quorum's loop stops on the masternodes the quorum used before
(`QuarterLoop_short`), a test the loop that rebuilds them lacks. -/
theorem GetQuorumQuarterMembersBySnapshot_ne_short_quarters (llmqParams : LLMQParams)
    (allMns : CDeterministicMNList) (modifier : uint256) (snapshot : CQuorumSnapshot)
    (quarters : List (List CDeterministicMN))
    (hshort : ∃ q ∈ quarters, 0 < q.length ∧ q.length < llmqParams.size / 4) :
    (GetQuorumQuarterMembersBySnapshot P ScoreHash llmqParams allMns modifier snapshot).map
        (·.map (·.proTxHash)) ≠ quarters.map (·.map (·.proTxHash)) := by
  intro heq
  obtain ⟨q, hq, hpos, hlt⟩ := hshort
  have hmem : q.map (·.proTxHash) ∈
      (GetQuorumQuarterMembersBySnapshot P ScoreHash llmqParams allMns modifier snapshot).map
        (·.map (·.proTxHash)) := by
    rw [heq]
    exact List.mem_map_of_mem hq
  obtain ⟨q', hq', hqq⟩ := List.mem_map.mp hmem
  have hlen : q'.length = q.length := by simpa using congrArg List.length hqq
  rcases GetQuorumQuarterMembersBySnapshot_full_or_empty P ScoreHash llmqParams allMns modifier
    snapshot with hfull | hempty
  · have := hfull q' hq'
    omega
  · rw [hempty q' hq', List.length_nil] at hlen
    omega

end Rotation

def rotationMN (k : Nat) : CDeterministicMN :=
  { internalId := UInt64.ofNat k, proTxHash := BitVec.ofNat 256 k,
    collateralOutpoint := ⟨0, UInt32.ofNat k⟩,
    pdmnState := { keyIDOwner := BitVec.ofNat 160 k, confirmedHash := 1,
                   confirmedHashWithProRegTxHash := BitVec.ofNat 256 k } }

def threeMns : CDeterministicMNList :=
  [rotationMN 3, rotationMN 2, rotationMN 1].foldl (fun s dmn => TryAddMN bytesPrimitives dmn s) {}

/-- One quorum of size 8, whose quarter at H-C held masternodes 3 and 2 of three: the new quarter
is masternode 1 alone, and the snapshot gives it masternode 3 as well. -/
theorem GetQuorumQuarterMembersBySnapshot_differs_on_three_mns :
    BuildNewQuorumQuarterMembers bytesPrimitives (fun h _ => h) ⟨8, 1⟩ threeMns 0 true
        ⟨[[rotationMN 3, rotationMN 2]], [[]], [[]]⟩ =
      ([[rotationMN 1]], some { activeQuorumMembers := [true, true, false] }) ∧
    GetQuorumQuarterMembersBySnapshot bytesPrimitives (fun h _ => h) ⟨8, 1⟩ threeMns 0
        { activeQuorumMembers := [true, true, false] } = [[rotationMN 1, rotationMN 3]] ∧
    (GetQuorumQuarterMembersBySnapshot bytesPrimitives (fun h _ => h) ⟨8, 1⟩ threeMns 0
        { activeQuorumMembers := [true, true, false] }).map (·.map (·.proTxHash)) ≠
      [[rotationMN 1]].map (·.map (·.proTxHash)) := by
  have hbuild : BuildNewQuorumQuarterMembers bytesPrimitives (fun h _ => h) ⟨8, 1⟩ threeMns 0 true
      ⟨[[rotationMN 3, rotationMN 2]], [[]], [[]]⟩ =
      ([[rotationMN 1]], some { activeQuorumMembers := [true, true, false] }) := by
    decide +kernel
  refine ⟨hbuild, by decide +kernel, ?_⟩
  exact GetQuorumQuarterMembersBySnapshot_ne_short_quarters _ _ _ _ _ _ _
    ⟨_, List.mem_singleton_self _, by decide, by decide⟩

/-- Masternode 1, confirmed, and masternode 2, registered in the work block and not yet confirmed. -/
def oneConfirmedOfTwo : CDeterministicMNList :=
  [rotationMN 1, { rotationMN 2 with pdmnState := { (rotationMN 2).pdmnState with confirmedHash := 0 } }].foldl
    (fun s dmn => TryAddMN bytesPrimitives dmn s) {}

/-- A cycle at H-C built one quorum of size 8 from a list of two valid masternodes, one of them
unconfirmed: its quarter is masternode 1 alone. Read back a cycle later, that quarter is masternode
1 twice. -/
theorem ComputeQuorumMembersByQuarterRotation_repeats_member_after_short_cycle :
    BuildNewQuorumQuarterMembers bytesPrimitives (fun h _ => h) ⟨8, 1⟩ oneConfirmedOfTwo 0 true
        ⟨[[]], [[]], [[]]⟩ =
      ([[rotationMN 1]], some { activeQuorumMembers := [false, false] }) ∧
    ¬ (((ComputeQuorumMembersByQuarterRotation bytesPrimitives (fun h _ => h) ⟨8, 1⟩
      oneConfirmedOfTwo 0 true ⟨some { activeQuorumMembers := [false, false] }, oneConfirmedOfTwo, 0⟩
      ⟨none, {}, 0⟩ ⟨none, {}, 0⟩).getD 0 []).map (·.proTxHash)).Nodup :=
  ⟨by decide +kernel,
    ComputeQuorumMembersByQuarterRotation_repeats_member _ _ _ _ _ _ _ _ _ _ rfl (.inl rfl)
      (by decide +kernel) (by decide +kernel) 0 (by decide)⟩

end DashCore
