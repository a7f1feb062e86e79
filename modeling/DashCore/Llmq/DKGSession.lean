import DashCore.Evo.Types
import Mathlib.Data.Finset.Card
import DashCore.Lib.Rollback

/-! The checks a DKG session makes of a complaint and of a justification before it processes
them (llmq/dkgsession.cpp). `PreVerifyMessage` does the cheap checks of a message and
`ReceiveMessage` then indexes the session's vectors with what the message carries: the bits of
a complaint by member position, and the members by the contribution indices of a
justification. An index outside its vector is undefined behaviour in the source; the model
reports it as a fault. The BLS checks and the share verification are parameters. -/
namespace DashCore

/-- A use of `operator[]` outside its vector. -/
inductive DKGFault where
  | outOfBounds (vector : String) (idx : Nat)
  /-- A dereference of the null `GetMember` result. -/
  | nullMember
deriving DecidableEq, Repr

def vecAt {α : Type} (vector : String) (v : List α) (i : Nat) : Except DKGFault α :=
  match v[i]? with
  | some a => .ok a
  | none => .error (.outOfBounds vector i)

structure DKGCrypto where
  /-- `CBLSSecretKey::IsValid()`. -/
  SkIsValid : BitVec 256 → Bool
  /-- `AsyncVerifyContributionShare(id, vvec, skContribution)`: whether the share matches the
  verification vector at the member's id. -/
  VerifyContributionShare : uint256 → List (BitVec 384) → BitVec 256 → Bool
  /-- `::SerializeHash` of a complaint and of a justification, as the sets of a member hold them. -/
  ComplaintHash : uint256 → List Bool → List Bool → uint256
  JustificationHash : uint256 → List (Nat × BitVec 256) → uint256

/-- `CDKGMember`: the messages received from a member and what the session concluded of it.
Its `id` is its proTxHash; its `idx` is its position in the session's members. -/
structure CDKGMember where
  proTxHash : uint256
  complaints : Finset uint256 := ∅
  justifications : Finset uint256 := ∅
  badMemberVotes : Finset uint256 := ∅
  complaintsFromOthers : Finset uint256 := ∅
  bad : Bool := false
  weComplain : Bool := false
  someoneComplain : Bool := false
deriving DecidableEq

structure CDKGComplaint where
  quorumHash : uint256
  proTxHash : uint256
  badMembers : List Bool
  complainForMembers : List Bool

/-- A `CDKGJustification`: for each member it justifies for, the member's index and the secret
key share it sent to it. -/
structure CDKGJustification where
  quorumHash : uint256
  proTxHash : uint256
  contributions : List (Nat × BitVec 256)

structure CDKGSession where
  /-- `params.size`. -/
  size : Nat
  /-- `m_quorum_base_block_index->GetBlockHash()`. -/
  quorumHash : uint256
  members : List CDKGMember
  myIdx : Option Nat
  receivedVvecs : List (List (BitVec 384))
  receivedSkContributions : List (BitVec 256)
deriving DecidableEq

namespace CDKGSession

/-- `Init(pQuorumBaseBlockIndex, mns, myProTxHash, quorumIndex)`: one member per masternode,
the received vectors sized to the members, and our index if we are one of them. -/
def Init (size : Nat) (quorumHash : uint256) (mns : List uint256) (myProTxHash : uint256) :
    CDKGSession where
  size := size
  quorumHash := quorumHash
  members := mns.map fun h => { proTxHash := h }
  myIdx := if myProTxHash = 0 then none else mns.findIdx? (· = myProTxHash)
  receivedVvecs := List.replicate mns.length []
  receivedSkContributions := List.replicate mns.length 0

def GetMember (s : CDKGSession) (proTxHash : uint256) : Option Nat :=
  s.members.findIdx? (·.proTxHash = proTxHash)

def modifyMember (s : CDKGSession) (i : Nat) (f : CDKGMember → CDKGMember) : CDKGSession :=
  { s with members := s.members.modify i f }

def MarkBadMember (s : CDKGSession) (i : Nat) : CDKGSession :=
  s.modifyMember i fun m => { m with bad := true }

/-- The loop of `PreVerifyMessage(const CDKGJustification&)` over the contributions: indices
above the member count, repeated indices and invalid shares are rejected. -/
def PreVerifyContributions (C : DKGCrypto) (n : Nat) :
    List (Nat × BitVec 256) → Finset Nat → Bool
  | [], _ => true
  | (idx, skShare) :: rest, contributionsSet =>
    if idx > n then false
    else if idx ∈ contributionsSet then false
    else if !C.SkIsValid skShare then false
    else PreVerifyContributions C n rest (insert idx contributionsSet)

/-- `PreVerifyMessage(const CDKGJustification& qj, retBan)`: whether it is accepted, and
`retBan`. -/
def PreVerifyJustification (C : DKGCrypto) (s : CDKGSession) (qj : CDKGJustification) :
    Bool × Bool :=
  if qj.quorumHash ≠ s.quorumHash then (false, false)
  else match s.GetMember qj.proTxHash with
    | none => (false, true)
    | some i =>
      if qj.contributions.isEmpty then (false, true)
      else if !PreVerifyContributions C s.members.length qj.contributions ∅ then (false, true)
      else if ((s.members[i]?.map (·.justifications.card)).getD 0) ≥ 2 then (false, false)
      else (true, false)

/-- The first loop of `ReceiveMessage(const CDKGJustification&)`: the justifier is bad if it
justifies for a member that did not complain about it. -/
def CheckJustifiedFor (s : CDKGSession) (i : Nat) :
    List (Nat × BitVec 256) → Except DKGFault CDKGSession
  | [] => .ok s
  | (idx, _) :: rest => do
    let member2 ← vecAt "members" s.members idx
    let member ← vecAt "members" s.members i
    let s := if member2.proTxHash ∈ member.complaintsFromOthers then s else s.MarkBadMember i
    CheckJustifiedFor s i rest

/-- The last loop of `ReceiveMessage(const CDKGJustification&)`: a share that fails to verify
makes the justifier bad; a share for us is kept (and written to the DKG database, which is not
modelled), and each verified share settles the complaint of its member. -/
def ApplyJustifiedShares (C : DKGCrypto) (s : CDKGSession) (i : Nat) (vvec : List (BitVec 384)) :
    List (Nat × BitVec 256) → Except DKGFault CDKGSession
  | [] => .ok s
  | (idx, skContribution) :: rest => do
    let member2 ← vecAt "members" s.members idx
    let s ←
      if !C.VerifyContributionShare member2.proTxHash vvec skContribution then
        pure (s.MarkBadMember i)
      else do
        let s ←
          if s.myIdx.isSome && some member2.proTxHash = (s.myIdx.bind (s.members[·]?)).map (·.proTxHash) then do
            let _ ← vecAt "receivedSkContributions" s.receivedSkContributions i
            pure { (s.modifyMember i fun m => { m with weComplain := false }) with
              receivedSkContributions := s.receivedSkContributions.set i skContribution }
          else pure s
        pure (s.modifyMember i fun m =>
          { m with complaintsFromOthers := m.complaintsFromOthers.erase member2.proTxHash })
    ApplyJustifiedShares C s i vvec rest

/-- `ReceiveMessage(const CDKGJustification& qj, retBan)`, for a justification that
`PreVerifyMessage` accepted. -/
def ReceiveJustification (C : DKGCrypto) (s : CDKGSession) (qj : CDKGJustification) :
    Except DKGFault CDKGSession := do
  let some i := s.GetMember qj.proTxHash | throw .nullMember
  let member ← vecAt "members" s.members i
  -- only relay up to 2 justifications
  if member.justifications.card ≥ 2 then return s
  let hash := C.JustificationHash qj.proTxHash qj.contributions
  let s := s.modifyMember i fun m => { m with justifications := insert hash m.justifications }
  let member ← vecAt "members" s.members i
  if member.justifications.card > 1 then return s.MarkBadMember i
  if member.bad then return s
  let s ← CheckJustifiedFor s i qj.contributions
  let member ← vecAt "members" s.members i
  if member.bad then return s
  let vvec ← vecAt "receivedVvecs" s.receivedVvecs i
  ApplyJustifiedShares C s i vvec qj.contributions

/-- `PreVerifyMessage(const CDKGComplaint& qc, retBan)`: whether it is accepted, and `retBan`. -/
def PreVerifyComplaint (s : CDKGSession) (qc : CDKGComplaint) : Bool × Bool :=
  if qc.quorumHash ≠ s.quorumHash then (false, false)
  else match s.GetMember qc.proTxHash with
    | none => (false, true)
    | some i =>
      if qc.badMembers.length ≠ s.size then (false, true)
      else if qc.complainForMembers.length ≠ s.size then (false, true)
      else if ((s.members[i]?.map (·.complaints.card)).getD 0) ≥ 2 then (false, false)
      else (true, false)

/-- The loop of `ReceiveMessage(const CDKGComplaint&)` over the members: the votes for bad
members and the complaints, read from the two bitsets at each member's position. -/
def VoteComplaint (qc : CDKGComplaint) (s : CDKGSession) : List Nat → Except DKGFault CDKGSession
  | [] => .ok s
  | i :: rest => do
    let _ ← vecAt "members" s.members i
    let bad ← vecAt "badMembers" qc.badMembers i
    let s := if bad then
        s.modifyMember i fun m => { m with badMemberVotes := insert qc.proTxHash m.badMemberVotes }
      else s
    let complain ← vecAt "complainForMembers" qc.complainForMembers i
    let s := if complain then
        s.modifyMember i fun m =>
          { m with complaintsFromOthers := insert qc.proTxHash m.complaintsFromOthers
                   someoneComplain := true }
      else s
    VoteComplaint qc s rest

/-- `ReceiveMessage(const CDKGComplaint& qc, retBan)`, for a complaint that `PreVerifyMessage`
accepted. -/
def ReceiveComplaint (C : DKGCrypto) (s : CDKGSession) (qc : CDKGComplaint) :
    Except DKGFault CDKGSession := do
  let some i := s.GetMember qc.proTxHash | throw .nullMember
  let member ← vecAt "members" s.members i
  -- only relay up to 2 complaints
  if member.complaints.card ≥ 2 then return s
  let hash := C.ComplaintHash qc.proTxHash qc.badMembers qc.complainForMembers
  let s := s.modifyMember i fun m => { m with complaints := insert hash m.complaints }
  let member ← vecAt "members" s.members i
  if member.complaints.card > 1 then return s.MarkBadMember i
  VoteComplaint qc s (List.range s.members.length)

theorem vecAt_of_lt {α : Type} (vector : String) {v : List α} {i : Nat} (h : i < v.length) :
    vecAt vector v i = .ok v[i] := by
  simp [vecAt, h]

theorem vecAt_of_getElem? {α : Type} (vector : String) {v : List α} {i : Nat} {a : α}
    (h : v[i]? = some a) : vecAt vector v i = .ok a := by
  simp [vecAt, h]

theorem vecAt_of_le {α : Type} (vector : String) {v : List α} {i : Nat} (h : v.length ≤ i) :
    vecAt vector v i = .error (.outOfBounds vector i) := by
  simp [vecAt, List.getElem?_eq_none h]

@[simp] theorem modifyMember_members_length (s : CDKGSession) (i : Nat)
    (f : CDKGMember → CDKGMember) : (s.modifyMember i f).members.length = s.members.length :=
  List.length_modify ..

@[simp] theorem modifyMember_receivedVvecs (s : CDKGSession) (i : Nat)
    (f : CDKGMember → CDKGMember) : (s.modifyMember i f).receivedVvecs = s.receivedVvecs := rfl

@[simp] theorem modifyMember_receivedSkContributions (s : CDKGSession) (i : Nat)
    (f : CDKGMember → CDKGMember) :
    (s.modifyMember i f).receivedSkContributions = s.receivedSkContributions := rfl

@[simp] theorem MarkBadMember_members_length (s : CDKGSession) (i : Nat) :
    (s.MarkBadMember i).members.length = s.members.length :=
  modifyMember_members_length s i _

@[simp] theorem MarkBadMember_receivedVvecs (s : CDKGSession) (i : Nat) :
    (s.MarkBadMember i).receivedVvecs = s.receivedVvecs := rfl

@[simp] theorem MarkBadMember_receivedSkContributions (s : CDKGSession) (i : Nat) :
    (s.MarkBadMember i).receivedSkContributions = s.receivedSkContributions := rfl

theorem getElem?_modifyMember (s : CDKGSession) (i j : Nat) (f : CDKGMember → CDKGMember) :
    (s.modifyMember i f).members[j]? =
      if i = j then s.members[j]?.map f else s.members[j]? := by
  by_cases h : i = j <;> simp [modifyMember, h]

theorem GetMember_lt {s : CDKGSession} {h : uint256} {i : Nat} (hi : s.GetMember h = some i) :
    i < s.members.length :=
  (List.findIdx?_eq_some_iff_getElem.mp hi).1

theorem VoteComplaint_ok (qc : CDKGComplaint) (l : List Nat) :
    ∀ s : CDKGSession, (∀ i ∈ l, i < s.members.length ∧ i < qc.badMembers.length ∧
      i < qc.complainForMembers.length) → ∃ s', VoteComplaint qc s l = .ok s' := by
  induction l with
  | nil => exact fun s _ => ⟨s, rfl⟩
  | cons i rest ih =>
    intro s hl
    obtain ⟨hm, hb, hc⟩ := hl i (List.mem_cons_self ..)
    simp only [VoteComplaint, vecAt_of_lt _ hm, vecAt_of_lt _ hb, vecAt_of_lt _ hc,
      Rollback.ok_bind]
    refine ih _ fun j hj => ?_
    obtain ⟨hjm, hjb, hjc⟩ := hl j (List.mem_cons_of_mem _ hj)
    refine ⟨?_, hjb, hjc⟩
    split <;> split <;> simpa using hjm

/-- For a session of at most `params.size` members, every complaint that `PreVerifyMessage`
accepts is received without reading outside the members or the complaint's bitsets. -/
theorem ReceiveComplaint_in_bounds (C : DKGCrypto) {s : CDKGSession} {qc : CDKGComplaint}
    (hn : s.members.length ≤ s.size) (hpre : (PreVerifyComplaint s qc).1 = true) :
    ∃ s', ReceiveComplaint C s qc = .ok s' := by
  unfold PreVerifyComplaint at hpre
  split at hpre
  · cases hpre
  · split at hpre
    · cases hpre
    · rename_i i hi
      split at hpre
      · cases hpre
      · rename_i hbad
        split at hpre
        · cases hpre
        · rename_i hcomp
          have hlt := GetMember_lt hi
          simp only [ReceiveComplaint, hi, vecAt_of_lt _ hlt, Rollback.ok_bind]
          split
          · exact ⟨s, rfl⟩
          · rw [vecAt_of_lt _ (by simpa using hlt), Rollback.ok_bind]
            split
            · exact ⟨_, rfl⟩
            · refine VoteComplaint_ok qc _ _ fun j hj => ?_
              have hj' : j < s.members.length := by simpa using hj
              refine ⟨by simpa using hj', ?_, ?_⟩ <;> omega

/-- A session of three members, started by `Init`, receives the second member's complaint
against the first, which also complains for the first and the third. -/
theorem ReceiveComplaint_in_bounds_of_three_members :
    ∃ s', ReceiveComplaint ⟨fun _ => true, fun _ _ _ => true, fun _ _ _ => 0, fun _ _ => 0⟩
      (Init 3 7 [3, 4, 5] 3) ⟨7, 4, [true, false, false], [true, false, true]⟩ = .ok s' :=
  ReceiveComplaint_in_bounds _ (by decide) (by decide)

/-- `PreVerifyMessage` lets a contribution index equal to the member count through
(`p.first > members.size()`), and `ReceiveMessage` then reads `members[p.first]` past the end:
a good member's first justification that justifies for index `members.size()` with a valid
share is accepted, and receiving it reads outside the members. -/
theorem ReceiveJustification_reads_past_members (C : DKGCrypto) {s : CDKGSession}
    {qj : CDKGJustification} {i : Nat} {m : CDKGMember} {sk : BitVec 256}
    (hq : qj.quorumHash = s.quorumHash) (hi : s.GetMember qj.proTxHash = some i)
    (hm : s.members[i]? = some m) (hj : m.justifications = ∅) (hgood : m.bad = false)
    (hsk : C.SkIsValid sk = true) (hc : qj.contributions = [(s.members.length, sk)]) :
    PreVerifyJustification C s qj = (true, false) ∧
      ReceiveJustification C s qj = .error (.outOfBounds "members" s.members.length) := by
  have hlt := GetMember_lt hi
  have hget : s.members[i] = m := by simpa [List.getElem?_eq_getElem hlt] using hm
  constructor
  · simp [PreVerifyJustification, PreVerifyContributions, hq, hi, hc, hsk, hm, hj]
  · simp only [ReceiveJustification, hi, vecAt_of_lt _ hlt, Rollback.ok_bind, hget, hj]
    have hm₁ : ∀ f : CDKGMember → CDKGMember, (s.modifyMember i f).members[i]? = some (f m) := by
      intro f
      rw [getElem?_modifyMember, if_pos rfl, hm]
      rfl
    rw [if_neg (by simp), vecAt_of_getElem? _ (hm₁ _), Rollback.ok_bind]
    simp only [hj, Finset.card_singleton, Finset.insert_empty, hgood]
    rw [hc]
    simp only [gt_iff_lt, lt_self_iff_false, if_false, Bool.false_eq_true, CheckJustifiedFor]
    rw [vecAt_of_le _ (by simp)]
    rfl

/-- Two masternodes, the first justifying for index 2 with a share any check accepts. -/
theorem ReceiveJustification_reads_past_members_of_two :
    (Init 2 5 [1, 2] 0).members.length ≤ (Init 2 5 [1, 2] 0).size ∧
    PreVerifyJustification ⟨fun _ => true, fun _ _ _ => true, fun _ _ _ => 0, fun _ _ => 0⟩
        (Init 2 5 [1, 2] 0) ⟨5, 1, [(2, 7)]⟩ = (true, false) ∧
      ReceiveJustification ⟨fun _ => true, fun _ _ _ => true, fun _ _ _ => 0, fun _ _ => 0⟩
        (Init 2 5 [1, 2] 0) ⟨5, 1, [(2, 7)]⟩ = .error (.outOfBounds "members" 2) :=
  ⟨by decide, ReceiveJustification_reads_past_members _ rfl
    (by decide : (Init 2 5 [1, 2] 0).GetMember 1 = some 0) rfl rfl rfl rfl rfl⟩

end CDKGSession

end DashCore
