import DashCore.Evo.MNList
import DashCore.Lib.MaxRegister
import DashCore.Llmq.QuarterRotation
import Mathlib.Data.Prod.Lex

/-! Votes on a governance object (governance/object.cpp, governance/vote.cpp,
governance/votedb.cpp). `ProcessVote` keeps, for each masternode and signal, one vote instance:
its outcome, the time of the last update and the vote's own timestamp. A vote replaces the
instance unless it is older, or as old with a smaller outcome; the instance and the masternode's
record are created first, so a refused vote can leave a default instance behind. The object's
vote file remembers the hashes of the votes it took. The masternode list at the chain tip, the
adjusted time and the signature check are the environment. The exception messages keep their
fixed text; the outpoint and hash strings they print are left out.

With rate checks off, each (masternode, signal) instance is a `MaxRegister` on (timestamp,
outcome) started at the default instance, so valid votes whose hashes tell them apart leave the
same records and the same counts in any arrival order. -/
namespace DashCore

def VOTE_SIGNAL_NONE : Int32 := 0
def VOTE_SIGNAL_FUNDING : Int32 := 1
def MAX_SUPPORTED_VOTE_SIGNAL : Int32 := 4

def VOTE_OUTCOME_NONE : Int32 := 0

def GOVERNANCE_OBJECT_PROPOSAL : Int := 1

def GOVERNANCE_UPDATE_MIN : Int64 := 60 * 60

inductive governance_exception_type_enum_t where
  | GOVERNANCE_EXCEPTION_NONE
  | GOVERNANCE_EXCEPTION_WARNING
  | GOVERNANCE_EXCEPTION_PERMANENT_ERROR
  | GOVERNANCE_EXCEPTION_TEMPORARY_ERROR
  | GOVERNANCE_EXCEPTION_INTERNAL_ERROR
deriving DecidableEq, Repr

structure CGovernanceException where
  strMessage : String
  eType : governance_exception_type_enum_t
  nNodePenalty : Int := 0
deriving DecidableEq, Repr

structure CGovernanceVote where
  nVoteSignal : Int32
  masternodeOutpoint : COutPoint
  nParentHash : uint256
  nVoteOutcome : Int32
  nTime : Int64
  vchSig : List UInt8 := []
deriving DecidableEq, Repr

/-- `CGovernanceVote::UpdateHash`: the outpoint with the dummy fields of the old format, the
parent, the signal, the outcome and the time; the signature is not hashed. -/
def CGovernanceVote.GetHash (P : Primitives) (vote : CGovernanceVote) : uint256 :=
  P.SerializeHash (UniqueProperty.Serialize.leBytes vote.masternodeOutpoint.hash 32 ++
    UniqueProperty.Serialize.leBytes vote.masternodeOutpoint.n.toBitVec 4 ++ [0] ++
    UniqueProperty.Serialize.leBytes (0xffffffff : BitVec 32) 4 ++
    UniqueProperty.Serialize.leBytes vote.nParentHash 32 ++
    UniqueProperty.Serialize.leBytes vote.nVoteSignal.toBitVec 4 ++
    UniqueProperty.Serialize.leBytes vote.nVoteOutcome.toBitVec 4 ++
    UniqueProperty.Serialize.leBytes vote.nTime.toBitVec 8)

structure vote_instance_t where
  eOutcome : Int32 := VOTE_OUTCOME_NONE
  nTime : Int64 := 0
  nCreationTime : Int64 := 0
deriving DecidableEq, Repr

structure vote_rec_t where
  mapInstances : AList (fun _ : Int32 => vote_instance_t) := ∅

/-- `CGovernanceObjectVoteFile`: the votes, the newest first; `mapVoteIndex` indexes their
hashes. -/
structure CGovernanceObjectVoteFile where
  listVotes : List CGovernanceVote := []

namespace CGovernanceObjectVoteFile

def HasVote (P : Primitives) (file : CGovernanceObjectVoteFile) (nHash : uint256) : Bool :=
  file.listVotes.any (·.GetHash P == nHash)

/-- `RemoveOldVotes`: the older votes of the same masternode on the same object and signal go. -/
def RemoveOldVotes (file : CGovernanceObjectVoteFile) (vote : CGovernanceVote) :
    CGovernanceObjectVoteFile :=
  { listVotes := file.listVotes.filter fun it =>
      !(it.masternodeOutpoint == vote.masternodeOutpoint && it.nParentHash == vote.nParentHash &&
        it.nVoteSignal == vote.nVoteSignal && it.nTime < vote.nTime) }

def AddVote (P : Primitives) (file : CGovernanceObjectVoteFile) (vote : CGovernanceVote) :
    CGovernanceObjectVoteFile :=
  if file.HasVote P (vote.GetHash P) then file
  else RemoveOldVotes { listVotes := vote :: file.listVotes } vote

end CGovernanceObjectVoteFile

structure CGovernanceObject where
  nObjectType : Int
  mapCurrentMNVotes : AList (fun _ : COutPoint => vote_rec_t) := ∅
  fileVotes : CGovernanceObjectVoteFile := {}
  fDirtyCache : Bool := false

/-- What a vote is checked against: the list at the chain tip, the adjusted time, whether rate
checks are on, and the signature check against the masternode's voting key (`true`) or
operator key (`false`). -/
structure GovernanceEnv where
  P : Primitives
  mnList : CDeterministicMNList
  nNow : Int64
  AreRateChecksEnabled : Bool
  CheckSignature : CGovernanceVote → CDeterministicMN → Bool → Bool

namespace CGovernanceVote

def IsValid (env : GovernanceEnv) (vote : CGovernanceVote) (useVotingKey : Bool) : Bool :=
  if vote.nTime > env.nNow + 60 * 60 then false
  else if vote.nVoteSignal > MAX_SUPPORTED_VOTE_SIGNAL then false
  -- 0=none, 1=yes, 2=no, 3=abstain
  else if vote.nVoteOutcome > 3 then false
  else match env.mnList.GetMNByCollateral env.P vote.masternodeOutpoint with
    | none => false
    | some dmn => env.CheckSignature vote dmn useVotingKey

end CGovernanceVote

namespace CGovernanceObject

def Record (obj : CGovernanceObject) (outpoint : COutPoint) (eSignal : Int32) :
    Option vote_instance_t :=
  (obj.mapCurrentMNVotes.lookup outpoint).bind (·.mapInstances.lookup eSignal)

def ProcessVote (env : GovernanceEnv) (obj : CGovernanceObject) (vote : CGovernanceVote) :
    Except CGovernanceException Unit × CGovernanceObject :=
  if obj.fileVotes.HasVote env.P (vote.GetHash env.P) then
    (.error ⟨"CGovernanceObject::ProcessVote -- Already known valid vote",
      .GOVERNANCE_EXCEPTION_NONE, 0⟩, obj)
  else match env.mnList.GetMNByCollateral env.P vote.masternodeOutpoint with
  | none =>
    (.error ⟨"CGovernanceObject::ProcessVote -- Masternode not found",
      .GOVERNANCE_EXCEPTION_PERMANENT_ERROR, 20⟩, obj)
  | some _ =>
    -- `emplace` of the masternode's record
    let voteRecord := (obj.mapCurrentMNVotes.lookup vote.masternodeOutpoint).getD {}
    let obj := { obj with
      mapCurrentMNVotes := obj.mapCurrentMNVotes.insert vote.masternodeOutpoint voteRecord }
    let eSignal := vote.nVoteSignal
    if eSignal == VOTE_SIGNAL_NONE then
      (.error ⟨"CGovernanceObject::ProcessVote -- Vote signal: none",
        .GOVERNANCE_EXCEPTION_WARNING, 0⟩, obj)
    else if eSignal > MAX_SUPPORTED_VOTE_SIGNAL then
      (.error ⟨"CGovernanceObject::ProcessVote -- Unsupported vote signal",
        .GOVERNANCE_EXCEPTION_PERMANENT_ERROR, 20⟩, obj)
    else
      -- `emplace` of the signal's instance
      let voteInstance := (voteRecord.mapInstances.lookup eSignal).getD {}
      let voteRecord : vote_rec_t :=
        { mapInstances := voteRecord.mapInstances.insert eSignal voteInstance }
      let obj := { obj with
        mapCurrentMNVotes := obj.mapCurrentMNVotes.insert vote.masternodeOutpoint voteRecord }
      if vote.nTime < voteInstance.nCreationTime then
        (.error ⟨"CGovernanceObject::ProcessVote -- Obsolete vote",
          .GOVERNANCE_EXCEPTION_NONE, 0⟩, obj)
      else if vote.nTime == voteInstance.nCreationTime &&
          vote.nVoteOutcome < voteInstance.eOutcome then
        (.error ⟨"CGovernanceObject::ProcessVote -- Invalid vote, same timestamp for the different outcome, rejected",
          .GOVERNANCE_EXCEPTION_NONE, 0⟩, obj)
      else if env.AreRateChecksEnabled && env.nNow - voteInstance.nTime < GOVERNANCE_UPDATE_MIN then
        (.error ⟨"CGovernanceObject::ProcessVote -- Masternode voting too often",
          .GOVERNANCE_EXCEPTION_TEMPORARY_ERROR, 0⟩, obj)
      else
        let nVoteTimeUpdate := if env.AreRateChecksEnabled then env.nNow else voteInstance.nTime
        let onlyVotingKeyAllowed :=
          obj.nObjectType == GOVERNANCE_OBJECT_PROPOSAL && vote.nVoteSignal == VOTE_SIGNAL_FUNDING
        if !vote.IsValid env onlyVotingKeyAllowed then
          (.error ⟨"CGovernanceObject::ProcessVote -- Invalid vote",
            .GOVERNANCE_EXCEPTION_PERMANENT_ERROR, 20⟩, obj)
        else
          let voteInstance : vote_instance_t := ⟨vote.nVoteOutcome, nVoteTimeUpdate, vote.nTime⟩
          let voteRecord : vote_rec_t :=
            { mapInstances := voteRecord.mapInstances.insert eSignal voteInstance }
          (.ok (), { obj with
            mapCurrentMNVotes := obj.mapCurrentMNVotes.insert vote.masternodeOutpoint voteRecord,
            fileVotes := obj.fileVotes.AddVote env.P vote,
            fDirtyCache := true })

/-- `CGovernanceObject::CountMatchingVotes`: the voting weight of the masternodes whose instance
for the signal has the outcome. The sum is taken in the entries' order; the map's key order
does not change a sum. -/
def CountMatchingVotes (env : GovernanceEnv) (obj : CGovernanceObject) (eVoteSignalIn : Int32)
    (eVoteOutcomeIn : Int32) : Int :=
  obj.mapCurrentMNVotes.entries.foldl (fun nCount votepair =>
    match votepair.2.mapInstances.lookup eVoteSignalIn with
    | some inst =>
      if inst.eOutcome = eVoteOutcomeIn then
        match env.mnList.GetMNByCollateral env.P votepair.1 with
        | some dmn => nCount + voting_weight dmn.nType
        | none => nCount
      else nCount
    | none => nCount) 0

/-! ## One vote -/

def VoteKey (vote : CGovernanceVote) : Int ×ₗ Int :=
  toLex (vote.nTime.toInt, vote.nVoteOutcome.toInt)

/-- The instance's place in that order, by the timestamp and outcome of the vote it holds. -/
def InstanceKey (inst : vote_instance_t) : Int ×ₗ Int :=
  toLex (inst.nCreationTime.toInt, inst.eOutcome.toInt)

theorem passes_iff_InstanceKey_le (inst : vote_instance_t) (vote : CGovernanceVote) :
    (¬ vote.nTime < inst.nCreationTime ∧
      ¬ (vote.nTime == inst.nCreationTime && vote.nVoteOutcome < inst.eOutcome) = true) ↔
      InstanceKey inst ≤ VoteKey vote := by
  simp only [InstanceKey, VoteKey, Prod.Lex.toLex_le_toLex, Bool.and_eq_true, beq_iff_eq,
    decide_eq_true_eq, Int64.lt_iff_toInt_lt, Int32.lt_iff_toInt_lt, ← Int64.toInt_inj]
  omega

theorem GetMNByCollateral_of_IsValid {env : GovernanceEnv} {vote : CGovernanceVote}
    {useVotingKey : Bool} (h : vote.IsValid env useVotingKey = true) :
    (env.mnList.GetMNByCollateral env.P vote.masternodeOutpoint).isSome ∧
      ¬ vote.nVoteSignal > MAX_SUPPORTED_VOTE_SIGNAL := by
  unfold CGovernanceVote.IsValid at h
  split at h
  · cases h
  · split at h
    · cases h
    · split at h
      · cases h
      · rename_i hsig _
        split at h
        · cases h
        · rename_i hdmn
          exact ⟨by rw [hdmn]; rfl, hsig⟩

/-- Whether the vote gets as far as an instance: its signal is not `VOTE_SIGNAL_NONE`. -/
def HasSignal (vote : CGovernanceVote) : Prop := vote.nVoteSignal ≠ VOTE_SIGNAL_NONE

instance (vote : CGovernanceVote) : Decidable (HasSignal vote) :=
  inferInstanceAs (Decidable (_ ≠ _))

section RateChecksOff
variable {env : GovernanceEnv} (hrate : env.AreRateChecksEnabled = false)
include hrate

theorem ProcessVote_mapCurrentMNVotes (obj : CGovernanceObject) (vote : CGovernanceVote)
    (hvalid : vote.IsValid env (obj.nObjectType == GOVERNANCE_OBJECT_PROPOSAL &&
      vote.nVoteSignal == VOTE_SIGNAL_FUNDING) = true)
    (hnew : obj.fileVotes.HasVote env.P (vote.GetHash env.P) = false) (hsignal : HasSignal vote) :
    let voteRecord := (obj.mapCurrentMNVotes.lookup vote.masternodeOutpoint).getD {}
    let old := (voteRecord.mapInstances.lookup vote.nVoteSignal).getD {}
    (ProcessVote env obj vote).2.mapCurrentMNVotes =
      obj.mapCurrentMNVotes.insert vote.masternodeOutpoint
        { mapInstances := voteRecord.mapInstances.insert vote.nVoteSignal
            (if InstanceKey old ≤ VoteKey vote then ⟨vote.nVoteOutcome, old.nTime, vote.nTime⟩
             else old) } := by
  intro voteRecord old
  obtain ⟨hdmn, hsig⟩ := GetMNByCollateral_of_IsValid hvalid
  obtain ⟨dmn, hdmn⟩ := Option.isSome_iff_exists.mp hdmn
  have hnone : ¬ vote.nVoteSignal = VOTE_SIGNAL_NONE := hsignal
  have hpass := passes_iff_InstanceKey_le old vote
  unfold ProcessVote
  simp only [hnew, Bool.false_eq_true, if_false, hdmn, hsig, hrate, Bool.false_and, beq_iff_eq,
    hnone, hvalid, Bool.not_true]
  by_cases hkey : InstanceKey old ≤ VoteKey vote
  · obtain ⟨h1, h2⟩ := hpass.mpr hkey
    simp only [old, voteRecord] at h1 h2
    simp only [h1, h2, if_false, hkey, if_true, AList.insert_insert, Bool.false_eq_true]
    rfl
  · -- the vote is obsolete, or as old with a smaller outcome: the instance is kept
    by_cases h1 : vote.nTime < old.nCreationTime
    · simp only [old, voteRecord] at h1
      simp only [h1, if_true, hkey, if_false, AList.insert_insert]
      rfl
    · have h2 : (vote.nTime == old.nCreationTime && decide (vote.nVoteOutcome < old.eOutcome)) =
          true := by
        by_contra h2
        exact hkey (hpass.mp ⟨h1, h2⟩)
      simp only [old, voteRecord] at h1 h2
      simp only [h1, if_false, h2, if_true, hkey, AList.insert_insert]
      rfl

end RateChecksOff

theorem ProcessVote_mapCurrentMNVotes_of_not_HasSignal {env : GovernanceEnv}
    (obj : CGovernanceObject) (vote : CGovernanceVote)
    (hvalid : vote.IsValid env (obj.nObjectType == GOVERNANCE_OBJECT_PROPOSAL &&
      vote.nVoteSignal == VOTE_SIGNAL_FUNDING) = true)
    (hnew : obj.fileVotes.HasVote env.P (vote.GetHash env.P) = false)
    (hsignal : ¬ HasSignal vote) :
    (ProcessVote env obj vote).2.mapCurrentMNVotes =
      obj.mapCurrentMNVotes.insert vote.masternodeOutpoint
        ((obj.mapCurrentMNVotes.lookup vote.masternodeOutpoint).getD {}) := by
  obtain ⟨hdmn, -⟩ := GetMNByCollateral_of_IsValid hvalid
  obtain ⟨dmn, hdmn⟩ := Option.isSome_iff_exists.mp hdmn
  have hnone : vote.nVoteSignal = VOTE_SIGNAL_NONE := not_not.mp hsignal
  unfold ProcessVote
  simp only [hnew, Bool.false_eq_true, if_false, hdmn, hnone, beq_self_eq_true, if_true]

theorem ProcessVote_of_HasVote (env : GovernanceEnv) (obj : CGovernanceObject)
    (vote : CGovernanceVote) (h : obj.fileVotes.HasVote env.P (vote.GetHash env.P) = true) :
    (ProcessVote env obj vote).2 = obj := by
  simp [ProcessVote, h]

@[simp] theorem ProcessVote_nObjectType (env : GovernanceEnv) (obj : CGovernanceObject)
    (vote : CGovernanceVote) : (ProcessVote env obj vote).2.nObjectType = obj.nObjectType := by
  unfold ProcessVote
  dsimp only
  repeat' split
  all_goals rfl

theorem AddVote_subset (P : Primitives) (file : CGovernanceObjectVoteFile)
    (vote : CGovernanceVote) :
    ∀ w ∈ (file.AddVote P vote).listVotes, w ∈ vote :: file.listVotes := by
  intro w hw
  unfold CGovernanceObjectVoteFile.AddVote at hw
  split at hw
  · exact List.mem_cons_of_mem _ hw
  · simp only [CGovernanceObjectVoteFile.RemoveOldVotes] at hw
    exact List.mem_of_mem_filter hw

theorem ProcessVote_fileVotes_subset (env : GovernanceEnv) (obj : CGovernanceObject)
    (vote : CGovernanceVote) :
    ∀ w ∈ (ProcessVote env obj vote).2.fileVotes.listVotes,
      w ∈ vote :: obj.fileVotes.listVotes := by
  intro w hw
  unfold ProcessVote at hw
  dsimp only at hw
  repeat' split at hw
  all_goals first
    | exact List.mem_cons_of_mem _ hw
    | exact AddVote_subset env.P obj.fileVotes vote w hw

theorem Record_of_mapCurrentMNVotes_eq {obj obj' : CGovernanceObject} {outpoint' : COutPoint}
    {eSignal' : Int32} {inst : vote_instance_t}
    (h : obj'.mapCurrentMNVotes = obj.mapCurrentMNVotes.insert outpoint'
      { mapInstances := ((obj.mapCurrentMNVotes.lookup outpoint').getD {}).mapInstances.insert
          eSignal' inst }) (outpoint : COutPoint) (eSignal : Int32) :
    obj'.Record outpoint eSignal =
      if outpoint = outpoint' ∧ eSignal = eSignal' then some inst
      else obj.Record outpoint eSignal := by
  unfold Record
  rw [h]
  by_cases ho : outpoint = outpoint'
  · subst ho
    by_cases hs : eSignal = eSignal'
    · subst hs
      simp
    · simp only [AList.lookup_insert, Option.bind_some, AList.lookup_insert_ne hs, hs, and_false,
        if_false]
      cases obj.mapCurrentMNVotes.lookup outpoint <;> rfl
  · simp [AList.lookup_insert_ne ho, ho]

theorem Record_of_emplace {obj obj' : CGovernanceObject} {outpoint' : COutPoint}
    (h : obj'.mapCurrentMNVotes = obj.mapCurrentMNVotes.insert outpoint'
      ((obj.mapCurrentMNVotes.lookup outpoint').getD {})) (outpoint : COutPoint) (eSignal : Int32) :
    obj'.Record outpoint eSignal = obj.Record outpoint eSignal := by
  unfold Record
  rw [h]
  by_cases ho : outpoint = outpoint'
  · subst ho
    cases obj.mapCurrentMNVotes.lookup outpoint <;> simp
  · simp [AList.lookup_insert_ne ho]

/-! ## All votes -/

def VotesFor (votes : List CGovernanceVote) (outpoint : COutPoint) (eSignal : Int32) :
    List CGovernanceVote :=
  votes.filter fun v => v.masternodeOutpoint = outpoint ∧ v.nVoteSignal = eSignal

def LatestKey (votes : List CGovernanceVote) (outpoint : COutPoint) (eSignal : Int32) :
    Int ×ₗ Int :=
  MaxRegister.run VoteKey (InstanceKey {}) (VotesFor votes outpoint eSignal)

theorem VotesFor_append_singleton (votes : List CGovernanceVote) (vote : CGovernanceVote)
    (outpoint : COutPoint) (eSignal : Int32) :
    VotesFor (votes ++ [vote]) outpoint eSignal =
      if vote.masternodeOutpoint = outpoint ∧ vote.nVoteSignal = eSignal then
        VotesFor votes outpoint eSignal ++ [vote]
      else VotesFor votes outpoint eSignal := by
  unfold VotesFor
  rw [List.filter_append]
  split <;> simp_all

theorem LatestKey_append_singleton (votes : List CGovernanceVote) (vote : CGovernanceVote)
    (outpoint : COutPoint) (eSignal : Int32) :
    LatestKey (votes ++ [vote]) outpoint eSignal =
      if vote.masternodeOutpoint = outpoint ∧ vote.nVoteSignal = eSignal then
        max (LatestKey votes outpoint eSignal) (VoteKey vote)
      else LatestKey votes outpoint eSignal := by
  unfold LatestKey
  rw [VotesFor_append_singleton]
  split <;> simp

theorem VoteKey_le_LatestKey {votes : List CGovernanceVote} {vote : CGovernanceVote}
    (h : vote ∈ votes) :
    VoteKey vote ≤ LatestKey votes vote.masternodeOutpoint vote.nVoteSignal :=
  MaxRegister.le_run_of_mem VoteKey _ (List.mem_filter.mpr ⟨h, by simp⟩)

theorem LatestKey_perm {votes votes' : List CGovernanceVote} (hp : votes.Perm votes')
    (outpoint : COutPoint) (eSignal : Int32) :
    LatestKey votes outpoint eSignal = LatestKey votes' outpoint eSignal :=
  MaxRegister.run_perm VoteKey (hp.filter _) _

def HashBinding (P : Primitives) (votes : List CGovernanceVote) : Prop :=
  ∀ v ∈ votes, ∀ w ∈ votes, v.GetHash P = w.GetHash P →
    v.masternodeOutpoint = w.masternodeOutpoint ∧ v.nVoteSignal = w.nVoteSignal ∧
      VoteKey v = VoteKey w

/-- What a new object holds after the votes `votes`, rate checks off: per masternode and
signal the greatest of their votes and the default, with the update time never moved; a vote
file of processed votes; and a record for each masternode that voted. -/
structure VotesInvariant (obj : CGovernanceObject) (votes : List CGovernanceVote) : Prop where
  record : ∀ o s, (obj.Record o s).map InstanceKey =
    if s ≠ VOTE_SIGNAL_NONE ∧ VotesFor votes o s ≠ [] then some (LatestKey votes o s)
    else none
  nTime : ∀ o s i, obj.Record o s = some i → i.nTime = 0
  file : ∀ w ∈ obj.fileVotes.listVotes, w ∈ votes
  keys : ∀ o,
    (obj.mapCurrentMNVotes.lookup o).isSome ↔ ∃ v ∈ votes, v.masternodeOutpoint = o

theorem VotesInvariant.init (nObjectType : Int) :
    VotesInvariant { nObjectType } [] where
  record o s := by simp [Record, VotesFor]
  nTime o s i h := by simp [Record] at h
  file w h := by simp at h
  keys o := by simp

theorem Record_getD (obj : CGovernanceObject) (outpoint : COutPoint) (eSignal : Int32) :
    ((((obj.mapCurrentMNVotes.lookup outpoint).getD {}).mapInstances.lookup eSignal).getD {}) =
      (obj.Record outpoint eSignal).getD {} := by
  unfold Record
  cases obj.mapCurrentMNVotes.lookup outpoint <;> rfl

namespace VotesInvariant

variable {obj : CGovernanceObject} {votes : List CGovernanceVote} {vote : CGovernanceVote}

theorem InstanceKey_getD (h : VotesInvariant obj votes) (hsignal : HasSignal vote) :
    InstanceKey ((obj.Record vote.masternodeOutpoint vote.nVoteSignal).getD {}) =
      LatestKey votes vote.masternodeOutpoint vote.nVoteSignal := by
  have hrec := h.record vote.masternodeOutpoint vote.nVoteSignal
  have hs : vote.nVoteSignal ≠ VOTE_SIGNAL_NONE := hsignal
  by_cases hnil : VotesFor votes vote.masternodeOutpoint vote.nVoteSignal = []
  · have hnone : obj.Record vote.masternodeOutpoint vote.nVoteSignal = none := by
      simpa [hnil] using hrec
    rw [hnone, LatestKey, hnil]
    rfl
  · obtain ⟨i, hi⟩ : ∃ i, obj.Record vote.masternodeOutpoint vote.nVoteSignal = some i := by
      cases hr : obj.Record vote.masternodeOutpoint vote.nVoteSignal with
      | none => simp [hr, hnil, hs] at hrec
      | some i => exact ⟨i, rfl⟩
    rw [hi] at hrec ⊢
    simpa [hnil, hs] using hrec

theorem append_same (h : VotesInvariant obj votes) {w : CGovernanceVote} (hw : w ∈ votes)
    (ho : w.masternodeOutpoint = vote.masternodeOutpoint) (hs : w.nVoteSignal = vote.nVoteSignal)
    (hk : VoteKey w = VoteKey vote) : VotesInvariant obj (votes ++ [vote]) where
  record o s := by
    rw [h.record o s, VotesFor_append_singleton, LatestKey_append_singleton]
    by_cases hos : vote.masternodeOutpoint = o ∧ vote.nVoteSignal = s
    · obtain ⟨rfl, rfl⟩ := hos
      have hmem : w ∈ VotesFor votes vote.masternodeOutpoint vote.nVoteSignal :=
        List.mem_filter.mpr ⟨hw, by simp [ho, hs]⟩
      have hle : VoteKey vote ≤ LatestKey votes vote.masternodeOutpoint vote.nVoteSignal := by
        rw [← hk, ← ho, ← hs]
        exact VoteKey_le_LatestKey hw
      simp [List.ne_nil_of_mem hmem, max_eq_left hle]
    · simp only [hos, if_false]
  nTime := h.nTime
  file w' hw' := List.mem_append_left _ (h.file w' hw')
  keys o := by
    rw [h.keys o]
    constructor
    · rintro ⟨v, hv, rfl⟩
      exact ⟨v, List.mem_append_left _ hv, rfl⟩
    · rintro ⟨v, hv, rfl⟩
      rcases List.mem_append.mp hv with hv | hv
      · exact ⟨v, hv, rfl⟩
      · rw [List.mem_singleton.mp hv]
        exact ⟨w, hw, ho⟩

theorem keys_insert (h : VotesInvariant obj votes) {m : AList (fun _ : COutPoint => vote_rec_t)}
    {rec : vote_rec_t} (hm : m = obj.mapCurrentMNVotes.insert vote.masternodeOutpoint rec)
    (o : COutPoint) :
    (m.lookup o).isSome ↔ ∃ v ∈ votes ++ [vote], v.masternodeOutpoint = o := by
  subst hm
  by_cases ho : o = vote.masternodeOutpoint
  · subst ho
    simp
  · rw [AList.lookup_insert_ne ho, h.keys o]
    constructor
    · rintro ⟨v, hv, rfl⟩
      exact ⟨v, List.mem_append_left _ hv, rfl⟩
    · rintro ⟨v, hv, rfl⟩
      rcases List.mem_append.mp hv with hv | hv
      · exact ⟨v, hv, rfl⟩
      · exact absurd (List.mem_singleton.mp hv ▸ rfl) ho

theorem file_step (h : VotesInvariant obj votes) (env : GovernanceEnv) :
    ∀ w ∈ (ProcessVote env obj vote).2.fileVotes.listVotes, w ∈ votes ++ [vote] := by
  intro w hw
  rcases List.mem_cons.mp (ProcessVote_fileVotes_subset env obj vote w hw) with rfl | hw
  · exact List.mem_append_right _ (List.mem_singleton_self _)
  · exact List.mem_append_left _ (h.file w hw)

theorem step_signal {env : GovernanceEnv} (hrate : env.AreRateChecksEnabled = false)
    (h : VotesInvariant obj votes)
    (hvalid : vote.IsValid env (obj.nObjectType == GOVERNANCE_OBJECT_PROPOSAL &&
      vote.nVoteSignal == VOTE_SIGNAL_FUNDING) = true)
    (hnew : obj.fileVotes.HasVote env.P (vote.GetHash env.P) = false) (hsignal : HasSignal vote) :
    VotesInvariant (ProcessVote env obj vote).2 (votes ++ [vote]) := by
  have hmap := ProcessVote_mapCurrentMNVotes hrate obj vote hvalid hnew hsignal
  simp only [Record_getD] at hmap
  have hrec := Record_of_mapCurrentMNVotes_eq hmap
  set old := (obj.Record vote.masternodeOutpoint vote.nVoteSignal).getD {} with hold
  have hkey := h.InstanceKey_getD hsignal
  rw [← hold] at hkey
  have hs : vote.nVoteSignal ≠ VOTE_SIGNAL_NONE := hsignal
  refine ⟨?_, ?_, h.file_step env, h.keys_insert hmap⟩
  · intro o s
    rw [hrec, VotesFor_append_singleton, LatestKey_append_singleton]
    by_cases hos : o = vote.masternodeOutpoint ∧ s = vote.nVoteSignal
    · obtain ⟨rfl, rfl⟩ := hos
      have hnonempty : VotesFor votes vote.masternodeOutpoint vote.nVoteSignal ++ [vote] ≠ [] :=
        by simp
      simp only [and_self, if_true, Option.map_some, ne_eq, hs, not_false_eq_true, hnonempty,
        Option.some.injEq]
      rw [← hkey, max_def]
      split <;> rfl
    · have hos' : ¬ (vote.masternodeOutpoint = o ∧ vote.nVoteSignal = s) :=
        fun h' => hos ⟨h'.1.symm, h'.2.symm⟩
      simp only [hos, hos', if_false]
      exact h.record o s
  · intro o s i hi
    rw [hrec] at hi
    split at hi
    · cases hi
      have hold0 : old.nTime = 0 := by
        cases hr : obj.Record vote.masternodeOutpoint vote.nVoteSignal with
        | none => simp [hold, hr]
        | some i => simpa [hold, hr] using h.nTime _ _ i hr
      split <;> exact hold0
    · exact h.nTime o s i hi

theorem step_no_signal {env : GovernanceEnv} (h : VotesInvariant obj votes)
    (hvalid : vote.IsValid env (obj.nObjectType == GOVERNANCE_OBJECT_PROPOSAL &&
      vote.nVoteSignal == VOTE_SIGNAL_FUNDING) = true)
    (hnew : obj.fileVotes.HasVote env.P (vote.GetHash env.P) = false)
    (hsignal : ¬ HasSignal vote) :
    VotesInvariant (ProcessVote env obj vote).2 (votes ++ [vote]) := by
  have hmap := ProcessVote_mapCurrentMNVotes_of_not_HasSignal obj vote hvalid hnew hsignal
  have hrec := Record_of_emplace hmap
  have hnone : vote.nVoteSignal = VOTE_SIGNAL_NONE := not_not.mp hsignal
  refine ⟨?_, fun o s i hi => h.nTime o s i (hrec o s ▸ hi), h.file_step env,
    h.keys_insert hmap⟩
  intro o s
  rw [hrec, h.record o s, VotesFor_append_singleton, LatestKey_append_singleton]
  by_cases hos : vote.masternodeOutpoint = o ∧ vote.nVoteSignal = s
  · obtain ⟨rfl, rfl⟩ := hos
    simp [hnone]
  · simp only [hos, if_false]

theorem step {env : GovernanceEnv} (hrate : env.AreRateChecksEnabled = false)
    (h : VotesInvariant obj votes)
    (hvalid : vote.IsValid env (obj.nObjectType == GOVERNANCE_OBJECT_PROPOSAL &&
      vote.nVoteSignal == VOTE_SIGNAL_FUNDING) = true)
    (hbind : HashBinding env.P (votes ++ [vote])) :
    VotesInvariant (ProcessVote env obj vote).2 (votes ++ [vote]) := by
  cases hknown : obj.fileVotes.HasVote env.P (vote.GetHash env.P) with
  | true =>
    -- the file knows the hash: a vote taken before is the same vote for the records
    obtain ⟨w, hw, hhash⟩ : ∃ w ∈ obj.fileVotes.listVotes,
        w.GetHash env.P = vote.GetHash env.P := by
      simpa [CGovernanceObjectVoteFile.HasVote] using hknown
    have hwv : w ∈ votes := h.file w hw
    obtain ⟨ho, hs, hk⟩ := hbind w (List.mem_append_left _ hwv) vote
      (List.mem_append_right _ (List.mem_singleton_self _)) hhash
    rw [ProcessVote_of_HasVote env obj vote hknown]
    exact h.append_same hwv ho hs hk
  | false =>
    by_cases hsignal : HasSignal vote
    · exact h.step_signal hrate hvalid hknown hsignal
    · exact h.step_no_signal hvalid hknown hsignal

end VotesInvariant

theorem HashBinding.mono {P : Primitives} {votes votes' : List CGovernanceVote}
    (h : HashBinding P votes) (hsub : votes' ⊆ votes) : HashBinding P votes' :=
  fun v hv w hw => h v (hsub hv) w (hsub hw)

def ProcessVotes (env : GovernanceEnv) (obj : CGovernanceObject) (votes : List CGovernanceVote) :
    CGovernanceObject :=
  votes.foldl (fun obj vote => (ProcessVote env obj vote).2) obj

@[simp] theorem ProcessVotes_nObjectType (env : GovernanceEnv) (obj : CGovernanceObject)
    (votes : List CGovernanceVote) :
    (ProcessVotes env obj votes).nObjectType = obj.nObjectType := by
  induction votes generalizing obj with
  | nil => rfl
  | cons vote votes ih =>
    rw [ProcessVotes, List.foldl_cons, ← ProcessVotes, ih, ProcessVote_nObjectType]

theorem VotesInvariant.run {env : GovernanceEnv} (hrate : env.AreRateChecksEnabled = false)
    {obj : CGovernanceObject} {pre votes : List CGovernanceVote} (h : VotesInvariant obj pre)
    (hvalid : ∀ v ∈ votes, v.IsValid env (obj.nObjectType == GOVERNANCE_OBJECT_PROPOSAL &&
      v.nVoteSignal == VOTE_SIGNAL_FUNDING) = true)
    (hbind : HashBinding env.P (pre ++ votes)) :
    VotesInvariant (ProcessVotes env obj votes) (pre ++ votes) := by
  induction votes generalizing obj pre with
  | nil => simpa [ProcessVotes] using h
  | cons vote votes ih =>
    have hsub : pre ++ [vote] ⊆ pre ++ vote :: votes := by
      intro a ha
      rcases List.mem_append.mp ha with ha | ha
      · exact List.mem_append_left _ ha
      · exact List.mem_append_right _ (List.mem_cons.mpr (Or.inl (List.mem_singleton.mp ha)))
    have hstep := h.step hrate (hvalid vote List.mem_cons_self) (hbind.mono hsub)
    have hrest := ih hstep (fun v hv => by
      simpa using hvalid v (List.mem_cons_of_mem _ hv)) (by simpa using hbind)
    simpa [ProcessVotes] using hrest

def MatchingWeight (env : GovernanceEnv) (eVoteSignalIn eVoteOutcomeIn : Int32)
    (outpoint : COutPoint) (rec : vote_rec_t) : Int :=
  match rec.mapInstances.lookup eVoteSignalIn with
  | some inst =>
    if inst.eOutcome = eVoteOutcomeIn then
      match env.mnList.GetMNByCollateral env.P outpoint with
      | some dmn => voting_weight dmn.nType
      | none => 0
    else 0
  | none => 0

theorem CountMatchingVotes_eq_mapSum (env : GovernanceEnv) (obj : CGovernanceObject)
    (eVoteSignalIn eVoteOutcomeIn : Int32) :
    CountMatchingVotes env obj eVoteSignalIn eVoteOutcomeIn =
      OwnerIndex.mapSum obj.mapCurrentMNVotes
        (MatchingWeight env eVoteSignalIn eVoteOutcomeIn) := by
  unfold CountMatchingVotes OwnerIndex.mapSum
  refine (OwnerIndex.foldl_eq_add_sum _ _ (fun nCount votepair => ?_) _ _).trans (zero_add _)
  unfold MatchingWeight
  cases votepair.2.mapInstances.lookup eVoteSignalIn with
  | none => simp
  | some inst =>
    by_cases hout : inst.eOutcome = eVoteOutcomeIn
    · cases env.mnList.GetMNByCollateral env.P votepair.1 <;> simp [hout]
    · simp [hout]

theorem MatchingWeight_congr (env : GovernanceEnv) (eVoteSignalIn eVoteOutcomeIn : Int32)
    (outpoint : COutPoint) {rec₁ rec₂ : vote_rec_t}
    (h : (rec₁.mapInstances.lookup eVoteSignalIn).map (·.eOutcome) =
      (rec₂.mapInstances.lookup eVoteSignalIn).map (·.eOutcome)) :
    MatchingWeight env eVoteSignalIn eVoteOutcomeIn outpoint rec₁ =
      MatchingWeight env eVoteSignalIn eVoteOutcomeIn outpoint rec₂ := by
  unfold MatchingWeight
  cases h₁ : rec₁.mapInstances.lookup eVoteSignalIn <;>
    cases h₂ : rec₂.mapInstances.lookup eVoteSignalIn <;> simp_all

theorem InstanceKey_inj {i j : vote_instance_t} (h : InstanceKey i = InstanceKey j) :
    (i.eOutcome, i.nCreationTime) = (j.eOutcome, j.nCreationTime) := by
  simp only [InstanceKey, toLex_inj, Prod.mk.injEq, Int64.toInt_inj, Int32.toInt_inj] at h
  rw [h.1, h.2]

theorem VotesInvariant.perm {obj₁ obj₂ : CGovernanceObject}
    {votes₁ votes₂ : List CGovernanceVote}
    (h₁ : VotesInvariant obj₁ votes₁) (h₂ : VotesInvariant obj₂ votes₂)
    (hperm : votes₁.Perm votes₂) :
    (∀ o s, (obj₁.Record o s).map InstanceKey = (obj₂.Record o s).map InstanceKey) ∧
      ∀ o, (obj₁.mapCurrentMNVotes.lookup o).isSome =
        (obj₂.mapCurrentMNVotes.lookup o).isSome := by
  refine ⟨fun o s => ?_, fun o => ?_⟩
  · have hp : (VotesFor votes₁ o s).Perm (VotesFor votes₂ o s) := hperm.filter _
    have hnil : VotesFor votes₁ o s = [] ↔ VotesFor votes₂ o s = [] := by
      rw [← List.length_eq_zero_iff, hp.length_eq, List.length_eq_zero_iff]
    rw [h₁.record, h₂.record, LatestKey_perm hperm]
    simp only [ne_eq, hnil]
  · have hmem :
        (∃ v ∈ votes₁, v.masternodeOutpoint = o) ↔ ∃ v ∈ votes₂, v.masternodeOutpoint = o :=
      exists_congr fun v => and_congr_left fun _ => hperm.mem_iff
    exact Bool.eq_iff_iff.mpr ((h₁.keys o).trans (hmem.trans (h₂.keys o).symm))

theorem CountMatchingVotes_congr (env : GovernanceEnv) {obj₁ obj₂ : CGovernanceObject}
    (hrec : ∀ o s, (obj₁.Record o s).map (·.eOutcome) = (obj₂.Record o s).map (·.eOutcome))
    (hkeys : ∀ o, (obj₁.mapCurrentMNVotes.lookup o).isSome =
      (obj₂.mapCurrentMNVotes.lookup o).isSome) (eVoteSignalIn eVoteOutcomeIn : Int32) :
    CountMatchingVotes env obj₁ eVoteSignalIn eVoteOutcomeIn =
      CountMatchingVotes env obj₂ eVoteSignalIn eVoteOutcomeIn := by
  rw [CountMatchingVotes_eq_mapSum, CountMatchingVotes_eq_mapSum]
  apply OwnerIndex.mapSum_congr_lookup
  intro o
  have hs := hrec o eVoteSignalIn
  have hk := hkeys o
  unfold Record at hs
  cases h₁ : obj₁.mapCurrentMNVotes.lookup o <;> cases h₂ : obj₂.mapCurrentMNVotes.lookup o
  · rfl
  · simp [h₁, h₂] at hk
  · simp [h₁, h₂] at hk
  · rw [h₁, h₂] at hs
    simp only [Option.bind_some, Option.map_some, Option.some.injEq] at hs ⊢
    exact MatchingWeight_congr env eVoteSignalIn eVoteOutcomeIn o hs

/-- Votes processed in any two orders on a new object, rate checks off: every masternode and
signal ends with the same outcome and creation time, the greatest (timestamp, outcome) among the
pair's votes and the default instance, and the vote counts agree. -/
theorem ProcessVotes_records_converge {env : GovernanceEnv}
    (hrate : env.AreRateChecksEnabled = false) (nObjectType : Int)
    {votes votes' : List CGovernanceVote} (hperm : votes.Perm votes')
    (hvalid : ∀ v ∈ votes, v.IsValid env (nObjectType == GOVERNANCE_OBJECT_PROPOSAL &&
      v.nVoteSignal == VOTE_SIGNAL_FUNDING) = true)
    (hbind : HashBinding env.P votes) :
    (∀ o s, ((ProcessVotes env { nObjectType } votes).Record o s).map
          (fun i => (i.eOutcome, i.nCreationTime)) =
        ((ProcessVotes env { nObjectType } votes').Record o s).map
          (fun i => (i.eOutcome, i.nCreationTime)) ∧
      ((ProcessVotes env { nObjectType } votes).Record o s).map InstanceKey =
        if s ≠ VOTE_SIGNAL_NONE ∧ VotesFor votes o s ≠ [] then some (LatestKey votes o s)
        else none) ∧
    ∀ eVoteSignalIn eVoteOutcomeIn,
      CountMatchingVotes env (ProcessVotes env { nObjectType } votes) eVoteSignalIn eVoteOutcomeIn =
        CountMatchingVotes env (ProcessVotes env { nObjectType } votes') eVoteSignalIn
          eVoteOutcomeIn := by
  have h₁ : VotesInvariant (ProcessVotes env { nObjectType } votes) votes := by
    simpa using (VotesInvariant.init nObjectType).run hrate hvalid (by simpa using hbind)
  have h₂ : VotesInvariant (ProcessVotes env { nObjectType } votes') votes' := by
    simpa using (VotesInvariant.init nObjectType).run hrate
      (fun v hv => hvalid v (hperm.mem_iff.mpr hv)) (by simpa using hbind.mono hperm.symm.subset)
  obtain ⟨hkey, hkeys⟩ := h₁.perm h₂ hperm
  have hproj : ∀ o s, ((ProcessVotes env { nObjectType } votes).Record o s).map
        (fun i => (i.eOutcome, i.nCreationTime)) =
      ((ProcessVotes env { nObjectType } votes').Record o s).map
        (fun i => (i.eOutcome, i.nCreationTime)) := by
    intro o s
    have hk := hkey o s
    cases hr₁ : (ProcessVotes env { nObjectType } votes).Record o s <;>
      cases hr₂ : (ProcessVotes env { nObjectType } votes').Record o s <;>
      simp only [hr₁, hr₂, Option.map_none, Option.map_some, Option.some.injEq,
        reduceCtorEq] at hk ⊢
    exact InstanceKey_inj hk
  refine ⟨fun o s => ⟨hproj o s, h₁.record o s⟩, ?_⟩
  intro eVoteSignalIn eVoteOutcomeIn
  refine CountMatchingVotes_congr env (fun o s => ?_) hkeys eVoteSignalIn eVoteOutcomeIn
  have h := congrArg (Option.map Prod.fst) (hproj o s)
  rw [Option.map_map, Option.map_map] at h
  exact h

end CGovernanceObject

open CGovernanceObject

/-- Rate checks off at time 0, over three masternodes with collaterals ⟨0, k⟩, where every
signature checks. -/
def votingEnv : GovernanceEnv := ⟨bytesPrimitives, threeMns, 0, false, fun _ _ _ => true⟩

def pastVote : CGovernanceVote :=
  { nVoteSignal := VOTE_SIGNAL_FUNDING, masternodeOutpoint := ⟨0, 1⟩, nParentHash := 0,
    nVoteOutcome := 1, nTime := -1 }

def laterVote : CGovernanceVote := { pastVote with nVoteOutcome := 2, nTime := 5 }

theorem ProcessVote_keeps_default_for_negative_time :
    pastVote.IsValid votingEnv true = true ∧
      ((ProcessVotes votingEnv { nObjectType := GOVERNANCE_OBJECT_PROPOSAL } [pastVote]).Record
          pastVote.masternodeOutpoint VOTE_SIGNAL_FUNDING).map
        (fun i => (i.eOutcome, i.nCreationTime)) = some (VOTE_OUTCOME_NONE, 0) := by
  decide +kernel

theorem votes_converge_in_both_orders :
    ((ProcessVotes votingEnv { nObjectType := GOVERNANCE_OBJECT_PROPOSAL }
          [pastVote, laterVote]).Record pastVote.masternodeOutpoint VOTE_SIGNAL_FUNDING).map
        InstanceKey = some (VoteKey laterVote) ∧
      CountMatchingVotes votingEnv (ProcessVotes votingEnv
          { nObjectType := GOVERNANCE_OBJECT_PROPOSAL } [pastVote, laterVote]) VOTE_SIGNAL_FUNDING 2 =
        CountMatchingVotes votingEnv (ProcessVotes votingEnv
          { nObjectType := GOVERNANCE_OBJECT_PROPOSAL } [laterVote, pastVote]) VOTE_SIGNAL_FUNDING 2 := by
  obtain ⟨hrec, hcount⟩ := ProcessVotes_records_converge
    (show votingEnv.AreRateChecksEnabled = false from rfl) GOVERNANCE_OBJECT_PROPOSAL
    (List.Perm.swap laterVote pastVote []) (by decide +kernel)
    (by unfold HashBinding; decide +kernel)
  refine ⟨?_, hcount _ _⟩
  rw [(hrec _ _).2]
  decide

end DashCore
