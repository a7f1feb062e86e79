import DashCore.Llmq.Commitment
import Mathlib.Data.List.AList

/-! The vote a masternode records before it signs a share of a request (llmq/signing.cpp).
`AsyncSignIfMember` signs for a request id only a message hash it has not voted against: the
first call that gets past its checks records its hash with `WriteVoteForId`, and later calls
sign only that hash again, when re-signing is allowed. The quorum selection, the membership
check and the recovered-signature lookup are read from the environment of each call. -/
namespace DashCore

structure CRecoveredSig where
  llmqType : LLMQType
  quorumHash : uint256
  id : uint256
  msgHash : uint256
  sig : CBLSSignature
deriving DecidableEq, Repr

structure VoteDb where
  votes : AList (fun _ : LLMQType × uint256 => uint256) := ∅

namespace VoteDb

def HasVotedOnId (db : VoteDb) (llmqType : LLMQType) (id : uint256) : Bool :=
  (db.votes.lookup (llmqType, id)).isSome

/-- `GetVoteForId(llmqType, id, msgHashRet)`: the hash read, or `none` when the read fails. -/
def GetVoteForId (db : VoteDb) (llmqType : LLMQType) (id : uint256) : Option uint256 :=
  db.votes.lookup (llmqType, id)

/-- `WriteVoteForId(llmqType, id, msgHash)`; its `"rs_vt"` time key serves the cleanup only. -/
def WriteVoteForId (db : VoteDb) (llmqType : LLMQType) (id msgHash : uint256) : VoteDb :=
  { votes := db.votes.insert (llmqType, id) msgHash }

end VoteDb

/-- What `AsyncSignIfMember` reads besides the votes: whether the node runs as a masternode
with a registered proTxHash, whether a quorum was selected for the request and has the node as
a valid member, and whether a recovered signature for the id is known. -/
structure SignEnv where
  fMasternodeMode : Bool
  proTxHashIsNull : Bool
  quorumFound : Bool
  isValidMember : Bool
  hasRecoveredSigForId : Bool

structure SignRequest where
  llmqType : LLMQType
  id : uint256
  msgHash : uint256
  quorumHash : uint256
  allowReSign : Bool

/-- `AsyncSignIfMember(llmqType, shareman, id, msgHash, quorumHash, allowReSign)`: its result,
the votes after it, and the `(llmqType, id, msgHash)` it hands to `CSigSharesManager::AsyncSign`
if it does. -/
def AsyncSignIfMember (env : SignEnv) (db : VoteDb) (r : SignRequest) :
    Bool × VoteDb × Option (LLMQType × uint256 × uint256) :=
  if !env.fMasternodeMode || env.proTxHashIsNull then (false, db, none)
  else if !env.quorumFound then (false, db, none)
  else if !env.isValidMember then (false, db, none)
  else
    let hasVoted := db.HasVotedOnId r.llmqType r.id
    -- a failed read leaves `prevMsgHash` at `uint256()`
    let prevMsgHash := (db.GetVoteForId r.llmqType r.id).getD 0
    if hasVoted && r.msgHash != prevMsgHash then (false, db, none)
    else if hasVoted && !r.allowReSign then (false, db, none)
    -- no need to sign it if we already have a recovered sig
    else if env.hasRecoveredSigForId then (true, db, none)
    else
      let db := if hasVoted then db else db.WriteVoteForId r.llmqType r.id r.msgHash
      (true, db, some (r.llmqType, r.id, r.msgHash))

/-- A sequence of calls, each with its environment: the votes after it, and the requests handed
to `AsyncSign`, in order. -/
def AsyncSignRun : List (SignEnv × SignRequest) → VoteDb → VoteDb × List (LLMQType × uint256 × uint256)
  | [], db => (db, [])
  | (env, r) :: rest, db =>
    let (_, db', signed) := AsyncSignIfMember env db r
    let (db'', signs) := AsyncSignRun rest db'
    (db'', signed.toList ++ signs)

theorem AsyncSignIfMember_cases (env : SignEnv) (db : VoteDb) (r : SignRequest) :
    ((AsyncSignIfMember env db r).2.1 = db ∧ (AsyncSignIfMember env db r).2.2 = none) ∨
    (db.votes.lookup (r.llmqType, r.id) = some r.msgHash ∧ (AsyncSignIfMember env db r).2.1 = db ∧
      (AsyncSignIfMember env db r).2.2 = some (r.llmqType, r.id, r.msgHash)) ∨
    (db.votes.lookup (r.llmqType, r.id) = none ∧
      (AsyncSignIfMember env db r).2.1 = db.WriteVoteForId r.llmqType r.id r.msgHash ∧
      (AsyncSignIfMember env db r).2.2 = some (r.llmqType, r.id, r.msgHash)) := by
  unfold AsyncSignIfMember
  dsimp only
  split_ifs with h1 h2 h3 h4 h5 h6 hvoted
  · exact .inl ⟨rfl, rfl⟩
  · exact .inl ⟨rfl, rfl⟩
  · exact .inl ⟨rfl, rfl⟩
  · exact .inl ⟨rfl, rfl⟩
  · exact .inl ⟨rfl, rfl⟩
  · exact .inl ⟨rfl, rfl⟩
  · -- the id has a vote, and the conflict check let only its hash through
    obtain ⟨v, hv⟩ := Option.isSome_iff_exists.mp hvoted
    have hm : r.msgHash = v := by
      simpa [VoteDb.HasVotedOnId, VoteDb.GetVoteForId, hv] using h4
    exact .inr (.inl ⟨hm ▸ hv, rfl, rfl⟩)
  · have hnone : db.votes.lookup (r.llmqType, r.id) = none := by
      simpa [VoteDb.HasVotedOnId] using hvoted
    exact .inr (.inr ⟨hnone, rfl, rfl⟩)

theorem AsyncSignIfMember_keeps_vote (env : SignEnv) (db : VoteDb) (r : SignRequest)
    {key : LLMQType × uint256} {v : uint256} (hv : db.votes.lookup key = some v) :
    (AsyncSignIfMember env db r).2.1.votes.lookup key = some v := by
  rcases AsyncSignIfMember_cases env db r with ⟨hdb, -⟩ | ⟨-, hdb, -⟩ | ⟨hnone, hdb, -⟩
  · rw [hdb]; exact hv
  · rw [hdb]; exact hv
  · rw [hdb]
    have hne : key ≠ (r.llmqType, r.id) := by
      rintro rfl
      rw [hnone] at hv
      cases hv
    simpa [VoteDb.WriteVoteForId, AList.lookup_insert_ne hne] using hv

theorem AsyncSignIfMember_signed {env : SignEnv} {db : VoteDb} {r : SignRequest}
    {t : LLMQType} {id m : uint256}
    (h : (AsyncSignIfMember env db r).2.2 = some (t, id, m)) :
    (AsyncSignIfMember env db r).2.1.votes.lookup (t, id) = some m := by
  rcases AsyncSignIfMember_cases env db r with ⟨-, hs⟩ | ⟨hv, hdb, hs⟩ | ⟨-, hdb, hs⟩
  · rw [hs] at h
    cases h
  · rw [hs] at h
    cases h
    rw [hdb]
    exact hv
  · rw [hs] at h
    cases h
    rw [hdb]
    exact AList.lookup_insert _

theorem AsyncSignRun_keeps_vote (calls : List (SignEnv × SignRequest)) {db : VoteDb}
    {key : LLMQType × uint256} {v : uint256} (hv : db.votes.lookup key = some v) :
    (AsyncSignRun calls db).1.votes.lookup key = some v := by
  induction calls generalizing db with
  | nil => exact hv
  | cons call rest ih =>
    obtain ⟨env, r⟩ := call
    exact ih (AsyncSignIfMember_keeps_vote env db r hv)

theorem AsyncSignRun_signed (calls : List (SignEnv × SignRequest)) (db : VoteDb)
    {t : LLMQType} {id m : uint256} (hm : (t, id, m) ∈ (AsyncSignRun calls db).2) :
    (AsyncSignRun calls db).1.votes.lookup (t, id) = some m := by
  induction calls generalizing db with
  | nil => cases hm
  | cons call rest ih =>
    obtain ⟨env, r⟩ := call
    simp only [AsyncSignRun] at hm ⊢
    rcases List.mem_append.mp hm with hm | hm
    · have hs : (AsyncSignIfMember env db r).2.2 = some (t, id, m) := Option.mem_toList.mp hm
      exact AsyncSignRun_keeps_vote rest (AsyncSignIfMember_signed hs)
    · exact ih _ hm

/-- For every sequence of `AsyncSignIfMember` calls from any vote database, with any
environments, re-sign flags, ids and hashes: every request handed to `AsyncSign` carries the
hash of the vote on its `(llmqType, id)`, so two of them on one id carry one hash; and a vote,
once recorded by `WriteVoteForId`, is the one the database holds at the end. -/
theorem AsyncSignIfMember_signs_recorded_vote (calls : List (SignEnv × SignRequest))
    (db : VoteDb) :
    (∀ t id m, (t, id, m) ∈ (AsyncSignRun calls db).2 →
      (AsyncSignRun calls db).1.votes.lookup (t, id) = some m) ∧
    (∀ t id m m', (t, id, m) ∈ (AsyncSignRun calls db).2 →
      (t, id, m') ∈ (AsyncSignRun calls db).2 → m = m') ∧
    (∀ key v, db.votes.lookup key = some v → (AsyncSignRun calls db).1.votes.lookup key = some v) := by
  refine ⟨fun t id m hm => AsyncSignRun_signed calls db hm, fun t id m m' hm hm' => ?_,
    fun key v hv => AsyncSignRun_keeps_vote calls hv⟩
  have h1 := AsyncSignRun_signed calls db hm
  have h2 := AsyncSignRun_signed calls db hm'
  rw [h1] at h2
  exact Option.some.inj h2

end DashCore
