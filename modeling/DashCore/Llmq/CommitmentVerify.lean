import DashCore.Llmq.MineableCommitments
import DashCore.Llmq.ChainLocks

/-! The checks of a quorum commitment (llmq/commitment.cpp): `CheckLLMQCommitment` on the payload
of a commitment transaction, and `CFinalCommitment::Verify` and `VerifyNull`, which it calls on
the commitment. The bitsets `signers` and `validMembers` come from the transaction with any
length. `std::vector<bool>::operator[]` does not check its index, so a read at or past the end
is undefined behaviour; the model makes it the fault `outOfRange`. So is the
`std::invalid_argument` that `irange::range(start, stop)` throws for a start past the stop. -/
namespace DashCore

structure CommitmentLLMQParams where
  type : LLMQType
  useRotation : Bool
  size : Nat
  minSize : Nat
  dkgInterval : Int
deriving DecidableEq, Repr

/-- What the checks read besides the transaction: the LLMQ parameters, the block index and the
chain's deployments, the quorum members, the BLS library, and the log settings. -/
structure CommitmentEnv where
  P : Primitives
  DecodesSig : BitVec 768 → Bool
  /-- `Params().GetLLMQ(llmqType)`. -/
  GetLLMQParams : LLMQType → Option CommitmentLLMQParams
  /-- `LookupBlockIndex(hash)`. -/
  LookupBlockIndex : uint256 → Option CBlockIndex
  /-- `pindex->GetAncestor(height)`. -/
  GetAncestor : CBlockIndex → Int → Option CBlockIndex
  /-- `IsDIP0024Active(pindex->GetAncestor(height))`. -/
  IsDIP0024Active : CBlockIndex → Int → Bool
  /-- `utils::IsV19Active(pindex)`. -/
  IsV19Active : CBlockIndex → Bool
  /-- `utils::GetAllQuorumMembers(llmqType, pQuorumBaseBlockIndex)`. -/
  GetAllQuorumMembers : LLMQType → CBlockIndex → List CDeterministicMN
  /-- `utils::BuildCommitmentHash(llmqType, quorumHash, validMembers, pubKey, vvecHash)`. -/
  BuildCommitmentHash : LLMQType → uint256 → List Bool → CBLSPublicKey → uint256 → uint256
  /-- `CBLSSignature::VerifySecureAggregated(pubKeys, hash)`, over the keys `Get` returned. -/
  VerifySecureAggregated : CBLSSignature → List (Option (BitVec 384)) → uint256 → Bool
  /-- `CBLSSignature::VerifyInsecure(pubKey, hash)`. -/
  VerifyInsecure : CBLSSignature → CBLSPublicKey → uint256 → Bool
  /-- `LogAcceptCategory(BCLog::LLMQ)`: the LLMQ debug category is logged. -/
  LogAcceptCategory : Bool

/-- What leaves the checks other than a result: undefined behaviour or an exception. -/
inductive CommitmentFault where
  /-- `std::vector<bool>::operator[]` at an index that is not below the size. -/
  | outOfRange (bitset : String) (index : Nat)
  /-- An exception `std::invalid_argument`. -/
  | invalidArgument (what : String)
deriving DecidableEq, Repr

inductive CheckError where
  /-- `state.Invalid(..., reason)`: the transaction is rejected. -/
  | invalid (reason : String)
  | fault (f : CommitmentFault)
deriving DecidableEq, Repr

def bitAt (bitset : String) (v : List Bool) (i : Nat) : Except CommitmentFault Bool :=
  match v[i]? with
  | some b => pure b
  | none => throw (.outOfRange bitset i)

def irange (start stop : Nat) : Except CommitmentFault (List Nat) :=
  if start > stop then throw (.invalidArgument "Range arguments must result in termination")
  else pure (List.range' start (stop - start))

/-- `utils::IsQuorumRotationEnabled(llmqParams, pindex)`: a rotating type whose cycle started
after DIP0024 activated. -/
def IsQuorumRotationEnabled (env : CommitmentEnv) (llmqParams : CommitmentLLMQParams)
    (pindex : CBlockIndex) : Bool :=
  if !llmqParams.useRotation then false
  else
    let cycleQuorumBaseHeight := pindex.nHeight - pindex.nHeight.tmod llmqParams.dkgInterval
    if cycleQuorumBaseHeight < 1 then false
    else env.IsDIP0024Active pindex (cycleQuorumBaseHeight - 1)

def CFinalCommitmentTxPayload.CURRENT_VERSION : UInt16 := 1

namespace CFinalCommitment

def CountValidMembers (c : CFinalCommitment) : Nat := c.validMembers.count true

def VerifySizes (c : CFinalCommitment) (params : CommitmentLLMQParams) : Bool :=
  c.signers.length == params.size && c.validMembers.length == params.size

/-- The debug-log loop of `Verify`: `validMembers[i]` and `signers[i]` for each `i` below the
quorum size. -/
def LogBitsets (c : CFinalCommitment) (size : Nat) : Except CommitmentFault Unit :=
  (List.range size).forM fun i => do
    let _ ← bitAt "validMembers" c.validMembers i
    let _ ← bitAt "signers" c.signers i

/-- The debug-log block of `CheckLLMQCommitment`: where the LLMQ category is logged,
`validMembers[i]` for each `i` below the quorum size. -/
def LogValidMembers (env : CommitmentEnv) (c : CFinalCommitment) (size : Nat) :
    Except CommitmentFault Unit :=
  if env.LogAcceptCategory then
    (List.range size).forM fun i => do
      let _ ← bitAt "validMembers" c.validMembers i
  else pure ()

/-- The loop of `Verify` over the indices from the member count to the quorum size: a set bit
there rejects the commitment. -/
def CheckUnusedBits (c : CFinalCommitment) : List Nat → Except CommitmentFault Bool
  | [] => pure true
  | i :: is => do
    if ← bitAt "validMembers" c.validMembers i then return false
    if ← bitAt "signers" c.signers i then return false
    CheckUnusedBits c is

/-- The loop of `Verify` that collects the operator keys of the members that signed. -/
def MemberPubKeys (P : Primitives) (c : CFinalCommitment) :
    List (CDeterministicMN × Nat) → Except CommitmentFault (List (Option (BitVec 384)))
  | [] => pure []
  | (mn, i) :: rest => do
    let signer ← bitAt "signers" c.signers i
    let keys ← MemberPubKeys P c rest
    pure (if signer then (mn.pdmnState.pubKeyOperator.Get P).1 :: keys else keys)

/-- The checks of `Verify` before it reads the bitsets by index, in the source's order: the
version, the quorum's hash and index, the sizes and counts, and the key, hash and signatures. -/
def VerifyHeader (env : CommitmentEnv) (c : CFinalCommitment) (llmq_params : CommitmentLLMQParams)
    (pQuorumBaseBlockIndex : CBlockIndex) : Bool :=
  let expected_nversion : UInt16 :=
    if IsQuorumRotationEnabled env llmq_params pQuorumBaseBlockIndex then
      if env.IsV19Active pQuorumBaseBlockIndex then BASIC_BLS_INDEXED_QUORUM_VERSION
      else LEGACY_BLS_INDEXED_QUORUM_VERSION
    else
      if env.IsV19Active pQuorumBaseBlockIndex then BASIC_BLS_NON_INDEXED_QUORUM_VERSION
      else LEGACY_BLS_NON_INDEXED_QUORUM_VERSION
  if c.nVersion == 0 || c.nVersion != expected_nversion then false
  else if pQuorumBaseBlockIndex.hash != c.quorumHash then false
  else if pQuorumBaseBlockIndex.nHeight.tmod llmq_params.dkgInterval != c.quorumIndex.toInt then
    false
  else if !c.VerifySizes llmq_params then false
  else if c.CountValidMembers < llmq_params.minSize then false
  else if c.CountSigners < llmq_params.minSize then false
  else if !c.quorumPublicKey.IsValid env.P (IsLegacyVersion c.nVersion) then false
  else if c.quorumVvecHash == 0 then false
  else if !c.membersSig.IsValid env.DecodesSig then false
  else if !c.quorumSig.IsValid env.DecodesSig then false
  else true

def Verify (env : CommitmentEnv) (c : CFinalCommitment) (pQuorumBaseBlockIndex : CBlockIndex)
    (checkSigs : Bool) : Except CommitmentFault Bool := do
  let some llmq_params := env.GetLLMQParams c.llmqType | return false
  if !c.VerifyHeader env llmq_params pQuorumBaseBlockIndex then return false
  let members := env.GetAllQuorumMembers c.llmqType pQuorumBaseBlockIndex
  if env.LogAcceptCategory then c.LogBitsets llmq_params.size
  if !(← c.CheckUnusedBits (← irange members.length llmq_params.size)) then return false
  -- sigs are only checked when the block is processed
  if checkSigs then
    let commitmentHash := env.BuildCommitmentHash llmq_params.type c.quorumHash c.validMembers
      c.quorumPublicKey c.quorumVvecHash
    let memberPubKeys ← c.MemberPubKeys env.P members.zipIdx
    if !env.VerifySecureAggregated c.membersSig memberPubKeys commitmentHash then return false
    if !env.VerifyInsecure c.quorumSig c.quorumPublicKey commitmentHash then return false
  return true

def VerifyNull (env : CommitmentEnv) (c : CFinalCommitment) : Bool :=
  match env.GetLLMQParams c.llmqType with
  | none => false
  | some params => !(!c.IsNull env.P env.DecodesSig || !c.VerifySizes params)

end CFinalCommitment

section Loops

/-! The loops of the checks read the bitsets at consecutive indices; each either runs through,
or stops at the first index that is out of range. -/

variable {s : String} {v : List Bool} {i : Nat}

theorem bitAt_of_lt (h : i < v.length) : bitAt s v i = pure (v.getD i false) := by
  simp [bitAt, List.getElem?_eq_getElem h]

theorem bitAt_of_le (h : v.length ≤ i) : bitAt s v i = .error (.outOfRange s i) := by
  simp [bitAt, List.getElem?_eq_none h]

theorem irange_of_le {start stop : Nat} (h : start ≤ stop) :
    irange start stop = pure (List.range' start (stop - start)) := by
  simp [irange, Nat.not_lt.mpr h]

@[simp] theorem mapError_pure {ε ε' α : Type} (g : ε → ε') (a : α) :
    (pure a : Except ε α).mapError g = pure a := rfl

@[simp] theorem mapError_error {ε ε' α : Type} (g : ε → ε') (e : ε) :
    (Except.error e : Except ε α).mapError g = .error (g e) := rfl

variable {ε : Type} {f : Nat → Except ε Unit}

theorem forM_range_of_ok {n : Nat} (h : ∀ i < n, f i = pure ()) : forM (List.range n) f = pure () := by
  induction n with
  | zero => rfl
  | succ n ih =>
    rw [List.range_succ, List.forM_append, ih (fun i hi => h i (by omega))]
    simpa using h n (by omega)

theorem forM_range_of_error {n k : Nat} {e : ε} (hok : ∀ i < k, f i = pure ()) (he : f k = .error e)
    (hk : k < n) : forM (List.range n) f = .error e := by
  induction n with
  | zero => omega
  | succ n ih =>
    rw [List.range_succ, List.forM_append]
    rcases Nat.lt_succ_iff_lt_or_eq.mp hk with hlt | rfl
    · rw [ih hlt]
      rfl
    · rw [forM_range_of_ok hok]
      simpa using he

end Loops

namespace CFinalCommitment

variable {c : CFinalCommitment} {size : Nat}

theorem LogValidMembers_of_le {env : CommitmentEnv}
    (h : env.LogAcceptCategory = true → size ≤ c.validMembers.length) :
    c.LogValidMembers env size = pure () := by
  rw [LogValidMembers]
  split
  · rw [List.forM_eq_forM]
    exact forM_range_of_ok fun i hi => by
      simp [bitAt_of_lt (Nat.lt_of_lt_of_le hi (h ‹_›))]
  · rfl

theorem LogValidMembers_of_lt {env : CommitmentEnv} (hlog : env.LogAcceptCategory = true)
    (h : c.validMembers.length < size) :
    c.LogValidMembers env size = .error (.outOfRange "validMembers" c.validMembers.length) := by
  rw [LogValidMembers, if_pos hlog, List.forM_eq_forM]
  refine forM_range_of_error (fun i hi => ?_) ?_ h
  · simp [bitAt_of_lt hi]
  · simp [bitAt_of_le (le_refl _)]

theorem LogBitsets_of_le (h₁ : size ≤ c.validMembers.length) (h₂ : size ≤ c.signers.length) :
    c.LogBitsets size = pure () := by
  rw [LogBitsets, List.forM_eq_forM]
  refine forM_range_of_ok fun i hi => ?_
  simp [bitAt_of_lt (Nat.lt_of_lt_of_le hi h₁), bitAt_of_lt (Nat.lt_of_lt_of_le hi h₂)]

theorem CheckUnusedBits_eq {is : List Nat}
    (h : ∀ i ∈ is, i < c.validMembers.length ∧ i < c.signers.length) :
    c.CheckUnusedBits is =
      pure (is.all fun i => !c.validMembers.getD i false && !c.signers.getD i false) := by
  induction is with
  | nil => rfl
  | cons i is ih =>
    obtain ⟨hv, hs⟩ := h i List.mem_cons_self
    have htail := ih fun j hj => h j (List.mem_cons_of_mem i hj)
    simp only [CheckUnusedBits, bitAt_of_lt hv, bitAt_of_lt hs, htail, List.all_cons]
    cases c.validMembers.getD i false <;> cases c.signers.getD i false <;> rfl

theorem MemberPubKeys_eq {P : Primitives} {ps : List (CDeterministicMN × Nat)}
    (h : ∀ p ∈ ps, p.2 < c.signers.length) :
    c.MemberPubKeys P ps = pure ((ps.filter fun p => c.signers.getD p.2 false).map
      fun p => (p.1.pdmnState.pubKeyOperator.Get P).1) := by
  induction ps with
  | nil => rfl
  | cons p ps ih =>
    obtain ⟨mn, i⟩ := p
    have hs := h (mn, i) List.mem_cons_self
    have htail := ih fun q hq => h q (List.mem_cons_of_mem _ hq)
    simp only [MemberPubKeys, bitAt_of_lt hs, htail, List.filter_cons]
    cases c.signers.getD i false <;> rfl

theorem GetVersion_ne_zero (is_rotation_enabled is_basic_scheme_active : Bool) :
    GetVersion is_rotation_enabled is_basic_scheme_active ≠ 0 := by
  cases is_rotation_enabled <;> cases is_basic_scheme_active <;> decide

/-- What `Verify` asks of a commitment before it reads the bitsets, for the parameters of its
type and its quorum's base block. -/
structure WellFormed (env : CommitmentEnv) (params : CommitmentLLMQParams) (base : CBlockIndex)
    (c : CFinalCommitment) : Prop where
  nVersion : c.nVersion = GetVersion (IsQuorumRotationEnabled env params base) (env.IsV19Active base)
  quorumHash : base.hash = c.quorumHash
  quorumIndex : base.nHeight.tmod params.dkgInterval = c.quorumIndex.toInt
  signers_length : c.signers.length = params.size
  validMembers_length : c.validMembers.length = params.size
  minSize_le_validMembers : params.minSize ≤ c.CountValidMembers
  minSize_le_signers : params.minSize ≤ c.CountSigners
  quorumPublicKey_valid : c.quorumPublicKey.IsValid env.P (IsLegacyVersion c.nVersion) = true
  quorumVvecHash_ne : c.quorumVvecHash ≠ 0
  membersSig_valid : c.membersSig.IsValid env.DecodesSig = true
  quorumSig_valid : c.quorumSig.IsValid env.DecodesSig = true

theorem VerifyHeader_iff {env : CommitmentEnv} {params : CommitmentLLMQParams} {base : CBlockIndex} :
    c.VerifyHeader env params base = true ↔ c.WellFormed env params base := by
  have hexpected := GetVersion_ne_zero (IsQuorumRotationEnabled env params base) (env.IsV19Active base)
  change (if (c.nVersion == 0 || c.nVersion != GetVersion (IsQuorumRotationEnabled env params base)
    (env.IsV19Active base)) = true then false else _) = true ↔ _
  simp only [ite_eq_iff, Bool.false_eq_true, and_false, false_or, and_true, Bool.or_eq_true,
    beq_iff_eq, bne_iff_ne, ne_eq, not_or, not_not, Bool.not_eq_true', Bool.not_eq_false, not_lt, VerifySizes,
    Bool.and_eq_true]
  constructor
  · rintro ⟨⟨-, hv⟩, hh, hi, ⟨hs, hvm⟩, hc₁, hc₂, hk, hz, hm, hq⟩
    exact ⟨hv, hh, hi, hs, hvm, hc₁, hc₂, hk, hz, hm, hq⟩
  · rintro ⟨hv, hh, hi, hs, hvm, hc₁, hc₂, hk, hz, hm, hq⟩
    exact ⟨⟨hv ▸ hexpected, hv⟩, hh, hi, ⟨hs, hvm⟩, hc₁, hc₂, hk, hz, hm, hq⟩

def NoBitsFrom (c : CFinalCommitment) (n : Nat) : Prop :=
  ∀ i, n ≤ i → c.validMembers.getD i false = false ∧ c.signers.getD i false = false

def UnusedBitsClear (c : CFinalCommitment) (n size : Nat) : Bool :=
  (List.range' n (size - n)).all fun i => !c.validMembers.getD i false && !c.signers.getD i false

theorem UnusedBitsClear_iff {n size : Nat} (hv : c.validMembers.length = size)
    (hs : c.signers.length = size) : c.UnusedBitsClear n size = true ↔ c.NoBitsFrom n := by
  simp only [UnusedBitsClear, List.all_eq_true, List.mem_range'_1, Bool.and_eq_true,
    Bool.not_eq_true']
  constructor
  · intro h i hi
    by_cases hlt : i < size
    · exact h i ⟨hi, by omega⟩
    · simp [List.getD_eq_getElem?_getD, List.getElem?_eq_none (by omega : c.validMembers.length ≤ i),
        List.getElem?_eq_none (by omega : c.signers.length ≤ i)]
  · intro h i hi
    exact h i hi.1

/-- The operator keys of the members whose bit in `signers` is set, in the members' order. -/
def SigningKeys (P : Primitives) (c : CFinalCommitment) (members : List CDeterministicMN) :
    List (Option (BitVec 384)) :=
  (members.zipIdx.filter fun p => c.signers.getD p.2 false).map
    fun p => (p.1.pdmnState.pubKeyOperator.Get P).1

/-- The two signature checks of `Verify`: the members' signature, aggregated over the keys of
the signers, and the quorum's signature, both of the commitment hash. -/
def SignaturesValid (env : CommitmentEnv) (params : CommitmentLLMQParams) (c : CFinalCommitment)
    (members : List CDeterministicMN) : Bool :=
  let commitmentHash := env.BuildCommitmentHash params.type c.quorumHash c.validMembers
    c.quorumPublicKey c.quorumVvecHash
  env.VerifySecureAggregated c.membersSig (c.SigningKeys env.P members) commitmentHash &&
    env.VerifyInsecure c.quorumSig c.quorumPublicKey commitmentHash

section Verify

variable {env : CommitmentEnv} {params : CommitmentLLMQParams} {base : CBlockIndex}
  {checkSigs : Bool}

theorem Verify_of_GetLLMQParams_none (hp : env.GetLLMQParams c.llmqType = none) :
    c.Verify env base checkSigs = .ok false := by
  simp [Verify, hp]
  rfl

theorem Verify_of_not_WellFormed (hp : env.GetLLMQParams c.llmqType = some params)
    (hh : ¬c.WellFormed env params base) : c.Verify env base checkSigs = .ok false := by
  have hheader : c.VerifyHeader env params base = false := by
    simpa [← VerifyHeader_iff] using hh
  simp [Verify, hp, hheader]
  rfl

theorem Verify_of_WellFormed (hp : env.GetLLMQParams c.llmqType = some params)
    (hh : c.WellFormed env params base)
    (hm : (env.GetAllQuorumMembers c.llmqType base).length ≤ params.size) :
    c.Verify env base checkSigs = .ok
      (c.UnusedBitsClear (env.GetAllQuorumMembers c.llmqType base).length params.size &&
        (!checkSigs || c.SignaturesValid env params (env.GetAllQuorumMembers c.llmqType base))) := by
  have hheader : c.VerifyHeader env params base = true := VerifyHeader_iff.mpr hh
  have hlog : c.LogBitsets params.size = pure () :=
    LogBitsets_of_le hh.validMembers_length.ge hh.signers_length.ge
  have hunused : c.CheckUnusedBits (List.range' (env.GetAllQuorumMembers c.llmqType base).length
      (params.size - (env.GetAllQuorumMembers c.llmqType base).length)) =
      pure (c.UnusedBitsClear (env.GetAllQuorumMembers c.llmqType base).length params.size) :=
    c.CheckUnusedBits_eq fun i hi => by
      rw [List.mem_range'_1] at hi
      exact ⟨by rw [hh.validMembers_length]; omega, by rw [hh.signers_length]; omega⟩
  have hkeys : c.MemberPubKeys env.P (env.GetAllQuorumMembers c.llmqType base).zipIdx =
      pure (c.SigningKeys env.P (env.GetAllQuorumMembers c.llmqType base)) :=
    c.MemberPubKeys_eq fun p hp => by
      have := List.mem_zipIdx hp
      rw [hh.signers_length]
      omega
  simp only [Verify, hp, hheader, irange_of_le hm, pure_bind, hunused, hkeys, SignaturesValid]
  clear hunused hkeys
  generalize c.UnusedBitsClear _ _ = unused
  generalize env.VerifySecureAggregated _ _ _ = vsa
  generalize env.VerifyInsecure _ _ _ = vi
  cases env.LogAcceptCategory <;> cases checkSigs <;> cases unused <;> cases vsa <;> cases vi <;>
    simp [hlog] <;> rfl

end Verify

end CFinalCommitment

/-- `GetAllQuorumMembers` gives at most `size` members of a type with parameters; for a type
without rotation it is `CalculateQuorum(size, modifier)`. More members would make
`irange::range(members.size(), size)` in `Verify` throw. -/
def MembersBounded (env : CommitmentEnv) : Prop :=
  ∀ llmqType params base, env.GetLLMQParams llmqType = some params →
    (env.GetAllQuorumMembers llmqType base).length ≤ params.size

namespace CFinalCommitment

theorem Verify_safe_and_exact {env : CommitmentEnv} (hmembers : MembersBounded env)
    (c : CFinalCommitment) (base : CBlockIndex) (checkSigs : Bool) :
    (∃ b, c.Verify env base checkSigs = .ok b) ∧
      (c.Verify env base checkSigs = .ok true ↔
        ∃ params, env.GetLLMQParams c.llmqType = some params ∧ c.WellFormed env params base ∧
          c.NoBitsFrom (env.GetAllQuorumMembers c.llmqType base).length ∧
          (checkSigs = true →
            c.SignaturesValid env params (env.GetAllQuorumMembers c.llmqType base) = true)) := by
  cases hp : env.GetLLMQParams c.llmqType with
  | none => simp [Verify_of_GetLLMQParams_none hp]
  | some params =>
    by_cases hh : c.WellFormed env params base
    · rw [Verify_of_WellFormed hp hh (hmembers _ _ base hp)]
      have hbits := c.UnusedBitsClear_iff (n := (env.GetAllQuorumMembers c.llmqType base).length)
        hh.validMembers_length hh.signers_length
      cases checkSigs <;> simp [hh, hbits]
    · simp [Verify_of_not_WellFormed hp hh, hh]

end CFinalCommitment

/-- A node that logs the LLMQ category and knows one quorum type, `LLMQ_50_60` (type 1: 50
members, at least 40, a DKG every 24 blocks), with no quorum members and a chain and BLS library
that accept nothing. -/
def loggingEnv : CommitmentEnv where
  P := ⟨fun _ => 0, fun _ _ => none, fun k _ => k, true⟩
  DecodesSig := fun _ => false
  GetLLMQParams := fun llmqType => if llmqType = 1 then some ⟨1, false, 50, 40, 24⟩ else none
  LookupBlockIndex := fun _ => none
  GetAncestor := fun _ _ => none
  IsDIP0024Active := fun _ _ => false
  IsV19Active := fun _ => false
  GetAllQuorumMembers := fun _ _ => []
  BuildCommitmentHash := fun _ _ _ _ _ => 0
  VerifySecureAggregated := fun _ _ _ => false
  VerifyInsecure := fun _ _ _ => false
  LogAcceptCategory := true

open CFinalCommitment in
/-- `CheckLLMQCommitment(tx, pindexPrev, state)`, given the payload `GetTxPayload` reads from
the transaction, or `none` where it fails. -/
def CheckLLMQCommitment (env : CommitmentEnv) (payload : Option CFinalCommitmentTxPayload)
    (pindexPrev : CBlockIndex) : Except CheckError Unit := do
  let some qcTx := payload | throw (.invalid "bad-qc-payload")
  let some llmq_params := env.GetLLMQParams qcTx.commitment.llmqType
    | throw (.invalid "bad-qc-commitment-type")
  (qcTx.commitment.LogValidMembers env llmq_params.size).mapError .fault
  if qcTx.nVersion == 0 || qcTx.nVersion > CFinalCommitmentTxPayload.CURRENT_VERSION then
    throw (.invalid "bad-qc-version")
  else if qcTx.nHeight != UInt32.ofInt (pindexPrev.nHeight + 1) then
    throw (.invalid "bad-qc-height")
  else
    let some pQuorumBaseBlockIndex := env.LookupBlockIndex qcTx.commitment.quorumHash
      | throw (.invalid "bad-qc-quorum-hash")
    -- not part of active chain
    if env.GetAncestor pindexPrev pQuorumBaseBlockIndex.nHeight != some pQuorumBaseBlockIndex then
      throw (.invalid "bad-qc-quorum-hash")
    else if qcTx.commitment.IsNull env.P env.DecodesSig then
      if !qcTx.commitment.VerifyNull env then throw (.invalid "bad-qc-invalid-null") else pure ()
    else
      let valid ← (qcTx.commitment.Verify env pQuorumBaseBlockIndex false).mapError .fault
      if !valid then throw (.invalid "bad-qc-invalid") else pure ()

section Check

open CFinalCommitment

variable {env : CommitmentEnv} {qcTx : CFinalCommitmentTxPayload} {pindexPrev : CBlockIndex}
  {params : CommitmentLLMQParams}

theorem nVersion_check_eq_false_iff (nVersion : UInt16) :
    (nVersion == 0 || decide (nVersion > CFinalCommitmentTxPayload.CURRENT_VERSION)) = false ↔
      nVersion = CFinalCommitmentTxPayload.CURRENT_VERSION := by
  simp only [CFinalCommitmentTxPayload.CURRENT_VERSION, Bool.or_eq_false_iff, beq_eq_false_iff_ne,
    decide_eq_false_iff_not, gt_iff_lt, UInt16.lt_iff_toNat_lt, ne_eq, UInt16.ext_iff]
  simp
  omega

theorem CheckLLMQCommitment_of_LogValidMembers (pindexPrev : CBlockIndex) (hmembers : MembersBounded env)
    (hp : env.GetLLMQParams qcTx.commitment.llmqType = some params)
    (hlog : qcTx.commitment.LogValidMembers env params.size = pure ()) :
    (∀ f, CheckLLMQCommitment env (some qcTx) pindexPrev ≠ .error (.fault f)) ∧
      (CheckLLMQCommitment env (some qcTx) pindexPrev = .ok () ↔
        qcTx.nVersion = CFinalCommitmentTxPayload.CURRENT_VERSION ∧
          qcTx.nHeight = UInt32.ofInt (pindexPrev.nHeight + 1) ∧
          ∃ base, env.LookupBlockIndex qcTx.commitment.quorumHash = some base ∧
            env.GetAncestor pindexPrev base.nHeight = some base ∧
            (qcTx.commitment.IsNull env.P env.DecodesSig = true ∧
                qcTx.commitment.VerifySizes params = true ∨
              qcTx.commitment.IsNull env.P env.DecodesSig = false ∧
                qcTx.commitment.WellFormed env params base ∧
                qcTx.commitment.NoBitsFrom
                  (env.GetAllQuorumMembers qcTx.commitment.llmqType base).length)) := by
  have hver := nVersion_check_eq_false_iff qcTx.nVersion
  simp only [CheckLLMQCommitment, hp, hlog, mapError_pure, pure_bind]
  cases hb : env.LookupBlockIndex qcTx.commitment.quorumHash with
  | none =>
    simp only [reduceCtorEq, false_and]
    split_ifs <;> simp [throw, throwThe, MonadExceptOf.throw]
  | some base =>
    -- `Verify` does not fault, and the iff of its acceptance is what the last branch needs
    obtain ⟨b, hv⟩ := (Verify_safe_and_exact hmembers qcTx.commitment base false).1
    have hvb := (Verify_safe_and_exact hmembers qcTx.commitment base false).2
    rw [hv] at hvb
    simp only [hv]
    cases b <;> split_ifs <;>
      simp_all [throw, throwThe, MonadExceptOf.throw, pure, Except.pure, bind, Except.bind,
        Except.mapError, VerifyNull]

/-- With the LLMQ category logged, the log block of `CheckLLMQCommitment` reads the
`validMembers` of a commitment of a known type up to the quorum size before anything checks its
size: a payload whose `validMembers` is shorter is read past its end. -/
theorem CheckLLMQCommitment_reads_past_validMembers (hlog : env.LogAcceptCategory = true)
    (hp : env.GetLLMQParams qcTx.commitment.llmqType = some params)
    (hshort : qcTx.commitment.validMembers.length < params.size) :
    CheckLLMQCommitment env (some qcTx) pindexPrev =
      .error (.fault (.outOfRange "validMembers" qcTx.commitment.validMembers.length)) := by
  simp only [CheckLLMQCommitment, hp, LogValidMembers_of_lt hlog hshort, mapError_error]
  rfl

theorem CheckLLMQCommitment_reads_past_empty_validMembers :
    loggingEnv.LogAcceptCategory = true ∧
      loggingEnv.GetLLMQParams 1 = some ⟨1, false, 50, 40, 24⟩ ∧ ([] : List Bool).length < 50 ∧
      CheckLLMQCommitment loggingEnv (some { commitment := { llmqType := 1 } }) ⟨0, 0⟩ =
        .error (.fault (.outOfRange "validMembers" 0)) :=
  ⟨rfl, rfl, by decide, CheckLLMQCommitment_reads_past_validMembers rfl rfl (by decide)⟩

/-- `CheckLLMQCommitment` faults exactly where its debug log reads past `validMembers`, and it
accepts exactly a payload of a known type, of the current version, for the next height, whose
quorum's base block is on the chain, and whose commitment is either null with bitsets of the
quorum size or well formed with no bit set at or past the member count. -/
theorem CheckLLMQCommitment_faults_and_accepts_exactly (hmembers : MembersBounded env)
    (payload : Option CFinalCommitmentTxPayload) (pindexPrev : CBlockIndex) :
    (∀ f, CheckLLMQCommitment env payload pindexPrev = .error (.fault f) ↔
      env.LogAcceptCategory = true ∧ ∃ qcTx params, payload = some qcTx ∧
        env.GetLLMQParams qcTx.commitment.llmqType = some params ∧
        qcTx.commitment.validMembers.length < params.size ∧
        f = .outOfRange "validMembers" qcTx.commitment.validMembers.length) ∧
    (CheckLLMQCommitment env payload pindexPrev = .ok () ↔
      ∃ qcTx params base, payload = some qcTx ∧
        env.GetLLMQParams qcTx.commitment.llmqType = some params ∧
        qcTx.nVersion = CFinalCommitmentTxPayload.CURRENT_VERSION ∧
        qcTx.nHeight = UInt32.ofInt (pindexPrev.nHeight + 1) ∧
        env.LookupBlockIndex qcTx.commitment.quorumHash = some base ∧
        env.GetAncestor pindexPrev base.nHeight = some base ∧
        (qcTx.commitment.IsNull env.P env.DecodesSig = true ∧
            qcTx.commitment.VerifySizes params = true ∨
          qcTx.commitment.IsNull env.P env.DecodesSig = false ∧
            qcTx.commitment.WellFormed env params base ∧
            qcTx.commitment.NoBitsFrom
              (env.GetAllQuorumMembers qcTx.commitment.llmqType base).length)) := by
  cases payload with
  | none => simp [CheckLLMQCommitment, throw, throwThe, MonadExceptOf.throw]
  | some qcTx =>
  cases hp : env.GetLLMQParams qcTx.commitment.llmqType with
  | none => simp [CheckLLMQCommitment, hp, throw, throwThe, MonadExceptOf.throw]
  | some params =>
  by_cases hshort : env.LogAcceptCategory = true ∧ qcTx.commitment.validMembers.length < params.size
  · rw [CheckLLMQCommitment_reads_past_validMembers hshort.1 hp hshort.2]
    refine ⟨fun f => by simp [hshort.1, hshort.2, hp, eq_comm], ?_⟩
    simp only [reduceCtorEq, false_iff, not_exists, not_and, Option.some.injEq]
    rintro _ _ base rfl hp' - - - - (⟨-, hsizes⟩ | ⟨-, hh, -⟩) <;>
      rw [hp, Option.some.injEq] at hp' <;> subst hp'
    · simp [VerifySizes] at hsizes
      omega
    · exact absurd hh.validMembers_length (by omega)
  · have hlog : qcTx.commitment.LogValidMembers env params.size = pure () :=
      LogValidMembers_of_le fun hl => Nat.not_lt.mp fun h => hshort ⟨hl, h⟩
    obtain ⟨hnofault, hok⟩ := CheckLLMQCommitment_of_LogValidMembers pindexPrev hmembers hp hlog
    refine ⟨fun f => ⟨fun h => (hnofault f h).elim, ?_⟩, ?_⟩
    · rintro ⟨hl, _, _, hq, hp', hlt, -⟩
      cases hq
      rw [hp] at hp'
      cases hp'
      exact (hshort ⟨hl, hlt⟩).elim
    · rw [hok]
      simp [hp]

/-- A quorum type of size 4 and minimum size 3 with three members, whose base block (hash 5,
height 24) is on the chain. -/
def threeMemberEnv : CommitmentEnv where
  P := ⟨fun _ => 0, fun b _ => some b, fun k _ => k, true⟩
  DecodesSig := fun _ => true
  GetLLMQParams := fun t => if t = 1 then some ⟨1, false, 4, 3, 24⟩ else none
  LookupBlockIndex := fun h => if h = 5 then some ⟨24, 5⟩ else none
  GetAncestor := fun _ _ => some ⟨24, 5⟩
  IsDIP0024Active := fun _ _ => false
  IsV19Active := fun _ => false
  GetAllQuorumMembers := fun _ _ =>
    [{ internalId := 0, proTxHash := 1, collateralOutpoint := ⟨1, 0⟩, pdmnState := default },
     { internalId := 1, proTxHash := 2, collateralOutpoint := ⟨2, 0⟩, pdmnState := default },
     { internalId := 2, proTxHash := 3, collateralOutpoint := ⟨3, 0⟩, pdmnState := default }]
  BuildCommitmentHash := fun _ _ _ _ _ => 0
  VerifySecureAggregated := fun _ _ _ => true
  VerifyInsecure := fun _ _ _ => true
  LogAcceptCategory := true

theorem threeMemberEnv_membersBounded : MembersBounded threeMemberEnv := by
  intro t params _ hp
  simp only [threeMemberEnv] at hp ⊢
  split at hp <;> cases hp
  decide

def threeSignerCommitment : CFinalCommitment :=
  { llmqType := 1, quorumHash := 5, signers := [true, true, true, false],
    validMembers := [true, true, true, false], quorumPublicKey := ⟨1⟩, quorumVvecHash := 1,
    quorumSig := ⟨1⟩, membersSig := ⟨1⟩ }

theorem CheckLLMQCommitment_accepts_three_signers :
    MembersBounded threeMemberEnv ∧
      CheckLLMQCommitment threeMemberEnv
          (some { nHeight := 31, commitment := threeSignerCommitment }) ⟨30, 9⟩ = .ok () ∧
      CheckLLMQCommitment threeMemberEnv
          (some { nHeight := 31,
                  commitment := { threeSignerCommitment with validMembers := [true, true] } })
          ⟨30, 9⟩ =
        .error (.fault (.outOfRange "validMembers" 2)) := by
  have h := CheckLLMQCommitment_faults_and_accepts_exactly threeMemberEnv_membersBounded
  have hwf : threeSignerCommitment.WellFormed threeMemberEnv ⟨1, false, 4, 3, 24⟩ ⟨24, 5⟩ :=
    ⟨rfl, rfl, by decide, rfl, rfl, by decide, by decide,
      by simp [threeSignerCommitment, threeMemberEnv, CBLSPublicKey.IsValid,
        CBLSPublicKey.SetByteVector],
      by simp [threeSignerCommitment],
      by simp [threeSignerCommitment, threeMemberEnv, CBLSSignature.IsValid],
      by simp [threeSignerCommitment, threeMemberEnv, CBLSSignature.IsValid]⟩
  have hbits : threeSignerCommitment.NoBitsFrom 3 := (UnusedBitsClear_iff rfl rfl).1 (by decide)
  refine ⟨threeMemberEnv_membersBounded, (h _ _).2.mpr ?_, ((h _ _).1 _).mpr ?_⟩
  · exact ⟨_, _, ⟨24, 5⟩, rfl, rfl, rfl, by decide, rfl, rfl, Or.inr ⟨by decide, hwf, hbits⟩⟩
  · exact ⟨rfl, _, _, rfl, rfl, by decide, rfl⟩

end Check

end DashCore
