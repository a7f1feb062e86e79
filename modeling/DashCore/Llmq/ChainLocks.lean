import DashCore.Llmq.Signing
import Mathlib.Data.Finset.Basic

/-! The best ChainLock of `CChainLocksHandler` (llmq/chainlocks.cpp) under concurrent calls.
`ProcessNewChainLock` checks a CLSIG against the best one in a first critical section of `cs`,
verifies its signature and looks its block up without `cs`, and sets the best ChainLock in a
second critical section; `AcceptedBlockHeader` and `HandleNewRecoveredSig` are one critical
section each. The model keeps each critical section as a function of the guarded members, and
a run as a schedule of events: each in-flight `ProcessNewChainLock` call is a thread that the
schedule advances one section at a time, interleaved with headers entering the block index and
with the other calls. `CheckActiveState` is taken not to re-activate enforcement, so it changes
none of these members. -/
namespace DashCore

/-- A `CChainLockSig`; the null one has height -1 and the null hash. -/
structure CChainLockSig where
  nHeight : Int := -1
  blockHash : uint256 := 0
  sig : CBLSSignature := {}
deriving DecidableEq, Repr

def CChainLockSig.IsNull (clsig : CChainLockSig) : Bool :=
  clsig.nHeight == -1 && clsig.blockHash == 0

structure CBlockIndex where
  nHeight : Int
  hash : uint256
deriving DecidableEq, Repr

/-- The members of `CChainLocksHandler` guarded by `cs` that these calls read or write; the
times kept in `seenChainLocks` serve the cleanup only. -/
structure CChainLocksHandler where
  seenChainLocks : Finset uint256 := ∅
  bestChainLockHash : uint256 := 0
  bestChainLock : CChainLockSig := {}
  bestChainLockWithKnownBlock : CChainLockSig := {}
  bestChainLockBlockIndex : Option CBlockIndex := none
  lastSignedHeight : Int := -1
  lastSignedRequestId : uint256 := 0
  lastSignedMsgHash : uint256 := 0

namespace CChainLocksHandler

/-- The first critical section of `ProcessNewChainLock(from, clsig, hash)`: whether the CLSIG
goes on to verification. -/
def ProcessNewChainLockCheck (s : CChainLocksHandler) (clsig : CChainLockSig) (hash : uint256) :
    CChainLocksHandler × Bool :=
  if hash ∈ s.seenChainLocks then (s, false)
  else
    let s := { s with seenChainLocks := insert hash s.seenChainLocks }
    -- no need to process/relay older CLSIGs
    if !s.bestChainLock.IsNull && clsig.nHeight ≤ s.bestChainLock.nHeight then (s, false)
    else (s, true)

/-- The second critical section of `ProcessNewChainLock`, with the block index that
`LookupBlockIndex(clsig.getBlockHash())` returned. -/
def ProcessNewChainLockUpdate (s : CChainLocksHandler) (clsig : CChainLockSig) (hash : uint256)
    (pindex : Option CBlockIndex) : CChainLocksHandler :=
  let s := { s with bestChainLockHash := hash, bestChainLock := clsig }
  match pindex with
  | none => s
  | some p =>
    if p.nHeight ≠ clsig.nHeight then s
    else { s with bestChainLockWithKnownBlock := s.bestChainLock, bestChainLockBlockIndex := some p }

def AcceptedBlockHeader (s : CChainLocksHandler) (pindexNew : CBlockIndex) : CChainLocksHandler :=
  if pindexNew.hash = s.bestChainLock.blockHash then
    if s.bestChainLock.nHeight ≠ pindexNew.nHeight then s
    else { s with bestChainLockWithKnownBlock := s.bestChainLock, bestChainLockBlockIndex := some pindexNew }
  else s

/-- The critical section of `HandleNewRecoveredSig(recoveredSig)`: the CLSIG it hands to
`ProcessNewChainLock`, if any. -/
def HandleNewRecoveredSig (isEnabled : Bool) (s : CChainLocksHandler)
    (recoveredSig : CRecoveredSig) : Option CChainLockSig :=
  if !isEnabled then none
  -- this is not what we signed, so lets not create a CLSIG for it
  else if recoveredSig.id ≠ s.lastSignedRequestId ∨ recoveredSig.msgHash ≠ s.lastSignedMsgHash then
    none
  -- already got the same or a better CLSIG through the CLSIG message
  else if s.bestChainLock.nHeight ≥ s.lastSignedHeight then none
  else some { nHeight := s.lastSignedHeight, blockHash := s.lastSignedMsgHash, sig := recoveredSig.sig }

/-- The best ChainLock's block index has the height and the hash of the best ChainLock with a
known block. -/
def IndexMatchesKnown (s : CChainLocksHandler) : Prop :=
  ∀ p, s.bestChainLockBlockIndex = some p →
    p.nHeight = s.bestChainLockWithKnownBlock.nHeight ∧
      p.hash = s.bestChainLockWithKnownBlock.blockHash

theorem ProcessNewChainLockCheck_fst (s : CChainLocksHandler) (clsig : CChainLockSig)
    (hash : uint256) :
    (s.ProcessNewChainLockCheck clsig hash).1 =
      if hash ∈ s.seenChainLocks then s
      else { s with seenChainLocks := insert hash s.seenChainLocks } := by
  unfold ProcessNewChainLockCheck
  split
  · rfl
  · dsimp only
    split <;> rfl

theorem IndexMatchesKnown.check {s : CChainLocksHandler} (hs : s.IndexMatchesKnown)
    (clsig : CChainLockSig) (hash : uint256) :
    (s.ProcessNewChainLockCheck clsig hash).1.IndexMatchesKnown := by
  rw [ProcessNewChainLockCheck_fst]
  split
  · exact hs
  · exact hs

theorem IndexMatchesKnown.update {s : CChainLocksHandler} (hs : s.IndexMatchesKnown)
    {clsig : CChainLockSig} (hash : uint256) {pindex : Option CBlockIndex}
    (hp : ∀ p, pindex = some p → p.hash = clsig.blockHash) :
    (s.ProcessNewChainLockUpdate clsig hash pindex).IndexMatchesKnown := by
  unfold ProcessNewChainLockUpdate
  split
  · exact hs
  · rename_i p
    split
    · exact hs
    · rename_i hheight
      intro q hq
      cases hq
      exact ⟨not_not.mp hheight, hp p rfl⟩

theorem IndexMatchesKnown.acceptedBlockHeader {s : CChainLocksHandler} (hs : s.IndexMatchesKnown)
    (pindexNew : CBlockIndex) : (s.AcceptedBlockHeader pindexNew).IndexMatchesKnown := by
  unfold AcceptedBlockHeader
  split
  · rename_i hhash
    split
    · exact hs
    · rename_i hheight
      intro q hq
      cases hq
      exact ⟨(not_not.mp hheight).symm, hhash⟩
  · exact hs

theorem ProcessNewChainLockCheck_pass {s : CChainLocksHandler} {clsig : CChainLockSig}
    {hash : uint256} (hseen : hash ∉ s.seenChainLocks)
    (hbest : s.bestChainLock.IsNull = true ∨ s.bestChainLock.nHeight < clsig.nHeight) :
    s.ProcessNewChainLockCheck clsig hash =
      ({ s with seenChainLocks := insert hash s.seenChainLocks }, true) := by
  unfold ProcessNewChainLockCheck
  rw [if_neg hseen]
  dsimp only
  rcases hbest with hbest | hbest
  · simp [hbest]
  · have hgt : ¬clsig.nHeight ≤ s.bestChainLock.nHeight := by omega
    simp [hgt]

theorem ProcessNewChainLockUpdate_known (s : CChainLocksHandler) (clsig : CChainLockSig)
    (hash : uint256) {p : CBlockIndex} (hp : p.nHeight = clsig.nHeight) :
    s.ProcessNewChainLockUpdate clsig hash (some p) =
      { s with
        bestChainLockHash := hash
        bestChainLock := clsig
        bestChainLockWithKnownBlock := clsig
        bestChainLockBlockIndex := some p } := by
  unfold ProcessNewChainLockUpdate
  dsimp only
  rw [if_neg (not_not.mpr hp)]

end CChainLocksHandler

/-- Where an in-flight `ProcessNewChainLock` call is: before its first critical section, before
the verification, or before its second critical section with the block index it looked up. -/
inductive ChainLockPhase where
  | Check
  | Verify
  | Update (pindex : Option CBlockIndex)
deriving DecidableEq, Repr

structure ChainLockCall where
  clsig : CChainLockSig
  phase : ChainLockPhase
deriving DecidableEq, Repr

/-- The handler, the block index (`LookupBlockIndex` by hash), and the calls in flight. -/
structure ChainLocksSystem where
  handler : CChainLocksHandler := {}
  mapBlockIndex : AList (fun _ : uint256 => CBlockIndex) := ∅
  calls : List ChainLockCall := []

/-- One step of a schedule: a CLSIG arriving from a peer, a section of the `i`-th call in
flight, a header entering the block index, `AcceptedBlockHeader` for a known header, or
`HandleNewRecoveredSig`. -/
inductive ChainLocksEvent where
  | ProcessMessage (clsig : CChainLockSig)
  | Check (i : Nat)
  | Verify (i : Nat)
  | Update (i : Nat)
  | AddToBlockIndex (pindex : CBlockIndex)
  | AcceptedBlockHeader (hash : uint256)
  | HandleNewRecoveredSig (recoveredSig : CRecoveredSig)

namespace ChainLocksSystem

/-- The environment of a run: whether ChainLocks are enabled, `VerifyRecoveredSig` of a CLSIG
against its quorum, and `::SerializeHash` of a CLSIG. -/
structure Env where
  isEnabled : Bool
  VerifyRecoveredSig : CChainLockSig → Bool
  SerializeHash : CChainLockSig → uint256

def step (env : Env) (sys : ChainLocksSystem) : ChainLocksEvent → ChainLocksSystem
  | .ProcessMessage clsig => { sys with calls := sys.calls ++ [⟨clsig, .Check⟩] }
  | .Check i =>
    match sys.calls[i]? with
    | some ⟨clsig, .Check⟩ =>
      let (handler, go) := sys.handler.ProcessNewChainLockCheck clsig (env.SerializeHash clsig)
      { sys with
        handler := handler
        calls := if go then sys.calls.set i ⟨clsig, .Verify⟩ else sys.calls.eraseIdx i }
    | _ => sys
  | .Verify i =>
    match sys.calls[i]? with
    | some ⟨clsig, .Verify⟩ =>
      if !env.VerifyRecoveredSig clsig then { sys with calls := sys.calls.eraseIdx i }
      else
        let pindex := sys.mapBlockIndex.lookup clsig.blockHash
        { sys with calls := sys.calls.set i ⟨clsig, .Update pindex⟩ }
    | _ => sys
  | .Update i =>
    match sys.calls[i]? with
    | some ⟨clsig, .Update pindex⟩ =>
      { sys with
        handler := sys.handler.ProcessNewChainLockUpdate clsig (env.SerializeHash clsig) pindex
        calls := sys.calls.eraseIdx i }
    | _ => sys
  | .AddToBlockIndex pindex =>
    if pindex.hash ∈ sys.mapBlockIndex then sys
    else { sys with mapBlockIndex := sys.mapBlockIndex.insert pindex.hash pindex }
  | .AcceptedBlockHeader hash =>
    match sys.mapBlockIndex.lookup hash with
    | some pindexNew => { sys with handler := sys.handler.AcceptedBlockHeader pindexNew }
    | none => sys
  | .HandleNewRecoveredSig recoveredSig =>
    match sys.handler.HandleNewRecoveredSig env.isEnabled recoveredSig with
    | some clsig => { sys with calls := sys.calls ++ [⟨clsig, .Check⟩] }
    | none => sys

def run (env : Env) (sys : ChainLocksSystem) (events : List ChainLocksEvent) : ChainLocksSystem :=
  events.foldl (step env) sys

theorem step_Check_pass {env : Env} {sys : ChainLocksSystem} {i : Nat} {clsig : CChainLockSig}
    (hcall : sys.calls[i]? = some ⟨clsig, .Check⟩)
    (hseen : env.SerializeHash clsig ∉ sys.handler.seenChainLocks)
    (hbest : sys.handler.bestChainLock.IsNull = true ∨
      sys.handler.bestChainLock.nHeight < clsig.nHeight) :
    step env sys (.Check i) =
      { sys with
        handler := { sys.handler with
          seenChainLocks := insert (env.SerializeHash clsig) sys.handler.seenChainLocks }
        calls := sys.calls.set i ⟨clsig, .Verify⟩ } := by
  simp only [step, hcall, CChainLocksHandler.ProcessNewChainLockCheck_pass hseen hbest, if_true]

theorem step_Verify_pass {env : Env} {sys : ChainLocksSystem} {i : Nat} {clsig : CChainLockSig}
    (hcall : sys.calls[i]? = some ⟨clsig, .Verify⟩) (hv : env.VerifyRecoveredSig clsig = true) :
    step env sys (.Verify i) =
      { sys with calls := sys.calls.set i ⟨clsig, .Update (sys.mapBlockIndex.lookup clsig.blockHash)⟩ } := by
  simp only [step, hcall, hv, Bool.not_true, Bool.false_eq_true, if_false]

theorem step_Update {env : Env} {sys : ChainLocksSystem} {i : Nat} {clsig : CChainLockSig}
    {pindex : Option CBlockIndex} (hcall : sys.calls[i]? = some ⟨clsig, .Update pindex⟩) :
    step env sys (.Update i) =
      { sys with
        handler := sys.handler.ProcessNewChainLockUpdate clsig (env.SerializeHash clsig) pindex
        calls := sys.calls.eraseIdx i } := by
  simp only [step, hcall]

/-- What keeps the best ChainLock's block index consistent along a run: the block index is
keyed by hash, every call that looked its block up holds the index of its CLSIG's block, and the
handler's block index matches the best ChainLock with a known block. -/
structure Consistent (sys : ChainLocksSystem) : Prop where
  keyed : ∀ h p, sys.mapBlockIndex.lookup h = some p → p.hash = h
  lookedUp : ∀ c ∈ sys.calls, ∀ p, c.phase = .Update (some p) → p.hash = c.clsig.blockHash
  indexMatches : sys.handler.IndexMatchesKnown

theorem consistent_init : Consistent {} :=
  ⟨fun _ _ h => (by cases h), fun _ h => (by cases h), fun _ h => (by cases h)⟩

theorem Consistent.step {sys : ChainLocksSystem} (hs : Consistent sys) (env : Env)
    (e : ChainLocksEvent) : Consistent (step env sys e) := by
  have hset : ∀ i c', (∀ p, c'.phase = .Update (some p) → p.hash = c'.clsig.blockHash) →
      ∀ c ∈ sys.calls.set i c', ∀ p, c.phase = .Update (some p) → p.hash = c.clsig.blockHash := by
    intro i c' hc' c hc
    rcases List.mem_or_eq_of_mem_set hc with hc | rfl
    · exact hs.lookedUp c hc
    · exact hc'
  have herase : ∀ i, ∀ c ∈ sys.calls.eraseIdx i, ∀ p, c.phase = .Update (some p) →
      p.hash = c.clsig.blockHash := fun i c hc => hs.lookedUp c (List.mem_of_mem_eraseIdx hc)
  have happend : ∀ clsig, ∀ c ∈ sys.calls ++ [⟨clsig, .Check⟩], ∀ p,
      c.phase = .Update (some p) → p.hash = c.clsig.blockHash := by
    intro clsig c hc p hp
    rcases List.mem_append.mp hc with hc | hc
    · exact hs.lookedUp c hc p hp
    · rw [List.mem_singleton.mp hc] at hp
      cases hp
  cases e with
  | ProcessMessage clsig => exact ⟨hs.keyed, happend clsig, hs.indexMatches⟩
  | Check i =>
    dsimp only [ChainLocksSystem.step]
    split
    · rename_i clsig _
      have hcheck := hs.indexMatches.check clsig (env.SerializeHash clsig)
      generalize sys.handler.ProcessNewChainLockCheck clsig (env.SerializeHash clsig) = r at hcheck ⊢
      obtain ⟨handler, go⟩ := r
      refine ⟨hs.keyed, ?_, hcheck⟩
      split
      · exact hset i _ fun p hp => by cases hp
      · exact herase i
    · exact hs
  | Verify i =>
    dsimp only [ChainLocksSystem.step]
    split
    · rename_i clsig _
      split
      · exact ⟨hs.keyed, herase i, hs.indexMatches⟩
      · refine ⟨hs.keyed, hset i _ fun p hp => ?_, hs.indexMatches⟩
        have hl : sys.mapBlockIndex.lookup clsig.blockHash = some p := by simpa using hp
        exact hs.keyed _ p hl
    · exact hs
  | Update i =>
    dsimp only [ChainLocksSystem.step]
    split
    · rename_i clsig pindex hcall
      have hc := hs.lookedUp _ (List.mem_of_getElem? hcall)
      exact ⟨hs.keyed, herase i, hs.indexMatches.update _ fun p hp => hc p (by rw [hp])⟩
    · exact hs
  | AddToBlockIndex pindex =>
    dsimp only [ChainLocksSystem.step]
    split
    · exact hs
    · refine ⟨fun h p hp => ?_, hs.lookedUp, hs.indexMatches⟩
      by_cases hh : h = pindex.hash
      · subst hh
        rw [AList.lookup_insert] at hp
        cases hp
        rfl
      · rw [AList.lookup_insert_ne hh] at hp
        exact hs.keyed h p hp
  | AcceptedBlockHeader hash =>
    dsimp only [ChainLocksSystem.step]
    split
    · exact ⟨hs.keyed, hs.lookedUp, hs.indexMatches.acceptedBlockHeader _⟩
    · exact hs
  | HandleNewRecoveredSig recoveredSig =>
    dsimp only [ChainLocksSystem.step]
    split
    · exact ⟨hs.keyed, happend _, hs.indexMatches⟩
    · exact hs

theorem Consistent.run {sys : ChainLocksSystem} (hs : Consistent sys) (env : Env)
    (events : List ChainLocksEvent) : Consistent (run env sys events) := by
  induction events generalizing sys with
  | nil => exact hs
  | cons e rest ih => exact ih (hs.step env e)

/-- Along every schedule from the start, whenever the best ChainLock's block index is set, it
has the height and the hash of the best ChainLock with a known block. -/
theorem run_bestChainLockBlockIndex_matches (env : Env) (events : List ChainLocksEvent)
    (p : CBlockIndex) (hp : (run env {} events).handler.bestChainLockBlockIndex = some p) :
    p.nHeight = (run env {} events).handler.bestChainLockWithKnownBlock.nHeight ∧
      p.hash = (run env {} events).handler.bestChainLockWithKnownBlock.blockHash :=
  (consistent_init.run env events).indexMatches p hp

/-- One CLSIG for a known block at height 11, checked, verified and applied. -/
theorem run_bestChainLockBlockIndex_matches_of_one_lock :
    (run ⟨true, fun _ => true, fun clsig => BitVec.ofInt 256 clsig.nHeight⟩ {}
        [.AddToBlockIndex ⟨11, 0xB⟩, .ProcessMessage { nHeight := 11, blockHash := 0xB }, .Check 0,
          .Verify 0, .Update 0]).handler.bestChainLockWithKnownBlock.nHeight = 11 := by
  have hp : (run ⟨true, fun _ => true, fun clsig => BitVec.ofInt 256 clsig.nHeight⟩ {}
      [.AddToBlockIndex ⟨11, 0xB⟩, .ProcessMessage { nHeight := 11, blockHash := 0xB }, .Check 0,
        .Verify 0, .Update 0]).handler.bestChainLockBlockIndex = some ⟨11, 0xB⟩ := by decide
  exact (run_bestChainLockBlockIndex_matches _ _ _ hp).1.symm

/-- Two verified CLSIGs, `A` above `B`, both for known blocks at their heights and above the
best one: if both pass the first critical section before either reaches the second, and `A`
updates first, the best ChainLock and the best one with a known block go back from `A` to `B`.
-/
theorem run_ProcessNewChainLock_regresses (env : Env) (sys : ChainLocksSystem)
    (A B : CChainLockSig) (hcalls : sys.calls = []) (hvA : env.VerifyRecoveredSig A = true)
    (hvB : env.VerifyRecoveredSig B = true) (hne : env.SerializeHash A ≠ env.SerializeHash B)
    (hsA : env.SerializeHash A ∉ sys.handler.seenChainLocks)
    (hsB : env.SerializeHash B ∉ sys.handler.seenChainLocks)
    (hbest : sys.handler.bestChainLock.IsNull = true ∨
      sys.handler.bestChainLock.nHeight < B.nHeight)
    (hlt : B.nHeight < A.nHeight)
    (hkA : sys.mapBlockIndex.lookup A.blockHash = some ⟨A.nHeight, A.blockHash⟩)
    (hkB : sys.mapBlockIndex.lookup B.blockHash = some ⟨B.nHeight, B.blockHash⟩) :
    (run env sys [.ProcessMessage A, .ProcessMessage B, .Check 0, .Check 1, .Verify 0, .Verify 1,
      .Update 0]).handler.bestChainLock = A ∧
    (run env sys [.ProcessMessage A, .ProcessMessage B, .Check 0, .Check 1, .Verify 0, .Verify 1,
      .Update 0]).handler.bestChainLockWithKnownBlock = A ∧
    (run env sys [.ProcessMessage A, .ProcessMessage B, .Check 0, .Check 1, .Verify 0, .Verify 1,
      .Update 0, .Update 0]).handler.bestChainLock = B ∧
    (run env sys [.ProcessMessage A, .ProcessMessage B, .Check 0, .Check 1, .Verify 0, .Verify 1,
      .Update 0, .Update 0]).handler.bestChainLockWithKnownBlock = B := by
  -- both CLSIGs arrive and pass the height check before either updates the best ChainLock
  have hbestA : sys.handler.bestChainLock.IsNull = true ∨
      sys.handler.bestChainLock.nHeight < A.nHeight := by
    rcases hbest with h | h
    · exact .inl h
    · exact .inr (by omega)
  set H₁ : CChainLocksHandler :=
    { sys.handler with seenChainLocks := insert (env.SerializeHash A) sys.handler.seenChainLocks }
  set H₂ : CChainLocksHandler :=
    { H₁ with seenChainLocks := insert (env.SerializeHash B) H₁.seenChainLocks }
  have h₂ : step env (step env sys (.ProcessMessage A)) (.ProcessMessage B) =
      { sys with calls := [⟨A, .Check⟩, ⟨B, .Check⟩] } := by
    simp [step, hcalls]
  have h₃ : step env { sys with calls := [⟨A, .Check⟩, ⟨B, .Check⟩] } (.Check 0) =
      { sys with handler := H₁, calls := [⟨A, .Verify⟩, ⟨B, .Check⟩] } :=
    step_Check_pass rfl hsA hbestA
  have h₄ : step env { sys with handler := H₁, calls := [⟨A, .Verify⟩, ⟨B, .Check⟩] } (.Check 1) =
      { sys with handler := H₂, calls := [⟨A, .Verify⟩, ⟨B, .Verify⟩] } :=
    step_Check_pass rfl (by simp [H₁, Ne.symm hne, hsB]) hbest
  set pA : CBlockIndex := ⟨A.nHeight, A.blockHash⟩
  set pB : CBlockIndex := ⟨B.nHeight, B.blockHash⟩
  have h₅ : step env { sys with handler := H₂, calls := [⟨A, .Verify⟩, ⟨B, .Verify⟩] } (.Verify 0) =
      { sys with handler := H₂, calls := [⟨A, .Update (some pA)⟩, ⟨B, .Verify⟩] } := by
    rw [step_Verify_pass rfl hvA]
    simp [hkA, pA]
  have h₆ : step env { sys with handler := H₂, calls := [⟨A, .Update (some pA)⟩, ⟨B, .Verify⟩] }
        (.Verify 1) =
      { sys with handler := H₂, calls := [⟨A, .Update (some pA)⟩, ⟨B, .Update (some pB)⟩] } := by
    rw [step_Verify_pass rfl hvB]
    simp [hkB, pB]
  set H₃ : CChainLocksHandler :=
    { H₂ with
      bestChainLockHash := env.SerializeHash A
      bestChainLock := A
      bestChainLockWithKnownBlock := A
      bestChainLockBlockIndex := some pA }
  have h₇ : step env
        { sys with handler := H₂, calls := [⟨A, .Update (some pA)⟩, ⟨B, .Update (some pB)⟩] }
        (.Update 0) =
      { sys with handler := H₃, calls := [⟨B, .Update (some pB)⟩] } := by
    rw [step_Update rfl, CChainLocksHandler.ProcessNewChainLockUpdate_known _ _ _ rfl]
    rfl
  have h₈ : step env { sys with handler := H₃, calls := [⟨B, .Update (some pB)⟩] } (.Update 0) =
      { sys with
        handler := { H₃ with
          bestChainLockHash := env.SerializeHash B
          bestChainLock := B
          bestChainLockWithKnownBlock := B
          bestChainLockBlockIndex := some pB }
        calls := [] } := by
    rw [step_Update rfl, CChainLocksHandler.ProcessNewChainLockUpdate_known _ _ _ rfl]
    rfl
  simp only [run, List.foldl_cons, List.foldl_nil, h₂, h₃, h₄, h₅, h₆, h₇, h₈, and_true]
  exact ⟨rfl, rfl⟩
/-- CLSIGs at heights 11 and 10 for the known blocks `0xB` and `0xA`, with a CLSIG's hash its
height. -/
theorem run_ProcessNewChainLock_regresses_from_eleven_to_ten :
    let env : Env := ⟨true, fun _ => true, fun clsig => BitVec.ofInt 256 clsig.nHeight⟩
    let sys : ChainLocksSystem :=
      { mapBlockIndex := ((∅ : AList fun _ : uint256 => CBlockIndex).insert 0xB ⟨11, 0xB⟩).insert
          0xA ⟨10, 0xA⟩ }
    let A : CChainLockSig := { nHeight := 11, blockHash := 0xB }
    let B : CChainLockSig := { nHeight := 10, blockHash := 0xA }
    (run env sys [.ProcessMessage A, .ProcessMessage B, .Check 0, .Check 1, .Verify 0, .Verify 1,
      .Update 0]).handler.bestChainLock = A ∧
    (run env sys [.ProcessMessage A, .ProcessMessage B, .Check 0, .Check 1, .Verify 0, .Verify 1,
      .Update 0]).handler.bestChainLockWithKnownBlock = A ∧
    (run env sys [.ProcessMessage A, .ProcessMessage B, .Check 0, .Check 1, .Verify 0, .Verify 1,
      .Update 0, .Update 0]).handler.bestChainLock = B ∧
    (run env sys [.ProcessMessage A, .ProcessMessage B, .Check 0, .Check 1, .Verify 0, .Verify 1,
      .Update 0, .Update 0]).handler.bestChainLockWithKnownBlock = B :=
  run_ProcessNewChainLock_regresses _ _ _ _ rfl rfl rfl (by decide) (by decide) (by decide)
    (.inl rfl) (by decide) (by decide) (by decide)

end ChainLocksSystem

end DashCore
