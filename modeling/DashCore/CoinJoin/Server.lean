import DashCore.CoinJoin.Collateral
import Mathlib.Data.List.Sort

/-! The CoinJoin session on the masternode (coinjoin/server.cpp). Participants' entries are
checked by `AddEntry`; `CreateFinalTransaction` joins them and sorts inputs and outputs by BIP69
(primitives/transaction.h); each participant signs its inputs of that transaction with
`SIGHASH_ALL | SIGHASH_ANYONECANPAY` and `AddScriptSig` checks a signature through
`IsInputScriptSigValid`, which rebuilds a transaction from the entries in arrival order. The
script interpreter is the environment's `VerifyScript`; what it would hash is
`SignatureHash`, the fields `CTransactionSignatureSerializer` writes. -/
namespace DashCore

def SEQUENCE_FINAL : UInt32 := 0xffffffff

structure CTxIn where
  prevout : COutPoint
  scriptSig : CScript := []
  nSequence : UInt32 := SEQUENCE_FINAL
deriving DecidableEq, Repr

/-- A mixing input; `prevPubKey`, `fHasSig` and `nRounds` are memory only. -/
structure CTxDSIn extends CTxIn where
  prevPubKey : CScript := []
  fHasSig : Bool := false
  nRounds : Int := -10
deriving DecidableEq, Repr

structure CCoinJoinEntry where
  vecTxDSIn : List CTxDSIn
  vecTxOut : List CTxOut
  txCollateral : CTransactionFull
deriving DecidableEq, Repr

/-- `CMutableTransaction` as the default constructor leaves it: version 2, a normal transaction,
lock time 0 and no payload. -/
structure CMutableTransaction where
  vin : List CTxIn := []
  vout : List CTxOut := []
  nVersion : Int16 := 2
  nType : UInt16 := TRANSACTION_NORMAL
  nLockTime : UInt32 := 0
  vExtraPayload : List UInt8 := []
deriving DecidableEq, Repr

/-! ## BIP69 -/

def lexLess : CScript → CScript → Bool
  | b1 :: r1, b2 :: r2 => if b1 < b2 then true else if b2 < b1 then false else lexLess r1 r2
  | _, _ => false

def prevectorLess (a b : CScript) : Bool :=
  if a.length < b.length then true
  else if b.length < a.length then false
  else lexLess a b

def CompareOutputBIP69 (a b : CTxOut) : Bool :=
  a.nValue < b.nValue || (a.nValue == b.nValue && prevectorLess a.scriptPubKey b.scriptPubKey)

/-- `CompareInputBIP69`: by the previous transaction's hash read from its last byte, then by
the output index. -/
def CompareInputBIP69 (a b : CTxIn) : Bool :=
  if a.prevout.hash == b.prevout.hash then a.prevout.n < b.prevout.n
  else decide ((UniqueProperty.Serialize.leBytes a.prevout.hash 32).reverse <
    (UniqueProperty.Serialize.leBytes b.prevout.hash 32).reverse)

def BIP69OutLe (a b : CTxOut) : Prop := CompareOutputBIP69 b a = false

instance : DecidableRel BIP69OutLe := fun _ _ => inferInstanceAs (Decidable (_ = false))

def BIP69InLe (a b : CTxIn) : Prop := CompareInputBIP69 b a = false

instance : DecidableRel BIP69InLe := fun _ _ => inferInstanceAs (Decidable (_ = false))

theorem lexLess_irrefl (a : CScript) : lexLess a a = false := by
  induction a with
  | nil => rfl
  | cons b r ih => simp [lexLess, ih]

theorem lexLess_trans {a b c : CScript} (hab : lexLess a b = true) (hbc : lexLess b c = true) :
    lexLess a c = true := by
  induction a generalizing b c with
  | nil => simp [lexLess] at hab
  | cons x r ih =>
    match b, c with
    | [], _ => simp [lexLess] at hab
    | _ :: _, [] => simp [lexLess] at hbc
    | y :: s, z :: t =>
      simp only [lexLess] at hab hbc ⊢
      have hrest := @ih s t
      grind

theorem lexLess_trichotomy {a b : CScript} (h : a.length = b.length) :
    lexLess a b = true ∨ a = b ∨ lexLess b a = true := by
  induction a generalizing b with
  | nil =>
    cases b with
    | nil => exact .inr (.inl rfl)
    | cons _ _ => simp at h
  | cons x r ih =>
    cases b with
    | nil => simp at h
    | cons y s =>
      have hrs : r.length = s.length := by simpa using h
      simp only [lexLess, List.cons.injEq]
      rcases ih hrs with hl | rfl | hl <;> grind

theorem prevectorLess_irrefl (a : CScript) : prevectorLess a a = false := by
  simp [prevectorLess, lexLess_irrefl]

theorem prevectorLess_iff (a b : CScript) : prevectorLess a b = true ↔
    a.length < b.length ∨ (a.length = b.length ∧ lexLess a b = true) := by
  unfold prevectorLess
  grind

theorem prevectorLess_trans {a b c : CScript} (hab : prevectorLess a b = true)
    (hbc : prevectorLess b c = true) : prevectorLess a c = true := by
  rw [prevectorLess_iff] at *
  rcases hab with hab | ⟨hab, lab⟩ <;> rcases hbc with hbc | ⟨hbc, lbc⟩
  · exact .inl (by omega)
  · exact .inl (by omega)
  · exact .inl (by omega)
  · exact .inr ⟨hab.trans hbc, lexLess_trans lab lbc⟩

theorem prevectorLess_trichotomy (a b : CScript) :
    prevectorLess a b = true ∨ a = b ∨ prevectorLess b a = true := by
  unfold prevectorLess
  rcases Nat.lt_trichotomy a.length b.length with h | h | h
  · simp [h]
  · have := lexLess_trichotomy h
    simp only [h, Nat.lt_irrefl, if_false]
    exact this
  · simp [h]

theorem CompareOutputBIP69_irrefl (a : CTxOut) : CompareOutputBIP69 a a = false := by
  simp [CompareOutputBIP69, prevectorLess_irrefl]

theorem CompareOutputBIP69_trans {a b c : CTxOut} (hab : CompareOutputBIP69 a b = true)
    (hbc : CompareOutputBIP69 b c = true) : CompareOutputBIP69 a c = true := by
  simp only [CompareOutputBIP69, Bool.or_eq_true, Bool.and_eq_true, beq_iff_eq,
    decide_eq_true_eq, Int64.lt_iff_toInt_lt] at *
  rcases hab with hab | ⟨hab, sab⟩ <;> rcases hbc with hbc | ⟨hbc, sbc⟩
  · exact .inl (by omega)
  · exact .inl (by rw [← hbc]; exact hab)
  · exact .inl (by rw [hab]; exact hbc)
  · exact .inr ⟨hab.trans hbc, prevectorLess_trans sab sbc⟩

theorem CompareOutputBIP69_trichotomy (a b : CTxOut) :
    CompareOutputBIP69 a b = true ∨ a = b ∨ CompareOutputBIP69 b a = true := by
  obtain ⟨va, sa⟩ := a
  obtain ⟨vb, sb⟩ := b
  simp only [CompareOutputBIP69, Bool.or_eq_true, Bool.and_eq_true, beq_iff_eq,
    decide_eq_true_eq, CTxOut.mk.injEq]
  rcases Int.lt_trichotomy va.toInt vb.toInt with hv | hv | hv
  · exact .inl (.inl (Int64.lt_iff_toInt_lt.mpr hv))
  · obtain rfl := Int64.toInt_inj.mp hv
    rcases prevectorLess_trichotomy sa sb with hs | hs | hs
    · exact .inl (.inr ⟨rfl, hs⟩)
    · exact .inr (.inl ⟨rfl, hs⟩)
    · exact .inr (.inr (.inr ⟨rfl, hs⟩))
  · exact .inr (.inr (.inl (Int64.lt_iff_toInt_lt.mpr hv)))

instance : Std.Total BIP69OutLe where
  total a b := by
    unfold BIP69OutLe
    by_contra h
    simp only [not_or, Bool.not_eq_false] at h
    have := CompareOutputBIP69_trans h.1 h.2
    rw [CompareOutputBIP69_irrefl] at this
    cases this

instance : IsTrans CTxOut BIP69OutLe where
  trans a b c hab hbc := by
    unfold BIP69OutLe at *
    cases hca : CompareOutputBIP69 c a
    · rfl
    · -- `c` before `a`: whichever of `a`, `b` comes first, `c` comes before `b` or `b` before `a`
      rcases CompareOutputBIP69_trichotomy a b with h | rfl | h
      · rw [CompareOutputBIP69_trans hca h] at hbc
        cases hbc
      · rw [hca] at hbc
        cases hbc
      · rw [h] at hab
        cases hab

instance : Std.Antisymm BIP69OutLe where
  antisymm a b hab hba := by
    unfold BIP69OutLe at *
    rcases CompareOutputBIP69_trichotomy a b with h | h | h
    · rw [h] at hba
      cases hba
    · exact h
    · rw [h] at hab
      cases hab

/-! ## The session -/

def COINJOIN_ENTRY_MAX_SIZE : Nat := 9

def MEMPOOL_HEIGHT : UInt32 := 0x7FFFFFFF

inductive PoolMessage where
  | ERR_ALREADY_HAVE | ERR_DENOM | ERR_ENTRIES_FULL | ERR_EXISTING_TX | ERR_FEES
  | ERR_INVALID_COLLATERAL | ERR_INVALID_INPUT | ERR_INVALID_SCRIPT | ERR_INVALID_TX | ERR_MAXIMUM
  | ERR_MN_LIST | ERR_MODE | ERR_NON_STANDARD_PUBKEY | ERR_NOT_A_MN | ERR_QUEUE_FULL | ERR_RECENT
  | ERR_SESSION | ERR_MISSING_TX | ERR_VERSION | MSG_NOERR | MSG_SUCCESS | MSG_ENTRIES_ADDED
  | ERR_SIZE_MISMATCH
deriving DecidableEq, Repr

inductive PoolState where
  | POOL_STATE_IDLE | POOL_STATE_QUEUE | POOL_STATE_ACCEPTING_ENTRIES | POOL_STATE_SIGNING
  | POOL_STATE_ERROR
deriving DecidableEq, Repr

structure Coin where
  out : CTxOut
  nHeight : UInt32
deriving DecidableEq, Repr

def Coin.IsSpent (coin : Coin) : Bool := coin.out.nValue == -1

def COutPoint.IsNull (p : COutPoint) : Bool := p.hash == 0 && p.n == 0xFFFFFFFF

/-- `CCoinJoin::AmountToDenomination`: `1 << i` for the `i`-th standard denomination, else 0. -/
def CCoinJoin.AmountToDenomination (nInputAmount : CAmount) : Int :=
  go vecStandardDenominations 0
where
  go : List CAmount → Nat → Int
    | [], _ => 0
    | d :: ds, i => if nInputAmount == d then 2 ^ i else go ds (i + 1)

/-- What the session reads of the node: the masternode mode, the collateral check's view, the
coins view over the chain tip and the mempool, and the script interpreter, `VerifyScript(scriptSig,
scriptPubKey, SCRIPT_VERIFY_P2SH | SCRIPT_VERIFY_STRICTENC,
MutableTransactionSignatureChecker(&txTo, nIn, 0))`. -/
structure CoinJoinEnv where
  fMasternodeMode : Bool
  collateral : CollateralEnv
  GetCoin : COutPoint → Option Coin
  VerifyScript : CScript → CScript → CMutableTransaction → Nat → Bool

structure CCoinJoinServer where
  nState : PoolState := .POOL_STATE_IDLE
  nSessionDenom : Int := 0
  vecSessionCollaterals : List CTransactionFull := []
  vecEntries : List CCoinJoinEntry := []
  finalMutableTransaction : CMutableTransaction := {}

abbrev InOutsError := PoolMessage × Bool

def checkTxOut (nSessionDenom : Int) (setScripPubKeys : List CScript) (txout : CTxOut) :
    Except InOutsError (List CScript) :=
  if CCoinJoin.AmountToDenomination txout.nValue != nSessionDenom then .error (.ERR_DENOM, true)
  else if !IsPayToPublicKeyHash txout.scriptPubKey then .error (.ERR_INVALID_SCRIPT, true)
  else if txout.scriptPubKey ∈ setScripPubKeys then .error (.ERR_ALREADY_HAVE, true)
  else .ok (txout.scriptPubKey :: setScripPubKeys)

def CheckOutputs (nSessionDenom : Int) :
    List CScript × CAmount → List CTxOut → Except InOutsError (List CScript × CAmount)
  | acc, [] => .ok acc
  | (set, nFees), txout :: rest => do
    let set ← checkTxOut nSessionDenom set txout
    CheckOutputs nSessionDenom (set, nFees - txout.nValue) rest

/-- The loop over the inputs: the coin must exist, be unspent and, in the mempool, be locked;
its output goes through `checkTxOut` and `nFees += coin.out.nValue`. -/
def CheckInputs (env : CoinJoinEnv) (nSessionDenom : Int) :
    List CScript × CAmount → List CTxIn → Except InOutsError (List CScript × CAmount)
  | acc, [] => .ok acc
  | (set, nFees), txin :: rest => do
    if txin.prevout.IsNull then throw (.ERR_INVALID_INPUT, true)
    let some coin := env.GetCoin txin.prevout | throw (.ERR_MISSING_TX, false)
    if coin.IsSpent ||
        (coin.nHeight == MEMPOOL_HEIGHT && !env.collateral.IsLocked txin.prevout.hash) then
      throw (.ERR_MISSING_TX, false)
    let set ← checkTxOut nSessionDenom set coin.out
    CheckInputs env nSessionDenom (set, nFees + coin.out.nValue) rest

def IsValidInOuts (env : CoinJoinEnv) (nSessionDenom : Int) (vin : List CTxIn)
    (vout : List CTxOut) : Except InOutsError Unit := do
  if vin.length != vout.length then throw (.ERR_SIZE_MISMATCH, true)
  let acc ← CheckOutputs nSessionDenom ([], 0) vout
  let (_, nFees) ← CheckInputs env nSessionDenom acc vin
  if nFees != 0 then throw (.ERR_FEES, false)

namespace CCoinJoinServer

/-- `CCoinJoinServer::AddEntry`: the session with the entry appended, or the message it is
refused with. `ConsumeCollateral` only relays the collateral, so a refusal leaves the session
as it was. -/
def AddEntry (env : CoinJoinEnv) (st : CCoinJoinServer) (entry : CCoinJoinEntry) :
    Except CollateralFault (Except PoolMessage CCoinJoinServer) := do
  if !env.fMasternodeMode then return .error .MSG_NOERR
  if st.vecEntries.length ≥ st.vecSessionCollaterals.length then
    return .error .ERR_ENTRIES_FULL
  if !(← CCoinJoin.IsCollateralValid env.collateral entry.txCollateral) then
    return .error .ERR_INVALID_COLLATERAL
  if entry.vecTxDSIn.length > COINJOIN_ENTRY_MAX_SIZE then return .error .ERR_MAXIMUM
  if entry.vecTxDSIn.any fun txin =>
      st.vecEntries.any fun inner => inner.vecTxDSIn.any (·.prevout == txin.prevout) then
    return .error .ERR_ALREADY_HAVE
  match IsValidInOuts env st.nSessionDenom (entry.vecTxDSIn.map (·.toCTxIn)) entry.vecTxOut with
  | .error (nMessageID, _) => return .error nMessageID
  | .ok () => return .ok { st with vecEntries := st.vecEntries ++ [entry] }

def JoinEntries (vecEntries : List CCoinJoinEntry) : CMutableTransaction :=
  vecEntries.foldl (fun txNew entry =>
    { txNew with vout := txNew.vout ++ entry.vecTxOut,
                 vin := txNew.vin ++ entry.vecTxDSIn.map (·.toCTxIn) }) {}

/-- `CCoinJoinServer::CreateFinalTransaction`; `std::sort` is the insertion sort over the order
the BIP69 comparators define. -/
def CreateFinalTransaction (st : CCoinJoinServer) : CCoinJoinServer :=
  let txNew := JoinEntries st.vecEntries
  { st with
    finalMutableTransaction := { txNew with vin := txNew.vin.insertionSort BIP69InLe,
                                            vout := txNew.vout.insertionSort BIP69OutLe },
    nState := .POOL_STATE_SIGNING }

/-- What the loop of `IsInputScriptSigValid` builds: the entries' outputs and inputs in arrival
order, the index of the last input spending the checked prevout, and that input's
`prevPubKey`. -/
structure ScriptSigScan where
  txNew : CMutableTransaction := {}
  nTxInIndex : Option Nat := none
  sigPubKey : CScript := []
  i : Nat := 0

def ScanInput (txin : CTxIn) (scan : ScriptSigScan) (txdsin : CTxDSIn) : ScriptSigScan :=
  let found := txdsin.prevout == txin.prevout
  { txNew := { scan.txNew with vin := scan.txNew.vin ++ [txdsin.toCTxIn] },
    nTxInIndex := if found then some scan.i else scan.nTxInIndex,
    sigPubKey := if found then txdsin.prevPubKey else scan.sigPubKey,
    i := scan.i + 1 }

def ScanEntry (txin : CTxIn) (scan : ScriptSigScan) (entry : CCoinJoinEntry) : ScriptSigScan :=
  entry.vecTxDSIn.foldl (ScanInput txin)
    { scan with txNew := { scan.txNew with vout := scan.txNew.vout ++ entry.vecTxOut } }

def ScanEntries (vecEntries : List CCoinJoinEntry) (txin : CTxIn) : ScriptSigScan :=
  vecEntries.foldl (ScanEntry txin) {}

def IsInputScriptSigValid (env : CoinJoinEnv) (st : CCoinJoinServer) (txin : CTxIn) : Bool :=
  let scan := ScanEntries st.vecEntries txin
  match scan.nTxInIndex with
  | none => false
  | some nTxInIndex =>
    let txNew := { scan.txNew with
      vin := scan.txNew.vin.modify nTxInIndex fun i => { i with scriptSig := txin.scriptSig } }
    env.VerifyScript txin.scriptSig scan.sigPubKey txNew nTxInIndex

end CCoinJoinServer

/-- The loop of `CCoinJoinEntry::AddScriptSig`: the first input with the prevout and sequence
takes the signature unless it has one; `none` where the function returns `false`. -/
def AddScriptSigToInputs (txin : CTxIn) : List CTxDSIn → Option (List CTxDSIn)
  | [] => none
  | txdsin :: rest =>
    if txdsin.prevout == txin.prevout && txdsin.nSequence == txin.nSequence then
      if txdsin.fHasSig then none
      else some ({ txdsin with scriptSig := txin.scriptSig, fHasSig := true } :: rest)
    else (AddScriptSigToInputs txin rest).map (txdsin :: ·)

def CCoinJoinEntry.AddScriptSig (entry : CCoinJoinEntry) (txin : CTxIn) :
    Option CCoinJoinEntry :=
  (AddScriptSigToInputs txin entry.vecTxDSIn).map fun vecTxDSIn => { entry with vecTxDSIn }

/-- The loop of `CCoinJoinServer::AddScriptSig` over the entries: the first that takes it. -/
def AddScriptSigToEntries (txin : CTxIn) : List CCoinJoinEntry → Option (List CCoinJoinEntry)
  | [] => none
  | entry :: rest =>
    match entry.AddScriptSig txin with
    | some entry' => some (entry' :: rest)
    | none => (AddScriptSigToEntries txin rest).map (entry :: ·)

namespace CCoinJoinServer

/-- `CCoinJoinServer::AddScriptSig`: whether it returns `true`, and the session after it. The
final transaction takes the signature before the entries do, so a `false` at the end leaves it
changed. -/
def AddScriptSig (env : CoinJoinEnv) (st : CCoinJoinServer) (txinNew : CTxIn) :
    Bool × CCoinJoinServer :=
  if st.vecEntries.any fun entry => entry.vecTxDSIn.any (·.scriptSig == txinNew.scriptSig) then
    (false, st)
  else if !IsInputScriptSigValid env st txinNew then (false, st)
  else
    let final := { st.finalMutableTransaction with
      vin := st.finalMutableTransaction.vin.map fun txin =>
        if txin.prevout == txinNew.prevout && txin.nSequence == txinNew.nSequence then
          { txin with scriptSig := txinNew.scriptSig } else txin }
    match AddScriptSigToEntries txinNew st.vecEntries with
    | some vecEntries => (true, { st with finalMutableTransaction := final, vecEntries })
    | none => (false, { st with finalMutableTransaction := final })

end CCoinJoinServer

namespace CCoinJoinServer

/-! ### The two transactions -/

theorem foldl_JoinEntries (es : List CCoinJoinEntry) (tx : CMutableTransaction) :
    es.foldl (fun txNew entry =>
      { txNew with vout := txNew.vout ++ entry.vecTxOut,
                   vin := txNew.vin ++ entry.vecTxDSIn.map (·.toCTxIn) }) tx =
      { tx with vout := tx.vout ++ es.flatMap (·.vecTxOut),
                vin := tx.vin ++ es.flatMap fun entry => entry.vecTxDSIn.map (·.toCTxIn) } := by
  induction es generalizing tx with
  | nil => simp
  | cons e es ih => simp [ih, List.append_assoc]

@[simp] theorem JoinEntries_vout (es : List CCoinJoinEntry) :
    (JoinEntries es).vout = es.flatMap (·.vecTxOut) := by
  simp [JoinEntries, foldl_JoinEntries]

theorem foldl_ScanInput_txNew (txin : CTxIn) (ds : List CTxDSIn) (scan : ScriptSigScan) :
    (ds.foldl (ScanInput txin) scan).txNew =
      { scan.txNew with vin := scan.txNew.vin ++ ds.map (·.toCTxIn) } := by
  induction ds generalizing scan with
  | nil => simp
  | cons d ds ih => simp [ih, ScanInput, List.append_assoc]

theorem ScanEntries_txNew (es : List CCoinJoinEntry) (txin : CTxIn) :
    (ScanEntries es txin).txNew = JoinEntries es := by
  -- both are left folds over the entries; one step of each appends the same outputs and inputs
  suffices h : ∀ scan : ScriptSigScan, (es.foldl (ScanEntry txin) scan).txNew =
      es.foldl (fun txNew entry =>
        { txNew with vout := txNew.vout ++ entry.vecTxOut,
                     vin := txNew.vin ++ entry.vecTxDSIn.map (·.toCTxIn) }) scan.txNew from h {}
  induction es with
  | nil => intro scan; rfl
  | cons e es ih =>
    intro scan
    simp only [List.foldl_cons]
    rw [ih]
    simp [ScanEntry, foldl_ScanInput_txNew]

@[simp] theorem CreateFinalTransaction_vout (st : CCoinJoinServer) :
    (CreateFinalTransaction st).finalMutableTransaction.vout =
      (st.vecEntries.flatMap (·.vecTxOut)).insertionSort BIP69OutLe := by
  simp [CreateFinalTransaction]

/-- `std::sort` could give no other output order: the final outputs are the only arrangement
of the entries' outputs that the BIP69 comparator leaves in order. -/
theorem CreateFinalTransaction_vout_unique (st : CCoinJoinServer) {l : List CTxOut}
    (hperm : l.Perm (st.vecEntries.flatMap (·.vecTxOut))) (hsorted : l.Pairwise BIP69OutLe) :
    l = (CreateFinalTransaction st).finalMutableTransaction.vout := by
  rw [CreateFinalTransaction_vout]
  have hfinal := List.pairwise_insertionSort BIP69OutLe (st.vecEntries.flatMap (·.vecTxOut))
  exact hperm.trans (List.perm_insertionSort _ _).symm |>.eq_of_pairwise' hsorted hfinal

/-- Two entries whose three outputs are out of order: two of value 5 told apart by their
scripts, one of value 7. -/
theorem CreateFinalTransaction_vout_unique_of_two_entries :
    [⟨5, []⟩, ⟨5, [2]⟩, ⟨7, [1]⟩] = (CreateFinalTransaction
      { vecEntries :=
          [{ vecTxDSIn := [], vecTxOut := [⟨7, [1]⟩, ⟨5, []⟩], txCollateral := { hash := 0 } },
           { vecTxDSIn := [], vecTxOut := [⟨5, [2]⟩], txCollateral := { hash := 1 } }] }
      ).finalMutableTransaction.vout :=
  CreateFinalTransaction_vout_unique _ (by decide) (by decide)

theorem ScanEntries_header_eq_final (st : CCoinJoinServer) (txin : CTxIn) :
    let txNew := (ScanEntries st.vecEntries txin).txNew
    let final := (CreateFinalTransaction st).finalMutableTransaction
    txNew.nVersion = final.nVersion ∧ txNew.nType = final.nType ∧
      txNew.nLockTime = final.nLockTime ∧ txNew.vExtraPayload = final.vExtraPayload := by
  simp [ScanEntries_txNew, CreateFinalTransaction]

theorem pairwise_of_vout_eq_final {st : CCoinJoinServer} {txin : CTxIn}
    (h : (ScanEntries st.vecEntries txin).txNew.vout =
      (CreateFinalTransaction st).finalMutableTransaction.vout) :
    (st.vecEntries.flatMap (·.vecTxOut)).Pairwise BIP69OutLe := by
  rw [ScanEntries_txNew, JoinEntries_vout, CreateFinalTransaction_vout] at h
  rw [h]
  exact List.pairwise_insertionSort _ _

theorem IsInputScriptSigValid_vout_eq_final_iff (st : CCoinJoinServer) (txin : CTxIn) :
    (ScanEntries st.vecEntries txin).txNew.vout =
        (CreateFinalTransaction st).finalMutableTransaction.vout ↔
      (st.vecEntries.flatMap (·.vecTxOut)).Pairwise BIP69OutLe := by
  constructor
  · exact pairwise_of_vout_eq_final
  · intro h
    rw [ScanEntries_txNew, JoinEntries_vout, CreateFinalTransaction_vout]
    exact h.insertionSort_eq.symm

end CCoinJoinServer

/-! ## The signature hash -/

def SIGHASH_ALL : Int32 := 1
def SIGHASH_NONE : Int32 := 2
def SIGHASH_SINGLE : Int32 := 3
def SIGHASH_ANYONECANPAY : Int32 := 0x80

/-- What `CTransactionSignatureSerializer::Serialize` writes, then `nHashType`: the version word,
each serialized input's prevout, script and sequence, the outputs, the lock time and the
payload of a special transaction. -/
structure SignatureSerialization where
  n32bitVersion : Int32
  vin : List (COutPoint × CScript × UInt32)
  vout : List CTxOut
  nLockTime : UInt32
  vExtraPayload : List UInt8
  nHashType : Int32
deriving DecidableEq, Repr

/-- What `SignatureHash` hashes: `uint256::ONE` for a `SIGHASH_SINGLE` past the outputs, else a
serialization. -/
inductive SigHashMsg where
  | one
  | hash (ser : SignatureSerialization)
deriving DecidableEq, Repr

/-- `SignatureHash` for a base-version script, up to the hash. The script code is taken as it
is: the `OP_CODESEPARATOR`s that `SerializeScriptCode` skips are not modelled. -/
def SignatureHash (scriptCode : CScript) (txTo : CMutableTransaction) (nIn : Nat)
    (nHashType : Int32) : SigHashMsg :=
  let fAnyoneCanPay := nHashType &&& SIGHASH_ANYONECANPAY != 0
  let fHashSingle := nHashType &&& 0x1f == SIGHASH_SINGLE
  let fHashNone := nHashType &&& 0x1f == SIGHASH_NONE
  if fHashSingle && nIn ≥ txTo.vout.length then .one
  else
    let SerializeInput (nInput : Nat) : COutPoint × CScript × UInt32 :=
      let nInput := if fAnyoneCanPay then nIn else nInput
      let txin := txTo.vin.getD nInput { prevout := {} }
      (txin.prevout, if nInput != nIn then [] else scriptCode,
        if nInput != nIn && (fHashSingle || fHashNone) then 0 else txin.nSequence)
    let SerializeOutput (nOutput : Nat) : CTxOut :=
      if fHashSingle && nOutput != nIn then ⟨-1, []⟩ else txTo.vout.getD nOutput ⟨-1, []⟩
    let nInputs := if fAnyoneCanPay then 1 else txTo.vin.length
    let nOutputs := if fHashNone then 0 else if fHashSingle then nIn + 1 else txTo.vout.length
    .hash { n32bitVersion := txTo.nVersion.toInt32 ||| txTo.nType.toUInt32.toInt32 <<< 16,
            vin := (List.range nInputs).map SerializeInput,
            vout := (List.range nOutputs).map SerializeOutput,
            nLockTime := txTo.nLockTime,
            vExtraPayload :=
              if txTo.nVersion == 3 && txTo.nType != TRANSACTION_NORMAL then txTo.vExtraPayload
              else [],
            nHashType }

theorem map_getD_range {α : Type} (l : List α) (d : α) :
    (List.range l.length).map (fun n => l.getD n d) = l := by
  apply List.ext_getElem
  · simp
  · intro n h₁ h₂
    simp [List.getElem?_eq_getElem h₂]

theorem SignatureHash_anyoneCanPay_all (scriptCode : CScript) (txTo : CMutableTransaction)
    (nIn : Nat) :
    SignatureHash scriptCode txTo nIn (SIGHASH_ALL ||| SIGHASH_ANYONECANPAY) =
      .hash { n32bitVersion := txTo.nVersion.toInt32 ||| txTo.nType.toUInt32.toInt32 <<< 16,
              vin := [((txTo.vin.getD nIn { prevout := {} }).prevout, scriptCode,
                (txTo.vin.getD nIn { prevout := {} }).nSequence)],
              vout := txTo.vout,
              nLockTime := txTo.nLockTime,
              vExtraPayload :=
                if txTo.nVersion == 3 && txTo.nType != TRANSACTION_NORMAL then txTo.vExtraPayload
                else [],
              nHashType := SIGHASH_ALL ||| SIGHASH_ANYONECANPAY } := by
  have hacp : ((SIGHASH_ALL ||| SIGHASH_ANYONECANPAY) &&& SIGHASH_ANYONECANPAY != 0) = true := by
    decide
  have hsingle : ((SIGHASH_ALL ||| SIGHASH_ANYONECANPAY) &&& 0x1f == SIGHASH_SINGLE) = false := by
    decide
  have hnone : ((SIGHASH_ALL ||| SIGHASH_ANYONECANPAY) &&& 0x1f == SIGHASH_NONE) = false := by
    decide
  simp only [SignatureHash, hacp, hsingle, hnone, Bool.false_and, Bool.false_eq_true, if_false,
    if_true, List.range_one, List.map_cons, List.map_nil, bne_self_eq_false, Bool.or_false,
    map_getD_range]

theorem vout_eq_of_SignatureHash_eq {sc sc' : CScript} {tx tx' : CMutableTransaction}
    {n n' : Nat}
    (h : SignatureHash sc tx n (SIGHASH_ALL ||| SIGHASH_ANYONECANPAY) =
      SignatureHash sc' tx' n' (SIGHASH_ALL ||| SIGHASH_ANYONECANPAY)) :
    tx.vout = tx'.vout := by
  rw [SignatureHash_anyoneCanPay_all, SignatureHash_anyoneCanPay_all] at h
  injection h with h
  exact (SignatureSerialization.mk.inj h).2.2.1

namespace CCoinJoinServer

/-- The transaction `IsInputScriptSigValid` passes to the checker for the input at `n`. -/
def CheckedTx (st : CCoinJoinServer) (txin : CTxIn) (n : Nat) : CMutableTransaction :=
  let scan := ScanEntries st.vecEntries txin
  { scan.txNew with
    vin := scan.txNew.vin.modify n fun i => { i with scriptSig := txin.scriptSig } }

theorem IsInputScriptSigValid_eq (env : CoinJoinEnv) (st : CCoinJoinServer) (txin : CTxIn) :
    IsInputScriptSigValid env st txin =
      match (ScanEntries st.vecEntries txin).nTxInIndex with
      | none => false
      | some n => env.VerifyScript txin.scriptSig (ScanEntries st.vecEntries txin).sigPubKey
          (CheckedTx st txin n) n := rfl

theorem SignatureHash_CheckedTx_eq_final (st : CCoinJoinServer) (txin : CTxIn)
    (n nMyInputIndex : Nat) (sigPubKey prevPubKey : CScript)
    (h : SignatureHash sigPubKey (CheckedTx st txin n) n (SIGHASH_ALL ||| SIGHASH_ANYONECANPAY) =
      SignatureHash prevPubKey (CreateFinalTransaction st).finalMutableTransaction nMyInputIndex
        (SIGHASH_ALL ||| SIGHASH_ANYONECANPAY)) :
    (st.vecEntries.flatMap (·.vecTxOut)).Pairwise BIP69OutLe := by
  have hvout : (CheckedTx st txin n).vout = _ := vout_eq_of_SignatureHash_eq h
  exact pairwise_of_vout_eq_final hvout

end CCoinJoinServer

/-- An entry as the masternode reads it from `DSVIN`: inputs deserialize as `CTxIn`, so the
memory-only `prevPubKey`, `fHasSig` and `nRounds` take their defaults. -/
def CCoinJoinEntry.Received (entry : CCoinJoinEntry) : CCoinJoinEntry :=
  { entry with vecTxDSIn := entry.vecTxDSIn.map fun txdsin => { toCTxIn := txdsin.toCTxIn } }

namespace CCoinJoinServer

theorem foldl_ScanInput_sigPubKey (txin : CTxIn) (ds : List CTxDSIn) (scan : ScriptSigScan)
    (hds : ∀ d ∈ ds, d.prevPubKey = []) (hscan : scan.sigPubKey = []) :
    (ds.foldl (ScanInput txin) scan).sigPubKey = [] := by
  induction ds generalizing scan with
  | nil => exact hscan
  | cons d ds ih =>
    apply ih _ (fun d' hd' => hds d' (List.mem_cons_of_mem d hd'))
    simp only [ScanInput]
    split <;> simp [hds d List.mem_cons_self, hscan]

theorem ScanEntries_sigPubKey_of_Received (es : List CCoinJoinEntry) (txin : CTxIn) :
    (ScanEntries (es.map CCoinJoinEntry.Received) txin).sigPubKey = [] := by
  suffices h : ∀ scan : ScriptSigScan, scan.sigPubKey = [] →
      ((es.map CCoinJoinEntry.Received).foldl (ScanEntry txin) scan).sigPubKey = [] from h {} rfl
  induction es with
  | nil => intro scan h; exact h
  | cons e es ih =>
    intro scan h
    apply ih
    apply foldl_ScanInput_sigPubKey
    · simp [CCoinJoinEntry.Received]
    · exact h

end CCoinJoinServer

def p2pkhScript (k : UInt8) : CScript :=
  [OP_DUP, OP_HASH160, 0x14] ++ List.replicate 20 k ++ [OP_EQUALVERIFY, OP_CHECKSIG]

/-- A participant's entry, received: one input spending output 0 of transaction `k`, and one
output of the 1 DASH denomination to `p2pkhScript k`. -/
def mixingEntry (k : UInt8) : CCoinJoinEntry :=
  { vecTxDSIn := [{ prevout := ⟨BitVec.ofNat 256 k.toNat, 0⟩ }],
    vecTxOut := [⟨COIN + 1000, p2pkhScript k⟩],
    txCollateral := { hash := 0 } }

/-- Two entries whose outputs arrive against BIP69 order: the final transaction pays key 1 first,
the transaction the server checks the second participant's signature over pays key 2 first, and
no script codes make the two `SIGHASH_ALL | SIGHASH_ANYONECANPAY` messages equal. -/
theorem IsInputScriptSigValid_checks_outputs_in_arrival_order :
    let st : CCoinJoinServer := { vecEntries := [mixingEntry 2, mixingEntry 1] }
    let txin : CTxIn := { prevout := ⟨1, 0⟩ }
    (CCoinJoinServer.ScanEntries st.vecEntries txin).txNew.vout ≠
        (CCoinJoinServer.CreateFinalTransaction st).finalMutableTransaction.vout ∧
      ∀ sigPubKey prevPubKey : CScript,
        SignatureHash sigPubKey (CCoinJoinServer.CheckedTx st txin 1) 1
            (SIGHASH_ALL ||| SIGHASH_ANYONECANPAY) ≠
          SignatureHash prevPubKey
            (CCoinJoinServer.CreateFinalTransaction st).finalMutableTransaction 0
            (SIGHASH_ALL ||| SIGHASH_ANYONECANPAY) := by
  have hunsorted : ¬ (([mixingEntry 2, mixingEntry 1]).flatMap (·.vecTxOut)).Pairwise
      BIP69OutLe := by decide
  refine ⟨fun h => hunsorted
    ((CCoinJoinServer.IsInputScriptSigValid_vout_eq_final_iff _ _).mp h), ?_⟩
  intro sigPubKey prevPubKey h
  exact hunsorted (CCoinJoinServer.SignatureHash_CheckedTx_eq_final _ _ _ _ _ _ h)

end DashCore
