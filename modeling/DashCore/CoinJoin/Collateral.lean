import DashCore.Evo.ProTx
import DashCore.Lib.Rollback

/-! The collateral check of a CoinJoin entry (coinjoin/coinjoin.cpp). A peer sends the
collateral transaction; `IsCollateralValid` sums its outputs, looks up each input in the mempool
or the UTXO set and sums their values, and compares the fee with the collateral amount before
the mempool's test acceptance. The sums are `CAmount` (`int64_t`) additions, whose overflow is
undefined behaviour, and a mempool parent's output is read at the input's index with
`operator[]`; the model reports both as faults. The mempool, the InstantSend locks, the UTXO
set and `AcceptToMemoryPool` are the environment of the call. -/
namespace DashCore

abbrev CAmount := Int64

def COIN : CAmount := 100000000

def vecStandardDenominations : List CAmount :=
  [(10 * COIN) + 10000, (1 * COIN) + 1000, (COIN / 10) + 100, (COIN / 100) + 10, (COIN / 1000) + 1]

def GetSmallestDenomination : CAmount := vecStandardDenominations.getLastD 0

def GetCollateralAmount : CAmount := GetSmallestDenomination / 10

def OP_RETURN : UInt8 := 0x6a
def OP_DUP : UInt8 := 0x76
def OP_EQUALVERIFY : UInt8 := 0x88
def OP_HASH160 : UInt8 := 0xa9
def OP_CHECKSIG : UInt8 := 0xac

def MAX_SCRIPT_SIZE : Nat := 10000

def IsPayToPublicKeyHash (script : CScript) : Bool :=
  script.length == 25 && script[0]? == some OP_DUP && script[1]? == some OP_HASH160 &&
    script[2]? == some 0x14 && script[23]? == some OP_EQUALVERIFY &&
    script[24]? == some OP_CHECKSIG

def IsUnspendable (script : CScript) : Bool :=
  (script.length > 0 && script.head? == some OP_RETURN) || script.length > MAX_SCRIPT_SIZE

structure CTxOut where
  nValue : CAmount
  scriptPubKey : CScript
deriving DecidableEq, Repr

/-- A `CTransaction` with the outputs and the lock time, which the evo code does not read. -/
structure CTransactionFull extends CTransaction where
  vout : List CTxOut := []
  nLockTime : UInt32 := 0
deriving DecidableEq, Repr

/-- What `IsCollateralValid` reads of the node: `mempool.get`, `mempool.isSpent`,
`quorumInstantSendManager->IsLocked`, `GetUTXOCoin` (the coin's output) and
`AcceptToMemoryPool(..., test_accept=true)`. -/
structure CollateralEnv where
  mempoolGet : uint256 → Option CTransactionFull
  isSpent : COutPoint → Bool
  IsLocked : uint256 → Bool
  GetUTXOCoin : COutPoint → Option CTxOut
  AcceptToMemoryPool : CTransactionFull → Bool

/-- Undefined behaviour of the check. -/
inductive CollateralFault where
  /-- `mempoolTx->vout[idx]` past the end. -/
  | outOfBounds (idx : Nat)
  /-- A `CAmount` addition or subtraction outside `int64_t`. -/
  | overflow
deriving DecidableEq, Repr

def checkedAmount (r : Int) : Except CollateralFault CAmount :=
  if -2 ^ 63 ≤ r ∧ r < 2 ^ 63 then .ok (Int64.ofInt r) else .error .overflow

def addAmount (a b : CAmount) : Except CollateralFault CAmount := checkedAmount (a.toInt + b.toInt)

def subAmount (a b : CAmount) : Except CollateralFault CAmount := checkedAmount (a.toInt - b.toInt)

theorem toInt_of_checkedAmount {r : Int} {a : CAmount} (h : checkedAmount r = .ok a) :
    a.toInt = r := by
  unfold checkedAmount at h
  split at h
  · rename_i hr
    cases h
    exact Int64.toInt_ofInt_of_le hr.1 hr.2
  · cases h

theorem checkedAmount_of_mem {r : Int} (h₁ : -2 ^ 63 ≤ r) (h₂ : r < 2 ^ 63) :
    checkedAmount r = .ok (Int64.ofInt r) :=
  if_pos ⟨h₁, h₂⟩

theorem checkedAmount_of_le {r : Int} (h : 2 ^ 63 ≤ r) : checkedAmount r = .error .overflow :=
  if_neg fun hr => by omega

namespace CCoinJoin

/-- The loop over the outputs: `nValueOut += txout.nValue`, then the script check, which
returns `false` (here `none`) at an output that is neither P2PKH nor unspendable. -/
def SumOutputs : CAmount → List CTxOut → Except CollateralFault (Option CAmount)
  | nValueOut, [] => .ok (some nValueOut)
  | nValueOut, txout :: rest => do
    let nValueOut ← addAmount nValueOut txout.nValue
    if !IsPayToPublicKeyHash txout.scriptPubKey && !IsUnspendable txout.scriptPubKey then
      return none
    SumOutputs nValueOut rest

/-- The loop over the inputs: a mempool parent must be unspent and locked, and its output at
`prevout.n` is read unchecked; otherwise the coin must be in the UTXO set. -/
def SumInputs (env : CollateralEnv) : CAmount → List COutPoint →
    Except CollateralFault (Option CAmount)
  | nValueIn, [] => .ok (some nValueIn)
  | nValueIn, prevout :: rest =>
    match env.mempoolGet prevout.hash with
    | some mempoolTx =>
      if env.isSpent prevout || !env.IsLocked prevout.hash then .ok none
      else match mempoolTx.vout[prevout.n.toNat]? with
        | none => .error (.outOfBounds prevout.n.toNat)
        | some txout => do SumInputs env (← addAmount nValueIn txout.nValue) rest
    | none =>
      match env.GetUTXOCoin prevout with
      | some coin => do SumInputs env (← addAmount nValueIn coin.nValue) rest
      | none => .ok none

def IsCollateralValid (env : CollateralEnv) (txCollateral : CTransactionFull) :
    Except CollateralFault Bool := do
  if txCollateral.vout.isEmpty then return false
  if txCollateral.nLockTime != 0 then return false
  let some nValueOut ← SumOutputs 0 txCollateral.vout | return false
  let some nValueIn ← SumInputs env 0 txCollateral.vin | return false
  -- collateral transactions are required to pay out a small fee to the miners
  if (← subAmount nValueIn nValueOut) < GetCollateralAmount then return false
  return env.AcceptToMemoryPool txCollateral

theorem SumOutputs_eq_some {acc v : CAmount} {l : List CTxOut}
    (h : SumOutputs acc l = .ok (some v)) :
    (∀ o ∈ l, (IsPayToPublicKeyHash o.scriptPubKey || IsUnspendable o.scriptPubKey) = true) ∧
      v.toInt = acc.toInt + (l.map (·.nValue.toInt)).sum := by
  induction l generalizing acc with
  | nil =>
    cases h
    simp
  | cons o rest ih =>
    simp only [SumOutputs] at h
    obtain ⟨acc', hadd, h⟩ := Rollback.bind_eq_ok h
    split at h
    · cases h
    · rename_i hscript
      obtain ⟨hall, hv⟩ := ih h
      have hacc : acc'.toInt = acc.toInt + o.nValue.toInt := toInt_of_checkedAmount hadd
      refine ⟨?_, ?_⟩
      · intro o' ho'
        rcases List.mem_cons.mp ho' with rfl | ho'
        · cases hp : IsPayToPublicKeyHash o'.scriptPubKey <;> simp_all
        · exact hall o' ho'
      · simp only [List.map_cons, List.sum_cons, hv, hacc]
        omega

/-- The coin an input spends, where the input loop accepts it: the output at the input's
index of an unspent, locked mempool parent, or else the coin of the UTXO set. -/
def SpentCoin (env : CollateralEnv) (prevout : COutPoint) : Option CTxOut :=
  match env.mempoolGet prevout.hash with
  | some mempoolTx =>
    if env.isSpent prevout || !env.IsLocked prevout.hash then none
    else mempoolTx.vout[prevout.n.toNat]?
  | none => env.GetUTXOCoin prevout

def SpentValueAbs (env : CollateralEnv) (prevout : COutPoint) : Nat :=
  ((SpentCoin env prevout).map (·.nValue.toInt.natAbs)).getD 0

theorem SumInputs_eq_some {env : CollateralEnv} {acc v : CAmount} {l : List COutPoint}
    (h : SumInputs env acc l = .ok (some v)) :
    ∃ coins : List CTxOut, l.map (SpentCoin env) = coins.map some ∧
      v.toInt = acc.toInt + (coins.map (·.nValue.toInt)).sum := by
  induction l generalizing acc with
  | nil =>
    cases h
    exact ⟨[], rfl, by simp⟩
  | cons prevout rest ih =>
    -- one case per way the loop body accepts a coin
    have step : ∀ coin : CTxOut, SpentCoin env prevout = some coin →
        ∀ acc' : CAmount, addAmount acc coin.nValue = .ok acc' →
        SumInputs env acc' rest = .ok (some v) →
        ∃ coins : List CTxOut, (prevout :: rest).map (SpentCoin env) = coins.map some ∧
          v.toInt = acc.toInt + (coins.map (·.nValue.toInt)).sum := by
      intro coin hcoin acc' hadd hrest
      obtain ⟨coins, hmap, hv⟩ := ih hrest
      have hacc : acc'.toInt = acc.toInt + coin.nValue.toInt := toInt_of_checkedAmount hadd
      refine ⟨coin :: coins, by simp [hcoin, hmap], ?_⟩
      simp only [List.map_cons, List.sum_cons, hv, hacc]
      omega
    simp only [SumInputs] at h
    split at h
    · rename_i mempoolTx hmem
      split at h
      · cases h
      · rename_i hok
        split at h
        · cases h
        · rename_i txout hget
          obtain ⟨acc', hadd, h⟩ := Rollback.bind_eq_ok h
          exact step txout (by simp [SpentCoin, hmem, hok, hget]) acc' hadd h
    · rename_i hmem
      split at h
      · rename_i coin hutxo
        obtain ⟨acc', hadd, h⟩ := Rollback.bind_eq_ok h
        exact step coin (by simp [SpentCoin, hmem, hutxo]) acc' hadd h
      · cases h

/-- What a `true` result says: the collateral has outputs and no lock time, every output
passes the script check, every input spends a coin, the fee of the exact sums is at least
`GetCollateralAmount()`, and the mempool would accept the transaction. -/
theorem IsCollateralValid_true_pays_collateral {env : CollateralEnv}
    {txCollateral : CTransactionFull}
    (h : IsCollateralValid env txCollateral = .ok true) :
    txCollateral.vout ≠ [] ∧ txCollateral.nLockTime = 0 ∧
      (∀ o ∈ txCollateral.vout,
        (IsPayToPublicKeyHash o.scriptPubKey || IsUnspendable o.scriptPubKey) = true) ∧
      (∃ coins : List CTxOut, txCollateral.vin.map (SpentCoin env) = coins.map some ∧
        GetCollateralAmount.toInt ≤
          (coins.map (·.nValue.toInt)).sum - (txCollateral.vout.map (·.nValue.toInt)).sum) ∧
      env.AcceptToMemoryPool txCollateral = true := by
  unfold IsCollateralValid at h
  split at h
  · cases h
  rename_i hempty
  split at h
  · cases h
  rename_i hlock
  obtain ⟨r₁, hout, h⟩ := Rollback.bind_eq_ok h
  split at h
  · rename_i nValueOut
    obtain ⟨r₂, hin, h⟩ := Rollback.bind_eq_ok h
    split at h
    · rename_i nValueIn
      obtain ⟨fee, hsub, h⟩ := Rollback.bind_eq_ok h
      split at h
      · cases h
      · rename_i hfee
        obtain ⟨hall, hvOut⟩ := SumOutputs_eq_some hout
        obtain ⟨coins, hmap, hvIn⟩ := SumInputs_eq_some hin
        have hfee' : fee.toInt = nValueIn.toInt - nValueOut.toInt := toInt_of_checkedAmount hsub
        have hle : GetCollateralAmount.toInt ≤ fee.toInt :=
          Int64.le_iff_toInt_le.mp (Int64.not_lt.mp hfee)
        refine ⟨by simpa using hempty, by simpa using hlock, hall, ⟨coins, hmap, ?_⟩, ?_⟩
        · simp only [Int64.toInt_zero, zero_add] at hvOut hvIn
          omega
        · exact (Except.ok.inj h : _)
    · cases h
  · cases h

/-- A collateral that burns a coin of 100000 duffs in an `OP_RETURN` output passes. -/
theorem IsCollateralValid_true_of_burned_fee :
    IsCollateralValid
        ⟨fun _ => none, fun _ => false, fun _ => false, fun _ => some ⟨100000, []⟩, fun _ => true⟩
        { hash := 0, vin := [⟨1, 0⟩], vout := [⟨0, [OP_RETURN]⟩] } = .ok true ∧
      [(⟨0, [OP_RETURN]⟩ : CTxOut)] ≠ [] := by
  have h : IsCollateralValid
      ⟨fun _ => none, fun _ => false, fun _ => false, fun _ => some ⟨100000, []⟩, fun _ => true⟩
      { hash := 0, vin := [⟨1, 0⟩], vout := [⟨0, [OP_RETURN]⟩] } = .ok true := by decide
  exact ⟨h, (IsCollateralValid_true_pays_collateral h).1⟩

theorem IsCollateralValid_reads_outOfBounds {env : CollateralEnv}
    {txCollateral mempoolTx : CTransactionFull} {prevout : COutPoint} {rest : List COutPoint}
    {nValueOut : CAmount} (hvout : txCollateral.vout ≠ []) (hlock : txCollateral.nLockTime = 0)
    (hout : SumOutputs 0 txCollateral.vout = .ok (some nValueOut))
    (hvin : txCollateral.vin = prevout :: rest)
    (hmem : env.mempoolGet prevout.hash = some mempoolTx) (hspent : env.isSpent prevout = false)
    (hlocked : env.IsLocked prevout.hash = true) (hn : mempoolTx.vout.length ≤ prevout.n.toNat) :
    IsCollateralValid env txCollateral = .error (.outOfBounds prevout.n.toNat) := by
  have hin : SumInputs env 0 txCollateral.vin = .error (.outOfBounds prevout.n.toNat) := by
    rw [hvin]
    simp [SumInputs, hmem, hspent, hlocked, List.getElem?_eq_none hn]
  simp [IsCollateralValid, hvout, hlock, hout, hin]

theorem IsCollateralValid_overflows {env : CollateralEnv} {txCollateral : CTransactionFull}
    {o₁ o₂ : CTxOut} {rest : List CTxOut} (hlock : txCollateral.nLockTime = 0)
    (hvout : txCollateral.vout = o₁ :: o₂ :: rest)
    (hscript : (IsPayToPublicKeyHash o₁.scriptPubKey || IsUnspendable o₁.scriptPubKey) = true)
    (hsum : 2 ^ 63 ≤ o₁.nValue.toInt + o₂.nValue.toInt) :
    IsCollateralValid env txCollateral = .error .overflow := by
  have h₁ : addAmount 0 o₁.nValue = .ok o₁.nValue := by
    have := o₁.nValue.le_toInt
    have := o₁.nValue.toInt_lt
    rw [addAmount, checkedAmount_of_mem (by simp; omega) (by simp; omega)]
    simp [Int64.ofInt_toInt]
  have h₂ : addAmount o₁.nValue o₂.nValue = .error .overflow := checkedAmount_of_le hsum
  have hout : SumOutputs 0 (o₁ :: o₂ :: rest) = .error .overflow := by
    cases hp : IsPayToPublicKeyHash o₁.scriptPubKey <;>
      simp_all [SumOutputs]
  simp [IsCollateralValid, hvout, hlock, hout]

theorem addAmount_of_natAbs_lt (a b : CAmount) (h : a.toInt.natAbs + b.toInt.natAbs < 2 ^ 63) :
    ∃ c, addAmount a b = .ok c ∧ c.toInt = a.toInt + b.toInt :=
  ⟨_, checkedAmount_of_mem (by omega) (by omega), Int64.toInt_ofInt_of_le (by omega) (by omega)⟩

theorem SumOutputs_ok (l : List CTxOut) : ∀ acc : CAmount,
    acc.toInt.natAbs + (l.map (·.nValue.toInt.natAbs)).sum < 2 ^ 63 →
    ∃ r, SumOutputs acc l = .ok r ∧ ∀ v, r = some v →
      v.toInt.natAbs ≤ acc.toInt.natAbs + (l.map (·.nValue.toInt.natAbs)).sum := by
  induction l with
  | nil => exact fun acc _ => ⟨_, rfl, fun v hv => by cases hv; simp⟩
  | cons o rest ih =>
    intro acc hb
    simp only [List.map_cons, List.sum_cons] at hb ⊢
    obtain ⟨c, hadd, hc⟩ := addAmount_of_natAbs_lt acc o.nValue (by omega)
    obtain ⟨r, hr, hbound⟩ := ih c (by rw [hc]; omega)
    simp only [SumOutputs, hadd, Rollback.ok_bind]
    split
    · exact ⟨none, rfl, fun v hv => by cases hv⟩
    · refine ⟨r, hr, fun v hv => ?_⟩
      have := hbound v hv
      rw [hc] at this
      omega

theorem SumInputs_ok (env : CollateralEnv) (l : List COutPoint)
    (hin : ∀ p ∈ l, ∀ mempoolTx, env.mempoolGet p.hash = some mempoolTx →
      env.isSpent p = false → env.IsLocked p.hash = true → p.n.toNat < mempoolTx.vout.length) :
    ∀ acc : CAmount, acc.toInt.natAbs + (l.map (SpentValueAbs env)).sum < 2 ^ 63 →
      ∃ r, SumInputs env acc l = .ok r ∧ ∀ v, r = some v →
        v.toInt.natAbs ≤ acc.toInt.natAbs + (l.map (SpentValueAbs env)).sum := by
  induction l with
  | nil => exact fun acc _ => ⟨_, rfl, fun v hv => by cases hv; simp⟩
  | cons prevout rest ih =>
    intro acc hb
    have step : ∀ coin : CTxOut, SpentCoin env prevout = some coin →
        ∃ r, (addAmount acc coin.nValue >>= fun a => SumInputs env a rest) = .ok r ∧
          ∀ v, r = some v →
            v.toInt.natAbs ≤ acc.toInt.natAbs + ((prevout :: rest).map (SpentValueAbs env)).sum := by
      intro coin hcoin
      simp only [List.map_cons, List.sum_cons, SpentValueAbs, hcoin, Option.map_some,
        Option.getD_some] at hb ⊢
      obtain ⟨c, hadd, hc⟩ := addAmount_of_natAbs_lt acc coin.nValue (by omega)
      obtain ⟨r, hr, hbound⟩ := ih (fun p hp => hin p (List.mem_cons_of_mem _ hp)) c
        (by rw [hc]; omega)
      refine ⟨r, by rw [hadd, Rollback.ok_bind, hr], fun v hv => ?_⟩
      have := hbound v hv
      rw [hc] at this
      omega
    simp only [SumInputs]
    split
    · rename_i mempoolTx hmem
      split
      · exact ⟨none, rfl, fun v hv => by cases hv⟩
      · rename_i hok
        have hn := hin prevout List.mem_cons_self mempoolTx hmem (by simp_all) (by simp_all)
        rw [List.getElem?_eq_getElem hn]
        exact step _ (by simp [SpentCoin, hmem, hok, List.getElem?_eq_getElem hn])
    · rename_i hmem
      split
      · rename_i coin hutxo
        exact step coin (by simp [SpentCoin, hmem, hutxo])
      · exact ⟨none, rfl, fun v hv => by cases hv⟩

/-- `IsCollateralValid` reads only existing outputs of mempool parents and does not overflow
when every input of an unspent, locked parent has its index in range and the absolute values of
the outputs and of the coins spent sum to less than `2^63`. -/
theorem IsCollateralValid_no_fault {env : CollateralEnv} {txCollateral : CTransactionFull}
    (hin : ∀ p ∈ txCollateral.vin, ∀ mempoolTx, env.mempoolGet p.hash = some mempoolTx →
      env.isSpent p = false → env.IsLocked p.hash = true → p.n.toNat < mempoolTx.vout.length)
    (hsum : (txCollateral.vout.map (·.nValue.toInt.natAbs)).sum +
      (txCollateral.vin.map (SpentValueAbs env)).sum < 2 ^ 63) :
    ∃ b, IsCollateralValid env txCollateral = .ok b := by
  obtain ⟨r₁, hout, hb₁⟩ := SumOutputs_ok txCollateral.vout 0 (by simp; omega)
  obtain ⟨r₂, hin', hb₂⟩ := SumInputs_ok env txCollateral.vin hin 0 (by simp; omega)
  unfold IsCollateralValid
  split
  · exact ⟨_, rfl⟩
  split
  · exact ⟨_, rfl⟩
  rw [hout, Rollback.ok_bind]
  cases r₁ with
  | none => exact ⟨_, rfl⟩
  | some nValueOut =>
    dsimp only
    rw [hin', Rollback.ok_bind]
    cases r₂ with
    | none => exact ⟨_, rfl⟩
    | some nValueIn =>
      have h₁ := hb₁ nValueOut rfl
      have h₂ := hb₂ nValueIn rfl
      simp only [Int64.toInt_zero, Int.natAbs_zero, zero_add] at h₁ h₂
      dsimp only
      rw [subAmount, checkedAmount_of_mem (by omega) (by omega), Rollback.ok_bind]
      split
      · exact ⟨_, rfl⟩
      · exact ⟨_, rfl⟩

/-- A collateral spending output 1 of a locked mempool parent with two outputs and a coin of
the UTXO set, with one `OP_RETURN` output. -/
theorem IsCollateralValid_no_fault_of_two_inputs :
    ∃ b, IsCollateralValid
      ⟨fun h => if h = 3 then some { hash := 3, vout := [⟨4000, []⟩, ⟨6000, []⟩] } else none,
        fun _ => false, fun _ => true, fun p => if p.hash = 4 then some ⟨5000, []⟩ else none,
        fun _ => true⟩
      { hash := 9, vin := [⟨3, 1⟩, ⟨4, 0⟩], vout := [⟨1000, [OP_RETURN]⟩] } = .ok b := by
  refine IsCollateralValid_no_fault ?_ (by decide)
  intro p hp mempoolTx hget _ _
  simp only [List.mem_cons, List.not_mem_nil, or_false] at hp
  rcases hp with rfl | rfl
  · simp only [if_pos] at hget
    cases hget
    decide
  · simp at hget

/-- A peer's collateral makes `IsCollateralValid` read past a mempool parent's outputs when an
input names an index beyond them in an unspent, locked parent; and it overflows `nValueOut` when
the first two outputs sum above `int64_t`, the first passing the script check. -/
theorem IsCollateralValid_reads_past_vout_and_overflows :
    (∀ (env : CollateralEnv) (txCollateral mempoolTx : CTransactionFull) (prevout : COutPoint)
      (rest : List COutPoint) (nValueOut : CAmount), txCollateral.vout ≠ [] →
      txCollateral.nLockTime = 0 → SumOutputs 0 txCollateral.vout = .ok (some nValueOut) →
      txCollateral.vin = prevout :: rest → env.mempoolGet prevout.hash = some mempoolTx →
      env.isSpent prevout = false → env.IsLocked prevout.hash = true →
      mempoolTx.vout.length ≤ prevout.n.toNat →
      IsCollateralValid env txCollateral = .error (.outOfBounds prevout.n.toNat)) ∧
    (∀ (env : CollateralEnv) (txCollateral : CTransactionFull) (o₁ o₂ : CTxOut)
      (rest : List CTxOut), txCollateral.nLockTime = 0 →
      txCollateral.vout = o₁ :: o₂ :: rest →
      (IsPayToPublicKeyHash o₁.scriptPubKey || IsUnspendable o₁.scriptPubKey) = true →
      2 ^ 63 ≤ o₁.nValue.toInt + o₂.nValue.toInt →
      IsCollateralValid env txCollateral = .error .overflow) :=
  ⟨fun _ _ _ _ _ _ hvout hlock hout hvin hmem hspent hlocked hn =>
    IsCollateralValid_reads_outOfBounds hvout hlock hout hvin hmem hspent hlocked hn,
   fun _ _ _ _ _ hlock hvout hscript hsum => IsCollateralValid_overflows hlock hvout hscript hsum⟩

/-- Every mempool transaction locked, unspent and without outputs: an input at index 5, and
outputs `INT64_MAX` and `1`, all outputs `OP_RETURN`. -/
theorem IsCollateralValid_reads_past_vout_and_overflows_at_index_five :
    IsCollateralValid ⟨fun _ => some { hash := 3 }, fun _ => false, fun _ => true, fun _ => none,
        fun _ => true⟩ { hash := 9, vin := [⟨3, 5⟩], vout := [⟨1, [OP_RETURN]⟩] } =
      .error (.outOfBounds 5) ∧
    IsCollateralValid ⟨fun _ => some { hash := 3 }, fun _ => false, fun _ => true, fun _ => none,
        fun _ => true⟩
        { hash := 9, vout := [⟨Int64.maxValue, [OP_RETURN]⟩, ⟨1, [OP_RETURN]⟩] } =
      .error .overflow :=
  ⟨IsCollateralValid_reads_past_vout_and_overflows.1 _ _ { hash := 3 } ⟨3, 5⟩ [] 1 (by decide)
      rfl (by decide) rfl rfl rfl rfl (by decide),
    IsCollateralValid_reads_past_vout_and_overflows.2 _ _ _ _ [] rfl rfl (by decide) (by decide)⟩

end CCoinJoin

end DashCore
