import DashCore.CoinJoin.Collateral

/-! The payments of a superblock (governance/classes.cpp). A triggered superblock carries a
schedule of payments, parsed from its governance object; `CSuperblock::IsValid` checks a coinbase
against it. The matcher looks for each payment from the output the previous one matched on, not
from the one after it, so one output can stand for two equal payments. -/
namespace DashCore

def MAX_MONEY : CAmount := 21000000 * COIN

def MoneyRange (nValue : CAmount) : Bool := 0 ≤ nValue && nValue ≤ MAX_MONEY

/-- `CTransaction::GetValueOut()`: an output or a running sum out of range throws. -/
def GetValueOut (vout : List CTxOut) : Except String CAmount :=
  vout.foldlM (fun nValueOut tx_out =>
    if !MoneyRange tx_out.nValue || !MoneyRange (nValueOut + tx_out.nValue) then
      .error "GetValueOut: value out of range"
    else .ok (nValueOut + tx_out.nValue)) 0

structure CGovernancePayment where
  script : CScript
  nAmount : CAmount
deriving DecidableEq, Repr

/-- What superblock validation reads of `Consensus::Params`. `nSuperblockPartOfSubsidy h` is
`GetBlockSubsidy(nBits, h - 1, params, true)`. -/
structure SuperblockParams where
  nSuperblockStartBlock : Int
  nSuperblockCycle : Int
  nSuperblockPartOfSubsidy : Int → CAmount

structure CSuperblock where
  nBlockHeight : Int
  vecPayments : List CGovernancePayment
deriving DecidableEq, Repr

namespace CSuperblock

variable (params : SuperblockParams)

def IsValidBlockHeight (nBlockHeight : Int) : Bool :=
  nBlockHeight ≥ params.nSuperblockStartBlock && nBlockHeight % params.nSuperblockCycle == 0

def GetPaymentsLimit (nBlockHeight : Int) : CAmount :=
  if !IsValidBlockHeight params nBlockHeight then 0
  else params.nSuperblockPartOfSubsidy nBlockHeight * Int64.ofInt params.nSuperblockCycle

def GetPaymentsTotalAmount (sb : CSuperblock) : CAmount :=
  sb.vecPayments.foldl (fun nPaymentsTotalAmount payment => nPaymentsTotalAmount + payment.nAmount) 0

def Matches (payment : CGovernancePayment) (out : CTxOut) : Bool :=
  payment.script == out.scriptPubKey && payment.nAmount == out.nValue

/-- The inner loop from output `j` on: the index of the first output that pays `payment`. -/
def FindPayment (payment : CGovernancePayment) : List CTxOut → Nat → Option Nat
  | [], _ => none
  | out :: vout, j => if Matches payment out then some j else FindPayment payment vout (j + 1)

/-- The outer loop: each payment is looked for from `nVoutIndex`, the output the one before
matched. -/
def MatchPayments (vout : List CTxOut) : List CGovernancePayment → Nat → Bool
  | [], _ => true
  | payment :: payments, nVoutIndex =>
    match FindPayment payment (vout.drop nVoutIndex) nVoutIndex with
    | some j => MatchPayments vout payments j
    | none => false

/-- `CSuperblock::IsValid(txNew, nBlockHeight, blockReward)`; an error is the exception
`GetValueOut` throws. -/
def IsValid (sb : CSuperblock) (vout : List CTxOut) (nBlockHeight : Int) (blockReward : CAmount) :
    Except String Bool := do
  if !IsValidBlockHeight params nBlockHeight then return false
  -- `nMinerAndMasternodePayments < 0`
  if vout.length < sb.vecPayments.length then return false
  let nPaymentsTotalAmount := sb.GetPaymentsTotalAmount
  if nPaymentsTotalAmount > GetPaymentsLimit params nBlockHeight then return false
  let nBlockValue ← GetValueOut vout
  if nBlockValue > blockReward + nPaymentsTotalAmount then return false
  return MatchPayments vout sb.vecPayments 0

/-- The payments are paid by outputs of `vout` at indexes from `k` on, each index at least `next`
of the one before: with `next j = j` a payment may be paid by the output of the one before, with
`next j = j + 1` each has its own. -/
inductive PaidFrom (vout : List CTxOut) (next : Nat → Nat) : List CGovernancePayment → Nat → Prop
  | nil (k : Nat) : PaidFrom vout next [] k
  | cons {k j : Nat} {payment : CGovernancePayment} {payments : List CGovernancePayment}
      (out : CTxOut) (hkj : k ≤ j) (hj : vout[j]? = some out) (hm : Matches payment out = true)
      (hrest : PaidFrom vout next payments (next j)) : PaidFrom vout next (payment :: payments) k

theorem PaidFrom.of_le {vout : List CTxOut} {next : Nat → Nat} {payments : List CGovernancePayment}
    {k k' : Nat} (h : PaidFrom vout next payments k) (hle : k' ≤ k) :
    PaidFrom vout next payments k' := by
  cases h with
  | nil => exact .nil k'
  | cons out hkj hj hm hrest => exact .cons out (by omega) hj hm hrest

theorem FindPayment_sound {payment : CGovernancePayment} :
    ∀ {l : List CTxOut} {j₀ j : Nat}, FindPayment payment l j₀ = some j →
      j₀ ≤ j ∧ ∃ out, l[j - j₀]? = some out ∧ Matches payment out = true
  | [], _, _, h => by simp [FindPayment] at h
  | out :: l, j₀, j, h => by
    simp only [FindPayment] at h
    split_ifs at h with hm
    · cases h
      exact ⟨le_rfl, out, by simp, hm⟩
    · obtain ⟨hle, out', hget, hm'⟩ := FindPayment_sound h
      refine ⟨by omega, out', ?_, hm'⟩
      rw [show j - j₀ = (j - (j₀ + 1)) + 1 by omega]
      exact hget

theorem FindPayment_complete {payment : CGovernancePayment} :
    ∀ {l : List CTxOut} (j₀ : Nat) {i : Nat} {out : CTxOut}, l[i]? = some out →
      Matches payment out = true → ∃ j, FindPayment payment l j₀ = some j ∧ j ≤ j₀ + i
  | [], _, _, _, h, _ => by simp at h
  | out' :: l, j₀, i, out, h, hm => by
    simp only [FindPayment]
    split_ifs with hm'
    · exact ⟨j₀, rfl, by omega⟩
    · cases i with
      | zero =>
        simp only [List.getElem?_cons_zero, Option.some.injEq] at h
        rw [h] at hm'
        exact absurd hm hm'
      | succ i =>
        obtain ⟨j, hfind, hle⟩ := FindPayment_complete (j₀ + 1) (by simpa using h) hm
        exact ⟨j, hfind, by omega⟩

theorem MatchPayments_iff (vout : List CTxOut) :
    ∀ (payments : List CGovernancePayment) (k : Nat),
      MatchPayments vout payments k = true ↔ PaidFrom vout id payments k
  | [], k => by simp [MatchPayments, PaidFrom.nil]
  | payment :: payments, k => by
    simp only [MatchPayments]
    constructor
    · intro h
      split at h
      · rename_i j hfind
        obtain ⟨hle, out, hget, hm⟩ := FindPayment_sound hfind
        rw [List.getElem?_drop, show k + (j - k) = j by omega] at hget
        exact .cons out hle hget hm ((MatchPayments_iff vout payments j).mp h)
      · cases h
    · rintro (_ | ⟨out, hkj, hj, hm, hrest⟩)
      rename_i j
      have hdrop : (vout.drop k)[j - k]? = some out := by
        rw [List.getElem?_drop, show k + (j - k) = j by omega]
        exact hj
      obtain ⟨j', hfind, hle⟩ := FindPayment_complete k hdrop hm
      rw [hfind]
      exact (MatchPayments_iff vout payments j').mpr (hrest.of_le (by simp; omega))

/-- `IsValid` accepts a coinbase exactly when the height can hold a superblock, there are as many
outputs as payments, the payments are within the limit, the outputs sum without throwing to at
most the reward and the payments, and the payments are paid in order by outputs each at or after
the one that paid the payment before. -/
theorem IsValid_accepts_iff_paid_in_weak_order (sb : CSuperblock) (vout : List CTxOut)
    (nBlockHeight : Int) (blockReward : CAmount) :
    sb.IsValid params vout nBlockHeight blockReward = .ok true ↔
      IsValidBlockHeight params nBlockHeight = true ∧ sb.vecPayments.length ≤ vout.length ∧
      sb.GetPaymentsTotalAmount ≤ GetPaymentsLimit params nBlockHeight ∧
      (∃ nBlockValue, GetValueOut vout = .ok nBlockValue ∧
        nBlockValue ≤ blockReward + sb.GetPaymentsTotalAmount) ∧
      PaidFrom vout id sb.vecPayments 0 := by
  have hpure : ∀ b : Bool, (pure b : Except String Bool) = .ok b := fun _ => rfl
  unfold IsValid
  by_cases hh : IsValidBlockHeight params nBlockHeight = true
  · by_cases hlen : vout.length < sb.vecPayments.length
    · simp only [hh, hlen, hpure, Bool.not_true, Bool.false_eq_true, if_true, if_false,
        Except.ok.injEq, Bool.false_eq_true, false_iff, not_and]
      intro _ hle
      omega
    · by_cases hlim : sb.GetPaymentsTotalAmount > GetPaymentsLimit params nBlockHeight
      · simp [hh, hlen, hlim, hpure, Int64.not_le.mpr hlim]
      · cases hval : GetValueOut vout with
        | error e => simp [hh, hlen, hlim, hpure]
        | ok nBlockValue =>
          by_cases hv : nBlockValue > blockReward + sb.GetPaymentsTotalAmount
          · simp [hh, hlen, hlim, hv, hpure, Int64.not_le.mpr hv]
          · simp [hh, hlen, hlim, hv, hpure, MatchPayments_iff, Int64.not_lt.mp hv,
              Int64.not_lt.mp hlim]
            omega
  · simp [hh, hpure]

theorem PaidFrom_repeat_iff {vout : List CTxOut} {payment : CGovernancePayment}
    {payments : List CGovernancePayment} {k : Nat} :
    PaidFrom vout id (payment :: payment :: payments) k ↔
      PaidFrom vout id (payment :: payments) k := by
  constructor
  · rintro (_ | ⟨out, hkj, hj, hm, _ | ⟨out', hkj', hj', hm', hrest⟩⟩)
    exact .cons out' (hkj.trans hkj') hj' hm' hrest
  · rintro (_ | ⟨out, hkj, hj, hm, hrest⟩)
    exact .cons out hkj hj hm (.cons out le_rfl hj hm hrest)

end CSuperblock

/-- Superblocks every ten blocks, with ten coins of subsidy put aside in each block. -/
def exampleSuperblockParams : SuperblockParams := ⟨0, 10, fun _ => 10 * COIN⟩

def repeatedPayment : CGovernancePayment := ⟨[0x51], 3 * COIN⟩

/-- A schedule that pays the same script three coins twice is accepted from a coinbase with one
such output, which cannot pay both payments from outputs of their own. -/
theorem IsValid_accepts_repeated_payment_paid_once :
    let vout : List CTxOut := [⟨2 * COIN, [0x52]⟩, ⟨3 * COIN, [0x51]⟩]
    (⟨10, [repeatedPayment, repeatedPayment]⟩ : CSuperblock).IsValid exampleSuperblockParams vout 10
        (5 * COIN) = .ok true ∧
      ¬ CSuperblock.PaidFrom vout (· + 1) [repeatedPayment, repeatedPayment] 0 := by
  intro vout
  refine ⟨(CSuperblock.IsValid_accepts_iff_paid_in_weak_order _ _ _ _ _).mpr
    ⟨by decide, by decide, by decide, ⟨5 * COIN, by decide, by decide⟩, ?_⟩, ?_⟩
  · exact CSuperblock.PaidFrom_repeat_iff.mpr (.cons _ (Nat.zero_le 1) rfl (by decide) (.nil _))
  · -- the second payment needs an output after the first's, and only the last output pays
    rintro (_ | ⟨out, hkj, hj, hm, _ | ⟨out', hkj', hj', hm', -⟩⟩)
    rename_i j j'
    have hlt : j' < vout.length := (List.getElem?_eq_some_iff.mp hj').1
    have hj0 : j = 0 := by simp only [vout, List.length_cons, List.length_nil] at hlt; omega
    subst hj0
    simp only [vout, List.getElem?_cons_zero, Option.some.injEq] at hj
    subst hj
    exact absurd hm (by decide)

end DashCore
