import DashCore.Evo.DiffRoundTrip
import DashCore.Llmq.QuarterRotation
import DashCore.Serialize.Ints
import DashCore.Lib.Selection

/-! Selecting masternodes from the list (evo/deterministicmns.cpp): the payee of the next block,
the projected payees and the members of a quorum. Every loop walks the masternode map in its
iteration order, which the model leaves to the order the map was filled in. The results do not
depend on it: the comparators are strict weak orders with no ties among a valid list's
masternodes, and the loops that look for the last payee react to one masternode at most, as
long as at most one is still owed payments in a row. -/
namespace DashCore

open Selection

/-! ## The comparators -/

section Orders

theorem leBytes_eq_ser_writedataLE {w : Nat} (v : BitVec w) (n : Nat) :
    UniqueProperty.Serialize.leBytes v n = ser_writedataLE n v.toNat := by
  unfold UniqueProperty.Serialize.leBytes
  generalize v.toNat = x
  induction n generalizing x with
  | zero => rfl
  | succ n ih =>
    have hshift : ∀ i, x / 256 ^ (i + 1) = x / 256 / 256 ^ i := fun i => by
      rw [Nat.div_div_eq_div_mul, pow_succ']
    rw [List.range_succ_eq_map, List.map_cons, List.map_map, ser_writedataLE, ← ih (x / 256)]
    simp [Function.comp_def, hshift]

theorem leBytes_injective {w n : Nat} (h : w ≤ 8 * n) {a b : BitVec w}
    (hab : UniqueProperty.Serialize.leBytes a n = UniqueProperty.Serialize.leBytes b n) :
    a = b := by
  have hv := congrArg leValue hab
  rw [leBytes_eq_ser_writedataLE, leBytes_eq_ser_writedataLE, leValue_ser_writedataLE,
    leValue_ser_writedataLE, Nat.mod_eq_of_lt (toNat_lt_of_le_bytes h a),
    Nat.mod_eq_of_lt (toNat_lt_of_le_bytes h b)] at hv
  exact BitVec.toNat_inj.mp hv

theorem uint256Less_strictTotalOrder : StrictTotalOrder uint256Less where
  asymm a b hab := by
    simpa [uint256Less] using List.lt_asymm (of_decide_eq_true hab)
  trans a b c hab hbc := by
    simp only [uint256Less, decide_eq_true_eq] at hab hbc ⊢
    exact List.lt_trans hab hbc
  total a b hne := by
    simp only [uint256Less, decide_eq_true_eq]
    by_contra hnot
    rw [not_or, List.not_lt, List.not_lt] at hnot
    exact hne (leBytes_injective (by decide) (List.le_antisymm hnot.2 hnot.1))

theorem strictTotalOrder_uint32_lt : StrictTotalOrder fun x y : UInt32 => decide (x < y) where
  asymm a b hab := by
    simp only [decide_eq_true_eq, decide_eq_false_iff_not, UInt32.lt_iff_toNat_lt] at hab ⊢
    omega
  trans a b c hab hbc := by
    simp only [decide_eq_true_eq, UInt32.lt_iff_toNat_lt] at hab hbc ⊢
    omega
  total a b hne := by
    simp only [decide_eq_true_eq, UInt32.lt_iff_toNat_lt]
    have hne' : a.toNat ≠ b.toNat := fun h => hne (UInt32.toNat_inj.mp h)
    omega

theorem COutPoint.Less_eq_lexBy :
    COutPoint.Less = lexBy (·.hash) uint256Less (fun a b => decide (a.n < b.n)) := by
  funext a b
  unfold COutPoint.Less lexBy
  by_cases h : a.hash = b.hash
  · simp [h, uint256Less_strictTotalOrder.toStrictWeakOrder.irrefl b.hash]
  · simp [h]

theorem COutPoint.eq_of_tie {a b : COutPoint} (hab : a.Less b = false) (hba : b.Less a = false) :
    a = b := by
  rw [COutPoint.Less_eq_lexBy] at hab hba
  obtain ⟨hhash, hn, hn'⟩ := lexBy_tie uint256Less_strictTotalOrder hab hba
  have hn'' : a.n = b.n := strictTotalOrder_uint32_lt.eq_of_tie hn hn'
  cases a
  cases b
  simp_all

end Orders

/-! ## Payees -/

namespace CDeterministicMNList

/-- The last payee, a high-performance masternode, has had fewer payments in a row than its
voting weight: it is paid again. -/
def ContinuesPayments (s : CDeterministicMNList) (dmn : CDeterministicMN) : Prop :=
  dmn.pdmnState.nLastPaidHeight = s.nHeight ∧ dmn.nType = .HighPerformance ∧
    dmn.pdmnState.nConsecutivePayments < voting_weight .HighPerformance

instance (s : CDeterministicMNList) (dmn : CDeterministicMN) :
    Decidable (s.ContinuesPayments dmn) :=
  inferInstanceAs (Decidable (_ ∧ _ ∧ _))

/-- One turn of the first loop of `GetProjectedMNPayees`, over the payments still owed to the
last payee, the payee to skip later, and the slots so far. -/
def OwedPaymentsStep (s : CDeterministicMNList)
    (acc : Int × Option CDeterministicMN × List CDeterministicMN) (dmn : CDeterministicMN) :
    Int × Option CDeterministicMN × List CDeterministicMN :=
  let (_, _, result) := acc
  if s.ContinuesPayments dmn then
    let remaining := voting_weight .HighPerformance - dmn.pdmnState.nConsecutivePayments
    -- the loop that pushes the slots also sets `hpmn_to_be_skipped`; it runs at least once
    (remaining, some dmn, result ++ List.replicate remaining.toNat dmn)
  else acc

section Order

variable {s s₁ s₂ : CDeterministicMNList}

section Scores

variable (ScoreHash : uint256 → uint256 → uint256) (modifier : uint256)
  (onlyHighPerformanceMasternodes : Bool)

end Scores

section Payees

theorem OwedPaymentsStep_of_not (s : CDeterministicMNList)
    (acc : Int × Option CDeterministicMN × List CDeterministicMN) {dmn : CDeterministicMN}
    (h : ¬ s.ContinuesPayments dmn) : s.OwedPaymentsStep acc dmn = acc := by
  obtain ⟨r, sk, res⟩ := acc
  simp [OwedPaymentsStep, h]

/-- What the first loop holds: at least as many slots as payments owed, all for masternodes of
the list, and a payee to skip from the list. -/
def OwedInv (l : List CDeterministicMN)
    (acc : Int × Option CDeterministicMN × List CDeterministicMN) : Prop :=
  acc.1.toNat ≤ acc.2.2.length ∧ (∀ d ∈ acc.2.2, d ∈ l) ∧ ∀ d, acc.2.1 = some d → d ∈ l

theorem OwedInv.step {l : List CDeterministicMN} {acc : Int × Option CDeterministicMN × List CDeterministicMN}
    (h : OwedInv l acc) {dmn : CDeterministicMN} (hdmn : dmn ∈ l) :
    OwedInv l (s.OwedPaymentsStep acc dmn) := by
  by_cases hc : s.ContinuesPayments dmn
  · obtain ⟨r, sk, res⟩ := acc
    obtain ⟨-, hres, -⟩ := h
    simp only [OwedPaymentsStep, hc, if_true]
    refine ⟨by simp, fun d hd => ?_, fun d hd => ?_⟩
    · rcases List.mem_append.mp hd with hd | hd
      · exact hres d hd
      · rw [List.eq_of_mem_replicate hd]
        exact hdmn
    · cases hd
      exact hdmn
  · rw [OwedPaymentsStep_of_not s acc hc]
    exact h

end Payees

end Order

end CDeterministicMNList

/-! ## Two insertion orders -/

open CDeterministicMNList

end DashCore
