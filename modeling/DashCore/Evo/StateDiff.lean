import DashCore.Evo.Types

/-! The difference of two masternode states (`CDeterministicMNStateDiff`, evo/dmnstate.h).
The source lists the eighteen fields once, in the macro `DMN_STATE_DIFF_ALL_FIELDS`, and
builds both the constructor and `ApplyToState` from it; here the list is `allFields` and
the per-field line is a function of the field. -/
namespace DashCore

/-- The fields of a state a diff can carry, in the order of `DMN_STATE_DIFF_ALL_FIELDS`. -/
inductive StateField where
  | nRegisteredHeight
  | nLastPaidHeight
  | nPoSePenalty
  | nPoSeRevivedHeight
  | nPoSeBanHeight
  | nRevocationReason
  | confirmedHash
  | confirmedHashWithProRegTxHash
  | keyIDOwner
  | pubKeyOperator
  | keyIDVoting
  | addr
  | scriptPayout
  | scriptOperatorPayout
  | nConsecutivePayments
  | platformNodeID
  | platformP2PPort
  | platformHTTPPort
deriving DecidableEq, Repr

namespace StateField

def Ty : StateField → Type
  | nRegisteredHeight | nLastPaidHeight | nPoSePenalty | nPoSeRevivedHeight
  | nPoSeBanHeight | nConsecutivePayments => Int
  | nRevocationReason | platformP2PPort | platformHTTPPort => UInt16
  | confirmedHash | confirmedHashWithProRegTxHash => uint256
  | keyIDOwner | keyIDVoting | platformNodeID => uint160
  | pubKeyOperator => CBLSLazyPublicKey
  | addr => CService
  | scriptPayout | scriptOperatorPayout => CScript

instance instDecidableEqTy : (f : StateField) → DecidableEq f.Ty := by
  intro f
  cases f <;> (unfold Ty; infer_instance)

def bit : StateField → UInt32
  | nRegisteredHeight => 0x0001
  | nLastPaidHeight => 0x0002
  | nPoSePenalty => 0x0004
  | nPoSeRevivedHeight => 0x0008
  | nPoSeBanHeight => 0x0010
  | nRevocationReason => 0x0020
  | confirmedHash => 0x0040
  | confirmedHashWithProRegTxHash => 0x0080
  | keyIDOwner => 0x0100
  | pubKeyOperator => 0x0200
  | keyIDVoting => 0x0400
  | addr => 0x0800
  | scriptPayout => 0x1000
  | scriptOperatorPayout => 0x2000
  | nConsecutivePayments => 0x4000
  | platformNodeID => 0x8000
  | platformP2PPort => 0x10000
  | platformHTTPPort => 0x20000

def get : (f : StateField) → CDeterministicMNState → f.Ty
  | nRegisteredHeight, s => s.nRegisteredHeight
  | nLastPaidHeight, s => s.nLastPaidHeight
  | nPoSePenalty, s => s.nPoSePenalty
  | nPoSeRevivedHeight, s => s.nPoSeRevivedHeight
  | nPoSeBanHeight, s => s.nPoSeBanHeight
  | nRevocationReason, s => s.nRevocationReason
  | confirmedHash, s => s.confirmedHash
  | confirmedHashWithProRegTxHash, s => s.confirmedHashWithProRegTxHash
  | keyIDOwner, s => s.keyIDOwner
  | pubKeyOperator, s => s.pubKeyOperator
  | keyIDVoting, s => s.keyIDVoting
  | addr, s => s.addr
  | scriptPayout, s => s.scriptPayout
  | scriptOperatorPayout, s => s.scriptOperatorPayout
  | nConsecutivePayments, s => s.nConsecutivePayments
  | platformNodeID, s => s.platformNodeID
  | platformP2PPort, s => s.platformP2PPort
  | platformHTTPPort, s => s.platformHTTPPort

def set : (f : StateField) → f.Ty → CDeterministicMNState → CDeterministicMNState
  | nRegisteredHeight, v, s => { s with nRegisteredHeight := v }
  | nLastPaidHeight, v, s => { s with nLastPaidHeight := v }
  | nPoSePenalty, v, s => { s with nPoSePenalty := v }
  | nPoSeRevivedHeight, v, s => { s with nPoSeRevivedHeight := v }
  | nPoSeBanHeight, v, s => { s with nPoSeBanHeight := v }
  | nRevocationReason, v, s => { s with nRevocationReason := v }
  | confirmedHash, v, s => { s with confirmedHash := v }
  | confirmedHashWithProRegTxHash, v, s => { s with confirmedHashWithProRegTxHash := v }
  | keyIDOwner, v, s => { s with keyIDOwner := v }
  | pubKeyOperator, v, s => { s with pubKeyOperator := v }
  | keyIDVoting, v, s => { s with keyIDVoting := v }
  | addr, v, s => { s with addr := v }
  | scriptPayout, v, s => { s with scriptPayout := v }
  | scriptOperatorPayout, v, s => { s with scriptOperatorPayout := v }
  | nConsecutivePayments, v, s => { s with nConsecutivePayments := v }
  | platformNodeID, v, s => { s with platformNodeID := v }
  | platformP2PPort, v, s => { s with platformP2PPort := v }
  | platformHTTPPort, v, s => { s with platformHTTPPort := v }

def allFields : List StateField :=
  [nRegisteredHeight, nLastPaidHeight, nPoSePenalty, nPoSeRevivedHeight, nPoSeBanHeight,
   nRevocationReason, confirmedHash, confirmedHashWithProRegTxHash, keyIDOwner, pubKeyOperator,
   keyIDVoting, addr, scriptPayout, scriptOperatorPayout, nConsecutivePayments, platformNodeID,
   platformP2PPort, platformHTTPPort]

theorem mem_allFields (f : StateField) : f ∈ allFields := by
  cases f <;> simp [allFields]

theorem allFields_nodup : allFields.Nodup := by decide

@[simp] theorem get_set_self (f : StateField) (v : f.Ty) (s : CDeterministicMNState) :
    f.get (f.set v s) = v := by
  cases f <;> rfl

@[simp] theorem get_set_of_ne {f g : StateField} (h : f ≠ g) (v : f.Ty)
    (s : CDeterministicMNState) : g.get (f.set v s) = g.get s := by
  cases f <;> cases g <;> first | rfl | exact absurd rfl h

theorem ext_get {s t : CDeterministicMNState} (h : ∀ f : StateField, f.get s = f.get t) :
    s = t := by
  cases s
  cases t
  have h1 := h nRegisteredHeight; have h2 := h nLastPaidHeight; have h3 := h nPoSePenalty
  have h4 := h nPoSeRevivedHeight; have h5 := h nPoSeBanHeight; have h6 := h nRevocationReason
  have h7 := h confirmedHash; have h8 := h confirmedHashWithProRegTxHash
  have h9 := h keyIDOwner; have h10 := h pubKeyOperator; have h11 := h keyIDVoting
  have h12 := h addr; have h13 := h scriptPayout; have h14 := h scriptOperatorPayout
  have h15 := h nConsecutivePayments; have h16 := h platformNodeID
  have h17 := h platformP2PPort; have h18 := h platformHTTPPort
  simp only [get] at *
  subst_vars
  rfl

theorem bit_and_bit (f g : StateField) : f.bit &&& g.bit ≠ 0 ↔ f = g := by
  cases f <;> cases g <;> decide

theorem or_bit_and_bit (x : UInt32) (f g : StateField) :
    (x ||| f.bit) &&& g.bit ≠ 0 ↔ x &&& g.bit ≠ 0 ∨ f = g := by
  have hdist : (x ||| f.bit) &&& g.bit = (x &&& g.bit) ||| (f.bit &&& g.bit) := by
    apply UInt32.toBitVec_inj.mp
    simp [BitVec.and_or_distrib_right]
  rw [hdist, ← bit_and_bit, Ne, UInt32.or_eq_zero_iff]
  tauto

end StateField

structure CDeterministicMNStateDiff where
  fields : UInt32 := 0
  /-- Only the fields flagged in `fields` are meaningful. -/
  state : CDeterministicMNState := {}
deriving DecidableEq, Repr

namespace CDeterministicMNStateDiff

open StateField

def diffLine (a b : CDeterministicMNState) (d : CDeterministicMNStateDiff) (f : StateField) :
    CDeterministicMNStateDiff :=
  if f.get a ≠ f.get b then { state := f.set (f.get b) d.state, fields := d.fields ||| f.bit }
  else d

def ofStates (a b : CDeterministicMNState) : CDeterministicMNStateDiff :=
  allFields.foldl (diffLine a b) {}

def applyLine (d : CDeterministicMNStateDiff) (target : CDeterministicMNState) (f : StateField) :
    CDeterministicMNState :=
  if d.fields &&& f.bit != 0 then f.set (f.get d.state) target else target

def ApplyToState (d : CDeterministicMNStateDiff) (target : CDeterministicMNState) :
    CDeterministicMNState :=
  allFields.foldl (applyLine d) target

def Flagged (d : CDeterministicMNStateDiff) (g : StateField) : Prop := d.fields &&& g.bit ≠ 0

instance (d : CDeterministicMNStateDiff) (g : StateField) : Decidable (d.Flagged g) :=
  inferInstanceAs (Decidable (_ ≠ _))

theorem get_applyLine (d : CDeterministicMNStateDiff) (t : CDeterministicMNState)
    (f g : StateField) :
    g.get (applyLine d t f) = if f = g ∧ d.Flagged g then g.get d.state else g.get t := by
  unfold applyLine Flagged
  by_cases hfg : f = g
  · subst hfg
    by_cases hb : d.fields &&& f.bit = 0 <;> simp [hb]
  · by_cases hb : d.fields &&& f.bit = 0 <;> simp [hb, hfg, get_set_of_ne hfg]

theorem get_foldl_applyLine (d : CDeterministicMNStateDiff) (fs : List StateField)
    (t : CDeterministicMNState) (g : StateField) :
    g.get (fs.foldl (applyLine d) t) =
      if g ∈ fs ∧ d.Flagged g then g.get d.state else g.get t := by
  induction fs generalizing t with
  | nil => simp
  | cons f rest ih =>
    rw [List.foldl_cons, ih, get_applyLine]
    by_cases hfg : f = g
    · subst hfg
      by_cases hflag : d.Flagged f <;> simp [hflag]
    · have hmem : g ∈ f :: rest ↔ g ∈ rest := by simp [Ne.symm hfg]
      simp only [hmem, hfg, false_and, if_false]

theorem get_ApplyToState (d : CDeterministicMNStateDiff) (t : CDeterministicMNState)
    (g : StateField) :
    g.get (d.ApplyToState t) = if d.Flagged g then g.get d.state else g.get t := by
  simp [ApplyToState, get_foldl_applyLine, mem_allFields]

theorem diffLine_flagged (a b : CDeterministicMNState) (d : CDeterministicMNStateDiff)
    (f g : StateField) :
    (diffLine a b d f).Flagged g ↔ d.Flagged g ∨ (f = g ∧ f.get a ≠ f.get b) := by
  unfold diffLine Flagged
  by_cases hab : f.get a ≠ f.get b
  · simp only [hab, if_true, ne_eq, not_false_eq_true, and_true]
    exact or_bit_and_bit d.fields f g
  · simp [hab]

theorem get_diffLine_state (a b : CDeterministicMNState) (d : CDeterministicMNStateDiff)
    (f g : StateField) :
    g.get (diffLine a b d f).state =
      if f = g ∧ f.get a ≠ f.get b then g.get b else g.get d.state := by
  unfold diffLine
  by_cases hfg : f = g
  · subst hfg
    by_cases hab : f.get a ≠ f.get b <;> simp [hab]
  · by_cases hab : f.get a ≠ f.get b <;> simp [hab, hfg, get_set_of_ne hfg]

theorem foldl_diffLine (a b : CDeterministicMNState) (fs : List StateField) (hfs : fs.Nodup)
    (d : CDeterministicMNStateDiff) (g : StateField) :
    ((fs.foldl (diffLine a b) d).Flagged g ↔ d.Flagged g ∨ (g ∈ fs ∧ g.get a ≠ g.get b)) ∧
      g.get (fs.foldl (diffLine a b) d).state =
        if g ∈ fs ∧ g.get a ≠ g.get b then g.get b else g.get d.state := by
  induction fs generalizing d with
  | nil => simp
  | cons f rest ih =>
    obtain ⟨hf, hrest⟩ := List.nodup_cons.mp hfs
    obtain ⟨ihf, ihs⟩ := ih hrest (diffLine a b d f)
    rw [List.foldl_cons]
    by_cases hfg : f = g
    · -- the field is visited first and never again
      subst hfg
      constructor
      · rw [ihf, diffLine_flagged]
        simp only [List.mem_cons, true_and, hf, false_and, or_false]
      · rw [ihs, get_diffLine_state]
        simp [hf]
    · have hmem : g ∈ f :: rest ↔ g ∈ rest := by simp [Ne.symm hfg]
      constructor
      · rw [ihf, diffLine_flagged, hmem]
        simp [hfg]
      · rw [ihs, get_diffLine_state]
        simp [hfg, hmem]

theorem ofStates_flagged (a b : CDeterministicMNState) (g : StateField) :
    (ofStates a b).Flagged g ↔ g.get a ≠ g.get b := by
  rw [ofStates, (foldl_diffLine a b allFields allFields_nodup {} g).1]
  simp [Flagged, mem_allFields]

theorem get_ofStates_state {a b : CDeterministicMNState} {g : StateField} (hab : g.get a ≠ g.get b) :
    g.get (ofStates a b).state = g.get b := by
  rw [ofStates, (foldl_diffLine a b allFields allFields_nodup {} g).2]
  simp [hab, mem_allFields]

theorem ApplyToState_congr {d d' : CDeterministicMNStateDiff} (hfields : d'.fields = d.fields)
    (hget : ∀ g, d.Flagged g → g.get d'.state = g.get d.state) (t : CDeterministicMNState) :
    d'.ApplyToState t = d.ApplyToState t := by
  apply StateField.ext_get
  intro g
  have hflag : d'.Flagged g ↔ d.Flagged g := by rw [Flagged, Flagged, hfields]
  rw [get_ApplyToState, get_ApplyToState]
  by_cases hg : d.Flagged g
  · rw [if_pos (hflag.mpr hg), if_pos hg, hget g hg]
  · rw [if_neg (fun h => hg (hflag.mp h)), if_neg hg]

theorem ApplyToState_ofStates (a b : CDeterministicMNState) : (ofStates a b).ApplyToState a = b := by
  apply StateField.ext_get
  intro g
  rw [get_ApplyToState]
  by_cases hab : g.get a ≠ g.get b
  · rw [if_pos ((ofStates_flagged a b g).mpr hab), get_ofStates_state hab]
  · rw [if_neg (fun h => hab ((ofStates_flagged a b g).mp h))]
    exact not_not.mp hab

theorem ofStates_fields_ne_zero {a b : CDeterministicMNState} (hab : a ≠ b) :
    (ofStates a b).fields ≠ 0 := by
  intro h0
  apply hab
  apply StateField.ext_get
  intro g
  by_contra hg
  have hflag := (ofStates_flagged a b g).mpr hg
  rw [Flagged, h0, UInt32.zero_and] at hflag
  exact hflag rfl

theorem ofStates_self (a : CDeterministicMNState) : ofStates a a = {} := by
  have hrun : ∀ (fs : List StateField) (d : CDeterministicMNStateDiff),
      fs.foldl (diffLine a a) d = d := by
    intro fs
    induction fs with
    | nil => intro d; rfl
    | cons f fs ih =>
      intro d
      rw [List.foldl_cons, diffLine, if_neg (not_not.mpr rfl), ih]
  exact hrun allFields {}

end CDeterministicMNStateDiff

end DashCore
