import DashCore.Evo.Types
import Mathlib.Data.Finset.Card
import Mathlib.Data.List.Sort

/-! The spork manager (spork.cpp). Sporks are network-wide switches: a spork message carries a
value for one spork, signed by one of the spork keys. The manager keeps, for each spork and
signer, the message it accepted last (`mapSporksActive`), and `GetSporkValue` reads the value
that at least `nMinSporkKeys` signers agree on, else the spork's default. Two caches sit in front
of the scan and are cleared when a message for the spork is stored. Signature recovery and
signing are the environment's; the adjusted time and the chain tip are arguments of the calls
that read them. `mapSporksByHash` is written but read by no modelled function and is left out. -/
namespace DashCore

abbrev SporkId := Int32
abbrev SporkValue := Int64

def SPORK_2_INSTANTSEND_ENABLED : SporkId := 10001
def SPORK_3_INSTANTSEND_BLOCK_FILTERING : SporkId := 10002
def SPORK_9_SUPERBLOCKS_ENABLED : SporkId := 10008
def SPORK_17_QUORUM_DKG_ENABLED : SporkId := 10016
def SPORK_19_CHAINLOCKS_ENABLED : SporkId := 10018
def SPORK_21_QUORUM_ALL_CONNECTED : SporkId := 10020
def SPORK_23_QUORUM_POSE : SporkId := 10022

structure CSporkDef where
  sporkId : SporkId
  defaultValue : SporkValue

/-- `sporkDefs`: every spork is off (a start time in 2099) by default. -/
def sporkDefs : List CSporkDef :=
  [⟨SPORK_2_INSTANTSEND_ENABLED, 4070908800⟩, ⟨SPORK_3_INSTANTSEND_BLOCK_FILTERING, 4070908800⟩,
   ⟨SPORK_9_SUPERBLOCKS_ENABLED, 4070908800⟩, ⟨SPORK_17_QUORUM_DKG_ENABLED, 4070908800⟩,
   ⟨SPORK_19_CHAINLOCKS_ENABLED, 4070908800⟩, ⟨SPORK_21_QUORUM_ALL_CONNECTED, 4070908800⟩,
   ⟨SPORK_23_QUORUM_POSE, 4070908800⟩]

structure CSporkMessage where
  nSporkID : SporkId := 0
  nValue : SporkValue := 0
  nTimeSigned : Int64 := 0
  vchSig : List UInt8 := []
deriving DecidableEq, Repr

/-- What the manager reads of the key material: `CSporkMessage::GetSignerKeyID`, the key a
signature recovers to, and `CSporkMessage::Sign` with `sporkPrivKey`. -/
structure SporkEnv where
  GetSignerKeyID : CSporkMessage → Option CKeyID
  Sign : CSporkMessage → Option (List UInt8)

abbrev SignerMap := AList fun _ : CKeyID => CSporkMessage

/-- `base_blob<160>::operator<`: `memcmp` over the little-endian bytes. -/
def uint160Less (a b : uint160) : Bool :=
  decide (UniqueProperty.Serialize.leBytes a 20 < UniqueProperty.Serialize.leBytes b 20)

def SignerMap.InOrder (m : SignerMap) : List CSporkMessage :=
  (m.entries.insertionSort fun a b => uint160Less b.1 a.1 = false).map (·.2)

structure CSporkManager where
  mapSporksActive : AList (fun _ : SporkId => SignerMap) := ∅
  mapSporksCachedActive : AList (fun _ : SporkId => Bool) := ∅
  mapSporksCachedValues : AList (fun _ : SporkId => SporkValue) := ∅
  setSporkPubKeyIDs : Finset CKeyID := ∅
  nMinSporkKeys : Int := 2147483647

/-- The loop of `SporkValueIfActive`: count each signer's value and stop at the first value
that reaches `nMinSporkKeys`. -/
def ValueCountScan (nMinSporkKeys : Int) : (SporkValue → Int) → List CSporkMessage →
    Option SporkValue
  | _, [] => none
  | mapValueCounts, spork :: rest =>
    let mapValueCounts :=
      Function.update mapValueCounts spork.nValue (mapValueCounts spork.nValue + 1)
    if mapValueCounts spork.nValue ≥ nMinSporkKeys then some spork.nValue
    else ValueCountScan nMinSporkKeys mapValueCounts rest

namespace CSporkManager

def Stored (st : CSporkManager) (nSporkID : SporkId) (keyID : CKeyID) : Option CSporkMessage :=
  (st.mapSporksActive.lookup nSporkID).bind (·.lookup keyID)

def SporkValueIfActive (st : CSporkManager) (nSporkID : SporkId) :
    Option SporkValue × CSporkManager :=
  match st.mapSporksActive.lookup nSporkID with
  | none => (none, st)
  | some signers =>
    match st.mapSporksCachedValues.lookup nSporkID with
    | some v => (some v, st)
    | none =>
      match ValueCountScan st.nMinSporkKeys (fun _ => 0) signers.InOrder with
      | some v =>
        (some v, { st with mapSporksCachedValues := st.mapSporksCachedValues.insert nSporkID v })
      | none => (none, st)

/-- `GetSporkValue`: the active value, else the default of a known spork, else `-1`. -/
def GetSporkValue (st : CSporkManager) (nSporkID : SporkId) : SporkValue × CSporkManager :=
  match SporkValueIfActive st nSporkID with
  | (some v, st') => (v, st')
  | (none, st') =>
    (((sporkDefs.find? (·.sporkId == nSporkID)).map (·.defaultValue)).getD (-1), st')

/-- `IsSporkActive` at the adjusted time `now`; only `true` is cached. -/
def IsSporkActive (st : CSporkManager) (nSporkID : SporkId) (now : Int64) :
    Bool × CSporkManager :=
  if st.mapSporksCachedActive.lookup nSporkID = some true then (true, st)
  else
    let (nSporkValue, st') := GetSporkValue st nSporkID
    if nSporkValue < now then
      (true, { st' with mapSporksCachedActive := st'.mapSporksCachedActive.insert nSporkID true })
    else (false, st')

/-- The store shared by `ProcessSpork` and `UpdateSpork`: the signer's message is replaced and
both caches of the spork are cleared. -/
def StoreSpork (st : CSporkManager) (keyIDSigner : CKeyID) (spork : CSporkMessage) :
    CSporkManager :=
  { st with
    mapSporksActive := st.mapSporksActive.insert spork.nSporkID
      (((st.mapSporksActive.lookup spork.nSporkID).getD ∅).insert keyIDSigner spork),
    mapSporksCachedActive := st.mapSporksCachedActive.erase spork.nSporkID,
    mapSporksCachedValues := st.mapSporksCachedValues.erase spork.nSporkID }

/-- `ProcessSpork` for a message from a peer, at the adjusted time `now`, with `hasTip` whether
the chain has a tip. A message too far in the future, with a signer that is not a spork key, or
not newer than the signer's stored one is dropped. -/
def ProcessSpork (env : SporkEnv) (hasTip : Bool) (now : Int64) (st : CSporkManager)
    (spork : CSporkMessage) : CSporkManager :=
  if !hasTip then st
  else if spork.nTimeSigned > now + 2 * 60 * 60 then st
  else
    match env.GetSignerKeyID spork with
    | none => st
    | some keyIDSigner =>
      if keyIDSigner ∉ st.setSporkPubKeyIDs then st
      else if (st.Stored spork.nSporkID keyIDSigner).any (·.nTimeSigned ≥ spork.nTimeSigned) then st
      else StoreSpork st keyIDSigner spork

/-- `UpdateSpork` on the node that holds a spork key: the message signed at `now` replaces the
node's own stored one whatever its time. -/
def UpdateSpork (env : SporkEnv) (now : Int64) (st : CSporkManager) (nSporkID : SporkId)
    (nValue : SporkValue) : Bool × CSporkManager :=
  let spork : CSporkMessage := { nSporkID, nValue, nTimeSigned := now }
  match env.Sign spork with
  | none => (false, st)
  | some vchSig =>
    let spork := { spork with vchSig }
    match env.GetSignerKeyID spork with
    | some keyIDSigner =>
      if keyIDSigner ∈ st.setSporkPubKeyIDs then (true, StoreSpork st keyIDSigner spork)
      else (false, st)
    | none => (false, st)

def SetMinSporkKeys (st : CSporkManager) (minSporkKeys : Int) : Option CSporkManager :=
  let maxKeysNumber : Int := st.setSporkPubKeyIDs.card
  if minSporkKeys ≤ maxKeysNumber / 2 ∨ minSporkKeys > maxKeysNumber then none
  else some { st with nMinSporkKeys := minSporkKeys }

end CSporkManager

/-- What reaches the manager: a `SPORK` message at an adjusted time, and the queries, which
only fill the caches. -/
inductive SporkEvent where
  | spork (hasTip : Bool) (now : Int64) (msg : CSporkMessage)
  | getValue (nSporkID : SporkId)
  | isActive (nSporkID : SporkId) (now : Int64)

namespace CSporkManager

def Step (env : SporkEnv) (st : CSporkManager) : SporkEvent → CSporkManager
  | .spork hasTip now msg => ProcessSpork env hasTip now st msg
  | .getValue nSporkID => (GetSporkValue st nSporkID).2
  | .isActive nSporkID now => (IsSporkActive st nSporkID now).2

def Run (env : SporkEnv) (st : CSporkManager) (evs : List SporkEvent) : CSporkManager :=
  evs.foldl (Step env) st

end CSporkManager

/-! ## The stored messages -/

/-- `m` is the first of the messages `ms` with the greatest signing time: every message before
it is older, none after it is newer. -/
def IsFirstLatest (ms : List CSporkMessage) (m : CSporkMessage) : Prop :=
  ∃ pre post, ms = pre ++ m :: post ∧ (∀ x ∈ pre, x.nTimeSigned < m.nTimeSigned) ∧
    ∀ x ∈ post, x.nTimeSigned ≤ m.nTimeSigned

theorem IsFirstLatest.singleton (m : CSporkMessage) : IsFirstLatest [m] m :=
  ⟨[], [], rfl, by simp, by simp⟩

theorem IsFirstLatest.append_not_newer {ms : List CSporkMessage} {s m : CSporkMessage}
    (h : IsFirstLatest ms s) (hm : m.nTimeSigned ≤ s.nTimeSigned) :
    IsFirstLatest (ms ++ [m]) s := by
  obtain ⟨pre, post, rfl, hpre, hpost⟩ := h
  refine ⟨pre, post ++ [m], by simp, hpre, ?_⟩
  intro x hx
  rcases List.mem_append.mp hx with hx | hx
  · exact hpost x hx
  · rw [List.mem_singleton.mp hx]
    exact hm

theorem IsFirstLatest.append_newer {ms : List CSporkMessage} {s m : CSporkMessage}
    (h : IsFirstLatest ms s) (hm : s.nTimeSigned < m.nTimeSigned) :
    IsFirstLatest (ms ++ [m]) m := by
  obtain ⟨pre, post, rfl, hpre, hpost⟩ := h
  refine ⟨pre ++ s :: post, [], rfl, ?_, by simp⟩
  intro x hx
  rw [Int64.lt_iff_toInt_lt] at hm ⊢
  simp only [List.mem_append, List.mem_cons] at hx
  rcases hx with hx | rfl | hx
  · have := Int64.lt_iff_toInt_lt.mp (hpre x hx)
    omega
  · exact hm
  · have := Int64.le_iff_toInt_le.mp (hpost x hx)
    omega

namespace CSporkManager

/-- The message a `SPORK` event hands to the store, with its signer: the event passed the tip,
time and key checks of `ProcessSpork`. -/
def Admitted (env : SporkEnv) (keys : Finset CKeyID) : SporkEvent → Option (CKeyID × CSporkMessage)
  | .spork hasTip now msg =>
    if hasTip && !(msg.nTimeSigned > now + 2 * 60 * 60) then
      match env.GetSignerKeyID msg with
      | some keyID => if keyID ∈ keys then some (keyID, msg) else none
      | none => none
    else none
  | _ => none

def Arrivals (env : SporkEnv) (keys : Finset CKeyID) (evs : List SporkEvent) (nSporkID : SporkId)
    (keyID : CKeyID) : List CSporkMessage :=
  evs.filterMap fun e =>
    match Admitted env keys e with
    | some (k, msg) => if k = keyID ∧ msg.nSporkID = nSporkID then some msg else none
    | none => none

theorem Arrivals_append_singleton (env : SporkEnv) (keys : Finset CKeyID) (evs : List SporkEvent)
    (e : SporkEvent) (nSporkID : SporkId) (keyID : CKeyID) :
    Arrivals env keys (evs ++ [e]) nSporkID keyID =
      Arrivals env keys evs nSporkID keyID ++
        match Admitted env keys e with
        | some (k, msg) => if k = keyID ∧ msg.nSporkID = nSporkID then [msg] else []
        | none => [] := by
  simp only [Arrivals, List.filterMap_append, List.filterMap_cons, List.filterMap_nil]
  congr 1
  rcases Admitted env keys e with _ | ⟨k, msg⟩
  · rfl
  · dsimp only
    by_cases h : k = keyID ∧ msg.nSporkID = nSporkID <;> simp [h]

theorem Stored_StoreSpork (st : CSporkManager) (keyIDSigner : CKeyID) (spork : CSporkMessage)
    (nSporkID : SporkId) (keyID : CKeyID) :
    (StoreSpork st keyIDSigner spork).Stored nSporkID keyID =
      if keyIDSigner = keyID ∧ spork.nSporkID = nSporkID then some spork
      else st.Stored nSporkID keyID := by
  unfold Stored StoreSpork
  by_cases hid : spork.nSporkID = nSporkID
  · subst hid
    by_cases hk : keyIDSigner = keyID
    · subst hk
      simp
    · simp only [AList.lookup_insert, Option.bind_some, hk, false_and, if_false]
      rw [AList.lookup_insert_ne (Ne.symm hk)]
      cases st.mapSporksActive.lookup spork.nSporkID <;> simp
  · simp [AList.lookup_insert_ne (Ne.symm hid), hid]

@[simp] theorem StoreSpork_setSporkPubKeyIDs (st : CSporkManager) (keyIDSigner : CKeyID)
    (spork : CSporkMessage) :
    (StoreSpork st keyIDSigner spork).setSporkPubKeyIDs = st.setSporkPubKeyIDs := rfl

theorem ProcessSpork_eq (env : SporkEnv) (hasTip : Bool) (now : Int64) (st : CSporkManager)
    (msg : CSporkMessage) :
    ProcessSpork env hasTip now st msg =
      match Admitted env st.setSporkPubKeyIDs (.spork hasTip now msg) with
      | some (k, msg) =>
        if (st.Stored msg.nSporkID k).any (·.nTimeSigned ≥ msg.nTimeSigned) then st
        else StoreSpork st k msg
      | none => st := by
  unfold ProcessSpork Admitted
  cases hasTip <;> simp only [Bool.not_false, Bool.not_true, Bool.true_and, Bool.false_and,
    if_true, if_false, Bool.false_eq_true]
  split
  · simp_all
  · rename_i hfar
    simp only [hfar]
    cases env.GetSignerKeyID msg with
    | none => rfl
    | some k =>
      by_cases hk : k ∈ st.setSporkPubKeyIDs <;> simp [hk]

theorem SporkValueIfActive_store (st : CSporkManager) (nSporkID : SporkId) :
    (SporkValueIfActive st nSporkID).2.mapSporksActive = st.mapSporksActive ∧
      (SporkValueIfActive st nSporkID).2.setSporkPubKeyIDs = st.setSporkPubKeyIDs := by
  unfold SporkValueIfActive
  split
  · exact ⟨rfl, rfl⟩
  · split
    · exact ⟨rfl, rfl⟩
    · split <;> exact ⟨rfl, rfl⟩

theorem GetSporkValue_store (st : CSporkManager) (nSporkID : SporkId) :
    (GetSporkValue st nSporkID).2.mapSporksActive = st.mapSporksActive ∧
      (GetSporkValue st nSporkID).2.setSporkPubKeyIDs = st.setSporkPubKeyIDs := by
  unfold GetSporkValue
  have h := SporkValueIfActive_store st nSporkID
  split <;> simp_all

theorem IsSporkActive_store (st : CSporkManager) (nSporkID : SporkId) (now : Int64) :
    (IsSporkActive st nSporkID now).2.mapSporksActive = st.mapSporksActive ∧
      (IsSporkActive st nSporkID now).2.setSporkPubKeyIDs = st.setSporkPubKeyIDs := by
  unfold IsSporkActive
  have h := GetSporkValue_store st nSporkID
  rcases hg : GetSporkValue st nSporkID with ⟨v, st'⟩
  rw [hg] at h
  split
  · exact ⟨rfl, rfl⟩
  · dsimp only
    split <;> exact h

@[simp] theorem Step_setSporkPubKeyIDs (env : SporkEnv) (st : CSporkManager) (e : SporkEvent) :
    (Step env st e).setSporkPubKeyIDs = st.setSporkPubKeyIDs := by
  cases e with
  | spork hasTip now msg =>
    simp only [Step, ProcessSpork_eq]
    split
    · split <;> rfl
    · rfl
  | getValue nSporkID => exact (GetSporkValue_store st nSporkID).2
  | isActive nSporkID now => exact (IsSporkActive_store st nSporkID now).2

@[simp] theorem Run_setSporkPubKeyIDs (env : SporkEnv) (st : CSporkManager)
    (evs : List SporkEvent) : (Run env st evs).setSporkPubKeyIDs = st.setSporkPubKeyIDs := by
  induction evs generalizing st with
  | nil => rfl
  | cons e evs ih =>
    show (Run env (Step env st e) evs).setSporkPubKeyIDs = _
    rw [ih, Step_setSporkPubKeyIDs]

theorem Step_Stored (env : SporkEnv) (st : CSporkManager) (e : SporkEvent) (nSporkID : SporkId)
    (keyID : CKeyID) :
    (Step env st e).Stored nSporkID keyID =
      match Admitted env st.setSporkPubKeyIDs e with
      | some (k, msg) =>
        if k = keyID ∧ msg.nSporkID = nSporkID ∧
            ¬ (st.Stored nSporkID keyID).any (·.nTimeSigned ≥ msg.nTimeSigned) then some msg
        else st.Stored nSporkID keyID
      | none => st.Stored nSporkID keyID := by
  cases e with
  | spork hasTip now msg =>
    simp only [Step, ProcessSpork_eq]
    rcases Admitted env st.setSporkPubKeyIDs (.spork hasTip now msg) with _ | ⟨k, m⟩
    · rfl
    · dsimp only
      by_cases hkey : k = keyID ∧ m.nSporkID = nSporkID
      · obtain ⟨rfl, rfl⟩ := hkey
        split <;> simp_all [Stored_StoreSpork]
      · have hcond : ¬ (k = keyID ∧ m.nSporkID = nSporkID ∧
            ¬ (st.Stored nSporkID keyID).any (·.nTimeSigned ≥ m.nTimeSigned)) :=
          fun h => hkey ⟨h.1, h.2.1⟩
        rw [if_neg hcond]
        split
        · rfl
        · rw [Stored_StoreSpork, if_neg hkey]
  | getValue nSporkID' =>
    simp only [Step, Admitted, Stored, (GetSporkValue_store st nSporkID').1]
  | isActive nSporkID' now =>
    simp only [Step, Admitted, Stored, (IsSporkActive_store st nSporkID' now).1]

/-- The store after the events `evs`: a spork and signer have a message exactly when an admitted
one arrived, and it is the first of the newest to arrive. -/
def HoldsFirstLatest (env : SporkEnv) (st : CSporkManager) (evs : List SporkEvent) : Prop :=
  ∀ nSporkID keyID,
    (st.Stored nSporkID keyID = none ↔ Arrivals env st.setSporkPubKeyIDs evs nSporkID keyID = []) ∧
      ∀ s, st.Stored nSporkID keyID = some s →
        IsFirstLatest (Arrivals env st.setSporkPubKeyIDs evs nSporkID keyID) s

theorem HoldsFirstLatest.init (env : SporkEnv) {st : CSporkManager}
    (hst : st.mapSporksActive = ∅) : HoldsFirstLatest env st [] := by
  intro nSporkID keyID
  simp [Stored, hst, Arrivals]

theorem HoldsFirstLatest.step {env : SporkEnv} {st : CSporkManager} {evs : List SporkEvent}
    (h : HoldsFirstLatest env st evs) (e : SporkEvent) :
    HoldsFirstLatest env (Step env st e) (evs ++ [e]) := by
  intro nSporkID keyID
  obtain ⟨hnone, hsome⟩ := h nSporkID keyID
  rw [Step_setSporkPubKeyIDs, Step_Stored, Arrivals_append_singleton]
  rcases Admitted env st.setSporkPubKeyIDs e with _ | ⟨k, msg⟩
  · simpa using ⟨hnone, hsome⟩
  · dsimp only
    by_cases hkey : k = keyID ∧ msg.nSporkID = nSporkID
    · obtain ⟨rfl, rfl⟩ := hkey
      simp only [true_and, and_self, if_true]
      cases hs : st.Stored msg.nSporkID k with
      | none =>
        have harr := hnone.mp hs
        rw [harr, List.nil_append]
        refine ⟨by simp, ?_⟩
        intro s hmsg
        simp only [Option.any_none, Bool.false_eq_true, not_false_eq_true, if_true,
          Option.some.injEq] at hmsg
        rw [← hmsg]
        exact IsFirstLatest.singleton msg
      | some s =>
        have hfirst := hsome s hs
        refine ⟨by split <;> simp, ?_⟩
        intro s' hs'
        by_cases hnewer : s.nTimeSigned ≥ msg.nTimeSigned
        · simp only [Option.any_some, hnewer, decide_true, not_true_eq_false, if_false,
            Option.some.injEq] at hs'
          rw [← hs']
          exact hfirst.append_not_newer hnewer
        · simp only [Option.any_some, hnewer, decide_false, Bool.false_eq_true,
            not_false_eq_true, if_true, Option.some.injEq] at hs'
          rw [← hs']
          exact hfirst.append_newer (Int64.not_le.mp hnewer)
    · have hcond : ¬ (k = keyID ∧ msg.nSporkID = nSporkID ∧
          ¬ (st.Stored nSporkID keyID).any (·.nTimeSigned ≥ msg.nTimeSigned)) :=
        fun h => hkey ⟨h.1, h.2.1⟩
      rw [if_neg hcond, if_neg hkey, List.append_nil]
      exact ⟨hnone, hsome⟩

theorem HoldsFirstLatest.run {env : SporkEnv} {st : CSporkManager} {pre : List SporkEvent}
    (h : HoldsFirstLatest env st pre) (evs : List SporkEvent) :
    HoldsFirstLatest env (Run env st evs) (pre ++ evs) := by
  induction evs generalizing st pre with
  | nil => simpa [Run] using h
  | cons e evs ih =>
    have := ih (h.step e)
    simpa [Run] using this

/-- From an empty store, whatever the events: a spork and a signer have a stored message exactly
when an admitted message of that signer for that spork arrived, and the stored one is the first
to arrive of those with the greatest signing time. Which of several equally new messages is
kept therefore depends on the order they arrive in. -/
theorem Run_stores_first_latest (env : SporkEnv) (st : CSporkManager)
    (hst : st.mapSporksActive = ∅) (evs : List SporkEvent) (nSporkID : SporkId)
    (keyID : CKeyID) :
    ((Run env st evs).Stored nSporkID keyID = none ↔
        Arrivals env st.setSporkPubKeyIDs evs nSporkID keyID = []) ∧
      ∀ s, (Run env st evs).Stored nSporkID keyID = some s →
        IsFirstLatest (Arrivals env st.setSporkPubKeyIDs evs nSporkID keyID) s := by
  have h := (HoldsFirstLatest.init env hst).run evs nSporkID keyID
  simpa using h

end CSporkManager

def oneKeyManager : CSporkManager := { setSporkPubKeyIDs := {0}, nMinSporkKeys := 1 }

def oneKeyEnv : SporkEnv := ⟨fun _ => some 0, fun _ => some []⟩

/-- Two messages of the key for `SPORK_9_SUPERBLOCKS_ENABLED` signed in the same second: one
turns the spork on (start time 0), one leaves it off. -/
def superblocksOn : CSporkMessage :=
  { nSporkID := SPORK_9_SUPERBLOCKS_ENABLED, nValue := 0, nTimeSigned := 100, vchSig := [1] }

def superblocksOff : CSporkMessage :=
  { nSporkID := SPORK_9_SUPERBLOCKS_ENABLED, nValue := 4070908800, nTimeSigned := 100,
    vchSig := [2] }

/-- The two messages in either order, under a minimum `SetMinSporkKeys` accepts: the node keeps
the first to arrive, and `GetSporkValue` ends on different values. -/
theorem GetSporkValue_differs_with_arrival_order :
    let evs := [SporkEvent.spork true 1000 superblocksOn, SporkEvent.spork true 1000 superblocksOff]
    (oneKeyManager.SetMinSporkKeys 1).isSome ∧
      (∀ s, (CSporkManager.Run oneKeyEnv oneKeyManager evs).Stored SPORK_9_SUPERBLOCKS_ENABLED 0 =
        some s → IsFirstLatest [superblocksOn, superblocksOff] s) ∧
      ((CSporkManager.Run oneKeyEnv oneKeyManager evs).GetSporkValue
        SPORK_9_SUPERBLOCKS_ENABLED).1 = 0 ∧
      ((CSporkManager.Run oneKeyEnv oneKeyManager evs.reverse).GetSporkValue
        SPORK_9_SUPERBLOCKS_ENABLED).1 = 4070908800 := by
  intro evs
  have harr : CSporkManager.Arrivals oneKeyEnv oneKeyManager.setSporkPubKeyIDs evs
      SPORK_9_SUPERBLOCKS_ENABLED 0 = [superblocksOn, superblocksOff] := by decide
  refine ⟨by decide, ?_, by decide, by decide⟩
  have h := (CSporkManager.Run_stores_first_latest oneKeyEnv oneKeyManager rfl evs
    SPORK_9_SUPERBLOCKS_ENABLED 0).2
  rw [harr] at h
  exact h

end DashCore
