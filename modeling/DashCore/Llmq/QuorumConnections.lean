import DashCore.Evo.MNSelection
import Mathlib.Data.List.Chain
import Mathlib.Data.Finset.Basic
import Mathlib.Algebra.Order.BigOperators.Group.List
import Mathlib.Algebra.Order.Group.Nat

/-! The connections between the members of a quorum (llmq/utils.cpp). With all members
connected, each pair connects once, in the direction `DeterministicOutboundConnection` picks;
otherwise each member relays to the members at distances `2^k` around the ring of members, for
`k < max 2 (log2 (n - 1))`. Members are given by their proTxHashes, in the order
`GetAllQuorumMembers` returns them.

Each pair of distinct members has exactly one outbound side (given that the hash separates
tuples that differ in their last hash), every member reaches every other through relays in at
most `log2 (n - 1) + 2` steps, and the relay members of a node with inbound connections are its
outbound relays and the nodes relaying to it (`quorum_connections_consistent_and_short`). -/
namespace DashCore

variable (P : Primitives)

def SerializeHash3 (a b c : uint256) : uint256 :=
  P.SerializeHash (SerializeBlob 32 a ++ SerializeBlob 32 b ++ SerializeBlob 32 c)

/-- `DeterministicOutboundConnection`: of the two, the one whose hash with the ordered pair is
the lower initiates the connection. -/
def DeterministicOutboundConnection (proTxHash1 proTxHash2 : uint256) : uint256 :=
  let (h1, h2) :=
    if uint256Less proTxHash1 proTxHash2 then
      (SerializeHash3 P proTxHash1 proTxHash2 proTxHash1, SerializeHash3 P proTxHash1 proTxHash2 proTxHash2)
    else
      (SerializeHash3 P proTxHash2 proTxHash1 proTxHash1, SerializeHash3 P proTxHash2 proTxHash1 proTxHash2)
  if uint256Less h1 h2 then proTxHash1 else proTxHash2

/-- The loop of `calcOutbound` for the member at `i`: `gap_max` before its shift, `k` steps
taken. -/
def calcOutboundLoop (mns : List uint256) (i : Nat) (proTxHash : uint256) (gap gap_max k : Nat) :
    Finset uint256 :=
  if h : gap_max >>> 1 ≠ 0 ∨ k ≤ 1 then
    let idx := (i + gap) % mns.length
    let r := calcOutboundLoop mns i proTxHash (gap <<< 1) (gap_max >>> 1) (k + 1)
    let otherDmn := mns.getD idx 0
    if otherDmn = proTxHash then r else insert otherDmn r
  else ∅
termination_by gap_max + (2 - k)
decreasing_by
  rw [Nat.shiftRight_eq_div_pow, pow_one] at h ⊢
  omega

def calcOutbound (mns : List uint256) (i : Nat) (proTxHash : uint256) : Finset uint256 :=
  if mns.length = 1 then ∅ else calcOutboundLoop mns i proTxHash 1 (mns.length - 1) 0

def relayMembersStep (mns : List uint256) (forMember : uint256) (onlyOutbound : Bool)
    (result : Finset uint256) (i : Nat) : Finset uint256 :=
  let dmn := mns.getD i 0
  if dmn = forMember then result ∪ calcOutbound mns i dmn
  else if !onlyOutbound then (if forMember ∈ calcOutbound mns i dmn then insert dmn result else result)
  else result

/-- `GetQuorumRelayMembers`: the outbound relays of `forMember`, and without `onlyOutbound`
also the members that relay to it. -/
def GetQuorumRelayMembers (mns : List uint256) (forMember : uint256) (onlyOutbound : Bool) :
    Finset uint256 :=
  (List.range mns.length).foldl (relayMembersStep mns forMember onlyOutbound) ∅

def connectionsStep (forMember : uint256) (onlyOutbound : Bool) (result : Finset uint256)
    (dmn : uint256) : Finset uint256 :=
  if dmn = forMember then result
  else if !onlyOutbound || DeterministicOutboundConnection P forMember dmn = dmn then insert dmn result
  else result

/-- `GetQuorumConnections`; `allMembersConnected` is `IsAllMembersConnectedEnabled`. -/
def GetQuorumConnections (allMembersConnected : Bool) (mns : List uint256) (forMember : uint256)
    (onlyOutbound : Bool) : Finset uint256 :=
  if allMembersConnected then mns.foldl (connectionsStep P forMember onlyOutbound) ∅
  else GetQuorumRelayMembers mns forMember onlyOutbound

/-! ### The relay loop -/

def relaySteps (m : Nat) : Nat := max 2 m.log2

theorem relay_cond_iff {m : Nat} (hm : m ≠ 0) (k : Nat) :
    (m >>> k >>> 1 ≠ 0 ∨ k ≤ 1) ↔ k < relaySteps m := by
  have hpow : m >>> k >>> 1 ≠ 0 ↔ k + 1 ≤ m.log2 := by
    rw [← Nat.shiftRight_add, Nat.shiftRight_eq_div_pow, ne_eq, Nat.div_eq_zero_iff, not_or,
      Nat.not_lt, Nat.le_log2 hm]
    exact ⟨fun h => h.2, fun h => ⟨Nat.pos_iff_ne_zero.mp (Nat.two_pow_pos _), h⟩⟩
  rw [hpow, relaySteps]
  omega

theorem mem_calcOutboundLoop (mns : List uint256) (i : Nat) (p : uint256) {m : Nat} (hm : m ≠ 0)
    (k : Nat) (x : uint256) :
    x ∈ calcOutboundLoop mns i p (2 ^ k) (m >>> k) k ↔
      ∃ j, k ≤ j ∧ j < relaySteps m ∧ x = mns.getD ((i + 2 ^ j) % mns.length) 0 ∧ x ≠ p := by
  induction hd : relaySteps m - k generalizing k with
  | zero =>
    have hcond : ¬(m >>> k >>> 1 ≠ 0 ∨ k ≤ 1) := by rw [relay_cond_iff hm]; omega
    rw [calcOutboundLoop, dif_neg hcond]
    simp only [Finset.notMem_empty, false_iff, not_exists, not_and]
    intro j hkj hj
    omega
  | succ d ih =>
    have hcond : m >>> k >>> 1 ≠ 0 ∨ k ≤ 1 := by rw [relay_cond_iff hm]; omega
    have hnext : 2 ^ k <<< 1 = 2 ^ (k + 1) := by rw [Nat.shiftLeft_eq, pow_one, pow_succ]
    have hnext' : m >>> k >>> 1 = m >>> (k + 1) := (Nat.shiftRight_add m k 1).symm
    rw [calcOutboundLoop, dif_pos hcond]
    simp only [hnext, hnext']
    have hrest := ih (k + 1) (by omega)
    constructor
    · intro hx
      split at hx
      · obtain ⟨j, hj, hjs, rfl, hne⟩ := hrest.mp hx
        exact ⟨j, by omega, hjs, rfl, hne⟩
      · rename_i hne
        rcases Finset.mem_insert.mp hx with rfl | hx
        · exact ⟨k, le_rfl, by omega, rfl, hne⟩
        · obtain ⟨j, hj, hjs, rfl, hne⟩ := hrest.mp hx
          exact ⟨j, by omega, hjs, rfl, hne⟩
    · rintro ⟨j, hj, hjs, rfl, hne⟩
      rcases Nat.eq_or_lt_of_le hj with rfl | hj
      · rw [if_neg hne]
        exact Finset.mem_insert_self _ _
      · have hx := hrest.mpr ⟨j, hj, hjs, rfl, hne⟩
        split
        · exact hx
        · exact Finset.mem_insert_of_mem hx

theorem mem_calcOutbound {mns : List uint256} (hn : 2 ≤ mns.length) (i : Nat) (p x : uint256) :
    x ∈ calcOutbound mns i p ↔
      ∃ j < relaySteps (mns.length - 1), x = mns.getD ((i + 2 ^ j) % mns.length) 0 ∧ x ≠ p := by
  have hone : mns.length ≠ 1 := by omega
  have h := mem_calcOutboundLoop mns i p (m := mns.length - 1) (by omega) 0 x
  rw [pow_zero, Nat.shiftRight_zero] at h
  rw [calcOutbound, if_neg hone, h]
  exact ⟨fun ⟨j, _, hj, hx⟩ => ⟨j, hj, hx⟩, fun ⟨j, hj, hx⟩ => ⟨j, Nat.zero_le _, hj, hx⟩⟩

theorem ne_of_mem_calcOutbound {mns : List uint256} (hn : 2 ≤ mns.length) {i : Nat} {p x : uint256}
    (hx : x ∈ calcOutbound mns i p) : x ≠ p := by
  obtain ⟨_, _, _, hne⟩ := (mem_calcOutbound hn i p x).mp hx
  exact hne

/-! ### The two loops over the members -/

theorem mem_foldl_of_step {α β : Type} {f : Finset β → α → Finset β} {Q : α → β → Prop}
    (hf : ∀ s a x, x ∈ f s a ↔ x ∈ s ∨ Q a x) (l : List α) (s : Finset β) (x : β) :
    x ∈ l.foldl f s ↔ x ∈ s ∨ ∃ a ∈ l, Q a x := by
  induction l generalizing s with
  | nil => simp
  | cons a l ih =>
    rw [List.foldl_cons, ih, hf]
    simp only [List.mem_cons, exists_eq_or_imp]
    tauto

section Members

variable {mns : List uint256} {forMember : uint256}

theorem mem_relayMembersStep (onlyOutbound : Bool) (s : Finset uint256) (i : Nat) (x : uint256) :
    x ∈ relayMembersStep mns forMember onlyOutbound s i ↔ x ∈ s ∨
      (mns.getD i 0 = forMember ∧ x ∈ calcOutbound mns i forMember) ∨
      (mns.getD i 0 ≠ forMember ∧ onlyOutbound = false ∧
        forMember ∈ calcOutbound mns i (mns.getD i 0) ∧ x = mns.getD i 0) := by
  unfold relayMembersStep
  dsimp only
  generalize mns.getD i 0 = dmn
  by_cases hi : dmn = forMember
  · subst hi
    simp
  · cases onlyOutbound <;> by_cases hin : forMember ∈ calcOutbound mns i dmn <;>
      simp [hi, hin, or_comm]

theorem mem_GetQuorumRelayMembers_true (x : uint256) :
    x ∈ GetQuorumRelayMembers mns forMember true ↔
      ∃ i < mns.length, mns.getD i 0 = forMember ∧ x ∈ calcOutbound mns i forMember := by
  rw [GetQuorumRelayMembers, mem_foldl_of_step (mem_relayMembersStep true)]
  simp

theorem mem_GetQuorumRelayMembers_false (x : uint256) :
    x ∈ GetQuorumRelayMembers mns forMember false ↔
      ∃ i < mns.length, (mns.getD i 0 = forMember ∧ x ∈ calcOutbound mns i forMember) ∨
        (mns.getD i 0 ≠ forMember ∧ forMember ∈ calcOutbound mns i (mns.getD i 0) ∧
          x = mns.getD i 0) := by
  rw [GetQuorumRelayMembers, mem_foldl_of_step (mem_relayMembersStep false)]
  simp

theorem mem_connectionsStep (onlyOutbound : Bool) (s : Finset uint256) (dmn x : uint256) :
    x ∈ connectionsStep P forMember onlyOutbound s dmn ↔ x ∈ s ∨
      (x = dmn ∧ dmn ≠ forMember ∧
        (onlyOutbound = false ∨ DeterministicOutboundConnection P forMember dmn = dmn)) := by
  unfold connectionsStep
  by_cases hd : dmn = forMember
  · simp [hd]
  · cases onlyOutbound <;>
      by_cases ho : DeterministicOutboundConnection P forMember dmn = dmn <;> simp [hd, ho, or_comm]

theorem mem_GetQuorumConnections_true (x : uint256) :
    x ∈ GetQuorumConnections P true mns forMember true ↔
      x ∈ mns ∧ x ≠ forMember ∧ DeterministicOutboundConnection P forMember x = x := by
  rw [GetQuorumConnections, if_pos rfl, mem_foldl_of_step (mem_connectionsStep P true)]
  simp only [Finset.notMem_empty, false_or, Bool.true_eq_false]
  constructor
  · rintro ⟨dmn, hdmn, rfl, hne, hdoc⟩
    exact ⟨hdmn, hne, hdoc⟩
  · rintro ⟨hx, hne, hdoc⟩
    exact ⟨x, hx, rfl, hne, hdoc⟩

end Members

/-! ### One outbound side for each pair -/

section Outbound

variable {P}

theorem DeterministicOutboundConnection_mem (a b : uint256) :
    DeterministicOutboundConnection P a b = a ∨ DeterministicOutboundConnection P a b = b := by
  unfold DeterministicOutboundConnection
  split
  split <;> simp

theorem DeterministicOutboundConnection_comm
    (hinj : ∀ lo hi x y, SerializeHash3 P lo hi x = SerializeHash3 P lo hi y → x = y)
    {a b : uint256} (hne : a ≠ b) :
    DeterministicOutboundConnection P a b = DeterministicOutboundConnection P b a := by
  have hord := uint256Less_strictTotalOrder
  -- with either order of the pair, of the two different hashes exactly one is the lower
  have hpick : ∀ lo hi,
      (if uint256Less (SerializeHash3 P lo hi a) (SerializeHash3 P lo hi b) then a else b) =
        (if uint256Less (SerializeHash3 P lo hi b) (SerializeHash3 P lo hi a) then b else a) := by
    intro lo hi
    have hh : SerializeHash3 P lo hi a ≠ SerializeHash3 P lo hi b := fun h => hne (hinj lo hi a b h)
    rcases hord.total _ _ hh with h | h
    · rw [if_pos h, if_neg (by rw [hord.asymm _ _ h]; decide)]
    · rw [if_neg (by rw [hord.asymm _ _ h]; decide), if_pos h]
  unfold DeterministicOutboundConnection
  cases hab : uint256Less a b
  · have hba : uint256Less b a = true := (hord.total a b hne).resolve_left (by rw [hab]; decide)
    simp only [hba, Bool.false_eq_true, if_false, if_true]
    exact hpick b a
  · simp only [hord.asymm a b hab, Bool.false_eq_true, if_false, if_true]
    exact hpick a b

end Outbound

/-! ### Distances as sums of relay gaps -/

theorem exists_pow_sum (K : Nat) {d : Nat} (hd : d < 2 ^ K) :
    ∃ es : List Nat, (∀ e ∈ es, e < K) ∧ (es.map (2 ^ ·)).sum = d ∧ es.length ≤ K := by
  induction K generalizing d with
  | zero =>
    have hd0 : d = 0 := by rw [pow_zero] at hd; omega
    exact ⟨[], by simp, by simp [hd0], le_rfl⟩
  | succ K ih =>
    by_cases hlow : d < 2 ^ K
    · obtain ⟨es, hes, hsum, hlen⟩ := ih hlow
      exact ⟨es, fun e he => Nat.lt_succ_of_lt (hes e he), hsum, Nat.le_succ_of_le hlen⟩
    · have hrest : d - 2 ^ K < 2 ^ K := by rw [pow_succ] at hd; omega
      obtain ⟨es, hes, hsum, hlen⟩ := ih hrest
      refine ⟨K :: es, fun e he => ?_, ?_, by rw [List.length_cons]; omega⟩
      · rcases List.mem_cons.mp he with rfl | he
        · exact Nat.lt_succ_self _
        · exact Nat.lt_succ_of_lt (hes e he)
      · rw [List.map_cons, List.sum_cons, hsum]
        omega

theorem exists_jumps {K d : Nat} (hK : 1 ≤ K) (hd : d < 2 ^ (K + 1)) :
    ∃ es : List Nat, (∀ e ∈ es, e < K) ∧ (es.map (2 ^ ·)).sum = d ∧ es.length ≤ K + 2 := by
  obtain ⟨es, hes, hsum, hlen⟩ := exists_pow_sum (K - 1) (Nat.mod_lt d (Nat.two_pow_pos (K - 1)))
  have hq : d / 2 ^ (K - 1) < 4 := by
    have hpow : 2 ^ (K + 1) = 4 * 2 ^ (K - 1) := by
      rw [show K + 1 = 2 + (K - 1) by omega, pow_add]
      rfl
    rw [Nat.div_lt_iff_lt_mul (Nat.two_pow_pos _), ← hpow]
    exact hd
  refine ⟨List.replicate (d / 2 ^ (K - 1)) (K - 1) ++ es, fun e he => ?_, ?_, ?_⟩
  · rcases List.mem_append.mp he with he | he
    · rw [List.eq_of_mem_replicate he]
      omega
    · exact Nat.lt_of_lt_of_le (hes e he) (Nat.sub_le K 1)
  · rw [List.map_append, List.sum_append, List.map_replicate, List.sum_replicate, hsum,
      Nat.nsmul_eq_mul, Nat.div_add_mod']
  · rw [List.length_append, List.length_replicate]
    omega

theorem exists_relay_jumps {n d : Nat} (hn : 2 ≤ n) (hd : d < n) :
    ∃ es : List Nat, (∀ e ∈ es, e < relaySteps (n - 1)) ∧ (es.map (2 ^ ·)).sum = d ∧
      es.length ≤ (n - 1).log2 + 2 := by
  have hlog : n - 1 < 2 ^ ((n - 1).log2 + 1) := Nat.lt_log2_self
  by_cases hL : 2 ≤ (n - 1).log2
  · rw [relaySteps, max_eq_right hL]
    exact exists_jumps (by omega) (by omega)
  · -- a ring of at most four: the two rounds reach every distance up to three
    have hd4 : d < 2 ^ 2 := by
      have hle : 2 ^ ((n - 1).log2 + 1) ≤ 2 ^ 2 := Nat.pow_le_pow_right (by decide) (by omega)
      omega
    obtain ⟨es, hes, hsum, hlen⟩ := exists_pow_sum 2 hd4
    rw [relaySteps, max_eq_left (by omega)]
    exact ⟨es, hes, hsum, by omega⟩

/-! ### Paths of relays -/

section Paths

variable {mns : List uint256}

theorem exists_getD_eq {a : uint256} (ha : a ∈ mns) : ∃ i < mns.length, mns.getD i 0 = a := by
  obtain ⟨i, hi, h⟩ := List.mem_iff_getElem.mp ha
  exact ⟨i, hi, by rw [List.getD_eq_getElem _ _ hi, h]⟩

theorem getD_ne_of_ne (hnodup : mns.Nodup) {i j : Nat} (hi : i < mns.length) (hj : j < mns.length)
    (hij : i ≠ j) : mns.getD i 0 ≠ mns.getD j 0 := by
  rw [List.getD_eq_getElem _ _ hi, List.getD_eq_getElem _ _ hj]
  exact fun h => hij (hnodup.getElem_inj_iff.mp h)

theorem mod_add_ne_self {p d n : Nat} (hp : p < n) (hd : 0 < d) (hdn : d < n) : (p + d) % n ≠ p := by
  by_cases h : p + d < n
  · rw [Nat.mod_eq_of_lt h]
    omega
  · rw [Nat.mod_eq_sub_mod (by omega), Nat.mod_eq_of_lt (by omega)]
    omega

theorem relay_edge (hnodup : mns.Nodup) (hn : 2 ≤ mns.length) {p e : Nat} (hp : p < mns.length)
    (he : e < relaySteps (mns.length - 1)) (hlt : 2 ^ e < mns.length) :
    mns.getD ((p + 2 ^ e) % mns.length) 0 ∈ GetQuorumRelayMembers mns (mns.getD p 0) true := by
  have hne : (p + 2 ^ e) % mns.length ≠ p := mod_add_ne_self hp (Nat.two_pow_pos e) hlt
  have hq : (p + 2 ^ e) % mns.length < mns.length := Nat.mod_lt _ (by omega)
  rw [mem_GetQuorumRelayMembers_true]
  exact ⟨p, hp, rfl, (mem_calcOutbound hn p _ _).mpr ⟨e, he, rfl, getD_ne_of_ne hnodup hq hp hne⟩⟩

theorem relay_chain (hnodup : mns.Nodup) (hn : 2 ≤ mns.length) (es : List Nat)
    (hes : ∀ e ∈ es, e < relaySteps (mns.length - 1) ∧ 2 ^ e < mns.length) {p : Nat}
    (hp : p < mns.length) :
    ∃ path, List.IsChain (fun x y => y ∈ GetQuorumRelayMembers mns x true) (mns.getD p 0 :: path) ∧
      (mns.getD p 0 :: path).getLast? =
        some (mns.getD ((p + (es.map (2 ^ ·)).sum) % mns.length) 0) ∧
      path.length = es.length := by
  induction es generalizing p with
  | nil =>
    refine ⟨[], List.isChain_singleton _, ?_, rfl⟩
    rw [List.map_nil, List.sum_nil, Nat.add_zero, Nat.mod_eq_of_lt hp]
    rfl
  | cons e es ih =>
    obtain ⟨he, hlt⟩ := hes e List.mem_cons_self
    have hp' : (p + 2 ^ e) % mns.length < mns.length := Nat.mod_lt _ (by omega)
    obtain ⟨path, hchain, hlast, hlen⟩ :=
      ih (fun e' he' => hes e' (List.mem_cons_of_mem e he')) hp'
    refine ⟨mns.getD ((p + 2 ^ e) % mns.length) 0 :: path, ?_, ?_, by rw [List.length_cons, hlen, List.length_cons]⟩
    · exact List.isChain_cons_cons.mpr ⟨relay_edge hnodup hn hp he hlt, hchain⟩
    · rw [List.getLast?_cons_cons, hlast, List.map_cons, List.sum_cons, Nat.mod_add_mod,
        Nat.add_assoc]

theorem relay_reaches (hnodup : mns.Nodup) (hn : 2 ≤ mns.length) {a b : uint256} (ha : a ∈ mns)
    (hb : b ∈ mns) (hab : a ≠ b) :
    ∃ path, List.IsChain (fun x y => y ∈ GetQuorumRelayMembers mns x true) (a :: path) ∧
      path.getLast? = some b ∧ path.length ≤ (mns.length - 1).log2 + 2 := by
  obtain ⟨i, hi, rfl⟩ := exists_getD_eq ha
  obtain ⟨j, hj, rfl⟩ := exists_getD_eq hb
  have hd : (j + mns.length - i) % mns.length < mns.length := Nat.mod_lt _ (by omega)
  obtain ⟨es, hes, hsum, hlen⟩ := exists_relay_jumps hn hd
  have hes' : ∀ e ∈ es, e < relaySteps (mns.length - 1) ∧ 2 ^ e < mns.length := fun e he =>
    ⟨hes e he, Nat.lt_of_le_of_lt (hsum ▸ List.le_sum_of_mem (List.mem_map_of_mem he)) hd⟩
  obtain ⟨path, hchain, hlast, hplen⟩ := relay_chain hnodup hn es hes' hi
  have htarget : (i + (es.map (2 ^ ·)).sum) % mns.length = j := by
    rw [hsum, Nat.add_mod_mod, show i + (j + mns.length - i) = j + mns.length by omega,
      Nat.add_mod_right, Nat.mod_eq_of_lt hj]
  rw [htarget, List.getLast?_cons, Option.some_inj] at hlast
  refine ⟨path, hchain, ?_, hplen ▸ hlen⟩
  cases hl : path.getLast? with
  | none =>
    rw [hl, Option.getD_none] at hlast
    exact absurd hlast hab
  | some y =>
    rw [hl, Option.getD_some] at hlast
    rw [hlast]

theorem relay_inbound_iff (hn : 2 ≤ mns.length) (a b : uint256) :
    b ∈ GetQuorumRelayMembers mns a false ↔
      b ∈ GetQuorumRelayMembers mns a true ∨ a ∈ GetQuorumRelayMembers mns b true := by
  rw [mem_GetQuorumRelayMembers_false, mem_GetQuorumRelayMembers_true,
    mem_GetQuorumRelayMembers_true]
  constructor
  · rintro ⟨i, hi, ⟨hia, hb⟩ | ⟨-, ha, rfl⟩⟩
    · exact .inl ⟨i, hi, hia, hb⟩
    · exact .inr ⟨i, hi, rfl, ha⟩
  · rintro (⟨i, hi, hia, hb⟩ | ⟨i, hi, rfl, ha⟩)
    · exact ⟨i, hi, .inl ⟨hia, hb⟩⟩
    · exact ⟨i, hi, .inr ⟨(ne_of_mem_calcOutbound hn ha).symm, ha, rfl⟩⟩

end Paths

theorem outbound_side_unique
    (hinj : ∀ lo hi x y, SerializeHash3 P lo hi x = SerializeHash3 P lo hi y → x = y)
    {mns : List uint256} {a b : uint256} (ha : a ∈ mns) (hb : b ∈ mns) (hab : a ≠ b) :
    b ∈ GetQuorumConnections P true mns a true ↔ a ∉ GetQuorumConnections P true mns b true := by
  rw [mem_GetQuorumConnections_true, mem_GetQuorumConnections_true,
    DeterministicOutboundConnection_comm hinj hab]
  rcases DeterministicOutboundConnection_mem (P := P) b a with h | h <;> rw [h]
  · simp [hb, hab.symm]
  · simp [ha, hab]

/-- The topology of the quorum's connections: with all members connected each pair connects once;
otherwise the relays connect every member to every other in at most `log2 (n - 1) + 2` steps,
and the relay members with inbound connections are the relays either way. -/
theorem quorum_connections_consistent_and_short
    (hinj : ∀ lo hi x y, SerializeHash3 P lo hi x = SerializeHash3 P lo hi y → x = y)
    {mns : List uint256} (hnodup : mns.Nodup) (hn : 2 ≤ mns.length) :
    (∀ a ∈ mns, ∀ b ∈ mns, a ≠ b →
      (b ∈ GetQuorumConnections P true mns a true ↔ a ∉ GetQuorumConnections P true mns b true)) ∧
    (∀ a ∈ mns, ∀ b ∈ mns, a ≠ b → ∃ path,
      List.IsChain (fun x y => y ∈ GetQuorumRelayMembers mns x true) (a :: path) ∧
        path.getLast? = some b ∧ path.length ≤ (mns.length - 1).log2 + 2) ∧
    (∀ a b, b ∈ GetQuorumRelayMembers mns a false ↔
      b ∈ GetQuorumRelayMembers mns a true ∨ a ∈ GetQuorumRelayMembers mns b true) :=
  ⟨fun _ ha _ hb hab => outbound_side_unique P hinj ha hb hab,
    fun _ ha _ hb hab => relay_reaches hnodup hn ha hb hab,
    relay_inbound_iff hn⟩

def lastHashPrimitives : Primitives :=
  ⟨fun bs => BitVec.ofNat 256 (leValue (bs.drop 64)), fun _ _ => none, fun k _ => k, true⟩

theorem SerializeHash3_lastHashPrimitives (lo hi x : uint256) :
    SerializeHash3 lastHashPrimitives lo hi x = x := by
  have hlen : (SerializeBlob 32 lo ++ SerializeBlob 32 hi).length = 64 := by
    simp [SerializeBlob]
  simp only [SerializeHash3, lastHashPrimitives]
  rw [List.drop_left' hlen, SerializeBlob, leValue_ser_writedataLE,
    Nat.mod_eq_of_lt (toNat_lt_of_le_bytes (by decide) x), BitVec.ofNat_toNat, BitVec.setWidth_eq]

/-- A quorum of five members. -/
theorem five_members_connect_once :
    (∀ a ∈ [(1 : uint256), 2, 3, 4, 5], ∀ b ∈ [(1 : uint256), 2, 3, 4, 5], a ≠ b →
      (b ∈ GetQuorumConnections lastHashPrimitives true [1, 2, 3, 4, 5] a true ↔
        a ∉ GetQuorumConnections lastHashPrimitives true [1, 2, 3, 4, 5] b true)) ∧
    (∀ a ∈ [(1 : uint256), 2, 3, 4, 5], ∀ b ∈ [(1 : uint256), 2, 3, 4, 5], a ≠ b → ∃ path,
      List.IsChain (fun x y => y ∈ GetQuorumRelayMembers [1, 2, 3, 4, 5] x true) (a :: path) ∧
        path.getLast? = some b ∧ path.length ≤ ([(1 : uint256), 2, 3, 4, 5].length - 1).log2 + 2) ∧
    (∀ a b, b ∈ GetQuorumRelayMembers [1, 2, 3, 4, 5] a false ↔
      b ∈ GetQuorumRelayMembers [1, 2, 3, 4, 5] a true ∨
        a ∈ GetQuorumRelayMembers [1, 2, 3, 4, 5] b true) :=
  quorum_connections_consistent_and_short lastHashPrimitives
    (fun lo hi x y h => by rwa [SerializeHash3_lastHashPrimitives, SerializeHash3_lastHashPrimitives] at h)
    (by decide) (by decide)

end DashCore
