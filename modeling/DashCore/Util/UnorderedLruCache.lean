import DashCore.Lib.Selection
import Mathlib.Data.Finset.Card

/-! The cache of unordered_lru_cache.h: a hash map from keys to values with the counter of each
key's last access. A miss changes nothing; an insertion first truncates the map, when it holds
more than `truncateThreshold` entries, to the `maxSize` most recently used ones. The access
counter is an `int64_t` the model holds as a `Nat`; the map's iteration order is not observed.

The map never holds more than `truncateThreshold + 1` entries, and a key stays cached as long as
fewer than `maxSize` other keys are used after it (`lru_cache_keeps_recent`): since every key
used after it has a newer counter and none else has, the truncation, which keeps the entries of
the `maxSize` newest counters, keeps it. -/
namespace DashCore

structure unordered_lru_cache (Key Value : Type) where
  /-- The entries of the `unordered_map`, each with the counter of its key's last access. -/
  cacheMap : List (Key × Value × Nat)
  maxSize : Nat
  truncateThreshold : Nat
  accessCounter : Nat

namespace unordered_lru_cache

variable {Key Value : Type} [DecidableEq Key]

/-- The constructor; `assert(_maxSize != 0)` fails for a zero `maxSize`, and a zero threshold
is twice `maxSize`. -/
def init (_maxSize _truncateThreshold : Nat) : Option (unordered_lru_cache Key Value) :=
  if _maxSize = 0 then none
  else some ⟨[], _maxSize, if _truncateThreshold = 0 then _maxSize * 2 else _truncateThreshold, 0⟩

def find (c : unordered_lru_cache Key Value) (key : Key) : Option (Key × Value × Nat) :=
  c.cacheMap.find? (·.1 = key)

def setEntry (c : unordered_lru_cache Key Value) (key : Key) (e : Key × Value × Nat) :
    List (Key × Value × Nat) :=
  c.cacheMap.map fun e' => if e'.1 = key then e else e'

/-- `truncate_if_needed()`: sort by last access time, newest first, and keep the first
`maxSize`. -/
def truncate_if_needed (c : unordered_lru_cache Key Value) : unordered_lru_cache Key Value :=
  if c.cacheMap.length ≤ c.truncateThreshold then c
  else { c with cacheMap := (c.cacheMap.mergeSort fun e₁ e₂ => decide (e₂.2.2 ≤ e₁.2.2)).take c.maxSize }

def _emplace (c : unordered_lru_cache Key Value) (key : Key) (v : Value) : unordered_lru_cache Key Value :=
  let c := truncate_if_needed c
  match find c key with
  | none => { c with cacheMap := c.cacheMap ++ [(key, v, c.accessCounter)],
                     accessCounter := c.accessCounter + 1 }
  | some _ => { c with cacheMap := setEntry c key (key, v, c.accessCounter),
                       accessCounter := c.accessCounter + 1 }

def get (c : unordered_lru_cache Key Value) (key : Key) : Option Value × unordered_lru_cache Key Value :=
  match find c key with
  | some (_, value, _) =>
    (some value, { c with cacheMap := setEntry c key (key, value, c.accessCounter),
                          accessCounter := c.accessCounter + 1 })
  | none => (none, c)

def «exists» (c : unordered_lru_cache Key Value) (key : Key) : Bool × unordered_lru_cache Key Value :=
  match find c key with
  | some (_, value, _) =>
    (true, { c with cacheMap := setEntry c key (key, value, c.accessCounter),
                    accessCounter := c.accessCounter + 1 })
  | none => (false, c)

def erase (c : unordered_lru_cache Key Value) (key : Key) : unordered_lru_cache Key Value :=
  { c with cacheMap := c.cacheMap.filter (·.1 ≠ key) }

def clear (c : unordered_lru_cache Key Value) : unordered_lru_cache Key Value :=
  { c with cacheMap := [] }

end unordered_lru_cache

inductive LruOp (Key Value : Type) where
  | insert (key : Key) (v : Value)
  | emplace (key : Key) (v : Value)
  | get (key : Key)
  | «exists» (key : Key)
  | erase (key : Key)
  | clear
  deriving DecidableEq

namespace LruOp

variable {Key Value : Type}

def touches : LruOp Key Value → Option Key
  | insert key _ | emplace key _ | get key | «exists» key => some key
  | erase _ | clear => none

end LruOp

namespace unordered_lru_cache

variable {Key Value : Type} [DecidableEq Key]

def step (c : unordered_lru_cache Key Value) : LruOp Key Value → unordered_lru_cache Key Value
  | .insert key v => _emplace c key v
  | .emplace key v => _emplace c key v
  | .get key => (get c key).2
  | .exists key => («exists» c key).2
  | .erase key => erase c key
  | .clear => clear c

def run (c : unordered_lru_cache Key Value) (ops : List (LruOp Key Value)) : unordered_lru_cache Key Value :=
  ops.foldl step c

end unordered_lru_cache

section Keys

variable {Key β : Type} [DecidableEq Key]

theorem find?_key_of_mem {l : List (Key × β)} (hl : (l.map (·.1)).Nodup) {e : Key × β}
    (he : e ∈ l) : l.find? (·.1 = e.1) = some e := by
  induction l with
  | nil => cases he
  | cons e' l ih =>
    obtain ⟨hnot, hl⟩ := List.nodup_cons.mp hl
    by_cases hkey : e'.1 = e.1
    · have heq : e' = e := by
        rcases List.mem_cons.mp he with rfl | hmem
        · rfl
        · have hin : e.1 ∈ l.map (·.1) := List.mem_map_of_mem hmem
          rw [← hkey] at hin
          exact absurd hin hnot
      rw [List.find?_cons_of_pos (by simpa using hkey), heq]
    · have hmem : e ∈ l := by
        rcases List.mem_cons.mp he with rfl | hmem
        · exact absurd rfl hkey
        · exact hmem
      rw [List.find?_cons_of_neg (by simpa using hkey), ih hl hmem]

theorem countP_le_card {l : List (Key × β)} (hl : (l.map (·.1)).Nodup) (P : Key × β → Bool)
    (K : Finset Key) (hK : ∀ e ∈ l, P e = true → e.1 ∈ K) : l.countP P ≤ K.card := by
  have hnodup : ((l.filter P).map (·.1)).Nodup := hl.sublist ((List.filter_sublist).map _)
  calc l.countP P = ((l.filter P).map (·.1)).length := by rw [List.length_map, List.countP_eq_length_filter]
    _ = ((l.filter P).map (·.1)).toFinset.card := (List.toFinset_card_of_nodup hnodup).symm
    _ ≤ K.card := Finset.card_le_card fun key hkey => by
      obtain ⟨e, he, rfl⟩ := List.mem_map.mp (List.mem_toFinset.mp hkey)
      obtain ⟨hmem, hp⟩ := List.mem_filter.mp he
      exact hK e hmem hp

end Keys

namespace unordered_lru_cache

variable {Key Value : Type}

structure Inv (c : unordered_lru_cache Key Value) : Prop where
  nodup : (c.cacheMap.map (·.1)).Nodup
  counter_lt : ∀ e ∈ c.cacheMap, e.2.2 < c.accessCounter

theorem cacheMap_init {_maxSize _truncateThreshold : Nat} {c : unordered_lru_cache Key Value}
    (h : init _maxSize _truncateThreshold = some c) : c.cacheMap = [] := by
  unfold init at h
  split at h
  · cases h
  · cases h
    rfl

theorem inv_init {_maxSize _truncateThreshold : Nat} {c : unordered_lru_cache Key Value}
    (h : init _maxSize _truncateThreshold = some c) : Inv c := by
  have hnil := cacheMap_init h
  exact ⟨by rw [hnil]; exact List.nodup_nil, fun _ he => by rw [hnil] at he; cases he⟩

theorem truncate_sublist (c : unordered_lru_cache Key Value) :
    ∃ l, l.Perm c.cacheMap ∧ (truncate_if_needed c).cacheMap.Sublist l := by
  unfold truncate_if_needed
  split
  · exact ⟨_, List.Perm.refl _, List.Sublist.refl _⟩
  · exact ⟨_, List.mergeSort_perm _ _, List.take_sublist _ _⟩

theorem mem_truncate {c : unordered_lru_cache Key Value} {e : Key × Value × Nat}
    (he : e ∈ (truncate_if_needed c).cacheMap) : e ∈ c.cacheMap := by
  obtain ⟨l, hperm, hsub⟩ := truncate_sublist c
  exact hperm.mem_iff.mp (hsub.subset he)

@[simp] theorem accessCounter_truncate (c : unordered_lru_cache Key Value) :
    (truncate_if_needed c).accessCounter = c.accessCounter := by
  unfold truncate_if_needed
  split <;> rfl

@[simp] theorem maxSize_truncate (c : unordered_lru_cache Key Value) :
    (truncate_if_needed c).maxSize = c.maxSize := by
  unfold truncate_if_needed
  split <;> rfl

@[simp] theorem truncateThreshold_truncate (c : unordered_lru_cache Key Value) :
    (truncate_if_needed c).truncateThreshold = c.truncateThreshold := by
  unfold truncate_if_needed
  split <;> rfl

theorem Inv.truncate {c : unordered_lru_cache Key Value} (hc : Inv c) : Inv (truncate_if_needed c) where
  nodup := by
    obtain ⟨l, hperm, hsub⟩ := truncate_sublist c
    exact ((hperm.map _).nodup_iff.mpr hc.nodup).sublist (hsub.map _)
  counter_lt e he := by
    rw [accessCounter_truncate]
    exact hc.counter_lt e (mem_truncate he)

theorem length_truncate_le {c : unordered_lru_cache Key Value} (h : c.maxSize ≤ c.truncateThreshold) :
    (truncate_if_needed c).cacheMap.length ≤ c.truncateThreshold := by
  unfold truncate_if_needed
  split
  · assumption
  · rw [List.length_take]
    exact (Nat.min_le_left _ _).trans h

/-- The retention invariant: `k` is cached with `v`, and each entry at least as new is of `k`
or of a key in `F`, the keys used since. -/
def Recent (m : List (Key × Value × Nat)) (k : Key) (v : Value) (F : Finset Key) : Prop :=
  ∃ n, (k, v, n) ∈ m ∧ ∀ e ∈ m, n ≤ e.2.2 → e.1 = k ∨ e.1 ∈ F

theorem Recent.mono {k : Key} {v : Value} {F : Finset Key} {m : List (Key × Value × Nat)} (h : Recent m k v F) {G : Finset Key} (hFG : F ⊆ G) :
    Recent m k v G := by
  obtain ⟨n, hmem, hnewer⟩ := h
  refine ⟨n, hmem, fun e he hle => ?_⟩
  rcases hnewer e he hle with hk | hF
  · exact .inl hk
  · exact .inr (hFG hF)

theorem Recent.of_entries {k : Key} {v : Value} {F : Finset Key} {m m' : List (Key × Value × Nat)} (h : Recent m k v F)
    (hk : ∀ n, (k, v, n) ∈ m → (k, v, n) ∈ m') (hnew : ∀ e ∈ m', e ∈ m ∨ e.1 ∈ F) :
    Recent m' k v F := by
  obtain ⟨n, hmem, hnewer⟩ := h
  refine ⟨n, hk n hmem, fun e he hle => ?_⟩
  rcases hnew e he with he | hF
  · exact hnewer e he hle
  · exact .inr hF

theorem Recent.append {k : Key} {v : Value} {F : Finset Key} {m : List (Key × Value × Nat)} (h : Recent m k v F) {key : Key} (hF : key ∈ F)
    (v' : Value) (n : Nat) : Recent (m ++ [(key, v', n)]) k v F := by
  refine h.of_entries (fun _ hn => List.mem_append_left _ hn) fun e he => ?_
  rcases List.mem_append.mp he with he | he
  · exact .inl he
  · rw [List.mem_singleton] at he
    exact .inr (he ▸ hF)

variable [DecidableEq Key]

theorem find_of_mem {c : unordered_lru_cache Key Value} (hc : Inv c) {e : Key × Value × Nat}
    (he : e ∈ c.cacheMap) : find c e.1 = some e :=
  find?_key_of_mem hc.nodup he

theorem mem_of_find {c : unordered_lru_cache Key Value} {key : Key} {e : Key × Value × Nat}
    (h : find c key = some e) : e ∈ c.cacheMap ∧ e.1 = key :=
  ⟨List.mem_of_find?_eq_some h, by simpa using List.find?_some h⟩

theorem find_eq_none {c : unordered_lru_cache Key Value} {key : Key} (h : find c key = none) :
    ∀ e ∈ c.cacheMap, e.1 ≠ key := by
  intro e he hkey
  exact List.find?_eq_none.mp h e he (by simpa using hkey)

theorem keys_setEntry (c : unordered_lru_cache Key Value) (key : Key) (v : Value) (n : Nat) :
    (setEntry c key (key, v, n)).map (·.1) = c.cacheMap.map (·.1) := by
  rw [setEntry, List.map_map]
  apply List.map_congr_left
  intro e _
  by_cases he : e.1 = key <;> simp [he]

theorem mem_setEntry {c : unordered_lru_cache Key Value} {key : Key} {e new : Key × Value × Nat}
    (he : e ∈ setEntry c key new) : e = new ∨ (e ∈ c.cacheMap ∧ e.1 ≠ key) := by
  obtain ⟨e', he', rfl⟩ := List.mem_map.mp he
  by_cases hkey : e'.1 = key
  · exact .inl (by simp [hkey])
  · exact .inr ⟨by simpa [hkey] using he', by simp [hkey]⟩

theorem length_setEntry (c : unordered_lru_cache Key Value) (key : Key) (e : Key × Value × Nat) :
    (setEntry c key e).length = c.cacheMap.length :=
  List.length_map _

theorem mem_setEntry_self {c : unordered_lru_cache Key Value} {key : Key} {e new : Key × Value × Nat}
    (h : find c key = some e) : new ∈ setEntry c key new := by
  obtain ⟨he, hkey⟩ := mem_of_find h
  exact List.mem_map.mpr ⟨e, he, by simp [hkey]⟩

theorem mem_setEntry_of_ne {c : unordered_lru_cache Key Value} {key : Key} {e new : Key × Value × Nat}
    (he : e ∈ c.cacheMap) (hkey : e.1 ≠ key) : e ∈ setEntry c key new :=
  List.mem_map.mpr ⟨e, he, by simp [hkey]⟩

theorem Inv.touch {c : unordered_lru_cache Key Value} (hc : Inv c) (key : Key) (v : Value) :
    Inv { c with cacheMap := setEntry c key (key, v, c.accessCounter),
                 accessCounter := c.accessCounter + 1 } where
  nodup := by
    show ((setEntry c key (key, v, c.accessCounter)).map (·.1)).Nodup
    rw [keys_setEntry]
    exact hc.nodup
  counter_lt e he := by
    rcases mem_setEntry he with rfl | ⟨he, _⟩
    · exact Nat.lt_succ_self _
    · exact Nat.lt_succ_of_lt (hc.counter_lt e he)

theorem Inv.add {c : unordered_lru_cache Key Value} (hc : Inv c) {key : Key} (hnone : find c key = none)
    (v : Value) :
    Inv { c with cacheMap := c.cacheMap ++ [(key, v, c.accessCounter)],
                 accessCounter := c.accessCounter + 1 } where
  nodup := by
    show ((c.cacheMap ++ [(key, v, c.accessCounter)]).map (·.1)).Nodup
    rw [List.map_append, List.nodup_append]
    refine ⟨hc.nodup, List.nodup_singleton _, ?_⟩
    intro a ha b hb hab
    obtain ⟨e, he, rfl⟩ := List.mem_map.mp ha
    simp only [List.map_cons, List.map_nil, List.mem_singleton] at hb
    exact find_eq_none hnone e he (hab.trans hb)
  counter_lt e he := by
    rcases List.mem_append.mp he with he | he
    · exact Nat.lt_succ_of_lt (hc.counter_lt e he)
    · simp only [List.mem_singleton] at he
      rw [he]
      exact Nat.lt_succ_self _

theorem Inv._emplace {c : unordered_lru_cache Key Value} (hc : Inv c) (key : Key) (v : Value) :
    Inv (_emplace c key v) := by
  unfold unordered_lru_cache._emplace
  dsimp only
  split
  · rename_i hnone
    exact hc.truncate.add hnone v
  · exact hc.truncate.touch key v

theorem Inv.step {c : unordered_lru_cache Key Value} (hc : Inv c) (op : LruOp Key Value) :
    Inv (step c op) := by
  cases op with
  | insert key v => exact hc._emplace key v
  | emplace key v => exact hc._emplace key v
  | get key =>
    show Inv (get c key).2
    unfold unordered_lru_cache.get
    split
    · exact hc.touch key _
    · exact hc
  | «exists» key =>
    show Inv («exists» c key).2
    unfold unordered_lru_cache.exists
    split
    · exact hc.touch key _
    · exact hc
  | erase key =>
    exact ⟨hc.nodup.sublist ((List.filter_sublist).map _),
      fun e he => hc.counter_lt e (List.mem_filter.mp he).1⟩
  | clear => exact ⟨List.nodup_nil, fun _ h => nomatch h⟩

theorem Inv.run {c : unordered_lru_cache Key Value} (hc : Inv c) (ops : List (LruOp Key Value)) :
    Inv (run c ops) := by
  induction ops generalizing c with
  | nil => exact hc
  | cons op ops ih => exact ih (hc.step op)

theorem run_nil (c : unordered_lru_cache Key Value) : run c [] = c := rfl

theorem run_cons (c : unordered_lru_cache Key Value) (op : LruOp Key Value) (ops : List (LruOp Key Value)) :
    run c (op :: ops) = run (step c op) ops := rfl

theorem run_append (c : unordered_lru_cache Key Value) (ops₁ ops₂ : List (LruOp Key Value)) :
    run c (ops₁ ++ ops₂) = run (run c ops₁) ops₂ :=
  List.foldl_append

@[simp] theorem maxSize_step (c : unordered_lru_cache Key Value) (op : LruOp Key Value) :
    (step c op).maxSize = c.maxSize := by
  cases op <;> simp only [step, _emplace, get, «exists», erase, clear] <;> split <;> simp

@[simp] theorem truncateThreshold_step (c : unordered_lru_cache Key Value) (op : LruOp Key Value) :
    (step c op).truncateThreshold = c.truncateThreshold := by
  cases op <;> simp only [step, _emplace, get, «exists», erase, clear] <;> split <;> simp

@[simp] theorem maxSize_run (c : unordered_lru_cache Key Value) (ops : List (LruOp Key Value)) :
    (run c ops).maxSize = c.maxSize := by
  induction ops generalizing c with
  | nil => rfl
  | cons op ops ih => rw [run_cons, ih, maxSize_step]

@[simp] theorem truncateThreshold_run (c : unordered_lru_cache Key Value) (ops : List (LruOp Key Value)) :
    (run c ops).truncateThreshold = c.truncateThreshold := by
  induction ops generalizing c with
  | nil => rfl
  | cons op ops ih => rw [run_cons, ih, truncateThreshold_step]

theorem length_step_le {c : unordered_lru_cache Key Value} (h : c.maxSize ≤ c.truncateThreshold)
    (hlen : c.cacheMap.length ≤ c.truncateThreshold + 1) (op : LruOp Key Value) :
    (step c op).cacheMap.length ≤ c.truncateThreshold + 1 := by
  have hemplace : ∀ key v, (_emplace c key v).cacheMap.length ≤ c.truncateThreshold + 1 := by
    intro key v
    have ht := length_truncate_le h
    unfold unordered_lru_cache._emplace
    dsimp only
    split
    · rw [List.length_append, List.length_singleton]
      omega
    · rw [length_setEntry]
      omega
  cases op with
  | insert key v => exact hemplace key v
  | emplace key v => exact hemplace key v
  | get key =>
    show (get c key).2.cacheMap.length ≤ _
    unfold unordered_lru_cache.get
    split
    · rw [length_setEntry]
      exact hlen
    · exact hlen
  | «exists» key =>
    show («exists» c key).2.cacheMap.length ≤ _
    unfold unordered_lru_cache.exists
    split
    · rw [length_setEntry]
      exact hlen
    · exact hlen
  | erase key => exact (List.length_filter_le _ _).trans hlen
  | clear => exact Nat.zero_le _

theorem length_run_le {c : unordered_lru_cache Key Value} (h : c.maxSize ≤ c.truncateThreshold)
    (hlen : c.cacheMap.length ≤ c.truncateThreshold + 1) (ops : List (LruOp Key Value)) :
    (run c ops).cacheMap.length ≤ c.truncateThreshold + 1 := by
  induction ops generalizing c with
  | nil => exact hlen
  | cons op ops ih =>
    have hstep := length_step_le h hlen op
    rw [run_cons, ← truncateThreshold_step c op]
    exact ih (by rwa [maxSize_step, truncateThreshold_step]) (by rwa [truncateThreshold_step])

section Retention

variable {k : Key} {v : Value} {F : Finset Key}

theorem Recent.truncate {c : unordered_lru_cache Key Value} (hc : Inv c) (h : Recent c.cacheMap k v F)
    (hcard : (insert k F).card ≤ c.maxSize) : Recent (truncate_if_needed c).cacheMap k v F := by
  obtain ⟨n, hmem, hnewer⟩ := h
  refine ⟨n, ?_, fun e he hle => hnewer e (mem_truncate he) hle⟩
  unfold truncate_if_needed
  split
  · exact hmem
  · have hperm := List.mergeSort_perm c.cacheMap fun e₁ e₂ => decide (e₂.2.2 ≤ e₁.2.2)
    have hsorted : (c.cacheMap.mergeSort fun e₁ e₂ => decide (e₂.2.2 ≤ e₁.2.2)).Pairwise
        fun e₁ e₂ => decide (e₂.2.2 ≤ e₁.2.2) :=
      List.pairwise_mergeSort
        (fun a b c hab hbc => by simp only [decide_eq_true_eq] at *; omega)
        (fun a b => by simp only [Bool.or_eq_true, decide_eq_true_eq]; omega) c.cacheMap
    refine Selection.mem_take_of_countP_le hsorted (hperm.mem_iff.mpr hmem) (by simp) ?_
    calc _ ≤ (insert k F).card := by
          refine countP_le_card ((hperm.map _).nodup_iff.mpr hc.nodup) _ _ fun e he hle => ?_
          simp only [decide_eq_true_eq] at hle
          rcases hnewer e (hperm.mem_iff.mp he) hle with hk | hF
          · exact Finset.mem_insert.mpr (.inl hk)
          · exact Finset.mem_insert_of_mem hF
      _ ≤ c.maxSize := hcard

theorem Recent.setEntry {c : unordered_lru_cache Key Value} (h : Recent c.cacheMap k v F) {key : Key}
    (hkey : key ≠ k) (hF : key ∈ F) (v' : Value) (n : Nat) :
    Recent (setEntry c key (key, v', n)) k v F := by
  refine h.of_entries (fun _ hn => mem_setEntry_of_ne hn hkey.symm) fun e he => ?_
  rcases mem_setEntry he with rfl | ⟨he, _⟩
  · exact .inr hF
  · exact .inl he

theorem Recent._emplace {c : unordered_lru_cache Key Value} (hc : Inv c) (h : Recent c.cacheMap k v F)
    (hcard : (insert k F).card ≤ c.maxSize) {key : Key} (hkey : key ≠ k) (hF : key ∈ F) (v' : Value) :
    Recent (_emplace c key v').cacheMap k v F := by
  have ht := h.truncate hc hcard
  unfold unordered_lru_cache._emplace
  dsimp only
  split
  · exact ht.append hF v' _
  · exact ht.setEntry hkey hF v' _

theorem Recent.step {c : unordered_lru_cache Key Value} (hc : Inv c) (h : Recent c.cacheMap k v F)
    (hcard : (insert k F).card ≤ c.maxSize) {op : LruOp Key Value}
    (hop : op.touches ≠ some k ∧ op ≠ .erase k ∧ op ≠ .clear) (hF : ∀ key, op.touches = some key → key ∈ F) :
    Recent (step c op).cacheMap k v F := by
  obtain ⟨htouch, herase, hclear⟩ := hop
  cases op with
  | insert key v' =>
    exact h._emplace hc hcard (fun hk => htouch (congrArg some hk)) (hF key rfl) v'
  | emplace key v' =>
    exact h._emplace hc hcard (fun hk => htouch (congrArg some hk)) (hF key rfl) v'
  | get key =>
    show Recent (get c key).2.cacheMap k v F
    unfold unordered_lru_cache.get
    split
    · exact h.setEntry (fun hk => htouch (congrArg some hk)) (hF key rfl) _ _
    · exact h
  | «exists» key =>
    show Recent («exists» c key).2.cacheMap k v F
    unfold unordered_lru_cache.exists
    split
    · exact h.setEntry (fun hk => htouch (congrArg some hk)) (hF key rfl) _ _
    · exact h
  | erase key =>
    have hkey : key ≠ k := fun hk => herase (hk ▸ rfl)
    refine h.of_entries (fun _ hn => List.mem_filter.mpr ⟨hn, by simpa using hkey.symm⟩)
      fun e he => .inl (List.mem_filter.mp he).1
  | clear => exact absurd rfl hclear

theorem Recent.run {c : unordered_lru_cache Key Value} (hc : Inv c) (h : Recent c.cacheMap k v F)
    (hcard : (insert k F).card ≤ c.maxSize) {ops : List (LruOp Key Value)}
    (hops : ∀ op ∈ ops, op.touches ≠ some k ∧ op ≠ .erase k ∧ op ≠ .clear)
    (hF : ∀ op ∈ ops, ∀ key, op.touches = some key → key ∈ F) :
    Recent (run c ops).cacheMap k v F := by
  induction ops generalizing c with
  | nil => exact h
  | cons op ops ih =>
    rw [run_cons]
    refine ih (hc.step op) (h.step hc hcard (hops op (.head _)) (hF op (.head _))) ?_
      (fun op' hop' => hops op' (.tail _ hop')) (fun op' hop' => hF op' (.tail _ hop'))
    rwa [maxSize_step]

end Retention

theorem mem_of_get {c : unordered_lru_cache Key Value} {key : Key} {v : Value}
    (h : (get c key).1 = some v) : ∃ n, (key, v, n) ∈ c.cacheMap := by
  unfold unordered_lru_cache.get at h
  split at h
  · rename_i n hfind
    cases h
    obtain ⟨hmem, hkey⟩ := mem_of_find hfind
    exact ⟨n, hkey ▸ hmem⟩
  · cases h

theorem get_of_mem {c : unordered_lru_cache Key Value} (hc : Inv c) {key : Key} {v : Value} {n : Nat}
    (h : (key, v, n) ∈ c.cacheMap) : (get c key).1 = some v := by
  have hfind : find c key = some (key, v, n) := find_of_mem hc h
  unfold unordered_lru_cache.get
  rw [hfind]

theorem get_emplace {c : unordered_lru_cache Key Value} (hc : Inv c) (key : Key) (v : Value) :
    (get (_emplace c key v) key).1 = some v := by
  have hmem : (key, v, c.accessCounter) ∈ (_emplace c key v).cacheMap := by
    unfold unordered_lru_cache._emplace
    dsimp only
    rw [accessCounter_truncate]
    split
    · exact List.mem_append_right _ (List.mem_singleton_self _)
    · rename_i hfind
      exact mem_setEntry_self hfind
  exact get_of_mem (hc._emplace key v) hmem

/-- After a call using `key`, its entry holds the counter `n` the call handed out and every
other entry an older one. -/
def NewestIs (m : List (Key × Value × Nat)) (key : Key) (n : Nat) : Prop :=
  ∀ e ∈ m, (e.1 = key → e.2.2 = n) ∧ (e.1 ≠ key → e.2.2 < n)

theorem newestIs_of_find_none {c : unordered_lru_cache Key Value} (hc : Inv c) {key : Key}
    (hnone : find c key = none) : NewestIs c.cacheMap key c.accessCounter :=
  fun e he => ⟨fun h => absurd h (find_eq_none hnone e he), fun _ => hc.counter_lt e he⟩

theorem newestIs_setEntry {c : unordered_lru_cache Key Value} (hc : Inv c) (key : Key) (v : Value) :
    NewestIs (setEntry c key (key, v, c.accessCounter)) key c.accessCounter := by
  intro e he
  rcases mem_setEntry he with rfl | ⟨he, hne⟩
  · exact ⟨fun _ => rfl, fun h => absurd rfl h⟩
  · exact ⟨fun h => absurd h hne, fun _ => hc.counter_lt e he⟩

theorem newestIs_append {c : unordered_lru_cache Key Value} (hc : Inv c) {key : Key}
    (hnone : find c key = none) (v : Value) :
    NewestIs (c.cacheMap ++ [(key, v, c.accessCounter)]) key c.accessCounter := by
  intro e he
  rcases List.mem_append.mp he with he | he
  · exact newestIs_of_find_none hc hnone e he
  · rw [List.mem_singleton] at he
    subst he
    exact ⟨fun _ => rfl, fun h => absurd rfl h⟩

theorem newestIs_step {c : unordered_lru_cache Key Value} (hc : Inv c) {op : LruOp Key Value} {key : Key}
    (hop : op.touches = some key) : NewestIs (step c op).cacheMap key c.accessCounter := by
  have hemplace : ∀ v, NewestIs (_emplace c key v).cacheMap key c.accessCounter := by
    intro v
    unfold unordered_lru_cache._emplace
    dsimp only
    rw [← accessCounter_truncate c]
    split
    · rename_i hnone
      exact newestIs_append hc.truncate hnone v
    · exact newestIs_setEntry hc.truncate key v
  cases op with
  | insert key' v =>
    cases hop
    exact hemplace v
  | emplace key' v =>
    cases hop
    exact hemplace v
  | get key' =>
    cases hop
    show NewestIs (get c key).2.cacheMap key c.accessCounter
    unfold unordered_lru_cache.get
    split
    · exact newestIs_setEntry hc key _
    · rename_i hnone
      exact newestIs_of_find_none hc hnone
  | «exists» key' =>
    cases hop
    show NewestIs («exists» c key).2.cacheMap key c.accessCounter
    unfold unordered_lru_cache.exists
    split
    · exact newestIs_setEntry hc key _
    · rename_i hnone
      exact newestIs_of_find_none hc hnone
  | erase key' => cases hop
  | clear => cases hop

theorem NewestIs.recent {m : List (Key × Value × Nat)} {key : Key} {n : Nat} (h : NewestIs m key n)
    {v : Value} {n' : Nat} (hmem : (key, v, n') ∈ m) : Recent m key v ∅ := by
  have hn : n' = n := (h _ hmem).1 rfl
  refine ⟨n', hmem, fun e he hle => .inl ?_⟩
  by_contra hne
  have hlt := (h e he).2 hne
  omega

theorem get_of_recent {c : unordered_lru_cache Key Value} (hc : Inv c) {k : Key} {v : Value}
    {F : Finset Key} (h : Recent c.cacheMap k v F) : (get c k).1 = some v :=
  let ⟨_, hmem, _⟩ := h
  get_of_mem hc hmem

/-- A constructed cache with `maxSize ≤ truncateThreshold`, over every run: (a) it holds at most
`truncateThreshold + 1` entries; `insert` and `emplace` store their value; and (b) a key that
held `v` after its last use is still read back as `v` when since then it was neither erased nor
cleared and fewer than `maxSize` keys were used. -/
theorem lru_cache_keeps_recent {_maxSize _truncateThreshold : Nat} {c : unordered_lru_cache Key Value}
    (hinit : init _maxSize _truncateThreshold = some c) (hsize : c.maxSize ≤ c.truncateThreshold) :
    (∀ ops, (run c ops).cacheMap.length ≤ c.truncateThreshold + 1) ∧
    (∀ ops k v, (get (run c (ops ++ [.insert k v])) k).1 = some v ∧
      (get (run c (ops ++ [.emplace k v])) k).1 = some v) ∧
    (∀ ops₁ a ops₂ k v, a.touches = some k → (get (run c (ops₁ ++ [a])) k).1 = some v →
      (∀ op ∈ ops₂, op.touches ≠ some k ∧ op ≠ .erase k ∧ op ≠ .clear) →
      (ops₂.filterMap LruOp.touches).toFinset.card < c.maxSize →
      (get (run c (ops₁ ++ [a] ++ ops₂)) k).1 = some v) := by
  have hc := inv_init hinit
  refine ⟨fun ops => length_run_le hsize ?_ ops, fun ops k v => ?_, ?_⟩
  · rw [cacheMap_init hinit]
    exact Nat.zero_le _
  · rw [run_append, run_append]
    exact ⟨get_emplace (hc.run ops) k v, get_emplace (hc.run ops) k v⟩
  · intro ops₁ a ops₂ k v ha hget hops hcard
    set c₁ := run c ops₁
    have hc₁ : Inv c₁ := hc.run ops₁
    have h₁ : run c (ops₁ ++ [a]) = step c₁ a := by rw [run_append]; rfl
    have h₂ : run c (ops₁ ++ [a] ++ ops₂) = run (step c₁ a) ops₂ := by rw [run_append, h₁]
    rw [h₁] at hget
    rw [h₂]
    obtain ⟨n, hmem⟩ := mem_of_get hget
    set F := (ops₂.filterMap LruOp.touches).toFinset
    have hrecent : Recent (step c₁ a).cacheMap k v F :=
      ((newestIs_step hc₁ ha).recent hmem).mono (Finset.empty_subset F)
    have hcard' : (insert k F).card ≤ (step c₁ a).maxSize := by
      rw [maxSize_step, maxSize_run]
      exact (Finset.card_insert_le k F).trans hcard
    have hF : ∀ op ∈ ops₂, ∀ key, op.touches = some key → key ∈ F :=
      fun op hop key hkey => List.mem_toFinset.mpr (List.mem_filterMap.mpr ⟨op, hop, hkey⟩)
    exact get_of_recent ((hc₁.step a).run ops₂) (hrecent.run (hc₁.step a) hcard' hops hF)

/-- With room for two keys: key 1, inserted first, survives the use of one other key. -/
theorem two_key_cache_keeps_recent :
    (get (run (⟨[], 2, 4, 0⟩ : unordered_lru_cache Nat Nat)
      ([] ++ [.insert 1 10] ++ [.insert 3 30, .get 3, .insert 3 31, .erase 3])) 1).1 = some 10 := by
  have h := @lru_cache_keeps_recent Nat Nat _ 2 0 ⟨[], 2, 4, 0⟩ rfl (by decide)
  exact h.2.2 [] (.insert 1 10) _ 1 10 rfl (h.2.1 [] 1 10).1 (by decide) (by decide)

end unordered_lru_cache

end DashCore
