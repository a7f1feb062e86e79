import DashCore.Util.CacheMap
import DashCore.Lib.NodeMap

/-! The bounded multimap of cachemultimap.h: the items in a `std::list`, newest first, and an
index from each key to an inner map from each of its values to the item's list node. The inner
maps are values of the outer `std::map`, each in a node of its own (`NodeMap`).

`Insert` holds a reference to the key's inner map across `PruneLast`; when the pruned oldest
item is the key's only one, `PruneLast` erases the key and destroys that inner map, and the
insertion then writes through the dangling reference. The model faults there
(`Insert_faults_iff`); every other call of a cache built by its calls keeps the index exact. -/
namespace DashCore

open ByteReader

abbrev it_map_t (V : Type) := AList (fun _ : V => Nat)

structure CacheMultiMap (K V : Type) where
  nMaxSize : UInt32
  listItems : List (Nat × CacheItem K V)
  /-- `mapIndex`: each key with its inner map, in a node of its own. -/
  mapIndex : NodeMap K (it_map_t V)
  /-- The next address the allocator hands out. -/
  nextAddr : Nat

namespace CacheMultiMap

variable {K V : Type} [DecidableEq K] [DecidableEq V]

def empty (nMaxSizeIn : UInt32) : CacheMultiMap K V := ⟨nMaxSizeIn, [], NodeMap.empty, 0⟩

def GetSize (c : CacheMultiMap K V) : Nat := c.listItems.length

def HasKey (c : CacheMultiMap K V) (key : K) : Bool := decide (key ∈ c.mapIndex.index)

def deref (c : CacheMultiMap K V) (ref : Nat) : Except CacheFault (it_map_t V) :=
  match c.mapIndex.get ref with
  | some m => .ok m
  | none => .error (.useAfterFree ref)

def assign (c : CacheMultiMap K V) (ref : Nat) (m : it_map_t V) : Except CacheFault (CacheMultiMap K V) := do
  let _ ← deref c ref
  pure { c with mapIndex := c.mapIndex.set ref m }

/-- `mapIndex.find(key)`, with an empty inner map emplaced for a missing key: the map, and the
address of the key's inner map. -/
def findOrEmplace (c : CacheMultiMap K V) (key : K) : CacheMultiMap K V × Nat :=
  match c.mapIndex.index.lookup key with
  | some ref => (c, ref)
  | none => ({ c with mapIndex := c.mapIndex.emplace key ∅ c.nextAddr, nextAddr := c.nextAddr + 1 },
              c.nextAddr)

/-- `PruneLast()`: the oldest item leaves its key's inner map, the key leaves the index with an
inner map left empty, and the item leaves the list. -/
def PruneLast (c : CacheMultiMap K V) : Except CacheFault (CacheMultiMap K V) :=
  match c.listItems.getLast? with
  | none => .ok c
  | some (_, item) => do
    let c ← match c.mapIndex.index.lookup item.key with
      | none => pure c
      | some ref => do
        let mapIt := (← deref c ref).erase item.value
        let c ← assign c ref mapIt
        pure (if mapIt.entries.isEmpty then { c with mapIndex := c.mapIndex.erase item.key } else c)
    pure { c with listItems := c.listItems.dropLast }

/-- `Insert(key, value)`: `false` for an item already there; a full cache first prunes its
oldest item. The final `mapIt.emplace` goes through the reference `ref` taken before the
pruning. -/
def Insert (c : CacheMultiMap K V) (key : K) (value : V) : Except CacheFault (Bool × CacheMultiMap K V) := do
  let (c, ref) := findOrEmplace c key
  if value ∈ (← deref c ref) then return (false, c)
  let c ← if c.listItems.length = c.nMaxSize.toNat then PruneLast c else pure c
  let node := c.nextAddr
  let c := { c with listItems := (node, ⟨key, value⟩) :: c.listItems, nextAddr := node + 1 }
  let c ← assign c ref (iterMapEmplace (← deref c ref) value node)
  return (true, c)

def Erase (c : CacheMultiMap K V) (key : K) : Except CacheFault (CacheMultiMap K V) :=
  match c.mapIndex.index.lookup key with
  | none => .ok c
  | some ref => do
    let mapIt ← deref c ref
    let listItems ← mapIt.entries.foldlM (fun l e => eraseListNode l e.2) c.listItems
    pure { c with listItems, mapIndex := c.mapIndex.erase key }

def EraseValue (c : CacheMultiMap K V) (key : K) (value : V) : Except CacheFault (CacheMultiMap K V) :=
  match c.mapIndex.index.lookup key with
  | none => .ok c
  | some ref => do
    let mapIt ← deref c ref
    match mapIt.lookup value with
    | none => pure c
    | some node => do
      let listItems ← eraseListNode c.listItems node
      let mapIt := mapIt.erase value
      let c ← assign { c with listItems } ref mapIt
      pure (if mapIt.entries.isEmpty then { c with mapIndex := c.mapIndex.erase key } else c)

def Clear (c : CacheMultiMap K V) : CacheMultiMap K V := { c with mapIndex := NodeMap.empty, listItems := [] }

/-- One node of the list entered in the index, as the loop of `RebuildIndex()` does. -/
def RebuildIndexStep (c : CacheMultiMap K V) (e : Nat × CacheItem K V) :
    Except CacheFault (CacheMultiMap K V) := do
  let (c, ref) := findOrEmplace c e.2.key
  assign c ref (iterMapEmplace (← deref c ref) e.2.value e.1)

def RebuildIndex (c : CacheMultiMap K V) : Except CacheFault (CacheMultiMap K V) :=
  c.listItems.foldlM RebuildIndexStep { c with mapIndex := NodeMap.empty }

section Format

variable (wk : K → List UInt8) (rk : Reader K) (wv : V → List UInt8) (rv : Reader V)

def Serialize (c : CacheMultiMap K V) : List UInt8 :=
  ser_writedataLE 4 c.nMaxSize.toNat ++ WriteVector (CacheItem.Serialize wk wv) (c.listItems.map (·.2))

/-- Reading into `c`: the list is rebuilt of new nodes, then `RebuildIndex()`. -/
def Unserialize (c : CacheMultiMap K V) : Reader (Except CacheFault (CacheMultiMap K V)) := do
  let nMaxSize ← ser_readdataLE 4
  let items ← ReadVector (CacheItem.Unserialize rk rv)
  pure (RebuildIndex { c with nMaxSize := UInt32.ofNat nMaxSize,
                              listItems := allocNodes c.nextAddr items,
                              nextAddr := c.nextAddr + items.length })

end Format

inductive Op (K V : Type) where
  | insert (key : K) (value : V)
  | erase (key : K)
  | eraseValue (key : K) (value : V)
  | clear

def step (c : CacheMultiMap K V) : Op K V → Except CacheFault (CacheMultiMap K V)
  | .insert key value => (·.2) <$> Insert c key value
  | .erase key => Erase c key
  | .eraseValue key value => EraseValue c key value
  | .clear => .ok (Clear c)

def run (c : CacheMultiMap K V) (ops : List (Op K V)) : Except CacheFault (CacheMultiMap K V) :=
  ops.foldlM step c

/-! ### The index -/

def indexed (m : NodeMap K (it_map_t V)) (key : K) (value : V) : Option Nat :=
  (m.view key).bind (·.lookup value)

section Indexed

variable {m : NodeMap K (it_map_t V)} {next : Nat}

theorem indexed_set (hm : m.WF next) {key : K} {ref : Nat} (hk : m.index.lookup key = some ref)
    (mapIt : it_map_t V) (k : K) (v : V) :
    indexed (m.set ref mapIt) k v = if k = key then mapIt.lookup v else indexed m k v := by
  rw [indexed, NodeMap.view_set hm hk]
  by_cases h : k = key
  · rw [if_pos h, if_pos h, Option.bind_some]
  · rw [if_neg h, if_neg h, indexed]

theorem indexed_erase (hm : m.WF next) (key : K) (k : K) (v : V) :
    indexed (m.erase key) k v = if k = key then none else indexed m k v := by
  rw [indexed, NodeMap.view_erase hm]
  by_cases h : k = key
  · rw [if_pos h, if_pos h, Option.bind_none]
  · rw [if_neg h, if_neg h, indexed]

theorem indexed_emplace (hm : m.WF next) {key : K} (hk : key ∉ m.index) (k : K) (v : V) :
    indexed (m.emplace key ∅ next) k v = indexed m k v := by
  rw [indexed, NodeMap.view_emplace hm hk]
  by_cases h : k = key
  · have hnone : m.view key = none := by
      rw [← Option.not_isSome_iff_eq_none, NodeMap.view_isSome_iff hm]
      exact hk
    rw [if_pos h, Option.bind_some, AList.lookup_empty, indexed, h, hnone, Option.bind_none]
  · rw [if_neg h, indexed]

end Indexed

/-- The index is exact: the maps are well formed, the list nodes have distinct addresses below
the allocator's, and the index holds an item's node exactly when the list holds the item. -/
structure Exact (c : CacheMultiMap K V) : Prop where
  wf : c.mapIndex.WF c.nextAddr
  nodup : (c.listItems.map (·.1)).Nodup
  node_lt : ∀ e ∈ c.listItems, e.1 < c.nextAddr
  index : ∀ key value node, indexed c.mapIndex key value = some node ↔ (node, ⟨key, value⟩) ∈ c.listItems

structure Inv (c : CacheMultiMap K V) : Prop extends Exact c where
  keys : ∀ key ∈ c.mapIndex.index, ∃ e ∈ c.listItems, e.2.key = key

theorem inv_empty (nMaxSizeIn : UInt32) : Inv (empty nMaxSizeIn : CacheMultiMap K V) where
  wf := NodeMap.wf_empty 0
  nodup := List.nodup_nil
  node_lt _ h := nomatch h
  index key value node := by
    simp [empty, indexed, NodeMap.view, NodeMap.empty, AList.lookup_empty]
  keys _ h := absurd h (AList.notMem_empty _)

theorem Exact.item_unique {c : CacheMultiMap K V} (hc : Exact c) {node : Nat} {a b : CacheItem K V}
    (ha : (node, a) ∈ c.listItems) (hb : (node, b) ∈ c.listItems) : a = b :=
  (Prod.mk.inj (List.inj_on_of_nodup_map hc.nodup ha hb rfl)).2

theorem Exact.node_unique {c : CacheMultiMap K V} (hc : Exact c) {key : K} {value : V} {n n' : Nat}
    (h : (n, ⟨key, value⟩) ∈ c.listItems) (h' : (n', ⟨key, value⟩) ∈ c.listItems) : n = n' := by
  have hn := (hc.index key value n).mpr h
  rw [(hc.index key value n').mpr h'] at hn
  exact (Option.some_inj.mp hn).symm

/-! ### Reading and writing through references -/

section Refs

variable {c : CacheMultiMap K V} {ref : Nat} {m : it_map_t V}

omit [DecidableEq K] [DecidableEq V] in
theorem deref_of_get (h : c.mapIndex.get ref = some m) : deref c ref = .ok m := by
  rw [deref, h]

omit [DecidableEq K] [DecidableEq V] in
theorem assign_of_get (h : c.mapIndex.get ref = some m) (m' : it_map_t V) :
    assign c ref m' = .ok { c with mapIndex := c.mapIndex.set ref m' } := by
  rw [assign, deref_of_get h]
  rfl

theorem Exact.get_of_lookup (hc : Exact c) {key : K} (hk : c.mapIndex.index.lookup key = some ref) :
    ∃ m, c.mapIndex.get ref = some m ∧ c.mapIndex.view key = some m := by
  obtain ⟨m, hm⟩ := Option.isSome_iff_exists.mp (AList.lookup_isSome.mpr (hc.wf.live key ref hk))
  exact ⟨m, hm, by rw [NodeMap.view_eq_get hk]; exact hm⟩

end Refs

/-! ### `findOrEmplace` -/

section FindOrEmplace

variable {c : CacheMultiMap K V}

omit [DecidableEq V] in
@[simp] theorem listItems_findOrEmplace (c : CacheMultiMap K V) (key : K) :
    (findOrEmplace c key).1.listItems = c.listItems := by
  unfold findOrEmplace
  split <;> rfl

omit [DecidableEq V] in
@[simp] theorem nMaxSize_findOrEmplace (c : CacheMultiMap K V) (key : K) :
    (findOrEmplace c key).1.nMaxSize = c.nMaxSize := by
  unfold findOrEmplace
  split <;> rfl

theorem Exact.findOrEmplace_spec (hc : Exact c) (key : K) :
    Exact (findOrEmplace c key).1 ∧
      (findOrEmplace c key).1.mapIndex.index.lookup key = some (findOrEmplace c key).2 ∧
      (∀ k v, indexed (findOrEmplace c key).1.mapIndex k v = indexed c.mapIndex k v) ∧
      c.nextAddr ≤ (findOrEmplace c key).1.nextAddr := by
  unfold CacheMultiMap.findOrEmplace
  split
  · rename_i ref hk
    exact ⟨hc, hk, fun _ _ => rfl, le_rfl⟩
  · rename_i hk
    have hnot : key ∉ c.mapIndex.index := fun h => by
      rw [← AList.lookup_isSome, hk] at h
      cases h
    refine ⟨⟨hc.wf.emplace hnot ∅, hc.nodup, fun e he => Nat.lt_succ_of_lt (hc.node_lt e he),
      fun k v n => ?_⟩, NodeMap.index_lookup_emplace hnot ∅, indexed_emplace hc.wf hnot,
      Nat.le_succ _⟩
    rw [indexed_emplace hc.wf hnot]
    exact hc.index k v n

omit [DecidableEq V] in
theorem mem_findOrEmplace {c : CacheMultiMap K V} {key k : K}
    (h : k ∈ (findOrEmplace c key).1.mapIndex.index) : k = key ∨ k ∈ c.mapIndex.index := by
  unfold findOrEmplace at h
  split at h
  · exact .inr h
  · rename_i hk
    unfold NodeMap.emplace at h
    split at h
    · exact .inr h
    · exact (AList.mem_insert _).mp h

end FindOrEmplace

/-! ### `PruneLast` -/

/-- The index after the oldest item left its key's inner map at `ref`, leaving `mapIt`: the key
goes with the map when that is empty. -/
def pruneIndex (m : NodeMap K (it_map_t V)) (key : K) (ref : Nat) (mapIt : it_map_t V) :
    NodeMap K (it_map_t V) :=
  if mapIt.entries.isEmpty then (m.set ref mapIt).erase key else m.set ref mapIt

theorem lookup_of_isEmpty {mapIt : it_map_t V} (h : mapIt.entries.isEmpty = true) (v : V) :
    mapIt.lookup v = none := by
  rw [List.isEmpty_iff] at h
  rw [AList.lookup_eq_none, AList.mem_keys, AList.keys, h]
  exact List.not_mem_nil

theorem exists_lookup_of_not_isEmpty {mapIt : it_map_t V} (h : ¬mapIt.entries.isEmpty = true) :
    ∃ v n, mapIt.lookup v = some n := by
  obtain ⟨⟨v, n⟩, hmem⟩ := List.exists_mem_of_ne_nil _ (fun h' => h (List.isEmpty_iff.mpr h'))
  exact ⟨v, n, AList.mem_lookup_iff.mpr hmem⟩

section Prune

variable {m : NodeMap K (it_map_t V)} {next : Nat} {key : K} {ref : Nat} {mapIt : it_map_t V}

theorem wf_pruneIndex (hm : m.WF next) (hk : m.index.lookup key = some ref) (value : V) :
    (pruneIndex m key ref (mapIt.erase value)).WF next := by
  unfold CacheMultiMap.pruneIndex
  split
  · exact (hm.set hk _).erase key
  · exact hm.set hk _

theorem indexed_pruneIndex (hm : m.WF next) (hk : m.index.lookup key = some ref)
    (hget : m.get ref = some mapIt) (value : V) (k : K) (v : V) :
    indexed (pruneIndex m key ref (mapIt.erase value)) k v =
      if k = key ∧ v = value then none else indexed m k v := by
  have hview : m.view key = some mapIt := by rw [NodeMap.view_eq_get hk, hget]
  have hkey : ∀ v, indexed m key v = mapIt.lookup v := fun v => by rw [indexed, hview, Option.bind_some]
  unfold CacheMultiMap.pruneIndex
  split
  · rename_i hempty
    rw [indexed_erase (hm.set hk _), indexed_set hm hk]
    by_cases h : k = key
    · subst h
      rw [if_pos rfl, hkey]
      by_cases hv : v = value
      · rw [if_pos ⟨rfl, hv⟩]
      · rw [if_neg (fun h => hv h.2), ← AList.lookup_erase_ne hv, lookup_of_isEmpty hempty]
    · rw [if_neg h, if_neg h, if_neg (fun h' => h h'.1)]
  · rw [indexed_set hm hk]
    by_cases h : k = key
    · subst h
      rw [if_pos rfl, hkey]
      by_cases hv : v = value
      · rw [if_pos ⟨rfl, hv⟩, hv, AList.lookup_erase]
      · rw [if_neg (fun h => hv h.2), AList.lookup_erase_ne hv]
    · rw [if_neg h, if_neg (fun h' => h h'.1)]

theorem lookup_pruneIndex_of_ne (hk : m.index.lookup key = some ref) {k : K} (hne : k ≠ key) :
    (pruneIndex m key ref (mapIt.erase value)).index.lookup k = m.index.lookup k := by
  unfold CacheMultiMap.pruneIndex
  split
  · rw [NodeMap.erase, NodeMap.index_set, hk]
    exact AList.lookup_erase_ne hne
  · rfl

theorem mem_pruneIndex {k : K} (h : k ∈ (pruneIndex m key ref (mapIt.erase value)).index) :
    k ∈ m.index ∧ (k = key → ¬(mapIt.erase value).entries.isEmpty) := by
  unfold CacheMultiMap.pruneIndex at h
  split at h
  · rename_i hempty
    obtain ⟨hne, hmem⟩ := NodeMap.mem_index_erase.mp h
    exact ⟨hmem, fun h' => absurd h' hne⟩
  · rename_i hempty
    exact ⟨h, fun _ => hempty⟩

end Prune

section PruneLast

variable {c : CacheMultiMap K V}

theorem PruneLast_of_nil (h : c.listItems = []) : PruneLast c = .ok c := by
  rw [PruneLast, h, List.getLast?_nil]

theorem Exact.PruneLast_eq (hc : Exact c) {l : List (Nat × CacheItem K V)} {nl : Nat}
    {it : CacheItem K V} (hl : c.listItems = l ++ [(nl, it)]) :
    ∃ ref mapIt, c.mapIndex.index.lookup it.key = some ref ∧ c.mapIndex.get ref = some mapIt ∧
      mapIt.lookup it.value = some nl ∧
      PruneLast c = .ok { c with listItems := l,
                                 mapIndex := pruneIndex c.mapIndex it.key ref (mapIt.erase it.value) } := by
  have hidx : indexed c.mapIndex it.key it.value = some nl :=
    (hc.index it.key it.value nl).mpr (by rw [hl]; exact List.mem_append_right _ (List.mem_singleton_self _))
  rw [indexed] at hidx
  obtain ⟨mapIt, hview, hlookup⟩ := Option.bind_eq_some_iff.mp hidx
  obtain ⟨ref, hk, hget⟩ := Option.bind_eq_some_iff.mp hview
  refine ⟨ref, mapIt, hk, hget, hlookup, ?_⟩
  have hlast : c.listItems.getLast? = some (nl, it) := by rw [hl, List.getLast?_concat]
  unfold CacheMultiMap.PruneLast
  rw [hlast]
  simp only [hk]
  rw [deref_of_get hget]
  simp only [bind, Except.bind]
  rw [assign_of_get hget]
  simp only [pure, Except.pure, pruneIndex, hl]
  split <;> simp only [List.dropLast_concat]

theorem Exact.prune (hc : Exact c) {l : List (Nat × CacheItem K V)} (hsub : l.Sublist c.listItems)
    {nl : Nat} {it : CacheItem K V} (hmem : (nl, it) ∈ c.listItems)
    (hl : ∀ e, e ∈ l ↔ e ∈ c.listItems ∧ e.1 ≠ nl) {ref : Nat} {mapIt : it_map_t V}
    (hk : c.mapIndex.index.lookup it.key = some ref) (hget : c.mapIndex.get ref = some mapIt) :
    Exact { c with listItems := l, mapIndex := pruneIndex c.mapIndex it.key ref (mapIt.erase it.value) } := by
  refine ⟨wf_pruneIndex hc.wf hk it.value, hc.nodup.sublist (hsub.map _),
    fun e he => hc.node_lt e (hsub.subset he), fun k v n => ?_⟩
  show indexed (pruneIndex c.mapIndex it.key ref (mapIt.erase it.value)) k v = some n ↔ (n, ⟨k, v⟩) ∈ l
  rw [indexed_pruneIndex hc.wf hk hget, hl]
  split
  · rename_i hkv
    obtain ⟨rfl, rfl⟩ := hkv
    exact ⟨fun h => (nomatch h), fun h => absurd (hc.node_unique h.1 hmem) h.2⟩
  · rename_i hkv
    rw [hc.index]
    refine ⟨fun h => ⟨h, fun hn => hkv ?_⟩, fun h => h.1⟩
    subst hn
    have heq := hc.item_unique h hmem
    subst heq
    exact ⟨rfl, rfl⟩

end PruneLast

theorem Inv.of_exact {c : CacheMultiMap K V} (hc : Exact c)
    (h : ∀ key ∈ c.mapIndex.index, ∃ value node, indexed c.mapIndex key value = some node) : Inv c where
  toExact := hc
  keys key hkey := by
    obtain ⟨value, node, hidx⟩ := h key hkey
    exact ⟨_, (hc.index key value node).mp hidx, rfl⟩

theorem Exact.prune_keys {c : CacheMultiMap K V} (hc : Exact c) {l : List (Nat × CacheItem K V)}
    (hsub : l.Sublist c.listItems) {nl : Nat} {it : CacheItem K V} (hmem : (nl, it) ∈ c.listItems)
    (hl : ∀ e, e ∈ l ↔ e ∈ c.listItems ∧ e.1 ≠ nl) {ref : Nat} {mapIt : it_map_t V}
    (hk : c.mapIndex.index.lookup it.key = some ref) (hget : c.mapIndex.get ref = some mapIt) {k : K}
    (hkmem : k ∈ (pruneIndex c.mapIndex it.key ref (mapIt.erase it.value)).index)
    (hold : ∃ e ∈ c.listItems, e.2.key = k) : ∃ e ∈ l, e.2.key = k := by
  have hc' := hc.prune hsub hmem hl hk hget
  suffices ∃ v n, indexed (pruneIndex c.mapIndex it.key ref (mapIt.erase it.value)) k v = some n by
    obtain ⟨v, n, hidx⟩ := this
    exact ⟨_, (hc'.index k v n).mp hidx, rfl⟩
  by_cases h : k = it.key
  · obtain ⟨v, n, hv⟩ := exists_lookup_of_not_isEmpty ((mem_pruneIndex hkmem).2 h)
    have hvne : v ≠ it.value := fun heq => by rw [heq, AList.lookup_erase] at hv; cases hv
    refine ⟨v, n, ?_⟩
    rw [indexed_pruneIndex hc.wf hk hget, if_neg (fun h' => hvne h'.2), h, indexed,
      NodeMap.view_eq_get hk, hget, Option.bind_some, ← AList.lookup_erase_ne hvne, hv]
  · obtain ⟨e, he, hkey⟩ := hold
    refine ⟨e.2.value, e.1, ?_⟩
    rw [indexed_pruneIndex hc.wf hk hget, if_neg (fun h' => h h'.1), hc.index, ← hkey]
    exact he

theorem Exact.erase_isEmpty_iff {c : CacheMultiMap K V} (hc : Exact c) {it : CacheItem K V}
    {ref : Nat} {mapIt : it_map_t V} (hk : c.mapIndex.index.lookup it.key = some ref)
    (hget : c.mapIndex.get ref = some mapIt) :
    (mapIt.erase it.value).entries.isEmpty ↔
      ∀ e ∈ c.listItems, e.2.key = it.key → e.2.value = it.value := by
  have hkey : ∀ v, indexed c.mapIndex it.key v = mapIt.lookup v := fun v => by
    rw [indexed, NodeMap.view_eq_get hk, hget, Option.bind_some]
  constructor
  · intro hempty e he hek
    by_contra hne
    have hv : mapIt.lookup e.2.value = some e.1 := by
      rw [← hkey, ← hek]
      exact (hc.index _ _ _).mpr he
    rw [← AList.lookup_erase_ne hne, lookup_of_isEmpty hempty] at hv
    cases hv
  · intro hall
    by_contra hne
    obtain ⟨v, n, hv⟩ := exists_lookup_of_not_isEmpty hne
    have hvne : v ≠ it.value := fun heq => by rw [heq, AList.lookup_erase] at hv; cases hv
    rw [AList.lookup_erase_ne hvne, ← hkey, hc.index] at hv
    exact hvne (hall _ hv rfl)

theorem Exact.push {c : CacheMultiMap K V} (hc : Exact c) {key : K} {value : V} {ref : Nat}
    {mapIt : it_map_t V} (hk : c.mapIndex.index.lookup key = some ref)
    (hget : c.mapIndex.get ref = some mapIt) (hnot : mapIt.lookup value = none)
    (hkeys : ∀ k ∈ c.mapIndex.index, k ≠ key → ∃ e ∈ c.listItems, e.2.key = k) :
    Inv { c with listItems := (c.nextAddr, ⟨key, value⟩) :: c.listItems,
                 mapIndex := c.mapIndex.set ref (iterMapEmplace mapIt value c.nextAddr),
                 nextAddr := c.nextAddr + 1 } := by
  have hkey : ∀ v, indexed c.mapIndex key v = mapIt.lookup v := fun v => by
    rw [indexed, NodeMap.view_eq_get hk, hget, Option.bind_some]
  have hvnot : value ∉ mapIt := fun h => by rw [← AList.lookup_isSome, hnot] at h; cases h
  have hidx : ∀ k v, indexed (c.mapIndex.set ref (iterMapEmplace mapIt value c.nextAddr)) k v =
      if k = key ∧ v = value then some c.nextAddr else indexed c.mapIndex k v := fun k v => by
    rw [indexed_set hc.wf hk, lookup_iterMapEmplace_of_notMem hvnot]
    by_cases h : k = key
    · subst h
      by_cases hv : v = value
      · rw [if_pos rfl, if_pos hv, if_pos ⟨rfl, hv⟩]
      · rw [if_pos rfl, if_neg hv, if_neg (fun h' => hv h'.2), hkey]
    · rw [if_neg h, if_neg (fun h' => h h'.1)]
  have hfresh : c.nextAddr ∉ c.listItems.map (·.1) := fun h => by
    obtain ⟨e, he, heq⟩ := List.mem_map.mp h
    exact absurd (hc.node_lt e he) (by omega)
  refine Inv.of_exact ⟨(hc.wf.set hk _).mono (Nat.le_succ _), List.nodup_cons.mpr ⟨hfresh, hc.nodup⟩,
    fun e he => ?_, fun k v n => ?_⟩ fun k hmem => ?_
  · rcases List.mem_cons.mp he with rfl | he
    · exact Nat.lt_succ_self _
    · exact Nat.lt_succ_of_lt (hc.node_lt e he)
  · show indexed (c.mapIndex.set ref (iterMapEmplace mapIt value c.nextAddr)) k v = some n ↔ _
    rw [hidx, List.mem_cons]
    split
    · rename_i hkv
      obtain ⟨rfl, rfl⟩ := hkv
      have hold : (n, ⟨k, v⟩) ∉ c.listItems := fun h => by
        rw [← hc.index, hkey, hnot] at h
        cases h
      constructor
      · intro h
        cases h
        exact .inl rfl
      · rintro (h | h)
        · cases h
          rfl
        · exact absurd h hold
    · rename_i hkv
      rw [hc.index]
      refine ⟨.inr, fun h => h.resolve_left fun heq => hkv ?_⟩
      cases heq
      exact ⟨rfl, rfl⟩
  · by_cases h : k = key
    · exact ⟨value, c.nextAddr, by rw [hidx, if_pos ⟨h, rfl⟩]⟩
    · obtain ⟨e, he, hek⟩ := hkeys k hmem h
      exact ⟨e.2.value, e.1, by rw [hidx, if_neg (fun h' => h h'.1), hc.index, ← hek]; exact he⟩

/-! ### `Insert` -/

/-- The cache is full and its oldest item is `key`'s only one: the pruning before an insertion
of `key` destroys the key's inner map. -/
def Evicts (c : CacheMultiMap K V) (key : K) : Prop :=
  c.listItems.length = c.nMaxSize.toNat ∧
    ∃ node value, c.listItems.getLast? = some (node, ⟨key, value⟩) ∧
      ∀ e ∈ c.listItems, e.2.key = key → e.2.value = value

section Insert

variable {c : CacheMultiMap K V} {key : K} {value : V}

theorem Insert_of_indexed {node : Nat} (h : indexed c.mapIndex key value = some node) :
    Insert c key value = .ok (false, c) := by
  rw [indexed] at h
  obtain ⟨mapIt, hview, hlookup⟩ := Option.bind_eq_some_iff.mp h
  obtain ⟨ref, hk, hget⟩ := Option.bind_eq_some_iff.mp hview
  have hfind : findOrEmplace c key = (c, ref) := by rw [findOrEmplace, hk]
  have hmem : value ∈ mapIt := AList.lookup_isSome.mp (by rw [hlookup]; rfl)
  unfold Insert
  rw [hfind]
  simp only [deref_of_get hget, bind, Except.bind, if_pos hmem]
  rfl

theorem Exact.Insert_of_not_indexed (hc : Exact c) (h : indexed c.mapIndex key value = none) :
    Insert c key value =
      (if c.listItems.length = c.nMaxSize.toNat then PruneLast (findOrEmplace c key).1
        else .ok (findOrEmplace c key).1) >>= fun c₂ =>
        match c₂.mapIndex.get (findOrEmplace c key).2 with
        | none => .error (.useAfterFree (findOrEmplace c key).2)
        | some m₂ => .ok (true,
          { c₂ with listItems := (c₂.nextAddr, ⟨key, value⟩) :: c₂.listItems,
                    mapIndex := c₂.mapIndex.set (findOrEmplace c key).2 (iterMapEmplace m₂ value c₂.nextAddr),
                    nextAddr := c₂.nextAddr + 1 }) := by
  obtain ⟨hc₁, hk₁, hidx₁, -⟩ := hc.findOrEmplace_spec key
  obtain ⟨m₁, hget₁, hview₁⟩ := hc₁.get_of_lookup hk₁
  have hnot : value ∉ m₁ := by
    rw [← AList.lookup_isSome, Option.isSome_iff_ne_none, ne_eq, not_not]
    rw [← hidx₁ key value, indexed, hview₁, Option.bind_some] at h
    exact h
  have hlist := listItems_findOrEmplace c key
  have hmax := nMaxSize_findOrEmplace c key
  unfold Insert
  generalize findOrEmplace c key = p at hlist hmax hget₁ ⊢
  obtain ⟨c₁, ref⟩ := p
  simp only at hlist hmax hget₁ ⊢
  simp only [deref_of_get hget₁, bind, Except.bind, if_neg hnot, hlist, hmax]
  by_cases hfull : c.listItems.length = c.nMaxSize.toNat
  · rw [if_pos hfull, if_pos hfull]
    cases PruneLast c₁ with
    | error f => rfl
    | ok c₂ =>
      cases hg : c₂.mapIndex.get ref with
      | none => simp only [deref, hg]
      | some m₂ => simp only [deref, assign, hg]; rfl
  · rw [if_neg hfull, if_neg hfull]
    cases hg : c₁.mapIndex.get ref with
    | none => simp only [pure, Except.pure, deref, hg]
    | some m₂ => simp only [pure, Except.pure, deref, assign, hg]; rfl
theorem Inv.Insert_evicts (hc : Inv c) (hnot : indexed c.mapIndex key value = none)
    (hev : Evicts c key) : ∃ f, Insert c key value = .error f := by
  obtain ⟨hfull, nl, vl, hlast, hall⟩ := hev
  obtain ⟨l, hl⟩ := List.getLast?_eq_some_iff.mp hlast
  obtain ⟨hc₁, hk₁, -, -⟩ := hc.findOrEmplace_spec key
  have hlist₁ := listItems_findOrEmplace c key
  rw [hc.Insert_of_not_indexed hnot, if_pos hfull]
  generalize findOrEmplace c key = p at hc₁ hk₁ hlist₁ ⊢
  obtain ⟨c₁, ref⟩ := p
  have hl₁ : c₁.listItems = l ++ [(nl, ⟨key, vl⟩)] := hlist₁.trans hl
  obtain ⟨ref', ml, hk', hget', -, hprune⟩ := hc₁.PruneLast_eq hl₁
  have href : ref' = ref := Option.some_inj.mp (hk'.symm.trans hk₁)
  subst href
  have hempty : (ml.erase vl).entries.isEmpty := by
    refine (hc₁.erase_isEmpty_iff hk' hget').mpr fun e he hek => ?_
    rw [hlist₁] at he
    exact hall e he hek
  have hdangling : (pruneIndex c₁.mapIndex key ref' (ml.erase vl)).get ref' = none := by
    rw [pruneIndex, if_pos hempty]
    exact NodeMap.get_erase_self (by rw [NodeMap.index_set]; exact hk')
  rw [hprune]
  exact ⟨CacheFault.useAfterFree ref', by simp only [bind, Except.bind, hdangling]⟩

theorem Inv.Insert_ok (hc : Inv c) (hnot : indexed c.mapIndex key value = none)
    (hev : ¬Evicts c key) :
    ∃ c', Insert c key value = .ok (true, c') ∧ Inv c' ∧ c'.nMaxSize = c.nMaxSize ∧
      c'.listItems.map (·.2) = ⟨key, value⟩ ::
        (if c.listItems.length = c.nMaxSize.toNat then c.listItems.dropLast else c.listItems).map (·.2) := by
  obtain ⟨hc₁, hk₁, hidx₁, -⟩ := hc.findOrEmplace_spec key
  have hlist₁ := listItems_findOrEmplace c key
  have hmax₁ := nMaxSize_findOrEmplace c key
  have hkeys₁ : ∀ k ∈ (findOrEmplace c key).1.mapIndex.index, k ≠ key →
      ∃ e ∈ (findOrEmplace c key).1.listItems, e.2.key = k := fun k hk hne => by
    rw [hlist₁]
    exact hc.keys k ((mem_findOrEmplace hk).resolve_left hne)
  rw [hc.Insert_of_not_indexed hnot]
  generalize findOrEmplace c key = p at hc₁ hk₁ hidx₁ hlist₁ hmax₁ hkeys₁ ⊢
  obtain ⟨c₁, ref⟩ := p
  simp only at hc₁ hk₁ hidx₁ hlist₁ hmax₁ hkeys₁ ⊢
  have hpush : ∀ c₂ : CacheMultiMap K V, Exact c₂ → c₂.mapIndex.index.lookup key = some ref →
      indexed c₂.mapIndex key value = none →
      (∀ k ∈ c₂.mapIndex.index, k ≠ key → ∃ e ∈ c₂.listItems, e.2.key = k) →
      ∃ c', (match c₂.mapIndex.get ref with
          | none => Except.error (CacheFault.useAfterFree ref)
          | some m₂ => Except.ok (true,
            { c₂ with listItems := (c₂.nextAddr, ⟨key, value⟩) :: c₂.listItems,
                      mapIndex := c₂.mapIndex.set ref (iterMapEmplace m₂ value c₂.nextAddr),
                      nextAddr := c₂.nextAddr + 1 })) = Except.ok (true, c') ∧ Inv c' ∧
        c'.nMaxSize = c₂.nMaxSize ∧ c'.listItems.map (·.2) = ⟨key, value⟩ :: c₂.listItems.map (·.2) := by
    intro c₂ hc₂ hk₂ hnot₂ hkeys₂
    obtain ⟨m₂, hget₂, hview₂⟩ := hc₂.get_of_lookup hk₂
    have hlookup₂ : m₂.lookup value = none := by
      rw [indexed, hview₂, Option.bind_some] at hnot₂
      exact hnot₂
    exact ⟨_, by rw [hget₂], hc₂.push hk₂ hget₂ hlookup₂ hkeys₂, rfl, rfl⟩
  have hnot₁ : indexed c₁.mapIndex key value = none := by rw [hidx₁]; exact hnot
  by_cases hfull : c.listItems.length = c.nMaxSize.toNat
  · rw [if_pos hfull, if_pos hfull]
    cases hlast : c.listItems.getLast? with
    | none =>
      have hnil : c.listItems = [] := List.getLast?_eq_none_iff.mp hlast
      rw [PruneLast_of_nil (hlist₁.trans hnil)]
      obtain ⟨c', h, hinv, hmax, hitems⟩ := hpush c₁ hc₁ hk₁ hnot₁ hkeys₁
      refine ⟨c', h, hinv, hmax.trans hmax₁, ?_⟩
      rw [hitems, hlist₁, hnil]
      rfl
    | some last =>
      obtain ⟨nl, it⟩ := last
      obtain ⟨l, hl⟩ := List.getLast?_eq_some_iff.mp hlast
      have hl₁ : c₁.listItems = l ++ [(nl, it)] := hlist₁.trans hl
      obtain ⟨refl, ml, hkl, hgetl, -, hprune⟩ := hc₁.PruneLast_eq hl₁
      rw [hprune]
      -- unless the pruning evicts the key, `key` keeps its inner map at `ref`
      have hk₂ : (pruneIndex c₁.mapIndex it.key refl (ml.erase it.value)).index.lookup key = some ref := by
        by_cases hkey : key = it.key
        · have hne : ¬(ml.erase it.value).entries.isEmpty := fun hempty => hev ⟨hfull, nl, it.value,
            by rw [hlast, hkey], fun e he hek => (hc₁.erase_isEmpty_iff hkl hgetl).mp hempty e
              (by rw [hlist₁]; exact he) (hek.trans hkey)⟩
          rw [pruneIndex, if_neg hne, NodeMap.index_set]
          exact hk₁
        · rw [lookup_pruneIndex_of_ne hkl hkey]
          exact hk₁
      have hnot₂ : indexed (pruneIndex c₁.mapIndex it.key refl (ml.erase it.value)) key value = none := by
        rw [indexed_pruneIndex hc₁.wf hkl hgetl, hnot₁]
        split <;> rfl
      have hsub : l.Sublist c₁.listItems := by rw [hl₁]; exact List.sublist_append_left _ _
      have hmem : (nl, it) ∈ c₁.listItems := by rw [hl₁]; exact List.mem_append_right _ (List.mem_singleton_self _)
      have hl' : ∀ e, e ∈ l ↔ e ∈ c₁.listItems ∧ e.1 ≠ nl := by
        rw [hl₁]
        exact mem_concat_iff (hl₁ ▸ hc₁.nodup)
      obtain ⟨c', h, hinv, hmax, hitems⟩ := hpush _ (hc₁.prune hsub hmem hl' hkl hgetl) hk₂ hnot₂
        fun k hk hne => hc₁.prune_keys hsub hmem hl' hkl hgetl hk (hkeys₁ k (mem_pruneIndex hk).1 hne)
      refine ⟨c', by simp only [bind, Except.bind]; exact h, hinv, hmax.trans hmax₁, ?_⟩
      rw [hitems, hl, List.dropLast_concat]
  · rw [if_neg hfull, if_neg hfull]
    obtain ⟨c', h, hinv, hmax, hitems⟩ := hpush c₁ hc₁ hk₁ hnot₁ hkeys₁
    exact ⟨c', h, hinv, hmax.trans hmax₁, by rw [hitems, hlist₁]⟩

end Insert

/-! ### `Erase`, `Erase(key, value)` and `Clear` -/

section EraseCalls

variable {c : CacheMultiMap K V}

theorem Exact.mem_nodes_iff (hc : Exact c) {key : K} {ref : Nat} {mapIt : it_map_t V}
    (hk : c.mapIndex.index.lookup key = some ref) (hget : c.mapIndex.get ref = some mapIt)
    {e : Nat × CacheItem K V} (he : e ∈ c.listItems) :
    e.1 ∈ mapIt.entries.map (·.2) ↔ e.2.key = key := by
  have hkey : ∀ v, indexed c.mapIndex key v = mapIt.lookup v := fun v => by
    rw [indexed, NodeMap.view_eq_get hk, hget, Option.bind_some]
  constructor
  · intro hn
    obtain ⟨⟨v, n⟩, hmem, hn⟩ := List.mem_map.mp hn
    have hlookup : mapIt.lookup v = some n := AList.mem_lookup_iff.mpr hmem
    rw [← hkey, hc.index] at hlookup
    simp only at hn
    subst hn
    rw [hc.item_unique he hlookup]
  · intro hek
    have hlookup : mapIt.lookup e.2.value = some e.1 := by
      rw [← hkey, ← hek]
      exact (hc.index _ _ _).mpr he
    exact List.mem_map.mpr ⟨⟨e.2.value, e.1⟩, AList.mem_lookup_iff.mp hlookup, rfl⟩

theorem Exact.nodes_nodup (hc : Exact c) {key : K} {ref : Nat} {mapIt : it_map_t V}
    (hk : c.mapIndex.index.lookup key = some ref) (hget : c.mapIndex.get ref = some mapIt) :
    (mapIt.entries.map (·.2)).Nodup := by
  have hkey : ∀ v, indexed c.mapIndex key v = mapIt.lookup v := fun v => by
    rw [indexed, NodeMap.view_eq_get hk, hget, Option.bind_some]
  refine List.Nodup.map_on (fun x hx y hy hxy => ?_) mapIt.nodupKeys.nodup
  obtain ⟨xv, xn⟩ := x
  obtain ⟨yv, yn⟩ := y
  have hx' : (xn, ⟨key, xv⟩) ∈ c.listItems := by
    rw [← hc.index, hkey]
    exact AList.mem_lookup_iff.mpr hx
  have hy' : (yn, ⟨key, yv⟩) ∈ c.listItems := by
    rw [← hc.index, hkey]
    exact AList.mem_lookup_iff.mpr hy
  simp only at hxy
  subst hxy
  cases hc.item_unique hx' hy'
  rfl

theorem Inv.Erase (hc : Inv c) (key : K) :
    ∃ c', Erase c key = .ok c' ∧ Inv c' ∧ c'.nMaxSize = c.nMaxSize ∧
      c'.listItems = c.listItems.filter fun e => e.2.key ≠ key := by
  cases hk : c.mapIndex.index.lookup key with
  | none =>
    refine ⟨c, by rw [CacheMultiMap.Erase, hk], hc, rfl, (List.filter_eq_self.mpr fun e he => ?_).symm⟩
    have hnot : e.2.key ≠ key := fun hek => by
      have h := (hc.index e.2.key e.2.value e.1).mpr he
      rw [hek, indexed, NodeMap.view, hk, Option.bind_none, Option.bind_none] at h
      cases h
    exact decide_eq_true_iff.mpr hnot
  | some ref =>
    obtain ⟨mapIt, hget, -⟩ := hc.get_of_lookup hk
    have hlive : ∀ n ∈ mapIt.entries.map (·.2), n ∈ c.listItems.map (·.1) := fun n hn => by
      obtain ⟨⟨v, n'⟩, hmem, rfl⟩ := List.mem_map.mp hn
      have hlookup : indexed c.mapIndex key v = some n' := by
        rw [indexed, NodeMap.view_eq_get hk, hget, Option.bind_some]
        exact AList.mem_lookup_iff.mpr hmem
      exact List.mem_map.mpr ⟨_, (hc.index key v n').mp hlookup, rfl⟩
    have hfold := foldlM_eraseListNode (hc.nodes_nodup hk hget) hlive
    rw [List.foldlM_map] at hfold
    have hfilter : (c.listItems.filter fun e => e.1 ∉ mapIt.entries.map (·.2)) =
        c.listItems.filter fun e => e.2.key ≠ key :=
      List.filter_congr fun e he => by simp only [hc.mem_nodes_iff hk hget he, ne_eq]
    refine ⟨{ c with listItems := c.listItems.filter fun e => e.2.key ≠ key,
                     mapIndex := c.mapIndex.erase key }, ?_, ?_, rfl, rfl⟩
    · rw [CacheMultiMap.Erase, hk]
      simp only [deref_of_get hget, bind, Except.bind, hfold, hfilter]
      rfl
    · have hmem : ∀ e, e ∈ c.listItems.filter (fun e => e.2.key ≠ key) ↔ e ∈ c.listItems ∧ e.2.key ≠ key :=
        fun e => by rw [List.mem_filter, decide_eq_true_iff]
      refine Inv.of_exact ⟨hc.wf.erase key, hc.nodup.sublist (List.filter_sublist.map _),
        fun e he => hc.node_lt e (hmem e |>.mp he).1, fun k v n => ?_⟩ fun k hkmem => ?_
      · show indexed (c.mapIndex.erase key) k v = some n ↔ _
        rw [indexed_erase hc.wf, hmem]
        by_cases h : k = key
        · rw [if_pos h]
          exact ⟨fun h' => (by cases h'), fun h' => absurd h h'.2⟩
        · rw [if_neg h, hc.index]
          exact ⟨fun h' => ⟨h', h⟩, fun h' => h'.1⟩
      · obtain ⟨hne, hkmem⟩ := NodeMap.mem_index_erase.mp hkmem
        obtain ⟨e, he, hek⟩ := hc.keys k hkmem
        refine ⟨e.2.value, e.1, ?_⟩
        rw [indexed_erase hc.wf, if_neg hne, ← hek, hc.index]
        exact he

theorem Inv.EraseValue (hc : Inv c) (key : K) (value : V) :
    ∃ c', EraseValue c key value = .ok c' ∧ Inv c' ∧ c'.nMaxSize = c.nMaxSize ∧
      c'.listItems = c.listItems.filter fun e => e.2 ≠ ⟨key, value⟩ := by
  cases hidx : indexed c.mapIndex key value with
  | none =>
    have hnot : ∀ e ∈ c.listItems, e.2 ≠ ⟨key, value⟩ := fun e he heq => by
      have h := (hc.index key value e.1).mpr (heq ▸ he)
      rw [hidx] at h
      cases h
    refine ⟨c, ?_, hc, rfl, (List.filter_eq_self.mpr fun e he => decide_eq_true_iff.mpr (hnot e he)).symm⟩
    cases hk : c.mapIndex.index.lookup key with
    | none => rw [CacheMultiMap.EraseValue, hk]
    | some ref =>
      obtain ⟨mapIt, hget, hview⟩ := hc.get_of_lookup hk
      have hnone : mapIt.lookup value = none := by rw [indexed, hview, Option.bind_some] at hidx; exact hidx
      rw [CacheMultiMap.EraseValue, hk]
      simp only [deref_of_get hget, bind, Except.bind, hnone]
      rfl
  | some node =>
    rw [indexed] at hidx
    obtain ⟨mapIt, hview, hlookup⟩ := Option.bind_eq_some_iff.mp hidx
    obtain ⟨ref, hk, hget⟩ := Option.bind_eq_some_iff.mp hview
    have hnode : (node, ⟨key, value⟩) ∈ c.listItems := (hc.index key value node).mp (by
      rw [indexed, hview, Option.bind_some]
      exact hlookup)
    have hlist : (c.listItems.filter fun e => e.1 ≠ node) = c.listItems.filter fun e => e.2 ≠ ⟨key, value⟩ :=
      List.filter_congr fun e he => by
        congr 1
        apply propext
        refine ⟨fun h heq => h (hc.node_unique (heq ▸ he) hnode), fun h hn => h ?_⟩
        exact hc.item_unique he (hn ▸ hnode)
    have hl : ∀ e, e ∈ c.listItems.filter (fun e => e.1 ≠ node) ↔ e ∈ c.listItems ∧ e.1 ≠ node :=
      fun e => by rw [List.mem_filter, decide_eq_true_iff]
    have hsub : (c.listItems.filter fun e => e.1 ≠ node).Sublist c.listItems := List.filter_sublist
    refine ⟨{ c with listItems := c.listItems.filter fun e => e.1 ≠ node,
                     mapIndex := pruneIndex c.mapIndex key ref (mapIt.erase value) }, ?_, ?_, rfl, hlist⟩
    · rw [CacheMultiMap.EraseValue, hk]
      simp only [deref_of_get hget, bind, Except.bind, hlookup,
        eraseListNode_of_mem (List.mem_map.mpr ⟨_, hnode, rfl⟩)]
      rw [assign_of_get (c := { c with listItems := c.listItems.filter fun e => e.1 ≠ node }) hget]
      simp only [pure, Except.pure, pruneIndex]
      split <;> rfl
    · have hexact := hc.toExact.prune hsub hnode hl hk hget
      refine Inv.of_exact hexact fun k hkmem => ?_
      obtain ⟨e, he, hek⟩ := hc.toExact.prune_keys hsub hnode hl hk hget hkmem
        (hc.keys k (mem_pruneIndex hkmem).1)
      exact ⟨e.2.value, e.1, by rw [← hek]; exact (hexact.index _ _ _).mpr he⟩

theorem inv_Clear (c : CacheMultiMap K V) : Inv (Clear c) where
  wf := NodeMap.wf_empty c.nextAddr
  nodup := List.nodup_nil
  node_lt _ h := nomatch h
  index key value node := by
    simp [Clear, indexed, NodeMap.view, NodeMap.empty, AList.lookup_empty]
  keys _ h := absurd h (AList.notMem_empty _)

end EraseCalls

theorem Inv.view_nonempty {c : CacheMultiMap K V} (hc : Inv c) {key : K} {m : it_map_t V}
    (h : c.mapIndex.view key = some m) : m.entries ≠ [] := by
  have hkey : key ∈ c.mapIndex.index := (NodeMap.view_isSome_iff hc.wf key).mp (by rw [h]; rfl)
  obtain ⟨e, he, rfl⟩ := hc.keys key hkey
  have hidx := (hc.index e.2.key e.2.value e.1).mpr he
  rw [indexed, h, Option.bind_some] at hidx
  intro hnil
  rw [lookup_of_isEmpty (List.isEmpty_iff.mpr hnil)] at hidx
  cases hidx

/-! ### Runs -/

section Runs

variable {c c' : CacheMultiMap K V}

theorem Inv.step_ok (hc : Inv c) {op : Op K V} (h : step c op = .ok c') :
    Inv c' ∧ c'.nMaxSize = c.nMaxSize ∧
      (1 ≤ c.nMaxSize.toNat → c.listItems.length ≤ c.nMaxSize.toNat → c'.listItems.length ≤ c.nMaxSize.toNat) := by
  cases op with
  | insert key value =>
    cases hidx : indexed c.mapIndex key value with
    | some node =>
      rw [step, Insert_of_indexed hidx] at h
      cases h
      exact ⟨hc, rfl, fun _ hlen => hlen⟩
    | none =>
      by_cases hev : Evicts c key
      · obtain ⟨f, hf⟩ := hc.Insert_evicts hidx hev
        rw [step, hf] at h
        cases h
      · obtain ⟨c₂, h₂, hinv, hmax, hitems⟩ := hc.Insert_ok hidx hev
        rw [step, h₂] at h
        cases h
        refine ⟨hinv, hmax, fun hn hlen => ?_⟩
        have hlen' := congrArg List.length hitems
        simp only [List.length_map, List.length_cons] at hlen'
        show c₂.listItems.length ≤ _
        rw [hlen']
        split at hlen'
        · rename_i hfull
          rw [if_pos hfull, List.length_dropLast]
          omega
        · rename_i hfull
          rw [if_neg hfull]
          omega
  | erase key =>
    obtain ⟨c₂, h₂, hinv, hmax, hitems⟩ := hc.Erase key
    rw [step, h₂] at h
    cases h
    exact ⟨hinv, hmax, fun _ hlen => by rw [hitems]; exact Nat.le_trans (List.length_filter_le _ _) hlen⟩
  | eraseValue key value =>
    obtain ⟨c₂, h₂, hinv, hmax, hitems⟩ := hc.EraseValue key value
    rw [step, h₂] at h
    cases h
    exact ⟨hinv, hmax, fun _ hlen => by rw [hitems]; exact Nat.le_trans (List.length_filter_le _ _) hlen⟩
  | clear =>
    cases h
    exact ⟨inv_Clear c, rfl, fun _ _ => Nat.zero_le _⟩

theorem Inv.step_faults_iff (hc : Inv c) (op : Op K V) :
    (∃ f, step c op = .error f) ↔
      ∃ key value, op = .insert key value ∧ indexed c.mapIndex key value = none ∧ Evicts c key := by
  constructor
  · rintro ⟨f, hf⟩
    cases op with
    | insert key value =>
      refine ⟨key, value, rfl, ?_⟩
      cases hidx : indexed c.mapIndex key value with
      | some node =>
        rw [step, Insert_of_indexed hidx] at hf
        cases hf
      | none =>
        refine ⟨rfl, Classical.byContradiction fun hev => ?_⟩
        obtain ⟨c₂, h₂, -⟩ := hc.Insert_ok hidx hev
        rw [step, h₂] at hf
        cases hf
    | erase key =>
      obtain ⟨c₂, h₂, -⟩ := hc.Erase key
      rw [step, h₂] at hf
      cases hf
    | eraseValue key value =>
      obtain ⟨c₂, h₂, -⟩ := hc.EraseValue key value
      rw [step, h₂] at hf
      cases hf
    | clear => cases hf
  · rintro ⟨key, value, rfl, hidx, hev⟩
    obtain ⟨f, hf⟩ := hc.Insert_evicts hidx hev
    exact ⟨f, by rw [step, hf]; rfl⟩

theorem Inv.run (hc : Inv c) {ops : List (Op K V)} (h : run c ops = .ok c') :
    Inv c' ∧ c'.nMaxSize = c.nMaxSize ∧
      (1 ≤ c.nMaxSize.toNat → c.listItems.length ≤ c.nMaxSize.toNat → c'.listItems.length ≤ c.nMaxSize.toNat) := by
  induction ops generalizing c with
  | nil =>
    cases h
    exact ⟨hc, rfl, fun _ hlen => hlen⟩
  | cons op ops ih =>
    rw [CacheMultiMap.run, List.foldlM_cons] at h
    cases hstep : step c op with
    | error f =>
      rw [hstep] at h
      cases h
    | ok c₂ =>
      rw [hstep] at h
      obtain ⟨hinv₂, hmax₂, hlen₂⟩ := hc.step_ok hstep
      obtain ⟨hinv, hmax, hlen⟩ := ih hinv₂ h
      refine ⟨hinv, hmax.trans hmax₂, fun hn hlen₀ => ?_⟩
      rw [← hmax₂] at hn ⊢
      exact hlen hn (hmax₂ ▸ hlen₂ (hmax₂ ▸ hn) hlen₀)

end Runs

theorem Exact.indexed_eq_none_iff {c : CacheMultiMap K V} (hc : Exact c) (key : K) (value : V) :
    indexed c.mapIndex key value = none ↔ ¬∃ node, (node, ⟨key, value⟩) ∈ c.listItems := by
  rw [← Option.not_isSome_iff_eq_none, Option.isSome_iff_exists]
  exact not_congr (exists_congr fun node => hc.index key value node)

/-- A cache built by its own calls from an empty one with `nMaxSize ≥ 1`: the index holds an
item's node exactly when the list holds the item, no inner map is empty, the cache holds at most
`nMaxSize` items, `Erase` and `Erase(key, value)` do not fault, an `Insert` that does not fault
returns `false` exactly for an item already there, and an `Insert` faults exactly when its item
is new, the cache is full and the oldest item is the key's only one. -/
theorem insert_faults_iff_evicts_own_map {n : UInt32} (hn : 1 ≤ n.toNat) {ops : List (Op K V)}
    {c : CacheMultiMap K V} (hrun : run (empty n) ops = .ok c) :
    (∀ key value node, indexed c.mapIndex key value = some node ↔ (node, ⟨key, value⟩) ∈ c.listItems) ∧
    (∀ key m, c.mapIndex.view key = some m → m.entries ≠ []) ∧
    GetSize c ≤ n.toNat ∧
    (∀ key, ∃ c', Erase c key = .ok c') ∧
    (∀ key value, ∃ c', EraseValue c key value = .ok c') ∧
    (∀ key value b c', Insert c key value = .ok (b, c') →
      (b = false ↔ ∃ node, (node, ⟨key, value⟩) ∈ c.listItems)) ∧
    (∀ key value, (∃ f, Insert c key value = .error f) ↔
      (¬∃ node, (node, ⟨key, value⟩) ∈ c.listItems) ∧ Evicts c key) := by
  obtain ⟨hc, hmax, hlen⟩ := (inv_empty n).run hrun
  refine ⟨hc.index, fun _ _ h => hc.view_nonempty h, hlen hn (Nat.zero_le _),
    fun key => (hc.Erase key).imp fun _ h => h.1, fun key value => (hc.EraseValue key value).imp fun _ h => h.1,
    fun key value b c' h => ?_, fun key value => ?_⟩
  · rw [← not_iff_not, ← hc.indexed_eq_none_iff]
    cases hidx : indexed c.mapIndex key value with
    | some node =>
      rw [Insert_of_indexed hidx] at h
      cases h
      exact ⟨fun h => absurd rfl h, fun h => (nomatch h)⟩
    | none =>
      by_cases hev : Evicts c key
      · obtain ⟨f, hf⟩ := hc.Insert_evicts hidx hev
        rw [hf] at h
        cases h
      · obtain ⟨c₂, h₂, -⟩ := hc.Insert_ok hidx hev
        rw [h₂] at h
        cases h
        exact ⟨fun _ => rfl, fun _ h => nomatch h⟩
  · -- the faults of `Insert` are those of the step that inserts
    have hstep : (∃ f, Insert c key value = .error f) ↔ ∃ f, step c (.insert key value) = .error f := by
      cases h : Insert c key value <;> simp [step, h, Functor.map, Except.map]
    rw [hstep, hc.step_faults_iff, ← hc.indexed_eq_none_iff]
    simp

/-- At `nMaxSize = 1`, a second value of the key of the one item faults. -/
theorem second_value_of_only_key_faults :
    ∃ c : CacheMultiMap Nat Nat, run (empty 1) [.insert 0 0] = .ok c ∧ ∃ f, Insert c 0 1 = .error f :=
  ⟨_, rfl, ((@insert_faults_iff_evicts_own_map Nat Nat _ _ 1 (by decide) [.insert 0 0] _ rfl).2.2.2.2.2.2
    0 1).mpr ⟨fun ⟨node, h⟩ => by simp [empty] at h, rfl, 1, 0, rfl, by decide⟩⟩

end CacheMultiMap

end DashCore
