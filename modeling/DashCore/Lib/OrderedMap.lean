import DashCore.Lib.Selection

/-! Ordered maps as a program sees them through reads and iterators. A `Cursor` walks keys
with `Valid`, `GetKey` and `Next`, where `Next` of a valid cursor brings it closer to its end,
and `Cursor.keys` is what a loop of `Next` until `!Valid` visits. An `OrderedStore` reads keys
and seeks cursors; it behaves as a map `m` (`BehavesAs`) when its reads are those of `m` and its
cursors list the keys of `m` from the seek key on, once each and in increasing order.

Sorted association lists, searched and updated through a strict total order alone as a
`std::map` is, are the maps such stores are built of. -/
namespace OrderedMap

open Selection

section Cursor

variable {It κ : Type}

structure Cursor (It κ : Type) where
  Valid : It → Bool
  GetKey : It → κ
  Next : It → It
  rank : It → Nat
  next_lt : ∀ it, Valid it = true → rank (Next it) < rank it

def Cursor.keys (c : Cursor It κ) (it : It) : List κ :=
  if c.Valid it = true then c.GetKey it :: c.keys (c.Next it) else []
termination_by c.rank it
decreasing_by exact c.next_lt it ‹_›

theorem Cursor.keys_of_valid (c : Cursor It κ) {it : It} (h : c.Valid it = true) :
    c.keys it = c.GetKey it :: c.keys (c.Next it) := by
  rw [Cursor.keys, if_pos h]

theorem Cursor.keys_of_not_valid (c : Cursor It κ) {it : It} (h : c.Valid it = false) :
    c.keys it = [] := by
  rw [Cursor.keys, if_neg (by rw [h]; decide)]

end Cursor

variable {κ : Type} (lt : κ → κ → Bool)

structure ListsKeys (p : κ → Prop) (l : List κ) : Prop where
  sorted : l.Pairwise fun a b => lt a b = true
  mem_iff : ∀ k, k ∈ l ↔ p k

structure OrderedStore (It κ β : Type) where
  Read : κ → Option β
  Exists : κ → Bool
  cursor : Cursor It κ
  Seek : κ → It
  SeekToFirst : It

/-- The store reads `m`, and its cursors list the keys of `m`: all of them, or those from the
seek key on. -/
structure OrderedStore.BehavesAs {It β : Type} (S : OrderedStore It κ β) (m : κ → Option β) :
    Prop where
  read : ∀ k, S.Read k = m k
  exists_eq : ∀ k, S.Exists k = (m k).isSome
  seek : ∀ k₀, ListsKeys lt (fun k => lt k k₀ = false ∧ (m k).isSome) (S.cursor.keys (S.Seek k₀))
  seekToFirst : ListsKeys lt (fun k => (m k).isSome) (S.cursor.keys S.SeekToFirst)

section Sorted

variable {β : Type}

def Sorted (m : List (κ × β)) : Prop := m.Pairwise fun a b => lt a.1 b.1 = true

def find? : List (κ × β) → κ → Option β
  | [], _ => none
  | e :: m, k => if lt e.1 k then find? m k else if lt k e.1 then none else some e.2

def lowerBound (m : List (κ × β)) (k : κ) : List (κ × β) := m.dropWhile fun e => lt e.1 k

/-- `emplace` followed by an assignment of the value: an equal key's value is replaced. -/
def insert : List (κ × β) → κ → β → List (κ × β)
  | [], k, v => [(k, v)]
  | e :: m, k, v =>
    if lt e.1 k then e :: insert m k v else if lt k e.1 then (k, v) :: e :: m else (k, v) :: m

def erase (m : List (κ × β)) (k : κ) : List (κ × β) := m.filter fun e => lt e.1 k || lt k e.1

variable {lt}

section Order

variable (ho : StrictTotalOrder lt)
include ho

theorem lt_irrefl' (a : κ) : lt a a = false := ho.toStrictWeakOrder.irrefl a

theorem ne_of_lt' {a b : κ} (h : lt a b = true) : a ≠ b := by
  rintro rfl
  rw [lt_irrefl' ho] at h
  cases h

theorem lt_or_lt_iff_ne (a b : κ) : (lt a b || lt b a) = true ↔ a ≠ b := by
  rw [Bool.or_eq_true]
  constructor
  · rintro (h | h)
    · exact ne_of_lt' ho h
    · exact (ne_of_lt' ho h).symm
  · exact ho.total a b

end Order

variable (ho : StrictTotalOrder lt)
include ho

theorem find?_eq_some_iff {m : List (κ × β)} (hs : Sorted lt m) (k : κ) (v : β) :
    find? lt m k = some v ↔ (k, v) ∈ m := by
  induction m with
  | nil => simp [find?]
  | cons e m ih =>
    obtain ⟨he, hs⟩ := List.pairwise_cons.mp hs
    rw [find?, List.mem_cons]
    by_cases hek : lt e.1 k
    · -- `e` lies below `k`: the search goes on, and `e` is not the entry of `k`
      rw [if_pos hek, ih hs]
      have hne : (k, v) ≠ e := fun h => ne_of_lt' ho hek (by rw [← h])
      simp [hne]
    · rw [if_neg hek]
      by_cases hke : lt k e.1
      · rw [if_pos hke]
        have habove : ∀ x ∈ e :: m, lt k x.1 = true := by
          intro x hx
          rcases List.mem_cons.mp hx with rfl | hx
          · exact hke
          · exact ho.trans _ _ _ hke (he x hx)
        simp only [reduceCtorEq, false_iff, not_or]
        exact ⟨fun h => ne_of_lt' ho (habove e List.mem_cons_self) (by rw [← h]),
          fun h => ne_of_lt' ho (habove _ (List.mem_cons_of_mem e h)) rfl⟩
      · rw [if_neg hke]
        have hk : e.1 = k := ho.eq_of_tie (Bool.not_eq_true _ ▸ hek) (Bool.not_eq_true _ ▸ hke)
        have hnot : (k, v) ∉ m := fun h => ne_of_lt' ho (he _ h) hk
        constructor
        · rintro ⟨⟩
          exact .inl (by rw [← hk])
        · rintro (h | h)
          · rw [← h]
          · exact absurd h hnot

theorem find?_isSome_iff {m : List (κ × β)} (hs : Sorted lt m) (k : κ) :
    (find? lt m k).isSome ↔ ∃ v, (k, v) ∈ m := by
  rw [Option.isSome_iff_exists]
  exact exists_congr fun v => find?_eq_some_iff ho hs k v

theorem find?_eq_none_iff {m : List (κ × β)} (hs : Sorted lt m) (k : κ) :
    find? lt m k = none ↔ ∀ v, (k, v) ∉ m := by
  rw [← Option.not_isSome_iff_eq_none, find?_isSome_iff ho hs, not_exists]

theorem mem_insert {m : List (κ × β)} (hs : Sorted lt m) (k : κ) (v : β) (e : κ × β) :
    e ∈ insert lt m k v ↔ e = (k, v) ∨ (e ∈ m ∧ e.1 ≠ k) := by
  induction m with
  | nil => simp [insert]
  | cons x m ih =>
    obtain ⟨hx, hs⟩ := List.pairwise_cons.mp hs
    rw [insert]
    by_cases hxk : lt x.1 k
    · rw [if_pos hxk, List.mem_cons, ih hs, List.mem_cons]
      have hne : x.1 ≠ k := ne_of_lt' ho hxk
      constructor
      · rintro (rfl | h | ⟨h, hne'⟩)
        · exact .inr ⟨.inl rfl, hne⟩
        · exact .inl h
        · exact .inr ⟨.inr h, hne'⟩
      · rintro (h | ⟨rfl | h, hne'⟩)
        · exact .inr (.inl h)
        · exact .inl rfl
        · exact .inr (.inr ⟨h, hne'⟩)
    · rw [if_neg hxk]
      by_cases hkx : lt k x.1
      · -- `k` is new and goes before `x`; every key of `x :: m` differs from it
        rw [if_pos hkx, List.mem_cons, List.mem_cons]
        have habove : ∀ y ∈ x :: m, y.1 ≠ k := by
          intro y hy
          rcases List.mem_cons.mp hy with rfl | hy
          · exact (ne_of_lt' ho hkx).symm
          · exact (ne_of_lt' ho (ho.trans _ _ _ hkx (hx y hy))).symm
        constructor
        · rintro (h | h | h)
          · exact .inl h
          · exact .inr ⟨.inl h, habove e (h ▸ List.mem_cons_self)⟩
          · exact .inr ⟨.inr h, habove e (List.mem_cons_of_mem x h)⟩
        · rintro (h | ⟨h | h, -⟩)
          · exact .inl h
          · exact .inr (.inl h)
          · exact .inr (.inr h)
      · rw [if_neg hkx, List.mem_cons, List.mem_cons]
        have hk : x.1 = k := ho.eq_of_tie (Bool.not_eq_true _ ▸ hxk) (Bool.not_eq_true _ ▸ hkx)
        constructor
        · rintro (h | h)
          · exact .inl h
          · exact .inr ⟨.inr h, fun he => ne_of_lt' ho (hx e h) (hk.trans he.symm)⟩
        · rintro (h | ⟨h | h, hne⟩)
          · exact .inl h
          · exact absurd (h ▸ hk) hne
          · exact .inr h

theorem sorted_insert {m : List (κ × β)} (hs : Sorted lt m) (k : κ) (v : β) :
    Sorted lt (insert lt m k v) := by
  induction m with
  | nil => exact List.pairwise_singleton _ _
  | cons x m ih =>
    obtain ⟨hx, hs'⟩ := List.pairwise_cons.mp hs
    rw [insert]
    by_cases hxk : lt x.1 k
    · rw [if_pos hxk]
      refine List.pairwise_cons.mpr ⟨fun y hy => ?_, ih hs'⟩
      rcases (mem_insert ho hs' k v y).mp hy with rfl | ⟨hy, -⟩
      · exact hxk
      · exact hx y hy
    · rw [if_neg hxk]
      by_cases hkx : lt k x.1
      · rw [if_pos hkx]
        refine List.pairwise_cons.mpr ⟨fun y hy => ?_, hs⟩
        rcases List.mem_cons.mp hy with rfl | hy
        · exact hkx
        · exact ho.trans _ _ _ hkx (hx y hy)
      · rw [if_neg hkx]
        have hk : x.1 = k := ho.eq_of_tie (Bool.not_eq_true _ ▸ hxk) (Bool.not_eq_true _ ▸ hkx)
        exact List.pairwise_cons.mpr ⟨fun y hy => hk ▸ hx y hy, hs'⟩

theorem mem_erase (k : κ) {m : List (κ × β)} (e : κ × β) : e ∈ erase lt m k ↔ e ∈ m ∧ e.1 ≠ k := by
  rw [erase, List.mem_filter, lt_or_lt_iff_ne ho]

omit ho in
theorem sorted_erase {m : List (κ × β)} (hs : Sorted lt m) (k : κ) : Sorted lt (erase lt m k) :=
  hs.sublist List.filter_sublist

theorem find?_insert_self {m : List (κ × β)} (hs : Sorted lt m) (k : κ) (v : β) :
    find? lt (insert lt m k v) k = some v :=
  (find?_eq_some_iff ho (sorted_insert ho hs k v) k v).mpr ((mem_insert ho hs k v _).mpr (.inl rfl))

theorem find?_insert_of_ne {m : List (κ × β)} (hs : Sorted lt m) {k k' : κ} (hne : k' ≠ k) (v : β) :
    find? lt (insert lt m k v) k' = find? lt m k' := by
  apply Option.ext
  intro w
  rw [find?_eq_some_iff ho (sorted_insert ho hs k v), find?_eq_some_iff ho hs, mem_insert ho hs]
  simp [hne]

theorem find?_erase_self {m : List (κ × β)} (hs : Sorted lt m) (k : κ) : find? lt (erase lt m k) k = none := by
  rw [find?_eq_none_iff ho (sorted_erase hs k)]
  intro v h
  exact ((mem_erase ho k _).mp h).2 rfl

theorem find?_erase_of_ne {m : List (κ × β)} (hs : Sorted lt m) {k k' : κ} (hne : k' ≠ k) :
    find? lt (erase lt m k) k' = find? lt m k' := by
  apply Option.ext
  intro w
  rw [find?_eq_some_iff ho (sorted_erase hs k), find?_eq_some_iff ho hs, mem_erase ho]
  simp [hne]

omit ho in
theorem insert_ne_nil (m : List (κ × β)) (k : κ) (v : β) : insert lt m k v ≠ [] := by
  cases m with
  | nil => exact List.cons_ne_nil _ _
  | cons e m =>
    rw [insert]
    split
    · exact List.cons_ne_nil _ _
    · split <;> exact List.cons_ne_nil _ _

omit ho in
theorem lowerBound_sublist (m : List (κ × β)) (k : κ) : (lowerBound lt m k).Sublist m :=
  (List.dropWhile_suffix _).sublist

theorem mem_lowerBound {m : List (κ × β)} (hs : Sorted lt m) (k : κ) (e : κ × β) :
    e ∈ lowerBound lt m k ↔ e ∈ m ∧ lt e.1 k = false := by
  induction m with
  | nil => simp [lowerBound]
  | cons x m ih =>
    obtain ⟨hx, hs⟩ := List.pairwise_cons.mp hs
    rw [lowerBound, List.dropWhile_cons]
    by_cases hxk : lt x.1 k
    · rw [if_pos hxk, ← lowerBound, ih hs, List.mem_cons]
      constructor
      · rintro ⟨h, hlt⟩
        exact ⟨.inr h, hlt⟩
      · rintro ⟨rfl | h, hlt⟩
        · rw [hxk] at hlt
          cases hlt
        · exact ⟨h, hlt⟩
    · rw [if_neg hxk]
      constructor
      · intro h
        refine ⟨h, ?_⟩
        rcases List.mem_cons.mp h with rfl | h
        · exact Bool.not_eq_true _ ▸ hxk
        · cases hek : lt e.1 k
          · rfl
          · exact absurd (ho.trans _ _ _ (hx e h) hek) hxk
      · exact fun h => h.1

theorem mem_keys_iff {m : List (κ × β)} (hs : Sorted lt m) (k : κ) :
    k ∈ m.map (·.1) ↔ (find? lt m k).isSome := by
  rw [find?_isSome_iff ho hs, List.mem_map]
  constructor
  · rintro ⟨e, he, rfl⟩
    exact ⟨e.2, he⟩
  · rintro ⟨v, hv⟩
    exact ⟨(k, v), hv, rfl⟩

theorem mem_keys_lowerBound {m : List (κ × β)} (hs : Sorted lt m) (k₀ k : κ) :
    k ∈ (lowerBound lt m k₀).map (·.1) ↔ (find? lt m k).isSome ∧ lt k k₀ = false := by
  rw [find?_isSome_iff ho hs, List.mem_map]
  constructor
  · rintro ⟨e, he, rfl⟩
    obtain ⟨he, hlt⟩ := (mem_lowerBound ho hs k₀ e).mp he
    exact ⟨⟨e.2, he⟩, hlt⟩
  · rintro ⟨⟨v, hv⟩, hlt⟩
    exact ⟨(k, v), (mem_lowerBound ho hs k₀ _).mpr ⟨hv, hlt⟩, rfl⟩

section Fold

variable [DecidableEq κ]

theorem find?_cons {e : κ × β} {m : List (κ × β)} (hs : Sorted lt (e :: m)) (k : κ) :
    find? lt (e :: m) k = if k = e.1 then some e.2 else find? lt m k := by
  have hm : Sorted lt m := (List.pairwise_cons.mp hs).2
  apply Option.ext
  intro v
  rw [find?_eq_some_iff ho hs, List.mem_cons]
  by_cases hk : k = e.1
  · rw [if_pos hk, Option.some_inj]
    have hnot : (k, v) ∉ m := fun h =>
      ne_of_lt' ho (List.rel_of_pairwise_cons hs h) (by rw [hk])
    constructor
    · rintro (h | h)
      · rw [← h]
      · exact absurd h hnot
    · intro h
      exact .inl (by rw [← h, hk])
  · rw [if_neg hk, find?_eq_some_iff ho hm]
    constructor
    · rintro (h | h)
      · exact absurd (by rw [← h]) hk
      · exact h
    · exact .inr

variable {σ γ : Type} (view : σ → κ → Option γ) (I : σ → Prop)

theorem foldl_erase_view (erase' : σ → κ → σ)
    (he : ∀ s k, I s → I (erase' s k) ∧ ∀ k', view (erase' s k) k' = if k' = k then none else view s k')
    {m : List (κ × β)} (hs : Sorted lt m) {s : σ} (hI : I s) :
    I (m.foldl (fun s e => erase' s e.1) s) ∧
      ∀ k, view (m.foldl (fun s e => erase' s e.1) s) k =
        if (find? lt m k).isSome then none else view s k := by
  induction m generalizing s with
  | nil => exact ⟨hI, fun k => rfl⟩
  | cons e m ih =>
    obtain ⟨hI', hview⟩ := he s e.1 hI
    obtain ⟨hIm, hviewm⟩ := ih (List.pairwise_cons.mp hs).2 hI'
    refine ⟨hIm, fun k => ?_⟩
    rw [List.foldl_cons, hviewm, hview, find?_cons ho hs]
    by_cases hk : k = e.1 <;> simp [hk]

theorem foldl_write_view (write : σ → κ → γ → σ) (f : β → γ)
    (hw : ∀ s k v, I s → I (write s k v) ∧ ∀ k', view (write s k v) k' = if k' = k then some v else view s k')
    {m : List (κ × β)} (hs : Sorted lt m) {s : σ} (hI : I s) :
    I (m.foldl (fun s e => write s e.1 (f e.2)) s) ∧
      ∀ k, view (m.foldl (fun s e => write s e.1 (f e.2)) s) k =
        ((find? lt m k).map f).or (view s k) := by
  induction m generalizing s with
  | nil => exact ⟨hI, fun k => rfl⟩
  | cons e m ih =>
    have hm : Sorted lt m := (List.pairwise_cons.mp hs).2
    obtain ⟨hI', hview⟩ := hw s e.1 (f e.2) hI
    obtain ⟨hIm, hviewm⟩ := ih hm hI'
    refine ⟨hIm, fun k => ?_⟩
    rw [List.foldl_cons, hviewm, hview, find?_cons ho hs]
    by_cases hk : k = e.1
    · -- `e` is the last write of its key: no later entry has it
      have hnone : find? lt m k = none := by
        rw [find?_eq_none_iff ho hm]
        exact fun v h => ne_of_lt' ho (List.rel_of_pairwise_cons hs h) (by rw [hk])
      subst hk
      simp [hnone]
    · simp [hk]

end Fold

end Sorted

section ListsKeys

variable {lt}

theorem ListsKeys.nil {p : κ → Prop} (h : ∀ k, ¬ p k) : ListsKeys lt p [] :=
  ⟨List.Pairwise.nil, fun k => ⟨fun hk => absurd hk List.not_mem_nil, fun hk => absurd hk (h k)⟩⟩

theorem ListsKeys.cons {p q : κ → Prop} {g : κ} {l : List κ} (hl : ListsKeys lt q l) (hg : p g)
    (hq : ∀ k, q k ↔ p k ∧ k ≠ g) (hmin : ∀ k, p k → k ≠ g → lt g k = true) :
    ListsKeys lt p (g :: l) where
  sorted := List.pairwise_cons.mpr ⟨fun k hk => ((hq k).mp ((hl.mem_iff k).mp hk)).elim (hmin k),
    hl.sorted⟩
  mem_iff k := by
    rw [List.mem_cons, hl.mem_iff, hq]
    constructor
    · rintro (rfl | h)
      · exact hg
      · exact h.1
    · intro hk
      by_cases hkg : k = g
      · exact .inl hkg
      · exact .inr ⟨hk, hkg⟩

theorem ListsKeys.congr {p q : κ → Prop} {l : List κ} (hl : ListsKeys lt p l) (h : ∀ k, p k ↔ q k) :
    ListsKeys lt q l :=
  ⟨hl.sorted, fun k => (hl.mem_iff k).trans (h k)⟩

end ListsKeys

section ListStore

variable {β : Type} [Inhabited κ]

def listCursor : Cursor (List (κ × β)) κ where
  Valid l := !l.isEmpty
  GetKey l := (l.head?.map (·.1)).getD default
  Next l := l.tail
  rank l := l.length
  next_lt l h := by
    cases l with
    | nil => cases h
    | cons e l => exact Nat.lt_succ_self _

theorem keys_listCursor (l : List (κ × β)) : listCursor.keys l = l.map (·.1) := by
  induction l with
  | nil => exact Cursor.keys_of_not_valid _ rfl
  | cons e l ih =>
    rw [Cursor.keys_of_valid _ rfl]
    exact congrArg _ ih

def listStore (m : List (κ × β)) : OrderedStore (List (κ × β)) κ β where
  Read := find? lt m
  Exists k := (find? lt m k).isSome
  cursor := listCursor
  Seek := lowerBound lt m
  SeekToFirst := m

variable {lt}

theorem listStore_behavesAs (ho : StrictTotalOrder lt) {m : List (κ × β)} (hs : Sorted lt m) :
    (listStore lt m).BehavesAs lt (find? lt m) where
  read _ := rfl
  exists_eq _ := rfl
  seek k₀ := by
    refine ⟨?_, fun k => ?_⟩
    · rw [listStore, keys_listCursor, List.pairwise_map]
      exact hs.sublist (lowerBound_sublist m k₀)
    · simp only [listStore, keys_listCursor, List.mem_map, find?_isSome_iff ho hs]
      constructor
      · rintro ⟨e, he, rfl⟩
        obtain ⟨he, hlt⟩ := (mem_lowerBound ho hs k₀ e).mp he
        exact ⟨hlt, e.2, he⟩
      · rintro ⟨hlt, v, hv⟩
        exact ⟨(k, v), (mem_lowerBound ho hs k₀ _).mpr ⟨hv, hlt⟩, rfl⟩
  seekToFirst := by
    refine ⟨?_, fun k => ?_⟩
    · rw [listStore, keys_listCursor, List.pairwise_map]
      exact hs
    · simp only [listStore, keys_listCursor, List.mem_map, find?_isSome_iff ho hs]
      constructor
      · rintro ⟨e, he, rfl⟩
        exact ⟨e.2, he⟩
      · rintro ⟨v, hv⟩
        exact ⟨(k, v), hv, rfl⟩

end ListStore

end OrderedMap
