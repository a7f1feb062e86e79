import Mathlib.Data.List.Basic
import Mathlib.Algebra.Group.Nat.Defs
import Mathlib.Algebra.Group.Int.Defs

/-! Readers of a byte stream. A reader takes bytes from the front of the stream and returns a
value with the bytes that remain, or fails with the message of the exception the stream
throws. A serializer is a writer `α → List UInt8` with a reader; `ReadsBack` says that the
reader undoes the writer on one value whatever follows, `RoundTrip` that it does on every value,
and their rules compose the round trips of the parts of a record into the round trip of the
record. `Consumes` says that a successful read takes at
least one byte, which is what a loop over reads needs to terminate. -/
namespace ByteReader

abbrev Reader := StateT (List UInt8) (Except String)

variable {α β : Type}

def readByte (eod : String) : Reader UInt8 := fun s =>
  match s with
  | [] => .error eod
  | b :: rest => .ok (b, rest)

def readBytes (eod : String) (n : Nat) : Reader (List UInt8) := fun s =>
  if n ≤ s.length then .ok (s.take n, s.drop n) else .error eod

@[simp] theorem readByte_cons (eod : String) (b : UInt8) (rest : List UInt8) :
    (readByte eod).run (b :: rest) = .ok (b, rest) := rfl

@[simp] theorem readByte_nil (eod : String) :
    (readByte eod).run [] = .error eod := rfl

theorem readBytes_append (eod : String) (bs rest : List UInt8) :
    (readBytes eod bs.length).run (bs ++ rest) = .ok (bs, rest) := by
  simp [readBytes, StateT.run]

theorem run_bind_eq_ok {r : Reader α} {f : α → Reader β} {s s'' : List UInt8} {b : β}
    (h : (r >>= f).run s = .ok (b, s'')) :
    ∃ a s', r.run s = .ok (a, s') ∧ (f a).run s' = .ok (b, s'') := by
  rw [StateT.run_bind] at h
  cases hr : r.run s with
  | error e => rw [hr] at h; cases h
  | ok p =>
    rw [hr] at h
    exact ⟨p.1, p.2, rfl, h⟩

theorem run_bind_of_ok {r : Reader α} {f : α → Reader β} {s s' : List UInt8} {a : α}
    (h : r.run s = .ok (a, s')) : (r >>= f).run s = (f a).run s' := by
  rw [StateT.run_bind, h]
  rfl

theorem run_bind_of_error {r : Reader α} {f : α → Reader β} {s : List UInt8} {e : String}
    (h : r.run s = .error e) : (r >>= f).run s = .error e := by
  rw [StateT.run_bind, h]
  rfl

def Consumes (r : Reader α) : Prop :=
  ∀ {s s' : List UInt8} {a : α}, r.run s = .ok (a, s') → s'.length < s.length

structure Codec (α : Type) where
  write : α → List UInt8
  read : Reader α

def ReadsAs (w : α → List UInt8) (r : Reader β) (a : α) (b : β) : Prop :=
  ∀ rest, r.run (w a ++ rest) = .ok (b, rest)

def ReadsBack (w : α → List UInt8) (r : Reader α) (a : α) : Prop := ReadsAs w r a a

/-- The reader of a codec undoes its writer on every value. -/
def RoundTrip (c : Codec α) : Prop := ∀ a, ReadsBack c.write c.read a

theorem ReadsAs.bind {w : α → List UInt8} {r : Reader β} {a : α} {b : β} (h : ReadsAs w r a b)
    {γ : Type} (f : β → Reader γ) (rest : List UInt8) :
    (r >>= f).run (w a ++ rest) = (f b).run rest :=
  run_bind_of_ok (h rest)

theorem ReadsBack.bind {w : α → List UInt8} {r : Reader α} {a : α} (h : ReadsBack w r a)
    (f : α → Reader β) (rest : List UInt8) : (r >>= f).run (w a ++ rest) = (f a).run rest :=
  ReadsAs.bind h f rest

theorem ReadsBack.map {w : α → List UInt8} {r : Reader α} {a : α} (h : ReadsBack w r a)
    (f : α → β) (rest : List UInt8) : (f <$> r).run (w a ++ rest) = .ok (f a, rest) := by
  rw [StateT.run_map, h rest]
  rfl

def readList (r : Reader α) : Nat → Reader (List α)
  | 0 => pure []
  | n + 1 => do
    let a ← r
    let as ← readList r n
    pure (a :: as)

def writeList (w : α → List UInt8) (as : List α) : List UInt8 := as.flatMap w

@[simp] theorem writeList_nil (w : α → List UInt8) : writeList w [] = [] := rfl

@[simp] theorem writeList_cons (w : α → List UInt8) (a : α) (as : List α) :
    writeList w (a :: as) = w a ++ writeList w as := rfl

theorem readList_zero (r : Reader α) (s : List UInt8) : (readList r 0).run s = .ok ([], s) := rfl

theorem readList_succ_of_ok {r : Reader α} {n : Nat} {s s' : List UInt8} {a : α}
    (h : r.run s = .ok (a, s')) :
    (readList r (n + 1)).run s = (fun p => (a :: p.1, p.2)) <$> (readList r n).run s' := by
  simp only [readList]
  rw [run_bind_of_ok h, StateT.run_bind]
  cases (readList r n).run s' <;> rfl

theorem readList_writeList_map {w : α → List UInt8} {r : Reader β} {g : α → β} {as : List α}
    (h : ∀ a ∈ as, ReadsAs w r a (g a)) :
    ReadsAs (writeList w) (readList r as.length) as (as.map g) := by
  induction as with
  | nil => exact readList_zero r
  | cons a as ih =>
    intro rest
    have ha := h a List.mem_cons_self (writeList w as ++ rest)
    have has := ih (fun b hb => h b (List.mem_cons_of_mem a hb))
    rw [writeList_cons, List.append_assoc, List.length_cons, readList_succ_of_ok ha, has rest]
    rfl

theorem readList_writeList {w : α → List UInt8} {r : Reader α} {as : List α}
    (h : ∀ a ∈ as, ReadsBack w r a) : ReadsBack (writeList w) (readList r as.length) as := by
  have hmap := readList_writeList_map (g := id) h
  rwa [List.map_id] at hmap

/-- Every value `r` returns satisfies `P`, whatever the stream: the postcondition of a reader. -/
def Ensures (r : Reader α) (P : α → Prop) : Prop :=
  ∀ s s' a, r.run s = .ok (a, s') → P a

theorem Ensures.pure {P : α → Prop} {a : α} (h : P a) : Ensures (Pure.pure a) P := by
  intro s s' b hb
  cases hb
  exact h

theorem Ensures.bind {r : Reader α} {f : α → Reader β} {Q : α → Prop} {P : β → Prop}
    (hr : Ensures r Q) (h : ∀ a, Q a → Ensures (f a) P) : Ensures (r >>= f) P := by
  intro s s'' b hb
  obtain ⟨a, s', ha, hf⟩ := run_bind_eq_ok hb
  exact h a (hr s s' a ha) s' s'' b hf

theorem Ensures.bind_any {r : Reader α} {f : α → Reader β} {P : β → Prop}
    (h : ∀ a, Ensures (f a) P) : Ensures (r >>= f) P :=
  Ensures.bind (Q := fun _ => True) (fun _ _ _ _ => trivial) fun a _ => h a

end ByteReader
