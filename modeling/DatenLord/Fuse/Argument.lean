import DatenLord.Fuse.Abi

/-!
# The argument cursor

A forward-only view over the request buffer. Every value it yields is a borrow of
that buffer, kept here as a `Slice` (a position and a length) and resolved against
the buffer on access, which is how the spec admits the zero-copy views of the
source without lifetimes. Each fetch fails without advancing when the bytes
left do not hold what it asks for.
-/
namespace DatenLord.Fuse

/-- A borrow `&data[off .. off + len]` of the request buffer. -/
structure Slice where
  off : Nat
  len : Nat
  deriving DecidableEq, Repr

/-- The bytes a slice borrows. -/
def Slice.read (data : List UInt8) (s : Slice) : List UInt8 := (data.drop s.off).take s.len

theorem Slice.read_of_drop {data v rest : List UInt8} {o : Nat} (h : data.drop o = v ++ rest) :
    Slice.read data ⟨o, v.length⟩ = v := by
  simp [read, h]

/-- `memchr::memchr`: the index of the first `c`. -/
def memchr (c : UInt8) : List UInt8 → Option Nat
  | [] => none
  | x :: xs => if x = c then some 0 else (memchr c xs).map (· + 1)

theorem memchr_lt {c : UInt8} {xs : List UInt8} {n : Nat} (h : memchr c xs = some n) :
    n < xs.length := by
  induction xs generalizing n with
  | nil => simp [memchr] at h
  | cons x xs ih =>
    unfold memchr at h
    split at h
    · cases h; simp
    · obtain ⟨m, hm, rfl⟩ := Option.map_eq_some'.1 h
      simpa using ih hm

theorem memchr_append {c : UInt8} {ys : List UInt8} (zs : List UInt8) (h : c ∉ ys) :
    memchr c (ys ++ c :: zs) = some ys.length := by
  induction ys with
  | nil => simp [memchr]
  | cons y ys ih =>
    have hy : y ≠ c := fun e => h (e ▸ List.mem_cons_self y ys)
    simp [memchr, hy, ih (fun hc => h (List.mem_cons_of_mem y hc))]

/-- `memchr` stops at the first `c`: the bytes before it hold none. -/
theorem memchr_eq_some {c : UInt8} {xs : List UInt8} {n : Nat} (h : memchr c xs = some n) :
    ∃ ys zs, xs = ys ++ c :: zs ∧ c ∉ ys ∧ ys.length = n := by
  induction xs generalizing n with
  | nil => simp [memchr] at h
  | cons x xs ih =>
    unfold memchr at h
    split at h
    · rename_i hx
      cases h
      exact ⟨[], xs, by rw [hx]; rfl, List.not_mem_nil c, rfl⟩
    · rename_i hx
      obtain ⟨m, hm, rfl⟩ := Option.map_eq_some'.1 h
      obtain ⟨ys, zs, rfl, hys, rfl⟩ := ih hm
      exact ⟨x :: ys, zs, rfl, by simp [hys, Ne.symm hx], rfl⟩

/-- Modelled from the spec: `ArgumentIterator<'a>` of `argument.rs` (§4.A), the part
of `data` not yet fetched, which starts at `off`. -/
structure ArgumentIterator (data : List UInt8) where
  off : Nat
  le : off ≤ data.length

namespace ArgumentIterator

variable {data : List UInt8}

/-- Modelled from the spec: `ArgumentIterator::new`. -/
def new (data : List UInt8) : ArgumentIterator data := ⟨0, Nat.zero_le _⟩

/-- Modelled from the spec: `ArgumentIterator::len`, the bytes not yet fetched. -/
def len (it : ArgumentIterator data) : Nat := data.length - it.off

/-- Modelled from the spec: `fetch::<T>`, a `T`-sized prefix. -/
def fetch (t : AbiStruct) : StateT (ArgumentIterator data) Option Slice := fun it =>
  if h : it.len < t.sizeOf then none
  else some (⟨it.off, t.sizeOf⟩, ⟨it.off + t.sizeOf, by have := it.le; simp only [len] at h; omega⟩)

/-- Modelled from the spec: `fetch_str`, the bytes up to the next NUL, which it
skips. -/
def fetchStr : StateT (ArgumentIterator data) Option Slice := fun it =>
  match h : memchr 0 (data.drop it.off) with
  | none => none
  | some n =>
    some (⟨it.off, n⟩, ⟨it.off + n + 1, by
      have hn := memchr_lt h; have := it.le; simp only [List.length_drop] at hn; omega⟩)

/-- Modelled from the spec: `fetch_all`, the whole remaining tail; it never fails. -/
def fetchAll : StateT (ArgumentIterator data) Option Slice := fun it =>
  some (⟨it.off, it.len⟩, ⟨data.length, le_rfl⟩)

/-- A fetch hands out a slice starting where the cursor stood and ending where the
cursor moves to. -/
def Advances (it : ArgumentIterator data) (s : Slice) (it' : ArgumentIterator data) : Prop :=
  s.off = it.off ∧ s.off + s.len ≤ it'.off

theorem fetch_advances {t : AbiStruct} {it it' : ArgumentIterator data} {s : Slice}
    (h : (fetch t).run it = some (s, it')) : Advances it s it' := by
  simp only [StateT.run, fetch] at h
  split at h
  · cases h
  · cases h; exact ⟨rfl, le_rfl⟩

theorem fetchStr_advances {it it' : ArgumentIterator data} {s : Slice}
    (h : fetchStr.run it = some (s, it')) : Advances it s it' := by
  simp only [StateT.run, fetchStr] at h
  split at h
  · cases h
  · cases h; exact ⟨rfl, by simp⟩

theorem fetchAll_advances {it it' : ArgumentIterator data} {s : Slice}
    (h : fetchAll.run it = some (s, it')) : Advances it s it' := by
  simp only [StateT.run, fetchAll, Option.some.injEq, Prod.mk.injEq] at h
  obtain ⟨rfl, rfl⟩ := h
  exact ⟨rfl, by have := it.le; simp [len]; omega⟩

/-- On `v ++ rest` with `v` of the struct's size, `fetch` borrows exactly `v`. -/
theorem fetch_complete {t : AbiStruct} {it : ArgumentIterator data} {v rest : List UInt8}
    (h : data.drop it.off = v ++ rest) (hv : v.length = t.sizeOf) :
    ∃ it', (fetch t).run it = some (⟨it.off, v.length⟩, it') ∧ data.drop it'.off = rest := by
  have hlen : t.sizeOf ≤ it.len := by
    have := congrArg List.length h
    simp only [List.length_drop, List.length_append] at this
    simp only [len]; omega
  refine ⟨_, by simp [StateT.run, fetch, hv, Nat.not_lt.2 hlen]; rfl, ?_⟩
  simp only [← List.drop_drop, h, ← hv, List.drop_left]

/-- On `v ++ NUL :: rest` with `v` free of NULs, `fetch_str` borrows exactly `v`. -/
theorem fetchStr_complete {it : ArgumentIterator data} {v rest : List UInt8}
    (h : data.drop it.off = v ++ 0 :: rest) (hv : 0 ∉ v) :
    ∃ it', fetchStr.run it = some (⟨it.off, v.length⟩, it') ∧ data.drop it'.off = rest := by
  have hm : memchr 0 (data.drop it.off) = some v.length := h ▸ memchr_append rest hv
  simp only [StateT.run, fetchStr]
  split
  · simp_all
  · rename_i n hn
    obtain rfl : n = v.length := by simpa [hm] using hn.symm
    refine ⟨_, rfl, ?_⟩
    simp only [← List.drop_drop, h, List.drop_left, List.drop_succ_cons, List.drop_zero]

/-- `fetch_all` borrows everything left. -/
theorem fetchAll_complete {it : ArgumentIterator data} {v : List UInt8}
    (h : data.drop it.off = v) :
    ∃ it', fetchAll.run it = some (⟨it.off, v.length⟩, it') ∧ data.drop it'.off = [] := by
  refine ⟨⟨data.length, le_rfl⟩, ?_, by simp⟩
  simp [StateT.run, fetchAll, len, ← h]

/-- What a fixed-size fetch borrows, read back: the converse of `fetch_complete`. -/
theorem fetch_sound {t : AbiStruct} {it it' : ArgumentIterator data} {s : Slice}
    (h : (fetch t).run it = some (s, it')) :
    ∃ v rest, data.drop it.off = v ++ rest ∧ v.length = t.sizeOf ∧ s = ⟨it.off, v.length⟩ ∧
      data.drop it'.off = rest := by
  simp only [StateT.run, fetch] at h
  split at h
  · cases h
  · rename_i hl
    cases h
    have hk : ((data.drop it.off).take t.sizeOf).length = t.sizeOf := by
      simp only [len] at hl
      simp only [List.length_take, List.length_drop]
      omega
    exact ⟨_, _, (List.take_append_drop t.sizeOf _).symm, hk, by rw [hk], by
      simp only [List.drop_drop, Nat.add_comm]⟩

theorem fetchStr_sound {it it' : ArgumentIterator data} {s : Slice}
    (h : fetchStr.run it = some (s, it')) :
    ∃ v rest, data.drop it.off = v ++ 0 :: rest ∧ 0 ∉ v ∧ s = ⟨it.off, v.length⟩ ∧
      data.drop it'.off = rest := by
  simp only [StateT.run, fetchStr] at h
  split at h
  · cases h
  · rename_i n hn
    cases h
    obtain ⟨v, rest, hd, hv, rfl⟩ := memchr_eq_some hn
    exact ⟨v, rest, hd, hv, rfl, by
      simp only [← List.drop_drop, hd, List.drop_left, List.drop_succ_cons, List.drop_zero]⟩

theorem fetchAll_sound {it it' : ArgumentIterator data} {s : Slice}
    (h : fetchAll.run it = some (s, it')) :
    s = ⟨it.off, (data.drop it.off).length⟩ ∧ data.drop it'.off = [] := by
  simp only [StateT.run, fetchAll, Option.some.injEq, Prod.mk.injEq] at h
  obtain ⟨rfl, rfl⟩ := h
  simp [len]

end ArgumentIterator

end DatenLord.Fuse
