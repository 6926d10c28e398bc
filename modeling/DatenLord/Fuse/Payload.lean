import DatenLord.Fuse.Layout

/-!
# Payload bytes

The bytes a payload of a given layout takes in a packet: each fixed struct as its
bytes, each name followed by one NUL, then the tail. `fetchFields_complete` is
the cursor's side of the round trip: on such bytes it borrows exactly the values
that were laid out, and `fetchFields_some` that it succeeds on any buffer that
merely begins with them.
-/
namespace DatenLord.Fuse

/-- The bytes a field's value takes in a packet: a name carries its NUL. -/
def Field.encode : Field → List UInt8 → List UInt8
  | .str, v => v ++ [0]
  | _, v => v

/-- The values a field can hold: a struct is exactly its size, a name holds no NUL,
a tail is any bytes. -/
def Field.Fits : Field → List UInt8 → Prop
  | .arg t, v => v.length = t.sizeOf
  | .str, v => 0 ∉ v
  | .all, _ => True

instance Field.decidableFits (f : Field) (v : List UInt8) : Decidable (f.Fits v) :=
  match f with
  | .arg t => inferInstanceAs (Decidable (v.length = t.sizeOf))
  | .str => inferInstanceAs (Decidable (0 ∉ v))
  | .all => inferInstanceAs (Decidable True)

/-- A payload laid out field by field. -/
def encodeFields : List Field → List (List UInt8) → List UInt8
  | f :: fs, v :: vs => f.encode v ++ encodeFields fs vs
  | _, _ => []

/-- `bs` begins with a payload of layout `fs`. -/
def PayloadIn (fs : List Field) (bs : List UInt8) : Prop :=
  ∃ vs rest, List.Forall₂ Field.Fits fs vs ∧ bs = encodeFields fs vs ++ rest

theorem PayloadIn.of_take {fs : List Field} {xs : List UInt8} {n : Nat}
    (h : PayloadIn fs (xs.take n)) : PayloadIn fs xs := by
  obtain ⟨vs, rest, hf, he⟩ := h
  exact ⟨vs, rest ++ xs.drop n, hf, by rw [← List.append_assoc, ← he, List.take_append_drop]⟩

namespace ArgumentIterator

variable {data : List UInt8}

theorem fetchField_complete {f : Field} {it : ArgumentIterator data} {v rest : List UInt8}
    (hf : f.Fits v) (h : data.drop it.off = f.encode v ++ rest) (hall : f = .all → rest = []) :
    ∃ it', (fetchField f).run it = some (⟨it.off, v.length⟩, it') ∧ data.drop it'.off = rest := by
  cases f with
  | arg t => exact fetch_complete h hf
  | str => exact fetchStr_complete (by simpa [Field.encode] using h) hf
  | all =>
    obtain rfl := hall rfl
    exact fetchAll_complete (by simpa [Field.encode] using h)

/-- On a payload laid out as `fs`, the cursor borrows exactly the values laid out, each
slice as long as its value, and stops where the payload ends. -/
theorem fetchFields_complete {fs : List Field} {vs : List (List UInt8)}
    (hf : List.Forall₂ Field.Fits fs vs) (ht : TailLast fs) (it : ArgumentIterator data)
    {rest : List UInt8} (h : data.drop it.off = encodeFields fs vs ++ rest)
    (hall : Field.all ∈ fs → rest = []) :
    ∃ ss it', (fetchFields fs).run it = some (ss, it') ∧ ss.map (Slice.read data) = vs ∧
      ss.map Slice.len = vs.map List.length ∧ data.drop it'.off = rest := by
  induction hf generalizing it with
  | nil => exact ⟨[], it, rfl, rfl, rfl, h⟩
  | @cons f v fs vs hv _ ih =>
    have hlast : f = .all → fs = [] := by rintro rfl; exact ht
    have h' : data.drop it.off = f.encode v ++ (encodeFields fs vs ++ rest) := by
      simpa [encodeFields] using h
    obtain ⟨it₁, h₁, hd₁⟩ := fetchField_complete hv h' fun hf => by
      obtain rfl := hlast hf
      cases vs <;> simp_all [encodeFields]
    have ht' : TailLast fs := by
      cases f <;> first | exact ht | (obtain rfl := hlast rfl; trivial)
    obtain ⟨ss, it₂, h₂, hr₂, hl₂, hd₂⟩ :=
      ih ht' it₁ hd₁ fun hm => hall (List.mem_cons_of_mem f hm)
    refine ⟨⟨it.off, v.length⟩ :: ss, it₂, by simp [fetchFields_cons_run, h₁, h₂], ?_,
      by simp [hl₂], hd₂⟩
    obtain ⟨w, hw⟩ : ∃ w, data.drop it.off = v ++ w := by
      cases f <;> exact ⟨_, by simpa [Field.encode] using h'⟩
    simp [Slice.read_of_drop hw, hr₂]

theorem fetchField_sound {f : Field} {it it' : ArgumentIterator data} {s : Slice}
    (h : (fetchField f).run it = some (s, it')) :
    ∃ v rest, f.Fits v ∧ data.drop it.off = f.encode v ++ rest ∧ s.read data = v ∧
      data.drop it'.off = rest ∧ (f = .all → rest = []) := by
  cases f with
  | arg t =>
    obtain ⟨v, rest, hd, hv, rfl, hr⟩ := fetch_sound h
    exact ⟨v, rest, hv, hd, Slice.read_of_drop hd, hr, nofun⟩
  | str =>
    obtain ⟨v, rest, hd, hv, rfl, hr⟩ := fetchStr_sound h
    exact ⟨v, rest, hv, by simpa [Field.encode] using hd, Slice.read_of_drop hd, hr, nofun⟩
  | all =>
    obtain ⟨rfl, hr⟩ := fetchAll_sound h
    exact ⟨_, [], trivial, by simp [Field.encode], Slice.read_of_drop (List.append_nil _).symm,
      hr, fun _ => rfl⟩

/-- What the cursor fetches for a layout is a payload of that layout, borrowed back
to back from where it stood; a layout with a tail leaves nothing behind it. -/
theorem fetchFields_sound {fs : List Field} {it it' : ArgumentIterator data} {ss : List Slice}
    (h : (fetchFields fs).run it = some (ss, it')) :
    ∃ vs rest, List.Forall₂ Field.Fits fs vs ∧ data.drop it.off = encodeFields fs vs ++ rest ∧
      ss.map (Slice.read data) = vs ∧ data.drop it'.off = rest ∧
      (Field.all ∈ fs → rest = []) := by
  induction fs generalizing it ss with
  | nil =>
    simp only [fetchFields_nil_run, Option.some.injEq, Prod.mk.injEq] at h
    obtain ⟨rfl, rfl⟩ := h
    exact ⟨[], _, .nil, rfl, rfl, rfl, nofun⟩
  | cons f fs ih =>
    rw [fetchFields_cons_run, Option.bind_eq_some] at h
    obtain ⟨⟨s₀, it₁⟩, h₀, h⟩ := h
    obtain ⟨⟨ss₁, it₂⟩, h₁, h⟩ := Option.map_eq_some'.1 h
    simp only [Prod.mk.injEq] at h
    obtain ⟨rfl, rfl⟩ := h
    obtain ⟨v, r₀, hv, hd₀, hs₀, hr₀, hall₀⟩ := fetchField_sound h₀
    obtain ⟨vs, rest, hvs, hd₁, hss, hr, hall⟩ := ih h₁
    refine ⟨v :: vs, rest, .cons hv hvs, ?_, by simp [hs₀, hss], hr, ?_⟩
    · rw [hd₀, ← hr₀, hd₁, encodeFields, List.append_assoc]
    · rintro (_ | ⟨_, hm⟩)
      · have hend : data.length ≤ it₁.off := List.drop_eq_nil_iff.1 (hr₀ ▸ hall₀ rfl)
        rw [← hr, List.drop_eq_nil_iff]
        exact hend.trans (fetchFields_within h₁).1
      · exact hall hm

/-- The cursor fetches a layout from any buffer that begins with a payload of it. -/
theorem fetchFields_some {fs : List Field} (ht : TailLast fs) (it : ArgumentIterator data)
    (h : PayloadIn fs (data.drop it.off)) : ∃ ss it', (fetchFields fs).run it = some (ss, it') := by
  obtain ⟨vs, rest, hf, he⟩ := h
  induction hf generalizing it with
  | nil => exact ⟨[], it, rfl⟩
  | @cons f v fs vs hv _ ih =>
    cases f with
    | all =>
      obtain rfl : fs = [] := ht
      exact ⟨[⟨it.off, it.len⟩], ⟨data.length, le_rfl⟩, rfl⟩
    | _ =>
      have h' : data.drop _ = _ := he
      obtain ⟨it₁, h₁, hd₁⟩ := fetchField_complete hv (by simpa [encodeFields] using h')
        (fun h => nomatch h)
      obtain ⟨ss, it₂, h₂⟩ := ih ht it₁ hd₁
      exact ⟨⟨it.off, v.length⟩ :: ss, it₂, by simp [fetchFields_cons_run, h₁, h₂]⟩

end ArgumentIterator

end DatenLord.Fuse
