import DatenLord.Fuse.Payload

/-!
# Decoding requests

What `Request::try_from` does with every byte buffer, on a host of either byte order. It
checks the header, the opcode, the declared length and the payload, in that order, each
failure with its own error; it decodes every packet laid out per the ABI back to the
header and the values it was built from; and what it borrows lies inside the buffer, but
not inside the declared length, since the cursor is handed the whole buffer.
-/
namespace DatenLord.Fuse

open ArgumentIterator

variable (order : ByteOrder)

@[simp] theorem FuseInHeader.read_take (bs : List UInt8) :
    read order (bs.take 40) = read order bs := by
  simp [read, u32At, u64At, List.drop_take, List.take_take]

theorem fetch_header {b : List UInt8} (h : 40 ≤ b.length) :
    (fetch .fuse_in_header).run (new b) = some (⟨0, 40⟩, ⟨40, h⟩) := by
  simp [StateT.run, fetch, new, len, AbiStruct.sizeOf, Nat.not_lt.2 h]

namespace Request

theorem tryFrom_short {b : List UInt8} (h : b.length < 40) :
    tryFrom order b = .error (.ShortReadHeader b.length) := by
  simp [tryFrom, StateT.run, fetch, new, len, AbiStruct.sizeOf, h]

theorem tryFrom_unknown {b : List UInt8} (h : 40 ≤ b.length)
    (hc : FuseOpcode.tryFrom (FuseInHeader.read order b).opcode = none) :
    tryFrom order b = .error (.UnknownOperation (FuseInHeader.read order b).opcode) := by
  simp [tryFrom, fetch_header h, Slice.read, hc]

theorem tryFrom_shortRead {b : List UInt8} {opc : FuseOpcode} (h : 40 ≤ b.length)
    (hc : FuseOpcode.tryFrom (FuseInHeader.read order b).opcode = some opc)
    (hl : b.length < (FuseInHeader.read order b).len.toNat) :
    tryFrom order b = .error (.ShortRead b.length (FuseInHeader.read order b).len.toNat) := by
  simp [tryFrom, fetch_header h, Slice.read, hc, hl]

theorem tryFrom_insufficient {b : List UInt8} {opc : FuseOpcode} (h : 40 ≤ b.length)
    (hc : FuseOpcode.tryFrom (FuseInHeader.read order b).opcode = some opc)
    (hl : (FuseInHeader.read order b).len.toNat ≤ b.length)
    (hp : (Operation.parse opc).run ⟨40, h⟩ = none) :
    tryFrom order b = .error .InsufficientData := by
  simp [tryFrom, fetch_header h, Slice.read, hc, Nat.not_lt.2 hl, hp]

/-- Past the three checks, the operation is parsed from offset 40 on. -/
theorem tryFrom_ok {b : List UInt8} {opc : FuseOpcode} {op : Operation Slice}
    {it' : ArgumentIterator b} (h : 40 ≤ b.length)
    (hc : FuseOpcode.tryFrom (FuseInHeader.read order b).opcode = some opc)
    (hl : (FuseInHeader.read order b).len.toNat ≤ b.length)
    (hp : (Operation.parse opc).run ⟨40, h⟩ = some (op, it')) :
    tryFrom order b = .ok ⟨FuseInHeader.read order b, op⟩ := by
  simp [tryFrom, fetch_header h, Slice.read, hc, Nat.not_lt.2 hl, hp]

/-- The five ways `try_from` ends, each with the checks that lead to it. -/
theorem tryFrom_cases (b : List UInt8) :
    (b.length < 40 ∧ tryFrom order b = .error (.ShortReadHeader b.length)) ∨
    (∃ _ : 40 ≤ b.length, FuseOpcode.tryFrom (FuseInHeader.read order b).opcode = none ∧
      tryFrom order b = .error (.UnknownOperation (FuseInHeader.read order b).opcode)) ∨
    (∃ _ : 40 ≤ b.length, ∃ opc,
      FuseOpcode.tryFrom (FuseInHeader.read order b).opcode = some opc ∧
      b.length < (FuseInHeader.read order b).len.toNat ∧
      tryFrom order b = .error (.ShortRead b.length (FuseInHeader.read order b).len.toNat)) ∨
    (∃ h : 40 ≤ b.length, ∃ opc,
      FuseOpcode.tryFrom (FuseInHeader.read order b).opcode = some opc ∧
      (FuseInHeader.read order b).len.toNat ≤ b.length ∧
      (Operation.parse opc).run ⟨40, h⟩ = none ∧ tryFrom order b = .error .InsufficientData) ∨
    (∃ h : 40 ≤ b.length, ∃ opc,
      FuseOpcode.tryFrom (FuseInHeader.read order b).opcode = some opc ∧
      (FuseInHeader.read order b).len.toNat ≤ b.length ∧ ∃ op it',
        (Operation.parse opc).run ⟨40, h⟩ = some (op, it') ∧
        tryFrom order b = .ok ⟨FuseInHeader.read order b, op⟩) := by
  rcases Nat.lt_or_ge b.length 40 with h | h
  · exact .inl ⟨h, tryFrom_short order h⟩
  cases hc : FuseOpcode.tryFrom (FuseInHeader.read order b).opcode with
  | none => exact .inr (.inl ⟨h, rfl, tryFrom_unknown order h hc⟩)
  | some opc =>
    rcases Nat.lt_or_ge b.length (FuseInHeader.read order b).len.toNat with hl | hl
    · exact .inr (.inr (.inl ⟨h, opc, rfl, hl, tryFrom_shortRead order h hc hl⟩))
    cases hp : (Operation.parse opc).run ⟨40, h⟩ with
    | none =>
      exact .inr (.inr (.inr (.inl ⟨h, opc, rfl, hl, hp, tryFrom_insufficient order h hc hl hp⟩)))
    | some p =>
      exact .inr (.inr (.inr (.inr ⟨h, opc, rfl, hl, p.1, p.2, hp, tryFrom_ok order h hc hl hp⟩)))

/-- A payload that fits before the declared length is fetched whole, whatever
follows it in the buffer. -/
theorem parse_some_of_payloadIn {b : List UInt8} {opc : FuseOpcode} {n : Nat}
    (h : 40 ≤ b.length) (hp : PayloadIn opc.layout ((b.take n).drop 40)) :
    ∃ op it', (Operation.parse opc).run ⟨40, h⟩ = some (op, it') := by
  rw [List.drop_take] at hp
  obtain ⟨ss, it', hf⟩ := fetchFields_some opc.layout_tailLast ⟨40, h⟩ hp.of_take
  obtain ⟨op, hop, -⟩ := parse_run_of_fetchFields hf
  exact ⟨op, it', hop⟩

theorem tryFrom_eq_shortReadHeader_iff (b : List UInt8) (n : Nat) :
    tryFrom order b = .error (.ShortReadHeader n) ↔ b.length < 40 ∧ n = b.length := by
  rcases tryFrom_cases order b with ⟨h, e⟩ | ⟨h, _, e⟩ | ⟨h, _, _, _, e⟩ | ⟨h, _, _, _, _, e⟩ |
      ⟨h, _, _, _, _, _, _, e⟩ <;> simp [e, eq_comm] <;> omega

theorem tryFrom_eq_unknownOperation_iff {b : List UInt8} (h : 40 ≤ b.length) (c : UInt32) :
    tryFrom order b = .error (.UnknownOperation c) ↔
      c = (FuseInHeader.read order b).opcode ∧ FuseOpcode.tryFrom c = none := by
  rcases tryFrom_cases order b with ⟨h', _⟩ | ⟨_, hc, e⟩ | ⟨_, _, hc, _, e⟩ |
      ⟨_, _, hc, _, _, e⟩ | ⟨_, _, hc, _, _, _, _, e⟩
  · omega
  · rw [e]; constructor
    · simp only [Except.error.injEq, RequestError.UnknownOperation.injEq]
      rintro rfl; exact ⟨rfl, hc⟩
    · rintro ⟨rfl, -⟩; rfl
  all_goals
    rw [e]; simp only [Except.error.injEq, reduceCtorEq, false_iff, not_and]; rintro rfl; simp [hc]

theorem tryFrom_eq_shortRead_iff {b : List UInt8} {opc : FuseOpcode} (h : 40 ≤ b.length)
    (hc : FuseOpcode.tryFrom (FuseInHeader.read order b).opcode = some opc) (m n : Nat) :
    tryFrom order b = .error (.ShortRead m n) ↔
      b.length < (FuseInHeader.read order b).len.toNat ∧ m = b.length ∧
        n = (FuseInHeader.read order b).len.toNat := by
  rcases tryFrom_cases order b with ⟨h', _⟩ | ⟨_, hc', _⟩ | ⟨_, _, _, hl, e⟩ |
      ⟨_, _, _, hl, _, e⟩ | ⟨_, _, _, hl, _, _, _, e⟩
  · omega
  · simp [hc] at hc'
  · simp [e, hl, eq_comm]
  all_goals simp [e]; omega

/-- With the header, opcode and length checked, only the payload can fail, and it
fails only when `b[40 .. len]` does not hold the opcode's fixed struct and names. -/
theorem tryFrom_payload {b : List UInt8} {opc : FuseOpcode} (h : 40 ≤ b.length)
    (hc : FuseOpcode.tryFrom (FuseInHeader.read order b).opcode = some opc)
    (hl : (FuseInHeader.read order b).len.toNat ≤ b.length) :
    ((∃ r, tryFrom order b = .ok r) ∨ tryFrom order b = .error .InsufficientData) ∧
      (tryFrom order b = .error .InsufficientData →
        ¬ PayloadIn opc.layout ((b.take (FuseInHeader.read order b).len.toNat).drop 40)) := by
  cases hp : (Operation.parse opc).run ⟨40, h⟩ with
  | none =>
    refine ⟨.inr (tryFrom_insufficient order h hc hl hp), fun _ hpay => ?_⟩
    obtain ⟨op, it', hop⟩ := parse_some_of_payloadIn h hpay
    simp [hop] at hp
  | some p => simp [tryFrom_ok order h hc hl hp]

/-- `Request::try_from` classifies every malformed packet in the order header,
opcode, length, payload. -/
theorem tryFrom_classifies (b : List UInt8) :
    (∀ n, tryFrom order b = .error (.ShortReadHeader n) ↔ b.length < 40 ∧ n = b.length) ∧
    (40 ≤ b.length → ∀ c, tryFrom order b = .error (.UnknownOperation c) ↔
      c = (FuseInHeader.read order b).opcode ∧ FuseOpcode.tryFrom c = none) ∧
    (∀ opc, 40 ≤ b.length → FuseOpcode.tryFrom (FuseInHeader.read order b).opcode = some opc →
      ∀ m n, tryFrom order b = .error (.ShortRead m n) ↔
        b.length < (FuseInHeader.read order b).len.toNat ∧ m = b.length ∧
          n = (FuseInHeader.read order b).len.toNat) ∧
    (∀ opc, 40 ≤ b.length → FuseOpcode.tryFrom (FuseInHeader.read order b).opcode = some opc →
      (FuseInHeader.read order b).len.toNat ≤ b.length →
      ((∃ r, tryFrom order b = .ok r) ∨ tryFrom order b = .error .InsufficientData) ∧
      (tryFrom order b = .error .InsufficientData →
        ¬ PayloadIn opc.layout ((b.take (FuseInHeader.read order b).len.toNat).drop 40))) :=
  ⟨tryFrom_eq_shortReadHeader_iff order b, tryFrom_eq_unknownOperation_iff order,
    fun _ h hc => tryFrom_eq_shortRead_iff order h hc, fun _ h hc hl => tryFrom_payload order h hc hl⟩

/-- A big-endian LOOKUP whose header declares 50 bytes, read from 42: a short read of 42
out of 50. -/
theorem tryFrom_classifies_shortRead :
    tryFrom .big ((⟨50, 1, 0, 1, 0, 0, 0, 0⟩ : FuseInHeader).bytes .big ++ [0x61, 0]) =
      .error (.ShortRead 42 50) :=
  ((tryFrom_classifies .big ((⟨50, 1, 0, 1, 0, 0, 0, 0⟩ : FuseInHeader).bytes .big ++
    [0x61, 0])).2.2.1 .FUSE_LOOKUP (by decide) (by decide) 42 50).2 ⟨by decide, rfl, rfl⟩

end Request

/-- The values of an operation can be laid out: each struct of its size, each name
free of NULs. -/
def Operation.Encodable (op : Operation (List UInt8)) : Prop :=
  List.Forall₂ Field.Fits op.opcode.layout op.fields

instance (op : Operation (List UInt8)) : Decidable op.Encodable :=
  inferInstanceAs (Decidable (List.Forall₂ _ _ _))

/-- The packet the kernel writes for `op` on a host of byte order `order`: the header
with its length and opcode filled in, then the payload laid out per the ABI. -/
def Request.encode (h : FuseInHeader) (op : Operation (List UInt8)) : List UInt8 :=
  let body := encodeFields op.opcode.layout op.fields
  FuseInHeader.bytes order
      { h with len := UInt32.ofNat (40 + body.length), opcode := op.opcode.code } ++
    body

namespace Request

/-- Decoding undoes encoding, for every header and every operation, on either host: the
same header, with `len` the packet's length, and a variant of the same opcode whose
borrows read back the struct, the names and the tail that were laid out, each slice as
long as the value laid out. -/
theorem tryFrom_encode (h : FuseInHeader) (op : Operation (List UInt8)) (hop : op.Encodable) :
    ∃ r, tryFrom order (encode order h op) = .ok r ∧
      r.header =
        { h with len := UInt32.ofNat (encode order h op).length, opcode := op.opcode.code } ∧
      r.operation.opcode = op.opcode ∧
      r.operation.fields.map (Slice.read (encode order h op)) = op.fields ∧
      r.operation.fields.map Slice.len = op.fields.map List.length := by
  let body := encodeFields op.opcode.layout op.fields
  let h' : FuseInHeader :=
    { h with len := UInt32.ofNat (40 + body.length), opcode := op.opcode.code }
  have hb : encode order h op = h'.bytes order ++ body := by unfold encode; rfl
  have hlen : (encode order h op).length = 40 + body.length := by simp [hb]
  have hle : 40 ≤ (encode order h op).length := by omega
  have hread : FuseInHeader.read order (encode order h op) = h' := by
    rw [hb, ← List.append_nil (_ ++ body), List.append_assoc, FuseInHeader.read_bytes_append]
  have hdrop : (encode order h op).drop 40 = body ++ [] := by
    rw [hb, List.append_nil]; exact List.drop_left' (FuseInHeader.length_bytes _ _)
  obtain ⟨ss, it', hf, hr, hs, -⟩ :=
    fetchFields_complete hop op.opcode.layout_tailLast ⟨40, hle⟩ hdrop fun _ => rfl
  obtain ⟨op', hp, hopc, hfs⟩ := parse_run_of_fetchFields hf
  have hl : (FuseInHeader.read order (encode order h op)).len.toNat ≤
      (encode order h op).length := by
    have : h'.len.toNat = (40 + body.length) % 2 ^ 32 := rfl
    have := Nat.mod_le (40 + body.length) (2 ^ 32)
    rw [hread]; omega
  have hc : FuseOpcode.tryFrom (FuseInHeader.read order (encode order h op)).opcode =
      some op.opcode := by
    simp [hread, h']
  refine ⟨⟨h', op'⟩, ?_, by simp only [hlen], hopc, by rw [hfs, hr], by rw [hfs, hs]⟩
  rw [tryFrom_ok order hle hc hl hp, hread]

/-- A RENAME, with its `fuse_rename_in` and two names, on a little-endian host. -/
theorem tryFrom_encode_rename :
    (Operation.Rename [2, 0, 0, 0, 0, 0, 0, 0] [0x61] [0x62]).Encodable ∧
      ∃ r, tryFrom .little (encode .little ⟨0, 0, 7, 1, 0, 0, 0, 0⟩
          (.Rename [2, 0, 0, 0, 0, 0, 0, 0] [0x61] [0x62])) = .ok r ∧
        r.header = { (⟨0, 0, 7, 1, 0, 0, 0, 0⟩ : FuseInHeader) with
          len := UInt32.ofNat (encode .little ⟨0, 0, 7, 1, 0, 0, 0, 0⟩
            (.Rename [2, 0, 0, 0, 0, 0, 0, 0] [0x61] [0x62])).length,
          opcode := FuseOpcode.FUSE_RENAME.code } ∧
        r.operation.opcode = .FUSE_RENAME ∧
        r.operation.fields.map (Slice.read (encode .little ⟨0, 0, 7, 1, 0, 0, 0, 0⟩
          (.Rename [2, 0, 0, 0, 0, 0, 0, 0] [0x61] [0x62]))) =
          [[2, 0, 0, 0, 0, 0, 0, 0], [0x61], [0x62]] ∧
        r.operation.fields.map Slice.len = [8, 1, 1] :=
  ⟨by decide, tryFrom_encode .little _ _ (by decide)⟩

/-- The MKNOD packet of the source's tests, as a little-endian host reads it. -/
example : tryFrom .little [0x38, 0x00, 0x00, 0x00, 0x08, 0x00, 0x00, 0x00,
    0x0d, 0xf0, 0xad, 0xba, 0xef, 0xbe, 0xad, 0xde, 0x88, 0x77, 0x66, 0x55, 0x44, 0x33, 0x22, 0x11,
    0x0d, 0xd0, 0x01, 0xc0, 0xfe, 0xca, 0x01, 0xc0, 0x5e, 0xba, 0xde, 0xc0, 0x00, 0x00, 0x00, 0x00,
    0xa4, 0x01, 0x00, 0x00, 0x00, 0x00, 0x00, 0x00, 0x66, 0x6f, 0x6f, 0x2e, 0x74, 0x78, 0x74, 0x00] =
    .ok ⟨⟨56, 8, 0xdeadbeefbaadf00d, 0x1122334455667788, 0xc001d00d, 0xc001cafe, 0xc0deba5e, 0⟩,
      .MkNod ⟨40, 8⟩ ⟨48, 7⟩⟩ := rfl

/-- The same MKNOD packet as a big-endian host reads it. -/
example : tryFrom .big [0x00, 0x00, 0x00, 0x38, 0x00, 0x00, 0x00, 0x08,
    0xde, 0xad, 0xbe, 0xef, 0xba, 0xad, 0xf0, 0x0d, 0x11, 0x22, 0x33, 0x44, 0x55, 0x66, 0x77, 0x88,
    0xc0, 0x01, 0xd0, 0x0d, 0xc0, 0x01, 0xca, 0xfe, 0xc0, 0xde, 0xba, 0x5e, 0x00, 0x00, 0x00, 0x00,
    0x00, 0x00, 0x01, 0xa4, 0x00, 0x00, 0x00, 0x00, 0x66, 0x6f, 0x6f, 0x2e, 0x74, 0x78, 0x74, 0x00] =
    .ok ⟨⟨56, 8, 0xdeadbeefbaadf00d, 0x1122334455667788, 0xc001d00d, 0xc001cafe, 0xc0deba5e, 0⟩,
      .MkNod ⟨40, 8⟩ ⟨48, 7⟩⟩ := rfl

/-- A decoded request's header is the one at `b[0 .. 40]`, and everything else it
borrows lies inside `b[40 .. |b|]`. -/
theorem tryFrom_ok_within {b : List UInt8} {r : Request} (hr : tryFrom order b = .ok r) :
    r.header = FuseInHeader.read order (b.take 40) ∧
      ∀ s ∈ r.operation.fields, 40 ≤ s.off ∧ s.off + s.len ≤ b.length := by
  rcases tryFrom_cases order b with ⟨_, e⟩ | ⟨_, _, e⟩ | ⟨_, _, _, _, e⟩ | ⟨_, _, _, _, _, e⟩ |
      ⟨_, _, _, _, op, it', hp, e⟩ <;> simp only [e, Except.ok.injEq, reduceCtorEq] at hr
  subst hr
  obtain ⟨-, hf⟩ := parse_run_some hp
  obtain ⟨-, hss⟩ := fetchFields_within hf
  refine ⟨by simp, fun s hs => ?_⟩
  have hs' := hss s hs
  have hle := it'.le
  exact ⟨hs'.1, by omega⟩

theorem tryFrom_ok_of_payloadIn {b : List UInt8} {opc : FuseOpcode} (h : 40 ≤ b.length)
    (hc : FuseOpcode.tryFrom (FuseInHeader.read order b).opcode = some opc)
    (hl : (FuseInHeader.read order b).len.toNat ≤ b.length)
    (hp : PayloadIn opc.layout ((b.take (FuseInHeader.read order b).len.toNat).drop 40)) :
    ∃ r, tryFrom order b = .ok r := by
  obtain ⟨op, it', hop⟩ := parse_some_of_payloadIn h hp
  exact ⟨_, tryFrom_ok order h hc hl hop⟩

/-- On success everything borrowed lies inside the buffer, the header at
`b[0 .. 40]` and the rest inside `b[40 .. |b|]`; and `try_from` succeeds whenever
the header, opcode and length check out and the payload fits before the declared
length. -/
theorem tryFrom_borrows_within (b : List UInt8) :
    (∀ r, tryFrom order b = .ok r →
      r.header = FuseInHeader.read order (b.take 40) ∧
        ∀ s ∈ r.operation.fields, 40 ≤ s.off ∧ s.off + s.len ≤ b.length) ∧
    (∀ opc, 40 ≤ b.length → FuseOpcode.tryFrom (FuseInHeader.read order b).opcode = some opc →
      (FuseInHeader.read order b).len.toNat ≤ b.length →
      PayloadIn opc.layout ((b.take (FuseInHeader.read order b).len.toNat).drop 40) →
      ∃ r, tryFrom order b = .ok r) :=
  ⟨fun _ hr => tryFrom_ok_within order hr,
    fun _ h hc hl hp => tryFrom_ok_of_payloadIn order h hc hl hp⟩

/-- A LOOKUP of the name "a" whose declared length takes in the name's NUL: it decodes,
and its borrows lie in the 42 bytes read. -/
theorem tryFrom_borrows_within_lookup :
    ∃ r, tryFrom .little ((⟨42, 1, 0, 1, 0, 0, 0, 0⟩ : FuseInHeader).bytes .little ++ [0x61, 0]) =
        .ok r ∧ ∀ s ∈ r.operation.fields, 40 ≤ s.off ∧ s.off + s.len ≤ 42 := by
  have h := tryFrom_borrows_within .little
    ((⟨42, 1, 0, 1, 0, 0, 0, 0⟩ : FuseInHeader).bytes .little ++ [0x61, 0])
  obtain ⟨r, hr⟩ := h.2 .FUSE_LOOKUP (by decide) (by decide) (by decide)
    ⟨[[0x61]], [], .cons (by decide) .nil, rfl⟩
  exact ⟨r, hr, (h.1 r hr).2⟩

/-- A LOOKUP whose header declares no payload still borrows the name that follows
in the buffer: a borrow can end past `header.len`. -/
theorem tryFrom_borrows_past_len :
    ¬ ∀ (b : List UInt8) (r : Request), tryFrom .little b = .ok r →
      ∀ s ∈ r.operation.fields, s.off + s.len ≤ r.header.len.toNat := by
  intro h
  have hr : tryFrom .little ((⟨40, 1, 0, 1, 0, 0, 0, 0⟩ : FuseInHeader).bytes .little ++
      [0x61, 0]) = .ok ⟨⟨40, 1, 0, 1, 0, 0, 0, 0⟩, .Lookup ⟨40, 1⟩⟩ := rfl
  exact absurd (h _ _ hr ⟨40, 1⟩ (List.mem_singleton_self _)) (by decide)

end Request

end DatenLord.Fuse
