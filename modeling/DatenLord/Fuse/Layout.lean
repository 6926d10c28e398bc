import DatenLord.Fuse.Request

/-!
# Payload layouts

Each opcode's payload is a fixed struct, optionally followed by one or two
NUL-terminated names and/or a trailing opaque tail. `FuseOpcode.layout` writes
that shape down once per opcode; `parse_layout` shows that `Operation::parse`
fetches exactly it, so that every later fact about the payload is proved once,
over a list of fields, instead of once per variant.
-/
namespace DatenLord.Fuse

/-- One borrowed field of a payload, as the parser fetches it. -/
inductive Field where
  | arg (t : AbiStruct)
  | str
  | all
  deriving DecidableEq, Repr

/-- The payload of each opcode, in the order `Operation::parse` fetches it. -/
def FuseOpcode.layout : FuseOpcode → List Field
  | .FUSE_LOOKUP => [.str]
  | .FUSE_FORGET => [.arg .fuse_forget_in]
  | .FUSE_GETATTR => []
  | .FUSE_SETATTR => [.arg .fuse_setattr_in]
  | .FUSE_READLINK => []
  | .FUSE_SYMLINK => [.str, .str]
  | .FUSE_MKNOD => [.arg .fuse_mknod_in, .str]
  | .FUSE_MKDIR => [.arg .fuse_mkdir_in, .str]
  | .FUSE_UNLINK => [.str]
  | .FUSE_RMDIR => [.str]
  | .FUSE_RENAME => [.arg .fuse_rename_in, .str, .str]
  | .FUSE_LINK => [.arg .fuse_link_in, .str]
  | .FUSE_OPEN => [.arg .fuse_open_in]
  | .FUSE_READ => [.arg .fuse_read_in]
  | .FUSE_WRITE => [.arg .fuse_write_in, .all]
  | .FUSE_STATFS => []
  | .FUSE_RELEASE => [.arg .fuse_release_in]
  | .FUSE_FSYNC => [.arg .fuse_fsync_in]
  | .FUSE_SETXATTR => [.arg .fuse_setxattr_in, .str, .all]
  | .FUSE_GETXATTR => [.arg .fuse_getxattr_in, .str]
  | .FUSE_LISTXATTR => [.arg .fuse_getxattr_in]
  | .FUSE_REMOVEXATTR => [.str]
  | .FUSE_FLUSH => [.arg .fuse_flush_in]
  | .FUSE_INIT => [.arg .fuse_init_in]
  | .FUSE_OPENDIR => [.arg .fuse_open_in]
  | .FUSE_READDIR => [.arg .fuse_read_in]
  | .FUSE_RELEASEDIR => [.arg .fuse_release_in]
  | .FUSE_FSYNCDIR => [.arg .fuse_fsync_in]
  | .FUSE_GETLK => [.arg .fuse_lk_in]
  | .FUSE_SETLK => [.arg .fuse_lk_in]
  | .FUSE_SETLKW => [.arg .fuse_lk_in]
  | .FUSE_ACCESS => [.arg .fuse_access_in]
  | .FUSE_CREATE => [.arg .fuse_create_in, .str]
  | .FUSE_INTERRUPT => [.arg .fuse_interrupt_in]
  | .FUSE_BMAP => [.arg .fuse_bmap_in]
  | .FUSE_DESTROY => []

/-- The trailing tail, if any, is the last field. -/
def TailLast : List Field → Prop
  | [] => True
  | .all :: fs => fs = []
  | _ :: fs => TailLast fs

theorem FuseOpcode.layout_tailLast (opc : FuseOpcode) : TailLast opc.layout := by
  cases opc <;> trivial

namespace ArgumentIterator

variable {data : List UInt8}

/-- The cursor primitive that fetches a field. -/
def fetchField : Field → StateT (ArgumentIterator data) Option Slice
  | .arg t => fetch t
  | .str => fetchStr
  | .all => fetchAll

/-- The fields of a layout, fetched one after the other. -/
def fetchFields : List Field → StateT (ArgumentIterator data) Option (List Slice)
  | [] => pure []
  | f :: fs => do
    let s ← fetchField f
    let ss ← fetchFields fs
    pure (s :: ss)

@[simp] theorem fetchFields_nil_run (it : ArgumentIterator data) :
    (fetchFields []).run it = some ([], it) := rfl

theorem fetchFields_cons_run (f : Field) (fs : List Field) (it : ArgumentIterator data) :
    (fetchFields (f :: fs)).run it =
      ((fetchField f).run it).bind fun p =>
        ((fetchFields fs).run p.2).map fun q => (p.1 :: q.1, q.2) := by
  simp only [fetchFields, StateT.run_bind, StateT.run_pure]
  cases (fetchField f).run it <;> simp [Option.map_eq_bind]

theorem fetchField_advances {f : Field} {it it' : ArgumentIterator data} {s : Slice}
    (h : (fetchField f).run it = some (s, it')) : Advances it s it' := by
  cases f with
  | arg t => exact fetch_advances h
  | str => exact fetchStr_advances h
  | all => exact fetchAll_advances h

/-- Every slice fetched lies between where the cursor started and where it ends. -/
theorem fetchFields_within {fs : List Field} {it it' : ArgumentIterator data} {ss : List Slice}
    (h : (fetchFields fs).run it = some (ss, it')) :
    it.off ≤ it'.off ∧ ∀ s ∈ ss, it.off ≤ s.off ∧ s.off + s.len ≤ it'.off := by
  induction fs generalizing it ss with
  | nil => simp at h; obtain ⟨rfl, rfl⟩ := h; simp
  | cons f fs ih =>
    rw [fetchFields_cons_run, Option.bind_eq_some] at h
    obtain ⟨⟨s₀, it₁⟩, h₀, h⟩ := h
    obtain ⟨⟨ss₁, it₂⟩, h₁, h⟩ := Option.map_eq_some'.1 h
    simp only [Prod.mk.injEq] at h
    obtain ⟨rfl, rfl⟩ := h
    dsimp only at h₁
    obtain ⟨ho, hl⟩ := fetchField_advances h₀
    obtain ⟨hle, hss⟩ := ih h₁
    refine ⟨by omega, ?_⟩
    rintro s (_ | ⟨_, hs⟩)
    · omega
    · have := hss s hs; omega

end ArgumentIterator

open ArgumentIterator

/-- `Operation::parse` fetches its opcode's layout and builds the variant of that
opcode from the slices. The monad laws bring each variant under `opcode` and `fields`,
which then compute. -/
theorem parse_layout {data : List UInt8} (opc : FuseOpcode) :
    (fun op => (op.opcode, op.fields)) <$> (Operation.parse opc : StateT (ArgumentIterator data) Option _) =
      (fun ss => (opc, ss)) <$> fetchFields opc.layout := by
  cases opc <;> simp only [Operation.parse, fetchFields, fetchField, FuseOpcode.layout,
    bind_pure_comp, map_bind, Functor.map_map, map_pure] <;> rfl

theorem parse_run {data : List UInt8} (opc : FuseOpcode) (it : ArgumentIterator data) :
    ((Operation.parse opc).run it).map (fun p => ((p.1.opcode, p.1.fields), p.2)) =
      ((fetchFields opc.layout).run it).map (fun p => ((opc, p.1), p.2)) := by
  simpa only [StateT.run_map] using congrArg (fun x => x.run it) (parse_layout opc)

theorem parse_run_some {data : List UInt8} {opc : FuseOpcode} {it it' : ArgumentIterator data}
    {op : Operation Slice} (h : (Operation.parse opc).run it = some (op, it')) :
    op.opcode = opc ∧ (fetchFields opc.layout).run it = some (op.fields, it') := by
  have := parse_run opc it
  rw [h] at this
  obtain ⟨⟨ss, it''⟩, hf, he⟩ := Option.map_eq_some'.1 this.symm
  simp only [Prod.mk.injEq] at he
  obtain ⟨⟨rfl, rfl⟩, rfl⟩ := he
  exact ⟨rfl, hf⟩

theorem parse_run_of_fetchFields {data : List UInt8} {opc : FuseOpcode}
    {it it' : ArgumentIterator data} {ss : List Slice}
    (h : (fetchFields opc.layout).run it = some (ss, it')) :
    ∃ op, (Operation.parse opc).run it = some (op, it') ∧ op.opcode = opc ∧ op.fields = ss := by
  have := parse_run opc it
  rw [h] at this
  obtain ⟨⟨op, it''⟩, hp, he⟩ := Option.map_eq_some'.1 this
  simp only [Prod.mk.injEq] at he
  obtain ⟨⟨rfl, rfl⟩, rfl⟩ := he
  exact ⟨op, hp, rfl, rfl⟩

end DatenLord.Fuse
