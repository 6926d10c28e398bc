import Mathlib.Algebra.Group.Nat.Basic
import Mathlib.Data.List.Basic

/-!
# The kernel wire ABI

`abi.rs` is not among the sources; what the decoder reads of it is modelled here
from the spec: the 40-byte `fuse_in_header` in the host's byte order (the source's
tests give each packet for little- and big-endian hosts), the closed opcode
enumeration with its total decoding `u32 → opcode | InvalidOpcode`, and `mem::size_of`
of each argument struct. Nothing proved about the decoder depends on the particular
sizes or codes.
-/
namespace DatenLord.Fuse

/-- The `w` little-endian bytes of `n`, bits above `8 * w` dropped. -/
def leBytes : Nat → Nat → List UInt8
  | 0, _ => []
  | w + 1, n => UInt8.ofNat n :: leBytes w (n / 256)

/-- The natural number whose little-endian bytes these are. -/
def leNat : List UInt8 → Nat
  | [] => 0
  | b :: bs => b.toNat + 256 * leNat bs

@[simp] theorem length_leBytes (w n : Nat) : (leBytes w n).length = w := by
  induction w generalizing n <;> simp [leBytes, *]

theorem leNat_leBytes (w n : Nat) : leNat (leBytes w n) = n % 256 ^ w := by
  induction w generalizing n with
  | zero => simp [leBytes, leNat, Nat.mod_one]
  | succ w ih =>
    simp only [leBytes, leNat, ih]
    rw [Nat.pow_succ', Nat.mod_mul]
    rfl

/-- The host's byte order, in which a `&fuse_in_header` reads the header's fields. -/
inductive ByteOrder where
  | little
  | big
  deriving DecidableEq, Repr

/-- The natural number whose bytes, in this order, these are. -/
def ByteOrder.toNat : ByteOrder → List UInt8 → Nat
  | .little, bs => leNat bs
  | .big, bs => leNat bs.reverse

/-- The `w` bytes of `n` in this order, bits above `8 * w` dropped. -/
def ByteOrder.bytes : ByteOrder → Nat → Nat → List UInt8
  | .little, w, n => leBytes w n
  | .big, w, n => (leBytes w n).reverse

@[simp] theorem ByteOrder.length_bytes (order : ByteOrder) (w n : Nat) :
    (order.bytes w n).length = w := by
  cases order <;> simp [bytes]

theorem ByteOrder.toNat_bytes (order : ByteOrder) (w n : Nat) :
    order.toNat (order.bytes w n) = n % 256 ^ w := by
  cases order <;> simp [toNat, bytes, leNat_leBytes]

variable (order : ByteOrder)

/-- A `u32` field at byte offset `off`. -/
def u32At (bs : List UInt8) (off : Nat) : UInt32 :=
  UInt32.ofNat (order.toNat ((bs.drop off).take 4))

/-- A `u64` field at byte offset `off`. -/
def u64At (bs : List UInt8) (off : Nat) : UInt64 :=
  UInt64.ofNat (order.toNat ((bs.drop off).take 8))

theorem u32_bytes (x : UInt32) : UInt32.ofNat (order.toNat (order.bytes 4 x.toNat)) = x := by
  apply UInt32.toNat.inj
  rw [ByteOrder.toNat_bytes]
  show x.toNat % 256 ^ 4 % 2 ^ 32 = x.toNat
  have := x.toNat_lt_size
  simp only [UInt32.size] at this
  omega

theorem u64_bytes (x : UInt64) : UInt64.ofNat (order.toNat (order.bytes 8 x.toNat)) = x := by
  apply UInt64.toNat.inj
  rw [ByteOrder.toNat_bytes]
  show x.toNat % 256 ^ 8 % 2 ^ 64 = x.toNat
  have := x.toNat_lt_size
  simp only [UInt64.size] at this
  omega

/-- `struct fuse_in_header`, the fixed prefix of every request. -/
structure FuseInHeader where
  len : UInt32
  opcode : UInt32
  unique : UInt64
  nodeid : UInt64
  uid : UInt32
  gid : UInt32
  pid : UInt32
  padding : UInt32
  deriving DecidableEq, Repr

/-- The header seen through a `&fuse_in_header` pointing at `bs`. -/
def FuseInHeader.read (bs : List UInt8) : FuseInHeader :=
  ⟨u32At order bs 0, u32At order bs 4, u64At order bs 8, u64At order bs 16, u32At order bs 24,
    u32At order bs 28, u32At order bs 32, u32At order bs 36⟩

/-- The 40 bytes the kernel writes for a header. -/
def FuseInHeader.bytes (h : FuseInHeader) : List UInt8 :=
  order.bytes 4 h.len.toNat ++ order.bytes 4 h.opcode.toNat ++ order.bytes 8 h.unique.toNat ++
    order.bytes 8 h.nodeid.toNat ++ order.bytes 4 h.uid.toNat ++ order.bytes 4 h.gid.toNat ++
    order.bytes 4 h.pid.toNat ++ order.bytes 4 h.padding.toNat

@[simp] theorem FuseInHeader.length_bytes (h : FuseInHeader) : (h.bytes order).length = 40 := by
  simp [bytes]

/-- Reading a header back from its bytes, whatever follows them. -/
@[simp] theorem FuseInHeader.read_bytes_append (h : FuseInHeader) (rest : List UInt8) :
    read order (h.bytes order ++ rest) = h := by
  simp [read, bytes, u32At, u64At, List.drop_append_eq_append_drop,
    List.take_append_eq_append_take, List.drop_eq_nil_of_le, u32_bytes, u64_bytes]

/-- Modelled from the spec: `enum fuse_opcode` of `abi.rs`, the variant set of the
non-macOS build, whose `match` in `Operation::parse` is exhaustive. -/
inductive FuseOpcode where
  | FUSE_LOOKUP
  | FUSE_FORGET
  | FUSE_GETATTR
  | FUSE_SETATTR
  | FUSE_READLINK
  | FUSE_SYMLINK
  | FUSE_MKNOD
  | FUSE_MKDIR
  | FUSE_UNLINK
  | FUSE_RMDIR
  | FUSE_RENAME
  | FUSE_LINK
  | FUSE_OPEN
  | FUSE_READ
  | FUSE_WRITE
  | FUSE_STATFS
  | FUSE_RELEASE
  | FUSE_FSYNC
  | FUSE_SETXATTR
  | FUSE_GETXATTR
  | FUSE_LISTXATTR
  | FUSE_REMOVEXATTR
  | FUSE_FLUSH
  | FUSE_INIT
  | FUSE_OPENDIR
  | FUSE_READDIR
  | FUSE_RELEASEDIR
  | FUSE_FSYNCDIR
  | FUSE_GETLK
  | FUSE_SETLK
  | FUSE_SETLKW
  | FUSE_ACCESS
  | FUSE_CREATE
  | FUSE_INTERRUPT
  | FUSE_BMAP
  | FUSE_DESTROY
  deriving DecidableEq, Repr

/-- Modelled from the spec: the kernel's number for each opcode (the tests' packets
carry `FUSE_SETATTR = 4`, `FUSE_MKNOD = 8` and `FUSE_INIT = 26`). -/
def FuseOpcode.code : FuseOpcode → UInt32
  | .FUSE_LOOKUP => 1
  | .FUSE_FORGET => 2
  | .FUSE_GETATTR => 3
  | .FUSE_SETATTR => 4
  | .FUSE_READLINK => 5
  | .FUSE_SYMLINK => 6
  | .FUSE_MKNOD => 8
  | .FUSE_MKDIR => 9
  | .FUSE_UNLINK => 10
  | .FUSE_RMDIR => 11
  | .FUSE_RENAME => 12
  | .FUSE_LINK => 13
  | .FUSE_OPEN => 14
  | .FUSE_READ => 15
  | .FUSE_WRITE => 16
  | .FUSE_STATFS => 17
  | .FUSE_RELEASE => 18
  | .FUSE_FSYNC => 20
  | .FUSE_SETXATTR => 21
  | .FUSE_GETXATTR => 22
  | .FUSE_LISTXATTR => 23
  | .FUSE_REMOVEXATTR => 24
  | .FUSE_FLUSH => 25
  | .FUSE_INIT => 26
  | .FUSE_OPENDIR => 27
  | .FUSE_READDIR => 28
  | .FUSE_RELEASEDIR => 29
  | .FUSE_FSYNCDIR => 30
  | .FUSE_GETLK => 31
  | .FUSE_SETLK => 32
  | .FUSE_SETLKW => 33
  | .FUSE_ACCESS => 34
  | .FUSE_CREATE => 35
  | .FUSE_INTERRUPT => 36
  | .FUSE_BMAP => 37
  | .FUSE_DESTROY => 38

/-- Modelled from the spec: `fuse_opcode::try_from`, total on `u32`; `none` is
`Err(InvalidOpcodeError)`. -/
def FuseOpcode.tryFrom (n : UInt32) : Option FuseOpcode :=
  match n.toNat with
  | 1 => some .FUSE_LOOKUP
  | 2 => some .FUSE_FORGET
  | 3 => some .FUSE_GETATTR
  | 4 => some .FUSE_SETATTR
  | 5 => some .FUSE_READLINK
  | 6 => some .FUSE_SYMLINK
  | 8 => some .FUSE_MKNOD
  | 9 => some .FUSE_MKDIR
  | 10 => some .FUSE_UNLINK
  | 11 => some .FUSE_RMDIR
  | 12 => some .FUSE_RENAME
  | 13 => some .FUSE_LINK
  | 14 => some .FUSE_OPEN
  | 15 => some .FUSE_READ
  | 16 => some .FUSE_WRITE
  | 17 => some .FUSE_STATFS
  | 18 => some .FUSE_RELEASE
  | 20 => some .FUSE_FSYNC
  | 21 => some .FUSE_SETXATTR
  | 22 => some .FUSE_GETXATTR
  | 23 => some .FUSE_LISTXATTR
  | 24 => some .FUSE_REMOVEXATTR
  | 25 => some .FUSE_FLUSH
  | 26 => some .FUSE_INIT
  | 27 => some .FUSE_OPENDIR
  | 28 => some .FUSE_READDIR
  | 29 => some .FUSE_RELEASEDIR
  | 30 => some .FUSE_FSYNCDIR
  | 31 => some .FUSE_GETLK
  | 32 => some .FUSE_SETLK
  | 33 => some .FUSE_SETLKW
  | 34 => some .FUSE_ACCESS
  | 35 => some .FUSE_CREATE
  | 36 => some .FUSE_INTERRUPT
  | 37 => some .FUSE_BMAP
  | 38 => some .FUSE_DESTROY
  | _ => none

@[simp] theorem FuseOpcode.tryFrom_code (op : FuseOpcode) : tryFrom op.code = some op := by
  cases op <;> rfl

/-- No number decodes to an opcode other than its own: unknown codes never map
silently to a variant. -/
theorem FuseOpcode.code_of_tryFrom {n : UInt32} {op : FuseOpcode} (h : tryFrom n = some op) :
    op.code = n := by
  apply UInt32.toNat.inj
  unfold tryFrom at h
  split at h <;> first | (cases h; rename_i hn; rw [hn]; rfl) | cases h

theorem FuseOpcode.tryFrom_eq_some {n : UInt32} {op : FuseOpcode} :
    tryFrom n = some op ↔ op.code = n :=
  ⟨code_of_tryFrom, fun h => h ▸ tryFrom_code op⟩

/-- The ABI structs that `ArgumentIterator::fetch::<T>` is instantiated at. -/
inductive AbiStruct where
  | fuse_in_header
  | fuse_forget_in
  | fuse_setattr_in
  | fuse_mknod_in
  | fuse_mkdir_in
  | fuse_rename_in
  | fuse_link_in
  | fuse_open_in
  | fuse_read_in
  | fuse_write_in
  | fuse_release_in
  | fuse_fsync_in
  | fuse_setxattr_in
  | fuse_getxattr_in
  | fuse_flush_in
  | fuse_init_in
  | fuse_lk_in
  | fuse_access_in
  | fuse_create_in
  | fuse_interrupt_in
  | fuse_bmap_in
  deriving DecidableEq, Repr

/-- Modelled from the spec: `mem::size_of::<T>()`, for the Linux layouts of kernel
ABI 7.8 (the tests' INIT and MKNOD packets carry 16 and 8 argument bytes). -/
def AbiStruct.sizeOf : AbiStruct → Nat
  | .fuse_in_header => 40
  | .fuse_forget_in => 8
  | .fuse_setattr_in => 88
  | .fuse_mknod_in => 8
  | .fuse_mkdir_in => 8
  | .fuse_rename_in => 8
  | .fuse_link_in => 8
  | .fuse_open_in => 8
  | .fuse_read_in => 24
  | .fuse_write_in => 24
  | .fuse_release_in => 24
  | .fuse_fsync_in => 16
  | .fuse_setxattr_in => 8
  | .fuse_getxattr_in => 8
  | .fuse_flush_in => 24
  | .fuse_init_in => 16
  | .fuse_lk_in => 40
  | .fuse_access_in => 8
  | .fuse_create_in => 8
  | .fuse_interrupt_in => 8
  | .fuse_bmap_in => 16

end DatenLord.Fuse
