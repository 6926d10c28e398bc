import DatenLord.Fuse.Argument

/-!
# Low-level filesystem operation request

`Request::try_from` of `ll_request.rs`: the header, then the opcode, then the
declared length, then the opcode's arguments, each failure with its own error.
The operation's borrowed fields are `Slice`s of the packet; `Operation σ` with
`σ := List UInt8` is the same enumeration over the bytes they borrow. The macOS
variants (`SetVolName`, `GetXTimes`, `Exchange`) are compiled out on the hosts
modelled here.
-/
namespace DatenLord.Fuse

/-- `RequestError`. -/
inductive RequestError where
  | ShortReadHeader (len : Nat)
  | UnknownOperation (opcode : UInt32)
  | ShortRead (len total : Nat)
  | InsufficientData
  deriving DecidableEq, Repr

/-- `enum Operation<'a>`, every borrowed field of type `σ`. -/
inductive Operation (σ : Type) where
  | Lookup (name : σ)
  | Forget (arg : σ)
  | GetAttr
  | SetAttr (arg : σ)
  | ReadLink
  | SymLink (name link : σ)
  | MkNod (arg name : σ)
  | MkDir (arg name : σ)
  | Unlink (name : σ)
  | RmDir (name : σ)
  | Rename (arg name newname : σ)
  | Link (arg name : σ)
  | Open (arg : σ)
  | Read (arg : σ)
  | Write (arg data : σ)
  | StatFs
  | Release (arg : σ)
  | FSync (arg : σ)
  | SetXAttr (arg name value : σ)
  | GetXAttr (arg name : σ)
  | ListXAttr (arg : σ)
  | RemoveXAttr (name : σ)
  | Flush (arg : σ)
  | Init (arg : σ)
  | OpenDir (arg : σ)
  | ReadDir (arg : σ)
  | ReleaseDir (arg : σ)
  | FSyncDir (arg : σ)
  | GetLk (arg : σ)
  | SetLk (arg : σ)
  | SetLkW (arg : σ)
  | Access (arg : σ)
  | Create (arg name : σ)
  | Interrupt (arg : σ)
  | BMap (arg : σ)
  | Destroy
  deriving DecidableEq, Repr

namespace Operation

variable {σ : Type}

/-- The opcode whose parser builds each variant. -/
def opcode : Operation σ → FuseOpcode
  | Lookup .. => .FUSE_LOOKUP
  | Forget .. => .FUSE_FORGET
  | GetAttr => .FUSE_GETATTR
  | SetAttr .. => .FUSE_SETATTR
  | ReadLink => .FUSE_READLINK
  | SymLink .. => .FUSE_SYMLINK
  | MkNod .. => .FUSE_MKNOD
  | MkDir .. => .FUSE_MKDIR
  | Unlink .. => .FUSE_UNLINK
  | RmDir .. => .FUSE_RMDIR
  | Rename .. => .FUSE_RENAME
  | Link .. => .FUSE_LINK
  | Open .. => .FUSE_OPEN
  | Read .. => .FUSE_READ
  | Write .. => .FUSE_WRITE
  | StatFs => .FUSE_STATFS
  | Release .. => .FUSE_RELEASE
  | FSync .. => .FUSE_FSYNC
  | SetXAttr .. => .FUSE_SETXATTR
  | GetXAttr .. => .FUSE_GETXATTR
  | ListXAttr .. => .FUSE_LISTXATTR
  | RemoveXAttr .. => .FUSE_REMOVEXATTR
  | Flush .. => .FUSE_FLUSH
  | Init .. => .FUSE_INIT
  | OpenDir .. => .FUSE_OPENDIR
  | ReadDir .. => .FUSE_READDIR
  | ReleaseDir .. => .FUSE_RELEASEDIR
  | FSyncDir .. => .FUSE_FSYNCDIR
  | GetLk .. => .FUSE_GETLK
  | SetLk .. => .FUSE_SETLK
  | SetLkW .. => .FUSE_SETLKW
  | Access .. => .FUSE_ACCESS
  | Create .. => .FUSE_CREATE
  | Interrupt .. => .FUSE_INTERRUPT
  | BMap .. => .FUSE_BMAP
  | Destroy => .FUSE_DESTROY

/-- The borrowed fields of a variant, in declaration order. -/
def fields : Operation σ → List σ
  | Lookup name => [name]
  | Forget arg => [arg]
  | GetAttr => []
  | SetAttr arg => [arg]
  | ReadLink => []
  | SymLink name link => [name, link]
  | MkNod arg name => [arg, name]
  | MkDir arg name => [arg, name]
  | Unlink name => [name]
  | RmDir name => [name]
  | Rename arg name newname => [arg, name, newname]
  | Link arg name => [arg, name]
  | Open arg => [arg]
  | Read arg => [arg]
  | Write arg data => [arg, data]
  | StatFs => []
  | Release arg => [arg]
  | FSync arg => [arg]
  | SetXAttr arg name value => [arg, name, value]
  | GetXAttr arg name => [arg, name]
  | ListXAttr arg => [arg]
  | RemoveXAttr name => [name]
  | Flush arg => [arg]
  | Init arg => [arg]
  | OpenDir arg => [arg]
  | ReadDir arg => [arg]
  | ReleaseDir arg => [arg]
  | FSyncDir arg => [arg]
  | GetLk arg => [arg]
  | SetLk arg => [arg]
  | SetLkW arg => [arg]
  | Access arg => [arg]
  | Create arg name => [arg, name]
  | Interrupt arg => [arg]
  | BMap arg => [arg]
  | Destroy => []

open ArgumentIterator in
/-- `Operation::parse`: the opcode's arguments, fetched in field order; a `None`
from the cursor is a `None` here. -/
def parse {data : List UInt8} :
    FuseOpcode → StateT (ArgumentIterator data) Option (Operation Slice)
  | .FUSE_LOOKUP => return Lookup (← fetchStr)
  | .FUSE_FORGET => return Forget (← fetch .fuse_forget_in)
  | .FUSE_GETATTR => return GetAttr
  | .FUSE_SETATTR => return SetAttr (← fetch .fuse_setattr_in)
  | .FUSE_READLINK => return ReadLink
  | .FUSE_SYMLINK => return SymLink (← fetchStr) (← fetchStr)
  | .FUSE_MKNOD => return MkNod (← fetch .fuse_mknod_in) (← fetchStr)
  | .FUSE_MKDIR => return MkDir (← fetch .fuse_mkdir_in) (← fetchStr)
  | .FUSE_UNLINK => return Unlink (← fetchStr)
  | .FUSE_RMDIR => return RmDir (← fetchStr)
  | .FUSE_RENAME => return Rename (← fetch .fuse_rename_in) (← fetchStr) (← fetchStr)
  | .FUSE_LINK => return Link (← fetch .fuse_link_in) (← fetchStr)
  | .FUSE_OPEN => return Open (← fetch .fuse_open_in)
  | .FUSE_READ => return Read (← fetch .fuse_read_in)
  | .FUSE_WRITE => return Write (← fetch .fuse_write_in) (← fetchAll)
  | .FUSE_STATFS => return StatFs
  | .FUSE_RELEASE => return Release (← fetch .fuse_release_in)
  | .FUSE_FSYNC => return FSync (← fetch .fuse_fsync_in)
  | .FUSE_SETXATTR => return SetXAttr (← fetch .fuse_setxattr_in) (← fetchStr) (← fetchAll)
  | .FUSE_GETXATTR => return GetXAttr (← fetch .fuse_getxattr_in) (← fetchStr)
  | .FUSE_LISTXATTR => return ListXAttr (← fetch .fuse_getxattr_in)
  | .FUSE_REMOVEXATTR => return RemoveXAttr (← fetchStr)
  | .FUSE_FLUSH => return Flush (← fetch .fuse_flush_in)
  | .FUSE_INIT => return Init (← fetch .fuse_init_in)
  | .FUSE_OPENDIR => return OpenDir (← fetch .fuse_open_in)
  | .FUSE_READDIR => return ReadDir (← fetch .fuse_read_in)
  | .FUSE_RELEASEDIR => return ReleaseDir (← fetch .fuse_release_in)
  | .FUSE_FSYNCDIR => return FSyncDir (← fetch .fuse_fsync_in)
  | .FUSE_GETLK => return GetLk (← fetch .fuse_lk_in)
  | .FUSE_SETLK => return SetLk (← fetch .fuse_lk_in)
  | .FUSE_SETLKW => return SetLkW (← fetch .fuse_lk_in)
  | .FUSE_ACCESS => return Access (← fetch .fuse_access_in)
  | .FUSE_CREATE => return Create (← fetch .fuse_create_in) (← fetchStr)
  | .FUSE_INTERRUPT => return Interrupt (← fetch .fuse_interrupt_in)
  | .FUSE_BMAP => return BMap (← fetch .fuse_bmap_in)
  | .FUSE_DESTROY => return Destroy

end Operation

/-- `struct Request<'a>`: the header and the operation, both read from the packet. -/
structure Request where
  header : FuseInHeader
  operation : Operation Slice
  deriving DecidableEq, Repr

namespace Request

/-- `Request::unique`. -/
def unique (r : Request) : UInt64 := r.header.unique

/-- `Request::nodeid`. -/
def nodeid (r : Request) : UInt64 := r.header.nodeid

/-- `Request::uid`. -/
def uid (r : Request) : UInt32 := r.header.uid

/-- `Request::gid`. -/
def gid (r : Request) : UInt32 := r.header.gid

/-- `Request::pid`. -/
def pid (r : Request) : UInt32 := r.header.pid

/-- `<Request as TryFrom<&[u8]>>::try_from` on a host of byte order `order`. The cursor
runs over the whole of `data`; `header.len` is only compared with `data`'s length. -/
def tryFrom (order : ByteOrder) (data : List UInt8) : Except RequestError Request :=
  let dataLen := data.length
  let it := ArgumentIterator.new data
  match (ArgumentIterator.fetch .fuse_in_header).run it with
  | none => .error (.ShortReadHeader it.len)
  | some (hdr, it) =>
    let header := FuseInHeader.read order (hdr.read data)
    match FuseOpcode.tryFrom header.opcode with
    | none => .error (.UnknownOperation header.opcode)
    | some opcode =>
      if dataLen < header.len.toNat then .error (.ShortRead dataLen header.len.toNat)
      else
        match (Operation.parse opcode).run it with
        | none => .error .InsufficientData
        | some (operation, _) => .ok ⟨header, operation⟩

end Request

end DatenLord.Fuse
