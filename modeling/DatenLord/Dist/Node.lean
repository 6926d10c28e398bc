import Mathlib.Logic.Function.Basic

/-!
# The metadata graph

The two coupled maps the peer server mutates, `path2inum` and the inode cache, and
the node records they hold. `s3_node.rs` and `s3_metadata.rs` are not among the
sources; what `server.rs` calls of them is modelled from the spec's data model: a
node owns its attributes (the inode number among them), its kind, a directory map
when it is a directory, and its full path. A map is its lookup function, so that
two maps are equal when they answer alike, as for `HashMap` and `BTreeMap`.
-/
namespace DatenLord.Dist

/-- `INum`, an inode number. -/
abbrev INum := UInt64

/-- Modelled from the spec: the kinds of node (file, directory, symlink). -/
inductive SFlag where
  | S_IFDIR
  | S_IFREG
  | S_IFLNK
  deriving DecidableEq, Repr

/-- Modelled from the spec: `FileAttr`, the inode number and kind among the
attributes a peer pushes. -/
structure FileAttr where
  ino : INum
  kind : SFlag
  size : UInt64
  perm : UInt16
  uid : UInt32
  gid : UInt32
  deriving DecidableEq, Repr

/-- Modelled from the spec: `DirEntry { inode, name, kind }`. -/
structure DirEntry where
  ino : INum
  name : String
  fileType : SFlag
  deriving DecidableEq, Repr

/-- A directory map `child_name → DirEntry`. -/
abbrev DirMap := String → Option DirEntry

/-- Modelled from the spec: what a node holds besides its attributes. -/
inductive S3NodeData where
  | Directory (dir : DirMap)
  | RegFile
  | SymLink (target : Option String)

/-- Modelled from the spec: `S3Node`, one node record. -/
structure S3Node where
  fullPath : String
  attr : FileAttr
  data : S3NodeData

/-- Modelled from the spec: a child's full path, `parent_path + "/" + child_name`. -/
def joinPath (parent name : String) : String := parent ++ "/" ++ name

theorem joinPath_ne_self (p a : String) : joinPath p a ≠ p := by
  intro h
  have := congrArg String.length h
  have : "/".length = 1 := rfl
  simp only [joinPath, String.length_append] at *
  omega

namespace S3Node

/-- `get_ino`. -/
def getIno (n : S3Node) : INum := n.attr.ino

/-- `get_attr`. -/
def getAttr (n : S3Node) : FileAttr := n.attr

/-- `get_type`, the kind the node's data has. -/
def getType (n : S3Node) : SFlag :=
  match n.data with
  | .Directory _ => .S_IFDIR
  | .RegFile => .S_IFREG
  | .SymLink _ => .S_IFLNK

/-- Modelled from the spec: `get_dir_data`, the directory map of a directory;
`none` where a node that is not a directory has none. -/
def getDirData (n : S3Node) : Option DirMap :=
  match n.data with
  | .Directory dir => some dir
  | _ => none

/-- Modelled from the spec: `get_dir_data_mut` with `f` applied to the map it
lends; `none` where a node that is not a directory has none. -/
def modifyDirData (f : DirMap → DirMap) (n : S3Node) : Option S3Node :=
  (fun dir => { n with data := .Directory (f dir) }) <$> n.getDirData

/-- Modelled from the spec: `_set_attr(attr, false)`, which replaces the attributes
and, with `false`, notifies no one. -/
def setAttr (n : S3Node) (attr : FileAttr) : S3Node := { n with attr := attr }

/-- Modelled from the spec: `new_child_node_of_parent`, a child built from the
parent's full path and the attributes' kind, not yet inserted anywhere. -/
def newChildNodeOfParent (parent : S3Node) (childName : String) (childAttr : FileAttr)
    (targetPath : Option String) : S3Node where
  fullPath := joinPath parent.fullPath childName
  attr := childAttr
  data :=
    match childAttr.kind with
    | .S_IFDIR => .Directory fun _ => none
    | .S_IFREG => .RegFile
    | .S_IFLNK => .SymLink targetPath

@[simp] theorem getIno_newChildNodeOfParent (p : S3Node) (name : String) (a : FileAttr)
    (t : Option String) : (newChildNodeOfParent p name a t).getIno = a.ino := rfl

@[simp] theorem fullPath_newChildNodeOfParent (p : S3Node) (name : String) (a : FileAttr)
    (t : Option String) : (newChildNodeOfParent p name a t).fullPath = joinPath p.fullPath name :=
  rfl

@[simp] theorem getType_newChildNodeOfParent (p : S3Node) (name : String) (a : FileAttr)
    (t : Option String) : (newChildNodeOfParent p name a t).getType = a.kind := by
  cases h : a.kind <;> simp [newChildNodeOfParent, getType, h]

@[simp] theorem getDirData_newChildNodeOfParent (p : S3Node) (name : String) (a : FileAttr)
    (t : Option String) :
    (newChildNodeOfParent p name a t).getDirData =
      if a.kind = .S_IFDIR then some (fun _ => none) else none := by
  cases h : a.kind <;> simp [newChildNodeOfParent, getDirData, h]

/-- A child is built from its parent's full path alone. -/
@[simp] theorem newChildNodeOfParent_modify (p : S3Node) (data : S3NodeData) (name : String)
    (a : FileAttr) (t : Option String) :
    newChildNodeOfParent { p with data := data } name a t = newChildNodeOfParent p name a t := rfl

theorem modifyDirData_eq_some {f : DirMap → DirMap} {n n' : S3Node}
    (h : n.modifyDirData f = some n') :
    ∃ dir, n.getDirData = some dir ∧ n' = { n with data := .Directory (f dir) } := by
  simp only [modifyDirData, Option.map_eq_map, Option.map_eq_some'] at h
  obtain ⟨dir, hd, rfl⟩ := h
  exact ⟨dir, hd, rfl⟩

@[simp] theorem getDirData_modify (n : S3Node) (dir : DirMap) :
    getDirData { n with data := .Directory dir } = some dir := rfl

@[simp] theorem getType_modify (n : S3Node) (dir : DirMap) :
    getType { n with data := .Directory dir } = .S_IFDIR := rfl

theorem getType_of_getDirData {n : S3Node} {dir : DirMap} (h : n.getDirData = some dir) :
    n.getType = .S_IFDIR := by
  cases hn : n.data <;> simp_all [getDirData, getType]

@[simp] theorem fullPath_setAttr (n : S3Node) (attr : FileAttr) :
    (n.setAttr attr).fullPath = n.fullPath := rfl

@[simp] theorem getIno_setAttr (n : S3Node) (attr : FileAttr) :
    (n.setAttr attr).getIno = attr.ino := rfl

@[simp] theorem getType_setAttr (n : S3Node) (attr : FileAttr) :
    (n.setAttr attr).getType = n.getType := rfl

@[simp] theorem getDirData_setAttr (n : S3Node) (attr : FileAttr) :
    (n.setAttr attr).getDirData = n.getDirData := rfl

end S3Node

/-- `S3MetaData`, the part the peer server reads and writes: the path index, the
inode cache and the inode counter. -/
structure S3MetaData where
  path2inum : String → Option INum
  cache : INum → Option S3Node
  curInum : UInt32

/-- The entry `name` of the directory under key `k`, if there is one. -/
def S3MetaData.entry (meta : S3MetaData) (k : INum) (name : String) : Option DirEntry :=
  (meta.cache k).bind fun n => n.getDirData.bind fun dir => dir name

/-- Modelled from the spec: a store holding one root directory, with an empty
directory map, indexed under `rootPath`. -/
def S3MetaData.root (rootPath : String) (attr : FileAttr) (curInum : UInt32) : S3MetaData where
  path2inum := Function.update (fun _ => none) rootPath (some attr.ino)
  cache := Function.update (fun _ => none) attr.ino (some ⟨rootPath, attr, .Directory fun _ => none⟩)
  curInum := curInum

end DatenLord.Dist
